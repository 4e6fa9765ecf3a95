import ScriptSandbox.Proofs.Equivalence
import ScriptSandbox.Proofs.Pattern.Settled
import ScriptSandbox.Proofs.Visit

/-!
# Matching finds what patterns stand for

A pattern of constants matches a value exactly if it fits, and then it captures what its settled form
captures, whatever failed alternatives captured before. While it is matched nothing is bound and no
container changes; there may be new ones (`matchPattern_finds`).
-/

namespace ScriptSandbox

open Eval

/-! ## Subjects -/

/-- The store has all lists and dicts in a value, and the dicts were made by storing. -/
structure Store.Holds (s : Store) (v : Value) : Prop where
  list : ∀ r, s.Part (.list r) v → r.index < s.lists.size
  dict : ∀ r, s.Part (.dict r) v → r.index < s.dicts.size ∧ (s.dict r).Made

namespace Store

variable {s s' : Store} {x v : Value}

theorem Holds.item (h : s.Holds v) (hx : s.ItemOf x v) : s.Holds x :=
  ⟨fun r hr => h.list r (.item hx hr), fun r hr => h.dict r (.item hx hr)⟩

theorem Holds.of_items (hlist : ∀ r, v = .list r → r.index < s.lists.size)
    (hdict : ∀ r, v = .dict r → r.index < s.dicts.size ∧ (s.dict r).Made)
    (hitems : ∀ x, s.ItemOf x v → s.Holds x) : s.Holds v := by
  refine ⟨fun r h => ?_, fun r h => ?_⟩
  · cases h with
    | refl => exact hlist r rfl
    | item hx h => exact (hitems _ hx).list r h
  · cases h with
    | refl => exact hdict r rfl
    | item hx h => exact (hitems _ hx).dict r h

theorem Holds.sequenceItems? (h : s.Holds v) (hgrown : s.Grown s') :
    Eval.sequenceItems? s' v = Eval.sequenceItems? s v := by
  cases v with
  | list r => exact congrArg some (hgrown.list r (h.list r .refl))
  | _ => rfl

theorem Holds.of_sequence {items : Array Value} (h : s.Holds v)
    (hitems : Eval.sequenceItems? s v = some items) (hx : x ∈ items) : s.Holds x := by
  cases v with
  | list r =>
    cases hitems
    exact h.item (.list hx)
  | tuple id items' =>
    cases hitems
    exact h.item (.tuple hx)
  | _ => cases hitems

theorem Holds.of_get? {r : DictRef} {key : Value} (h : s.Holds (.dict r))
    (hget : (s.dict r).get? key = .ok (some x)) : s.Holds x := by
  obtain ⟨k, -, hk⟩ := map_eq_ok_iff.1 hget
  exact h.item (.dict hk)

/-- Constants are compared without a look at the store. -/
theorem equal_constant (s s' : Store) (x : Value) (c : Constant) :
    s.equal x (.ofConstant c) = s'.equal x (.ofConstant c) := by
  cases c <;> cases x <;> rfl

theorem constant_equal (s s' : Store) (c : Constant) (x : Value) :
    s.equal (.ofConstant c) x = s'.equal (.ofConstant c) x := by
  cases c <;> cases x <;> rfl

end Store

theorem Dict.unequal_constants {d : Dict} {s s' : Store} {values : List Value}
    (h : ∀ value ∈ values, ∃ c, value = .ofConstant c) : d.unequal s values = d.unequal s' values := by
  refine List.filter_congr fun e _ => congrArg not ?_
  rw [Bool.eq_iff_iff, List.any_eq_true, List.any_eq_true]
  refine exists_congr fun value => and_congr_right fun hvalue => ?_
  obtain ⟨c, rfl⟩ := h value hvalue
  rw [Store.plainlyEqual, Store.constant_equal s s', ← Store.plainlyEqual]

/-! ## What matching leaves alone -/

/-- Between two states no binding has changed, and containers have only been added. -/
structure RunState.KeepsBindings (s s' : RunState) : Prop where
  scopes : s'.scopes = s.scopes
  copies : s'.copies = s.copies
  handling : s'.handling = s.handling
  store : s.store.Grown s'.store

namespace RunState.KeepsBindings

variable {s s' s'' : RunState}

theorem refl (s : RunState) : s.KeepsBindings s := ⟨rfl, rfl, rfl, .refl _⟩

theorem trans (h : s.KeepsBindings s') (h' : s'.KeepsBindings s'') : s.KeepsBindings s'' :=
  ⟨h'.scopes.trans h.scopes, h'.copies.trans h.copies, h'.handling.trans h.handling,
    h.store.trans h'.store⟩

theorem stepped (s : RunState) : s.KeepsBindings s.stepped := ⟨rfl, rfl, rfl, .refl _⟩

theorem of_store {store : Store} (h : s.store.Grown store) :
    s.KeepsBindings { s with store } := ⟨rfl, rfl, rfl, h⟩

end RunState.KeepsBindings

/-! ## Alignment of items -/

namespace Eval

theorem findIdx?_leading {leading trailing : List Pattern} {name : Option String}
    (h : ∀ p ∈ leading, isStar p = false) :
    (leading ++ .star name :: trailing).findIdx? isStar = some leading.length := by
  rw [List.findIdx?_append, List.findIdx?_eq_none_iff.2 h, Option.none_or, List.findIdx?_cons]
  simp [isStar]

/-- Patterns have no star, one star, or too many of them. -/
theorem star_cases (ps : List Pattern) : (∀ p ∈ ps, isStar p = false) ∨
    (∃ leading name trailing, ps = leading ++ .star name :: trailing ∧
      (∀ p ∈ leading, isStar p = false) ∧ ∀ p ∈ trailing, isStar p = false) ∨
    ∀ items, alignItems ps items = .error .multipleStarPatterns := by
  cases hfind : ps.find? isStar with
  | none => exact .inl fun p hp => by simpa using List.find?_eq_none.1 hfind p hp
  | some star =>
    obtain ⟨hstar, leading, trailing, rfl, hleading⟩ := List.find?_eq_some_iff_append.1 hfind
    obtain ⟨name, rfl⟩ : ∃ name, star = .star name := by
      cases star with
      | star name => exact ⟨name, rfl⟩
      | _ => cases hstar
    by_cases htrailing : ∀ p ∈ trailing, isStar p = false
    · exact .inr (.inl ⟨leading, name, trailing, rfl, by simpa using hleading, htrailing⟩)
    · refine .inr (.inr fun items => if_pos ?_)
      simp only [not_forall, Bool.not_eq_false] at htrailing
      obtain ⟨p, hp, hpstar⟩ := htrailing
      have hsecond : 0 < (trailing.filter isStar).length :=
        List.length_pos_of_mem (List.mem_filter.2 ⟨hp, hpstar⟩)
      rw [List.filter_append, List.filter_cons_of_pos rfl, List.length_append, List.length_cons]
      omega

theorem filter_isStar {ps : List Pattern} (h : ∀ p ∈ ps, isStar p = false) :
    ps.filter isStar = [] :=
  List.filter_eq_nil_iff.2 fun p hp => by simp [h p hp]

theorem alignItems_of_no_star {ps : List Pattern} (h : ∀ p ∈ ps, isStar p = false)
    (items : Array Value) :
    alignItems ps items = .ok (if items.size = ps.length then some (items.toList, #[]) else none) := by
  rw [alignItems, filter_isStar h, List.findIdx?_eq_none_iff.2 h]
  rfl

section Starred

variable {leading trailing : List Pattern} (name : Option String)
  (hleading : ∀ p ∈ leading, isStar p = false) (htrailing : ∀ p ∈ trailing, isStar p = false)
  {items : Array Value}

include hleading htrailing

theorem alignItems_starred :
    alignItems (leading ++ .star name :: trailing) items =
      .ok (if items.size < leading.length + trailing.length then none
        else some ((items.extract 0 leading.length ++ #[Value.null] ++
            items.extract (items.size - trailing.length) items.size).toList,
          items.extract leading.length (items.size - trailing.length))) := by
  have hone : ((leading ++ .star name :: trailing).filter isStar).length = 1 := by
    rw [List.filter_append, List.filter_cons_of_pos rfl, filter_isStar hleading,
      filter_isStar htrailing]
    rfl
  have hothers : (leading ++ .star name :: trailing).length - 1 = leading.length + trailing.length := by
    rw [List.length_append, List.length_cons]
    omega
  rw [alignItems, hone, if_neg (by decide), findIdx?_leading hleading]
  dsimp only
  rw [hothers, Nat.add_sub_cancel_left]
  split <;> rfl

theorem alignItems_few (h : items.size < leading.length + trailing.length) :
    alignItems (leading ++ .star name :: trailing) items = .ok none := by
  rw [alignItems_starred name hleading htrailing, if_pos h]

/-- The items between those for the patterns before a star and behind it are the star's. -/
theorem alignItems_enough (h : leading.length + trailing.length ≤ items.size) :
    ∃ xs middle ys, items.toList = xs ++ middle ++ ys ∧ leading.length = xs.length ∧
      trailing.length = ys.length ∧
      alignItems (leading ++ .star name :: trailing) items =
        .ok (some (xs ++ .null :: ys, middle.toArray)) := by
  let behind := items.size - trailing.length
  have hfront : leading.length ≤ behind := Nat.le_sub_of_add_le h
  have hwhole : items.extract 0 leading.length ++ items.extract leading.length behind ++
      items.extract behind items.size = items := by
    rw [Array.extract_append_extract, Nat.zero_min, Nat.max_eq_right hfront,
      Array.extract_append_extract, Nat.zero_min, Nat.max_eq_right (Nat.sub_le _ _),
      Array.extract_size]
  refine ⟨(items.extract 0 leading.length).toList, (items.extract leading.length behind).toList,
    (items.extract behind items.size).toList, ?_, ?_, ?_, ?_⟩
  · rw [← Array.toList_append, ← Array.toList_append, hwhole]
  · simp only [Array.length_toList, Array.size_extract]
    omega
  · simp only [Array.length_toList, Array.size_extract]
    omega
  · rw [alignItems_starred name hleading htrailing, if_neg (Nat.not_lt.2 h), Array.toList_append,
      Array.toList_append, List.append_assoc]
    rfl

end Starred

end Eval

/-! ## Finding captures -/

namespace Eval

/-- Captures are extended by what the names of a settled pattern capture, each name once. -/
def Extends (old new : Store) (settled : Parts → Prop) (captures captures' : Captures) : Prop :=
  ∃ parts added, settled parts ∧ captures' = captures ++ added ∧
    List.Forall₂ (fun part c => part.1 = c.1 ∧ part.2.Is old new c.2) parts added ∧
    ((captures.map Prod.fst).Nodup → (captures'.map Prod.fst).Nodup)

variable {α β : Type} {old : Store} {captures : Captures} {fits fits' : Prop}
  {view : α → Captures} {view' : β → Captures} {settled : α → Parts → Prop}
  {settled' : α → β → Parts → Prop} {m : Eval (Option α)} {s s' : RunState}

theorem Extends.refl {new : Store} {P : Parts → Prop} (h : P []) :
    Extends old new P captures captures :=
  ⟨[], [], h, (List.append_nil _).symm, .nil, id⟩

theorem Extends.trans {new new' : Store} {P Q R : Parts → Prop} {captures' captures'' : Captures}
    (h : Extends old new P captures captures') (hgrown : new.Grown new')
    (h' : Extends old new' Q captures' captures'')
    (hboth : ∀ first second, P first → Q second → R (first ++ second)) :
    Extends old new' R captures captures'' := by
  obtain ⟨parts, added, hparts, rfl, hadded, hnodup⟩ := h
  obtain ⟨parts', added', hparts', rfl, hadded', hnodup'⟩ := h'
  refine ⟨parts ++ parts', added ++ added', hboth _ _ hparts hparts', List.append_assoc .., ?_,
    fun h => hnodup' (hnodup h)⟩
  exact List.rel_append (hadded.imp fun _ _ h => ⟨h.1, h.2.grown hgrown⟩) hadded'

theorem Extends.imp {new : Store} {P Q : Parts → Prop} {captures' : Captures}
    (h : Extends old new P captures captures') (hPQ : ∀ parts, P parts → Q parts) :
    Extends old new Q captures captures' := by
  obtain ⟨parts, added, hparts, h⟩ := h
  exact ⟨parts, added, hPQ parts hparts, h⟩

/-- How matching ends, from a state on: it fails, it finds that a pattern does not fit, or it extends
the captures as a settled pattern says; no binding is changed. -/
def Found (old : Store) (captures : Captures) (fits : Prop) (view : α → Captures)
    (settled : α → Parts → Prop) (s : RunState) : EStateM.Result Error RunState (Option α) → Prop
  | .error _ s' => s.KeepsBindings s'
  | .ok none s' => s.KeepsBindings s' ∧ ¬ fits
  | .ok (some a) s' => s.KeepsBindings s' ∧ Extends old s'.store (settled a) captures (view a)

/-- Matching ends so in each store that has grown from the one the subject stands in. -/
def Finds (old : Store) (captures : Captures) (fits : Prop) (view : α → Captures)
    (settled : α → Parts → Prop) (m : Eval (Option α)) : Prop :=
  ∀ s, old.Grown s.store → Found old captures fits view settled s (m s)

theorem Found.since {r : EStateM.Result Error RunState (Option α)} (hs : s.KeepsBindings s')
    (h : Found old captures fits view settled s' r) : Found old captures fits view settled s r := by
  match r with
  | .error _ _ => exact hs.trans h
  | .ok none _ => exact ⟨hs.trans h.1, h.2⟩
  | .ok (some _) _ => exact ⟨hs.trans h.1, h.2⟩

namespace Finds

theorem refuse (h : ¬ fits) : Finds old captures fits view settled (pure none) :=
  fun s _ => ⟨.refl s, h⟩

theorem accept {a : α} (hview : view a = captures) (h : settled a []) :
    Finds old captures fits view settled (pure (some a)) :=
  fun s _ => ⟨.refl s, hview ▸ .refl h⟩

theorem throw (e : Error) : Finds old captures fits view settled (MonadExcept.throw e) :=
  fun s _ => .refl s

theorem imp {settled' : α → Parts → Prop} (h : Finds old captures fits view settled m)
    (hfits : fits' → fits) (hsettled : ∀ a parts, settled a parts → settled' a parts) :
    Finds old captures fits' view settled' m := by
  intro s hs
  have hm := h s hs
  match m s, hm with
  | .error _ _, hm => exact hm
  | .ok none _, hm => exact ⟨hm.1, fun h' => hm.2 (hfits h')⟩
  | .ok (some a) _, hm => exact ⟨hm.1, hm.2.imp (hsettled a)⟩

theorem of_get {next : RunState → Eval (Option α)}
    (h : ∀ s, old.Grown s.store → Finds old captures fits view settled (next s)) :
    Finds old captures fits view settled (get >>= next) :=
  fun s hs => h s hs s hs

theorem of_look {f : Store → Except Error β} {next : β → Eval (Option α)}
    (hf : ∀ s : Store, old.Grown s → f s = f old)
    (h : ∀ b, f old = .ok b → Finds old captures fits view settled (next b)) :
    Finds old captures fits view settled (look f >>= next) := by
  intro s hs
  rw [bind_apply, look_apply, hf _ hs]
  cases hb : f old with
  | error e => exact .refl s
  | ok b => exact h b hb s hs

/-- One pattern after another. -/
theorem bind {k : Option α → Eval (Option β)} (h : Finds old captures fits view settled m)
    (hnone : k none = pure none)
    (hk : ∀ a parts, settled a parts →
      Finds old (view a) fits' view' (settled' a) (k (some a))) :
    Finds old captures (fits ∧ fits') view'
      (fun b parts => ∃ a first second, parts = first ++ second ∧ settled a first ∧
        settled' a b second)
      (m >>= k) := by
  intro s hs
  have hm := h s hs
  rw [bind_apply]
  match m s, hm with
  | .error _ _, hm => exact hm
  | .ok none s₁, hm =>
    dsimp only
    rw [hnone]
    exact ⟨hm.1, fun h' => hm.2 h'.1⟩
  | .ok (some a) s₁, hm =>
    obtain ⟨hkeeps, hextends⟩ := hm
    have ⟨parts, _, hparts, _⟩ := hextends
    have hk := hk a parts hparts s₁ (hs.trans hkeeps.store)
    -- what the first pattern has changed is part of what both have changed
    refine .since hkeeps ?_
    dsimp only
    match k (some a) s₁, hk with
    | .error _ _, hk => exact hk
    | .ok none _, hk => exact ⟨hk.1, fun h' => hk.2 h'.2⟩
    | .ok (some b) s₂, hk =>
      exact ⟨hk.1, hextends.trans hk.1.store hk.2 fun first second hfirst hsecond =>
        ⟨a, first, second, rfl, hfirst, hsecond⟩⟩

/-- One alternative after another. -/
theorem orElse {k : Option α → Eval (Option α)} {settled' : α → Parts → Prop}
    (h : Finds old captures fits view settled m) (hsome : ∀ a, k (some a) = pure (some a))
    (hnone : Finds old captures fits' view settled' (k none)) :
    Finds old captures (fits ∨ fits') view
      (fun a parts => settled a parts ∨ (¬ fits ∧ settled' a parts)) (m >>= k) := by
  intro s hs
  have hm := h s hs
  rw [bind_apply]
  match m s, hm with
  | .error _ _, hm => exact hm
  | .ok (some a) s₁, hm =>
    dsimp only
    rw [hsome]
    exact ⟨hm.1, hm.2.imp fun parts hparts => .inl hparts⟩
  | .ok none s₁, hm =>
    refine .since hm.1 ?_
    have hnone := hnone s₁ (hs.trans hm.1.store)
    dsimp only
    match k none s₁, hnone with
    | .error _ _, hnone => exact hnone
    | .ok none _, hnone => exact ⟨hnone.1, not_or.2 ⟨hm.2, hnone.2⟩⟩
    | .ok (some a) _, hnone =>
      exact ⟨hnone.1, hnone.2.imp fun parts hparts => .inr ⟨hm.2, hparts⟩⟩

end Finds

/-! ### Names -/

theorem found_capture {name : String} {value : Value} {captured : Captured}
    (h : captured.Is old s.store value) : Found old captures True id
      (fun _ parts => parts = [(name, captured)]) s
      ((some <$> (liftM (capture name value captures) : Eval Captures)) s) := by
  rw [some_map_apply]
  cases hcapture : capture name value captures with
  | error e => exact .refl s
  | ok captures' =>
    obtain ⟨hnew, rfl⟩ := capture_eq_ok_iff.1 hcapture
    refine ⟨.refl s, _, [(name, value)], rfl, rfl, .cons ⟨rfl, h⟩ .nil, fun hnodup => ?_⟩
    rw [id, List.map_append, List.nodup_append]
    exact ⟨hnodup, by simp, fun a ha b hb hab => hnew (by simp_all)⟩

theorem finds_captureUnder (name : Option String) (value : Value) :
    Finds old captures True id (fun _ parts => parts = .of name (.whole value))
      (some <$> (liftM (captureUnder name value captures) : Eval Captures)) := by
  cases name with
  | none => exact .accept rfl rfl
  | some name => exact fun s _ => found_capture rfl

theorem finds_captureStar (patterns : List Pattern) (middle : List Value) :
    Finds old captures True id (fun _ parts => parts = .of (starName? patterns) (.items middle))
      (some <$> captureStar patterns middle.toArray captures) := by
  unfold captureStar
  cases starName? patterns with
  | none => exact .accept rfl rfl
  | some name =>
    intro s hs
    let store := (s.store.addList middle.toArray).2
    have hkeeps : s.KeepsBindings { s with store } := .of_store (.addList ..)
    have hrun : (some <$> (do
        let value ← (StoreM.newList middle.toArray : Eval Value)
        capture name value captures) : Eval (Option Captures)) s =
        (some <$> (liftM (capture name (.list (s.store.addList middle.toArray).1) captures) :
          Eval Captures)) { s with store } := by
      rw [some_map_apply, some_map_apply]
      rfl
    rw [hrun]
    refine .since hkeeps (found_capture ⟨_, rfl, hs.lists, ?_, ?_⟩)
    · exact Nat.lt_of_lt_of_eq (Nat.lt_succ_self _) (Array.size_push _).symm
    · rw [Store.list_addList]

theorem finds_captureRemaining {r : DictRef} (hr : old.Holds (.dict r)) {values : List Value}
    (hvalues : ∀ value ∈ values, ∃ c, value = .ofConstant c) (rest : Option String) :
    Finds old captures True id
      (fun _ parts => parts = .of rest (.entries ((old.dict r).unequal old values)))
      (some <$> captureRemaining r values rest captures) := by
  unfold captureRemaining
  cases rest with
  | none => exact .accept rfl rfl
  | some name =>
    intro s hs
    obtain ⟨hlt, hmade⟩ := hr.dict r .refl
    have hdict := hs.dict r hlt
    -- the dict is the one of the old store, so the entries left are those of old
    obtain ⟨left, hleft, hlist⟩ := remaining_apply (hdict ▸ hmade) values
    have hkeeps : s.KeepsBindings { s with store := (s.store.addDict left).2 } :=
      .of_store (.addDict ..)
    have hrun : (some <$> (do
        let value ← remaining r values
        capture name value captures) : Eval (Option Captures)) s =
        (some <$> (liftM (capture name (.dict (s.store.addDict left).1) captures) :
          Eval Captures)) { s with store := (s.store.addDict left).2 } := by
      rw [some_map_apply, some_map_apply, bind_apply, hleft]
    rw [hrun]
    refine .since hkeeps (found_capture ⟨_, rfl, hs.dicts, ?_, ?_⟩)
    · exact Nat.lt_of_lt_of_eq (Nat.lt_succ_self _) (Array.size_push _).symm
    · rw [Store.dict_addDict, hlist, hdict]
      exact Dict.unequal_constants hvalues

/-! ### Patterns -/

variable {sb : Sandbox} {v : Visit} {ps qs : List Pattern} {xs ys : List Value} {x : Value}

/-- A constant is evaluated first. -/
theorem Finds.behind {e : Expr} {value : Value} (he : e.constant? = some value)
    {next : Value → Eval (Option α)} (h : Finds old captures fits view settled (next value)) :
    Finds old captures fits view settled ((visit sb).expr e >>= next) := by
  intro s hs
  rw [bind_apply]
  rcases expr_constant sb he s with ⟨e', he', -⟩ | hvalue
  · rw [he']
    exact .stepped s
  · rw [hvalue]
    exact .since (.stepped s) (h _ hs)

/-- Matching a pattern to a value finds what the pattern stands for. -/
def FindsPattern (v : Visit) (old : Store) (p : Pattern) : Prop :=
  ∀ x captures, old.Holds x → Finds old captures (Fits old p x) id
    (fun _ parts => ∃ q, Settled old p x q parts) (matchPattern v p x captures)

theorem finds_value {e : Expr} (he : e.constant?.isSome = true) :
    FindsPattern (visit sb) old (.value e) := by
  intro x captures _
  obtain ⟨value, hvalue⟩ := Option.isSome_iff_exists.1 he
  obtain ⟨c, -, hc⟩ := Expr.constant?_eq_some_iff.1 hvalue
  rw [matchPattern]
  refine .behind hvalue (.of_look (fun s _ => hc ▸ Store.equal_constant ..) fun truth hequal => ?_)
  cases truth with
  | true => exact .accept rfl ⟨_, .value hvalue hequal⟩
  | false =>
    refine .refuse fun ⟨q, parts, h⟩ => ?_
    cases h with
    | value hvalue' hequal' =>
      rw [hvalue] at hvalue'
      cases hvalue'
      rw [hequal] at hequal'
      cases hequal'

theorem finds_singleton (c : Constant) : FindsPattern v old (.singleton c) := by
  intro x captures _
  rw [matchPattern]
  cases h : isSingleton c x with
  | true => exact .accept rfl ⟨_, .singleton h⟩
  | false =>
    refine .refuse fun ⟨q, parts, hfits⟩ => ?_
    cases hfits with
    | singleton h' =>
      rw [h] at h'
      cases h'

theorem matchEach_cons {p : Pattern} (hp : isStar p = false) (x : Value) :
    matchEach v (p :: ps) (x :: xs) captures = (do
      match ← matchPattern v p x captures with
      | none => pure none
      | some captures => matchEach v ps xs captures) := by
  cases p with
  | star name => cases hp
  | _ => exact (matchEach.eq_def ..).trans rfl

theorem matchEach_nil (xs : List Value) : matchEach v [] xs captures = pure (some captures) := by
  rw [matchEach] <;> exact nofun

theorem matchEach_append (hstars : ∀ p ∈ ps, isStar p = false) (hlength : ps.length = xs.length)
    (captures : Captures) :
    matchEach v (ps ++ qs) (xs ++ ys) captures = (do
      match ← matchEach v ps xs captures with
      | none => pure none
      | some captures => matchEach v qs ys captures) := by
  -- on the patterns in front, none of which is a star, so each takes one item
  induction ps generalizing xs captures with
  | nil =>
    obtain rfl := List.length_eq_zero_iff.1 hlength.symm
    rw [matchEach_nil]
    rfl
  | cons p ps ih =>
    obtain ⟨x, xs, rfl⟩ := List.exists_cons_of_length_eq_add_one hlength.symm
    obtain ⟨hp, hrest⟩ := List.forall_mem_cons.1 hstars
    funext s
    rw [List.cons_append, List.cons_append, matchEach_cons hp, matchEach_cons hp]
    simp only [bind_apply]
    cases matchPattern v p x captures s with
    | error e s' => rfl
    | ok found s' =>
      cases found with
      | none => rfl
      | some captures =>
        dsimp only
        rw [ih hrest (Nat.succ.inj hlength), bind_apply]

/-- Patterns fit as many items. -/
def FitsEach (s : Store) (ps : List Pattern) (xs : List Value) : Prop :=
  ∃ qs parts, SettleEach s (fun _ _ => True) ps xs qs parts

theorem fitsEach_cons {p : Pattern} : FitsEach old (p :: ps) (x :: xs) ↔
    Fits old p x ∧ FitsEach old ps xs := by
  constructor
  · rintro ⟨_, _, h⟩
    cases h with
    | cons h hrest => exact ⟨⟨_, _, h⟩, _, _, hrest⟩
  · rintro ⟨⟨_, _, h⟩, _, _, hrest⟩
    exact ⟨_, _, .cons h hrest⟩

theorem finds_each (hps : ∀ p ∈ ps, FindsPattern v old p) (hstars : ∀ p ∈ ps, isStar p = false)
    (hxs : ∀ x ∈ xs, old.Holds x) (hlength : ps.length = xs.length) (captures : Captures) :
    Finds old captures (FitsEach old ps xs) id
      (fun _ parts => ∃ qs, SettleEach old (Unfit old) ps xs qs parts)
      (matchEach v ps xs captures) := by
  induction ps generalizing xs captures with
  | nil =>
    obtain rfl := List.length_eq_zero_iff.1 hlength.symm
    rw [matchEach_nil]
    exact .accept rfl ⟨[], .nil⟩
  | cons p ps ih =>
    obtain ⟨x, xs, rfl⟩ := List.exists_cons_of_length_eq_add_one hlength.symm
    rw [List.forall_mem_cons] at hps hstars hxs
    rw [matchEach_cons hstars.1]
    refine .imp (.bind (hps.1 x captures hxs.1) rfl fun captures _ _ =>
      ih hps.2 hstars.2 hxs.2 (Nat.succ.inj hlength) captures) fitsEach_cons.1 ?_
    rintro _ _ ⟨_, first, second, rfl, ⟨q, hq⟩, qs, hqs⟩
    exact ⟨q :: qs, .cons hq hqs⟩

theorem starName?_of_no_star (h : ∀ p ∈ ps, isStar p = false) : starName? ps = none := by
  induction ps with
  | nil => rfl
  | cons p ps ih =>
    obtain ⟨hp, hrest⟩ := List.forall_mem_cons.1 h
    cases p with
    | star => cases hp
    | _ => exact ih hrest

section Starred

variable {leading trailing : List Pattern} {name : Option String}
  (hleading : ∀ p ∈ leading, isStar p = false)

include hleading

theorem starName?_starred : starName? (leading ++ .star name :: trailing) = name := by
  induction leading with
  | nil => rfl
  | cons p leading ih =>
    obtain ⟨hp, hrest⟩ := List.forall_mem_cons.1 hleading
    cases p with
    | star => cases hp
    | _ => exact ih hrest

theorem matchEach_starred (hlength : leading.length = xs.length) (captures : Captures) :
    matchEach v (leading ++ .star name :: trailing) (xs ++ .null :: ys) captures = (do
      match ← matchEach v leading xs captures with
      | none => pure none
      | some captures => matchEach v trailing ys captures) := by
  rw [matchEach_append hleading hlength]
  simp only [matchEach]

end Starred

theorem ofExcept_ok_bind (a : α) (next : α → Eval β) :
    ((liftM (Except.ok a : Except Error α) : Eval α) >>= next) = next a := rfl

/-- Without a star, patterns match as many items. -/
theorem finds_no_star {items : Array Value} (hps : ∀ p ∈ ps, FindsPattern v old p)
    (hstars : ∀ p ∈ ps, isStar p = false) (hitems : sequenceItems? old x = some items)
    (hheld : ∀ y ∈ items.toList, old.Holds y) (hsize : items.size = ps.length)
    (captures : Captures) :
    Finds old captures (Fits old (.sequence ps) x) id
      (fun _ parts => ∃ q, Settled old (.sequence ps) x q parts) (do
      match ← matchEach v ps items.toList captures with
      | none => pure none
      | some captures => some <$> captureStar ps #[] captures) := by
  have hlength : ps.length = items.toList.length := hsize.symm.trans Array.length_toList.symm
  refine .imp (.bind (finds_each hps hstars hheld hlength captures) rfl
    fun captures _ _ => finds_captureStar ps []) ?_ ?_
  · rintro ⟨q, parts, h⟩
    obtain ⟨qs, h⟩ := h.each_of_sequence hstars hitems
    exact ⟨⟨qs, parts, h⟩, True.intro⟩
  · rintro _ _ ⟨_, parts, _, rfl, ⟨qs, h⟩, rfl⟩
    rw [starName?_of_no_star hstars]
    exact ⟨_, .sequence hitems ((List.append_nil parts).symm ▸ h)⟩

/-- The patterns before a star and those behind it match the first items and the last ones, and the
star has the items between. -/
theorem finds_starred {leading trailing : List Pattern} {name : Option String} {items : Array Value}
    {middle : List Value} (hleading : ∀ p ∈ leading, FindsPattern v old p)
    (htrailing : ∀ p ∈ trailing, FindsPattern v old p) (hstars : ∀ p ∈ leading, isStar p = false)
    (hstars' : ∀ p ∈ trailing, isStar p = false) (hitems : sequenceItems? old x = some items)
    (hheld : ∀ y ∈ items.toList, old.Holds y) (hparts : items.toList = xs ++ middle ++ ys)
    (hxs : leading.length = xs.length) (hys : trailing.length = ys.length) (captures : Captures) :
    Finds old captures (Fits old (.sequence (leading ++ .star name :: trailing)) x) id
      (fun _ parts => ∃ q, Settled old (.sequence (leading ++ .star name :: trailing)) x q parts) (do
      match ← matchEach v (leading ++ .star name :: trailing) (xs ++ .null :: ys) captures with
      | none => pure none
      | some captures =>
        some <$> captureStar (leading ++ .star name :: trailing) middle.toArray captures) := by
  rw [hparts] at hheld
  have hfront := finds_each hleading hstars (fun y hy => hheld y (by simp [hy])) hxs
  have hback := finds_each htrailing hstars' (fun y hy => hheld y (by simp [hy])) hys
  rw [matchEach_starred hstars hxs]
  refine .imp (.bind (.bind (hfront captures) rfl fun captures _ _ => hback captures) rfl
    fun captures _ _ => finds_captureStar _ middle) ?_ ?_
  · rintro ⟨q, parts, h⟩
    exact ⟨h.parts_of_starred hstars hitems hparts hxs hys, True.intro⟩
  · rintro _ _ ⟨_, _, _, rfl, ⟨_, parts, parts', rfl, ⟨qs, h⟩, qs', h'⟩, rfl⟩
    rw [starName?_starred hstars]
    exact ⟨_, .starred hitems hparts h h'⟩

theorem finds_sequence (hps : ∀ p ∈ ps, FindsPattern v old p) :
    FindsPattern v old (.sequence ps) := by
  intro x captures hx
  rw [matchPattern]
  refine .of_get fun s hs => ?_
  rw [hx.sequenceItems? hs]
  cases hitems : sequenceItems? old x with
  | none =>
    refine .refuse fun ⟨q, parts, h⟩ => ?_
    cases h with
    | sequence hitems' | starred hitems' =>
      rw [hitems] at hitems'
      cases hitems'
  | some items =>
    have hheld : ∀ y ∈ items.toList, old.Holds y := fun y hy =>
      hx.of_sequence hitems (Array.mem_toList_iff.1 hy)
    dsimp only
    -- without a star, with one, and with more, which is an error
    rcases star_cases ps with hstars | ⟨leading, name, trailing, rfl, hleading, htrailing⟩ | herror
    · rw [alignItems_of_no_star hstars, ofExcept_ok_bind]
      by_cases hsize : items.size = ps.length
      · rw [if_pos hsize]
        exact finds_no_star hps hstars hitems hheld hsize captures
      · rw [if_neg hsize]
        refine .refuse fun ⟨q, parts, h⟩ => hsize ?_
        obtain ⟨qs, h⟩ := h.each_of_sequence hstars hitems
        exact Array.length_toList.symm.trans h.length_eq.symm
    · rcases Nat.lt_or_ge items.size (leading.length + trailing.length) with hfew | henough
      · rw [alignItems_few name hleading htrailing hfew, ofExcept_ok_bind]
        refine .refuse fun ⟨q, parts, h⟩ => ?_
        exact Nat.not_le.2 hfew (h.length_of_starred hleading hitems)
      · obtain ⟨xs, middle, ys, hparts, hxs, hys, halign⟩ :=
          alignItems_enough name hleading htrailing henough
        rw [halign, ofExcept_ok_bind]
        exact finds_starred (fun p hp => hps p (List.mem_append_left _ hp))
          (fun p hp => hps p (List.mem_append_right _ (.tail _ hp))) hleading htrailing hitems hheld
          hparts hxs hys captures
    · rw [herror]
      exact .throw _

/-- A dict has, under keys that are constants, values that patterns fit. -/
def FitsEntries (s : Store) (d : Dict) (keys : List Expr) (ps : List Pattern) : Prop :=
  ∃ keys' values qs parts, SettleEntries s (fun _ _ => True) d keys ps keys' values qs parts

theorem fitsEntries_cons {d : Dict} {key : Expr} {keys : List Expr} {p : Pattern} :
    FitsEntries old d (key :: keys) (p :: ps) ↔ ∃ value item, key.constant? = some value ∧
      d.get? value = .ok (some item) ∧ Fits old p item ∧ FitsEntries old d keys ps := by
  constructor
  · rintro ⟨_, _, _, _, h⟩
    cases h with
    | done h => simp at h
    | entry hvalue hget h hrest => exact ⟨_, _, hvalue, hget, ⟨_, _, h⟩, _, _, _, _, hrest⟩
  · rintro ⟨value, item, hvalue, hget, ⟨_, _, h⟩, _, _, _, _, hrest⟩
    exact ⟨_, _, _, _, .entry hvalue hget h hrest⟩

/-- The values of the keys that have a pattern come behind those listed before. -/
def ListsEntries (s : Store) (d : Dict) (keys : List Expr) (ps : List Pattern)
    (matched : List Value) (result : List Value × Captures) (parts : Parts) : Prop :=
  ∃ keys' values qs, result.1 = matched ++ values ∧
    SettleEntries s (Unfit s) d keys ps keys' values qs parts

theorem finds_no_entries {r : DictRef} {keys : List Expr} (h : ps = [] ∨ keys = [])
    (matched : List Value) (captures : Captures) :
    Finds old captures (FitsEntries old (old.dict r) keys ps) Prod.snd
      (ListsEntries old (old.dict r) keys ps matched) (matchEntries v r ps keys matched captures) := by
  have hrun : matchEntries v r ps keys matched captures = pure (some (matched, captures)) :=
    funext fun s => matchEntries_end h
  rw [hrun]
  exact .accept rfl ⟨[], [], [], (List.append_nil _).symm, .done h⟩

theorem finds_entries {r : DictRef} {keys : List Expr} (hr : old.Holds (.dict r))
    (hps : ∀ p ∈ ps, FindsPattern (visit sb) old p)
    (hkeys : ∀ key ∈ keys, key.constant?.isSome = true) (matched : List Value)
    (captures : Captures) :
    Finds old captures (FitsEntries old (old.dict r) keys ps) Prod.snd
      (ListsEntries old (old.dict r) keys ps matched)
      (matchEntries (visit sb) r ps keys matched captures) := by
  induction ps generalizing keys matched captures with
  | nil => exact finds_no_entries (.inl rfl) matched captures
  | cons p ps ih =>
    cases keys with
    | nil => exact finds_no_entries (.inr rfl) matched captures
    | cons key keys =>
      obtain ⟨hkey, hkeys⟩ := List.forall_mem_cons.1 hkeys
      obtain ⟨hp, hps⟩ := List.forall_mem_cons.1 hps
      obtain ⟨value, hvalue⟩ := Option.isSome_iff_exists.1 hkey
      have hdict : ∀ s : Store, old.Grown s → (s.dict r).get? value = (old.dict r).get? value :=
        fun s hs => by rw [hs.dict r (hr.dict r .refl).1]
      rw [matchEntries]
      refine .behind hvalue (.of_look hdict fun found hfound => ?_)
      cases found with
      | none =>
        refine .refuse fun h => ?_
        obtain ⟨value', item, hvalue', hget, -⟩ := fitsEntries_cons.1 h
        rw [hvalue] at hvalue'
        cases hvalue'
        rw [hfound] at hget
        cases hget
      | some item =>
        refine .imp (.bind (hp item captures (hr.of_get? hfound)) rfl fun captures _ _ =>
          ih hps hkeys (matched ++ [value]) captures) (fun h => ?_) ?_
        · obtain ⟨value', item', hvalue', hget, hfits, hrest⟩ := fitsEntries_cons.1 h
          rw [hvalue] at hvalue'
          cases hvalue'
          rw [hfound] at hget
          cases hget
          exact ⟨hfits, hrest⟩
        · rintro result _ ⟨_, first, second, rfl, ⟨q, hq⟩, keys', values, qs, hresult, hrest⟩
          refine ⟨key :: keys', value :: values, q :: qs, ?_, .entry hvalue hfound hq hrest⟩
          rw [hresult, List.append_assoc]
          rfl

theorem finds_mapping {keys : List Expr} (rest : Option String)
    (hps : ∀ p ∈ ps, FindsPattern (visit sb) old p)
    (hkeys : ∀ key ∈ keys, key.constant?.isSome = true) :
    FindsPattern (visit sb) old (.mapping keys ps rest) := by
  intro x captures hx
  cases x with
  | dict r =>
    rw [matchPattern]
    have hentries := finds_entries hx hps hkeys [] captures
    have hrest : ∀ (result : List Value × Captures) parts,
        ListsEntries old (old.dict r) keys ps [] result parts →
        Finds old result.2 True id
          (fun _ parts => parts = .of rest (.entries ((old.dict r).unequal old result.1)))
          (some <$> captureRemaining r result.1 rest result.2) := by
      rintro ⟨_, captures⟩ parts ⟨keys', values, qs, rfl, h⟩
      exact finds_captureRemaining hx h.constants rest
    refine .imp (.bind hentries rfl hrest) ?_ ?_
    · rintro ⟨q, parts, h⟩
      cases h with
      | mapping h => exact ⟨⟨_, _, _, _, h⟩, True.intro⟩
    · rintro _ _ ⟨⟨_, captures⟩, parts, _, rfl, ⟨keys', values, qs, rfl, h⟩, rfl⟩
      exact ⟨_, .mapping h⟩
  | _ =>
    simp only [matchPattern]
    exact .refuse fun ⟨q, parts, h⟩ => by cases h

theorem finds_any (hps : ∀ p ∈ ps, FindsPattern v old p) (hx : old.Holds x) (captures : Captures) :
    Finds old captures (∃ p ∈ ps, Fits old p x) id
      (fun _ parts => ∃ before p after q, ps = before ++ p :: after ∧
        (∀ p ∈ before, Unfit old p x) ∧ Settled old p x q parts)
      (matchAny v ps x captures) := by
  induction ps with
  | nil =>
    rw [matchAny]
    exact .refuse (by simp)
  | cons p ps ih =>
    obtain ⟨hp, hps⟩ := List.forall_mem_cons.1 hps
    rw [matchAny]
    refine .imp (.orElse (hp x captures hx) (fun _ => rfl) (ih hps)) ?_ ?_
    · exact List.exists_mem_cons_iff .. |>.1
    · rintro _ parts (⟨q, hq⟩ | ⟨hunfit, before, p', after, q, rfl, hbefore, hq⟩)
      · exact ⟨[], p, ps, q, rfl, nofun, hq⟩
      · exact ⟨p :: before, p', after, q, rfl, List.forall_mem_cons.2 ⟨hunfit, hbefore⟩, hq⟩

theorem finds_bare (name : Option String) : FindsPattern v old (.as none name) := by
  intro x captures _
  rw [matchPattern]
  refine .imp (finds_captureUnder name x) (fun _ => True.intro) ?_
  rintro _ _ rfl
  exact ⟨_, .bare⟩

theorem finds_as {p : Pattern} (name : Option String) (hp : FindsPattern v old p) :
    FindsPattern v old (.as (some p) name) := by
  intro x captures hx
  rw [matchPattern]
  refine .imp (.bind (hp x captures hx) rfl fun captures _ _ => finds_captureUnder name x) ?_ ?_
  · rintro ⟨q, parts, h⟩
    cases h with
    | as h => exact ⟨⟨_, _, h⟩, True.intro⟩
  · rintro _ _ ⟨_, parts, _, rfl, ⟨q, h⟩, rfl⟩
    exact ⟨_, .as h⟩

theorem finds_or (hps : ∀ p ∈ ps, FindsPattern v old p) : FindsPattern v old (.or ps) := by
  intro x captures hx
  rw [matchPattern]
  refine .imp (finds_any hps hx captures) ?_ ?_
  · rintro ⟨q, parts, h⟩
    cases h with
    | or _ h => exact ⟨_, List.mem_append_right _ List.mem_cons_self, _, _, h⟩
  · rintro _ _ ⟨before, p, after, q, rfl, hbefore, h⟩
    exact ⟨q, .or hbefore h⟩

/-- Matching a pattern of constants finds what it stands for. -/
theorem matchPattern_finds (sb : Sandbox) (old : Store) {p : Pattern} (hp : p.IsConstant) :
    FindsPattern (visit sb) old p := by
  induction p using Pattern.induction with
  | value e => exact finds_value (hp e (List.mem_singleton_self e))
  | singleton c => exact finds_singleton c
  | sequence ps ih => exact finds_sequence fun p hmem => ih p hmem (.of_mem hmem hp)
  | mapping keys ps rest ih =>
    have hkeys : ∀ key ∈ keys, key.constant?.isSome = true := fun key hkey =>
      hp key (List.mem_append_left _ hkey)
    have hpatterns : ∀ e ∈ Pattern.exprsIn ps, e.constant?.isSome = true := fun e he =>
      hp e (List.mem_append_right _ he)
    exact finds_mapping rest (fun p hmem => ih p hmem (.of_mem hmem hpatterns)) hkeys
  | star name =>
    intro x captures _
    rw [matchPattern]
    exact .throw _
  | bare name => exact finds_bare name
  | as p name ih => exact finds_as name (ih hp)
  | or ps ih => exact finds_or fun p hmem => ih p hmem (.of_mem hmem hp)

end Eval

end ScriptSandbox

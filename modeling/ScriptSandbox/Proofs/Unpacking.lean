import Mathlib.Data.List.Forall2
import ScriptSandbox.Proofs.Pattern.Remaining

/-!
# Unpacking

The names of a target list take the items of a value in order, one item each, and a starred name a
new list of the items that the others leave over. The items are split before anything is bound, so
where they cannot be shared out nothing is bound (`unpacking`).
-/

namespace ScriptSandbox

open Eval

/-- An element of a target list: a name for one item, or a starred name for the items left over. -/
inductive Taker where
  | one (name : String)
  | rest (name : String)

namespace Taker

def name : Taker → String
  | one name | rest name => name

def isRest : Taker → Bool
  | one _ => false
  | rest _ => true

/-- Whether items can be shared out: one for each unstarred name, and more only to a starred one. -/
def Fits (takers : List Taker) (n : Nat) : Prop :=
  if takers.any isRest then (takers.filter fun t => !t.isRest).length ≤ n else n = takers.length

/-- What an element of a target list gets, for its share of the items: the item, or a list of them
that is not in the store before. -/
def Gets (before after : Store) : Taker → Value → List Value → Prop
  | one _, value, items => items = [value]
  | rest _, value, items => ∃ r, value = .list r ∧ value.NewIn before after ∧
      after.list r = items.toArray

end Taker

/-- A target that is a name, or a starred name. -/
inductive Expr.Takes : Expr → Taker → Prop
  | one {name : String} {span : Span} : Takes ⟨.name name, span⟩ (.one name)
  | rest {name : String} {inner span : Span} :
    Takes ⟨.starred ⟨.name name, inner⟩, span⟩ (.rest name)

namespace RunState

/-- An element of a target list has got its share of the items, bound to its name. -/
def Took (s s' : RunState) (taker : Taker) (items : List Value) : Prop :=
  ∃ value, (s'.scopes.scope s.scopes.current).lookup taker.name = some value ∧
    taker.Gets s.store s'.store value items

/-- A state with another count of rounds. -/
def withLoops (s : RunState) (loops : Nat) : RunState := { s with guard := { s.guard with loops } }

/-- One of the next rounds begins behind the deadline. -/
def LateRound (sb : Sandbox) (s : RunState) (n : Nat) : Prop :=
  ∃ number, s.guard.loops < number ∧ number ≤ s.guard.loops + n ∧
    sb.clock.isLate sb.limits.timeout (.round number) = true

/-- The kinds of error for rounds that are too many, or behind the deadline. -/
def OutOfRounds (sb : Sandbox) (s : RunState) (n : Nat) (kind : ErrorKind) : Prop :=
  sb.limits.maxLoopIterations < s.guard.loops + n ∧
    kind = .limitExceeded .loopIterations sb.limits.maxLoopIterations ∨
  s.LateRound sb n ∧ kind = .limitExceeded .timeout sb.limits.timeoutMillis

/-- The rounds behind a first one are among all of them. -/
theorem OutOfRounds.behind {sb : Sandbox} {s : RunState} {n : Nat} {kind : ErrorKind}
    (h : (s.withLoops (s.guard.loops + 1)).OutOfRounds sb n kind) : s.OutOfRounds sb (n + 1) kind := by
  have hcount : s.guard.loops + 1 + n = s.guard.loops + (n + 1) := by omega
  rcases h with ⟨hmany, hkind⟩ | ⟨⟨number, hlt, hle, hlate⟩, hkind⟩
  · exact .inl ⟨hcount ▸ hmany, hkind⟩
  · exact .inr ⟨⟨number, Nat.lt_of_succ_lt hlt, hcount ▸ hle, hlate⟩, hkind⟩

end RunState

/-! ## Rounds -/

namespace Eval

variable {sb : Sandbox} {v : Visit} {s counted : RunState} {targets : List Expr} {takers : List Taker}
  {value : Value} {items : Items}

theorem countRounds_ends (sb : Sandbox) (n : Nat) (s : RunState) :
    match countRounds sb n s with
    | .ok _ s' => s' = s.withLoops (s.guard.loops + n)
    | .error e s' => (∃ loops, s' = s.withLoops loops) ∧ s.OutOfRounds sb n e.kind := by
  -- one round after another, as each may be the one too many
  induction n generalizing s with
  | zero => exact rfl
  | succ n ih =>
    simp only [countRounds, bind_apply, liftM, monadLift, MonadLift.monadLift, onGuard]
    rcases Guard.tickLoop_cases sb.limits sb.clock s.guard with ⟨hmany, h⟩ | ⟨hroom, h | h⟩
    · rw [h]
      exact ⟨⟨_, rfl⟩, .inl ⟨Nat.lt_of_lt_of_le hmany (by simp), rfl⟩⟩
    · rw [h]
      have hrest := ih (s.withLoops (s.guard.loops + 1))
      have hcount : s.guard.loops + 1 + n = s.guard.loops + (n + 1) := by omega
      show match countRounds sb n (s.withLoops (s.guard.loops + 1)) with
        | .ok _ s' => s' = s.withLoops (s.guard.loops + (n + 1))
        | .error e s' => (∃ loops, s' = s.withLoops loops) ∧ s.OutOfRounds sb (n + 1) e.kind
      cases hr : countRounds sb n (s.withLoops (s.guard.loops + 1)) with
      | ok u s' =>
        rw [hr] at hrest
        exact hrest.trans (congrArg s.withLoops hcount)
      | error e s' =>
        rw [hr] at hrest
        obtain ⟨⟨loops, hloops⟩, hout⟩ := hrest
        exact ⟨⟨loops, hloops⟩, hout.behind⟩
    · rw [h]
      refine ⟨⟨_, rfl⟩, .inr ⟨⟨_, Nat.lt_succ_self _, by omega, ?_⟩, rfl⟩⟩
      exact Guard.late_of_tickLoop hroom h

/-! ## Sharing items out -/

theorem isStarred_of_takes {e : Expr} {t : Taker} (h : e.Takes t) : isStarred e = t.isRest := by
  cases h <;> rfl

theorem stars_of_takes (h : List.Forall₂ Expr.Takes targets takers) :
    targets.map isStarred = takers.map Taker.isRest := by
  induction h with
  | nil => rfl
  | cons hhead _ ih => rw [List.map_cons, List.map_cons, isStarred_of_takes hhead, ih]

theorem findIdx?_isStarred (h : List.Forall₂ Expr.Takes targets takers) :
    targets.findIdx? isStarred = takers.findIdx? Taker.isRest := by
  have hmap := congrArg (List.findIdx? id) (stars_of_takes h)
  rwa [List.findIdx?_map, List.findIdx?_map] at hmap

theorem count_isStarred (h : List.Forall₂ Expr.Takes targets takers) :
    (targets.filter isStarred).length = takers.countP Taker.isRest := by
  have hmap := congrArg (List.countP id) (stars_of_takes h)
  rw [List.countP_map, List.countP_map] at hmap
  rw [← List.countP_eq_length_filter]
  exact hmap

/-- Two starred names are refused before anything else is looked at. -/
theorem unpack_refused (h : List.Forall₂ Expr.Takes targets takers)
    (hmany : 1 < takers.countP Taker.isRest) (value : Value) (s : RunState) :
    unpack sb targets value s = .error .multipleStarredTargets s := by
  unfold unpack
  rw [count_isStarred h]
  dsimp only
  rw [if_pos hmany]
  rfl

theorem iterate_apply (h : s.store.iterate value = .ok items) : iterate value s = .ok items s := by
  rw [iterate, look_apply, h]

section Counted

variable (hiter : s.store.iterate value = .ok items)
  (hcount : countRounds sb items.size s = .ok () counted)

include hiter hcount

/-- Without a starred name there are as many items as names. -/
theorem unpack_plain (h : List.Forall₂ Expr.Takes targets takers)
    (hplain : ∀ t ∈ takers, t.isRest = false) :
    unpack sb targets value s =
      if items.toList.length < takers.length then
        .error (.tooFewValues takers.length items.toList.length) counted
      else if takers.length < items.toList.length then .error (.tooManyValues takers.length) counted
      else .ok items.toList counted := by
  have hcountP : takers.countP Taker.isRest = 0 :=
    List.countP_eq_zero.2 fun t ht => by simp [hplain t ht]
  have hindex : takers.findIdx? Taker.isRest = none := List.findIdx?_eq_none_iff.2 hplain
  simp only [unpack, count_isStarred h, findIdx?_isStarred h, h.length_eq, hcountP, hindex,
    Nat.not_lt_zero, if_false, bind_apply, iterate_apply hiter, hcount]
  split
  · rfl
  · split <;> rfl

theorem unpack_starred {leading trailing : List Taker} {name : String}
    (h : List.Forall₂ Expr.Takes targets (leading ++ .rest name :: trailing))
    (hleading : ∀ t ∈ leading, t.isRest = false) (htrailing : ∀ t ∈ trailing, t.isRest = false) :
    unpack sb targets value s =
      if items.toList.length < leading.length + trailing.length then
        .error (.tooFewValuesForStar (leading.length + trailing.length) items.toList.length) counted
      else
        let behind := items.toList.drop leading.length
        let middle := behind.length - trailing.length
        .ok (items.toList.take leading.length ++
            .list ⟨counted.store.lists.size⟩ :: behind.drop middle)
          { counted with store := (counted.store.addList (behind.take middle).toArray).2 } := by
  have hcountP : (leading ++ .rest name :: trailing).countP Taker.isRest = 1 := by
    rw [List.countP_append, List.countP_cons, List.countP_eq_zero.2 fun t ht => by simp [hleading t ht],
      List.countP_eq_zero.2 fun t ht => by simp [htrailing t ht]]
    rfl
  -- the star is the only one, and its place is the number of names in front
  have hindex : (leading ++ .rest name :: trailing).findIdx? Taker.isRest = some leading.length := by
    rw [List.findIdx?_append, List.findIdx?_eq_none_iff.2 hleading, Option.none_or,
      List.findIdx?_cons]
    exact congrArg some (Nat.zero_add _)
  have hothers : (leading ++ .rest name :: trailing).length - 1 = leading.length + trailing.length := by
    rw [List.length_append, List.length_cons]
    omega
  simp only [unpack, count_isStarred h, findIdx?_isStarred h, h.length_eq, hcountP, hindex, hothers,
    Nat.lt_irrefl, if_false, bind_apply, iterate_apply hiter, hcount, Nat.add_sub_cancel_left]
  split <;> rfl

/-- The items between those for the names before the starred one and behind it go into a new list. -/
theorem unpack_enough {leading trailing : List Taker} {name : String}
    (h : List.Forall₂ Expr.Takes targets (leading ++ .rest name :: trailing))
    (hleading : ∀ t ∈ leading, t.isRest = false) (htrailing : ∀ t ∈ trailing, t.isRest = false)
    (hroom : leading.length + trailing.length ≤ items.size) :
    ∃ front middle back, items.toList = front ++ middle ++ back ∧ leading.length = front.length ∧
      trailing.length = back.length ∧
      unpack sb targets value s = .ok (front ++ .list ⟨counted.store.lists.size⟩ :: back)
        { counted with store := (counted.store.addList middle.toArray).2 } := by
  have hsize := items.length_toList
  have hunpack := unpack_starred hiter hcount h hleading htrailing
  rw [if_neg (by omega)] at hunpack
  refine ⟨_, _, _, ?_, ?_, ?_, hunpack⟩
  · rw [List.append_assoc, List.take_append_drop, List.take_append_drop]
  · rw [List.length_take]
    omega
  · simp only [List.length_drop]
    omega

end Counted

/-- A share of one item for each unstarred name. -/
theorem gets_singles {before after : Store} (hplain : ∀ t ∈ takers, t.isRest = false)
    {values : List Value} (hlength : takers.length = values.length) :
    List.Forall₂ (fun t share => t.Gets before after share.1 share.2) takers
      (values.map fun value => (value, [value])) := by
  induction takers generalizing values with
  | nil =>
    obtain rfl := List.length_eq_zero_iff.1 hlength.symm
    exact .nil
  | cons t takers ih =>
    cases values with
    | nil => cases hlength
    | cons value values =>
      rw [List.forall_mem_cons] at hplain
      refine .cons ?_ (ih hplain.2 (Nat.succ.inj hlength))
      cases t with
      | one name => exact rfl
      | rest name => cases hplain.1

theorem fst_singles (values : List Value) :
    (values.map fun value => (value, [value])).map Prod.fst = values := by
  rw [List.map_map]
  exact List.map_id values

theorem flatten_singles (values : List Value) :
    ((values.map fun value => (value, [value])).map Prod.snd).flatten = values := by
  rw [List.map_map]
  exact List.flatMap_singleton' values

theorem fits_of_plain (hplain : ∀ t ∈ takers, t.isRest = false) (n : Nat) :
    Taker.Fits takers n ↔ n = takers.length := by
  have hany : takers.any Taker.isRest = false := by
    simpa using hplain
  rw [Taker.Fits, hany]
  exact Iff.rfl

theorem fits_of_starred {leading trailing : List Taker} {name : String}
    (hleading : ∀ t ∈ leading, t.isRest = false) (htrailing : ∀ t ∈ trailing, t.isRest = false)
    (n : Nat) : Taker.Fits (leading ++ .rest name :: trailing) n ↔
      leading.length + trailing.length ≤ n := by
  have hany : (leading ++ .rest name :: trailing).any Taker.isRest = true := by
    simp [Taker.isRest]
  have hothers : ((leading ++ .rest name :: trailing).filter fun t => !t.isRest) =
      leading ++ trailing := by
    rw [List.filter_append, List.filter_cons_of_neg (by simp [Taker.isRest]),
      List.filter_eq_self.2 fun t ht => by simp [hleading t ht],
      List.filter_eq_self.2 fun t ht => by simp [htrailing t ht]]
  rw [Taker.Fits, hany, hothers, List.length_append]
  exact Iff.rfl

/-- At most one starred name is none, or one between names. -/
theorem takers_cases (hone : takers.countP Taker.isRest ≤ 1) : (∀ t ∈ takers, t.isRest = false) ∨
    ∃ leading name trailing, takers = leading ++ .rest name :: trailing ∧
      (∀ t ∈ leading, t.isRest = false) ∧ ∀ t ∈ trailing, t.isRest = false := by
  cases hfind : takers.find? Taker.isRest with
  | none => exact .inl fun t ht => by simpa using List.find?_eq_none.1 hfind t ht
  | some star =>
    obtain ⟨hstar, leading, trailing, rfl, hleading⟩ := List.find?_eq_some_iff_append.1 hfind
    cases star with
    | one name => cases hstar
    | rest name =>
      refine .inr ⟨leading, name, trailing, rfl, by simpa using hleading, fun t ht => ?_⟩
      rw [List.countP_append, List.countP_cons_of_pos hstar] at hone
      have hnone : trailing.countP Taker.isRest = 0 := by omega
      simpa using List.countP_eq_zero.1 hnone t ht

theorem unpack_out (h : List.Forall₂ Expr.Takes targets takers)
    (hone : takers.countP Taker.isRest ≤ 1) (hiter : s.store.iterate value = .ok items) {e : Error}
    (hcount : countRounds sb items.size s = .error e counted) :
    unpack sb targets value s = .error e counted := by
  simp only [unpack, count_isStarred h, Nat.not_lt.2 hone, if_false, bind_apply,
    iterate_apply hiter, hcount]

/-- Items are shared out if they fit; else nothing changes. -/
theorem unpack_counted (h : List.Forall₂ Expr.Takes targets takers)
    (hone : takers.countP Taker.isRest ≤ 1) (hiter : s.store.iterate value = .ok items)
    (hcount : countRounds sb items.size s = .ok () counted) :
    (Taker.Fits takers items.size ∧ ∃ store shares,
      unpack sb targets value s = .ok (shares.map Prod.fst) { counted with store } ∧
      counted.store.Grown store ∧
      List.Forall₂ (fun t share => t.Gets counted.store store share.1 share.2) takers shares ∧
      (shares.map Prod.snd).flatten = items.toList) ∨
    (¬ Taker.Fits takers items.size ∧ ∃ e m, unpack sb targets value s = .error e counted ∧
      e.kind = .fault "ValueError" m) := by
  have hsize := items.length_toList
  -- without a star the numbers have to be equal, with one there may be more items
  rcases takers_cases hone with hplain | ⟨leading, name, trailing, rfl, hleading, htrailing⟩
  · rw [unpack_plain hiter hcount h hplain, fits_of_plain hplain, hsize]
    split
    · exact .inr ⟨by omega, _, _, rfl, rfl⟩
    · split
      · exact .inr ⟨by omega, _, _, rfl, rfl⟩
      · refine .inl ⟨by omega, counted.store, items.toList.map fun value => (value, [value]), ?_,
          .refl _, gets_singles hplain (by omega), flatten_singles _⟩
        rw [fst_singles]
  · rw [fits_of_starred hleading htrailing]
    rcases Nat.lt_or_ge items.size (leading.length + trailing.length) with hfew | hroom
    · rw [unpack_starred hiter hcount h hleading htrailing, hsize, if_pos hfew]
      exact .inr ⟨Nat.not_le.2 hfew, _, _, rfl, rfl⟩
    · obtain ⟨front, middle, back, hitems, hfront, hback, hunpack⟩ :=
        unpack_enough hiter hcount h hleading htrailing hroom
      refine .inl ⟨hroom, (counted.store.addList middle.toArray).2,
        (front.map fun value => (value, [value])) ++
          (.list ⟨counted.store.lists.size⟩, middle) :: back.map fun value => (value, [value]),
        ?_, .addList _ _, ?_, ?_⟩
      · rw [hunpack, List.map_append, List.map_cons, fst_singles, fst_singles]
      · refine List.rel_append (gets_singles hleading hfront)
          (.cons ⟨_, rfl, ⟨Nat.le_refl _, ?_⟩, ?_⟩ (gets_singles htrailing hback))
        · simp [Store.addList]
        · simp [Store.addList, Store.list]
      · rw [List.map_append, List.map_cons, List.flatten_append, List.flatten_cons, flatten_singles,
          flatten_singles, hitems, List.append_assoc]

/-! ## Assigning to names -/

theorem assign_eq {target : Expr}
    (h : target.kind = .tuple targets ∨ target.kind = .list targets) (value : Value) :
    assign sb v target value = located target.span (do
      let values ← unpack sb targets value
      assignEach sb v targets values) := by
  obtain ⟨kind, span⟩ := target
  rcases h with h | h <;> cases h <;> rw [assign, assignKind]

theorem assignEach_apply (h : List.Forall₂ Expr.Takes targets takers) {values : List Value}
    (hlength : takers.length = values.length) (s : RunState) :
    assignEach sb v targets values s = .ok () (s.bindAll ((takers.map Taker.name).zip values)) := by
  induction h generalizing values s with
  | nil =>
    rw [assignEach]
    · rfl
    · simp
    · simp
  | cons hhead _ ih =>
    cases values with
    | nil => cases hlength
    | cons value values =>
      have hrest := fun s => ih (Nat.succ.inj hlength : _ = values.length) s
      cases hhead with
      | one =>
        rw [assignEach, bind_apply, assign, assignKind]
        · exact hrest _
        · simp
      | rest =>
        rw [assignEach, bind_apply, assign, assignKind]
        exact hrest _

theorem names_captured {values : List Value} (hlength : takers.length = values.length) :
    ((takers.map Taker.name).zip values).map Prod.fst = takers.map Taker.name :=
  List.map_fst_zip (by rw [List.length_map, hlength])

/-- What elements of a target list get is bound to their names. -/
theorem took_of_gets {shares : List (Value × List Value)} {before : RunState} {store : Store}
    (hnames : (takers.map Taker.name).Nodup) (hs : s.Anchored) (hstore : s.store = store)
    (hcurrent : s.scopes.current = before.scopes.current)
    (h : List.Forall₂ (fun t share => t.Gets before.store store share.1 share.2) takers shares) :
    List.Forall₂ (before.Took (s.bindAll ((takers.map Taker.name).zip (shares.map Prod.fst)))) takers
      (shares.map Prod.snd) := by
  have hlength : takers.length = (shares.map Prod.fst).length := by
    rw [List.length_map, h.length_eq]
  have hcaptured := (names_captured hlength).symm ▸ hnames
  rw [List.forall₂_map_right_iff, List.forall₂_iff_zip]
  refine ⟨h.length_eq, fun {t share} hmem => ⟨share.1, ?_, ?_⟩⟩
  · rw [← hcurrent]
    refine RunState.lookup_bindAll_of_mem hs hcaptured ?_
    rw [List.zip_map]
    exact List.mem_map_of_mem hmem
  · rw [RunState.store_bindAll, hstore]
    exact (List.forall₂_iff_zip.1 h).2 hmem

end Eval

/-- A tuple or a list of names as a target, of which at most one is starred, takes the items of a
value in order; a starred name gets a new list of those that the others leave over. This succeeds
exactly if the number of items fits, unless the rounds run out. Where it fails nothing changes but the
count of rounds. Two starred names are refused before anything else happens. -/
theorem unpacking (sb : Sandbox) (v : Visit) {target : Expr} {targets : List Expr}
    {takers : List Taker} {s : RunState}
    (htarget : target.kind = .tuple targets ∨ target.kind = .list targets)
    (htakers : List.Forall₂ Expr.Takes targets takers) (hnames : (takers.map Taker.name).Nodup)
    (hs : s.Anchored) :
    (1 < takers.countP Taker.isRest → ∀ value, ∃ e m,
      assign sb v target value s = .error e s ∧ e.kind = .structural m) ∧
    (takers.countP Taker.isRest ≤ 1 → ∀ value items, s.store.iterate value = .ok items →
      match assign sb v target value s with
      | .ok _ s' => Taker.Fits takers items.size ∧
          s.Rebinds s' s.scopes.current (· ∈ takers.map Taker.name) ∧
          ∃ shares, List.Forall₂ (s.Took s') takers shares ∧ shares.flatten = items.toList
      | .error e s' => (∃ loops, s' = s.withLoops loops) ∧
          (¬ Taker.Fits takers items.size ∧ (∃ m, e.kind = .fault "ValueError" m) ∨
            s.OutOfRounds sb items.size e.kind)) := by
  -- an error of sharing out is the one of the assignment, but for its place
  have failed {value : Value} {e : Error} {s' : RunState}
      (h : unpack sb targets value s = .error e s') :
      ∃ e', assign sb v target value s = .error e' s' ∧ e'.kind = e.kind := by
    rw [assign_eq htarget]
    exact located_error target.span (by rw [bind_apply, h])
  refine ⟨fun hmany value => ?_, fun hone value items hiter => ?_⟩
  · obtain ⟨e, he, hkind⟩ := failed (unpack_refused htakers hmany value s)
    exact ⟨e, _, he, hkind⟩
  · have hrounds := countRounds_ends sb items.size s
    cases hcount : countRounds sb items.size s with
    | error e s' =>
      rw [hcount] at hrounds
      obtain ⟨e', he', hkind⟩ := failed (unpack_out htakers hone hiter hcount)
      rw [he']
      exact ⟨hrounds.1, .inr (hkind ▸ hrounds.2)⟩
    | ok u counted =>
      rw [hcount] at hrounds
      obtain rfl : counted = s.withLoops (s.guard.loops + items.size) := hrounds
      rcases unpack_counted htakers hone hiter hcount with
        ⟨hfits, store, shares, hunpack, hgrown, hgets, hitems⟩ | ⟨hmisfit, e, m, hunpack, hm⟩
      · have hlength : takers.length = (shares.map Prod.fst).length := by
          rw [List.length_map, hgets.length_eq]
        have hassign : assign sb v target value s = .ok ()
            (RunState.bindAll { s.withLoops (s.guard.loops + items.size) with store }
              ((takers.map Taker.name).zip (shares.map Prod.fst))) := by
          rw [assign_eq htarget, located_ok, bind_apply, hunpack]
          exact assignEach_apply htakers hlength _
        rw [hassign]
        refine ⟨hfits, ?_, shares.map Prod.snd, ?_, hitems⟩
        · have hstored : s.store.Grown store := hgrown
          refine (RunState.Rebinds.of_store hstored (s.guard.loops + items.size)).trans
            (RunState.rebinds_bindAll _ _ fun name hname => ?_)
          rwa [names_captured hlength] at hname
        · exact took_of_gets hnames hs rfl rfl hgets
      · obtain ⟨e', he', hkind⟩ := failed hunpack
        rw [he']
        exact ⟨⟨_, rfl⟩, .inl ⟨hmisfit, m, hkind.trans hm⟩⟩

/-- The targets `a, *b, c`. -/
def firstAndLast : List Expr :=
  [Syntax.Build.name "a", Syntax.Build.starred (Syntax.Build.name "b"), Syntax.Build.name "c"]

theorem fourLetters_unpacked : ∃ s' shares,
    assign unaided (visit unaided) (Syntax.Build.tuple firstAndLast) (.str "wxyz") (.start .empty) =
      .ok () s' ∧
    List.Forall₂ ((RunState.start .empty).Took s') [.one "a", .rest "b", .one "c"] shares ∧
    shares.flatten = [.str "w", .str "x", .str "y", .str "z"] := by
  have takes : List.Forall₂ Expr.Takes firstAndLast [.one "a", .rest "b", .one "c"] :=
    .cons .one (.cons .rest (.cons .one .nil))
  have tuple : (Syntax.Build.tuple firstAndLast).kind = .tuple firstAndLast ∨
      (Syntax.Build.tuple firstAndLast).kind = .list firstAndLast := .inl rfl
  have anchored : (RunState.start .empty).Anchored := Nat.one_pos
  have ends := (unpacking unaided (visit unaided) tuple takes (by decide) anchored).2 (by decide)
    (.str "wxyz") _ rfl
  have assigned : assign unaided (visit unaided) (Syntax.Build.tuple firstAndLast) (.str "wxyz")
      (.start .empty) = .ok () ((assign unaided (visit unaided) (Syntax.Build.tuple firstAndLast)
        (.str "wxyz")).after (.start .empty)) := by
    with_unfolding_all rfl
  rw [assigned] at ends
  obtain ⟨-, -, shares, took, letters⟩ := ends
  exact ⟨_, shares, assigned, took, letters⟩

end ScriptSandbox

import ScriptSandbox.Method
import ScriptSandbox.Proofs.Keys
import ScriptSandbox.Subscript

/-!
# Failed changes of dicts and sets

An assignment to an item, or a method called on a dict or a set, that fails leaves the store as it
was (`store_of_failure`), with three exceptions. Pairs are stored one after another (`Store.Stores`):
what was stored before a pair that cannot be stored remains. A dict is held against the quota once
all pairs are stored, and a set once it has grown; what made them too large remains.
-/

namespace ScriptSandbox

/-! ## Operations that fail -/

/-- If an operation fails at a store, its error and the store that it leaves are as stated. -/
def FailsOnly {α : Type} (P : Error → Store → Prop) (m : StoreM α) (s : Store) : Prop :=
  ∀ e s', m s = .error e s' → P e s'

namespace FailsOnly

variable {α β : Type} {P Q : Error → Store → Prop} {m : StoreM α} {f : α → StoreM β} {s : Store}

theorem mono (h : FailsOnly P m s) (hPQ : ∀ e s', P e s' → Q e s') : FailsOnly Q m s :=
  fun e s' hm => hPQ e s' (h e s' hm)

theorem bind (hm : FailsOnly P m s) (hf : ∀ a s', m s = .ok a s' → FailsOnly P (f a) s') :
    FailsOnly P (m >>= f) s := by
  intro e s' h
  replace h : EStateM.bind m f s = .error e s' := h
  unfold EStateM.bind at h
  cases hr : m s with
  | ok a t =>
    rw [hr] at h
    exact hf a t hr e s' h
  | error e' t =>
    rw [hr] at h
    cases h
    exact hm _ _ hr

theorem succeeds {a : α} {s' : Store} (h : m s = .ok a s') : FailsOnly P m s := by
  intro e t hr
  rw [h] at hr
  cases hr

theorem pure (a : α) : FailsOnly P (Pure.pure a) s := succeeds rfl

theorem throw {e : Error} (h : P e s) : FailsOnly P (MonadExcept.throw e : StoreM α) s := by
  rintro _ _ ⟨⟩
  exact h

theorem look {g : Store → Except Error α} (h : ∀ e, g s = .error e → P e s) :
    FailsOnly P (StoreM.look g) s := by
  intro e s' hr
  unfold StoreM.look at hr
  cases hg : g s with
  | ok a =>
    rw [hg] at hr
    cases hr
  | error e' =>
    rw [hg] at hr
    cases hr
    exact h _ hg

theorem look_then {g : Store → Except Error α} (h : ∀ e, g s = .error e → P e s)
    (hf : ∀ a, g s = .ok a → FailsOnly P (f a) s) : FailsOnly P (StoreM.look g >>= f) s := by
  refine (look h).bind fun a s' hr => ?_
  unfold StoreM.look at hr
  cases hg : g s with
  | ok a' =>
    rw [hg] at hr
    cases hr
    exact hf a hg
  | error e =>
    rw [hg] at hr
    cases hr

theorem ofExcept_then {x : Except Error α} (h : ∀ e, x = .error e → P e s)
    (hf : ∀ a, x = .ok a → FailsOnly P (f a) s) : FailsOnly P (StoreM.ofExcept x >>= f) s := by
  cases x with
  | ok a => exact (pure a).bind fun _ _ hr => by cases hr; exact hf a rfl
  | error e => exact (throw (h e rfl)).bind fun _ _ hr => nomatch hr

theorem change_then {g : Store → Store} {f : PUnit → StoreM β} (h : FailsOnly P (f ⟨⟩) (g s)) :
    FailsOnly P (modify g >>= f) s := h

theorem get_then {f : Store → StoreM β} (h : FailsOnly P (f s) s) :
    FailsOnly P (MonadState.get >>= f) s := h

theorem mapM {γ : Type} {g : γ → StoreM β} (h : ∀ c t, FailsOnly P (g c) t) (cs : List γ) :
    ∀ s, FailsOnly P (cs.mapM g) s := by
  induction cs with
  | nil => exact fun s => pure _
  | cons c rest ih =>
    intro s
    rw [List.mapM_cons]
    exact (h c s).bind fun _ t _ => (ih t).bind fun _ _ _ => pure _

end FailsOnly

theorem SizeLimits.checkContainer_error {l : SizeLimits} {n : Nat} {e : Error}
    (h : l.checkContainer n = .error e) :
    l.maxContainerSize < n ∧ e = .limitExceeded .containerSize l.maxContainerSize := by
  unfold checkContainer at h
  split at h
  · cases h
    exact ⟨‹_›, rfl⟩
  · cases h

/-! ## Changes that change nothing -/

namespace Table

variable {α : Type} {t : Table α} {k : Key}

theorem erase_of_absent (h : t.contains k = false) : t.erase k = t := by
  rw [contains, Std.HashMap.contains_eq_isSome_getElem?] at h
  obtain ⟨slots, size, index, hindex, hsize⟩ := t
  dsimp only [erase]
  split
  · rfl
  · rename_i found
    simp [found] at h

end Table

theorem Dict.eraseByKey_of_absent {d : Dict} {k : Key} (h : d.getByKey? k = none) :
    d.eraseByKey k = d := by
  have habsent : d.table.contains k = false := by
    rw [Bool.eq_false_iff]
    intro hk
    obtain ⟨value, hvalue⟩ := Dict.mem_keyList.1 (Table.contains_iff.1 hk)
    rw [h] at hvalue
    cases hvalue
  rw [eraseByKey, Table.erase_of_absent habsent]

theorem KeySet.eraseByKey_of_absent {s : KeySet} {k : Key} (h : s.table.contains k = false) :
    s.eraseByKey k = s := by
  rw [eraseByKey, Table.erase_of_absent h]

theorem modify_eq_self {α : Type} {xs : Array α} {i : Nat} {f : α → α} {default : α}
    (h : f (xs[i]?.getD default) = xs[i]?.getD default) : xs.modify i f = xs := by
  apply Array.ext_getElem?
  intro j
  rw [Array.getElem?_modify]
  split
  · rename_i hij
    subst hij
    cases hx : xs[i]? <;> simp_all
  · rfl

namespace Store

variable (s : Store)

theorem modifyDict_self {r : DictRef} {f : Dict → Dict} (h : f (s.dict r) = s.dict r) :
    s.modifyDict r f = s := by
  rw [modifyDict, modify_eq_self h]

theorem modifySet_self {r : SetRef} {f : KeySet → KeySet} (h : f (s.set r) = s.set r) :
    s.modifySet r f = s := by
  rw [modifySet, modify_eq_self h]

theorem modifySet_modifySet (r : SetRef) (f g : KeySet → KeySet) :
    (s.modifySet r f).modifySet r g = s.modifySet r (g ∘ f) := by
  have twice : (s.sets.modify r.index f).modify r.index g = s.sets.modify r.index (g ∘ f) := by
    rw [← Array.toList_inj]
    simp only [Array.toList_modify, List.modify_modify_eq]
  simp only [modifySet, twice]

end Store

/-! ## Dicts -/

/-- Pairs are stored in a dict one after another. -/
inductive Store.Stores (r : DictRef) : List (Value × Value) → Store → Store → Prop where
  | nil {s : Store} : Stores r [] s s
  | cons {key value : Value} {k : Key} {rest : List (Value × Value)} {s s' : Store} :
    Key.ofValue key = .ok k → Stores r rest (s.modifyDict r (·.insertByKey k key value)) s' →
    Stores r ((key, value) :: rest) s s'

/-- Pairs are stored in a dict up to one that cannot be, or all of them are and the dict is too
large. -/
inductive Store.StopsStoring (l : SizeLimits) (r : DictRef) (pairs : List (Value × Value))
    (s : Store) : Error → Store → Prop where
  | unhashable {before behind : List (Value × Value)} {key value : Value} {e : Error} {s' : Store} :
    pairs = before ++ (key, value) :: behind → Stores r before s s' → Key.ofValue key = .error e →
    s.StopsStoring l r pairs e s'
  | full {s' : Store} : Stores r pairs s s' → l.maxContainerSize < (s'.dict r).size →
    s.StopsStoring l r pairs (.limitExceeded .containerSize l.maxContainerSize) s'

/-- What is stored is in the dict, in the order of the pairs. -/
theorem Store.Stores.insertAll {r : DictRef} {pairs : List (Value × Value)} {s s' : Store}
    (h : Stores r pairs s s') (hr : r.index < s.dicts.size) :
    (s.dict r).insertAll pairs = .ok (s'.dict r) := by
  induction h with
  | nil => rfl
  | @cons key value k rest s s' hk _ ih =>
    have hdict : (s.modifyDict r (·.insertByKey k key value)).dict r =
        (s.dict r).insertByKey k key value := by
      simp [modifyDict, dict, hr, Array.getElem_modify]
    rw [Dict.insertAll, Dict.insert, hk, ← ih (by simpa [modifyDict] using hr), hdict]
    rfl

namespace DictMethod

variable {l : SizeLimits} {r : DictRef} {s : Store} {args : Arguments}

theorem insertPairs_cases (pairs : List (Value × Value)) (s : Store) :
    (∃ s', insertPairs r pairs s = .ok () s' ∧ s.Stores r pairs s') ∨
    ∃ before key value behind e s', pairs = before ++ (key, value) :: behind ∧
      s.Stores r before s' ∧ Key.ofValue key = .error e ∧ insertPairs r pairs s = .error e s' := by
  induction pairs generalizing s with
  | nil => exact .inl ⟨s, rfl, .nil⟩
  | cons pair rest ih =>
    obtain ⟨key, value⟩ := pair
    cases hk : Key.ofValue key with
    | error e =>
      refine .inr ⟨[], key, value, rest, e, s, rfl, .nil, hk, ?_⟩
      rw [insertPairs, hk]
      rfl
    | ok k =>
      have hstep : insertPairs r ((key, value) :: rest) s =
          insertPairs r rest (s.modifyDict r (·.insertByKey k key value)) := by
        rw [insertPairs, hk]
        rfl
      rw [hstep]
      rcases ih (s.modifyDict r (·.insertByKey k key value)) with ⟨s', hrun, hstores⟩ |
        ⟨before, key', value', behind, e, s', rfl, hstores, hk', hrun⟩
      · exact .inl ⟨s', hrun, .cons hk hstores⟩
      · exact .inr ⟨(key, value) :: before, key', value', behind, e, s', rfl, .cons hk hstores, hk',
          hrun⟩

theorem find?_fails (key : Value) : FailsOnly (fun _ s' => s' = s) (find? r key) s :=
  .look fun _ _ => rfl

/-- The pairs that an update stores: those of its source, if there is one, and the keyword
arguments. -/
def newPairs (s : Store) (source : Option Value) (keywords : List (String × Value)) :
    Except Error (List (Value × Value)) :=
  (source.elim (.ok []) s.pairs).map (· ++ keywords.map fun (name, value) => (.str name, value))

/-- The store is as it was, or an update stored some of its pairs. -/
def Partial (m : DictMethod) (l : SizeLimits) (r : DictRef) (args : Arguments) (s : Store)
    (e : Error) (s' : Store) : Prop :=
  s' = s ∨ (m = update ∧ ∃ pairs, newPairs s args.positional.head? args.keywords = .ok pairs ∧
    s.StopsStoring l r pairs e s')

theorem storePairs_fails (pairs : List (Value × Value)) : FailsOnly (s.StopsStoring l r pairs) (do
    insertPairs r pairs
    StoreM.look fun s => l.checkContainer (s.dict r).size
    pure Value.null) s := by
  rcases insertPairs_cases (r := r) pairs s with ⟨s', hrun, hstores⟩ |
    ⟨before, key, value, behind, e, s', hsplit, hstores, hk, hrun⟩
  · refine .bind (fun e t h => ?_) fun _ t h => ?_
    · rw [hrun] at h
      cases h
    · rw [hrun] at h
      cases h
      refine .look_then (fun e he => ?_) fun _ _ => .pure _
      obtain ⟨hfull, rfl⟩ := SizeLimits.checkContainer_error he
      exact .full hstores hfull
  · refine .bind (fun e' t h => ?_) fun _ t h => ?_
    · rw [hrun] at h
      cases h
      exact .unhashable hsplit hstores hk
    · rw [hrun] at h
      cases h

theorem runPop_fails (key : Value) (default : Option Value) :
    FailsOnly (fun _ s' => s' = s) (runPop r key default) s := by
  refine .ofExcept_then (fun _ _ => rfl) fun k _ => .get_then (.change_then ?_)
  split
  · exact .pure _
  · rename_i hnone
    -- nothing was erased
    have habsent : (s.dict r).getByKey? k = none := by
      cases hfound : (s.dict r).getByKey? k with
      | none => rfl
      | some _ =>
        rw [hfound] at hnone
        cases hnone
    exact .get_then (.throw (s.modifyDict_self (Dict.eraseByKey_of_absent habsent)))

theorem runSetdefault_fails (key default : Value) :
    FailsOnly (fun _ s' => s' = s) (runSetdefault l r key default) s := by
  refine .look_then (fun _ _ => rfl) fun found hfound => ?_
  split
  · exact .pure _
  · refine .look_then (fun _ _ => rfl) fun _ _ => ?_
    -- the key was looked up, so it can be stored
    obtain ⟨k, hk, -⟩ := map_eq_ok_iff.1 hfound
    refine .bind (fun e s' h => ?_) fun _ _ _ => .pure _
    rw [insertPairs, hk] at h
    cases h

theorem runUpdate_fails : FailsOnly (update.Partial l r args s)
    (runUpdate l r args.positional.head? args.keywords) s := by
  have stored : ∀ found, args.positional.head?.elim (.ok []) s.pairs = .ok found →
      FailsOnly (update.Partial l r args s) (do
        insertPairs r (found ++ args.keywords.map fun (name, value) => (.str name, value))
        StoreM.look fun s => l.checkContainer (s.dict r).size
        pure Value.null) s := by
    intro found hfound
    refine (storePairs_fails _).mono fun e s' h => .inr ⟨rfl, _, ?_, h⟩
    rw [newPairs, hfound]
    rfl
  unfold runUpdate
  cases hsource : args.positional.head? with
  | none => exact stored [] (by rw [hsource]; rfl)
  | some source =>
    refine .look_then (fun _ _ => .inl rfl) fun found hfound => ?_
    exact stored found (by rw [hsource]; exact hfound)

theorem run_fails (m : DictMethod) : FailsOnly (m.Partial l r args s) (m.run l r args) s := by
  have kept : ∀ {m' : StoreM Value}, FailsOnly (fun _ s' => s' = s) m' s →
      FailsOnly (m.Partial l r args s) m' s := fun h => h.mono fun _ _ => .inl
  obtain ⟨positional, keywords⟩ := args
  unfold run
  dsimp only
  split
  · exact kept ((find?_fails _).bind fun _ _ _ => .pure _)
  · exact kept ((find?_fails _).bind fun _ _ _ => .pure _)
  · exact .get_then (.succeeds rfl)
  · exact .get_then (.succeeds rfl)
  · refine .get_then ((FailsOnly.mapM (fun _ _ => ?_) _ s).bind fun _ _ _ => .succeeds rfl)
    exact .succeeds rfl
  · exact runUpdate_fails
  · exact runUpdate_fails
  · exact kept (runPop_fails _ _)
  · exact kept (runPop_fails _ _)
  · exact kept (runSetdefault_fails _ _)
  · exact kept (runSetdefault_fails _ _)
  · exact .change_then (.pure _)
  · exact .get_then (.succeeds rfl)
  · exact .throw (.inl rfl)

theorem call_fails (m : DictMethod) : FailsOnly (m.Partial l r args s) (m.call l r args) s := by
  unfold call
  split
  · exact .ofExcept_then (fun _ _ => .inl rfl) fun _ _ => run_fails m
  · exact run_fails m

end DictMethod

/-! ## Sets -/

/-- Sets are added to a set one after another until it is too large. -/
inductive Store.StopsAdding (l : SizeLimits) (r : SetRef) (others : List KeySet) (s : Store) :
    Error → Store → Prop where
  | full {before behind : List KeySet} {s' : Store} : others = before ++ behind →
    s' = s.modifySet r (before.foldl .union ·) → l.maxContainerSize < (s'.set r).size →
    s.StopsAdding l r others (.limitExceeded .containerSize l.maxContainerSize) s'

namespace SetMethod

variable {l : SizeLimits} {r : SetRef} {s : Store} {args : Arguments}

theorem addAll_fails (others : List KeySet) (s : Store) :
    FailsOnly (s.StopsAdding l r others) (addAll l r others) s := by
  induction others generalizing s with
  | nil => exact .pure _
  | cons other rest ih =>
    refine .change_then (.look_then (fun e he => ?_) fun _ _ => (ih _).mono fun e s' h => ?_)
    · obtain ⟨hfull, rfl⟩ := SizeLimits.checkContainer_error he
      exact .full (show other :: rest = [other] ++ rest from rfl) rfl hfull
    · obtain @⟨before, behind, _, hsplit, rfl, hfull⟩ := h
      refine .full (show other :: rest = (other :: before) ++ behind by simp [hsplit]) ?_ hfull
      exact Store.modifySet_modifySet _ _ _ _

/-- The store is as it was, or the value or some of the sets to be added were added. -/
def Partial (m : SetMethod) (l : SizeLimits) (r : SetRef) (args : Arguments) (s : Store) (e : Error)
    (s' : Store) : Prop :=
  s' = s ∨
  (m = add ∧ ∃ value t, args.positional = [value] ∧ KeySet.ofList [value] = .ok t ∧
    s.StopsAdding l r [t] e s') ∨
  (m = update ∧ ∃ others, args.positional.mapM (asSet l s) = .ok others ∧
    s.StopsAdding l r others e s')

theorem union_singleton (t : KeySet) (k : Key) (value : Value) :
    t.union (KeySet.empty.insertByKey k value) = t.insertByKey k value := by
  rw [KeySet.union, KeySet.table_singleton]
  rfl

theorem add_fails {value : Value} {k : Key} {keywords : List (String × Value)}
    (hk : Key.ofValue value = .ok k) : FailsOnly (add.Partial l r ⟨[value], keywords⟩ s) (do
      modify (·.modifySet r (·.insertByKey k value))
      StoreM.look fun s => l.checkContainer (s.set r).size
      pure Value.null) s := by
  refine .change_then (.look_then (fun e he => ?_) fun _ _ => .pure _)
  obtain ⟨hfull, rfl⟩ := SizeLimits.checkContainer_error he
  refine .inr (.inl ⟨rfl, value, _, rfl, KeySet.ofList_singleton hk, ?_⟩)
  refine .full (List.append_nil _).symm ?_ hfull
  simp only [List.foldl_cons, List.foldl_nil, union_singleton]

theorem update_fails : FailsOnly (update.Partial l r args s) (do
    let others ← StoreM.look fun s => args.positional.mapM (asSet l s)
    addAll l r others
    pure Value.null) s := by
  refine .look_then (fun _ _ => .inl rfl) fun others hothers => ?_
  refine .bind ((addAll_fails others s).mono fun e s' h => ?_) fun _ _ _ => .pure _
  exact .inr (.inr ⟨rfl, others, hothers, h⟩)

/-- Only a value that is present is erased. -/
theorem erase_then {value : Value} {f : Bool → StoreM Value} {P : Error → Store → Prop}
    (h : ∀ e, P e s) (hpresent : ∀ s', FailsOnly P (f true) s')
    (habsent : FailsOnly P (f false) s) : FailsOnly P (erase r value >>= f) s := by
  refine .bind (.ofExcept_then (fun e _ => h e) fun k _ => .get_then (.change_then (.pure _))) ?_
  intro present s' hr
  cases hk : Key.ofValue value with
  | error e =>
    rw [erase, hk] at hr
    cases hr
  | ok k =>
    rw [erase, hk] at hr
    cases hr
    cases hfound : (s.set r).table.contains k with
    | true => exact hpresent _
    | false =>
      have hself : s.modifySet r (·.eraseByKey k) = s :=
        s.modifySet_self (KeySet.eraseByKey_of_absent hfound)
      show FailsOnly P (f false) (s.modifySet r (·.eraseByKey k))
      rw [hself]
      exact habsent

theorem runPop_fails : FailsOnly (fun _ s' => s' = s) (runPop r) s := by
  refine .get_then ?_
  split
  · exact .throw rfl
  · exact .change_then (.pure _)

theorem algebra_fails (operation : KeySet → KeySet → KeySet) (sources : List Value) :
    FailsOnly (fun _ s' => s' = s) (algebra operation l r sources) s :=
  .look_then (fun _ _ => rfl) fun _ _ => .succeeds rfl

theorem run_fails (m : SetMethod) :
    FailsOnly (m.Partial l r args s) (m.run l r args.positional) s := by
  have kept : ∀ {m' : StoreM Value}, FailsOnly (fun _ s' => s' = s) m' s →
      FailsOnly (m.Partial l r args s) m' s := fun h => h.mono fun _ _ => .inl
  obtain ⟨positional, keywords⟩ := args
  unfold run
  dsimp only
  split
  · exact .ofExcept_then (fun _ _ => .inl rfl) fun k hk => add_fails hk
  · exact update_fails
  · exact kept (erase_then (fun _ => rfl) (fun _ => .pure _) (.pure _))
  · refine kept (erase_then (fun _ => rfl) (fun _ => .pure _) ?_)
    exact .get_then (.throw rfl)
  · exact kept runPop_fails
  · exact .change_then (.pure _)
  · exact .get_then (.succeeds rfl)
  iterate 3 exact kept (algebra_fails _ _)
  · exact .throw (.inl rfl)

theorem call_fails (m : SetMethod) : FailsOnly (m.Partial l r args s) (m.call l r args) s :=
  .ofExcept_then (fun _ _ => .inl rfl) fun _ _ => run_fails m

end SetMethod

/-! ## All changes -/

section

variable {l : SizeLimits} {s : Store}

theorem setItem_fails (container index value : Value) :
    FailsOnly (fun e s' => s' = s ∨ ∃ r, container = .dict r ∧
      s.StopsStoring l r [(index, value)] e s') (Subscript.setItem l container index value) s := by
  unfold Subscript.setItem
  split
  · refine .ofExcept_then (fun _ _ => .inl rfl) fun _ _ => .get_then ?_
    split
    · exact .throw (.inl rfl)
    · exact .succeeds rfl
  · rename_i r
    refine .ofExcept_then (fun _ _ => .inl rfl) fun k hk => .change_then (.look fun e he => ?_)
    obtain ⟨hfull, rfl⟩ := SizeLimits.checkContainer_error he
    exact .inr ⟨r, rfl, .full (.cons hk .nil) hfull⟩
  · exact .throw (.inl rfl)

theorem unknown_fails (receiver : Value) (name : String) (args : Arguments) :
    FailsOnly (fun _ s' => s' = s) (Method.unknown receiver name args) s :=
  .ofExcept_then (fun _ _ => rfl) fun _ _ => .throw rfl

theorem callDict_fails (r : DictRef) (name : String) (args : Arguments) :
    FailsOnly (fun e s' => s' = s ∨ ∃ m : DictMethod, m.name = name ∧ m.Partial l r args s e s')
      (Method.call l (.dict r) name args) s := by
  unfold Method.call
  dsimp only
  split
  · rename_i m hm
    refine (DictMethod.call_fails m).mono fun e s' h => .inr ⟨m, ?_, h⟩
    simpa using List.find?_some hm
  · exact (unknown_fails _ _ _).mono fun _ _ => .inl

theorem callSet_fails (r : SetRef) (name : String) (args : Arguments) :
    FailsOnly (fun e s' => s' = s ∨ ∃ m : SetMethod, m.name = name ∧ m.Partial l r args s e s')
      (Method.call l (.set r) name args) s := by
  unfold Method.call
  dsimp only
  split
  · rename_i m hm
    refine (SetMethod.call_fails m).mono fun e s' h => .inr ⟨m, ?_, h⟩
    simpa using List.find?_some hm
  · exact (unknown_fails _ _ _).mono fun _ _ => .inl

end

/-- An assignment to an item, or a call of a method of a dict or of a set, that fails leaves the
store as it was, but for these: an item assigned to a dict or a value added to a set remains where it
made the container too large, as do all pairs of an update of a dict; such an update also leaves the
pairs before one that cannot be stored, and an update of a set leaves the sets up to the one that was
too much. -/
theorem store_of_failure (l : SizeLimits) (s : Store) (e : Error) (s' : Store) :
    (∀ container index value, Subscript.setItem l container index value s = .error e s' →
      s' = s ∨ ∃ r, container = .dict r ∧ s.StopsStoring l r [(index, value)] e s') ∧
    (∀ r name args, Method.call l (.dict r) name args s = .error e s' →
      s' = s ∨ (name = "update" ∧ ∃ pairs,
        DictMethod.newPairs s args.positional.head? args.keywords = .ok pairs ∧
        s.StopsStoring l r pairs e s')) ∧
    (∀ r name args, Method.call l (.set r) name args s = .error e s' →
      s' = s ∨
      (name = "add" ∧ ∃ value t, args.positional = [value] ∧ KeySet.ofList [value] = .ok t ∧
        s.StopsAdding l r [t] e s') ∨
      (name = "update" ∧ ∃ others, args.positional.mapM (SetMethod.asSet l s) = .ok others ∧
        s.StopsAdding l r others e s')) := by
  refine ⟨fun container index value h => setItem_fails _ _ _ e s' h, fun r name args h => ?_,
    fun r name args h => ?_⟩
  · rcases callDict_fails r name args e s' h with hsame | ⟨m, rfl, hsame | ⟨rfl, hstored⟩⟩
    · exact .inl hsame
    · exact .inl hsame
    · exact .inr ⟨rfl, hstored⟩
  · rcases callSet_fails r name args e s' h with
      hsame | ⟨m, rfl, hsame | ⟨rfl, hadded⟩ | ⟨rfl, hadded⟩⟩
    · exact .inl hsame
    · exact .inl hsame
    · exact .inr (.inl ⟨rfl, hadded⟩)
    · exact .inr (.inr ⟨rfl, hadded⟩)

/-- A quota of no elements. -/
def noRoom : SizeLimits := { Limits.standard.size with maxContainerSize := 0 }

/-- A store with an empty dict. -/
def oneDict : Store := { Store.empty with dicts := #[.empty] }

/-- The item that makes a dict too large remains in it, while a call with an argument too many
leaves the store as it was. -/
theorem noRoom_item_remains :
    (∃ e s', Subscript.setItem noRoom (.dict ⟨0⟩) (.int 1) .null oneDict = .error e s' ∧
      (s'.dict ⟨0⟩).toList = [(.int 1, .null)] ∧
      oneDict.StopsStoring noRoom ⟨0⟩ [(.int 1, .null)] e s') ∧
    ∃ e s', Method.call noRoom (.dict ⟨0⟩) "clear" (.ofList [.null]) oneDict = .error e s' ∧
      s' = oneDict := by
  let grown := oneDict.modifyDict ⟨0⟩ (·.insertByKey (.int 1) (.int 1) .null)
  have hentries : (grown.dict ⟨0⟩).toList = [(.int 1, .null)] := by
    show (Dict.empty.insertByKey (.int 1) (.int 1) .null).toList = _
    rw [Dict.toList, Dict.insertByKey, Table.toList_upsert_of_absent List.not_mem_nil]
    rfl
  have hsize : noRoom.maxContainerSize < (grown.dict ⟨0⟩).size := by
    rw [← Dict.length_toList, hentries]
    decide
  have hitem : Subscript.setItem noRoom (.dict ⟨0⟩) (.int 1) .null oneDict =
      .error (.limitExceeded .containerSize 0) grown := by
    show StoreM.look (fun s => noRoom.checkContainer (s.dict ⟨0⟩).size) grown = _
    rw [StoreM.look, SizeLimits.checkContainer, if_pos hsize]
    rfl
  have hchanged : grown ≠ oneDict := by
    intro h
    rw [h] at hsize
    exact absurd hsize (by decide)
  refine ⟨⟨_, _, hitem, hentries, ?_⟩, _, _, rfl, ?_⟩
  · -- storing fails without a change or with the item in the dict
    rcases (store_of_failure noRoom oneDict _ _).1 _ _ _ hitem with h | ⟨r, ⟨⟩, h⟩
    · exact absurd h hchanged
    · exact h
  · rcases (store_of_failure noRoom oneDict _ _).2.1 ⟨0⟩ "clear" (.ofList [.null]) rfl with
      h | ⟨h, -⟩
    · exact h
    · exact absurd h (by decide)

end ScriptSandbox

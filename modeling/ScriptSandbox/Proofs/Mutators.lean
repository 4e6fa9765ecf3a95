import ScriptSandbox.Proofs.InPlace
import ScriptSandbox.Proofs.Sorting

/-!
# Methods that change a list

Each of the methods that change a list stands for an operation on the sequence of its items
(`ListMethod.Effect`). A call changes the list in this way and nothing else; or it changes nothing, where
the operation cannot be done on these items and arguments or would pass the quota (`call_ends`). So a
list within the quota stays within it, whatever methods are called on it with whatever arguments, also
with the list itself (`list_calls`).
-/

namespace ScriptSandbox

namespace ListMethod

/-- The methods that change their list. -/
def mutators : List ListMethod := [append, extend, insert, pop, remove, clear, reverse, sort]

/-- Whether keyword arguments ask for descending order. -/
def descends (s : Store) (keywords : List (String × Value)) : Bool :=
  (keywords.lookup "reverse").any s.isTruthy

/-- What a call of a method that changes a list makes of the items, and what it gives. Arguments are
looked at in the store before the call. -/
inductive Effect (s : Store) (items : List Value) :
    ListMethod → Arguments → List Value → Value → Prop where
  | append (value : Value) : Effect s items .append ⟨[value], []⟩ (items ++ [value]) .null
  | extend {source : Value} {added : Items} : s.iterate source = .ok added →
    Effect s items .extend ⟨[source], []⟩ (items ++ added.toList) .null
  | insert {index : Value} {i : Int64} {n : Nat} (value : Value) : index.toInt? = some i →
    (n : Int) = (if i < 0 then max (i.toInt + items.length) 0 else min i.toInt items.length) →
    Effect s items .insert ⟨[index, value], []⟩ (items.take n ++ value :: items.drop n) .null
  | pop {args : Arguments} {i : Int64} {before behind : List Value} {item : Value} :
    (args = ⟨[], []⟩ ∧ i = -1 ∨ ∃ index, args = ⟨[index], []⟩ ∧ index.toInt? = some i) →
    items = before ++ item :: behind →
    (before.length : Int) = (if i < 0 then i.toInt + items.length else i.toInt) →
    items.length < Integer.bound → Effect s items .pop args (before ++ behind) item
  | remove {value item : Value} {before behind : List Value} : items = before ++ item :: behind →
    s.equal item value = .ok true → (∀ x ∈ before, s.equal x value = .ok false) →
    Effect s items .remove ⟨[value], []⟩ (before ++ behind) .null
  | clear : Effect s items .clear ⟨[], []⟩ [] .null
  | reverse : Effect s items .reverse ⟨[], []⟩ items.reverse .null
  | sort {keywords : List (String × Value)} {sorted : List Value} :
    (keywords = [] ∨ ∃ v, keywords = [("reverse", v)]) →
    s.sort items (descends s keywords) = .ok sorted → sorted.Perm items →
    (OneKind items → s.SortedAs (descends s keywords) items sorted) →
    Effect s items .sort ⟨[], keywords⟩ sorted .null

end ListMethod

/-! ## How calls end -/

/-- A computation changes one list, and nothing else, to items that an effect allows and that are within
the quota; or it changes nothing, and there are no such items. -/
def Store.EndsAs (l : SizeLimits) (r : ListRef) (effect : List Value → Value → Prop) (s : Store) :
    EStateM.Result Error Store Value → Prop
  | .ok v s' => ∃ items, effect items v ∧ items.length ≤ l.maxContainerSize ∧
    s' = s.setList r items.toArray
  | .error _ s' => s' = s ∧ ∀ items v, effect items v → l.maxContainerSize < items.length

namespace Store

variable {s : Store} {r : ListRef}

theorem modifyList_eq (s : Store) (r : ListRef) (f : Array Value → Array Value) :
    s.modifyList r f = s.setList r (f (s.list r)) := by
  have hlists : s.lists.modify r.index f = s.lists.setIfInBounds r.index (f (s.list r)) := by
    refine Array.ext_getElem? fun i => ?_
    rw [Array.getElem?_modify, Array.getElem?_setIfInBounds]
    split
    · rename_i h
      subst h
      split
      · rename_i hlt
        simp [Store.list, hlt]
      · rename_i hge
        simp [hge]
    · rfl
  rw [modifyList, setList, hlists]

@[simp] theorem size_lists_setList (s : Store) (r : ListRef) (items : Array Value) :
    (s.setList r items).lists.size = s.lists.size := Array.size_setIfInBounds

theorem list_setList (h : r.index < s.lists.size) (items : Array Value) :
    (s.setList r items).list r = items := by
  rw [Store.list, setList, Array.getElem?_setIfInBounds_self_of_lt h, Option.getD_some]

theorem setList_list (s : Store) (r : ListRef) : s.setList r (s.list r) = s := by
  have hid : s.lists.modify r.index id = s.lists := by
    refine Array.ext_getElem? fun i => ?_
    rw [Array.getElem?_modify, Option.map_id]
    exact ite_self _
  rw [← id_eq (s.list r), ← modifyList_eq, modifyList, hid]

theorem setList_setList (s : Store) (r : ListRef) (items items' : Array Value) :
    (s.setList r items).setList r items' = s.setList r items' := by
  simp [setList]

end Store

namespace ListMethod

variable {l : SizeLimits} {r : ListRef} {s : Store} {effect : List Value → Value → Prop}

theorem ends_refused {e : Error} (h : ∀ items v, effect items v → l.maxContainerSize < items.length) :
    s.EndsAs l r effect (.error e s) := ⟨rfl, h⟩

theorem ends_get {f : Store → StoreM Value} (h : s.EndsAs l r effect (f s s)) :
    s.EndsAs l r effect ((get >>= f) s) := h

theorem ends_ofExcept {α : Type} {x : Except Error α} {f : α → StoreM Value}
    (herror : ∀ e, x = .error e → ∀ items v, effect items v → l.maxContainerSize < items.length)
    (hok : ∀ a, x = .ok a → s.EndsAs l r effect (f a s)) :
    s.EndsAs l r effect ((StoreM.ofExcept x >>= f) s) := by
  cases x with
  | error e => exact ends_refused (herror e rfl)
  | ok a => exact hok a rfl

/-- A check that the method needs. -/
theorem ends_needed {α : Type} {x : Except Error α} {f : α → StoreM Value}
    (hneeds : ∀ items v, effect items v → ∃ a, x = .ok a)
    (hok : ∀ a, x = .ok a → s.EndsAs l r effect (f a s)) :
    s.EndsAs l r effect ((StoreM.ofExcept x >>= f) s) := by
  refine ends_ofExcept (fun e he items v h => ?_) hok
  obtain ⟨a, ha⟩ := hneeds items v h
  rw [ha] at he
  cases he

/-- A look at the store that the method needs. -/
theorem ends_look {α : Type} {g : Store → Except Error α} {f : α → StoreM Value}
    (hneeds : ∀ items v, effect items v → ∃ a, g s = .ok a)
    (hok : ∀ a, g s = .ok a → s.EndsAs l r effect (f a s)) :
    s.EndsAs l r effect ((StoreM.look g >>= f) s) := by
  have h := ends_needed (f := f) hneeds hok
  rw [Norm.SoundAt.look_bind]
  cases hg : g s <;> rwa [hg] at h

/-- Items are added if there is room for them. -/
theorem ends_grown {f : Array Value → Array Value} {n : Nat}
    (heffect : effect (f (s.list r)).toList .null)
    (hlength : ∀ items v, effect items v → items.length = (s.list r).size + n) :
    s.EndsAs l r effect ((do
      checkGrowth l r n
      modify (·.modifyList r f)
      pure .null : StoreM Value) s) := by
  show s.EndsAs l r effect ((checkGrowth l r n >>= fun _ => _) s)
  rw [checkGrowth, Norm.SoundAt.look_bind]
  rcases Nat.lt_or_ge l.maxContainerSize ((s.list r).size + n) with hfull | hroom
  · rw [SizeLimits.checkContainer_of_lt hfull]
    exact ⟨rfl, fun items v h => hlength items v h ▸ hfull⟩
  · rw [SizeLimits.checkContainer_of_le hroom]
    exact ⟨_, heffect, hlength _ _ heffect ▸ hroom, s.modifyList_eq r f⟩

/-- An item that is erased stood between the items that remain. -/
theorem exists_erased {xs : Array Value} {n : Nat} (h : n < xs.size) :
    ∃ before behind, xs.toList = before ++ xs[n] :: behind ∧ before.length = n ∧
      xs.eraseIdxIfInBounds n = (before ++ behind).toArray := by
  refine ⟨xs.toList.take n, xs.toList.drop (n + 1), ?_, ?_, ?_⟩
  · rw [← Array.getElem_toList, List.getElem_cons_drop, List.take_append_drop]
  · rw [List.length_take, Array.length_toList]
    exact Nat.min_eq_left (Nat.le_of_lt h)
  · rw [Array.eraseIdxIfInBounds, dif_pos h]
    apply Array.toList_inj.1
    simp [List.eraseIdx_eq_take_drop_succ]

/-- An item is taken out. -/
theorem ends_taken {n : Nat} (hsize : (s.list r).size ≤ l.maxContainerSize) (h : n < (s.list r).size)
    {v : Value} (heffect : ∀ before behind, (s.list r).toList = before ++ (s.list r)[n] :: behind →
      before.length = n → effect (before ++ behind) v) :
    s.EndsAs l r effect (.ok v (s.modifyList r (·.eraseIdxIfInBounds n))) := by
  obtain ⟨before, behind, hitems, hlength, hrest⟩ := exists_erased h
  refine ⟨before ++ behind, heffect before behind hitems hlength, ?_, ?_⟩
  · have hcount := congrArg List.length hitems
    simp only [Array.length_toList, List.length_append, List.length_cons] at hcount ⊢
    omega
  · rw [Store.modifyList_eq, hrest]

theorem ends_takeItem (position : Option Nat) (hsize : (s.list r).size ≤ l.maxContainerSize)
    (hnone : position = none → ∀ items v, effect items v → l.maxContainerSize < items.length)
    (hsome : ∀ n, position = some n → ∃ h : n < (s.list r).size, ∀ before behind,
      (s.list r).toList = before ++ (s.list r)[n] :: behind → before.length = n →
      effect (before ++ behind) (s.list r)[n]) :
    s.EndsAs l r effect ((do
      match position with
      | none => throw (.outOfRange "pop")
      | some n =>
        let item := ((← get).list r)[n]?.getD .null
        modify (·.modifyList r (·.eraseIdxIfInBounds n))
        pure item : StoreM Value) s) := by
  cases position with
  | none => exact ends_refused (hnone rfl)
  | some n =>
    obtain ⟨h, heffect⟩ := hsome n rfl
    have hitem : (s.list r)[n]?.getD .null = (s.list r)[n] := by simp [h]
    show s.EndsAs l r effect (.ok ((s.list r)[n]?.getD .null) _)
    rw [hitem]
    exact ends_taken hsize h heffect

theorem position?_eq_some_iff {i : Int64} {length n : Nat} :
    Subscript.position? i length = some n ↔
      (n : Int) = (if i < 0 then i.toInt + length else i.toInt) ∧ n < length ∧
        (length : Int) < Integer.bound := by
  unfold Subscript.position?
  dsimp only
  generalize (if i < 0 then i.toInt + length else i.toInt) = k
  split
  · rw [Option.some.injEq]
    omega
  · rename_i h
    refine iff_of_false nofun fun ⟨hn, hlt, hbound⟩ => h ⟨?_, ?_, hbound⟩ <;> omega

theorem intOf_eq_ok_iff {func : String} {index : Value} {i : Int64} :
    Arguments.intOf func index = .ok i ↔ index.toInt? = some i := by
  unfold Arguments.intOf
  split <;> simp [*]

theorem runPop_ends (func : String) (index : Option Value)
    (hsize : (s.list r).size ≤ l.maxContainerSize) :
    s.EndsAs l r (Effect s (s.list r).toList .pop ⟨index.toList, []⟩) (runPop func r index s) := by
  have hcount : (s.list r).toList.length = (s.list r).size := Array.length_toList
  -- what follows once the index is known
  have taken {i : Int64} (hi : index.elim (i = -1) fun index => index.toInt? = some i) :
      s.EndsAs l r (Effect s (s.list r).toList .pop ⟨index.toList, []⟩) ((do
        match Subscript.position? i (s.list r).size with
        | none => throw (.outOfRange "pop")
        | some n =>
          let item := ((← get).list r)[n]?.getD .null
          modify (·.modifyList r (·.eraseIdxIfInBounds n))
          pure item : StoreM Value) s) := by
    refine ends_takeItem _ hsize (fun hnone items v h => ?_) fun n hn => ?_
    · cases h with
      | @pop _ j before behind item hargs hitems hbefore hbound =>
        obtain rfl : i = j := by
          rcases hargs with ⟨hargs, rfl⟩ | ⟨index', hargs, hj⟩
          · cases index <;> cases hargs
            exact hi
          · cases index <;> cases hargs
            exact Option.some.inj (hi.symm.trans hj)
        have hlt : before.length < (s.list r).size := by
          rw [← hcount, hitems]
          simp
        rw [hcount] at hbefore hbound
        rw [position?_eq_some_iff.2 ⟨hbefore, hlt, hbound⟩] at hnone
        cases hnone
    · obtain ⟨hn, hlt, hbound⟩ := position?_eq_some_iff.1 hn
      refine ⟨hlt, fun before behind hitems hlength => .pop (i := i) ?_ hitems ?_ ?_⟩
      · cases index with
        | none => exact .inl ⟨rfl, hi⟩
        | some index => exact .inr ⟨index, rfl, hi⟩
      · rw [hcount, hlength]
        exact hn
      · rw [hcount]
        exact hbound
  unfold runPop
  refine ends_get ?_
  dsimp only
  split
  · rename_i h
    refine ends_refused fun items v heffect => ?_
    cases heffect with
    | pop hargs hitems =>
      rw [hitems] at hcount
      simp [h] at hcount
  · cases index with
    | none => exact taken rfl
    | some index =>
      refine ends_needed (fun items v h => ?_) fun i hi => taken (intOf_eq_ok_iff.1 hi)
      cases h with
      | @pop _ i before behind item hargs hitems hbefore hbound =>
        rcases hargs with ⟨hargs, -⟩ | ⟨index', hargs, hi⟩
        · cases hargs
        · cases hargs
          exact ⟨i, intOf_eq_ok_iff.2 hi⟩

theorem firstPosition_eq_some_iff {test : Nat → Except Error Bool} {position left found : Nat} :
    firstPosition test position left = .ok (some found) ↔
      position ≤ found ∧ found < position + left ∧ test found = .ok true ∧
        ∀ i, position ≤ i → i < found → test i = .ok false := by
  refine ⟨firstPosition_eq_some, fun ⟨hle, hlt, hit, hmiss⟩ => ?_⟩
  induction left generalizing position with
  | zero => omega
  | succ left ih =>
    rcases Nat.eq_or_lt_of_le hle with rfl | hbehind
    · rw [firstPosition, hit]
    · rw [firstPosition, hmiss position (Nat.le_refl _) hbehind]
      exact ih ⟨hbehind, by omega, hit, fun i hi => hmiss i (by omega)⟩ hbehind (by omega)
        fun i hi => hmiss i (by omega)

/-- The position of a value is that of the first item equal to it. -/
theorem store_position?_eq_some_iff {xs : Array Value} {value : Value} {n : Nat} :
    s.position? xs value = .ok (some n) ↔ ∃ before item behind, xs.toList = before ++ item :: behind ∧
      before.length = n ∧ s.equal item value = .ok true ∧
      ∀ x ∈ before, s.equal x value = .ok false := by
  have hbefore {before behind : List Value} {item : Value}
      (h : xs.toList = before ++ item :: behind) {i : Nat} (hi : i < before.length) :
      xs.getD i .null = before[i] := by
    rw [Array.getD_eq_getD_getElem?, ← Array.getElem?_toList, h, List.getElem?_append_left hi]
    simp [hi]
  have hitem {before behind : List Value} {item : Value}
      (h : xs.toList = before ++ item :: behind) : xs.getD before.length .null = item := by
    rw [Array.getD_eq_getD_getElem?, ← Array.getElem?_toList, h]
    simp
  rw [Store.position?, firstPosition_eq_some_iff, Nat.zero_add]
  -- the search counts positions, the statement splits the list
  constructor
  · rintro ⟨-, hlt, hit, hmiss⟩
    obtain ⟨before, behind, hitems, rfl, -⟩ := exists_erased hlt
    refine ⟨before, _, behind, hitems, rfl, hitem hitems ▸ hit, fun x hx => ?_⟩
    obtain ⟨i, hi, rfl⟩ := List.mem_iff_getElem.1 hx
    exact hbefore hitems hi ▸ hmiss i (Nat.zero_le i) hi
  · rintro ⟨before, item, behind, hitems, rfl, hit, hmiss⟩
    refine ⟨Nat.zero_le _, ?_, (hitem hitems).symm ▸ hit, fun i _ hi => ?_⟩
    · rw [← Array.length_toList, hitems]
      simp
    · exact (hbefore hitems hi).symm ▸ hmiss _ (List.getElem_mem hi)

theorem runRemove_ends (value : Value) (hsize : (s.list r).size ≤ l.maxContainerSize) :
    s.EndsAs l r (Effect s (s.list r).toList .remove ⟨[value], []⟩) (runRemove r value s) := by
  have hfound {items : List Value} {v : Value}
      (h : Effect s (s.list r).toList .remove ⟨[value], []⟩ items v) :
      ∃ n, s.position? (s.list r) value = .ok (some n) := by
    cases h with
    | remove hitems hit hmiss =>
      exact ⟨_, store_position?_eq_some_iff.2 ⟨_, _, _, hitems, rfl, hit, hmiss⟩⟩
  refine ends_look (fun items v h => let ⟨n, hn⟩ := hfound h; ⟨some n, hn⟩) fun found hn => ?_
  cases found with
  | none =>
    refine ends_refused fun items v h => ?_
    obtain ⟨n, hn'⟩ := hfound h
    rw [hn'] at hn
    cases hn
  | some n =>
    obtain ⟨before, item, behind, hitems, rfl, hit, hmiss⟩ := store_position?_eq_some_iff.1 hn
    have hlt : before.length < (s.list r).size := by
      rw [← Array.length_toList, hitems]
      simp
    -- a list is split in one way where the length in front is given
    refine ends_taken hsize hlt fun before' behind' hitems' hlength => ?_
    rw [hitems] at hitems'
    obtain ⟨rfl, hrest⟩ := List.append_inj hitems' hlength.symm
    obtain ⟨-, rfl⟩ := List.cons.inj hrest
    exact .remove hitems hit hmiss

theorem insertionPoint_eq (i : Int64) (size : Nat) : (insertionPoint i size : Int) =
    if i < 0 then max (i.toInt + size) 0 else min i.toInt size := by
  unfold insertionPoint
  split
  · omega
  · rename_i h
    rw [Integer.lt_zero_iff] at h
    omega

theorem insertionPoint_le (i : Int64) (size : Nat) : insertionPoint i size ≤ size := by
  have h := insertionPoint_eq i size
  split at h
  · rename_i hneg
    rw [Integer.lt_zero_iff] at hneg
    omega
  · omega

theorem insertIdx_eq_append {items : List Value} {n : Nat} (value : Value) (h : n ≤ items.length) :
    items.insertIdx n value = items.take n ++ value :: items.drop n := by
  induction items generalizing n with
  | nil =>
    obtain rfl := Nat.le_zero.1 h
    rfl
  | cons item rest ih =>
    cases n with
    | zero => rfl
    | succ n =>
      rw [List.insertIdx_succ_cons, ih (Nat.le_of_succ_le_succ h)]
      rfl

theorem runInsert_ends (index value : Value) (func : String) :
    s.EndsAs l r (Effect s (s.list r).toList .insert ⟨[index, value], []⟩)
      ((StoreM.ofExcept (Arguments.intOf func index) >>= fun i => runInsert l r i value) s) := by
  refine ends_needed (fun items v h => ?_) fun i hi => ends_grown ?_ fun items v h => ?_
  · cases h with
    | insert _ hi => exact ⟨_, intOf_eq_ok_iff.2 hi⟩
  · have hle := insertionPoint_le i (s.list r).size
    rw [Array.insertIdxIfInBounds, dif_pos hle, Array.toList_insertIdx, insertIdx_eq_append value hle]
    exact .insert value (intOf_eq_ok_iff.1 hi) (insertionPoint_eq i _)
  · cases h with
    | insert =>
      simp only [List.length_append, List.length_take, List.length_cons, List.length_drop,
        Array.length_toList]
      omega

theorem runExtend_ends (source : Value) :
    s.EndsAs l r (Effect s (s.list r).toList .extend ⟨[source], []⟩) (runExtend l r source s) := by
  refine ends_ofExcept (fun e he items v h => ?_) fun _ _ => ?_
  · -- only a range is refused before it is walked
    cases h with
    | @extend _ added hadded =>
      cases source with
      | range walked =>
        obtain ⟨hlong, -⟩ := SizeLimits.checkContainer_error he
        cases hadded
        rw [List.length_append, Items.length_toList]
        exact Nat.lt_of_lt_of_le hlong (Nat.le_add_left _ _)
      | _ => cases he
  · refine ends_look (fun items v h => ?_) fun added hadded => ends_grown ?_ fun items v h => ?_
    · cases h with
      | extend hadded => exact ⟨_, hadded⟩
    · rw [Array.toList_append]
      exact .extend hadded
    · cases h with
      | extend hadded' =>
        rw [hadded] at hadded'
        cases hadded'
        rw [List.length_append, Items.length_toList, Items.size_toArray, Array.length_toList]

theorem runSort_ends {keywords : List (String × Value)} (hsize : (s.list r).size ≤ l.maxContainerSize)
    (hkeywords : keywords = [] ∨ ∃ v, keywords = [("reverse", v)]) :
    s.EndsAs l r (Effect s (s.list r).toList .sort ⟨[], keywords⟩)
      (runSort r (descends s keywords) s) := by
  refine ends_look (fun items v h => ?_) fun sorted hsorted => ?_
  · cases h with
    | sort _ hsorted => exact ⟨_, hsorted⟩
  · have hperm := Store.perm_of_sort hsorted
    refine ⟨sorted, .sort hkeywords hsorted hperm fun hkind => ?_, ?_, rfl⟩
    · obtain ⟨sorted', hsorted', h⟩ := (sort_sorted s (s.list r).toList (descends s keywords)).2 hkind
      rw [hsorted] at hsorted'
      cases hsorted'
      exact h
    · rw [hperm.length_eq, Array.length_toList]
      exact hsize

theorem expectNoKeywords_eq_ok_iff {args : Arguments} {func : String} {u : Unit} :
    args.expectNoKeywords func = .ok u ↔ args.keywords = [] := by
  unfold Arguments.expectNoKeywords
  split <;> simp [*]

theorem eraseP_reverse_eq_nil_iff {keywords : List (String × Value)} :
    keywords.eraseP (·.1 == "reverse") = [] ↔
      keywords = [] ∨ ∃ v, keywords = [("reverse", v)] := by
  cases keywords with
  | nil => simp
  | cons keyword rest =>
    obtain ⟨name, v⟩ := keyword
    by_cases hname : name = "reverse" <;> simp [hname]

theorem callSort_ends (args : Arguments) (hsize : (s.list r).size ≤ l.maxContainerSize) :
    s.EndsAs l r (Effect s (s.list r).toList .sort args) (call .sort l r args s) := by
  obtain ⟨positional, keywords⟩ := args
  unfold call
  rw [if_pos rfl]
  refine ends_needed (fun items v h => ?_) fun u hu => ?_
  · cases h with
    | sort hkeywords =>
      exact ⟨(), expectNoKeywords_eq_ok_iff.2 (eraseP_reverse_eq_nil_iff.2 hkeywords)⟩
  · have hkeywords := eraseP_reverse_eq_nil_iff.1 (expectNoKeywords_eq_ok_iff.1 hu)
    cases positional with
    | nil => exact ends_get (runSort_ends hsize hkeywords)
    | cons => exact ends_refused fun items v h => by cases h

/-- Calls with other numbers of arguments are refused, and stand for nothing. -/
theorem run_ends {m : ListMethod} (hm : m ∈ mutators) (hsort : m ≠ sort) (positional : List Value)
    (hsize : (s.list r).size ≤ l.maxContainerSize) :
    s.EndsAs l r (Effect s (s.list r).toList m ⟨positional, []⟩) (m.run l r positional s) := by
  cases m with
  | append =>
    rcases positional with _ | ⟨value, _ | ⟨more, rest⟩⟩
    · exact ends_refused fun items v h => by cases h
    · refine ends_grown ?_ fun items v h => ?_
      · rw [Array.toList_push]
        exact .append value
      · cases h
        rw [List.length_append, Array.length_toList, List.length_singleton]
    · exact ends_refused fun items v h => by cases h
  | extend =>
    rcases positional with _ | ⟨source, _ | ⟨more, rest⟩⟩
    · exact ends_refused fun items v h => by cases h
    · exact runExtend_ends source
    · exact ends_refused fun items v h => by cases h
  | insert =>
    rcases positional with _ | ⟨position, _ | ⟨value, _ | ⟨more, rest⟩⟩⟩
    · exact ends_refused fun items v h => by cases h
    · exact ends_refused fun items v h => by cases h
    · exact runInsert_ends position value insert.qualifiedName
    · exact ends_refused fun items v h => by cases h
  | pop =>
    rcases positional with _ | ⟨position, _ | ⟨more, rest⟩⟩
    · exact runPop_ends pop.qualifiedName none hsize
    · exact runPop_ends pop.qualifiedName (some position) hsize
    · refine ends_refused fun items v h => ?_
      cases h with
      | pop hargs => rcases hargs with ⟨hargs, -⟩ | ⟨position', hargs, -⟩ <;> cases hargs
  | remove =>
    rcases positional with _ | ⟨value, _ | ⟨more, rest⟩⟩
    · exact ends_refused fun items v h => by cases h
    · exact runRemove_ends value hsize
    · exact ends_refused fun items v h => by cases h
  | clear =>
    cases positional with
    | nil => exact ⟨[], .clear, Nat.zero_le _, rfl⟩
    | cons => exact ends_refused fun items v h => by cases h
  | reverse =>
    cases positional with
    | nil =>
      refine ⟨(s.list r).toList.reverse, .reverse, ?_, ?_⟩
      · rw [List.length_reverse, Array.length_toList]
        exact hsize
      · show s.modifyList r Array.reverse = _
        rw [Store.modifyList_eq, ← Array.toList_reverse, Array.toArray_toList]
    | cons => exact ends_refused fun items v h => by cases h
  | sort => exact absurd rfl hsort
  | index => exact absurd hm (by decide)
  | count => exact absurd hm (by decide)
  | copy => exact absurd hm (by decide)

/-- A call of a method that changes a list changes it as the method says, or changes nothing. -/
theorem call_ends {m : ListMethod} (hm : m ∈ mutators) (args : Arguments)
    (hsize : (s.list r).size ≤ l.maxContainerSize) :
    s.EndsAs l r (Effect s (s.list r).toList m args) (Method.call l (.list r) m.name args s) := by
  have hcall : Method.call l (.list r) m.name args = m.call l r args := by
    cases m <;> rfl
  rw [hcall]
  by_cases hsort : m = .sort
  · subst hsort
    exact callSort_ends args hsize
  · obtain ⟨positional, keywords⟩ := args
    unfold call
    rw [if_neg hsort]
    refine ends_needed (fun items v h => ⟨(), expectNoKeywords_eq_ok_iff.2 ?_⟩) fun u hu => ?_
    · -- no other method takes keyword arguments
      cases h with
      | pop hargs => rcases hargs with ⟨hargs, -⟩ | ⟨index, hargs, -⟩ <;> cases hargs <;> rfl
      | sort => exact absurd rfl hsort
      | _ => rfl
    · obtain rfl : keywords = [] := expectNoKeywords_eq_ok_iff.1 hu
      exact run_ends hm hsort positional hsize

/-! ## Sequences of calls -/

/-- The store behind calls of methods of a list, one after another, whether they fail or not. -/
def afterCalls (l : SizeLimits) (r : ListRef) (s : Store) : List (ListMethod × Arguments) → Store
  | [] => s
  | (m, args) :: rest =>
    match Method.call l (.list r) m.name args s with
    | .ok _ s' | .error _ s' => afterCalls l r s' rest

/-- Calls keep the list within the quota, and change nothing else. -/
theorem afterCalls_within (hr : r.index < s.lists.size) (hsize : (s.list r).size ≤ l.maxContainerSize)
    {calls : List (ListMethod × Arguments)} (hcalls : ∀ c ∈ calls, c.1 ∈ mutators) :
    ((afterCalls l r s calls).list r).size ≤ l.maxContainerSize ∧
      ∃ items, afterCalls l r s calls = s.setList r items := by
  induction calls generalizing s with
  | nil =>
    exact ⟨hsize, s.list r, (s.setList_list r).symm⟩
  | cons c rest ih =>
    obtain ⟨m, args⟩ := c
    have hends := call_ends (s := s) (hcalls (m, args) List.mem_cons_self) args hsize
    have hrest : ∀ c ∈ rest, c.1 ∈ mutators := fun c hc => hcalls c (List.mem_cons_of_mem _ hc)
    rw [afterCalls]
    cases hcall : Method.call l (.list r) m.name args s with
    | error e s' =>
      rw [hcall] at hends
      obtain ⟨rfl, -⟩ := hends
      exact ih hr hsize hrest
    | ok v s' =>
      rw [hcall] at hends
      obtain ⟨items, -, hlength, rfl⟩ := hends
      obtain ⟨hwithin, items', hitems'⟩ := ih (s := s.setList r items.toArray) (by simpa using hr)
        (by rw [Store.list_setList hr]; exact hlength) hrest
      exact ⟨hwithin, items', hitems'.trans (s.setList_setList r _ _)⟩

/-- A list within the quota stays within it behind calls of the methods that change it, with any
arguments. Of the calls each changes it as its method says, and nothing else in the store; or it
changes nothing, and then the method stands for nothing there, or only for more items than the quota. -/
theorem list_calls (l : SizeLimits) (r : ListRef) (s : Store) (hr : r.index < s.lists.size)
    (hsize : (s.list r).size ≤ l.maxContainerSize) (calls : List (ListMethod × Arguments))
    (hcalls : ∀ c ∈ calls, c.1 ∈ mutators) :
    ((afterCalls l r s calls).list r).size ≤ l.maxContainerSize ∧
      ∀ m ∈ mutators, ∀ args,
        match Method.call l (.list r) m.name args (afterCalls l r s calls) with
        | .ok v s' =>
          Effect (afterCalls l r s calls) ((afterCalls l r s calls).list r).toList m args
            (s'.list r).toList v ∧
          (s'.list r).size ≤ l.maxContainerSize ∧
          s' = (afterCalls l r s calls).setList r (s'.list r)
        | .error _ s' =>
          s' = afterCalls l r s calls ∧
          ∀ items v, Effect (afterCalls l r s calls) ((afterCalls l r s calls).list r).toList m args
            items v → l.maxContainerSize < items.length := by
  -- the calls before matter only for what the list holds and for its size
  obtain ⟨hwithin, items, hitems⟩ := afterCalls_within hr hsize hcalls
  have hbound : r.index < (afterCalls l r s calls).lists.size := by
    rw [hitems, Store.size_lists_setList]
    exact hr
  refine ⟨hwithin, fun m hm args => ?_⟩
  have hends := call_ends hm args hwithin
  cases hcall : Method.call l (.list r) m.name args (afterCalls l r s calls) with
  | error e s' =>
    rw [hcall] at hends
    exact hends
  | ok v s' =>
    rw [hcall] at hends
    obtain ⟨items', heffect, hlength, rfl⟩ := hends
    dsimp only
    rw [Store.list_setList hbound]
    exact ⟨heffect, hlength, rfl⟩

/-- Two numbers in a list, with room for two more. -/
def twoNumbers : Store := ⟨#[#[.int 3, .int 1]], #[], #[], 0, .buffer ""⟩

def roomForFour : SizeLimits := ⟨100, 4, 100, 100⟩

/-- A list extended by itself, with an item inserted in front, which no longer fits, and the last one
but one taken out. -/
def someCalls : List (ListMethod × Arguments) :=
  [(.extend, ⟨[.list ⟨0⟩], []⟩), (.insert, ⟨[.int (-9), .int 7], []⟩), (.pop, ⟨[.int (-2)], []⟩)]

theorem twoNumbers_called :
    ((afterCalls roomForFour ⟨0⟩ twoNumbers someCalls).list ⟨0⟩ = #[.int 3, .int 1, .int 1]) ∧
      ((afterCalls roomForFour ⟨0⟩ twoNumbers someCalls).list ⟨0⟩).size ≤ 4 :=
  ⟨by with_unfolding_all rfl,
    (list_calls roomForFour ⟨0⟩ twoNumbers (by decide) (by decide) someCalls (by decide)).1⟩

end ListMethod
end ScriptSandbox

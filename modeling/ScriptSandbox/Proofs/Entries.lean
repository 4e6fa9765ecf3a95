import Mathlib.Data.List.Perm.Subperm
import ScriptSandbox.Proofs.Table
import ScriptSandbox.Value.Equality

/-!
# Entries found by their keys

A table finds exactly its entries (`Table.get?_eq_some_iff`), and no two of them have one key
(`Table.nodup_keyList`). So tables, and the dicts and sets made of them, can be compared by their
lists of keys: one that is no larger than another and has all its keys has the same keys
(`Table.keyList_subset`). Walking a table or a sequence by position is walking a list
(`Table.allPass_eq`, `sequencesEqual_eq`). Storing under a key and erasing one change the list of
entries at that key only, also where the erasure packs the slots (`Table.toList_upsert_of_present`,
`Table.toList_erase`), and what a look-up finds then follows (`Table.get?_upsert`, `Table.get?_erase`).
-/

namespace ScriptSandbox

/-! ## Walks -/

section Walks

variable {α β : Type} {xs : List α} {p q : α → Except Error Bool}

theorem allM_map (f : β → α) (ys : List β) : (ys.map f).allM p = ys.allM fun y => p (f y) := by
  induction ys with
  | nil => rfl
  | cons y ys ih => simp only [List.map_cons, List.allM, ih]

theorem allM_filterMap (f : β → Option α) (ys : List β) :
    (ys.filterMap f).allM p = ys.allM fun y => ((f y).map p).getD (.ok true) := by
  induction ys with
  | nil => rfl
  | cons y ys ih =>
    rw [List.filterMap_cons, List.allM]
    cases f y with
    | none => exact ih
    | some x =>
      rw [List.allM, ih]
      rfl

theorem allM_congr (h : ∀ x ∈ xs, p x = q x) : xs.allM p = xs.allM q := by
  induction xs with
  | nil => rfl
  | cons x xs ih =>
    rw [List.allM, List.allM, h x (by simp), ih fun y hy => h y (by simp [hy])]

theorem allM_eq_true_iff : xs.allM p = .ok true ↔ ∀ x ∈ xs, p x = .ok true := by
  induction xs with
  | nil => exact ⟨fun _ _ hx => (List.not_mem_nil hx).elim, fun _ => rfl⟩
  | cons x xs ih =>
    rw [List.forall_mem_cons, ← ih, List.allM]
    cases p x with
    | error e => exact ⟨nofun, fun h => nomatch h.1⟩
    | ok truth =>
      cases truth with
      | false => exact ⟨nofun, fun h => nomatch h.1⟩
      | true => exact ⟨fun h => ⟨rfl, h⟩, fun h => h.2⟩

/-- An error of a walk is one of a test that it makes. -/
theorem mem_of_allM_eq_error {e : Error} (h : xs.allM p = .error e) : ∃ x ∈ xs, p x = .error e := by
  induction xs with
  | nil => cases h
  | cons x xs ih =>
    rw [List.allM] at h
    cases hx : p x with
    | error e' =>
      rw [hx] at h
      exact ⟨x, by simp, hx.trans h⟩
    | ok truth =>
      rw [hx] at h
      cases truth with
      | false => cases h
      | true =>
        obtain ⟨y, hy, hp⟩ := ih h
        exact ⟨y, by simp [hy], hp⟩

end Walks

theorem firstPosition_isNone (p : Nat → Except Error Bool) (position left : Nat) :
    (firstPosition (fun i => (p i).map (!·)) position left).map (·.isNone) =
      (List.range' position left).allM p := by
  induction left generalizing position with
  | zero => rfl
  | succ left ih =>
    rw [firstPosition, List.range'_succ, List.allM, ← ih]
    cases p position with
    | error e => rfl
    | ok truth => cases truth <;> rfl

/-- Sequences of one length are compared item by item. -/
theorem sequencesEqual_eq (equal : Value → Value → Except Error Bool) (xs ys : Array Value) :
    sequencesEqual equal xs ys =
      if xs.size = ys.size then (xs.toList.zip ys.toList).allM fun p => equal p.1 p.2
      else .ok false := by
  unfold sequencesEqual
  split
  · rename_i hsize
    have hzip : xs.toList.zip ys.toList = (List.range' 0 (min xs.size ys.size)).map fun i =>
        (xs.getD i .null, ys.getD i .null) := by
      apply List.ext_getElem
      · simp
      · intro i h₁ h₂
        simp only [List.length_zip, Array.length_toList] at h₁
        have hxs : i < xs.size := by omega
        have hys : i < ys.size := by omega
        simp [hxs, hys]
    rw [hzip, allM_map, firstDifference,
      firstPosition_isNone fun i => equal (xs.getD i .null) (ys.getD i .null)]
  · rfl

/-! ## Tables -/

namespace Table

variable {α : Type} {t u : Table α} {k : Key} {a : α}

theorem get?_eq_some_iff : t.get? k = some a ↔ (k, a) ∈ t.toList := by
  rw [mem_toList]
  unfold get?
  cases hindex : t.index[k]? with
  | none =>
    simp only [reduceCtorEq, false_iff]
    rintro ⟨i, hi⟩
    rw [(t.index_iff k i).2 ⟨a, hi⟩] at hindex
    cases hindex
  | some i =>
    obtain ⟨b, hb⟩ := (t.index_iff k i).1 hindex
    simp only [hb, Option.bind_some, id, Option.map_some, Option.some.injEq]
    constructor
    · rintro rfl
      exact ⟨i, hb⟩
    · rintro ⟨j, hj⟩
      have hij := (t.index_iff k j).2 ⟨a, hj⟩
      rw [hindex, Option.some.injEq] at hij
      subst hij
      simpa [hb] using hj

/-- The keys of a table in the order of its entries. -/
def keyList (t : Table α) : List Key := t.toList.map Prod.fst

theorem mem_keyList : k ∈ t.keyList ↔ ∃ a, t.get? k = some a := by
  simp only [keyList, List.mem_map, get?_eq_some_iff]
  constructor
  · rintro ⟨⟨k, a⟩, h, rfl⟩
    exact ⟨a, h⟩
  · rintro ⟨a, h⟩
    exact ⟨(k, a), h, rfl⟩

theorem contains_iff : t.contains k = true ↔ k ∈ t.keyList := by
  rw [contains, Std.HashMap.contains_eq_isSome_getElem?, Option.isSome_iff_exists, mem_keyList]
  simp only [get?_eq_some_iff, mem_toList, t.index_iff]
  exact exists_comm

/-- No two entries have one key. -/
theorem nodup_keyList (t : Table α) : t.keyList.Nodup := by
  have slots : t.slots.toList.Pairwise fun x y =>
      ∀ e, x = some e → ∀ e', y = some e' → e.1 ≠ e'.1 := by
    rw [List.pairwise_iff_getElem]
    rintro i j hi hj hij ⟨k, a⟩ he ⟨k', a'⟩ he' rfl
    have hi' : t.slots[i]? = some (some (k, a)) := by
      rw [← he, ← Array.getElem?_toList, List.getElem?_eq_getElem hi]
    have hj' : t.slots[j]? = some (some (k, a')) := by
      rw [← he', ← Array.getElem?_toList, List.getElem?_eq_getElem hj]
    have hfirst := (t.index_iff k i).2 ⟨a, hi'⟩
    have hsecond := (t.index_iff k j).2 ⟨a', hj'⟩
    rw [hfirst, Option.some.injEq] at hsecond
    omega
  rw [keyList, toList, Array.toList_filterMap, List.Nodup, List.pairwise_map,
    List.pairwise_filterMap]
  exact slots

theorem allKeys_iff {p : Key → Bool} : t.allKeys p = true ↔ ∀ k ∈ t.keyList, p k = true := by
  unfold allKeys
  rw [Array.all_eq_true']
  constructor
  · intro h k hk
    obtain ⟨⟨k, a⟩, hmem, rfl⟩ := List.mem_map.1 hk
    obtain ⟨i, hi⟩ := mem_toList.1 hmem
    exact h _ (Array.mem_of_getElem? hi)
  · intro h slot hslot
    obtain ⟨i, hi⟩ := Array.mem_iff_getElem?.1 hslot
    rcases slot with _ | ⟨k, a⟩
    · rfl
    · exact h k (List.mem_map_of_mem (mem_toList.2 ⟨i, hi⟩))

/-- A test of all entries is made entry by entry. -/
theorem allPass_eq (test : Key → α → Except Error Bool) :
    t.allPass test = t.toList.allM fun entry => test entry.1 entry.2 := by
  let look : Option (Option (Key × α)) → Except Error Bool := fun slot =>
    ((slot.bind id).map fun entry => test entry.1 entry.2).getD (.ok true)
  have hslots : (List.range' 0 t.slots.size).map (fun i : Nat => t.slots[i]?) =
      t.slots.toList.map some := by
    apply List.ext_getElem <;> simp
  have hwalk := allM_map (p := look) (fun i : Nat => t.slots[i]?) (List.range' 0 t.slots.size)
  rw [hslots, allM_map] at hwalk
  have hpositions : t.allPass test =
      (List.range' 0 t.slots.size).allM fun i : Nat => look t.slots[i]? := by
    rw [← firstPosition_isNone, allPass]
    congr 2
    funext i
    rcases t.slots[i]? with _ | _ | ⟨k, a⟩ <;> rfl
  rw [hpositions, ← hwalk, toList, Array.toList_filterMap, allM_filterMap]
  rfl

/-- A new entry comes last. -/
theorem toList_upsert_of_absent (h : k ∉ t.keyList) (new : α) (change : α → α) :
    (t.upsert k new change).toList = t.toList ++ [(k, new)] := by
  rw [← contains_iff, contains, Std.HashMap.contains_eq_isSome_getElem?] at h
  obtain ⟨slots, size, index, hindex, hsize⟩ := t
  dsimp only [upsert]
  split
  · rename_i found
    simp [found] at h
  · simp [toList]

/-- A change of the slot of a key is a change of the entry of the key. -/
theorem filterMap_modify {slots : Array (Option (Key × α))} {index : Std.HashMap Key Nat}
    (h : ∀ (k : Key) (i : Nat), index[k]? = some i ↔ ∃ a, slots[i]? = some (some (k, a))) {i : Nat}
    (found : index[k]? = some i) (change : Option (Key × α) → Option (Key × α)) :
    (slots.modify i change).filterMap id = (slots.filterMap id).filterMap fun entry =>
      if entry.1 = k then change (some entry) else some entry := by
  have hslots : slots.modify i change =
      slots.map (·.bind fun entry => if entry.1 = k then change (some entry) else some entry) := by
    refine Array.ext_getElem? fun j => ?_
    obtain ⟨a, ha⟩ := (h k i).1 found
    rw [Array.getElem?_modify, Array.getElem?_map]
    by_cases hij : i = j
    · subst hij
      simp [ha]
    · rcases hj : slots[j]? with _ | _ | ⟨k', b⟩
      · simp
      · simp [hij]
      · have hk : k' ≠ k := by
          rintro rfl
          exact hij (Option.some.inj (found.symm.trans ((h k' j).2 ⟨b, hj⟩)))
        simp [hij, hk]
  rw [hslots, Array.filterMap_map, Array.filterMap_filterMap]
  rfl

theorem toList_upsert_of_present (h : k ∈ t.keyList) (new : α) (change : α → α) :
    (t.upsert k new change).toList =
      t.toList.map fun entry => if entry.1 = k then (entry.1, change entry.2) else entry := by
  rw [← contains_iff, contains, Std.HashMap.contains_eq_isSome_getElem?] at h
  obtain ⟨slots, size, index, hindex, hsize⟩ := t
  dsimp only [upsert]
  split
  · rename_i i found
    show ((slots.modify i _).filterMap id).toList = _
    rw [filterMap_modify hindex found, Array.toList_filterMap, toList, ← List.filterMap_eq_map]
    refine congrArg (List.filterMap · _) (funext fun entry => ?_)
    simp only [Function.comp_apply, Option.map_some]
    split <;> rfl
  · rename_i absent
    simp [absent] at h

/-- Entries that have their own keys come behind those of a table. -/
theorem toList_insertAllNew {entries : List (Key × α)}
    (h : (t.keyList ++ entries.map Prod.fst).Nodup) :
    (entries.foldl (fun t e => t.insertNew e.1 e.2) t).toList = t.toList ++ entries := by
  induction entries generalizing t with
  | nil => exact (List.append_nil _).symm
  | cons e rest ih =>
    have habsent : e.1 ∉ t.keyList := fun hmem =>
      (List.nodup_append.1 h).2.2 e.1 hmem e.1 (by simp) rfl
    have hnew : (t.insertNew e.1 e.2).toList = t.toList ++ [e] := by
      rw [insertNew, if_neg fun hcontains => habsent (contains_iff.1 hcontains),
        toList_upsert_of_absent habsent]
    rw [List.foldl_cons, ih, hnew, List.append_assoc, List.singleton_append]
    rw [keyList, hnew, List.map_append, List.append_assoc]
    exact h

theorem toList_ofList {entries : List (Key × α)} (h : (entries.map Prod.fst).Nodup) :
    (ofList entries).toList = entries :=
  toList_insertAllNew (t := empty) h

theorem toList_packed : t.packed.toList = t.toList := by
  unfold packed
  split
  · exact toList_ofList t.nodup_keyList
  · rfl

theorem toList_erase : (t.erase k).toList = t.toList.filter fun entry => entry.1 ≠ k := by
  obtain ⟨slots, size, index, hindex, hsize⟩ := t
  dsimp only [erase]
  split
  · rename_i absent
    refine (List.filter_eq_self.2 fun entry hentry => ?_).symm
    obtain ⟨i, hi⟩ := mem_toList.1 hentry
    rw [decide_eq_true_iff]
    rintro rfl
    rw [(hindex _ i).2 ⟨_, hi⟩] at absent
    cases absent
  · rename_i i found
    -- the slot is emptied in its place, and packing leaves the order as it is
    have hset : slots.setIfInBounds i none = slots.modify i fun _ => none := by
      obtain ⟨hi, -⟩ := Array.getElem?_eq_some_iff.1 ((hindex k i).1 found).choose_spec
      refine Array.ext_getElem? fun j => ?_
      by_cases hij : i = j
      · subst hij
        simp [Array.getElem_modify, hi]
      · simp [Array.getElem?_modify, hij]
    rw [toList_packed]
    show ((slots.setIfInBounds i none).filterMap id).toList = _
    rw [hset, filterMap_modify hindex found, Array.toList_filterMap, toList, ← List.filterMap_eq_filter]
    refine congrArg (List.filterMap · _) (funext fun entry => ?_)
    by_cases hk : entry.1 = k <;> simp [hk, Option.guard]

theorem get?_eq_none_iff : t.get? k = none ↔ k ∉ t.keyList := by
  rw [mem_keyList, not_exists, Option.eq_none_iff_forall_ne_some]

theorem get?_upsert (new : α) (change : α → α) (k' : Key) :
    (t.upsert k new change).get? k' =
      if k' = k then some (((t.get? k).map change).getD new) else t.get? k' := by
  -- by the list of entries, where one is changed in its place or added behind all
  refine Option.ext fun a => ?_
  rw [get?_eq_some_iff]
  by_cases hk : k ∈ t.keyList
  · obtain ⟨old, hold⟩ := mem_keyList.1 hk
    rw [toList_upsert_of_present hk, List.mem_map, hold]
    constructor
    · rintro ⟨entry, hentry, heq⟩
      have hfound := get?_eq_some_iff.2 hentry
      split at heq <;> cases heq
      · rename_i hkey
        rw [hkey, hold, Option.some.injEq] at hfound
        simp [hkey, hfound]
      · rename_i hkey
        rw [if_neg hkey, hfound]
    · intro h
      split at h
      · rename_i hkey
        exact ⟨(k, old), get?_eq_some_iff.1 hold, by simpa [hkey] using h⟩
      · rename_i hkey
        exact ⟨(k', a), get?_eq_some_iff.1 h, if_neg hkey⟩
  · have hnone : t.get? k = none := Option.eq_none_iff_forall_not_mem.2 fun a ha =>
      hk (mem_keyList.2 ⟨a, ha⟩)
    rw [toList_upsert_of_absent hk, List.mem_append, ← get?_eq_some_iff, List.mem_singleton,
      Prod.mk.injEq, hnone]
    by_cases hkey : k' = k
    · simp [hkey, hnone, eq_comm]
    · simp [hkey]

theorem get?_erase (k' : Key) : (t.erase k).get? k' = if k' = k then none else t.get? k' := by
  refine Option.ext fun a => ?_
  rw [get?_eq_some_iff, toList_erase, List.mem_filter, ← get?_eq_some_iff]
  by_cases hkey : k' = k <;> simp [hkey]

/-- Tables with the same keys in one order and the same data under them have the same entries. -/
theorem toList_ext (hkeys : t.keyList = u.keyList) (hget : ∀ k, t.get? k = u.get? k) :
    t.toList = u.toList := by
  have hentries (t : Table α) : t.toList = t.keyList.filterMap fun k => (t.get? k).map (k, ·) := by
    rw [keyList, List.filterMap_map]
    conv_lhs => rw [← List.filterMap_some (l := t.toList)]
    refine List.filterMap_congr fun entry hentry => ?_
    rw [Function.comp_apply, get?_eq_some_iff.2 hentry]
    rfl
  rw [hentries t, hentries u, hkeys]
  simp only [hget]

/-- A table that has all keys of another one and is not larger has no other keys. -/
theorem keyList_subset (hkeys : t.keyList ⊆ u.keyList) (hsize : u.size ≤ t.size) :
    u.keyList ⊆ t.keyList := by
  have hperm := (t.nodup_keyList.subperm hkeys).perm_of_length_le (by
    simpa [keyList, length_toList] using hsize)
  exact hperm.symm.subset

end Table

end ScriptSandbox

import ScriptSandbox.Value.Dict

/-!
# Entries of tables after changes

Where the entries of a changed table come from, and how many there are. An entry of a table is one
that was there before, perhaps with changed data, or the one put in; nothing else appears
(`Table.mem_upsert`, `Table.mem_erase`), and only a new entry makes a table larger
(`Table.size_upsert_le`, `Table.size_erase_le`). Dicts and sets inherit both.
-/

namespace ScriptSandbox

namespace Table

variable {α : Type} {t : Table α} {k : Key} {entry : Key × α}

theorem mem_toList : entry ∈ t.toList ↔ ∃ i : Nat, t.slots[i]? = some (some entry) := by
  simp only [toList, Array.toList_filterMap, List.mem_filterMap, id, Array.mem_toList_iff,
    Array.mem_iff_getElem?]
  constructor
  · rintro ⟨_, ⟨i, hi⟩, rfl⟩
    exact ⟨i, hi⟩
  · rintro ⟨i, hi⟩
    exact ⟨_, ⟨i, hi⟩, rfl⟩

theorem mem_upsert {new : α} {change : α → α} (h : entry ∈ (t.upsert k new change).toList) :
    entry ∈ t.toList ∨ entry = (k, new) ∨ ∃ old, (k, old) ∈ t.toList ∧ entry = (k, change old) := by
  obtain ⟨slots, size, index, hindex, hsize⟩ := t
  rw [mem_toList] at h
  obtain ⟨j, hj⟩ := h
  dsimp only [upsert] at hj
  split at hj
  · next i found =>
    obtain ⟨a, ha⟩ := (hindex k i).1 found
    simp only [Array.getElem?_modify] at hj
    split at hj
    · next hij =>
      subst hij
      rw [ha] at hj
      simp only [Option.map_some, Option.some.injEq] at hj
      exact .inr (.inr ⟨a, mem_toList.2 ⟨i, ha⟩, hj.symm⟩)
    · exact .inl (mem_toList.2 ⟨j, hj⟩)
  · simp only [Array.getElem?_push] at hj
    split at hj
    · simp only [Option.some.injEq] at hj
      exact .inr (.inl hj.symm)
    · exact .inl (mem_toList.2 ⟨j, hj⟩)

theorem size_upsert_le (new : α) (change : α → α) : (t.upsert k new change).size ≤ t.size + 1 := by
  obtain ⟨slots, size, index, hindex, hsize⟩ := t
  dsimp only [upsert]
  split
  · exact Nat.le_succ _
  · exact Nat.le_refl _

theorem mem_insertNew {a : α} (h : entry ∈ (t.insertNew k a).toList) :
    entry ∈ t.toList ∨ entry = (k, a) := by
  unfold insertNew at h
  split at h
  · exact .inl h
  · rcases mem_upsert h with h | h | ⟨old, hold, rfl⟩
    · exact .inl h
    · exact .inr h
    · exact .inl hold

theorem size_insertNew_le (a : α) : (t.insertNew k a).size ≤ t.size + 1 := by
  unfold insertNew
  split
  · exact Nat.le_succ _
  · exact size_upsert_le _ _

theorem mem_insertAllNew {entries : List (Key × α)}
    (h : entry ∈ (entries.foldl (fun t e => t.insertNew e.1 e.2) t).toList) :
    entry ∈ t.toList ∨ entry ∈ entries := by
  induction entries generalizing t with
  | nil => exact .inl h
  | cons e rest ih =>
    rcases ih h with h | h
    · rcases mem_insertNew h with h | rfl
      · exact .inl h
      · exact .inr (by simp)
    · exact .inr (by simp [h])

theorem size_insertAllNew_le (entries : List (Key × α)) :
    (entries.foldl (fun t e => t.insertNew e.1 e.2) t).size ≤ t.size + entries.length := by
  induction entries generalizing t with
  | nil => exact Nat.le_refl _
  | cons e rest ih =>
    refine Nat.le_trans ih ?_
    have := size_insertNew_le (t := t) (k := e.1) e.2
    simp only [List.length_cons]
    omega

theorem mem_ofList {entries : List (Key × α)} (h : entry ∈ (ofList entries).toList) :
    entry ∈ entries := by
  rcases mem_insertAllNew h with h | h
  · simp [empty, toList] at h
  · exact h

theorem size_ofList_le (entries : List (Key × α)) : (ofList entries).size ≤ entries.length := by
  simpa [ofList, empty] using size_insertAllNew_le (t := empty) entries

theorem mem_packed (h : entry ∈ t.packed.toList) : entry ∈ t.toList := by
  unfold packed at h
  split at h
  · exact mem_ofList h
  · exact h

theorem size_packed_le : t.packed.size ≤ t.size := by
  unfold packed
  split
  · rw [← length_toList t]
    exact size_ofList_le _
  · exact Nat.le_refl _

theorem mem_erase (h : entry ∈ (t.erase k).toList) : entry ∈ t.toList := by
  obtain ⟨slots, size, index, hindex, hsize⟩ := t
  dsimp only [erase] at h
  split at h
  · exact h
  · obtain ⟨j, hj⟩ := mem_toList.1 (mem_packed h)
    simp only [Array.getElem?_setIfInBounds] at hj
    split at hj
    · split at hj <;> simp at hj
    · exact mem_toList.2 ⟨j, hj⟩

theorem size_erase_le : (t.erase k).size ≤ t.size := by
  obtain ⟨slots, size, index, hindex, hsize⟩ := t
  dsimp only [erase]
  split
  · exact Nat.le_refl _
  · exact Nat.le_trans size_packed_le (Nat.sub_le _ _)

theorem mem_filter {p : Key → Bool} (h : entry ∈ (t.filter p).toList) : entry ∈ t.toList :=
  (List.mem_filter.1 (mem_ofList h)).1

theorem mem_of_get? {a : α} (h : t.get? k = some a) : ∃ k', (k', a) ∈ t.toList := by
  unfold get? at h
  split at h
  · cases h
  · next i _ =>
    cases hs : t.slots[i]? with
    | none => simp [hs] at h
    | some slot =>
      simp only [hs, Option.bind_some, id, Option.map_eq_some_iff] at h
      obtain ⟨⟨k', b⟩, rfl, rfl⟩ := h
      exact ⟨k', mem_toList.2 ⟨i, hs⟩⟩

theorem mem_of_first? (h : t.first? = some entry) : entry ∈ t.toList := by
  obtain ⟨slot, hslot, hid⟩ := Array.exists_of_findSome?_eq_some h
  obtain ⟨i, hi⟩ := Array.mem_iff_getElem?.1 hslot
  exact mem_toList.2 ⟨i, by rw [hi, show slot = some entry from hid]⟩

end Table

namespace Dict

variable {d : Dict} {k : Key} {key value : Value} {entry : Value × Value}

theorem mem_toList : entry ∈ d.toList ↔ ∃ k, (k, entry) ∈ d.table.toList := by
  simp only [toList, List.mem_map]
  constructor
  · rintro ⟨⟨k, _⟩, h, rfl⟩
    exact ⟨k, h⟩
  · rintro ⟨k, h⟩
    exact ⟨(k, entry), h, rfl⟩

theorem length_toList : d.toList.length = d.size := by
  rw [toList, List.length_map, Table.length_toList, size]

theorem mem_empty : entry ∉ empty.toList := by
  simp [empty, toList, Table.empty, Table.toList]

theorem mem_insertByKey (h : entry ∈ (d.insertByKey k key value).toList) :
    entry ∈ d.toList ∨ entry = (key, value) ∨
      ∃ old, old ∈ d.toList ∧ entry = (old.1, value) := by
  obtain ⟨k', h⟩ := mem_toList.1 h
  rcases Table.mem_upsert h with h | h | ⟨old, hold, h⟩
  · exact .inl (mem_toList.2 ⟨k', h⟩)
  · exact .inr (.inl (Prod.ext_iff.1 h).2)
  · exact .inr (.inr ⟨old, mem_toList.2 ⟨k, hold⟩, (Prod.ext_iff.1 h).2⟩)

theorem size_insertByKey_le : (d.insertByKey k key value).size ≤ d.size + 1 :=
  Table.size_upsert_le _ _

theorem mem_eraseByKey (h : entry ∈ (d.eraseByKey k).toList) : entry ∈ d.toList := by
  obtain ⟨k', h⟩ := mem_toList.1 h
  exact mem_toList.2 ⟨k', Table.mem_erase h⟩

theorem size_eraseByKey_le : (d.eraseByKey k).size ≤ d.size := Table.size_erase_le

theorem mem_of_getByKey? (h : d.getByKey? k = some value) : ∃ key, (key, value) ∈ d.toList := by
  obtain ⟨entry, he, rfl⟩ := Option.map_eq_some_iff.1 h
  obtain ⟨k', hk⟩ := Table.mem_of_get? he
  exact ⟨entry.1, mem_toList.2 ⟨k', hk⟩⟩

end Dict

namespace KeySet

variable {s t : KeySet} {k : Key} {x value : Value}

theorem mem_toList : x ∈ s.toList ↔ ∃ k, (k, x) ∈ s.table.toList := by
  simp only [toList, List.mem_map]
  constructor
  · rintro ⟨⟨k, _⟩, h, rfl⟩
    exact ⟨k, h⟩
  · rintro ⟨k, h⟩
    exact ⟨(k, x), h, rfl⟩

theorem mem_empty : x ∉ empty.toList := by
  simp [empty, toList, Table.empty, Table.toList]

theorem mem_insertByKey (h : x ∈ (s.insertByKey k value).toList) : x ∈ s.toList ∨ x = value := by
  obtain ⟨k', h⟩ := mem_toList.1 h
  rcases Table.mem_insertNew h with h | h
  · exact .inl (mem_toList.2 ⟨k', h⟩)
  · exact .inr (Prod.ext_iff.1 h).2

theorem size_insertByKey_le : (s.insertByKey k value).size ≤ s.size + 1 := Table.size_insertNew_le _

theorem mem_eraseByKey (h : x ∈ (s.eraseByKey k).toList) : x ∈ s.toList := by
  obtain ⟨k', h⟩ := mem_toList.1 h
  exact mem_toList.2 ⟨k', Table.mem_erase h⟩

theorem size_eraseByKey_le : (s.eraseByKey k).size ≤ s.size := Table.size_erase_le

theorem mem_insertEntries {entries : List (Key × Value)}
    (h : x ∈ (entries.foldl (fun s e => s.insertByKey e.1 e.2) s).toList) :
    x ∈ s.toList ∨ ∃ k, (k, x) ∈ entries := by
  induction entries generalizing s with
  | nil => exact .inl h
  | cons e rest ih =>
    rcases ih h with h | ⟨k, h⟩
    · rcases mem_insertByKey h with h | rfl
      · exact .inl h
      · exact .inr ⟨e.1, by simp⟩
    · exact .inr ⟨k, by simp [h]⟩

theorem mem_union (h : x ∈ (s.union t).toList) : x ∈ s.toList ∨ x ∈ t.toList := by
  rcases mem_insertEntries h with h | h
  · exact .inl h
  · exact .inr (mem_toList.2 h)

theorem mem_intersection (h : x ∈ (s.intersection t).toList) : x ∈ s.toList := by
  obtain ⟨k, h⟩ := mem_toList.1 h
  exact mem_toList.2 ⟨k, Table.mem_filter h⟩

theorem mem_difference (h : x ∈ (s.difference t).toList) : x ∈ s.toList := by
  obtain ⟨k, h⟩ := mem_toList.1 h
  exact mem_toList.2 ⟨k, Table.mem_filter h⟩

end KeySet

end ScriptSandbox

import Std.Data.HashMap
import ScriptSandbox.Value.Key
import ScriptSandbox.Value.Position
/-!
Tables from keys to data that remember the order in which keys came in. The entries stand in slots
in that order; an index finds the slot of a key. A key that is erased leaves its slot empty, and the
table is packed once most slots are. Main statements: index and slots are in step (`index_iff`), so
keys are distinct, and the number of entries is the number of filled slots (`length_toList`).
-/

namespace ScriptSandbox

/-- A table. Position `i` is the index's answer for a key exactly when slot `i` has that key, so
keys are distinct. -/
structure Table (α : Type) where
  slots : Array (Option (Key × α))
  size : Nat
  index : Std.HashMap Key Nat
  index_iff : ∀ (k : Key) (i : Nat), index[k]? = some i ↔ ∃ a, slots[i]? = some (some (k, a))
  size_eq : size = slots.countP Option.isSome

namespace Table

variable {α : Type}

def empty : Table α := ⟨#[], 0, ∅, by simp, by simp⟩

instance : Inhabited (Table α) := ⟨empty⟩

def isEmpty (t : Table α) : Bool := t.size == 0

def toList (t : Table α) : List (Key × α) := (t.slots.filterMap id).toList

theorem length_toList (t : Table α) : t.toList.length = t.size := by
  rw [t.size_eq, toList, Array.toList_filterMap, List.length_filterMap_eq_countP,
    ← Array.countP_toList]
  rfl

/-- The oldest entry. -/
def first? (t : Table α) : Option (Key × α) := t.slots.findSome? id

def contains (t : Table α) (k : Key) : Bool := t.index.contains k

def get? (t : Table α) (k : Key) : Option α :=
  match t.index[k]? with
  | none => none
  | some i => (t.slots[i]?.bind id).map (·.2)

/-- Whether all keys satisfy a condition. -/
def allKeys (t : Table α) (p : Key → Bool) : Bool :=
  t.slots.all fun slot =>
    match slot with
    | some (k, _) => p k
    | none => true

/-- Whether all entries pass a test; the first one that does not decides. -/
def allPass (t : Table α) (test : Key → α → Except Error Bool) : Except Error Bool :=
  (firstPosition (fun i =>
    match t.slots[i]? with
    | some (some (k, a)) => (test k a).map (!·)
    | _ => .ok false) 0 t.slots.size).map (·.isNone)

/-! ### Changes of slots that keep index and slots in step -/

section Steps

variable {slots : Array (Option (Key × α))} {index : Std.HashMap Key Nat}
  (h : ∀ (k : Key) (i : Nat), index[k]? = some i ↔ ∃ a, slots[i]? = some (some (k, a)))

include h

theorem index_iff_push {k : Key} (absent : index[k]? = none) (a : α) (k' : Key) (i : Nat) :
    (index.insert k slots.size)[k']? = some i ↔
      ∃ b, (slots.push (some (k, a)))[i]? = some (some (k', b)) := by
  rw [Std.HashMap.getElem?_insert]
  simp only [beq_iff_eq, Array.getElem?_push]
  by_cases hk : k = k'
  · subst hk
    simp only [if_true, Option.some.injEq]
    constructor
    · rintro rfl
      exact ⟨a, by simp⟩
    · rintro ⟨b, hb⟩
      split at hb
      · next hi => exact hi.symm
      · exact absurd ((h k i).2 ⟨b, hb⟩) (by simp [absent])
  · simp only [hk, if_false]
    rw [h k' i]
    constructor
    · rintro ⟨b, hb⟩
      have : i ≠ slots.size := by
        rintro rfl
        simp at hb
      exact ⟨b, by simpa [this] using hb⟩
    · rintro ⟨b, hb⟩
      split at hb
      · simp only [Option.some.injEq, Prod.mk.injEq] at hb
        exact absurd hb.1 hk
      · exact ⟨b, hb⟩

theorem index_iff_modify (j : Nat) (f : α → α) (k : Key) (i : Nat) :
    index[k]? = some i ↔
      ∃ a, (slots.modify j (·.map fun entry => (entry.1, f entry.2)))[i]? = some (some (k, a)) := by
  rw [h k i, Array.getElem?_modify]
  by_cases hj : j = i
  · subst hj
    cases slots[j]? with
    | none => simp
    | some slot =>
      cases slot with
      | none => simp
      | some entry => cases entry; simp
  · simp [hj]

theorem index_iff_erase {k : Key} {j : Nat} (found : index[k]? = some j) (k' : Key) (i : Nat) :
    (index.erase k)[k']? = some i ↔
      ∃ a, (slots.setIfInBounds j none)[i]? = some (some (k', a)) := by
  obtain ⟨a, ha⟩ := (h k j).1 found
  rw [Std.HashMap.getElem?_erase, Array.getElem?_setIfInBounds]
  simp only [beq_iff_eq]
  by_cases hj : j = i
  · subst hj
    by_cases hk : k = k'
    · simp [hk]
    · have : index[k']? ≠ some j := by
        rw [Ne, h k' j]
        rintro ⟨b, hb⟩
        rw [ha] at hb
        simp only [Option.some.injEq, Prod.mk.injEq] at hb
        exact hk hb.1
      simp [hk, this]
  · by_cases hk : k = k'
    · subst hk
      have : ¬ ∃ b, slots[i]? = some (some (k, b)) := by
        rw [← h k i, found]
        simpa using hj
      simpa [hj] using this
    · simp [hj, hk, h k' i]

end Steps

theorem countP_modify (slots : Array (Option (Key × α))) (j : Nat) (f : Key × α → Key × α) :
    (slots.modify j (·.map f)).countP Option.isSome = slots.countP Option.isSome := by
  have same : (slots.modify j (·.map f)).map Option.isSome = slots.map Option.isSome := by
    ext1
    · simp
    · next i _ _ => by_cases hj : j = i <;> simp [Array.getElem_modify, hj]
  have count (xs : Array (Option (Key × α))) :
      xs.countP Option.isSome = (xs.map Option.isSome).countP id := by
    rw [Array.countP_map]
    rfl
  rw [count, same, ← count]

theorem countP_erase {slots : Array (Option (Key × α))} {index : Std.HashMap Key Nat}
    (h : ∀ (k : Key) (i : Nat), index[k]? = some i ↔ ∃ a, slots[i]? = some (some (k, a)))
    {k : Key} {i : Nat} (found : index[k]? = some i) :
    (slots.setIfInBounds i none).countP Option.isSome = slots.countP Option.isSome - 1 := by
  obtain ⟨a, ha⟩ := (h k i).1 found
  obtain ⟨hi, filled⟩ := Array.getElem?_eq_some_iff.1 ha
  rw [Array.setIfInBounds, dif_pos hi, Array.countP_set, filled]
  simp

/-- Puts new data under a key that is absent, and changes the data under a key that is present,
which keeps its place. -/
def upsert (t : Table α) (k : Key) (new : α) (change : α → α) : Table α :=
  match t with
  | ⟨slots, size, index, h, size_eq⟩ =>
    match found : index[k]? with
    | some i => ⟨slots.modify i (·.map fun entry => (entry.1, change entry.2)), size, index,
        index_iff_modify h i change, by rw [size_eq, countP_modify]⟩
    | none =>
      let position := slots.size
      ⟨slots.push (some (k, new)), size + 1, index.insert k position, index_iff_push h found new,
        by simp [size_eq]⟩

/-- Puts data under a key that is absent; present keys keep theirs. -/
def insertNew (t : Table α) (k : Key) (a : α) : Table α :=
  if t.contains k then t else t.upsert k a id

/-- The table of a list of entries; of two entries with one key the first counts. -/
def ofList (entries : List (Key × α)) : Table α :=
  entries.foldl (fun t entry => t.insertNew entry.1 entry.2) empty

/-- The entries that satisfy a condition, in their order. -/
def filter (t : Table α) (p : Key → Bool) : Table α :=
  ofList (t.toList.filter fun entry => p entry.1)

/-- Gives up the empty slots when they are the most. -/
def packed (t : Table α) : Table α :=
  if 2 * t.size < t.slots.size then ofList t.toList else t

/-- The table without a key. -/
def erase (t : Table α) (k : Key) : Table α :=
  match t with
  | ⟨slots, size, index, h, size_eq⟩ =>
    match found : index[k]? with
    | none => ⟨slots, size, index, h, size_eq⟩
    | some i =>
      packed ⟨slots.setIfInBounds i none, size - 1, index.erase k, index_iff_erase h found,
        by rw [size_eq, countP_erase h found]⟩

end Table

end ScriptSandbox

import ScriptSandbox.Proofs.Progression

/-!
# The elements of a range

All that is computed from the ends and the step of a range is about one sequence: the start and then
step after step for as long as the stop is ahead. Its length, the element at an index, membership, the
equality of two ranges and what a cursor comes to are those of this sequence (`range_elements`), and no
number on the way leaves its word, though there may be more elements than indices.
-/

namespace ScriptSandbox

namespace Range

variable {r r' : Range} {i n : Int64} {k : Nat}

/-! ## Length and indices -/

theorem lt_length_iff : k < r.length ↔ r.walk.Ahead (r.start.toInt + k * r.step.toInt) :=
  SliceIndices.lt_count_iff (i := r.walk)

/-- Each step leads to another word. -/
theorem length_lt (r : Range) : r.length < 0x10000000000000000 := by
  by_contra hlong
  have hahead := lt_length_iff.1 (show 0xFFFFFFFFFFFFFFFF < r.length by omega)
  have hstart := r.start.le_toInt
  have hstart' := r.start.toInt_lt
  have hstop := r.stop.le_toInt
  have hstop' := r.stop.toInt_lt
  simp only [SliceIndices.Ahead, walk] at hahead
  omega

/-- The multiples of the step on the way to the elements are no longer than the way. -/
theorem natAbs_mul_step_lt (h : k < r.length) : (k * r.step.toInt).natAbs < 0x10000000000000000 := by
  have helement := toInt_element h
  have hlow := (r.element k).le_toInt
  have hhigh := (r.element k).toInt_lt
  have hstart := r.start.le_toInt
  have hstart' := r.start.toInt_lt
  omega

@[simp] theorem length_toList (r : Range) : r.toList.length = r.length := by
  rw [toList_eq, List.length_map, List.length_range]

theorem getElem?_toList (h : k < r.length) : r.toList[k]? = some (r.element k) := by
  rw [toList_eq, List.getElem?_map, List.getElem?_range h, Option.map_some]

theorem getElem?_toList_eq_some_iff : r.toList[k]? = some n ↔ k < r.length ∧ r.element k = n := by
  by_cases h : k < r.length
  · rw [getElem?_toList h, Option.some.injEq, and_iff_right h]
  · rw [List.getElem?_eq_none (by simpa using h)]
    exact ⟨nofun, fun hk => absurd hk.1 h⟩

/-- An element has two indices, its position and the one that counts from the end. -/
theorem get?_eq_some_iff :
    r.get? i = some n ↔ ∃ k : Nat, r.toList[k]? = some n ∧ (i.toInt = k ∨ i.toInt = k - r.length) := by
  have hneg : i < 0 ↔ i.toInt < 0 := by rw [Int64.lt_iff_toInt_lt, Int64.toInt_zero]
  simp only [get?, hneg, getElem?_toList_eq_some_iff, Option.ite_none_right_eq_some, Option.some.injEq]
  constructor
  · rintro ⟨⟨hlow, hhigh⟩, helement⟩
    exact ⟨_, ⟨by omega, helement⟩, by split <;> omega⟩
  · rintro ⟨k, ⟨hk, helement⟩, hi⟩
    have hposition : (if i.toInt < 0 then i.toInt + r.length else i.toInt) = k := by split <;> omega
    rw [hposition, Int.toNat_natCast]
    exact ⟨by omega, helement⟩

/-- There is an element at the indices between the length and its negative. -/
theorem isSome_get?_iff : (r.get? i).isSome ↔ -(r.length : Int) ≤ i.toInt ∧ i.toInt < r.length := by
  simp only [Option.isSome_iff_exists, get?_eq_some_iff, getElem?_toList_eq_some_iff]
  constructor
  · rintro ⟨n, k, ⟨hk, -⟩, hi⟩
    omega
  · rintro ⟨hlow, hhigh⟩
    rcases Int.lt_or_le i.toInt 0 with hneg | hpos
    · exact ⟨_, (i.toInt + r.length).toNat, ⟨by omega, rfl⟩, by omega⟩
    · exact ⟨_, i.toInt.toNat, ⟨by omega, rfl⟩, by omega⟩

/-! ## Equality -/

/-- Two ranges have one sequence if they are equally long and, as far as there are elements to tell,
start at one number and go on in one step. -/
theorem sameElements_iff : r.sameElements r' = true ↔ r.toList = r'.toList := by
  simp only [sameElements, Bool.and_eq_true, Bool.or_eq_true, beq_iff_eq]
  constructor
  · rintro ⟨hlength, hsame⟩
    rw [toList_eq, toList_eq, ← hlength]
    refine List.map_congr_left fun k hk => ?_
    rw [List.mem_range] at hk
    rw [element_eq, element_eq]
    rcases hsame with hnone | ⟨hstart, hone | hstep⟩
    · omega
    · obtain rfl : k = 0 := by omega
      simp [hstart]
    · rw [hstart, hstep]
  · intro hlist
    have hlength : r.length = r'.length := by rw [← length_toList, hlist, length_toList]
    -- the ranges have the same number in each place, and the first two tell start and step
    have hnumber {k : Nat} (hk : k < r.length) :
        r.start.toInt + k * r.step.toInt = r'.start.toInt + k * r'.step.toInt := by
      have helement := getElem?_toList hk
      rw [hlist, getElem?_toList (hlength ▸ hk), Option.some.injEq] at helement
      rw [← toInt_element hk, ← toInt_element (hlength ▸ hk), helement]
    refine ⟨hlength, Classical.or_iff_not_imp_left.2 fun hsome => ?_⟩
    have hstart : r.start.toInt = r'.start.toInt := by
      have := hnumber (k := 0) (by omega)
      omega
    refine ⟨Int64.toInt_inj.1 hstart, Classical.or_iff_not_imp_left.2 fun hmore => ?_⟩
    have hsecond := hnumber (k := 1) (by omega)
    exact Int64.toInt_inj.1 (by omega)

/-! ## The cursor -/

namespace Cursor

/-- A cursor comes to the element at its position. -/
theorem next?_of_lt {c : Cursor} (h : c.position < c.range.length) (hword : c.position < Integer.bound) :
    c.next? = some (c.range.element c.position, { c with position := c.position + 1 }) := by
  obtain ⟨index, hindex⟩ := Option.isSome_iff_exists.1
    (Integer.fit?_isSome_iff.2 ⟨by unfold Integer.bound; omega, hword⟩)
  have hget : c.range.get? index = some (c.range.element c.position) :=
    get?_eq_some_iff.2 ⟨_, getElem?_toList h, .inl (Integer.fit?_eq_some_iff.1 hindex)⟩
  rw [next?, if_neg (Nat.not_le.2 h), hindex, Option.bind_some, hget]

theorem next?_of_le {c : Cursor} (h : c.range.length ≤ c.position) : c.next? = none := if_pos h

/-- A range with no more elements than indices is walked to its end. -/
theorem take_eq (hindices : (r.length : Int) < Integer.bound) (hk : k ≤ r.length) (m : Nat) :
    take m ⟨r, k⟩ = ((r.toList.drop k).take m, ⟨r, min (k + m) r.length⟩) := by
  induction m generalizing k with
  | zero => rw [take, List.take_zero, Nat.add_zero, Nat.min_eq_left hk]
  | succ m ih =>
    rcases Nat.lt_or_eq_of_le hk with hlt | rfl
    · have hfirst : r.toList.drop k = r.element k :: r.toList.drop (k + 1) := by
        rw [List.drop_eq_getElem?_toList_append, getElem?_toList hlt]
        rfl
      have hword : (k : Int) < Integer.bound := by omega
      have hposition : k + (m + 1) = k + 1 + m := by omega
      rw [take, next?_of_lt (c := ⟨r, k⟩) hlt hword, hfirst, List.take_succ_cons, hposition]
      simp only [ih hlt]
    · rw [take, next?_of_le (Nat.le_refl _), List.drop_eq_nil_of_le (by simp), List.take_nil,
        Nat.min_eq_right (Nat.le_add_right _ _)]

end Cursor

end Range

/-- The length of a range is the number of steps before its stop, and fits a word without sign. Its
elements are the start and the multiples of the step added to it, as exact integers, and these fit a
word and its sign; those at the indices from minus the length up to the length can be read, a value is a
member if it is one of them, and ranges are equal if theirs are. A cursor, and iteration, come to them
in order and then stop. -/
theorem range_elements (r : Range) (hstep : r.step ≠ 0) :
    (∀ k : Nat, k < r.length ↔
      (0 < r.step.toInt ∧ r.start.toInt + k * r.step.toInt < r.stop.toInt) ∨
      (r.step.toInt < 0 ∧ r.stop.toInt < r.start.toInt + k * r.step.toInt)) ∧
    r.length < 0x10000000000000000 ∧
    (∀ k : Nat, k < r.length → (k * r.step.toInt).natAbs < 0x10000000000000000) ∧
    r.toList.map Int64.toInt =
      (List.range r.length).map (fun k : Nat => r.start.toInt + k * r.step.toInt) ∧
    (∀ i : Int64, ((r.get? i).isSome ↔ -(r.length : Int) ≤ i.toInt ∧ i.toInt < r.length) ∧
      ∀ n, r.get? i = some n ↔
        ∃ k : Nat, r.toList[k]? = some n ∧ (i.toInt = k ∨ i.toInt = k - r.length)) ∧
    (∀ n, r.contains n = true ↔ n ∈ r.toList) ∧
    (∀ r' : Range, r.sameElements r' = true ↔ r.toList = r'.toList) ∧
    ((r.length : Int) < Integer.bound →
      (∀ m, r.cursor.take m = (r.toList.take m, ⟨r, min m r.length⟩)) ∧
      (Range.Cursor.mk r r.length).next? = none) ∧
    (Items.range r).toList = r.toList.map Value.int := by
  refine ⟨fun k => Range.lt_length_iff, r.length_lt, fun k => Range.natAbs_mul_step_lt,
    r.map_toInt_toList,
    fun i => ⟨Range.isSome_get?_iff, fun n => Range.get?_eq_some_iff⟩,
    fun n => Range.contains_iff hstep, fun r' => Range.sameElements_iff,
    fun hindices => ⟨fun m => ?_, Range.Cursor.next?_of_le (Nat.le_refl _)⟩, Items.toList_range r⟩
  have htake := Range.Cursor.take_eq hindices (Nat.zero_le r.length) m
  rwa [List.drop_zero, Nat.zero_add] at htake

/-- From ten down in steps of three: four elements, of which the last has the indices three and minus
one, and behind which a cursor stops. -/
theorem countdown_elements :
    (Range.mk 10 0 (-3)).step ≠ 0 ∧ (Range.mk 10 0 (-3)).get? (-1) = some 1 ∧
      (Range.mk 10 0 (-3)).contains 4 = true ∧ (Range.mk 10 0 (-3)).contains 5 ≠ true ∧
      (Range.mk 10 0 (-3)).sameElements ⟨10, 1, -3⟩ ≠ true ∧
      (Range.mk 10 0 (-3)).cursor.take 5 = ([10, 7, 4, 1], ⟨⟨10, 0, -3⟩, 4⟩) := by
  have hlist : (Range.mk 10 0 (-3)).toList = [10, 7, 4, 1] := by decide +kernel
  obtain ⟨-, -, -, -, hget, hcontains, hsame, hcursor, -⟩ := range_elements ⟨10, 0, -3⟩ (by decide)
  obtain ⟨htake, -⟩ := hcursor (by decide +kernel)
  simp only [hlist] at hget hcontains hsame htake
  refine ⟨by decide, (hget (-1)).2 1 |>.2 ⟨3, rfl, .inr (by decide +kernel)⟩,
    (hcontains 4).2 (by decide), fun h => absurd ((hcontains 5).1 h) (by decide),
    fun h => absurd ((hsame _).1 h) (by decide +kernel), (htake 5).trans (by decide +kernel)⟩

end ScriptSandbox

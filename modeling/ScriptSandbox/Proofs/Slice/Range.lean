import Mathlib.Algebra.Order.Ring.Int
import ScriptSandbox.Proofs.Slice

/-!
# Slices of ranges

A slice of a range is not written out either: its ends are the numbers that the ends of the slice stand
for, and its step is the product of the steps. Moving a walk and stretching it, also backward, keeps the
number of its steps (`SliceIndices.count_scaled`), so the range that a slice gives has the elements at
the positions of the slice (`range_slice`). Only a range with more elements than there are positive
words is counted short, and its slices are those of its first elements.
-/

namespace ScriptSandbox

namespace SliceIndices

/-- A walk moved by an offset and stretched by a factor. -/
def scaled (i : SliceIndices) (offset factor : Int) : SliceIndices :=
  ⟨offset + i.start * factor, offset + i.stop * factor, factor * i.step⟩

theorem ahead_scaled {i : SliceIndices} {offset factor : Int} (hfactor : factor ≠ 0) (n : Int) :
    (i.scaled offset factor).Ahead (offset + n * factor) ↔ i.Ahead n := by
  unfold Ahead scaled
  dsimp only
  rw [mul_pos_iff, mul_neg_iff]
  rcases Int.lt_or_gt_of_ne hfactor with hneg | hpos
  · have hbefore : n * factor < i.stop * factor ↔ i.stop < n := mul_lt_mul_right_of_neg hneg
    have hbehind : i.stop * factor < n * factor ↔ n < i.stop := mul_lt_mul_right_of_neg hneg
    omega
  · have hbefore : n * factor < i.stop * factor ↔ n < i.stop := mul_lt_mul_iff_left₀ hpos
    have hbehind : i.stop * factor < n * factor ↔ i.stop < n := mul_lt_mul_iff_left₀ hpos
    omega

theorem count_scaled {i : SliceIndices} {offset factor : Int} (hfactor : factor ≠ 0) :
    (i.scaled offset factor).count = i.count := by
  refine count_eq_of_ahead_iff fun k => ?_
  have hnumber : (i.scaled offset factor).start + k * (i.scaled offset factor).step =
      offset + (i.start + k * i.step) * factor := by
    simp only [scaled]
    grind
  rw [hnumber, ahead_scaled hfactor]

end SliceIndices

namespace Subscript

variable {r : Range} {b : SliceBounds}

/-- The word that a position of a range stands for, if the distance from the start and the word fit. -/
def numberAt? (r : Range) (position : Int) : Option Int64 :=
  (Integer.fit? (position * r.step.toInt)).bind fun offset => Integer.add? r.start offset

theorem numberAt?_eq_some {position : Int} {n : Int64} (h : numberAt? r position = some n) :
    n.toInt = r.start.toInt + position * r.step.toInt := by
  obtain ⟨offset, hoffset, hsum⟩ := Option.bind_eq_some_iff.1 h
  rw [Integer.fit?_eq_some_iff] at hoffset
  rw [Integer.add?_eq, Integer.fit?_eq_some_iff] at hsum
  rw [hsum, hoffset]

/-- The range over a stretched walk, if its parts fit. -/
def stretched? (r : Range) (i : SliceIndices) : Option Range := do
  pure ⟨← numberAt? r i.start, ← numberAt? r i.stop, ← Integer.fit? (r.step.toInt * i.step)⟩

theorem walk_of_stretched? {i : SliceIndices} {r' : Range} (h : stretched? r i = some r') :
    r'.walk = i.scaled r.start.toInt r.step.toInt := by
  obtain ⟨start, hstart, h⟩ := Option.bind_eq_some_iff.1 h
  obtain ⟨stop, hstop, h⟩ := Option.bind_eq_some_iff.1 h
  obtain ⟨step, hstep, h⟩ := Option.bind_eq_some_iff.1 h
  obtain rfl := Option.some.inj h
  simp only [Range.walk, SliceIndices.scaled, numberAt?_eq_some hstart, numberAt?_eq_some hstop,
    Integer.fit?_eq_some_iff.1 hstep]

theorem sliceRange_eq (r : Range) (b : SliceBounds) :
    sliceRange r b = (b.indices r.length).bind fun i =>
      (stretched? r i).elim (.error (.overflow "range slicing")) fun r' => .ok (.range r') := by
  unfold sliceRange
  cases b.indices r.length with
  | error e => rfl
  | ok i =>
    simp only [bind, Except.bind]
    split
    · rename_i r' hstretched
      have hfits : stretched? r i = some r' := hstretched
      rw [hfits]
      rfl
    · rename_i hstretched
      have hmissing : stretched? r i = none := hstretched
      rw [hmissing]
      rfl

/-- A slice of a range is a range over the stretched walk, if there is one. -/
theorem sliceRange_cases (hb : b.step ≠ some 0) :
    (∃ r' : Range, sliceRange r b = .ok (.range r') ∧
      r'.walk = (b.ends (SliceBounds.cappedLength r.length)).scaled r.start.toInt r.step.toInt) ∨
    sliceRange r b = .error (.overflow "range slicing") := by
  rw [sliceRange_eq, SliceBounds.indices_eq hb, Except.bind]
  cases hstretched : stretched? r (b.ends (SliceBounds.cappedLength r.length)) with
  | none => exact .inr rfl
  | some r' => exact .inl ⟨r', rfl, walk_of_stretched? hstretched⟩

end Subscript

namespace Range

/-- The elements of a range over a stretched walk are those at the positions of the walk. -/
theorem toList_of_walk {r r' : Range} {i : SliceIndices} (hstep : r.step ≠ 0)
    (hwalk : r'.walk = i.scaled r.start.toInt r.step.toInt) (hwithin : i.Within r.length) :
    r'.toList.map some = i.positions.map (r.toList[·]?) := by
  have hfactor : r.step.toInt ≠ 0 := fun h => hstep (Int64.toInt_inj.1 h)
  have hlength : r'.length = i.count := by
    rw [← SliceIndices.count_scaled hfactor, ← hwalk]
    rfl
  rw [toList_eq r', toList_eq r, hlength, SliceIndices.positions_eq_numbers, SliceIndices.numbers,
    List.map_map, List.map_map, List.map_map]
  refine List.map_congr_left fun k hk => ?_
  obtain ⟨hlow, hhigh⟩ := hwithin.bounds (List.mem_map.2 ⟨k, hk, rfl⟩)
  have hposition : ((i.start + k * i.step).toNat : Int) = i.start + k * i.step :=
    Int.toNat_of_nonneg hlow
  have helement : r'.element k = r.element (i.start + k * i.step).toNat := by
    simp only [walk, SliceIndices.scaled, SliceIndices.mk.injEq] at hwalk
    obtain ⟨hstart, -, hstep'⟩ := hwalk
    rw [element_eq, element_eq, hstart, hstep', hposition]
    congr 1
    grind
  have hlt : (i.start + k * i.step).toNat < r.length := by omega
  simp [hlt, helement]

/-- A product of steps that are not zero is not zero. -/
theorem step_of_walk {r r' : Range} {b : SliceBounds} {n : Int} (hstep : r.step ≠ 0)
    (hb : b.step ≠ some 0) (hwalk : r'.walk = (b.ends n).scaled r.start.toInt r.step.toInt) :
    r'.step ≠ 0 := by
  have hfactor : r.step.toInt ≠ 0 := fun h => hstep (Int64.toInt_inj.1 h)
  have hsize : b.stepSize ≠ 0 := fun h => hb (SliceBounds.stepSize_eq_zero_iff.1 h)
  have hproduct : r'.step.toInt = r.step.toInt * b.stepSize := congrArg SliceIndices.step hwalk
  rintro hzero
  rw [hzero] at hproduct
  exact Int.mul_ne_zero hfactor hsize hproduct.symm

end Range

/-- A slice of a range has the elements that the slice selects from those of the range, as far as the
range is counted. Where it is missing, the error is an overflow. -/
theorem range_slice (s : Store) (r : Range) (b : SliceBounds) (hstep : r.step ≠ 0)
    (hb : b.step ≠ some 0) :
    match Subscript.getSlice (.range r) b s with
    | .ok v s' => s' = s ∧ ∃ r' positions, v = .range r' ∧ r'.step ≠ 0 ∧
        b.Selection (SliceBounds.cappedLength r.length) positions ∧
        (Items.range r').toList.map some = positions.map ((Items.range r).toList[·]?)
    | .error e s' => s' = s ∧ e = .overflow "range slicing" := by
  rcases Subscript.sliceRange_cases (r := r) hb with ⟨r', hr', hwalk⟩ | hoverflow
  · have hget : Subscript.getSlice (.range r) b s = .ok (.range r') s := by
      show StoreM.ofExcept (Subscript.sliceRange r b) s = _
      rw [hr']
      rfl
    have hwithin :=
      (SliceBounds.within_ends b (SliceBounds.cappedLength r.length)).mono (Nat.min_le_left _ _)
    rw [hget]
    refine ⟨rfl, r', _, rfl, Range.step_of_walk hstep hb hwalk,
      SliceBounds.selection_positions hb _, ?_⟩
    -- the walk gives integers, which are items as values
    have hints := congrArg (List.map (Option.map Value.int)) (Range.toList_of_walk hstep hwalk hwithin)
    rw [List.map_map, List.map_map] at hints
    rw [Items.toList_range, Items.toList_range, List.map_map]
    simp only [List.getElem?_map]
    exact hints
  · have hget : Subscript.getSlice (.range r) b s = .error (.overflow "range slicing") s := by
      show StoreM.ofExcept (Subscript.sliceRange r b) s = _
      rw [hoverflow]
      rfl
    rw [hget]
    exact ⟨rfl, rfl⟩

/-- Two of ten numbers backward, and the last one of the numbers that are words, which is not their
last one because they are too many. -/
theorem tenNumbers_sliced :
    (∃ positions, SliceBounds.Selection ⟨some 8, some 2, some (-3)⟩ 10 positions ∧
      [some (Value.int 8), some (.int 5)] =
        positions.map ((Items.range ⟨0, 10, 1⟩).toList[·]?)) ∧
    (∃ positions, SliceBounds.Selection ⟨some (-1), none, none⟩ 0x7FFFFFFFFFFFFFFF positions ∧
      [some (Value.int (-2))] =
        positions.map ((Items.range ⟨Integer.least, Integer.greatest, 1⟩).toList[·]?)) ∧
    (⟨Integer.least, Integer.greatest, 1⟩ : Range).get? (-1) = some (Integer.greatest - 1) := by
  obtain ⟨-, r', positions, hr', -, hselection, hitems⟩ :=
    range_slice .empty ⟨0, 10, 1⟩ ⟨some 8, some 2, some (-3)⟩ (by decide) (by decide)
  obtain ⟨-, r'', positions', hr'', -, hselection', hitems'⟩ :=
    range_slice .empty ⟨Integer.least, Integer.greatest, 1⟩ ⟨some (-1), none, none⟩ (by decide)
      (by decide)
  obtain rfl : ⟨8, 2, -3⟩ = r' := Value.range.inj hr'
  obtain rfl : ⟨-2, -1, 1⟩ = r'' := Value.range.inj hr''
  exact ⟨⟨positions, hselection, hitems⟩, ⟨positions', hselection', hitems'⟩, by decide +kernel⟩

end ScriptSandbox

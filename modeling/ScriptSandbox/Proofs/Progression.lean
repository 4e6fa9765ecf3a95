import Mathlib.Algebra.Ring.Divisibility.Basic
import Mathlib.Algebra.Ring.Int.Defs
import Mathlib.Data.List.Basic
import ScriptSandbox.Slice
import ScriptSandbox.Value.Items

/-!
# Arithmetic progressions

The positions of a slice and the elements of a range are counted off in the same way: from a start in
equal steps until the stop is reached. The closed form of their number is right (`lt_count_iff`), so the
numbers are those of a walk that tests before each step whether the stop is still ahead
(`numbers_of_ahead`, `numbers_of_not_ahead`), as the positions of a slice are found
(`positions_eq_numbers`). Hence they are the numbers between the ends that are a whole number of steps
from the start (`mem_numbers`), in the order of the step (`pairwise_numbers`).
-/

namespace ScriptSandbox

namespace SliceIndices

variable {i j : SliceIndices} {n : Int} {k : Nat}

/-- The walk behind its first step. -/
def next (i : SliceIndices) : SliceIndices := { i with start := i.start + i.step }

/-- The number of steps until the stop is reached. -/
def count (i : SliceIndices) : Nat :=
  if 0 < i.step ∧ i.start < i.stop then ((i.stop - i.start - 1) / i.step + 1).toNat
  else if i.step < 0 ∧ i.stop < i.start then ((i.start - i.stop - 1) / -i.step + 1).toNat
  else 0

/-- The numbers walked over, in order. -/
def numbers (i : SliceIndices) : List Int :=
  (List.range i.count).map fun k : Nat => i.start + k * i.step

/-- A number lies between the ends, a whole number of steps from the start. -/
def Reaches (i : SliceIndices) (n : Int) : Prop :=
  (0 < i.step ∧ i.start ≤ n ∧ n < i.stop ∧ i.step ∣ n - i.start) ∨
  (i.step < 0 ∧ i.stop < n ∧ n ≤ i.start ∧ i.step ∣ i.start - n)

/-! ## The number of steps -/

/-- So many steps fit before a gap is crossed. -/
theorem lt_steps_iff {gap step : Int} (hstep : 0 < step) :
    0 < gap ∧ k < ((gap - 1) / step + 1).toNat ↔ k * step < gap := by
  have hquotient : (k : Int) ≤ (gap - 1) / step ↔ k * step ≤ gap - 1 := Int.le_ediv_iff_mul_le hstep
  have hproduct : 0 ≤ (k : Int) * step := Int.mul_nonneg (Int.natCast_nonneg k) (Int.le_of_lt hstep)
  omega

theorem lt_count_iff : k < i.count ↔ i.Ahead (i.start + k * i.step) := by
  unfold count Ahead
  rcases Int.lt_trichotomy 0 i.step with hup | hzero | hdown
  · have hsteps := @lt_steps_iff k (i.stop - i.start) i.step hup
    have hneg : ¬ i.step < 0 := by omega
    simp only [hup, hneg, true_and, false_and, or_false, if_false]
    split <;> omega
  · simp only [← hzero, Int.lt_irrefl, false_and, if_false, or_self, Nat.not_lt_zero]
  · have hsteps := @lt_steps_iff k (i.start - i.stop) (-i.step) (by omega)
    rw [Int.mul_neg] at hsteps
    have hpos : ¬ 0 < i.step := by omega
    simp only [hdown, hpos, true_and, false_and, false_or, if_false]
    split <;> omega

/-- Walks whose stops are ahead at the same steps have the same number of them. -/
theorem count_eq_of_ahead_iff
    (h : ∀ k : Nat, i.Ahead (i.start + k * i.step) ↔ j.Ahead (j.start + k * j.step)) :
    i.count = j.count := by
  have hlt (k : Nat) : k < i.count ↔ k < j.count := by rw [lt_count_iff, lt_count_iff, h]
  have := hlt i.count
  have := hlt j.count
  omega

theorem count_of_ahead (h : i.Ahead i.start) : i.count = i.next.count + 1 := by
  have hfirst : 0 < i.count := lt_count_iff.2 (by simpa using h)
  have hlt (k : Nat) : k + 1 < i.count ↔ k < i.next.count := by
    rw [lt_count_iff, lt_count_iff]
    have hnumber : i.start + (k + 1 : Nat) * i.step = i.next.start + k * i.next.step := by
      simp only [next, Int.natCast_add, Int.add_mul]
      omega
    rw [hnumber]
    rfl
  have := hlt (i.count - 1)
  have := hlt i.next.count
  omega

theorem count_of_not_ahead (h : ¬ i.Ahead i.start) : i.count = 0 := by
  refine Nat.eq_zero_of_not_pos fun hpos => h ?_
  simpa using lt_count_iff.1 hpos

/-! ## The walk -/

theorem numbers_of_ahead (h : i.Ahead i.start) : i.numbers = i.start :: i.next.numbers := by
  rw [numbers, count_of_ahead h, List.range_succ_eq_map, List.map_cons, List.map_map]
  have hnumber : (fun k : Nat => i.start + k * i.step) ∘ Nat.succ =
      fun k : Nat => i.next.start + k * i.next.step := by
    funext k
    simp only [Function.comp, next, Nat.succ_eq_add_one, Int.natCast_add, Int.add_mul]
    omega
  rw [hnumber]
  simp [numbers]

theorem numbers_of_not_ahead (h : ¬ i.Ahead i.start) : i.numbers = [] := by
  rw [numbers, count_of_not_ahead h]
  rfl

/-- A walk has come to its stop, or it goes on behind its first step. -/
theorem walk_induction {motive : SliceIndices → Prop}
    (stopped : ∀ i, ¬ i.Ahead i.start → motive i)
    (step : ∀ i, i.Ahead i.start → motive i.next → motive i) (i : SliceIndices) : motive i := by
  induction hcount : i.count generalizing i with
  | zero =>
    refine stopped i fun h => ?_
    rw [count_of_ahead h] at hcount
    cases hcount
  | succ count ih =>
    have hahead : i.Ahead i.start := Classical.not_not.1 fun h => by
      rw [count_of_not_ahead h] at hcount
      cases hcount
    rw [count_of_ahead hahead] at hcount
    exact step i hahead (ih i.next (Nat.succ.inj hcount))

/-- What is found on a walk are its numbers. -/
theorem toList_walkFrom (i : SliceIndices) (n : Int) (found : Array Nat) :
    (i.walkFrom n found).toList =
      found.toList ++ (numbers { i with start := n }).map Int.toNat := by
  fun_induction walkFrom i n found with
  | case1 n found h ih =>
    have hfirst : numbers { i with start := n } = n :: numbers { i with start := n + i.step } :=
      numbers_of_ahead h
    rw [ih, hfirst, Array.toList_push, List.map_cons, List.append_assoc, List.singleton_append]
  | case2 n found h =>
    have hnone : numbers { i with start := n } = [] := numbers_of_not_ahead h
    rw [hnone, List.map_nil, List.append_nil]

/-- The closed form of the positions. -/
theorem positions_eq_numbers (i : SliceIndices) : i.positions = i.numbers.map Int.toNat := by
  rw [positions, toList_walkFrom, Array.toList_empty, List.nil_append]

theorem length_positions (i : SliceIndices) : i.positions.length = i.count := by
  rw [positions_eq_numbers, numbers, List.length_map, List.length_map, List.length_range]

/-! ## The numbers -/

/-- A multiple is nothing, or one step more than a multiple. -/
theorem multiple_cases {step gap : Int} (hstep : 0 < step) :
    0 ≤ gap ∧ step ∣ gap ↔ gap = 0 ∨ (0 ≤ gap - step ∧ step ∣ gap - step) := by
  rw [dvd_sub_self_right]
  constructor
  · rintro ⟨hle, c, rfl⟩
    rcases Int.lt_or_eq_of_le hle with hlt | heq
    · have hc : 1 ≤ c := Int.pos_of_mul_pos_right hlt hstep
      have := Int.mul_le_mul_of_nonneg_left hc (Int.le_of_lt hstep)
      exact .inr ⟨by omega, c, rfl⟩
    · exact .inl heq.symm
  · rintro (rfl | ⟨hle, hdvd⟩)
    · exact ⟨Int.le_refl 0, Int.dvd_zero step⟩
    · exact ⟨by omega, hdvd⟩

/-- The first number is reached, and all others are reached from the second one. -/
theorem reaches_of_ahead (h : i.Ahead i.start) : i.Reaches n ↔ n = i.start ∨ i.next.Reaches n := by
  unfold Reaches next
  rcases h with ⟨hup, hahead⟩ | ⟨hdown, hahead⟩
  · have hcases := @multiple_cases i.step (n - i.start) hup
    have hneg : ¬ i.step < 0 := by omega
    simp only [hup, hneg, true_and, false_and, or_false, ← Int.sub_sub]
    grind
  · have hcases := @multiple_cases (-i.step) (i.start - n) (by omega)
    rw [Int.neg_dvd, Int.neg_dvd] at hcases
    have hpos : ¬ 0 < i.step := by omega
    have hgap : i.start + i.step - n = i.start - n - -i.step := by omega
    simp only [hdown, hpos, true_and, false_and, false_or, hgap]
    grind

theorem not_reaches_of_not_ahead (h : ¬ i.Ahead i.start) : ¬ i.Reaches n := by
  unfold Ahead at h
  rintro (⟨hup, hlow, hhigh, -⟩ | ⟨hdown, hlow, hhigh, -⟩) <;> omega

/-- The walk comes to the numbers between its ends that are a whole number of steps from the start. -/
theorem mem_numbers (i : SliceIndices) : n ∈ i.numbers ↔ i.Reaches n := by
  induction i using walk_induction with
  | stopped i h =>
    rw [numbers_of_not_ahead h]
    exact iff_of_false List.not_mem_nil (not_reaches_of_not_ahead h)
  | step i h ih => rw [numbers_of_ahead h, List.mem_cons, reaches_of_ahead h, ih]

/-- The walk goes on in the direction of its step. -/
theorem pairwise_numbers (i : SliceIndices) :
    i.numbers.Pairwise fun m n => if 0 < i.step then m < n else n < m := by
  induction i using walk_induction with
  | stopped i h =>
    rw [numbers_of_not_ahead h]
    exact .nil
  | step i h ih =>
    rw [numbers_of_ahead h]
    refine .cons (fun n hn => ?_) ih
    have hreaches := (mem_numbers i.next).1 hn
    simp only [Reaches, next] at hreaches
    unfold Ahead at h
    split <;> omega

end SliceIndices

/-! ## Ranges -/

namespace Range

variable {r : Range} {n : Int64} {k : Nat}

/-- The walk over the elements of a range. -/
def walk (r : Range) : SliceIndices := ⟨r.start.toInt, r.stop.toInt, r.step.toInt⟩

theorem toList_eq (r : Range) : r.toList = (List.range r.length).map r.element := by
  rw [toList, elementsFrom, Nat.sub_zero, Nat.min_self, ← List.range_eq_range']

/-- No element comes round: each lies between the start and the stop. -/
theorem toInt_element (h : k < r.length) : (r.element k).toInt = r.start.toInt + k * r.step.toInt := by
  have hmem : r.start.toInt + k * r.step.toInt ∈ r.walk.numbers :=
    List.mem_map.2 ⟨k, List.mem_range.2 h, rfl⟩
  have hreaches := (SliceIndices.mem_numbers r.walk).1 hmem
  have hstart := r.start.le_toInt
  have hstart' := r.start.toInt_lt
  have hstop := r.stop.le_toInt
  have hstop' := r.stop.toInt_lt
  simp only [SliceIndices.Reaches, walk] at hreaches
  rw [element_eq]
  exact Int64.toInt_ofInt_of_le (by omega) (by omega)

theorem map_toInt_toList (r : Range) : r.toList.map Int64.toInt = r.walk.numbers := by
  rw [toList_eq, List.map_map]
  exact List.map_congr_left fun k hk => toInt_element (List.mem_range.1 hk)

theorem mem_toList : n ∈ r.toList ↔ r.walk.Reaches n.toInt := by
  rw [← SliceIndices.mem_numbers, ← map_toInt_toList]
  exact (List.mem_map_of_injective fun _ _ => Int64.toInt_inj.1).symm

/-- The closed form of membership is membership. -/
theorem contains_iff (hstep : r.step ≠ 0) : r.contains n = true ↔ n ∈ r.toList := by
  have hzero : r.step.toInt ≠ 0 := fun h => hstep (Int64.toInt_inj.1 h)
  rw [mem_toList]
  simp only [contains, SliceIndices.Reaches, walk, Int64.lt_iff_toInt_lt, Int64.toInt_zero,
    Bool.and_eq_true, beq_iff_eq, ← Int.dvd_iff_emod_eq_zero]
  by_cases hup : 0 < r.step.toInt
  · have hneg : ¬ r.step.toInt < 0 := by omega
    simp [hup, hneg, Int64.le_iff_toInt_le, and_assoc]
  · have hdown : r.step.toInt < 0 := by omega
    rw [dvd_sub_comm]
    simp [hup, hdown, Int64.le_iff_toInt_le, and_assoc]

end Range

/-- Iterating a range yields its elements. -/
theorem Items.toList_range (r : Range) : (Items.range r).toList = r.toList.map Value.int := by
  rw [Range.toList_eq, List.map_map]
  apply List.ext_getElem <;> simp [toList, toArray]

end ScriptSandbox

import ScriptSandbox.Proofs.Progression

/-!
# Positions of slices

Whatever the bounds of a slice are, its ends are fitted to the length of the sequence
(`SliceBounds.indices_eq`), and its positions are counted off from one end until the other is reached.
So they are the positions that the bounds select, in the order of the step
(`SliceBounds.selection_positions`), and none of them lies outside the sequence
(`SliceBounds.within_ends`).
-/

namespace ScriptSandbox

/-! ## Bounds -/

namespace SliceBounds

variable {b : SliceBounds} {length : Nat} {positions positions' : List Nat}

/-- The step of a slice, one unless another one is given. -/
def stepSize (b : SliceBounds) : Int := (b.step.map Int64.toInt).getD 1

/-- A bound as a position: a negative one counts from the end, and one that is out of reach is moved to
the nearest position that a walk in the direction of the step can start from or stop before. -/
def normalise (b : SliceBounds) (length bound : Int) : Int :=
  let position := if bound < 0 then bound + length else bound
  if 0 < b.stepSize then max 0 (min length position) else max (-1) (min (length - 1) position)

/-- The position that a slice of a sequence starts from. -/
def lowerEnd (b : SliceBounds) (length : Int) : Int :=
  match b.lower with
  | some lower => b.normalise length lower.toInt
  | none => if 0 < b.stepSize then 0 else length - 1

/-- The position that a slice of a sequence stops before. -/
def upperEnd (b : SliceBounds) (length : Int) : Int :=
  match b.upper with
  | some upper => b.normalise length upper.toInt
  | none => if 0 < b.stepSize then length else -1

/-- The positions that a slice selects from a sequence of a length: those between its ends that are a
whole number of steps from the lower one, in the order of the step. -/
structure Selection (b : SliceBounds) (length : Nat) (positions : List Nat) : Prop where
  mem_iff : ∀ n : Int, n ∈ positions.map Int.ofNat ↔
    if 0 < b.stepSize then
      b.lowerEnd length ≤ n ∧ n < b.upperEnd length ∧ b.stepSize ∣ n - b.lowerEnd length
    else b.upperEnd length < n ∧ n ≤ b.lowerEnd length ∧ b.stepSize ∣ b.lowerEnd length - n
  ordered : positions.Pairwise fun m n => if 0 < b.stepSize then m < n else n < m

theorem Selection.nodup (h : b.Selection length positions) : positions.Nodup :=
  h.ordered.imp fun hlt => by split at hlt <;> omega

/-- A slice has one selection. -/
theorem Selection.unique (h : b.Selection length positions) (h' : b.Selection length positions') :
    positions = positions' := by
  have hmem (p : Nat) : p ∈ positions ↔ p ∈ positions' := by
    have hiff := (h.mem_iff p).trans (h'.mem_iff p).symm
    simpa using hiff
  refine List.Perm.eq_of_pairwise (fun p q _ _ hpq hqp => ?_) h.ordered h'.ordered
    ((List.perm_ext_iff_of_nodup h.nodup h'.nodup).2 hmem)
  split at hpq <;> split at hqp <;> omega

/-- Lengths beyond the greatest word count as the greatest word. -/
def cappedLength (length : Nat) : Nat := min length 0x7FFFFFFFFFFFFFFF

theorem stepSize_eq_zero_iff : b.stepSize = 0 ↔ b.step = some 0 := by
  unfold stepSize
  cases b.step with
  | none => simp
  | some step => simp [← Int64.toInt_inj]

theorem step_eq_one_iff : b.step.getD 1 = 1 ↔ b.stepSize = 1 := by
  unfold stepSize
  cases b.step with
  | none => simp
  | some step => exact (Int64.toInt_inj (y := 1)).symm

theorem lowerEnd_le (hstep : b.stepSize = 1) (n : Nat) : b.lowerEnd n ≤ n := by
  have hup : 0 < b.stepSize := by omega
  simp only [lowerEnd, normalise, hup, if_true]
  split <;> omega

/-- The ends of a slice and its step, as a walk. -/
def ends (b : SliceBounds) (length : Int) : SliceIndices :=
  ⟨b.lowerEnd length, b.upperEnd length, b.stepSize⟩

theorem fit_eq {n bound : Int} (hn : 0 ≤ n) (hstep : b.stepSize ≠ 0) :
    fit n b.stepSize bound = b.normalise n bound := by
  unfold fit normalise
  dsimp only
  omega

theorem indices_eq_error (h : b.step = some 0) : b.indices length = .error .zeroSliceStep :=
  if_pos (stepSize_eq_zero_iff.2 h)

/-- The ends are fitted by the cases that the clamp has. -/
theorem indices_eq (h : b.step ≠ some 0) : b.indices length = .ok (b.ends (cappedLength length)) := by
  have hstep : b.stepSize ≠ 0 := fun hzero => h (stepSize_eq_zero_iff.1 hzero)
  have hlength : min (length : Int) 0x7FFFFFFFFFFFFFFF = (cappedLength length : Nat) := by
    unfold cappedLength
    omega
  have hneg : b.stepSize < 0 ↔ ¬ 0 < b.stepSize := by omega
  have hfit (bound : Int) : fit (cappedLength length) b.stepSize bound = _ :=
    fit_eq (Int.natCast_nonneg _) hstep
  show (if b.stepSize = 0 then _ else _) = _
  rw [if_neg hstep, hlength, ends, lowerEnd, upperEnd]
  congr 2
  · cases b.lower with
    | some lower => exact hfit _
    | none =>
      show (if b.stepSize < 0 then _ else _) = _
      simp only [hneg, ite_not]
  · cases b.upper with
    | some upper => exact hfit _
    | none =>
      show (if b.stepSize < 0 then _ else _) = _
      simp only [hneg, ite_not]

theorem positions_eq (h : b.step ≠ some 0) :
    b.positions length = .ok (b.ends (cappedLength length)).positions := by
  rw [positions, indices_eq h]
  rfl

end SliceBounds

/-! ## Positions -/

namespace SliceIndices

variable {i : SliceIndices} {n k : Nat}

/-- The walk stays among the positions of a sequence until it stops. -/
structure Within (i : SliceIndices) (n : Nat) : Prop where
  up : 0 < i.step → 0 ≤ i.start ∧ i.stop ≤ n
  down : i.step < 0 → i.start < n ∧ -1 ≤ i.stop

theorem Within.mono {m : Nat} (h : i.Within m) (hmn : m ≤ n) : i.Within n where
  up hstep := ⟨(h.up hstep).1, by have := (h.up hstep).2; omega⟩
  down hstep := ⟨by have := (h.down hstep).1; omega, (h.down hstep).2⟩

theorem Within.bounds (h : i.Within n) {m : Int} (hm : m ∈ i.numbers) : 0 ≤ m ∧ m < n := by
  have hup := h.up
  have hdown := h.down
  rcases (mem_numbers i).1 hm with ⟨hstep, hlow, hhigh, -⟩ | ⟨hstep, hlow, hhigh, -⟩
  · have := hup hstep
    omega
  · have := hdown hstep
    omega

theorem map_positions (h : i.Within n) : i.positions.map Int.ofNat = i.numbers := by
  rw [positions_eq_numbers, List.map_map]
  refine (List.map_congr_left fun n hn => ?_).trans (List.map_id _)
  exact Int.toNat_of_nonneg (h.bounds hn).1

theorem Within.lt (h : i.Within n) {p : Nat} (hp : p ∈ i.positions) : p < n := by
  have hmem : Int.ofNat p ∈ i.numbers := map_positions h ▸ List.mem_map.2 ⟨p, hp, rfl⟩
  exact Int.ofNat_lt.1 (h.bounds hmem).2

theorem Within.count_le (h : i.Within n) : i.count ≤ n := by
  refine Nat.not_lt.1 fun hlt => ?_
  have hn : (0 : Int) ≤ n := Int.natCast_nonneg n
  rcases lt_count_iff.1 hlt with ⟨hup, hahead⟩ | ⟨hdown, hahead⟩
  · have hsteps : (n : Int) * 1 ≤ n * i.step := Int.mul_le_mul_of_nonneg_left hup hn
    have := h.up hup
    omega
  · have hsteps : (n : Int) * i.step ≤ n * -1 := Int.mul_le_mul_of_nonneg_left (by omega) hn
    have := h.down hdown
    omega

/-- A walk in steps of one. -/
theorem positions_of_step_one (hstep : i.step = 1) (hstart : 0 ≤ i.start) :
    i.positions = List.range' i.start.toNat (i.stop - i.start).toNat := by
  have hcount : i.count = (i.stop - i.start).toNat := by
    have h1 := @lt_count_iff i i.count
    have h2 := @lt_count_iff i (i.stop - i.start).toNat
    unfold Ahead at h1 h2
    rw [hstep] at h1 h2
    omega
  rw [positions_eq_numbers, numbers, hcount, List.range'_eq_map_range, List.map_map]
  refine List.map_congr_left fun k _ => ?_
  rw [Function.comp, hstep]
  omega

end SliceIndices

namespace SliceBounds

variable {b : SliceBounds} {length : Nat}

theorem within_ends (b : SliceBounds) (n : Nat) : (b.ends n).Within n where
  up hstep := by
    replace hstep : 0 < b.stepSize := hstep
    simp only [ends, lowerEnd, upperEnd, normalise, hstep, if_true]
    constructor <;> split <;> omega
  down hstep := by
    replace hstep : ¬ 0 < b.stepSize := Int.not_lt.2 (Int.le_of_lt hstep)
    simp only [ends, lowerEnd, upperEnd, normalise, hstep, if_false]
    constructor <;> split <;> omega

/-- The positions of a slice are its selection. -/
theorem selection_positions (h : b.step ≠ some 0) (n : Nat) : b.Selection n (b.ends n).positions where
  mem_iff m := by
    have hstep : b.stepSize ≠ 0 := fun hzero => h (stepSize_eq_zero_iff.1 hzero)
    rw [SliceIndices.map_positions (within_ends b n), SliceIndices.mem_numbers]
    simp only [SliceIndices.Reaches, ends]
    split <;> omega
  ordered := by
    have hnumbers := SliceIndices.pairwise_numbers (b.ends n)
    rw [← SliceIndices.map_positions (within_ends b n), List.pairwise_map] at hnumbers
    exact hnumbers.imp fun hlt => by simpa [ends] using hlt

/-- Ends that are not counted from the end of a sequence are only kept inside it. -/
theorem ends_between {i j : Int64} (hi : 0 ≤ i.toInt) (hj : 0 ≤ j.toInt) (n : Nat) :
    ends ⟨some i, some j, none⟩ n = ⟨min i.toInt n, min j.toInt n, 1⟩ := by
  have hnormal (bound : Int64) (h : 0 ≤ bound.toInt) :
      normalise ⟨some i, some j, none⟩ n bound.toInt = min bound.toInt (n : Int) := by
    have hstep : stepSize ⟨some i, some j, none⟩ = 1 := rfl
    rw [normalise, hstep, if_neg (Int.not_lt.2 h), if_pos Int.one_pos]
    omega
  rw [← hnormal i hi, ← hnormal j hj]
  rfl

/-- The positions up to a bound and from there on are all positions. -/
theorem positions_halves (bound : Int64) (n : Nat) :
    (ends ⟨none, some bound, none⟩ n).positions ++ (ends ⟨some bound, none, none⟩ n).positions =
      List.range n := by
  obtain ⟨hfront, hcut⟩ := (within_ends ⟨none, some bound, none⟩ n).up (Int.one_pos)
  obtain ⟨hcut', hback⟩ := (within_ends ⟨some bound, none, none⟩ n).up (Int.one_pos)
  rw [SliceIndices.positions_of_step_one rfl hfront, SliceIndices.positions_of_step_one rfl hcut']
  have hfrontEnds : ends ⟨none, some bound, none⟩ n =
      ⟨0, (ends ⟨some bound, none, none⟩ n).start, 1⟩ := rfl
  have hbackStop : (ends ⟨some bound, none, none⟩ n).stop = n := rfl
  rw [hfrontEnds] at hcut ⊢
  rw [hbackStop]
  dsimp only at hcut ⊢
  generalize (ends ⟨some bound, none, none⟩ n).start = cut at *
  have hfirst : (cut - 0).toNat = cut.toNat := by rw [Int.sub_zero]
  have hall : n = cut.toNat + (n - cut).toNat := by omega
  rw [hfirst, Int.toNat_zero, List.range_eq_range', hall, ← List.range'_append_1, ← hall, Nat.zero_add]

end SliceBounds

end ScriptSandbox

import ScriptSandbox.Error.Cause
/-!
Slices: which positions of a sequence the bounds `lower:upper:step` select. Bounds count from the
end when they are negative and are then moved to the nearest end of the sequence.
-/

namespace ScriptSandbox

/-- The bounds of a slice. -/
structure SliceBounds where
  lower : Option Int64
  upper : Option Int64
  step : Option Int64
deriving DecidableEq

/-- Bounds fitted to a sequence: the first position, the position to stop before, and the step. -/
structure SliceIndices where
  start : Int
  stop : Int
  step : Int
deriving DecidableEq

namespace SliceBounds

/-- A bound fitted to a sequence of `length` items: the positions that can be reached are `0` to
`length` upward and `-1` to `length - 1` downward. -/
def fit (length step bound : Int) : Int :=
  if bound < 0 then
    if bound + length < 0 then (if step < 0 then -1 else 0) else bound + length
  else if length ≤ bound then (if step < 0 then length - 1 else length)
  else bound

/-- The bounds fitted to a sequence. A step of zero selects nothing sensible. -/
def indices (b : SliceBounds) (length : Nat) : Except Error SliceIndices :=
  let length : Int := min length 0x7FFFFFFFFFFFFFFF
  let step : Int := (b.step.map Int64.toInt).getD 1
  if step = 0 then .error .zeroSliceStep
  else
    .ok
      { start :=
          match b.lower with
          | some lower => fit length step lower.toInt
          | none => if step < 0 then length - 1 else 0
        stop :=
          match b.upper with
          | some upper => fit length step upper.toInt
          | none => if step < 0 then -1 else length
        step }

end SliceBounds

namespace SliceIndices

/-- At a number, the stop is still ahead. -/
def Ahead (i : SliceIndices) (n : Int) : Prop :=
  (0 < i.step ∧ n < i.stop) ∨ (i.step < 0 ∧ i.stop < n)

instance (i : SliceIndices) (n : Int) : Decidable (i.Ahead n) := inferInstanceAs (Decidable (_ ∨ _))

/-- Walks on from a number: while the stop is ahead, the number is put behind those found before, and a
step is taken. -/
def walkFrom (i : SliceIndices) (n : Int) (found : Array Nat) : Array Nat :=
  if i.Ahead n then i.walkFrom (n + i.step) (found.push n.toNat) else found
termination_by (if 0 < i.step then i.stop - n else n - i.stop).toNat
decreasing_by
  rename_i hahead
  unfold Ahead at hahead
  split <;> omega

/-- The selected positions, in order. -/
def positions (i : SliceIndices) : List Nat := (i.walkFrom i.start #[]).toList

example : positions ⟨0, 7, 3⟩ = [0, 3, 6] ∧ positions ⟨3, -1, -2⟩ = [3, 1] ∧
    positions ⟨2, 2, 1⟩ = [] := by decide +kernel

end SliceIndices

namespace SliceBounds

/-- The positions selected from a sequence of `length` items. -/
def positions (b : SliceBounds) (length : Nat) : Except Error (List Nat) :=
  (b.indices length).map SliceIndices.positions

end SliceBounds

end ScriptSandbox

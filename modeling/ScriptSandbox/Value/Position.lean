import ScriptSandbox.Error.Cause
/-!
Walking a sequence by position until a test passes or fails. Nothing behind that position is
looked at.
-/

namespace ScriptSandbox

/-- The first of `left` positions from `position` on that passes a test. -/
def firstPosition (test : Nat → Except Error Bool) (position : Nat) :
    Nat → Except Error (Option Nat)
  | 0 => .ok none
  | left + 1 =>
    match test position with
    | .ok true => .ok (some position)
    | .ok false => firstPosition test (position + 1) left
    | .error e => .error e

/-- A position that is found passes the test, and those before it do not. -/
theorem firstPosition_eq_some {test : Nat → Except Error Bool} {position left found : Nat}
    (h : firstPosition test position left = .ok (some found)) :
    position ≤ found ∧ found < position + left ∧ test found = .ok true ∧
      ∀ i, position ≤ i → i < found → test i = .ok false := by
  induction left generalizing position with
  | zero => simp [firstPosition] at h
  | succ left ih =>
    rw [firstPosition] at h
    split at h
    · next hit =>
      obtain rfl : position = found := by simpa using h
      exact ⟨Nat.le_refl _, by omega, hit, fun i hle hlt => by omega⟩
    · next miss =>
      obtain ⟨hle, hlt, hit, before⟩ := ih h
      refine ⟨by omega, by omega, hit, fun i hi hf => ?_⟩
      rcases Nat.eq_or_lt_of_le hi with rfl | hi
      · exact miss
      · exact before i hi hf
    · simp at h

/-- Nothing is found exactly when no position passes and no test fails. -/
theorem firstPosition_eq_none_iff {test : Nat → Except Error Bool} {position left : Nat} :
    firstPosition test position left = .ok none ↔
      ∀ i, position ≤ i → i < position + left → test i = .ok false := by
  induction left generalizing position with
  | zero => simp [firstPosition]; omega
  | succ left ih =>
    rw [firstPosition]
    split
    · next hit =>
      simp only [Except.ok.injEq, reduceCtorEq, false_iff]
      intro all
      simpa [hit] using all position (Nat.le_refl _) (by omega)
    · next miss =>
      rw [ih]
      constructor
      · intro all i hi hlt
        rcases Nat.eq_or_lt_of_le hi with rfl | hi
        · exact miss
        · exact all i hi (by omega)
      · exact fun all i hi hlt => all i (by omega) (by omega)
    · next fails =>
      simp only [reduceCtorEq, false_iff]
      intro all
      simpa [fails] using all position (Nat.le_refl _) (by omega)

end ScriptSandbox

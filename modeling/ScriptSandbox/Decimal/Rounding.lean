/-!
Rounding a quotient of natural numbers to a natural number, and counting decimal digits.
Both are exact, so every float text and every float reading rests on them.
-/

namespace ScriptSandbox.Decimal

/-- `num / den` rounded to the nearest natural number; a half goes to the even neighbour. -/
def roundDiv (num den : Nat) : Nat :=
  let quotient := num / den
  let twice := 2 * (num % den)
  if den < twice ∨ (twice = den ∧ quotient % 2 = 1) then quotient + 1 else quotient

/-- Two to a natural exponent. -/
def twoTo (n : Nat) : Nat := Nat.pow 2 n

/-- Ten to a natural exponent. -/
def tenTo (n : Nat) : Nat := Nat.pow 10 n

/-- The number of decimal digits of `n`; zero has one. -/
def digitCount (n : Nat) : Nat := (Nat.toDigits 10 n).length

/-- The greatest `e` with `10 ^ e ≤ num / den`, for a positive quotient. -/
def floorLog10 (num den : Nat) : Int :=
  if den ≤ num then (digitCount (num / den) : Int) - 1
  else
    let ceiling := (den + num - 1) / num
    Int.negOfNat (digitCount (ceiling - 1))

/-- `num / den` divided by `10 ^ e`, as a pair of a numerator and a denominator. -/
def scaleDown (num den : Nat) (e : Int) : Nat × Nat :=
  if 0 ≤ e then (num, den * tenTo e.toNat) else (num * tenTo (-e).toNat, den)

/-- A half goes to the even neighbour. -/
example : roundDiv 5 2 = 2 ∧ roundDiv 7 2 = 4 ∧ roundDiv 8 3 = 3 := by decide

/-- The greatest power of ten below a quotient, on both sides of one. -/
example : floorLog10 999 1 = 2 ∧ floorLog10 1 10 = -1 ∧ floorLog10 1 11 = -2 := by decide +kernel

end ScriptSandbox.Decimal

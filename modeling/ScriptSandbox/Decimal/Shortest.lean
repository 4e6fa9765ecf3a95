import ScriptSandbox.Decimal.Binary64
/-!
The fewest decimal digits that read back as a given double. The reals that round to a double form
an interval around it, whose ends belong to it exactly when the significand is even. For one digit,
two digits and so on, the two neighbours of the double on that decimal grid are tested; the first
grid with a hit gives the digits, and of two hits the nearer one, the greater at a tie.
-/

namespace ScriptSandbox.Decimal

/-- The decimal `digits * 10 ^ exponent`. -/
structure Scaled where
  digits : Nat
  exponent : Int
deriving DecidableEq, Repr

namespace Shortest

/-- The interval of reals that round to a positive finite double, in units of a quarter of its
last place, times `den`; `mid` is the double itself. -/
structure Interval where
  lo : Nat
  mid : Nat
  hi : Nat
  den : Nat
  closed : Bool

/-- Below a power of two the neighbours are twice as dense, so the lower half gap is a quarter of
the last place. The smallest exponent has no denser neighbours. -/
def Interval.of (x : Binary64) : Interval :=
  let m := x.significand
  let lowerGap := if m = Binary64.hiddenBit ∧ 1 < x.exponentField then 1 else 2
  let place := x.exponent - 2
  let (num, den) : Nat × Nat :=
    if 0 ≤ place then (twoTo place.toNat, 1) else (1, twoTo (-place).toNat)
  { lo := (4 * m - lowerGap) * num
    mid := 4 * m * num
    hi := (4 * m + 2) * num
    den
    closed := m % 2 = 0 }

/-- Whether `candidate * 10 ^ exponent` lies in the interval. -/
def Interval.reads (i : Interval) (candidate : Nat) (exponent : Int) : Bool :=
  let (num, den) : Nat × Nat :=
    if 0 ≤ exponent then (candidate * tenTo exponent.toNat * i.den, 1)
    else (candidate * i.den, tenTo (-exponent).toNat)
  if i.closed then i.lo * den ≤ num && num ≤ i.hi * den
  else i.lo * den < num && num < i.hi * den

/-- The nearest hit on the grid of multiples of `10 ^ exponent`, if there is one. -/
def Interval.hit (i : Interval) (exponent : Int) : Option Scaled :=
  let (num, den) := scaleDown i.mid i.den exponent
  let below := num / den
  match i.reads below exponent, i.reads (below + 1) exponent with
  | true, true => some ⟨if 2 * (num % den) < den then below else below + 1, exponent⟩
  | true, false => some ⟨below, exponent⟩
  | false, true => some ⟨below + 1, exponent⟩
  | false, false => none

/-- Tries grids from `exponent` downward. -/
def Interval.search (i : Interval) (exponent : Int) : Nat → Scaled
  | 0 => ⟨(scaleDown i.mid i.den exponent).1 / (scaleDown i.mid i.den exponent).2, exponent⟩
  | fuel + 1 =>
    match i.hit exponent with
    | some found => found
    | none => i.search (exponent - 1) fuel

end Shortest

/-- The shortest decimal that reads back as the magnitude of a finite double. Seventeen digits
always suffice. The first grid is that of the power of ten above the double, which may itself be
the shortest. -/
def shortest (x : Binary64) : Scaled :=
  if x.isZero then ⟨0, 0⟩
  else
    let interval := Shortest.Interval.of x
    interval.search (floorLog10 interval.mid interval.den + 1) 18

/-- One third needs sixteen digits, the smallest number one, and a number a little below a power of
ten may be that power. -/
example : shortest ⟨0x3FD5555555555555⟩ = ⟨3333333333333333, -16⟩ ∧
    shortest ⟨1⟩ = ⟨5, -324⟩ ∧ shortest ⟨0x4059000000000000⟩ = ⟨1, 2⟩ ∧
    shortest ⟨0x44B52D02C7E14AF6⟩ = ⟨1, 23⟩ ∧ shortest ⟨2⟩ = ⟨1, -323⟩ := by decide +kernel

end ScriptSandbox.Decimal

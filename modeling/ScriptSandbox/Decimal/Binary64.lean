import ScriptSandbox.Decimal.Rounding
/-!
Numbers in the 64-bit binary floating-point format, kept as their bit patterns. The exact value
of a finite number is its significand times a power of two, and conversions, comparison, rounding
and remainders are computed on that exact value. Sums, products and quotients are the hardware's;
so that their not-a-number results are determined too, an operand that is not a number is the
result, and an invalid operation gives the quiet pattern with the sign bit set.
-/

namespace ScriptSandbox

/-- A double: one sign bit, eleven exponent bits and fifty-two fraction bits. -/
structure Binary64 where
  bits : UInt64
deriving DecidableEq, Hashable, Inhabited

namespace Binary64

/-- The weight of the bit that stands before the fraction bits of all but the smallest numbers. -/
def hiddenBit : Nat := 0x10000000000000

/-- The weight of the sign bit. -/
def signBit : Nat := 0x8000000000000000

/-- The fraction field. -/
def fraction (x : Binary64) : Nat := x.bits.toNat % hiddenBit

/-- The exponent field, biased. -/
def exponentField (x : Binary64) : Nat := x.bits.toNat / hiddenBit % 2048

/-- Whether the sign bit is set. -/
def isNegative (x : Binary64) : Bool := signBit ≤ x.bits.toNat

/-- The bit pattern without its sign. -/
def magnitudeBits (x : Binary64) : Nat := x.bits.toNat % signBit

def isNaN (x : Binary64) : Bool := x.exponentField = 2047 ∧ x.fraction ≠ 0

def isInfinite (x : Binary64) : Bool := x.exponentField = 2047 ∧ x.fraction = 0

def isFinite (x : Binary64) : Bool := x.exponentField ≠ 2047

def isZero (x : Binary64) : Bool := x.magnitudeBits = 0

/-- A finite number is its significand times two to its exponent, up to the sign. -/
def significand (x : Binary64) : Nat :=
  if x.exponentField = 0 then x.fraction else hiddenBit + x.fraction

def exponent (x : Binary64) : Int := (max x.exponentField 1 : Nat) - 1075

/-- The magnitude of a finite number as a quotient of natural numbers. -/
def ratio (x : Binary64) : Nat × Nat :=
  if 0 ≤ x.exponent then (x.significand * Decimal.twoTo x.exponent.toNat, 1)
  else (x.significand, Decimal.twoTo (-x.exponent).toNat)

/-- The number with the given sign bit and the given remaining bits. -/
def withSign (negative : Bool) (magnitude : Nat) : Binary64 :=
  ⟨UInt64.ofNat (if negative then signBit + magnitude else magnitude)⟩

def infinity (negative : Bool) : Binary64 := withSign negative (2047 * hiddenBit)

/-- The quiet pattern that stands for "not a number" where a text asks for it. -/
def nan : Binary64 := withSign false (2047 * hiddenBit + hiddenBit / 2)

/-- The result of an invalid operation. -/
def invalid : Binary64 := withSign true (2047 * hiddenBit + hiddenBit / 2)

def zero : Binary64 := ⟨0⟩

def one : Binary64 := ⟨0x3FF0000000000000⟩

def ten : Binary64 := ⟨0x4024000000000000⟩

def hundred : Binary64 := ⟨0x4059000000000000⟩

def neg (x : Binary64) : Binary64 := ⟨x.bits ^^^ 0x8000000000000000⟩

def abs (x : Binary64) : Binary64 := ⟨x.bits &&& 0x7FFFFFFFFFFFFFFF⟩

/-- A not-a-number pattern with its quiet bit set. -/
def quieted (x : Binary64) : Binary64 := ⟨x.bits ||| 0x0008000000000000⟩

/-! ### Nearest numbers -/

/-- The exponent of the last place of the number nearest to a positive quotient: fifty-three
significant bits, but never finer than the last place of the smallest numbers. -/
def lastPlace (num den : Nat) : Int :=
  let guess : Int := (num.log2 : Int) - den.log2 - 52
  -- the logarithms are cut, so the quotient may have one bit less
  let low : Bool :=
    if 0 ≤ guess + 52 then num < den * Decimal.twoTo (guess + 52).toNat
    else num * Decimal.twoTo (-(guess + 52)).toNat < den
  max (if low then guess - 1 else guess) (-1074)

/-- The number nearest to `num / den`; of two equally near the one with the even significand.
A carry out of the significand lands in the exponent field, as it should. -/
def ofRatio (negative : Bool) (num den : Nat) : Binary64 :=
  if num = 0 then withSign negative 0
  else
    let place := lastPlace num den
    let significand :=
      if 0 ≤ place then Decimal.roundDiv num (den * Decimal.twoTo place.toNat)
      else Decimal.roundDiv (num * Decimal.twoTo (-place).toNat) den
    let field :=
      if significand < hiddenBit then significand
      else (place + 1075).toNat * hiddenBit + (significand - hiddenBit)
    withSign negative (min field (2047 * hiddenBit))

def ofInt (n : Int) : Binary64 := ofRatio (n < 0) n.natAbs 1

/-- The number nearest to `digits * 10 ^ exponent`. Texts far outside the format's range are
settled by their size alone: a binary digit is worth between three tenths and a third of a decimal
one. -/
def ofDecimal (negative : Bool) (digits : Nat) (exponent : Int) : Binary64 :=
  if digits = 0 then withSign negative 0
  else
    let bits := digits.log2
    if 400 < (3 * bits / 10 : Nat) + exponent then infinity negative
    else if (bits / 3 + 2 : Nat) + exponent < -400 then withSign negative 0
    else if 0 ≤ exponent then ofRatio negative (digits * Decimal.tenTo exponent.toNat) 1
    else ofRatio negative digits (Decimal.tenTo (-exponent).toNat)

/-! ### Order -/

/-- Numbers other than not-a-number are ordered as these integers; both zeros give zero. -/
def orderKey (x : Binary64) : Int :=
  if x.isNegative then -(x.magnitudeBits : Int) else x.magnitudeBits

/-- The order of two numbers; none when one of them is not a number. -/
def order (x y : Binary64) : Option Ordering :=
  if x.isNaN || y.isNaN then none else some (compare x.orderKey y.orderKey)

/-- Numerical equality: the two zeros are equal and not-a-number equals nothing. -/
def equal (x y : Binary64) : Bool := x.order y == some .eq

def less (x y : Binary64) : Bool := x.order y == some .lt

/-! ### Integral values -/

/-- Whether a number is a finite integer. -/
def isIntegral (x : Binary64) : Bool :=
  x.isFinite && x.ratio.1 % x.ratio.2 == 0

/-- The integer part of a finite number, cut toward zero. -/
def truncate (x : Binary64) : Int :=
  let whole : Int := x.ratio.1 / x.ratio.2
  if x.isNegative then -whole else whole

/-- The greatest integer not above, as a number; what is integral or not finite stays. -/
def floor (x : Binary64) : Binary64 :=
  if x.isNaN then x.quieted
  else if !x.isFinite || x.isIntegral then x
  else ofInt (if x.isNegative then x.truncate - 1 else x.truncate)

/-- The nearest integer as a number of the same sign; a half goes to the even neighbour. -/
def roundHalfEven (x : Binary64) : Binary64 :=
  if x.isNaN then x.quieted
  else if !x.isFinite || x.isIntegral then x
  else ofRatio x.isNegative (Decimal.roundDiv x.ratio.1 x.ratio.2) 1

/-! ### Arithmetic -/

def toFloat (x : Binary64) : Float := Float.ofBits x.bits

def ofFloat (f : Float) : Binary64 := if f.isNaN then invalid else ⟨f.toBits⟩

/-- Applies a hardware operation; the first operand that is not a number is the result. -/
def arithmetic (op : Float → Float → Float) (x y : Binary64) : Binary64 :=
  if x.isNaN then x.quieted
  else if y.isNaN then y.quieted
  else ofFloat (op x.toFloat y.toFloat)

def add : Binary64 → Binary64 → Binary64 := arithmetic (· + ·)

def sub : Binary64 → Binary64 → Binary64 := arithmetic (· - ·)

def mul : Binary64 → Binary64 → Binary64 := arithmetic (· * ·)

def div : Binary64 → Binary64 → Binary64 := arithmetic (· / ·)

/-- The power function of the hardware's mathematical library. A power can be a number although
an operand is not. -/
def pow (x y : Binary64) : Binary64 :=
  let result := ofFloat (Float.pow x.toFloat y.toFloat)
  if result.isNaN then
    if x.isNaN then x.quieted else if y.isNaN then y.quieted else result
  else result

/-- The remainder of a truncated division, which is exact and has the sign of `x`. -/
def remainder (x y : Binary64) : Binary64 :=
  if x.isNaN then x.quieted
  else if y.isNaN then y.quieted
  else if x.isInfinite || y.isZero then invalid
  else if y.isInfinite then x
  else
    let (a, b) := x.ratio
    let (c, d) := y.ratio
    ofRatio x.isNegative (a * d % (c * b)) (b * d)

/-- Repeated squaring: the factors of `base ^ n` are multiplied in order of their weight. -/
def powNatLoop (n : Nat) (base acc : Binary64) : Nat → Binary64
  | 0 => acc
  | fuel + 1 =>
    let acc := if n % 2 = 1 then acc.mul base else acc
    if n / 2 = 0 then acc else powNatLoop (n / 2) (base.mul base) acc fuel

/-- `base` to an integer power; a negative power is the reciprocal of the positive one. -/
def powInt (base : Binary64) (n : Int) : Binary64 :=
  let power := powNatLoop n.natAbs base one n.natAbs.succ
  if n < 0 then one.div power else power

/-- Nearest numbers, at a tie, at the end of the range and below the smallest number. -/
example : ofInt 9007199254740993 = ofInt 9007199254740992 ∧
    ofDecimal false 17976931348623159 292 = infinity false ∧
    (ofDecimal false 24703282292062328 (-340)).bits = 1 ∧
    (ofDecimal true 1 (-1)).bits = 0xBFB999999999999A := by decide +kernel

end Binary64

end ScriptSandbox

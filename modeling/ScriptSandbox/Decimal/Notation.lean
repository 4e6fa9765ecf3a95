import ScriptSandbox.Decimal.Shortest
/-!
Texts of doubles: with a set number of places, with a set number of significant digits, and the
default text, which has the fewest digits that read back. Signs are written here only by the
default text; the others write magnitudes.
-/

namespace ScriptSandbox.Decimal

/-- The decimal digits of `n` as text. -/
def digitText (n : Nat) : String := String.ofList (Nat.toDigits 10 n)

def zeros (n : Nat) : String := String.ofList (List.replicate n '0')

/-- At least `width` digits, filled with leading zeros. -/
def digitTextAtLeast (width n : Nat) : String :=
  zeros (width - (digitText n).length) ++ digitText n

/-- Digits with a point before the last `places` of them; no point when there are none. -/
def withPlaces (digits places : Nat) : String :=
  if places = 0 then digitText digits
  else digitText (digits / tenTo places) ++ "." ++ digitTextAtLeast places (digits % tenTo places)

/-- A double has no digits beyond this place after the point. -/
def deepestPlace : Nat := 1080

/-- The magnitude of a finite double with exactly `places` places after the point, rounded to the
nearest such decimal, a tie to the even digit. -/
def fixed (x : Binary64) (places : Nat) : String :=
  let shown := min places deepestPlace
  let (num, den) := x.ratio
  let text := withPlaces (roundDiv (num * tenTo shown) den) shown
  if places ≤ shown then text else text ++ zeros (places - shown)

/-- The exponent part: a sign and at least two digits. -/
def exponentText (e : Int) : String :=
  (if e < 0 then "-" else "+") ++ digitTextAtLeast 2 e.natAbs

/-- The magnitude of a finite double rounded to `places + 1` significant digits, as a mantissa with
`places` places and an exponent of ten. A rounding carry moves to the next power of ten. -/
def significant (x : Binary64) (places : Nat) : String × Int :=
  let shown := min places deepestPlace
  let pad (text : String) : String :=
    if places ≤ shown then text else text ++ zeros (places - shown)
  if x.isZero then (pad (withPlaces 0 shown), 0)
  else
    let (num, den) := x.ratio
    let e := floorLog10 num den
    let (num, den) := scaleDown num den (e - shown)
    let digits := roundDiv num den
    if digits < tenTo (shown + 1) then (pad (withPlaces digits shown), e)
    else (pad (withPlaces (digits / 10) shown), e + 1)

/-- Shortest digits as `d.ddd` and an exponent of ten. -/
def Scaled.mantissa (d : Scaled) : String × Int :=
  let places := digitCount d.digits - 1
  (withPlaces d.digits places, d.exponent + places)

/-- Shortest digits written out positionally. -/
def Scaled.positional (d : Scaled) : String :=
  if 0 ≤ d.exponent then digitText (d.digits * tenTo d.exponent.toNat)
  else withPlaces d.digits (-d.exponent).toNat

/-- Where positional notation starts and ends: from a ten-thousandth up to below ten to the
sixteenth. -/
def isPositional (x : Binary64) : Bool :=
  let (num, den) := x.ratio
  x.isZero || (den ≤ num * tenTo 4 && num < den * tenTo 16)

/-- The text of a magnitude: the fewest digits that read back, positional or with an exponent,
integral values with one place. -/
def magnitudeText (x : Binary64) : String :=
  if !isPositional x then
    let (mantissa, e) := (shortest x).mantissa
    mantissa ++ "e" ++ exponentText e
  else if x.isIntegral then fixed x 1
  else (shortest x).positional

/-- The default text of a double. -/
def floatText (x : Binary64) : String :=
  if x.isNaN then "nan"
  else
    let sign := if x.isNegative then "-" else ""
    if x.isInfinite then sign ++ "inf" else sign ++ magnitudeText x

/-- Both ends of positional notation and a rounding carry. -/
example : floatText ⟨0x3F1A36E2EB1C432D⟩ = "0.0001" ∧ floatText ⟨0x4341C37937E08000⟩ = "1e+16" ∧
    floatText ⟨0x8000000000000000⟩ = "-0.0" ∧
    significant ⟨0x4023EB851EB851EC⟩ 1 = ("1.0", 1) := by decide +kernel

end ScriptSandbox.Decimal

import ScriptSandbox.Limits
/-!
Arithmetic on numbers. Integers stay integers except in true division and in negative powers; what
does not fit sixty-four bits is a fault (§10.7). Division and remainder round toward negative
infinity for doubles as well.
-/

namespace ScriptSandbox.Arithmetic

/-- An integer result, or the fault that names the operation it overflows. -/
def fitting (operation : String) : Option Int64 → Except Error Value
  | some n => .ok (.int n)
  | none => .error (.overflow operation)

/-- Whether the magnitude of `x` exceeds a natural number, both taken as doubles. -/
def exceeds (x : Binary64) (bound : Nat) : Bool := (Binary64.ofInt bound).less x.abs

/-- Base and exponent of a power have quotas of their own (§10.5). -/
def checkPower (limits : SizeLimits) (base exponent : Binary64) : Except Error Unit :=
  if exceeds base limits.maxPowerBase then
    .error (.limitExceeded .powerBase limits.maxPowerBase)
  else if exceeds exponent limits.maxPower then .error (.limitExceeded .power limits.maxPower)
  else .ok ()

def intPow (limits : SizeLimits) (base exponent : Int64) : Except Error Value := do
  let x := Binary64.ofInt base.toInt
  let y := Binary64.ofInt exponent.toInt
  checkPower limits x y
  if exponent < 0 then
    if base = 0 then .error .zeroToNegativePower else .ok (.float (x.pow y))
  else fitting "exponentiation" (Integer.pow? base exponent.toInt.toNat)

/-- Applies an operator to two integers. -/
def onInts (limits : SizeLimits) (op : BinaryOp) (a b : Int64) : Except Error Value :=
  match op with
  | .add => fitting "addition" (Integer.add? a b)
  | .sub => fitting "subtraction" (Integer.sub? a b)
  | .mul => fitting "multiplication" (Integer.mul? a b)
  | .div =>
    if b = 0 then .error (.zeroDivision "division by zero")
    else .ok (.float ((Binary64.ofInt a.toInt).div (Binary64.ofInt b.toInt)))
  | .floorDiv =>
    if b = 0 then .error (.zeroDivision "integer division or modulo by zero")
    else fitting "floor division" (Integer.floorDiv? a b)
  | .mod =>
    if b = 0 then .error (.zeroDivision "integer division or modulo by zero")
    else fitting "modulo" (Integer.floorMod? a b)
  | .pow => intPow limits a b
  | .lShift =>
    if b < 0 then .error .negativeShift
    else fitting "left shift" (Integer.shiftLeft? a b.toInt.toNat)
  | .rShift =>
    if b < 0 then .error .negativeShift else .ok (.int (Integer.shiftRight a b.toInt.toNat))
  | .bitOr => .ok (.int (a ||| b))
  | .bitXor => .ok (.int (a ^^^ b))
  | .bitAnd => .ok (.int (a &&& b))

/-- The remainder with the sign of the divisor. -/
def floorRemainder (x y : Binary64) : Binary64 :=
  let r := x.remainder y
  if !r.isZero && (r.less .zero != y.less .zero) then r.add y else r

def floatPow (limits : SizeLimits) (x y : Binary64) : Except Error Value := do
  checkPower limits x y
  if x.isZero && y.less .zero then .error .zeroToNegativePower
  else
    let power := x.pow y
    if power.isNaN && !x.isNaN && !y.isNaN then .error .domainError else .ok (.float power)

/-- Applies an operator to two doubles. Bits and shifts are for integers alone. -/
def onFloats (limits : SizeLimits) (op : BinaryOp) (x y : Binary64) : Except Error Value :=
  match op with
  | .add => .ok (.float (x.add y))
  | .sub => .ok (.float (x.sub y))
  | .mul => .ok (.float (x.mul y))
  | .div =>
    if y.isZero then .error (.zeroDivision "float division by zero") else .ok (.float (x.div y))
  | .floorDiv =>
    if y.isZero then .error (.zeroDivision "float floor division by zero")
    else .ok (.float (x.div y).floor)
  | .mod =>
    if y.isZero then .error (.zeroDivision "float modulo") else .ok (.float (floorRemainder x y))
  | .pow => floatPow limits x y
  | op => .error (.unsupportedOperands op.symbol (.float x) (.float y))

end ScriptSandbox.Arithmetic

import ScriptSandbox.FormatSpec
import ScriptSandbox.Limits
import ScriptSandbox.Value.Render
/-!
Values written as a format specification asks. Strings stand to the left of their field and numbers
to the right, unless the specification says otherwise. Width and precision are held against the
quota of strings before anything is written.
-/

namespace ScriptSandbox.FormatSpec

/-! ### Fields -/

def repeated (fill : Char) (count : Nat) : String := String.ofList (List.replicate count fill)

/-- How much of the padding goes to the left of a text. -/
def leftPadding : Align → Nat → Nat
  | .left, _ => 0
  | .right, padding | .afterSign, padding => padding
  | .center, padding => padding / 2

/-- A text in its field; one that is wider than the field stays whole. -/
def alignText (fill : Char) (align : Align) (width : Nat) (text : String) : String :=
  let padding := width - text.length
  let left := leftPadding align padding
  repeated fill left ++ text ++ repeated fill (padding - left)

/-- A number in its field. Padding with zeros goes behind the sign, and only a specification with
neither fill nor alignment can ask for it. -/
def padNumber (spec : FormatSpec) (sign body : String) : String :=
  let width := spec.width.getD 0
  let zeroFill := spec.zeroPad && spec.fill.isNone && spec.align.isNone
  let fill := if zeroFill then '0' else spec.fill.getD ' '
  let align := if zeroFill then .afterSign else spec.align.getD .right
  if align = .afterSign then
    sign ++ repeated fill (width - (sign.length + body.length)) ++ body
  else alignText fill align width (sign ++ body)

/-- The sign before a number. -/
def signText (spec : FormatSpec) (negative : Bool) : String :=
  if negative then "-"
  else
    match spec.sign with
    | some .plus => "+"
    | some .space => " "
    | _ => ""

/-! ### Digits -/

/-- Digits with a separator before each group of three, counted from the end. -/
def grouped (separator : Char) : List Char → List Char
  | [] => []
  | c :: rest =>
    if !rest.isEmpty && rest.length % 3 == 0 then c :: separator :: grouped separator rest
    else c :: grouped separator rest

/-- A text whose leading digits are grouped, if there is a separator. -/
def groupLeading (separator : Option Char) (text : String) : String :=
  match separator with
  | none => text
  | some separator =>
    String.ofList
      (grouped separator (text.toList.takeWhile Decimal.isDigit) ++
        text.toList.dropWhile Decimal.isDigit)

/-- A decimal without the zeros at the end of its places, and without a point that nothing then
follows. -/
def withoutTrailingZeros (text : String) : String :=
  if text.toList.contains '.' then
    let kept := text.toList.reverse.dropWhile (· = '0')
    String.ofList (kept.dropWhile (· = '.')).reverse
  else text

/-! ### Numbers -/

/-- The places after the point where a specification gives none. -/
def defaultPrecision : Nat := 6

def exponentMark (upper : Bool) : String := if upper then "E" else "e"

/-- A finite magnitude with a fixed number of places. -/
def fixedText (x : Binary64) (places : Nat) (grouping : Option Char) : String :=
  groupLeading grouping (Decimal.fixed x places)

/-- A finite magnitude with one digit before the point and an exponent. -/
def scientificText (x : Binary64) (places : Nat) (upper : Bool) : String :=
  let (mantissa, exponent) := Decimal.significant x places
  mantissa ++ exponentMark upper ++ Decimal.exponentText exponent

/-- A finite magnitude with a number of significant digits, in whichever notation suits its
exponent; trailing zeros go unless the alternate form is asked for. -/
def generalText (spec : FormatSpec) (x : Binary64) (precision : Nat) (upper : Bool) : String :=
  let precision := max precision 1
  let (mantissa, exponent) := Decimal.significant x (precision - 1)
  let trim := if spec.alternate then id else withoutTrailingZeros
  if -4 ≤ exponent ∧ exponent < precision then
    trim (fixedText x ((precision : Int) - 1 - exponent).toNat spec.grouping)
  else trim mantissa ++ exponentMark upper ++ Decimal.exponentText exponent

/-- A finite magnitude in percent; the product by a hundred may leave the range of doubles. -/
def percentText (spec : FormatSpec) (x : Binary64) : String :=
  let scaled := x.mul .hundred
  (if scaled.isFinite then fixedText scaled (spec.precision.getD defaultPrecision) spec.grouping
   else "inf") ++ "%"

/-- Whether a code asks for capital letters in the texts of doubles. -/
def isUpper (code : Option Char) : Bool := code = some 'E' || code = some 'F' || code = some 'G'

/-- A finite magnitude as the code asks. -/
def finiteText (spec : FormatSpec) (x : Binary64) : String :=
  let upper := isUpper spec.code
  let precision := spec.precision.getD defaultPrecision
  match spec.code with
  | some 'f' | some 'F' => fixedText x precision spec.grouping
  | some 'e' | some 'E' => scientificText x precision upper
  | some 'g' | some 'G' => generalText spec x precision upper
  | some '%' => percentText spec x
  | _ =>
    match spec.precision with
    | some precision => generalText spec x precision false
    | none => groupLeading spec.grouping (Decimal.floatText x)

/-- A magnitude that is no finite number. -/
def nonFiniteText (spec : FormatSpec) (x : Binary64) : String :=
  let upper := isUpper spec.code
  let word :=
    if x.isNaN then (if upper then "NAN" else "nan") else if upper then "INF" else "inf"
  if spec.code = some '%' then word ++ "%" else word

/-- A double as a specification asks. Not-a-number has no sign. -/
def renderFloat (spec : FormatSpec) (x : Binary64) : String :=
  let body := if x.isFinite then finiteText spec x.abs else nonFiniteText spec x
  spec.padNumber (spec.signText (x.isNegative && !x.isNaN)) body

def digitsIn (base n : Nat) : String := String.ofList (Nat.toDigits base n)

/-- The prefix of a base and the digits of a magnitude in it. Only decimal digits are grouped. -/
def basedDigits (spec : FormatSpec) (magnitude : Nat) : String × String :=
  match spec.code with
  | some 'b' => ("0b", digitsIn 2 magnitude)
  | some 'o' => ("0o", digitsIn 8 magnitude)
  | some 'x' => ("0x", digitsIn 16 magnitude)
  | some 'X' => ("0X", String.ofList ((Nat.toDigits 16 magnitude).map Char.toUpper))
  | _ => ("", groupLeading spec.grouping (Decimal.digitText magnitude))

/-- An integer as a specification asks. -/
def renderInt (spec : FormatSpec) (n : Int64) : Except Error String :=
  if spec.precision.isSome then .error .precisionOnInteger
  else
    let (base, digits) := spec.basedDigits n.toInt.natAbs
    .ok (spec.padNumber (spec.signText (n < 0)) (if spec.alternate then base ++ digits else digits))

/-! ### Texts and other values -/

/-- A text in its field, cut to the precision. -/
def renderText (spec : FormatSpec) (text : String) : String :=
  let text :=
    match spec.precision with
    | some precision => String.ofList (text.toList.take precision)
    | none => text
  alignText (spec.fill.getD ' ') (spec.align.getD .left) (spec.width.getD 0) text

/-- Strings take no part of a specification that is for numbers. -/
def checkForString (spec : FormatSpec) : Except Error Unit :=
  if spec.sign.isSome then .error .signOnString
  else if spec.alternate then .error .alternateOnString
  else
    match spec.grouping with
    | some separator => .error (.groupingOnString separator)
    | none => .ok ()

/-- A value as a specification asks. Integers have the presentations of doubles too. -/
def render (spec : FormatSpec) (limits : SizeLimits) (s : Store) (value : Value) :
    Except Error String :=
  match value, spec.code with
  | .float x, some code =>
    if "sdboxX".toList.contains code then .error (.unknownCodeFor code value)
    else .ok (spec.renderFloat x)
  | .float x, none => .ok (spec.renderFloat x)
  | .str text, none | .str text, some 's' => do
    spec.checkForString
    .ok (spec.renderText text)
  | .str _, some code => .error (.unknownCodeFor code value)
  | value, code =>
    match value.toInt?, code with
    | some _, some 's' => .error (.unknownCodeFor 's' value)
    | some n, none => spec.renderInt n
    | some n, some code =>
      if "dboxX".toList.contains code then spec.renderInt n
      else .ok (spec.renderFloat (.ofInt n.toInt))
    | none, none | none, some 's' =>
      (s.text limits.maxStringLength value).map spec.renderText
    | none, some code => .error (.unknownCodeFor code value)

/-- A value as the text of a specification asks; an empty one asks for the value's own text. -/
def format (limits : SizeLimits) (s : Store) (value : Value) (spec : String) :
    Except Error String :=
  if spec.isEmpty then s.text limits.maxStringLength value
  else do
    let spec ← parse spec
    limits.checkString (spec.width.getD 0)
    limits.checkString (spec.precision.getD 0)
    spec.render limits s value

end ScriptSandbox.FormatSpec

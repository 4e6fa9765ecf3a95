import ScriptSandbox.Decimal.Reading
import ScriptSandbox.Error.Cause
/-!
Format specifications of replacement fields. A specification is written
`[[fill]align][sign][#][0][width][grouping][.precision][code]`, and every part may be missing.
-/

namespace ScriptSandbox

/-- Where a text stands in its field. -/
inductive Align where
  | left | right | center
  /-- The field is filled between the sign of a number and its digits. -/
  | afterSign
deriving DecidableEq

/-- What stands before a number that is not negative. -/
inductive SignRule where
  | plus | minus | space
deriving DecidableEq

/-- A format specification. -/
structure FormatSpec where
  fill : Option Char
  align : Option Align
  sign : Option SignRule
  /-- Whether prefixes of bases and trailing zeros are kept. -/
  alternate : Bool
  zeroPad : Bool
  width : Option Nat
  /-- The character between groups of three digits. -/
  grouping : Option Char
  precision : Option Nat
  code : Option Char
deriving DecidableEq

namespace FormatSpec

def alignOf? : Char → Option Align
  | '<' => some .left
  | '>' => some .right
  | '^' => some .center
  | '=' => some .afterSign
  | _ => none

/-- A fill character with an alignment behind it, or an alignment alone. -/
def takeAlign (text : List Char) : Option Char × Option Align × List Char :=
  match text with
  | c :: d :: rest =>
    match alignOf? d, alignOf? c with
    | some align, _ => (some c, some align, rest)
    | none, some align => (none, some align, d :: rest)
    | none, none => (none, none, text)
  | [c] =>
    match alignOf? c with
    | some align => (none, some align, [])
    | none => (none, none, text)
  | [] => (none, none, [])

def takeSign : List Char → Option SignRule × List Char
  | '+' :: rest => (some .plus, rest)
  | '-' :: rest => (some .minus, rest)
  | ' ' :: rest => (some .space, rest)
  | text => (none, text)

/-- Whether a character comes first, and the text behind it. -/
def takeMark (mark : Char) : List Char → Bool × List Char
  | [] => (false, [])
  | c :: rest => if c = mark then (true, rest) else (false, c :: rest)

/-- Numbers that exceed sixty-four bits count as the greatest that does not. -/
def greatestNumber : Nat := 0xFFFFFFFFFFFFFFFF

/-- The digits at the start of a text as a number, if there are any. -/
def takeNumber (text : List Char) : Option Nat × List Char :=
  let digits := text.takeWhile Decimal.isDigit
  if digits.isEmpty then (none, text)
  else (some (min (Decimal.ofDigits digits) greatestNumber), text.dropWhile Decimal.isDigit)

def takeGrouping : List Char → Option Char × List Char
  | ',' :: rest => (some ',', rest)
  | '_' :: rest => (some '_', rest)
  | text => (none, text)

/-- A point and a number; nothing where a point stands without one. -/
def takePrecision? : List Char → Option (Option Nat × List Char)
  | '.' :: rest =>
    match takeNumber rest with
    | (none, _) => none
    | (precision, rest) => some (precision, rest)
  | text => some (none, text)

/-- The codes of presentations: of strings, of integers and of doubles. -/
def codes : List Char := "sdboxXeEfFgG%".toList

/-- Reads a specification. A code that is not known is reported as such even when more text follows
it. -/
def parse (spec : String) : Except Error FormatSpec := do
  let (fill, align, rest) := takeAlign spec.toList
  let (sign, rest) := takeSign rest
  let (alternate, rest) := takeMark '#' rest
  let (zeroPad, rest) := takeMark '0' rest
  let (width, rest) := takeNumber rest
  let (grouping, rest) := takeGrouping rest
  match takePrecision? rest with
  | none => throw (.invalidSpec spec)
  | some (precision, rest) =>
    let parsed (code : Option Char) : FormatSpec :=
      { fill, align, sign, alternate, zeroPad, width, grouping, precision, code }
    match rest with
    | [] => pure (parsed none)
    | code :: rest =>
      if !codes.contains code then throw (.unknownCode code)
      else if rest.isEmpty then pure (parsed (some code))
      else throw (.invalidSpec spec)

end FormatSpec

end ScriptSandbox

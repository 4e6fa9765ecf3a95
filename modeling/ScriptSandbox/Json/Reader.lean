import ScriptSandbox.Json.Basic
import ScriptSandbox.Decimal.Reading
/-!
Reading a document from its text. No two steps consume fewer than one character, so a document is
read with twice as much fuel as its text has characters, and a little more.
-/

namespace ScriptSandbox.Json.Reader

def isSpace (c : Char) : Bool := c = ' ' || c = '\t' || c = '\n' || c = '\r'

def skip (text : List Char) : List Char := text.dropWhile isSpace

def hexValue? (c : Char) : Option Nat :=
  if '0' ≤ c ∧ c ≤ '9' then some (c.toNat - 48)
  else if 'a' ≤ c ∧ c ≤ 'f' then some (c.toNat - 87)
  else if 'A' ≤ c ∧ c ≤ 'F' then some (c.toNat - 55)
  else none

/-- Four hexadecimal digits. -/
def hex4? : List Char → Option (Nat × List Char)
  | a :: b :: c :: d :: rest => do
    let a ← hexValue? a
    let b ← hexValue? b
    let c ← hexValue? c
    let d ← hexValue? d
    pure (((a * 16 + b) * 16 + c) * 16 + d, rest)
  | _ => none

/-- A code point written as one unit or as a pair of surrogates. -/
def codePoint? (text : List Char) : Option (Char × List Char) := do
  let (unit, rest) ← hex4? text
  if 0xD800 ≤ unit ∧ unit < 0xDC00 then
    match rest with
    | '\\' :: 'u' :: rest =>
      let (low, rest) ← hex4? rest
      if 0xDC00 ≤ low ∧ low < 0xE000 then
        pure (Char.ofNat (0x10000 + (unit - 0xD800) * 0x400 + (low - 0xDC00)), rest)
      else none
    | _ => none
  else if 0xDC00 ≤ unit ∧ unit < 0xE000 then none
  else pure (Char.ofNat unit, rest)

def simpleEscape? : Char → Option Char
  | '"' => some '"'
  | '\\' => some '\\'
  | '/' => some '/'
  | 'b' => some '\x08'
  | 'f' => some '\x0c'
  | 'n' => some '\n'
  | 'r' => some '\r'
  | 't' => some '\t'
  | _ => none

/-- The rest of a text behind its opening quote; `read` holds its characters so far in reverse. -/
def string? (read : List Char) : Nat → List Char → Option (String × List Char)
  | 0, _ => none
  | fuel + 1, text =>
    match text with
    | '"' :: rest => some (String.ofList read.reverse, rest)
    | '\\' :: 'u' :: rest =>
      match codePoint? rest with
      | some (c, rest) => string? (c :: read) fuel rest
      | none => none
    | '\\' :: c :: rest =>
      match simpleEscape? c with
      | some c => string? (c :: read) fuel rest
      | none => none
    | c :: rest => if c.toNat < 0x20 then none else string? (c :: read) fuel rest
    | [] => none

/-- The exponent of a number, if it has one. -/
def exponent? : List Char → Option (Option Int × List Char)
  | mark :: rest =>
    if mark = 'e' ∨ mark = 'E' then
      let (negative, digits) := Decimal.takeSign rest
      let run := digits.takeWhile Decimal.isDigit
      if run.isEmpty then none
      else
        let e : Int := Decimal.ofDigits run
        some (some (if negative then -e else e), digits.dropWhile Decimal.isDigit)
    else some (none, mark :: rest)
  | [] => some (none, [])

/-- A number; digits are needed before a point and behind it, and a leading zero stands alone. -/
def number? (text : List Char) : Option (JsonNumber × List Char) := do
  let (negative, text) : Bool × List Char :=
    match text with
    | '-' :: rest => (true, rest)
    | text => (false, text)
  let whole := text.takeWhile Decimal.isDigit
  let rest := text.dropWhile Decimal.isDigit
  if whole.isEmpty || (whole.head? == some '0' && whole.length != 1) then none
  else
    let (places, rest) : Option (List Char) × List Char :=
      match rest with
      | '.' :: rest => (some (rest.takeWhile Decimal.isDigit), rest.dropWhile Decimal.isDigit)
      | rest => (none, rest)
    if places == some [] then none
    else
      let (e, rest) ← exponent? rest
      let digits := places.getD []
      pure
        ({ negative
           digits := Decimal.ofDigits (whole ++ digits)
           exponent := e.getD 0 - digits.length
           integral := places.isNone && e.isNone }, rest)

/-- The rest of a text behind a keyword. -/
def keyword? (word : String) (text : List Char) : Option (List Char) :=
  if word.toList.isPrefixOf text then some (text.drop word.length) else none

mutual

/-- A document at the start of a text, and the rest of the text. -/
def value? : Nat → List Char → Option (Json × List Char)
  | 0, _ => none
  | fuel + 1, text =>
    match skip text with
    | '"' :: rest => (string? [] fuel rest).map fun (s, rest) => (.string s, rest)
    | '[' :: rest =>
      match skip rest with
      | ']' :: rest => some (.array [], rest)
      | rest => items? [] fuel rest
    | '\x7b' :: rest =>
      match skip rest with
      | '\x7d' :: rest => some (.object [], rest)
      | rest => members? [] fuel rest
    | 't' :: rest => (keyword? "rue" rest).map fun rest => (.bool true, rest)
    | 'f' :: rest => (keyword? "alse" rest).map fun rest => (.bool false, rest)
    | 'n' :: rest => (keyword? "ull" rest).map fun rest => (.null, rest)
    | rest => (number? rest).map fun (n, rest) => (.number n, rest)

/-- The items of a list up to its closing bracket; `read` holds those before in reverse. -/
def items? (read : List Json) : Nat → List Char → Option (Json × List Char)
  | 0, _ => none
  | fuel + 1, text =>
    match value? fuel text with
    | none => none
    | some (item, rest) =>
      match skip rest with
      | ',' :: rest => items? (item :: read) fuel rest
      | ']' :: rest => some (.array (item :: read).reverse, rest)
      | _ => none

/-- The members of a record up to its closing brace; `read` holds those before in reverse. -/
def members? (read : List (String × Json)) : Nat → List Char → Option (Json × List Char)
  | 0, _ => none
  | fuel + 1, text =>
    match skip text with
    | '"' :: rest =>
      match string? [] fuel rest with
      | none => none
      | some (name, rest) =>
        match skip rest with
        | ':' :: rest =>
          match value? fuel rest with
          | none => none
          | some (item, rest) =>
            match skip rest with
            | ',' :: rest => members? ((name, item) :: read) fuel rest
            | '\x7d' :: rest => some (.object ((name, item) :: read).reverse, rest)
            | _ => none
        | _ => none
    | _ => none

end

end Reader

/-- The document that a whole text denotes. -/
def ofText? (text : String) : Option Json :=
  let chars := text.toList
  match Reader.value? (2 * chars.length + 2) chars with
  | some (json, rest) => if (Reader.skip rest).isEmpty then some json else none
  | none => none

end ScriptSandbox.Json

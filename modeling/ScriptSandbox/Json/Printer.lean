import ScriptSandbox.Json.Basic
import ScriptSandbox.Decimal.Notation
/-!
Writing a document as text on one line, without blanks. Characters beyond ASCII are written as
they are; only quotes, backslashes and control characters are escaped.
-/

namespace ScriptSandbox.Json

namespace Printer

def hexDigits (n : Nat) : String :=
  let digits := Nat.toDigits 16 n
  Decimal.zeros (4 - digits.length) ++ String.ofList digits

def writeChar (out : String) (c : Char) : String :=
  if c = '"' then out ++ "\\\""
  else if c = '\\' then out ++ "\\\\"
  else if c = '\n' then out ++ "\\n"
  else if c = '\r' then out ++ "\\r"
  else if c = '\t' then out ++ "\\t"
  else if c.toNat < 0x20 then out ++ "\\u" ++ hexDigits c.toNat
  else out.push c

def writeString (out s : String) : String :=
  (s.toList.foldl writeChar (out.push '"')).push '"'

def numberText (n : JsonNumber) : String :=
  (if n.negative then "-" else "") ++ Decimal.digitText n.digits ++
    (if n.integral then ""
     else "e" ++ (if n.exponent < 0 then "-" else "") ++ Decimal.digitText n.exponent.natAbs)

mutual

/-- Appends the text of a document. -/
def write (out : String) : Json → String
  | .null => out ++ "null"
  | .bool b => out ++ if b then "true" else "false"
  | .number n => out ++ numberText n
  | .string s => writeString out s
  | .array [] => out ++ "[]"
  | .array (item :: rest) => (writeItems (write (out.push '[') item) rest).push ']'
  | .object [] => out ++ "\x7b\x7d"
  | .object ((name, value) :: rest) =>
    (writeMembers (write ((writeString (out.push '\x7b') name).push ':') value) rest).push '\x7d'

def writeItems (out : String) : List Json → String
  | [] => out
  | item :: rest => writeItems (write (out.push ',') item) rest

def writeMembers (out : String) : List (String × Json) → String
  | [] => out
  | (name, value) :: rest =>
    writeMembers (write ((writeString (out.push ',') name).push ':') value) rest

end

end Printer

/-- The text of a document. -/
def toText (json : Json) : String := Printer.write "" json

end ScriptSandbox.Json

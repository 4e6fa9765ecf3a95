import ScriptSandbox.Text.Alphabetic
import ScriptSandbox.Text.CharClass
/-!
The shapes of names: identifiers, and the names between double underscores that scripts may not
touch.
-/

namespace ScriptSandbox.Text

def startsIdentifier (c : Char) : Bool := c = '_' || isAlphabetic c

def continuesIdentifier (c : Char) : Bool := c = '_' || isAlphabetic c || isNumeric c

/-- A letter or an underscore, followed by letters, numerals and underscores. -/
def isIdentifier (name : String) : Bool :=
  match name.toList with
  | [] => false
  | c :: rest => startsIdentifier c && rest.all continuesIdentifier

/-- Two underscores at either end with something between them. -/
def isDunder (name : String) : Bool :=
  4 < name.utf8ByteSize && ['_', '_'].isPrefixOf name.toList && ['_', '_'].isSuffixOf name.toList

end ScriptSandbox.Text

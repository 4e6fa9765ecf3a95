import ScriptSandbox.Store
import ScriptSandbox.Decimal.Notation
import ScriptSandbox.Text.Quoted
/-!
Texts of values. Containers are written out to a fixed depth, below which stands an ellipsis, and
writing stops as soon as the text outgrows its budget in bytes, so a container that holds another
one many times costs no more than the budget.
-/

namespace ScriptSandbox

/-- Containers nested more levels than this are written as an ellipsis. -/
def maxRenderDepth : Nat := 32

/-- The budget of texts that are cut short instead of refused. -/
def displayBudget : Nat := 64 * 1024

/-- A text so far: finished, or abandoned because it outgrew its budget. -/
abbrev Rendering := Except String String

namespace Render

def withinBudget (budget : Nat) (out : String) : Rendering :=
  if budget < out.utf8ByteSize then .error out else .ok out

/-- Writes items with commas between them. -/
def items (write : Value → String → Rendering) : List Value → String → Rendering
  | [], out => .ok out
  | [item], out => write item out
  | item :: rest, out =>
    match write item out with
    | .ok out => items write rest (out ++ ", ")
    | .error out => .error out

/-- Writes keys and values with a colon between each pair and commas between pairs. -/
def pairs (write : Value → String → Rendering) : List (Value × Value) → String → Rendering
  | [], out => .ok out
  | (key, value) :: rest, out =>
    match write key out with
    | .error out => .error out
    | .ok out =>
      match write value (out ++ ": ") with
      | .error out => .error out
      | .ok out => pairs write rest (if rest.isEmpty then out else out ++ ", ")

def intText (n : Int64) : String :=
  if n < 0 then "-" ++ Decimal.digitText n.toInt.natAbs else Decimal.digitText n.toInt.natAbs

def rangeText (r : Range) : String :=
  "range(" ++ intText r.start ++ ", " ++ intText r.stop ++
    (if r.step = 1 then "" else ", " ++ intText r.step) ++ ")"

/-- The text of a value that is not a container. -/
def atom : Value → String
  | .null => "None"
  | .bool true => "True"
  | .bool false => "False"
  | .int n => intText n
  | .float x => Decimal.floatText x
  | .str s => Text.Quoted.quote s
  | .range r => rangeText r
  | .function f => "<function " ++ f.name ++ ">"
  | .native f => "<built-in function " ++ f.name ++ ">"
  | .method _ receiver name =>
    "<built-in method " ++ name ++ " of " ++ receiver.typeName ++ " object>"
  | .object o => o.text
  | _ => ""

end Render

namespace Store

/-- Appends the text of a value whose containers may still nest `levels` deep. -/
def render (s : Store) (budget : Nat) : Nat → Value → String → Rendering
  | levels, value, out =>
    if budget < out.utf8ByteSize then .error out
    else
      match levels with
      | 0 => .ok (out ++ "...")
      | levels + 1 =>
        let write := s.render budget levels
        let body :=
          match value with
          | .list r => (Render.items write (s.list r).toList (out ++ "[")).map (· ++ "]")
          | .tuple _ items =>
            (Render.items write items.toList (out ++ "(")).map
              (· ++ if items.size = 1 then ",)" else ")")
          | .dict r =>
            (Render.pairs write (s.dict r).toList (out ++ "\x7b")).map (· ++ "\x7d")
          | .set r =>
            if (s.set r).isEmpty then .ok (out ++ "set()")
            else (Render.items write (s.set r).toList (out ++ "\x7b")).map (· ++ "\x7d")
          | atom => .ok (out ++ Render.atom atom)
        match body with
        | .ok out => Render.withinBudget budget out
        | .error out => .error out

/-- The text of a value with strings in quotes, or an error when it has more than `budget`
bytes (§10.5). -/
def repr (s : Store) (budget : Nat) (value : Value) : Except Error String :=
  match s.render budget (maxRenderDepth + 1) value "" with
  | .ok text => .ok text
  | .error _ => .error (.limitExceeded .stringLength budget)

/-- The text of a value, a string standing for itself. -/
def text (s : Store) (budget : Nat) : Value → Except Error String
  | .str text =>
    if budget < text.utf8ByteSize then .error (.limitExceeded .stringLength budget) else .ok text
  | value => s.repr budget value

/-- The longest start of a text that has at most `budget` bytes. -/
def cutToBytes (budget : Nat) (text : String) : String :=
  (text.sliceTo (text.posLE ⟨budget⟩)).copy

/-- The text of a value with strings in quotes; one that is too long is cut and ends in an
ellipsis. -/
def shownRepr (s : Store) (value : Value) : String :=
  match s.render displayBudget (maxRenderDepth + 1) value "" with
  | .ok text => text
  | .error text => cutToBytes displayBudget text ++ "..."

/-- The text of a value for messages, a string standing for itself. -/
def shownText (s : Store) : Value → String
  | .str text => text
  | value => s.shownRepr value

end Store

/-- An error's message. A raised value is shown as it is when the message is asked for. -/
def ErrorKind.message (s : Store) : ErrorKind → String
  | .nameNotFound name => "name '" ++ name ++ "' is not defined"
  | .attributeRejected attr => "access to attribute '" ++ attr ++ "' is not allowed"
  | .typeMismatch message => message
  | .limitExceeded quota max =>
    quota.text ++ " exceeded (limit: " ++ Decimal.digitText max ++ ")"
  | .raised value => s.shownText value
  | .fault name message => name ++ ": " ++ message
  | .hostFailure capability source =>
    "host capability '" ++ capability ++ "' failed: " ++ source.message
  | .structural message => message

end ScriptSandbox

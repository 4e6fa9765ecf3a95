import ScriptSandbox.Method.Dict
import ScriptSandbox.Method.List
import ScriptSandbox.Method.Set
import ScriptSandbox.Method.Text
/-!
The methods of values (§10.6): lists, dicts, sets and strings have some, other values none. Reading
a method gives a value of its own, and calling that comes here.
-/

namespace ScriptSandbox.Method

/-- The names of a value's methods. -/
def names : Value → List String
  | .list _ => ListMethod.all.map ListMethod.name
  | .dict _ => DictMethod.all.map DictMethod.name
  | .set _ => SetMethod.all.map SetMethod.name
  | .str _ => TextMethod.all.map TextMethod.name
  | _ => []

/-- Whether a value has a method of a name. -/
def exists? (receiver : Value) (name : String) : Bool := (names receiver).contains name

/-- The refusal of a name that is no method of a value. Keyword arguments are refused first. -/
def unknown (receiver : Value) (name : String) (args : Arguments) : StoreM Value := do
  args.expectNoKeywords (receiver.typeName ++ "." ++ name)
  throw (.noAttribute receiver name)

/-- Calls the method of a name on a value. -/
def call (limits : SizeLimits) (receiver : Value) (name : String) (args : Arguments) :
    StoreM Value :=
  match receiver with
  | .list r =>
    match ListMethod.all.find? (·.name == name) with
    | some m => m.call limits r args
    | none => unknown receiver name args
  | .dict r =>
    match DictMethod.all.find? (·.name == name) with
    | some m => m.call limits r args
    | none => unknown receiver name args
  | .set r =>
    match SetMethod.all.find? (·.name == name) with
    | some m => m.call limits r args
    | none => unknown receiver name args
  | .str text =>
    match TextMethod.all.find? (·.name == name) with
    | some m => m.call limits text args
    | none => unknown receiver name args
  | _ => throw (.noAttribute receiver name)

end ScriptSandbox.Method

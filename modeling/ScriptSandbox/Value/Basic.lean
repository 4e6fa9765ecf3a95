import ScriptSandbox.Syntax.Tree
import ScriptSandbox.Range
/-!
The values of scripts. Lists, dicts, sets and scopes live in a store and are held by reference;
everything else is held directly. Tuples, functions and methods are immutable but can be told
apart, so each carries the number it was made with.
-/

namespace ScriptSandbox

/-- A list in the store. -/
structure ListRef where
  index : Nat
deriving DecidableEq

/-- A dict in the store. -/
structure DictRef where
  index : Nat
deriving DecidableEq

/-- A set in the store. -/
structure SetRef where
  index : Nat
deriving DecidableEq

/-- A scope of variables. -/
structure ScopeRef where
  index : Nat
deriving DecidableEq, Inhabited

/-- What a script function runs. -/
inductive FunctionCode where
  | definition (d : FunctionDef)
  | lambda (l : LambdaDef)

/-- A script function with the scope it was made in. -/
structure Closure where
  id : Nat
  name : String
  doc : Option String
  code : FunctionCode
  scope : ScopeRef

/-- The functions that every host can offer. -/
inductive Builtin where
  | int | float | str | bool | list | tuple | dict | set | len | range | abs | min | max | sum
  | sorted | enumerate | zip | round | any | all | print | typeof
deriving DecidableEq

/-- A native function is built in or was registered by the host under a number. -/
inductive NativeId where
  | builtin (b : Builtin)
  | host (id : Nat)
deriving DecidableEq

/-- A function that is not written in the language. -/
structure NativeFunction where
  name : String
  id : NativeId
deriving DecidableEq

/-- An object of the host: which one it is, its type's name and its text. -/
structure ObjectHandle where
  id : Nat
  typeName : String
  text : String
deriving DecidableEq

/-- A value (§3, §10.2). -/
inductive Value where
  | null
  | bool (b : Bool)
  | int (n : Int64)
  | float (x : Binary64)
  | str (s : String)
  | list (ref : ListRef)
  | tuple (id : Nat) (items : Array Value)
  | dict (ref : DictRef)
  | set (ref : SetRef)
  | range (r : Range)
  | function (f : Closure)
  | native (f : NativeFunction)
  /-- A method together with the value it was read from. -/
  | method (id : Nat) (receiver : Value) (name : String)
  | object (o : ObjectHandle)
deriving Inhabited

namespace Builtin

def name : Builtin → String
  | int => "int" | float => "float" | str => "str" | bool => "bool" | list => "list"
  | tuple => "tuple" | dict => "dict" | set => "set" | len => "len" | range => "range"
  | abs => "abs" | min => "min" | max => "max" | sum => "sum" | sorted => "sorted"
  | enumerate => "enumerate" | zip => "zip" | round => "round" | any => "any" | all => "all"
  | print => "print" | typeof => "typeof"

/-- Every function of the preset. -/
def preset : List Builtin :=
  [int, float, str, bool, list, tuple, dict, set, len, range, abs, min, max, sum, sorted,
   enumerate, zip, round, any, all, print, typeof]

def native (b : Builtin) : NativeFunction := ⟨b.name, .builtin b⟩

end Builtin

namespace FunctionCode

def params : FunctionCode → Parameters
  | definition d => d.params
  | lambda l => l.params

end FunctionCode

/-- A number among the values; truth values count as integers. -/
inductive Number where
  | int (n : Int64)
  | float (x : Binary64)

def Number.toBinary64 : Number → Binary64
  | .int n => .ofInt n.toInt
  | .float x => x

namespace Value

/-- The name of a value's type, as scripts and error texts see it. -/
def typeName : Value → String
  | null => "NoneType"
  | bool _ => "bool"
  | int _ => "int"
  | float _ => "float"
  | str _ => "str"
  | list _ => "list"
  | tuple .. => "tuple"
  | dict _ => "dict"
  | set _ => "set"
  | range _ => "range"
  | function _ => "function"
  | native _ => "builtin_function_or_method"
  | method .. => "method"
  | object o => o.typeName

def isNull : Value → Bool
  | null => true
  | _ => false

/-- The integer a value stands for; truth values stand for one and zero. -/
def toInt? : Value → Option Int64
  | int n => some n
  | bool b => some (if b then 1 else 0)
  | _ => none

def toNumber? : Value → Option Number
  | float x => some (.float x)
  | v => v.toInt?.map .int

def toStr? : Value → Option String
  | str s => some s
  | _ => none

def ofConstant : Constant → Value
  | .none => null
  | .bool b => bool b
  | .int n => int n
  | .float x => float x
  | .str s => str s

/-- Identity: references, functions, methods and objects are the same only as themselves, ranges
with equal elements are the same, and other values are the same by type and content, doubles by
their bits. -/
def same : Value → Value → Bool
  | null, null => true
  | bool a, bool b => a == b
  | int a, int b => a == b
  | float a, float b => a.bits == b.bits
  | str a, str b => a == b
  | list a, list b => a == b
  | dict a, dict b => a == b
  | set a, set b => a == b
  | tuple a _, tuple b _ => a == b
  | range a, range b => a.sameElements b
  | function a, function b => a.id == b.id
  | native a, native b => a.id == b.id
  | method a .., method b .. => a == b
  | object a, object b => a.id == b.id
  | _, _ => false

end Value

end ScriptSandbox

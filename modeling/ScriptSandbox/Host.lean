import ScriptSandbox.Arguments
import ScriptSandbox.CallContext
import ScriptSandbox.Store
/-!
What a host lends to scripts: functions and objects of its own, and the values it registers. Their
behaviour is given by the host; the library only decides when it is asked for.
-/

namespace ScriptSandbox

/-- The behaviour of a host's functions and objects. An attribute or an item may be missing. -/
structure Host where
  callFunction : NativeFunction → CallContext → Arguments → StoreM Value
  attribute? : ObjectHandle → String → StoreM (Option Value)
  item? : ObjectHandle → Value → StoreM (Option Value)
  callObject : ObjectHandle → CallContext → Arguments → StoreM Value

namespace Host

/-- An object without attributes. -/
def noAttributes : ObjectHandle → String → StoreM (Option Value) := fun _ _ => pure none

/-- An object without items. -/
def noItems : ObjectHandle → Value → StoreM (Option Value) := fun o _ =>
  throw (.notSubscriptable (.object o))

/-- An object that cannot be called. -/
def notCallable : ObjectHandle → CallContext → Arguments → StoreM Value := fun o _ _ =>
  throw (.notCallable (.object o))

/-- The text of an object that gives none itself. -/
def defaultText (typeName : String) : String := "<" ++ typeName ++ " object>"

/-- A host with no functions and only bare objects. -/
def bare : Host where
  callFunction := fun f _ _ => throw (.notCallable (.native f))
  attribute? := noAttributes
  item? := noItems
  callObject := notCallable

end Host

/-- A value as a host registers it. Every run makes its own copy (§10.2). -/
inductive HostValue where
  | null
  | bool (b : Bool)
  | int (n : Int64)
  | float (x : Binary64)
  | str (s : String)
  | list (items : List HostValue)
  | tuple (items : List HostValue)
  | dict (entries : List (HostValue × HostValue))
  | set (items : List HostValue)
  | object (o : ObjectHandle)
deriving Inhabited

namespace HostValue

mutual

/-- Makes a copy of a registered value; it fails at a key that cannot be stored. -/
def toValue : HostValue → StoreM Value
  | null => pure .null
  | bool b => pure (.bool b)
  | int n => pure (.int n)
  | float x => pure (.float x)
  | str s => pure (.str s)
  | list items => do StoreM.newList (← toValues items).toArray
  | tuple items => do StoreM.newTuple (← toValues items).toArray
  | dict entries => do StoreM.newDict (← toDict .empty entries)
  | set items => do
    let items ← toValues items
    StoreM.newSet (← StoreM.ofExcept (KeySet.ofList items))
  | object o => pure (.object o)

def toValues : List HostValue → StoreM (List Value)
  | [] => pure []
  | item :: rest => do
    let value ← toValue item
    let values ← toValues rest
    pure (value :: values)

def toDict (d : Dict) : List (HostValue × HostValue) → StoreM Dict
  | [] => pure d
  | (key, value) :: rest => do
    let key ← toValue key
    let value ← toValue value
    let d ← StoreM.ofExcept (d.insert key value)
    toDict d rest

end

end HostValue

end ScriptSandbox

import ScriptSandbox.Arguments
import ScriptSandbox.Limits
import ScriptSandbox.Value.Items
import ScriptSandbox.Value.Render
/-!
The methods of dicts. Keys, values and items are given as lists that do not follow later changes.
-/

namespace ScriptSandbox

/-- The methods of dicts. -/
inductive DictMethod where
  | get | keys | values | items | update | pop | setdefault | clear | copy
deriving DecidableEq

namespace DictMethod

def name : DictMethod → String
  | get => "get" | keys => "keys" | values => "values" | items => "items"
  | update => "update" | pop => "pop" | setdefault => "setdefault" | clear => "clear"
  | copy => "copy"

def all : List DictMethod := [get, keys, values, items, update, pop, setdefault, clear, copy]

/-- The method as argument errors name it. -/
def qualifiedName (m : DictMethod) : String := "dict." ++ m.name

/-- Looks a key up. -/
def find? (r : DictRef) (key : Value) : StoreM (Option Value) :=
  StoreM.look fun s => (s.dict r).get? key

/-- Stores pairs one after another; those before a key that cannot be stored remain. -/
def insertPairs (r : DictRef) : List (Value × Value) → StoreM Unit
  | [] => pure ()
  | (key, value) :: rest => do
    let k ← Key.ofValue key
    modify (·.modifyDict r (·.insertByKey k key value))
    insertPairs r rest

/-- Stores the pairs of a source and then the keyword arguments. All pairs are read before the dict
changes, and its size is checked once it has grown. -/
def runUpdate (limits : SizeLimits) (r : DictRef) (source : Option Value)
    (keywords : List (String × Value)) : StoreM Value := do
  let pairs ←
    match source with
    | some source => StoreM.look (·.pairs source)
    | none => pure []
  insertPairs r (pairs ++ keywords.map fun (name, value) => (.str name, value))
  StoreM.look fun s => limits.checkContainer (s.dict r).size
  pure .null

/-- Takes a key's value out of the dict; a key that is absent gives the default or is reported. -/
def runPop (r : DictRef) (key : Value) (default : Option Value) : StoreM Value := do
  let k ← Key.ofValue key
  let removed := ((← MonadState.get).dict r).getByKey? k
  modify (·.modifyDict r (·.eraseByKey k))
  match removed <|> default with
  | some value => pure value
  | none => throw (.keyError ((← MonadState.get).shownRepr key))

/-- The value of a key, which is stored first when the key is absent. -/
def runSetdefault (limits : SizeLimits) (r : DictRef) (key default : Value) : StoreM Value := do
  match ← find? r key with
  | some value => pure value
  | none =>
    -- unlike an update, refused before anything is stored
    StoreM.look fun s => limits.checkContainer ((s.dict r).size + 1)
    insertPairs r [(key, default)]
    pure default

/-- The least and the greatest number of positional arguments. -/
def arity : DictMethod → Nat × Nat
  | get | pop | setdefault => (1, 2)
  | update => (0, 1)
  | keys | values | items | clear | copy => (0, 0)

/-- Runs a method on positional arguments, which have to be as many as it takes, and on the keyword
arguments of an update. -/
def run (m : DictMethod) (limits : SizeLimits) (r : DictRef) (args : Arguments) :
    StoreM Value := do
  match m, args.positional with
  | get, [key] => pure ((← find? r key).getD .null)
  | get, [key, default] => pure ((← find? r key).getD default)
  | keys, [] => StoreM.newList ((← MonadState.get).dict r).keys.toArray
  | values, [] => StoreM.newList ((← MonadState.get).dict r).values.toArray
  | items, [] =>
    let entries ← ((← MonadState.get).dict r).toList.mapM fun (key, value) =>
      StoreM.newTuple #[key, value]
    StoreM.newList entries.toArray
  | update, [] => runUpdate limits r none args.keywords
  | update, [source] => runUpdate limits r (some source) args.keywords
  | pop, [key] => runPop r key none
  | pop, [key, default] => runPop r key (some default)
  | setdefault, [key] => runSetdefault limits r key .null
  | setdefault, [key, default] => runSetdefault limits r key default
  | clear, [] =>
    modify (·.modifyDict r fun _ => .empty)
    pure .null
  | copy, [] => StoreM.newDict ((← MonadState.get).dict r)
  | m, args => throw (.wrongArity m.qualifiedName args.length m.arity.1 (some m.arity.2))

/-- Calls a method. Only an update takes keyword arguments. -/
def call (m : DictMethod) (limits : SizeLimits) (r : DictRef) (args : Arguments) :
    StoreM Value := do
  if m ≠ update then args.expectNoKeywords m.qualifiedName
  m.run limits r args

end DictMethod

end ScriptSandbox

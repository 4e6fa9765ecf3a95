import ScriptSandbox.Arguments
import ScriptSandbox.Limits
import ScriptSandbox.Value.Items
import ScriptSandbox.Value.Render
/-!
The methods of sets. The algebra takes any number of arguments, sets or other iterables, and gives
a new set; an update changes the set in place.
-/

namespace ScriptSandbox

/-- The methods of sets. -/
inductive SetMethod where
  | add | update | discard | remove | pop | clear | copy | union | intersection | difference
deriving DecidableEq

namespace SetMethod

def name : SetMethod → String
  | add => "add" | update => "update" | discard => "discard" | remove => "remove"
  | pop => "pop" | clear => "clear" | copy => "copy" | union => "union"
  | intersection => "intersection" | difference => "difference"

def all : List SetMethod :=
  [add, update, discard, remove, pop, clear, copy, union, intersection, difference]

/-- The method as argument errors name it. -/
def qualifiedName (m : SetMethod) : String := "set." ++ m.name

/-- The items of an iterable as a set. -/
def asSet (limits : SizeLimits) (s : Store) (source : Value) : Except Error KeySet :=
  match source with
  | .set r => .ok (s.set r)
  | source => do
    limits.checkIterable source
    let items ← s.iterate source
    KeySet.ofList items.toList

/-- Adds the elements of sets one set after another, with a look at the quota after each. -/
def addAll (limits : SizeLimits) (r : SetRef) : List KeySet → StoreM Unit
  | [] => pure ()
  | other :: rest => do
    modify (·.modifySet r (·.union other))
    StoreM.look fun s => limits.checkContainer (s.set r).size
    addAll limits r rest

/-- The new set of a method of the algebra. -/
def algebra (operation : KeySet → KeySet → KeySet) (limits : SizeLimits) (r : SetRef)
    (sources : List Value) : StoreM Value := do
  let result ← StoreM.look fun s => do
    let others ← sources.mapM (asSet limits s)
    let result := others.foldl operation (s.set r)
    limits.checkContainer result.size
    pure result
  StoreM.newSet result

/-- Removes a value; whether it was present. -/
def erase (r : SetRef) (value : Value) : StoreM Bool := do
  let k ← Key.ofValue value
  let present := ((← get).set r).table.contains k
  modify (·.modifySet r (·.eraseByKey k))
  pure present

/-- Takes the oldest element out of the set. -/
def runPop (r : SetRef) : StoreM Value := do
  match ((← get).set r).table.first? with
  | none => throw (.keyError (Text.Quoted.quote "pop from an empty set"))
  | some (k, oldest) =>
    modify (·.modifySet r (·.eraseByKey k))
    pure oldest

/-- The least and the greatest number of positional arguments. -/
def arity : SetMethod → Nat × Option Nat
  | add | discard | remove => (1, some 1)
  | pop | clear | copy => (0, some 0)
  | update | union | intersection | difference => (0, none)

/-- Runs a method on positional arguments, which have to be as many as it takes. -/
def run (m : SetMethod) (limits : SizeLimits) (r : SetRef) (args : List Value) :
    StoreM Value := do
  match m, args with
  | add, [value] =>
    let k ← Key.ofValue value
    modify (·.modifySet r (·.insertByKey k value))
    StoreM.look fun s => limits.checkContainer (s.set r).size
    pure .null
  | update, sources =>
    -- all sources are read before the set changes
    let others ← StoreM.look fun s => sources.mapM (asSet limits s)
    addAll limits r others
    pure .null
  | discard, [value] =>
    let _ ← erase r value
    pure .null
  | remove, [value] =>
    if ← erase r value then pure .null else throw (.keyError ((← get).shownRepr value))
  | pop, [] => runPop r
  | clear, [] =>
    modify (·.modifySet r fun _ => .empty)
    pure .null
  | copy, [] => StoreM.newSet ((← get).set r)
  | union, sources => algebra .union limits r sources
  | intersection, sources => algebra .intersection limits r sources
  | difference, sources => algebra .difference limits r sources
  | m, args => throw (.wrongArity m.qualifiedName args.length m.arity.1 m.arity.2)

def call (m : SetMethod) (limits : SizeLimits) (r : SetRef) (args : Arguments) :
    StoreM Value := do
  args.expectNoKeywords m.qualifiedName
  m.run limits r args.positional

end SetMethod

end ScriptSandbox

import ScriptSandbox.Arguments
import ScriptSandbox.Subscript
import ScriptSandbox.Value.Order
/-!
The methods of lists. Those that change the list do so in place; a list may be an argument of its
own methods, since arguments are read before the list changes.
-/

namespace ScriptSandbox

/-- The methods of lists. -/
inductive ListMethod where
  | append | extend | insert | pop | remove | clear | index | count | copy | reverse | sort
deriving DecidableEq

namespace ListMethod

def name : ListMethod → String
  | append => "append" | extend => "extend" | insert => "insert" | pop => "pop"
  | remove => "remove" | clear => "clear" | index => "index" | count => "count"
  | copy => "copy" | reverse => "reverse" | sort => "sort"

def all : List ListMethod :=
  [append, extend, insert, pop, remove, clear, index, count, copy, reverse, sort]

/-- The method as argument errors name it. -/
def qualifiedName (m : ListMethod) : String := "list." ++ m.name

/-- The position for an insertion: an index that counts from the end when it is negative, moved to
the nearest end of the list. -/
def insertionPoint (index : Int64) (size : Nat) : Nat :=
  if index < 0 then (index.toInt + size).toNat else min index.toInt.toNat size

/-- The number of items equal to a value. -/
def countEqual (s : Store) (value : Value) : Nat → List Value → Except Error Nat
  | found, [] => .ok found
  | found, item :: rest =>
    match s.equal item value with
    | .ok hit => countEqual s value (if hit then found + 1 else found) rest
    | .error e => .error e

/-- Makes room for `extra` more items within the quota, or fails. -/
def checkGrowth (limits : SizeLimits) (r : ListRef) (extra : Nat) : StoreM Unit :=
  StoreM.look fun s => limits.checkContainer ((s.list r).size + extra)

def runAppend (limits : SizeLimits) (r : ListRef) (value : Value) : StoreM Value := do
  checkGrowth limits r 1
  modify (·.modifyList r (·.push value))
  pure .null

def runExtend (limits : SizeLimits) (r : ListRef) (source : Value) : StoreM Value := do
  limits.checkIterable source
  let extra := (← StoreM.look (·.iterate source)).toArray
  checkGrowth limits r extra.size
  modify (·.modifyList r (· ++ extra))
  pure .null

def runInsert (limits : SizeLimits) (r : ListRef) (index : Int64) (value : Value) :
    StoreM Value := do
  -- there has to be room before the position matters
  checkGrowth limits r 1
  modify (·.modifyList r fun items =>
    items.insertIdxIfInBounds (insertionPoint index items.size) value)
  pure .null

/-- Takes the item at an index out of the list, the last one without an index. -/
def runPop (func : String) (r : ListRef) (index : Option Value) : StoreM Value := do
  let size := ((← get).list r).size
  if size = 0 then throw .popFromEmptyList
  let index ←
    match index with
    | none => pure (-1)
    | some index => Arguments.intOf func index
  match Subscript.position? index size with
  | none => throw (.outOfRange "pop")
  | some i =>
    let item := ((← get).list r)[i]?.getD .null
    modify (·.modifyList r (·.eraseIdxIfInBounds i))
    pure item

def runRemove (r : ListRef) (value : Value) : StoreM Value := do
  match ← StoreM.look fun s => s.position? (s.list r) value with
  | none => throw .removeAbsent
  | some i =>
    modify (·.modifyList r (·.eraseIdxIfInBounds i))
    pure .null

def runIndex (r : ListRef) (value : Value) : StoreM Value := do
  match ← StoreM.look fun s => s.position? (s.list r) value with
  | none => throw (.notInList ((← get).shownRepr value))
  | some i => pure (.int (Int64.ofNat i))

/-- Replaces the items by the sorted ones; when they cannot be sorted the list stays as it is. -/
def runSort (r : ListRef) (descending : Bool) : StoreM Value := do
  let sorted ← StoreM.look fun s => s.sort (s.list r).toList descending
  modify (·.setList r sorted.toArray)
  pure .null

/-- The least and the greatest number of positional arguments. -/
def arity : ListMethod → Nat × Nat
  | append | extend | remove | index | count => (1, 1)
  | insert => (2, 2)
  | pop => (0, 1)
  | clear | copy | reverse | sort => (0, 0)

/-- Runs a method on positional arguments, which have to be as many as it takes. -/
def run (m : ListMethod) (limits : SizeLimits) (r : ListRef) (args : List Value) :
    StoreM Value := do
  match m, args with
  | append, [value] => runAppend limits r value
  | extend, [source] => runExtend limits r source
  | insert, [position, value] =>
    runInsert limits r (← Arguments.intOf m.qualifiedName position) value
  | pop, [] => runPop m.qualifiedName r none
  | pop, [position] => runPop m.qualifiedName r (some position)
  | remove, [value] => runRemove r value
  | clear, [] =>
    modify (·.setList r #[])
    pure .null
  | index, [value] => runIndex r value
  | count, [value] =>
    let found ← StoreM.look fun s => countEqual s value 0 (s.list r).toList
    pure (.int (Int64.ofNat found))
  | copy, [] => StoreM.newList ((← get).list r)
  | reverse, [] =>
    modify (·.modifyList r Array.reverse)
    pure .null
  | m, args => throw (.wrongArity m.qualifiedName args.length m.arity.1 (some m.arity.2))

/-- Calls a method. Sorting alone knows a keyword argument, and words its refusal of positional
arguments differently. -/
def call (m : ListMethod) (limits : SizeLimits) (r : ListRef) (args : Arguments) :
    StoreM Value := do
  if m = sort then
    let (descending, args) := args.takeKeyword "reverse"
    args.expectNoKeywords m.qualifiedName
    if args.positional.isEmpty then
      runSort r (descending.any (← get).isTruthy)
    else throw .sortTakesNoPositionals
  else
    args.expectNoKeywords m.qualifiedName
    m.run limits r args.positional

end ListMethod

end ScriptSandbox

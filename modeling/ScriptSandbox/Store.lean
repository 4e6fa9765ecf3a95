import ScriptSandbox.Value.Dict
import ScriptSandbox.Output
/-!
The store: the contents of lists, dicts and sets by reference, a counter that gives every new
tuple, function and method its own number, and the printed text. Operations on values run against
a store and may fail; a failure keeps the store as it is at that moment.
-/

namespace ScriptSandbox

/-- Everything mutable that values can refer to. -/
structure Store where
  lists : Array (Array Value)
  dicts : Array Dict
  sets : Array KeySet
  nextId : Nat
  output : Output
deriving Inhabited

/-- A computation on the store. -/
abbrev StoreM := EStateM Error Store

namespace Store

/-- Nothing stored yet, printing to a buffer. -/
def empty : Store := ⟨#[], #[], #[], 0, .buffer ""⟩

def list (s : Store) (r : ListRef) : Array Value := s.lists[r.index]?.getD #[]

def dict (s : Store) (r : DictRef) : Dict := s.dicts[r.index]?.getD .empty

def set (s : Store) (r : SetRef) : KeySet := s.sets[r.index]?.getD .empty

def setList (s : Store) (r : ListRef) (items : Array Value) : Store :=
  { s with lists := s.lists.setIfInBounds r.index items }

def modifyList (s : Store) (r : ListRef) (f : Array Value → Array Value) : Store :=
  { s with lists := s.lists.modify r.index f }

def modifyDict (s : Store) (r : DictRef) (f : Dict → Dict) : Store :=
  { s with dicts := s.dicts.modify r.index f }

def modifySet (s : Store) (r : SetRef) (f : KeySet → KeySet) : Store :=
  { s with sets := s.sets.modify r.index f }

def addList (s : Store) (items : Array Value) : ListRef × Store :=
  (⟨s.lists.size⟩, { s with lists := s.lists.push items })

def addDict (s : Store) (d : Dict) : DictRef × Store :=
  (⟨s.dicts.size⟩, { s with dicts := s.dicts.push d })

def addSet (s : Store) (items : KeySet) : SetRef × Store :=
  (⟨s.sets.size⟩, { s with sets := s.sets.push items })

def newId (s : Store) : Nat × Store := (s.nextId, { s with nextId := s.nextId + 1 })

end Store

namespace StoreM

/-- A result that is known, or an error. -/
def ofExcept {α : Type} : Except Error α → StoreM α
  | .ok a => pure a
  | .error e => throw e

instance : MonadLift (Except Error) StoreM := ⟨ofExcept⟩

/-- What a look at the store gives. -/
def look {α : Type} (f : Store → Except Error α) : StoreM α := fun s =>
  match f s with
  | .ok a => .ok a s
  | .error e => .error e s

def newList (items : Array Value) : StoreM Value :=
  modifyGet fun s => let (r, s) := s.addList items; (.list r, s)

def newDict (d : Dict) : StoreM Value :=
  modifyGet fun s => let (r, s) := s.addDict d; (.dict r, s)

def newSet (items : KeySet) : StoreM Value :=
  modifyGet fun s => let (r, s) := s.addSet items; (.set r, s)

/-- The next number for a tuple, a function or a method. -/
def newId : StoreM Nat := modifyGet Store.newId

def newTuple (items : Array Value) : StoreM Value := do pure (.tuple (← newId) items)

def newMethod (receiver : Value) (name : String) : StoreM Value := do
  pure (.method (← newId) receiver name)

end StoreM

end ScriptSandbox

import ScriptSandbox.Value.Table
/-!
Dicts and sets. A dict entry keeps the key value it was first stored with, and a set keeps the
element that came first; both remember the order of first insertion.
-/

namespace ScriptSandbox

/-- A mapping from values to values, in order of first insertion. -/
structure Dict where
  table : Table (Value × Value)
deriving Inhabited

namespace Dict

def empty : Dict := ⟨.empty⟩

def size (d : Dict) : Nat := d.table.size

def isEmpty (d : Dict) : Bool := d.table.isEmpty

/-- Keys and values in order. -/
def toList (d : Dict) : List (Value × Value) := d.table.toList.map (·.2)

def keys (d : Dict) : List Value := d.toList.map (·.1)

def values (d : Dict) : List Value := d.toList.map (·.2)

def getByKey? (d : Dict) (k : Key) : Option Value := (d.table.get? k).map (·.2)

def get? (d : Dict) (key : Value) : Except Error (Option Value) :=
  (Key.ofValue key).map d.getByKey?

def contains (d : Dict) (key : Value) : Except Error Bool :=
  (Key.ofValue key).map d.table.contains

/-- Stores a value; a key that is present keeps its place and its key value. -/
def insertByKey (d : Dict) (k : Key) (key value : Value) : Dict :=
  ⟨d.table.upsert k (key, value) fun old => (old.1, value)⟩

def insert (d : Dict) (key value : Value) : Except Error Dict :=
  (Key.ofValue key).map fun k => d.insertByKey k key value

/-- Inserts pairs one after another. -/
def insertAll (d : Dict) : List (Value × Value) → Except Error Dict
  | [] => .ok d
  | (key, value) :: rest =>
    match d.insert key value with
    | .ok d => d.insertAll rest
    | .error e => .error e

def ofPairs (pairs : List (Value × Value)) : Except Error Dict := empty.insertAll pairs

def eraseByKey (d : Dict) (k : Key) : Dict := ⟨d.table.erase k⟩

/-- The value under a key and the dict without it. -/
def remove (d : Dict) (key : Value) : Except Error (Option Value × Dict) :=
  (Key.ofValue key).map fun k => (d.getByKey? k, d.eraseByKey k)

/-- This dict overwritten by another. -/
def merged (d other : Dict) : Dict :=
  other.table.toList.foldl (fun d (k, key, value) => d.insertByKey k key value) d

/-- Whether two dicts have the same keys with values that are equal one by one. -/
def equalBy (equal : Value → Value → Except Error Bool) (d other : Dict) : Except Error Bool :=
  if d.size = other.size then
    d.table.allPass fun k entry =>
      match other.getByKey? k with
      | none => .ok false
      | some theirs => equal entry.2 theirs
  else .ok false

end Dict

/-- A set of values, in order of first insertion. -/
structure KeySet where
  table : Table Value
deriving Inhabited

namespace KeySet

def empty : KeySet := ⟨.empty⟩

def size (s : KeySet) : Nat := s.table.size

def isEmpty (s : KeySet) : Bool := s.table.isEmpty

/-- The elements in order. -/
def toList (s : KeySet) : List Value := s.table.toList.map (·.2)

def contains (s : KeySet) (value : Value) : Except Error Bool :=
  (Key.ofValue value).map s.table.contains

def insertByKey (s : KeySet) (k : Key) (value : Value) : KeySet := ⟨s.table.insertNew k value⟩

/-- Adds a value; an element with its key stays as it is. -/
def insert (s : KeySet) (value : Value) : Except Error KeySet :=
  (Key.ofValue value).map fun k => s.insertByKey k value

def insertAll (s : KeySet) : List Value → Except Error KeySet
  | [] => .ok s
  | value :: rest =>
    match s.insert value with
    | .ok s => s.insertAll rest
    | .error e => .error e

def ofList (values : List Value) : Except Error KeySet := empty.insertAll values

def eraseByKey (s : KeySet) (k : Key) : KeySet := ⟨s.table.erase k⟩

/-- Whether a value was present, and the set without it. -/
def remove (s : KeySet) (value : Value) : Except Error (Bool × KeySet) :=
  (Key.ofValue value).map fun k => (s.table.contains k, s.eraseByKey k)

/-- The oldest element, and the set without it. -/
def pop (s : KeySet) : Option (Value × KeySet) :=
  s.table.first?.map fun (k, oldest) => (oldest, s.eraseByKey k)

def union (s t : KeySet) : KeySet :=
  t.table.toList.foldl (fun s (k, value) => s.insertByKey k value) s

def intersection (s t : KeySet) : KeySet := ⟨s.table.filter t.table.contains⟩

def difference (s t : KeySet) : KeySet := ⟨s.table.filter fun k => !t.table.contains k⟩

def symmetricDifference (s t : KeySet) : KeySet := (s.difference t).union (t.difference s)

def isSubset (s t : KeySet) : Bool :=
  s.size ≤ t.size && s.table.allKeys t.table.contains

def equal (s t : KeySet) : Bool := s.size == t.size && s.isSubset t

end KeySet

end ScriptSandbox

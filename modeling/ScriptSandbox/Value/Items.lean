import ScriptSandbox.Store
/-!
The items of a value that can be iterated. Containers are copied when an iteration starts, so that
changing one does not disturb it; ranges are walked lazily. Main statement: written out, the items
are those at the positions below their number (`getElem_toArray`).
-/

namespace ScriptSandbox

/-- What an iteration will yield. -/
inductive Items where
  | values (items : Array Value)
  | range (r : Range)

namespace Items

def size : Items → Nat
  | values items => items.size
  | range r => r.length

/-- The item at a position below the number of items. -/
def item (items : Items) (i : Nat) : Value :=
  match items with
  | values items => items.getD i .null
  | range r => .int (r.element i)

/-- The first `n` items. -/
def take (n : Nat) (items : Items) : List Value :=
  (List.range (min n items.size)).map items.item

/-- All items, written out. -/
def toArray : Items → Array Value
  | values items => items
  | range r => Array.ofFn fun i : Fin r.length => .int (r.element i)

def toList (items : Items) : List Value := items.toArray.toList

theorem size_toArray (items : Items) : items.toArray.size = items.size := by
  cases items <;> simp [toArray, size]

theorem length_toList (items : Items) : items.toList.length = items.size := by
  rw [toList, Array.length_toList, size_toArray]

/-- The items are those at the positions below their number. -/
theorem getElem_toArray (items : Items) {i : Nat} (h : i < items.toArray.size) :
    items.toArray[i] = items.item i := by
  cases items with
  | values items =>
    have inside : i < items.size := h
    simp [toArray, item, inside]
  | range => simp [toArray, item]

end Items

/-- The items that iterating a value yields. -/
def Store.iterate (s : Store) : Value → Except Error Items
  | .range r => .ok (.range r)
  | .str text => .ok (.values ((text.toList.map fun c => .str (String.singleton c)).toArray))
  | .list r => .ok (.values (s.list r))
  | .tuple _ items => .ok (.values items)
  | .dict r => .ok (.values (s.dict r).keys.toArray)
  | .set r => .ok (.values (s.set r).toList.toArray)
  | v => .error (.notIterable v)

namespace Store

/-- An item as a pair; it has to be iterable itself and to have two items. -/
def pairAt (s : Store) (position : Nat) (item : Value) : Except Error (Value × Value) := do
  let parts ← s.iterate item
  match parts.size, parts.take 2 with
  | 2, [key, value] => .ok (key, value)
  | size, _ => .error (.badPairLength position size)

/-- The items as pairs, behind the pairs already found, which are held last first. -/
def pairsFrom (s : Store) (position : Nat) (found : List (Value × Value)) :
    List Value → Except Error (List (Value × Value))
  | [] => .ok found.reverse
  | item :: rest =>
    match s.pairAt position item with
    | .ok pair => s.pairsFrom (position + 1) (pair :: found) rest
    | .error e => .error e

/-- The pairs in a value: the entries of a dict, or the items of anything else that can be iterated.
The numbers of a range are no pairs, so its first one decides. -/
def pairs (s : Store) : Value → Except Error (List (Value × Value))
  | .dict r => .ok (s.dict r).toList
  | .range r => s.pairsFrom 0 [] ((Items.range r).take 1)
  | source => (s.iterate source).bind fun items => s.pairsFrom 0 [] items.toList

end Store

end ScriptSandbox

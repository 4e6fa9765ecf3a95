import ScriptSandbox.Slice
import ScriptSandbox.Limits
import ScriptSandbox.Host
import ScriptSandbox.Text.Index
import ScriptSandbox.Value.Items
import ScriptSandbox.Value.Render
/-!
Reading and writing parts of values: one item by index or key, and slices.
-/

namespace ScriptSandbox.Subscript

/-- A possibly negative index as a position below `length`. -/
def position? (index : Int64) (length : Nat) : Option Nat :=
  let i := if index < 0 then index.toInt + length else index.toInt
  if 0 ≤ i ∧ i < length ∧ length < Integer.bound then some i.toNat else none

/-- The integer that an index stands for. -/
def integerIndex (container index : Value) : Except Error Int64 :=
  match index.toInt? with
  | some i => .ok i
  | none => .error (.badIndex container index)

/-- The item of a sequence at an index; `what` names the sequence in the error. -/
def itemAt (what : String) (length : Nat) (get : Nat → Option Value) (index : Int64) :
    Except Error Value :=
  match (position? index length).bind get with
  | some item => .ok item
  | none => .error (.outOfRange what)

/-- The character of a text at an index, itself a text. -/
def characterAt? (text : String) (i : Nat) : Option Value :=
  (Text.get? text i).map fun c => .str (String.singleton c)

/-- `container[index]`. -/
def getItem (host : Host) (container index : Value) : StoreM Value := do
  match container with
  | .list r =>
    let i ← StoreM.ofExcept (integerIndex container index)
    StoreM.look fun s => itemAt "list" (s.list r).size ((s.list r)[·]?) i
  | .tuple _ items =>
    let i ← StoreM.ofExcept (integerIndex container index)
    StoreM.ofExcept (itemAt "tuple" items.size (items[·]?) i)
  | .str text =>
    let i ← StoreM.ofExcept (integerIndex container index)
    StoreM.ofExcept (itemAt "string" text.length (characterAt? text) i)
  | .range r =>
    let i ← StoreM.ofExcept (integerIndex container index)
    match r.get? i with
    | some n => pure (.int n)
    | none => throw (.outOfRange "range object")
  | .dict r =>
    match ← StoreM.look fun s => (s.dict r).get? index with
    | some value => pure value
    | none => throw (.keyError ((← get).shownRepr index))
  | .object o =>
    match ← host.item? o index with
    | some value => pure value
    | none => throw (.keyError ((← get).shownRepr index))
  | _ => throw (.notSubscriptable container)

/-- The items at the positions of a slice. -/
def pick {α : Type} [Inhabited α] (items : Array α) (i : SliceIndices) : Array α :=
  (i.positions.map fun p => items.getD p default).toArray

/-- The characters at the positions of a slice. -/
def pickText (text : String) (i : SliceIndices) : String :=
  String.ofList (pick text.toList.toArray i).toList

/-- A slice of a range is a range. -/
def sliceRange (r : Range) (bounds : SliceBounds) : Except Error Value := do
  let i ← bounds.indices r.length
  -- the stop may lie beyond the last element, and so be no word although all elements are
  let translate (position : Int) : Option Int64 :=
    (Integer.fit? (position * r.step.toInt)).bind fun offset => Integer.add? r.start offset
  let sliced : Option Range := do
    pure ⟨← translate i.start, ← translate i.stop, ← Integer.fit? (r.step.toInt * i.step)⟩
  match sliced with
  | some r => .ok (.range r)
  | none => .error (.overflow "range slicing")

/-- `container[lower:upper:step]`, always a new value. -/
def getSlice (container : Value) (bounds : SliceBounds) : StoreM Value := do
  match container with
  | .list r =>
    let items ← StoreM.look fun s =>
      (bounds.indices (s.list r).size).map (pick (s.list r))
    StoreM.newList items
  | .tuple _ items =>
    let i ← StoreM.ofExcept (bounds.indices items.size)
    StoreM.newTuple (pick items i)
  | .str text =>
    let i ← StoreM.ofExcept (bounds.indices text.length)
    pure (.str (pickText text i))
  | .range r => StoreM.ofExcept (sliceRange r bounds)
  | _ => throw (.notSubscriptable container)

/-- `container[index] = value`. A dict is checked against its quota once it has grown. -/
def setItem (limits : SizeLimits) (container index value : Value) : StoreM Unit := do
  match container with
  | .list r =>
    let i ← StoreM.ofExcept (integerIndex container index)
    match position? i ((← get).list r).size with
    | none => throw (.outOfRange "list assignment")
    | some i => modify (·.modifyList r (·.setIfInBounds i value))
  | .dict r =>
    let k ← StoreM.ofExcept (Key.ofValue index)
    modify (·.modifyDict r (·.insertByKey k index value))
    StoreM.look fun s => limits.checkContainer (s.dict r).size
  | _ => throw (.noItemAssignment container)

/-- The items with those between two positions replaced. -/
def splice (items : Array Value) (start stop : Nat) (replacement : Array Value) : Array Value :=
  items.extract 0 start ++ replacement ++ items.extract stop items.size

/-- The items with those at some positions replaced one by one. -/
def scatter (items : Array Value) (positions : List Nat) (replacement : List Value) :
    Array Value :=
  (positions.zip replacement).foldl (fun items (i, value) => items.setIfInBounds i value) items

/-- What a list becomes when a slice of it is assigned. A slice of step one may change its length;
any other is replaced item by item. -/
def assignSlice (limits : SizeLimits) (bounds : SliceBounds) (items replacement : Array Value) :
    Except Error (Array Value) := do
  if bounds.step.getD 1 = 1 then
    let i ← bounds.indices items.size
    let start := min i.start.toNat items.size
    -- a stop before the start leaves nothing to replace
    let stop := max start (min i.stop.toNat items.size)
    limits.checkContainer (items.size - (stop - start) + replacement.size)
    pure (splice items start stop replacement)
  else
    let positions ← bounds.positions items.size
    if positions.length = replacement.size then pure (scatter items positions replacement.toList)
    else .error (.sliceSizeMismatch replacement.size positions.length)

/-- `container[lower:upper:step] = value`, for lists. The new items are taken before the list
changes, so a list can be assigned to a slice of itself. -/
def setSlice (limits : SizeLimits) (container : Value) (bounds : SliceBounds) (value : Value) :
    StoreM Unit := do
  match container with
  | .list r =>
    let items ← StoreM.look fun s => do
      limits.checkIterable value
      let replacement ← s.iterate value
      assignSlice limits bounds (s.list r) replacement.toArray
    modify (·.setList r items)
  | _ => throw (.noSliceAssignment container)

end ScriptSandbox.Subscript

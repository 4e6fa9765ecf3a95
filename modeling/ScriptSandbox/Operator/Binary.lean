import ScriptSandbox.Operator.Arithmetic
import ScriptSandbox.Store
/-!
Operators with two operands. Results that are containers are always new ones; no operator changes
an operand.
-/

namespace ScriptSandbox.Operator

/-- How often a sequence is repeated by a value, if the value is an integer. -/
def repeatCount? (value : Value) : Option Nat := value.toInt?.map fun n => n.toInt.toNat

/-- A text written `count` times one behind the other, from halves that are equal. -/
def repeatedText (text : String) (count : Nat) : String :=
  if count = 0 then ""
  else
    let half := repeatedText text (count / 2)
    if count % 2 = 1 then half ++ half ++ text else half ++ half
termination_by count

/-- Items written `count` times one behind the other. -/
def repeatedItems (items : Array Value) (count : Nat) : Array Value :=
  if items.size = 1 then Array.replicate count (items.getD 0 .null)
  else Array.ofFn fun i : Fin (count * items.size) => items.getD (i % items.size) .null

/-- Repetition goes on where the last one ended, also at a single item. -/
theorem getElem?_repeatedItems {items : Array Value} {count i : Nat}
    (h : i < count * items.size) :
    (repeatedItems items count)[i]? = some (items.getD (i % items.size) .null) := by
  unfold repeatedItems
  split
  · next single =>
    have inside : i < count := by simpa [single] using h
    rw [single, Nat.mod_one, Array.getElem?_replicate, if_pos inside]
  · simp [h]

theorem size_repeatedItems (items : Array Value) (count : Nat) :
    (repeatedItems items count).size = count * items.size := by
  unfold repeatedItems
  split <;> simp_all

/-- Items behind others, in an array of just the size they need. -/
def joinedItems (first second : Array Value) : Array Value :=
  Array.emptyWithCapacity (first.size + second.size) ++ first ++ second

theorem joinedItems_eq (first second : Array Value) : joinedItems first second = first ++ second := by
  simp [joinedItems]

/-- An odd count needs one part besides the halves. -/
example : repeatedText "ab" 5 = "ababababab" := by decide +kernel

/-- A text repeated by the other operand. -/
def timesText (limits : SizeLimits) (left right : Value) (text : String) (other : Value) :
    Except Error Value :=
  match repeatCount? other with
  | none => .error (.unsupportedOperands BinaryOp.mul.symbol left right)
  | some count => do
    limits.checkString (text.utf8ByteSize * count)
    .ok (.str (repeatedText text count))

/-- A list or tuple repeated by the other operand. -/
def timesItems (limits : SizeLimits) (left right : Value) (items : Array Value) (other : Value) :
    Except Error (Array Value) :=
  match repeatCount? other with
  | none => .error (.unsupportedOperands BinaryOp.mul.symbol left right)
  | some count => do
    limits.checkContainer (items.size * count)
    .ok (repeatedItems items count)

/-- The algebra of sets. -/
def onSets (op : BinaryOp) (a b : KeySet) : Option KeySet :=
  match op with
  | .bitOr => some (a.union b)
  | .bitAnd => some (a.intersection b)
  | .sub => some (a.difference b)
  | .bitXor => some (a.symmetricDifference b)
  | _ => none

/-- Operators on truth values that give truth values. -/
def onBools? (op : BinaryOp) (a b : Bool) : Option Bool :=
  match op with
  | .bitAnd => some (a && b)
  | .bitOr => some (a || b)
  | .bitXor => some (a ^^ b)
  | _ => none

/-- Operators on numbers. Bits and shifts never turn integers into doubles. -/
def onNumbers (limits : SizeLimits) (op : BinaryOp) (left right : Value) : Except Error Value :=
  match left.toNumber?, right.toNumber? with
  | some (.int a), some (.int b) => Arithmetic.onInts limits op a b
  | some x, some y =>
    if op.isBitwise || op.isShift then .error (.unsupportedOperands op.symbol left right)
    else Arithmetic.onFloats limits op x.toBinary64 y.toBinary64
  | _, _ => .error (.unsupportedOperands op.symbol left right)

def joinTexts (limits : SizeLimits) (a b : String) : Except Error Value := do
  limits.checkString (a.utf8ByteSize + b.utf8ByteSize)
  .ok (.str (a ++ b))

/-- Products with a sequence: a text goes before a list or tuple, the left operand before the
right one. -/
def multiply (limits : SizeLimits) (left right : Value) : StoreM Value := do
  match left, right with
  | .str a, other => StoreM.ofExcept (timesText limits left right a other)
  | other, .str b =>
    match other with
    | .list _ | .tuple .. => throw (.unsupportedOperands BinaryOp.mul.symbol left right)
    | _ => StoreM.ofExcept (timesText limits left right b other)
  | .list a, other =>
    let items ← StoreM.look fun s => timesItems limits left right (s.list a) other
    StoreM.newList items
  | .tuple _ a, other =>
    let items ← StoreM.ofExcept (timesItems limits left right a other)
    StoreM.newTuple items
  | other, .list b =>
    let items ← StoreM.look fun s => timesItems limits left right (s.list b) other
    StoreM.newList items
  | other, .tuple _ b =>
    let items ← StoreM.ofExcept (timesItems limits left right b other)
    StoreM.newTuple items
  | _, _ => StoreM.ofExcept (onNumbers limits .mul left right)

/-- The value of `left op right` (`apply_binary`, §4.5). -/
def binary (limits : SizeLimits) (op : BinaryOp) (left right : Value) : StoreM Value := do
  match op, left, right with
  | op, .int a, .int b => StoreM.ofExcept (Arithmetic.onInts limits op a b)
  | .mul, left, right => multiply limits left right
  | .add, .str a, .str b => StoreM.ofExcept (joinTexts limits a b)
  | .add, .list a, .list b =>
    let items ← StoreM.look fun s => do
      let items := joinedItems (s.list a) (s.list b)
      limits.checkContainer items.size
      pure items
    StoreM.newList items
  | .add, .tuple _ a, .tuple _ b =>
    StoreM.ofExcept (limits.checkContainer (a.size + b.size))
    StoreM.newTuple (joinedItems a b)
  | .bitOr, .dict a, .dict b =>
    let merged ← StoreM.look fun s => do
      let merged := (s.dict a).merged (s.dict b)
      limits.checkContainer merged.size
      pure merged
    StoreM.newDict merged
  | op, .set a, .set b =>
    let result ← StoreM.look fun s =>
      match onSets op (s.set a) (s.set b) with
      | none => .error (.unsupportedOperands op.symbol left right)
      | some result => do
        limits.checkContainer result.size
        pure result
    StoreM.newSet result
  | op, .bool a, .bool b =>
    match onBools? op a b with
    | some b => pure (.bool b)
    | none => StoreM.ofExcept (onNumbers limits op left right)
  | op, left, right => StoreM.ofExcept (onNumbers limits op left right)

end ScriptSandbox.Operator

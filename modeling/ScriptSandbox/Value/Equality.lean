import ScriptSandbox.Store
/-!
Equality of values. Containers are compared item by item, numbers by their value, and values of
different kinds are different. Containers nested too deeply, as those that contain themselves are,
cannot be compared.
-/

namespace ScriptSandbox

/-- Containers nested more levels than this cannot be compared (§10.4). -/
def maxCompareDepth : Nat := 100

/-- The first position at which two sequences have items that are not equal. -/
def firstDifference (equal : Value → Value → Except Error Bool) (xs ys : Array Value) :
    Except Error (Option Nat) :=
  firstPosition (fun i => (equal (xs.getD i .null) (ys.getD i .null)).map (!·)) 0
    (min xs.size ys.size)

/-- Sequences are different without a look at their items when these are not equally many. -/
def sequencesEqual (equal : Value → Value → Except Error Bool) (xs ys : Array Value) :
    Except Error Bool :=
  if xs.size = ys.size then (firstDifference equal xs ys).map (·.isNone) else .ok false

namespace Number

/-- Integers are compared exactly; as soon as a double is involved both count as doubles. -/
def equal : Number → Number → Bool
  | int a, int b => a == b
  | a, b => a.toBinary64.equal b.toBinary64

def order : Number → Number → Option Ordering
  | int a, int b => some (compare a b)
  | a, b => a.toBinary64.order b.toBinary64

end Number

namespace Store

/-- Equality of values that may still nest `levels` deep. -/
def equalWithin (s : Store) : Nat → Value → Value → Except Error Bool
  | 0, _, _ => .error .comparisonTooDeep
  | levels + 1, a, b =>
    match a, b with
    | .null, .null => .ok true
    | .int a, .int b => .ok (a == b)
    | .str a, .str b => .ok (a == b)
    -- a container is equal to itself, whatever it holds
    | .list a, .list b =>
      if a = b then .ok true
      else sequencesEqual (s.equalWithin levels) (s.list a) (s.list b)
    | .tuple i a, .tuple j b =>
      if i = j then .ok true else sequencesEqual (s.equalWithin levels) a b
    | .dict a, .dict b =>
      if a = b then .ok true else (s.dict a).equalBy (s.equalWithin levels) (s.dict b)
    | .set a, .set b => .ok (a == b || (s.set a).equal (s.set b))
    | .range a, .range b => .ok (a.sameElements b)
    | .function a, .function b => .ok (a.id == b.id)
    | .native a, .native b => .ok (a.id == b.id)
    | .method _ a m, .method _ b n => .ok (m == n && a.same b)
    | .object a, .object b => .ok (a.id == b.id)
    | a, b =>
      match a.toNumber?, b.toNumber? with
      | some x, some y => .ok (x.equal y)
      | _, _ => .ok false

/-- Equality of values. -/
def equal (s : Store) : Value → Value → Except Error Bool := s.equalWithin (maxCompareDepth + 1)

/-- Whether two values are equal; values that cannot be compared are not. -/
def plainlyEqual (s : Store) (a b : Value) : Bool := (s.equal a b).toOption.getD false

/-- Whether two dicts are equal; dicts that cannot be compared are not. -/
def dictsPlainlyEqual (s : Store) (d other : Dict) : Bool :=
  (d.equalBy s.equal other).toOption.getD false

/-- The position of the first item equal to a value. -/
def position? (s : Store) (items : Array Value) (value : Value) : Except Error (Option Nat) :=
  firstPosition (fun i => s.equal (items.getD i .null) value) 0 items.size

/-- Whether a value counts as true: zero, empty and the null value do not. -/
def isTruthy (s : Store) : Value → Bool
  | .null => false
  | .bool b => b
  | .int n => n != 0
  | .float x => !x.isZero
  | .str text => !text.isEmpty
  | .list r => !(s.list r).isEmpty
  | .tuple _ items => !items.isEmpty
  | .dict r => !(s.dict r).isEmpty
  | .set r => !(s.set r).isEmpty
  | .range r => r.length != 0
  | _ => true

end Store

end ScriptSandbox

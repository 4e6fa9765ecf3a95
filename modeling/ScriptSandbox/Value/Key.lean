import ScriptSandbox.Error.Cause
/-!
Keys: the part of a value under which dicts and sets store it. Numbers that are equal share a key,
so integral doubles in the range of the integers take the integer's key. Keys can be compared and
hashed; containers other than tuples have none.
-/

namespace ScriptSandbox

/-- What identifies an entry of a dict or an element of a set (§10.2). -/
inductive Key where
  | null
  | int (n : Int64)
  /-- A double that equals no integer in range. -/
  | float (x : Binary64)
  | str (s : String)
  | tuple (keys : List Key)
deriving Inhabited

namespace Key

mutual

/-- Whether two keys are the same. -/
def decEq : (a b : Key) → Decidable (a = b)
  | null, null => isTrue rfl
  | int a, int b => if h : a = b then isTrue (by rw [h]) else isFalse (by simp [h])
  | float a, float b => if h : a = b then isTrue (by rw [h]) else isFalse (by simp [h])
  | str a, str b => if h : a = b then isTrue (by rw [h]) else isFalse (by simp [h])
  | tuple a, tuple b =>
    match decEqList a b with
    | isTrue h => isTrue (by rw [h])
    | isFalse h => isFalse (by simp [h])
  | null, int _ | null, float _ | null, str _ | null, tuple _ => isFalse (by simp)
  | int _, null | int _, float _ | int _, str _ | int _, tuple _ => isFalse (by simp)
  | float _, null | float _, int _ | float _, str _ | float _, tuple _ => isFalse (by simp)
  | str _, null | str _, int _ | str _, float _ | str _, tuple _ => isFalse (by simp)
  | tuple _, null | tuple _, int _ | tuple _, float _ | tuple _, str _ => isFalse (by simp)

def decEqList : (a b : List Key) → Decidable (a = b)
  | [], [] => isTrue rfl
  | [], _ :: _ => isFalse (by simp)
  | _ :: _, [] => isFalse (by simp)
  | a :: as, b :: bs =>
    match decEq a b with
    | isTrue h =>
      match decEqList as bs with
      | isTrue hs => isTrue (by rw [h, hs])
      | isFalse hs => isFalse (by simp [hs])
    | isFalse h => isFalse (by simp [h])

end

instance : DecidableEq Key := decEq

mutual

def hashCode : Key → UInt64
  | null => 7
  | int n => mixHash 11 (hash n.toInt)
  | float x => mixHash 13 (hash x.bits)
  | str s => mixHash 17 (hash s)
  | tuple keys => hashCodes 19 keys

def hashCodes (seed : UInt64) : List Key → UInt64
  | [] => seed
  | key :: rest => hashCodes (mixHash seed key.hashCode) rest

end

instance : Hashable Key := ⟨hashCode⟩

/-- The key of a double: an integer's where one is equal to it. -/
def ofFloat (x : Binary64) : Key :=
  if x.isIntegral && -Integer.bound ≤ x.truncate && x.truncate < Integer.bound then
    int (Int64.ofInt x.truncate)
  else float x

mutual

/-- The key of a value. A tuple has one when all its items have; the first item without one is
reported. -/
def ofValue : Value → Except Error Key
  | .null => .ok null
  | .bool b => .ok (int (if b then 1 else 0))
  | .int n => .ok (int n)
  | .float x => .ok (ofFloat x)
  | .str s => .ok (str s)
  | .tuple _ ⟨items⟩ => (ofValues items).map tuple
  | v => .error (.unhashable v)

def ofValues : List Value → Except Error (List Key)
  | [] => .ok []
  | v :: rest => do
    let key ← ofValue v
    let keys ← ofValues rest
    .ok (key :: keys)

end

end Key

end ScriptSandbox

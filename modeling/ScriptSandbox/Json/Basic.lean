import ScriptSandbox.Decimal.Binary64
/-!
Documents: nested lists and records of texts, numbers, truth values and nulls, in which syntax
trees and limits are exchanged. Numbers stay as written, so that an integer can be told from a
fraction and a negative zero from a zero.
-/

namespace ScriptSandbox

/-- A number as written: `digits * 10 ^ exponent`; `integral` when it has neither a point nor an
exponent. -/
structure JsonNumber where
  negative : Bool
  digits : Nat
  exponent : Int
  integral : Bool
deriving DecidableEq

namespace JsonNumber

def ofInt (n : Int) : JsonNumber := ⟨n < 0, n.natAbs, 0, true⟩

/-- The integer that a number without point and exponent denotes. A zero with a minus sign is no
integer. -/
def toInt? (n : JsonNumber) : Option Int :=
  if !n.integral || (n.negative && n.digits == 0) then none
  else some (if n.negative then -(n.digits : Int) else n.digits)

/-- The nearest double; none beyond the greatest one. -/
def toBinary64? (n : JsonNumber) : Option Binary64 :=
  let x := Binary64.ofDecimal n.negative n.digits n.exponent
  if x.isFinite then some x else none

end JsonNumber

/-- A document. -/
inductive Json where
  | null
  | bool (value : Bool)
  | number (value : JsonNumber)
  | string (value : String)
  | array (items : List Json)
  | object (members : List (String × Json))
deriving Inhabited

namespace Json

def int (n : Int) : Json := .number (.ofInt n)

/-- The member of a record under a name; a later one of the same name hides an earlier one. -/
def member? (members : List (String × Json)) (name : String) : Option Json :=
  members.foldl (fun found (key, value) => if key == name then some value else found) none

def toInt? : Json → Option Int
  | .number n => n.toInt?
  | _ => none

/-- An integer between zero and `bound - 1`. -/
def toNat? (bound : Nat) (json : Json) : Option Nat :=
  json.toInt?.bind fun n => if 0 ≤ n ∧ n < bound then some n.toNat else none

def toBool? : Json → Option Bool
  | .bool b => some b
  | _ => none

def toString? : Json → Option String
  | .string s => some s
  | _ => none

def toList? : Json → Option (List Json)
  | .array items => some items
  | _ => none

/-- The texts of a list of texts. -/
def toStrings? (json : Json) : Option (List String) :=
  json.toList?.bind fun items => items.mapM toString?

end Json

mutual

/-- How deep the lists and records of a document nest. -/
def Json.depth : Json → Nat
  | .array items => depthOfItems items + 1
  | .object members => depthOfMembers members + 1
  | _ => 0

def depthOfItems : List Json → Nat
  | [] => 0
  | item :: rest => max item.depth (depthOfItems rest)

def depthOfMembers : List (String × Json) → Nat
  | [] => 0
  | (_, item) :: rest => max item.depth (depthOfMembers rest)

end

end ScriptSandbox

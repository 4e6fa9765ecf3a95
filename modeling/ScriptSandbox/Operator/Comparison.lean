import ScriptSandbox.Value.Order
/-!
The comparison operators. An ordering operator is false of values that have no order, and on sets
it means inclusion.
-/

namespace ScriptSandbox.Operator

/-- Whether an order satisfies an ordering operator. -/
def satisfies (op : CompareOp) (order : Ordering) : Bool :=
  match op with
  | .lt => order == .lt
  | .ltE => order != .gt
  | .gt => order == .gt
  | _ => order != .lt

/-- Inclusion of sets, strict for the strict operators. -/
def includes (op : CompareOp) (a b : KeySet) : Bool :=
  match op with
  | .lt => a.size < b.size && a.isSubset b
  | .ltE => a.isSubset b
  | .gt => b.size < a.size && b.isSubset a
  | _ => b.isSubset a

/-- Applies an ordering operator. Operands without an order are reported with the operator used. -/
def ordering (s : Store) (op : CompareOp) (left right : Value) : Except Error Bool :=
  match left, right with
  | .set a, .set b => .ok (includes op (s.set a) (s.set b))
  | _, _ =>
    match s.order left right with
    | .ok (some order) => .ok (satisfies op order)
    | .ok none => .ok false
    | .error e =>
      match e.kind with
      | .typeMismatch _ => .error (.notOrderable op.symbol left right)
      | _ => .error e

/-- The truth of `left op right` (`apply_compare`, §4.5). -/
def compare (s : Store) (op : CompareOp) (left right : Value) : Except Error Bool :=
  match op with
  | .eq => s.equal left right
  | .notEq => (s.equal left right).map (!·)
  | .is => .ok (left.same right)
  | .isNot => .ok (!left.same right)
  | .in => s.contains right left
  | .notIn => (s.contains right left).map (!·)
  | op => ordering s op left right

end ScriptSandbox.Operator

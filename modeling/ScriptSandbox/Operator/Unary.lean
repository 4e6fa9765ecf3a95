import ScriptSandbox.Operator.Arithmetic
import ScriptSandbox.Value.Equality
/-!
Operators with one operand. Negation of a truth applies to every value; the others are for numbers.
-/

namespace ScriptSandbox.Operator

/-- The value of `op operand` (`apply_unary`, §4.5). -/
def unary (s : Store) (op : UnaryOp) (operand : Value) : Except Error Value :=
  match op, operand with
  | .not, v => .ok (.bool (!s.isTruthy v))
  | .neg, .float x => .ok (.float x.neg)
  | .pos, .float x => .ok (.float x)
  | op, v =>
    match v.toInt? with
    | none => .error (.badOperand op.symbol v)
    | some n =>
      match op with
      | .neg => Arithmetic.fitting "negation" (Integer.neg? n)
      | .invert => .ok (.int (~~~n))
      | _ => .ok (.int n)

end ScriptSandbox.Operator

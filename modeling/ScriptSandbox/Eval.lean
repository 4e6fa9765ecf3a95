import ScriptSandbox.Eval.Expression
import ScriptSandbox.Eval.Statement
/-!
The evaluator: expressions, statements and whole scripts. Every visit of a node counts a step, and
the quota of steps bounds how deep visits can nest, so evaluation always ends.
-/

namespace ScriptSandbox.Eval

mutual

/-- Visits an expression; the number bounds how deep visits nest (`evaluate`, §4.1). -/
def visitExpr (sb : Sandbox) : Nat → Expr → Eval Value
  | 0, _ => throw (.limitExceeded .steps sb.limits.maxSteps)
  | depth + 1, e => located e.span do
    Guard.tick sb.limits sb.clock
    exprKind sb ⟨visitExpr sb depth, visitStmt sb depth⟩ e.span e.kind

/-- Visits a statement. -/
def visitStmt (sb : Sandbox) : Nat → Stmt → Eval Flow
  | 0, _ => throw (.limitExceeded .steps sb.limits.maxSteps)
  | depth + 1, s => located s.span do
    Guard.tick sb.limits sb.clock
    stmtKind sb ⟨visitExpr sb depth, visitStmt sb depth⟩ s.kind

end

/-- Visits nested at most so deep. -/
def visitWithin (sb : Sandbox) (depth : Nat) : Visit := ⟨visitExpr sb depth, visitStmt sb depth⟩

/-- Visits nested as deep as the quota of steps allows. -/
def visit (sb : Sandbox) : Visit := visitWithin sb (sb.limits.maxSteps + 1)

/-- The value of an expression. -/
def expr (sb : Sandbox) (e : Expr) : Eval Value := (visit sb).expr e

/-- Executes a statement. -/
def stmt (sb : Sandbox) (s : Stmt) : Eval Flow := (visit sb).stmt s

/-- The value behind a statement of a module, from the value before it and from how it ended. -/
def valueBehind (span : Span) (last : Value) : Flow → Eval Value
  | .normal => pure last
  | .returning _ => located span (throw .returnOutsideFunction)
  | _ => located span (throw .loopControlOutsideLoop)

/-- Executes a statement of a module and gives the value of an expression statement. -/
def topLevel (sb : Sandbox) (v : Visit) (last : Value) (s : Stmt) : Eval Value :=
  match s.kind with
  | .expr e => located s.span do
    Guard.tick sb.limits sb.clock
    v.expr e
  | _ => do
    let flow ← v.stmt s
    valueBehind s.span last flow

/-- Executes the statements of a module behind those that left the value `last`. -/
def moduleFrom (sb : Sandbox) (v : Visit) (last : Value) : List Stmt → Eval Value
  | [] => pure last
  | s :: rest => do
    let last ← topLevel sb v last s
    moduleFrom sb v last rest

/-- Executes a whole script. Its value is that of the last expression statement at top level
(§10.3). -/
def module (sb : Sandbox) (m : Module) : Eval Value := moduleFrom sb (visit sb) .null m.body

/-- Runs a script from nothing but a store, and drops its variables when it has ended (`run`,
§6). -/
def run (sb : Sandbox) (m : Module) (store : Store) : Except Error Value × RunState :=
  let drop (s : RunState) : RunState := { s with scopes := s.scopes.teardown }
  match module sb m (.start store) with
  | .ok value s => (.ok value, drop s)
  | .error e s => (.error e, drop s)

end ScriptSandbox.Eval

import ScriptSandbox.Eval.Pattern
import ScriptSandbox.Eval.Target
/-!
Statements. Only errors that a script may catch reach its handlers; any other ends the run at once,
without `else` and `finally` blocks.
-/

namespace ScriptSandbox.Eval

variable (sb : Sandbox) (v : Visit)

/-- What a round of a loop means for the loop: none where it goes on, else how it ends. -/
def afterRound : Flow → Option Flow
  | .normal | .continuing => none
  | .breaking => some .normal
  | .returning value => some (.returning value)

/-- A `for` loop; the `else` block runs when the items are used up. -/
def forLoop (target iter : Expr) (body orelse : List Stmt) : Eval Flow := do
  let source ← v.expr iter
  let items ← located iter.span (iterate source)
  let ended ← walk items (fun item => do
    Guard.tickLoop sb.limits sb.clock
    assign sb v target item
    afterRound <$> block v body)
  match ended with
  | some flow => pure flow
  | none => block v orelse

/-- The rounds of a `while` loop; the last number bounds them and is never reached, since each
counts against the quota of loops. -/
def whileRounds (test : Expr) (body orelse : List Stmt) : Nat → Eval Flow
  | 0 => throw (.limitExceeded .loopIterations sb.limits.maxLoopIterations)
  | rounds + 1 => do
    let value ← v.expr test
    if ← isTruthy value then
      Guard.tickLoop sb.limits sb.clock
      let flow ← block v body
      match afterRound flow with
      | some flow => pure flow
      | none => whileRounds test body orelse rounds
    else block v orelse

def whileLoop (test : Expr) (body orelse : List Stmt) : Eval Flow :=
  whileRounds sb v test body orelse (sb.limits.maxLoopIterations + 1)

mutual

/-- Whether a handler's types, a name or a tuple of names, cover an error's name. -/
def covers (exception : String) : Value → Except Error Bool
  | .str name => .ok (name == exception)
  | .tuple _ ⟨names⟩ => anyCovers exception names
  | value => .error (.badHandlerType value)

def anyCovers (exception : String) : List Value → Except Error Bool
  | [] => .ok false
  | name :: rest => do
    if ← covers exception name then .ok true else anyCovers exception rest

end

def startHandling (e : Error) (s : RunState) : RunState :=
  { s with handling := e :: s.handling }

def stopHandling (s : RunState) : RunState := { s with handling := s.handling.tail }

/-- Runs a handler's block with an error as the one being handled. -/
def handle (e : Error) (body : List Stmt) : Eval Flow := do
  modify (startHandling e)
  ensuring (block v body) stopHandling

/-- Whether a handler takes an error (§10.4). -/
def takes (e : Error) (types : Option Expr) (span : Span) : Eval Bool := do
  match types with
  | none => pure true
  | some types =>
    let types ← v.expr types
    located span (covers (e.exceptionName?.getD "") types : Except Error Bool)

/-- Gives an error to the first handler that takes it. -/
def handlers (e : Error) : List ExceptHandler → Eval Flow
  | [] => throw e
  | ⟨types, name, body, span⟩ :: rest => do
    -- refused before the types are evaluated
    if name.isSome then located span (throw .namedHandler)
    if ← takes v e types span then handle v e body else handlers e rest

/-- How a `try` statement ends before its `finally` block. -/
def tryOutcome (body : List Stmt) (hs : List ExceptHandler) (orelse : List Stmt) :
    Eval (Except Error Flow) := do
  match ← attempt (block v body) with
  | .ok .normal => attempt (block v orelse)
  | .ok flow => pure (.ok flow)
  | .error e => if e.isCatchable then attempt (handlers v e hs) else pure (.error e)

/-- Whether an outcome lets a script go on. -/
def isFatal : Except Error Flow → Bool
  | .ok _ => false
  | .error e => !e.isCatchable

/-- A `try` statement. What its `finally` block ends with, unless that is normal, takes the place of
what came before (§10.4). -/
def tryStmt (body : List Stmt) (hs : List ExceptHandler) (orelse finalbody : List Stmt) :
    Eval Flow := do
  let outcome ← tryOutcome v body hs orelse
  -- behind a fatal error nothing of the script runs any more
  if isFatal outcome || finalbody.isEmpty then ofExcept outcome
  else
    match ← block v finalbody with
    | .normal => ofExcept outcome
    | flow => pure flow

/-- Raises a value, or once more the error being handled (§10.4). -/
def raise : Option Expr → Eval Flow
  | some expr => do throw (.raised (← v.expr expr))
  | none => do
    match (← get).handling with
    | e :: _ => throw e
    | [] => throw .nothingToReraise

/-- Executes a node. -/
def stmtKind : StmtKind → Eval Flow
  | .expr value => do
    let _ ← v.expr value
    pure .normal
  | .assign targets value => do
    let value ← v.expr value
    assignAll sb v value targets
    pure .normal
  | .augAssign target op value => do
    augment sb v target op value
    pure .normal
  | .functionDef d => do
    let f ← newFunction d.name d.docstring (.definition d)
    define d.name f
    pure .normal
  | .return none => pure (.returning .null)
  | .return (some value) => do
    let value ← v.expr value
    pure (.returning value)
  | .if test body orelse => do
    let test ← v.expr test
    if ← isTruthy test then block v body else block v orelse
  | .for target iter body orelse => forLoop sb v target iter body orelse
  | .while test body orelse => whileLoop sb v test body orelse
  | .break => pure .breaking
  | .continue => pure .continuing
  | .pass => pure .normal
  | .try body hs orelse finalbody => tryStmt v body hs orelse finalbody
  | .raise value => raise v value
  | .match subject cases => do
    let subject ← v.expr subject
    firstCase v subject cases

end ScriptSandbox.Eval

import ScriptSandbox.Attribute
import ScriptSandbox.Bindings
import ScriptSandbox.Guard
import ScriptSandbox.Scopes
/-!
Evaluations: computations on the state of a run that give a value or end in an error. An error
keeps the state as it is at that moment; only what an evaluation enters on its way, scopes, calls
and handlers, is left again by whatever way it ends.
-/

namespace ScriptSandbox

/-- What a run is given: its quotas, the names that scripts can see, the host behind them, and the
clock. -/
structure Sandbox where
  limits : Limits
  bindings : Bindings
  host : Host
  clock : Clock

/-- Everything a run changes. -/
structure RunState where
  store : Store
  scopes : Scopes
  guard : Guard
  /-- The run's copies of registered values, made when they are first read. -/
  copies : List (String × Value)
  /-- The errors whose handlers are running, innermost first. -/
  handling : List Error
deriving Inhabited

/-- The state at the start of a run. -/
def RunState.start (store : Store) : RunState := ⟨store, .start, .zero, [], []⟩

abbrev Eval := EStateM Error RunState

/-- How a statement ends when it does not fail. -/
inductive Flow where
  /-- Execution goes on with the next statement. -/
  | normal
  | returning (value : Value)
  | breaking
  | continuing
deriving Inhabited

/-- How nodes inside a node are evaluated. -/
structure Visit where
  expr : Expr → Eval Value
  stmt : Stmt → Eval Flow

namespace Eval

/-- Runs a computation on the store alone. -/
def onStore {α : Type} (m : StoreM α) : Eval α := fun ⟨store, scopes, guard, copies, handling⟩ =>
  match m store with
  | .ok a store => .ok a ⟨store, scopes, guard, copies, handling⟩
  | .error e store => .error e ⟨store, scopes, guard, copies, handling⟩

/-- Runs a computation on the counters alone. -/
def onGuard {α : Type} (m : GuardM α) : Eval α := fun ⟨store, scopes, guard, copies, handling⟩ =>
  match m guard with
  | .ok a guard => .ok a ⟨store, scopes, guard, copies, handling⟩
  | .error e guard => .error e ⟨store, scopes, guard, copies, handling⟩

instance : MonadLift StoreM Eval := ⟨onStore⟩

instance : MonadLift GuardM Eval := ⟨onGuard⟩

/-- What a look at the store gives. -/
def look {α : Type} (f : Store → Except Error α) : Eval α := onStore (StoreM.look f)

def isTruthy (value : Value) : Eval Bool := do pure ((← get).store.isTruthy value)

def iterate (value : Value) : Eval Items := look (·.iterate value)

/-- Places the error of an evaluation, unless it has a place. -/
def located {α : Type} (span : Span) (m : Eval α) : Eval α := fun s =>
  match m s with
  | .ok a s => .ok a s
  | .error e s => .error (e.located span) s

/-- Turns an error into a result. -/
def attempt {α : Type} (m : Eval α) : Eval (Except Error α) := fun s =>
  match m s with
  | .ok a s => .ok (.ok a) s
  | .error e s => .ok (.error e) s

/-- Ends as an earlier evaluation did. -/
def ofExcept {α : Type} : Except Error α → Eval α
  | .ok a => pure a
  | .error e => throw e

/-- Evaluates and then changes the state, by whatever way the evaluation ends. -/
def ensuring {α : Type} (m : Eval α) (change : RunState → RunState) : Eval α := fun s =>
  match m s with
  | .ok a s => .ok a (change s)
  | .error e s => .error e (change s)

def restoreScope (previous : ScopeRef) (s : RunState) : RunState :=
  { s with scopes := s.scopes.restore previous }

/-- Evaluates in a new scope. -/
def inScope {α : Type} (kind : ScopeKind) (parent : Option ScopeRef) (m : Eval α) : Eval α := do
  let previous := (← get).scopes.current
  modify fun s => { s with scopes := s.scopes.enter kind parent }
  ensuring m (restoreScope previous)

/-- The current scope. -/
def currentScope : Eval ScopeRef := do pure (← get).scopes.current

/-- Binds a name in a scope. -/
def defineIn (scope : ScopeRef) (name : String) (value : Value) : Eval Unit :=
  modify fun s => { s with scopes := s.scopes.defineIn scope name value }

/-- Binds a name in the current scope. -/
def define (name : String) (value : Value) : Eval Unit :=
  modify fun s => { s with scopes := s.scopes.define name value }

/-- The value of a name that the host registered. A registered value is copied when it is first
read, and the copy stands for it from then on (`resolve_external`, §4.4). -/
def lookupBinding (sb : Sandbox) (name : String) : Eval Value := do
  match (← get).copies.lookup name with
  | some value => pure value
  | none =>
    match sb.bindings.resolve? name with
    | none => throw (.nameNotFound name)
    | some (.function f) => pure (.native f)
    | some (.value v) =>
      let value ← v.toValue
      modify fun s => { s with copies := (name, value) :: s.copies }
      pure value

/-- The value of a name: a variable, or else what the host registered. -/
def lookup (sb : Sandbox) (name : String) : Eval Value := do
  let scopes := (← get).scopes
  match scopes.resolve? scopes.current name with
  | some value => pure value
  | none => lookupBinding sb name

/-- A new function made in the current scope. -/
def newFunction (name : String) (doc : Option String) (code : FunctionCode) : Eval Value := do
  let id ← StoreM.newId
  pure (.function ⟨id, name, doc, code, ← currentScope⟩)

/-- Counts a round of a loop for each of `n` items. -/
def countRounds (sb : Sandbox) : Nat → Eval Unit
  | 0 => pure ()
  | n + 1 => do
    Guard.tickLoop sb.limits sb.clock
    countRounds sb n

/-- Takes items one by one, from a position on, as long as a step says to go on; the last number
says how many are left. -/
def walkFrom {α : Type} (items : Items) (step : Value → Eval (Option α)) (position : Nat) :
    Nat → Eval (Option α)
  | 0 => pure none
  | left + 1 => do
    match ← step (items.item position) with
    | some result => pure (some result)
    | none => walkFrom items step (position + 1) left

/-- Takes items one by one from the first as long as a step says to go on. -/
def walk {α : Type} (items : Items) (step : Value → Eval (Option α)) : Eval (Option α) :=
  walkFrom items step 0 items.size

/-- Folds the items from a position on; the last number says how many are left. -/
def foldFrom {α : Type} (items : Items) (step : α → Value → Eval α) (acc : α) (position : Nat) :
    Nat → Eval α
  | 0 => pure acc
  | left + 1 => do
    let acc ← step acc (items.item position)
    foldFrom items step acc (position + 1) left

/-- Folds items from the first to the last. -/
def fold {α : Type} (items : Items) (step : α → Value → Eval α) (acc : α) : Eval α :=
  foldFrom items step acc 0 items.size

/-- Executes statements in order until one does not end normally. -/
def block (v : Visit) : List Stmt → Eval Flow
  | [] => pure .normal
  | stmt :: rest => do
    match ← v.stmt stmt with
    | .normal => block v rest
    | flow => pure flow

/-- Evaluates the bounds of a slice. -/
def sliceBound (v : Visit) : Option Expr → Eval (Option Int64)
  | none => pure none
  | some bound => do
    match ← v.expr bound with
    | .null => pure none
    | value =>
      match value.toInt? with
      | some n => pure (some n)
      | none => located bound.span (throw .badSliceIndex)

def sliceBounds (v : Visit) (lower upper step : Option Expr) : Eval SliceBounds := do
  let lower ← sliceBound v lower
  let upper ← sliceBound v upper
  let step ← sliceBound v step
  pure ⟨lower, upper, step⟩

end Eval

end ScriptSandbox

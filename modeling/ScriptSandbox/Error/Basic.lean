import ScriptSandbox.Value.Basic
/-!
What can end an evaluation: the kinds of error, which of them a script may catch, and the place and
the calls that an error gathers on its way out.
-/

namespace ScriptSandbox

/-- The quotas that a run can exhaust. -/
inductive Quota where
  | steps | callDepth | loopIterations | stringLength | containerSize | timeout | powerBase | power
deriving DecidableEq, Repr

namespace Quota

/-- The configuration field that sets a quota. -/
def key : Quota → String
  | steps => "max_steps"
  | callDepth => "max_call_depth"
  | loopIterations => "max_loop_iterations"
  | stringLength => "max_string_length"
  | containerSize => "max_container_size"
  | timeout => "timeout"
  | powerBase => "max_power_base"
  | power => "max_power"

/-- A quota in words. -/
def text : Quota → String
  | steps => "evaluation step limit"
  | callDepth => "maximum recursion depth"
  | loopIterations => "loop iteration limit"
  | stringLength => "maximum string length"
  | containerSize => "maximum container size"
  | timeout => "execution timeout"
  | powerBase => "maximum power base"
  | power => "maximum exponent"

def all : List Quota :=
  [steps, callDepth, loopIterations, stringLength, containerSize, timeout, powerBase, power]

end Quota

/-- A failure that a host reports; `chained` when it wraps another one. -/
structure HostError where
  message : String
  chained : Bool
deriving DecidableEq

/-- The kinds of error (§7, and §10.4 for faults). -/
inductive ErrorKind where
  /-- A name that neither the scopes nor the host defines. -/
  | nameNotFound (name : String)
  /-- An attribute that scripts may not touch. -/
  | attributeRejected (attr : String)
  /-- An operation on values of the wrong type. -/
  | typeMismatch (message : String)
  /-- A quota that was exhausted, and its configured maximum. -/
  | limitExceeded (quota : Quota) (max : Nat)
  /-- A value that the script raised. -/
  | raised (value : Value)
  /-- A failure that belongs to the script's own state, under a name that handlers can match. -/
  | fault (name message : String)
  /-- A failure of something the host offers. -/
  | hostFailure (capability : String) (source : HostError)
  /-- A construct in the wrong place, or one that is not supported. -/
  | structural (message : String)

/-- A call that an error passed on its way out. -/
structure TraceFrame where
  name : String
  span : Span
deriving DecidableEq

/-- An error with the place of the innermost node under evaluation and the calls it passed, the one
passed last first (§10.8). -/
structure Error where
  kind : ErrorKind
  span : Option Span
  passed : List TraceFrame

namespace ErrorKind

/-- Only what models the script's own state may be caught by the script (§7, §10.4). -/
def isCatchable : ErrorKind → Bool
  | raised _ | fault .. => true
  | _ => false

/-- The name that handlers match: the type's name for a raised object, `Exception` for any other
raised value, and a fault's own name. -/
def exceptionName? : ErrorKind → Option String
  | raised (.object o) => some o.typeName
  | raised _ => some "Exception"
  | fault name _ => some name
  | _ => none

end ErrorKind

namespace Error

def ofKind (kind : ErrorKind) : Error := ⟨kind, none, []⟩

def isCatchable (e : Error) : Bool := e.kind.isCatchable

def exceptionName? (e : Error) : Option String := e.kind.exceptionName?

/-- Gives an error a place, unless it has one already or the place is the dummy one. -/
def located (e : Error) (span : Span) : Error :=
  if e.span.isNone && !span.isDummy then { e with span := some span } else e

/-- Adds a call that the error passes. -/
def withFrame (e : Error) (name : String) (span : Span) : Error :=
  { e with passed := ⟨name, span⟩ :: e.passed }

/-- The calls an error passed, innermost first. -/
def trace (e : Error) : List TraceFrame := e.passed.reverse

@[simp] theorem trace_withFrame (e : Error) (name : String) (span : Span) :
    (e.withFrame name span).trace = e.trace ++ [⟨name, span⟩] := by
  simp [trace, withFrame]

@[simp] theorem trace_located (e : Error) (span : Span) : (e.located span).trace = e.trace := by
  unfold located
  split <;> rfl

@[simp] theorem trace_ofKind (kind : ErrorKind) : (ofKind kind).trace = [] := rfl

end Error

/-- The line for a call; one without a place shows its name. -/
def TraceFrame.line (number : Nat) (frame : TraceFrame) : String :=
  "  " ++ Decimal.digitText number ++ ": " ++ frame.name ++
    (if frame.span.isDummy then "" else " called at " ++ frame.span.text) ++ "\n"

/-- One line for each call, numbered from the innermost. -/
def Error.traceText (e : Error) : String :=
  if e.trace.isEmpty then ""
  else "script traceback:\n" ++ String.join (e.trace.mapIdx TraceFrame.line)

end ScriptSandbox

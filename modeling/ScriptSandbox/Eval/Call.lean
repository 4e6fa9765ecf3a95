import ScriptSandbox.Builtin.Call
import ScriptSandbox.Eval.Basic
/-!
Calls. Arguments are bound to the parameters of a script function in a new scope inside the one the
function was made in; defaults are evaluated there by each call that needs them. Native functions
and host objects cannot be interrupted, so the deadline is checked before and after them.
-/

namespace ScriptSandbox.Eval

/-- A parameter and the argument it has received, if any. -/
structure Slot where
  param : Param
  value : Option Value

/-- Where a call's arguments went. -/
structure Arrangement where
  positional : List Slot
  keywordOnly : List Slot
  /-- Positional arguments beyond the parameters. -/
  extra : List Value
  /-- Keyword arguments without a parameter. -/
  extraKeywords : List (String × Value)
  /-- Parameters without names for callers that were named all the same. -/
  misnamed : List String

namespace Arrangement

/-- Positional arguments fill the positional parameters in order. -/
def ofPositional (params : Parameters) (args : List Value) : Arrangement where
  positional :=
    params.positional.zipIdx.map fun (param, i) => ⟨param, args[i]?⟩
  keywordOnly := params.kwonly.map fun param => ⟨param, none⟩
  extra := args.drop params.positional.length
  extraKeywords := []
  misnamed := []

def indexOf? (slots : List Slot) (name : String) : Option Nat :=
  slots.findIdx? fun slot => slot.param.name == name

/-- Fills the slot at an index, which must be free. -/
def fill (func name : String) (value : Value) (slots : List Slot) (i : Nat) :
    Except Error (List Slot) :=
  if slots[i]?.any (·.value.isSome) then .error (.repeatedArgument func name)
  else .ok (slots.modify i fun slot => { slot with value := some value })

/-- Gives a keyword argument to the parameter of its name, or else to the keyword rest. -/
def addKeyword (func : String) (params : Parameters) (a : Arrangement) (name : String)
    (value : Value) : Except Error Arrangement :=
  match (indexOf? a.positional name).filter (params.posonly.length ≤ ·) with
  | some i => do
    let positional ← fill func name value a.positional i
    .ok { a with positional }
  | none =>
    match indexOf? a.keywordOnly name with
    | some i => do
      let keywordOnly ← fill func name value a.keywordOnly i
      .ok { a with keywordOnly }
    | none =>
      if params.kwarg.isSome then
        .ok { a with extraKeywords := a.extraKeywords ++ [(name, value)] }
      else if params.posonly.any (·.name == name) then
        .ok { a with misnamed := a.misnamed ++ [name] }
      else .error (.unexpectedKeyword func name)

/-- Arranges all arguments of a call. -/
def ofArguments (func : String) (params : Parameters) (args : Arguments) :
    Except Error Arrangement := do
  let start := ofPositional params args.positional
  if !start.extra.isEmpty && params.vararg.isNone then
    throw (.tooManyPositional func params.positional.length args.positional.length)
  let a ← args.keywords.foldlM (fun a (name, value) => a.addKeyword func params name value) start
  if a.misnamed.isEmpty then pure a else throw (.positionalOnlyAsKeyword func a.misnamed)

end Arrangement

/-- Binds the parameters that received an argument. -/
def defineSupplied : List Slot → Eval Unit
  | [] => pure ()
  | ⟨param, some value⟩ :: rest => do
    define param.name value
    defineSupplied rest
  | _ :: rest => defineSupplied rest

variable (sb : Sandbox) (v : Visit)

/-- Binds the other parameters to their defaults; those without a default are returned. -/
def defineDefaults (missing : List String) : List Slot → Eval (List String)
  | [] => pure missing
  | ⟨_, some _⟩ :: rest => defineDefaults missing rest
  | ⟨⟨name, some default⟩, none⟩ :: rest => do
    let value ← v.expr default
    define name value
    defineDefaults missing rest
  | ⟨⟨name, none⟩, none⟩ :: rest => defineDefaults (missing ++ [name]) rest

/-- Binds the defaults of one kind of parameters and refuses those still missing. -/
def completeSlots (func kind : String) (slots : List Slot) : Eval Unit := do
  let missing ← defineDefaults v [] slots
  if !missing.isEmpty then throw (.missingArguments func kind missing)

/-- Binds the positional rest, if a parameter takes it. -/
def defineExtra (params : Parameters) (a : Arrangement) : Eval Unit :=
  match params.vararg with
  | none => pure ()
  | some name => do
    sb.limits.size.checkContainer a.extra.length
    let extra ← StoreM.newTuple a.extra.toArray
    define name extra

/-- Binds the keyword rest, if a parameter takes it. -/
def defineExtraKeywords (params : Parameters) (a : Arrangement) : Eval Unit :=
  match params.kwarg with
  | none => pure ()
  | some name => do
    let d ← (Dict.ofPairs (a.extraKeywords.map fun (name, value) => (.str name, value)) :
      Except Error Dict)
    let extra ← StoreM.newDict d
    define name extra

/-- Binds a call's arguments in the current scope: what was supplied first, so that defaults can
refer to it, then defaults, then the rests (§10.3). -/
def bindArguments (func : String) (params : Parameters) (args : Arguments) : Eval Unit := do
  let a ← Arrangement.ofArguments func params args
  defineSupplied a.positional
  defineSupplied a.keywordOnly
  completeSlots v func "positional" a.positional
  completeSlots v func "keyword-only" a.keywordOnly
  defineExtra sb params a
  defineExtraKeywords params a

/-- Runs a function's code on bound arguments. -/
def runCode : FunctionCode → Eval Value
  | .lambda l => v.expr l.body
  | .definition d => do
    match ← block v d.body with
    | .returning value => pure value
    | .normal => pure .null
    -- a signal that no loop of the body has used up
    | _ => throw .loopControlOutsideLoop

/-- Adds a call to the trace of an error. -/
def traced {α : Type} (name : String) (span : Span) (m : Eval α) : Eval α := fun s =>
  match m s with
  | .ok a s => .ok a s
  | .error e s => .error (e.withFrame name span) s

def leaveCall (s : RunState) : RunState := { s with guard := s.guard.exitCall }

/-- Calls a script function in a new scope inside its own (§3); `span` is the place of the call. -/
def callFunction (f : Closure) (args : Arguments) (span : Span) : Eval Value := do
  Guard.enterCall sb.limits sb.clock
  traced f.name span <| ensuring (inScope .function f.scope do
    bindArguments sb v f.name f.code.params args
    runCode v f.code) leaveCall

/-- Calls something that cannot be interrupted (§4.3). -/
def callNative (m : CallContext → StoreM Value) : Eval Value := do
  let number ← Guard.enterNative sb.limits sb.clock
  let value ← m (.ofCall sb.limits sb.clock number)
  Guard.checkDeadline sb.limits sb.clock (.behind number)
  pure value

/-- Calls a value. -/
def callValue (callee : Value) (args : Arguments) (span : Span) : Eval Value :=
  match callee with
  | .function f => callFunction sb v f args span
  | .native f =>
    callNative sb fun ctx =>
      match f.id with
      | .builtin b => b.call ctx args
      | .host _ => sb.host.callFunction f ctx args
  -- methods work on values alone, so the deadline is not checked for them
  | .method _ receiver name => Method.call sb.limits.size receiver name args
  | .object o => callNative sb fun ctx => sb.host.callObject o ctx args
  | other => throw (.notCallable other)

end ScriptSandbox.Eval

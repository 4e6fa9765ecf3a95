import ScriptSandbox.Error.Cause
/-!
The arguments of a call, and what native functions ask of them: how many there are, which keyword
arguments are known, and of what type they are.
-/

namespace ScriptSandbox

/-- Positional arguments, and keyword arguments in the order of the call. -/
structure Arguments where
  positional : List Value
  keywords : List (String × Value)
deriving Inhabited

namespace Arguments

/-- A call with positional arguments alone. -/
def ofList (positional : List Value) : Arguments := ⟨positional, []⟩

/-- Refuses a number of positional arguments outside the bounds; `atMost` is absent when there is no
upper bound. -/
def expect (args : Arguments) (func : String) (atLeast : Nat) (atMost : Option Nat) :
    Except Error Unit :=
  let given := args.positional.length
  if atLeast ≤ given ∧ atMost.all (given ≤ ·) then .ok ()
  else .error (.wrongArity func given atLeast atMost)

/-- Refuses keyword arguments, the first one by name. -/
def expectNoKeywords (args : Arguments) (func : String) : Except Error Unit :=
  match args.keywords with
  | [] => .ok ()
  | (name, _) :: _ => .error (.invalidKeyword func name)

/-- Refuses keyword arguments and a wrong number of positional ones. -/
def expectPositional (args : Arguments) (func : String) (atLeast : Nat) (atMost : Option Nat) :
    Except Error Unit := do
  args.expectNoKeywords func
  args.expect func atLeast atMost

/-- The first keyword argument of a name, and the arguments without it. -/
def takeKeyword (args : Arguments) (name : String) : Option Value × Arguments :=
  (args.keywords.lookup name,
    { args with keywords := args.keywords.eraseP fun keyword => keyword.1 == name })

/-- The positional argument at `position` or else a keyword argument, and the arguments without
it. -/
def takeAt (args : Arguments) (position : Nat) (name : String) : Option Value × Arguments :=
  match args.positional[position]? with
  | some value => (some value, { args with positional := args.positional.eraseIdx position })
  | none => args.takeKeyword name

/-- An argument that has to be an integer. -/
def intOf (func : String) (value : Value) : Except Error Int64 :=
  match value.toInt? with
  | some n => .ok n
  | none => .error (.notAnInteger func value)

/-- An argument that has to be a string. -/
def strOf (func : String) (value : Value) : Except Error String :=
  match value.toStr? with
  | some text => .ok text
  | none => .error (.notAString func value)

end Arguments

end ScriptSandbox

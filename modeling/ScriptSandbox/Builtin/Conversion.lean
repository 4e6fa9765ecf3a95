import ScriptSandbox.Arguments
import ScriptSandbox.CallContext
import ScriptSandbox.Decimal.Reading
import ScriptSandbox.Text.CharClass
import ScriptSandbox.Value.Items
import ScriptSandbox.Value.Render
import ScriptSandbox.Value.Equality
/-!
The functions that make a value of a type from another value, and those that round numbers.
-/

namespace ScriptSandbox.Builtin

/-- The items of an iterable within the quota. A range that is too long is refused unwalked. -/
def collect (limits : SizeLimits) (s : Store) (source : Value) : Except Error (Array Value) := do
  limits.checkIterable source
  let items := (← s.iterate source).toArray
  limits.checkContainer items.size
  pure items

/-- A double cut to an integer. -/
def cutToInt (x : Binary64) : Except Error Value :=
  if x.isNaN then .error .nanToInteger
  else if x.isInfinite then .error (.overflow "float to integer conversion")
  else
    match Integer.fit? x.truncate with
    | some n => .ok (.int n)
    | none => .error (.overflow "float to integer conversion")

/-- The integer that a text spells: a sign and digits between blanks, with underscores anywhere
among them. -/
def spelledInt? (text : String) : Option Int64 :=
  (Decimal.readInt? ((Text.trim text.toList).filter (· ≠ '_'))).bind Integer.fit?

def toInt (s : Store) (value : Value) : Except Error Value :=
  match value with
  | .float x => cutToInt x
  | .str text =>
    match spelledInt? text with
    | some n => .ok (.int n)
    | none => .error (.badIntLiteral (s.shownRepr value))
  | value =>
    match value.toInt? with
    | some n => .ok (.int n)
    | none => .error (.notANumber "int" value)

def toFloat (s : Store) (value : Value) : Except Error Value :=
  match value with
  | .str text =>
    match Decimal.readFloat? (Text.trim text.toList) with
    | some x => .ok (.float x)
    | none => .error (.badFloatLiteral (s.shownRepr value))
  | value =>
    match value.toNumber? with
    | some number => .ok (.float number.toBinary64)
    | none => .error (.notANumber "float" value)

def callInt (s : Store) (args : Arguments) : Except Error Value := do
  args.expectPositional "int" 0 (some 1)
  match args.positional.head? with
  | none => pure (.int 0)
  | some value => toInt s value

def callFloat (s : Store) (args : Arguments) : Except Error Value := do
  args.expectPositional "float" 0 (some 1)
  match args.positional.head? with
  | none => pure (.float .zero)
  | some value => toFloat s value

/-- A string stands for itself, whatever its length; other texts have to fit the quota. -/
def callStr (limits : SizeLimits) (s : Store) (args : Arguments) : Except Error Value := do
  args.expectPositional "str" 0 (some 1)
  match args.positional.head? with
  | none => pure (.str "")
  | some (.str text) => pure (.str text)
  | some value => (s.text limits.maxStringLength value).map .str

def callBool (s : Store) (args : Arguments) : Except Error Value := do
  args.expectPositional "bool" 0 (some 1)
  pure (.bool (args.positional.head?.any s.isTruthy))

/-- The items of an optional argument. -/
def collectOptional (func : String) (limits : SizeLimits) (s : Store) (args : Arguments) :
    Except Error (Array Value) := do
  args.expectPositional func 0 (some 1)
  match args.positional.head? with
  | none => pure #[]
  | some source => collect limits s source

def callList (limits : SizeLimits) (args : Arguments) : StoreM Value := do
  let items ← StoreM.look (collectOptional "list" limits · args)
  StoreM.newList items

/-- A tuple stands for itself. -/
def callTuple (limits : SizeLimits) (args : Arguments) : StoreM Value := do
  args.expectPositional "tuple" 0 (some 1)
  match args.positional with
  | [.tuple id items] => pure (.tuple id items)
  | _ =>
    let items ← StoreM.look (collectOptional "tuple" limits · args)
    StoreM.newTuple items

def callSet (limits : SizeLimits) (args : Arguments) : StoreM Value := do
  let items ← StoreM.look (collectOptional "set" limits · args)
  StoreM.newSet (← KeySet.ofList items.toList)

/-- A dict of the pairs in an optional argument and of the keyword arguments. -/
def callDict (limits : SizeLimits) (args : Arguments) : StoreM Value := do
  args.expect "dict" 0 (some 1)
  let entries ←
    match args.positional.head? with
    | none => pure []
    | some source => StoreM.look (·.pairs source)
  let d ← Dict.ofPairs entries
  let d ← d.insertAll (args.keywords.map fun (name, value) => (.str name, value))
  limits.checkContainer d.size
  StoreM.newDict d

def callAbs (args : Arguments) : Except Error Value := do
  args.expectPositional "abs" 1 (some 1)
  match args.positional.headD .null with
  | .float x => pure (.float x.abs)
  | value =>
    match value.toInt? with
    | none => throw (.badAbsOperand value)
    | some n =>
      match Integer.abs? n with
      | some n => pure (.int n)
      | none => throw (.overflow "abs")

/-- The exponent of the scale for a number of places. Powers of ten beyond the 308th are not
doubles. -/
def scaleExponent (places : Int64) : Int :=
  if places < -308 then -308 else if 308 < places then 308 else places.toInt

/-- A double rounded to `places` decimal places: it is scaled, rounded to an integer and scaled
back, and stays as it is where that leaves the range of doubles. -/
def roundFloat (x : Binary64) (places : Int64) : Binary64 :=
  let scale := Binary64.ten.powInt (scaleExponent places)
  let rounded := (x.mul scale).roundHalfEven.div scale
  if rounded.isFinite then rounded else x

/-- Rounds a number, to an integer or to a given number of places. Integers change only where the
places lie before the point. -/
def roundValue (value : Value) (places : Option Int64) : Except Error Value :=
  match value, places with
  | .float x, none => cutToInt x.roundHalfEven
  | .float x, some places => .ok (.float (roundFloat x places))
  | value, places =>
    match value.toInt?, places with
    | none, _ => .error (.notRoundable value)
    | some n, none => .ok (.int n)
    | some n, some places =>
      if places < 0 then
        match Integer.roundAt? n (-places.toInt).toNat with
        | some n => .ok (.int n)
        | none => .error (.overflow "round")
      else .ok (.int n)

def callRound (args : Arguments) : Except Error Value := do
  args.expect "round" 1 (some 2)
  let (places, args) := args.takeAt 1 "ndigits"
  args.expectNoKeywords "round"
  let places ←
    match places.getD .null with
    | .null => pure none
    | places => (Arguments.intOf "round" places).map some
  roundValue (args.positional.headD .null) places

end ScriptSandbox.Builtin

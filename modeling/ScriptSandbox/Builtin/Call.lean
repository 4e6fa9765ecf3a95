import ScriptSandbox.Builtin.Sequence
/-!
Calling the functions that every host can offer.
-/

namespace ScriptSandbox.Builtin

/-- A text argument that may be missing or null. -/
def textOr (func default : String) : Option Value → Except Error String
  | none | some .null => .ok default
  | some (.str text) => .ok text
  | some value => .error (.badSeparator func value)

/-- The texts of values with a separator between each two, behind the line so far. Each text has to
fit what the quota leaves. -/
def lineFrom (limits : SizeLimits) (s : Store) (separator line : String) :
    List Value → Except Error String
  | [] => .ok line
  | value :: rest => do
    let text ← s.text (limits.maxStringLength - line.utf8ByteSize) value
    let line := line ++ text
    limits.checkString line.utf8ByteSize
    lineFrom limits s separator (if rest.isEmpty then line else line ++ separator) rest

def callPrint (limits : SizeLimits) (args : Arguments) : StoreM Value := do
  let (separator, args) := args.takeKeyword "sep"
  let separator ← textOr "print" " " separator
  let (ending, args) := args.takeKeyword "end"
  let ending ← textOr "print" "\n" ending
  args.expectNoKeywords "print"
  let line ← StoreM.look (lineFrom limits · separator "" args.positional)
  modify fun s => { s with output := s.output.write (line ++ ending) }
  pure .null

def callTypeof (args : Arguments) : Except Error Value := do
  args.expectPositional "typeof" 1 (some 1)
  pure (.str (args.positional.headD .null).typeName)

/-- Calls a function of the preset. -/
def call (b : Builtin) (ctx : CallContext) (args : Arguments) : StoreM Value :=
  match b with
  | int => StoreM.look (callInt · args)
  | float => StoreM.look (callFloat · args)
  | str => StoreM.look (callStr ctx.limits · args)
  | bool => StoreM.look (callBool · args)
  | list => callList ctx.limits args
  | tuple => callTuple ctx.limits args
  | dict => callDict ctx.limits args
  | set => callSet ctx.limits args
  | len => StoreM.look (callLen · args)
  | range => callRange args
  | abs => callAbs args
  | min => StoreM.look (callExtremum "min" .lt ctx.limits · args)
  | max => StoreM.look (callExtremum "max" .gt ctx.limits · args)
  | sum => callSum ctx args
  | sorted => callSorted ctx.limits args
  | enumerate => callEnumerate ctx.limits args
  | zip => callZip ctx.limits args
  | round => callRound args
  | any => StoreM.look (callQuantifier "any" true ctx · args)
  | all => StoreM.look (callQuantifier "all" false ctx · args)
  | print => callPrint ctx.limits args
  | typeof => callTypeof args

end ScriptSandbox.Builtin

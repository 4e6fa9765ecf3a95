import ScriptSandbox.Arguments
import ScriptSandbox.Decimal.Reading
import ScriptSandbox.Limits
import ScriptSandbox.Text.Casing
import ScriptSandbox.Text.Search
import ScriptSandbox.Value.Items
/-!
The methods of strings. Positions and widths count characters; quotas count bytes.
-/

namespace ScriptSandbox

/-- The methods of strings. -/
inductive TextMethod where
  | upper | lower | strip | lstrip | rstrip | split | join | startswith | endswith | replace
  | find | count | title | capitalize | isdigit | isalpha | zfill
deriving DecidableEq

namespace TextMethod

def name : TextMethod → String
  | upper => "upper" | lower => "lower" | strip => "strip" | lstrip => "lstrip"
  | rstrip => "rstrip" | split => "split" | join => "join" | startswith => "startswith"
  | endswith => "endswith" | replace => "replace" | find => "find" | count => "count"
  | title => "title" | capitalize => "capitalize" | isdigit => "isdigit"
  | isalpha => "isalpha" | zfill => "zfill"

def all : List TextMethod :=
  [upper, lower, strip, lstrip, rstrip, split, join, startswith, endswith, replace, find, count,
   title, capitalize, isdigit, isalpha, zfill]

/-- The method as argument errors name it. -/
def qualifiedName (m : TextMethod) : String := "str." ++ m.name

/-- A text within the quota. -/
def checked (limits : SizeLimits) (text : List Char) : Except Error Value := do
  let text := String.ofList text
  limits.checkString text.utf8ByteSize
  .ok (.str text)

/-- How many cuts or replacements a count allows; a negative count allows all. -/
def limitOf (count : Int64) : Option Nat :=
  if count < 0 then none else some count.toInt.toNat

/-- The parts between the occurrences of a separator. -/
def splitAt (separator text : String) (limit : Option Nat) : Except Error (List String) :=
  if h : separator = "" then .error .emptySeparator
  else .ok ((Text.splitOn separator h limit text).map String.Slice.copy)

/-- Splits at a separator or, without one, into words. Both arguments can be given by keyword. -/
def runSplit (limits : SizeLimits) (text : String) (args : Arguments) :
    Except Error (List Value) := do
  let func := split.qualifiedName
  args.expect func 0 (some 2)
  let (separator, args) := args.takeAt 0 "sep"
  let (given, args) := args.takeAt 0 "maxsplit"
  let limit ←
    match given with
    | none => pure none
    | some given => (Arguments.intOf func given).map limitOf
  args.expectNoKeywords func
  let parts ←
    match separator.getD .null with
    | .null => pure (Text.words limit text)
    | separator => splitAt (← Arguments.strOf func separator) text limit
  limits.checkContainer parts.length
  pure (parts.map .str)

/-- The characters to strip: blanks, or those of a given text. -/
def strippable (func : String) : Value → Except Error (Char → Bool)
  | .null => .ok Text.isBlank
  | chars => (Arguments.strOf func chars).map fun chars c => chars.contains c

/-- Strips characters at the ends that the method is for. -/
def stripEnds (m : TextMethod) (p : Char → Bool) (text : String) : String :=
  match m with
  | lstrip => (text.dropWhile p).copy
  | rstrip => (text.dropEndWhile p).copy
  | _ => ((text.dropWhile p).dropEndWhile p).copy

/-- Whether one of some texts stands at the end that a method looks at; candidates behind the first
that does need not be texts. -/
def anyAffix (func : String) (stands : String → Bool) : List Value → Except Error Bool
  | [] => .ok false
  | candidate :: rest => do
    let affix ← Arguments.strOf func candidate
    if stands affix then .ok true else anyAffix func stands rest

/-- The candidates for an affix: the items of a tuple, or one value. -/
def candidates : Value → List Value
  | .tuple _ items => items.toList
  | value => [value]

/-- How many occurrences are replaced. -/
def replacements (text old : String) (limit : Option Nat) : Nat :=
  let found := Text.count old text
  (limit.map (min found ·)).getD found

/-- The bytes of a text in which a number of occurrences are replaced. -/
def replacedBytes (text old new : String) (hits : Nat) : Nat :=
  text.utf8ByteSize - hits * old.utf8ByteSize + hits * new.utf8ByteSize

/-- The result is measured before it is built. -/
def runReplace (limits : SizeLimits) (text old new : String) (limit : Option Nat) :
    Except Error Value := do
  let hits := replacements text old limit
  limits.checkString (replacedBytes text old new hits)
  .ok (.str (Text.replace old new (limit.map fun _ => hits) text))

/-- The texts among items that have to be texts. -/
def textsFrom (position : Nat) (found : List String) : List Value → Except Error (List String)
  | [] => .ok found.reverse
  | .str text :: rest => textsFrom (position + 1) (text :: found) rest
  | item :: _ => .error (.joinNeedsStrings position item)

/-- Joins texts with a separator between each two. The result is measured before it is built. -/
def runJoin (limits : SizeLimits) (separator : String) (items : Items) : Except Error Value := do
  let parts ← textsFrom 0 [] items.toList
  let length := parts.foldl (fun sum part => sum + part.utf8ByteSize)
    (separator.utf8ByteSize * (parts.length - 1))
  limits.checkString length
  .ok (.str (String.intercalate separator parts))

/-- Fills with zeros up to a width, behind a sign if there is one. -/
def runZfill (limits : SizeLimits) (text : String) (width : Int64) : Except Error Value := do
  let missing := width.toInt.toNat - text.length
  if missing = 0 then .ok (.str text)
  else
    limits.checkString (text.utf8ByteSize + missing)
    let zeros := Decimal.zeros missing
    match text.toList with
    | '+' :: digits => .ok (.str ("+" ++ zeros ++ String.ofList digits))
    | '-' :: digits => .ok (.str ("-" ++ zeros ++ String.ofList digits))
    | digits => .ok (.str (zeros ++ String.ofList digits))

/-- The least and the greatest number of positional arguments. -/
def arity : TextMethod → Nat × Nat
  | upper | lower | title | capitalize | isdigit | isalpha => (0, 0)
  | strip | lstrip | rstrip => (0, 1)
  | split => (0, 2)
  | join | startswith | endswith | find | count | zfill => (1, 1)
  | replace => (2, 3)

/-- Runs a method that gives no container on positional arguments, which have to be as many as it
takes. -/
def run (m : TextMethod) (limits : SizeLimits) (s : Store) (text : String) (args : List Value) :
    Except Error Value := do
  let func := m.qualifiedName
  match m, args with
  | upper, [] => checked limits (Text.upperText text.toList)
  | lower, [] => checked limits (Text.lowerText text.toList)
  | title, [] => checked limits (Text.titleText text.toList)
  | capitalize, [] => checked limits (Text.capitalizeText text.toList)
  | isdigit, [] => .ok (.bool (!text.isEmpty && text.all Decimal.isDigit))
  | isalpha, [] => .ok (.bool (!text.isEmpty && text.all Text.isAlphabetic))
  | strip, [] | lstrip, [] | rstrip, [] => .ok (.str (stripEnds m Text.isBlank text))
  | strip, [set] | lstrip, [set] | rstrip, [set] =>
    let p ← strippable func set
    .ok (.str (stripEnds m p text))
  | join, [source] =>
    limits.checkIterable source
    runJoin limits text (← s.iterate source)
  | startswith, [affix] =>
    (anyAffix func (fun start => text.startsWith start) (candidates affix)).map .bool
  | endswith, [affix] =>
    (anyAffix func (fun ending => text.endsWith ending) (candidates affix)).map .bool
  | replace, [old, new] =>
    let old ← Arguments.strOf func old
    runReplace limits text old (← Arguments.strOf func new) none
  | replace, [old, new, most] =>
    let old ← Arguments.strOf func old
    let new ← Arguments.strOf func new
    runReplace limits text old new (limitOf (← Arguments.intOf func most))
  | find, [needle] =>
    let needle ← Arguments.strOf func needle
    match Text.find? needle text with
    | some position => .ok (.int (Int64.ofNat position))
    | none => .ok (.int (-1))
  | count, [needle] =>
    let needle ← Arguments.strOf func needle
    .ok (.int (Int64.ofNat (Text.count needle text)))
  | zfill, [width] => runZfill limits text (← Arguments.intOf func width)
  | m, args => .error (.wrongArity func args.length m.arity.1 (some m.arity.2))

def call (m : TextMethod) (limits : SizeLimits) (text : String) (args : Arguments) :
    StoreM Value := do
  if m = split then
    let parts ← runSplit limits text args
    StoreM.newList parts.toArray
  else
    args.expectNoKeywords m.qualifiedName
    StoreM.look (m.run limits · text args.positional)

end TextMethod

end ScriptSandbox

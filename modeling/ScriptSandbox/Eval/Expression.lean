import ScriptSandbox.Eval.Call
import ScriptSandbox.Eval.Comprehension
import ScriptSandbox.FormatSpec.Render
import ScriptSandbox.Operator.Comparison
import ScriptSandbox.Operator.Unary
/-!
Expressions: each kind of node in terms of how its parts are evaluated. Operands are evaluated from
left to right, and none that is not needed.
-/

namespace ScriptSandbox.Eval

variable (sb : Sandbox) (v : Visit)

/-- `and` and `or`: the value of the operand that decides. -/
def boolOp (op : BoolOp) : List Expr → Eval Value
  | [] => throw .noOperands
  | [last] => v.expr last
  | operand :: rest => do
    let value ← v.expr operand
    let truth ← isTruthy value
    match op, truth with
    | .and, false | .or, true => pure value
    | _, _ => boolOp op rest

/-- A chain of comparisons, which ends with the first link that does not hold. -/
def compareChain (left : Value) : List (CompareOp × Expr) → Eval Value
  | [] => pure (.bool true)
  | (op, comparator) :: rest => do
    let right ← v.expr comparator
    if ← look (Operator.compare · op left right) then compareChain right rest
    else pure (.bool false)

/-- Evaluates the elements of a display or of a call behind those evaluated already, and spreads
those that are starred. -/
def elements (items : Array Value) : List Expr → Eval (Array Value)
  | [] => pure items
  | ⟨.starred source, span⟩ :: rest => do
    let source ← v.expr source
    let more ← located span (iterate source)
    countRounds sb more.size
    let items := items ++ more.toArray
    sb.limits.size.checkContainer items.size
    elements items rest
  | element :: rest => do
    let value ← v.expr element
    let items := items.push value
    sb.limits.size.checkContainer items.size
    elements items rest

/-- Adds a keyword argument; those before it are held last first. -/
def addKeyword (found : List (String × Value)) (name : String) (value : Value) :
    Except Error (List (String × Value)) :=
  if found.any (·.1 == name) then .error (.repeatedKeyword name)
  else .ok ((name, value) :: found)

/-- Adds the entries of a mapping, whose keys have to be texts. -/
def addKeywords (found : List (String × Value)) : List (Value × Value) →
    Except Error (List (String × Value))
  | [] => .ok found
  | (.str name, value) :: rest =>
    match addKeyword found name value with
    | .ok found => addKeywords found rest
    | .error e => .error e
  | _ => .error .keywordNotString

/-- Evaluates keyword arguments behind those evaluated already, which are held last first. -/
def keywords (found : List (String × Value)) : List Keyword → Eval (List (String × Value))
  | [] => pure found.reverse
  | ⟨some name, expr⟩ :: rest => do
    let value ← v.expr expr
    let found ← (addKeyword found name value : Except Error (List (String × Value)))
    keywords found rest
  | ⟨none, expr⟩ :: rest => do
    match ← v.expr expr with
    | .dict r =>
      let found ← look fun s => addKeywords found (s.dict r).toList
      keywords found rest
    | value => located expr.span (throw (.spreadNotMapping value))

/-- Evaluates a call; `span` is its place. -/
def call (span : Span) (callee : Expr) (args : List Expr) (named : List Keyword) :
    Eval Value := do
  let callee ← v.expr callee
  let positional ← elements sb v #[] args
  let named ← keywords v [] named
  callValue sb v callee ⟨positional.toList, named⟩ span

/-- Evaluates the entries of a dict display; an entry without a key spreads a mapping. -/
def entries (d : Dict) : List (Option Expr × Expr) → Eval Dict
  | [] => pure d
  | (some key, value) :: rest => do
    let key ← v.expr key
    let value ← v.expr value
    let d ← (d.insert key value : Except Error Dict)
    sb.limits.size.checkContainer d.size
    entries d rest
  | (none, source) :: rest => do
    match ← v.expr source with
    | .dict r =>
      let d ← look fun s => d.insertAll (s.dict r).toList
      sb.limits.size.checkContainer d.size
      entries d rest
    | value => throw (.notMapping value)

/-- Reads an item or a slice of a container. -/
def subscript (container slice : Expr) : Eval Value := do
  let container ← v.expr container
  match slice.kind with
  | .slice lower upper step =>
    let bounds ← sliceBounds v lower upper step
    Subscript.getSlice container bounds
  | _ =>
    let index ← v.expr slice
    Subscript.getItem sb.host container index

/-- Joins texts and the texts of other values, each within what the quota leaves. -/
def joinedStr (text : String) : List Expr → Eval Value
  | [] => pure (.str text)
  | part :: rest => do
    let next ←
      match ← v.expr part with
      | .str next => pure next
      | value => look (·.text (sb.limits.size.maxStringLength - text.utf8ByteSize) value)
    let text := text ++ next
    sb.limits.size.checkString text.utf8ByteSize
    joinedStr text rest

/-- A value converted to text as a replacement field asks. -/
def convert (limits : SizeLimits) (s : Store) (value : Value) : Option Char → Except Error Value
  | none => .ok value
  | some 's' => (s.text limits.maxStringLength value).map .str
  | some 'r' => (s.repr limits.maxStringLength value).map .str
  | some 'a' => (s.repr limits.maxStringLength value).map fun text =>
      .str (Text.Quoted.asciiText text)
  | some conversion => .error (.unknownConversion conversion)

/-- The text of a format specification, empty where there is none. -/
def formatSpec : Option Expr → Eval String
  | none => pure ""
  | some spec => do
    match ← v.expr spec with
    | .str text => pure text
    | value => throw (.specNotString value)

/-- A replacement field: convert, then format. -/
def formattedValue (value : Expr) (conversion : Option Char) (spec : Option Expr) :
    Eval Value := do
  let value ← v.expr value
  let value ← look (convert sb.limits.size · value conversion)
  let spec ← formatSpec v spec
  let text ← look (FormatSpec.format sb.limits.size · value spec)
  sb.limits.size.checkString text.utf8ByteSize
  pure (.str text)

/-- The name of functions that have none. -/
def lambdaName : String := "<lambda>"

/-- Evaluates a node; `span` is its place. -/
def exprKind (span : Span) : ExprKind → Eval Value
  | .constant c => pure (.ofConstant c)
  | .name name => lookup sb name
  | .binOp left op right => do
    let left ← v.expr left
    let right ← v.expr right
    Operator.binary sb.limits.size op left right
  | .unaryOp op operand => do
    let operand ← v.expr operand
    look (Operator.unary · op operand)
  | .boolOp op operands => boolOp v op operands
  | .compare left ops comparators => do
    let left ← v.expr left
    compareChain v left (ops.zip comparators)
  | .ifExp test body orelse => do
    let test ← v.expr test
    if ← isTruthy test then v.expr body else v.expr orelse
  | .call callee args named => call sb v span callee args named
  | .attribute receiver attr => do
    let receiver ← v.expr receiver
    Attribute.read sb.host sb.limits.attributePolicy receiver attr
  | .subscript container slice => subscript sb v container slice
  | .slice .. => throw .sliceOutsideSubscript
  | .list parts => do
    let items ← elements sb v #[] parts
    StoreM.newList items
  | .tuple parts => do
    let items ← elements sb v #[] parts
    StoreM.newTuple items
  | .set parts => do
    let items ← elements sb v #[] parts
    let set ← (KeySet.ofList items.toList : Except Error KeySet)
    StoreM.newSet set
  | .dict keys values => do
    let d ← entries sb v .empty (keys.zip values)
    StoreM.newDict d
  | .starred _ => throw .misplacedStar
  | .listComp element clauses | .generatorExp element clauses =>
    comprehend sb v (collectElement v element) (.list #[]) clauses
  | .setComp element clauses => comprehend sb v (collectElement v element) (.set .empty) clauses
  | .dictComp key value clauses =>
    comprehend sb v (collectEntry v key value) (.dict .empty) clauses
  | .lambda params body => newFunction lambdaName none (.lambda ⟨params, body⟩)
  | .namedExpr name value => do
    let value ← v.expr value
    let scopes := (← get).scopes
    defineIn (scopes.frame scopes.current) name value
    pure value
  | .joinedStr parts => joinedStr sb v "" parts
  | .formattedValue value conversion spec => formattedValue sb v value conversion spec

end ScriptSandbox.Eval

import ScriptSandbox.Integer
import ScriptSandbox.Syntax.Encode
/-!
Reading syntax trees from documents. Members may come in any order and unknown ones are ignored; a
missing optional part is absent, a missing place is the dummy place, and missing parameters are
none. A record may also be given as the list of its members in order; the parts of a kind of node are
always named. Anything else that is missing or of the wrong kind makes the document no tree.

Whoever reads documents of unknown origin sets a limit on how deep they nest. The readers are told how
many levels of lists and records they may still enter, and a document that takes more of them is no tree
to them. Members that are ignored are not entered.
-/

namespace ScriptSandbox

namespace Syntax

/-- The parts of a kind of node in the order of their names, and the levels that are left for them. -/
def parts? (names : List String) : Nat → Json → Option (Nat × List (Option Json))
  | levels + 1, .object members => some (levels, names.map (Json.member? members))
  | _, _ => none

/-- The members of a record in the order of their names, and the levels that are left for them. -/
def fields? (names : List String) : Nat → Json → Option (Nat × List (Option Json))
  | levels + 1, .array items =>
    if items.length ≤ names.length then
      some (levels, items.map some ++ List.replicate (names.length - items.length) none)
    else none
  | levels, json => parts? names levels json

/-- A part that must be there. -/
def required {α : Type} (read : Json → Option α) : Option Json → Option α
  | none => none
  | some json => read json

/-- A part that may be missing or null. -/
def optional {α : Type} (read : Json → Option α) : Option Json → Option (Option α)
  | none | some .null => some none
  | some json => (read json).map some

/-- A part that has a default when it is missing. -/
def defaulted {α : Type} (default : α) (read : Json → Option α) : Option Json → Option α
  | none => some default
  | some json => read json

def list? {α : Type} (read : Nat → Json → Option α) : Nat → Json → Option (List α)
  | levels + 1, .array items => items.mapM (read levels)
  | _, _ => none

/-- A value or null. -/
def nullable {α : Type} (read : Nat → Json → Option α) : Nat → Json → Option (Option α)
  | _, .null => some none
  | levels, json => (read levels json).map some

/-- The levels that are left for the parts of a kind, its name, and its parts if it has any. -/
def variant? : Nat → Json → Option (Nat × String × Option Json)
  | levels, .string tag => some (levels, tag, none)
  | levels + 1, .object [(tag, parts)] => some (levels, tag, some parts)
  | _, _ => none

/-- The kind without parts of a given name. -/
def bare? {α : Type} (value : α) : Option Json → Option α
  | none | some .null => some value
  | _ => none

/-- One of a list of kinds without parts, chosen by its name. -/
def named? {α : Type} (tag : α → String) (all : List α) (levels : Nat) (json : Json) : Option α := do
  let (_, name, parts) ← variant? levels json
  let value ← all.find? fun a => tag a == name
  bare? value parts

def int64? (json : Json) : Option Int64 :=
  json.toInt?.bind Integer.fit?

def uint32? (json : Json) : Option UInt32 := (json.toNat? 0x100000000).map UInt32.ofNat

def char? (json : Json) : Option Char :=
  json.toString?.bind fun s =>
    match s.toList with
    | [c] => some c
    | _ => none

def span? (levels : Nat) (json : Json) : Option Span := do
  let (_, [line, col]) ← fields? ["line", "col"] levels json | none
  pure ⟨← required uint32? line, ← required uint32? col⟩

def constant? (levels : Nat) (json : Json) : Option Constant := do
  match ← variant? levels json with
  | (_, "None", parts) => bare? .none parts
  | (_, "Bool", some parts) => parts.toBool?.map .bool
  | (_, "Int", some parts) => (int64? parts).map .int
  | (_, "Float", some (.number n)) => n.toBinary64?.map .float
  | (_, "Str", some parts) => parts.toString?.map .str
  | _ => none

/-! ### Expressions, given a reader for the expressions inside -/

section Expressions

variable (expr : Nat → Json → Option Expr)

def keyword? (levels : Nat) (json : Json) : Option Keyword := do
  let (levels, [arg, value]) ← fields? ["arg", "value"] levels json | none
  pure ⟨← optional Json.toString? arg, ← required (expr levels) value⟩

def comprehension? (levels : Nat) (json : Json) : Option Comprehension := do
  let (levels, [target, iter, ifs]) ← fields? ["target", "iter", "ifs"] levels json | none
  pure
    { target := ← required (expr levels) target
      iter := ← required (expr levels) iter
      ifs := ← defaulted [] (list? expr levels) ifs }

def param? (levels : Nat) (json : Json) : Option Param := do
  let (levels, [name, default]) ← fields? ["name", "default"] levels json | none
  pure ⟨← required Json.toString? name, ← optional (expr levels) default⟩

def parameters? (levels : Nat) (json : Json) : Option Parameters := do
  let (levels, [posonly, args, vararg, kwonly, kwarg]) ←
    fields? ["posonly", "args", "vararg", "kwonly", "kwarg"] levels json | none
  let params := defaulted [] (list? (param? expr) levels)
  pure
    { posonly := ← params posonly
      args := ← params args
      vararg := ← optional Json.toString? vararg
      kwonly := ← params kwonly
      kwarg := ← optional Json.toString? kwarg }

def lambda? (levels : Nat) (json : Json) : Option ExprKind := do
  let (levels, [params, body]) ← fields? ["params", "body"] levels json | none
  pure (.lambda (← required (parameters? expr levels) params) (← required (expr levels) body))

/-- An element and its generators, for three kinds of comprehension. -/
def elementComp? (make : Expr → List Comprehension → ExprKind) (levels : Nat) (json : Json) :
    Option ExprKind := do
  let (levels, [element, generators]) ← parts? ["elt", "generators"] levels json | none
  pure (make (← required (expr levels) element)
    (← required (list? (comprehension? expr) levels) generators))

/-- The parts of the kinds of operation. -/
def operation? (tag : String) (levels : Nat) (parts : Json) : Option ExprKind := do
  match tag with
  | "BinOp" =>
    let (levels, [left, op, right]) ← parts? ["left", "op", "right"] levels parts | none
    pure (.binOp (← required (expr levels) left)
      (← required (named? BinaryOp.tag BinaryOp.all levels) op) (← required (expr levels) right))
  | "UnaryOp" =>
    let (levels, [op, operand]) ← parts? ["op", "operand"] levels parts | none
    pure (.unaryOp (← required (named? UnaryOp.tag UnaryOp.all levels) op)
      (← required (expr levels) operand))
  | "BoolOp" =>
    let (levels, [op, values]) ← parts? ["op", "values"] levels parts | none
    pure (.boolOp (← required (named? BoolOp.tag BoolOp.all levels) op)
      (← required (list? expr levels) values))
  | "Compare" =>
    let (levels, [left, ops, comparators]) ← parts? ["left", "ops", "comparators"] levels parts | none
    pure (.compare (← required (expr levels) left)
      (← required (list? (named? CompareOp.tag CompareOp.all) levels) ops)
      (← required (list? expr levels) comparators))
  | "IfExp" =>
    let (levels, [test, body, orelse]) ← parts? ["test", "body", "orelse"] levels parts | none
    pure (.ifExp (← required (expr levels) test) (← required (expr levels) body)
      (← required (expr levels) orelse))
  | "NamedExpr" =>
    let (levels, [target, value]) ← parts? ["target", "value"] levels parts | none
    pure (.namedExpr (← required Json.toString? target) (← required (expr levels) value))
  | "JoinedStr" => (list? expr levels parts).map .joinedStr
  | "FormattedValue" =>
    let (levels, [value, conversion, formatSpec]) ←
      parts? ["value", "conversion", "format_spec"] levels parts | none
    pure (.formattedValue (← required (expr levels) value) (← optional char? conversion)
      (← optional (expr levels) formatSpec))
  | _ => none

/-- The parts of calls and of access to parts of values. -/
def access? (tag : String) (levels : Nat) (parts : Json) : Option ExprKind := do
  match tag with
  | "Call" =>
    let (levels, [callee, args, keywords]) ← parts? ["func", "args", "keywords"] levels parts | none
    pure (.call (← required (expr levels) callee) (← required (list? expr levels) args)
      (← required (list? (keyword? expr) levels) keywords))
  | "Attribute" =>
    let (levels, [value, attr]) ← parts? ["value", "attr"] levels parts | none
    pure (.attribute (← required (expr levels) value) (← required Json.toString? attr))
  | "Subscript" =>
    let (levels, [value, slice]) ← parts? ["value", "slice"] levels parts | none
    pure (.subscript (← required (expr levels) value) (← required (expr levels) slice))
  | "Slice" =>
    let (levels, [lower, upper, step]) ← parts? ["lower", "upper", "step"] levels parts | none
    pure (.slice (← optional (expr levels) lower) (← optional (expr levels) upper)
      (← optional (expr levels) step))
  | _ => none

/-- The parts of displays, comprehensions and anonymous functions. -/
def display? (tag : String) (levels : Nat) (parts : Json) : Option ExprKind := do
  match tag with
  | "List" => (list? expr levels parts).map .list
  | "Tuple" => (list? expr levels parts).map .tuple
  | "Set" => (list? expr levels parts).map .set
  | "Dict" =>
    let (levels, [keys, values]) ← parts? ["keys", "values"] levels parts | none
    pure (.dict (← required (list? (nullable expr) levels) keys)
      (← required (list? expr levels) values))
  | "Starred" => (expr levels parts).map .starred
  | "ListComp" => elementComp? expr .listComp levels parts
  | "SetComp" => elementComp? expr .setComp levels parts
  | "GeneratorExp" => elementComp? expr .generatorExp levels parts
  | "DictComp" =>
    let (levels, [key, value, generators]) ← parts? ["key", "value", "generators"] levels parts | none
    pure (.dictComp (← required (expr levels) key) (← required (expr levels) value)
      (← required (list? (comprehension? expr) levels) generators))
  | "Lambda" => lambda? expr levels parts
  | _ => none

def exprKind? (levels : Nat) (json : Json) : Option ExprKind := do
  match ← variant? levels json with
  | (levels, "Constant", some parts) => (constant? levels parts).map .constant
  | (_, "Name", some parts) => parts.toString?.map .name
  | (levels, tag, some parts) =>
    (operation? expr tag levels parts).or
      ((access? expr tag levels parts).or (display? expr tag levels parts))
  | _ => none

end Expressions

/-- Reads an expression whose nodes nest at most `fuel` deep. -/
def expr? : Nat → Nat → Json → Option Expr
  | 0, _, _ => none
  | fuel + 1, levels, json => do
    let (levels, [kind, span]) ← fields? ["kind", "span"] levels json | none
    pure ⟨← required (exprKind? (expr? fuel) levels) kind, ← defaulted .dummy (span? levels) span⟩

/-- Reads a pattern whose nodes nest at most `fuel` deep. -/
def pattern? : Nat → Nat → Json → Option Pattern
  | 0, _, _ => none
  | fuel + 1, levels, json => do
    match ← variant? levels json with
    | (levels, "Value", some parts) => (expr? fuel levels parts).map .value
    | (levels, "Singleton", some parts) => (constant? levels parts).map .singleton
    | (levels, "Sequence", some parts) => (list? (pattern? fuel) levels parts).map .sequence
    | (levels, "Mapping", some parts) =>
      let (levels, [keys, patterns, rest]) ← parts? ["keys", "patterns", "rest"] levels parts | none
      pure (.mapping (← required (list? (expr? fuel) levels) keys)
        (← required (list? (pattern? fuel) levels) patterns) (← optional Json.toString? rest))
    | (_, "Star", some parts) => (optional Json.toString? (some parts)).map .star
    | (levels, "As", some parts) =>
      let (levels, [pattern, name]) ← parts? ["pattern", "name"] levels parts | none
      pure (.as (← optional (pattern? fuel levels) pattern) (← optional Json.toString? name))
    | (levels, "Or", some parts) => (list? (pattern? fuel) levels parts).map .or
    | _ => none

/-! ### Statements, given readers for the nodes inside -/

section Statements

variable (expr : Nat → Json → Option Expr) (pattern : Nat → Json → Option Pattern)
  (stmt : Nat → Json → Option Stmt)

def functionDef? (levels : Nat) (json : Json) : Option FunctionDef := do
  let (levels, [name, params, body, span]) ←
    fields? ["name", "params", "body", "span"] levels json | none
  pure
    { name := ← required Json.toString? name
      params := ← required (parameters? expr levels) params
      body := ← required (list? stmt levels) body
      span := ← defaulted .dummy (span? levels) span }

def handler? (levels : Nat) (json : Json) : Option ExceptHandler := do
  let (levels, [types, name, body, span]) ← fields? ["types", "name", "body", "span"] levels json | none
  pure
    { types := ← optional (expr levels) types
      name := ← optional Json.toString? name
      body := ← required (list? stmt levels) body
      span := ← defaulted .dummy (span? levels) span }

def matchCase? (levels : Nat) (json : Json) : Option MatchCase := do
  let (levels, [pattern', guard, body]) ← fields? ["pattern", "guard", "body"] levels json | none
  pure
    { pattern := ← required (pattern levels) pattern'
      guard := ← optional (expr levels) guard
      body := ← required (list? stmt levels) body }

def stmtKind? (levels : Nat) (json : Json) : Option StmtKind := do
  match ← variant? levels json with
  | (_, "Break", parts) => bare? .break parts
  | (_, "Continue", parts) => bare? .continue parts
  | (_, "Pass", parts) => bare? .pass parts
  | (levels, "Expr", some parts) => (expr levels parts).map .expr
  | (levels, "Assign", some parts) =>
    let (levels, [targets, value]) ← parts? ["targets", "value"] levels parts | none
    pure (.assign (← required (list? expr levels) targets) (← required (expr levels) value))
  | (levels, "AugAssign", some parts) =>
    let (levels, [target, op, value]) ← parts? ["target", "op", "value"] levels parts | none
    pure (.augAssign (← required (expr levels) target)
      (← required (named? BinaryOp.tag BinaryOp.all levels) op) (← required (expr levels) value))
  | (levels, "FunctionDef", some parts) => (functionDef? expr stmt levels parts).map .functionDef
  | (levels, "Return", some parts) => (nullable expr levels parts).map .return
  | (levels, "If", some parts) =>
    let (levels, [test, body, orelse]) ← parts? ["test", "body", "orelse"] levels parts | none
    pure (.if (← required (expr levels) test) (← required (list? stmt levels) body)
      (← required (list? stmt levels) orelse))
  | (levels, "For", some parts) =>
    let (levels, [target, iter, body, orelse]) ←
      parts? ["target", "iter", "body", "orelse"] levels parts | none
    pure (.for (← required (expr levels) target) (← required (expr levels) iter)
      (← required (list? stmt levels) body) (← required (list? stmt levels) orelse))
  | (levels, "While", some parts) =>
    let (levels, [test, body, orelse]) ← parts? ["test", "body", "orelse"] levels parts | none
    pure (.while (← required (expr levels) test) (← required (list? stmt levels) body)
      (← required (list? stmt levels) orelse))
  | (levels, "Try", some parts) =>
    let (levels, [body, handlers, orelse, finalbody]) ←
      parts? ["body", "handlers", "orelse", "finalbody"] levels parts | none
    pure (.try (← required (list? stmt levels) body)
      (← required (list? (handler? expr stmt) levels) handlers) (← required (list? stmt levels) orelse)
      (← required (list? stmt levels) finalbody))
  | (levels, "Raise", some parts) => (nullable expr levels parts).map .raise
  | (levels, "Match", some parts) =>
    let (levels, [subject, cases]) ← parts? ["subject", "cases"] levels parts | none
    pure (.match (← required (expr levels) subject)
      (← required (list? (matchCase? expr pattern stmt) levels) cases))
  | _ => none

end Statements

/-- Reads a statement whose nodes nest at most `fuel` deep. -/
def stmt? : Nat → Nat → Json → Option Stmt
  | 0, _, _ => none
  | fuel + 1, levels, json => do
    let (levels, [kind, span]) ← fields? ["kind", "span"] levels json | none
    pure
      ⟨← required (stmtKind? (expr? fuel) (pattern? fuel) (stmt? fuel) levels) kind,
       ← defaulted .dummy (span? levels) span⟩

end Syntax

namespace Module

/-- The script that a document denotes to a reader that enters at most so many levels. Each node takes a
level at least, so that nodes do not nest deeper than that. -/
def ofJsonWithin? (levels : Nat) (json : Json) : Option Module := do
  let (left, [body]) ← Syntax.fields? ["body"] levels json | none
  pure ⟨← Syntax.required (Syntax.list? (Syntax.stmt? levels) left) body⟩

/-- The script that a document denotes. A document in hand is read however deep it nests; limits are set
by those who read texts. -/
def ofJson? (json : Json) : Option Module := ofJsonWithin? json.depth json

/-- How many levels a reader enters that has been told no other limit. -/
def usualLevels : Nat := 127

end Module

end ScriptSandbox

import ScriptSandbox.Syntax.Tree
import ScriptSandbox.Json.Basic
/-!
Syntax trees as documents. A node is a record with its kind and its place; a kind with parts is a
record whose single member is named after the kind, and a kind without parts is its name alone.
How a double is written is left to the caller.
-/

namespace ScriptSandbox

namespace BinaryOp

def tag : BinaryOp → String
  | add => "Add" | sub => "Sub" | mul => "Mul" | div => "Div" | floorDiv => "FloorDiv"
  | mod => "Mod" | pow => "Pow" | lShift => "LShift" | rShift => "RShift" | bitOr => "BitOr"
  | bitXor => "BitXor" | bitAnd => "BitAnd"

end BinaryOp

namespace UnaryOp

def tag : UnaryOp → String
  | not => "Not" | neg => "Neg" | pos => "Pos" | invert => "Invert"

end UnaryOp

namespace CompareOp

def tag : CompareOp → String
  | eq => "Eq" | notEq => "NotEq" | lt => "Lt" | ltE => "LtE" | gt => "Gt" | gtE => "GtE"
  | is => "Is" | isNot => "IsNot" | .in => "In" | notIn => "NotIn"

end CompareOp

namespace BoolOp

def tag : BoolOp → String
  | and => "And" | or => "Or"

def all : List BoolOp := [and, or]

end BoolOp

namespace Syntax

/-- A kind with its parts. -/
def tagged (tag : String) (parts : Json) : Json := .object [(tag, parts)]

def kind (tag : String) (parts : List (String × Json)) : Json := tagged tag (.object parts)

def encodeOptionalName : Option String → Json
  | none => .null
  | some name => .string name

def encodeSpan (s : Span) : Json :=
  .object [("line", .int s.line.toNat), ("col", .int s.col.toNat)]

def encodeConstant (float : Binary64 → Json) : Constant → Json
  | .none => .string "None"
  | .bool b => tagged "Bool" (.bool b)
  | .int n => tagged "Int" (.int n.toInt)
  | .float x => tagged "Float" (float x)
  | .str s => tagged "Str" (.string s)

variable (float : Binary64 → Json)

mutual

def encodeExpr : Expr → Json
  | ⟨kind, span⟩ => .object [("kind", encodeExprKind kind), ("span", encodeSpan span)]

def encodeExprKind : ExprKind → Json
  | .constant value => tagged "Constant" (encodeConstant float value)
  | .name id => tagged "Name" (.string id)
  | .binOp left op right =>
    kind "BinOp" [("left", encodeExpr left), ("op", .string op.tag), ("right", encodeExpr right)]
  | .unaryOp op operand =>
    kind "UnaryOp" [("op", .string op.tag), ("operand", encodeExpr operand)]
  | .boolOp op values =>
    kind "BoolOp" [("op", .string op.tag), ("values", .array (encodeExprs values))]
  | .compare left ops comparators =>
    kind "Compare"
      [("left", encodeExpr left), ("ops", .array (ops.map fun op => .string op.tag)),
       ("comparators", .array (encodeExprs comparators))]
  | .ifExp test body orelse =>
    kind "IfExp"
      [("test", encodeExpr test), ("body", encodeExpr body), ("orelse", encodeExpr orelse)]
  | .call callee args keywords =>
    kind "Call"
      [("func", encodeExpr callee), ("args", .array (encodeExprs args)),
       ("keywords", .array (encodeKeywords keywords))]
  | .attribute value attr =>
    kind "Attribute" [("value", encodeExpr value), ("attr", .string attr)]
  | .subscript value slice =>
    kind "Subscript" [("value", encodeExpr value), ("slice", encodeExpr slice)]
  | .slice lower upper step =>
    kind "Slice"
      [("lower", encodeOptionalExpr lower), ("upper", encodeOptionalExpr upper),
       ("step", encodeOptionalExpr step)]
  | .list elements => tagged "List" (.array (encodeExprs elements))
  | .tuple elements => tagged "Tuple" (.array (encodeExprs elements))
  | .set elements => tagged "Set" (.array (encodeExprs elements))
  | .dict keys values =>
    kind "Dict"
      [("keys", .array (encodeOptionalExprs keys)), ("values", .array (encodeExprs values))]
  | .starred value => tagged "Starred" (encodeExpr value)
  | .listComp element generators =>
    kind "ListComp"
      [("elt", encodeExpr element), ("generators", .array (encodeComprehensions generators))]
  | .setComp element generators =>
    kind "SetComp"
      [("elt", encodeExpr element), ("generators", .array (encodeComprehensions generators))]
  | .dictComp key value generators =>
    kind "DictComp"
      [("key", encodeExpr key), ("value", encodeExpr value),
       ("generators", .array (encodeComprehensions generators))]
  | .generatorExp element generators =>
    kind "GeneratorExp"
      [("elt", encodeExpr element), ("generators", .array (encodeComprehensions generators))]
  | .lambda params body =>
    kind "Lambda" [("params", encodeParameters params), ("body", encodeExpr body)]
  | .namedExpr target value =>
    kind "NamedExpr" [("target", .string target), ("value", encodeExpr value)]
  | .joinedStr parts => tagged "JoinedStr" (.array (encodeExprs parts))
  | .formattedValue value conversion formatSpec =>
    kind "FormattedValue"
      [("value", encodeExpr value),
       ("conversion",
        match conversion with
        | none => .null
        | some c => .string (String.singleton c)),
       ("format_spec", encodeOptionalExpr formatSpec)]

def encodeOptionalExpr : Option Expr → Json
  | none => .null
  | some e => encodeExpr e

def encodeExprs : List Expr → List Json
  | [] => []
  | e :: rest => encodeExpr e :: encodeExprs rest

def encodeOptionalExprs : List (Option Expr) → List Json
  | [] => []
  | e :: rest => encodeOptionalExpr e :: encodeOptionalExprs rest

def encodeKeywords : List Keyword → List Json
  | [] => []
  | ⟨arg, value⟩ :: rest =>
    .object [("arg", encodeOptionalName arg), ("value", encodeExpr value)] :: encodeKeywords rest

def encodeComprehensions : List Comprehension → List Json
  | [] => []
  | ⟨target, iter, ifs⟩ :: rest =>
    .object
      [("target", encodeExpr target), ("iter", encodeExpr iter),
       ("ifs", .array (encodeExprs ifs))] :: encodeComprehensions rest

def encodeParams : List Param → List Json
  | [] => []
  | ⟨name, default⟩ :: rest =>
    .object [("name", .string name), ("default", encodeOptionalExpr default)] :: encodeParams rest

def encodeParameters : Parameters → Json
  | ⟨posonly, args, vararg, kwonly, kwarg⟩ =>
    .object
      [("posonly", .array (encodeParams posonly)), ("args", .array (encodeParams args)),
       ("vararg", encodeOptionalName vararg), ("kwonly", .array (encodeParams kwonly)),
       ("kwarg", encodeOptionalName kwarg)]

end

mutual

def encodePattern : Pattern → Json
  | .value expr => tagged "Value" (encodeExpr float expr)
  | .singleton constant => tagged "Singleton" (encodeConstant float constant)
  | .sequence patterns => tagged "Sequence" (.array (encodePatterns patterns))
  | .mapping keys patterns rest =>
    kind "Mapping"
      [("keys", .array (encodeExprs float keys)), ("patterns", .array (encodePatterns patterns)),
       ("rest", encodeOptionalName rest)]
  | .star name => tagged "Star" (encodeOptionalName name)
  | .as pattern name =>
    kind "As" [("pattern", encodeOptionalPattern pattern), ("name", encodeOptionalName name)]
  | .or alternatives => tagged "Or" (.array (encodePatterns alternatives))

def encodeOptionalPattern : Option Pattern → Json
  | none => .null
  | some p => encodePattern p

def encodePatterns : List Pattern → List Json
  | [] => []
  | p :: rest => encodePattern p :: encodePatterns rest

end

mutual

def encodeStmt : Stmt → Json
  | ⟨kind, span⟩ => .object [("kind", encodeStmtKind kind), ("span", encodeSpan span)]

def encodeStmtKind : StmtKind → Json
  | .expr value => tagged "Expr" (encodeExpr float value)
  | .assign targets value =>
    kind "Assign"
      [("targets", .array (encodeExprs float targets)), ("value", encodeExpr float value)]
  | .augAssign target op value =>
    kind "AugAssign"
      [("target", encodeExpr float target), ("op", .string op.tag),
       ("value", encodeExpr float value)]
  | .functionDef definition => tagged "FunctionDef" (encodeFunctionDef definition)
  | .return value => tagged "Return" (encodeOptionalExpr float value)
  | .if test body orelse =>
    kind "If"
      [("test", encodeExpr float test), ("body", .array (encodeStmts body)),
       ("orelse", .array (encodeStmts orelse))]
  | .for target iter body orelse =>
    kind "For"
      [("target", encodeExpr float target), ("iter", encodeExpr float iter),
       ("body", .array (encodeStmts body)), ("orelse", .array (encodeStmts orelse))]
  | .while test body orelse =>
    kind "While"
      [("test", encodeExpr float test), ("body", .array (encodeStmts body)),
       ("orelse", .array (encodeStmts orelse))]
  | .break => .string "Break"
  | .continue => .string "Continue"
  | .pass => .string "Pass"
  | .try body handlers orelse finalbody =>
    kind "Try"
      [("body", .array (encodeStmts body)), ("handlers", .array (encodeHandlers handlers)),
       ("orelse", .array (encodeStmts orelse)), ("finalbody", .array (encodeStmts finalbody))]
  | .raise value => tagged "Raise" (encodeOptionalExpr float value)
  | .match subject cases =>
    kind "Match" [("subject", encodeExpr float subject), ("cases", .array (encodeCases cases))]

def encodeFunctionDef : FunctionDef → Json
  | ⟨name, params, body, span⟩ =>
    .object
      [("name", .string name), ("params", encodeParameters float params),
       ("body", .array (encodeStmts body)), ("span", encodeSpan span)]

def encodeStmts : List Stmt → List Json
  | [] => []
  | s :: rest => encodeStmt s :: encodeStmts rest

def encodeHandlers : List ExceptHandler → List Json
  | [] => []
  | ⟨types, name, body, span⟩ :: rest =>
    .object
      [("types", encodeOptionalExpr float types), ("name", encodeOptionalName name),
       ("body", .array (encodeStmts body)), ("span", encodeSpan span)] :: encodeHandlers rest

def encodeCases : List MatchCase → List Json
  | [] => []
  | ⟨pattern, guard, body⟩ :: rest =>
    .object
      [("pattern", encodePattern float pattern), ("guard", encodeOptionalExpr float guard),
       ("body", .array (encodeStmts body))] :: encodeCases rest

end

end Syntax

/-- The document of a script. -/
def Module.toJson (float : Binary64 → Json) (m : Module) : Json :=
  .object [("body", .array (Syntax.encodeStmts float m.body))]

end ScriptSandbox

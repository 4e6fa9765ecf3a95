import ScriptSandbox.Syntax.Span
import ScriptSandbox.Syntax.Operator
/-!
Syntax trees of scripts: expressions, patterns and statements. The set of nodes is closed, so that
the evaluator can treat each kind.
-/

namespace ScriptSandbox

/-- Literal constants. -/
inductive Constant where
  | none
  | bool (value : Bool)
  | int (value : Int64)
  | float (value : Binary64)
  | str (value : String)
deriving DecidableEq

mutual

/-- An expression and its place. -/
structure Expr where
  kind : ExprKind
  span : Span

inductive ExprKind where
  | constant (value : Constant)
  | name (id : String)
  | binOp (left : Expr) (op : BinaryOp) (right : Expr)
  | unaryOp (op : UnaryOp) (operand : Expr)
  /-- A chain of `and` or of `or`; its value is the operand that decides it. -/
  | boolOp (op : BoolOp) (values : List Expr)
  /-- A chain such as `a < b <= c`; each operand is evaluated at most once. -/
  | compare (left : Expr) (ops : List CompareOp) (comparators : List Expr)
  | ifExp (test body orelse : Expr)
  /-- Starred arguments are spread, and so are keywords without a name. -/
  | call (callee : Expr) (args : List Expr) (keywords : List Keyword)
  | attribute (value : Expr) (attr : String)
  | subscript (value slice : Expr)
  /-- Bounds of a slice; meaningful only inside a subscript. -/
  | slice (lower upper step : Option Expr)
  | list (elements : List Expr)
  | tuple (elements : List Expr)
  | set (elements : List Expr)
  /-- An entry without a key spreads a mapping. -/
  | dict (keys : List (Option Expr)) (values : List Expr)
  | starred (value : Expr)
  | listComp (element : Expr) (generators : List Comprehension)
  | setComp (element : Expr) (generators : List Comprehension)
  | dictComp (key value : Expr) (generators : List Comprehension)
  /-- Evaluated at once, to a list. -/
  | generatorExp (element : Expr) (generators : List Comprehension)
  | lambda (params : Parameters) (body : Expr)
  | namedExpr (target : String) (value : Expr)
  /-- Texts and replacement fields, to be joined. -/
  | joinedStr (parts : List Expr)
  | formattedValue (value : Expr) (conversion : Option Char) (formatSpec : Option Expr)

/-- A keyword argument; without a name it spreads a mapping. -/
structure Keyword where
  arg : Option String
  value : Expr

/-- One `for target in iter if …` clause. -/
structure Comprehension where
  target : Expr
  iter : Expr
  ifs : List Expr

/-- A parameter; its default is evaluated by each call that needs it. -/
structure Param where
  name : String
  default : Option Expr

/-- The parameters of a function: positional only, positional, a rest, by keyword only, and a
keyword rest. -/
structure Parameters where
  posonly : List Param
  args : List Param
  vararg : Option String
  kwonly : List Param
  kwarg : Option String

end

/-- A function without a name: parameters and the expression it returns. -/
structure LambdaDef where
  params : Parameters
  body : Expr

/-- The patterns of a `match` statement. -/
inductive Pattern where
  /-- Compared by equality. -/
  | value (expr : Expr)
  /-- The constants that are compared by identity. -/
  | singleton (constant : Constant)
  | sequence (patterns : List Pattern)
  | mapping (keys : List Expr) (patterns : List Pattern) (rest : Option String)
  | star (name : Option String)
  /-- A pattern with a name for what it matched, a bare name, or, with neither, the wildcard. -/
  | as (pattern : Option Pattern) (name : Option String)
  /-- Alternatives, which need not bind the same names. -/
  | or (alternatives : List Pattern)

mutual

/-- A statement and its place. -/
structure Stmt where
  kind : StmtKind
  span : Span

inductive StmtKind where
  | expr (value : Expr)
  | assign (targets : List Expr) (value : Expr)
  | augAssign (target : Expr) (op : BinaryOp) (value : Expr)
  | functionDef (definition : FunctionDef)
  | return (value : Option Expr)
  | if (test : Expr) (body orelse : List Stmt)
  | for (target iter : Expr) (body orelse : List Stmt)
  | while (test : Expr) (body orelse : List Stmt)
  | break
  | continue
  | pass
  | try (body : List Stmt) (handlers : List ExceptHandler) (orelse finalbody : List Stmt)
  | raise (value : Option Expr)
  | match (subject : Expr) (cases : List MatchCase)

structure FunctionDef where
  name : String
  params : Parameters
  body : List Stmt
  span : Span

/-- A handler; without types it takes every error that a script may catch. -/
structure ExceptHandler where
  types : Option Expr
  name : Option String
  body : List Stmt
  span : Span

structure MatchCase where
  pattern : Pattern
  guard : Option Expr
  body : List Stmt

end

/-- A whole script. -/
structure Module where
  body : List Stmt

namespace Parameters

/-- No parameters at all. -/
def empty : Parameters := ⟨[], [], none, [], none⟩

/-- Parameters that take positional arguments, in order. -/
def positional (p : Parameters) : List Param := p.posonly ++ p.args

end Parameters

/-- The text that documents a function: a text constant as its first statement. -/
def FunctionDef.docstring (d : FunctionDef) : Option String :=
  match d.body with
  | ⟨.expr ⟨.constant (.str doc), _⟩, _⟩ :: _ => some doc
  | _ => none

end ScriptSandbox

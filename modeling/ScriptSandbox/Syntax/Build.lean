import ScriptSandbox.Syntax.Tree
/-!
Short ways to write syntax trees, for hosts that put small scripts together themselves. Every node
has the dummy place.
-/

namespace ScriptSandbox.Syntax.Build

/-- An expression that stands in no source text. -/
def expr (kind : ExprKind) : Expr := ⟨kind, .dummy⟩

/-- A statement that stands in no source text. -/
def stmt (kind : StmtKind) : Stmt := ⟨kind, .dummy⟩

/-! ### Literals and names -/

def name (id : String) : Expr := expr (.name id)

def int (n : Int64) : Expr := expr (.constant (.int n))

def float (x : Binary64) : Expr := expr (.constant (.float x))

def string (text : String) : Expr := expr (.constant (.str text))

def boolean (b : Bool) : Expr := expr (.constant (.bool b))

def none : Expr := expr (.constant .none)

/-! ### Operators -/

def binOp (left : Expr) (op : BinaryOp) (right : Expr) : Expr := expr (.binOp left op right)

def unary (op : UnaryOp) (operand : Expr) : Expr := expr (.unaryOp op operand)

def boolOp (op : BoolOp) (operands : List Expr) : Expr := expr (.boolOp op operands)

def compareChain (left : Expr) (links : List (CompareOp × Expr)) : Expr :=
  expr (.compare left (links.map (·.1)) (links.map (·.2)))

def compare (left : Expr) (op : CompareOp) (right : Expr) : Expr := compareChain left [(op, right)]

def ifExp (test body orelse : Expr) : Expr := expr (.ifExp test body orelse)

/-! ### Calls and access -/

def callWith (callee : Expr) (args : List Expr) (keywords : List (String × Expr)) : Expr :=
  expr (.call callee args (keywords.map fun (name, value) => ⟨some name, value⟩))

def call (callee : Expr) (args : List Expr) : Expr := callWith callee args []

def attr (value : Expr) (name : String) : Expr := expr (.attribute value name)

/-- A call of a method. -/
def method (value : Expr) (name : String) (args : List Expr) : Expr := call (attr value name) args

def subscript (value index : Expr) : Expr := expr (.subscript value index)

def slice (lower upper step : Option Expr) : Expr := expr (.slice lower upper step)

/-! ### Displays and comprehensions -/

def list (elements : List Expr) : Expr := expr (.list elements)

def tuple (elements : List Expr) : Expr := expr (.tuple elements)

def set (elements : List Expr) : Expr := expr (.set elements)

def dict (pairs : List (Expr × Expr)) : Expr :=
  expr (.dict (pairs.map fun pair => some pair.1) (pairs.map (·.2)))

def starred (value : Expr) : Expr := expr (.starred value)

def listComp (element : Expr) (clauses : List Comprehension) : Expr :=
  expr (.listComp element clauses)

def setComp (element : Expr) (clauses : List Comprehension) : Expr :=
  expr (.setComp element clauses)

def dictComp (key value : Expr) (clauses : List Comprehension) : Expr :=
  expr (.dictComp key value clauses)

def generatorExp (element : Expr) (clauses : List Comprehension) : Expr :=
  expr (.generatorExp element clauses)

/-! ### Functions and formatted texts -/

/-- Positional parameters without defaults. -/
def params (names : List String) : Parameters :=
  { Parameters.empty with args := names.map fun name => ⟨name, Option.none⟩ }

def lambda (names : List String) (body : Expr) : Expr := expr (.lambda (params names) body)

def named (target : String) (value : Expr) : Expr := expr (.namedExpr target value)

def defWith (name : String) (params : Parameters) (body : List Stmt) : Stmt :=
  stmt (.functionDef ⟨name, params, body, .dummy⟩)

def define (name : String) (names : List String) (body : List Stmt) : Stmt :=
  defWith name (params names) body

def fstring (parts : List Expr) : Expr := expr (.joinedStr parts)

/-- A replacement field with the text of its specification. -/
def formatted (value : Expr) (conversion : Option Char) (spec : Option String) : Expr :=
  expr (.formattedValue value conversion (spec.map fun text => fstring [string text]))

/-! ### Statements -/

def exprStmt (value : Expr) : Stmt := stmt (.expr value)

def assignTo (targets : List Expr) (value : Expr) : Stmt := stmt (.assign targets value)

def assign (target : String) (value : Expr) : Stmt := assignTo [name target] value

def augAssignTo (target : Expr) (op : BinaryOp) (value : Expr) : Stmt :=
  stmt (.augAssign target op value)

def augAssign (target : String) (op : BinaryOp) (value : Expr) : Stmt :=
  augAssignTo (name target) op value

def returnStmt (value : Option Expr) : Stmt := stmt (.return value)

def ifStmt (test : Expr) (body orelse : List Stmt) : Stmt := stmt (.if test body orelse)

def whileLoop (test : Expr) (body : List Stmt) : Stmt := stmt (.while test body [])

def forElse (target iter : Expr) (body orelse : List Stmt) : Stmt :=
  stmt (.for target iter body orelse)

def forLoop (target iter : Expr) (body : List Stmt) : Stmt := forElse target iter body []

def breakStmt : Stmt := stmt .break

def continueStmt : Stmt := stmt .continue

def pass : Stmt := stmt .pass

def except (types : Option Expr) (body : List Stmt) : ExceptHandler :=
  ⟨types, Option.none, body, .dummy⟩

def tryStmt (body : List Stmt) (handlers : List ExceptHandler) (orelse finalbody : List Stmt) :
    Stmt :=
  stmt (.try body handlers orelse finalbody)

def raise (value : Option Expr) : Stmt := stmt (.raise value)

def matchStmt (subject : Expr) (cases : List MatchCase) : Stmt := stmt (.match subject cases)

/-! ### Patterns -/

/-- The pattern that matches the null value alone. -/
def nullPattern : Pattern := .singleton .none

def capturePattern (name : String) : Pattern := .as Option.none (some name)

/-- The pattern that matches everything and captures nothing. -/
def wildcardPattern : Pattern := .as Option.none Option.none

def asPattern (pattern : Pattern) (name : String) : Pattern := .as (some pattern) (some name)

def mappingPattern (entries : List (Expr × Pattern)) (rest : Option String) : Pattern :=
  .mapping (entries.map (·.1)) (entries.map (·.2)) rest

end ScriptSandbox.Syntax.Build

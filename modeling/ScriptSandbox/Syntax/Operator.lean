/-!
The operators of the language and the symbols that stand for them in scripts and in error texts.
-/

namespace ScriptSandbox

/-- Operators with two operands; the same operators appear in augmented assignments. -/
inductive BinaryOp where
  | add | sub | mul | div | floorDiv | mod | pow | lShift | rShift | bitOr | bitXor | bitAnd
deriving DecidableEq, Repr

/-- Operators with one operand. -/
inductive UnaryOp where
  | not | neg | pos | invert
deriving DecidableEq, Repr

/-- The links of a comparison chain. -/
inductive CompareOp where
  | eq | notEq | lt | ltE | gt | gtE | is | isNot | in | notIn
deriving DecidableEq, Repr

/-- The operators that may leave an operand unevaluated. -/
inductive BoolOp where
  | and | or
deriving DecidableEq, Repr

namespace BinaryOp

def symbol : BinaryOp → String
  | add => "+" | sub => "-" | mul => "*" | div => "/" | floorDiv => "//" | mod => "%"
  | pow => "**" | lShift => "<<" | rShift => ">>" | bitOr => "|" | bitXor => "^" | bitAnd => "&"

/-- Every operator. -/
def all : List BinaryOp :=
  [add, sub, mul, div, floorDiv, mod, pow, lShift, rShift, bitOr, bitXor, bitAnd]

/-- Conjunction, disjunction and exclusive disjunction of bits. -/
def isBitwise : BinaryOp → Bool
  | bitOr | bitXor | bitAnd => true
  | _ => false

def isShift : BinaryOp → Bool
  | lShift | rShift => true
  | _ => false

end BinaryOp

namespace UnaryOp

def symbol : UnaryOp → String
  | not => "not" | neg => "-" | pos => "+" | invert => "~"

def all : List UnaryOp := [not, neg, pos, invert]

end UnaryOp

namespace CompareOp

def symbol : CompareOp → String
  | eq => "==" | notEq => "!=" | lt => "<" | ltE => "<=" | gt => ">" | gtE => ">="
  | is => "is" | isNot => "is not" | .in => "in" | notIn => "not in"

def all : List CompareOp := [eq, notEq, lt, ltE, gt, gtE, is, isNot, .in, notIn]

end CompareOp

end ScriptSandbox

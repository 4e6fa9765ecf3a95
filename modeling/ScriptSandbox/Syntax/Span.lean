import ScriptSandbox.Decimal.Notation
/-!
Places in a script's source text.
-/

namespace ScriptSandbox

/-- Where a node starts: lines count from one, columns from zero. -/
structure Span where
  line : UInt32
  col : UInt32
deriving DecidableEq, Inhabited

namespace Span

/-- The place of a node that stands in no source text. -/
def dummy : Span := ⟨0, 0⟩

def isDummy (s : Span) : Bool := s.line == 0 && s.col == 0

/-- The place in words. -/
def text (s : Span) : String :=
  "line " ++ Decimal.digitText s.line.toNat ++ ", column " ++ Decimal.digitText s.col.toNat

/-- The place in short. -/
def brief (s : Span) : String :=
  Decimal.digitText s.line.toNat ++ ":" ++ Decimal.digitText s.col.toNat

end Span

end ScriptSandbox

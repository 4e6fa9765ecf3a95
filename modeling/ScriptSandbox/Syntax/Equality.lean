import ScriptSandbox.Json.Printer
import ScriptSandbox.Syntax.Encode
/-!
Equality of scripts: node by node, places included. Constants are compared as numbers, so that the
two zeros are equal.
-/

namespace ScriptSandbox

/-- A double as a document in which numbers that are equal look the same. -/
def Syntax.comparableFloat (x : Binary64) : Json :=
  .int (if x.isZero then 0 else x.bits.toNat)

/-- Whether two scripts are the same tree. -/
def Module.equal (a b : Module) : Bool :=
  (a.toJson Syntax.comparableFloat).toText == (b.toJson Syntax.comparableFloat).toText

end ScriptSandbox

import ScriptSandbox.Limits
import ScriptSandbox.Syntax.Decode
/-!
Limits read from a configuration document. Every field may be missing and then keeps its default;
unknown fields, nulls and values of the wrong type make the document no configuration.
-/

namespace ScriptSandbox

namespace Limits

/-- How many numbers fit sixty-four bits. -/
def wordCount : Nat := 0x10000000000000000

def nanosPerSecond : Nat := 1000000000

/-- A natural number that fits sixty-four bits. -/
def word? (json : Json) : Option Nat := json.toNat? wordCount

/-- A time in seconds, rounded to the nearest nanosecond. Negative times and those of more seconds
than fit sixty-four bits are refused. -/
def seconds? : Json → Option Nat
  | .number n => do
    let x ← n.toBinary64?
    let (num, den) := x.ratio
    let nanos := Decimal.roundDiv (num * nanosPerSecond) den
    if (x.isNegative && !x.isZero) || wordCount * den ≤ num then none
    else if wordCount * nanosPerSecond ≤ nanos then none
    else some nanos
  | _ => none

def policyField? (p : AttributePolicy) (name : String) (value : Json) :
    Option AttributePolicy := do
  let strings := value.toStrings?
  match name with
  | "denied_prefixes" => pure { p with deniedPrefixes := ← strings }
  | "denied_names" => pure { p with deniedNames := ← strings }
  | _ => none

def policy? : Json → Option AttributePolicy
  | .object members =>
    members.foldlM (fun p (name, value) => policyField? p name value) .standard
  | .array items =>
    ((["denied_prefixes", "denied_names"].zip items).foldlM
      (fun p (name, value) => policyField? p name value) .standard).filter
        fun _ => items.length ≤ 2
  | _ => none

def field? (l : Limits) (name : String) (value : Json) : Option Limits := do
  match name with
  | "max_steps" => pure { l with maxSteps := ← word? value }
  | "max_call_depth" => pure { l with maxCallDepth := ← word? value }
  | "max_loop_iterations" => pure { l with maxLoopIterations := ← word? value }
  | "max_string_length" => pure { l with size := { l.size with maxStringLength := ← word? value } }
  | "max_container_size" =>
    pure { l with size := { l.size with maxContainerSize := ← word? value } }
  | "max_power_base" => pure { l with size := { l.size with maxPowerBase := ← word? value } }
  | "max_power" => pure { l with size := { l.size with maxPower := ← word? value } }
  | "timeout" => pure { l with timeout := ← seconds? value }
  | "attribute_policy" => pure { l with attributePolicy := ← policy? value }
  | _ => none

/-- The limits that a configuration sets (§10.11). -/
def ofJson? : Json → Option Limits
  | .object members => members.foldlM (fun l (name, value) => field? l name value) .standard
  | _ => none

end Limits

end ScriptSandbox

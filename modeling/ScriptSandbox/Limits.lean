import ScriptSandbox.Error.Cause
import ScriptSandbox.Text.Identifier
/-!
The quotas of a run, and the rule for the attributes that scripts may read. Every quota is finite.
Numbers behind § are sections of the specification of the language.
-/

namespace ScriptSandbox

/-- The quotas on what a single operation may produce or compute (§10.5). -/
structure SizeLimits where
  /-- In bytes. -/
  maxStringLength : Nat
  /-- In elements. -/
  maxContainerSize : Nat
  /-- The greatest magnitude of the base of a power. -/
  maxPowerBase : Nat
  /-- The greatest magnitude of an exponent. -/
  maxPower : Nat
deriving DecidableEq

namespace SizeLimits

def checkString (l : SizeLimits) (length : Nat) : Except Error Unit :=
  if l.maxStringLength < length then .error (.limitExceeded .stringLength l.maxStringLength)
  else .ok ()

def checkContainer (l : SizeLimits) (size : Nat) : Except Error Unit :=
  if l.maxContainerSize < size then .error (.limitExceeded .containerSize l.maxContainerSize)
  else .ok ()

section Checks

variable {l : SizeLimits} {n : Nat}

theorem checkString_of_le (h : n ≤ l.maxStringLength) : l.checkString n = .ok () :=
  if_neg (Nat.not_lt.2 h)

theorem checkString_of_lt (h : l.maxStringLength < n) :
    l.checkString n = .error (.limitExceeded .stringLength l.maxStringLength) := if_pos h

theorem checkContainer_of_le (h : n ≤ l.maxContainerSize) : l.checkContainer n = .ok () :=
  if_neg (Nat.not_lt.2 h)

theorem checkContainer_of_lt (h : l.maxContainerSize < n) :
    l.checkContainer n = .error (.limitExceeded .containerSize l.maxContainerSize) := if_pos h

end Checks

/-- Ranges are iterated lazily; one too long to be written out is refused before it is walked
(§10.5). -/
def checkIterable (l : SizeLimits) : Value → Except Error Unit
  | .range r => l.checkContainer r.length
  | _ => .ok ()

end SizeLimits

/-- Which attributes scripts may read. Names between double underscores are refused whatever the
policy says (§10.6). -/
structure AttributePolicy where
  deniedPrefixes : List String
  deniedNames : List String
deriving DecidableEq

namespace AttributePolicy

def standard : AttributePolicy := ⟨["_", "func_"], ["format", "format_map", "mro"]⟩

def allows (p : AttributePolicy) (attr : String) : Bool :=
  !Text.isDunder attr &&
    !p.deniedPrefixes.any (fun start => start.toList.isPrefixOf attr.toList) &&
    !p.deniedNames.contains attr

end AttributePolicy

/-- The quotas of a run (§4.3, §10.5). -/
structure Limits where
  /-- Visits of statements and expressions. -/
  maxSteps : Nat
  /-- Script function calls inside one another. -/
  maxCallDepth : Nat
  /-- Rounds of all loops, comprehensions and unpackings together. -/
  maxLoopIterations : Nat
  size : SizeLimits
  /-- The time budget in nanoseconds. -/
  timeout : Nat
  attributePolicy : AttributePolicy
deriving DecidableEq

namespace Limits

def standard : Limits :=
  { maxSteps := 100000
    maxCallDepth := 50
    maxLoopIterations := 10000
    size :=
      { maxStringLength := 100000
        maxContainerSize := 100000
        maxPowerBase := 1000000
        maxPower := 1000 }
    timeout := 10000000000
    attributePolicy := .standard }

/-- The time budget as errors report it, in milliseconds that fit sixty-four bits. -/
def timeoutMillis (l : Limits) : Nat := min (l.timeout / 1000000) 0xFFFFFFFFFFFFFFFF

end Limits

end ScriptSandbox

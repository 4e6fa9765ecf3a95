import ScriptSandbox.Clock
import ScriptSandbox.Limits
/-!
What a native function may know of the run that calls it (§10.5).
-/

namespace ScriptSandbox

/-- The quotas on results, the time budget as errors report it, when it is spent, and the time at each
look that the function takes at the clock. Times are told from the start of the run. -/
structure CallContext where
  limits : SizeLimits
  timeoutMillis : Nat
  deadline : Nat
  elapsed : Nat → Nat

namespace CallContext

/-- The context of the call of a number. -/
def ofCall (l : Limits) (clock : Clock) (number : Nat) : CallContext where
  limits := l.size
  timeoutMillis := l.timeoutMillis
  deadline := clock.deadline l.timeout
  elapsed look := clock.elapsed (.within number look)

/-- The time that is left at a look. -/
def remaining (c : CallContext) (look : Nat) : Nat := c.deadline - c.elapsed look

/-- Fails at a look once the deadline has passed. -/
def checkDeadline (c : CallContext) (look : Nat) : Except Error Unit :=
  if c.deadline ≤ c.elapsed look then .error (.limitExceeded .timeout c.timeoutMillis) else .ok ()

/-- Long loops look at the clock once in so many rounds. -/
def pollInterval : Nat := 64

/-- The deadline check for one round of a long loop. -/
def pollDeadline (c : CallContext) (round : Nat) : Except Error Unit :=
  if round % pollInterval = 0 then c.checkDeadline round else .ok ()

end CallContext

end ScriptSandbox

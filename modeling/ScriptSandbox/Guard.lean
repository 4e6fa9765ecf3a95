import ScriptSandbox.CallContext
/-!
The guard of a run: it counts visits of nodes, rounds of loops and the depth of script calls, and
ends the run when a quota or the time budget is spent. A count that breaks a quota stays counted.
-/

namespace ScriptSandbox

/-- The counters of a run (§4.3). -/
structure Guard where
  steps : Nat
  loops : Nat
  depth : Nat
  /-- How many calls have begun; their numbers tell the looks at the clock around them apart. -/
  calls : Nat
deriving DecidableEq, Inhabited

/-- A computation on the counters. -/
abbrev GuardM := EStateM Error Guard

namespace Guard

/-- Nothing counted yet. -/
def zero : Guard := ⟨0, 0, 0, 0⟩

variable (l : Limits) (clock : Clock)

/-- Fails at a moment behind the deadline. -/
def checkDeadline (m : Moment) : Except Error Unit :=
  if clock.isLate l.timeout m then .error (.limitExceeded .timeout l.timeoutMillis) else .ok ()

/-- The deadline check for one visit; the clock is looked at once in so many visits (§10.5). -/
def pollDeadline (steps : Nat) : Except Error Unit :=
  if steps % CallContext.pollInterval = 0 then checkDeadline l clock (.visit steps) else .ok ()

/-- Counts a visit. -/
def tick : GuardM Unit := fun g =>
  let g := { g with steps := g.steps + 1 }
  if l.maxSteps < g.steps then .error (.limitExceeded .steps l.maxSteps) g
  else
    match pollDeadline l clock g.steps with
    | .ok () => .ok () g
    | .error e => .error e g

/-- Counts a round of a loop; rounds of all loops are counted together (§10.5). -/
def tickLoop : GuardM Unit := fun g =>
  let g := { g with loops := g.loops + 1 }
  if l.maxLoopIterations < g.loops then
    .error (.limitExceeded .loopIterations l.maxLoopIterations) g
  else
    match checkDeadline l clock (.round g.loops) with
    | .ok () => .ok () g
    | .error e => .error e g

/-- Enters a script call. -/
def enterCall : GuardM Unit := fun g =>
  if l.maxCallDepth ≤ g.depth then .error (.limitExceeded .callDepth l.maxCallDepth) g
  else
    match checkDeadline l clock (.call g.calls) with
    | .ok () => .ok () { g with depth := g.depth + 1, calls := g.calls + 1 }
    | .error e => .error e g

/-- Leaves a script call. -/
def exitCall (g : Guard) : Guard := { g with depth := g.depth - 1 }

/-- Begins the call of a native function or of a host object, and gives its number. -/
def enterNative : GuardM Nat := fun g =>
  match checkDeadline l clock (.call g.calls) with
  | .ok () => .ok g.calls { g with calls := g.calls + 1 }
  | .error e => .error e g

end Guard

end ScriptSandbox

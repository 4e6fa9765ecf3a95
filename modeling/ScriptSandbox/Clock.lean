/-!
Time as a run finds it. A run looks at the clock now and then: at some of its visits, at the rounds of
its loops, and around calls. What it sees there is up to the clock, so that the time budget can turn
out to be spent at any of these moments.
-/

namespace ScriptSandbox

/-- The moments at which a run looks at the clock; no two looks of a run share one. -/
inductive Moment where
  /-- At the visit of this number. -/
  | visit (number : Nat)
  /-- At the round of this number. -/
  | round (number : Nat)
  /-- Before the call of this number. -/
  | call (number : Nat)
  /-- At a look that a native function or a host object takes in the call of this number. -/
  | within (number look : Nat)
  /-- After the call of this number to a native function or to a host object. -/
  | behind (number : Nat)
deriving DecidableEq

/-- A clock, started with a run. It may show any time at any moment: what holds for all clocks holds
for those that go forward. -/
structure Clock where
  /-- The time since the start of the run, in nanoseconds. -/
  elapsed : Moment → Nat
  /-- The longest time from the start that the clock can tell. -/
  reach : Nat

namespace Clock

/-- A year in nanoseconds. -/
def year : Nat := 365 * 24 * 3600 * 1000000000

/-- When a time budget is spent, as a time from the start. A budget beyond the reach of the clock is
cut to a year. -/
def deadline (c : Clock) (budget : Nat) : Nat :=
  if budget ≤ c.reach then budget else if year ≤ c.reach then year else 0

/-- Whether a time budget is spent at a moment. -/
def isLate (c : Clock) (budget : Nat) (m : Moment) : Bool := c.deadline budget ≤ c.elapsed m

/-- A time budget is not spent at any moment. -/
def InTime (c : Clock) (budget : Nat) : Prop := ∀ m, c.isLate budget m = false

/-- A clock on which no time passes. -/
def stopped : Clock := ⟨fun _ => 0, 9223372036854775808000000000⟩

section Deadline

variable (c : Clock) {budget : Nat}

/-- The budget of zero is spent at once. -/
@[simp] theorem deadline_zero : c.deadline 0 = 0 := if_pos (Nat.zero_le _)

@[simp] theorem isLate_zero (m : Moment) : c.isLate 0 m = true := by simp [isLate]

/-- Where no time passes, no other budget is ever spent. -/
theorem inTime_stopped (h : budget ≠ 0) : stopped.InTime budget := by
  intro m
  have hdeadline : 0 < stopped.deadline budget := by
    unfold deadline
    split
    · exact Nat.pos_of_ne_zero h
    · decide
  exact decide_eq_false (Nat.not_le.2 hdeadline)

end Deadline

end Clock

end ScriptSandbox

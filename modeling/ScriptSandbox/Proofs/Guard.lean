import ScriptSandbox.Guard

/-!
# The guard of a run

All that the counting of visits, of rounds and of calls can do. Only a count beyond its quota is
reported as an exhausted quota of that sort, and every other error is the deadline's, at a moment at
which the clock is looked at and shows that the time budget is spent.
-/

namespace ScriptSandbox.Guard

variable (l : Limits) (clock : Clock) (g : Guard)

/-- The error of a deadline that has passed. -/
def timeout : Error := .limitExceeded .timeout l.timeoutMillis

variable {l clock} in
theorem checkDeadline_of_late {m : Moment} (h : clock.isLate l.timeout m = true) :
    checkDeadline l clock m = .error (timeout l) := if_pos h

variable {l clock} in
theorem checkDeadline_of_early {m : Moment} (h : clock.isLate l.timeout m = false) :
    checkDeadline l clock m = .ok () := if_neg (by simp [h])

theorem checkDeadline_cases (m : Moment) :
    checkDeadline l clock m = .ok () ∨ checkDeadline l clock m = .error (timeout l) := by
  cases h : clock.isLate l.timeout m with
  | false => exact .inl (checkDeadline_of_early h)
  | true => exact .inr (checkDeadline_of_late h)

theorem pollDeadline_cases (steps : Nat) :
    pollDeadline l clock steps = .ok () ∨ pollDeadline l clock steps = .error (timeout l) := by
  unfold pollDeadline
  split
  · exact checkDeadline_cases l clock _
  · exact .inl rfl

theorem tick_cases :
    let g' := { g with steps := g.steps + 1 }
    (l.maxSteps < g'.steps ∧ tick l clock g = .error (.limitExceeded .steps l.maxSteps) g') ∨
    (g'.steps ≤ l.maxSteps ∧
      (tick l clock g = .ok () g' ∨ tick l clock g = .error (timeout l) g')) := by
  unfold tick
  dsimp only
  split
  · exact .inl ⟨‹_›, rfl⟩
  · refine .inr ⟨by omega, ?_⟩
    rcases pollDeadline_cases l clock (g.steps + 1) with h | h <;> simp [h]

theorem tickLoop_cases :
    let g' := { g with loops := g.loops + 1 }
    (l.maxLoopIterations < g'.loops ∧
      tickLoop l clock g = .error (.limitExceeded .loopIterations l.maxLoopIterations) g') ∨
    (g'.loops ≤ l.maxLoopIterations ∧
      (tickLoop l clock g = .ok () g' ∨ tickLoop l clock g = .error (timeout l) g')) := by
  unfold tickLoop
  dsimp only
  split
  · exact .inl ⟨‹_›, rfl⟩
  · refine .inr ⟨by omega, ?_⟩
    rcases checkDeadline_cases l clock (.round (g.loops + 1)) with h | h <;> simp [h]

theorem enterCall_cases :
    (l.maxCallDepth ≤ g.depth ∧
      enterCall l clock g = .error (.limitExceeded .callDepth l.maxCallDepth) g) ∨
    (g.depth < l.maxCallDepth ∧
      (enterCall l clock g = .ok () { g with depth := g.depth + 1, calls := g.calls + 1 } ∨
        enterCall l clock g = .error (timeout l) g)) := by
  unfold enterCall
  split
  · exact .inl ⟨‹_›, rfl⟩
  · refine .inr ⟨by omega, ?_⟩
    rcases checkDeadline_cases l clock (.call g.calls) with h | h <;> simp [h]

theorem enterNative_cases :
    enterNative l clock g = .ok g.calls { g with calls := g.calls + 1 } ∨
      enterNative l clock g = .error (timeout l) g := by
  unfold enterNative
  rcases checkDeadline_cases l clock (.call g.calls) with h | h <;> simp [h]

/-! ## Whose error it is -/

section Late

variable {l clock g} {e : Error} {g' : Guard}

theorem late_of_checkDeadline {m : Moment} (h : checkDeadline l clock m = .error e) :
    clock.isLate l.timeout m = true := by
  cases hlate : clock.isLate l.timeout m with
  | true => rfl
  | false =>
    rw [checkDeadline_of_early hlate] at h
    cases h

theorem late_of_pollDeadline {steps : Nat} (h : pollDeadline l clock steps = .error e) :
    steps % CallContext.pollInterval = 0 ∧ clock.isLate l.timeout (.visit steps) = true := by
  unfold pollDeadline at h
  split at h
  · exact ⟨‹_›, late_of_checkDeadline h⟩
  · cases h

/-- A visit within the quota fails only behind the deadline. -/
theorem late_of_tick (hroom : g.steps + 1 ≤ l.maxSteps) (h : tick l clock g = .error e g') :
    (g.steps + 1) % CallContext.pollInterval = 0 ∧
      clock.isLate l.timeout (.visit (g.steps + 1)) = true := by
  unfold tick at h
  dsimp only at h
  rw [if_neg (Nat.not_lt.2 hroom)] at h
  cases hpoll : pollDeadline l clock (g.steps + 1) with
  | ok u =>
    rw [hpoll] at h
    cases h
  | error e' => exact late_of_pollDeadline hpoll

/-- A round within the quota fails only behind the deadline. -/
theorem late_of_tickLoop (hroom : g.loops + 1 ≤ l.maxLoopIterations)
    (h : tickLoop l clock g = .error e g') :
    clock.isLate l.timeout (.round (g.loops + 1)) = true := by
  unfold tickLoop at h
  dsimp only at h
  rw [if_neg (Nat.not_lt.2 hroom)] at h
  cases hcheck : checkDeadline l clock (.round (g.loops + 1)) with
  | ok u =>
    rw [hcheck] at h
    cases h
  | error e' => exact late_of_checkDeadline hcheck

end Late

/-! ## No time at all -/

section Expired

variable {l} (hl : l.timeout = 0)

include hl

theorem checkDeadline_expired (m : Moment) : checkDeadline l clock m = .error (timeout l) :=
  checkDeadline_of_late (by simp [hl])

/-- A visit gets by unless it is one at which the clock is looked at. -/
theorem tick_expired {g' : Guard} (h : tick l clock g = .ok () g') :
    (g.steps + 1) % CallContext.pollInterval ≠ 0 := by
  intro hpolled
  have hlate : pollDeadline l clock (g.steps + 1) = .error (timeout l) := by
    rw [pollDeadline, if_pos hpolled]
    exact checkDeadline_expired clock hl _
  unfold tick at h
  dsimp only at h
  rw [hlate] at h
  split at h <;> cases h

/-- No round gets by. -/
theorem tickLoop_expired : ∃ e, tickLoop l clock g = .error e { g with loops := g.loops + 1 } := by
  unfold tickLoop
  dsimp only
  rw [checkDeadline_expired clock hl]
  split <;> exact ⟨_, rfl⟩

theorem tickLoop_ne_ok {g' : Guard} : tickLoop l clock g ≠ .ok () g' := by
  obtain ⟨e, h⟩ := tickLoop_expired clock g hl
  rw [h]
  exact nofun

/-- No call gets by. -/
theorem enterCall_expired :
    enterCall l clock g = .error (.limitExceeded .callDepth l.maxCallDepth) g ∨
      enterCall l clock g = .error (timeout l) g := by
  unfold enterCall
  rw [checkDeadline_expired clock hl]
  split
  · exact .inl rfl
  · exact .inr rfl

theorem enterCall_ne_ok {g' : Guard} : enterCall l clock g ≠ .ok () g' := by
  rcases enterCall_expired clock g hl with h | h <;> rw [h] <;> exact nofun

/-- No native function and no host object is called. -/
theorem enterNative_expired : enterNative l clock g = .error (timeout l) g := by
  unfold enterNative
  rw [checkDeadline_expired clock hl]

theorem enterNative_ne_ok {n : Nat} {g' : Guard} : enterNative l clock g ≠ .ok n g' := by
  rw [enterNative_expired clock g hl]
  exact nofun

end Expired

end ScriptSandbox.Guard

import ScriptSandbox.Proofs.Visit
import ScriptSandbox.Syntax.Build

/-!
# The counters of a run

A run ends, calls nest no deeper than their quota, and the counts of steps and of rounds pass their
quotas by one at most: exactly when the run has ended with the error that says so
(`run_within_quotas`). Nothing may report these two quotas in the guard's place, which is asked of
the host, too: its functions must not report an exhausted quota of steps or rounds.
-/

namespace ScriptSandbox

open Eval

/-- The quota that an error of a kind is about. -/
def ErrorKind.quota? : ErrorKind → Option Quota
  | limitExceeded quota _ => some quota
  | _ => none

/-- Whether a result is the error of an exhausted quota. -/
def EndedBy (quota : Quota) (result : Except Error Value) : Prop :=
  ∃ e, result = .error e ∧ e.kind.quota? = some quota

/-- Everything may come up but the errors of the quotas of steps and of rounds. -/
def Norm.uncounted (l : Limits) : Norm l where
  good _ := True
  fits _ := True
  errs k := k.quota? ≠ some .steps ∧ k.quota? ≠ some .loopIterations
  good_data _ _ := True.intro
  good_tuple _ _ _ _ := True.intro
  good_items _ _ _ := True.intro
  fits_items _ := True.intro
  good_method _ _ _ _ _ _ := True.intro
  fits_of_le _ := True.intro
  fits_mono _ _ := True.intro
  fits_two := True.intro
  errs_plain k hk := by cases k <;> simp_all [ErrorKind.isPlain, ErrorKind.quota?]
  errs_raised _ := by simp [ErrorKind.quota?]
  errs_container := by simp [ErrorKind.quota?]
  errs_string := by simp [ErrorKind.quota?]
  pieces := True
  errs_piece _ _ := by simp [ErrorKind.quota?]
  errs_powerBase := by simp [ErrorKind.quota?]
  errs_power := by simp [ErrorKind.quota?]
  errs_timeout := by simp [ErrorKind.quota?]

theorem Norm.uncounted_stray {l : Limits} (g : Signal) : (uncounted l).errs g.stray.kind := by
  cases g <;> exact ⟨nofun, nofun⟩

namespace Guard

/-- No quota is broken. -/
structure Within (l : Limits) (g : Guard) : Prop where
  steps : g.steps ≤ l.maxSteps
  loops : g.loops ≤ l.maxLoopIterations
  depth : g.depth ≤ l.maxCallDepth

/-- The counters behind an error about a quota, or about none: they are beyond a quota by one at most,
and that only where the error says so. -/
structure Spent (l : Limits) (quota : Option Quota) (g : Guard) : Prop where
  steps : g.steps ≤ l.maxSteps + 1
  loops : g.loops ≤ l.maxLoopIterations + 1
  steps_iff : g.steps = l.maxSteps + 1 ↔ quota = some .steps
  loops_iff : g.loops = l.maxLoopIterations + 1 ↔ quota = some .loopIterations

theorem Within.spent {l : Limits} {g : Guard} (h : g.Within l) {quota : Option Quota}
    (hsteps : quota ≠ some .steps) (hloops : quota ≠ some .loopIterations) : g.Spent l quota where
  steps := Nat.le_succ_of_le h.steps
  loops := Nat.le_succ_of_le h.loops
  steps_iff := ⟨fun heq => absurd h.steps (by omega), fun hq => absurd hq hsteps⟩
  loops_iff := ⟨fun heq => absurd h.loops (by omega), fun hq => absurd hq hloops⟩

theorem Within.spent_late {l : Limits} {g : Guard} (h : g.Within l) : g.Spent l (some .timeout) :=
  h.spent (by simp) (by simp)

theorem Within.spent_step {l : Limits} {g : Guard} (h : g.Within l) (hlt : l.maxSteps < g.steps + 1) :
    ({ g with steps := g.steps + 1 } : Guard).Spent l (some .steps) := by
  have hsteps : g.steps + 1 = l.maxSteps + 1 := by
    have := h.steps
    omega
  have hloops : g.loops ≠ l.maxLoopIterations + 1 := by
    have := h.loops
    omega
  exact ⟨Nat.le_of_eq hsteps, Nat.le_succ_of_le h.loops, by simp [hsteps], by simp [hloops]⟩

theorem Within.spent_round {l : Limits} {g : Guard} (h : g.Within l)
    (hlt : l.maxLoopIterations < g.loops + 1) :
    ({ g with loops := g.loops + 1 } : Guard).Spent l (some .loopIterations) := by
  have hloops : g.loops + 1 = l.maxLoopIterations + 1 := by
    have := h.loops
    omega
  have hsteps : g.steps ≠ l.maxSteps + 1 := by
    have := h.steps
    omega
  exact ⟨Nat.le_succ_of_le h.steps, Nat.le_of_eq hloops, by simp [hsteps], by simp [hloops]⟩

end Guard

/-- The counters are within the quotas as long as the run goes on. -/
def withinQuotas {sb : Sandbox} (hhost : (Norm.uncounted sb.limits).Lends sb.host) :
    Invariant sb where
  toNorm := .uncounted sb.limits
  allows _ := True
  code _ := True
  reads _ := True
  top _ := True
  counts g := g.Within sb.limits
  fails k g := g.Spent sb.limits k.quota?
  allows_child _ _ := True.intro
  code_of _ _ := True.intro
  allows_code _ _ := True.intro
  fits_rest _ _ _ := True.intro
  fits_starred _ _ _ _ := True.intro
  good_function _ := ⟨fun h => ⟨h, True.intro⟩, And.left⟩
  reads_name _ := True.intro
  errs_stray {_ g} _ _ _ := Norm.uncounted_stray g
  pieces_text _ _ := True.intro
  pieces_call _ _ _ _ := True.intro
  allows_top _ := True.intro
  errs_top {_ g} _ _ := Norm.uncounted_stray g
  lends := hhost
  registered {_ v} _ := show v.Fits (Norm.uncounted sb.limits).fits from
    HostValue.fits_of_forall (fun _ => True.intro) v
  offered _ _ := True.intro
  counts_tick h hle _ := ⟨hle, h.loops, h.depth⟩
  counts_loop h hle _ := ⟨h.steps, hle, h.depth⟩
  counts_call h hlt _ := ⟨h.steps, h.loops, hlt⟩
  counts_native h _ := ⟨h.steps, h.loops, h.depth⟩
  counts_leave h := ⟨h.steps, h.loops, Nat.le_trans (Nat.sub_le _ _) h.depth⟩
  fails_errs h hk := h.spent hk.1 hk.2
  fails_tick h hlt := h.spent_step hlt
  fails_loop h hlt := h.spent_round hlt
  fails_call h := h.spent (by simp [ErrorKind.quota?]) (by simp [ErrorKind.quota?])
  fails_lateTick h hle := Guard.Within.spent_late ⟨hle, h.loops, h.depth⟩
  fails_lateLoop h hle := Guard.Within.spent_late ⟨h.steps, hle, h.depth⟩
  fails_leave h := ⟨h.steps, h.loops, h.steps_iff, h.loops_iff⟩

theorem withinQuotas_start {sb : Sandbox} (hhost : (Norm.uncounted sb.limits).Lends sb.host)
    (store : Store) : (withinQuotas hhost).running.holds (.start store) := by
  have hstore : (Norm.uncounted sb.limits).Kept store := ⟨fun _ _ _ => True.intro,
    fun _ => True.intro, fun _ _ _ => ⟨True.intro, True.intro⟩, fun _ => True.intro,
    fun _ _ _ => True.intro, fun _ => True.intro⟩
  have hcounts : Guard.Within sb.limits ⟨0, 0, 0, 0⟩ := ⟨Nat.zero_le _, Nat.zero_le _, Nat.zero_le _⟩
  exact Invariant.running_holds.2 ⟨Invariant.holds_of _ (Norm.keptRun_start hstore) hcounts,
    Nat.zero_le _⟩

/-! ## Termination -/

/-- Evaluation ends: visits satisfy the equations of a recursion without a bound, which leave nothing
open once they are unfolded as often as there are steps, and each `while` loop satisfies the equation
of a loop without a bound, of which no more rounds than the quota allows are needed. -/
structure Terminates (sb : Sandbox) : Prop where
  visits : (visit sb).next sb = visit sb
  depth : ∀ v, (Visit.next sb)^[sb.limits.maxSteps + 1] v = visit sb
  loops : ∀ test body orelse, whileLoop sb (visit sb) test body orelse = (do
    let value ← (visit sb).expr test
    if ← isTruthy value then
      Guard.tickLoop sb.limits sb.clock
      let flow ← block (visit sb) body
      match afterRound flow with
      | some flow => pure flow
      | none => whileLoop sb (visit sb) test body orelse
    else block (visit sb) orelse)
  rounds : ∀ test body orelse n, sb.limits.maxLoopIterations < n →
    whileRounds sb (visit sb) test body orelse n = whileLoop sb (visit sb) test body orelse

theorem terminates (sb : Sandbox) : Terminates sb where
  visits := visit_next sb
  depth v := Visit.eq_visit (Invariant.visits_eq ⟨v, rfl⟩)
    ⟨_, Function.iterate_succ_apply' (Visit.next sb) _ _⟩
  loops := whileLoop_eq sb
  rounds := whileRounds_eq sb

/-! ## Quotas -/

/-- For every script, every limits and every host that leaves the counting to the guard, a run ends,
calls nest no deeper than their quota wherever a node is visited and whenever a call is entered, and
steps and rounds are beyond their quotas, by one, exactly when the run ended for that. -/
theorem run_within_quotas (sb : Sandbox) (hhost : (Norm.uncounted sb.limits).Lends sb.host)
    (m : Module) (store : Store) :
    Terminates sb ∧
    (∀ n t, m.Visits sb (.start store) n t → t.guard.depth ≤ sb.limits.maxCallDepth) ∧
    (∀ g g', Guard.enterCall sb.limits sb.clock g = .ok () g' → g'.depth ≤ sb.limits.maxCallDepth) ∧
    (run sb m store).2.guard.steps ≤ sb.limits.maxSteps + 1 ∧
    (run sb m store).2.guard.loops ≤ sb.limits.maxLoopIterations + 1 ∧
    ((run sb m store).2.guard.steps = sb.limits.maxSteps + 1 ↔
      EndedBy .steps (run sb m store).1) ∧
    ((run sb m store).2.guard.loops = sb.limits.maxLoopIterations + 1 ↔
      EndedBy .loopIterations (run sb m store).1) := by
  have hstart := withinQuotas_start hhost store
  refine ⟨terminates sb, fun n t h => ?_, fun g g' h => ?_, ?_⟩
  · have := Invariant.of_module hstart (fun _ _ => True.intro) h
    exact this.1.counts.1.depth
  · rcases Guard.enterCall_cases sb.limits sb.clock g with ⟨-, he⟩ | ⟨hlt, he | he⟩
    · rw [he] at h
      cases h
    · rw [he] at h
      cases h
      exact hlt
    · rw [he] at h
      cases h
  · -- the counters behind the run are known from the invariant, the ones behind an error by its kind
    have hends := Invariant.module_ends hstart (m := m) fun _ _ => True.intro
    unfold run
    dsimp only
    cases hr : module sb m (.start store) with
    | ok value s =>
      rw [hr] at hends
      have hs : s.guard.Within sb.limits := hends.2.1.counts.1
      have : s.guard.Spent sb.limits none := hs.spent (by simp) (by simp)
      exact ⟨this.steps, this.loops, by simp [EndedBy, this.steps_iff],
        by simp [EndedBy, this.loops_iff]⟩
    | error e s =>
      rw [hr] at hends
      have := hends.1
      exact ⟨this.steps, this.loops, by simp [EndedBy, this.steps_iff],
        by simp [EndedBy, this.loops_iff]⟩

/-- A loop without an end, `while True: pass`. -/
def endlessLoop : Module := ⟨[Syntax.Build.whileLoop (Syntax.Build.boolean true) [Syntax.Build.pass]]⟩

/-- A sandbox with the preset that allows two rounds of loops. -/
def twoRounds : Sandbox :=
  ⟨{ Limits.standard with maxLoopIterations := 2 }, .standard, .bare, .stopped⟩

/-- A loop without an end is stopped in its third round. -/
theorem endlessLoop_loops : (Norm.uncounted twoRounds.limits).Lends twoRounds.host ∧
    EndedBy .loopIterations (run twoRounds endlessLoop .empty).1 ∧
    (run twoRounds endlessLoop .empty).2.guard.loops = 3 := by
  have ended : EndedBy .loopIterations (run twoRounds endlessLoop .empty).1 := ⟨_, rfl, rfl⟩
  obtain ⟨-, -, -, -, -, -, loops⟩ :=
    run_within_quotas twoRounds Norm.lends_bare endlessLoop .empty
  exact ⟨Norm.lends_bare, ended, loops.2 ended⟩

end ScriptSandbox

import ScriptSandbox.Proofs.Attribute.Target
import ScriptSandbox.Proofs.Counters

/-!
# Runs without any time

Where the deadline has passed before a run starts, as it has without any time budget, the first call,
round or 64th step ends the run, whatever the clock shows.
No code of a function, no body of a loop and nothing behind a round of a comprehension is evaluated
(`Halted`), so the run comes to an end within 64 steps (`expired_run_stops`).
-/

namespace ScriptSandbox

open Eval

/-- No call and no round gets by: functions neither bind their arguments nor run, native functions and
objects are not asked, and loops and comprehensions do not depend on what they do in a round. -/
structure Eval.Halted (sb : Sandbox) : Prop where
  function : ∀ v f args span s, ∃ e, callValue sb v (.function f) args span s = .error e s ∧
    (e.kind = .limitExceeded .callDepth sb.limits.maxCallDepth ∨
      e.kind = .limitExceeded .timeout sb.limits.timeoutMillis)
  native : ∀ v f args span, callValue sb v (.native f) args span =
    throw (.limitExceeded .timeout sb.limits.timeoutMillis)
  object : ∀ v o args span, callValue sb v (.object o) args span =
    throw (.limitExceeded .timeout sb.limits.timeoutMillis)
  forLoop : ∀ v iter orelse target body target' body',
    forLoop sb v target iter body orelse = forLoop sb v target' iter body' orelse
  whileLoop : ∀ v test orelse body body',
    whileLoop sb v test body orelse = whileLoop sb v test body' orelse
  comprehension : ∀ v nothing iter target ifs behind collect target' ifs' behind' collect',
    comprehend sb v collect nothing (⟨target, iter, ifs⟩ :: behind) =
      comprehend sb v collect' nothing (⟨target', iter, ifs'⟩ :: behind')

namespace Eval

variable {sb : Sandbox} (hsb : sb.limits.timeout = 0)

include hsb

/-- What follows the counting of a round is not evaluated. -/
theorem tickLoop_then {α : Type} (f f' : Unit → Eval α) :
    (onGuard (Guard.tickLoop sb.limits sb.clock) >>= f) =
      (onGuard (Guard.tickLoop sb.limits sb.clock) >>= f') := by
  funext s
  obtain ⟨e, h⟩ := Guard.tickLoop_expired sb.clock s.guard hsb
  simp only [bind_apply, onGuard, h]

theorem whileRounds_halted (v : Visit) (test : Expr) (orelse body body' : List Stmt) (n : Nat) :
    whileRounds sb v test body orelse n = whileRounds sb v test body' orelse n := by
  cases n with
  | zero => rfl
  | succ n =>
    refine bind_congr fun value => bind_congr fun truth => ?_
    split
    · exact tickLoop_then hsb _ _
    · rfl

theorem runClause_halted (v : Visit) (iter : Expr) (source : Value) (out : Collection)
    (target target' : Expr) (ifs ifs' : List Expr) (behind behind' : List Comprehension)
    (collect collect' : Collection → Eval Collection) :
    runClause sb v collect ⟨target, iter, ifs⟩ source out behind =
      runClause sb v collect' ⟨target', iter, ifs'⟩ source out behind' := by
  have rounds : clauseRound sb v collect ⟨target, iter, ifs⟩ behind =
      clauseRound sb v collect' ⟨target', iter, ifs'⟩ behind' :=
    funext fun _ => funext fun _ => tickLoop_then hsb _ _
  rw [runClause_eq, runClause_eq, rounds]

/-- Nothing that cannot be interrupted is started. -/
theorem callNative_halted (f : CallContext → StoreM Value) :
    callNative sb f = throw (.limitExceeded .timeout sb.limits.timeoutMillis) := by
  funext s
  simp only [callNative, bind_apply, liftM, monadLift, MonadLift.monadLift, onGuard,
    Guard.enterNative_expired sb.clock s.guard hsb]
  rfl

theorem halted : Halted sb where
  function v f args span s := by
    rcases Guard.enterCall_expired sb.clock s.guard hsb with h | h
    · refine ⟨.limitExceeded .callDepth sb.limits.maxCallDepth, ?_, .inl rfl⟩
      simp only [callValue, callFunction, bind_apply, liftM, monadLift, MonadLift.monadLift, onGuard, h]
    · refine ⟨Guard.timeout sb.limits, ?_, .inr rfl⟩
      simp only [callValue, callFunction, bind_apply, liftM, monadLift, MonadLift.monadLift, onGuard, h]
  native _ _ _ _ := by
    rw [callValue]
    exact callNative_halted hsb _
  object _ _ _ _ := by
    rw [callValue]
    exact callNative_halted hsb _
  forLoop v iter orelse target body target' body' := by
    have rounds : forRound sb v target body = forRound sb v target' body' :=
      funext fun _ => tickLoop_then hsb _ _
    rw [forLoop_eq, forLoop_eq, rounds]
  whileLoop v test orelse body body' := whileRounds_halted hsb v test orelse body body' _
  comprehension v nothing iter target ifs behind collect target' ifs' behind' collect' := by
    simp only [comprehend,
      runClause_halted hsb v iter _ nothing target target' ifs ifs' behind behind' collect collect']

end Eval

/-- The counters of a run behind its deadline as long as it goes on. -/
structure Guard.Idle (g : Guard) : Prop where
  loops : g.loops = 0
  depth : g.depth = 0
  steps : g.steps < 64

/-- The counters behind an error of a kind: the 64th step, if the quota allows it, finds the deadline
passed. -/
structure Guard.Stopped (l : Limits) (kind : ErrorKind) (g : Guard) : Prop where
  steps : g.steps ≤ 64
  late : g.steps = 64 → 64 ≤ l.maxSteps → kind = .limitExceeded .timeout l.timeoutMillis

namespace Guard

variable {l : Limits} {clock : Clock} {g : Guard}

theorem Idle.stopped (h : g.Idle) (kind : ErrorKind) : g.Stopped l kind :=
  ⟨Nat.le_of_lt h.steps, fun heq => absurd heq (Nat.ne_of_lt h.steps)⟩

theorem Idle.stopped_step (h : g.Idle) {kind : ErrorKind}
    (hkind : g.steps + 1 ≤ l.maxSteps → kind = .limitExceeded .timeout l.timeoutMillis) :
    ({ g with steps := g.steps + 1 } : Guard).Stopped l kind where
  steps := h.steps
  late heq hmax := hkind (by dsimp only at heq; omega)

theorem Idle.stopped_round (h : g.Idle) (kind : ErrorKind) :
    ({ g with loops := g.loops + 1 } : Guard).Stopped l kind :=
  ⟨(h.stopped (l := l) kind).steps, (h.stopped kind).late⟩

theorem Idle.exitCall (h : g.Idle) : g.exitCall.Idle where
  loops := h.loops
  depth := by simp [Guard.exitCall, h.depth]
  steps := h.steps

theorem Idle.tick (h : g.Idle) (hl : l.timeout = 0)
    (hok : Guard.tick l clock g = .ok () { g with steps := g.steps + 1 }) :
    ({ g with steps := g.steps + 1 } : Guard).Idle := by
  have hpolled := tick_expired clock g hl hok
  have hsteps := h.steps
  refine ⟨h.loops, h.depth, ?_⟩
  simp only [CallContext.pollInterval] at hpolled
  dsimp only
  omega

end Guard

/-- Behind the deadline a run stays idle until it ends. -/
def Invariant.idle {sb : Sandbox} (hsb : sb.limits.timeout = 0) : Invariant sb :=
  { Invariant.trivial sb with
    counts := Guard.Idle
    fails := fun kind g => g.Stopped sb.limits kind
    counts_tick := fun h _ hok => h.tick hsb hok
    counts_loop := fun _ _ hok => absurd hok (Guard.tickLoop_ne_ok _ _ hsb)
    counts_call := fun _ _ hok => absurd hok (Guard.enterCall_ne_ok _ _ hsb)
    counts_native := fun _ hok => absurd hok (Guard.enterNative_ne_ok _ _ hsb)
    counts_leave := Guard.Idle.exitCall
    fails_errs := fun h _ => h.stopped _
    fails_tick := fun h hlt => h.stopped_step fun hle => absurd hlt (Nat.not_lt.2 hle)
    fails_loop := fun h _ => h.stopped_round _
    fails_call := fun h => h.stopped _
    fails_lateTick := fun h _ => h.stopped_step fun _ => rfl
    fails_lateLoop := fun h _ => h.stopped_round _
    fails_leave := fun h => ⟨h.steps, h.late⟩ }

/-- In a run whose deadline has passed when it starts, no function, native function or object is
called and no round of a loop or of a comprehension is evaluated; nodes are visited outside of calls
and rounds only, at most 63 if the run succeeds, and the 64th visit ends the run with the error of the
deadline, unless the quota of steps has ended it before. -/
theorem expired_run_stops (sb : Sandbox) (hsb : sb.limits.timeout = 0) (m : Module)
    (store : Store) :
    Halted sb ∧
    (∀ n t, m.Visits sb (.start store) n t →
      t.guard.loops = 0 ∧ t.guard.depth = 0 ∧ t.guard.steps < 64) ∧
    (run sb m store).2.guard.steps ≤ 64 ∧
    (∀ v, (run sb m store).1 = .ok v → (run sb m store).2.guard.steps ≤ 63) ∧
    ((run sb m store).2.guard.steps = 64 → 64 ≤ sb.limits.maxSteps →
      ∃ e, (run sb m store).1 = .error e ∧
        e.kind = .limitExceeded .timeout sb.limits.timeoutMillis) := by
  have hstart : (Invariant.idle hsb).running.holds (.start store) :=
    Invariant.running_holds.2 ⟨Invariant.holds_of _ (Norm.keptRun_start (Norm.kept_trivial _))
      ⟨rfl, rfl, Nat.zero_lt_succ _⟩, Nat.zero_le _⟩
  have hends := Invariant.module_ends (m := m) hstart fun _ _ => True.intro
  refine ⟨halted hsb, fun n t h => ?_, ?_⟩
  · -- the clock is looked at in calls and rounds, so none of them has been entered before a visit
    have hidle : t.guard.Idle := (Invariant.of_module hstart (fun _ _ => True.intro) h).1.counts.1
    exact ⟨hidle.loops, hidle.depth, hidle.steps⟩
  · unfold run
    cases hr : module sb m (.start store) with
    | ok v s =>
      rw [hr] at hends
      have hidle : s.guard.Idle := hends.2.1.counts.1
      have hsteps : s.guard.steps ≠ 64 := Nat.ne_of_lt hidle.steps
      exact ⟨Nat.le_of_lt hidle.steps, fun _ _ => Nat.le_of_lt_succ hidle.steps,
        fun heq => absurd heq hsteps⟩
    | error e s =>
      rw [hr] at hends
      have hstopped : s.guard.Stopped sb.limits e.kind := hends.1
      exact ⟨hstopped.steps, fun v hv => (by cases hv), fun heq hmax =>
        ⟨e, rfl, hstopped.late heq hmax⟩⟩

/-- The usual quotas and functions, and no time at all. -/
def noTime : Sandbox := ⟨{ Limits.standard with timeout := 0 }, .standard, .bare, .stopped⟩

/-- A script of many statements without loops and calls. -/
def manyPasses : Module := ⟨List.replicate 70 Syntax.Build.pass⟩

/-- The script is stopped at its 64th statement. -/
theorem manyPasses_stopped : noTime.limits.timeout = 0 ∧
    (run noTime manyPasses .empty).2.guard.steps = 64 ∧ 64 ≤ noTime.limits.maxSteps ∧
    ∃ e, (run noTime manyPasses .empty).1 = .error e ∧
      e.kind = .limitExceeded .timeout noTime.limits.timeoutMillis := by
  have counted : (run noTime manyPasses .empty).2.guard.steps = 64 := by
    decide +kernel
  have allowed : 64 ≤ noTime.limits.maxSteps := by decide
  obtain ⟨-, -, -, -, late⟩ := expired_run_stops noTime rfl manyPasses .empty
  exact ⟨rfl, counted, allowed, late counted allowed⟩

end ScriptSandbox

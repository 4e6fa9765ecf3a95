import Mathlib.Logic.Function.Iterate
import ScriptSandbox.Proofs.Invariant

/-!
# Invariants: visits and scripts

Every invariant is kept by every construct. The number that bounds how deep visits nest is never
used up: where the quota of steps leaves fewer visits than the number allows, a visit fails before
it could matter (`Invariant.visits`). So the visits of a run are the only solution of the equations
in which the visit of a node refers to the visits of the nodes inside it (`Eval.visit_next`).
-/

namespace ScriptSandbox

open Eval

namespace ScopedInvariant

variable {sb : Sandbox} (I : ScopedInvariant sb)

/-- Keeping an invariant is closed under all constructs. -/
def congruence : Congruence sb sb where
  toNorm := I.toNorm
  allows := I.allows
  code := I.code
  reads := I.reads
  held := I.held
  rounds n := n ≤ sb.limits.maxLoopIterations
  inv := I.holds
  rel := I.Keeps
  allows_child := I.allows_child
  code_of := I.code_of
  allows_code := I.allows_code
  fits_rest := I.fits_rest
  fits_starred := I.fits_starred
  good_function := I.good_function
  reads_name := I.reads_name
  errs_stray := I.errs_stray
  pieces_text := I.pieces_text
  pieces_call := I.pieces_call
  inv_kept hs := hs.store
  inv_binding {_ r name v} hs h := by
    obtain ⟨before, behind, hsplit, -⟩ := List.lookup_eq_some_iff.1 h
    exact hs.binding r (name, v) (by rw [hsplit]; simp)
  inv_handling hs he := hs.handling _ he
  mono hP h := h.mono hP
  sure := .sure
  pure := .pure
  bind := .bind
  get := .get
  throw := .throw
  located := .located
  attempt := .attempt
  handling := .handling
  define hv := .change (fun _ hs => hs.defineIn _ _ hv) fun _ => rfl
  defineIn hv := .change (fun _ hs => hs.defineIn _ _ hv) fun _ => rfl
  inScope := .inScope
  inCall := .inCall
  lookupBinding := .lookupBinding
  tickLoop := .tickLoop
  countRounds := .countRounds
  checkContainer n := .ofExcept (Norm.checkContainer n)
  checkString n := .ofExcept (Norm.checkString n)
  newId := .onStore Norm.Sound.newId
  newList hn h := .onStore (Norm.Sound.newList ⟨hn, h⟩)
  newDict hn h := .onStore (Norm.Sound.newDict ⟨hn, h⟩)
  newSet hn h := .onStore (Norm.Sound.newSet ⟨hn, h⟩)
  text _ _ hused _ := .onStore (Norm.Sound.look fun _ _ => Norm.text (Norm.budget_left hused) _)
  convert conversion hv := .onStore (Norm.Sound.look fun _ _ => Norm.convert hv conversion)
  format spec _ := .onStore (Norm.Sound.look fun _ _ => Norm.format _ spec)
  binary op _ _ ha hb := .onStore (Norm.binary op ha hb)
  getItem hc hi := .onStore (Norm.getItem I.lends hc hi)
  getSlice bounds hc := .onStore (Norm.getSlice bounds hc)
  setItem _ hi hv := .onStore (Norm.setItem hi hv)
  setSlice bounds _ hv := .onStore (Norm.setSlice bounds hv)
  readAttribute attr hr := .onStore (Norm.readAttribute I.lends attr hr)
  callNative {f args} _ h hprint := .callNative fun number => by
    cases hid : f.id with
    | builtin b => exact Norm.Builtin.call b h fun hb => hprint (hid.trans (congrArg _ hb))
    | host name => exact I.lends.callFunction f _ number h
  callObject {o args} h := .callNative fun number => I.lends.callObject o _ number h
  callMethod _ h := .onStore (Norm.callMethod _ _ h)

/-! ## Loops -/

section Loops

variable {I} {v v' : Visit} {test : Expr} {body orelse : List Stmt}

/-- Rounds are bounded by the quota, so it does not matter which number bounds them besides. -/
theorem whileRounds (htest : I.Keeps I.good (v.expr test) (v'.expr test))
    (hbody : I.Keeps I.congruence.GoodFlow (block v body) (block v' body))
    (horelse : I.Keeps I.congruence.GoodFlow (block v orelse) (block v' orelse)) :
    ∀ {n n' : Nat} {s : RunState}, I.holds s → 1 ≤ n → 1 ≤ n' →
    sb.limits.maxLoopIterations + 1 ≤ s.guard.loops + n →
    sb.limits.maxLoopIterations + 1 ≤ s.guard.loops + n' →
    I.KeepsAt I.congruence.GoodFlow (whileRounds sb v test body orelse n)
      (whileRounds sb v' test body orelse n') s
  | n + 1, n' + 1, s, hs, _, _, hn, hn' => by
    refine (htest s hs).bind fun value s₁ _ _ hs₁ hsince₁ => ?_
    refine (I.congruence.isTruthy value s₁ hs₁).bind fun truth s₂ _ _ hs₂ hsince₂ => ?_
    cases truth with
    | false => exact horelse s₂ hs₂
    | true =>
      refine (Keeps.tickLoop s₂ hs₂).bind fun _ s₃ hround _ hs₃ _ => ?_
      obtain ⟨hone, hmax⟩ := Keeps.tickLoop_ok hround
      refine (hbody s₃ hs₃).bind fun flow s₄ _ hflow hs₄ hsince₄ => ?_
      have hended := Congruence.afterRound hflow
      have := hsince₁.2
      have := hsince₂.2
      have := hsince₄.2
      split
      · rename_i ended h
        exact Keeps.pure (hended ended h) s₄ hs₄
      · exact whileRounds htest hbody horelse hs₄ (by omega) (by omega) (by omega) (by omega)

theorem keepsLoops : I.congruence.KeepsLoops := fun htest hbody horelse _ hs =>
  whileRounds htest hbody horelse hs (Nat.le_add_left _ _) (Nat.le_add_left _ _)
    (Nat.le_add_left _ _) (Nat.le_add_left _ _)

end Loops

/-! ## Steps -/

section Steps

variable {I}

/-- A step that is counted is within the quota, and one that is not ends the run. -/
theorem tick_ends {s : RunState} (h : I.counts s.guard) :
    match onGuard (Guard.tick sb.limits sb.clock) s with
    | .ok _ s' => s' = { s with guard := { s.guard with steps := s.guard.steps + 1 } } ∧
        s'.guard.steps ≤ sb.limits.maxSteps ∧ I.counts s'.guard
    | .error e s' => I.fails e.kind s'.guard ∧ s'.scopes = s.scopes ∧ e.isCatchable = false := by
  simp only [onGuard]
  rcases Guard.tick_cases sb.limits sb.clock s.guard with ⟨hlt, ht⟩ | ⟨hle, ht | ht⟩
  · simp only [ht, true_and]
    exact ⟨I.fails_tick h hlt, rfl⟩
  · simp only [ht]
    exact ⟨True.intro, hle, I.counts_tick h hle ht⟩
  · simp only [ht, true_and]
    exact ⟨I.fails_lateTick h hle, rfl⟩

theorem keepsSteps : I.congruence.KeepsSteps := by
  refine Keeps.of_ends fun s hs => ?_
  have hends := tick_ends hs.counts
  cases ht : onGuard (Guard.tick sb.limits sb.clock) s with
  | error e s' =>
    rw [ht] at hends
    exact .fatal hends.1 (hends.2.1 ▸ hs.linked) hends.2.2
  | ok _ s' =>
    rw [ht] at hends
    obtain ⟨rfl, -, hcounts⟩ := hends
    exact ⟨True.intro, hs.setGuard hcounts, Nat.le_succ _, Nat.le_refl _⟩

end Steps

end ScopedInvariant

/-! ## Visits -/

namespace Invariant

variable {sb : Sandbox} (I : Invariant sb)

theorem linked (s : Scopes) : I.Linked s := fun _ _ _ => I.held_all _

theorem holds_of {s : RunState} (h : I.toNorm.KeptRun s) (hcounts : I.counts s.guard) : I.holds s :=
  ⟨h, hcounts, I.linked s.scopes⟩

/-- The invariant at states in which at least one step is left, and at most `depth` are. -/
def deep (depth : Nat) : Invariant sb :=
  { I with
    counts := fun g => I.counts g ∧ g.steps ≤ sb.limits.maxSteps ∧
      sb.limits.maxSteps + 1 ≤ g.steps + depth
    counts_tick := fun h hle hok =>
      ⟨I.counts_tick h.1 hle hok, hle, by have := h.2.2; dsimp only; omega⟩
    counts_loop := fun h hle hok => ⟨I.counts_loop h.1 hle hok, h.2⟩
    counts_call := fun h hlt hok => ⟨I.counts_call h.1 hlt hok, h.2⟩
    counts_native := fun h hok => ⟨I.counts_native h.1 hok, h.2⟩
    counts_leave := fun h => ⟨I.counts_leave h.1, h.2⟩
    fails_errs := fun h => I.fails_errs h.1
    fails_tick := fun h => I.fails_tick h.1
    fails_loop := fun h => I.fails_loop h.1
    fails_call := fun h => I.fails_call h.1
    fails_lateTick := fun h => I.fails_lateTick h.1
    fails_lateLoop := fun h => I.fails_lateLoop h.1 }

variable {I} {depth : Nat} {α : Type} {P : α → Prop}

theorem deep.holds_succ {s : RunState} (hs : (I.deep depth).holds s) :
    (I.deep (depth + 1)).holds s :=
  ⟨hs.toKeptRun, ⟨hs.counts.1, hs.counts.2.1, Nat.le_succ_of_le hs.counts.2.2⟩, hs.linked⟩

theorem deep.ends_succ {g : Guard} {r : EStateM.Result Error RunState α}
    (h : (I.deep depth).Ends P g r) : (I.deep (depth + 1)).Ends P g r := by
  cases r with
  | ok a s => exact ⟨h.1, holds_succ h.2.1, h.2.2⟩
  | error e s =>
    exact ⟨h.1, fun he => ⟨(h.2.1 he).1, holds_succ (h.2.1 he).2.1, (h.2.1 he).2.2⟩, h.2.2⟩

/-- A visit leaves one step less for the visits inside it. -/
theorem deep.visit {m m' : Eval α} (h : (I.deep depth).Keeps P m m') :
    (I.deep (depth + 1)).Keeps P (onGuard (Guard.tick sb.limits sb.clock) >>= fun _ => m)
      (onGuard (Guard.tick sb.limits sb.clock) >>= fun _ => m') := by
  intro s hs
  obtain ⟨hcounts, -, hdepth⟩ := hs.counts
  have hends := ScopedInvariant.tick_ends hcounts
  simp only [ScopedInvariant.KeepsAt, bind_apply]
  cases ht : onGuard (Guard.tick sb.limits sb.clock) s with
  | error e s' =>
    rw [ht] at hends
    exact ⟨rfl, .fatal hends.1 (hends.2.1 ▸ hs.linked) hends.2.2⟩
  | ok _ s' =>
    rw [ht] at hends
    obtain ⟨rfl, hle, hcounts⟩ := hends
    have hs' : (I.deep depth).holds { s with guard := { s.guard with steps := s.guard.steps + 1 } } :=
      ⟨⟨hs.store, hs.binding, hs.copies, hs.handling⟩, ⟨hcounts, hle, by dsimp only; omega⟩,
        hs.linked⟩
    have hsince : s.guard.Since { s.guard with steps := s.guard.steps + 1 } :=
      ⟨Nat.le_succ _, Nat.le_refl _⟩
    obtain ⟨heq, hends⟩ := h _ hs'
    exact ⟨heq, (deep.ends_succ hends).since hsince⟩

theorem visits_next {v v' : Visit} (hv : (I.deep depth).congruence.Visits v v') :
    (I.deep (depth + 1)).congruence.Visits (v.next sb) (v'.next sb) where
  lawful := hv.lawful.next sb
  expr e h := ScopedInvariant.Keeps.located e.span <| deep.visit <|
    Congruence.exprKind hv h fun _ => Congruence.keepsPlace _ I.held_all
  stmt s h := ScopedInvariant.Keeps.located s.span <| deep.visit <|
    Congruence.stmtKind ScopedInvariant.keepsLoops hv h fun _ => Congruence.keepsPlace _ I.held_all

variable (I) in
/-- What is put in for visits that nest deeper than steps are left is never asked for. -/
theorem visits_iterate {v : Visit} (hv : v.Lawful) (v' : Visit) : ∀ depth,
    (I.deep depth).congruence.Visits ((Visit.next sb)^[depth] v) ((Visit.next sb)^[depth] v')
  | 0 =>
    have never : ∀ {α : Type} {P : α → Prop} {m m' : Eval α}, (I.deep 0).Keeps P m m' :=
      fun _ hs => absurd hs.counts.2 (by omega)
    ⟨hv, fun _ _ => never, fun _ _ => never⟩
  | depth + 1 => by
    rw [Function.iterate_succ_apply', Function.iterate_succ_apply']
    exact visits_next (visits_iterate hv v' depth)

variable (I) in
/-- The invariant at states in which at least one step is left. -/
def running : Invariant sb := I.deep (sb.limits.maxSteps + 1)

theorem running_holds {s : RunState} :
    I.running.holds s ↔ I.holds s ∧ s.guard.steps ≤ sb.limits.maxSteps :=
  ⟨fun h => ⟨⟨h.toKeptRun, h.counts.1, h.linked⟩, h.counts.2.1⟩, fun h =>
    ⟨h.1.toKeptRun, ⟨h.1.counts, h.2, Nat.le_add_left _ _⟩, h.1.linked⟩⟩

theorem visitWithin_eq (sb : Sandbox) (depth : Nat) :
    visitWithin sb depth = (Visit.next sb)^[depth] (visitWithin sb 0) := by
  induction depth with
  | zero => rfl
  | succ depth ih => rw [visitWithin_succ, ih, Function.iterate_succ_apply']

/-- The visits of a run agree with all visits that answer like them to some depth. -/
theorem visits_eq {v : Visit} (h : ∃ v₀, v = (Visit.next sb)^[sb.limits.maxSteps + 1] v₀) :
    I.running.congruence.Visits (visit sb) v := by
  obtain ⟨v₀, rfl⟩ := h
  rw [visit, visitWithin_eq]
  exact visits_iterate I (visitWithin_lawful sb 0) v₀ _

end Invariant

end ScriptSandbox

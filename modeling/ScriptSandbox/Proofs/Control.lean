import ScriptSandbox.Proofs.Assignment
import ScriptSandbox.Proofs.Profile

/-!
# Signals stay inside their construct

A block is left early only by a signal that stands in it: by a `return` outside of nested functions, or
by a `break` or a `continue` that is outside of the loops of the block, too. So a module or a function
whose loop control is all in loops does not fail for it, and neither does a module without a `return`
outside of functions for that (`signals_contained`). What such a function calls may still fail, unless
the code of all functions at hand is of this sort; a host has to keep from these errors as well.
-/

namespace ScriptSandbox

open Eval

/-- Outside of nested functions, every `break` and every `continue` of a block is in the body of a loop
of the block. -/
def ControlInLoops (body : List Stmt) : Prop := ∀ g, BlockSignals body g → g = .return

/-- If a node makes a function, loop control in its body is in loops. -/
def Node.ControlInLoops (n : Node) : Prop :=
  ∀ d, n.code? = some (.definition d) → ScriptSandbox.ControlInLoops d.body

theorem Signal.ne_stray_of_isPlain (g : Signal) {k : ErrorKind} (h : k.isPlain = true) :
    k ≠ g.stray.kind := by
  rintro rfl
  cases g <;> exact absurd h (by decide)

/-- Nothing fails for a signal, and no function lets a signal pass that fails alike. -/
def Profile.without (sb : Sandbox) (g : Signal) (node : Node → Prop)
    (h : ∀ {n : Node} {d : FunctionDef} {g' : Signal}, node n → n.code? = some (.definition d) →
      BlockSignals d.body g' → g' ≠ .return → g'.stray.kind ≠ g.stray.kind) : Profile sb where
  node := node
  native _ := True
  pieces := True
  errs k := k ≠ g.stray.kind
  errs_plain _ hk := g.ne_stray_of_isPlain hk
  errs_raised v := (g.stray_ne_raised v).symm
  errs_quota quota := (g.stray_ne_limit quota _).symm
  errs_piece {n} _ _ := (g.stray_ne_limit .stringLength n).symm
  errs_stray := h
  pieces_text _ _ := True.intro
  pieces_call _ _ _ _ := True.intro
  offered _ _ := True.intro

/-- Where loop control is in loops, nothing fails for it. -/
def Profile.controlled (sb : Sandbox) : Profile sb :=
  .without sb .break Node.ControlInLoops fun hn hd hg hne => absurd (hn _ hd _ hg) hne

/-- No function fails for a `return`. -/
def Profile.unreturned (sb : Sandbox) : Profile sb :=
  .without sb .return (fun _ => True) fun {_ _ g} _ _ _ hne => g.stray_ne_return hne

section Blocks

variable {sb : Sandbox} {s s' : RunState}

/-- A block that has ended early has done so by a signal in it. -/
theorem blockSignals_of_ok {body : List Stmt} {flow : Flow} {g : Signal}
    (h : block (visit sb) body s = .ok flow s') (hg : flow.signal? = some g) : BlockSignals body g :=
  block_gives (visit_lawful sb) body s flow s' h g hg

/-- A function whose loop control is in loops ends as its body does if that fails. -/
theorem block_error_of_runCode {d : FunctionDef} (hd : ControlInLoops d.body) {e : Error}
    (h : runCode (visit sb) (.definition d) s = .error e s') :
    block (visit sb) d.body s = .error e s' := by
  simp only [runCode, bind_apply] at h
  cases hr : block (visit sb) d.body s with
  | error e' s'' =>
    rw [hr] at h
    cases h
    rfl
  | ok flow s'' =>
    rw [hr] at h
    cases flow with
    | normal | returning value => cases h
    | breaking => cases hd .break (blockSignals_of_ok hr rfl)
    | continuing => cases hd .continue (blockSignals_of_ok hr rfl)

end Blocks

section Runs

variable {sb : Sandbox}

/-- Where all functions at hand keep loop control in loops, so do their calls. -/
theorem call_controlled (hhost : (Profile.controlled sb).norm.Lends sb.host) {s s' : RunState}
    (hs : (Profile.controlled sb).norm.KeptRun s) {f : Closure} (hf : f.code.Of Node.ControlInLoops)
    {args : Arguments} (hargs : (Profile.controlled sb).norm.GoodArgs args) (span : Span) {e : Error}
    (h : callFunction sb (visit sb) f args span s = .error e s') :
    e.kind ≠ .structural "loop control outside loop" := by
  have hcall := Congruence.callFunction (Profile.visits hhost) span (.function hf) hargs
  have hends := (hcall s (Profile.holds hhost hs)).2
  rw [h] at hends
  exact hends.1

/-- Nothing is asked of the values at hand where every node may come up. -/
theorem unreturned_kept (store : Store) : (Profile.unreturned sb).norm.Kept store :=
  Norm.kept_of_forall
    (Value.made_of_forall (FunctionCode.of_forall fun _ => True.intro) fun _ => True.intro)
    (fun _ => True.intro) store

end Runs

/-- Blocks end early only by signals that stand in them and are not used up inside: the body of a
loop uses up `break` and `continue`, its `else` block does not, and a nested function uses up all of
them. So neither a function nor a module whose loop control is in loops fails for it, with all the
functions they call, and no module without a `return` of its own fails for that. -/
theorem signals_contained (sb : Sandbox) :
    (∀ body s flow s', block (visit sb) body s = .ok flow s' →
      (flow = .breaking → BlockSignals body .break) ∧
      (flow = .continuing → BlockSignals body .continue) ∧
      (∀ value, flow = .returning value → BlockSignals body .return)) ∧
    (∀ d, ControlInLoops d.body → ∀ s e s', runCode (visit sb) (.definition d) s = .error e s' →
      block (visit sb) d.body s = .error e s') ∧
    ((Profile.controlled sb).norm.Lends sb.host →
      (∀ f, f.code.Of Node.ControlInLoops → ∀ args span s e s',
        (Profile.controlled sb).norm.GoodArgs args → (Profile.controlled sb).norm.KeptRun s →
        callFunction sb (visit sb) f args span s = .error e s' →
        e.kind ≠ .structural "loop control outside loop") ∧
      (∀ m store e, ControlInLoops m.body →
        (∀ st ∈ m.body, (Node.stmt st).All Node.ControlInLoops) →
        (Profile.controlled sb).norm.Kept store → (run sb m store).1 = .error e →
        e.kind ≠ .structural "loop control outside loop")) ∧
    ((Profile.unreturned sb).norm.Lends sb.host → ∀ m store e, ¬ BlockSignals m.body .return →
      (run sb m store).1 = .error e → e.kind ≠ .structural "'return' outside function") := by
  refine ⟨fun body s flow s' h => ⟨?_, ?_, ?_⟩, fun d hd s e s' h => block_error_of_runCode hd h,
    fun hhost => ⟨?_, ?_⟩, fun hhost m store e hm he => ?_⟩
  · rintro rfl
    exact blockSignals_of_ok h rfl
  · rintro rfl
    exact blockSignals_of_ok h rfl
  · rintro value rfl
    exact blockSignals_of_ok h rfl
  · exact fun f hf args span s e s' hargs hs h => call_controlled hhost hs hf hargs span h
  · intro m store e hm hnodes hstore he
    refine Profile.run_errs hhost (fun st hst => ⟨hnodes st hst, fun {g} hg => ?_⟩) hstore he
    obtain rfl := hm g ⟨st, hst, hg⟩
    exact (Signal.stray_ne_return .break (by decide)).symm
  · refine Profile.run_errs hhost (fun st hst => ⟨fun _ _ => True.intro, fun {g} hg => ?_⟩)
      (unreturned_kept store) he
    refine g.stray_ne_return ?_
    rintro rfl
    exact hm ⟨st, hst, hg⟩

/-! ### A loop that is left before its first round -/

/-- The statement `for x in 5: break`. -/
def loopOverFive : Stmt :=
  Syntax.Build.forLoop (Syntax.Build.name "x") (Syntax.Build.int 5) [Syntax.Build.breakStmt]

theorem signals_loopOverFive {g : Signal} : ¬ loopOverFive.Signals g := by
  intro h
  cases h with
  | here h => cases h
  | branch hst _ => cases hst
  | round hst h =>
    rw [List.mem_singleton.1 hst] at h
    cases h with
    | here h => cases h
    | branch hst _ => cases hst
    | round hst _ => cases hst

theorem nodes_loopOverFive : (Node.stmt loopOverFive).All Node.ControlInLoops := by
  intro n hn
  cases hn with
  | refl => exact fun d hd => by cases hd
  | @step _ part _ hpart hn =>
    have hleaf : part = .expr (Syntax.Build.name "x") ∨ part = .expr (Syntax.Build.int 5) ∨
        part = .stmt Syntax.Build.breakStmt := by
      simpa [loopOverFive, Syntax.Build.forLoop, Syntax.Build.forElse, Syntax.Build.stmt,
        Node.children, StmtKind.children] using hpart
    obtain rfl | rfl | rfl := hleaf <;>
      exact Node.all_of_leaf (fun d hd => by cases hd) rfl n hn

/-- The statement fails, but not for the `break`. -/
theorem loopOverFive_contained : (Profile.controlled unaided).norm.Lends unaided.host ∧
    (Profile.unreturned unaided).norm.Lends unaided.host ∧ ControlInLoops [loopOverFive] ∧
    ∃ e, (run unaided ⟨[loopOverFive]⟩ .empty).1 = .error e ∧
      e.kind ≠ .structural "loop control outside loop" ∧
      e.kind ≠ .structural "'return' outside function" := by
  have leaves : ∀ g, ¬ BlockSignals [loopOverFive] g := by
    rintro g ⟨st, hst, hg⟩
    rw [List.mem_singleton.1 hst] at hg
    exact signals_loopOverFive hg
  have inLoops : ControlInLoops [loopOverFive] := fun g hg => absurd hg (leaves g)
  obtain ⟨-, -, controlled, unreturned⟩ := signals_contained unaided
  refine ⟨Norm.lends_bare, Norm.lends_bare, inLoops, _, rfl, ?_, ?_⟩
  · refine (controlled Norm.lends_bare).2 ⟨[loopOverFive]⟩ .empty _ inLoops ?_ (Norm.kept_empty _) rfl
    intro st hst
    rw [List.mem_singleton.1 hst]
    exact nodes_loopOverFive
  · exact unreturned Norm.lends_bare ⟨[loopOverFive]⟩ .empty _ (leaves _) rfl

end ScriptSandbox

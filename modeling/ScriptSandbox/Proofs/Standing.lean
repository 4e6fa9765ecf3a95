import ScriptSandbox.Proofs.Fatal

/-!
# What holds wherever a visit starts

A fact about states that survives every balanced evaluation, and that entering scopes, calls and
handlers leaves true, holds wherever a node is visited if it holds where the run starts
(`Standing.of_module`): an evaluation from a state in which it holds cannot tell visits apart that
differ at other states only.
-/

namespace ScriptSandbox

open Eval

/-- A fact about states that evaluations and whatever they enter leave true. -/
structure Standing (I : RunState → Prop) : Prop where
  next : ∀ {s s' : RunState}, I s → s.Balanced s' → I s'
  scope : ∀ {s : RunState} (kind : ScopeKind) (parent : Option ScopeRef), I s →
    I { s with scopes := s.scopes.enter kind parent }
  call : ∀ {s : RunState} (g : Guard), I s → I { s with guard := g }
  handler : ∀ {s : RunState} (e : Error), I s → I (startHandling e s)

namespace Standing

variable {I : RunState → Prop}

/-- Two evaluations agree wherever the fact holds. -/
def Agrees (I : RunState → Prop) {α : Type} (m m' : Eval α) : Prop := ∀ s, I s → m s = m' s

theorem Agrees.ensuring {α : Type} {m m' : Eval α} {s : RunState} (h : Agrees I m m')
    (leave : RunState → RunState) (hs : I s) : Eval.ensuring m leave s = Eval.ensuring m' leave s := by
  simp only [Eval.ensuring, h s hs]

theorem Agrees.inScope (hI : Standing I) {α : Type} {m m' : Eval α} (kind : ScopeKind)
    (parent : Option ScopeRef) (h : Agrees I m m') :
    Agrees I (Eval.inScope kind parent m) (Eval.inScope kind parent m') := fun _ hs =>
  h.ensuring _ (hI.scope kind parent hs)

/-- Agreement where the fact holds is kept by whatever goes on from there. -/
theorem closed (hI : Standing I) (sb : Sandbox) : (balance sb).Closed (Agrees I) where
  refl _ _ _ := rfl
  bind {_ _ P Q m m' f f'} (hbal : Balances P m) h hf s hs := by
    rw [bind_apply, bind_apply, ← h s hs]
    cases hr : m s with
    | error e s' => rfl
    | ok a s' =>
      obtain ⟨ha, hs'⟩ := hbal.ok hr
      exact (hf a ha).2 s' (hI.next hs hs')
  located span h s hs := by simp only [Eval.located, h s hs]
  attempt h s hs := by simp only [attemptCatchable, h s hs]
  handling e h _ hs := h.ensuring _ (hI.handler e hs)
  inScope := .inScope hI
  inCall name span scope h s hs := by
    simp only [inCall, bind_apply, liftM, monadLift, MonadLift.monadLift, onGuard]
    cases Guard.enterCall sb.limits sb.clock s.guard with
    | error e g => rfl
    | ok _ g =>
      have hcall := (Agrees.inScope hI .function (some scope) h).ensuring leaveCall
        (hI.call g hs)
      simp only [traced, hcall]

variable {sb : Sandbox} {n k : Node} {s t : RunState}

theorem visits_of_agreesOff (hI : Standing I) {v' : Visit} (h : (visit sb).AgreesOff v' k t)
    (ht : ¬ I t) : (hI.closed sb).congruence.Visits (visit sb) v' := by
  refine Congruence.visits_of (visit_lawful sb) fun n _ => ⟨balance.node sb n, fun s hs => (h n s ?_).symm⟩
  rintro ⟨-, rfl⟩
  exact ht hs

theorem of_consults (hI : Standing I) (hs : I s)
    (h : Consults (fun v => (v.next sb).node n) (visit sb) s k t) : I t := by
  obtain ⟨v', hoff, hne⟩ := h
  refine Classical.byContradiction fun ht => hne ?_
  have hv := Congruence.visits_next (C := (hI.closed sb).congruence)
    (Congruence.keepsLoops rfl True.intro) ⟨balance.keepsSteps sb, fun _ _ => rfl⟩
    (hI.visits_of_agreesOff hoff ht)
  exact ((hv.node n True.intro).2 s hs).symm

/-- The fact holds wherever a node is visited from a state in which it holds. -/
theorem of_visited (hI : Standing I) (hs : I s) (h : Visited sb n s k t) : I t := by
  induction h with
  | refl => exact hs
  | step hstep _ ih => exact ih (hI.of_consults hs hstep)

theorem module_agrees (hI : Standing I) {v' : Visit} (hv : (hI.closed sb).congruence.Visits (visit sb) v')
    (m : Module) :
    (hI.closed sb).congruence.rel (fun _ => True) (moduleFrom sb (visit sb) .null m.body)
      (moduleFrom sb v' .null m.body) :=
  Congruence.moduleFrom (C := (hI.closed sb).congruence) ⟨balance.keepsSteps sb, fun _ _ => rfl⟩ hv
    True.intro fun _ _ => True.intro

/-- The fact holds wherever a script visits a node if it holds where the script starts. -/
theorem of_module (hI : Standing I) (hs : I s) {m : Module} (h : m.Visits sb s k t) : I t := by
  cases h with
  | @statement before behind st last _ hbody hbefore =>
    exact hI.next hs ((balance.moduleFrom sb .null before).ok hbefore).2
  | @inside n _ r _ hconsults hvisited =>
    obtain ⟨v', hoff, hne⟩ := hconsults
    refine hI.of_visited (Classical.byContradiction fun hr => hne ?_) hvisited
    exact ((hI.module_agrees (hI.visits_of_agreesOff hoff hr) m).2 s hs).symm

end Standing

end ScriptSandbox

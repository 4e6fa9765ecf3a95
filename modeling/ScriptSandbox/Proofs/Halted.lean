import ScriptSandbox.Proofs.Assignment
import ScriptSandbox.Proofs.Change

/-!
# Halted runs

To see what holds in the middle of a run, the run is halted there: at chosen nodes and states, visits
fail at once with errors that nothing catches (`Eval.haltedWithin`). A run that visits a node at such a
state ends in that state but for what it leaves on the way out (`Visited.halted`), so what is known of
the ends of runs is known of the states that they pass through.

Halted visits are not the visits of any script, and how deep they nest is bounded as in the definition of
visits. The bound does not matter once it is beyond the quota of steps, so facts about halted visits are
stated for every bound.

A halted run is the start of the same run without the halt: either both end alike, or the one has been
halted at a state that the other goes on from (`Eval.Outruns`). So where the other run ends in a state
that cannot come behind such a state, it has not been there, and halting makes no difference.
-/

namespace ScriptSandbox

open Eval

/-- Where visits are halted, and with which errors. -/
abbrev Halt := Node → RunState → Option Error

/-- Nothing catches the errors that visits are halted with. -/
def Halt.Fatal (stop : Halt) : Prop := ∀ n s e, stop n s = some e → e.isCatchable = false

/-- No visit is halted. -/
def Halt.never : Halt := fun _ _ => none

theorem Halt.never_fatal : never.Fatal := fun _ _ _ h => by cases h

/-- Fails at some states, and else does what an evaluation does. -/
def Eval.haltedBy {α : Type} (stop : RunState → Option Error) (m : Eval α) : Eval α := fun s =>
  match stop s with
  | some e => .error e s
  | none => m s

/-- Visits that are halted at some nodes and states. -/
def Visit.halted (stop : Halt) (v : Visit) : Visit where
  expr e := .haltedBy (stop (.expr e)) (v.expr e)
  stmt st := .haltedBy (stop (.stmt st)) (v.stmt st)

/-- The visits of a run that is halted at some nodes and states, nested at most `depth` deep. -/
def Eval.haltedWithin (sb : Sandbox) (stop : Halt) : Nat → Visit
  | 0 => visitWithin sb 0
  | depth + 1 => ((haltedWithin sb stop depth).next sb).halted stop

variable {sb : Sandbox} {stop stop' : Halt}

namespace Eval

variable {α : Type} {P : α → Prop} {m : Eval α} {s : RunState}

theorem haltedBy_some {stop : RunState → Option Error} {e : Error} (h : stop s = some e) :
    m.haltedBy stop s = .error e s := by
  simp only [Eval.haltedBy, h]

theorem haltedBy_none {stop : RunState → Option Error} (h : stop s = none) :
    m.haltedBy stop s = m s := by
  simp only [Eval.haltedBy, h]

@[simp] theorem haltedBy_never (n : Node) (m : Eval α) : m.haltedBy (Halt.never n) = m := rfl

theorem Gives.haltedBy (h : Gives P m) (stop : RunState → Option Error) : Gives P (m.haltedBy stop) := by
  intro s a s' hr
  cases hs : stop s with
  | some e => rw [haltedBy_some hs] at hr; cases hr
  | none => rw [haltedBy_none hs] at hr; exact h s a s' hr

theorem Balances.haltedBy (h : Balances P m) (stop : RunState → Option Error) :
    Balances P (m.haltedBy stop) := by
  intro s
  cases hs : stop s with
  | some e => rw [haltedBy_some hs]; exact .refl s
  | none => rw [haltedBy_none hs]; exact h s

theorem Moves.haltedBy {R : RunState → RunState → Prop} [Std.Refl R] (h : Moves R m)
    (stop : RunState → Option Error) : Moves R (m.haltedBy stop) := by
  intro s
  cases hs : stop s with
  | some e => rw [after_error (haltedBy_some hs)]; exact Std.Refl.refl s
  | none => simpa only [Eval.after, haltedBy_none hs] using h s

theorem haltedWithin_lawful (sb : Sandbox) (stop : Halt) : ∀ depth, (haltedWithin sb stop depth).Lawful
  | 0 => visitWithin_lawful sb 0
  | depth + 1 =>
    have h := (haltedWithin_lawful sb stop depth).next sb
    ⟨fun st => (h.stmt st).haltedBy _, fun e he => (h.text e he).haltedBy _⟩

theorem haltedWithin_never (sb : Sandbox) : ∀ depth,
    haltedWithin sb .never depth = visitWithin sb depth
  | 0 => rfl
  | depth + 1 => by
    rw [haltedWithin, haltedWithin_never sb depth]
    rfl

/-- Visits of a run nest no deeper than there are steps. -/
theorem visitWithin_of_lt {depth : Nat} (h : sb.limits.maxSteps < depth) :
    visitWithin sb depth = visit sb := by
  obtain ⟨more, rfl⟩ := Nat.exists_eq_add_of_lt h
  rw [Nat.add_right_comm, Invariant.visitWithin_eq, Function.iterate_add_apply]
  exact Visit.eq_visit (Invariant.visits_eq ⟨_, rfl⟩) ⟨_, Function.iterate_succ_apply' _ _ _⟩

end Eval

open Classical in
/-- Visits are halted at one node and one state. -/
noncomputable def Halt.only (k : Node) (t : RunState) (e : Error) : Halt := fun n s =>
  if n = k ∧ s = t then some e else none

theorem Halt.eq_of_only {k n : Node} {t s : RunState} {e e' : Error}
    (h : only k t e n s = some e') : n = k ∧ s = t ∧ e' = e := by
  unfold only at h
  split at h
  · cases h
    exact ⟨‹n = k ∧ s = t›.1, ‹n = k ∧ s = t›.2, rfl⟩
  · cases h

theorem Halt.only_self (k : Node) (t : RunState) (e : Error) : only k t e k t = some e :=
  if_pos ⟨rfl, rfl⟩

theorem Visit.node_halted (stop : Halt) (v : Visit) (n : Node) :
    (v.halted stop).node n = (v.node n).haltedBy (stop n) := by
  cases n <;> rfl

/-- Halted visits are related by a congruence that halting keeps. -/
theorem Congruence.visits_halted {C : Congruence sb sb} (hloops : C.KeepsLoops)
    (hsteps : C.KeepsSteps) (herr : C.errs (.limitExceeded .steps sb.limits.maxSteps))
    (hhalt : ∀ n (m m' : Eval n.Result), C.rel (C.GoodResult n) m m' →
      C.rel (C.GoodResult n) (m.haltedBy (stop n)) (m'.haltedBy (stop' n))) (depth : Nat)
    (hheld : ∀ r, C.held r := by exact fun _ => True.intro) :
    C.Visits (haltedWithin sb stop depth) (haltedWithin sb stop' depth) := by
  induction depth with
  | zero => exact Congruence.visits hloops hsteps rfl herr 0 hheld
  | succ depth ih =>
    refine Congruence.visits_of (haltedWithin_lawful sb stop _) fun n hn => ?_
    have hnext := (Congruence.visits_next hloops hsteps ih hheld).node n hn
    simpa only [haltedWithin, Visit.node_halted] using hhalt n _ _ hnext

/-! ## Evaluations made of visits -/

/-- An evaluation is made of visits in such a way that what relates visits relates it. -/
def Eval.Uniform (sb : Sandbox) {α : Type} (c : Visit → Eval α) : Prop :=
  ∀ (C : Congruence sb sb) (v v' : Visit), C.KeepsSteps → (∀ n, C.allows n) →
    (∀ g : Signal, C.errs g.stray.kind) → C.Visits v v' → C.rel (fun _ => True) (c v) (c v')

theorem Eval.uniform_node (sb : Sandbox) (n : Node) : Uniform sb fun v => v.node n :=
  fun C _ _ _ hallows _ hv => C.mono (fun _ _ => True.intro) (hv.node n (hallows n))

theorem Eval.uniform_module (sb : Sandbox) (body : List Stmt) :
    Uniform sb fun v => moduleFrom sb v .null body := fun C _ _ hsteps hallows herrs hv =>
  C.mono (fun _ _ => True.intro) (Congruence.moduleFrom hsteps hv Norm.good_null
    (fun _ _ => hallows _) fun _ _ g _ => herrs g)

theorem balance.visits_halted (sb : Sandbox) (stop : Halt) (depth : Nat) :
    (balance sb).Visits (haltedWithin sb stop depth) (haltedWithin sb stop depth) :=
  Congruence.visits_halted (C := balance sb) (Congruence.keepsLoops rfl True.intro)
    (balance.keepsSteps sb) True.intro (fun n _ _ h => Balances.haltedBy h (stop n)) depth

/-- What halted visits do to a state is a sequence of changes. -/
theorem changes.visits_halted (sb : Sandbox) (stop : Halt) (depth : Nat) :
    (changes sb).Visits (haltedWithin sb stop depth) (haltedWithin sb stop depth) :=
  Congruence.visits_halted (C := changes sb) (Congruence.keepsLoops rfl True.intro)
    ⟨balance.keepsSteps sb, .evolves_onGuard _⟩ True.intro
    (fun n _ _ h => ⟨h.1.haltedBy (stop n), h.2.haltedBy (stop n)⟩) depth

theorem Eval.Uniform.changes {α : Type} {c : Visit → Eval α} (hc : Uniform sb c) (stop : Halt)
    (depth : Nat) : (changes sb).rel (fun _ => True) (c (haltedWithin sb stop depth))
      (c (haltedWithin sb stop depth)) :=
  hc (Eval.changes sb) _ _ ⟨balance.keepsSteps sb, .evolves_onGuard _⟩ (fun _ => True.intro)
    (fun _ => True.intro) (changes.visits_halted sb stop depth)

/-! ## Nodes visited in halted runs -/

namespace Lasting

variable {F : EndFact} {n k : Node} {s t : RunState} {depth : Nat}

/-- Halted visits and the visits of a run differ only in what holds where visits are halted. -/
theorem visits_halted (hF : Lasting F) (hstop : ∀ n s e, stop n s = some e → F (some e) s)
    (depth : Nat) : (hF.closed sb).congruence.Visits (haltedWithin sb stop depth)
      (visitWithin sb depth) := by
  rw [← haltedWithin_never]
  refine Congruence.visits_halted (C := (hF.closed sb).congruence)
    (Congruence.keepsLoops rfl True.intro) ⟨balance.keepsSteps sb, fun _ => .inl rfl⟩ True.intro
    (fun n m m' h => ?_) depth
  refine ⟨Balances.haltedBy h.1 _, fun s => ?_⟩
  rw [haltedBy_never]
  cases hs : stop n s with
  | some e =>
    rw [haltedBy_some hs]
    exact .inr (hstop n s e hs)
  | none =>
    rw [haltedBy_none hs]
    exact h.2 s

/-- What lasts holds behind a halted evaluation if it holds behind a halted visit that the evaluation
consults. -/
theorem of_consults_halted (hF : Lasting F) (hstop : ∀ n s e, stop n s = some e → F (some e) s)
    {α : Type} {c : Visit → Eval α} (hc : ∀ {v}, (hF.closed sb).congruence.Visits
      (haltedWithin sb stop depth) v → Tells F (c (haltedWithin sb stop depth)) (c v))
    (hdepth : sb.limits.maxSteps < depth) (h : Consults c (visit sb) s k t)
    (hk : F.Of ((haltedWithin sb stop depth).node k t)) : F.Of (c (haltedWithin sb stop depth) s) := by
  obtain ⟨v', hoff, hne⟩ := h
  have hv : (hF.closed sb).congruence.Visits (haltedWithin sb stop depth) (visit sb) :=
    visitWithin_of_lt hdepth ▸ hF.visits_halted hstop depth
  have hv' : (hF.closed sb).congruence.Visits (haltedWithin sb stop depth) v' := by
    refine Congruence.visits_of (haltedWithin_lawful sb stop depth) fun n _ =>
      ⟨(hv.node n True.intro).1, fun s => ?_⟩
    by_cases hsame : n = k ∧ s = t
    · obtain ⟨rfl, rfl⟩ := hsame
      exact .inr hk
    · rw [hoff n s hsame]
      exact (hv.node n True.intro).2 s
  rcases hc hv s with heq | hfact
  · rcases hc hv' s with heq' | hfact
    · exact absurd (heq'.symm.trans heq) hne
    · exact hfact
  · exact hfact

end Lasting

/-- A visit inside which a node is visited at a state is halted if visits are halted there. -/
theorem Visited.halted {F : EndFact} {n k : Node} {s t : RunState} (h : Visited sb n s k t)
    (hF : Lasting F) (hstop : ∀ n s e, stop n s = some e → F (some e) s)
    (hk : (stop k t).isSome = true) :
    ∃ least, ∀ depth, least ≤ depth → F.Of ((haltedWithin sb stop depth).node n s) := by
  have stopped : ∀ {n s depth}, (stop n s).isSome = true →
      F.Of ((haltedWithin sb stop (depth + 1)).node n s) := by
    intro n s depth hn
    obtain ⟨e, he⟩ := Option.isSome_iff_exists.1 hn
    rw [haltedWithin, Visit.node_halted, haltedBy_some he]
    exact hstop n s e he
  induction h with
  | refl =>
    refine ⟨1, fun depth hdepth => ?_⟩
    obtain ⟨depth, rfl⟩ := Nat.exists_eq_add_of_le' hdepth
    exact stopped hk
  | @step n _ _ s _ _ hconsults _ ih =>
    obtain ⟨least, ih⟩ := ih hk
    -- deep enough for the run itself and for the visit inside
    refine ⟨max least (sb.limits.maxSteps + 1) + 1, fun depth hdepth => ?_⟩
    obtain ⟨depth, rfl⟩ := Nat.exists_eq_add_of_le' (Nat.le_trans (Nat.le_add_left 1 _) hdepth)
    cases hn : stop n s with
    | some e => exact stopped (hn ▸ rfl)
    | none =>
      rw [haltedWithin, Visit.node_halted, haltedBy_none hn]
      refine hF.of_consults_halted hstop (fun hv => ?_) (by omega) hconsults (ih depth (by omega))
      exact ((Congruence.visits_next (C := (hF.closed sb).congruence)
        (Congruence.keepsLoops rfl True.intro) ⟨balance.keepsSteps sb, fun _ => .inl rfl⟩ hv).node n
        True.intro).2


section Fatal

variable {n k : Node} {s t : RunState} {e : Error} (he : e.isCatchable = false)

include he

/-- A visit that is halted at the state of a visit inside it ends in this state but for what it
leaves. -/
theorem Visited.stopped (h : Visited sb n s k t) : ∃ least, ∀ depth, least ≤ depth →
    (EndFact.stopped e t).Of ((haltedWithin sb (.only k t e) depth).node n s) := by
  refine h.halted (lasting_fatal he t) (fun n s e' h => ?_) (by rw [Halt.only_self]; rfl)
  obtain ⟨-, rfl, rfl⟩ := Halt.eq_of_only h
  exact ⟨e', rfl, rfl, .refl s⟩

/-- So does a script that visits it. -/
theorem Visited.stopped_module {m : Module} {r : RunState} (h : Visited sb n s k t)
    (hconsults : Consults (fun v => moduleFrom sb v .null m.body) (visit sb) r n s) :
    ∃ least, ∀ depth, least ≤ depth → (EndFact.stopped e t).Of
      (moduleFrom sb (haltedWithin sb (.only k t e) depth) .null m.body r) := by
  obtain ⟨least, hleast⟩ := h.stopped he
  have hF := lasting_fatal he t
  refine ⟨max least (sb.limits.maxSteps + 1), fun depth hdepth => ?_⟩
  refine hF.of_consults_halted (c := fun v => moduleFrom sb v .null m.body) (fun n s e' h => ?_)
    (fun hv => ?_) (by omega) hconsults (hleast depth (by omega))
  · obtain ⟨-, rfl, rfl⟩ := Halt.eq_of_only h
    exact ⟨e', rfl, rfl, .refl s⟩
  · exact (uniform_module sb m.body (hF.closed sb).congruence _ _
      ⟨balance.keepsSteps sb, fun _ => .inl rfl⟩ (fun _ => True.intro) (fun _ => True.intro) hv).2

end Fatal

/-! ## What a halted run misses -/

namespace Eval

variable {α β : Type}

/-- From the state `s`, the second evaluation has been halted at a state of a sort, from which the first
one has gone on. -/
def GoesOn (halts : RunState → Prop) (m m' : Eval α) (s : RunState) : Prop :=
  ∃ u e, halts u ∧ u.Anchored ∧ e.isCatchable = false ∧ (EndFact.stopped e u).Of (m' s) ∧
    u.Evolves (m.after s)

/-- Two evaluations end alike unless the second one is halted at a state of a sort, from which the first
one goes on. -/
def Outruns (halts : RunState → Prop) (m m' : Eval α) : Prop :=
  ∀ s, s.Anchored → m s = m' s ∨ GoesOn halts m m' s

variable {sb : Sandbox} {stop stop' : Halt} {halts : RunState → Prop} {m m' : Eval α} {s : RunState}

theorem GoesOn.imp {n n' : Eval β} {t : RunState} (h : GoesOn halts m m' s)
    (hstopped : ∀ {e u}, e.isCatchable = false → (EndFact.stopped e u).Of (m' s) →
      (EndFact.stopped e u).Of (n' t)) (hrest : (m.after s).Evolves (n.after t)) :
    GoesOn halts n n' t := by
  obtain ⟨u, e, hu, hanchored, he, hm', hm⟩ := h
  exact ⟨u, e, hu, hanchored, he, hstopped he hm', hm.trans hrest⟩

namespace Outruns

theorem bind {P : α → Prop} {Q : β → Prop} {f f' : α → Eval β} (hm : (changes sb).rel P m m)
    (h : Outruns halts m m')
    (hf : ∀ a, P a → (changes sb).rel Q (f a) (f a) ∧ Outruns halts (f a) (f' a)) :
    Outruns halts (m >>= f) (m' >>= f') := by
  intro s hs
  -- a run that is halted in the first part does not come to the second one
  have hgone : GoesOn halts m m' s → GoesOn halts (m >>= f) (m' >>= f') s := fun h => by
    refine h.imp (fun {e u} _ hstopped => ?_) ?_
    · rw [bind_apply]
      cases hr : m' s with
      | ok a s' =>
        rw [hr] at hstopped
        obtain ⟨_, hx, -⟩ := hstopped
        cases hx
      | error e s' =>
        rw [hr] at hstopped
        exact hstopped
    · rw [after_bind]
      cases hr : m s with
      | ok a s' =>
        rw [after_ok hr]
        exact (hf a (hm.1.ok hr).1).1.2 s'
      | error e s' =>
        rw [after_error hr]
        exact .refl
  rcases h s hs with heq | h
  · rw [bind_apply, bind_apply, ← heq]
    cases hr : m s with
    | error e s' => exact .inl rfl
    | ok a s' =>
      obtain ⟨ha, hs'⟩ := hm.1.ok hr
      refine ((hf a ha).2 s' (standing_anchored.next hs hs')).imp id fun h => ?_
      refine h.imp (fun _ hstopped => ?_) ?_
      · rwa [bind_apply, ← heq, hr]
      · rw [after_bind, hr]
        exact .refl
  · exact .inr (hgone h)

/-- What is left behind an evaluation, from a state that was entered. -/
theorem ensuring {leave : RunState → RunState} (h : Outruns halts m m')
    (hleave : ∀ s : RunState, s.Change (leave s)) (hstopped : ∀ {e u}, e.isCatchable = false →
      ∀ {x s}, EndFact.stopped e u x s → EndFact.stopped e u x (leave s)) :
    Outruns halts (Eval.ensuring m leave) (Eval.ensuring m' leave) := fun s hs =>
  (h s hs).imp (fun heq => by simp only [Eval.ensuring, heq]) fun h => by
    refine h.imp (fun he => Lasting.of_ensuring (hstopped he)) ?_
    rw [after_ensuring]
    exact (hleave _).evolves

theorem inScope (kind : ScopeKind) (parent : Option ScopeRef) (h : Outruns halts m m') :
    Outruns halts (Eval.inScope kind parent m) (Eval.inScope kind parent m') := fun s hs =>
  have hleave : ∀ s' : RunState, s'.Change (restoreScope s.scopes.current s') := fun s' =>
    .restore s' _
  h.ensuring hleave (fun he => (lasting_fatal he _).restore _) _
    (standing_anchored.scope kind parent hs)

theorem inCall (sb : Sandbox) (name : String) (span : Span) (scope : ScopeRef)
    (h : Outruns halts m m') :
    Outruns halts (Eval.inCall sb name span scope m) (Eval.inCall sb name span scope m') := by
  let called (m : Eval α) : Eval α :=
    traced name span (Eval.ensuring (Eval.inScope .function scope m) leaveCall)
  have hleave : ∀ s : RunState, s.Change (leaveCall s) := fun s => .guard s _
  have hcalled : Outruns halts (called m) (called m') := fun s hs =>
    ((h.inScope .function scope).ensuring hleave (fun he => (lasting_fatal he _).leave) s hs).imp
      (fun heq => by simp only [called, traced, heq]) fun h =>
        h.imp (fun he => (lasting_fatal he _).of_traced name span)
          (by simp only [called, after_traced]; exact .refl)
  intro s hs
  -- a call that is refused is refused to both
  cases hr : (liftM (Guard.enterCall sb.limits sb.clock) : Eval Unit) s with
  | error e s' =>
    left
    simp only [Eval.inCall, bind_apply, hr]
  | ok _ s' =>
    have hs' : s'.Anchored := by
      simp only [liftM, monadLift, MonadLift.monadLift, onGuard] at hr
      cases hguard : Guard.enterCall sb.limits sb.clock s.guard <;> rw [hguard] at hr <;> cases hr
      exact standing_anchored.call _ hs
    refine (hcalled s' hs').imp (fun heq => ?_) fun h => h.imp (fun _ hstopped => ?_) ?_
    · simpa only [Eval.inCall, bind_apply, hr] using heq
    · simpa only [Eval.inCall, bind_apply, hr] using hstopped
    · simp only [Eval.inCall, after_bind, hr]
      exact .refl

/-- Outrunning is kept by every construct. -/
theorem closed (sb : Sandbox) (halts : RunState → Prop) : (changes sb).Closed (Outruns halts) where
  refl _ _ _ := .inl rfl
  bind := bind
  located span h s hs := (h s hs).imp (fun heq => by simp only [Eval.located, heq]) fun h =>
    h.imp (fun he => (lasting_fatal he _).of_located span) (by rw [after_located]; exact .refl)
  attempt h s hs := (h s hs).imp (fun heq => by simp only [attemptCatchable, heq]) fun h =>
    h.imp (fun he => (lasting_fatal he _).of_attempt) (by rw [after_attempt]; exact .refl)
  handling e h _ hs := h.ensuring (fun s => show s.Change (stopHandling s) from .handling s _)
    (fun he => (lasting_fatal he _).handled) _ (standing_anchored.handler e hs)
  inScope := inScope
  inCall := inCall sb

/-- Visits that are halted outrun visits that are halted at more states. -/
theorem visits_halted (hstop : ∀ n s, stop n s = stop' n s ∨
      stop n s = none ∧ ∃ e, stop' n s = some e ∧ e.isCatchable = false ∧ halts s) (depth : Nat) :
    (closed sb halts).congruence.Visits (haltedWithin sb stop depth)
      (haltedWithin sb stop' depth) := by
  refine Congruence.visits_halted (C := (closed sb halts).congruence)
    (Congruence.keepsLoops rfl True.intro)
    ⟨⟨balance.keepsSteps sb, .evolves_onGuard _⟩, fun _ _ => .inl rfl⟩ True.intro
    (fun n m m' h => ?_) depth
  obtain ⟨⟨hbalances, hmoves⟩, houtruns⟩ := h
  refine ⟨⟨hbalances.haltedBy _, hmoves.haltedBy _⟩, fun s hs => ?_⟩
  rcases hstop n s with heq | ⟨hnone, e, he, hfatal, hhalts⟩
  · cases hn : stop n s with
    | some e =>
      left
      rw [haltedBy_some hn, haltedBy_some (heq ▸ hn)]
    | none =>
      refine (houtruns s hs).imp (fun h => ?_) fun h => h.imp (fun _ hstopped => ?_) ?_
      · rw [haltedBy_none hn, haltedBy_none (heq ▸ hn), h]
      · rwa [haltedBy_none (heq ▸ hn)]
      · simp only [Eval.after, haltedBy_none hn]
        exact .refl
  · refine .inr ⟨s, e, hhalts, hs, hfatal, ?_, ?_⟩
    · rw [haltedBy_some he]
      exact ⟨e, rfl, rfl, .refl s⟩
    · simp only [Eval.after, haltedBy_none hnone]
      exact hmoves s

end Outruns

theorem Uniform.outruns {c : Visit → Eval α} (hc : Uniform sb c)
    (hstop : ∀ n s, stop n s = stop' n s ∨
      stop n s = none ∧ ∃ e, stop' n s = some e ∧ e.isCatchable = false ∧ halts s) (depth : Nat) :
    Outruns halts (c (haltedWithin sb stop depth)) (c (haltedWithin sb stop' depth)) :=
  (hc (Outruns.closed sb halts).congruence _ _
    ⟨⟨balance.keepsSteps sb, .evolves_onGuard _⟩, fun _ _ => .inl rfl⟩ (fun _ => True.intro)
    (fun _ => True.intro) (Outruns.visits_halted hstop depth)).2

end Eval

end ScriptSandbox

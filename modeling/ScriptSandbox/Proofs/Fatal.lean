import ScriptSandbox.Proofs.Visit
import ScriptSandbox.Syntax.Build

/-!
# Fatal errors are final

Most of what can be said about the moment at which a visit ends remains true until the whole run
has: that a fatal error is on its way out and nothing but the leaving of scopes, calls and handlers
has happened since, or that so many steps have been counted. A `Lasting` fact is one that every
construct passes on. Once it holds behind a visited node, it holds behind every evaluation that the
visit is part of (`Lasting.of_visited`): an evaluation that can tell the visit's answer from another
one can do nothing but pass on what is known of it.
-/

namespace ScriptSandbox

open Eval

/-- A fact about the error that an evaluation has ended in, if any, and about the state behind it. -/
abbrev EndFact := Option Error → RunState → Prop

/-- A fact holds of the end of an evaluation. -/
def EndFact.Of {α : Type} (F : EndFact) : EStateM.Result Error RunState α → Prop
  | .ok _ s => F none s
  | .error e s => F (some e) s

/-- A fact about how an evaluation ended that every construct around it passes on. -/
structure Lasting (F : EndFact) : Prop where
  /-- What is done next does not change it. -/
  next : ∀ {s s' : RunState} {x : Option Error}, F none s → s.Balanced s' → F x s'
  /-- An error that is caught does not take it away. -/
  caught : ∀ {e : Error} {s : RunState}, e.isCatchable = true → F (some e) s → F none s
  tagged : ∀ {e e' : Error} {s : RunState}, e'.kind = e.kind → F (some e) s → F (some e') s
  restore : ∀ {x : Option Error} {s : RunState} (r : ScopeRef), F x s → F x (restoreScope r s)
  leave : ∀ {x : Option Error} {s : RunState}, F x s → F x (leaveCall s)
  handled : ∀ {x : Option Error} {s : RunState}, F x s → F x (stopHandling s)

namespace balance

theorem node (sb : Sandbox) (n : Node) :
    Balances ((balance sb).GoodResult n) ((Eval.visit sb).node n) :=
  (balance.visit sb).node n True.intro

theorem moduleFrom (sb : Sandbox) (last : Value) (body : List Stmt) :
    Balances (fun _ => True) (Eval.moduleFrom sb (Eval.visit sb) last body) :=
  Congruence.moduleFrom (C := balance sb) (keepsSteps sb) (balance.visit sb) True.intro
    fun _ _ => True.intro

theorem module (sb : Sandbox) (m : Module) : Balances (fun _ => True) (Eval.module sb m) :=
  moduleFrom sb .null m.body

end balance

namespace Lasting

variable {F : EndFact} {α β : Type} {P : α → Prop} {Q : β → Prop}

variable {m m' : Eval α} {s : RunState}

/-- What holds of a state lasts while an evaluation follows. -/
theorem of_next (hF : Lasting F) (hm : Balances P m) (h : F none s) : F.Of (m s) := by
  cases hr : m s with
  | ok a s' => exact hF.next h (hm.ok hr).2
  | error e s' => exact hF.next h (hm.error hr)

theorem of_located (hF : Lasting F) (span : Span) (h : F.Of (m s)) :
    F.Of (Eval.located span m s) := by
  have kind : ∀ e : Error, (e.located span).kind = e.kind := by
    intro e
    unfold Error.located
    split <;> rfl
  simp only [Eval.located]
  cases hr : m s with
  | ok a s' =>
    rw [hr] at h
    exact h
  | error e s' =>
    rw [hr] at h
    exact hF.tagged (kind e) h

theorem of_traced (hF : Lasting F) (name : String) (span : Span) (h : F.Of (m s)) :
    F.Of (Eval.traced name span m s) := by
  simp only [Eval.traced]
  cases hr : m s with
  | ok a s' =>
    rw [hr] at h
    exact h
  | error e s' =>
    rw [hr] at h
    exact hF.tagged (e := e) rfl h

theorem of_attempt (hF : Lasting F) (h : F.Of (m s)) : F.Of (attemptCatchable m s) := by
  simp only [attemptCatchable]
  cases hr : m s with
  | ok a s' =>
    rw [hr] at h
    exact h
  | error e s' =>
    rw [hr] at h
    dsimp only
    split
    · exact hF.caught ‹_› h
    · exact h

/-- What is left behind an evaluation. -/
theorem of_ensuring {leave : RunState → RunState} (hleave : ∀ {x s}, F x s → F x (leave s))
    (h : F.Of (m s)) : F.Of (Eval.ensuring m leave s) := by
  simp only [Eval.ensuring]
  cases hr : m s with
  | ok a s' =>
    rw [hr] at h
    exact hleave h
  | error e s' =>
    rw [hr] at h
    exact hleave h

/-- Two evaluations agree, or the fact holds of the end of the first one. -/
def Tells (F : EndFact) {α : Type} (m m' : Eval α) : Prop := ∀ s, m s = m' s ∨ F.Of (m s)

theorem bind (hF : Lasting F) {f f' : α → Eval β} (hm : Balances P m) (h : Tells F m m')
    (hf : ∀ a, P a → Balances Q (f a) ∧ Tells F (f a) (f' a)) : Tells F (m >>= f) (m' >>= f') := by
  intro s
  have hends := h s
  rw [bind_apply, bind_apply]
  cases hr : m s with
  | ok a s' =>
    have ha := (hm.ok hr).1
    rw [hr] at hends
    rcases hends with heq | hfact
    · rw [← heq]
      exact (hf a ha).2 s'
    · exact .inr (hF.of_next (hf a ha).1 hfact)
  | error e s' =>
    rw [hr] at hends
    rcases hends with heq | hfact
    · rw [← heq]
      exact .inl rfl
    · exact .inr hfact

theorem ensuring {leave : RunState → RunState} (hleave : ∀ {x s}, F x s → F x (leave s))
    (h : Tells F m m') : Tells F (Eval.ensuring m leave) (Eval.ensuring m' leave) := fun s =>
  (h s).imp (fun heq => by simp only [Eval.ensuring, heq]) (of_ensuring hleave)

theorem inScope (hF : Lasting F) (kind : ScopeKind) (parent : Option ScopeRef) (h : Tells F m m') :
    Tells F (Eval.inScope kind parent m) (Eval.inScope kind parent m') := fun s =>
  ensuring (hF.restore s.scopes.current) h { s with scopes := s.scopes.enter kind parent }

theorem inCall (hF : Lasting F) (sb : Sandbox) (name : String) (span : Span) (scope : ScopeRef)
    (h : Tells F m m') :
    Tells F (Eval.inCall sb name span scope m) (Eval.inCall sb name span scope m') := by
  intro s
  simp only [Eval.inCall, bind_apply]
  cases (liftM (Guard.enterCall sb.limits sb.clock) : Eval Unit) s with
  | ok a s' =>
    exact (ensuring hF.leave (hF.inScope .function scope h) s').imp
      (fun heq => by simp only [Eval.traced, heq]) (hF.of_traced name span)
  | error e s' => exact .inl rfl

/-- What lasts is passed on by all constructs. -/
theorem closed (hF : Lasting F) (sb : Sandbox) : (balance sb).Closed (Tells F) where
  refl _ _ := .inl rfl
  bind := hF.bind
  located span h s := (h s).imp (fun heq => by simp only [Eval.located, heq]) (hF.of_located span)
  attempt h s := (h s).imp (fun heq => by simp only [attemptCatchable, heq]) hF.of_attempt
  handling e h s := ensuring hF.handled h (startHandling e s)
  inScope := hF.inScope
  inCall := hF.inCall sb

variable {sb : Sandbox} {n k : Node} {t : RunState}

theorem visits_of_agreesOff (hF : Lasting F) {v' : Visit} (h : (visit sb).AgreesOff v' k t)
    (hk : F.Of ((visit sb).node k t)) : (hF.closed sb).congruence.Visits (visit sb) v' := by
  refine Congruence.visits_of (visit_lawful sb) fun n _ => ⟨?_, fun s => ?_⟩
  · exact balance.node sb n
  · by_cases hsame : n = k ∧ s = t
    · obtain ⟨rfl, rfl⟩ := hsame
      exact .inr hk
    · exact .inl (h n s hsame).symm

theorem of_consults (hF : Lasting F) (h : Consults (fun v => (v.next sb).node n) (visit sb) s k t)
    (hk : F.Of ((visit sb).node k t)) : F.Of ((visit sb).node n s) := by
  obtain ⟨v', hoff, hne⟩ := h
  have hv := Congruence.visits_next (C := (hF.closed sb).congruence) (Congruence.keepsLoops rfl True.intro)
    ⟨balance.keepsSteps sb, fun _ => .inl rfl⟩ (hF.visits_of_agreesOff hoff hk)
  have := (hv.node n True.intro).2 s
  dsimp only at hne
  rw [visit_next] at this hne
  exact this.resolve_left fun heq => hne heq.symm

/-- What lasts holds behind a node if it holds behind a node visited inside it. -/
theorem of_visited (hF : Lasting F) (h : Visited sb n s k t) (hk : F.Of ((visit sb).node k t)) :
    F.Of ((visit sb).node n s) := by
  induction h with
  | refl => exact hk
  | step hstep _ ih => exact hF.of_consults hstep (ih hk)

/-- What holds of the end of an evaluation lasts while another one follows. -/
theorem of_bind (hF : Lasting F) {f : α → Eval β} (hf : ∀ a, Balances Q (f a))
    (h : F.Of (m s)) : F.Of ((m >>= f) s) := by
  rw [bind_apply]
  cases hr : m s with
  | ok a s' =>
    rw [hr] at h
    exact hF.of_next (hf a) h
  | error e s' =>
    rw [hr] at h
    exact h

/-- An expression statement at top level is executed like any other one. -/
theorem of_topLevel (hF : Lasting F) (last : Value) (st : Stmt)
    (h : F.Of ((visit sb).stmt st s)) : F.Of (topLevel sb (visit sb) last st s) := by
  obtain ⟨kind, span⟩ := st
  cases kind with
  | expr e =>
    rw [← visit_next] at h
    simp only [Visit.next, topLevel, Eval.located, stmtKind, bind_apply] at h ⊢
    cases ht : (liftM (Guard.tick sb.limits sb.clock) : Eval Unit) s with
    | error e s' =>
      rw [ht] at h
      exact h
    | ok _ s' =>
      rw [ht] at h
      dsimp only at h ⊢
      cases hr : (visit sb).expr e s' <;> rw [hr] at h <;> exact h
  | _ => exact hF.of_bind (fun flow => (balance sb).valueBehind span True.intro fun _ _ => True.intro) h

theorem moduleFrom_append (v : Visit) (last : Value) (before behind : List Stmt) :
    moduleFrom sb v last (before ++ behind) = (do
      let last ← moduleFrom sb v last before
      moduleFrom sb v last behind) := by
  induction before generalizing last with
  | nil => rfl
  | cons st rest ih =>
    show (topLevel sb v last st >>= fun last => moduleFrom sb v last (rest ++ behind)) =
      (topLevel sb v last st >>= fun last => moduleFrom sb v last rest) >>= _
    rw [bind_assoc]
    exact bind_congr fun last => ih last

theorem of_module (hF : Lasting F) {m : Module} (h : m.Visits sb s k t)
    (hk : F.Of ((visit sb).node k t)) : F.Of (module sb m s) := by
  cases h with
  | @statement before behind st last _ hbody hbefore =>
    rw [module, hbody, moduleFrom_append, bind_apply, hbefore]
    exact hF.of_bind (fun last => balance.moduleFrom sb last behind) (hF.of_topLevel last st hk)
  | @inside n _ r _ hconsults hvisited =>
    obtain ⟨v', hoff, hne⟩ := hconsults
    have hv := hF.visits_of_agreesOff hoff (hF.of_visited hvisited hk)
    have htells : (hF.closed sb).congruence.rel (fun _ => True)
        (moduleFrom sb (visit sb) .null m.body) (moduleFrom sb v' .null m.body) :=
      Congruence.moduleFrom (C := (hF.closed sb).congruence)
        ⟨balance.keepsSteps sb, fun _ => .inl rfl⟩ hv True.intro fun _ _ => True.intro
    exact (htells.2 s).resolve_left fun heq => hne heq.symm

end Lasting

/-! ## Steps that were counted -/

theorem lasting_steps (count : Nat) : Lasting fun _ s => count ≤ s.guard.steps where
  next h hs := Nat.le_trans h hs.steps
  caught _ h := h
  tagged _ h := h
  restore _ h := h
  leave h := h
  handled h := h

/-- A visit counts a step. -/
theorem steps_lt_of_visit {sb : Sandbox} {α : Type} {P : α → Prop} {m : Eval α} (h : Balances P m)
    (span : Span) (s : RunState) : EndFact.Of (fun _ s' => s.guard.steps + 1 ≤ s'.guard.steps)
      (located span (onGuard (Guard.tick sb.limits sb.clock) >>= fun _ => m) s) := by
  simp only [located, bind_apply, onGuard]
  rcases Guard.tick_cases sb.limits sb.clock s.guard with ⟨-, ht⟩ | ⟨-, ht | ht⟩
  · simp only [ht]
    exact Nat.le_refl _
  · simp only [ht]
    cases hr : m { s with guard := { s.guard with steps := s.guard.steps + 1 } } with
    | ok a s' => exact (h.ok hr).2.steps
    | error e s' => exact (h.error hr).steps
  · simp only [ht]
    exact Nat.le_refl _

theorem steps_lt_of_node (sb : Sandbox) (n : Node) (s : RunState) :
    EndFact.Of (fun _ s' => s.guard.steps + 1 ≤ s'.guard.steps) ((visit sb).node n s) := by
  rw [← visit_next]
  cases n with
  | expr e =>
    exact steps_lt_of_visit (Congruence.exprKind (balance.visit sb) True.intro
      fun _ => balance.keepsPlace sb) e.span s
  | stmt st =>
    exact steps_lt_of_visit (Congruence.stmtKind (C := balance sb)
      (Congruence.keepsLoops rfl True.intro) (balance.visit sb) True.intro
      fun _ => balance.keepsPlace sb) st.span s

/-! ## Fatal errors -/

/-- A fatal error of another kind. -/
theorem ErrorKind.exists_fatal_ne (k : ErrorKind) :
    ∃ x : Error, x.isCatchable = false ∧ x.kind ≠ k := by
  by_cases h : k = .structural ""
  · refine ⟨.ofKind (.limitExceeded .steps 0), rfl, ?_⟩
    rw [h]
    exact nofun
  · exact ⟨.ofKind (.structural ""), rfl, fun heq => h heq.symm⟩

/-- Nothing but the current scope, the depth of calls and the errors being handled may differ. -/
structure RunState.Unwound (s s' : RunState) : Prop where
  store : s'.store = s.store
  scopes : s'.scopes.scopes = s.scopes.scopes
  settled : s'.scopes.settled = s.scopes.settled
  copies : s'.copies = s.copies
  steps : s'.guard.steps = s.guard.steps
  loops : s'.guard.loops = s.guard.loops
  calls : s'.guard.calls = s.guard.calls

theorem RunState.Unwound.refl (s : RunState) : s.Unwound s := ⟨rfl, rfl, rfl, rfl, rfl, rfl, rfl⟩

/-- An error of the kind of one that came up at the state `s` is on its way out, and nothing has
happened since but leaving. -/
abbrev EndFact.stopped (e : Error) (s : RunState) : EndFact := fun x s' =>
  ∃ e', x = some e' ∧ e'.kind = e.kind ∧ s.Unwound s'

theorem lasting_fatal {e : Error} (he : e.isCatchable = false) (s : RunState) :
    Lasting (.stopped e s) where
  next h _ := by
    obtain ⟨e', h, -⟩ := h
    cases h
  caught hcatch h := by
    obtain ⟨e', h, hkind, -⟩ := h
    cases h
    rw [Error.isCatchable, hkind, ← Error.isCatchable, he] at hcatch
    cases hcatch
  tagged htag h := by
    obtain ⟨e', h, hkind, hs⟩ := h
    cases h
    exact ⟨_, rfl, htag.trans hkind, hs⟩
  restore r h := by
    obtain ⟨e', h, hkind, hs⟩ := h
    exact ⟨e', h, hkind, hs.store, hs.scopes, hs.settled, hs.copies, hs.steps, hs.loops, hs.calls⟩
  leave h := by
    obtain ⟨e', h, hkind, hs⟩ := h
    exact ⟨e', h, hkind, hs.store, hs.scopes, hs.settled, hs.copies, hs.steps, hs.loops, hs.calls⟩
  handled h := by
    obtain ⟨e', h, hkind, hs⟩ := h
    exact ⟨e', h, hkind, hs.store, hs.scopes, hs.settled, hs.copies, hs.steps, hs.loops, hs.calls⟩

/-- An evaluation ends for an error that came up at the state `s'`: it ends in an error of the same
kind, and since then nothing has happened but that it has left what it had entered. -/
def StopsFor {α : Type} (m : Eval α) (s : RunState) (e : Error) (s' : RunState) : Prop :=
  ∃ e' s'', m s = .error e' s'' ∧ e'.kind = e.kind ∧ s'.Unwound s'' ∧ s.Balanced s''

theorem stopsFor_of {α : Type} {P : α → Prop} {m : Eval α} {s s' : RunState} {e : Error}
    (hm : Balances P m)
    (h : (EndFact.stopped e s').Of (m s)) :
    StopsFor m s e s' := by
  cases hr : m s with
  | ok a s'' =>
    rw [hr] at h
    obtain ⟨e', h, -⟩ := h
    cases h
  | error e' s'' =>
    rw [hr] at h
    obtain ⟨_, he, hkind, hs⟩ := h
    cases he
    exact ⟨e', s'', hr, hkind, hs, hm.error hr⟩

/-- A visit that an evaluation makes starts below the steps that the evaluation ends with. -/
theorem StopsFor.steps_lt {α : Type} {m : Eval α} {s s' t : RunState} {e : Error}
    (h : StopsFor m s e s')
    (hsteps : EndFact.Of (fun _ s'' => t.guard.steps + 1 ≤ s''.guard.steps) (m s)) :
    t.guard.steps < s'.guard.steps := by
  obtain ⟨e', s'', hr, -, hs, -⟩ := h
  rw [hr] at hsteps
  rw [← hs.steps]
  exact hsteps

/-- A fatal error is final. When a visit of a node ends in an error that a script may not catch, then
every visit and every script that it is part of ends in an error of this kind, in the state that the
visit has ended in but for leaving scopes, calls and handlers, and no other node is visited any more:
each visit starts below the count of steps there was. -/
theorem fatal_error_final (sb : Sandbox) {n : Node} {t s' : RunState} {e : Error}
    (hn : (visit sb).node n t = .error e s') (he : e.isCatchable = false) :
    (∀ k s, Visited sb k s n t → StopsFor ((visit sb).node k) s e s' ∧
      ∀ n' t', Visited sb k s n' t' → t'.guard.steps < s'.guard.steps) ∧
    (∀ m s, m.Visits sb s n t → StopsFor (module sb m) s e s' ∧
      ∀ n' t', m.Visits sb s n' t' → t'.guard.steps < s'.guard.steps) ∧
    (∀ m store, m.Visits sb (.start store) n t →
      ∃ e', (run sb m store).1 = .error e' ∧ e'.kind = e.kind) := by
  have hfact : (EndFact.stopped e s').Of ((visit sb).node n t) := by
    rw [hn]
    exact ⟨e, rfl, rfl, .refl s'⟩
  have hnode : ∀ k s, Visited sb k s n t → StopsFor ((visit sb).node k) s e s' := fun k s h =>
    stopsFor_of (balance.node sb k) ((lasting_fatal he s').of_visited h hfact)
  have hmodule : ∀ m s, m.Visits sb s n t → StopsFor (module sb m) s e s' := fun m s h =>
    stopsFor_of (balance.module sb m) ((lasting_fatal he s').of_module h hfact)
  refine ⟨fun k s h => ⟨hnode k s h, fun n' t' h' => ?_⟩,
    fun m s h => ⟨hmodule m s h, fun n' t' h' => ?_⟩, fun m store h => ?_⟩
  · -- the node visited there counts a step that is among those of the whole visit
    exact (hnode k s h).steps_lt
      ((lasting_steps _).of_visited h' (steps_lt_of_node sb n' t'))
  · exact (hmodule m s h).steps_lt
      ((lasting_steps _).of_module h' (steps_lt_of_node sb n' t'))
  · obtain ⟨e', s'', hr, hkind, -⟩ := hmodule m (.start store) h
    exact ⟨e', by simp only [run, hr], hkind⟩

/-! ### A breach inside a `try` statement -/

/-- A sandbox with the preset whose containers hold one element at most. -/
def singletons : Sandbox where
  limits := { Limits.standard with size := { Limits.standard.size with maxContainerSize := 1 } }
  bindings := .standard
  host := .bare
  clock := .stopped

/-- The statement `[1, 1]`. -/
def pairStmt : Stmt :=
  Syntax.Build.exprStmt (Syntax.Build.list [Syntax.Build.int 1, Syntax.Build.int 1])

/-- A `try` statement around it whose handler takes every error. -/
def guardedPair : Stmt :=
  Syntax.Build.tryStmt [pairStmt] [Syntax.Build.except none [Syntax.Build.pass]] [] []

/-- The state of a run once it has counted one step. -/
def oneStep : RunState := { RunState.start .empty with guard := ⟨1, 0, 0, 0⟩ }

/-- An answer that no visit gives. -/
def noAnswer : EStateM.Result Error RunState Flow := .error (.ofKind (.structural "")) default

/-- The `try` statement ends as the statement inside it does when that is fatal. -/
theorem guardedPair_stops {v : Visit} (h : v.stmt pairStmt oneStep = noAnswer) :
    (v.next singletons).stmt guardedPair (.start .empty) = noAnswer := by
  have body : Eval.block v [pairStmt] oneStep = noAnswer := by
    rw [Eval.block, bind_apply, h]
    rfl
  have outcome : tryOutcome v [pairStmt] [Syntax.Build.except none [Syntax.Build.pass]] [] oneStep =
      .ok (.error (.ofKind (.structural ""))) default := by
    simp only [tryOutcome, bind_apply, attempt, body]
    rfl
  have tick : (liftM (Guard.tick singletons.limits singletons.clock) : Eval Unit) (.start .empty) =
      .ok () oneStep := rfl
  simp only [Visit.next, guardedPair, Syntax.Build.tryStmt, Syntax.Build.stmt, stmtKind, located,
    bind_apply, tick, tryStmt, outcome]
  rfl

theorem visited_pairStmt :
    Visited singletons (.stmt guardedPair) (.start .empty) (.stmt pairStmt) oneStep := by
  classical
  let other : Visit :=
    { visit singletons with
      stmt := fun st s =>
        if st = pairStmt ∧ s = oneStep then noAnswer else (visit singletons).stmt st s }
  refine .step ⟨other, ?_, fun heq => ?_⟩ (.refl _ _)
  · rintro (e | st) s h
    · rfl
    · exact if_neg fun hs => h ⟨congrArg Node.stmt hs.1, hs.2⟩
  · have hstop : (other.next singletons).stmt guardedPair (.start .empty) = noAnswer :=
      guardedPair_stops (if_pos ⟨rfl, rfl⟩)
    have hother : noAnswer = (visit singletons).stmt guardedPair (.start .empty) := by
      rw [← hstop, ← visit_next]
      exact heq
    cases hother

/-- A handler that takes every error does not get a breach of the quota on containers. -/
theorem guardedPair_final : ∃ e s',
    (visit singletons).node (.stmt pairStmt) oneStep = .error e s' ∧
    e.kind = .limitExceeded .containerSize 1 ∧
    StopsFor ((visit singletons).node (.stmt guardedPair)) (.start .empty) e s' :=
  ⟨_, _, rfl, rfl, ((fatal_error_final singletons rfl rfl).1 _ _ visited_pairStmt).1⟩

end ScriptSandbox

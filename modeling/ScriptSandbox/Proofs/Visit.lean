import ScriptSandbox.Proofs.Balance
import ScriptSandbox.Proofs.Invariant.Run

/-!
# The visits of a run

The evaluator is defined with bounds on how deep visits nest and on the rounds of a loop. Neither
bound can be seen: visits satisfy the plain equations of a recursion without a bound (`visit_next`,
`whileLoop_eq`), and nothing else does (`visit_unique`).

Which nodes a run visits, and at which states, is read off its dependence on them: an evaluation
visits a node at a state if another answer of the node at this state could change its outcome
(`Consults`). `Visited` follows this into the nodes that are visited.

A visit counts its step, which may be one too many, and then does what the kind of its node says
(`expr_cases`, `stmt_cases`).
-/

namespace ScriptSandbox

open Eval

/-- What holds of every state: nothing is said of values, errors and counters. -/
def Invariant.trivial (sb : Sandbox) : Invariant sb where
  toNorm := .trivial sb.limits
  allows _ := True
  code _ := True
  reads _ := True
  top _ := True
  counts _ := True
  fails _ _ := True
  allows_child _ _ := True.intro
  code_of _ _ := True.intro
  allows_code _ _ := True.intro
  fits_rest _ _ _ := True.intro
  fits_starred _ _ _ _ := True.intro
  good_function := Norm.trivial_function sb
  reads_name _ := True.intro
  errs_stray _ _ _ := True.intro
  pieces_text _ _ := True.intro
  pieces_call _ _ _ _ := True.intro
  allows_top _ := True.intro
  errs_top _ _ := True.intro
  lends := Norm.lends_trivial sb.host
  registered _ := HostValue.fits_of_forall (fun _ => True.intro) _
  offered _ _ := True.intro
  counts_tick _ _ _ := True.intro
  counts_loop _ _ _ := True.intro
  counts_call _ _ _ := True.intro
  counts_native _ _ := True.intro
  counts_leave _ := True.intro
  fails_errs _ _ := True.intro
  fails_tick _ _ := True.intro
  fails_loop _ _ := True.intro
  fails_call _ := True.intro
  fails_lateTick _ _ := True.intro
  fails_lateLoop _ _ := True.intro
  fails_leave _ := True.intro

theorem Invariant.trivial_holds (sb : Sandbox) (s : RunState) : (Invariant.trivial sb).holds s :=
  holds_of _ ⟨Norm.kept_trivial _, fun _ _ _ => True.intro, fun _ _ => True.intro,
    fun _ _ => True.intro⟩ True.intro

theorem Invariant.trivial_keeps {sb : Sandbox} {α : Type} {P Q : α → Prop} {m : Eval α}
    (h : Balances Q m) (hP : ∀ a, P a) : (Invariant.trivial sb).Keeps P m m := by
  refine .of_ends fun s _ => ?_
  cases hm : m s with
  | ok a s' =>
    have hs := (h.ok hm).2
    exact ⟨hP a, trivial_holds sb s', hs.steps, hs.loops⟩
  | error e s' =>
    have hs := h.error hm
    exact ⟨True.intro, fun _ => ⟨True.intro, trivial_holds sb s', hs.steps, hs.loops⟩, linked _ _⟩

/-! ## Equations without bounds -/

section Equations

variable {sb : Sandbox}

/-- Without a step left, a visit fails whatever is inside it. -/
theorem Eval.visit_spent {α : Type} (span : Span) (m m' : Eval α) {s : RunState}
    (h : sb.limits.maxSteps < s.guard.steps) :
    located span (onGuard (Guard.tick sb.limits sb.clock) >>= fun _ => m) s =
      located span (onGuard (Guard.tick sb.limits sb.clock) >>= fun _ => m') s := by
  simp only [located, bind_apply, onGuard]
  rcases Guard.tick_cases sb.limits sb.clock s.guard with ⟨-, ht⟩ | ⟨hle, -⟩
  · simp only [ht]
  · dsimp only at hle
    omega

theorem Visit.ext {v v' : Visit} (hexpr : ∀ e s, v.expr e s = v'.expr e s)
    (hstmt : ∀ st s, v.stmt st s = v'.stmt st s) : v = v' := by
  obtain ⟨expr, stmt⟩ := v
  obtain ⟨expr', stmt'⟩ := v'
  obtain rfl : expr = expr' := funext fun e => funext (hexpr e)
  obtain rfl : stmt = stmt' := funext fun st => funext (hstmt st)
  rfl

/-- Visits that answer like the visits of a run while steps are left do so always. -/
theorem Visit.eq_visit {v : Visit} (hv : (Invariant.trivial sb).running.congruence.Visits (visit sb) v)
    (hnext : ∃ v₀ : Visit, v = v₀.next sb) : v = visit sb := by
  obtain ⟨v₀, rfl⟩ := hnext
  have running : ∀ {s : RunState}, s.guard.steps ≤ sb.limits.maxSteps →
      (Invariant.trivial sb).running.holds s := fun hs =>
    Invariant.running_holds.2 ⟨Invariant.trivial_holds sb _, hs⟩
  refine Visit.ext (fun e s => ?_) fun st s => ?_
  · rcases Nat.lt_or_ge sb.limits.maxSteps s.guard.steps with hlt | hle
    · exact visit_spent e.span _ _ hlt
    · exact (hv.expr e True.intro s (running hle)).1.symm
  · rcases Nat.lt_or_ge sb.limits.maxSteps s.guard.steps with hlt | hle
    · exact visit_spent st.span _ _ hlt
    · exact (hv.stmt st True.intro s (running hle)).1.symm

/-- Visits satisfy the equations of a recursion without a bound. -/
theorem Eval.visit_next (sb : Sandbox) : (visit sb).next sb = visit sb := by
  refine Visit.eq_visit (Invariant.visits_eq ⟨(visitWithin sb 0).next sb, ?_⟩) ⟨_, rfl⟩
  rw [visit, Invariant.visitWithin_eq]
  exact (Function.iterate_succ_apply' (Visit.next sb) _ _).symm.trans
    (Function.iterate_succ_apply _ _ _)

/-- The equations of visits have one solution. -/
theorem Eval.visit_unique {v : Visit} (h : v.next sb = v) : v = visit sb := by
  refine Visit.eq_visit (Invariant.visits_eq ⟨v, ?_⟩) ⟨v, h.symm⟩
  exact (Function.iterate_fixed h _).symm

theorem Eval.keeps_test (sb : Sandbox) (test : Expr) :
    (Invariant.trivial sb).Keeps (fun _ => True) ((visit sb).expr test) ((visit sb).expr test) :=
  Invariant.trivial_keeps ((balance.visit sb).expr test True.intro) fun _ => True.intro

theorem Eval.keeps_block (sb : Sandbox) (body : List Stmt) :
    (Invariant.trivial sb).Keeps (Invariant.trivial sb).congruence.GoodFlow
      (block (visit sb) body) (block (visit sb) body) :=
  Invariant.trivial_keeps ((balance sb).block (balance.visit sb) fun _ _ => True.intro)
    fun flow => by cases flow <;> exact True.intro

/-- Rounds beyond the quota make no difference to a `while` loop. -/
theorem Eval.whileRounds_eq (sb : Sandbox) (test : Expr) (body orelse : List Stmt) (n : Nat)
    (h : sb.limits.maxLoopIterations < n) :
    whileRounds sb (visit sb) test body orelse n = whileLoop sb (visit sb) test body orelse := by
  funext s
  exact (ScopedInvariant.whileRounds (keeps_test sb test) (keeps_block sb body) (keeps_block sb orelse)
    (Invariant.trivial_holds sb s) (by omega) (Nat.le_add_left _ _) (by omega)
    (Nat.le_add_left _ _)).1

/-- A `while` loop satisfies the equation of a loop without a bound. -/
theorem Eval.whileLoop_eq (sb : Sandbox) (test : Expr) (body orelse : List Stmt) :
    whileLoop sb (visit sb) test body orelse = (do
      let value ← (visit sb).expr test
      if ← isTruthy value then
        Guard.tickLoop sb.limits sb.clock
        let flow ← block (visit sb) body
        match afterRound flow with
        | some flow => pure flow
        | none => whileLoop sb (visit sb) test body orelse
      else block (visit sb) orelse) := by
  funext s
  refine ((keeps_test sb test s (Invariant.trivial_holds sb s)).bind
    (Q := (Invariant.trivial sb).congruence.GoodFlow) fun value s₁ _ _ hs₁ _ => ?_).1
  refine ((Invariant.trivial sb).congruence.isTruthy value s₁ hs₁).bind fun truth s₂ _ _ hs₂ _ => ?_
  cases truth with
  | false => exact keeps_block sb orelse s₂ hs₂
  | true =>
    refine (ScopedInvariant.Keeps.tickLoop s₂ hs₂).bind fun _ s₃ hround _ hs₃ _ => ?_
    obtain ⟨hone, hmax⟩ := ScopedInvariant.Keeps.tickLoop_ok hround
    refine (keeps_block sb body s₃ hs₃).bind fun flow s₄ _ hflow hs₄ hsince => ?_
    have := hsince.2
    cases h : afterRound flow with
    | some ended =>
      exact ScopedInvariant.Keeps.pure (Congruence.afterRound hflow ended h) s₄ hs₄
    | none =>
      -- the round just counted was within the quota, so one is left for the bound to allow
      exact ScopedInvariant.whileRounds (keeps_test sb test) (keeps_block sb body)
        (keeps_block sb orelse) hs₄ (by omega) (Nat.le_add_left _ _) (by omega)
        (Nat.le_add_left _ _)

end Equations

/-! ## Nodes that are visited -/

/-- What visiting a node gives. -/
def Node.Result : Node → Type
  | expr _ => Value
  | stmt _ => Flow

/-- Visits a node. -/
def Visit.node (v : Visit) : (n : Node) → Eval n.Result
  | .expr e => v.expr e
  | .stmt s => v.stmt s

/-- Two ways of visiting nodes agree but on one node at one state. -/
def Visit.AgreesOff (v v' : Visit) (n : Node) (s : RunState) : Prop :=
  ∀ m t, ¬ (m = n ∧ t = s) → v'.node m t = v.node m t

/-- An evaluation from the state `s` asks for what visiting the node `n` at the state `t` gives:
another answer could change its outcome. -/
def Consults {α : Type} (m : Visit → Eval α) (v : Visit) (s : RunState) (n : Node) (t : RunState) :
    Prop := ∃ v', v.AgreesOff v' n t ∧ m v' s ≠ m v s

/-- `Visited sb n s m t`: visiting the node `n` at the state `s` visits the node `m` at the state
`t`, be it inside other visits. -/
inductive Visited (sb : Sandbox) : Node → RunState → Node → RunState → Prop where
  | refl (n : Node) (s : RunState) : Visited sb n s n s
  | step {n k m : Node} {s r t : RunState} :
    Consults (fun v => (v.next sb).node n) (visit sb) s k r → Visited sb k r m t →
    Visited sb n s m t

/-- `m.Visits sb s n t`: executing the script `m` from the state `s` visits the node `n` at the state
`t`, as one of its own statements or inside one. -/
inductive Module.Visits (m : Module) (sb : Sandbox) (s : RunState) : Node → RunState → Prop where
  | statement {before behind : List Stmt} {st : Stmt} {last : Value} {t : RunState} :
    m.body = before ++ st :: behind → moduleFrom sb (visit sb) .null before s = .ok last t →
    m.Visits sb s (.stmt st) t
  | inside {k n : Node} {r t : RunState} :
    Consults (fun v => moduleFrom sb v .null m.body) (visit sb) s k r → Visited sb k r n t →
    m.Visits sb s n t

namespace Congruence

variable {sb sb' : Sandbox} {C : Congruence sb sb'} {v v' : Visit}

/-- What is known of the result of a node. -/
def GoodResult (C : Congruence sb sb') : (n : Node) → n.Result → Prop
  | .expr _ => C.good
  | .stmt _ => C.GoodFlow

theorem Visits.node (h : C.Visits v v') : ∀ n, C.allows n →
    C.rel (C.GoodResult n) (v.node n) (v'.node n)
  | .expr e => h.expr e
  | .stmt s => h.stmt s

theorem visits_of (hv : v.Lawful)
    (h : ∀ n, C.allows n → C.rel (C.GoodResult n) (v.node n) (v'.node n)) : C.Visits v v' :=
  ⟨hv, fun e => h (.expr e), fun s => h (.stmt s)⟩

end Congruence

namespace Invariant

variable {sb : Sandbox} {I : Invariant sb} {s t : RunState} {n k : Node}

theorem visits : I.running.congruence.Visits (visit sb) (visit sb) :=
  visits_eq ⟨visitWithin sb 0, visitWithin_eq sb _⟩

/-- Other answers do not matter where the invariant does not hold. -/
theorem visits_of_agreesOff {v' : Visit} (h : (visit sb).AgreesOff v' k t)
    (hout : ¬ (I.running.holds t ∧ I.allows k)) :
    I.running.congruence.Visits (visit sb) v' := by
  refine Congruence.visits_of (visit_lawful sb) fun n hn s hs => ?_
  obtain ⟨-, hends⟩ := visits.node n hn s hs
  refine ⟨(h n s fun hsame => hout ?_).symm, hends⟩
  exact ⟨hsame.2 ▸ hs, hsame.1 ▸ hn⟩

theorem of_consults (hs : I.running.holds s) (hn : I.allows n)
    (h : Consults (fun v => (v.next sb).node n) (visit sb) s k t) :
    I.running.holds t ∧ I.allows k := by
  obtain ⟨v', hoff, hne⟩ := h
  refine Classical.byContradiction fun hout => hne ?_
  have hv := (visits_next (visits_of_agreesOff hoff hout)).node n hn s (deep.holds_succ hs)
  exact hv.1.symm

/-- The invariant holds wherever a node is visited from a state in which it holds. -/
theorem of_visited (h : Visited sb n s k t) (hs : I.running.holds s) (hn : I.allows n) :
    I.running.holds t ∧ I.allows k := by
  induction h with
  | refl => exact ⟨hs, hn⟩
  | step hstep _ ih =>
    obtain ⟨hr, hk⟩ := of_consults hs hn hstep
    exact ih hr hk

theorem moduleFrom_keeps {v' : Visit} (hv : I.running.congruence.Visits (visit sb) v')
    {body : List Stmt} (hbody : ∀ st ∈ body, I.top st) :
    I.running.Keeps I.good (moduleFrom sb (visit sb) .null body)
      (moduleFrom sb v' .null body) :=
  Congruence.moduleFrom (C := I.running.congruence) ScopedInvariant.keepsSteps hv Norm.good_null
    (fun st hst => I.allows_top (hbody st hst)) fun st hst _ => I.errs_top (hbody st hst)

theorem of_module {m : Module} (hs : I.running.holds s)
    (hm : ∀ st ∈ m.body, I.top st) (h : m.Visits sb s k t) :
    I.running.holds t ∧ I.allows k := by
  cases h with
  | @statement before behind st last _ hbody hbefore =>
    rw [hbody] at hm
    have hends := (moduleFrom_keeps (I := I) visits
      (fun st (hst : st ∈ before) => hm st (by simp [hst])) s hs).2
    rw [hbefore] at hends
    exact ⟨hends.2.1, I.allows_top (hm st (by simp))⟩
  | @inside n _ r _ hconsults hvisited =>
    obtain ⟨v', hoff, hne⟩ := hconsults
    have hfirst : I.running.holds r ∧ I.allows n := by
      refine Classical.byContradiction fun hout => hne ?_
      have hv := visits_of_agreesOff hoff hout
      exact (moduleFrom_keeps hv hm s hs).1.symm
    exact of_visited hvisited hfirst.1 hfirst.2

/-- What holds of the end of a script. -/
theorem module_ends {m : Module} (hs : I.running.holds s)
    (hm : ∀ st ∈ m.body, I.top st) :
    I.running.Ends I.good s.guard (module sb m s) := (moduleFrom_keeps visits hm s hs).2

end Invariant

/-! ## Facts about whole runs -/

/-- In the run of a script, all values are of a norm's sort: wherever a node is visited, in what each
visit and the script give, and behind an error that a script may catch. -/
structure Norm.Throughout {sb : Sandbox} (N : Norm sb.limits) (m : Module) (store : Store) : Prop where
  visited : ∀ n t, m.Visits sb (.start store) n t → N.KeptRun t
  expr : ∀ e t v t', m.Visits sb (.start store) (.expr e) t → Eval.expr sb e t = .ok v t' →
    N.good v ∧ N.KeptRun t'
  stmt : ∀ st t flow t', m.Visits sb (.start store) (.stmt st) t → Eval.stmt sb st t = .ok flow t' →
    (∀ v, flow = .returning v → N.good v) ∧ N.KeptRun t'
  ended : ∀ v s', module sb m (.start store) = .ok v s' → N.good v ∧ N.KeptRun s'
  caught : ∀ e s', module sb m (.start store) = .error e s' → e.isCatchable = true → N.KeptRun s'

theorem Invariant.throughout {sb : Sandbox} (I : Invariant sb) {m : Module} {store : Store}
    (hstart : I.holds (.start store)) (hm : ∀ st ∈ m.body, I.top st) :
    I.toNorm.Throughout m store := by
  have hs : I.running.holds (.start store) := running_holds.2 ⟨hstart, Nat.zero_le _⟩
  have hends := module_ends hs hm
  refine ⟨fun n t h => (of_module hs hm h).1.toKeptRun, fun e t v t' h hr => ?_,
    fun st t flow t' h hr => ?_, fun v s' hr => ?_, fun e s' hr he => ?_⟩
  · obtain ⟨ht, hallows⟩ := of_module hs hm h
    have hends := (visits.expr e hallows t ht).2
    rw [show (visit sb).expr e t = .ok v t' from hr] at hends
    exact ⟨hends.1, hends.2.1.toKeptRun⟩
  · obtain ⟨ht, hallows⟩ := of_module hs hm h
    have hends := (visits.stmt st hallows t ht).2
    rw [show (visit sb).stmt st t = .ok flow t' from hr] at hends
    refine ⟨fun v hflow => ?_, hends.2.1.toKeptRun⟩
    subst hflow
    exact hends.1
  · rw [hr] at hends
    exact ⟨hends.1, hends.2.1.toKeptRun⟩
  · rw [hr] at hends
    exact (hends.2.1 he).2.1.toKeptRun

/-! ## The step of a visit -/

/-- The state in which a visit has counted its step. -/
def RunState.stepped (s : RunState) : RunState :=
  { s with guard := { s.guard with steps := s.guard.steps + 1 } }

namespace RunState

/-- One of the next visits looks at the clock behind the deadline. -/
def LateVisit (sb : Sandbox) (s : RunState) (n : Nat) : Prop :=
  ∃ number, s.guard.steps < number ∧ number ≤ s.guard.steps + n ∧
    number % CallContext.pollInterval = 0 ∧ sb.clock.isLate sb.limits.timeout (.visit number) = true

/-- The kinds of error for visits that are too many, or behind the deadline. -/
def OutOfSteps (sb : Sandbox) (s : RunState) (n : Nat) (kind : ErrorKind) : Prop :=
  sb.limits.maxSteps < s.guard.steps + n ∧ kind = .limitExceeded .steps sb.limits.maxSteps ∨
  s.LateVisit sb n ∧ kind = .limitExceeded .timeout sb.limits.timeoutMillis

theorem OutOfSteps.mono {sb : Sandbox} {s s' : RunState} {m n : Nat} {kind : ErrorKind}
    (h : s'.OutOfSteps sb m kind) (hfrom : s.guard.steps ≤ s'.guard.steps)
    (hto : s'.guard.steps + m ≤ s.guard.steps + n) : s.OutOfSteps sb n kind := by
  rcases h with ⟨hmany, hkind⟩ | ⟨⟨number, hlt, hle, hlate⟩, hkind⟩
  · exact .inl ⟨Nat.lt_of_lt_of_le hmany hto, hkind⟩
  · exact .inr ⟨⟨number, Nat.lt_of_le_of_lt hfrom hlt, Nat.le_trans hle hto, hlate⟩, hkind⟩

end RunState

namespace Eval

theorem tick_stepped (sb : Sandbox) (s : RunState) :
    (∃ e, onGuard (Guard.tick sb.limits sb.clock) s = .error e s.stepped ∧ s.OutOfSteps sb 1 e.kind) ∨
      onGuard (Guard.tick sb.limits sb.clock) s = .ok () s.stepped := by
  simp only [onGuard]
  rcases Guard.tick_cases sb.limits sb.clock s.guard with ⟨hmany, ht⟩ | ⟨hroom, ht | ht⟩
  · exact .inl ⟨_, by rw [ht]; rfl, .inl ⟨hmany, rfl⟩⟩
  · exact .inr (by rw [ht]; rfl)
  · refine .inl ⟨_, by rw [ht]; rfl, .inr ⟨⟨_, Nat.lt_succ_self _, Nat.le_refl _, ?_⟩, rfl⟩⟩
    exact Guard.late_of_tick hroom ht

theorem located_error {α : Type} {m : Eval α} {s s' : RunState} {e : Error} (span : Span)
    (h : m s = .error e s') : ∃ e', located span m s = .error e' s' ∧ e'.kind = e.kind := by
  refine ⟨e.located span, by simp only [located, h], ?_⟩
  unfold Error.located
  split <;> rfl

theorem located_ok {α : Type} {m : Eval α} {span : Span} {s s' : RunState} {a : α} :
    located span m s = .ok a s' ↔ m s = .ok a s' := by
  simp only [located]
  cases m s <;> simp

variable (sb : Sandbox)

theorem expr_eq (e : Expr) : expr sb e = located e.span
    (onGuard (Guard.tick sb.limits sb.clock) >>= fun _ => exprKind sb (visit sb) e.span e.kind) :=
  congrArg (fun v : Visit => v.expr e) (visit_next sb).symm

theorem stmt_eq (st : Stmt) : stmt sb st = located st.span
    (onGuard (Guard.tick sb.limits sb.clock) >>= fun _ => stmtKind sb (visit sb) st.kind) :=
  congrArg (fun v : Visit => v.stmt st) (visit_next sb).symm

/-- What follows the step of a visit, or the visit fails. -/
theorem counted_cases {α : Type} (span : Span) (m : Eval α) (s : RunState) :
    (∃ e, located span (onGuard (Guard.tick sb.limits sb.clock) >>= fun _ => m) s = .error e s.stepped ∧
        s.OutOfSteps sb 1 e.kind) ∨
      located span (onGuard (Guard.tick sb.limits sb.clock) >>= fun _ => m) s =
        located span m s.stepped := by
  rcases tick_stepped sb s with ⟨e, he, hout⟩ | h
  · obtain ⟨e', he', hkind⟩ := located_error span
      (m := onGuard (Guard.tick sb.limits sb.clock) >>= fun _ => m) (by rw [bind_apply, he])
    exact .inl ⟨e', he', hkind ▸ hout⟩
  · right
    simp only [located, bind_apply]
    rw [h]

theorem stmt_cases (st : Stmt) (s : RunState) :
    (∃ e, stmt sb st s = .error e s.stepped ∧ s.OutOfSteps sb 1 e.kind) ∨
      stmt sb st s = located st.span (stmtKind sb (visit sb) st.kind) s.stepped := by
  rw [stmt_eq]
  exact counted_cases sb st.span _ s

theorem expr_cases (e : Expr) (s : RunState) :
    (∃ e', expr sb e s = .error e' s.stepped ∧ s.OutOfSteps sb 1 e'.kind) ∨
      expr sb e s = located e.span (exprKind sb (visit sb) e.span e.kind) s.stepped := by
  rw [expr_eq]
  exact counted_cases sb e.span _ s

end Eval

end ScriptSandbox

import ScriptSandbox.Proofs.Origin.Expression
import ScriptSandbox.Proofs.Origin.Statement

/-!
# Where errors come from: calls that are active

A call expression that evaluates its operands to a script function and finds a call left makes a call
active (`Node.Enters`): the function's code then runs, arguments and defaults being bound first, and an
error that leaves it gets the frame of the call. All other nodes hand on what comes from inside
(`node_ends`).
-/

namespace ScriptSandbox

open Eval

variable {sb : Sandbox}

/-- A call of a script function: what is called, with which arguments, and the place of the call. -/
structure ScriptCall where
  callee : Closure
  arguments : Arguments
  span : Span

namespace ScriptCall

/-- The line of a call in a trace. -/
def frame (k : ScriptCall) : TraceFrame := ⟨k.callee.name, k.span⟩

/-- What is evaluated while a call is active. -/
def code (sb : Sandbox) (k : ScriptCall) (v : Visit) : Eval Value :=
  inScope .function k.callee.scope do
    bindArguments sb v k.callee.name k.callee.code.params k.arguments
    runCode v k.callee.code

theorem code_conveys (k : ScriptCall) : Conveys sb Error.Fresh (k.code sb) :=
  .calledCode k.callee k.arguments

end ScriptCall

namespace Eval

/-- Evaluates what a call needs before it is made. -/
def operands (sb : Sandbox) (v : Visit) (callee : Expr) (args : List Expr) (named : List Keyword) :
    Eval (Value × Arguments) := do
  let callee ← v.expr callee
  let positional ← elements sb v #[] args
  let named ← keywords v [] named
  pure (callee, ⟨positional.toList, named⟩)

theorem call_eq (v : Visit) (span : Span) (callee : Expr) (args : List Expr) (named : List Keyword) :
    call sb v span callee args named =
      operands sb v callee args named >>= fun x => callValue sb v x.1 x.2 span := by
  simp only [call, operands, bind_assoc, pure_bind]

end Eval

theorem Conveys.operands (callee : Expr) (args : List Expr) (named : List Keyword) :
    Conveys sb Error.Fresh fun v => Eval.operands sb v callee args named :=
  (expr callee).bind fun _ => (elements args #[]).bind fun _ => (keywords named []).bind fun _ => pure _

/-- Visiting a node at a state makes a call active, which starts at the last state. -/
inductive Node.Enters (sb : Sandbox) : Node → RunState → ScriptCall → RunState → Prop where
  | call {callee : Expr} {args : List Expr} {named : List Keyword} {span : Span} {f : Closure}
    {arguments : Arguments} {s s₁ s₂ r : RunState} :
    onGuard (Guard.tick sb.limits sb.clock) s = .ok () s₁ →
    operands sb (visit sb) callee args named s₁ = .ok (.function f, arguments) s₂ →
    onGuard (Guard.enterCall sb.limits sb.clock) s₂ = .ok () r →
    Enters sb (.expr ⟨.call callee args named, span⟩) s ⟨f, arguments, span⟩ r

/-- The state in which one more call is active. -/
def RunState.deeper (s : RunState) : RunState :=
  { s with guard := { s.guard with depth := s.guard.depth + 1, calls := s.guard.calls + 1 } }

/-- An error that comes up in an evaluation from a state: it has passed no call, and if it says that a
call was refused, the quota of calls was used up. -/
structure Error.RaisedAt (sb : Sandbox) (s : RunState) (e : Error) : Prop where
  passed : e.passed = []
  refused : e.kind.refusesCall = true → sb.limits.maxCallDepth ≤ s.guard.depth

namespace Error

variable {e : Error} {s t : RunState}

theorem Fresh.raisedAt (h : e.Fresh) (s : RunState) : e.RaisedAt sb s :=
  ⟨h.passed, fun hrefused => by rw [h.kind] at hrefused; cases hrefused⟩

theorem RaisedAt.through (h : e.RaisedAt sb t) (ht : t.guard.depth = s.guard.depth) (p : Passage) :
    (p.error e).RaisedAt sb s :=
  ⟨(p.passed e).trans h.passed, fun hrefused => ht ▸ h.refused (by rwa [p.kind] at hrefused)⟩

end Error

/-- A call becomes active within the quota, or it is refused. -/
theorem enterCall_apply (sb : Sandbox) (s : RunState) :
    (s.guard.depth < sb.limits.maxCallDepth ∧
      onGuard (Guard.enterCall sb.limits sb.clock) s = .ok () s.deeper) ∨
    ∃ e, e.RaisedAt sb s ∧ onGuard (Guard.enterCall sb.limits sb.clock) s = .error e s := by
  simp only [onGuard]
  rcases Guard.enterCall_cases sb.limits sb.clock s.guard with ⟨hle, h⟩ | ⟨hlt, h | h⟩
  · exact .inr ⟨_, ⟨rfl, fun _ => hle⟩, by rw [h]⟩
  · exact .inl ⟨hlt, by rw [h]; rfl⟩
  · exact .inr ⟨_, Error.Fresh.raisedAt ⟨rfl, rfl⟩ s, by rw [h]⟩

/-- What succeeds does so whatever visits that fail would answer. -/
theorem ConveysAt.fixed_of_ok {O : Error → Prop} {α : Type} {c : Visit → Eval α} {s s' : RunState}
    {a : α} (h : ConveysAt sb O c s) (hr : c (visit sb) s = .ok a s') :
    s.Onward s' ∧ ∀ v, (visit sb).Follows v → c v s = .ok a s' := by
  cases h with
  | ok b s'' onward fixed =>
    rw [fixed _ (.refl _)] at hr
    cases hr
    exact ⟨onward, fixed⟩
  | own e s'' _ _ fixed =>
    rw [fixed _ (.refl _)] at hr
    cases hr
  | handed n t p _ fails answer =>
    obtain ⟨e, t', hn⟩ := fails
    rw [answer _ (.refl _) e t' hn] at hr
    cases hr

/-- What is evaluated ends with any visit inside it that fails. -/
theorem ConveysAt.answer_of_falls {O : Error → Prop} {α : Type} {c : Visit → Eval α} {s t : RunState}
    {n : Node} (h : ConveysAt sb O c s) (hfalls : Falls sb c s n t) :
    s.Onward t ∧ ∃ p : Passage, ∀ v, (visit sb).Follows v → ∀ e r, v.node n t = .error e r →
      c v s = .error (p.error e) (p.state r) := by
  obtain ⟨v, hoff, hne⟩ := hfalls.asked
  have hv := hfalls.fails.follows hoff
  cases h with
  | ok a s' _ fixed => exact absurd ((fixed v hv).trans (fixed _ (.refl _)).symm) hne
  | own e s' _ _ fixed => exact absurd ((fixed v hv).trans (fixed _ (.refl _)).symm) hne
  | handed n' t' p onward fails answer =>
    by_cases hsame : n' = n ∧ t' = t
    · obtain ⟨rfl, rfl⟩ := hsame
      exact ⟨onward, p, answer⟩
    · obtain ⟨e, r, hn⟩ := fails
      refine absurd ?_ hne
      rw [answer v hv e r ((hoff n' t' hsame).trans hn), answer _ (.refl _) e r hn]

namespace Node.Enters

variable {n : Node} {s r : RunState} {k : ScriptCall}

/-- A call is within the quota, and active in a state that has counted the visit. -/
theorem active (h : n.Enters sb s k r) :
    s.guard.depth < sb.limits.maxCallDepth ∧ r.guard.depth = s.guard.depth + 1 ∧
      s.guard.steps < r.guard.steps := by
  cases h with
  | @call _ _ _ _ _ _ _ s₁ s₂ _ htick hoperands henter =>
    have onward : s.counted.Onward s₂ := by
      rcases tick_apply sb s with h | ⟨e, -, h⟩ <;> rw [h] at htick <;> cases htick
      exact (Conveys.operands _ _ _ _).fixed_of_ok hoperands |>.1
    rcases enterCall_apply sb s₂ with ⟨hlt, h⟩ | ⟨e, -, h⟩ <;> rw [h] at henter <;> cases henter
    have hdepth : s₂.guard.depth = s.guard.depth := onward.depth
    exact ⟨hdepth ▸ hlt, congrArg (· + 1) hdepth, onward.steps⟩

/-- A node makes one call active at most. -/
theorem unique {k' : ScriptCall} {r' : RunState} (h : n.Enters sb s k r) (h' : n.Enters sb s k' r') :
    k' = k ∧ r' = r := by
  cases h with
  | call htick hoperands henter =>
    cases h' with
    | call htick' hoperands' henter' =>
      rw [htick] at htick'
      cases htick'
      rw [hoperands] at hoperands'
      cases hoperands'
      rw [henter] at henter'
      cases henter'
      exact ⟨rfl, rfl⟩

/-- Visiting the node is running the code of the call. -/
theorem run (h : n.Enters sb s k r) {v : Visit} (hv : (visit sb).Follows v) :
    ∃ e : Expr, n = .expr e ∧ (v.next sb).expr e s =
      match k.code sb v r with
      | .ok a s' => .ok a (leaveCall s')
      | .error e s' => .error ((e.withFrame k.callee.name k.span).located k.span) (leaveCall s') := by
  cases h with
  | @call callee args named span f arguments _ s₁ s₂ _ htick hoperands henter =>
    refine ⟨_, rfl, ?_⟩
    have hoperands := ((Conveys.operands callee args named s₁).fixed_of_ok hoperands).2 v hv
    have called : callFunction sb v f arguments span s₂ = traced f.name span
        (ensuring ((⟨f, arguments, span⟩ : ScriptCall).code sb v) leaveCall) r := by
      show (onGuard (Guard.enterCall sb.limits sb.clock) >>= fun _ => traced f.name span
        (ensuring ((⟨f, arguments, span⟩ : ScriptCall).code sb v) leaveCall)) s₂ = _
      rw [bind_apply, henter]
    show Eval.located span (onGuard (Guard.tick sb.limits sb.clock) >>= fun _ =>
      Eval.call sb v span callee args named) s = _
    simp only [Eval.located, bind_apply, htick, call_eq, hoperands, callValue, called, traced, ensuring]
    cases (⟨f, arguments, span⟩ : ScriptCall).code sb v r <;> rfl

/-- An error of the code is that of the visit, with the frame of the call. -/
theorem node_error (h : n.Enters sb s k r) {v : Visit} (hv : (visit sb).Follows v) {e : Error}
    {s' : RunState} (hcode : k.code sb v r = .error e s') :
    (v.next sb).node n s =
      .error ((e.withFrame k.callee.name k.span).located k.span) (leaveCall s') := by
  obtain ⟨e', rfl, hrun⟩ := h.run hv
  rw [hcode] at hrun
  exact hrun

/-- A visit that fails behind a call that it makes active does so for the code of the call. -/
theorem code_error (h : n.Enters sb s k r) (hn : (visit sb).Fails n s) :
    ∃ e s', k.code sb (visit sb) r = .error e s' := by
  obtain ⟨e, rfl, hrun⟩ := h.run (.refl _)
  obtain ⟨x, t, hn⟩ := hn
  rw [visit_next] at hrun
  cases hcode : k.code sb (visit sb) r with
  | error e s' => exact ⟨e, s', rfl⟩
  | ok a s' =>
    rw [hcode] at hrun
    have : (visit sb).expr e s = .error x t := hn
    rw [hrun] at this
    cases this

end Node.Enters

/-! ## Nodes that make no call active -/

/-- Evaluations that catch no errors end in what they are handed or in an error that comes up there. -/
theorem ConveysAt.endsAt {α : Type} {c : Visit → Eval α} {s : RunState}
    (h : ConveysAt sb (Error.RaisedAt sb s) c s) : EndsAt sb (Error.RaisedAt sb s) c s s :=
  (Catches.start fun v _ => (Passage.direct_pass (c v s)).symm).ends h fun _ he => .inl ⟨he, .inl rfl⟩

/-- A visit counts a step and then evaluates the node, whose parts are visited from there on. -/
theorem visit_ends {α : Type} {m : Visit → Eval α} {s : RunState} (span : Span)
    (h : ∀ {c : Visit → Eval α}, onGuard (Guard.tick sb.limits sb.clock) s = .ok () s.counted →
      Catches sb c s s.counted (Passage.direct.located span) [] m s.counted →
      EndsAt sb (Error.RaisedAt sb s) c s s.counted) :
    EndsAt sb (Error.RaisedAt sb s)
      (fun v => Eval.located span (onGuard (Guard.tick sb.limits sb.clock) >>= fun _ => m v))
      s s.counted := by
  rcases tick_apply sb s with ht | ⟨e, fresh, ht⟩
  · refine h ht (.start fun v _ => ?_)
    rw [Passage.located_eq, bind_apply, ht]
  · have ended (v : Visit) :
        Eval.located span (onGuard (Guard.tick sb.limits sb.clock) >>= fun _ => m v) s =
          .error (e.located span) s.counted := by
      rw [Passage.located_eq, bind_apply, ht]
      rfl
    have raised : (e.located span).RaisedAt sb s :=
      (fresh.raisedAt s).through rfl (Passage.direct.located span)
    refine .own _ _ (ended _) raised fun n t hpasses => ?_
    obtain ⟨v, -, hne⟩ := hpasses.falls.asked
    exact hne ((ended v).trans (ended _).symm)

/-- A visit ends like the node if this catches no errors. -/
theorem visit_ends_of_conveys {α : Type} {m : Visit → Eval α} {s : RunState} (span : Span)
    (h : onGuard (Guard.tick sb.limits sb.clock) s = .ok () s.counted →
      ConveysAt sb (Error.RaisedAt sb s) m s.counted) :
    EndsAt sb (Error.RaisedAt sb s)
      (fun v => Eval.located span (onGuard (Guard.tick sb.limits sb.clock) >>= fun _ => m v))
      s s.counted :=
  visit_ends span fun htick hcatches =>
    hcatches.ends (h htick) fun _ he => .inl ⟨he.through rfl _, .inl rfl⟩

/-- A call of a value that makes no call active. -/
theorem callValue_conveys (hhost : sb.host.Fresh) {value : Value} (args : Arguments) (span : Span)
    {s : RunState}
    (h : ∀ f r, value = .function f → onGuard (Guard.enterCall sb.limits sb.clock) s ≠ .ok () r) :
    ConveysAt sb (Error.RaisedAt sb s) (fun v => callValue sb v value args span) s := by
  by_cases hf : ∃ f, value = .function f
  · obtain ⟨f, rfl⟩ := hf
    rcases enterCall_apply sb s with ⟨-, henter⟩ | ⟨e, raised, henter⟩
    · exact absurd henter (h f _ rfl)
    · refine .own e s (.refl s) raised fun v _ => ?_
      show (onGuard (Guard.enterCall sb.limits sb.clock) >>= fun _ => _) s = _
      rw [bind_apply, henter]
  · have other : ∀ f, value ≠ .function f := fun f heq => hf ⟨f, heq⟩
    exact (Conveys.callOther hhost other args span s).mono fun e he => he.raisedAt s

/-- A node that makes no call active ends in the error of the visit that it comes from, or in one that
comes up there. -/
theorem node_ends (hhost : sb.host.Fresh) {n : Node} {s : RunState} (hraise : ¬ n.IsBareRaise)
    (hcall : ∀ k r, ¬ n.Enters sb s k r) :
    EndsAt sb (Error.RaisedAt sb s) (fun v => (v.next sb).node n) s s.counted := by
  have fresh {α : Type} {c : Visit → Eval α} (h : Conveys sb Error.Fresh c) :
      ConveysAt sb (Error.RaisedAt sb s) c s.counted := (h s.counted).mono fun _ he => he.raisedAt s
  cases n with
  | expr e =>
    obtain ⟨kind, span⟩ := e
    refine visit_ends_of_conveys span fun htick => ?_
    -- a call that enters nothing is a native one or fails before, and these errors are new
    by_cases hkind : ∃ callee args named, kind = .call callee args named
    · obtain ⟨callee, args, named, rfl⟩ := hkind
      show ConveysAt sb _ (fun v => Eval.call sb v span callee args named) s.counted
      simp only [call_eq]
      refine (fresh (.operands callee args named)).bind fun ⟨value, arguments⟩ s₂ hoperands onward => ?_
      refine (callValue_conveys hhost arguments span fun f r hvalue henter => ?_).mono fun e he =>
        he.through (s := s) onward.depth .direct
      cases hvalue
      exact hcall ⟨f, arguments, span⟩ r (.call htick hoperands henter)
    · exact fresh (.exprKind hhost span fun callee args named heq => hkind ⟨callee, args, named, heq⟩)
  | stmt st =>
    obtain ⟨kind, span⟩ := st
    by_cases htry : ∃ body hs orelse finalbody, kind = .try body hs orelse finalbody
    · obtain ⟨body, hs, orelse, finalbody, rfl⟩ := htry
      exact visit_ends span fun _ hcatches => Catches.tryStmt hcatches fun e he =>
        (he.toFresh.raisedAt s).through rfl _
    · have hraise : kind ≠ .raise none := fun heq => hraise ⟨span, heq ▸ rfl⟩
      refine visit_ends_of_conveys span fun _ => fresh (.stmtKind hhost hraise ?_)
      exact fun body hs orelse finalbody heq => htry ⟨body, hs, orelse, finalbody, heq⟩

end ScriptSandbox

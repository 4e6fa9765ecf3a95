import ScriptSandbox.Proofs.Control
import ScriptSandbox.Proofs.Origin.Call

/-!
# The trace of an error

The trace of the error in which a script ends lists the calls that were active when the error first
came up, innermost first (`trace_faithful`). Frames are added only while the error is on its way out, so
this says that none of them is lost, added twice or kept from an error that was caught.

Where an error came up is followed from visit to visit: it comes from the last visit that fails inside
a script, a node or the code of a call (`PassesOn`), until no visit inside passes on an error
(`Raised`). A bare `raise` is left out, since its error has come up before.
-/

namespace ScriptSandbox

open Eval

/-- `Raised sb c s calls o`: the error in which `c` ends from the state `s` has first come up in an
evaluation from the state `o`, and the calls that had become active in between were `calls`, innermost
first. -/
inductive Raised (sb : Sandbox) : {α : Type} → (Visit → Eval α) → RunState → List TraceFrame →
    RunState → Prop where
  | here {α : Type} {c : Visit → Eval α} {s s' : RunState} {e : Error} :
    c (visit sb) s = .error e s' → (∀ n t, ¬ PassesOn sb c s n t) → Raised sb c s [] s
  | visit {α : Type} {c : Visit → Eval α} {s t o : RunState} {n : Node} {calls : List TraceFrame} :
    PassesOn sb c s n t → (∀ k r, ¬ n.Enters sb t k r) →
    Raised sb (fun v => (v.next sb).node n) t calls o → Raised sb c s calls o
  | call {α : Type} {c : Visit → Eval α} {s t r o : RunState} {n : Node} {k : ScriptCall}
    {calls : List TraceFrame} :
    PassesOn sb c s n t → n.Enters sb t k r → Raised sb (k.code sb) r calls o →
    Raised sb c s (calls ++ [k.frame]) o

/-- The error of a script has come up in an evaluation from the state `o`, under active calls. -/
def Module.RaisedUnder (m : Module) (sb : Sandbox) (store : Store) (calls : List TraceFrame)
    (o : RunState) : Prop := Raised sb (fun v => moduleFrom sb v .null m.body) (.start store) calls o

/-- Scripts and functions without a bare `raise`. -/
def Profile.withoutBareRaise (sb : Sandbox) : Profile sb where
  node n := ¬ n.IsBareRaise
  native _ := True
  pieces := True
  errs _ := True
  errs_plain _ _ := True.intro
  errs_raised _ := True.intro
  errs_quota _ := True.intro
  errs_piece _ _ := True.intro
  errs_stray _ _ _ _ := True.intro
  pieces_text _ _ := True.intro
  pieces_call _ _ _ _ := True.intro
  offered _ _ := True.intro

variable {sb : Sandbox}

/-! ## Evaluations whose errors can be followed -/

/-- An evaluation of which it is known in what it ends, and that the visit from which its error comes
is one of the invariant's. -/
structure Traceable (I : Invariant sb) {α : Type} (c : Visit → Eval α) (s u : RunState) : Prop where
  onward : s.Onward u
  ends : EndsAt sb (Error.RaisedAt sb s) c s u
  inside : ∀ n t, PassesOn sb c s n t → I.running.holds t ∧ I.allows n

section Following

variable {I : Invariant sb} {n : Node} {s t u r : RunState} {k : ScriptCall}

theorem traceable_node (hhost : sb.host.Fresh) (hs : I.running.holds s) (hn : I.allows n)
    (hraise : ¬ n.IsBareRaise) (hcall : ∀ k r, ¬ n.Enters sb s k r) :
    Traceable I (fun v => (v.next sb).node n) s s.counted where
  onward := s.onward_counted
  ends := node_ends hhost hraise hcall
  inside _ _ h := Invariant.of_consults hs hn h.falls.asked

/-- What the code of a call depends on, the call expression depends on. -/
theorem traceable_code (hs : I.running.holds s) (hn : I.allows n) (h : n.Enters sb s k r) :
    Traceable I (k.code sb) r r where
  onward := .refl r
  ends := ConveysAt.endsAt ((k.code_conveys r).mono fun _ he => he.raisedAt r)
  inside n' t' hpasses := by
    obtain ⟨-, p, answer⟩ := (k.code_conveys r).answer_of_falls hpasses.falls
    refine Invariant.of_consults hs hn (consults_of_fatal fun v hoff x t hx _ => ?_)
    have hv := hpasses.falls.fails.follows hoff
    exact ⟨_, _, h.node_error hv (answer v hv x t hx), (Passage.located_kind _ _).trans (p.kind x)⟩

theorem Conveys.valueBehind (span : Span) (last : Value) (flow : Flow) :
    Conveys sb Error.Fresh fun _ => Eval.valueBehind span last flow := by
  cases flow with
  | normal => exact pure last
  | _ => exact located span (throw ⟨rfl, rfl⟩)

theorem Conveys.topLevel (last : Value) (st : Stmt) :
    Conveys sb Error.Fresh fun v => Eval.topLevel sb v last st := by
  obtain ⟨kind, span⟩ := st
  cases kind with
  | expr e => exact (tick.bind fun _ => expr e).located span
  | _ => exact (stmt _).bind fun flow => valueBehind span last flow

theorem Conveys.moduleFrom : ∀ (body : List Stmt) (last : Value),
    Conveys sb Error.Fresh fun v => Eval.moduleFrom sb v last body
  | [], last => pure last
  | st :: rest, last => (topLevel last st).bind fun last => moduleFrom rest last

theorem traceable_module {m : Module} (hs : I.running.holds s) (hm : ∀ st ∈ m.body, I.top st) :
    Traceable I (fun v => moduleFrom sb v .null m.body) s s where
  onward := .refl s
  ends := ConveysAt.endsAt ((Conveys.moduleFrom m.body .null s).mono fun _ he => he.raisedAt s)
  inside _ _ h := Invariant.of_module hs hm (.inside h.falls.asked (.refl _ _))

/-! ## Every error has come up somewhere -/

theorem Traceable.exists_raised {α : Type} {c : Visit → Eval α} (h : Traceable I c s u)
    (hfails : ∃ e s', c (visit sb) s = .error e s')
    (hinside : ∀ n t, u.Onward t → PassesOn sb c s n t → ∃ calls o, Raised sb c s calls o) :
    ∃ calls o, Raised sb c s calls o := by
  cases h.ends with
  | ok a s' run =>
    obtain ⟨e, s'', hr⟩ := hfails
    rw [run] at hr
    cases hr
  | own e s' run _ none => exact ⟨[], s, .here run none⟩
  | handed e s' n t _ _ onward passes => exact hinside n t onward passes

/-- An error that a visit passes on has come up somewhere: each visit inside counts more steps. -/
theorem exists_raised_of_passesOn (hhost : sb.host.Fresh) (hplain : ∀ n, I.allows n → ¬ n.IsBareRaise)
    {α : Type} {c : Visit → Eval α} {s t : RunState} {n : Node} (h : PassesOn sb c s n t)
    (ht : I.running.holds t) (hn : I.allows n) : ∃ calls o, Raised sb c s calls o := by
  have hmax := (Invariant.running_holds.1 ht).2
  -- on the way down the visit makes a call active or does not
  by_cases hcall : ∃ k r, n.Enters sb t k r
  · obtain ⟨k, r, henter⟩ := hcall
    have traceable := traceable_code ht hn henter
    have hsteps := henter.active.2.2
    obtain ⟨calls, o, hraised⟩ := traceable.exists_raised (henter.code_error h.falls.fails)
      fun n' t' onward hpasses => by
        obtain ⟨ht', hn'⟩ := traceable.inside n' t' hpasses
        have := onward.steps
        exact exists_raised_of_passesOn hhost hplain hpasses ht' hn'
    exact ⟨_, o, .call h henter hraised⟩
  · have hcall : ∀ k r, ¬ n.Enters sb t k r := fun k r h => hcall ⟨k, r, h⟩
    have traceable := traceable_node hhost ht hn (hplain n hn) hcall
    have hfails : ∃ e s', ((visit sb).next sb).node n t = .error e s' := by
      rw [visit_next]
      exact h.falls.fails
    obtain ⟨calls, o, hraised⟩ := traceable.exists_raised hfails fun n' t' onward hpasses => by
      obtain ⟨ht', hn'⟩ := traceable.inside n' t' hpasses
      have : t.guard.steps + 1 ≤ t'.guard.steps := onward.steps
      exact exists_raised_of_passesOn hhost hplain hpasses ht' hn'
    exact ⟨calls, o, .visit h hcall hraised⟩
termination_by sb.limits.maxSteps + 1 - t.guard.steps
decreasing_by all_goals omega

/-! ## Its trace -/

/-- What the trace of an error says: the calls that became active before it came up. There are as many
as the depth of calls has grown by, and they are within the quota; if a call was refused, they use it
up. -/
structure Error.Tells (sb : Sandbox) (e : Error) (s : RunState) (calls : List TraceFrame)
    (o : RunState) : Prop where
  trace : e.trace = calls
  depth : o.guard.depth = s.guard.depth + calls.length
  within : s.guard.depth ≤ sb.limits.maxCallDepth → o.guard.depth ≤ sb.limits.maxCallDepth
  refused : e.kind.refusesCall = true → sb.limits.maxCallDepth ≤ o.guard.depth

/-- An error that a visit passes on tells what the visit's error does. -/
theorem Error.Tells.pass {e e₀ : Error} {calls : List TraceFrame} {o : RunState}
    (h : e₀.Tells sb t calls o) (hdepth : t.guard.depth = s.guard.depth) (hkind : e.kind = e₀.kind)
    (hpassed : e.passed = e₀.passed) : e.Tells sb s calls o where
  trace := by rw [Error.trace, hpassed, ← Error.trace, h.trace]
  depth := hdepth ▸ h.depth
  within hle := h.within (hdepth ▸ hle)
  refused hrefused := h.refused (hkind ▸ hrefused)

/-- An error that leaves an active call tells of this call, too. -/
theorem Error.Tells.leave {e : Error} {calls : List TraceFrame} {o : RunState}
    (h : e.Tells sb r calls o) (hcall : n.Enters sb t k r) :
    ((e.withFrame k.callee.name k.span).located k.span).Tells sb t (calls ++ [k.frame]) o := by
  obtain ⟨hlt, hdepth, -⟩ := hcall.active
  refine ⟨?_, ?_, fun _ => h.within (by omega), fun hrefused => h.refused ?_⟩
  · rw [Error.trace_located, Error.trace_withFrame, h.trace]
    rfl
  · rw [h.depth, hdepth, List.length_append, List.length_singleton]
    omega
  · rwa [Passage.located_kind] at hrefused

/-- What the error of an evaluation comes from, its visit of a node ends in. -/
theorem Traceable.stems {α : Type} {c : Visit → Eval α} (h : Traceable I c s u)
    (hpasses : PassesOn sb c s n t) {e : Error} {s' : RunState} (hr : c (visit sb) s = .error e s') :
    e.StemsFrom sb n t ∧ t.guard.depth = s.guard.depth := by
  cases h.ends with
  | ok a s₁ run =>
    rw [run] at hr
    cases hr
  | own e₁ s₁ _ _ none => exact absurd hpasses (none n t)
  | handed e₁ s₁ n₁ t₁ run stems onward passes =>
    obtain ⟨rfl, rfl⟩ := hpasses.unique passes
    rw [run] at hr
    cases hr
    exact ⟨stems, (h.onward.trans onward).depth⟩

/-- An error tells of the calls under which it has come up, by induction on the visits and calls that
it has left. -/
theorem Raised.tells (hhost : sb.host.Fresh) (hplain : ∀ n, I.allows n → ¬ n.IsBareRaise) {α : Type}
    {c : Visit → Eval α} {calls : List TraceFrame} {o : RunState} (h : Raised sb c s calls o)
    (htraceable : ∃ u, Traceable I c s u) {e : Error} {s' : RunState}
    (hr : c (Eval.visit sb) s = .error e s') : e.Tells sb s calls o := by
  -- on the way down to where the error came up: the state there, a visit, a call
  induction h generalizing e s' with
  | here _ none =>
    obtain ⟨u, htraceable⟩ := htraceable
    cases htraceable.ends with
    | ok a s₁ run =>
      rw [run] at hr
      cases hr
    | own e₁ s₁ run among _ =>
      rw [run] at hr
      cases hr
      exact ⟨by rw [Error.trace, among.passed]; rfl, rfl, id, among.refused⟩
    | handed e₁ s₁ n t run _ _ passes => exact absurd passes (none n t)
  | visit hpasses hcall _ ih =>
    obtain ⟨u, htraceable⟩ := htraceable
    obtain ⟨ht, hn⟩ := htraceable.inside _ _ hpasses
    obtain ⟨⟨e₀, t₀, hnode, hkind, hpassed⟩, hdepth⟩ := htraceable.stems hpasses hr
    have hnext : ((Eval.visit sb).next sb).node _ _ = .error e₀ t₀ := (visit_next sb).symm ▸ hnode
    exact (ih ⟨_, traceable_node hhost ht hn (hplain _ hn) hcall⟩ hnext).pass hdepth hkind hpassed
  | call hpasses hcall _ ih =>
    obtain ⟨u, htraceable⟩ := htraceable
    obtain ⟨ht, hn⟩ := htraceable.inside _ _ hpasses
    obtain ⟨⟨e₀, t₀, hnode, hkind, hpassed⟩, hdepth⟩ := htraceable.stems hpasses hr
    obtain ⟨e₁, s₁, hcode⟩ := hcall.code_error ⟨e₀, t₀, hnode⟩
    have hnext := hcall.node_error (.refl _) hcode
    rw [visit_next, hnode] at hnext
    cases hnext
    exact ((ih ⟨_, traceable_code ht hn hcall⟩ hcode).leave hcall).pass hdepth hkind hpassed

end Following

/-- If the run of a script without bare `raise` fails, its error has come up somewhere, and wherever
that was, the trace lists the calls that were active there, innermost first, with their functions'
names and the places of their call expressions: as many as the depth of calls was, and so within the
quota. If the error says that a call was refused, the calls use up the quota. -/
theorem trace_faithful (sb : Sandbox) (hhost : sb.host.Fresh)
    (hlends : (Profile.withoutBareRaise sb).norm.Lends sb.host) {m : Module}
    (hm : ∀ st ∈ m.body, (Node.stmt st).All fun n => ¬ n.IsBareRaise) {store : Store}
    (hstore : (Profile.withoutBareRaise sb).norm.Kept store) {e : Error}
    (he : (run sb m store).1 = .error e) :
    (∃ calls o, m.RaisedUnder sb store calls o) ∧
    (∀ calls o, m.RaisedUnder sb store calls o → e.trace = calls ∧ o.guard.depth = calls.length) ∧
    e.trace.length ≤ sb.limits.maxCallDepth ∧
    (∀ max, e.kind = .limitExceeded .callDepth max → e.trace.length = sb.limits.maxCallDepth) := by
  obtain ⟨s', hr⟩ : ∃ s', moduleFrom sb (visit sb) .null m.body (.start store) = .error e s' := by
    unfold run module at he
    cases hr : moduleFrom sb (visit sb) .null m.body (.start store) with
    | ok v s' =>
      simp only [hr] at he
      cases he
    | error e' s' =>
      simp only [hr] at he
      cases he
      exact ⟨s', rfl⟩
  let I := (Profile.withoutBareRaise sb).invariant hlends
  have hstart : I.running.holds (.start store) :=
    Invariant.running_holds.2 ⟨Profile.holds hlends (Norm.keptRun_start hstore), Nat.zero_le _⟩
  have hplain : ∀ n, I.allows n → ¬ n.IsBareRaise := fun n hn => Node.All.self hn
  have traceable : Traceable I (fun v => moduleFrom sb v .null m.body) (.start store) (.start store) :=
    traceable_module hstart fun st hst => ⟨hm st hst, fun _ => True.intro⟩
  have tells : ∀ calls o, m.RaisedUnder sb store calls o → e.Tells sb (.start store) calls o :=
    fun calls o h => Raised.tells hhost hplain h ⟨_, traceable⟩ hr
  -- a place for the error, on the way down from the module to the visits that failed last
  obtain ⟨calls, o, hraised⟩ := traceable.exists_raised ⟨e, s', hr⟩ fun n t _ hpasses => by
    obtain ⟨ht, hn⟩ := traceable.inside n t hpasses
    exact exists_raised_of_passesOn hhost hplain hpasses ht hn
  have depth : ∀ calls o, m.RaisedUnder sb store calls o → o.guard.depth = calls.length :=
    fun calls o h => (tells calls o h).depth.trans (Nat.zero_add _)
  have within := (tells calls o hraised).within (Nat.zero_le _)
  have length : e.trace.length = o.guard.depth := by
    rw [(tells calls o hraised).trace, depth calls o hraised]
  refine ⟨⟨calls, o, hraised⟩, fun calls o h => ⟨(tells calls o h).trace, depth calls o h⟩,
    length ▸ within, fun max hkind => ?_⟩
  have hle := (tells calls o hraised).refused (by rw [hkind]; rfl)
  omega

/-! ### A function that fails -/

/-- The place of the call below. -/
def callPlace : Span := ⟨3, 1⟩

/-- A function `f` that reads an unknown name, and a call of it. -/
def failingCall : Module where
  body := [Syntax.Build.define "f" [] [Syntax.Build.exprStmt (Syntax.Build.name "x")],
    Syntax.Build.exprStmt ⟨.call (Syntax.Build.name "f") [] [], callPlace⟩]

theorem bare_fresh : Host.bare.Fresh where
  callFunction _ _ _ := .throw ⟨rfl, rfl⟩
  readAttribute _ _ := .pure none
  item _ _ := .throw ⟨rfl, rfl⟩
  callObject _ _ _ := .throw ⟨rfl, rfl⟩

theorem failingCall_plain : ∀ st ∈ failingCall.body, (Node.stmt st).All fun n => ¬ n.IsBareRaise := by
  have name (id : String) : (Node.expr (Syntax.Build.name id)).All fun n => ¬ n.IsBareRaise :=
    Node.all_of_leaf (fun ⟨_, h⟩ => by cases h) rfl
  have statement (e : Expr) (he : (Node.expr e).All fun n => ¬ n.IsBareRaise) :
      (Node.stmt (Syntax.Build.exprStmt e)).All fun n => ¬ n.IsBareRaise :=
    Node.all_of_children (fun ⟨_, h⟩ => by cases h) fun m hm => List.mem_singleton.1 hm ▸ he
  intro st hst
  obtain rfl | rfl : st = _ ∨ st = _ := by simpa [failingCall] using hst
  · refine Node.all_of_children (fun ⟨_, h⟩ => by cases h) fun m hm => ?_
    obtain rfl : m = _ := List.mem_singleton.1 hm
    exact statement _ (name "x")
  · refine statement _ (Node.all_of_children (fun ⟨_, h⟩ => by cases h) fun m hm => ?_)
    obtain rfl : m = _ := List.mem_singleton.1 hm
    exact name "f"

/-- The error comes up while the call is active, and its trace has the frame of the call. -/
theorem failingCall_traced : ∃ e o, (run unaided failingCall .empty).1 = .error e ∧
    e.trace = [⟨"f", callPlace⟩] ∧ failingCall.RaisedUnder unaided .empty [⟨"f", callPlace⟩] o ∧
    o.guard.depth = 1 := by
  have he : (run unaided failingCall .empty).1 =
      .error ⟨.nameNotFound "x", some callPlace, [⟨"f", callPlace⟩]⟩ := by
    with_unfolding_all rfl
  have htrace : (⟨.nameNotFound "x", some callPlace, [⟨"f", callPlace⟩]⟩ : Error).trace =
      [⟨"f", callPlace⟩] := rfl
  obtain ⟨⟨calls, o, hraised⟩, unique, -⟩ := trace_faithful unaided bare_fresh Norm.lends_bare
    failingCall_plain (Norm.kept_empty _) he
  obtain ⟨rfl, hdepth⟩ := unique calls o hraised
  rw [htrace] at hraised hdepth
  exact ⟨_, o, he, htrace, hraised, hdepth⟩

end ScriptSandbox

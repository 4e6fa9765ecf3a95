import ScriptSandbox.Eval.Statement
import ScriptSandbox.Proofs.Origin.Catching
import ScriptSandbox.Proofs.Origin.Target

/-!
# Where errors come from: statements

A `try` statement hands on the error of the last visit that fails, be it in its body, in a handler, or
in its `else` or `finally` block; an error that no handler takes is the body's. A bare `raise` is left
out: its error comes from a statement that has ended before.
-/

namespace ScriptSandbox

open Eval

/-- A `raise` without a value. -/
def Node.IsBareRaise (n : Node) : Prop := ∃ span, n = .stmt ⟨.raise none, span⟩

/-- An error that ends the run, and that no call has been refused with. -/
structure Error.Halting (e : Error) : Prop extends e.Fresh where
  fatal : e.isCatchable = false

namespace Eval

variable (v : Visit)

/-- A `try` statement behind its body. -/
def behindBody (hs : List ExceptHandler) (orelse : List Stmt) :
    Except Error Flow → Eval (Except Error Flow)
  | .ok .normal => attempt (block v orelse)
  | .ok flow => pure (.ok flow)
  | .error e => if e.isCatchable then attempt (handlers v e hs) else pure (.error e)

/-- A `try` statement at its `finally` block. -/
def finish (finalbody : List Stmt) (outcome : Except Error Flow) : Eval Flow := do
  if isFatal outcome || finalbody.isEmpty then ofExcept outcome
  else
    match ← block v finalbody with
    | .normal => ofExcept outcome
    | flow => pure flow

theorem tryStmt_steps (body : List Stmt) (hs : List ExceptHandler) (orelse finalbody : List Stmt) :
    tryStmt v body hs orelse finalbody =
      attempt (block v body) >>= fun r => behindBody v hs orelse r >>= finish v finalbody := by
  have outcome : tryOutcome v body hs orelse =
      attempt (block v body) >>= fun r => behindBody v hs orelse r := by
    unfold tryOutcome
    refine bind_congr fun r => ?_
    unfold behindBody
    rfl
  rw [← bind_assoc, ← outcome]
  rfl

end Eval

variable {sb : Sandbox}

namespace Conveys

/-! ## Loops -/

theorem forLoop (target iter : Expr) (body orelse : List Stmt) :
    Conveys sb Error.Fresh fun v => Eval.forLoop sb v target iter body orelse := by
  refine (expr iter).bind fun source => ((iterate source).located _).bind fun items => ?_
  refine (walkFrom (fun item => ?_) _ _).bind fun ended => ?_
  · exact tickLoop.bind fun _ => (assign target item).bind fun _ => (block body).map
  · split
    · exact pure _
    · exact block orelse

theorem whileRounds (test : Expr) (body orelse : List Stmt) : ∀ rounds : Nat,
    Conveys sb Error.Fresh fun v => Eval.whileRounds sb v test body orelse rounds
  | 0 => throw ⟨rfl, rfl⟩
  | rounds + 1 => by
    refine (expr test).bind fun value => (isTruthy value).bind fun holds => ?_
    cases holds with
    | false => exact block orelse
    | true =>
      refine tickLoop.bind fun _ => (block body).bind fun flow => ?_
      split
      · exact pure _
      · exact whileRounds test body orelse rounds

/-! ## Handlers -/

mutual

theorem covers (exception : String) : ∀ (types : Value) (e : Error),
    Eval.covers exception types = .error e → e.Halting
  | .str _, _, h => by
    rw [Eval.covers] at h
    cases h
  | .tuple _ ⟨names⟩, e, h => by
    rw [Eval.covers] at h
    exact anyCovers exception names e h
  | .null, _, h | .bool _, _, h | .int _, _, h | .float _, _, h | .list _, _, h | .dict _, _, h
  | .set _, _, h | .range _, _, h | .function _, _, h | .native _, _, h | .method .., _, h
  | .object _, _, h => by
    simp only [Eval.covers] at h
    cases h
    exact ⟨⟨rfl, rfl⟩, rfl⟩

theorem anyCovers (exception : String) : ∀ (names : List Value) (e : Error),
    Eval.anyCovers exception names = .error e → e.Halting
  | [], _, h => by
    rw [Eval.anyCovers] at h
    cases h
  | name :: rest, e, h => by
    rw [Eval.anyCovers] at h
    cases hname : Eval.covers exception name with
    | error e' =>
      rw [hname] at h
      cases h
      exact covers exception name _ hname
    | ok found =>
      rw [hname] at h
      cases found with
      | true => cases h
      | false => exact anyCovers exception rest e h

end

theorem halting_located {e : Error} (h : e.Halting) (span : Span) : (e.located span).Halting :=
  ⟨⟨(Passage.located_passed e span).trans h.passed, by rw [Passage.located_kind, h.kind]⟩, by
    rw [Error.isCatchable, Passage.located_kind, ← Error.isCatchable, h.fatal]⟩

theorem takes (e : Error) (types : Option Expr) (span : Span) :
    Conveys sb Error.Halting fun v => Eval.takes v e types span := by
  cases types with
  | none => exact pure true
  | some types =>
    refine (expr types).bind fun value s => ?_
    refine ConveysAt.located span (fun _ he => halting_located he span) ?_
    cases h : Eval.covers (e.exceptionName?.getD "") value with
    | ok found => exact pure found s
    | error e' => exact throw (covers _ value e' h) s

/-- A handler's own errors are fatal, and an error that no handler takes goes on as it is. -/
theorem handlers (e : Error) : ∀ hs : List ExceptHandler,
    Conveys sb (fun x => x = e ∨ x.Halting) fun v => Eval.handlers v e hs
  | [] => throw (.inl rfl)
  | ⟨types, name, body, span⟩ :: rest => by
    have behind : Conveys sb (fun x => x = e ∨ x.Halting) fun v => (do
        if ← Eval.takes v e types span then handle v e body else Eval.handlers v e rest) := by
      refine ((takes e types span).mono fun _ => .inr).bind fun found => ?_
      cases found with
      | true => exact (block body).whileHandling e
      | false => exact handlers e rest
    simp only [Eval.handlers]
    split
    · refine bind (mono (O := Error.Halting) (fun _ => .inr) fun s => ?_) fun _ => behind
      exact ConveysAt.located span (fun _ he => halting_located he span) (throw ⟨⟨rfl, rfl⟩, rfl⟩ s)
    · exact behind

theorem finish (finalbody : List Stmt) (outcome : Except Error Flow) :
    Conveys sb (fun e => outcome = .error e) fun v => Eval.finish v finalbody outcome := by
  have again : Conveys sb (fun e => outcome = .error e) fun _ => Eval.ofExcept outcome := by
    cases outcome with
    | ok flow => exact pure flow
    | error e => exact throw rfl
  unfold Eval.finish
  split
  · exact again
  · refine (block finalbody).bind fun flow => ?_
    split
    · exact again
    · exact pure _

/-! ## All statements -/

theorem raise (value : Expr) : Conveys sb Error.Fresh fun v => Eval.raise v (some value) :=
  (expr value).bind fun _ => throw ⟨rfl, rfl⟩

/-- Every statement but a `try` and a bare `raise` hands on the errors of the visits inside. -/
theorem stmtKind (hhost : sb.host.Fresh) {kind : StmtKind} (hraise : kind ≠ .raise none)
    (htry : ∀ body hs orelse finalbody, kind ≠ .try body hs orelse finalbody) :
    Conveys sb Error.Fresh fun v => Eval.stmtKind sb v kind := by
  cases kind with
  | expr value => exact (expr value).bind fun _ => pure _
  | assign targets value =>
    exact (expr value).bind fun value => (assignAll value targets).bind fun _ => pure _
  | augAssign target op value => exact (augment hhost target op value).bind fun _ => pure _
  | functionDef d => exact (newFunction _ _ _).bind fun f => (define _ f).bind fun _ => pure _
  | «return» value =>
    cases value with
    | none => exact pure _
    | some value => exact (expr value).bind fun _ => pure _
  | «if» test body orelse =>
    refine (expr test).bind fun value => (isTruthy value).bind fun truth => ?_
    cases truth with
    | true => exact block body
    | false => exact block orelse
  | «for» target iter body orelse => exact forLoop target iter body orelse
  | «while» test body orelse => exact whileRounds test body orelse _
  | «break» | «continue» | pass => exact pure _
  | «try» body hs orelse finalbody => exact absurd rfl (htry body hs orelse finalbody)
  | raise value =>
    cases value with
    | none => exact absurd rfl hraise
    | some value => exact raise value
  | «match» subject cases => exact (expr subject).bind fun value => firstCase value cases

end Conveys

/-! ## `try` statements -/

namespace Catches

variable {O : Error → Prop} {c : Visit → Eval Flow} {s s' u : RunState} {p : Passage}
  {caught : List (Node × RunState)}

theorem finish_fatal (v : Visit) (finalbody : List Stmt) {e : Error} (h : e.isCatchable = false)
    (r : RunState) : finish v finalbody (.error e) r = .error e r := by
  simp only [finish, isFatal, h]
  rfl

/-- Where an error that reaches the `finally` block comes from. -/
def Explained (sb : Sandbox) (caught : List (Node × RunState)) (e : Error) : Prop :=
  e.Halting ∨ ∃ q earlier, caught = q :: earlier ∧ e.StemsFrom sb q.1 q.2

theorem finish {finalbody : List Stmt} {outcome : Except Error Flow}
    (h : Catches sb c s u p caught (fun v => finish v finalbody outcome) s')
    (houtcome : ∀ e, outcome = .error e → Explained sb caught e)
    (hO : ∀ e, e.Halting → O (p.error e)) : EndsAt sb O c s u := by
  refine h.ends (Conveys.finish finalbody outcome s') fun e he => ?_
  rcases houtcome e he with hhalt | hstems
  · exact .inl ⟨hO e hhalt, .inr hhalt.fatal⟩
  · exact .inr hstems

/-- An evaluation before the `finally` block whose own errors are explained. -/
theorem beforeFinish {O' : Error → Prop} {m : Visit → Eval Flow} {finalbody : List Stmt}
    (h : Catches sb c s u p caught (fun v => attempt (m v) >>= Eval.finish v finalbody) s')
    (hm : Conveys sb O' m) (hown : ∀ e, O' e → Explained sb caught e)
    (hO : ∀ e, e.Halting → O (p.error e)) : EndsAt sb O c s u := by
  refine h.seize (hm s') (fun v e r he => finish_fatal v finalbody he r) (fun flow s'' h' => ?_)
    (fun e s'' he h' => ?_) fun q e s'' hstems _ h' => ?_
  · exact h'.finish (fun _ he => by cases he) hO
  · refine h'.finish (fun x hx => ?_) hO
    cases hx
    exact hown e he
  · refine h'.finish (fun x hx => ?_) hO
    cases hx
    exact .inr ⟨q, caught, rfl, hstems⟩

theorem tryStmt {body : List Stmt} {hs : List ExceptHandler} {orelse finalbody : List Stmt}
    (h : Catches sb c s u p [] (fun v => tryStmt v body hs orelse finalbody) s')
    (hO : ∀ e, e.Halting → O (p.error e)) : EndsAt sb O c s u := by
  simp only [tryStmt_steps] at h
  refine h.seize (Conveys.block (O := fun _ => False) body s') (fun v e r he => ?_)
    (fun flow s'' h' => ?_) (fun e s'' he => he.elim) fun q e s'' hstems hcatch h' => ?_
  · simp only [behindBody, he, Bool.false_eq_true, if_false, pure_bind]
    exact finish_fatal v finalbody he r
  · cases flow with
    | normal =>
      exact h'.beforeFinish (Conveys.block (O := fun _ => False) orelse) (fun _ => False.elim) hO
    | returning _ | breaking | continuing =>
      simp only [behindBody, pure_bind] at h'
      exact h'.finish (fun _ he => by cases he) hO
  · simp only [behindBody, hcatch, if_true] at h'
    refine h'.beforeFinish (.handlers e hs) (fun x hx => ?_) hO
    rcases hx with rfl | hx
    · exact .inr ⟨q, [], rfl, hstems⟩
    · exact .inl hx

end Catches

end ScriptSandbox

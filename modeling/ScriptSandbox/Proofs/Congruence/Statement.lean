import ScriptSandbox.Eval.Statement
import ScriptSandbox.Proofs.Congruence.Pattern
import ScriptSandbox.Proofs.Congruence.Target

/-!
# Congruences: statements

A `try` statement is first put in the form in which only errors that a script may catch become
results (`tryStmt_eq`), so that a congruence need not speak of fatal errors that were seized. The
rounds of a `while` loop are bounded by a number of their own; a congruence says apart that it keeps
these loops (`Congruence.KeepsLoops`), which follows at once where the bounds agree.
-/

namespace ScriptSandbox

open Eval

namespace Eval

/-- A `try` statement without its `finally` block. -/
def guarded (v : Visit) (body : List Stmt) (hs : List ExceptHandler) (orelse : List Stmt) :
    Eval Flow := do
  match ← attemptCatchable (block v body) with
  | .ok .normal => block v orelse
  | .ok flow => pure flow
  | .error e => handlers v e hs

/-- Fatal errors pass a `try` statement at every place where it seizes errors. -/
theorem tryStmt_eq (v : Visit) (body : List Stmt) (hs : List ExceptHandler)
    (orelse finalbody : List Stmt) :
    tryStmt v body hs orelse finalbody = (do
      let outcome ← attemptCatchable (guarded v body hs orelse)
      if finalbody.isEmpty then Eval.ofExcept outcome
      else
        match ← block v finalbody with
        | .normal => Eval.ofExcept outcome
        | flow => pure flow) := by
  have outcome : ∀ s, tryOutcome v body hs orelse s = attempt (guarded v body hs orelse) s := by
    intro s
    simp only [tryOutcome, guarded, bind_apply, attempt, attemptCatchable]
    cases block v body s with
    | ok flow s' => cases flow <;> rfl
    | error e s' =>
      dsimp only
      cases e.isCatchable <;> rfl
  funext s
  simp only [tryStmt, bind_apply, outcome, attempt, attemptCatchable]
  cases guarded v body hs orelse s with
  | ok flow s' => rfl
  | error e s' => cases he : e.isCatchable <;> (simp only [isFatal, he]; rfl)

end Eval

namespace Congruence

variable {sb sb' : Sandbox} {C : Congruence sb sb'} {v v' : Visit}

/-! ## Loops -/

theorem afterRound {flow : Flow} (h : C.GoodFlow flow) : ∀ ended ∈ afterRound flow, C.GoodFlow ended := by
  intro ended hended
  cases flow with
  | normal | continuing => cases hended
  | breaking =>
    obtain rfl := Option.some.inj hended
    exact True.intro
  | returning value =>
    obtain rfl := Option.some.inj hended
    exact h

theorem walkFrom {α : Type} {P : α → Prop} {items : Items} {step step' : Value → Eval (Option α)}
    (hitems : C.toNorm.GoodItems items)
    (h : ∀ x, C.good x → C.rel (fun r => ∀ a ∈ r, P a) (step x) (step' x)) :
    ∀ left position, C.rel (fun r => ∀ a ∈ r, P a) (walkFrom items step position left)
      (walkFrom items step' position left)
  | 0, _ => C.pure fun _ ha => by cases ha
  | left + 1, position => by
    refine C.bind (h _ (hitems.item position)) fun ended hended => ?_
    split
    · exact C.pure hended
    · exact walkFrom hitems h left (position + 1)

theorem forLoop (hv : C.Visits v v') {target iter : Expr} {body orelse : List Stmt}
    (htarget : C.Target target) (hiter : C.allows (.expr iter)) (hbody : C.AllowsBlock body)
    (horelse : C.AllowsBlock orelse) :
    C.rel C.GoodFlow (forLoop sb v target iter body orelse)
      (forLoop sb' v' target iter body orelse) := by
  refine C.bind (hv.expr iter hiter) fun source hsource => ?_
  refine C.bind (C.located _ (C.iterate hsource)) fun items hitems => ?_
  refine C.bind (walkFrom (P := C.GoodFlow) hitems (fun item hitem => ?_) _ _) fun ended hended => ?_
  · refine C.bind C.tickLoop fun _ _ => ?_
    refine C.bind (assign hv target htarget hitem) fun _ _ => ?_
    exact C.map (C.block hv hbody) fun flow => afterRound
  · split
    · exact C.pure (hended _ rfl)
    · exact C.block hv horelse

/-- Loops are kept whose test, body and `else` block are. -/
def KeepsLoops (C : Congruence sb sb') : Prop :=
  ∀ {v v' : Visit} {test : Expr} {body orelse : List Stmt},
    C.rel C.good (v.expr test) (v'.expr test) →
    C.rel C.GoodFlow (Eval.block v body) (Eval.block v' body) →
    C.rel C.GoodFlow (Eval.block v orelse) (Eval.block v' orelse) →
    C.rel C.GoodFlow (whileLoop sb v test body orelse) (whileLoop sb' v' test body orelse)

/-- Loops with the same bound are kept round by round. -/
theorem keepsLoops (hbound : sb'.limits.maxLoopIterations = sb.limits.maxLoopIterations)
    (herr : C.errs (.limitExceeded .loopIterations sb.limits.maxLoopIterations)) :
    C.KeepsLoops := by
  intro v v' test body orelse htest hbody horelse
  have rounds : ∀ n, C.rel C.GoodFlow (whileRounds sb v test body orelse n)
      (whileRounds sb' v' test body orelse n) := by
    intro n
    induction n with
    | zero =>
      rw [whileRounds, whileRounds, hbound]
      exact C.throw herr
    | succ n ih =>
      refine C.bind htest fun value _ => ?_
      refine C.bind (C.isTruthy value) fun holds _ => ?_
      cases holds with
      | false => exact horelse
      | true =>
        refine C.bind C.tickLoop fun _ _ => C.bind hbody fun flow hflow => ?_
        have := afterRound hflow
        split
        · rename_i ended hended
          exact C.pure (this ended hended)
        · exact ih
  unfold whileLoop
  rw [hbound]
  exact rounds _

/-! ## Errors -/

mutual

theorem covers (exception : String) : ∀ types : Value,
    C.toNorm.Holds (fun _ => True) (covers exception types)
  | .str _ => by
    rw [Eval.covers]
    exact True.intro
  | .tuple _ ⟨names⟩ => by
    rw [Eval.covers]
    exact anyCovers exception names
  | .null | .bool _ | .int _ | .float _ | .list _ | .dict _ | .set _ | .range _ | .function _
  | .native _ | .method .. | .object _ => by
    simp only [Eval.covers]
    exact Norm.Holds.plain rfl

theorem anyCovers (exception : String) : ∀ names : List Value,
    C.toNorm.Holds (fun _ => True) (anyCovers exception names)
  | [] => by
    rw [Eval.anyCovers]
    exact True.intro
  | name :: rest => by
    rw [Eval.anyCovers]
    refine (covers exception name).bind fun found _ => ?_
    split
    · exact True.intro
    · exact anyCovers exception rest

end

theorem takes (hv : C.Visits v v') (e : Error) {types : Option Expr} (span : Span)
    (h : ∀ t ∈ types, C.allows (.expr t)) :
    C.rel (fun _ => True) (takes v e types span) (takes v' e types span) := by
  cases types with
  | none => exact C.pure True.intro
  | some types =>
    refine C.bind (hv.expr types (h types rfl)) fun value _ => ?_
    exact C.located span (C.ofExcept (covers _ value))

theorem handlers (hv : C.Visits v v') {e : Error} (he : C.errs e.kind) :
    ∀ {hs : List ExceptHandler}, (∀ n ∈ hs.flatMap ExceptHandler.children, C.allows n) →
    C.rel C.GoodFlow (handlers v e hs) (handlers v' e hs)
  | [], _ => C.throw he
  | ⟨types, name, body, span⟩ :: rest, h => by
    have hrest : ∀ n ∈ rest.flatMap ExceptHandler.children, C.allows n := fun n hn =>
      h n (List.mem_append_right _ hn)
    have here : ∀ n ∈ ExceptHandler.children ⟨types, name, body, span⟩, C.allows n := fun n hn =>
      h n (List.mem_append_left _ hn)
    have hbody : C.AllowsBlock body := fun s hs => here _ (by simp [ExceptHandler.children, hs])
    rw [Eval.handlers, Eval.handlers]
    split
    · exact C.bind (P := fun _ => False) (C.located span (C.plain rfl)) fun _ => False.elim
    refine C.bind (takes hv e span fun t ht => here _ ?_) fun found _ => ?_
    · simp [ExceptHandler.children, Option.mem_def.1 ht]
    split
    · exact C.handling he (C.block hv hbody)
    · exact handlers hv he hrest

theorem tryStmt (hv : C.Visits v v') {body : List Stmt} {hs : List ExceptHandler}
    {orelse finalbody : List Stmt}
    (h : ∀ n ∈ (StmtKind.try body hs orelse finalbody).children, C.allows n) :
    C.rel C.GoodFlow (tryStmt v body hs orelse finalbody) (tryStmt v' body hs orelse finalbody) := by
  have hbody : C.AllowsBlock body := fun s hs => h _ (by simp [StmtKind.children, hs])
  have horelse : C.AllowsBlock orelse := fun s hs => h _ (by simp [StmtKind.children, hs])
  have hfinal : C.AllowsBlock finalbody := fun s hs => h _ (by simp [StmtKind.children, hs])
  have hhandlers : ∀ n ∈ hs.flatMap ExceptHandler.children, C.allows n := fun n hn => by
    refine h n ?_
    simp only [StmtKind.children, List.mem_append]
    exact .inl (.inl (.inr hn))
  -- all that comes before the last block, which is run whatever this ends in
  have ended : C.rel C.GoodFlow (guarded v body hs orelse) (guarded v' body hs orelse) := by
    refine C.bind (C.attempt (C.block hv hbody)) fun outcome houtcome => ?_
    split
    · exact C.block hv horelse
    · exact C.pure houtcome
    · exact handlers hv houtcome hhandlers
  rw [tryStmt_eq, tryStmt_eq]
  refine C.bind (C.attempt ended) fun outcome houtcome => ?_
  have last : C.rel C.GoodFlow (Eval.ofExcept outcome) (Eval.ofExcept outcome) := by
    cases outcome with
    | ok flow => exact C.pure houtcome
    | error e => exact C.throw houtcome
  split
  · exact last
  · refine C.bind (C.block hv hfinal) fun flow hflow => ?_
    split
    · exact last
    · exact C.pure hflow

theorem raise (hv : C.Visits v v') {value : Option Expr} (h : ∀ e ∈ value, C.allows (.expr e)) :
    C.rel C.GoodFlow (raise v value) (raise v' value) := by
  cases value with
  | some e =>
    exact C.bind (hv.expr e (h e rfl)) fun value hvalue => C.throw (C.errs_raised hvalue)
  | none =>
    refine C.bind C.get fun s hs => ?_
    split
    · rename_i e rest he
      exact C.throw (C.inv_handling hs (by simp [he]))
    · exact C.plain rfl

/-! ## All statements -/

/-- What is known of how a node ends, from what is known of the nodes inside it. -/
theorem stmtKind (hloops : C.KeepsLoops) (hv : C.Visits v v') {s : Stmt} (h : C.allows (.stmt s))
    (hplace : (Node.stmt s).TakesScope → C.KeepsPlace) :
    C.rel C.GoodFlow (stmtKind sb v s.kind) (stmtKind sb' v' s.kind) := by
  have inside := C.allows_children h
  obtain ⟨kind, span⟩ := s
  simp only [Node.children] at inside
  cases kind with
  | expr value =>
    exact C.bind (hv.expr value (inside _ (by simp [StmtKind.children]))) fun _ _ => C.pure True.intro
  | assign targets value =>
    refine C.bind (hv.expr value (inside _ (by simp [StmtKind.children]))) fun x hx => ?_
    exact C.bind (assignAll hv hx fun e he => C.target_of h he) fun _ _ => C.pure True.intro
  | augAssign target op value =>
    have htarget := inside (.expr target) (by simp [StmtKind.children])
    have hvalue := inside (.expr value) (by simp [StmtKind.children])
    exact C.bind (augment hv op htarget hvalue) fun _ _ => C.pure True.intro
  | functionDef d =>
    refine C.bind (C.newFunction (hplace True.intro) (C.code_of h rfl)) fun f hf => ?_
    exact C.bind (C.define hf) fun _ _ => C.pure True.intro
  | «return» value =>
    cases value with
    | none => exact C.pure Norm.good_null
    | some value =>
      exact C.bind (hv.expr value (inside _ (by simp [StmtKind.children]))) fun x hx => C.pure hx
  | «if» test body orelse =>
    refine C.bind (hv.expr test (inside _ (by simp [StmtKind.children]))) fun value _ => ?_
    refine C.bind (C.isTruthy value) fun truth _ => ?_
    cases truth with
    | true => exact C.block hv fun s hs => inside _ (by simp [StmtKind.children, hs])
    | false => exact C.block hv fun s hs => inside _ (by simp [StmtKind.children, hs])
  | «for» target iter body orelse =>
    exact forLoop hv (C.target_of h (List.mem_singleton.2 rfl))
      (inside _ (by simp [StmtKind.children]))
      (fun s hs => inside _ (by simp [StmtKind.children, hs]))
      fun s hs => inside _ (by simp [StmtKind.children, hs])
  | «while» test body orelse =>
    exact hloops (hv.expr test (inside _ (by simp [StmtKind.children])))
      (C.block hv fun s (hs : s ∈ body) => inside _ (by simp [StmtKind.children, hs]))
      (C.block hv fun s (hs : s ∈ orelse) => inside _ (by simp [StmtKind.children, hs]))
  | «break» | «continue» | pass => exact C.pure True.intro
  | «try» body hs orelse finalbody => exact tryStmt hv inside
  | raise value =>
    exact raise hv fun e he => inside _ (by simp [StmtKind.children, Option.mem_def.1 he])
  | «match» subject cases =>
    refine C.bind (hv.expr subject (inside _ (by simp [StmtKind.children]))) fun value hvalue => ?_
    refine firstCase hv hvalue fun n hn => inside n ?_
    exact List.mem_cons_of_mem _ hn

end Congruence

end ScriptSandbox

import ScriptSandbox.Proofs.Signal
import ScriptSandbox.Proofs.Visit

/-!
# The top level of a script

A module executes its statements by rules of its own, since it keeps the value of the last expression.
Still it ends as its body does where that is executed as a block: in the same state, and with the same
error if the body fails; if the body ends early, the module fails for the signal at the statement that
gave it; and otherwise its value is that of the last statement that is an expression
(`module_ends_as_block`).
-/

namespace ScriptSandbox

open Eval

/-- The expression of a statement that is one. -/
def Stmt.expr? (st : Stmt) : Option Expr :=
  match st.kind with
  | .expr e => some e
  | _ => none

/-- The value that a block leaves behind when it is executed from one state to another, after the
value `last`: that of its last statement that is an expression, in the state where it is executed. -/
inductive Leaves (sb : Sandbox) (last : Value) (s s' : RunState) : List Stmt → Value → Prop where
  | unchanged {body : List Stmt} : (∀ st ∈ body, st.expr? = none) → Leaves sb last s s' body last
  | expression {before after : List Stmt} {st : Stmt} {e : Expr} {value : Value} {s₁ s₂ : RunState} :
    block (visit sb) before s = .ok .normal s₁ → st.expr? = some e →
    expr sb e s₁.stepped = .ok value s₂ → (∀ st ∈ after, st.expr? = none) →
    block (visit sb) after s₂ = .ok .normal s' → Leaves sb last s s' (before ++ st :: after) value

/-- A block executed from one state to another gives a signal at one of its statements. -/
def GivesAt (sb : Sandbox) (s s' : RunState) (flow : Flow) (body : List Stmt) (st : Stmt) : Prop :=
  ∃ before after s₁, body = before ++ st :: after ∧ block (visit sb) before s = .ok .normal s₁ ∧
    stmt sb st s₁ = .ok flow s'

namespace Eval

/-! ## Blocks -/

section Blocks

variable {sb : Sandbox} {st : Stmt} {rest : List Stmt} {s s₁ s' : RunState}

theorem block_cons_error {e : Error} (h : stmt sb st s = .error e s') :
    block (visit sb) (st :: rest) s = .error e s' := by
  rw [block, bind_apply]
  rw [stmt] at h
  rw [h]

theorem block_cons_normal (h : stmt sb st s = .ok .normal s₁) :
    block (visit sb) (st :: rest) s = block (visit sb) rest s₁ := by
  rw [block, bind_apply]
  rw [stmt] at h
  rw [h]

theorem block_cons_signal {flow : Flow} {g : Signal} (h : stmt sb st s = .ok flow s')
    (hg : flow.signal? = some g) : block (visit sb) (st :: rest) s = .ok flow s' := by
  rw [block, bind_apply]
  rw [stmt] at h
  rw [h]
  cases flow with
  | normal => cases hg
  | returning value | breaking | continuing => rfl

/-- Behind a statement that leaves a value, a block leaves that value or its own. -/
theorem leaves_cons {last value value' : Value} (h : stmt sb st s = .ok .normal s₁)
    (hst : (st.expr? = none ∧ value = last) ∨ ∃ e, st.expr? = some e ∧ expr sb e s.stepped = .ok value s₁)
    (hrest : block (visit sb) rest s₁ = .ok .normal s') (hleaves : Leaves sb value s₁ s' rest value') :
    Leaves sb last s s' (st :: rest) value' := by
  cases hleaves with
  | unchanged hnone =>
    rcases hst with ⟨hst, rfl⟩ | ⟨e, hst, he⟩
    · exact .unchanged (List.forall_mem_cons.2 ⟨hst, hnone⟩)
    · show Leaves sb last s s' ([] ++ st :: rest) _
      exact .expression rfl hst he hnone hrest
  | @expression before after _ e _ t t' hbefore he hvalue hnone hafter =>
    show Leaves sb last s s' ((st :: before) ++ _ :: after) _
    exact .expression ((block_cons_normal h).trans hbefore) he hvalue hnone hafter

theorem givesAt_cons {flow : Flow} {st' : Stmt} (h : stmt sb st s = .ok .normal s₁)
    (hrest : GivesAt sb s₁ s' flow rest st') : GivesAt sb s s' flow (st :: rest) st' := by
  obtain ⟨before, after, s₂, rfl, hbefore, hgives⟩ := hrest
  exact ⟨st :: before, after, s₂, rfl, (block_cons_normal h).trans hbefore, hgives⟩

end Blocks

/-! ## One statement -/

section Statement

variable {sb : Sandbox} {st : Stmt} {s s' : RunState}

/-- A statement that is not an expression is executed as in a block. -/
theorem topLevel_of_expr?_none (h : st.expr? = none) (last : Value) :
    topLevel sb (visit sb) last st = stmt sb st >>= valueBehind st.span last := by
  unfold topLevel
  split
  · rename_i e hkind
    rw [Stmt.expr?, hkind] at h
    cases h
  · rfl

/-- A statement that is an expression takes the step of a statement and gives the value. -/
theorem topLevel_of_expr? {e : Expr} (h : st.expr? = some e) (last : Value) :
    topLevel sb (visit sb) last st =
      located st.span (onGuard (Guard.tick sb.limits sb.clock) >>= fun _ => expr sb e) := by
  obtain ⟨kind, span⟩ := st
  cases kind <;> cases h
  rfl

theorem located_bind_pure {α β : Type} (span : Span) (m : Eval α) (b : β) :
    located span (m >>= fun _ => pure b) = located span m >>= fun _ => pure b := by
  funext s
  simp only [located, bind_apply]
  cases m s <;> rfl

/-- In a block it is executed in the same way, and the value is dropped. -/
theorem stmt_of_expr? {e : Expr} (h : st.expr? = some e) (last : Value) :
    stmt sb st = topLevel sb (visit sb) last st >>= fun _ => pure .normal := by
  rw [topLevel_of_expr? h, ← located_bind_pure, bind_assoc, stmt_eq]
  obtain ⟨kind, span⟩ := st
  cases kind <;> cases h
  rfl

/-- The value is the expression's in the state behind the step of the statement. -/
theorem expr_of_topLevel {e : Expr} (h : st.expr? = some e) {last value : Value}
    (hv : topLevel sb (visit sb) last st s = .ok value s') : expr sb e s.stepped = .ok value s' := by
  rw [topLevel_of_expr? h, located_ok, bind_apply] at hv
  rcases tick_stepped sb s with ⟨e', ht, -⟩ | ht
  · rw [ht] at hv
    cases hv
  · rw [ht] at hv
    exact hv

/-- A statement fails at the top level as it does in a block. -/
theorem topLevel_error {e : Error} (h : stmt sb st s = .error e s') (last : Value) :
    topLevel sb (visit sb) last st s = .error e s' := by
  cases hst : st.expr? with
  | none => rw [topLevel_of_expr?_none hst, bind_apply, h]
  | some _ =>
    rw [stmt_of_expr? hst last, bind_apply] at h
    cases ht : topLevel sb (visit sb) last st s with
    | error e₁ s₁ =>
      rw [ht] at h
      cases h
      rfl
    | ok value s₁ =>
      rw [ht] at h
      cases h

/-- A statement that ends normally does so at the top level, too, and gives its value there if it is an
expression. -/
theorem topLevel_normal (h : stmt sb st s = .ok .normal s') (last : Value) :
    ∃ value, topLevel sb (visit sb) last st s = .ok value s' ∧
      ((st.expr? = none ∧ value = last) ∨ ∃ e, st.expr? = some e ∧ expr sb e s.stepped = .ok value s') := by
  cases hst : st.expr? with
  | none => exact ⟨last, by rw [topLevel_of_expr?_none hst, bind_apply, h]; rfl, .inl ⟨rfl, rfl⟩⟩
  | some e =>
    rw [stmt_of_expr? hst last, bind_apply] at h
    cases ht : topLevel sb (visit sb) last st s with
    | error e₁ s₁ =>
      rw [ht] at h
      cases h
    | ok value s₁ =>
      rw [ht] at h
      cases h
      exact ⟨value, rfl, .inr ⟨e, rfl, expr_of_topLevel hst ht⟩⟩

/-- A statement that gives a signal is no expression and fails at the top level for the signal. -/
theorem topLevel_signal {flow : Flow} {g : Signal} (h : stmt sb st s = .ok flow s')
    (hg : flow.signal? = some g) (last : Value) :
    topLevel sb (visit sb) last st s = .error (g.stray.located st.span) s' := by
  cases hst : st.expr? with
  | none =>
    rw [topLevel_of_expr?_none hst, bind_apply, h]
    cases flow <;> cases hg <;> rfl
  | some e =>
    rw [stmt_of_expr? hst last, bind_apply] at h
    cases ht : topLevel sb (visit sb) last st s <;> rw [ht] at h <;> cases h
    cases hg

end Statement

/-! ## All statements -/

section Module

variable {sb : Sandbox} {s s' : RunState}

theorem moduleFrom_cons_ok {st : Stmt} {last value : Value} {s₁ : RunState}
    (h : topLevel sb (visit sb) last st s = .ok value s₁) (rest : List Stmt) :
    moduleFrom sb (visit sb) last (st :: rest) s = moduleFrom sb (visit sb) value rest s₁ := by
  rw [moduleFrom, bind_apply, h]

theorem moduleFrom_cons_error {st : Stmt} {last : Value} {e : Error}
    (h : topLevel sb (visit sb) last st s = .error e s') (rest : List Stmt) :
    moduleFrom sb (visit sb) last (st :: rest) s = .error e s' := by
  rw [moduleFrom, bind_apply, h]

/-- The statements of a module behind those that left a value end as they do in a block. -/
theorem moduleFrom_ends (sb : Sandbox) (body : List Stmt) (s : RunState) (last : Value) :
    match block (visit sb) body s with
    | .error e s' => moduleFrom sb (visit sb) last body s = .error e s'
    | .ok .normal s' =>
      ∃ value, moduleFrom sb (visit sb) last body s = .ok value s' ∧ Leaves sb last s s' body value
    | .ok flow s' => ∃ st g, GivesAt sb s s' flow body st ∧ flow.signal? = some g ∧
      moduleFrom sb (visit sb) last body s = .error (g.stray.located st.span) s' := by
  induction body generalizing last s with
  | nil => exact ⟨last, rfl, .unchanged fun _ h => by cases h⟩
  | cons st rest ih =>
    cases hst : stmt sb st s with
    | error e s₁ =>
      rw [block_cons_error hst]
      exact moduleFrom_cons_error (topLevel_error hst last) rest
    | ok flow s₁ =>
      -- a signal ends a block, and a module with an error
      cases hg : flow.signal? with
      | some g =>
        have hfails := moduleFrom_cons_error (topLevel_signal hst hg last) rest
        have hgives : GivesAt sb s s₁ flow (st :: rest) st := ⟨[], rest, s, rfl, rfl, hst⟩
        rw [block_cons_signal hst hg]
        cases flow with
        | normal => cases hg
        | returning _ | breaking | continuing => exact ⟨st, g, hgives, hg, hfails⟩
      | none =>
        obtain rfl : flow = .normal := by cases flow <;> first | rfl | cases hg
        obtain ⟨value, hvalue, hleft⟩ := topLevel_normal hst last
        have hends := ih s₁ value
        rw [block_cons_normal hst, moduleFrom_cons_ok hvalue]
        cases hrest : block (visit sb) rest s₁ with
        | error e s' => rwa [hrest] at hends
        | ok flow s' =>
          rw [hrest] at hends
          cases flow with
          | normal =>
            obtain ⟨value', hmodule, hleaves⟩ := hends
            exact ⟨value', hmodule, leaves_cons hst hleft hrest hleaves⟩
          | returning _ | breaking | continuing =>
            obtain ⟨st', g, hgives, hsignal, hfails⟩ := hends
            exact ⟨st', g, givesAt_cons hst hgives, hsignal, hfails⟩

end Module

end Eval

/-- The error of a signal says that the script is malformed, and where. -/
theorem Signal.stray_located (g : Signal) (span : Span) :
    (∃ message, (g.stray.located span).kind = .structural message) ∧
      (span.isDummy = false → (g.stray.located span).span = some span) := by
  cases g <;> cases h : span.isDummy <;>
    simp [Signal.stray, Error.returnOutsideFunction, Error.loopControlOutsideLoop, Error.structural,
      Error.ofKind, Error.located, h]

/-- A module ends in the state in which its body ends as a block, from every state. If the body fails,
the module fails with the whole error, its place and its trace included. If the body ends normally, the
module has the value of its last statement that is an expression, and `.null` without one.
If the body ends by a signal, the module fails as malformed at the statement that gave the signal. -/
theorem module_ends_as_block (sb : Sandbox) (m : Module) (s : RunState) :
    match block (visit sb) m.body s with
    | .error e s' => module sb m s = .error e s'
    | .ok .normal s' => ∃ value, module sb m s = .ok value s' ∧ Leaves sb .null s s' m.body value
    | .ok flow s' => ∃ st e message, GivesAt sb s s' flow m.body st ∧ module sb m s = .error e s' ∧
      e.kind = .structural message ∧ (st.span.isDummy = false → e.span = some st.span) := by
  have hends := moduleFrom_ends sb m.body s .null
  cases h : block (visit sb) m.body s with
  | error e s' => rwa [h] at hends
  | ok flow s' =>
    rw [h] at hends
    cases flow with
    | normal => exact hends
    | returning _ | breaking | continuing =>
      obtain ⟨st, g, hgives, -, hfails⟩ := hends
      obtain ⟨⟨message, hkind⟩, hspan⟩ := g.stray_located st.span
      exact ⟨st, _, message, hgives, hfails, hkind, hspan⟩

end ScriptSandbox

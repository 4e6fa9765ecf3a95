import ScriptSandbox.Eval
import ScriptSandbox.Proofs.Congruence.Expression
import ScriptSandbox.Proofs.Congruence.Statement

/-!
# Congruences: visits and scripts

A visit counts a step and then evaluates the node, so a congruence that keeps the counting of steps
relates the visits of all nodes that it allows, by induction on how deep they nest
(`Congruence.visits`), and with them whole scripts (`Congruence.module`).
-/

namespace ScriptSandbox

open Eval

/-- Visits of nodes whose parts are visited in a given way. -/
def Visit.next (sb : Sandbox) (v : Visit) : Visit where
  expr e := located e.span do
    Guard.tick sb.limits sb.clock
    exprKind sb v e.span e.kind
  stmt s := located s.span do
    Guard.tick sb.limits sb.clock
    stmtKind sb v s.kind

theorem Eval.visitWithin_succ (sb : Sandbox) (depth : Nat) :
    visitWithin sb (depth + 1) = (visitWithin sb depth).next sb := rfl

theorem Visit.Lawful.next {v : Visit} (hv : v.Lawful) (sb : Sandbox) : (v.next sb).Lawful where
  stmt s := .located s.span (.behind fun _ => stmtKind_gives hv s)
  text e he := .located e.span (.behind fun _ => exprKind_gives sb v he e.span)

theorem Eval.visitWithin_lawful (sb : Sandbox) : ∀ depth, (visitWithin sb depth).Lawful
  | 0 => ⟨fun _ => .throw _, fun _ _ => .throw _⟩
  | depth + 1 => (visitWithin_lawful sb depth).next sb

theorem Eval.visit_lawful (sb : Sandbox) : (visit sb).Lawful := visitWithin_lawful sb _

namespace Congruence

variable {sb sb' : Sandbox} {C : Congruence sb sb'} {v v' : Visit}

/-- The counting of a step is kept. -/
def KeepsSteps (C : Congruence sb sb') : Prop :=
  C.rel (fun _ => True) (onGuard (Guard.tick sb.limits sb.clock))
    (onGuard (Guard.tick sb'.limits sb'.clock))

theorem visits_next (hloops : C.KeepsLoops) (hsteps : C.KeepsSteps) (hv : C.Visits v v')
    (hheld : ∀ r, C.held r := by exact fun _ => True.intro) : C.Visits (v.next sb) (v'.next sb') where
  lawful := hv.lawful.next sb
  expr e h := C.located e.span (C.bind hsteps fun _ _ => exprKind hv h fun _ => C.keepsPlace hheld)
  stmt s h := C.located s.span (C.bind hsteps fun _ _ => stmtKind hloops hv h fun _ =>
    C.keepsPlace hheld)

theorem visits (hloops : C.KeepsLoops) (hsteps : C.KeepsSteps)
    (hmax : sb'.limits.maxSteps = sb.limits.maxSteps)
    (herr : C.errs (.limitExceeded .steps sb.limits.maxSteps)) (depth : Nat)
    (hheld : ∀ r, C.held r := by exact fun _ => True.intro) :
    C.Visits (visitWithin sb depth) (visitWithin sb' depth) := by
  induction depth with
  | zero =>
    have fails : ∀ {α : Type} {P : α → Prop},
        C.rel P (MonadExcept.throw (.limitExceeded .steps sb.limits.maxSteps))
          (MonadExcept.throw (.limitExceeded .steps sb'.limits.maxSteps)) := by
      intro α P
      rw [hmax]
      exact C.throw herr
    exact ⟨visitWithin_lawful sb 0, fun _ _ => fails, fun _ _ => fails⟩
  | succ depth ih => exact visits_next hloops hsteps ih hheld

/-- The errors of the signals that leave a statement of a module may come up. -/
def StrayErrs (C : Congruence sb sb') (s : Stmt) : Prop := ∀ g, s.Signals g → C.errs g.stray.kind

theorem valueBehind (span : Span) {last : Value} (hlast : C.good last) {flow : Flow}
    (h : ∀ g, flow.signal? = some g → C.errs g.stray.kind) :
    C.rel C.good (valueBehind span last flow) (valueBehind span last flow) := by
  cases flow with
  | normal => exact C.pure hlast
  | returning value => exact C.located span (C.throw (h .return rfl))
  | breaking => exact C.located span (C.throw (h .break rfl))
  | continuing => exact C.located span (C.throw (h .continue rfl))

theorem topLevel (hsteps : C.KeepsSteps) (hv : C.Visits v v') {last : Value} (hlast : C.good last)
    {s : Stmt} (h : C.allows (.stmt s)) (hstray : C.StrayErrs s) :
    C.rel C.good (topLevel sb v last s) (topLevel sb' v' last s) := by
  obtain ⟨kind, span⟩ := s
  cases kind with
  | expr e =>
    have he : C.allows (.expr e) := C.allows_child h (by simp [Node.children, StmtKind.children])
    exact C.located span (C.bind hsteps fun _ _ => hv.expr e he)
  | _ =>
    refine C.bind (C.sure (hv.lawful.stmt _) (hv.stmt _ h)) ?_
    rintro flow ⟨-, hwithin⟩
    exact valueBehind span hlast fun g hg => hstray g (hwithin g hg)

theorem moduleFrom (hsteps : C.KeepsSteps) (hv : C.Visits v v') :
    ∀ {body : List Stmt} {last : Value}, C.good last → C.AllowsBlock body →
    (hstray : ∀ s ∈ body, C.StrayErrs s := by exact fun _ _ _ _ => True.intro) →
    C.rel C.good (moduleFrom sb v last body) (moduleFrom sb' v' last body)
  | [], _, hlast, _, _ => C.pure hlast
  | s :: _, _, hlast, h, hstray =>
    C.bind (topLevel hsteps hv hlast (h s List.mem_cons_self) (hstray s List.mem_cons_self))
      fun _ hlast => moduleFrom hsteps hv hlast (fun s hs => h s (List.mem_cons_of_mem _ hs))
        fun s hs => hstray s (List.mem_cons_of_mem _ hs)

end Congruence

end ScriptSandbox

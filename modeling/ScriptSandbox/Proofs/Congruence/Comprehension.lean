import ScriptSandbox.Eval.Comprehension
import ScriptSandbox.Proofs.Congruence.Target
import ScriptSandbox.Proofs.Norm.Container

/-!
# Congruences: comprehensions

What is collected stays good and, checked each time it grows, within the quota. The clauses are gone
through by structure, the items of a clause by their number.
-/

namespace ScriptSandbox

open Eval

namespace Congruence

variable {sb sb' : Sandbox} {C : Congruence sb sb'} {v v' : Visit}

/-! ## Collections -/

variable (C) in
/-- All values that were collected are good. -/
def GoodContents : Collection → Prop
  | .list items => ∀ x ∈ items, C.good x
  | .set items => C.toNorm.GoodSet items
  | .dict entries => C.toNorm.GoodDict entries

variable (C) in
/-- A collection of good values that fits. -/
structure GoodCollection (out : Collection) : Prop where
  contents : C.GoodContents out
  fits : C.fits out.size

theorem toValue {out : Collection} (h : C.GoodCollection out) :
    C.rel C.good (onStore out.toValue) (onStore out.toValue) := by
  cases out with
  | list items => exact C.newList h.fits h.contents
  | set items => exact C.newSet h.fits h.contents
  | dict entries => exact C.newDict h.fits h.contents

theorem goodCollection_list : C.GoodCollection (.list #[]) :=
  ⟨fun _ hx => absurd hx (Array.not_mem_empty _), C.fits_zero⟩

theorem goodCollection_set : C.GoodCollection (.set .empty) := ⟨Norm.goodSet_empty, C.fits_zero⟩

theorem goodCollection_dict : C.GoodCollection (.dict .empty) := ⟨Norm.goodDict_empty, C.fits_zero⟩

theorem collectElement (hv : C.Visits v v') {element : Expr} (h : C.allows (.expr element))
    {out : Collection} (hout : C.GoodContents out) :
    C.rel C.GoodContents (collectElement v element out) (collectElement v' element out) := by
  refine C.bind (hv.expr element h) fun value hvalue => ?_
  cases out with
  | list items =>
    refine C.pure fun x hx => ?_
    rcases Array.mem_push.1 hx with hx | rfl
    · exact hout x hx
    · exact hvalue
  | set items => exact C.map (C.ofExcept (Norm.GoodSet.insert hout hvalue)) fun _ h => h.1
  | dict entries => exact C.pure hout

theorem collectEntry (hv : C.Visits v v') {key value : Expr} (h : C.AllowsExprs [key, value])
    {out : Collection} (hout : C.GoodContents out) :
    C.rel C.GoodContents (collectEntry v key value out) (collectEntry v' key value out) := by
  refine C.bind (hv.expr key (h _ (by simp))) fun k hk => ?_
  refine C.bind (hv.expr value (h _ (by simp))) fun x hx => ?_
  cases out with
  | dict entries => exact C.map (C.ofExcept (Norm.GoodDict.insert hout hk hx)) fun _ h => h.1
  | _ => exact C.pure hout

/-! ## Loops over items -/

theorem foldFrom {α : Type} {P : α → Prop} {items : Items} {step step' : α → Value → Eval α}
    (hitems : C.toNorm.GoodItems items)
    (h : ∀ acc x, P acc → C.good x → C.rel P (step acc x) (step' acc x)) :
    ∀ (left : Nat) {acc : α} (position : Nat), P acc →
      C.rel P (foldFrom items step acc position left) (foldFrom items step' acc position left)
  | 0, _, _, hacc => C.pure hacc
  | left + 1, _, position, hacc =>
    C.bind (h _ _ hacc (hitems.item position)) fun _ hacc => foldFrom hitems h left (position + 1) hacc

theorem fold {α : Type} {P : α → Prop} {items : Items} {step step' : α → Value → Eval α} {acc : α}
    (hitems : C.toNorm.GoodItems items)
    (h : ∀ acc x, P acc → C.good x → C.rel P (step acc x) (step' acc x)) (hacc : P acc) :
    C.rel P (fold items step acc) (fold items step' acc) := foldFrom hitems h items.size 0 hacc

/-! ## Clauses -/

theorem allHold (hv : C.Visits v v') : ∀ {conditions : List Expr}, C.AllowsExprs conditions →
    C.rel (fun _ => True) (allHold v conditions) (allHold v' conditions)
  | [], _ => C.pure True.intro
  | condition :: rest, h => by
    refine C.bind (hv.expr condition (h _ List.mem_cons_self)) fun value _ => ?_
    refine C.bind (C.isTruthy value) fun holds _ => ?_
    cases holds with
    | true => exact allHold hv fun e he => h e (List.mem_cons_of_mem _ he)
    | false => exact C.pure True.intro

/-- One round of a clause: the item is assigned, and if all conditions hold, the rest is done. -/
theorem round (hv : C.Visits v v') {clause : Comprehension} (h : C.AllowsExprs clause.parts)
    (htarget : C.Target clause.target) {item : Value} (hitem : C.good item) {out : Collection}
    (hout : C.GoodCollection out) {m m' : Eval Collection} (hm : C.rel C.GoodCollection m m') :
    C.rel C.GoodCollection
      (do
        Guard.tickLoop sb.limits sb.clock
        Eval.assign sb v clause.target item
        if ← Eval.allHold v clause.ifs then m else Pure.pure out)
      (do
        Guard.tickLoop sb'.limits sb'.clock
        Eval.assign sb' v' clause.target item
        if ← Eval.allHold v' clause.ifs then m' else Pure.pure out) := by
  refine C.bind C.tickLoop fun _ _ => ?_
  refine C.bind (assign hv _ htarget hitem) fun _ _ => ?_
  refine C.bind (allHold hv fun e he => h e (by simp [Comprehension.parts, he])) fun holds _ => ?_
  cases holds with
  | true => exact hm
  | false => exact C.pure hout

theorem runClause (hv : C.Visits v v') {collect collect' : Collection → Eval Collection}
    (hcollect : ∀ out, C.GoodContents out → C.rel C.GoodContents (collect out) (collect' out)) :
    ∀ {clause : Comprehension} {rest : List Comprehension} {source : Value} {out : Collection},
      C.AllowsExprs ((clause :: rest).flatMap Comprehension.parts) →
      (∀ c ∈ clause :: rest, C.Target c.target) → C.good source → C.GoodCollection out →
      C.rel C.GoodCollection (runClause sb v collect clause source out rest)
        (runClause sb' v' collect' clause source out rest)
  | clause, [], source, out, h, htargets, hsource, hout => by
    refine C.bind (C.located _ (C.iterate hsource)) fun items hitems => ?_
    refine fold hitems (fun out item hout hitem => ?_) hout
    have hclause : C.AllowsExprs clause.parts := fun e he => h e (by simpa using he)
    refine round hv hclause (htargets _ List.mem_cons_self) hitem hout ?_
    refine C.bind (hcollect out hout.contents) fun out hcontents => ?_
    exact C.bind (C.checkContainer out.size) fun _ hfits => C.pure ⟨hcontents, hfits⟩
  | clause, next :: rest, source, out, h, htargets, hsource, hout => by
    refine C.bind (C.located _ (C.iterate hsource)) fun items hitems => ?_
    refine fold hitems (fun out item hout hitem => ?_) hout
    have hclause : C.AllowsExprs clause.parts := fun e he => h e (by simp [he])
    have hnext : C.AllowsExprs ((next :: rest).flatMap Comprehension.parts) := fun e he =>
      h e (List.mem_append_right _ he)
    refine round hv hclause (htargets _ List.mem_cons_self) hitem hout ?_
    refine C.bind (hv.expr next.iter (hnext _ (by simp [Comprehension.parts]))) fun source hsource => ?_
    exact runClause hv hcollect hnext (fun c hc => htargets c (List.mem_cons_of_mem _ hc)) hsource
      hout

/-- What follows the first iterable of a comprehension, in a scope inside a given one. -/
theorem collected (hv : C.Visits v v') {collect collect' : Collection → Eval Collection}
    (hcollect : ∀ out, C.GoodContents out → C.rel C.GoodContents (collect out) (collect' out))
    {nothing : Collection} (hnothing : C.GoodCollection nothing) {first : Comprehension}
    {rest : List Comprehension} (h : C.AllowsExprs ((first :: rest).flatMap Comprehension.parts))
    (htargets : ∀ c ∈ first :: rest, C.Target c.target) {source : Value} (hsource : C.good source)
    {parent : ScopeRef} (hparent : C.held parent) :
    C.rel C.good
      (do
        let out ← Eval.inScope .comprehension parent
          (Eval.runClause sb v collect first source nothing rest)
        out.toValue)
      (do
        let out ← Eval.inScope .comprehension parent
          (Eval.runClause sb' v' collect' first source nothing rest)
        out.toValue) :=
  C.bind (C.inScope _ hparent (runClause hv hcollect h htargets hsource hnothing)) fun _ hout =>
    toValue hout

theorem comprehend (hplace : C.KeepsPlace) (hv : C.Visits v v')
    {collect collect' : Collection → Eval Collection}
    (hcollect : ∀ out, C.GoodContents out → C.rel C.GoodContents (collect out) (collect' out))
    {nothing : Collection} (hnothing : C.GoodCollection nothing) {clauses : List Comprehension}
    (h : C.AllowsExprs (clauses.flatMap Comprehension.parts))
    (htargets : ∀ c ∈ clauses, C.Target c.target) :
    C.rel C.good (comprehend sb v collect nothing clauses)
      (comprehend sb' v' collect' nothing clauses) := by
  cases clauses with
  | nil => exact C.plain rfl
  | cons first rest =>
    refine C.bind (hv.expr first.iter (h _ (by simp [Comprehension.parts]))) fun source hsource => ?_
    exact C.bind hplace fun parent hparent => collected hv hcollect hnothing h htargets hsource hparent

end Congruence

end ScriptSandbox

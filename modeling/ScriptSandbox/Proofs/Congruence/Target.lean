import ScriptSandbox.Eval.Target
import ScriptSandbox.Proofs.Congruence

/-!
# Congruences: assignment

Targets are walked by their structure, so what is allowed of a target is what is allowed of the
expressions in it. The list that a starred element gets holds no more items than were counted as
rounds of a loop.
-/

namespace ScriptSandbox

open Eval

namespace Congruence

variable {sb sb' : Sandbox} {C : Congruence sb sb'} {v v' : Visit}

/-! ## Slices -/

theorem sliceBound (hv : C.Visits v v') {bound : Option Expr}
    (h : ∀ e ∈ bound, C.allows (.expr e)) :
    C.rel (fun _ => True) (sliceBound v bound) (sliceBound v' bound) := by
  cases bound with
  | none => exact C.pure True.intro
  | some e =>
    refine C.bind (hv.expr e (h e rfl)) fun value _ => ?_
    split
    · exact C.pure True.intro
    · split
      · exact C.pure True.intro
      · exact C.located _ (C.plain rfl)

theorem sliceBounds (hv : C.Visits v v') {lower upper step : Option Expr}
    (h : C.AllowsExprs (ExprKind.slice lower upper step).parts) :
    C.rel (fun _ => True) (sliceBounds v lower upper step) (sliceBounds v' lower upper step) := by
  refine C.bind (sliceBound hv fun e he => h e ?_) fun _ _ => ?_
  · simp [ExprKind.parts, Option.mem_def.1 he]
  refine C.bind (sliceBound hv fun e he => h e ?_) fun _ _ => ?_
  · simp [ExprKind.parts, Option.mem_def.1 he]
  refine C.bind (sliceBound hv fun e he => h e ?_) fun _ _ => C.pure True.intro
  simp [ExprKind.parts, Option.mem_def.1 he]

/-! ## Unpacking -/

theorem hasStar_of_isStarred {target e : Expr} (he : e ∈ target.targetParts)
    (h : isStarred e = true) : target.HasStar := by
  obtain ⟨kind, span⟩ := e
  cases kind with
  | starred element => exact .here he
  | _ => cases h

theorem unpack {target : Expr} {targets : List Expr} (htarget : C.Target target)
    (hparts : target.targetParts = targets) {value : Value} (h : C.good value) :
    C.rel (fun values => ∀ x ∈ values, C.good x) (unpack sb targets value)
      (unpack sb' targets value) := by
  unfold Eval.unpack
  simp only
  split
  · exact C.plain rfl
  refine C.bind (C.iterate h) fun items hitems => ?_
  refine C.bind (C.countRounds items.size) fun _ hrounds => ?_
  have good : ∀ x ∈ items.toList, C.good x := fun x hx => hitems x (by simpa [Items.toList] using hx)
  split
  · split
    · exact C.plain rfl
    · split
      · exact C.plain rfl
      · exact C.pure good
  · split
    · exact C.plain rfl
    · rename_i star hstar _
      have starred : target.HasStar := by
        obtain ⟨hlt, hkind, -⟩ := List.findIdx?_eq_some_iff_getElem.1 hstar
        exact hasStar_of_isStarred (hparts ▸ List.getElem_mem hlt) hkind
      -- the list for a starred target is not measured, so it is known by its rounds
      refine C.bind (C.newList ?_ ?_) fun starred hstarred => C.pure ?_
      · refine C.fits_mono ?_ (htarget.fits starred items.size hrounds)
        have : items.toList.length = items.size := items.size_toArray
        simp only [List.size_toArray, List.length_take, List.length_drop]
        omega
      · intro x hx
        exact good x (List.mem_of_mem_drop (List.mem_of_mem_take (List.mem_toArray.1 hx)))
      · intro x hx
        rcases List.mem_append.1 hx with hx | hx
        · exact good x (List.mem_of_mem_take hx)
        · rcases List.mem_cons.1 hx with rfl | hx
          · exact hstarred
          · exact good x (List.mem_of_mem_drop (List.mem_of_mem_drop hx))

/-! ## Targets -/

theorem assignSubscript (hv : C.Visits v v') {container slice : Expr} {value : Value}
    (h : C.AllowsExprs [container, slice]) (hvalue : C.good value) :
    C.rel (fun _ => True) (assignSubscript sb v container slice value)
      (assignSubscript sb' v' container slice value) := by
  refine C.bind (hv.expr container (h _ (by simp))) fun target htarget => ?_
  have hslice := h slice (by simp)
  obtain ⟨kind, span⟩ := slice
  dsimp only
  split
  · exact C.bind (sliceBounds hv (C.allows_parts hslice)) fun bounds _ =>
      C.setSlice bounds htarget hvalue
  · exact C.bind (hv.expr _ hslice) fun index hindex => C.setItem htarget hindex hvalue

mutual

theorem assign (hv : C.Visits v v') (target : Expr) {value : Value} (h : C.Target target)
    (hvalue : C.good value) :
    C.rel (fun _ => True) (assign sb v target value) (assign sb' v' target value) := by
  obtain ⟨kind, span⟩ := target
  rw [Eval.assign, Eval.assign]
  exact C.located span (assignKind hv kind h hvalue)

theorem assignKind (hv : C.Visits v v') (kind : ExprKind) {span : Span} {value : Value}
    (h : C.Target ⟨kind, span⟩) (hvalue : C.good value) :
    C.rel (fun _ => True) (assignKind sb v kind value) (assignKind sb' v' kind value) := by
  cases kind with
  | name name =>
    rw [Eval.assignKind, Eval.assignKind]
    exact C.define hvalue
  | tuple targets =>
    rw [Eval.assignKind, Eval.assignKind]
    exact C.bind (unpack h rfl hvalue) fun values hvalues =>
      assignEach hv targets (fun e he => h.part he) hvalues
  | list targets =>
    rw [Eval.assignKind, Eval.assignKind]
    exact C.bind (unpack h rfl hvalue) fun values hvalues =>
      assignEach hv targets (fun e he => h.part he) hvalues
  | subscript container slice =>
    rw [Eval.assignKind, Eval.assignKind]
    exact assignSubscript hv (C.allows_parts h.allows) hvalue
  | _ =>
    simp only [Eval.assignKind]
    exact C.plain rfl

theorem assignEach (hv : C.Visits v v') : ∀ (targets : List Expr) {values : List Value},
    (∀ e ∈ targets, C.Target e) → (∀ x ∈ values, C.good x) →
    C.rel (fun _ => True) (assignEach sb v targets values) (assignEach sb' v' targets values)
  | [], _, _, _ => by
    simp only [Eval.assignEach]
    exact C.pure True.intro
  | target :: targets, [], _, _ => by
    simp only [Eval.assignEach]
    exact C.pure True.intro
  | target :: targets, value :: values, h, hvalues => by
    have hrest := assignEach hv targets (fun e he => h e (List.mem_cons_of_mem _ he))
      fun x hx => hvalues x (List.mem_cons_of_mem _ hx)
    have htarget := h target List.mem_cons_self
    have hvalue := hvalues value List.mem_cons_self
    rcases target with ⟨kind, span⟩
    cases kind with
    | starred inner =>
      rw [Eval.assignEach, Eval.assignEach]
      have hinner : C.Target inner := htarget.part (List.mem_singleton.2 rfl)
      exact C.bind (assign hv inner hinner hvalue) fun _ _ => hrest
    | _ =>
      simp only [Eval.assignEach]
      exact C.bind (assign hv _ htarget hvalue) fun _ _ => hrest

end

theorem assignAll (hv : C.Visits v v') {value : Value} (hvalue : C.good value) :
    ∀ {targets : List Expr}, (∀ e ∈ targets, C.Target e) →
    C.rel (fun _ => True) (assignAll sb v value targets) (assignAll sb' v' value targets)
  | [], _ => C.pure True.intro
  | target :: rest, h => by
    refine C.bind (assign hv target (h _ List.mem_cons_self) hvalue) fun _ _ => ?_
    exact assignAll hv hvalue fun e he => h e (List.mem_cons_of_mem _ he)

/-! ## Augmented assignment -/

theorem ownedValue (span : Span) {s : RunState} (hs : C.inv s) (owner : Option ScopeRef)
    {name : String} (hname : C.reads name) :
    C.rel C.good (ownedValue sb span s.scopes owner name)
      (ownedValue sb' span s.scopes owner name) := by
  unfold Eval.ownedValue
  split
  · rename_i current hcurrent
    obtain ⟨r, -, hr⟩ := Option.bind_eq_some_iff.1 hcurrent
    exact C.pure (C.inv_binding hs hr)
  · exact C.located span (C.lookup hname)

theorem augmentName (hv : C.Visits v v') (span : Span) {name : String} (hname : C.reads name)
    (op : BinaryOp) {value : Expr} (h : C.allows (.expr value)) :
    C.rel (fun _ => True) (augmentName sb v span name op value)
      (augmentName sb' v' span name op value) := by
  refine C.bind C.get fun s hs => ?_
  refine C.bind (ownedValue span hs _ hname) fun current hcurrent => ?_
  refine C.bind (hv.expr value h) fun operand hoperand => ?_
  refine C.bind (C.binary op hcurrent hoperand) fun result hresult => ?_
  split
  · exact C.defineIn hresult
  · exact C.define hresult

theorem augmentSubscript (hv : C.Visits v v') (span : Span) {container slice : Expr} (op : BinaryOp)
    {value : Expr} (h : C.AllowsExprs [container, slice]) (hvalue : C.allows (.expr value)) :
    C.rel (fun _ => True) (augmentSubscript sb v span container slice op value)
      (augmentSubscript sb' v' span container slice op value) := by
  refine C.bind (hv.expr container (h _ (by simp))) fun target htarget => ?_
  have hslice := h slice (by simp)
  obtain ⟨kind, place⟩ := slice
  dsimp only
  split
  · refine C.bind (sliceBounds hv (C.allows_parts hslice)) fun bounds _ => ?_
    refine C.bind (C.getSlice bounds htarget) fun current hcurrent => ?_
    refine C.bind (hv.expr value hvalue) fun operand hoperand => ?_
    refine C.bind (C.binary op hcurrent hoperand) fun result hresult => ?_
    exact C.located span (C.setSlice bounds htarget hresult)
  · refine C.bind (hv.expr _ hslice) fun index hindex => ?_
    refine C.bind (C.getItem htarget hindex) fun current hcurrent => ?_
    refine C.bind (hv.expr value hvalue) fun operand hoperand => ?_
    refine C.bind (C.binary op hcurrent hoperand) fun result hresult => ?_
    exact C.located span (C.setItem htarget hindex hresult)

theorem augment (hv : C.Visits v v') {target : Expr} (op : BinaryOp) {value : Expr}
    (h : C.allows (.expr target)) (hvalue : C.allows (.expr value)) :
    C.rel (fun _ => True) (augment sb v target op value) (augment sb' v' target op value) := by
  obtain ⟨kind, span⟩ := target
  cases kind with
  | name name => exact augmentName hv span (C.reads_name h) op hvalue
  | subscript container slice => exact augmentSubscript hv span op (C.allows_parts h) hvalue
  | _ => exact C.located span (C.plain rfl)

end Congruence

end ScriptSandbox

import ScriptSandbox.Proofs.Fatal
import ScriptSandbox.Proofs.Visit

/-!
# Attributes as targets

An attribute cannot be assigned to. Wherever an evaluation comes to one as a target, in a list of
targets or deep inside one, in a round of a loop or of a clause of a comprehension, it ends there with
the refusal of the attribute: nothing is evaluated any more, the receiver least of all
(`Node.Aims.refused`).
-/

namespace ScriptSandbox

open Eval

/-! ## Errors on their way out -/

/-- From the state `s`, an evaluation ends in an error of a kind at the state `s'`. -/
def Eval.FailsAs {α : Type} (k : ErrorKind) (m : Eval α) (s s' : RunState) : Prop :=
  ∃ e, m s = .error e s' ∧ e.kind = k

namespace Eval.FailsAs

variable {α β : Type} {k : ErrorKind} {m : Eval α} {f : α → Eval β} {s s₁ s' : RunState}

theorem bind (h : FailsAs k m s s') : FailsAs k (m >>= f) s s' := by
  obtain ⟨e, he, hk⟩ := h
  exact ⟨e, by rw [bind_apply, he], hk⟩

theorem behind {a : α} (hm : m s = .ok a s₁) (h : FailsAs k (f a) s₁ s') :
    FailsAs k (m >>= f) s s' := by
  obtain ⟨e, he, hk⟩ := h
  exact ⟨e, by rw [bind_apply, hm]; exact he, hk⟩

theorem located (span : Span) (h : FailsAs k m s s') : FailsAs k (Eval.located span m) s s' := by
  obtain ⟨e, he, hk⟩ := h
  obtain ⟨e', he', hk'⟩ := located_error span he
  exact ⟨e', he', hk'.trans hk⟩

end Eval.FailsAs

/-! ## Targets inside targets -/

/-- What an element of a target list assigns to: what is starred, or the element itself. -/
def Expr.unstarred (e : Expr) : Expr :=
  match e.kind with
  | .starred target => target
  | _ => e

/-- `Assigns sb v target value s t s'`: assigning `value` to `target` from the state `s` comes to
assigning to the target `t` in the state `s'`. -/
inductive Assigns (sb : Sandbox) (v : Visit) : Expr → Value → RunState → Expr → RunState → Prop
  | here {target : Expr} {value : Value} {s : RunState} : Assigns sb v target value s target s
  | element {kind : ExprKind} {span : Span} {before behind : List Expr} {e t : Expr}
    {value x : Value} {firsts rest : List Value} {s s₁ s₂ s' : RunState} :
    kind = .tuple (before ++ e :: behind) ∨ kind = .list (before ++ e :: behind) →
    unpack sb (before ++ e :: behind) value s = .ok (firsts ++ x :: rest) s₁ →
    before.length = firsts.length → assignEach sb v before firsts s₁ = .ok () s₂ →
    Assigns sb v e.unstarred x s₂ t s' → Assigns sb v ⟨kind, span⟩ value s t s'

namespace Eval

variable {sb : Sandbox} {v : Visit}

theorem assignEach_cons (e : Expr) (behind : List Expr) (x : Value) (rest : List Value) :
    assignEach sb v (e :: behind) (x :: rest) = (do
      assign sb v e.unstarred x
      assignEach sb v behind rest) := by
  obtain ⟨kind, span⟩ := e
  cases kind with
  | starred target => rw [assignEach]; rfl
  | _ => simp only [assignEach]; rfl

theorem assignEach_append : ∀ (before behind : List Expr) (firsts rest : List Value),
    before.length = firsts.length →
    assignEach sb v (before ++ behind) (firsts ++ rest) = (do
      assignEach sb v before firsts
      assignEach sb v behind rest)
  | [], behind, [], rest, _ => by
    have hnil : assignEach sb v [] [] = pure () := by simp only [assignEach]
    rw [List.nil_append, List.nil_append, hnil, pure_bind]
  | e :: before, behind, x :: firsts, rest, h => by
    rw [List.cons_append, List.cons_append, assignEach_cons, assignEach_cons, bind_assoc]
    exact bind_congr fun _ => assignEach_append before behind firsts rest (Nat.succ.inj h)

theorem assignAll_append (x : Value) (before behind : List Expr) :
    assignAll sb v x (before ++ behind) = (do
      assignAll sb v x before
      assignAll sb v x behind) := by
  induction before with
  | nil => rfl
  | cons target rest ih =>
    show (assign sb v target x >>= fun _ => assignAll sb v x (rest ++ behind)) =
      (assign sb v target x >>= fun _ => assignAll sb v x rest) >>= _
    rw [bind_assoc, ih]

end Eval

variable {sb : Sandbox} {v : Visit} {receiver : Expr} {attr : String} {place : Span}

/-- The refusal of an attribute, whatever the receiver is and the policy says. -/
theorem Eval.assign_attribute (value : Value) (s : RunState) :
    FailsAs (.attributeRejected attr) (assign sb v ⟨.attribute receiver attr, place⟩ value) s s := by
  rw [assign, assignKind]
  exact .located place ⟨_, rfl, rfl⟩

theorem Assigns.refused {target : Expr} {value : Value} {s s' : RunState}
    (h : Assigns sb v target value s ⟨.attribute receiver attr, place⟩ s') :
    FailsAs (.attributeRejected attr) (assign sb v target value) s s' := by
  generalize ht : (⟨.attribute receiver attr, place⟩ : Expr) = t at h
  induction h with
  | here =>
    subst ht
    exact assign_attribute _ _
  | @element kind span before behind e t value x firsts rest s s₁ s₂ s' hkind hunpack hlength
      hbefore _ ih =>
    have helements : FailsAs (.attributeRejected attr)
        (unpack sb (before ++ e :: behind) value >>= assignEach sb v (before ++ e :: behind)) s s' := by
      refine .behind hunpack ?_
      rw [assignEach_append _ _ _ _ hlength, assignEach_cons]
      exact .behind hbefore (.bind (ih ht))
    rw [assign]
    rcases hkind with rfl | rfl <;> rw [assignKind] <;> exact .located span helements

/-! ## Rounds -/

namespace Eval

/-- A round of a `for` loop. -/
def forRound (sb : Sandbox) (v : Visit) (target : Expr) (body : List Stmt) (item : Value) :
    Eval (Option Flow) := do
  Guard.tickLoop sb.limits sb.clock
  assign sb v target item
  afterRound <$> block v body

/-- A round of a clause of a comprehension with the clauses behind it, once it is counted. -/
def clauseStep (sb : Sandbox) (v : Visit) (collect : Collection → Eval Collection)
    (clause : Comprehension) (behind : List Comprehension) (out : Collection) (item : Value) :
    Eval Collection := do
  assign sb v clause.target item
  if ← allHold v clause.ifs then
    match behind with
    | [] =>
      let out ← collect out
      sb.limits.size.checkContainer out.size
      pure out
    | next :: behind =>
      let source ← v.expr next.iter
      runClause sb v collect next source out behind
  else pure out

def clauseRound (sb : Sandbox) (v : Visit) (collect : Collection → Eval Collection)
    (clause : Comprehension) (behind : List Comprehension) (out : Collection) (item : Value) :
    Eval Collection := do
  Guard.tickLoop sb.limits sb.clock
  clauseStep sb v collect clause behind out item

theorem forLoop_eq (sb : Sandbox) (v : Visit) (target iter : Expr) (body orelse : List Stmt) :
    forLoop sb v target iter body orelse = (do
      let source ← v.expr iter
      let items ← located iter.span (iterate source)
      match ← walk items (forRound sb v target body) with
      | some flow => pure flow
      | none => block v orelse) := rfl

theorem runClause_eq (sb : Sandbox) (v : Visit) (collect : Collection → Eval Collection)
    (clause : Comprehension) (source : Value) (out : Collection) (behind : List Comprehension) :
    runClause sb v collect clause source out behind = (do
      let items ← located clause.iter.span (iterate source)
      fold items (clauseRound sb v collect clause behind) out) := by
  cases behind <;> rw [runClause] <;> rfl

variable {α : Type} {items : Items} {k : ErrorKind} {s s₁ s' : RunState}

/-- The round that fails ends the walk. -/
theorem walkFrom_fails {step : Value → Eval (Option α)} : ∀ (done left position : Nat) (s : RunState),
    done < left → walkFrom items step position done s = .ok none s₁ →
    FailsAs k (step (items.item (position + done))) s₁ s' →
    FailsAs k (walkFrom items step position left) s s'
  | 0, left + 1, position, s, _, hdone, h => by
    cases hdone
    exact .bind h
  | done + 1, left + 1, position, s, hlt, hdone, h => by
    rw [walkFrom, bind_apply] at hdone
    cases hr : step (items.item position) s with
    | error e s₂ =>
      rw [hr] at hdone
      cases hdone
    | ok found s₂ =>
      rw [hr] at hdone
      cases found with
      | some result => cases hdone
      | none =>
        refine .behind hr (walkFrom_fails done left (position + 1) s₂ (by omega) hdone ?_)
        rwa [show position + 1 + done = position + (done + 1) from by omega]

/-- The round that fails ends the fold. -/
theorem foldFrom_fails {step : α → Value → Eval α} {acc' : α} :
    ∀ (done left position : Nat) (acc : α) (s : RunState), done < left →
    foldFrom items step acc position done s = .ok acc' s₁ →
    FailsAs k (step acc' (items.item (position + done))) s₁ s' →
    FailsAs k (foldFrom items step acc position left) s s'
  | 0, left + 1, position, acc, s, _, hdone, h => by
    cases hdone
    exact .bind h
  | done + 1, left + 1, position, acc, s, hlt, hdone, h => by
    rw [foldFrom, bind_apply] at hdone
    cases hr : step acc (items.item position) s with
    | error e s₂ =>
      rw [hr] at hdone
      cases hdone
    | ok next s₂ =>
      rw [hr] at hdone
      refine .behind hr (foldFrom_fails done left (position + 1) next s₂ (by omega) hdone ?_)
      rwa [show position + 1 + done = position + (done + 1) from by omega]

end Eval

/-! ## Targets that a visit comes to -/

section Clauses

variable (sb : Sandbox) (v : Visit) (collect : Collection → Eval Collection)

/-- `ClauseAt sb v collect clause source out behind s out' x s'`: running a clause over `source`, with
`out` collected so far and clauses behind it, comes from the state `s` to a round for the item `x`
that starts with `out'` collected in the state `s'`. -/
inductive ClauseAt (clause : Comprehension) (source : Value) (out : Collection)
    (behind : List Comprehension) (s : RunState) : Collection → Value → RunState → Prop
  | round {out' : Collection} {s₁ s' : RunState} {items : Items} {done : Nat} :
    s.store.iterate source = .ok items → done < items.size →
    foldFrom items (clauseRound sb v collect clause behind) out 0 done s = .ok out' s₁ →
    onGuard (Guard.tickLoop sb.limits sb.clock) s₁ = .ok () s' →
    ClauseAt clause source out behind s out' (items.item done) s'

/-- `ClauseAims sb v collect clause source out behind s t s'`: running the clause comes from the state
`s` to the target `t` in the state `s'`, its own or that of a clause behind it. -/
inductive ClauseAims :
    Comprehension → Value → Collection → List Comprehension → RunState → Expr → RunState → Prop
  | target {clause : Comprehension} {source x : Value} {out out' : Collection}
    {behind : List Comprehension} {s s₁ s' : RunState} {t : Expr} :
    ClauseAt sb v collect clause source out behind s out' x s₁ →
    Assigns sb v clause.target x s₁ t s' → ClauseAims clause source out behind s t s'
  | inside {clause next : Comprehension} {source source' x : Value} {out out' : Collection}
    {behind : List Comprehension} {s s₁ s₂ s₃ s₄ s' : RunState} {t : Expr} :
    ClauseAt sb v collect clause source out (next :: behind) s out' x s₁ →
    assign sb v clause.target x s₁ = .ok () s₂ → allHold v clause.ifs s₂ = .ok true s₃ →
    v.expr next.iter s₃ = .ok source' s₄ → ClauseAims next source' out' behind s₄ t s' →
    ClauseAims clause source out (next :: behind) s t s'

end Clauses

/-- `Aims sb n s t s'`: visiting the node `n` at the state `s` comes to the target `t` in the state
`s'`, by an assignment, an augmented one, a round of a loop or a round of a comprehension. -/
inductive Aims (sb : Sandbox) : Node → RunState → Expr → RunState → Prop
  | assign {before behind : List Expr} {target value t : Expr} {span : Span} {x : Value}
    {s s₁ s₂ s' : RunState} :
    onGuard (Guard.tick sb.limits sb.clock) s = .ok () s.stepped →
    expr sb value s.stepped = .ok x s₁ → assignAll sb (visit sb) x before s₁ = .ok () s₂ →
    Assigns sb (visit sb) target x s₂ t s' →
    Aims sb (.stmt ⟨.assign (before ++ target :: behind) value, span⟩) s t s'
  | augment {target value : Expr} {op : BinaryOp} {span : Span} {s : RunState} :
    onGuard (Guard.tick sb.limits sb.clock) s = .ok () s.stepped →
    Aims sb (.stmt ⟨.augAssign target op value, span⟩) s target s.stepped
  | round {target iter t : Expr} {body orelse : List Stmt} {span : Span} {source : Value}
    {items : Items} {done : Nat} {s s₁ s₂ s₃ s' : RunState} :
    onGuard (Guard.tick sb.limits sb.clock) s = .ok () s.stepped →
    expr sb iter s.stepped = .ok source s₁ →
    s₁.store.iterate source = .ok items → done < items.size →
    walkFrom items (forRound sb (visit sb) target body) 0 done s₁ = .ok none s₂ →
    onGuard (Guard.tickLoop sb.limits sb.clock) s₂ = .ok () s₃ →
    Assigns sb (visit sb) target (items.item done) s₃ t s' →
    Aims sb (.stmt ⟨.for target iter body orelse, span⟩) s t s'
  | comprehension {e t : Expr} {collect : Collection → Eval Collection} {nothing : Collection}
    {first : Comprehension} {behind : List Comprehension} {source : Value} {s s₁ s' : RunState} :
    e.kind.Comprehends (visit sb) collect nothing (first :: behind) →
    onGuard (Guard.tick sb.limits sb.clock) s = .ok () s.stepped →
    expr sb first.iter s.stepped = .ok source s₁ →
    -- the first source is evaluated before the scope of the comprehension is entered
    ClauseAims sb (visit sb) collect first source nothing behind
      { s₁ with scopes := s₁.scopes.enter .comprehension (some s₁.scopes.current) } t s' →
    Aims sb (.expr e) s t s'

theorem look_ok {α : Type} {f : Store → Except Error α} {a : α} {s : RunState}
    (h : f s.store = .ok a) : look f s = .ok a s := by
  simp only [look, onStore, StoreM.look, h]

theorem iterate_ok {value : Value} {items : Items} {s : RunState} (span : Span)
    (h : s.store.iterate value = .ok items) : located span (iterate value) s = .ok items s :=
  located_ok.2 (look_ok h)

theorem ClauseAt.fails {collect : Collection → Eval Collection} {clause : Comprehension}
    {source x : Value} {out out' : Collection} {behind : List Comprehension} {k : ErrorKind}
    {s s₁ s' : RunState} (h : ClauseAt sb v collect clause source out behind s out' x s₁)
    (hstep : FailsAs k (clauseStep sb v collect clause behind out' x) s₁ s') :
    FailsAs k (runClause sb v collect clause source out behind) s s' := by
  obtain ⟨hitems, hlt, hdone, hround⟩ := h
  rw [runClause_eq]
  refine .behind (iterate_ok _ hitems) (foldFrom_fails _ _ _ _ _ hlt hdone ?_)
  rw [Nat.zero_add]
  exact .behind hround hstep

theorem ClauseAims.refused {collect : Collection → Eval Collection} {clause : Comprehension}
    {source : Value} {out : Collection} {behind : List Comprehension} {s s' : RunState}
    (h : ClauseAims sb v collect clause source out behind s ⟨.attribute receiver attr, place⟩ s') :
    FailsAs (.attributeRejected attr) (runClause sb v collect clause source out behind) s s' := by
  generalize ht : (⟨.attribute receiver attr, place⟩ : Expr) = t at h
  induction h with
  | target hround htarget =>
    subst ht
    exact hround.fails (.bind htarget.refused)
  | inside hround hassign hholds hsource _ ih =>
    exact hround.fails (.behind hassign (.behind hholds (.behind hsource (ih ht))))

namespace Eval.FailsAs

variable {k : ErrorKind} {s s' : RunState}

theorem stmt {st : Stmt} (ht : onGuard (Guard.tick sb.limits sb.clock) s = .ok () s.stepped)
    (h : FailsAs k (stmtKind sb (visit sb) st.kind) s.stepped s') : FailsAs k (Eval.stmt sb st) s s' := by
  rw [stmt_eq]
  exact .located _ (.behind ht h)

theorem expr {e : Expr} (ht : onGuard (Guard.tick sb.limits sb.clock) s = .ok () s.stepped)
    (h : FailsAs k (exprKind sb (visit sb) e.span e.kind) s.stepped s') :
    FailsAs k (Eval.expr sb e) s s' := by
  rw [expr_eq]
  exact .located _ (.behind ht h)

end Eval.FailsAs

/-- When a visit comes to an attribute as a target, it ends in the refusal of the attribute, and from
there on nothing happens but that the scope of a comprehension is left: no step is counted, so
nothing is evaluated. -/
theorem Aims.refused {n : Node} {s s' : RunState}
    (h : Aims sb n s ⟨.attribute receiver attr, place⟩ s') :
    ∃ e s'', (visit sb).node n s = .error e s'' ∧ e.kind = .attributeRejected attr ∧
      s'.Unwound s'' := by
  generalize ht : (⟨.attribute receiver attr, place⟩ : Expr) = t at h
  have ends {st : Stmt} {s s' : RunState} (h : FailsAs (.attributeRejected attr) (stmt sb st) s s') :
      ∃ e s'', (visit sb).node (.stmt st) s = .error e s'' ∧ e.kind = .attributeRejected attr ∧
        s'.Unwound s'' := by
    obtain ⟨e, he, hk⟩ := h
    exact ⟨e, s', he, hk, .refl s'⟩
  cases h with
  | assign htick hvalue hbefore htarget =>
    subst ht
    refine ends (.stmt htick (.behind hvalue (.bind ?_)))
    rw [assignAll_append]
    exact .behind hbefore (.bind htarget.refused)
  | augment htick =>
    subst ht
    exact ends (.stmt htick (.bind (.located place ⟨_, rfl, rfl⟩)))
  | round htick hiter hitems hlt hdone hround htarget =>
    subst ht
    refine ends (.stmt htick ?_)
    rw [stmtKind, forLoop_eq]
    refine .behind hiter (.behind (iterate_ok _ hitems) (.bind ?_))
    refine walkFrom_fails _ _ _ _ hlt hdone ?_
    rw [Nat.zero_add]
    exact .behind hround (.bind htarget.refused)
  | @comprehension e _ collect nothing first behind source _ s₁ _ hkind htick hiter hclause =>
    subst ht
    obtain ⟨e', he, hk⟩ := hclause.refused
    have hscope : FailsAs (.attributeRejected attr)
        (inScope .comprehension (some s₁.scopes.current)
          (runClause sb (visit sb) collect first source nothing behind)) s₁
        (restoreScope s₁.scopes.current s') := by
      refine ⟨e', ?_, hk⟩
      show ensuring _ (restoreScope s₁.scopes.current)
        { s₁ with scopes := s₁.scopes.enter .comprehension (some s₁.scopes.current) } = _
      simp only [ensuring, he]
    have hexpr : FailsAs (.attributeRejected attr) (expr sb e) s
        (restoreScope s₁.scopes.current s') := by
      refine .expr htick ?_
      rw [hkind.exprKind_eq]
      exact .behind hiter (.behind (a := s₁.scopes.current) rfl (.bind hscope))
    obtain ⟨e'', he'', hk''⟩ := hexpr
    exact ⟨e'', _, he'', hk'', rfl, rfl, rfl, rfl, rfl, rfl, rfl⟩

end ScriptSandbox

import ScriptSandbox.Proofs.Lexical
import ScriptSandbox.Proofs.Origin.Catching
import ScriptSandbox.Proofs.Profile

/-!
# The visits of an expression, one after another

An expression without calls visits the expressions inside it one after another, and in between it binds
names in scopes of its own only. `Course` follows an evaluation like this: the visits it makes in order,
each from the state in which it is made. The visits listed are those that the outcome depends on
(`Course.consults_iff`), and between them the scopes that there were before stay as they are.
-/

namespace ScriptSandbox

open Eval

/-! ## Expressions without calls -/

/-- An expression that is no call, and whose clauses assign to names only. -/
def Node.CallFree : Node → Prop
  | .expr e => (∀ callee args named, e.kind ≠ .call callee args named) ∧
      ∀ target ∈ e.kind.targets, target.NamesOnly fun _ => True
  | .stmt _ => False

/-- No call is in an expression, and all targets in it are made of names. -/
def Expr.CallFree (e : Expr) : Prop := (Node.expr e).All Node.CallFree

theorem Expr.CallFree.part {e part : Expr} (h : e.CallFree) (hpart : part ∈ e.kind.parts) :
    part.CallFree := h.child (List.mem_map_of_mem hpart)

theorem Expr.callFree_of_parts {e : Expr} (hcall : ∀ callee args named, e.kind ≠ .call callee args named)
    (htargets : ∀ target ∈ e.kind.targets, target.NamesOnly fun _ => True)
    (hparts : ∀ part ∈ e.kind.parts, part.CallFree) : e.CallFree := by
  refine Node.all_of_children ⟨hcall, htargets⟩ fun m hm => ?_
  obtain ⟨part, hpart, rfl⟩ := List.mem_map.1 hm
  exact hparts part hpart

/-- Most expressions assign to nothing. -/
theorem Expr.callFree_of_no_targets {e : Expr}
    (hcall : ∀ callee args named, e.kind ≠ .call callee args named) (htargets : e.kind.targets = [])
    (hparts : ∀ part ∈ e.kind.parts, part.CallFree) : e.CallFree := by
  refine callFree_of_parts hcall (fun target htarget => ?_) hparts
  rw [htargets] at htarget
  cases htarget

/-! ## States on the way -/

/-- Between two states the first `bound` scopes have stayed as they are. -/
structure RunState.Quiet (bound : Nat) (s t : RunState) : Prop where
  scope : ∀ r : ScopeRef, r.index < bound → t.scopes.scope r = s.scopes.scope r
  steps : s.guard.steps ≤ t.guard.steps

/-- The scope `r` is current and has the frame `f`, and there are at least `bound` scopes. -/
structure RunState.Inside (bound : Nat) (f r : ScopeRef) (s : RunState) : Prop where
  current : s.scopes.current = r
  anchored : r.index < s.scopes.scopes.size
  bound : bound ≤ s.scopes.scopes.size
  frame : s.scopes.FrameOf r f

/-- Between two states scopes have been added and bound in, and the same one is current. -/
structure RunState.KeepsPlace (s t : RunState) : Prop extends s.KeepsFrames t where
  current : t.scopes.current = s.scopes.current

/-- Between two states no scope has changed. -/
structure RunState.Still (s t : RunState) : Prop where
  scopes : t.scopes = s.scopes
  steps : s.guard.steps ≤ t.guard.steps

namespace RunState

variable {bound : Nat} {f r : ScopeRef} {s t u : RunState}

theorem Quiet.refl (s : RunState) : s.Quiet bound s := ⟨fun _ _ => rfl, Nat.le_refl _⟩

theorem Quiet.trans (h : s.Quiet bound t) (h' : t.Quiet bound u) : s.Quiet bound u :=
  ⟨fun r hr => (h'.scope r hr).trans (h.scope r hr), Nat.le_trans h.steps h'.steps⟩

instance : Std.Refl RunState.Still where
  refl _ := ⟨rfl, Nat.le_refl _⟩

instance : Trans RunState.Still RunState.Still RunState.Still where
  trans h h' := ⟨h'.scopes.trans h.scopes, Nat.le_trans h.steps h'.steps⟩

theorem Still.quiet (h : s.Still t) : s.Quiet bound t :=
  ⟨fun _ _ => by rw [h.scopes], h.steps⟩

theorem KeepsPlace.trans (h : s.KeepsPlace t) (h' : t.KeepsPlace u) : s.KeepsPlace u :=
  ⟨Trans.trans h.toKeepsFrames h'.toKeepsFrames, h'.current.trans h.current⟩

theorem Still.keepsPlace (h : s.Still t) : s.KeepsPlace t :=
  ⟨.of_scopes (by rw [h.scopes]), by rw [h.scopes]⟩

theorem Inside.of_keepsPlace (hs : s.Inside bound f r) (h : s.KeepsPlace t) : t.Inside bound f r where
  current := h.current.trans hs.current
  anchored := Nat.lt_of_lt_of_le hs.anchored h.size
  bound := Nat.le_trans hs.bound h.size
  frame := h.frameOf hs.anchored hs.frame

/-- A new scope of a comprehension is none of the first ones and has the same frame. -/
theorem Inside.enter (hs : s.Inside bound f r) :
    Inside bound f ⟨s.scopes.scopes.size⟩
      { s with scopes := s.scopes.enter .comprehension (some r) } where
  current := rfl
  anchored := by simp [Scopes.enter]
  bound := by simpa [Scopes.enter] using Nat.le_succ_of_le hs.bound
  frame := hs.frame.enter hs.anchored

theorem quiet_enter (hs : bound ≤ s.scopes.scopes.size) (kind : ScopeKind)
    (parent : Option ScopeRef) :
    s.Quiet bound { s with scopes := s.scopes.enter kind parent } where
  scope r hr := by
    have hne : r.index ≠ s.scopes.scopes.size := by omega
    simp [Scopes.enter, Scopes.scope, Array.getElem?_push, hne]
  steps := Nat.le_refl _

theorem visit_keepsPlace (sb : Sandbox) (e : Expr) (s : RunState) :
    s.KeepsPlace ((expr sb e).after s) :=
  ⟨visit_keepsFrames sb (.expr e) s, ((balance.node sb (.expr e)).after s).current⟩

end RunState

namespace Eval

variable {α β : Type}

/-- The state that an evaluation has ended in. -/
def stateOf : EStateM.Result Error RunState α → RunState
  | .ok _ s => s
  | .error _ s => s

theorem stateOf_apply (m : Eval α) (s : RunState) : stateOf (m s) = m.after s := by
  unfold stateOf Eval.after
  cases m s <;> rfl

/-- How an evaluation goes on from the end of another one. -/
def resume (k : α → Eval β) : EStateM.Result Error RunState α → EStateM.Result Error RunState β
  | .ok a s => k a s
  | .error e s => .error e s

theorem bind_resume (m : Eval α) (k : α → Eval β) (s : RunState) : (m >>= k) s = resume k (m s) := by
  rw [bind_apply]
  cases m s <;> rfl

end Eval

/-! ## Courses -/

/-- `Course sb bound f outcome s asks`: from the state `s`, an evaluation with the outcome `outcome` makes
the visits `asks` in order, each in a scope with the frame `f`, and ends. Apart from what the visits do,
it leaves the first `bound` scopes as they are, and it passes on their errors. -/
inductive Course (sb : Sandbox) (bound : Nat) (f : ScopeRef) {α : Type} :
    (Visit → EStateM.Result Error RunState α) → RunState → List (Expr × RunState) → Prop where
  | ends {outcome : Visit → EStateM.Result Error RunState α} {s : RunState}
    {r : EStateM.Result Error RunState α} (fixed : ∀ v, outcome v = r)
    (quiet : s.Quiet bound (stateOf r)) : Course sb bound f outcome s []
  | asks {outcome : Visit → EStateM.Result Error RunState α} {s t : RunState} {r : ScopeRef} {e : Expr}
    {rest : List (Expr × RunState)}
    {k : EStateM.Result Error RunState Value → Visit → EStateM.Result Error RunState α}
    (quiet : s.Quiet bound t) (inside : t.Inside bound f r) (free : e.CallFree)
    (answered : ∀ v, outcome v = k (v.expr e t) v)
    (passes : ∀ x u, ∃ y u', y.kind = x.kind ∧ ∀ v, k (.error x u) v = .error y u')
    (behind : Course sb bound f (k (expr sb e t)) ((expr sb e).after t) rest) :
    Course sb bound f outcome s ((e, t) :: rest)

namespace Course

variable {sb : Sandbox} {bound : Nat} {f r : ScopeRef} {α β : Type}
  {outcome : Visit → EStateM.Result Error RunState α} {s s' t : RunState} {e : Expr}
  {asks : List (Expr × RunState)}

/-- The outcome is determined by the visits that are made. -/
theorem fixed (h : Course sb bound f outcome s asks) {v : Visit}
    (hv : ∀ p ∈ asks, v.expr p.1 p.2 = expr sb p.1 p.2) : outcome v = outcome (visit sb) := by
  induction h with
  | ends fixed _ => rw [fixed, fixed]
  | @asks _ _ _ _ _ _ next _ _ _ answered _ _ ih =>
    rw [answered, answered, hv _ List.mem_cons_self]
    exact ih fun p hp => hv p (List.mem_cons_of_mem _ hp)

/-- Were one of the visits made to fail, the evaluation would fail alike. -/
theorem fails (h : Course sb bound f outcome s asks) {v : Visit} {x : Error} {u : RunState}
    (hmem : (e, t) ∈ asks) (hoff : (visit sb).AgreesOff v (.expr e) t) (hx : v.expr e t = .error x u) :
    ∃ y u', outcome v = .error y u' ∧ y.kind = x.kind := by
  induction h with
  | ends => cases hmem
  | @asks _ _ t' _ e' _ next _ _ _ answered passes _ ih =>
    by_cases hsame : e' = e ∧ t' = t
    · obtain ⟨rfl, rfl⟩ := hsame
      obtain ⟨y, u', hkind, hnext⟩ := passes x u
      exact ⟨y, u', by rw [answered, hx, hnext], hkind⟩
    · have hrest : (e, t) ∈ _ := (List.mem_cons.1 hmem).resolve_left fun heq =>
        hsame ⟨(Prod.mk.inj heq).1.symm, (Prod.mk.inj heq).2.symm⟩
      have hagrees : v.expr e' t' = expr sb e' t' :=
        hoff (.expr e') t' fun heq => hsame ⟨Node.expr.inj heq.1, heq.2⟩
      rw [answered, hagrees]
      exact ih hrest

/-- The visits that are made are those that the evaluation depends on. -/
theorem consults_iff {c : Visit → Eval α} (h : Course sb bound f (fun v => c v s) s' asks) {n : Node} :
    Consults c (visit sb) s n t ↔ ∃ e, n = .expr e ∧ (e, t) ∈ asks := by
  constructor
  · rintro ⟨v, hoff, hne⟩
    refine Classical.byContradiction fun hnone => hne (h.fixed fun p hp => ?_)
    exact hoff (.expr p.1) p.2 fun heq => hnone ⟨p.1, heq.1.symm, heq.2 ▸ hp⟩
  · rintro ⟨e, rfl, hmem⟩
    exact consults_of_fatal fun v hoff x u hx _ => h.fails hmem hoff hx

theorem before (hs : s.Quiet bound s') (h : Course sb bound f outcome s' asks) :
    Course sb bound f outcome s asks := by
  cases h with
  | ends fixed quiet => exact .ends fixed (hs.trans quiet)
  | asks quiet inside free answered passes behind =>
    exact .asks (hs.trans quiet) inside free answered passes behind

/-- Later visits have counted more steps. -/
theorem steps_le (h : Course sb bound f outcome s asks) : ∀ p ∈ asks, s.guard.steps ≤ p.2.guard.steps := by
  induction h with
  | ends => exact fun _ hp => absurd hp List.not_mem_nil
  | @asks _ _ t _ e _ _ quiet _ _ _ _ _ ih =>
    have hsteps := ((balance.node sb (.expr e)).after t).steps
    exact List.forall_mem_cons.2 ⟨quiet.steps, fun p hp =>
      Nat.le_trans quiet.steps (Nat.le_trans hsteps (ih p hp))⟩

/-- What goes on from the end of an evaluation makes its visits behind those of the evaluation. -/
theorem resume {k : Visit → α → Eval β} (h : Course sb bound f outcome s asks)
    (hk : ∀ a s', outcome (visit sb) = .ok a s' →
      ∃ asks', Course sb bound f (fun v => k v a s') s' asks') :
    ∃ asks', Course sb bound f (fun v => resume (k v) (outcome v)) s asks' := by
  induction h with
  | @ends outcome s r fixed quiet =>
    have heq : (fun v => Eval.resume (k v) (outcome v)) = fun v => Eval.resume (k v) r :=
      funext fun v => by rw [fixed]
    rw [heq]
    cases r with
    | ok a s' =>
      obtain ⟨asks', hbehind⟩ := hk a s' (fixed _)
      exact ⟨asks', hbehind.before quiet⟩
    | error e s' => exact ⟨[], .ends (fun _ => rfl) quiet⟩
  | @asks outcome s t _ e rest next quiet inside free answered passes _ ih =>
    obtain ⟨asks', hbehind⟩ := ih fun a s' ha => hk a s' (by rw [answered]; exact ha)
    refine ⟨(e, t) :: asks', .asks (k := fun o v => Eval.resume (k v) (next o v)) quiet inside free
      (fun v => by rw [answered]) (fun x u => ?_) hbehind⟩
    obtain ⟨y, u', hkind, hnext⟩ := passes x u
    exact ⟨y, u', hkind, fun v => by rw [hnext]; rfl⟩

/-- What only looks at the end of an evaluation. -/
theorem through {p : EStateM.Result Error RunState α → EStateM.Result Error RunState β}
    (hquiet : ∀ r, (stateOf r).Quiet bound (stateOf (p r)))
    (hpasses : ∀ x u, ∃ y u', p (.error x u) = .error y u' ∧ y.kind = x.kind)
    (h : Course sb bound f outcome s asks) : Course sb bound f (fun v => p (outcome v)) s asks := by
  induction h with
  | @ends _ _ r fixed quiet =>
    exact .ends (fun v => congrArg p (fixed v)) (quiet.trans (hquiet r))
  | @asks _ _ _ _ _ _ next quiet inside free answered passes _ ih =>
    refine .asks (k := fun o v => p (next o v)) quiet inside free
      (fun v => congrArg p (answered v)) (fun x u => ?_) ih
    obtain ⟨y, u', hkind, hnext⟩ := passes x u
    obtain ⟨z, w, hend, hkind'⟩ := hpasses y u'
    exact ⟨z, w, hkind'.trans hkind, fun v => by rw [hnext, hend]⟩

end Course

/-- An evaluation from a state has a course, and behind it the same scope is current. -/
structure CourseAt (sb : Sandbox) (bound : Nat) (f : ScopeRef) {α : Type} (c : Visit → Eval α)
    (s : RunState) : Prop where
  keeps : s.KeepsPlace ((c (visit sb)).after s)
  course : ∃ asks, Course sb bound f (fun v => c v s) s asks

/-- An evaluation has a course from whatever state in the scope `r`. -/
def Courses (sb : Sandbox) (bound : Nat) (f r : ScopeRef) {α : Type} (c : Visit → Eval α) : Prop :=
  ∀ s : RunState, s.Inside bound f r → CourseAt sb bound f c s

theorem CourseAt.bind {sb : Sandbox} {bound : Nat} {f : ScopeRef} {α β : Type} {c : Visit → Eval α}
    {k : Visit → α → Eval β} {s : RunState} (h : CourseAt sb bound f c s)
    (hk : ∀ a s', c (visit sb) s = .ok a s' → s.KeepsPlace s' →
      CourseAt sb bound f (fun v => k v a) s') :
    CourseAt sb bound f (fun v => c v >>= k v) s := by
  have hkeeps := h.keeps
  constructor
  · rw [after_bind]
    cases hr : c (visit sb) s with
    | error e s' =>
      rw [after_error hr] at hkeeps
      exact hkeeps
    | ok a s' =>
      rw [after_ok hr] at hkeeps
      exact hkeeps.trans (hk a s' hr hkeeps).keeps
  · obtain ⟨asks, hcourse⟩ := h.course
    obtain ⟨asks', hcourse'⟩ := hcourse.resume (k := k) fun a s' ha => by
      rw [after_ok ha] at hkeeps
      exact (hk a s' ha hkeeps).course
    refine ⟨asks', ?_⟩
    simp only [bind_resume]
    exact hcourse'

namespace Courses

variable {sb : Sandbox} {bound : Nat} {f r : ScopeRef} {α β : Type} {c : Visit → Eval α}

theorem bind {k : Visit → α → Eval β} (h : Courses sb bound f r c)
    (hk : ∀ a, Courses sb bound f r fun v => k v a) : Courses sb bound f r fun v => c v >>= k v :=
  fun s hs => (h s hs).bind fun a s' _ hkeeps => hk a s' (hs.of_keepsPlace hkeeps)

/-- An evaluation without visits that changes no scope. -/
theorem still {m : Eval α} (h : Moves RunState.Still m) : Courses sb bound f r fun _ => m := fun s _ =>
  ⟨(h s).keepsPlace, [], .ends (fun _ => rfl) ((stateOf_apply m s).symm ▸ (h s).quiet)⟩

theorem pure (a : α) : Courses sb bound f r fun _ => (Pure.pure a : Eval α) := still (.pure a)

theorem throw (e : Error) : Courses sb bound f r fun _ => (MonadExcept.throw e : Eval α) :=
  still (.throw e)

theorem get : Courses sb bound f r fun _ => (MonadState.get : Eval RunState) := still .get

theorem map {g : α → β} (h : Courses sb bound f r c) : Courses sb bound f r fun v => g <$> c v := by
  simp only [map_eq_pure_bind]
  exact h.bind fun a => pure (g a)

theorem located (span : Span) (h : Courses sb bound f r c) :
    Courses sb bound f r fun v => located span (c v) := by
  intro s hs
  obtain ⟨keeps, asks, course⟩ := h s hs
  refine ⟨?_, asks, ?_⟩
  · rw [after_located]
    exact keeps
  · refine course.through (p := fun o => match o with
      | .ok a s => .ok a s
      | .error e s => .error (e.located span) s) (fun o => ?_) fun x u => ?_
    · cases o <;> exact .refl _
    · exact ⟨_, _, rfl, Passage.located_kind x span⟩

theorem expr {e : Expr} (he : e.CallFree) : Courses sb bound f r fun v => v.expr e := fun s hs =>
  ⟨RunState.visit_keepsPlace sb e s, [(e, s)], .asks (k := fun o _ => o) (.refl s) hs he
    (fun _ => rfl) (fun x u => ⟨x, u, rfl, fun _ => rfl⟩)
    (.ends (fun _ => rfl) (by rw [stateOf_apply]; exact .refl _))⟩

/-- In the scope of a comprehension, which is none of the first ones. -/
theorem inScope (h : ∀ inner : ScopeRef, bound ≤ inner.index → Courses sb bound f inner c) :
    Courses sb bound f r fun v => inScope .comprehension (some r) (c v) := by
  intro s hs
  let entered : RunState := { s with scopes := s.scopes.enter .comprehension (some r) }
  have runs (v : Visit) : Eval.inScope .comprehension (some r) (c v) s =
      ensuring (c v) (restoreScope s.scopes.current) entered := rfl
  obtain ⟨keeps, asks, course⟩ := h _ hs.bound entered hs.enter
  refine ⟨⟨?_, ?_⟩, asks, ?_⟩
  · have hafter : ((Eval.inScope .comprehension (some r) (c (visit sb))).after s).scopes.scopes =
        ((c (visit sb)).after entered).scopes.scopes := by
      rw [Eval.after, runs, ensuring, Eval.after]
      cases c (visit sb) entered <;> rfl
    have htotal : s.KeepsFrames ((c (visit sb)).after entered) :=
      Trans.trans (RunState.KeepsFrames.enter s .comprehension (some r)) keeps.toKeepsFrames
    exact Trans.trans htotal (RunState.KeepsFrames.of_scopes hafter)
  · rw [Eval.after, runs, ensuring]
    cases c (visit sb) entered <;> rfl
  · refine .before (RunState.quiet_enter hs.bound .comprehension (some r)) ?_
    -- leaving the scope is no visit, whatever the evaluation inside has ended in
    refine course.through (p := fun o => match o with
      | .ok a u => .ok a (restoreScope s.scopes.current u)
      | .error e u => .error e (restoreScope s.scopes.current u)) (fun o => ?_) fun x u => ?_
    · cases o <;> exact ⟨fun _ _ => rfl, Nat.le_refl _⟩
    · exact ⟨_, _, rfl, rfl⟩

/-! ## What changes no scope -/

theorem onStore (m : StoreM α) : Courses sb bound f r fun _ => onStore m := by
  refine still fun s => ?_
  simp only [Eval.after, Eval.onStore]
  cases m s.store <;> exact ⟨rfl, Nat.le_refl _⟩

theorem look (g : Store → Except Error α) : Courses sb bound f r fun _ => look g := onStore _

theorem ofExcept (x : Except Error α) : Courses sb bound f r fun _ => (liftM x : Eval α) :=
  onStore (StoreM.ofExcept x)

theorem isTruthy (value : Value) : Courses sb bound f r fun _ => isTruthy value :=
  get.bind fun _ => pure _

theorem iterate (value : Value) : Courses sb bound f r fun _ => iterate value := look _

theorem currentScope : Courses sb bound f r fun _ => currentScope := get.bind fun _ => pure _

theorem tickLoop : Courses sb bound f r fun _ => onGuard (Guard.tickLoop sb.limits sb.clock) := by
  refine still fun s => ?_
  simp only [Eval.after, onGuard]
  rcases Guard.tickLoop_cases sb.limits sb.clock s.guard with ⟨-, h⟩ | ⟨-, h | h⟩ <;> simp only [h] <;>
    exact ⟨rfl, Nat.le_refl _⟩

theorem countRounds : ∀ n : Nat, Courses sb bound f r fun _ => countRounds sb n
  | 0 => pure ()
  | n + 1 => tickLoop.bind fun _ => countRounds n

theorem lookup (name : String) : Courses sb bound f r fun _ => lookup sb name := still fun s =>
  have h := reads_lookup sb name s
  ⟨h.scopes, Nat.le_of_eq (congrArg Guard.steps h.guard).symm⟩

theorem newFunction (name : String) (doc : Option String) (code : FunctionCode) :
    Courses sb bound f r fun _ => newFunction name doc code :=
  (onStore StoreM.newId).bind fun _ => currentScope.bind fun _ => pure _

theorem foldFrom {items : Items} {step : Visit → α → Value → Eval α}
    (h : ∀ acc x, Courses sb bound f r fun v => step v acc x) :
    ∀ left acc position, Courses sb bound f r fun v => foldFrom items (step v) acc position left
  | 0, acc, _ => pure acc
  | left + 1, acc, position => (h acc _).bind fun acc => foldFrom h left acc (position + 1)

end Courses

end ScriptSandbox

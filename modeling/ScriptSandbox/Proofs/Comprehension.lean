import ScriptSandbox.Proofs.Course.Expression

/-!
# Comprehensions and the scopes around them

A comprehension runs in a scope of its own, so its targets are bound there. Only a named expression
binds a name outside, in the frame of the current scope. So the scopes that there are when an expression
without calls is evaluated hold afterwards, however it ends, what they did before, but for the names that
named expressions have bound on the way (`comprehension_frame`). The proof goes from visit to visit
along the course of the evaluation, by induction on the steps that are left.
-/

namespace ScriptSandbox

open Eval

/-! ## Names bound on the way -/

/-- A named expression that has been evaluated: the name that it binds, the value, and the state behind
it. -/
structure NamedValue where
  name : String
  value : Value
  behind : RunState

/-- Evaluating the expression `e` from the state `s` has evaluated the named expression, be it inside
other ones, and this has not failed. -/
def NamedValue.From (sb : Sandbox) (e : Expr) (s : RunState) (w : NamedValue) : Prop :=
  ∃ source span t, Visited sb (.expr e) s (.expr ⟨.namedExpr w.name source, span⟩) t ∧
    expr sb ⟨.namedExpr w.name source, span⟩ t = .ok w.value w.behind

namespace Scopes

variable {bound : Nat} {f r : ScopeRef} {a b c : Scopes}

/-- Binds names in a scope, one after another. -/
def bindAll (s : Scopes) (f : ScopeRef) (writes : List NamedValue) : Scopes :=
  writes.foldl (fun s w => s.defineIn f w.name w.value) s

theorem bindAll_append (s : Scopes) (f : ScopeRef) (writes more : List NamedValue) :
    s.bindAll f (writes ++ more) = (s.bindAll f writes).bindAll f more := List.foldl_append

theorem size_bindAll (s : Scopes) (f : ScopeRef) (writes : List NamedValue) :
    (s.bindAll f writes).scopes.size = s.scopes.size := by
  induction writes generalizing s with
  | nil => rfl
  | cons w rest ih => exact (ih _).trans (by simp [defineIn])

theorem scope_bindAll_of_ne (h : r ≠ f) (writes : List NamedValue) :
    (a.bindAll f writes).scope r = a.scope r := by
  induction writes generalizing a with
  | nil => rfl
  | cons w rest ih => exact ih.trans (scope_defineIn_of_ne h)

/-- A name that is not among those bound keeps its value. -/
theorem lookup_bindAll {writes : List NamedValue} {name : String} (hf : f.index < a.scopes.size)
    (h : ∀ w ∈ writes, w.name ≠ name) :
    ((a.bindAll f writes).scope f).lookup name = (a.scope f).lookup name := by
  induction writes generalizing a with
  | nil => rfl
  | cons w rest ih =>
    have hsize : f.index < (a.defineIn f w.name w.value).scopes.size := by simpa [defineIn] using hf
    refine (ih hsize fun w hw => h w (List.mem_cons_of_mem _ hw)).trans ?_
    rw [scope_defineIn hf, Scope.lookup_define, if_neg (h w List.mem_cons_self).symm]

/-- The name bound last has its value. -/
theorem lookup_bindAll_last (hf : f.index < a.scopes.size) (before : List NamedValue) (w : NamedValue) :
    ((a.bindAll f (before ++ [w])).scope f).lookup w.name = some w.value := by
  have hsize : f.index < (a.bindAll f before).scopes.size := by rwa [size_bindAll]
  rw [bindAll_append]
  show (((a.bindAll f before).defineIn f w.name w.value).scope f).lookup w.name = _
  rw [scope_defineIn hsize, Scope.lookup_define, if_pos rfl]

/-- The first `bound` scopes are the same. -/
def AgreeBelow (bound : Nat) (a b : Scopes) : Prop :=
  ∀ r : ScopeRef, r.index < bound → b.scope r = a.scope r

theorem AgreeBelow.bindAll (h : AgreeBelow bound a b) (ha : bound ≤ a.scopes.size)
    (hb : bound ≤ b.scopes.size) (f : ScopeRef) (writes : List NamedValue) :
    AgreeBelow bound (a.bindAll f writes) (b.bindAll f writes) := by
  induction writes generalizing a b with
  | nil => exact h
  | cons w rest ih =>
    refine ih (a := a.defineIn f w.name w.value) (b := b.defineIn f w.name w.value) (fun r hr => ?_)
      (by simpa [defineIn] using ha) (by simpa [defineIn] using hb)
    by_cases heq : r = f
    · subst heq
      rw [scope_defineIn (Nat.lt_of_lt_of_le hr ha), scope_defineIn (Nat.lt_of_lt_of_le hr hb), h r hr]
    · rw [scope_defineIn_of_ne heq, scope_defineIn_of_ne heq, h r hr]

end Scopes

/-! ## What is left behind -/

/-- Between the states `s` and `u` the named expressions in `W` have been evaluated, in the order of
`writes`. Each has bound its name in the scope `f`, and nothing else has happened to the first `bound`
scopes, neither up to each of them nor in all. -/
structure Footprint (bound : Nat) (f : ScopeRef) (W : NamedValue → Prop) (s u : RunState)
    (writes : List NamedValue) : Prop where
  mem : ∀ w, w ∈ writes ↔ W w
  each : ∀ before w rest, writes = before ++ w :: rest →
    Scopes.AgreeBelow bound (s.scopes.bindAll f (before ++ [w])) w.behind.scopes
  ended : Scopes.AgreeBelow bound (s.scopes.bindAll f writes) u.scopes

namespace Footprint

variable {bound : Nat} {f : ScopeRef} {W W' : NamedValue → Prop} {s t u : RunState}
  {writes more : List NamedValue}

theorem congr (h : Footprint bound f W s u writes) (hW : ∀ w, W w ↔ W' w) :
    Footprint bound f W' s u writes := { h with mem := fun w => (h.mem w).trans (hW w) }

theorem quiet (h : s.Quiet bound t) : Footprint bound f (fun _ => False) s t [] where
  mem _ := by simp
  each before w rest hsplit := by cases before <;> cases hsplit
  ended := h.scope

theorem append (h : Footprint bound f W s t writes) (h' : Footprint bound f W' t u more)
    (hs : bound ≤ s.scopes.scopes.size) (ht : bound ≤ t.scopes.scopes.size) :
    Footprint bound f (fun w => W w ∨ W' w) s u (writes ++ more) := by
  -- what is bound behind is bound on top of what was bound before
  have onTop (ws : List NamedValue) : Scopes.AgreeBelow bound (s.scopes.bindAll f (writes ++ ws))
      (t.scopes.bindAll f ws) := by
    rw [Scopes.bindAll_append]
    exact h.ended.bindAll (by rwa [Scopes.size_bindAll]) ht f ws
  refine ⟨fun w => ?_, fun before w rest hsplit => ?_, fun r hr => ?_⟩
  · rw [List.mem_append, h.mem, h'.mem]
  · obtain ⟨between, hbefore, hmore⟩ | ⟨between, hwrites, hrest⟩ := List.append_eq_append_iff.1 hsplit
    · -- the expression is among the later ones
      intro r hr
      rw [h'.each between w rest hmore r hr, onTop _ r hr, hbefore, List.append_assoc]
    · cases between with
      | nil =>
        rw [List.append_nil] at hwrites
        intro r hr
        rw [h'.each [] w rest hrest.symm r hr, onTop _ r hr, hwrites, List.nil_append]
      | cons first between =>
        obtain ⟨rfl, -⟩ := List.cons.inj hrest
        exact h.each before w between hwrites
  · rw [h'.ended r hr, onTop more r hr]

/-- A named expression binds its name. -/
theorem single {name : String} {value : Value} (h : t.scopes = s.scopes.defineIn f name value) :
    Footprint bound f (· = ⟨name, value, t⟩) s t [⟨name, value, t⟩] where
  mem _ := List.mem_singleton
  each before w rest hsplit r _ := by
    obtain ⟨rfl, rfl⟩ : before = [] ∧ w = ⟨name, value, t⟩ := by
      cases before with
      | nil => exact ⟨rfl, (List.cons.inj hsplit).1.symm⟩
      | cons _ before => cases before <;> cases (List.cons.inj hsplit).2
    rw [h]
    rfl
  ended r _ := by
    rw [h]
    rfl

end Footprint

/-! ## Along a course -/

variable {sb : Sandbox} {bound : Nat} {f r : ScopeRef}

namespace Course

variable {α : Type} {outcome : Visit → EStateM.Result Error RunState α} {s u : RunState}
  {asks : List (Expr × RunState)} {e : Expr} {n : Node}

theorem inside (h : Course sb bound f outcome s asks) :
    ∀ p ∈ asks, p.1.CallFree ∧ ∃ r, p.2.Inside bound f r := by
  induction h with
  | ends => exact fun _ hp => absurd hp List.not_mem_nil
  | asks _ inside free _ _ _ ih => exact List.forall_mem_cons.2 ⟨⟨free, _, inside⟩, ih⟩

/-- What all visits of a course leave behind, it leaves behind. -/
theorem leaves (h : Course sb bound f outcome s asks) (hs : bound ≤ s.scopes.scopes.size)
    (hvisits : ∀ p ∈ asks, ∃ writes,
      Footprint bound f (NamedValue.From sb p.1 p.2) p.2 ((expr sb p.1).after p.2) writes) :
    ∃ writes, Footprint bound f (fun w => ∃ p ∈ asks, w.From sb p.1 p.2) s
      (stateOf (outcome (visit sb))) writes := by
  induction h with
  | ends fixed quiet =>
    rw [fixed]
    exact ⟨[], (Footprint.quiet quiet).congr fun w => by simp⟩
  | @asks _ s t _ e rest _ quiet inside _ answered _ _ ih =>
    have ht := inside.bound
    have hafter := Nat.le_trans ht (RunState.visit_keepsPlace sb e t).size
    obtain ⟨first, hfirst⟩ := hvisits _ List.mem_cons_self
    obtain ⟨others, hothers⟩ := ih hafter fun p hp => hvisits p (List.mem_cons_of_mem _ hp)
    rw [answered]
    refine ⟨_, (((Footprint.quiet quiet).append hfirst hs ht).append hothers hs hafter).congr fun w => ?_⟩
    simp

/-- What an expression visits is itself or visited by a visit of its course. -/
theorem visited_iff (h : Course sb bound f (fun v => (v.next sb).expr e s) s asks) :
    Visited sb (.expr e) s n u ↔ (n = .expr e ∧ u = s) ∨
      ∃ p ∈ asks, Visited sb (.expr p.1) p.2 n u := by
  have consults (k : Node) (t : RunState) :
      Consults (fun v => (v.next sb).node (.expr e)) (visit sb) s k t ↔
        ∃ e, k = .expr e ∧ (e, t) ∈ asks := h.consults_iff
  constructor
  · intro hvisited
    cases hvisited with
    | refl => exact .inl ⟨rfl, rfl⟩
    | @step _ k _ _ t _ hstep hbehind =>
      obtain ⟨e', rfl, hmem⟩ := (consults k t).1 hstep
      exact .inr ⟨(e', t), hmem, hbehind⟩
  · rintro (⟨rfl, rfl⟩ | ⟨p, hmem, hbehind⟩)
    · exact .refl _ _
    · exact .step ((consults _ _).2 ⟨p.1, rfl, hmem⟩) hbehind

/-- The named expressions evaluated inside an expression are the expression itself and those of its
course. -/
theorem from_iff (h : Course sb bound f (fun v => (v.next sb).expr e s) s asks) {w : NamedValue} :
    w.From sb e s ↔ ((∃ source, e.kind = .namedExpr w.name source) ∧ expr sb e s = .ok w.value w.behind) ∨
      ∃ p ∈ asks, w.From sb p.1 p.2 := by
  constructor
  · rintro ⟨source, span, t, hvisited, hvalue⟩
    obtain ⟨hsame, rfl⟩ | ⟨p, hmem, hbehind⟩ := h.visited_iff.1 hvisited
    · obtain rfl := Node.expr.inj hsame
      exact .inl ⟨⟨source, rfl⟩, hvalue⟩
    · exact .inr ⟨p, hmem, source, span, t, hbehind, hvalue⟩
  · rintro (⟨⟨source, hkind⟩, hvalue⟩ | ⟨p, hmem, source, span, t, hvisited, hvalue⟩)
    · obtain ⟨kind, span⟩ := e
      obtain rfl : kind = _ := hkind
      exact ⟨source, span, s, .refl _ _, hvalue⟩
    · exact ⟨source, span, t, h.visited_iff.2 (.inr ⟨p, hmem, hvisited⟩), hvalue⟩

end Course

/-! ## Expressions -/

section Expressions

variable {e : Expr} {s : RunState}

theorem RunState.inside_stepped (hs : s.Inside bound f r) : s.stepped.Inside bound f r :=
  hs.of_keepsPlace (Still.keepsPlace ⟨rfl, Nat.le_succ _⟩)

/-- A visit is one too many, or it is counted and the kind of its expression says what follows. -/
theorem next_cases (sb : Sandbox) (e : Expr) (s : RunState) :
    (∃ x, ∀ v : Visit, (v.next sb).expr e s = .error x s.stepped) ∨
    s.guard.steps < sb.limits.maxSteps ∧
      ∀ v : Visit, (v.next sb).expr e s = located e.span (exprKind sb v e.span e.kind) s.stepped := by
  have counted (v : Visit) : (v.next sb).expr e s = located e.span
      (onGuard (Guard.tick sb.limits sb.clock) >>= fun _ => exprKind sb v e.span e.kind) s := rfl
  have ticked := tick_stepped sb s
  by_cases hroom : s.guard.steps < sb.limits.maxSteps
  · rcases ticked with ⟨x, hx, -⟩ | hok
    · refine .inl ⟨x.located e.span, fun v => ?_⟩
      rw [counted, Eval.located, bind_apply, hx]
    · refine .inr ⟨hroom, fun v => ?_⟩
      rw [counted, Eval.located, bind_apply, hok]
      rfl
  · have hmany : ∃ x, onGuard (Guard.tick sb.limits sb.clock) s = .error x s.stepped := by
      rcases Guard.tick_cases sb.limits sb.clock s.guard with ⟨-, ht⟩ | ⟨hle, -⟩
      · exact ⟨_, by simp only [onGuard, ht]; rfl⟩
      · dsimp only at hle
        omega
    obtain ⟨x, hx⟩ := hmany
    refine .inl ⟨x.located e.span, fun v => ?_⟩
    rw [counted, Eval.located, bind_apply, hx]

/-- What the visits of a course leave behind, its expression leaves behind if it is no named expression
that succeeds. -/
theorem Course.leaves_expr {asks : List (Expr × RunState)}
    (h : Course sb bound f (fun v => (v.next sb).expr e s) s asks) (hs : s.Inside bound f r)
    (hown : ∀ name source value u, e.kind = .namedExpr name source → expr sb e s ≠ .ok value u)
    (hvisits : ∀ p ∈ asks, ∃ writes,
      Footprint bound f (NamedValue.From sb p.1 p.2) p.2 ((expr sb p.1).after p.2) writes) :
    ∃ writes, Footprint bound f (NamedValue.From sb e s) s ((expr sb e).after s) writes := by
  obtain ⟨writes, hleaves⟩ := h.leaves hs.bound hvisits
  have hafter : stateOf (((visit sb).next sb).expr e s) = (expr sb e).after s := by
    rw [visit_next]
    exact stateOf_apply _ s
  rw [hafter] at hleaves
  refine ⟨writes, hleaves.congr fun w => ?_⟩
  rw [h.from_iff]
  refine ⟨.inr, fun hw => hw.resolve_left ?_⟩
  rintro ⟨⟨source, hkind⟩, hvalue⟩
  exact hown _ _ _ _ hkind hvalue

/-- What follows the evaluation of the value of a named expression. -/
def bindNamed (name : String) (value : Value) : Eval Value := do
  let scopes := (← get).scopes
  defineIn (scopes.frame scopes.current) name value
  pure value

theorem bindNamed_apply (hs : s.Inside bound f r) (name : String) (value : Value) :
    bindNamed name value s = .ok value { s with scopes := s.scopes.defineIn f name value } := by
  rw [← hs.frame.frame_eq, ← hs.current]
  rfl

/-- A named expression visits the expression of its value, which is all that matters of what it visits. -/
theorem course_named {name : String} {source : Expr} {span : Span}
    (hnext : ∀ v : Visit, (v.next sb).expr ⟨.namedExpr name source, span⟩ s =
      located span (exprKind sb v span (.namedExpr name source)) s.stepped)
    (hsource : source.CallFree) (hs : s.Inside bound f r) :
    Course sb 0 f (fun v => (v.next sb).expr ⟨.namedExpr name source, span⟩ s) s
      [(source, s.stepped)] := by
  have hinside : s.stepped.Inside 0 f r := { RunState.inside_stepped hs with bound := Nat.zero_le _ }
  refine .asks (k := fun o _ => located span (fun _ => resume (bindNamed name) o) s.stepped)
    ⟨fun _ _ => rfl, Nat.le_succ _⟩ hinside hsource (fun v => ?_) (fun x u => ?_)
    (.ends (fun _ => rfl) ⟨fun _ hr => absurd hr (Nat.not_lt_zero _), ?_⟩)
  · have hkind : exprKind sb v span (.namedExpr name source) = v.expr source >>= bindNamed name := rfl
    simp only [hnext, hkind, Eval.located, bind_resume]
  · exact ⟨_, _, Passage.located_kind x span, fun _ => rfl⟩
  · simp only [Eval.located, Eval.after]
    cases expr sb source s.stepped <;> exact Nat.le_refl _

/-- Evaluating an expression without calls leaves the first scopes as they are but for what named
expressions bind, by induction on the steps that are left. -/
theorem exists_leaves {r : ScopeRef} {e : Expr} {s : RunState} (he : e.CallFree) (hs : s.Inside bound f r) :
    ∃ writes, Footprint bound f (NamedValue.From sb e s) s ((expr sb e).after s) writes := by
  have run : expr sb e s = ((visit sb).next sb).expr e s := by
    rw [visit_next]
    rfl
  have hstepped : s.Quiet bound s.stepped := ⟨fun _ _ => rfl, Nat.le_succ _⟩
  -- with no step left nothing is visited, else there is one less for the visits inside
  rcases next_cases sb e s with ⟨x, hfails⟩ | ⟨hroom, hnext⟩
  · refine (Course.ends hfails hstepped).leaves_expr hs (fun _ _ _ _ _ h => ?_) fun p hp => ?_
    · rw [run, hfails] at h
      cases h
    · cases hp
  -- only a named expression binds a name itself, behind what its own part binds
  by_cases hnamed : ∃ name source, e.kind = .namedExpr name source
  · obtain ⟨kind, span⟩ := e
    obtain ⟨name, source, rfl⟩ : ∃ name source, kind = .namedExpr name source := hnamed
    have hsource : source.CallFree := he.part List.mem_cons_self
    obtain ⟨writes, hleaves⟩ := exists_leaves hsource (RunState.inside_stepped hs)
    have course := course_named hnext hsource hs
    have hinside := (RunState.inside_stepped hs).of_keepsPlace
      (RunState.visit_keepsPlace sb source s.stepped)
    have total := (Footprint.quiet hstepped).append hleaves hs.bound hs.bound
    have hrun : expr sb ⟨.namedExpr name source, span⟩ s =
        located span ((visit sb).expr source >>= bindNamed name) s.stepped := run.trans (hnext _)
    rw [Eval.located, bind_apply] at hrun
    cases hr : (visit sb).expr source s.stepped with
    | error x u =>
      rw [hr] at hrun
      rw [after_error (m := expr sb source) hr] at total
      rw [after_error hrun]
      refine ⟨_, total.congr fun w => ?_⟩
      rw [course.from_iff, hrun]
      simp
    | ok value u =>
      rw [after_ok (m := expr sb source) hr] at total hinside
      simp only [hr, bindNamed_apply hinside name value] at hrun
      rw [after_ok hrun]
      refine ⟨_, (total.append (.single rfl) hs.bound hinside.bound).congr fun w => ?_⟩
      rw [course.from_iff, hrun]
      simp only [List.mem_singleton, exists_eq_left, false_or, or_comm]
      refine or_congr_right ⟨fun hw => ?_, fun hw => ?_⟩
      · subst hw
        exact ⟨⟨source, rfl⟩, rfl⟩
      · obtain ⟨⟨source', hkind⟩, hresult⟩ := hw
        obtain ⟨hname, -⟩ := ExprKind.namedExpr.inj hkind
        obtain ⟨hvalue, hbehind⟩ := EStateM.Result.ok.inj hresult
        rw [hbehind, hvalue, hname]
  · obtain ⟨kind, span⟩ := e
    have named (name : String) (value : Expr) : kind ≠ .namedExpr name value :=
      fun h => hnamed ⟨name, value, h⟩
    have courses : Courses sb bound f r fun v => located span (exprKind sb v span kind) :=
      (Courses.exprKind span span he named).located span
    obtain ⟨-, asks, course⟩ := courses s.stepped (RunState.inside_stepped hs)
    have hcourse := course.before hstepped
    rw [← funext hnext] at hcourse
    refine hcourse.leaves_expr hs (fun name source _ _ hkind _ => named name source hkind) fun p hp => ?_
    have : s.guard.steps + 1 ≤ p.2.guard.steps := course.steps_le p hp
    obtain ⟨free, r', hinside⟩ := course.inside p hp
    exact exists_leaves free hinside
termination_by sb.limits.maxSteps - s.guard.steps
decreasing_by
  · simp only [RunState.stepped]
    omega
  · omega

end Expressions

/-- Evaluating a comprehension, or any expression without calls whose clauses assign to names, leaves the
scopes that there were before as they are, however it ends, but for what the named expressions bind that
it has evaluated. Each of them binds its name in the first scope around that is no comprehension's, on
top of what those before it have bound there. All other names keep their values in all scopes, the
targets of clauses among them. -/
theorem comprehension_frame (sb : Sandbox) {e : Expr} {s : RunState} {f : ScopeRef} (he : e.CallFree)
    (hs : s.Anchored) (hf : s.scopes.FrameOf s.scopes.current f) :
    ∃ writes : List NamedValue,
      (∀ w, w ∈ writes ↔ w.From sb e s) ∧
      (∀ before w rest, writes = before ++ w :: rest →
        (w.behind.scopes.scope f).lookup w.name = some w.value ∧
        ∀ r : ScopeRef, r.index < s.scopes.scopes.size →
          w.behind.scopes.scope r = (s.scopes.bindAll f (before ++ [w])).scope r) ∧
      (∀ r : ScopeRef, r.index < s.scopes.scopes.size →
        ((expr sb e).after s).scopes.scope r = (s.scopes.bindAll f writes).scope r) ∧
      (∀ (r : ScopeRef) (name : String), r.index < s.scopes.scopes.size →
        (r = f → ∀ w : NamedValue, w.From sb e s → w.name ≠ name) →
        (((expr sb e).after s).scopes.scope r).lookup name = (s.scopes.scope r).lookup name) := by
  have frame : f.index < s.scopes.scopes.size := by
    obtain ⟨inner, outer, hpath, -⟩ := hf
    have hmem : f ∈ s.scopes.path s.scopes.current := by simp [hpath]
    exact Nat.lt_of_le_of_lt (Scopes.index_le_of_mem_path hmem) hs
  have hinside : s.Inside s.scopes.scopes.size f s.scopes.current := ⟨rfl, hs, Nat.le_refl _, hf⟩
  obtain ⟨writes, hleaves⟩ : ∃ writes, Footprint s.scopes.scopes.size f (NamedValue.From sb e s) s
      ((expr sb e).after s) writes := exists_leaves he hinside
  refine ⟨writes, hleaves.mem, fun before w rest hsplit => ?_, hleaves.ended, fun r name hr hname => ?_⟩
  · have heach := hleaves.each before w rest hsplit
    refine ⟨?_, heach⟩
    rw [heach f frame]
    exact Scopes.lookup_bindAll_last frame before w
  · rw [hleaves.ended r hr]
    -- names are bound in the scope `f` only
    by_cases heq : r = f
    · subst heq
      exact Scopes.lookup_bindAll frame fun w hw => hname rfl w ((hleaves.mem w).1 hw)
    · rw [Scopes.scope_bindAll_of_ne heq]

/-! ### A target that shadows a name -/

/-- The comprehension `[(y := x) for x in [1]]`. -/
def namesLast : Expr :=
  Syntax.Build.listComp (Syntax.Build.named "y" (Syntax.Build.name "x"))
    [⟨Syntax.Build.name "x", Syntax.Build.list [Syntax.Build.int 1], []⟩]

/-- The start of a run, with `x` bound to 7. -/
def xIsSeven : RunState :=
  { RunState.start .empty with scopes := Scopes.start.define "x" (.int 7) }

theorem namesLast_callFree : namesLast.CallFree := by
  have name (x : String) : (Syntax.Build.name x).CallFree :=
    Expr.callFree_of_no_targets (by simp [Syntax.Build.name, Syntax.Build.expr]) rfl
      fun _ h => absurd h List.not_mem_nil
  have int (n : Int64) : (Syntax.Build.int n).CallFree :=
    Expr.callFree_of_no_targets (by simp [Syntax.Build.int, Syntax.Build.expr]) rfl
      fun _ h => absurd h List.not_mem_nil
  have numbers : (Syntax.Build.list [Syntax.Build.int 1]).CallFree :=
    Expr.callFree_of_no_targets (by simp [Syntax.Build.list, Syntax.Build.expr]) rfl
      fun part hpart => List.mem_singleton.1 hpart ▸ int 1
  have written : (Syntax.Build.named "y" (Syntax.Build.name "x")).CallFree :=
    Expr.callFree_of_no_targets (by simp [Syntax.Build.named, Syntax.Build.expr]) rfl
      fun part hpart => List.mem_singleton.1 hpart ▸ name "x"
  refine Expr.callFree_of_parts (by simp [namesLast, Syntax.Build.listComp, Syntax.Build.expr])
    (fun t ht => List.mem_singleton.1 ht ▸ .name True.intro) fun part hpart => ?_
  obtain rfl | rfl | rfl : part = _ ∨ part = _ ∨ part = _ := by
    simpa [namesLast, Syntax.Build.listComp, Syntax.Build.expr, ExprKind.parts, Comprehension.parts]
      using hpart
  · exact written
  · exact name "x"
  · exact numbers

/-- Behind the comprehension `x` is still 7, and `y` has been bound by the named expression. -/
theorem namesLast_frame : namesLast.CallFree ∧ xIsSeven.Anchored ∧
    xIsSeven.scopes.FrameOf xIsSeven.scopes.current Scopes.global ∧
    (((expr unaided namesLast).after xIsSeven).scopes.scope Scopes.global).lookup "x" =
      some (.int 7) ∧
    (((expr unaided namesLast).after xIsSeven).scopes.scope Scopes.global).lookup "y" =
      some (.int 1) ∧
    ∃ w : NamedValue, w.From unaided namesLast xIsSeven ∧ w.name = "y" ∧
      (w.behind.scopes.scope Scopes.global).lookup "y" = some w.value := by
  have anchored : xIsSeven.Anchored := Nat.one_pos
  have frame : xIsSeven.scopes.FrameOf xIsSeven.scopes.current Scopes.global :=
    ⟨[], [], by rw [Scopes.path]; rfl, by simp, .inr rfl⟩
  have bound : (((expr unaided namesLast).after xIsSeven).scopes.scope Scopes.global).lookup "y" =
      some (.int 1) := by
    with_unfolding_all rfl
  obtain ⟨writes, hmem, heach, -, hrest⟩ :=
    comprehension_frame unaided namesLast_callFree anchored frame
  refine ⟨namesLast_callFree, anchored, frame, by with_unfolding_all rfl, bound, ?_⟩
  have unbound : (xIsSeven.scopes.scope Scopes.global).lookup "y" = none := by
    rfl
  obtain ⟨w, hw, hname⟩ : ∃ w : NamedValue, w.From unaided namesLast xIsSeven ∧ w.name = "y" := by
    -- a name that nothing binds would still be unbound
    by_contra hnone
    have kept := hrest Scopes.global "y" anchored fun _ w hw hname => hnone ⟨w, hw, hname⟩
    rw [bound, unbound] at kept
    cases kept
  obtain ⟨before, rest, hsplit⟩ := List.append_of_mem ((hmem w).2 hw)
  exact ⟨w, hw, hname, hname ▸ (heach before w rest hsplit).1⟩

end ScriptSandbox

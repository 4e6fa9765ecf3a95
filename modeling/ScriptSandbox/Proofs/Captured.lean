import ScriptSandbox.Proofs.Halted
import ScriptSandbox.Proofs.Lexical

/-!
# The scopes that functions capture

Functions capture the current scope, and the scopes of comprehensions lie in it. Where it is one of the
scopes that an invariant is about, a node keeps the invariant whatever it makes
(`ScopedInvariant.nextAt`). Evaluating a part of the node leaves the current scope as it is, so a
comprehension still has it behind its first iterable.

As long as no code runs in a scope from a number on, all functions capture scopes below that number and
all scopes lie in such scopes (`ScopedInvariant.capturing`). Code does run in later scopes, but not in a
run that is halted as soon as a node is visited there (`Halt.beyond`).
-/

namespace ScriptSandbox

open Eval

/-! ## Nodes in a scope that is held -/

namespace ScopedInvariant

variable {sb : Sandbox} {I : ScopedInvariant sb} {v v' : Visit} {α β : Type} {P : α → Prop}
  {Q : β → Prop} {s : RunState}

/-- What is done with the current scope. -/
theorem KeepsAt.place {f f' : ScopeRef → Eval β}
    (h : I.KeepsAt Q (f s.scopes.current) (f' s.scopes.current) s) :
    I.KeepsAt Q (currentScope >>= f) (currentScope >>= f') s := h

theorem newFunctionAt (hs : I.holds s) (hplace : I.held s.scopes.current) {c : FunctionCode}
    (hc : I.code c) (name : String) (doc : Option String) :
    I.KeepsAt I.good (newFunction name doc c) (newFunction name doc c) s := by
  have hid : I.Keeps (fun _ => True) (onStore StoreM.newId) (onStore StoreM.newId) :=
    I.congruence.newId
  refine (hid s hs).bind fun id s' hr _ hs' _ => KeepsAt.place ?_
  have hcurrent : s'.scopes.current = s.scopes.current :=
    ((Balances.onStore (P := fun _ => True) StoreM.newId fun _ => True.intro).ok hr).2.current
  refine Keeps.pure ((I.good_function _).2 ⟨hc, ?_⟩) s' hs'
  rwa [hcurrent]

theorem comprehensionAt (hv : I.congruence.Visits v v') (hbalance : (balance sb).Visits v v)
    (hs : I.holds s) (hplace : I.held s.scopes.current) {e : Expr} (h : I.allows (.expr e))
    {collect : Collection → Eval Collection} {nothing : Collection} {clauses : List Comprehension}
    (he : e.kind.Comprehends v collect nothing clauses) :
    I.KeepsAt I.good (exprKind sb v e.span e.kind) (exprKind sb v' e.span e.kind) s := by
  obtain ⟨hnothing, hclauses, htargets, collect', he', hcollect⟩ := Congruence.ingredients hv h he
  rw [he.exprKind_eq, he'.exprKind_eq]
  cases clauses with
  | nil => exact Keeps.throw (I.errs_plain _ rfl) s hs
  | cons first rest =>
    have hfirst : I.allows (.expr first.iter) := hclauses _ (by simp [Comprehension.parts])
    refine (hv.expr first.iter hfirst s hs).bind fun source s' hr hsource hs' _ => KeepsAt.place ?_
    have hcurrent : s'.scopes.current = s.scopes.current :=
      (Balances.ok (hbalance.expr first.iter True.intro) hr).2.current
    refine Congruence.collected hv hcollect hnothing hclauses htargets hsource ?_ s' hs'
    rwa [hcurrent]

theorem exprKindAt (hv : I.congruence.Visits v v') (hbalance : (balance sb).Visits v v)
    (hs : I.holds s) (hplace : I.held s.scopes.current) {e : Expr} (h : I.allows (.expr e)) :
    I.KeepsAt I.good (exprKind sb v e.span e.kind) (exprKind sb v' e.span e.kind) s := by
  have hcode {c : FunctionCode} (hc : (Node.expr e).code? = some c) : I.code c := I.code_of h hc
  have hcomprehends {collect : Collection → Eval Collection} {nothing : Collection}
      {clauses : List Comprehension} (he : e.kind.Comprehends v collect nothing clauses) :
      I.KeepsAt I.good (exprKind sb v e.span e.kind) (exprKind sb v' e.span e.kind) s :=
    comprehensionAt hv hbalance hs hplace h he
  have hothers (htakes : ¬ (Node.expr e).TakesScope) :
      I.KeepsAt I.good (exprKind sb v e.span e.kind) (exprKind sb v' e.span e.kind) s :=
    Congruence.exprKind (C := I.congruence) hv h (fun h => absurd h htakes) s hs
  obtain ⟨kind, span⟩ := e
  cases kind with
  | lambda params body => exact newFunctionAt hs hplace (hcode rfl) _ _
  | listComp element clauses => exact hcomprehends (.list element clauses)
  | generatorExp element clauses => exact hcomprehends (.generator element clauses)
  | setComp element clauses => exact hcomprehends (.set element clauses)
  | dictComp key value clauses => exact hcomprehends (.dict key value clauses)
  | _ => exact hothers id

theorem stmtKindAt (hv : I.congruence.Visits v v') (hs : I.holds s)
    (hplace : I.held s.scopes.current) {st : Stmt} (h : I.allows (.stmt st)) :
    I.KeepsAt I.congruence.GoodFlow (stmtKind sb v st.kind) (stmtKind sb v' st.kind) s := by
  have hcode {c : FunctionCode} (hc : (Node.stmt st).code? = some c) : I.code c := I.code_of h hc
  have hothers (htakes : ¬ (Node.stmt st).TakesScope) :
      I.KeepsAt I.congruence.GoodFlow (stmtKind sb v st.kind) (stmtKind sb v' st.kind) s :=
    Congruence.stmtKind (C := I.congruence) keepsLoops hv h (fun h => absurd h htakes) s hs
  obtain ⟨kind, span⟩ := st
  cases kind with
  | functionDef d =>
    refine (newFunctionAt hs hplace (hcode rfl) _ _).bind fun f s' _ hf hs' _ => ?_
    have hdefine : I.Keeps (fun _ => True) (define d.name f) (define d.name f) :=
      I.congruence.define hf
    exact (hdefine s' hs').bind fun _ s'' _ _ hs'' _ => Keeps.pure True.intro s'' hs''
  | _ => exact hothers id

/-- A step is counted in the scope that is current. -/
theorem KeepsAt.visit {m m' : Eval α} (hs : I.holds s) (span : Span)
    (h : ∀ s', I.holds s' → s'.scopes.current = s.scopes.current → I.KeepsAt P m m' s') :
    I.KeepsAt P (Eval.located span (onGuard (Guard.tick sb.limits sb.clock) >>= fun _ => m))
      (Eval.located span (onGuard (Guard.tick sb.limits sb.clock) >>= fun _ => m')) s := by
  have htick : I.Keeps (fun _ => True) (onGuard (Guard.tick sb.limits sb.clock))
      (onGuard (Guard.tick sb.limits sb.clock)) := keepsSteps
  refine ((htick s hs).bind fun _ s' hr _ hs' _ => h s' hs' ?_).located span
  exact ((Balances.tick sb.limits sb.clock).ok hr).2.current

/-- Where the current scope is held, a node keeps the invariant. -/
theorem nextAt (hv : I.congruence.Visits v v') (hbalance : (balance sb).Visits v v)
    (hs : I.holds s) (hplace : I.held s.scopes.current) :
    ∀ n, I.allows n →
      I.KeepsAt (I.congruence.GoodResult n) ((v.next sb).node n) ((v'.next sb).node n) s
  | .expr e, h => KeepsAt.visit hs e.span fun _ hs' hcurrent =>
      exprKindAt hv hbalance hs' (hcurrent ▸ hplace) h
  | .stmt st, h => KeepsAt.visit hs st.span fun _ hs' hcurrent =>
      stmtKindAt hv hs' (hcurrent ▸ hplace) h

end ScopedInvariant

/-! ## The norm -/

/-- All functions in a value capture scopes of a sort. What a list, a dict or a set holds is in the
store. -/
inductive Value.Captures (held : ScopeRef → Prop) : Value → Prop where
  | flat {v : Value} : v.isFlat = true → v.Captures held
  | function {f : Closure} : held f.scope → (Value.function f).Captures held
  | tuple {id : Nat} {items : Array Value} : (∀ x ∈ items, x.Captures held) →
    (Value.tuple id items).Captures held
  | method {id : Nat} {receiver : Value} {name : String} : receiver.Captures held →
    (Value.method id receiver name).Captures held

namespace Value

variable {held held' : ScopeRef → Prop}

theorem captures_function {f : Closure} : (function f).Captures held ↔ held f.scope := by
  refine ⟨fun h => ?_, .function⟩
  cases h with
  | flat h => cases h
  | function h => exact h

theorem Captures.mono {v : Value} (h : v.Captures held) (hheld : ∀ r, held r → held' r) :
    v.Captures held' := by
  induction h with
  | flat h => exact .flat h
  | function h => exact .function (hheld _ h)
  | tuple _ ih => exact .tuple ih
  | method _ ih => exact .method ih

end Value

/-- All functions capture scopes of a sort, in values that are raised as well. -/
def Norm.capturing (l : Limits) (held : ScopeRef → Prop) : Norm l where
  good := Value.Captures held
  fits _ := True
  errs k := ∀ v, k = .raised v → v.Captures held
  good_data _ h := .flat (Value.isFlat_of_isData h)
  good_tuple _ _ _ := .tuple
  good_items h := by
    cases h with
    | flat h => cases h
    | tuple h => exact h
  fits_items _ := True.intro
  good_method _ _ _ _ _ := .method
  fits_of_le _ := True.intro
  fits_mono _ _ := True.intro
  fits_two := True.intro
  errs_plain k hk v h := by
    subst h
    cases hk
  errs_raised h v hv := by
    cases hv
    exact h
  errs_container _ h := by cases h
  errs_string _ h := by cases h
  pieces := True
  errs_piece _ _ _ h := by cases h
  errs_powerBase _ h := by cases h
  errs_power _ h := by cases h
  errs_timeout _ h := by cases h

theorem Norm.KeptRun.capturing_mono {l : Limits} {held held' : ScopeRef → Prop} {s : RunState}
    (h : (Norm.capturing l held).KeptRun s) (hheld : ∀ r, held r → held' r) :
    (Norm.capturing l held').KeptRun s where
  store := {
    list := fun r x hx => (h.store.list r x hx).mono hheld
    listFits := h.store.listFits
    dict := fun r entry he => (h.store.dict r entry he).imp (·.mono hheld) (·.mono hheld)
    dictFits := h.store.dictFits
    set := fun r x hx => (h.store.set r x hx).mono hheld
    setFits := h.store.setFits }
  binding r entry he := (h.binding r entry he).mono hheld
  copies entry he := (h.copies entry he).mono hheld
  handling e he v hv := (h.handling e he v hv).mono hheld

variable {sb : Sandbox}

/-- Where functions and scopes are made in scopes of a sort only, all functions capture such scopes and
all scopes lie in such scopes. -/
def ScopedInvariant.capturing {held : ScopeRef → Prop}
    (hhost : (Norm.capturing sb.limits held).Lends sb.host) : ScopedInvariant sb where
  toNorm := .capturing sb.limits held
  held := held
  allows _ := True
  code _ := True
  reads _ := True
  top _ := True
  counts _ := True
  fails _ _ := True
  allows_child _ _ := True.intro
  code_of _ _ := True.intro
  allows_code _ _ := True.intro
  fits_rest _ _ _ := True.intro
  fits_starred _ _ _ _ := True.intro
  good_function _ := Value.captures_function.trans (and_iff_right True.intro).symm
  reads_name _ := True.intro
  errs_stray {_ g} _ _ _ v h := absurd h (g.stray_ne_raised v)
  pieces_text _ _ := True.intro
  pieces_call _ _ _ _ := True.intro
  allows_top _ := True.intro
  errs_top {_ g} _ _ v h := absurd h (g.stray_ne_raised v)
  lends := hhost
  registered {_ v} _ := show v.Fits (Norm.capturing sb.limits held).fits from
    HostValue.fits_of_forall (fun _ => True.intro) v
  offered _ _ := .flat rfl
  counts_tick _ _ _ := True.intro
  counts_loop _ _ _ := True.intro
  counts_call _ _ _ := True.intro
  counts_native _ _ := True.intro
  counts_leave _ := True.intro
  fails_errs _ _ := True.intro
  fails_tick _ _ := True.intro
  fails_loop _ _ := True.intro
  fails_call _ := True.intro
  fails_lateTick _ _ := True.intro
  fails_lateLoop _ _ := True.intro
  fails_leave _ := True.intro

/-! ## Halting where a scope is not held -/

/-- Visits that are halted wherever the current scope is not held keep an invariant, and no difference
between them can be told where the invariant does not hold. -/
theorem ScopedInvariant.visits_halted {I : ScopedInvariant sb} {stop stop' : Halt}
    (herr : I.errs (.limitExceeded .steps sb.limits.maxSteps))
    (hsame : ∀ n s, I.holds s → stop n s = stop' n s)
    (hstop : ∀ n s e, I.holds s → stop n s = some e →
      I.fails e.kind s.guard ∧ e.isCatchable = false)
    (hplace : ∀ n s, I.holds s → stop n s = none → I.held s.scopes.current) :
    ∀ depth, I.congruence.Visits (haltedWithin sb stop depth) (haltedWithin sb stop' depth)
  | 0 => ⟨visitWithin_lawful sb 0, fun _ _ => Keeps.throw herr, fun _ _ => Keeps.throw herr⟩
  | depth + 1 => by
    refine Congruence.visits_of (haltedWithin_lawful sb stop _) fun n hn s hs => ?_
    simp only [haltedWithin, Visit.node_halted]
    cases hr : stop n s with
    | some e =>
      obtain ⟨hfails, hfatal⟩ := hstop n s e hs hr
      unfold KeepsAt
      rw [haltedBy_some hr, haltedBy_some (hsame n s hs ▸ hr)]
      exact ⟨rfl, .fatal hfails hs.linked hfatal⟩
    | none =>
      unfold KeepsAt
      rw [haltedBy_none hr, haltedBy_none (hsame n s hs ▸ hr)]
      exact nextAt (visits_halted herr hsame hstop hplace depth)
        (balance.visits_halted sb stop depth) hs (hplace n s hs hr) n hn

namespace Halt

variable {stop : Halt} {j : Nat} {n : Node} {s : RunState}

/-- Visits are also halted in the scopes from a number on. -/
def beyond (stop : Halt) (j : Nat) : Halt := fun n s =>
  (stop n s).or (if j ≤ s.scopes.current.index then some (.ofKind (.structural "")) else none)

theorem beyond_eq (stop : Halt) (j : Nat) (n : Node) (s : RunState) :
    stop n s = stop.beyond j n s ∨ stop n s = none ∧
      ∃ e, stop.beyond j n s = some e ∧ e.isCatchable = false ∧ j ≤ s.scopes.current.index := by
  unfold beyond
  cases stop n s with
  | some e => exact .inl rfl
  | none =>
    split
    · exact .inr ⟨rfl, _, rfl, rfl, ‹_›⟩
    · exact .inl rfl

theorem Fatal.beyond (h : stop.Fatal) (j : Nat) : (stop.beyond j).Fatal := by
  intro n s e he
  rcases beyond_eq stop j n s with heq | ⟨-, e', he', hfatal, -⟩
  · exact h n s e (heq.trans he)
  · cases he.symm.trans he'
    exact hfatal

theorem lt_of_beyond_none (h : stop.beyond j n s = none) : s.scopes.current.index < j := by
  unfold Halt.beyond at h
  refine Nat.lt_of_not_le fun hle => ?_
  rw [if_pos hle] at h
  cases hr : stop n s <;> rw [hr] at h <;> cases h

end Halt

end ScriptSandbox

import ScriptSandbox.Proofs.Growth
import ScriptSandbox.Proofs.Standing
import ScriptSandbox.Proofs.Visit

/-!
# What assignments change

An augmented assignment to a name computes a new value and binds it in the scope that the name was
read from; no other binding changes, and no container. A plain assignment to names binds in the
current scope only (`assignment_frame`).
-/

namespace ScriptSandbox

open Eval

/-! ## Bindings -/

theorem Scope.lookup_define (s : Scope) (name other : String) (value : Value) :
    (s.define name value).lookup other = if other = name then some value else s.lookup other := by
  have hbeq : ∀ {x y : String}, x ≠ y → (x == y) = false := fun h => by simpa using h
  obtain ⟨kind, bindings, parent⟩ := s
  simp only [Scope.define, Scope.lookup]
  induction bindings with
  | nil => by_cases h : other = name <;> simp [Scope.bind, List.lookup_cons, h, hbeq]
  | cons entry rest ih =>
    obtain ⟨key, old⟩ := entry
    by_cases hkey : key = name
    · subst hkey
      by_cases h : other = key <;> simp [Scope.bind, List.lookup_cons, h, hbeq]
    · by_cases h : other = key
      · subst h
        simp [Scope.bind, hkey]
      · simp only [Scope.bind, hkey, if_false, List.lookup_cons, hbeq h, ih]

namespace Scopes

variable {s : Scopes} {r r' : ScopeRef} {name : String} {value : Value}

theorem scope_defineIn (h : r.index < s.scopes.size) :
    (s.defineIn r name value).scope r = (s.scope r).define name value := by
  simp [Scopes.scope, Scopes.defineIn, h, Array.getElem_modify]

theorem scope_defineIn_of_ne (h : r' ≠ r) : (s.defineIn r name value).scope r' = s.scope r' := by
  have hne : r.index ≠ r'.index := by
    obtain ⟨i⟩ := r
    obtain ⟨j⟩ := r'
    rintro rfl
    exact h rfl
  simp [Scopes.scope, Scopes.defineIn, Array.getElem?_modify, hne]

/-- The scope that an augmented assignment binds a name in: the innermost scope of the chain that
binds the name, or the current scope where none does. -/
def Home (s : Scopes) (name : String) (r : ScopeRef) : Prop :=
  (∃ inner outer, s.path s.current = inner ++ r :: outer ∧ (s.scope r).contains name = true ∧
    ∀ r' ∈ inner, (s.scope r').contains name = false) ∨
  (r = s.current ∧ ∀ r' ∈ s.path s.current, (s.scope r').contains name = false)

theorem home_of_owner (h : s.owner? s.current name = some r) : s.Home name r := by
  obtain ⟨hr, inner, outer, hpath, hinner⟩ := List.find?_eq_some_iff_append.1 h
  exact .inl ⟨inner, outer, hpath, hr, fun r' hr' => by simpa using hinner r' hr'⟩

theorem home_current (h : s.owner? s.current name = none) : s.Home name s.current :=
  .inr ⟨rfl, fun r' hr' => by simpa using List.find?_eq_none.1 h r' hr'⟩

theorem resolve?_eq (s : Scopes) (r : ScopeRef) (name : String) :
    s.resolve? r name = (s.owner? r name).bind fun owner => (s.scope owner).lookup name := by
  unfold Scopes.resolve? Scopes.owner?
  induction s.path r with
  | nil => rfl
  | cons r' outer ih =>
    rw [List.findSome?_cons, List.find?_cons, Scope.contains]
    cases h : (s.scope r').lookup name with
    | none => exact ih
    | some value => simp [h]

end Scopes

/-! ## States that differ in bindings -/

/-- The current scope exists. -/
def RunState.Anchored (s : RunState) : Prop := s.scopes.current.index < s.scopes.scopes.size

theorem standing_anchored : Standing RunState.Anchored where
  next h hs := by
    unfold RunState.Anchored at h ⊢
    rw [hs.current]
    exact Nat.lt_of_lt_of_le h hs.scopes
  scope kind parent _ := by simp [RunState.Anchored, Scopes.enter]
  call _ h := h
  handler _ h := h

/-- Between two states nothing has changed but that the copy of a registered value may have been
made. -/
structure RunState.Reads (s s' : RunState) : Prop where
  scopes : s'.scopes = s.scopes
  guard : s'.guard = s.guard
  handling : s'.handling = s.handling
  store : s.store.Grown s'.store

/-- Between two states only bindings of one scope have changed, of these only some names', and
containers have only been added. -/
structure RunState.Rebinds (s s' : RunState) (r : ScopeRef) (names : String → Prop) : Prop where
  lookup : ∀ name, ¬ names name → (s'.scopes.scope r).lookup name = (s.scopes.scope r).lookup name
  kind : (s'.scopes.scope r).kind = (s.scopes.scope r).kind
  parent : (s'.scopes.scope r).parent = (s.scopes.scope r).parent
  others : ∀ r', r' ≠ r → s'.scopes.scope r' = s.scopes.scope r'
  current : s'.scopes.current = s.scopes.current
  size : s'.scopes.scopes.size = s.scopes.scopes.size
  store : s.store.Grown s'.store
  copies : s'.copies = s.copies
  handling : s'.handling = s.handling
  steps : s'.guard.steps = s.guard.steps
  depth : s'.guard.depth = s.guard.depth

namespace RunState.Rebinds

variable {s s' s'' : RunState} {r : ScopeRef} {names : String → Prop}

/-- A change of the store and of the count of rounds leaves all bindings. -/
theorem of_store {store : Store} (h : s.store.Grown store) (loops : Nat) :
    s.Rebinds { s with store, guard := { s.guard with loops } } r names :=
  ⟨fun _ _ => rfl, rfl, rfl, fun _ _ => rfl, rfl, rfl, h, rfl, rfl, rfl, rfl⟩

theorem refl (s : RunState) : s.Rebinds s r names := of_store (.refl _) s.guard.loops

theorem trans (h : s.Rebinds s' r names) (h' : s'.Rebinds s'' r names) : s.Rebinds s'' r names where
  lookup name hname := (h'.lookup name hname).trans (h.lookup name hname)
  kind := h'.kind.trans h.kind
  parent := h'.parent.trans h.parent
  others r' hr' := (h'.others r' hr').trans (h.others r' hr')
  current := h'.current.trans h.current
  size := h'.size.trans h.size
  store := h.store.trans h'.store
  copies := h'.copies.trans h.copies
  handling := h'.handling.trans h.handling
  steps := h'.steps.trans h.steps
  depth := h'.depth.trans h.depth

theorem defineIn (s : RunState) (r : ScopeRef) {name : String} (value : Value) (h : names name) :
    s.Rebinds { s with scopes := s.scopes.defineIn r name value } r names := by
  have hsize : (s.scopes.defineIn r name value).scopes.size = s.scopes.scopes.size := by
    simp [Scopes.defineIn]
  rcases Nat.lt_or_ge r.index s.scopes.scopes.size with hlt | hge
  · refine ⟨fun other hother => ?_, ?_, ?_, fun r' hr' => Scopes.scope_defineIn_of_ne hr', rfl, hsize,
      .refl _, rfl, rfl, rfl, rfl⟩
    · have hne : other ≠ name := fun heq => hother (heq ▸ h)
      simp only [Scopes.scope_defineIn hlt, Scope.lookup_define, hne, if_false]
    · simp only [Scopes.scope_defineIn hlt, Scope.define]
    · simp only [Scopes.scope_defineIn hlt, Scope.define]
  · -- no scope is bound in
    have hsame : s.scopes.defineIn r name value = s.scopes := by
      have hmodify : s.scopes.scopes.modify r.index (·.define name value) = s.scopes.scopes := by
        refine Array.ext (by simp) fun i hi _ => ?_
        have : r.index ≠ i := by
          simp only [Array.size_modify] at hi
          omega
        simp [Array.getElem_modify, this]
      simp only [Scopes.defineIn, hmodify]
    rw [hsame]
    exact refl s

end RunState.Rebinds

/-! ## Evaluations that change little -/

/-- Before an evaluation and behind it, states are related. -/
def Eval.Moves {α : Type} (R : RunState → RunState → Prop) (m : Eval α) : Prop :=
  ∀ s, R s (m.after s)

namespace Eval

variable {α β : Type} {m : Eval α}

theorem after_ok {s s' : RunState} {a : α} (h : m s = .ok a s') : m.after s = s' := by
  simp only [Eval.after, h]

theorem after_error {s s' : RunState} {e : Error} (h : m s = .error e s') : m.after s = s' := by
  simp only [Eval.after, h]

theorem after_located (span : Span) (m : Eval α) (s : RunState) :
    (located span m).after s = m.after s := by
  simp only [Eval.after, located]
  cases m s <;> rfl

theorem after_attempt (m : Eval α) (s : RunState) : (attemptCatchable m).after s = m.after s := by
  simp only [Eval.after, attemptCatchable]
  cases m s with
  | ok a s' => rfl
  | error e s' =>
    dsimp only
    cases e.isCatchable <;> rfl

theorem after_traced (name : String) (span : Span) (m : Eval α) (s : RunState) :
    (traced name span m).after s = m.after s := by
  simp only [Eval.after, traced]
  cases m s <;> rfl

theorem after_ensuring (m : Eval α) (leave : RunState → RunState) (s : RunState) :
    (ensuring m leave).after s = leave (m.after s) := by
  simp only [Eval.after, ensuring]
  cases m s <;> rfl

theorem after_bind (m : Eval α) (f : α → Eval β) (s : RunState) :
    (m >>= f).after s = match m s with
      | .ok a s' => (f a).after s'
      | .error _ s' => s' := by
  simp only [Eval.after, bind_apply]
  cases m s <;> rfl

namespace Moves

variable {R : RunState → RunState → Prop}

section Unchanged

variable [Std.Refl R]

theorem pure (a : α) : Moves R (Pure.pure a : Eval α) := fun _ => Std.Refl.refl _

theorem throw (e : Error) : Moves R (MonadExcept.throw e : Eval α) := fun _ => Std.Refl.refl _

theorem get : Moves R (MonadState.get : Eval RunState) := fun _ => Std.Refl.refl _

end Unchanged

theorem located (span : Span) (h : Moves R m) : Moves R (Eval.located span m) := fun s => by
  rw [after_located]
  exact h s

theorem bind [Trans R R R] {f : α → Eval β} (h : Moves R m) (hf : ∀ a, Moves R (f a)) :
    Moves R (m >>= f) := by
  intro s
  have hs := h s
  rw [after_bind]
  cases hm : m s with
  | error e s' =>
    rw [after_error hm] at hs
    exact hs
  | ok a s' =>
    rw [after_ok hm] at hs
    exact Trans.trans hs (hf a s')

theorem onStore {m : StoreM α} (hm : Grows m)
    (h : ∀ (s : RunState) (store : Store), s.store.Grown store → R s { s with store }) :
    Moves R (Eval.onStore m) := by
  intro s
  have hs := hm s.store
  simp only [Eval.after, Eval.onStore]
  cases hr : m s.store <;> rw [hr] at hs <;> exact h s _ hs

end Moves

end Eval

instance : Std.Refl RunState.Reads where
  refl _ := ⟨rfl, rfl, rfl, .refl _⟩

instance : Trans RunState.Reads RunState.Reads RunState.Reads where
  trans h h' := ⟨h'.scopes.trans h.scopes, h'.guard.trans h.guard, h'.handling.trans h.handling,
    h.store.trans h'.store⟩

namespace Eval

/-- Looking a name up changes nothing but the copies of registered values. -/
theorem reads_lookup (sb : Sandbox) (name : String) : Moves RunState.Reads (lookup sb name) := by
  have copied (copies : RunState → List (String × Value)) :
      Moves RunState.Reads (modify fun s => { s with copies := copies s } : Eval PUnit) :=
    fun s => (⟨rfl, rfl, rfl, .refl s.store⟩ : s.Reads { s with copies := copies s })
  refine .bind .get fun _ => ?_
  dsimp only
  split
  · exact .pure _
  · refine .bind .get fun _ => ?_
    split
    · exact .pure _
    · split
      · exact .throw _
      · exact .pure _
      · refine .bind (.onStore (HostValue.toValue_grows _) fun _ _ h => ⟨rfl, rfl, rfl, h⟩) fun _ => ?_
        exact .bind (copied _) fun _ => .pure _

end Eval

/-! ## Augmented assignment to a name -/

/-- What `x op= rhs` does from the state `s` to the state `s'` when it succeeds: it reads `x`, takes
the value of `rhs`, and binds the operator's result in the scope `r`. -/
structure Eval.Augments (sb : Sandbox) (x : String) (op : BinaryOp) (rhs : Expr)
    (s s₁ s₂ s' : RunState) (current operand result : Value) (r : ScopeRef) : Prop where
  read : lookup sb x s = .ok current s₁
  reads : s.Reads s₁
  evaluated : (visit sb).expr rhs s₁ = .ok operand s₂
  /-- The scope is the name's before `rhs` is evaluated. -/
  home : s.scopes.Home x r
  computed : Operator.binary sb.limits.size op current operand s₂.store = .ok result s'.store
  fresh : result.NewIn s₂.store s'.store
  bound : (s'.scopes.scope r).lookup x = some result
  rebinds : s₂.Rebinds s' r (· = x)

namespace Eval

variable {sb : Sandbox} {s : RunState} {x : String}

theorem ownedValue_eq (place : Span) (s : RunState) (x : String) :
    ownedValue sb place s.scopes (s.scopes.owner? s.scopes.current x) x s =
      located place (lookup sb x) s := by
  simp only [ownedValue, ← Scopes.resolve?_eq]
  cases h : s.scopes.resolve? s.scopes.current x with
  | none => rfl
  | some current =>
    have hlookup : lookup sb x s = .ok current s := by
      simp only [lookup, bind_apply, get_apply, h]
      rfl
    rw [located, hlookup]
    rfl

/-- The scope that an augmented assignment binds in. -/
def homeOf (scopes : Scopes) (x : String) : ScopeRef :=
  (scopes.owner? scopes.current x).getD scopes.current

theorem home_homeOf (scopes : Scopes) (x : String) : scopes.Home x (homeOf scopes x) := by
  unfold homeOf
  cases h : scopes.owner? scopes.current x with
  | none => exact Scopes.home_current h
  | some r => exact Scopes.home_of_owner h

theorem homeOf_lt (hs : s.Anchored) : (homeOf s.scopes x).index < s.scopes.scopes.size := by
  unfold homeOf
  cases h : s.scopes.owner? s.scopes.current x with
  | none => exact hs
  | some r =>
    have hr : (s.scopes.scope r).contains x = true := by simpa using List.find?_some h
    refine Nat.lt_of_not_le fun hge => ?_
    simp only [Option.getD_some] at hge
    rw [Scopes.scope, Array.getElem?_eq_none hge] at hr
    cases hr

section Steps

variable {op : BinaryOp} {rhs : Expr} {current operand result : Value} {s₁ s₂ : RunState}
  {store : Store}

theorem augmentName_apply (place : Span) (hread : lookup sb x s = .ok current s₁)
    (heval : (visit sb).expr rhs s₁ = .ok operand s₂)
    (hop : Operator.binary sb.limits.size op current operand s₂.store = .ok result store)
    (hcurrent : s₂.scopes.current = s.scopes.current) :
    augmentName sb (visit sb) place x op rhs s = .ok ()
      { s₂ with store, scopes := s₂.scopes.defineIn (homeOf s.scopes x) x result } := by
  simp only [augmentName, bind_apply, get_apply, ownedValue_eq, located, hread, heval, liftM,
    monadLift, MonadLift.monadLift, onStore, hop, homeOf]
  cases s.scopes.owner? s.scopes.current x with
  | some r => rfl
  | none =>
    rw [Option.getD_none, ← hcurrent]
    rfl

theorem augments_of_steps (hs : s.Anchored) (hread : lookup sb x s = .ok current s₁)
    (heval : (visit sb).expr rhs s₁ = .ok operand s₂)
    (hop : Operator.binary sb.limits.size op current operand s₂.store = .ok result store) :
    Augments sb x op rhs s s₁ s₂
      { s₂ with store, scopes := s₂.scopes.defineIn (homeOf s.scopes x) x result }
      current operand result (homeOf s.scopes x) := by
  have hreads := reads_lookup sb x s
  rw [after_ok hread] at hreads
  have hmakes := Operator.binary_makes sb.limits.size op current operand s₂.store
  simp only [MakesAt, hop] at hmakes
  obtain ⟨hgrown, hfresh⟩ := hmakes
  have hhome : (homeOf s.scopes x).index < s₂.scopes.scopes.size := by
    have hkept := ((balance.node sb (.expr rhs)).ok heval).2.scopes
    rw [hreads.scopes] at hkept
    exact Nat.lt_of_lt_of_le (homeOf_lt hs) hkept
  refine ⟨hread, hreads, heval, home_homeOf s.scopes x, hop, hfresh, ?_, ?_⟩
  · rw [Scopes.scope_defineIn hhome, Scope.lookup_define, if_pos rfl]
  · have hstored : s₂.Rebinds { s₂ with store } (homeOf s.scopes x) (· = x) :=
      .of_store hgrown s₂.guard.loops
    exact hstored.trans (.defineIn _ _ result rfl)

end Steps

theorem augmentName_ends (sb : Sandbox) (place : Span) (op : BinaryOp) (rhs : Expr)
    (hs : s.Anchored) :
    match augmentName sb (visit sb) place x op rhs s with
    | .ok _ s' => ∃ s₁ s₂ current operand result r,
      Augments sb x op rhs s s₁ s₂ s' current operand result r
    | .error _ s' => ∃ s₁, s.Reads s₁ ∧ (s' = s₁ ∨ s' = ((visit sb).expr rhs).after s₁) := by
  have hreads := reads_lookup sb x s
  -- by the first step that fails: the read, the visit or the operation
  cases hread : lookup sb x s with
  | error e s₁ =>
    rw [after_error hread] at hreads
    simp only [augmentName, bind_apply, get_apply, ownedValue_eq, located, hread]
    exact ⟨s₁, hreads, .inl rfl⟩
  | ok current s₁ =>
    rw [after_ok hread] at hreads
    cases heval : (visit sb).expr rhs s₁ with
    | error e s₂ =>
      simp only [augmentName, bind_apply, get_apply, ownedValue_eq, located, hread, heval]
      exact ⟨s₁, hreads, .inr (after_error heval).symm⟩
    | ok operand s₂ =>
      cases hop : Operator.binary sb.limits.size op current operand s₂.store with
      | error e store =>
        have hmakes := Operator.binary_makes sb.limits.size op current operand s₂.store
        simp only [MakesAt, hop] at hmakes
        simp only [augmentName, bind_apply, get_apply, ownedValue_eq, located, hread, heval, liftM,
          monadLift, MonadLift.monadLift, onStore, hop]
        exact ⟨s₁, hreads, .inr (by rw [after_ok heval, hmakes])⟩
      | ok result store =>
        -- calls inside the right side have left their scopes again
        have hcurrent : s₂.scopes.current = s.scopes.current := by
          rw [((balance.node sb (.expr rhs)).ok heval).2.current, hreads.scopes]
        rw [augmentName_apply place hread heval hop hcurrent]
        exact ⟨_, _, _, _, _, _, augments_of_steps hs hread heval hop⟩

end Eval

/-! ## Assignment to names -/

/-- A target made of names: a name, or a tuple, a list or a starred element of such targets. -/
inductive Expr.NamesOnly (names : String → Prop) : Expr → Prop
  | name {x : String} {span : Span} : names x → NamesOnly names ⟨.name x, span⟩
  | tuple {targets : List Expr} {span : Span} :
    (∀ e ∈ targets, NamesOnly names e) → NamesOnly names ⟨.tuple targets, span⟩
  | list {targets : List Expr} {span : Span} :
    (∀ e ∈ targets, NamesOnly names e) → NamesOnly names ⟨.list targets, span⟩
  | starred {target : Expr} {span : Span} :
    NamesOnly names target → NamesOnly names ⟨.starred target, span⟩

/-- Only bindings of the current scope have changed. -/
def RunState.RebindsHere (names : String → Prop) (s s' : RunState) : Prop :=
  s.Rebinds s' s.scopes.current names

instance (names : String → Prop) : Std.Refl (RunState.RebindsHere names) where
  refl s := RunState.Rebinds.refl s

instance (names : String → Prop) : Trans (RunState.RebindsHere names) (RunState.RebindsHere names)
    (RunState.RebindsHere names) where
  trans h h' := h.trans (h.current ▸ h')

namespace Eval

variable {sb : Sandbox} {v : Visit} {names : String → Prop}

theorem moves_onStore {α : Type} {m : StoreM α} (h : Grows m) :
    Moves (RunState.RebindsHere names) (onStore m) :=
  .onStore h fun s _ hgrown => .of_store hgrown s.guard.loops

theorem moves_countRounds : ∀ n, Moves (RunState.RebindsHere names) (countRounds sb n)
  | 0 => .pure _
  | n + 1 => by
    refine .bind (fun s => ?_) fun _ => moves_countRounds n
    have counted : RunState.RebindsHere names s
        { s with guard := { s.guard with loops := s.guard.loops + 1 } } := .of_store (.refl _) _
    simp only [Eval.after, liftM, monadLift, MonadLift.monadLift, onGuard]
    rcases Guard.tickLoop_cases sb.limits sb.clock s.guard with ⟨-, h⟩ | ⟨-, h | h⟩ <;>
      simpa only [h] using counted

theorem moves_unpack (targets : List Expr) (value : Value) :
    Moves (RunState.RebindsHere names) (unpack sb targets value) := by
  unfold Eval.unpack
  simp only
  split
  · exact .throw _
  refine .bind (moves_onStore (.look _)) fun items => .bind (moves_countRounds _) fun _ => ?_
  split
  · split
    · exact .throw _
    · split
      · exact .throw _
      · exact .pure _
  · split
    · exact .throw _
    · exact .bind (moves_onStore (.of_makes fun _ => .newList _)) fun _ => .pure _

mutual

theorem moves_assign (target : Expr) (value : Value) (h : target.NamesOnly names) :
    Moves (RunState.RebindsHere names) (assign sb v target value) := by
  obtain ⟨kind, span⟩ := target
  rw [Eval.assign]
  exact .located span (moves_assignKind kind value h)

theorem moves_assignKind (kind : ExprKind) {span : Span} (value : Value)
    (h : Expr.NamesOnly names ⟨kind, span⟩) :
    Moves (RunState.RebindsHere names) (assignKind sb v kind value) := by
  cases kind with
  | name x =>
    rw [Eval.assignKind]
    cases h with
    | name hx => exact fun s => .defineIn s _ value hx
  | tuple targets =>
    rw [Eval.assignKind]
    cases h with
    | tuple hparts => exact .bind (moves_unpack _ _) fun values => moves_assignEach targets values hparts
  | list targets =>
    rw [Eval.assignKind]
    cases h with
    | list hparts => exact .bind (moves_unpack _ _) fun values => moves_assignEach targets values hparts
  | starred target =>
    rw [Eval.assignKind]
    exact .throw _
  | _ => cases h

theorem moves_assignEach : ∀ (targets : List Expr) (values : List Value),
    (∀ e ∈ targets, e.NamesOnly names) →
    Moves (RunState.RebindsHere names) (assignEach sb v targets values)
  | [], _, _ => by
    simp only [Eval.assignEach]
    exact .pure _
  | target :: targets, [], _ => by
    simp only [Eval.assignEach]
    exact .pure _
  | target :: targets, value :: values, h => by
    have hrest := moves_assignEach targets values fun e he => h e (List.mem_cons_of_mem _ he)
    have htarget := h target List.mem_cons_self
    rcases target with ⟨kind, span⟩
    cases kind with
    | starred inner =>
      rw [Eval.assignEach]
      cases htarget with
      | starred hinner => exact .bind (moves_assign inner value hinner) fun _ => hrest
    | _ =>
      simp only [Eval.assignEach]
      exact .bind (moves_assign _ value htarget) fun _ => hrest

end

theorem moves_assignAll (value : Value) : ∀ targets : List Expr,
    (∀ e ∈ targets, e.NamesOnly names) →
    Moves (RunState.RebindsHere names) (assignAll sb v value targets)
  | [], _ => .pure _
  | target :: rest, h => .bind (moves_assign target value (h _ List.mem_cons_self)) fun _ =>
      moves_assignAll value rest fun e he => h e (List.mem_cons_of_mem _ he)

end Eval

namespace Eval

variable {sb : Sandbox} {s : RunState}

theorem augAssign_ends (sb : Sandbox) (x : String) (op : BinaryOp) (rhs : Expr) (place span : Span)
    (hs : s.Anchored) :
    (∀ flow s', stmt sb ⟨.augAssign ⟨.name x, place⟩ op rhs, span⟩ s = .ok flow s' →
      flow = .normal ∧ ∃ s₁ s₂ current operand result r,
        Augments sb x op rhs s.stepped s₁ s₂ s' current operand result r) ∧
    (∀ e s', stmt sb ⟨.augAssign ⟨.name x, place⟩ op rhs, span⟩ s = .error e s' →
      ∃ s₁, s.stepped.Reads s₁ ∧ (s' = s₁ ∨ s' = (expr sb rhs).after s₁)) := by
  have hends := augmentName_ends sb (s := s.stepped) (x := x) place op rhs hs
  rcases stmt_cases sb ⟨.augAssign ⟨.name x, place⟩ op rhs, span⟩ s with ⟨e, he, -⟩ | h
  · refine ⟨fun flow s' hok => ?_, fun e' s' herr => ?_⟩
    · rw [he] at hok
      cases hok
    · rw [he] at herr
      cases herr
      exact ⟨_, Std.Refl.refl _, .inl rfl⟩
  · rw [h]
    simp only [located, stmtKind, bind_apply, augment]
    cases hr : augmentName sb (visit sb) place x op rhs s.stepped with
    | ok _ s₃ =>
      rw [hr] at hends
      refine ⟨fun flow s' hok => ?_, fun e' s' herr => ?_⟩
      · cases hok
        exact ⟨rfl, hends⟩
      · cases herr
    | error e s₃ =>
      rw [hr] at hends
      refine ⟨fun flow s' hok => ?_, fun e' s' herr => ?_⟩
      · cases hok
      · cases herr
        exact hends

theorem assign_rebinds (sb : Sandbox) (targets : List Expr) (value : Expr) (span : Span)
    (s : RunState) {names : String → Prop} (htargets : ∀ e ∈ targets, e.NamesOnly names) :
    ∃ s₁, (s₁ = s.stepped ∨ s₁ = (expr sb value).after s.stepped) ∧
      s₁.Rebinds ((stmt sb ⟨.assign targets value, span⟩).after s) s.scopes.current names := by
  rcases stmt_cases sb ⟨.assign targets value, span⟩ s with ⟨e, he, -⟩ | h
  · exact ⟨s.stepped, .inl rfl, by rw [after_error he]; exact .refl _⟩
  · refine ⟨(expr sb value).after s.stepped, .inr rfl, ?_⟩
    have hafter : (stmt sb ⟨.assign targets value, span⟩).after s =
        (stmtKind sb (visit sb) (.assign targets value)).after s.stepped := by
      rw [Eval.after, h]
      exact after_located span _ _
    have hcurrent : s.scopes.current = ((expr sb value).after s.stepped).scopes.current :=
      ((balance.node sb (.expr value)).after s.stepped).current.symm
    rw [hafter, hcurrent, stmtKind, after_bind]
    cases hr : (visit sb).expr value s.stepped with
    | error e s₁ =>
      rw [after_error (m := expr sb value) hr]
      exact .refl s₁
    | ok a s₁ =>
      rw [after_ok (m := expr sb value) hr]
      exact (Moves.bind (moves_assignAll a targets htargets) fun _ => .pure _) s₁

end Eval

/-- An augmented assignment to a name that a script visits, when it succeeds, binds the operator's
result in the scope of the name, and apart from what evaluating the right side does it changes no
other binding and no container; a list, dict or set that it binds is a new one. When it fails, nothing
has changed but by evaluating the right side. A plain assignment to names, however it ends, changes
bindings of the current scope only. -/
theorem assignment_frame {sb : Sandbox} {m : Module} {s₀ : RunState} (h₀ : s₀.Anchored) :
    (∀ x op rhs place span s,
      m.Visits sb s₀ (.stmt ⟨.augAssign ⟨.name x, place⟩ op rhs, span⟩) s →
      (∀ flow s', stmt sb ⟨.augAssign ⟨.name x, place⟩ op rhs, span⟩ s = .ok flow s' →
        flow = .normal ∧ ∃ s₁ s₂ current operand result r,
          Augments sb x op rhs s.stepped s₁ s₂ s' current operand result r) ∧
      (∀ e s', stmt sb ⟨.augAssign ⟨.name x, place⟩ op rhs, span⟩ s = .error e s' →
        ∃ s₁, s.stepped.Reads s₁ ∧ (s' = s₁ ∨ s' = (expr sb rhs).after s₁))) ∧
    (∀ targets value span names s, (∀ e ∈ targets, e.NamesOnly names) →
      ∃ s₁, (s₁ = s.stepped ∨ s₁ = (expr sb value).after s.stepped) ∧
        s₁.Rebinds ((stmt sb ⟨.assign targets value, span⟩).after s) s.scopes.current names) := by
  refine ⟨fun x op rhs place span s hvisits => ?_, fun targets value span names s htargets => ?_⟩
  · have hs : s.Anchored := standing_anchored.of_module h₀ hvisits
    exact augAssign_ends sb x op rhs place span hs
  · exact assign_rebinds sb targets value span s htargets

/-- The usual quotas, with no names but a script's own. -/
def unaided : Sandbox := ⟨.standard, .empty, .bare, .stopped⟩

/-- The statement `x = [1]`. -/
def startOne : Stmt := Syntax.Build.assign "x" (Syntax.Build.list [Syntax.Build.int 1])

/-- The statement `x += [2]`. -/
def appendTwo : Stmt := Syntax.Build.augAssign "x" .add (Syntax.Build.list [Syntax.Build.int 2])

/-- The script `x = [1]; x += [2]`. -/
def growing : Module := ⟨[startOne, appendTwo]⟩

/-- The name is bound to a third list, after `[1]` and `[2]`, and the first one is as it was. -/
theorem growing_binds : ∃ s s',
    (RunState.start .empty).Anchored ∧
    growing.Visits unaided (.start .empty) (.stmt appendTwo) s ∧
    stmt unaided appendTwo s = .ok .normal s' ∧
    (∃ s₁ s₂ current operand result r, Augments unaided "x" .add
      (Syntax.Build.list [Syntax.Build.int 2]) s.stepped s₁ s₂ s' current operand result r) ∧
    (s'.scopes.scope Scopes.global).lookup "x" = some (.list ⟨2⟩) ∧
    s'.store.list ⟨0⟩ = #[.int 1] ∧
    (∀ e ∈ [Syntax.Build.name "x"], e.NamesOnly (· = "x")) ∧
    ∃ s₁, (s₁ = s.stepped ∨
        s₁ = (expr unaided (Syntax.Build.list [Syntax.Build.int 1])).after s.stepped) ∧
      s₁.Rebinds ((stmt unaided startOne).after s) s.scopes.current (· = "x") := by
  have anchored : (RunState.start .empty).Anchored := Nat.one_pos
  have before : moduleFrom unaided (visit unaided) .null [startOne] (.start .empty) =
      .ok .null ((moduleFrom unaided (visit unaided) .null [startOne]).after (.start .empty)) := rfl
  have visits : growing.Visits unaided (.start .empty) (.stmt appendTwo) _ :=
    .statement (show growing.body = [startOne] ++ appendTwo :: [] from rfl) before
  have names : ∀ e ∈ [Syntax.Build.name "x"], e.NamesOnly (· = "x") := by
    intro e he
    rw [List.mem_singleton.1 he]
    exact .name rfl
  let s := (moduleFrom unaided (visit unaided) .null [startOne]).after (.start .empty)
  let s' := (stmt unaided appendTwo).after s
  have ends : stmt unaided appendTwo s = .ok .normal s' := by
    with_unfolding_all rfl
  have bound : (s'.scopes.scope Scopes.global).lookup "x" = some (.list ⟨2⟩) := by
    with_unfolding_all rfl
  have kept : s'.store.list ⟨0⟩ = #[.int 1] := by
    with_unfolding_all rfl
  have augments := (((assignment_frame anchored).1 _ _ _ _ _ _ visits).1 _ _ ends).2
  exact ⟨s, s', anchored, visits, ends, augments, bound, kept, names,
    (assignment_frame (m := growing) anchored).2 _ _ _ _ _ names⟩

end ScriptSandbox

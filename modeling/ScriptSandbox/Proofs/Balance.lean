import ScriptSandbox.Proofs.Congruence.Run
import ScriptSandbox.Proofs.Guard

/-!
# Balanced evaluation

Whatever an evaluation enters, a scope, a call or a handler, it leaves again, by whatever way it
ends: the current scope, the depth of calls and the errors being handled are the same behind it as
before it (`evaluation_balanced`). Steps, on the other hand, are never given back, so the count of
steps is a clock: a visit that starts later starts at a higher count.
-/

namespace ScriptSandbox

open Eval

/-- The state that an evaluation ends in, with a result or with an error. -/
def Eval.after {α : Type} (m : Eval α) (s : RunState) : RunState :=
  match m s with
  | .ok _ s' => s'
  | .error _ s' => s'

/-- What holds between the state before an evaluation and the state behind it. -/
structure RunState.Balanced (s s' : RunState) : Prop where
  current : s'.scopes.current = s.scopes.current
  depth : s'.guard.depth = s.guard.depth
  handling : s'.handling = s.handling
  /-- Scopes are never dropped, so a reference to one stays what it is. -/
  scopes : s.scopes.scopes.size ≤ s'.scopes.scopes.size
  steps : s.guard.steps ≤ s'.guard.steps
  loops : s.guard.loops ≤ s'.guard.loops

namespace RunState.Balanced

variable {s s' s'' : RunState}

theorem refl (s : RunState) : s.Balanced s := ⟨rfl, rfl, rfl, Nat.le_refl _, Nat.le_refl _, Nat.le_refl _⟩

theorem trans (h : s.Balanced s') (h' : s'.Balanced s'') : s.Balanced s'' :=
  ⟨h'.current.trans h.current, h'.depth.trans h.depth, h'.handling.trans h.handling,
    Nat.le_trans h.scopes h'.scopes, Nat.le_trans h.steps h'.steps, Nat.le_trans h.loops h'.loops⟩

theorem defineIn (s : RunState) (r : ScopeRef) (name : String) (value : Value) :
    s.Balanced { s with scopes := s.scopes.defineIn r name value } :=
  ⟨rfl, rfl, rfl, by simp [Scopes.defineIn], Nat.le_refl _, Nat.le_refl _⟩

theorem define (s : RunState) (name : String) (value : Value) :
    s.Balanced { s with scopes := s.scopes.define name value } := defineIn s _ name value

end RunState.Balanced

/-- An evaluation leaves what it enters, and its result is of a sort. -/
def Eval.Balances {α : Type} (P : α → Prop) (m : Eval α) : Prop :=
  ∀ s,
    match m s with
    | .ok a s' => P a ∧ s.Balanced s'
    | .error _ s' => s.Balanced s'

namespace Eval.Balances

variable {α β : Type} {P : α → Prop} {Q : β → Prop} {m : Eval α}

theorem ok (h : Balances P m) {s s' : RunState} {a : α} (hm : m s = .ok a s') :
    P a ∧ s.Balanced s' := by
  have := h s
  rwa [hm] at this

theorem error (h : Balances P m) {s s' : RunState} {e : Error} (hm : m s = .error e s') :
    s.Balanced s' := by
  have := h s
  rwa [hm] at this

theorem after (h : Balances P m) (s : RunState) : s.Balanced (m.after s) := by
  unfold Eval.after
  cases hm : m s with
  | ok a s' => exact (h.ok hm).2
  | error e s' => exact h.error hm

theorem mono {P' : α → Prop} (h : Balances P m) (hP : ∀ a, P a → P' a) : Balances P' m := by
  intro s
  cases hm : m s with
  | ok a s' => exact ⟨hP a (h.ok hm).1, (h.ok hm).2⟩
  | error e s' => exact h.error hm

theorem sure {P' : α → Prop} (hgives : Gives P' m) (h : Balances P m) :
    Balances (fun a => P a ∧ P' a) m := by
  intro s
  cases hm : m s with
  | ok a s' => exact ⟨⟨(h.ok hm).1, hgives s a s' hm⟩, (h.ok hm).2⟩
  | error e s' => exact h.error hm

theorem pure {a : α} (h : P a) : Balances P (Pure.pure a) := fun s => ⟨h, .refl s⟩

theorem throw (e : Error) : Balances P (MonadExcept.throw e) := fun s => .refl s

theorem bind {f : α → Eval β} (h : Balances P m) (hf : ∀ a, P a → Balances Q (f a)) :
    Balances Q (m >>= f) := by
  intro s
  rw [bind_apply]
  cases hm : m s with
  | error e s' => exact h.error hm
  | ok a s' =>
    obtain ⟨ha, hs⟩ := h.ok hm
    dsimp only
    cases hb : f a s' with
    | ok b s'' => exact ⟨((hf a ha).ok hb).1, hs.trans ((hf a ha).ok hb).2⟩
    | error e s'' => exact hs.trans ((hf a ha).error hb)

/-- A computation on the store alone enters nothing. -/
theorem onStore (m : StoreM α) (h : ∀ a, P a) : Balances P (Eval.onStore m) := by
  intro s
  simp only [Eval.onStore]
  cases m s.store with
  | ok a store => exact ⟨h a, rfl, rfl, rfl, Nat.le_refl _, Nat.le_refl _, Nat.le_refl _⟩
  | error e store => exact ⟨rfl, rfl, rfl, Nat.le_refl _, Nat.le_refl _, Nat.le_refl _⟩

theorem located (span : Span) (h : Balances P m) : Balances P (Eval.located span m) := by
  intro s
  simp only [Eval.located]
  cases hm : m s with
  | ok a s' => exact h.ok hm
  | error e s' => exact h.error hm

theorem attempt (h : Balances P m) {P' : Except Error α → Prop} (hok : ∀ a, P a → P' (.ok a))
    (herr : ∀ e, P' (.error e)) : Balances P' (attemptCatchable m) := by
  intro s
  simp only [attemptCatchable]
  cases hm : m s with
  | ok a s' => exact ⟨hok a (h.ok hm).1, (h.ok hm).2⟩
  | error e s' =>
    dsimp only
    cases e.isCatchable with
    | true => exact ⟨herr e, h.error hm⟩
    | false => exact h.error hm

/-- What is done around an evaluation may enter something if it is left behind it. -/
theorem ensuring {s₀ s : RunState} (leave : RunState → RunState) (h : Balances P m)
    (hs : ∀ s', s.Balanced s' → s₀.Balanced (leave s')) :
    match Eval.ensuring m leave s with
    | .ok a s' => P a ∧ s₀.Balanced s'
    | .error _ s' => s₀.Balanced s' := by
  simp only [Eval.ensuring]
  cases hm : m s with
  | ok a s' => exact ⟨(h.ok hm).1, hs s' (h.ok hm).2⟩
  | error e s' => exact hs s' (h.error hm)

theorem inScope (kind : ScopeKind) (parent : Option ScopeRef) (h : Balances P m) :
    Balances P (Eval.inScope kind parent m) := fun _ =>
  h.ensuring _ fun _ hs => ⟨rfl, hs.depth, hs.handling, Nat.le_trans (by simp [Scopes.enter]) hs.scopes,
    hs.steps, hs.loops⟩

theorem whileHandling (e : Error) (h : Balances P m) : Balances P (Eval.whileHandling e m) := by
  refine fun s => h.ensuring _ fun s' hs => ⟨hs.current, hs.depth, ?_, hs.scopes, hs.steps, hs.loops⟩
  simp only [stopHandling, hs.handling, startHandling, List.tail_cons]

theorem inCall (sb : Sandbox) (name : String) (span : Span) (scope : ScopeRef)
    (h : Balances P m) : Balances P (Eval.inCall sb name span scope m) := by
  have called : ∀ s : RunState, ∀ guard, guard.depth = s.guard.depth + 1 → s.guard.steps ≤ guard.steps →
      s.guard.loops ≤ guard.loops →
      match Eval.traced name span (Eval.ensuring (Eval.inScope .function scope m) leaveCall)
        { s with guard } with
      | .ok a s' => P a ∧ s.Balanced s'
      | .error _ s' => s.Balanced s' := by
    intro s guard hdepth hsteps hloops
    -- leaving the call takes back what entering it has added to the depth
    have left : ∀ s', RunState.Balanced { s with guard } s' → s.Balanced (leaveCall s') := by
      refine fun s' hs => ⟨hs.current, ?_, hs.handling, hs.scopes, Nat.le_trans hsteps hs.steps,
        Nat.le_trans hloops hs.loops⟩
      simp [leaveCall, Guard.exitCall, hs.depth, hdepth]
    have hleft := (h.inScope .function scope).ensuring leaveCall left
    simp only [Eval.traced]
    generalize Eval.ensuring (Eval.inScope .function scope m) leaveCall { s with guard } = r at hleft
    cases r <;> exact hleft
  intro s
  have hs : s.Balanced s := .refl s
  simp only [Eval.inCall, bind_apply, liftM, monadLift, MonadLift.monadLift, onGuard]
  rcases Guard.enterCall_cases sb.limits sb.clock s.guard with ⟨-, h⟩ | ⟨-, h | h⟩
  · simp only [h]
    exact hs
  · simp only [h]
    exact called s _ rfl (Nat.le_refl _) (Nat.le_refl _)
  · simp only [h]
    exact hs

theorem tick (l : Limits) (clock : Clock) :
    Balances (fun _ => True) (onGuard (Guard.tick l clock)) := by
  intro s
  have hs : s.Balanced { s with guard := { s.guard with steps := s.guard.steps + 1 } } :=
    ⟨rfl, rfl, rfl, Nat.le_refl _, Nat.le_succ _, Nat.le_refl _⟩
  simp only [onGuard]
  rcases Guard.tick_cases l clock s.guard with ⟨-, h⟩ | ⟨-, h | h⟩
  · simp only [h]
    exact hs
  · simp only [h]
    exact ⟨True.intro, hs⟩
  · simp only [h]
    exact hs

theorem tickLoop (l : Limits) (clock : Clock) :
    Balances (fun _ => True) (onGuard (Guard.tickLoop l clock)) := by
  intro s
  have hs : s.Balanced { s with guard := { s.guard with loops := s.guard.loops + 1 } } :=
    ⟨rfl, rfl, rfl, Nat.le_refl _, Nat.le_refl _, Nat.le_succ _⟩
  simp only [onGuard]
  rcases Guard.tickLoop_cases l clock s.guard with ⟨-, h⟩ | ⟨-, h | h⟩
  · simp only [h]
    exact hs
  · simp only [h]
    exact ⟨True.intro, hs⟩
  · simp only [h]
    exact hs

/-- A change that enters nothing, such as one of bindings. -/
theorem change {f : RunState → RunState} (h : ∀ s : RunState, s.Balanced (f s)) :
    Balances (fun _ => True) (modify f : Eval PUnit) := fun s => ⟨True.intro, h s⟩

theorem enterNative (l : Limits) (clock : Clock) :
    Balances (fun _ => True) (onGuard (Guard.enterNative l clock)) := by
  intro s
  simp only [onGuard]
  rcases Guard.enterNative_cases l clock s.guard with h | h
  · simp only [h]
    exact ⟨True.intro, rfl, rfl, rfl, Nat.le_refl _, Nat.le_refl _, Nat.le_refl _⟩
  · simp only [h]
    exact .refl s

theorem checkDeadline (l : Limits) (clock : Clock) (m : Moment) :
    Balances (fun _ => True) (liftM (Guard.checkDeadline l clock m) : Eval Unit) := by
  rcases Guard.checkDeadline_cases l clock m with h | h
  · rw [h]
    exact pure True.intro
  · rw [h]
    exact throw _

theorem callNative (sb : Sandbox) (f : CallContext → StoreM Value) :
    Balances (fun _ => True) (Eval.callNative sb f) := by
  refine (enterNative sb.limits sb.clock).bind fun number _ => ?_
  refine (onStore _ fun _ => True.intro).bind fun _ _ => ?_
  exact (checkDeadline sb.limits sb.clock _).bind fun _ _ => pure True.intro

theorem countRounds (sb : Sandbox) : ∀ n, Balances (fun _ => True) (Eval.countRounds sb n)
  | 0 => pure True.intro
  | n + 1 => (tickLoop sb.limits sb.clock).bind fun _ _ => countRounds sb n

theorem lookupBinding (sb : Sandbox) (name : String) :
    Balances (fun _ => True) (Eval.lookupBinding sb name) := by
  have get : Balances (fun _ => True) (MonadState.get : Eval RunState) := fun s =>
    ⟨True.intro, .refl s⟩
  refine get.bind fun s _ => ?_
  split
  · exact pure True.intro
  · split
    · exact throw _
    · exact pure True.intro
    · refine (onStore _ fun _ => True.intro).bind fun _ _ => ?_
      have copied := fun f : RunState → List (String × Value) =>
        change (f := fun s => { s with copies := f s }) fun s =>
          ⟨rfl, rfl, rfl, Nat.le_refl _, Nat.le_refl _, Nat.le_refl _⟩
      exact (copied _).bind fun _ _ => pure True.intro

end Eval.Balances

/-- Nothing is asked of functions, nor of the scopes that they capture. -/
theorem Norm.trivial_function (sb : Sandbox) (f : Closure) :
    (Norm.trivial sb.limits).good (.function f) ↔ True ∧ True :=
  ⟨fun h => ⟨h, True.intro⟩, And.left⟩

/-- Balance is kept by every construct. -/
def balance (sb : Sandbox) : Congruence sb sb where
  toNorm := .trivial sb.limits
  allows _ := True
  code _ := True
  reads _ := True
  held _ := True
  rounds _ := True
  inv _ := True
  rel P m _ := Balances P m
  allows_child _ _ := True.intro
  code_of _ _ := True.intro
  allows_code _ _ := True.intro
  fits_rest _ _ _ := True.intro
  fits_starred _ _ _ _ := True.intro
  good_function := Norm.trivial_function sb
  reads_name _ := True.intro
  errs_stray _ _ _ := True.intro
  pieces_text _ _ := True.intro
  pieces_call _ _ _ _ := True.intro
  inv_kept _ := Norm.kept_trivial _
  inv_binding _ _ := True.intro
  inv_handling _ _ := True.intro
  mono hP h := h.mono hP
  sure h hm := hm.sure h
  pure := .pure
  bind := .bind
  get s := ⟨True.intro, .refl s⟩
  throw _ := .throw _
  located := .located
  attempt h := h.attempt (fun _ h => h) fun _ => True.intro
  handling _ h := h.whileHandling _
  define _ := .change fun _ => .define _ _ _
  defineIn _ := .change fun _ => .defineIn _ _ _ _
  inScope kind _ _ h := h.inScope kind _
  inCall name span _ _ h := h.inCall sb name span _
  lookupBinding name _ := .lookupBinding sb name
  tickLoop := .tickLoop sb.limits sb.clock
  countRounds := .countRounds sb
  checkContainer n := .onStore (StoreM.ofExcept (sb.limits.size.checkContainer n)) fun _ => True.intro
  checkString n := .onStore (StoreM.ofExcept (sb.limits.size.checkString n)) fun _ => True.intro
  newId := .onStore _ fun _ => True.intro
  newList _ _ := .onStore _ fun _ => True.intro
  newDict _ _ := .onStore _ fun _ => True.intro
  newSet _ _ := .onStore _ fun _ => True.intro
  text _ _ _ _ := .onStore _ fun _ => True.intro
  convert _ _ := .onStore _ fun _ => True.intro
  format _ _ := .onStore _ fun _ => True.intro
  binary _ _ _ _ _ := .onStore _ fun _ => True.intro
  getItem _ _ := .onStore _ fun _ => True.intro
  getSlice _ _ := .onStore _ fun _ => True.intro
  setItem _ _ _ := .onStore _ fun _ => True.intro
  setSlice _ _ _ := .onStore _ fun _ => True.intro
  readAttribute _ _ := .onStore _ fun _ => True.intro
  callNative _ _ _ := .callNative sb _
  callObject _ := .callNative sb _
  callMethod _ _ := .onStore _ fun _ => True.intro

namespace balance

variable (sb : Sandbox)

theorem keepsSteps : (balance sb).KeepsSteps := Balances.tick sb.limits sb.clock

theorem keepsPlace : (balance sb).KeepsPlace := Congruence.keepsPlace _ fun _ => True.intro

theorem visits (depth : Nat) : (balance sb).Visits (visitWithin sb depth) (visitWithin sb depth) :=
  Congruence.visits (Congruence.keepsLoops rfl True.intro) (keepsSteps sb) rfl True.intro depth

theorem visit : (balance sb).Visits (Eval.visit sb) (Eval.visit sb) := visits sb _

end balance

/-- Every evaluation, however it ends, leaves the current scope, the depth of calls and the errors
being handled as they were when it started. -/
theorem evaluation_balanced (sb : Sandbox) (s : RunState) :
    (∀ e, s.Balanced ((expr sb e).after s)) ∧
    (∀ st, s.Balanced ((stmt sb st).after s)) ∧
    (∀ body, s.Balanced ((block (visit sb) body).after s)) ∧
    (∀ element nothing clauses, s.Balanced
      ((comprehend sb (visit sb) (collectElement (visit sb) element) nothing clauses).after s)) ∧
    (∀ key value nothing clauses, s.Balanced
      ((comprehend sb (visit sb) (collectEntry (visit sb) key value) nothing clauses).after s)) ∧
    (∀ callee args span, s.Balanced ((callValue sb (visit sb) callee args span).after s)) ∧
    (∀ m, s.Balanced ((module sb m).after s)) := by
  have hv := balance.visit sb
  have hplace := balance.keepsPlace sb
  have all : ∀ n, (balance sb).allows n := fun _ => True.intro
  have contents : ∀ out, (balance sb).GoodContents out := by
    intro out
    cases out with
    | dict entries => exact fun _ _ => ⟨True.intro, True.intro⟩
    | _ => exact fun _ _ => True.intro
  have targets : ∀ e, (balance sb).Target e := fun _ => ⟨True.intro, fun _ _ _ => True.intro⟩
  have collection : ∀ out, (balance sb).GoodCollection out := fun out => ⟨contents out, True.intro⟩
  have arguments : ∀ args, (balance sb).toNorm.GoodArgs args := fun _ =>
    ⟨fun _ _ => True.intro, fun _ _ => True.intro, True.intro⟩
  refine ⟨fun e => ?_, fun st => ?_, fun body => ?_, fun element nothing clauses => ?_,
    fun key value nothing clauses => ?_, fun callee args span => ?_, fun m => ?_⟩
  · exact Balances.after (hv.expr e True.intro) s
  · exact Balances.after (hv.stmt st True.intro) s
  · exact Balances.after ((balance sb).block hv fun _ _ => all _) s
  · exact Balances.after (Congruence.comprehend hplace hv (fun _ _ => Congruence.collectElement hv
      True.intro (contents _)) (collection _) (fun _ _ => all _) fun _ _ => targets _) s
  · exact Balances.after (Congruence.comprehend hplace hv (fun _ _ => Congruence.collectEntry hv
      (fun _ _ => all _) (contents _)) (collection _) (fun _ _ => all _) fun _ _ => targets _) s
  · exact Balances.after (Congruence.callValue hv span True.intro (arguments args)) s
  · exact Balances.after (Congruence.moduleFrom (balance.keepsSteps sb) hv True.intro
      fun _ _ => all _) s

end ScriptSandbox

import ScriptSandbox.Proofs.Congruence.Run
import ScriptSandbox.Proofs.Guard
import ScriptSandbox.Proofs.Norm.Builtin
import ScriptSandbox.Proofs.Norm.Host
import ScriptSandbox.Proofs.Norm.Method
import ScriptSandbox.Proofs.Norm.Subscript

/-!
# Invariants of runs

An `Invariant` is a norm for the values at hand together with a condition on the counters. It is
about states from which a run may go on: those in which nodes are visited. What is known where an
error has ended the run is a condition of its own, on the kind of the error and the counters.

Keeping an invariant is a congruence (`ScopedInvariant.congruence`), so it is enough to know what the
counting of visits, rounds and calls does to the counters. Two evaluations are related if they agree
at all states of which the invariant holds: evaluations that differ elsewhere only cannot be told
apart by a run.

A `ScopedInvariant` also says which scopes functions capture and new scopes lie in. It is kept where the
current scope is such a scope, which for an `Invariant` is everywhere.
-/

namespace ScriptSandbox

open Eval

/-- All values that a state refers to are good. -/
structure Norm.KeptRun {l : Limits} (N : Norm l) (s : RunState) : Prop where
  store : N.Kept s.store
  binding : ∀ r : ScopeRef, ∀ entry ∈ (s.scopes.scope r).bindings, N.good entry.2
  copies : ∀ entry ∈ s.copies, N.good entry.2
  handling : ∀ e ∈ s.handling, N.errs e.kind

/-- A run starts without names and errors. -/
theorem Norm.keptRun_start {l : Limits} {N : Norm l} {store : Store} (h : N.Kept store) :
    N.KeptRun (.start store) where
  store := h
  binding r entry he := by
    obtain ⟨_ | i⟩ := r
    · cases he
    · cases he
  copies _ he := by cases he
  handling _ he := by cases he

/-- Visits and rounds are counted upward only. -/
def Guard.Since (g g' : Guard) : Prop := g.steps ≤ g'.steps ∧ g.loops ≤ g'.loops

theorem Guard.Since.refl (g : Guard) : g.Since g := ⟨Nat.le_refl _, Nat.le_refl _⟩

theorem Guard.Since.trans {g g' g'' : Guard} (h : g.Since g') (h' : g'.Since g'') : g.Since g'' :=
  ⟨Nat.le_trans h.1 h'.1, Nat.le_trans h.2 h'.2⟩

/-- What holds of the states of a run in which functions and scopes are made in scopes of a sort. -/
structure ScopedInvariant (sb : Sandbox) extends Norm sb.limits where
  allows : Node → Prop
  code : FunctionCode → Prop
  /-- Names that are looked up. -/
  reads : String → Prop
  /-- Scopes that functions capture and that new scopes lie in. -/
  held : ScopeRef → Prop := fun _ => True
  /-- Statements of a module, outside of functions. -/
  top : Stmt → Prop
  counts : Guard → Prop
  /-- What is known of the counters behind an error of a kind. -/
  fails : ErrorKind → Guard → Prop
  -- scripts
  allows_child : ∀ {n m : Node}, allows n → m ∈ n.children → allows m
  code_of : ∀ {n : Node} {c : FunctionCode}, allows n → n.code? = some c → code c
  allows_code : ∀ {c : FunctionCode} {n : Node}, code c → n ∈ c.children → allows n
  fits_rest : ∀ {c : FunctionCode} (n : Nat), code c → c.params.kwarg.isSome = true → fits n
  /-- The list for a starred target is counted in rounds only. -/
  fits_starred : ∀ {n : Node} {e : Expr} {k : Nat}, allows n → e ∈ n.targets → e.HasStar →
    k ≤ sb.limits.maxLoopIterations → fits k
  good_function : ∀ f : Closure, good (.function f) ↔ code f.code ∧ held f.scope
  reads_name : ∀ {name : String} {span : Span}, allows (.expr ⟨.name name, span⟩) → reads name
  errs_stray : ∀ {d : FunctionDef} {g : Signal}, code (.definition d) → BlockSignals d.body g →
    g ≠ .return → errs g.stray.kind
  pieces_text : ∀ {parts : List Expr} {span : Span}, allows (.expr ⟨.joinedStr parts, span⟩) →
    BarePart parts → pieces
  pieces_call : ∀ {callee : Expr} {args : List Expr} {named : List Keyword} {span : Span}
    {f : NativeFunction}, allows (.expr ⟨.call callee args named, span⟩) → SeveralArguments args →
    good (.native f) → f.id = .builtin .print → pieces
  allows_top : ∀ {s : Stmt}, top s → allows (.stmt s)
  /-- A module fails where a signal leaves one of its statements. -/
  errs_top : ∀ {s : Stmt} {g : Signal}, top s → s.Signals g → errs g.stray.kind
  -- what the host brings
  lends : toNorm.Lends sb.host
  registered : ∀ {name : String} {v : HostValue}, sb.bindings.resolve? name = some (.value v) →
    v.Fits fits
  offered : ∀ {name : String} {f : NativeFunction}, reads name →
    sb.bindings.resolve? name = some (.function f) → good (.native f)
  -- counters
  counts_tick : ∀ {g : Guard}, counts g → g.steps + 1 ≤ sb.limits.maxSteps →
    Guard.tick sb.limits sb.clock g = .ok () { g with steps := g.steps + 1 } →
    counts { g with steps := g.steps + 1 }
  counts_loop : ∀ {g : Guard}, counts g → g.loops + 1 ≤ sb.limits.maxLoopIterations →
    Guard.tickLoop sb.limits sb.clock g = .ok () { g with loops := g.loops + 1 } →
    counts { g with loops := g.loops + 1 }
  counts_call : ∀ {g : Guard}, counts g → g.depth < sb.limits.maxCallDepth →
    Guard.enterCall sb.limits sb.clock g =
      .ok () { g with depth := g.depth + 1, calls := g.calls + 1 } →
    counts { g with depth := g.depth + 1, calls := g.calls + 1 }
  counts_native : ∀ {g : Guard}, counts g →
    Guard.enterNative sb.limits sb.clock g = .ok g.calls { g with calls := g.calls + 1 } →
    counts { g with calls := g.calls + 1 }
  counts_leave : ∀ {g : Guard}, counts g → counts g.exitCall
  fails_errs : ∀ {g : Guard} {k : ErrorKind}, counts g → errs k → fails k g
  fails_tick : ∀ {g : Guard}, counts g → sb.limits.maxSteps < g.steps + 1 →
    fails (.limitExceeded .steps sb.limits.maxSteps) { g with steps := g.steps + 1 }
  fails_loop : ∀ {g : Guard}, counts g → sb.limits.maxLoopIterations < g.loops + 1 →
    fails (.limitExceeded .loopIterations sb.limits.maxLoopIterations) { g with loops := g.loops + 1 }
  fails_call : ∀ {g : Guard}, counts g →
    fails (.limitExceeded .callDepth sb.limits.maxCallDepth) g
  /-- The step or the round that finds the deadline passed is counted. -/
  fails_lateTick : ∀ {g : Guard}, counts g → g.steps + 1 ≤ sb.limits.maxSteps →
    fails (.limitExceeded .timeout sb.limits.timeoutMillis) { g with steps := g.steps + 1 }
  fails_lateLoop : ∀ {g : Guard}, counts g → g.loops + 1 ≤ sb.limits.maxLoopIterations →
    fails (.limitExceeded .timeout sb.limits.timeoutMillis) { g with loops := g.loops + 1 }
  fails_leave : ∀ {g : Guard} {k : ErrorKind}, fails k g → fails k g.exitCall

/-- What holds of the states of a run, whatever scopes functions and scopes are made in. -/
structure Invariant (sb : Sandbox) extends ScopedInvariant sb where
  held_all : ∀ r, held r := by exact fun _ => True.intro

namespace ScopedInvariant

variable {sb : Sandbox} (I : ScopedInvariant sb) {α β : Type} {P : α → Prop} {Q : β → Prop}

/-- All scopes that other scopes lie in are held. -/
def Linked (s : Scopes) : Prop := ∀ r parent, (s.scope r).parent = some parent → I.held parent

/-- The invariant holds of a state. -/
structure holds (s : RunState) : Prop extends I.toNorm.KeptRun s where
  counts : I.counts s.guard
  linked : I.Linked s.scopes

/-- What holds of the end of an evaluation that has started at certain counters. Links are kept by
every error. -/
def Ends (P : α → Prop) (g : Guard) : EStateM.Result Error RunState α → Prop
  | .ok a s => P a ∧ I.holds s ∧ g.Since s.guard
  | .error e s => I.fails e.kind s.guard ∧
      (e.isCatchable = true → I.errs e.kind ∧ I.holds s ∧ g.Since s.guard) ∧ I.Linked s.scopes

/-- Two evaluations agree at a state, and they keep the invariant. -/
def KeepsAt (P : α → Prop) (m m' : Eval α) (s : RunState) : Prop :=
  m s = m' s ∧ I.Ends P s.guard (m s)

/-- Two evaluations agree wherever the invariant holds, and they keep it. -/
def Keeps (P : α → Prop) (m m' : Eval α) : Prop := ∀ s, I.holds s → I.KeepsAt P m m' s

variable {I}

theorem Ends.mono {P' : α → Prop} {g : Guard} {r : EStateM.Result Error RunState α}
    (h : I.Ends P g r) (hP : ∀ a, P a → P' a) : I.Ends P' g r := by
  cases r with
  | ok a s => exact ⟨hP a h.1, h.2⟩
  | error e s => exact h

theorem Ends.since {g g' : Guard} {r : EStateM.Result Error RunState α} (hg : g.Since g')
    (h : I.Ends P g' r) : I.Ends P g r := by
  cases r with
  | ok a s => exact ⟨h.1, h.2.1, hg.trans h.2.2⟩
  | error e s =>
    exact ⟨h.1, fun he => ⟨(h.2.1 he).1, (h.2.1 he).2.1, hg.trans (h.2.1 he).2.2⟩, h.2.2⟩

theorem Ends.fail {s : RunState} {e : Error} (hs : I.holds s) (he : I.errs e.kind) :
    I.Ends P s.guard (.error e s) :=
  ⟨I.fails_errs hs.counts he, fun _ => ⟨he, hs, .refl _⟩, hs.linked⟩

/-- A fatal error need not leave the invariant, but for the links of scopes. -/
theorem Ends.fatal {g : Guard} {s : RunState} {e : Error} (hfails : I.fails e.kind s.guard)
    (hlinked : I.Linked s.scopes) (he : e.isCatchable = false) : I.Ends P g (.error e s) :=
  ⟨hfails, fun h => absurd (he.symm.trans h) Bool.false_ne_true, hlinked⟩

theorem KeepsAt.bind {m m' : Eval α} {f f' : α → Eval β} {s : RunState} (h : I.KeepsAt P m m' s)
    (hf : ∀ a s', m s = .ok a s' → P a → I.holds s' → s.guard.Since s'.guard →
      I.KeepsAt Q (f a) (f' a) s') : I.KeepsAt Q (m >>= f) (m' >>= f') s := by
  obtain ⟨heq, hends⟩ := h
  unfold KeepsAt
  rw [bind_apply, bind_apply, ← heq]
  cases hr : m s with
  | ok a s' =>
    rw [hr] at hends
    obtain ⟨ha, hs', hsince⟩ := hends
    obtain ⟨heq', hends'⟩ := hf a s' hr ha hs' hsince
    exact ⟨heq', hends'.since hsince⟩
  | error e s' =>
    rw [hr] at hends
    exact ⟨rfl, hends⟩

/-- The place of an error and the calls it has passed do not matter. -/
theorem KeepsAt.tagged {m m' : Eval α} {s : RunState} (h : I.KeepsAt P m m' s) (tag : Error → Error)
    (htag : ∀ e, (tag e).kind = e.kind) {tagged : Eval α → Eval α}
    (heq : ∀ m s, tagged m s = match m s with
      | .ok a s' => .ok a s'
      | .error e s' => .error (tag e) s') : I.KeepsAt P (tagged m) (tagged m') s := by
  obtain ⟨hm, hends⟩ := h
  unfold KeepsAt
  rw [heq, heq, ← hm]
  refine ⟨rfl, ?_⟩
  cases hr : m s with
  | ok a s' =>
    rw [hr] at hends
    exact hends
  | error e s' =>
    rw [hr] at hends
    simpa only [Ends, Error.isCatchable, htag] using hends

theorem KeepsAt.located {m m' : Eval α} {s : RunState} (h : I.KeepsAt P m m' s) (span : Span) :
    I.KeepsAt P (Eval.located span m) (Eval.located span m') s := by
  refine h.tagged (·.located span) (fun e => ?_) fun _ _ => rfl
  unfold Error.located
  split <;> rfl

namespace Keeps

/-- An evaluation agrees with itself. -/
theorem of_ends {m : Eval α} (h : ∀ s, I.holds s → I.Ends P s.guard (m s)) : I.Keeps P m m :=
  fun s hs => ⟨rfl, h s hs⟩

theorem mono {P' : α → Prop} {m m' : Eval α} (h : I.Keeps P m m') (hP : ∀ a, P a → P' a) :
    I.Keeps P' m m' := fun s hs => ⟨(h s hs).1, (h s hs).2.mono hP⟩

theorem sure {P' : α → Prop} {m m' : Eval α} (hgives : Gives P' m) (h : I.Keeps P m m') :
    I.Keeps (fun a => P a ∧ P' a) m m' := by
  intro s hs
  obtain ⟨heq, hends⟩ := h s hs
  refine ⟨heq, ?_⟩
  cases hr : m s with
  | ok a s' =>
    rw [hr] at hends
    exact ⟨⟨hends.1, hgives s a s' hr⟩, hends.2⟩
  | error e s' =>
    rw [hr] at hends
    exact hends

theorem pure {a : α} (h : P a) : I.Keeps P (Pure.pure a) (Pure.pure a) :=
  of_ends fun _ hs => ⟨h, hs, .refl _⟩

theorem throw {e : Error} (he : I.errs e.kind) :
    I.Keeps P (MonadExcept.throw e) (MonadExcept.throw e) := of_ends fun _ hs => .fail hs he

theorem bind {m m' : Eval α} {f f' : α → Eval β} (h : I.Keeps P m m')
    (hf : ∀ a, P a → I.Keeps Q (f a) (f' a)) : I.Keeps Q (m >>= f) (m' >>= f') := fun s hs =>
  (h s hs).bind fun a s' _ ha hs' _ => hf a ha s' hs'

theorem get : I.Keeps I.holds MonadState.get MonadState.get :=
  of_ends fun _ hs => ⟨hs, hs, .refl _⟩

theorem located {m m' : Eval α} (span : Span) (h : I.Keeps P m m') :
    I.Keeps P (Eval.located span m) (Eval.located span m') := fun s hs => (h s hs).located span

theorem traced {m m' : Eval α} (name : String) (span : Span) (h : I.Keeps P m m') :
    I.Keeps P (Eval.traced name span m) (Eval.traced name span m') := fun s hs =>
  (h s hs).tagged (·.withFrame name span) (fun _ => rfl) fun _ _ => rfl

theorem attempt {m m' : Eval α} (h : I.Keeps P m m') :
    I.Keeps (fun r => match r with
      | .ok a => P a
      | .error e => I.errs e.kind) (attemptCatchable m) (attemptCatchable m') := by
  intro s hs
  obtain ⟨heq, hends⟩ := h s hs
  simp only [KeepsAt, attemptCatchable, ← heq, true_and]
  cases hr : m s with
  | ok a s' =>
    rw [hr] at hends
    exact hends
  | error e s' =>
    rw [hr] at hends
    dsimp only
    split
    · rename_i he
      exact hends.2.1 he
    · exact ⟨hends.1, fun he => absurd he ‹_›, hends.2.2⟩

/-- What is left behind an evaluation is part of the invariant as long as the run goes on. -/
theorem ensuring {m m' : Eval α} {leave : RunState → RunState} (h : I.Keeps P m m')
    (hleave : ∀ s, I.holds s → I.holds (leave s))
    (hsince : ∀ s : RunState, s.guard.Since (leave s).guard)
    (hfails : ∀ k (s : RunState), I.fails k s.guard → I.fails k (leave s).guard)
    (hlinked : ∀ s : RunState, I.Linked s.scopes → I.Linked (leave s).scopes) :
    I.Keeps P (Eval.ensuring m leave) (Eval.ensuring m' leave) := by
  intro s hs
  obtain ⟨heq, hends⟩ := h s hs
  simp only [KeepsAt, Eval.ensuring, ← heq, true_and]
  cases hr : m s with
  | ok a s' =>
    rw [hr] at hends
    exact ⟨hends.1, hleave s' hends.2.1, hends.2.2.trans (hsince s')⟩
  | error e s' =>
    rw [hr] at hends
    refine ⟨hfails _ s' hends.1, fun he => ?_, hlinked s' hends.2.2⟩
    obtain ⟨herr, hs', hg⟩ := hends.2.1 he
    exact ⟨herr, hleave s' hs', hg.trans (hsince s')⟩

theorem change {f : RunState → RunState} (h : ∀ s, I.holds s → I.holds (f s))
    (hguard : ∀ s : RunState, (f s).guard = s.guard) :
    I.Keeps (fun _ => True) (modify f : Eval PUnit) (modify f) := by
  refine of_ends fun s hs => ⟨True.intro, h s hs, ?_⟩
  rw [hguard]
  exact .refl _

end Keeps

/-! ## Changes of a state -/

namespace Linked

variable {s : Scopes}

theorem defineIn (h : I.Linked s) (r : ScopeRef) (name : String) (v : Value) :
    I.Linked (s.defineIn r name v) := fun r' =>
  Norm.entries_modify (P := fun scope : Scope => ∀ parent, scope.parent = some parent → I.held parent)
    (fun i => h ⟨i⟩) (fun scope hscope parent hparent => by
      have := h r
      simp only [Scopes.scope, hscope, Option.getD_some] at this
      exact this parent hparent) r'.index

theorem enter (h : I.Linked s) (kind : ScopeKind) {parent : ScopeRef} (hparent : I.held parent) :
    I.Linked (s.enter kind (some parent)) := fun r =>
  Norm.entries_push (P := fun scope : Scope => ∀ parent, scope.parent = some parent → I.held parent)
    (fun i => h ⟨i⟩) (fun _ hr => by cases hr; exact hparent) r.index

end Linked

namespace holds

variable {s : RunState} {v : Value}

theorem setStore (hs : I.holds s) {store : Store} (h : I.toNorm.Kept store) :
    I.holds { s with store } := ⟨⟨h, hs.binding, hs.copies, hs.handling⟩, hs.counts, hs.linked⟩

theorem setGuard (hs : I.holds s) {guard : Guard} (h : I.counts guard) :
    I.holds { s with guard } := ⟨⟨hs.store, hs.binding, hs.copies, hs.handling⟩, h, hs.linked⟩

theorem setScopes (hs : I.holds s) {scopes : Scopes}
    (h : ∀ r : ScopeRef, ∀ entry ∈ (scopes.scope r).bindings, I.good entry.2)
    (hlinked : I.Linked scopes) :
    I.holds { s with scopes } := ⟨⟨hs.store, h, hs.copies, hs.handling⟩, hs.counts, hlinked⟩

theorem mem_bind {name : String} {bindings : List (String × Value)} {entry : String × Value}
    (h : entry ∈ Scope.bind name v bindings) : entry ∈ bindings ∨ entry = (name, v) := by
  induction bindings with
  | nil => exact .inr (List.mem_singleton.1 h)
  | cons old rest ih =>
    rw [Scope.bind] at h
    split at h
    · rcases List.mem_cons.1 h with rfl | h
      · exact .inr rfl
      · exact .inl (List.mem_cons_of_mem _ h)
    · rcases List.mem_cons.1 h with rfl | h
      · exact .inl List.mem_cons_self
      · rcases ih h with h | h
        · exact .inl (List.mem_cons_of_mem _ h)
        · exact .inr h

theorem defineIn (hs : I.holds s) (r : ScopeRef) (name : String) (hv : I.good v) :
    I.holds { s with scopes := s.scopes.defineIn r name v } := by
  refine hs.setScopes (fun r' => ?_) (hs.linked.defineIn r name v)
  refine Norm.entries_modify (P := fun scope : Scope => ∀ entry ∈ scope.bindings, I.good entry.2)
    (fun i => hs.binding ⟨i⟩) (fun scope hscope entry he => ?_) r'.index
  rcases mem_bind he with he | rfl
  · have := hs.binding r
    simp only [Scopes.scope, hscope, Option.getD_some] at this
    exact this entry he
  · exact hv

theorem enter (hs : I.holds s) (kind : ScopeKind) {parent : ScopeRef} (hparent : I.held parent) :
    I.holds { s with scopes := s.scopes.enter kind (some parent) } := by
  refine hs.setScopes (fun r => ?_) (hs.linked.enter kind hparent)
  exact Norm.entries_push (P := fun scope : Scope => ∀ entry ∈ scope.bindings, I.good entry.2)
    (fun i => hs.binding ⟨i⟩) (fun _ he => by cases he) r.index

theorem addCopy (hs : I.holds s) (name : String) (hv : I.good v) :
    I.holds { s with copies := (name, v) :: s.copies } := by
  refine ⟨⟨hs.store, hs.binding, fun entry he => ?_, hs.handling⟩, hs.counts, hs.linked⟩
  rcases List.mem_cons.1 he with rfl | he
  · exact hv
  · exact hs.copies entry he

theorem startHandling (hs : I.holds s) {e : Error} (he : I.errs e.kind) :
    I.holds (Eval.startHandling e s) := by
  refine ⟨⟨hs.store, hs.binding, hs.copies, fun e' he' => ?_⟩, hs.counts, hs.linked⟩
  rcases List.mem_cons.1 he' with rfl | he'
  · exact he
  · exact hs.handling e' he'

theorem stopHandling (hs : I.holds s) : I.holds (Eval.stopHandling s) :=
  ⟨⟨hs.store, hs.binding, hs.copies, fun e he => hs.handling e (List.mem_of_mem_tail he)⟩,
    hs.counts, hs.linked⟩

theorem leaveCall (hs : I.holds s) : I.holds (Eval.leaveCall s) :=
  hs.setGuard (I.counts_leave hs.counts)

end holds

/-! ## The operations of an evaluation -/

namespace Keeps

theorem onStore {m : StoreM α} (h : I.toNorm.Sound P m) :
    I.Keeps P (Eval.onStore m) (Eval.onStore m) := by
  refine of_ends fun s hs => ?_
  have hm := h s.store hs.store
  unfold Norm.SoundAt at hm
  simp only [Eval.onStore]
  cases hr : m s.store with
  | ok a store =>
    rw [hr] at hm
    exact ⟨hm.1, hs.setStore hm.2, .refl _⟩
  | error e store =>
    rw [hr] at hm
    exact ⟨I.fails_errs hs.counts hm.1, fun he => ⟨hm.1, hs.setStore (hm.2 he), .refl _⟩, hs.linked⟩

theorem ofExcept {x : Except Error α} (h : I.toNorm.Holds P x) :
    I.Keeps P (liftM x : Eval α) (liftM x) := onStore (Norm.Sound.ofExcept h)

theorem inScope {m m' : Eval α} (kind : ScopeKind) {parent : ScopeRef} (hparent : I.held parent)
    (h : I.Keeps P m m') :
    I.Keeps P (Eval.inScope kind (some parent) m) (Eval.inScope kind (some parent) m') := by
  refine get.bind fun s hs => (change (fun s hs => hs.enter kind hparent) fun _ => rfl).bind
    fun _ _ => h.ensuring ?_ ?_ ?_ ?_
  · exact fun s hs => hs.setScopes hs.binding hs.linked
  · exact fun s => .refl _
  · exact fun k s hk => hk
  · exact fun s hlinked => hlinked

theorem handling {m m' : Eval α} {e : Error} (he : I.errs e.kind) (h : I.Keeps P m m') :
    I.Keeps P (whileHandling e m) (whileHandling e m') := by
  refine (change (fun s hs => hs.startHandling he) fun _ => rfl).bind fun _ _ => h.ensuring ?_ ?_ ?_ ?_
  · exact fun s hs => hs.stopHandling
  · exact fun s => .refl _
  · exact fun k s hk => hk
  · exact fun s hlinked => hlinked

theorem tickLoop : I.Keeps (fun _ => True) (onGuard (Guard.tickLoop sb.limits sb.clock))
    (onGuard (Guard.tickLoop sb.limits sb.clock)) := by
  refine of_ends fun s hs => ?_
  simp only [onGuard]
  rcases Guard.tickLoop_cases sb.limits sb.clock s.guard with ⟨hlt, h⟩ | ⟨hle, h | h⟩
  · simp only [h]
    exact .fatal (I.fails_loop hs.counts hlt) hs.linked rfl
  · simp only [h]
    exact ⟨True.intro, hs.setGuard (I.counts_loop hs.counts hle h), Nat.le_refl _, Nat.le_succ _⟩
  · simp only [h]
    exact .fatal (I.fails_lateLoop hs.counts hle) hs.linked rfl

theorem enterCall : I.Keeps (fun _ => True) (onGuard (Guard.enterCall sb.limits sb.clock))
    (onGuard (Guard.enterCall sb.limits sb.clock)) := by
  refine of_ends fun s hs => ?_
  simp only [onGuard]
  rcases Guard.enterCall_cases sb.limits sb.clock s.guard with ⟨-, h⟩ | ⟨hlt, h | h⟩
  · simp only [h]
    exact .fatal (I.fails_call hs.counts) hs.linked rfl
  · simp only [h]
    exact ⟨True.intro, hs.setGuard (I.counts_call hs.counts hlt h), .refl _⟩
  · simp only [h]
    exact .fatal (I.fails_errs hs.counts I.errs_timeout) hs.linked rfl

theorem inCall {m m' : Eval α} (name : String) (span : Span) {scope : ScopeRef}
    (hscope : I.held scope) (h : I.Keeps P m m') :
    I.Keeps P (Eval.inCall sb name span scope m) (Eval.inCall sb name span scope m') := by
  refine enterCall.bind fun _ _ => traced name span ((inScope .function hscope h).ensuring ?_ ?_ ?_ ?_)
  · exact fun s hs => hs.leaveCall
  · exact fun s => .refl _
  · exact fun k s hk => I.fails_leave hk
  · exact fun s hlinked => hlinked

theorem enterNative : I.Keeps (fun _ => True) (onGuard (Guard.enterNative sb.limits sb.clock))
    (onGuard (Guard.enterNative sb.limits sb.clock)) := by
  refine of_ends fun s hs => ?_
  simp only [onGuard]
  rcases Guard.enterNative_cases sb.limits sb.clock s.guard with h | h
  · simp only [h]
    exact ⟨True.intro, hs.setGuard (I.counts_native hs.counts h), .refl _⟩
  · simp only [h]
    exact .fatal (I.fails_errs hs.counts I.errs_timeout) hs.linked rfl

theorem checkDeadline (m : Moment) :
    I.Keeps (fun _ => True) (liftM (Guard.checkDeadline sb.limits sb.clock m) : Eval Unit)
      (liftM (Guard.checkDeadline sb.limits sb.clock m)) := by
  refine ofExcept ?_
  rcases Guard.checkDeadline_cases sb.limits sb.clock m with h | h
  · rw [h]
    exact True.intro
  · rw [h]
    exact I.errs_timeout

theorem callNative {f : CallContext → StoreM Value}
    (h : ∀ number, I.toNorm.Sound I.good (f (.ofCall sb.limits sb.clock number))) :
    I.Keeps I.good (Eval.callNative sb f) (Eval.callNative sb f) :=
  enterNative.bind fun number _ => (onStore (h number)).bind fun _ hv =>
    (checkDeadline (.behind number)).bind fun _ _ => pure hv

/-- A round that was counted was within the quota. -/
theorem tickLoop_ok {s s' : RunState} (h : onGuard (Guard.tickLoop sb.limits sb.clock) s = .ok () s') :
    s'.guard.loops = s.guard.loops + 1 ∧ s'.guard.loops ≤ sb.limits.maxLoopIterations := by
  simp only [onGuard] at h
  rcases Guard.tickLoop_cases sb.limits sb.clock s.guard with ⟨-, ht⟩ | ⟨hle, ht | ht⟩
  · simp [ht] at h
  · simp only [ht] at h
    cases h
    exact ⟨rfl, hle⟩
  · simp [ht] at h

/-- Counted rounds were within the quota. -/
theorem countRounds_ok : ∀ {n : Nat} {s s' : RunState}, Eval.countRounds sb n s = .ok () s' →
    n = 0 ∨ s'.guard.loops ≤ sb.limits.maxLoopIterations ∧ s.guard.loops + n = s'.guard.loops
  | 0, _, _, _ => .inl rfl
  | n + 1, s, s', h => by
    rw [Eval.countRounds, bind_apply] at h
    cases ht : onGuard (Guard.tickLoop sb.limits sb.clock) s with
    | error e s'' => simp [liftM, monadLift, MonadLift.monadLift, ht] at h
    | ok _ s'' =>
      simp only [liftM, monadLift, MonadLift.monadLift, ht] at h
      obtain ⟨hone, hmax⟩ := tickLoop_ok ht
      rcases countRounds_ok h with rfl | ⟨hmax', heq⟩
      · cases h
        exact .inr ⟨hmax, hone.symm⟩
      · exact .inr ⟨hmax', by omega⟩

theorem countRounds (n : Nat) : I.Keeps (fun _ => n ≤ sb.limits.maxLoopIterations) (Eval.countRounds sb n)
    (Eval.countRounds sb n) := by
  have counted : ∀ n, I.Keeps (fun _ => True) (Eval.countRounds sb n) (Eval.countRounds sb n) := by
    intro n
    induction n with
    | zero => exact pure True.intro
    | succ n ih => exact tickLoop.bind fun _ _ => ih
  refine of_ends fun s hs => ?_
  have hends := (counted n s hs).2
  cases hr : Eval.countRounds sb n s with
  | ok a s' =>
    rw [hr] at hends
    refine ⟨?_, hends.2⟩
    rcases countRounds_ok hr with rfl | ⟨hmax, heq⟩
    · exact Nat.zero_le _
    · omega
  | error e s' =>
    rw [hr] at hends
    exact hends

theorem lookupBinding (name : String) (hname : I.reads name) :
    I.Keeps I.good (Eval.lookupBinding sb name) (Eval.lookupBinding sb name) := by
  refine get.bind fun s hs => ?_
  split
  · rename_i value hvalue
    obtain ⟨before, behind, hsplit, -⟩ := List.lookup_eq_some_iff.1 hvalue
    exact pure (hs.copies (name, value) (by rw [hsplit]; simp))
  · split
    · exact throw (I.errs_plain _ rfl)
    · exact pure (I.offered hname ‹_›)
    · rename_i v hv
      refine (onStore (Norm.toValue (I.registered hv))).bind fun value hvalue => ?_
      exact (change (fun s hs => hs.addCopy name hvalue) fun _ => rfl).bind fun _ _ => pure hvalue

end Keeps

end ScopedInvariant

end ScriptSandbox

import ScriptSandbox.Proofs.Fatal
import ScriptSandbox.Proofs.Fresh.Builtin

/-!
# Where errors come from

An evaluation that catches no errors ends with the first visit inside it that fails, whatever the
other visits that fail would answer, and in this visit's error; else it succeeds, or it ends in an
error of its own. That is what `Conveys` says. Like a `Congruence` it is closed under sequencing,
scopes and handlers and holds of all operations on values; the modules of this directory go through
the constructs of the language. A congruence knows the kinds of errors only, while here the calls that
an error has passed are kept, too.
-/

namespace ScriptSandbox

open Eval

/-- Visits that answer as others do wherever these succeed. -/
def Visit.Follows (v v' : Visit) : Prop :=
  ∀ (n : Node) (t : RunState) (a : n.Result) (t' : RunState),
    v.node n t = .ok a t' → v'.node n t = .ok a t'

theorem Visit.Follows.refl (v : Visit) : v.Follows v := fun _ _ _ _ h => h

/-- The visit of a node at a state ends in an error. -/
def Visit.Fails (v : Visit) (n : Node) (t : RunState) : Prop := ∃ e t', v.node n t = .error e t'

/-- Visits that differ on a single visit that fails agree where the visits succeed. -/
theorem Visit.Fails.follows {v v' : Visit} {n : Node} {t : RunState} (h : v.Fails n t)
    (hoff : v.AgreesOff v' n t) : v.Follows v' := by
  intro k r a r' hr
  rw [hoff k r ?_, hr]
  rintro ⟨rfl, rfl⟩
  obtain ⟨e, t', he⟩ := h
  rw [he] at hr
  cases hr

/-- From one state to another no script call is entered or left, and steps are counted upward. -/
structure RunState.Onward (s t : RunState) : Prop where
  depth : t.guard.depth = s.guard.depth
  steps : s.guard.steps ≤ t.guard.steps

namespace RunState

variable {s t u : RunState}

theorem Onward.refl (s : RunState) : s.Onward s := ⟨rfl, Nat.le_refl _⟩

theorem Onward.trans (h : s.Onward t) (h' : t.Onward u) : s.Onward u :=
  ⟨h'.depth.trans h.depth, Nat.le_trans h.steps h'.steps⟩

theorem Onward.of_guard (h : s.Onward t) (hu : u.guard = t.guard) : s.Onward u :=
  ⟨by rw [hu, h.depth], by rw [hu]; exact h.steps⟩

theorem Balanced.onward (h : s.Balanced t) : s.Onward t := ⟨h.depth, h.steps⟩

/-- The state behind the counting of a visit. -/
def counted (s : RunState) : RunState :=
  { s with guard := { s.guard with steps := s.guard.steps + 1 } }

theorem onward_counted (s : RunState) : s.Onward s.counted := ⟨rfl, Nat.le_succ _⟩

end RunState

/-- A visit is counted, be it within the quota or not. -/
theorem tick_apply (sb : Sandbox) (s : RunState) :
    onGuard (Guard.tick sb.limits sb.clock) s = .ok () s.counted ∨
      ∃ e, e.Fresh ∧ onGuard (Guard.tick sb.limits sb.clock) s = .error e s.counted := by
  simp only [onGuard]
  rcases Guard.tick_cases sb.limits sb.clock s.guard with ⟨-, h⟩ | ⟨-, h | h⟩
  · exact .inr ⟨_, ⟨rfl, rfl⟩, by rw [h]; rfl⟩
  · exact .inl (by rw [h]; rfl)
  · exact .inr ⟨_, ⟨rfl, rfl⟩, by rw [h]; rfl⟩

/-- What happens to an error that leaves evaluations other than calls: it gets a place, and scopes and
handlers are left. -/
structure Passage where
  error : Error → Error
  state : RunState → RunState
  kind : ∀ e, (error e).kind = e.kind
  passed : ∀ e, (error e).passed = e.passed
  guard : ∀ s, (state s).guard = s.guard

namespace Passage

/-- Nothing is left. -/
def direct : Passage := ⟨id, id, fun _ => rfl, fun _ => rfl, fun _ => rfl⟩

theorem located_kind (e : Error) (span : Span) : (e.located span).kind = e.kind := by
  unfold Error.located
  split <;> rfl

theorem located_passed (e : Error) (span : Span) : (e.located span).passed = e.passed := by
  unfold Error.located
  split <;> rfl

/-- The error then gets a place. -/
def located (p : Passage) (span : Span) : Passage where
  error e := (p.error e).located span
  state := p.state
  kind e := (located_kind _ _).trans (p.kind e)
  passed e := (located_passed _ _).trans (p.passed e)
  guard := p.guard

/-- Something other than a call is then left. -/
def leaving (p : Passage) (leave : RunState → RunState) (h : ∀ s, (leave s).guard = s.guard) :
    Passage where
  error := p.error
  state s := leave (p.state s)
  kind := p.kind
  passed := p.passed
  guard s := (h _).trans (p.guard s)

end Passage

/-- How an evaluation ends that catches no errors. Its own errors are among `O`. -/
inductive ConveysAt (sb : Sandbox) (O : Error → Prop) {α : Type} (c : Visit → Eval α) (s : RunState) :
    Prop where
  /-- It succeeds, and no visit that fails plays a part. -/
  | ok (a : α) (s' : RunState) (onward : s.Onward s')
    (fixed : ∀ v, (visit sb).Follows v → c v s = .ok a s')
  /-- It fails, and no visit that fails plays a part. -/
  | own (e : Error) (s' : RunState) (onward : s.Onward s') (among : O e)
    (fixed : ∀ v, (visit sb).Follows v → c v s = .error e s')
  /-- It ends with the visit of a node that fails, in whatever error this visit ends. -/
  | handed (n : Node) (t : RunState) (p : Passage) (onward : s.Onward t)
    (fails : (visit sb).Fails n t)
    (answer : ∀ v, (visit sb).Follows v → ∀ e r, v.node n t = .error e r →
      c v s = .error (p.error e) (p.state r))

/-- An evaluation ends with the first visit inside it that fails, from whatever state. -/
def Conveys (sb : Sandbox) (O : Error → Prop) {α : Type} (c : Visit → Eval α) : Prop :=
  ∀ s, ConveysAt sb O c s

section Closure

variable {sb : Sandbox} {O O' : Error → Prop} {α β : Type} {c : Visit → Eval α} {s : RunState}

theorem ConveysAt.mono (hO : ∀ e, O e → O' e) (h : ConveysAt sb O c s) : ConveysAt sb O' c s := by
  cases h with
  | ok a s' onward fixed => exact .ok a s' onward fixed
  | own e s' onward among fixed => exact .own e s' onward (hO e among) fixed
  | handed n t p onward fails answer => exact .handed n t p onward fails answer

/-- What follows an evaluation need only be looked at where this succeeds. -/
theorem ConveysAt.bind {f : Visit → α → Eval β} (h : ConveysAt sb O c s)
    (hf : ∀ a s', c (visit sb) s = .ok a s' → s.Onward s' → ConveysAt sb O (fun v => f v a) s') :
    ConveysAt sb O (fun v => c v >>= f v) s := by
  cases h with
  | ok a s' onward fixed =>
    have run : ∀ v, (visit sb).Follows v → (c v >>= f v) s = f v a s' := fun v hv => by
      rw [bind_apply, fixed v hv]
    cases hf a s' (fixed _ (.refl _)) onward with
    | ok b s'' onward' fixed' =>
      exact .ok b s'' (onward.trans onward') fun v hv => (run v hv).trans (fixed' v hv)
    | own e s'' onward' among fixed' =>
      exact .own e s'' (onward.trans onward') among fun v hv => (run v hv).trans (fixed' v hv)
    | handed n t p onward' fails answer =>
      exact .handed n t p (onward.trans onward') fails fun v hv e r he =>
        (run v hv).trans (answer v hv e r he)
  | own e s' onward among fixed =>
    exact .own e s' onward among fun v hv => by rw [bind_apply, fixed v hv]
  | handed n t p onward fails answer =>
    exact .handed n t p onward fails fun v hv e r he => by rw [bind_apply, answer v hv e r he]

theorem ConveysAt.located (span : Span) (hO : ∀ e, O e → O (e.located span))
    (h : ConveysAt sb O c s) : ConveysAt sb O (fun v => located span (c v)) s := by
  cases h with
  | ok a s' onward fixed =>
    exact .ok a s' onward fun v hv => by simp only [Eval.located, fixed v hv]
  | own e s' onward among fixed =>
    exact .own _ s' onward (hO e among) fun v hv => by simp only [Eval.located, fixed v hv]
  | handed n t p onward fails answer =>
    refine .handed n t (p.located span) onward fails fun v hv e r he => ?_
    simp only [Eval.located, answer v hv e r he]
    rfl

namespace Conveys

theorem mono (hO : ∀ e, O e → O' e) (h : Conveys sb O c) : Conveys sb O' c := fun s => (h s).mono hO

theorem bind {f : Visit → α → Eval β} (h : Conveys sb O c) (hf : ∀ a, Conveys sb O fun v => f v a) :
    Conveys sb O fun v => c v >>= f v := fun s => (h s).bind fun a s' _ _ => hf a s'

/-- An evaluation without visits is as it is. -/
theorem fixed {m : Eval α}
    (h : ∀ s, match m s with
      | .ok _ s' => s.Onward s'
      | .error e s' => O e ∧ s.Onward s') : Conveys sb O fun _ => m := by
  intro s
  have hs := h s
  cases hm : m s with
  | ok a s' =>
    rw [hm] at hs
    exact .ok a s' hs fun _ _ => hm
  | error e s' =>
    rw [hm] at hs
    exact .own e s' hs.2 hs.1 fun _ _ => hm

theorem pure (a : α) : Conveys sb O fun _ => (Pure.pure a : Eval α) := fixed fun s => .refl s

theorem throw {e : Error} (h : O e) : Conveys sb O fun _ => (MonadExcept.throw e : Eval α) :=
  fixed fun s => ⟨h, .refl s⟩

theorem get : Conveys sb O fun _ => (MonadState.get : Eval RunState) := fixed fun s => .refl s

/-- A change that counts nothing. -/
theorem change {f : RunState → RunState} (h : ∀ s, (f s).guard = s.guard) :
    Conveys sb O fun _ => (modify f : Eval PUnit) := fixed fun s => .of_guard (.refl s) (h s)

theorem ensuring {leave : RunState → RunState} (h : Conveys sb O c)
    (hleave : ∀ s, (leave s).guard = s.guard) : Conveys sb O fun v => ensuring (c v) leave := by
  intro s
  cases h s with
  | ok a s' onward fixed =>
    exact .ok a (leave s') (onward.of_guard (hleave s')) fun v hv => by
      simp only [Eval.ensuring, fixed v hv]
  | own e s' onward among fixed =>
    exact .own e (leave s') (onward.of_guard (hleave s')) among fun v hv => by
      simp only [Eval.ensuring, fixed v hv]
  | handed n t p onward fails answer =>
    refine .handed n t (p.leaving leave hleave) onward fails fun v hv e r he => ?_
    simp only [Eval.ensuring, answer v hv e r he]
    rfl

theorem map {f : α → β} (h : Conveys sb O c) : Conveys sb O fun v => f <$> c v := by
  simp only [map_eq_pure_bind]
  exact h.bind fun a => pure (f a)

theorem inScope (kind : ScopeKind) (parent : Option ScopeRef) (h : Conveys sb O c) :
    Conveys sb O fun v => inScope kind parent (c v) := by
  refine get.bind fun s => bind (change ?_) fun _ => h.ensuring fun _ => rfl
  exact fun _ => rfl

theorem whileHandling (e : Error) (h : Conveys sb O c) :
    Conveys sb O fun v => whileHandling e (c v) := by
  unfold Eval.whileHandling
  refine bind (change ?_) fun _ => h.ensuring fun _ => rfl
  exact fun _ => rfl

/-! ## Visits -/

theorem node (n : Node) : Conveys sb O fun v => v.node n := by
  intro s
  cases hr : (visit sb).node n s with
  | ok a s' => exact .ok a s' ((balance.node sb n).ok hr).2.onward fun v hv => hv n s a s' hr
  | error e s' => exact .handed n s .direct (.refl s) ⟨e, s', hr⟩ fun _ _ _ _ he => he

theorem expr (e : Expr) : Conveys sb O fun v => v.expr e := node (.expr e)

theorem stmt (st : Stmt) : Conveys sb O fun v => v.stmt st := node (.stmt st)

theorem block : ∀ body : List Stmt, Conveys sb O fun v => block v body
  | [] => pure Flow.normal
  | st :: rest => by
    refine (stmt st).bind fun flow => ?_
    cases flow with
    | normal => exact block rest
    | _ => exact pure _

/-! ## Fresh errors -/

theorem located (span : Span) (h : Conveys sb Error.Fresh c) :
    Conveys sb Error.Fresh fun v => located span (c v) := fun s =>
  (h s).located span fun e he =>
    ⟨(Passage.located_passed e span).trans he.passed, by rw [Passage.located_kind, he.kind]⟩

theorem onStore {m : StoreM α} (h : FreshRun m) : Conveys sb Error.Fresh fun _ => onStore m := by
  refine fixed fun s => ?_
  simp only [Eval.onStore]
  cases hm : m s.store with
  | ok a store => exact .of_guard (.refl s) rfl
  | error e store => exact ⟨h _ _ _ hm, .of_guard (.refl s) rfl⟩

theorem look {f : Store → Except Error α} (h : ∀ s, Fresh (f s)) :
    Conveys sb Error.Fresh fun _ => look f := onStore (.look h)

theorem ofExcept {x : Except Error α} (h : Fresh x) :
    Conveys sb Error.Fresh fun _ => (liftM x : Eval α) := by
  cases x with
  | ok a => exact pure a
  | error e => exact throw (h e rfl)

theorem isTruthy (value : Value) : Conveys sb Error.Fresh fun _ => isTruthy value :=
  get.bind fun _ => pure _

theorem iterate (value : Value) : Conveys sb Error.Fresh fun _ => iterate value :=
  look fun _ => .iterate value

theorem currentScope : Conveys sb Error.Fresh fun _ => currentScope := get.bind fun _ => pure _

theorem define (name : String) (value : Value) : Conveys sb Error.Fresh fun _ => define name value :=
  change fun _ => rfl

theorem defineIn (r : ScopeRef) (name : String) (value : Value) :
    Conveys sb Error.Fresh fun _ => defineIn r name value := change fun _ => rfl

theorem newFunction (name : String) (doc : Option String) (code : FunctionCode) :
    Conveys sb Error.Fresh fun _ => newFunction name doc code :=
  (onStore .newId).bind fun _ => currentScope.bind fun _ => pure _

theorem lookupBinding (name : String) : Conveys sb Error.Fresh fun _ => lookupBinding sb name := by
  refine get.bind fun s => ?_
  split
  · exact pure _
  · split
    · exact throw ⟨rfl, rfl⟩
    · exact pure _
    · refine (onStore (.toValue _)).bind fun _ => bind (change ?_) fun _ => pure _
      exact fun _ => rfl

theorem lookup (name : String) : Conveys sb Error.Fresh fun _ => lookup sb name := by
  refine get.bind fun s => ?_
  dsimp only
  split
  · exact pure _
  · exact lookupBinding name

/-! ## Counters -/

theorem enterNative :
    Conveys sb Error.Fresh fun _ => onGuard (Guard.enterNative sb.limits sb.clock) := by
  refine fixed fun s => ?_
  simp only [onGuard]
  rcases Guard.enterNative_cases sb.limits sb.clock s.guard with h | h
  · simp only [h]
    exact ⟨rfl, Nat.le_refl _⟩
  · simp only [h]
    exact ⟨⟨rfl, rfl⟩, rfl, Nat.le_refl _⟩

theorem checkDeadline (m : Moment) :
    Conveys sb Error.Fresh fun _ => (liftM (Guard.checkDeadline sb.limits sb.clock m) : Eval Unit) := by
  refine ofExcept ?_
  rcases Guard.checkDeadline_cases sb.limits sb.clock m with h | h
  · rw [h]
    exact .ok ()
  · rw [h]
    exact .error ⟨rfl, rfl⟩

theorem tickLoop : Conveys sb Error.Fresh fun _ => onGuard (Guard.tickLoop sb.limits sb.clock) := by
  refine fixed fun s => ?_
  simp only [onGuard]
  rcases Guard.tickLoop_cases sb.limits sb.clock s.guard with ⟨-, h⟩ | ⟨-, h | h⟩
  · simp only [h]
    exact ⟨⟨rfl, rfl⟩, rfl, Nat.le_refl _⟩
  · simp only [h]
    exact ⟨rfl, Nat.le_refl _⟩
  · simp only [h]
    exact ⟨⟨rfl, rfl⟩, rfl, Nat.le_refl _⟩

theorem countRounds : ∀ n : Nat, Conveys sb Error.Fresh fun _ => countRounds sb n
  | 0 => pure ()
  | n + 1 => tickLoop.bind fun _ => countRounds n

theorem tick : Conveys sb Error.Fresh fun _ => onGuard (Guard.tick sb.limits sb.clock) := by
  refine fixed fun s => ?_
  rcases tick_apply sb s with h | ⟨e, he, h⟩
  · rw [h]
    exact s.onward_counted
  · rw [h]
    exact ⟨he, s.onward_counted⟩

theorem checkContainer (n : Nat) :
    Conveys sb Error.Fresh fun _ => (liftM (sb.limits.size.checkContainer n) : Eval Unit) :=
  ofExcept (.checkContainer _ n)

theorem checkString (n : Nat) :
    Conveys sb Error.Fresh fun _ => (liftM (sb.limits.size.checkString n) : Eval Unit) :=
  ofExcept (.checkString _ n)

/-! ## Rounds over items -/

theorem walkFrom {items : Items} {step : Visit → Value → Eval (Option α)}
    (h : ∀ x, Conveys sb Error.Fresh fun v => step v x) :
    ∀ left position, Conveys sb Error.Fresh fun v => walkFrom items (step v) position left
  | 0, _ => pure none
  | left + 1, position => by
    refine (h _).bind fun ended => ?_
    split
    · exact pure _
    · exact walkFrom h left (position + 1)

theorem foldFrom {items : Items} {step : Visit → α → Value → Eval α}
    (h : ∀ acc x, Conveys sb Error.Fresh fun v => step v acc x) :
    ∀ left acc position, Conveys sb Error.Fresh fun v => foldFrom items (step v) acc position left
  | 0, acc, _ => pure acc
  | left + 1, acc, position => (h acc _).bind fun acc => foldFrom h left acc (position + 1)

end Conveys

end Closure

end ScriptSandbox

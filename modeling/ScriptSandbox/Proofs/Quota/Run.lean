import ScriptSandbox.Proofs.Fatal
import ScriptSandbox.Proofs.Quota.Call

/-!
# Raised quotas: whole runs

A script that ends in anything but an exhausted quota ends in the same way under all greater quotas,
with the same state behind it (`run_eq_of_below`). The two runs go hand in hand: nothing that is
evaluated under the greater quotas differs before the first check fails under the smaller ones, and a
check that fails ends that run.
-/

namespace ScriptSandbox

open Eval

/-- Every quota of limits is at most that of other limits, and the attributes that scripts may read are
the same. -/
structure Limits.Below (l l' : Limits) : Prop where
  steps : l.maxSteps ≤ l'.maxSteps
  depth : l.maxCallDepth ≤ l'.maxCallDepth
  loops : l.maxLoopIterations ≤ l'.maxLoopIterations
  size : l.size.Below l'.size
  policy : l.attributePolicy = l'.attributePolicy

/-- The limits of a sandbox are below others, and neither run gets behind its deadline, as the clock of
each tells the time. -/
structure Sandbox.Below (sb : Sandbox) (l' : Limits) (clock' : Clock) : Prop
    extends sb.limits.Below l' where
  inTime : sb.clock.InTime sb.limits.timeout
  inTime' : clock'.InTime l'.timeout

/-- The context that a sandbox gives to the call of a number. -/
abbrev Sandbox.context (sb : Sandbox) (number : Nat) : CallContext :=
  .ofCall sb.limits sb.clock number

theorem CallContext.inTime_ofCall {l : Limits} {clock : Clock} (h : clock.InTime l.timeout)
    (number : Nat) : (CallContext.ofCall l clock number).InTime := fun look =>
  Nat.not_le.1 (of_decide_eq_false (h (.within number look)))

theorem Sandbox.Below.context {sb : Sandbox} {l' : Limits} {clock' : Clock} (h : sb.Below l' clock')
    (number : Nat) : (sb.context number).Below (.ofCall l' clock' number) :=
  ⟨h.size, CallContext.inTime_ofCall h.inTime number, CallContext.inTime_ofCall h.inTime' number⟩

/-- A host whose functions and objects use the quotas of a run, and the clock, only to refuse what is too
large or too late. -/
structure Host.Obliging (host : Host) (context context' : Nat → CallContext) : Prop where
  callFunction : ∀ (f : NativeFunction) (number : Nat) (args : Arguments), RunsUpToQuota
    (host.callFunction f (context number) args) (host.callFunction f (context' number) args)
  callObject : ∀ (o : ObjectHandle) (number : Nat) (args : Arguments), RunsUpToQuota
    (host.callObject o (context number) args) (host.callObject o (context' number) args)

/-! ## Evaluations -/

namespace RunsUpToQuota

variable {α β : Type} {m m' : Eval α}

theorem onStore {m m' : StoreM α} (h : RunsUpToQuota m m') :
    RunsUpToQuota (Eval.onStore m) (Eval.onStore m') := by
  rintro ⟨store, scopes, guard, copies, handling⟩
  simp only [Eval.onStore]
  obtain ⟨e, t, he, hquota⟩ | heq := h store
  · rw [he]
    exact .inl ⟨e, _, rfl, hquota⟩
  · rw [heq]
    exact .inr rfl

theorem onGuard {m m' : GuardM α} (h : RunsUpToQuota m m') :
    RunsUpToQuota (Eval.onGuard m) (Eval.onGuard m') := by
  rintro ⟨store, scopes, guard, copies, handling⟩
  simp only [Eval.onGuard]
  obtain ⟨e, t, he, hquota⟩ | heq := h guard
  · rw [he]
    exact .inl ⟨e, _, rfl, hquota⟩
  · rw [heq]
    exact .inr rfl

theorem located (span : Span) (h : RunsUpToQuota m m') :
    RunsUpToQuota (Eval.located span m) (Eval.located span m') := by
  have kind : ∀ e : Error, e.IsQuota → (e.located span).IsQuota := by
    intro e he
    unfold Error.located
    split <;> exact he
  intro s
  obtain ⟨e, t, he, hquota⟩ | heq := h s
  · exact .inl ⟨e.located span, t, by simp only [Eval.located, he], kind e hquota⟩
  · exact .inr (by simp only [Eval.located, heq])

theorem traced (name : String) (span : Span) (h : RunsUpToQuota m m') :
    RunsUpToQuota (Eval.traced name span m) (Eval.traced name span m') := by
  intro s
  obtain ⟨e, t, he, hquota⟩ | heq := h s
  · exact .inl ⟨e.withFrame name span, t, by simp only [Eval.traced, he], hquota⟩
  · exact .inr (by simp only [Eval.traced, heq])

/-- The error of an exhausted quota is not caught. -/
theorem attempt (h : RunsUpToQuota m m') :
    RunsUpToQuota (attemptCatchable m) (attemptCatchable m') := by
  intro s
  obtain ⟨e, t, he, hquota⟩ | heq := h s
  · exact .inl ⟨e, t, by simp [attemptCatchable, he, hquota.not_catchable], hquota⟩
  · exact .inr (by simp only [attemptCatchable, heq])

theorem ensuring (change : RunState → RunState) (h : RunsUpToQuota m m') :
    RunsUpToQuota (Eval.ensuring m change) (Eval.ensuring m' change) := by
  intro s
  obtain ⟨e, t, he, hquota⟩ | heq := h s
  · exact .inl ⟨e, change t, by simp only [Eval.ensuring, he], hquota⟩
  · exact .inr (by simp only [Eval.ensuring, heq])

theorem inScope (kind : ScopeKind) (parent : Option ScopeRef) (h : RunsUpToQuota m m') :
    RunsUpToQuota (Eval.inScope kind parent m) (Eval.inScope kind parent m') :=
  (refl MonadState.get).bind fun _ => (refl _).bind fun _ => h.ensuring _

theorem whileHandling (e : Error) (h : RunsUpToQuota m m') :
    RunsUpToQuota (Eval.whileHandling e m) (Eval.whileHandling e m') :=
  (refl _).bind fun _ => h.ensuring _

/-! ### Counters -/

variable {sb : Sandbox} {l' : Limits} {clock' : Clock}

theorem checkDeadline_eq {l : Limits} {clock : Clock} (h : clock.InTime l.timeout) (m : Moment) :
    Guard.checkDeadline l clock m = .ok () := Guard.checkDeadline_of_early (h m)

theorem guardPoll_eq {l : Limits} {clock : Clock} (h : clock.InTime l.timeout) (steps : Nat) :
    Guard.pollDeadline l clock steps = .ok () := by
  unfold Guard.pollDeadline
  rw [checkDeadline_eq h]
  exact ite_self _

theorem tick (h : sb.Below l' clock') :
    RunsUpToQuota (Guard.tick sb.limits sb.clock) (Guard.tick l' clock') := by
  intro g
  have := h.steps
  simp only [Guard.tick, guardPoll_eq h.inTime, guardPoll_eq h.inTime']
  split
  · exact .inl ⟨_, _, rfl, rfl⟩
  · rw [if_neg (by omega)]
    exact .inr rfl

theorem tickLoop (h : sb.Below l' clock') :
    RunsUpToQuota (Guard.tickLoop sb.limits sb.clock) (Guard.tickLoop l' clock') := by
  intro g
  have := h.loops
  simp only [Guard.tickLoop, checkDeadline_eq h.inTime, checkDeadline_eq h.inTime']
  split
  · exact .inl ⟨_, _, rfl, rfl⟩
  · rw [if_neg (by omega)]
    exact .inr rfl

theorem enterCall (h : sb.Below l' clock') :
    RunsUpToQuota (Guard.enterCall sb.limits sb.clock) (Guard.enterCall l' clock') := by
  intro g
  have := h.depth
  simp only [Guard.enterCall, checkDeadline_eq h.inTime, checkDeadline_eq h.inTime']
  split
  · exact .inl ⟨_, _, rfl, rfl⟩
  · rw [if_neg (by omega)]
    exact .inr rfl

theorem enterNative (h : sb.Below l' clock') :
    RunsUpToQuota (Guard.enterNative sb.limits sb.clock) (Guard.enterNative l' clock') := by
  intro g
  unfold Guard.enterNative
  rw [checkDeadline_eq h.inTime, checkDeadline_eq h.inTime']
  exact .inr rfl

theorem countRounds (sb' : Sandbox) (h : sb.Below sb'.limits sb'.clock) :
    ∀ n, RunsUpToQuota (Eval.countRounds sb n) (Eval.countRounds sb' n)
  | 0 => refl _
  | n + 1 => (tickLoop h).onGuard.bind fun _ => countRounds sb' h n

theorem inCall (sb' : Sandbox) (hl : sb.Below sb'.limits sb'.clock) (name : String)
    (span : Span) (scope : ScopeRef) (h : RunsUpToQuota m m') :
    RunsUpToQuota (Eval.inCall sb name span scope m) (Eval.inCall sb' name span scope m') :=
  (enterCall hl).onGuard.bind fun _ => ((h.inScope .function scope).ensuring leaveCall).traced name span

theorem callNative (sb' : Sandbox) (hl : sb.Below sb'.limits sb'.clock)
    {f f' : CallContext → StoreM Value}
    (h : ∀ number, RunsUpToQuota (f (sb.context number)) (f' (sb'.context number))) :
    RunsUpToQuota (Eval.callNative sb f) (Eval.callNative sb' f') := by
  refine (enterNative hl).onGuard.bind fun number => (h number).onStore.bind fun _ => ?_
  rw [checkDeadline_eq hl.inTime, checkDeadline_eq hl.inTime']
  exact refl _

end RunsUpToQuota

/-! ## Every construct -/

/-- The same sandbox under other limits, where the run has a clock of its own. -/
def Sandbox.under (sb : Sandbox) (l' : Limits) (clock' : Clock) : Sandbox :=
  { sb with limits := l', clock := clock' }

/-- An evaluation and the same one under raised quotas. -/
def Eased {α : Type} (P : α → Prop) (m m' : Eval α) : Prop := Balances P m ∧ RunsUpToQuota m m'

/-- No construct tells the greater quotas from the smaller ones before one of these is exhausted. -/
def eased {sb : Sandbox} {l' : Limits} {clock' : Clock} (hl : sb.Below l' clock')
    (hhost : sb.host.Obliging sb.context (.ofCall l' clock')) : Congruence sb (sb.under l' clock') where
  toNorm := .trivial sb.limits
  allows _ := True
  code _ := True
  reads _ := True
  held _ := True
  rounds _ := True
  inv _ := True
  rel := Eased
  allows_child _ _ := True.intro
  code_of _ _ := True.intro
  allows_code _ _ := True.intro
  fits_rest _ _ _ := True.intro
  fits_starred _ _ _ _ := True.intro
  good_function := Norm.trivial_function sb
  inv_kept hs := (balance sb).inv_kept hs
  reads_name _ := True.intro
  errs_stray _ _ _ := True.intro
  pieces_text _ _ := True.intro
  pieces_call _ _ _ _ := True.intro
  inv_binding _ _ := True.intro
  inv_handling _ _ := True.intro
  mono hP h := ⟨h.1.mono hP, h.2⟩
  sure hQ h := ⟨h.1.sure hQ, h.2⟩
  pure h := ⟨.pure h, .refl _⟩
  bind h hf := ⟨h.1.bind fun a ha => (hf a ha).1,
    h.2.bind_of_ok fun hm => (hf _ (h.1.ok hm).1).2⟩
  get := ⟨(balance sb).get, .refl _⟩
  throw _ := ⟨.throw _, .refl _⟩
  located span h := ⟨h.1.located span, h.2.located span⟩
  attempt h := ⟨h.1.attempt (fun _ h => h) fun _ => True.intro, h.2.attempt⟩
  handling _ h := ⟨h.1.whileHandling _, h.2.whileHandling _⟩
  define hv := ⟨(balance sb).define hv, .refl _⟩
  defineIn hv := ⟨(balance sb).defineIn hv, .refl _⟩
  inScope kind parent _ h := ⟨h.1.inScope kind parent, h.2.inScope kind parent⟩
  inCall name span scope _ h :=
    ⟨h.1.inCall sb name span scope, .inCall (sb.under l' clock') hl name span scope h.2⟩
  lookupBinding name hname := ⟨(balance sb).lookupBinding name hname, .refl _⟩
  tickLoop := ⟨(balance sb).tickLoop, (RunsUpToQuota.tickLoop hl).onGuard⟩
  countRounds n := ⟨(balance sb).countRounds n, .countRounds (sb.under l' clock') hl n⟩
  checkContainer n := ⟨(balance sb).checkContainer n,
    (RunsUpToQuota.ofExcept (.checkContainer hl.size n)).onStore⟩
  checkString n := ⟨(balance sb).checkString n,
    (RunsUpToQuota.ofExcept (.checkString hl.size n)).onStore⟩
  newId := ⟨(balance sb).newId, .refl _⟩
  newList hn _ := ⟨(balance sb).newList hn fun _ _ => True.intro, .refl _⟩
  newDict hn _ := ⟨(balance sb).newDict hn fun _ _ => ⟨True.intro, True.intro⟩, .refl _⟩
  newSet hn _ := ⟨(balance sb).newSet hn fun _ _ => True.intro, .refl _⟩
  text used _ hused hv := ⟨(balance sb).text used hused hv,
    (RunsUpToQuota.look fun _ => .text (Nat.sub_le_sub_right hl.size.string used) _).onStore⟩
  convert conversion hv := ⟨(balance sb).convert conversion hv,
    (RunsUpToQuota.look fun _ => .convert hl.size _ conversion).onStore⟩
  format spec hv := ⟨(balance sb).format spec hv,
    (RunsUpToQuota.look fun _ => .format hl.size _ spec).onStore⟩
  binary op _ _ ha hb := ⟨(balance sb).binary op ha hb, (RunsUpToQuota.binary hl.size op _ _).onStore⟩
  getItem hc hi := ⟨(balance sb).getItem hc hi, .refl _⟩
  getSlice bounds hc := ⟨(balance sb).getSlice bounds hc, .refl _⟩
  setItem hc hi hv := ⟨(balance sb).setItem hc hi hv,
    (RunsUpToQuota.setItem hl.size _ _ _).onStore⟩
  setSlice bounds hc hv := ⟨(balance sb).setSlice bounds hc hv,
    (RunsUpToQuota.setSlice hl.size _ bounds _).onStore⟩
  readAttribute attr hr := ⟨(balance sb).readAttribute attr hr, by
    show RunsUpToQuota _ (onStore (Attribute.read sb.host l'.attributePolicy _ attr))
    rw [← hl.policy]
    exact .refl _⟩
  callNative {f args} _ _ _ := ⟨.callNative sb _, .callNative (sb.under l' clock') hl fun number => by
    split
    · exact .callBuiltin (hl.context number) _ args
    · exact hhost.callFunction f number args⟩
  callObject {o args} _ := ⟨.callNative sb _, .callNative (sb.under l' clock') hl fun number =>
    hhost.callObject o number args⟩
  callMethod _ _ := ⟨.onStore _ fun _ => True.intro, (RunsUpToQuota.callMethod hl.size _ _ _).onStore⟩

namespace eased

variable {sb : Sandbox} {l' : Limits} {clock' : Clock} (hl : sb.Below l' clock')
  (hhost : sb.host.Obliging sb.context (.ofCall l' clock'))

theorem keepsSteps : (eased hl hhost).KeepsSteps :=
  ⟨balance.keepsSteps sb, (RunsUpToQuota.tick hl).onGuard⟩

/-- A loop may take more rounds under greater quotas, but it gets there only once a quota is
exhausted under the smaller ones. -/
theorem keepsLoops : (eased hl hhost).KeepsLoops := by
  intro v v' test body orelse htest hbody horelse
  let C := eased hl hhost
  have rounds : ∀ n n' : Nat, n ≤ n' → C.rel C.GoodFlow
      (whileRounds sb v test body orelse n)
      (whileRounds (sb.under l' clock') v' test body orelse n') := by
    intro n
    induction n with
    | zero =>
      exact fun n' _ => ⟨.throw _, fun s => .inl ⟨_, s, rfl, rfl⟩⟩
    | succ n ih =>
      intro n' hn
      obtain ⟨k, rfl⟩ : ∃ k, n' = k + 1 := ⟨n' - 1, by omega⟩
      refine C.bind htest fun value _ => C.bind (C.isTruthy value) fun holds _ => ?_
      cases holds with
      | false => exact horelse
      | true =>
        refine C.bind C.tickLoop fun _ _ => C.bind hbody fun flow hflow => ?_
        have hended := Congruence.afterRound hflow
        split
        · rename_i ended heq
          exact C.pure (hended ended heq)
        · exact ih k (Nat.le_of_succ_le_succ hn)
  exact rounds _ _ (Nat.succ_le_succ hl.loops)

theorem visits : ∀ depth depth' : Nat, depth ≤ depth' →
    (eased hl hhost).Visits (visitWithin sb depth) (visitWithin (sb.under l' clock') depth')
  | 0, _, _ =>
    have fails : ∀ {α : Type} {P : α → Prop} {m : Eval α},
        Eased P (MonadExcept.throw (.limitExceeded .steps sb.limits.maxSteps)) m :=
      ⟨.throw _, fun s => .inl ⟨_, s, rfl, rfl⟩⟩
    ⟨visitWithin_lawful sb 0, fun _ _ => fails, fun _ _ => fails⟩
  | depth + 1, depth' + 1, h => Congruence.visits_next (keepsLoops hl hhost) (keepsSteps hl hhost)
      (visits depth depth' (Nat.le_of_succ_le_succ h))

end eased

/-- Raising the quotas changes nothing about a script that no quota stops: it gives the same value or
ends in the same error, and leaves the same state, with what it printed, its counters and its
containers. -/
theorem run_eq_of_below {sb : Sandbox} {l' : Limits} {clock' : Clock} (hl : sb.Below l' clock')
    (hhost : sb.host.Obliging sb.context (.ofCall l' clock')) (m : Module) (store : Store)
    (h : ∀ quota, ¬EndedBy quota (run sb m store).1) :
    run (sb.under l' clock') m store = run sb m store := by
  have hmodule : Eased (fun _ => True) (module sb m) (module (sb.under l' clock') m) :=
    Congruence.moduleFrom (C := eased hl hhost) (eased.keepsSteps hl hhost)
      (eased.visits hl hhost _ _ (Nat.succ_le_succ hl.steps)) True.intro fun _ _ => True.intro
  unfold run at h ⊢
  obtain ⟨e, t, he, hquota⟩ | heq := hmodule.2 (.start store)
  · rw [he] at h
    obtain ⟨quota, hkind⟩ := Option.isSome_iff_exists.1 hquota
    exact absurd ⟨e, rfl, hkind⟩ (h quota)
  · rw [heq]

/-! ### An object that counts its arguments -/

/-- A host whose objects give the number of their arguments, which have to fit a container. -/
def countingHost : Host :=
  { Host.bare with
    callObject := fun _ ctx args => do
      ctx.limits.checkContainer args.positional.length
      pure (.int (Int64.ofNat args.positional.length)) }

/-- The function `sum` and an object `count` under small quotas. -/
def frugal : Sandbox :=
  ⟨{ Limits.standard with
      maxSteps := 9
      size := { Limits.standard.size with maxContainerSize := 2 } },
    ⟨[("sum", .function Builtin.sum.native), ("count", .value (.object ⟨0, "Count", "count"⟩))]⟩,
    countingHost, .stopped⟩

/-- The script `sum([count(1, 2)])`. -/
def countedSum : Module :=
  ⟨[Syntax.Build.exprStmt (Syntax.Build.call (Syntax.Build.name "sum") [Syntax.Build.list [
    Syntax.Build.call (Syntax.Build.name "count") [Syntax.Build.int 1, Syntax.Build.int 2]]])]⟩

theorem countingHost_obliging {context context' : Nat → CallContext}
    (h : ∀ number, (context number).Below (context' number)) :
    countingHost.Obliging context context' where
  callFunction _ _ _ := .refl _
  callObject _ number _ :=
    (RunsUpToQuota.ofExcept (.checkContainer (h number).limits _)).bind fun _ => .refl _

theorem frugal_below : frugal.Below .standard .stopped where
  steps := by decide
  depth := Nat.le_refl _
  loops := Nat.le_refl _
  size := ⟨Nat.le_refl _, by decide, Nat.le_refl _, Nat.le_refl _⟩
  policy := rfl
  inTime := Clock.inTime_stopped (by decide)
  inTime' := Clock.inTime_stopped (by decide)

/-- Nine steps and two elements are enough for the script, so it ends alike under the usual quotas. -/
theorem countedSum_alike : frugal.Below .standard .stopped ∧
    frugal.host.Obliging frugal.context (.ofCall .standard .stopped) ∧
    (run frugal countedSum .empty).1 = .ok (.int 2) ∧
    run (frugal.under .standard .stopped) countedSum .empty = run frugal countedSum .empty := by
  have result : (run frugal countedSum .empty).1 = .ok (.int 2) := by
    with_unfolding_all rfl
  have obliging := countingHost_obliging frugal_below.context
  refine ⟨frugal_below, obliging, result, ?_⟩
  refine run_eq_of_below frugal_below obliging countedSum .empty ?_
  rintro quota ⟨e, he, -⟩
  rw [result] at he
  cases he

end ScriptSandbox

import ScriptSandbox.Proofs.Visit

/-!
# Profiles of scripts

Which errors a script may end in depends on what the script consists of and on the functions in the
values at hand. A `Profile` names the sort of the nodes, of the native functions and of the errors.
Script functions have code from such nodes, so the profile is an invariant (`Profile.invariant`), and
a run ends in no other error (`Profile.run_errs`).
-/

namespace ScriptSandbox

open Eval

/-- The maximum that limits set for a quota, in milliseconds for the time. -/
def Limits.configured (l : Limits) : Quota → Nat
  | .steps => l.maxSteps
  | .callDepth => l.maxCallDepth
  | .loopIterations => l.maxLoopIterations
  | .stringLength => l.size.maxStringLength
  | .containerSize => l.size.maxContainerSize
  | .timeout => l.timeoutMillis
  | .powerBase => l.size.maxPowerBase
  | .power => l.size.maxPower

/-! ## Code from nodes of a sort -/

/-- A node and all nodes inside it are of a sort. -/
def Node.All (P : Node → Prop) (n : Node) : Prop := ∀ m, n.Part m → P m

/-- Code of a function that is made by a node of a sort, and so are all nodes in it. -/
def FunctionCode.Of (P : Node → Prop) (c : FunctionCode) : Prop :=
  ∃ n : Node, n.All P ∧ n.code? = some c

section Nodes

variable {P : Node → Prop} {n m : Node} {c : FunctionCode}

theorem Node.All.self (h : n.All P) : P n := h n (.refl n)

theorem Node.All.child (h : n.All P) (hm : m ∈ n.children) : m.All P := fun k hk => h k (.step hm hk)

theorem Node.all_of_children (hn : P n) (h : ∀ m ∈ n.children, m.All P) : n.All P := by
  intro m hm
  cases hm with
  | refl => exact hn
  | step hk hm => exact h _ hk m hm

theorem Node.all_of_leaf (h : P n) (hn : n.children = []) : n.All P := by
  intro m hm
  cases hm with
  | refl => exact h
  | step hk _ =>
    rw [hn] at hk
    cases hk

theorem FunctionCode.Of.child (h : c.Of P) (hm : m ∈ c.children) : m.All P := by
  obtain ⟨n, hn, hc⟩ := h
  exact hn.child (by rwa [Node.children_of_code? hc])

theorem FunctionCode.of_forall (h : ∀ n, P n) (c : FunctionCode) : c.Of P := by
  cases c with
  | definition d => exact ⟨.stmt ⟨.functionDef d, .dummy⟩, fun m _ => h m, rfl⟩
  | lambda l => exact ⟨.expr ⟨.lambda l.params l.body, .dummy⟩, fun m _ => h m, rfl⟩

end Nodes

/-! ## Functions in values -/

/-- The functions in a value have code of a sort or are native functions of a sort. What a list, a dict
or a set holds is in the store. -/
inductive Value.Made (code : FunctionCode → Prop) (lent : NativeFunction → Prop) : Value → Prop where
  | data {v : Value} : v.isData = true → v.Made code lent
  | function {f : Closure} : code f.code → (Value.function f).Made code lent
  | native {f : NativeFunction} : lent f → (Value.native f).Made code lent
  | tuple {id : Nat} {items : Array Value} : (∀ x ∈ items, x.Made code lent) →
    (Value.tuple id items).Made code lent
  | method {id : Nat} {receiver : Value} {name : String} : receiver.Made code lent →
    (Value.method id receiver name).Made code lent

namespace Value

variable {code : FunctionCode → Prop} {lent : NativeFunction → Prop}

theorem made_function {f : Closure} : (function f).Made code lent ↔ code f.code := by
  refine ⟨fun h => ?_, .function⟩
  cases h with
  | data h => cases h
  | function h => exact h

theorem made_native {f : NativeFunction} : (native f).Made code lent ↔ lent f := by
  refine ⟨fun h => ?_, .native⟩
  cases h with
  | data h => cases h
  | native h => exact h

/-- Where all functions will do, all values will. -/
theorem made_of_forall (hcode : ∀ c, code c) (hlent : ∀ f, lent f) : ∀ v : Value, v.Made code lent
  | .function f => .function (hcode f.code)
  | .native f => .native (hlent f)
  | .tuple _ items => .tuple fun x _ => made_of_forall hcode hlent x
  | .method _ receiver _ => .method (made_of_forall hcode hlent receiver)
  | .null | .bool _ | .int _ | .float _ | .str _ | .list _ | .dict _ | .set _ | .range _
  | .object _ => .data rfl
termination_by v => sizeOf v
decreasing_by
  · have := Array.sizeOf_lt_of_mem ‹x ∈ items›
    simp only [tuple.sizeOf_spec]
    omega
  · simp only [method.sizeOf_spec]
    omega

end Value

/-! ## Profiles -/

/-- What scripts consist of, and the errors that may come up in their runs. -/
structure Profile (sb : Sandbox) where
  node : Node → Prop
  native : NativeFunction → Prop
  /-- Texts may be put together of pieces. -/
  pieces : Prop
  errs : ErrorKind → Prop
  errs_plain : ∀ k : ErrorKind, k.isPlain = true → errs k
  errs_raised : ∀ v : Value, errs (.raised v)
  errs_quota : ∀ quota : Quota, errs (.limitExceeded quota (sb.limits.configured quota))
  errs_piece : ∀ {n : Nat}, pieces → n ≤ sb.limits.size.maxStringLength →
    errs (.limitExceeded .stringLength n)
  errs_stray : ∀ {n : Node} {d : FunctionDef} {g : Signal}, node n → n.code? = some (.definition d) →
    BlockSignals d.body g → g ≠ .return → errs g.stray.kind
  pieces_text : ∀ {parts : List Expr} {span : Span}, node (.expr ⟨.joinedStr parts, span⟩) →
    BarePart parts → pieces
  pieces_call : ∀ {callee : Expr} {args : List Expr} {named : List Keyword} {span : Span}
    {f : NativeFunction}, node (.expr ⟨.call callee args named, span⟩) → SeveralArguments args →
    native f → f.id = .builtin .print → pieces
  offered : ∀ {name : String} {span : Span} {f : NativeFunction},
    node (.expr ⟨.name name, span⟩) → sb.bindings.resolve? name = some (.function f) → native f

namespace Profile

variable {sb : Sandbox} (p : Profile sb)

/-- Code of the script functions that may come up. -/
def code : FunctionCode → Prop := FunctionCode.Of p.node

/-- The values and errors of a profile. -/
def norm : Norm sb.limits where
  good := Value.Made p.code p.native
  fits _ := True
  errs := p.errs
  good_data _ := .data
  good_tuple _ _ _ := .tuple
  good_items h := by
    cases h with
    | data h => cases h
    | tuple h => exact h
  fits_items _ := True.intro
  good_method _ _ _ _ _ := .method
  fits_of_le _ := True.intro
  fits_mono _ _ := True.intro
  fits_two := True.intro
  errs_plain := p.errs_plain
  errs_raised _ := p.errs_raised _
  errs_container := p.errs_quota .containerSize
  errs_string := p.errs_quota .stringLength
  pieces := p.pieces
  errs_piece := p.errs_piece
  errs_powerBase := p.errs_quota .powerBase
  errs_power := p.errs_quota .power
  errs_timeout := p.errs_quota .timeout

/-- A statement of a module whose nodes are of the profile's sort. -/
structure Top (s : Stmt) : Prop where
  nodes : (Node.stmt s).All p.node
  stray : ∀ {g : Signal}, s.Signals g → p.errs g.stray.kind

/-- A profile holds throughout every run. -/
def invariant (hhost : p.norm.Lends sb.host) : Invariant sb :=
  { Invariant.trivial sb with
    toNorm := p.norm
    allows := Node.All p.node
    code := p.code
    reads := fun name => ∃ span, p.node (.expr ⟨.name name, span⟩)
    top := p.Top
    fails := fun kind _ => p.errs kind
    allows_child := Node.All.child
    code_of := fun h hc => ⟨_, h, hc⟩
    allows_code := FunctionCode.Of.child
    fits_rest := fun _ _ _ => True.intro
    fits_starred := fun _ _ _ _ => True.intro
    good_function := fun _ => Value.made_function.trans (and_iff_left True.intro).symm
    reads_name := fun h => ⟨_, h.self⟩
    errs_stray := fun ⟨_, hn, hd⟩ => p.errs_stray hn.self hd
    pieces_text := fun h => p.pieces_text h.self
    pieces_call := fun h hargs hf => p.pieces_call h.self hargs (Value.made_native.1 hf)
    allows_top := fun h => h.nodes
    errs_top := fun h => h.stray
    lends := hhost
    registered := fun {_ v} _ => show v.Fits p.norm.fits from
      HostValue.fits_of_forall (fun _ => True.intro) v
    offered := fun ⟨_, hname⟩ hf => .native (p.offered hname hf)
    fails_errs := fun _ h => h
    fails_tick := fun _ _ => p.errs_quota .steps
    fails_loop := fun _ _ => p.errs_quota .loopIterations
    fails_call := fun _ => p.errs_quota .callDepth
    fails_lateTick := fun _ _ => p.errs_quota .timeout
    fails_lateLoop := fun _ _ => p.errs_quota .timeout
    fails_leave := fun h => h }

variable {p}

theorem holds (hhost : p.norm.Lends sb.host) {s : RunState} (hs : p.norm.KeptRun s) :
    (p.invariant hhost).holds s := Invariant.holds_of _ hs True.intro

/-- Without a step left, too, visits fail as the profile allows. -/
theorem visits (hhost : p.norm.Lends sb.host) :
    (p.invariant hhost).congruence.Visits (visit sb) (visit sb) :=
  Congruence.visits (C := (p.invariant hhost).congruence) ScopedInvariant.keepsLoops
    ScopedInvariant.keepsSteps rfl (p.errs_quota .steps) _

/-- A run ends in no error but those of the profile. -/
theorem run_errs (hhost : p.norm.Lends sb.host) {m : Module} (hm : ∀ st ∈ m.body, p.Top st)
    {store : Store} (hstore : p.norm.Kept store) {e : Error} (he : (run sb m store).1 = .error e) :
    p.errs e.kind := by
  have hstart : (p.invariant hhost).running.holds (.start store) :=
    Invariant.running_holds.2 ⟨holds hhost (Norm.keptRun_start hstore), Nat.zero_le _⟩
  have hends := Invariant.module_ends hstart hm
  unfold run at he
  cases hr : module sb m (.start store) with
  | ok v s =>
    rw [hr] at he
    cases he
  | error e' s =>
    rw [hr] at he hends
    cases he
    exact hends.1

end Profile

end ScriptSandbox

import ScriptSandbox.Proofs.Visit
import ScriptSandbox.Syntax.Build

/-!
# Sizes of containers

Not every construct holds the containers it makes against the quota on their size: pairs are made
without a look at it, the list for a starred target is bounded by the quota of rounds alone, and the
dict for a keyword rest by none. What a run keeps to is a bound that is no smaller than the quota and
admits pairs, if no function takes a keyword rest, and no target is starred unless the bound is that
of rounds, too (`containers_within`). Where this may be the quota itself, the quota holds.
-/

namespace ScriptSandbox

open Eval

/-- All tuples in a value have at most `bound` items, and all functions in it have code of a sort. -/
inductive Value.Sized (bound : Nat) (code : FunctionCode → Prop) : Value → Prop where
  | flat {v : Value} : v.isFlat = true → v.Sized bound code
  | tuple {id : Nat} {items : Array Value} : items.size ≤ bound →
    (∀ x ∈ items, x.Sized bound code) → (Value.tuple id items).Sized bound code
  | function {f : Closure} : code f.code → (Value.function f).Sized bound code
  | method {id : Nat} {receiver : Value} {name : String} : receiver.Sized bound code →
    (Value.method id receiver name).Sized bound code

/-- All containers hold at most `bound` elements. -/
def Norm.sized {l : Limits} {bound : Nat} (hquota : l.size.maxContainerSize ≤ bound)
    (hpairs : 2 ≤ bound) (code : FunctionCode → Prop) : Norm l where
  good := Value.Sized bound code
  fits n := n ≤ bound
  errs k := ∀ v, k = .raised v → v.Sized bound code
  good_data _ h := .flat (Value.isFlat_of_isData h)
  good_tuple _ _ := .tuple
  good_items h := by
    cases h with
    | flat h => cases h
    | tuple _ h => exact h
  fits_items h := by
    cases h with
    | flat h => cases h
    | tuple h _ => exact h
  good_method _ _ _ _ _ := .method
  fits_of_le h := Nat.le_trans h hquota
  fits_mono h h' := Nat.le_trans h h'
  fits_two := hpairs
  errs_plain k hk v h := by
    subst h
    cases hk
  errs_raised h v hv := by
    cases hv
    exact h
  errs_container _ h := by cases h
  errs_string _ h := by cases h
  pieces := True
  errs_piece _ _ _ h := by cases h
  errs_powerBase _ h := by cases h
  errs_power _ h := by cases h
  errs_timeout _ h := by cases h

theorem Value.sized_function {bound : Nat} {code : FunctionCode → Prop} {f : Closure} :
    (Value.function f).Sized bound code ↔ code f.code := by
  refine ⟨fun h => ?_, .function⟩
  cases h with
  | flat h => cases h
  | function h => exact h

/-! ## Scripts -/

/-- At a node and inside it, no function takes a keyword rest, and a target is starred only if the
quota of rounds is within the bound. -/
def Node.Bounded (l : Limits) (bound : Nat) (n : Node) : Prop :=
  ∀ m, n.Part m → (∀ c, m.code? = some c → c.params.kwarg = none) ∧
    (∀ e ∈ m.targets, e.HasStar → l.maxLoopIterations ≤ bound)

/-- A function takes no keyword rest, and all nodes in it are bounded. -/
def FunctionCode.Bounded (l : Limits) (bound : Nat) (c : FunctionCode) : Prop :=
  c.params.kwarg = none ∧ ∀ n ∈ c.children, n.Bounded l bound

section Bounded

variable {l : Limits} {bound : Nat}

theorem Node.Bounded.child {n m : Node} (h : n.Bounded l bound) (hm : m ∈ n.children) :
    m.Bounded l bound := fun k hk => h k (.step hm hk)

theorem Node.Bounded.code {n : Node} {c : FunctionCode} (h : n.Bounded l bound)
    (hc : n.code? = some c) : c.Bounded l bound :=
  ⟨(h n (.refl n)).1 c hc, fun _ hm => h.child (by rw [Node.children_of_code? hc]; exact hm)⟩

theorem Node.bounded_iff {n : Node} : n.Bounded l bound ↔
    (∀ c, n.code? = some c → c.params.kwarg = none) ∧
    (∀ e ∈ n.targets, e.HasStar → l.maxLoopIterations ≤ bound) ∧
    ∀ m ∈ n.children, m.Bounded l bound := by
  refine ⟨fun h => ⟨(h n (.refl n)).1, (h n (.refl n)).2, fun m => h.child⟩, fun h m hm => ?_⟩
  cases hm with
  | refl => exact ⟨h.1, h.2.1⟩
  | step hk hm => exact h.2.2 _ hk m hm

end Bounded

theorem HostValue.Fits.mono {fits fits' : Nat → Prop} (h : ∀ n, fits n → fits' n) {v : HostValue}
    (hv : v.Fits fits) : v.Fits fits' := by
  induction hv with
  | null => exact .null
  | bool b => exact .bool b
  | int n => exact .int n
  | float x => exact .float x
  | str s => exact .str s
  | list hn _ ih => exact .list (h _ hn) ih
  | tuple hn _ ih => exact .tuple (h _ hn) ih
  | dict hn _ _ ihk ihv => exact .dict (h _ hn) ihk ihv
  | set hn _ ih => exact .set (h _ hn) ih
  | object o => exact .object o

/-! ## Runs -/

section Runs

variable {sb : Sandbox} {bound : Nat} (hquota : sb.limits.size.maxContainerSize ≤ bound)
  (hpairs : 2 ≤ bound)

/-- The norm for what comes up in a run of bounded scripts. -/
abbrev Norm.containers {l : Limits} (hquota : l.size.maxContainerSize ≤ bound) (hpairs : 2 ≤ bound) :
    Norm l := .sized hquota hpairs (FunctionCode.Bounded l bound)

/-- In a run of bounded scripts, all containers hold at most `bound` elements. -/
def Invariant.containers (hhost : (Norm.containers hquota hpairs).Lends sb.host)
    (hvalues : ∀ name v, sb.bindings.resolve? name = some (.value v) →
      v.Fits (· ≤ sb.limits.size.maxContainerSize)) : Invariant sb where
  toNorm := .containers hquota hpairs
  allows := Node.Bounded sb.limits bound
  code := FunctionCode.Bounded sb.limits bound
  reads _ := True
  top st := (Node.stmt st).Bounded sb.limits bound
  counts _ := True
  fails _ _ := True
  allows_child := Node.Bounded.child
  code_of := Node.Bounded.code
  allows_code h hn := h.2 _ hn
  fits_rest n hc hrest := by
    rw [hc.1] at hrest
    cases hrest
  fits_starred h he hstar hk := Nat.le_trans hk ((h _ (.refl _)).2 _ he hstar)
  good_function _ := Value.sized_function.trans (and_iff_left True.intro).symm
  reads_name _ := True.intro
  errs_stray {_ g} _ _ _ v h := absurd h (g.stray_ne_raised v)
  pieces_text _ _ := True.intro
  pieces_call _ _ _ _ := True.intro
  allows_top h := h
  errs_top {_ g} _ _ v h := absurd h (g.stray_ne_raised v)
  lends := hhost
  registered h := (hvalues _ _ h).mono fun _ hn => Nat.le_trans hn hquota
  offered _ _ := .flat rfl
  counts_tick _ _ _ := True.intro
  counts_loop _ _ _ := True.intro
  counts_call _ _ _ := True.intro
  counts_native _ _ := True.intro
  counts_leave _ := True.intro
  fails_errs _ _ := True.intro
  fails_tick _ _ := True.intro
  fails_loop _ _ := True.intro
  fails_call _ := True.intro
  fails_lateTick _ _ := True.intro
  fails_lateLoop _ _ := True.intro
  fails_leave _ := True.intro

/-- In every run of a script without keyword rests, and without starred targets unless rounds are
bounded, too, all containers hold at most `bound` elements: wherever a node is visited, in what each
visit and the script give, and behind errors that a script may catch. -/
theorem containers_within (hhost : (Norm.containers hquota hpairs).Lends sb.host)
    (hvalues : ∀ name v, sb.bindings.resolve? name = some (.value v) →
      v.Fits (· ≤ sb.limits.size.maxContainerSize))
    {m : Module} (hm : ∀ st ∈ m.body, (Node.stmt st).Bounded sb.limits bound) {store : Store}
    (hstore : (Norm.containers (l := sb.limits) hquota hpairs).Kept store) :
    (∀ n t, m.Visits sb (.start store) n t →
      (Norm.containers (l := sb.limits) hquota hpairs).KeptRun t) ∧
    (∀ e t v t', m.Visits sb (.start store) (.expr e) t → (visit sb).expr e t = .ok v t' →
      v.Sized bound (FunctionCode.Bounded sb.limits bound) ∧
      (Norm.containers (l := sb.limits) hquota hpairs).KeptRun t') ∧
    (∀ st t flow t', m.Visits sb (.start store) (.stmt st) t → (visit sb).stmt st t = .ok flow t' →
      (∀ v, flow = .returning v → v.Sized bound (FunctionCode.Bounded sb.limits bound)) ∧
      (Norm.containers (l := sb.limits) hquota hpairs).KeptRun t') ∧
    (∀ v s', module sb m (.start store) = .ok v s' →
      v.Sized bound (FunctionCode.Bounded sb.limits bound) ∧
      (Norm.containers (l := sb.limits) hquota hpairs).KeptRun s') ∧
    (∀ e s', module sb m (.start store) = .error e s' → e.isCatchable = true →
      (Norm.containers (l := sb.limits) hquota hpairs).KeptRun s') := by
  let I := Invariant.containers hquota hpairs hhost hvalues
  have hstart : I.running.holds (.start store) :=
    Invariant.running_holds.2 ⟨I.holds_of (Norm.keptRun_start hstore) True.intro, Nat.zero_le _⟩
  have visited : ∀ n t, m.Visits sb (.start store) n t → I.running.holds t ∧ I.allows n :=
    fun n t h => Invariant.of_module hstart hm h
  have hv : I.running.congruence.Visits (visit sb) (visit sb) :=
    Invariant.visits_eq ⟨visitWithin sb 0, Invariant.visitWithin_eq sb _⟩
  have hends := Invariant.module_ends hstart hm
  refine ⟨fun n t h => (visited n t h).1.toKeptRun, fun e t v t' h hr => ?_,
    fun st t flow t' h hr => ?_, fun v s' hr => ?_, fun e s' hr he => ?_⟩
  · obtain ⟨ht, hallows⟩ := visited _ t h
    have hends := (hv.expr e hallows t ht).2
    rw [hr] at hends
    exact ⟨hends.1, hends.2.1.toKeptRun⟩
  · obtain ⟨ht, hallows⟩ := visited _ t h
    have hends := (hv.stmt st hallows t ht).2
    rw [hr] at hends
    refine ⟨fun v hflow => ?_, hends.2.1.toKeptRun⟩
    have hgood := hends.1
    rw [hflow] at hgood
    exact hgood
  · rw [hr] at hends
    exact ⟨hends.1, hends.2.1.toKeptRun⟩
  · rw [hr] at hends
    exact (hends.2.1 he).2.1.toKeptRun

end Runs

/-! ### A quota of two elements -/

/-- A sandbox whose containers hold two elements at most, with a list that is as long. -/
def couples : Sandbox :=
  ⟨{ Limits.standard with size := { Limits.standard.size with maxContainerSize := 2 } },
    ⟨[("couple", .value (.list [.int 1, .int 2]))]⟩, .bare, .stopped⟩

/-- The script `x = [1, 2]`. -/
def couple : Module :=
  ⟨[Syntax.Build.assign "x" (Syntax.Build.list [Syntax.Build.int 1, Syntax.Build.int 2])]⟩

theorem couple_bounded : ∀ st ∈ couple.body, (Node.stmt st).Bounded couples.limits 2 := by
  have atom : ∀ e : Expr, (Node.expr e).code? = none → e.kind.targets = [] → e.kind.parts = [] →
      (Node.expr e).Bounded couples.limits 2 := fun e hcode htargets hparts =>
    Node.bounded_iff.2 ⟨by simp [hcode], by simp [Node.targets, htargets],
      by simp [Node.children, hparts]⟩
  intro st hst
  rw [List.mem_singleton.1 hst]
  refine Node.bounded_iff.2 ⟨(fun c h => by cases h), fun e he hstar => ?_, fun n hn => ?_⟩
  · rw [List.mem_singleton.1 he] at hstar
    cases hstar with
    | here h => cases h
    | inside h => cases h
  · rcases List.mem_cons.1 hn with rfl | hn
    · refine Node.bounded_iff.2 ⟨(fun c h => by cases h), (fun e he => by cases he), fun n hn => ?_⟩
      rcases List.mem_cons.1 hn with rfl | hn
      · exact atom _ rfl rfl rfl
      · rw [List.mem_singleton.1 hn]
        exact atom _ rfl rfl rfl
    · rw [List.mem_singleton.1 hn]
      exact atom _ rfl rfl rfl

theorem couples_fit : ∀ name v, couples.bindings.resolve? name = some (.value v) →
    v.Fits (· ≤ 2) := by
  intro name v h
  obtain ⟨before, behind, hsplit, -⟩ := List.lookup_eq_some_iff.1 h
  have hmem : (name, Binding.value v) ∈ couples.bindings.entries := by simp [hsplit]
  obtain ⟨-, rfl⟩ : name = "couple" ∧ v = .list [.int 1, .int 2] := by
    simpa [couples] using hmem
  refine .list (Nat.le_refl 2) fun x hx => ?_
  rcases List.mem_cons.1 hx with rfl | hx
  · exact .int 1
  · rw [List.mem_singleton.1 hx]
    exact .int 2

/-- The list of two elements is within the quota. -/
theorem couple_within : ∃ v s', module couples couple (.start .empty) = .ok v s' ∧
    (s'.store.list ⟨0⟩).size ≤ 2 := by
  have hquota : couples.limits.size.maxContainerSize ≤ 2 := Nat.le_refl 2
  obtain ⟨-, -, -, hok, -⟩ := containers_within hquota (Nat.le_refl 2) Norm.lends_bare couples_fit
    couple_bounded (Norm.kept_empty _)
  exact ⟨_, _, rfl, (hok _ _ rfl).2.store.listFits ⟨0⟩⟩

-- The list for a starred target is held to the quota of rounds alone.
example : ((run couples ⟨[Syntax.Build.assignTo
    [Syntax.Build.list [Syntax.Build.starred (Syntax.Build.name "x")]]
    (Syntax.Build.string "abc")]⟩ .empty).2.store.list ⟨0⟩).size = 3 := by rfl

end ScriptSandbox

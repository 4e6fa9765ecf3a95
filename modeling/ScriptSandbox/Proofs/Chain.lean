import ScriptSandbox.Proofs.Ancestry
import ScriptSandbox.Proofs.Comprehension

/-!
# Queries along the chain of scopes

A name is read in the first scope of a chain that binds it, assigned to in the scope found by the same
search, and a named expression binds in the first scope that is not a comprehension's. Each of the three
searches is a loop that goes from a scope to the one around it, and the queries of `Scopes` stop where a
link does not lead to an older scope. Wherever a run has come to, all links do (`wellScoped_of_module`),
so the loops end without such a guard, and the queries give what they give (`Scopes.Agree`).
-/

namespace ScriptSandbox

open Eval

namespace Scopes

variable {s : Scopes} {r parent o f : ScopeRef} {inner outer : List ScopeRef} {name : String}

/-- `s.Leads r inner o`: going outward from the scope `r` one comes through the scopes `inner` to the
scope `o`. -/
inductive Leads (s : Scopes) : ScopeRef → List ScopeRef → ScopeRef → Prop where
  | here (r : ScopeRef) : s.Leads r [] r
  | outward {r parent o : ScopeRef} {inner : List ScopeRef} :
    (s.scope r).parent = some parent → s.Leads parent inner o → s.Leads r (r :: inner) o

/-! ## Loops -/

/-- A loop whose rounds end with an answer or go on with another scope, for a number of rounds. -/
def loop {β : Type} (round : ScopeRef → β ⊕ ScopeRef) : Nat → ScopeRef → Option β
  | 0, _ => none
  | rounds + 1, r =>
    match round r with
    | .inl answer => some answer
    | .inr next => loop round rounds next

/-- A round of the search for the value of a name. -/
def resolveRound (s : Scopes) (name : String) (r : ScopeRef) : Option Value ⊕ ScopeRef :=
  match (s.scope r).lookup name with
  | some value => .inl (some value)
  | none =>
    match (s.scope r).parent with
    | some parent => .inr parent
    | none => .inl none

/-- A round of the search for the scope that binds a name. -/
def ownerRound (s : Scopes) (name : String) (r : ScopeRef) : Option ScopeRef ⊕ ScopeRef :=
  if (s.scope r).contains name then .inl (some r)
  else
    match (s.scope r).parent with
    | some parent => .inr parent
    | none => .inl none

/-- A round of the search for the scope that named expressions bind in. -/
def frameRound (s : Scopes) (r : ScopeRef) : ScopeRef ⊕ ScopeRef :=
  match (s.scope r).kind, (s.scope r).parent with
  | .comprehension, some parent => .inr parent
  | _, _ => .inl r

/-- A loop that goes on with older scopes only ends, and gives what satisfies the equation of its
rounds. -/
theorem loop_eq {β : Type} {round : ScopeRef → β ⊕ ScopeRef} {q : ScopeRef → β}
    (hround : ∀ r, match round r with
      | .inl answer => q r = answer
      | .inr next => q r = q next ∧ next.index < r.index) :
    ∀ {rounds : Nat} {r : ScopeRef}, r.index < rounds → loop round rounds r = some (q r)
  | rounds + 1, r, h => by
    have hr := hround r
    rw [loop]
    cases hstep : round r with
    | inl answer =>
      rw [hstep] at hr
      exact congrArg some hr.symm
    | inr next =>
      rw [hstep] at hr
      rw [hr.1]
      exact loop_eq hround (by have := hr.2; omega)

/-- Chains of scopes end, and the queries along them agree: with the loops that go from a scope to the
one around it, with each other, and with what they are to find. -/
structure Agree (s : Scopes) : Prop where
  /-- No scope lies in itself, however far outward. -/
  acyclic : ∀ r inner, s.Leads r inner r → inner = []
  ends : ∀ r, ∃ inner o, s.Leads r inner o ∧ (s.scope o).parent = none ∧ inner.length ≤ r.index
  resolve_loop : ∀ r name rounds, r.index < rounds →
    loop (s.resolveRound name) rounds r = some (s.resolve? r name)
  owner_loop : ∀ r name rounds, r.index < rounds →
    loop (s.ownerRound name) rounds r = some (s.owner? r name)
  frame_loop : ∀ r rounds, r.index < rounds → loop s.frameRound rounds r = some (s.frame r)
  /-- A name has the value that its owner binds it to. -/
  resolve_iff : ∀ r name value, s.resolve? r name = some value ↔
    ∃ o, s.owner? r name = some o ∧ (s.scope o).lookup name = some value
  /-- The owner of a name is the first scope outward that binds it. -/
  owner_iff : ∀ r name o, s.owner? r name = some o ↔
    ∃ inner, s.Leads r inner o ∧ (s.scope o).contains name = true ∧
      ∀ r' ∈ inner, (s.scope r').contains name = false
  none_iff : ∀ r name, s.resolve? r name = none ↔ s.owner? r name = none
  /-- The frame is the first scope outward that is not a comprehension's or lies in none. -/
  frame_first : ∀ r, ∃ inner, s.Leads r inner (s.frame r) ∧
    (∀ r' ∈ inner, (s.scope r').kind = .comprehension ∧ (s.scope r').parent ≠ none) ∧
    ((s.scope (s.frame r)).kind ≠ .comprehension ∨ (s.scope (s.frame r)).parent = none)

/-! ## Chains of older scopes -/

theorem path_of_outermost (h : (s.scope r).parent = none) : s.path r = [r] := by
  rw [path, h]

theorem owner?_of_path {next : ScopeRef} (h : s.path r = r :: s.path next) (name : String) :
    s.owner? r name = if (s.scope r).contains name then some r else s.owner? next name := by
  rw [owner?, h, List.find?_cons]
  cases (s.scope r).contains name <;> rfl

theorem exists_path (s : Scopes) (r : ScopeRef) : ∃ outer, s.path r = r :: outer := by
  rw [path]
  split
  · exact ⟨[], rfl⟩
  · split
    · exact ⟨_, rfl⟩
    · exact ⟨[], rfl⟩

theorem frameOf_self (h : (s.scope r).kind ≠ .comprehension ∨ (s.scope r).parent = none) :
    s.FrameOf r r := by
  obtain ⟨outer, hpath⟩ := s.exists_path r
  exact ⟨[], outer, hpath, fun _ h => (List.not_mem_nil h).elim, h⟩

namespace Older

variable (hs : s.Older)

include hs

theorem path_of_parent (h : (s.scope r).parent = some parent) : s.path r = r :: s.path parent := by
  rw [path, h]
  exact if_pos (hs r parent h)

theorem leads_le (h : s.Leads r inner o) : inner.length + o.index ≤ r.index := by
  induction h with
  | here => exact Nat.le_of_eq (Nat.zero_add _)
  | outward hparent _ ih =>
    have := hs _ _ hparent
    rw [List.length_cons]
    omega

theorem path_of_leads (h : s.Leads r inner o) : s.path r = inner ++ s.path o := by
  induction h with
  | here => rfl
  | outward hparent _ ih => rw [hs.path_of_parent hparent, ih, List.cons_append]

theorem leads_of_path : ∀ {inner : List ScopeRef} {r : ScopeRef}, s.path r = inner ++ o :: outer →
    s.Leads r inner o
  | inner, r, h => by
    cases hparent : (s.scope r).parent with
    | none =>
      rw [path_of_outermost hparent] at h
      cases inner with
      | nil =>
        cases h
        exact .here _
      | cons _ inner => cases inner <;> cases h
    | some parent =>
      rw [hs.path_of_parent hparent] at h
      cases inner with
      | nil =>
        cases h
        exact .here _
      | cons r' inner =>
        obtain ⟨rfl, hrest⟩ := List.cons.inj h
        exact .outward hparent (leads_of_path hrest)

theorem frameOf_outward (hkind : (s.scope r).kind = .comprehension)
    (hparent : (s.scope r).parent = some parent) (h : s.FrameOf parent f) : s.FrameOf r f := by
  obtain ⟨inner, outer, hpath, hinner, hlast⟩ := h
  refine ⟨r :: inner, outer, by rw [hs.path_of_parent hparent, hpath, List.cons_append],
    List.forall_mem_cons.2 ⟨⟨hkind, by simp [hparent]⟩, hinner⟩, hlast⟩

/-- Every chain has a frame. -/
theorem exists_frameOf (r : ScopeRef) : ∃ f, s.FrameOf r f := by
  cases hparent : (s.scope r).parent with
  | none => exact ⟨r, frameOf_self (.inr hparent)⟩
  | some parent =>
    by_cases hkind : (s.scope r).kind = .comprehension
    · have := hs r parent hparent
      obtain ⟨f, hf⟩ := exists_frameOf parent
      exact ⟨f, hs.frameOf_outward hkind hparent hf⟩
    · exact ⟨r, frameOf_self (.inl hkind)⟩
termination_by r.index

theorem exists_outermost (r : ScopeRef) :
    ∃ inner o, s.Leads r inner o ∧ (s.scope o).parent = none := by
  cases hparent : (s.scope r).parent with
  | none => exact ⟨[], r, .here r, hparent⟩
  | some parent =>
    have := hs r parent hparent
    obtain ⟨inner, o, hleads, ho⟩ := exists_outermost parent
    exact ⟨r :: inner, o, .outward hparent hleads, ho⟩
termination_by r.index

/-! ### The loops -/

theorem resolve_loop (name : String) {rounds : Nat} (h : r.index < rounds) :
    loop (s.resolveRound name) rounds r = some (s.resolve? r name) := by
  refine loop_eq (q := (s.resolve? · name)) (fun r => ?_) h
  unfold resolveRound
  cases hparent : (s.scope r).parent with
  | none =>
    have hpath := path_of_outermost hparent
    cases hlookup : (s.scope r).lookup name <;> simp [resolve?, hpath, hlookup]
  | some parent =>
    have hpath := resolve?_of_path (hs.path_of_parent hparent) name
    cases hlookup : (s.scope r).lookup name <;> simp [hpath, hlookup, hs r parent hparent]

theorem owner_loop (name : String) {rounds : Nat} (h : r.index < rounds) :
    loop (s.ownerRound name) rounds r = some (s.owner? r name) := by
  refine loop_eq (q := (s.owner? · name)) (fun r => ?_) h
  unfold ownerRound
  cases hparent : (s.scope r).parent with
  | none =>
    have hpath := path_of_outermost hparent
    cases hown : (s.scope r).contains name <;> simp [owner?, hpath, hown]
  | some parent =>
    have hpath := owner?_of_path (hs.path_of_parent hparent) name
    cases hown : (s.scope r).contains name <;> simp [hpath, hown, hs r parent hparent]

theorem frame_loop {rounds : Nat} (h : r.index < rounds) :
    loop s.frameRound rounds r = some (s.frame r) := by
  refine loop_eq (fun r => ?_) h
  unfold frameRound
  cases hparent : (s.scope r).parent with
  | none =>
    have hself := (frameOf_self (s := s) (.inr hparent)).frame_eq
    cases (s.scope r).kind <;> exact hself
  | some parent =>
    cases hkind : (s.scope r).kind with
    | comprehension =>
      obtain ⟨f, hf⟩ := hs.exists_frameOf parent
      refine ⟨?_, hs r parent hparent⟩
      rw [hf.frame_eq, (hs.frameOf_outward hkind hparent hf).frame_eq]
    | _ => exact (frameOf_self (.inl (by simp [hkind]))).frame_eq

theorem agree : s.Agree where
  acyclic r inner h := by
    have := hs.leads_le h
    exact List.length_eq_zero_iff.1 (by omega)
  ends r := by
    obtain ⟨inner, o, hleads, ho⟩ := hs.exists_outermost r
    exact ⟨inner, o, hleads, ho, Nat.le_trans (Nat.le_add_right _ _) (hs.leads_le hleads)⟩
  resolve_loop _ name _ h := hs.resolve_loop name h
  owner_loop _ name _ h := hs.owner_loop name h
  frame_loop _ _ h := hs.frame_loop h
  resolve_iff r name value := by rw [resolve?_eq, Option.bind_eq_some_iff]
  owner_iff r name o := by
    rw [owner?, List.find?_eq_some_iff_append]
    constructor
    · rintro ⟨ho, inner, outer, hpath, hinner⟩
      exact ⟨inner, hs.leads_of_path hpath, ho, fun r' hr' => by simpa using hinner r' hr'⟩
    · rintro ⟨inner, hleads, ho, hinner⟩
      obtain ⟨outer, hpath⟩ := s.exists_path o
      exact ⟨ho, inner, outer, by rw [hs.path_of_leads hleads, hpath], fun r' hr' => by
        simpa using hinner r' hr'⟩
  none_iff r name := by
    rw [resolve?_eq]
    cases howner : s.owner? r name with
    | none => simp
    | some o =>
      have ho : (s.scope o).contains name = true := by simpa using List.find?_some howner
      simpa [Scope.contains, Option.isSome_iff_ne_none] using ho
  frame_first r := by
    obtain ⟨f, hf⟩ := hs.exists_frameOf r
    rw [hf.frame_eq]
    obtain ⟨inner, outer, hpath, hinner, hlast⟩ := hf
    exact ⟨inner, hs.leads_of_path hpath, hinner, hlast⟩

/-- Dropping links leaves those that there are. -/
theorem teardown : s.teardown.Older := by
  intro r parent h
  refine hs r parent ?_
  simp only [scope, Scopes.teardown, Array.getElem?_mapIdx] at h ⊢
  cases hr : s.scopes[r.index]? with
  | none =>
    rw [hr] at h
    cases h
  | some scope =>
    rw [hr, Option.map_some, Option.getD_some] at h
    split at h
    · cases h
    · exact h

end Older

end Scopes

/-! ## States of a run -/

/-- `m.Reaches sb store s`: the run of the script `m` comes to the state `s`, where it starts, where it
visits a node, behind such a visit, where the script has ended, or once its variables have been
dropped. -/
inductive Module.Reaches (m : Module) (sb : Sandbox) (store : Store) : RunState → Prop where
  | start : m.Reaches sb store (.start store)
  | visited {n : Node} {t : RunState} : m.Visits sb (.start store) n t → m.Reaches sb store t
  | behind {n : Node} {t : RunState} : m.Visits sb (.start store) n t →
    m.Reaches sb store (((visit sb).node n).after t)
  | ended : m.Reaches sb store ((module sb m).after (.start store))
  | dropped : m.Reaches sb store (run sb m store).2

section Runs

variable {sb : Sandbox} {m : Module} {store : Store} {s t : RunState}

theorem Eval.run_after (sb : Sandbox) (m : Module) (store : Store) :
    (run sb m store).2.scopes = ((module sb m).after (.start store)).scopes.teardown := by
  simp only [run, Eval.after]
  cases module sb m (.start store) <;> rfl

/-- However an evaluation of a run ends, scopes lie in older ones. -/
theorem older_after {α : Type} {c : Visit → Eval α} (hhost : sb.host.LendsCaptured sb.limits)
    (hc : Uniform sb c) (hs : s.WellScoped sb.limits) :
    ((c (visit sb)).after s).scopes.Older := by
  have holder := older_behind hhost hc Halt.never_fatal hs (sb.limits.maxSteps + 1)
  rwa [haltedWithin_never] at holder

theorem older_of_reaches (hhost : sb.host.LendsCaptured sb.limits)
    (hstore : (Norm.capturing sb.limits (·.index < 1)).Kept store) (h : m.Reaches sb store s) :
    s.scopes.Older := by
  have hstart : (RunState.start store).WellScoped sb.limits := RunState.wellScoped_start hstore
  have hended : ((module sb m).after (.start store)).scopes.Older :=
    older_after hhost (uniform_module sb m.body) hstart
  cases h with
  | start => exact hstart.older
  | visited h => exact (wellScoped_of_module hhost hstart h).older
  | @behind n t h =>
    exact older_after hhost (uniform_node sb n) (wellScoped_of_module hhost hstart h)
  | ended => exact hended
  | dropped =>
    rw [run_after]
    exact hended.teardown

/-- In each state that the run of a script comes to, and in each one from which such a state comes by
changes, chains of scopes end and the queries along them agree, if the functions that the store and the
host bring have captured no scopes but the module's. -/
theorem scope_queries_agree (hhost : sb.host.LendsCaptured sb.limits)
    (hstore : (Norm.capturing sb.limits (·.index < 1)).Kept store) (h : m.Reaches sb store t)
    (hs : s.Evolves t) : s.scopes.Agree :=
  (hs.older (older_of_reaches hhost hstore h)).agree

end Runs

/-! ### The scope of a comprehension -/

/-- The script `[(y := x) for x in [1]]`. -/
def namesLastScript : Module := ⟨[Syntax.Build.exprStmt namesLast]⟩

/-- Behind the script, the scope of the comprehension lies in the module's, which binds `y`. -/
theorem namesLastScript_agree : unaided.host.LendsCaptured unaided.limits ∧
    (Norm.capturing unaided.limits (·.index < 1)).Kept .empty ∧
    ∃ s, namesLastScript.Reaches unaided .empty s ∧ s.Evolves s ∧
      s.scopes.Leads ⟨1⟩ [⟨1⟩] Scopes.global ∧
      s.scopes.owner? ⟨1⟩ "y" = some Scopes.global ∧ s.scopes.resolve? ⟨1⟩ "y" = some (.int 1) ∧
      s.scopes.resolve? ⟨1⟩ "z" = none ∧ s.scopes.frame ⟨1⟩ = Scopes.global := by
  have hhost : unaided.host.LendsCaptured unaided.limits := fun _ _ => Norm.lends_bare
  have hstore : (Norm.capturing unaided.limits (·.index < 1)).Kept .empty := Norm.kept_empty _
  let s := (module unaided namesLastScript).after (.start .empty)
  have hscopes : s.scopes.scopes = #[⟨.module, [("y", .int 1)], none⟩,
      ⟨.comprehension, [("x", .int 1)], some Scopes.global⟩] := by
    with_unfolding_all rfl
  have hreaches : namesLastScript.Reaches unaided .empty s := .ended
  have agree := scope_queries_agree hhost hstore hreaches .refl
  have hleads : s.scopes.Leads ⟨1⟩ [⟨1⟩] Scopes.global :=
    .outward (by simp [Scopes.scope, hscopes]) (.here _)
  have howner : s.scopes.owner? ⟨1⟩ "y" = some Scopes.global :=
    (agree.owner_iff _ _ _).2 ⟨_, hleads,
      by simp [Scopes.scope, hscopes, Scopes.global, Scope.contains, Scope.lookup],
      by simp [Scopes.scope, hscopes, Scope.contains, Scope.lookup]⟩
  refine ⟨hhost, hstore, s, hreaches, .refl, hleads, howner, ?_, ?_, ?_⟩
  · exact (agree.resolve_iff _ _ _).2 ⟨_, howner,
      by simp [Scopes.scope, hscopes, Scopes.global, Scope.lookup]⟩
  · refine Option.some.inj ((agree.resolve_loop ⟨1⟩ "z" 2 Nat.one_lt_two).symm.trans ?_)
    simp only [Scopes.loop, Scopes.resolveRound, Scopes.scope, hscopes, Scopes.global, Scope.lookup]
    rfl
  · refine Option.some.inj ((agree.frame_loop ⟨1⟩ 2 Nat.one_lt_two).symm.trans ?_)
    simp [Scopes.loop, Scopes.frameRound, Scopes.scope, hscopes, Scopes.global]

end ScriptSandbox

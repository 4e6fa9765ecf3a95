import ScriptSandbox.Proofs.Captured

/-!
# Scopes lie in older scopes

A scope is made in the current scope or in one that a function has captured. Wherever a run has come to,
functions have captured scopes that there are, so every scope lies in one that is older than itself
(`RunState.WellScoped`). How many scopes there are changes all the time, and a scope that is too new for
a function made before it is not for one made behind it. So for each scope the run is looked at only as
far as no code has run in this scope: up to there, what has been captured and what scopes lie in is
older than the scope, and behind that the scope's link is set.
-/

namespace ScriptSandbox

open Eval

namespace Scopes

variable {s : Scopes}

/-- All scopes lie in older ones. -/
def Older (s : Scopes) : Prop :=
  ∀ r parent, (s.scope r).parent = some parent → parent.index < r.index

theorem lt_size_of_parent {r parent : ScopeRef} (h : (s.scope r).parent = some parent) :
    r.index < s.scopes.size := by
  refine Nat.lt_of_not_le fun hle => ?_
  rw [scope, Array.getElem?_eq_none hle] at h
  cases h

end Scopes

/-- Links stay, so those that lead to older scopes in the end did so all along. -/
theorem RunState.Evolves.older {s t : RunState} (h : s.Evolves t) (ht : t.scopes.Older) :
    s.scopes.Older := by
  intro r parent hparent
  refine ht r parent ?_
  rwa [h.keepsLinks.parent r (Scopes.lt_size_of_parent hparent)]

/-- The current scope and all that functions have captured are there, and all scopes lie in older
ones. -/
structure RunState.WellScoped (l : Limits) (s : RunState) : Prop where
  anchored : s.Anchored
  older : s.scopes.Older
  captured : (Norm.capturing l (·.index < s.scopes.scopes.size)).KeptRun s

/-- A run starts with the module's scope, which functions in the store may have captured. -/
theorem RunState.wellScoped_start {l : Limits} {store : Store}
    (h : (Norm.capturing l (·.index < 1)).Kept store) : (RunState.start store).WellScoped l where
  anchored := Nat.zero_lt_one
  older r parent hparent := by
    obtain ⟨_ | i⟩ := r
    · cases hparent
    · cases hparent
  captured := Norm.keptRun_start h

/-- A host gives functions only that have captured scopes which functions in its arguments or in the
store have captured, or the module's scope. -/
def Host.LendsCaptured (h : Host) (l : Limits) : Prop :=
  ∀ j, 0 < j → (Norm.capturing l (·.index < j)).Lends h

section Runs

variable {sb : Sandbox} {α : Type} {c : Visit → Eval α} {stop stop' : Halt} {s t : RunState}
  {n k : Node} {depth j : Nat}

theorem RunState.WellScoped.holds (h : s.WellScoped sb.limits) (hj : s.scopes.scopes.size ≤ j)
    (hhost : (Norm.capturing sb.limits (·.index < j)).Lends sb.host) :
    (ScopedInvariant.capturing hhost).holds s where
  toKeptRun := h.captured.capturing_mono fun _ hr => Nat.lt_of_lt_of_le hr hj
  counts := True.intro
  linked r parent hparent := by
    have := Scopes.lt_size_of_parent hparent
    have := h.older r parent hparent
    show parent.index < j
    omega

/-- Where visits are halted in scopes from a number on, nothing later than these is captured, and
nothing can be told of visits at states where it is. -/
theorem Eval.Uniform.keeps_beyond (hc : Uniform sb c) (hstop : stop.Fatal)
    (hhost : (Norm.capturing sb.limits (·.index < j)).Lends sb.host)
    (hsame : ∀ n s, (ScopedInvariant.capturing hhost).holds s → stop n s = stop' n s) (depth : Nat) :
    (ScopedInvariant.capturing hhost).Keeps (fun _ => True)
      (c (haltedWithin sb (stop.beyond j) depth)) (c (haltedWithin sb (stop'.beyond j) depth)) := by
  refine hc (ScopedInvariant.capturing hhost).congruence _ _ ScopedInvariant.keepsSteps
    (fun _ => True.intro) (fun g v h => absurd h (g.stray_ne_raised v)) ?_
  refine ScopedInvariant.visits_halted (fun v h => by cases h) (fun n s hs => ?_)
    (fun n s e _ he => ⟨True.intro, hstop.beyond j n s e he⟩)
    (fun n s _ hnone => Halt.lt_of_beyond_none hnone) depth
  rw [Halt.beyond, Halt.beyond, hsame n s hs]

/-- However an evaluation ends, scopes lie in older ones. -/
theorem older_behind (hhost : sb.host.LendsCaptured sb.limits) (hc : Uniform sb c)
    (hstop : stop.Fatal) (hs : s.WellScoped sb.limits) (depth : Nat) :
    ((c (haltedWithin sb stop depth)).after s).scopes.Older := by
  intro r parent hparent
  have hevolves := (hc.changes stop depth).2 s
  rcases Nat.lt_or_ge r.index s.scopes.scopes.size with hlt | hge
  · rw [hevolves.keepsLinks.parent r hlt] at hparent
    exact hs.older r parent hparent
  -- the scope is new, so the run is looked at as far as no code has run in it
  have hpos : 0 < r.index := Nat.lt_of_lt_of_le (Nat.zero_lt_of_lt hs.anchored) hge
  have hends := (hc.keeps_beyond hstop (hhost r.index hpos) (fun _ _ _ => rfl) depth s
    (hs.holds hge _)).2
  have hlinked : (ScopedInvariant.capturing (hhost r.index hpos)).Linked
      ((c (haltedWithin sb (stop.beyond r.index) depth)).after s).scopes := by
    cases hr : c (haltedWithin sb (stop.beyond r.index) depth) s with
    | ok a s' =>
      rw [hr] at hends
      rw [after_ok hr]
      exact hends.2.1.linked
    | error e s' =>
      rw [hr] at hends
      rw [after_error hr]
      exact hends.2.2
  refine hlinked r parent ?_
  rcases hc.outruns (stop.beyond_eq r.index) depth s hs.anchored with heq | ⟨u, e, hu, hanchored, -,
    hstopped, hrest⟩
  · rwa [Eval.after, ← heq]
  · -- the run has gone on from a state in which there is the scope
    cases hr : c (haltedWithin sb (stop.beyond r.index) depth) s with
    | ok a s' =>
      rw [hr] at hstopped
      obtain ⟨_, hx, -⟩ := hstopped
      cases hx
    | error e' s' =>
      rw [hr] at hstopped
      obtain ⟨_, -, -, hunwound⟩ := hstopped
      rw [hrest.keepsLinks.parent r (Nat.lt_of_le_of_lt hu hanchored)] at hparent
      rwa [after_error hr, Scopes.scope, hunwound.scopes]

/-- An evaluation behind which there are no scopes from a number on has visited no node in such a
scope. -/
theorem Eval.Uniform.beyond_eq (hc : Uniform sb c) (hs : s.Anchored)
    (h : ((c (haltedWithin sb stop depth)).after s).scopes.scopes.size ≤ j) :
    c (haltedWithin sb stop depth) s = c (haltedWithin sb (stop.beyond j) depth) s := by
  rcases hc.outruns (stop.beyond_eq j) depth s hs with heq | ⟨u, e, hu, hanchored, -, -, hrest⟩
  · exact heq
  · have hsize := hrest.keepsLinks.size
    unfold RunState.Anchored at hanchored
    omega

/-- Behind an evaluation that succeeds, what was captured is there. -/
theorem wellScoped_ok (hhost : sb.host.LendsCaptured sb.limits) (hc : Uniform sb c)
    (hstop : stop.Fatal) (hs : s.WellScoped sb.limits) {a : α}
    (h : c (haltedWithin sb stop depth) s = .ok a t) : t.WellScoped sb.limits := by
  have hbalanced := ((hc.changes stop depth).1.ok h).2
  have hanchored : t.Anchored := standing_anchored.next hs.anchored hbalanced
  refine ⟨hanchored, ?_, ?_⟩
  · have holder := older_behind hhost hc hstop hs depth
    rwa [after_ok h] at holder
  · have hsize : ((c (haltedWithin sb stop depth)).after s).scopes.scopes.size ≤
        t.scopes.scopes.size := by
      rw [after_ok h]
    have heq := hc.beyond_eq hs.anchored hsize
    have hends := (hc.keeps_beyond hstop (hhost _ (Nat.zero_lt_of_lt hanchored)) (fun _ _ _ => rfl)
      depth s (hs.holds hbalanced.scopes _)).2
    rw [← heq, h] at hends
    exact hends.2.1.toKeptRun

/-- What was captured is there at a state that an evaluation stops at if it is halted there. If it were
not, two runs halted there with different errors could not be told apart. -/
theorem wellScoped_of_stopped (hhost : sb.host.LendsCaptured sb.limits) (hc : Uniform sb c)
    (hs : s.WellScoped sb.limits) (ht : t.Anchored)
    (h : ∀ e : Error, e.isCatchable = false → ∃ least, ∀ depth, least ≤ depth →
      (EndFact.stopped e t).Of (c (haltedWithin sb (.only k t e) depth) s)) :
    t.WellScoped sb.limits := by
  have hfatal {e : Error} (he : e.isCatchable = false) : (Halt.only k t e).Fatal := by
    intro n s e' h
    obtain ⟨-, -, rfl⟩ := Halt.eq_of_only h
    exact he
  have ends {e : Error} {depth : Nat}
      (hof : (EndFact.stopped e t).Of (c (haltedWithin sb (.only k t e) depth) s)) :
      StopsFor (c (haltedWithin sb (.only k t e) depth)) s e t :=
    stopsFor_of (hc.changes _ depth).1 hof
  -- the scopes first, which a run that is halted with any fatal error shows
  have hscopes : s.scopes.scopes.size ≤ t.scopes.scopes.size ∧ t.scopes.Older := by
    obtain ⟨least, hleast⟩ := h (.ofKind (.structural "")) rfl
    obtain ⟨e', s', hr, -, hunwound, hbalanced⟩ := ends (hleast least (Nat.le_refl _))
    have holder := older_behind hhost hc (hfatal (e := .ofKind (.structural "")) rfl) hs least
    rw [after_error hr] at holder
    refine ⟨hunwound.scopes ▸ hbalanced.scopes, fun r parent hparent => holder r parent ?_⟩
    rwa [Scopes.scope, hunwound.scopes]
  obtain ⟨hsize, holder⟩ := hscopes
  refine ⟨ht, holder, ?_⟩
  have hpos : 0 < t.scopes.scopes.size := Nat.zero_lt_of_lt ht
  refine Classical.byContradiction fun hnot => ?_
  -- no run that is halted in later scopes comes to a node at this state
  have hsame : ∀ e e' n s, (ScopedInvariant.capturing (hhost _ hpos)).holds s →
      Halt.only k t e n s = Halt.only k t e' n s := by
    intro e e' n s hs
    have hne : ¬ (n = k ∧ s = t) := by
      rintro ⟨-, rfl⟩
      exact hnot hs.toKeptRun
    rw [Halt.only, if_neg hne, Halt.only, if_neg hne]
  have hbeyond {e : Error} {depth : Nat}
      (hof : (EndFact.stopped e t).Of (c (haltedWithin sb (.only k t e) depth) s)) :
      ∃ e' s', c (haltedWithin sb ((Halt.only k t e).beyond t.scopes.scopes.size) depth) s =
        .error e' s' ∧ e'.kind = e.kind := by
    obtain ⟨e', s', hr, hkind, hunwound, -⟩ := ends hof
    refine ⟨e', s', ?_, hkind⟩
    rw [← hc.beyond_eq hs.anchored (by rw [after_error hr, hunwound.scopes]), hr]
  -- two fatal errors of different kinds, with which the run would have to end alike
  have hfirst : (Error.ofKind (.structural "")).isCatchable = false := rfl
  obtain ⟨other, hother, hne⟩ := ErrorKind.exists_fatal_ne (.structural "")
  obtain ⟨least, hleast⟩ := h _ hfirst
  obtain ⟨least', hleast'⟩ := h other hother
  obtain ⟨e₁, s₁, hr₁, hkind₁⟩ := hbeyond (hleast (max least least') (Nat.le_max_left _ _))
  obtain ⟨e₂, s₂, hr₂, hkind₂⟩ := hbeyond (hleast' (max least least') (Nat.le_max_right _ _))
  have hequal := (hc.keeps_beyond (hfatal hfirst) (hhost _ hpos) (hsame _ other)
    (max least least') s (hs.holds hsize _)).1
  rw [hr₁, hr₂] at hequal
  cases hequal
  exact hne (hkind₂.symm.trans hkind₁)

/-- Wherever a script visits a node, what was captured is there. -/
theorem wellScoped_of_module (hhost : sb.host.LendsCaptured sb.limits)
    (hs : s.WellScoped sb.limits) {m : Module} (h : m.Visits sb s k t) : t.WellScoped sb.limits := by
  have hanchored := standing_anchored.of_module hs.anchored h
  cases h with
  | @statement before _ _ _ _ _ hbefore =>
    rw [← visitWithin_of_lt (Nat.lt_succ_self _), ← haltedWithin_never] at hbefore
    exact wellScoped_ok hhost (uniform_module sb before) Halt.never_fatal hs hbefore
  | inside hconsults hvisited =>
    refine wellScoped_of_stopped (k := k) hhost (uniform_module sb m.body) hs hanchored fun e he => ?_
    exact hvisited.stopped_module he hconsults

end Runs

end ScriptSandbox

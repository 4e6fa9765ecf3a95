import ScriptSandbox.Proofs.Origin

/-!
# Where errors come from: errors that are caught

A visit that fails need not end the evaluation that it is part of, since a `try` statement may catch
the error. Still the last visit that fails decides: the error in which the evaluation ends is the one
of this visit, or of another kind (`EndsAt`). What is left of an evaluation behind errors that it has
caught is kept track of by `Catches`, as long as evaluations of which the errors are caught do not
catch any themselves.
-/

namespace ScriptSandbox

open Eval

variable {sb : Sandbox} {α β : Type}

/-- A visit inside an evaluation fails. -/
structure Falls (sb : Sandbox) (c : Visit → Eval α) (s : RunState) (n : Node) (t : RunState) :
    Prop where
  asked : Consults c (visit sb) s n t
  fails : (visit sb).Fails n t

/-- An error is that of a visit, but for its place. -/
def Error.StemsFrom (sb : Sandbox) (e : Error) (n : Node) (t : RunState) : Prop :=
  ∃ e₀ t₀, (visit sb).node n t = .error e₀ t₀ ∧ e.kind = e₀.kind ∧ e.passed = e₀.passed

/-- The error in which an evaluation ends comes from a visit inside it: this is the last one that
fails, and the error is of the kind of the visit's error. -/
structure PassesOn (sb : Sandbox) (c : Visit → Eval α) (s : RunState) (n : Node) (t : RunState) :
    Prop where
  falls : Falls sb c s n t
  last : ∀ n' t', Falls sb c s n' t' → n' = n ∧ t' = t ∨ t'.guard.steps < t.guard.steps
  kind : ∃ e s' e₀ t₀, c (visit sb) s = .error e s' ∧ (visit sb).node n t = .error e₀ t₀ ∧
    e.kind = e₀.kind

/-- There is one such visit at most. -/
theorem PassesOn.unique {c : Visit → Eval α} {s t t' : RunState} {n n' : Node}
    (h : PassesOn sb c s n t) (h' : PassesOn sb c s n' t') : n' = n ∧ t' = t := by
  rcases h.last n' t' h'.falls with heq | hlt
  · exact heq
  · rcases h'.last n t h.falls with ⟨rfl, rfl⟩ | hlt'
    · exact ⟨rfl, rfl⟩
    · omega

theorem PassesOn.kind_eq {c : Visit → Eval α} {s s' t t₀ : RunState} {n : Node} {e e₀ : Error}
    (h : PassesOn sb c s n t) (hr : c (visit sb) s = .error e s')
    (hn : (visit sb).node n t = .error e₀ t₀) : e.kind = e₀.kind := by
  obtain ⟨e', s'', e₁, t₁, hr', hn', hkind⟩ := h.kind
  rw [hr] at hr'
  rw [hn] at hn'
  cases hr'
  cases hn'
  exact hkind

/-- How an evaluation ends: if it fails, in an error among `O` that comes from no visit, or in the
error of the visit that it comes from. Visits are made from the state `u` on. -/
inductive EndsAt (sb : Sandbox) (O : Error → Prop) (c : Visit → Eval α) (s u : RunState) : Prop where
  | ok (a : α) (s' : RunState) (run : c (visit sb) s = .ok a s')
  | own (e : Error) (s' : RunState) (run : c (visit sb) s = .error e s') (among : O e)
    (none : ∀ n t, ¬ PassesOn sb c s n t)
  | handed (e : Error) (s' : RunState) (n : Node) (t : RunState) (run : c (visit sb) s = .error e s')
    (stems : e.StemsFrom sb n t) (onward : u.Onward t) (passes : PassesOn sb c s n t)

/-! ## Other answers -/

/-- Any answer of a single visit can be put in the place of the one that it has. -/
theorem Visit.exists_answer (v : Visit) (n : Node) (t : RunState)
    (r : EStateM.Result Error RunState n.Result) : ∃ v', v.AgreesOff v' n t ∧ v'.node n t = r := by
  classical
  cases n with
  | expr e =>
    refine ⟨{ v with expr := fun e' t' => if e' = e ∧ t' = t then r else v.expr e' t' }, ?_,
      if_pos ⟨rfl, rfl⟩⟩
    rintro (e' | st) t' h
    · exact if_neg fun hsame => h ⟨congrArg Node.expr hsame.1, hsame.2⟩
    · rfl
  | stmt st =>
    refine ⟨{ v with stmt := fun st' t' => if st' = st ∧ t' = t then r else v.stmt st' t' }, ?_,
      if_pos ⟨rfl, rfl⟩⟩
    rintro (e | st') t' h
    · rfl
    · exact if_neg fun hsame => h ⟨congrArg Node.stmt hsame.1, hsame.2⟩

/-- An evaluation that ends for whatever fatal error a visit ends in depends on this visit. -/
theorem consults_of_fatal {c : Visit → Eval α} {s t : RunState} {n : Node}
    (h : ∀ v, (visit sb).AgreesOff v n t → ∀ x t', v.node n t = .error x t' → x.isCatchable = false →
      ∃ y s', c v s = .error y s' ∧ y.kind = x.kind) : Consults c (visit sb) s n t := by
  -- there are fatal errors of two kinds, and the end can be of one kind only
  have other (k : ErrorKind) :
      ∃ v y s', (visit sb).AgreesOff v n t ∧ c v s = .error y s' ∧ y.kind ≠ k := by
    obtain ⟨x, hx, hne⟩ := ErrorKind.exists_fatal_ne k
    obtain ⟨v, hoff, hv⟩ := (visit sb).exists_answer n t (.error x t)
    obtain ⟨y, s', hr, hkind⟩ := h v hoff x t hv hx
    exact ⟨v, y, s', hoff, hr, hkind ▸ hne⟩
  cases hr : c (visit sb) s with
  | ok a s' =>
    obtain ⟨v, y, s'', hoff, hv, -⟩ := other (.structural "")
    exact ⟨v, hoff, by rw [hv, hr]; exact nofun⟩
  | error e s' =>
    obtain ⟨v, y, s'', hoff, hv, hne⟩ := other e.kind
    refine ⟨v, hoff, fun heq => hne ?_⟩
    rw [hv, hr] at heq
    cases heq
    rfl

/-! ## Errors that are caught -/

namespace Passage

/-- An end is passed on. -/
def pass (p : Passage) : EStateM.Result Error RunState α → EStateM.Result Error RunState α
  | .ok a s => .ok a s
  | .error e s => .error (p.error e) (p.state s)

theorem located_eq (span : Span) (m : Eval α) (s : RunState) :
    Eval.located span m s = (direct.located span).pass (m s) := by
  unfold Eval.located
  cases m s <;> rfl

theorem direct_pass (r : EStateM.Result Error RunState α) : direct.pass r = r := by
  cases r <;> rfl

end Passage

/-- Other visits answer like those of the run at some nodes and states. -/
def Visit.AgreesAt (sb : Sandbox) (v : Visit) (caught : List (Node × RunState)) : Prop :=
  ∀ q ∈ caught, v.node q.1 q.2 = (visit sb).node q.1 q.2

/-- Behind visits that have failed, the last one first, and whose errors were caught, what is left of
an evaluation is to run `rest` from the state `s'`. -/
structure Catches (sb : Sandbox) (c : Visit → Eval α) (s u : RunState) (p : Passage)
    (caught : List (Node × RunState)) (rest : Visit → Eval α) (s' : RunState) : Prop where
  onward : u.Onward s'
  fails : ∀ q ∈ caught, ∃ e t', (visit sb).node q.1 q.2 = .error e t' ∧ e.isCatchable = true
  before : ∀ q ∈ caught, u.Onward q.2 ∧ q.2.guard.steps < s'.guard.steps
  sorted : caught.Pairwise fun q q' => q'.2.guard.steps < q.2.guard.steps
  rest : ∀ v, (visit sb).Follows v → v.AgreesAt sb caught → c v s = p.pass (rest v s')
  /-- A fatal error in the place of the one caught last would not be caught. -/
  fatal : ∀ q earlier, caught = q :: earlier → ∀ v, (visit sb).Follows v → v.AgreesAt sb earlier →
    ∀ x t', v.node q.1 q.2 = .error x t' → x.isCatchable = false →
    ∃ y s'', c v s = .error y s'' ∧ y.kind = x.kind

namespace Catches

variable {O O' : Error → Prop} {c rest : Visit → Eval α} {s s' u : RunState} {p : Passage}
  {caught : List (Node × RunState)}

theorem start (h : ∀ v, (visit sb).Follows v → c v s = p.pass (rest v u)) :
    Catches sb c s u p [] rest u where
  onward := .refl u
  fails _ hq := absurd hq List.not_mem_nil
  before _ hq := absurd hq List.not_mem_nil
  sorted := .nil
  rest v hv _ := h v hv
  fatal _ _ h := nomatch h

/-- A visit that differs from that of the run where it fails agrees at all others. -/
theorem agreesAt {v : Visit} {n : Node} {t : RunState} (hoff : (visit sb).AgreesOff v n t)
    (h : (n, t) ∉ caught) : v.AgreesAt sb caught := by
  refine fun q hq => hoff q.1 q.2 ?_
  rintro ⟨rfl, rfl⟩
  exact h hq

/-- What comes up behind errors that were caught has counted more steps. -/
theorem not_mem (h : Catches sb c s u p caught rest s') {n : Node} {t : RunState} (ht : s'.Onward t) :
    (n, t) ∉ caught := by
  intro hq
  have := (h.before _ hq).2
  have := ht.steps
  dsimp only at *
  omega

/-- A visit that fails was caught unless the rest depends on it. -/
theorem mem_of_falls (h : Catches sb c s u p caught rest s') {n : Node} {t : RunState}
    (hfalls : Falls sb c s n t)
    (hrest : ∀ v, (visit sb).Follows v → (visit sb).AgreesOff v n t → rest v s' = rest (visit sb) s') :
    (n, t) ∈ caught := by
  obtain ⟨v, hoff, hne⟩ := hfalls.asked
  refine Classical.byContradiction fun hnot => hne ?_
  have hv := hfalls.fails.follows hoff
  rw [h.rest v hv (agreesAt hoff hnot), h.rest _ (.refl _) fun _ _ => rfl, hrest v hv hoff]

/-- What the last error that was caught comes from is what an error of its kind comes from. -/
theorem passesOn {q : Node × RunState} {earlier : List (Node × RunState)}
    (h : Catches sb c s u p (q :: earlier) rest s') {e : Error} {r : RunState}
    (hfixed : ∀ v, (visit sb).Follows v → rest v s' = .error e r) (hstems : e.StemsFrom sb q.1 q.2) :
    PassesOn sb c s q.1 q.2 := by
  obtain ⟨e₀, t₀, hq, hkind, -⟩ := hstems
  have fails : (visit sb).Fails q.1 q.2 := ⟨e₀, t₀, hq⟩
  refine ⟨⟨consults_of_fatal fun v hoff x t' hx hfatal => ?_, fails⟩, fun n' t' hfalls => ?_, ?_⟩
  · have hnot : (q.1, q.2) ∉ earlier := by
      intro hmem
      exact Nat.lt_irrefl _ ((List.pairwise_cons.1 h.sorted).1 _ hmem)
    exact h.fatal q earlier rfl v (fails.follows hoff) (agreesAt hoff hnot) x t' hx hfatal
  · -- any visit that fails was caught, as what is left fails by itself
    have hmem := h.mem_of_falls hfalls fun v hv _ => by rw [hfixed v hv, hfixed _ (.refl _)]
    rcases List.mem_cons.1 hmem with heq | hmem
    · exact .inl ⟨congrArg Prod.fst heq, congrArg Prod.snd heq⟩
    · exact .inr ((List.pairwise_cons.1 h.sorted).1 _ hmem)
  · refine ⟨p.error e, p.state r, e₀, t₀, ?_, hq, (p.kind e).trans hkind⟩
    rw [h.rest _ (.refl _) fun _ _ => rfl, hfixed _ (.refl _)]
    rfl

/-- A visit that fails is what the error comes from if neither its error nor a fatal one is caught. -/
theorem handed (h : Catches sb c s u p caught rest s') {n : Node} {t : RunState} {w : Passage}
    (onward : s'.Onward t) (fails : (visit sb).Fails n t)
    (answer : ∀ v, (visit sb).Follows v → ∀ e r, v.node n t = .error e r →
      e.isCatchable = false ∨ (visit sb).node n t = .error e r →
      rest v s' = .error (w.error e) (w.state r)) : EndsAt sb O c s u := by
  have hnot := h.not_mem (n := n) onward
  obtain ⟨e₀, t₀, hn⟩ := fails
  have fails : (visit sb).Fails n t := ⟨e₀, t₀, hn⟩
  have run : c (visit sb) s = .error (p.error (w.error e₀)) (p.state (w.state t₀)) := by
    rw [h.rest _ (.refl _) fun _ _ => rfl, answer _ (.refl _) e₀ t₀ hn (.inr hn)]
    rfl
  have hkind : (p.error (w.error e₀)).kind = e₀.kind := (p.kind _).trans (w.kind e₀)
  have hpassed : (p.error (w.error e₀)).passed = e₀.passed := (p.passed _).trans (w.passed e₀)
  refine .handed _ _ n t run ⟨e₀, t₀, hn, hkind, hpassed⟩ (h.onward.trans onward)
    ⟨⟨consults_of_fatal fun v hoff x t' hx hfatal => ?_, fails⟩, fun n' t' hfalls => ?_,
      _, _, e₀, t₀, run, hn, hkind⟩
  · have hv := fails.follows hoff
    refine ⟨p.error (w.error x), p.state (w.state t'), ?_, (p.kind _).trans (w.kind x)⟩
    rw [h.rest v hv (agreesAt hoff hnot), answer v hv x t' hx (.inl hfatal)]
    rfl
  · -- whatever is answered elsewhere this visit decides, so the other one was caught before it
    by_cases hsame : n' = n ∧ t' = t
    · exact .inl hsame
    · have hmem := h.mem_of_falls hfalls fun v hv hoff => by
        have hv' : v.node n t = .error e₀ t₀ := by
          rw [hoff n t fun heq => hsame ⟨heq.1.symm, heq.2.symm⟩, hn]
        rw [answer v hv e₀ t₀ hv' (.inr hn), answer _ (.refl _) e₀ t₀ hn (.inr hn)]
      exact .inr (Nat.lt_of_lt_of_le (h.before _ hmem).2 onward.steps)

/-- The end of an evaluation, from that of what is left of it: an error that comes up there is fatal if
others were caught before, or it is the last one that was caught. -/
theorem ends (h : Catches sb c s u p caught rest s') (hrest : ConveysAt sb O' rest s')
    (hown : ∀ e, O' e → O (p.error e) ∧ (caught = [] ∨ e.isCatchable = false) ∨
      ∃ q earlier, caught = q :: earlier ∧ e.StemsFrom sb q.1 q.2) : EndsAt sb O c s u := by
  have run := h.rest _ (.refl _) fun _ _ => rfl
  cases hrest with
  | ok a s'' _ fixed =>
    rw [fixed _ (.refl _)] at run
    exact .ok a s'' run
  | handed n t p' onward fails answer =>
    exact h.handed onward fails fun v hv e r he _ => answer v hv e r he
  | own e s'' _ among fixed =>
    have run' : c (visit sb) s = .error (p.error e) (p.state s'') := by
      rw [run, fixed _ (.refl _)]
      rfl
    rcases hown e among with ⟨hO, hcaught⟩ | ⟨q, earlier, rfl, hstems⟩
    · refine .own _ _ run' hO fun n t hpasses => ?_
      have hmem := h.mem_of_falls hpasses.falls fun v hv _ => by rw [fixed v hv, fixed _ (.refl _)]
      -- an error of a caught visit is catchable, the end is not
      rcases hcaught with rfl | hfatal
      · cases hmem
      · obtain ⟨e₀, t₀, hn, hcatch⟩ := h.fails _ hmem
        have hkind : e.kind = e₀.kind := (p.kind e).symm.trans (hpasses.kind_eq run' hn)
        rw [Error.isCatchable, hkind, ← Error.isCatchable, hcatch] at hfatal
        cases hfatal
    · obtain ⟨e₀, t₀, hq, hkind, hpassed⟩ := hstems
      exact .handed _ _ q.1 q.2 run'
        ⟨e₀, t₀, hq, (p.kind e).trans hkind, (p.passed e).trans hpassed⟩
        (h.before q List.mem_cons_self).1
        (h.passesOn fixed ⟨e₀, t₀, hq, hkind, hpassed⟩)

/-- An evaluation that is seized leaves one that goes on from its result or its error. A fatal error
ends what follows at once. -/
theorem seize {m : Visit → Eval β} {f : Visit → Except Error β → Eval α}
    (h : Catches sb c s u p caught (fun v => attempt (m v) >>= f v) s') (hm : ConveysAt sb O' m s')
    (hfatal : ∀ v e r, e.isCatchable = false → f v (.error e) r = .error e r)
    (hok : ∀ b s'', Catches sb c s u p caught (fun v => f v (.ok b)) s'' → EndsAt sb O c s u)
    (hown : ∀ e s'', O' e → Catches sb c s u p caught (fun v => f v (.error e)) s'' → EndsAt sb O c s u)
    (hcaught : ∀ q e s'', e.StemsFrom sb q.1 q.2 → e.isCatchable = true →
      Catches sb c s u p (q :: caught) (fun v => f v (.error e)) s'' → EndsAt sb O c s u) :
    EndsAt sb O c s u := by
  have next : ∀ s'', s'.Onward s'' → ∀ q ∈ caught, u.Onward q.2 ∧ q.2.guard.steps < s''.guard.steps :=
    fun s'' onward q hq => ⟨(h.before q hq).1, Nat.lt_of_lt_of_le (h.before q hq).2 onward.steps⟩
  have seized {v : Visit} : ∀ {r : EStateM.Result Error RunState β}, m v s' = r →
      (attempt (m v) >>= f v) s' = match r with
        | .ok b s'' => f v (.ok b) s''
        | .error e s'' => f v (.error e) s'' := by
    rintro r rfl
    simp only [bind_apply, attempt]
    cases m v s' <;> rfl
  cases hm with
  | ok b s'' onward fixed =>
    refine hok b s'' { h with
      onward := h.onward.trans onward
      before := next s'' onward
      rest := fun v hv hat => (h.rest v hv hat).trans ?_ }
    rw [seized (fixed v hv)]
  | own e s'' onward among fixed =>
    refine hown e s'' among { h with
      onward := h.onward.trans onward
      before := next s'' onward
      rest := fun v hv hat => (h.rest v hv hat).trans ?_ }
    rw [seized (fixed v hv)]
  | handed n t p' onward fails answer =>
    obtain ⟨e₀, t₀, hn⟩ := fails
    have ended {v : Visit} (hv : (visit sb).Follows v) {x : Error} {r : RunState}
        (hx : v.node n t = .error x r) :
        (attempt (m v) >>= f v) s' = f v (.error (p'.error x)) (p'.state r) :=
      seized (answer v hv x r hx)
    -- on its way up an error stays as fatal as it was
    have fatal (e : Error) (he : e.isCatchable = false) : (p'.error e).isCatchable = false := by
      rw [Error.isCatchable, p'.kind, ← Error.isCatchable, he]
    cases hcatch : e₀.isCatchable with
    | false =>
      refine h.handed (w := p') onward ⟨e₀, t₀, hn⟩ fun v hv e r he hwhich => ?_
      have he' : e.isCatchable = false := by
        rcases hwhich with he' | he'
        · exact he'
        · rw [hn] at he'
          cases he'
          exact hcatch
      rw [ended hv he, hfatal v _ _ (fatal e he')]
    | true =>
      -- the visit has counted its own step, which puts it before all that follows
      have counted : t.guard.steps < t₀.guard.steps := by
        have := steps_lt_of_node sb n t
        rw [hn] at this
        exact this
      have behind : t.Onward (p'.state t₀) :=
        .of_guard ((balance.node sb n).error hn).onward (p'.guard t₀)
      refine hcaught (n, t) (p'.error e₀) (p'.state t₀) ⟨e₀, t₀, hn, p'.kind e₀, p'.passed e₀⟩ ?_ {
        onward := (h.onward.trans onward).trans behind
        fails := List.forall_mem_cons.2 ⟨⟨e₀, t₀, hn, hcatch⟩, h.fails⟩
        before := List.forall_mem_cons.2 ⟨⟨h.onward.trans onward, ?_⟩, next _ (onward.trans behind)⟩
        sorted := List.pairwise_cons.2 ⟨fun q hq => ?_, h.sorted⟩
        rest := fun v hv hat => ?_
        fatal := ?_ }
      · rw [Error.isCatchable, p'.kind, ← Error.isCatchable, hcatch]
      · rw [p'.guard]
        exact counted
      · exact Nat.lt_of_lt_of_le (h.before q hq).2 onward.steps
      · rw [h.rest v hv fun q hq => hat q (List.mem_cons_of_mem _ hq),
          ended hv ((hat (n, t) List.mem_cons_self).trans hn)]
      · rintro _ _ ⟨⟩ v hv hat x t' hx hfat
        refine ⟨p.error (p'.error x), p.state (p'.state t'), ?_, (p.kind _).trans (p'.kind x)⟩
        rw [h.rest v hv hat, ended hv hx, hfatal v _ _ (fatal x hfat)]
        rfl

end Catches

end ScriptSandbox

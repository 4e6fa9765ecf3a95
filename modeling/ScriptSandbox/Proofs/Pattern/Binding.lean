import ScriptSandbox.Proofs.Pattern.Matching

/-!
# What a case binds

A case is tried without a trace where its pattern does not match or fails: no binding of any scope is
changed. Where it matches, the names of the settled pattern are bound in the current scope, each once
and to what it captures, and nothing else is, before the guard is evaluated (`case_binds`).
-/

namespace ScriptSandbox

open Eval

/-- What follows when a case has matched: its body if its guard holds, and else the next cases. -/
def Eval.enterCase (v : Visit) (subject : Value) (case : MatchCase) (rest : List MatchCase) :
    Eval Flow :=
  match case.guard with
  | none => block v case.body
  | some guard => do
    let holds ← v.expr guard
    if ← isTruthy holds then block v case.body else firstCase v subject rest

theorem Eval.firstCase_cons (v : Visit) (subject : Value) (case : MatchCase) (rest : List MatchCase)
    (s : RunState) : firstCase v subject (case :: rest) s =
      match matchPattern v case.pattern subject [] s with
      | .error e s' => .error e s'
      | .ok none s' => firstCase v subject rest s'
      | .ok (some captures) s' => enterCase v subject case rest (s'.bindAll captures) := by
  obtain ⟨pattern, guard, body⟩ := case
  show (matchPattern v pattern subject [] >>= _) s = _
  rw [bind_apply]
  cases matchPattern v pattern subject [] s with
  | error e s' => rfl
  | ok found s' =>
    cases found with
    | none => rfl
    | some captures =>
      dsimp only
      rw [bind_apply, defineAll_apply]
      rfl

theorem forall₂_names {old new : Store} {parts : Parts} {captures : Captures}
    (h : List.Forall₂ (fun part c => part.1 = c.1 ∧ part.2.Is old new c.2) parts captures) :
    parts.map Prod.fst = captures.map Prod.fst := by
  rw [← List.forall₂_eq_eq_eq, List.forall₂_map_left_iff, List.forall₂_map_right_iff]
  exact h.imp fun _ _ h => h.1

theorem forall₂_captures {old new : Store} {parts : Parts} {captures : Captures}
    (h : List.Forall₂ (fun part c => part.1 = c.1 ∧ part.2.Is old new c.2) parts captures) :
    ∀ part ∈ parts, ∃ value, (part.1, value) ∈ captures ∧ part.2.Is old new value := by
  induction h with
  | nil => exact nofun
  | @cons part c _ captures h _ ih =>
    refine List.forall_mem_cons.2 ⟨⟨c.2, h.1 ▸ List.mem_cons_self, h.2⟩, fun part' hpart => ?_⟩
    obtain ⟨value, hvalue, his⟩ := ih part' hpart
    exact ⟨value, List.mem_cons_of_mem _ hvalue, his⟩

/-- What trying a case changes, in a state with a current scope and a subject whose containers are in
the store: nothing but new containers and the count of steps where the pattern fails or does not
match. Where it matches, the pattern is settled on the first alternatives that fit, and the scope
binds the names of the settled pattern, each to the part of the subject that it was matched to. -/
theorem case_binds (sb : Sandbox) {subject : Value} {case : MatchCase} {s : RunState}
    (hs : s.Anchored) (hsubject : s.store.Holds subject) (hcase : case.pattern.IsConstant)
    (rest : List MatchCase) :
    (∀ e s', matchPattern (visit sb) case.pattern subject [] s = .error e s' →
      s.KeepsBindings s' ∧ firstCase (visit sb) subject (case :: rest) s = .error e s') ∧
    (∀ s', matchPattern (visit sb) case.pattern subject [] s = .ok none s' →
      s.KeepsBindings s' ∧ ¬ Fits s.store case.pattern subject ∧
      firstCase (visit sb) subject (case :: rest) s = firstCase (visit sb) subject rest s') ∧
    ∀ captures s', matchPattern (visit sb) case.pattern subject [] s = .ok (some captures) s' →
      s.KeepsBindings s' ∧
      s'.Rebinds (s'.bindAll captures) s.scopes.current (· ∈ captures.map Prod.fst) ∧
      firstCase (visit sb) subject (case :: rest) s =
        enterCase (visit sb) subject case rest (s'.bindAll captures) ∧
      ∃ settled parts, Settled s.store case.pattern subject settled parts ∧
        (captures.map Prod.fst).Perm settled.names ∧ settled.names.Nodup ∧
        (parts.map Prod.fst).Perm settled.names ∧
        ∀ part ∈ parts, ∃ value,
          ((s'.bindAll captures).scopes.scope s.scopes.current).lookup part.1 = some value ∧
          part.2.Is s.store s'.store value := by
  have hfinds := matchPattern_finds sb s.store hcase subject [] hsubject s (.refl _)
  refine ⟨fun e s' h => ?_, fun s' h => ?_, fun captures s' h => ?_⟩
  · rw [h] at hfinds
    exact ⟨hfinds, by rw [firstCase_cons, h]⟩
  · rw [h] at hfinds
    exact ⟨hfinds.1, hfinds.2, by rw [firstCase_cons, h]⟩
  · rw [h] at hfinds
    obtain ⟨hkeeps, parts, added, ⟨q, hsettled⟩, hadded, hparts, hnodup⟩ := hfinds
    obtain rfl : captures = added := hadded
    have hnames := forall₂_names hparts
    have hperm := hsettled.names_perm
    have hunique : (captures.map Prod.fst).Nodup := hnodup List.nodup_nil
    have hcurrent : s'.scopes.current = s.scopes.current := by rw [hkeeps.scopes]
    have hanchored : s'.Anchored := by
      unfold RunState.Anchored
      rw [hkeeps.scopes]
      exact hs
    rw [← hcurrent]
    refine ⟨hkeeps, RunState.rebinds_bindAll captures s' fun _ h => h, by rw [firstCase_cons, h], q,
      parts, hsettled, hnames ▸ hperm, hperm.nodup_iff.1 (hnames ▸ hunique), hperm,
      fun part hpart => ?_⟩
    obtain ⟨value, hvalue, his⟩ := forall₂_captures hparts part hpart
    exact ⟨value, RunState.lookup_bindAll_of_mem hanchored hunique hvalue, his⟩

/-- The list `[1, 2, 3, (4, 5)]`. -/
def endsInPair : Store :=
  { Store.empty with lists := #[#[.int 1, .int 2, .int 3, .tuple 0 #[.int 4, .int 5]]] }

/-- The case `[first, *middle, [2, x] | [y, 5]]`. -/
def firstAndPair : MatchCase where
  pattern := .sequence [Syntax.Build.capturePattern "first", .star (some "middle"),
    .or [.sequence [.value (Syntax.Build.int 2), Syntax.Build.capturePattern "x"],
      .sequence [Syntax.Build.capturePattern "y", .value (Syntax.Build.int 5)]]]
  guard := none
  body := []

theorem endsInPair_holds : endsInPair.Holds (.list ⟨0⟩) := by
  have number (n : Int64) : endsInPair.Holds (.int n) := .of_items nofun nofun nofun
  have pair : endsInPair.Holds (.tuple 0 #[.int 4, .int 5]) := by
    refine .of_items nofun nofun fun x hx => ?_
    cases hx with
    | tuple hx =>
      obtain rfl | rfl : x = .int 4 ∨ x = .int 5 := by simpa using hx
      · exact number 4
      · exact number 5
  have items : ∀ x ∈ endsInPair.list ⟨0⟩, endsInPair.Holds x := by
    have list : endsInPair.list ⟨0⟩ = #[.int 1, .int 2, .int 3, .tuple 0 #[.int 4, .int 5]] := rfl
    simp only [list, List.mem_toArray, List.forall_mem_cons]
    exact ⟨number 1, number 2, number 3, pair, nofun⟩
  refine .of_items (fun r hr => ?_) nofun fun x hx => ?_
  · cases hr
    exact Nat.one_pos
  · cases hx with
    | list hx => exact items x hx

/-- The second alternative matches the pair, and nothing is left of the first one. -/
theorem firstAndPair_binds :
    let s : RunState := .start endsInPair
    let captures : Captures := [("first", .int 1), ("y", .int 4), ("middle", .list ⟨1⟩)]
    s.Anchored ∧ s.store.Holds (.list ⟨0⟩) ∧ firstAndPair.pattern.IsConstant ∧
    ∃ s', matchPattern (visit unaided) firstAndPair.pattern (.list ⟨0⟩) [] s =
        .ok (some captures) s' ∧
      s'.store.list ⟨1⟩ = #[.int 2, .int 3] ∧
      ((s'.bindAll captures).scopes.scope s.scopes.current).lookup "x" = none ∧
      ∃ settled parts, Settled s.store firstAndPair.pattern (.list ⟨0⟩) settled parts ∧
        ["first", "y", "middle"].Perm settled.names := by
  intro s captures
  have hanchored : s.Anchored := Nat.one_pos
  have hconstant : firstAndPair.pattern.IsConstant := by
    intro e he
    obtain rfl | rfl : e = Syntax.Build.int 2 ∨ e = Syntax.Build.int 5 := by
      simpa [firstAndPair, Syntax.Build.capturePattern, Pattern.exprs, Pattern.exprsIn] using he
    · rfl
    · rfl
  obtain ⟨s', hmatch, hkept, hmiddle⟩ : ∃ s',
      matchPattern (visit unaided) firstAndPair.pattern (.list ⟨0⟩) [] s = .ok (some captures) s' ∧
      s'.scopes = s.scopes ∧ s'.store.list ⟨1⟩ = #[.int 2, .int 3] := by
    with_unfolding_all exact ⟨_, rfl, rfl, rfl⟩
  obtain ⟨-, -, hbinds⟩ := case_binds unaided hanchored endsInPair_holds hconstant []
  obtain ⟨-, hrebinds, -, settled, parts, hsettled, hperm, -⟩ := hbinds captures s' hmatch
  refine ⟨hanchored, endsInPair_holds, hconstant, s', hmatch, hmiddle, ?_, settled, parts, hsettled,
    hperm⟩
  rw [hrebinds.lookup "x" (by decide), hkept]
  rfl

end ScriptSandbox

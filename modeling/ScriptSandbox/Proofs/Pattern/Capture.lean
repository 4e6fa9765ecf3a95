import Mathlib.Data.List.Nodup
import ScriptSandbox.Eval.Pattern
import ScriptSandbox.Proofs.Assignment

/-!
# Captures

A name captures at most once in a pattern, and what a pattern captured is bound all at once, in the
current scope and nowhere else (`RunState.rebinds_bindAll`). A name that captured something has this
value then, whatever it had before (`RunState.lookup_bindAll`).
-/

namespace ScriptSandbox

open Eval

variable {captures captures' : Captures} {name : String} {value : Value} {s : RunState}

namespace Eval

theorem capture_eq_ok_iff : capture name value captures = .ok captures' ↔
    name ∉ captures.map Prod.fst ∧ captures' = captures ++ [(name, value)] := by
  have hany : captures.any (·.1 == name) = true ↔ name ∈ captures.map Prod.fst := by
    simp only [List.any_eq_true, beq_iff_eq, List.mem_map]
  unfold capture
  split
  · rename_i h
    exact ⟨nofun, fun h' => absurd (hany.1 h) h'.1⟩
  · rename_i h
    rw [Except.ok.injEq, eq_comm]
    exact ⟨fun h' => ⟨fun hmem => h (hany.2 hmem), h'⟩, fun h' => h'.2⟩

end Eval

/-- The state in which captures are bound in the current scope. -/
def RunState.bindAll (s : RunState) : Captures → RunState
  | [] => s
  | (name, value) :: rest =>
    RunState.bindAll { s with scopes := s.scopes.define name value } rest

theorem Eval.defineAll_apply : ∀ (captures : Captures) (s : RunState),
    defineAll captures s = .ok () (s.bindAll captures)
  | [], _ => rfl
  | (name, value) :: rest, s => defineAll_apply rest { s with scopes := s.scopes.define name value }

namespace RunState

theorem rebinds_bindAll {names : String → Prop} (captures : Captures) (s : RunState)
    (h : ∀ name ∈ captures.map Prod.fst, names name) :
    s.Rebinds (s.bindAll captures) s.scopes.current names := by
  induction captures generalizing s with
  | nil => exact .refl s
  | cons entry rest ih =>
    rw [List.map_cons, List.forall_mem_cons] at h
    exact (Rebinds.defineIn s s.scopes.current entry.2 h.1).trans (ih _ h.2)

@[simp] theorem store_bindAll (captures : Captures) (s : RunState) :
    (s.bindAll captures).store = s.store := by
  induction captures generalizing s with
  | nil => rfl
  | cons entry rest ih => exact ih _

@[simp] theorem guard_bindAll (captures : Captures) (s : RunState) :
    (s.bindAll captures).guard = s.guard := by
  induction captures generalizing s with
  | nil => rfl
  | cons entry rest ih => exact ih _

theorem bindAll_append (captures captures' : Captures) (s : RunState) :
    s.bindAll (captures ++ captures') = (s.bindAll captures).bindAll captures' := by
  induction captures generalizing s with
  | nil => rfl
  | cons entry rest ih => exact ih _

/-- What is bound depends on the scopes alone. -/
theorem scopes_bindAll_congr {s s' : RunState} (h : s.scopes = s'.scopes) (captures : Captures) :
    (s.bindAll captures).scopes = (s'.bindAll captures).scopes := by
  induction captures generalizing s s' with
  | nil => exact h
  | cons entry rest ih => exact ih (congrArg (·.define entry.1 entry.2) h)

/-- Of several captures with one name the last one counts. -/
theorem lookup_bindAll (captures : Captures) (hs : s.Anchored) (name : String) :
    ((s.bindAll captures).scopes.scope s.scopes.current).lookup name =
      (captures.reverse.lookup name).or ((s.scopes.scope s.scopes.current).lookup name) := by
  induction captures generalizing s with
  | nil => rfl
  | cons entry rest ih =>
    obtain ⟨first, value⟩ := entry
    have hdefined : RunState.Anchored { s with scopes := s.scopes.define first value } := by
      simpa [Anchored, Scopes.define, Scopes.defineIn] using hs
    rw [List.reverse_cons, List.lookup_append, Option.or_assoc]
    refine (ih hdefined).trans ?_
    show _ = (rest.reverse.lookup name).or
      ((List.lookup name [(first, value)]).or ((s.scopes.scope s.scopes.current).lookup name))
    refine congrArg _ ?_
    show ((s.scopes.defineIn s.scopes.current first value).scope s.scopes.current).lookup name = _
    rw [Scopes.scope_defineIn hs, Scope.lookup_define, List.lookup_cons]
    by_cases hname : name = first
    · simp [hname]
    · simp [hname, beq_false_of_ne hname]

/-- A name that captured one value only has it. -/
theorem lookup_bindAll_of_unique (hs : s.Anchored) (hmem : (name, value) ∈ captures)
    (hunique : ∀ other, (name, other) ∈ captures → other = value) :
    ((s.bindAll captures).scopes.scope s.scopes.current).lookup name = some value := by
  have hlookup : captures.reverse.lookup name = some value := by
    cases h : captures.reverse.lookup name with
    | none =>
      have hne := List.lookup_eq_none_iff.1 h (name, value) (List.mem_reverse.2 hmem)
      simp at hne
    | some other =>
      obtain ⟨before, after, heq, -⟩ := List.lookup_eq_some_iff.1 h
      rw [hunique other (List.mem_reverse.1 (heq ▸ by simp))]
  rw [lookup_bindAll _ hs, hlookup, Option.some_or]

theorem lookup_bindAll_of_mem (hs : s.Anchored) (hnodup : (captures.map Prod.fst).Nodup)
    (hmem : (name, value) ∈ captures) :
    ((s.bindAll captures).scopes.scope s.scopes.current).lookup name = some value := by
  refine lookup_bindAll_of_unique hs hmem fun other hother => ?_
  have heq := List.inj_on_of_nodup_map hnodup hother hmem rfl
  exact congrArg Prod.snd heq

end RunState

end ScriptSandbox

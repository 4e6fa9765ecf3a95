import ScriptSandbox.Proofs.Change

/-!
# Functions and the scopes of their callers

A call enters a new scope inside the one that the function was made in, whatever scope is current,
and puts the current scope back. So a call cannot tell from which scope it is made
(`call_lexical`): what runs in the new scope starts from the same state. Links between scopes are set
when a scope is made and never change, so a name that the function does not bind itself is looked up
along the chain that the function has captured.

A named expression binds its name past the scopes of comprehensions, in the first scope on the chain of
the current one that is not a comprehension's or has none around it (`Scopes.FrameOf`). Neither the
links nor the kinds of scopes ever change, so this scope stays the same while other scopes are entered
and left.
-/

namespace ScriptSandbox

open Eval

/-- Two states that differ at most in which scope is current. -/
structure RunState.SameButScope (s t : RunState) : Prop where
  store : t.store = s.store
  scopes : t.scopes.scopes = s.scopes.scopes
  settled : t.scopes.settled = s.scopes.settled
  guard : t.guard = s.guard
  copies : t.copies = s.copies
  handling : t.handling = s.handling

/-- Two evaluations end alike: with the same result or the same error, kind, place and trace, and in
states that differ at most in which scope is current. -/
inductive Eval.EndAlike {α : Type} :
    EStateM.Result Error RunState α → EStateM.Result Error RunState α → Prop where
  | ok (a : α) {s t : RunState} : s.SameButScope t → EndAlike (.ok a s) (.ok a t)
  | error (e : Error) {s t : RunState} : s.SameButScope t → EndAlike (.error e s) (.error e t)

namespace RunState.SameButScope

variable {s t : RunState}

theorem setGuard (h : s.SameButScope t) (guard : Guard) :
    SameButScope { s with guard } { t with guard } := { h with guard := rfl }

/-- Entering a scope forgets which one was current. -/
theorem enter (h : s.SameButScope t) (kind : ScopeKind) (parent : Option ScopeRef) :
    { s with scopes := s.scopes.enter kind parent } =
      { t with scopes := t.scopes.enter kind parent } := by
  obtain ⟨store, ⟨scopes, current, settled⟩, guard, copies, handling⟩ := s
  obtain ⟨_, ⟨_, current', _⟩, _, _, _⟩ := t
  obtain ⟨rfl, rfl, rfl, rfl, rfl, rfl⟩ := h
  rfl

/-- Behind a call any scope may be made current again. -/
theorem restored (s : RunState) (r r' : ScopeRef) :
    (restoreScope r s).SameButScope (restoreScope r' s) := ⟨rfl, rfl, rfl, rfl, rfl, rfl⟩

end RunState.SameButScope

namespace Eval

variable {α : Type} {s t : RunState} {r r' : EStateM.Result Error RunState α}

theorem inScope_alike (h : s.SameButScope t) (kind : ScopeKind) (parent : Option ScopeRef)
    (m : Eval α) : EndAlike (inScope kind parent m s) (inScope kind parent m t) := by
  have entered (s : RunState) : inScope kind parent m s =
      ensuring m (restoreScope s.scopes.current)
        { s with scopes := s.scopes.enter kind parent } := rfl
  rw [entered, entered, ← h.enter]
  simp only [ensuring]
  cases m { s with scopes := s.scopes.enter kind parent } with
  | ok a s' => exact .ok a (.restored s' _ _)
  | error e s' => exact .error e (.restored s' _ _)

theorem traced_alike (name : String) (span : Span) {m : Eval α} (h : EndAlike (m s) (m t)) :
    EndAlike (traced name span m s) (traced name span m t) := by
  simp only [traced]
  generalize m s = r at h
  generalize m t = r' at h
  cases h with
  | ok a h => exact .ok a h
  | error e h => exact .error _ h

theorem leaveCall_alike {m : Eval α} (h : EndAlike (m s) (m t)) :
    EndAlike (ensuring m leaveCall s) (ensuring m leaveCall t) := by
  have left {s t : RunState} (h : s.SameButScope t) : (leaveCall s).SameButScope (leaveCall t) :=
    { h with guard := by simp only [leaveCall, h.guard] }
  simp only [ensuring]
  generalize m s = r at h
  generalize m t = r' at h
  cases h with
  | ok a h => exact .ok a (left h)
  | error e h => exact .error e (left h)

theorem inCall_alike (sb : Sandbox) (name : String) (span : Span) (scope : ScopeRef) (m : Eval α)
    (h : s.SameButScope t) :
    EndAlike (inCall sb name span scope m s) (inCall sb name span scope m t) := by
  have hguard := h.guard
  simp only [inCall, bind_apply, liftM, monadLift, MonadLift.monadLift, onGuard, hguard]
  cases Guard.enterCall sb.limits sb.clock s.guard with
  | error e guard => exact .error e (h.setGuard guard)
  | ok _ guard =>
    exact traced_alike name span (leaveCall_alike (inScope_alike (h.setGuard guard) _ _ m))

end Eval

/-! ## Links between scopes -/

/-- Between two states scopes have been added and bound in, and the links of those that there were
have stayed. -/
structure RunState.KeepsLinks (s s' : RunState) : Prop where
  size : s.scopes.scopes.size ≤ s'.scopes.scopes.size
  parent : ∀ r : ScopeRef, r.index < s.scopes.scopes.size →
    (s'.scopes.scope r).parent = (s.scopes.scope r).parent

namespace RunState.KeepsLinks

variable {s s' : RunState}

/-- Links are a matter of the scopes alone, and not of which one is current. -/
theorem of_scopes (h : s'.scopes.scopes = s.scopes.scopes) : s.KeepsLinks s' where
  size := Nat.le_of_eq (congrArg Array.size h).symm
  parent r _ := by simp only [Scopes.scope, h]

instance : Std.Refl RunState.KeepsLinks where
  refl _ := of_scopes rfl

instance : Trans RunState.KeepsLinks RunState.KeepsLinks RunState.KeepsLinks where
  trans h h' :=
    ⟨Nat.le_trans h.size h'.size, fun r hr =>
      (h'.parent r (Nat.lt_of_lt_of_le hr h.size)).trans (h.parent r hr)⟩

theorem defineIn (s : RunState) (r : ScopeRef) (name : String) (value : Value) :
    s.KeepsLinks { s with scopes := s.scopes.defineIn r name value } := by
  have h : s.Rebinds { s with scopes := s.scopes.defineIn r name value } r fun _ => True :=
    .defineIn s r value True.intro
  refine ⟨Nat.le_of_eq h.size.symm, fun r' _ => ?_⟩
  by_cases heq : r' = r
  · rw [heq, h.parent]
  · rw [h.others r' heq]

theorem enter (s : RunState) (kind : ScopeKind) (parent : Option ScopeRef) :
    s.KeepsLinks { s with scopes := s.scopes.enter kind parent } where
  size := by simp [Scopes.enter]
  parent r hr := by simp [Scopes.enter, Scopes.scope, Array.getElem?_push, Nat.ne_of_lt hr]

/-- Along the same links, the same scopes are come to. -/
theorem path_eq (h : s.KeepsLinks s') {r : ScopeRef} (hr : r.index < s.scopes.scopes.size) :
    s'.scopes.path r = s.scopes.path r := by
  rw [Scopes.path, Scopes.path, h.parent r hr]
  cases (s.scopes.scope r).parent with
  | none => rfl
  | some outer =>
    dsimp only
    split
    · rw [path_eq h (r := outer) (by omega)]
    · rfl
termination_by r.index

end RunState.KeepsLinks

theorem RunState.Change.keepsLinks {s s' : RunState} (h : s.Change s') : s.KeepsLinks s' := by
  cases h with
  | bind r name value => exact .defineIn s r name value
  | enter kind parent => exact .enter s kind parent
  | _ => exact .of_scopes rfl

theorem RunState.Evolves.keepsLinks {s s' : RunState} (h : s.Evolves s') : s.KeepsLinks s' :=
  h.of_change RunState.Change.keepsLinks

/-- No evaluation changes a link. -/
theorem visit_keepsLinks (sb : Sandbox) (n : Node) (s : RunState) :
    s.KeepsLinks (((visit sb).node n).after s) := (visit_evolves sb n s).keepsLinks

/-! ## Calls -/

/-- The state in which a function's own scope has been entered. -/
def RunState.entering (s : RunState) (f : Closure) : RunState :=
  { s with scopes := s.scopes.enter .function (some f.scope) }

namespace Scopes

theorem path_enter (s : Scopes) (kind : ScopeKind) {r : ScopeRef} (hr : r.index < s.scopes.size) :
    (s.enter kind (some r)).path (s.enter kind (some r)).current =
      (s.enter kind (some r)).current :: (s.enter kind (some r)).path r := by
  have hparent : ((s.enter kind (some r)).scope (s.enter kind (some r)).current).parent = some r := by
    simp [Scopes.scope, Scopes.enter]
  rw [Scopes.path, hparent]
  exact if_pos hr

/-- A name is looked up in the first scope of a chain and then along the rest. -/
theorem resolve?_of_path {s : Scopes} {r outer : ScopeRef} (h : s.path r = r :: s.path outer)
    (name : String) : s.resolve? r name = ((s.scope r).lookup name).or (s.resolve? outer name) := by
  rw [Scopes.resolve?, h, List.findSome?_cons]
  cases (s.scope r).lookup name <;> rfl

end Scopes

/-- In a function's own scope names are looked up there and then along the chain of scopes that the
function has captured, as it was linked before the call. -/
theorem path_in_call {s u : RunState} {f : Closure} (hf : f.scope.index < s.scopes.scopes.size)
    (hu : (s.entering f).KeepsLinks u) :
    u.scopes.path (s.entering f).scopes.current =
      (s.entering f).scopes.current :: s.scopes.path f.scope ∧
    s.scopes.path f.scope = u.scopes.path f.scope := by
  have enter : s.KeepsLinks (s.entering f) := .enter s .function (some f.scope)
  have hscope : f.scope.index < (s.entering f).scopes.scopes.size := Nat.lt_of_lt_of_le hf enter.size
  have hcurrent : (s.entering f).scopes.current.index < (s.entering f).scopes.scopes.size := by
    simp [RunState.entering, Scopes.enter]
  have chain : (s.entering f).scopes.path f.scope = s.scopes.path f.scope := enter.path_eq hf
  refine ⟨?_, ?_⟩
  · rw [hu.path_eq hcurrent, ← chain]
    exact s.scopes.path_enter .function hf
  · rw [hu.path_eq hscope, chain]

/-- Calls of a script function from two states that differ at most in which scope is current end
alike, and each leaves the current scope that it was made from. While the function runs, its links
stay as they are, and a name that it does not bind itself is looked up along the scopes that the
function has captured, whatever scope the call is made from. -/
theorem call_lexical (sb : Sandbox) (f : Closure) (args : Arguments) (span : Span) {s t : RunState}
    (h : s.SameButScope t) :
    EndAlike (callValue sb (visit sb) (.function f) args span s)
      (callValue sb (visit sb) (.function f) args span t) ∧
    ((callValue sb (visit sb) (.function f) args span).after s).scopes.current = s.scopes.current ∧
    ((callValue sb (visit sb) (.function f) args span).after t).scopes.current = t.scopes.current ∧
    (∀ n (u : RunState), u.KeepsLinks (((visit sb).node n).after u)) ∧
    (f.scope.index < s.scopes.scopes.size → ∀ u, (s.entering f).KeepsLinks u → ∀ name,
      u.scopes.resolve? (s.entering f).scopes.current name =
        ((u.scopes.scope (s.entering f).scopes.current).lookup name).or
          (u.scopes.resolve? f.scope name)) := by
  have balanced : Balances (fun _ => True) (callValue sb (visit sb) (.function f) args span) :=
    Congruence.callValue (C := balance sb) (balance.visit sb) span True.intro
      ⟨fun _ _ => True.intro, fun _ _ => True.intro, True.intro⟩
  refine ⟨inCall_alike sb f.name span f.scope _ h, (balanced.after s).current,
    (balanced.after t).current, fun n u => visit_keepsLinks sb n u, fun hf u hu name => ?_⟩
  obtain ⟨hpath, hsame⟩ := path_in_call hf hu
  exact Scopes.resolve?_of_path (by rw [hpath, hsame]) name

/-! ### A caller with a variable of the same name -/

/-- In the module's scope `x` is 1, and in a scope inside it `x` is 2; the module's is current. -/
def twoNames : RunState :=
  { RunState.start .empty with
    scopes :=
      { Scopes.start with
        scopes := #[⟨.module, [("x", .int 1)], none⟩,
          ⟨.function, [("x", .int 2)], some Scopes.global⟩] } }

/-- The function `lambda: x` of the module's scope. -/
def readsX : Closure :=
  ⟨0, "<lambda>", none, .lambda ⟨Syntax.Build.params [], Syntax.Build.name "x"⟩, Scopes.global⟩

/-- Called from the inner scope, the function still gives the 1 of the scope it was made in. -/
theorem readsX_lexical :
    twoNames.SameButScope (restoreScope ⟨1⟩ twoNames) ∧
    (∃ s', callValue unaided (visit unaided) (.function readsX) ⟨[], []⟩ .dummy
        (restoreScope ⟨1⟩ twoNames) = .ok (.int 1) s' ∧ s'.scopes.current = ⟨1⟩) ∧
    EndAlike (callValue unaided (visit unaided) (.function readsX) ⟨[], []⟩ .dummy twoNames)
      (callValue unaided (visit unaided) (.function readsX) ⟨[], []⟩ .dummy
        (restoreScope ⟨1⟩ twoNames)) ∧
    readsX.scope.index < twoNames.scopes.scopes.size ∧
    (twoNames.entering readsX).scopes.resolve? (twoNames.entering readsX).scopes.current "x" =
      some (.int 1) := by
  have same : twoNames.SameButScope (restoreScope ⟨1⟩ twoNames) := .restored twoNames _ _
  have ends : callValue unaided (visit unaided) (.function readsX) ⟨[], []⟩ .dummy
      (restoreScope ⟨1⟩ twoNames) = .ok (.int 1)
        ((callValue unaided (visit unaided) (.function readsX) ⟨[], []⟩ .dummy).after
          (restoreScope ⟨1⟩ twoNames)) := by
    with_unfolding_all rfl
  have captured : readsX.scope.index < twoNames.scopes.scopes.size := Nat.two_pos
  obtain ⟨alike, -, current, -, resolved⟩ := call_lexical unaided readsX ⟨[], []⟩ .dummy same
  refine ⟨same, ⟨_, ends, current⟩, alike, captured, ?_⟩
  rw [resolved captured (twoNames.entering readsX) (Std.Refl.refl _) "x"]
  with_unfolding_all rfl

/-! ## The scope that named expressions bind in -/

namespace Scopes

variable {s : Scopes} {r r' f : ScopeRef}

/-- `s.FrameOf r f`: on the chain of the scope `r`, `f` is the first scope that is not a comprehension's
or has no scope around it. -/
def FrameOf (s : Scopes) (r f : ScopeRef) : Prop :=
  ∃ inner outer, s.path r = inner ++ f :: outer ∧
    (∀ r' ∈ inner, (s.scope r').kind = .comprehension ∧ (s.scope r').parent ≠ none) ∧
    ((s.scope f).kind ≠ .comprehension ∨ (s.scope f).parent = none)

theorem frameOf_iff : s.FrameOf r f ↔ (s.path r).find? (fun r =>
    (s.scope r).kind ≠ .comprehension || (s.scope r).parent.isNone) = some f := by
  have ends : ((s.scope f).kind ≠ .comprehension || (s.scope f).parent.isNone) = true ↔
      (s.scope f).kind ≠ .comprehension ∨ (s.scope f).parent = none := by
    simp [Option.isNone_iff_eq_none]
  have skips (r' : ScopeRef) :
      (!((s.scope r').kind ≠ .comprehension || (s.scope r').parent.isNone)) = true ↔
        (s.scope r').kind = .comprehension ∧ (s.scope r').parent ≠ none := by
    simp [Option.isSome_iff_ne_none]
  rw [List.find?_eq_some_iff_append, ends, FrameOf]
  simp only [skips]
  constructor
  · rintro ⟨inner, outer, hpath, hinner, hlast⟩
    exact ⟨hlast, inner, outer, hpath, hinner⟩
  · rintro ⟨hlast, inner, outer, hpath, hinner⟩
    exact ⟨inner, outer, hpath, hinner, hlast⟩

theorem FrameOf.frame_eq (h : s.FrameOf r f) : s.frame r = f := by
  rw [frame, frameOf_iff.1 h, Option.getD_some]

/-- Links lead to older scopes. -/
theorem index_le_of_mem_path {r : ScopeRef} (h : r' ∈ s.path r) : r'.index ≤ r.index := by
  rw [path] at h
  split at h
  · rw [List.mem_singleton.1 h]
  · split at h
    · rcases List.mem_cons.1 h with rfl | hmem
      · exact Nat.le_refl _
      · exact Nat.le_trans (index_le_of_mem_path hmem) (Nat.le_of_lt ‹_›)
    · rw [List.mem_singleton.1 h]
termination_by r.index

end Scopes

/-- Between two states scopes have been added and bound in, and the links and kinds of those that there
were have stayed. -/
structure RunState.KeepsFrames (s s' : RunState) : Prop extends s.KeepsLinks s' where
  kind : ∀ r : ScopeRef, r.index < s.scopes.scopes.size →
    (s'.scopes.scope r).kind = (s.scopes.scope r).kind

namespace RunState.KeepsFrames

variable {s s' : RunState} {r f : ScopeRef}

theorem of_scopes (h : s'.scopes.scopes = s.scopes.scopes) : s.KeepsFrames s' :=
  ⟨.of_scopes h, fun r _ => by simp only [Scopes.scope, h]⟩

instance : Std.Refl RunState.KeepsFrames where
  refl _ := of_scopes rfl

instance : Trans RunState.KeepsFrames RunState.KeepsFrames RunState.KeepsFrames where
  trans h h' := ⟨Trans.trans h.toKeepsLinks h'.toKeepsLinks, fun r hr =>
    (h'.kind r (Nat.lt_of_lt_of_le hr h.size)).trans (h.kind r hr)⟩

theorem of_rebinds {names : String → Prop} (h : s.Rebinds s' r names) : s.KeepsFrames s' := by
  refine ⟨⟨Nat.le_of_eq h.size.symm, fun r' _ => ?_⟩, fun r' _ => ?_⟩
  all_goals
    by_cases heq : r' = r
    · rw [heq]
      first | exact h.parent | exact h.kind
    · rw [h.others r' heq]

theorem defineIn (s : RunState) (r : ScopeRef) (name : String) (value : Value) :
    s.KeepsFrames { s with scopes := s.scopes.defineIn r name value } := by
  have h : s.Rebinds { s with scopes := s.scopes.defineIn r name value } r fun _ => True :=
    .defineIn s r value True.intro
  exact of_rebinds h

theorem enter (s : RunState) (kind : ScopeKind) (parent : Option ScopeRef) :
    s.KeepsFrames { s with scopes := s.scopes.enter kind parent } where
  toKeepsLinks := .enter s kind parent
  kind r hr := by simp [Scopes.enter, Scopes.scope, Array.getElem?_push, Nat.ne_of_lt hr]

theorem frameOf (h : s.KeepsFrames s') (hr : r.index < s.scopes.scopes.size)
    (hf : s.scopes.FrameOf r f) : s'.scopes.FrameOf r f := by
  obtain ⟨inner, outer, hpath, hinner, hlast⟩ := hf
  have older : ∀ r' ∈ inner ++ f :: outer, r'.index < s.scopes.scopes.size := fun r' hr' =>
    Nat.lt_of_le_of_lt (Scopes.index_le_of_mem_path (hpath ▸ hr')) hr
  refine ⟨inner, outer, by rw [h.path_eq hr, hpath], fun r' hr' => ?_, ?_⟩
  · rw [h.kind r' (older r' (by simp [hr'])), h.parent r' (older r' (by simp [hr']))]
    exact hinner r' hr'
  · rw [h.kind f (older f (by simp)), h.parent f (older f (by simp))]
    exact hlast

end RunState.KeepsFrames

/-- A comprehension's scope has the frame of the scope around it. -/
theorem Scopes.FrameOf.enter {s : RunState} {r f : ScopeRef} (hr : r.index < s.scopes.scopes.size)
    (hf : s.scopes.FrameOf r f) :
    (s.scopes.enter .comprehension (some r)).FrameOf ⟨s.scopes.scopes.size⟩ f := by
  have keeps := RunState.KeepsFrames.enter s .comprehension (some r)
  obtain ⟨inner, outer, hpath, hinner, hlast⟩ := keeps.frameOf hr hf
  refine ⟨⟨s.scopes.scopes.size⟩ :: inner, outer, ?_, List.forall_mem_cons.2 ⟨?_, hinner⟩, hlast⟩
  · rw [List.cons_append, ← hpath]
    exact s.scopes.path_enter .comprehension hr
  · simp [Scopes.enter, Scopes.scope]

/-- No evaluation changes a link or a kind. -/
theorem visit_keepsFrames (sb : Sandbox) (n : Node) (s : RunState) :
    s.KeepsFrames (((visit sb).node n).after s) := by
  refine (visit_evolves sb n).of_change (fun {s s'} h => ?_) s
  cases h with
  | bind r name value => exact .defineIn s r name value
  | enter kind parent => exact .enter s kind parent
  | _ => exact .of_scopes rfl

end ScriptSandbox

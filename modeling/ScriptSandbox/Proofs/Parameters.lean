import ScriptSandbox.Proofs.Arrangement
import ScriptSandbox.Proofs.Pattern.Settled
import ScriptSandbox.Proofs.Visit

/-!
# Parameters

A call binds the arguments that came for its parameters, then the defaults of the other ones, then
the rests. Where the defaults are constants this succeeds exactly if the parameters accept the
arguments, unless a quota runs out, and no argument is lost or bound twice (`binding`).
-/

namespace ScriptSandbox

open Eval Arrangement

/-! ## What parameters accept -/

namespace Parameters

/-- The names that a call binds. -/
def names (params : Parameters) : List String :=
  (params.positional ++ params.kwonly).map Param.name ++
    (params.vararg.toList ++ params.kwarg.toList)

/-- Whether an argument comes for a parameter of a name, by position or by name. -/
def Receives (params : Parameters) (args : Arguments) (name : String) : Prop :=
  name ∈ (params.positional.take args.positional.length).map Param.name ∨
    name ∈ params.named.map Param.name ∧ name ∈ args.keywords.map Prod.fst

instance (params : Parameters) (args : Arguments) (name : String) :
    Decidable (params.Receives args name) := inferInstanceAs (Decidable (_ ∨ _ ∧ _))

/-- There is a place for each argument, and an argument or a default for each parameter. -/
structure Accepts (params : Parameters) (args : Arguments) : Prop where
  room : params.Room args.positional.length
  places : ∀ name ∈ args.keywords.map Prod.fst, params.Places args.positional.length name
  complete : ∀ p ∈ params.positional ++ params.kwonly, ¬ params.Receives args p.name →
    p.default.isSome

/-- The defaults that a call needs. -/
def needed (params : Parameters) (args : Arguments) : List Param :=
  (params.positional ++ params.kwonly).filter fun p =>
    !decide (params.Receives args p.name) && p.default.isSome

/-- Arguments are bound: positional ones to the positional parameters in order and then in the rest,
keyword arguments to the parameters of their names and else in the keyword rest, and the other
parameters to their defaults. No other name changes. -/
structure Bound (params : Parameters) (args : Arguments) (s s' : RunState) : Prop where
  positional : ∀ (i : Nat) (p : Param) (value : Value), params.positional[i]? = some p →
    args.positional[i]? = some value →
    (s'.scopes.scope s.scopes.current).lookup p.name = some value
  rest : ∀ name, params.vararg = some name → ∃ id,
    (s'.scopes.scope s.scopes.current).lookup name =
      some (.tuple id (args.positional.drop params.positional.length).toArray)
  keyword : ∀ p ∈ params.named, ∀ value, (p.name, value) ∈ args.keywords →
    (s'.scopes.scope s.scopes.current).lookup p.name = some value
  keywordRest : ∀ name, params.kwarg = some name → ∃ r,
    (s'.scopes.scope s.scopes.current).lookup name = some (.dict r) ∧
    s.store.dicts.size ≤ r.index ∧
    (s'.store.dict r).toList = (args.keywords.filter fun k => k.1 ∉ params.named.map Param.name).map
      fun k => (.str k.1, k.2)
  default : ∀ p ∈ params.positional ++ params.kwonly, ¬ params.Receives args p.name →
    ∃ e value, p.default = some e ∧ e.constant? = some value ∧
      (s'.scopes.scope s.scopes.current).lookup p.name = some value
  others : ∀ name ∉ params.names, (s'.scopes.scope s.scopes.current).lookup name =
    (s.scopes.scope s.scopes.current).lookup name
  current : s'.scopes.current = s.scopes.current

end Parameters

/-! ## Steps of binding -/

namespace RunState

/-- Between two states captures have been bound in the current scope, and some steps counted. -/
structure Binds (s s' : RunState) (steps : Nat) (captures : Captures) : Prop where
  scopes : s'.scopes = (s.bindAll captures).scopes
  store : s.store.Grown s'.store
  steps : s'.guard.steps = s.guard.steps + steps

theorem Binds.trans {s s' s'' : RunState} {m n : Nat} {captures captures' : Captures}
    (h : s.Binds s' m captures) (h' : s'.Binds s'' n captures') :
    s.Binds s'' (m + n) (captures ++ captures') where
  scopes := by
    rw [h'.scopes, bindAll_append]
    exact scopes_bindAll_congr h.scopes captures'
  store := h.store.trans h'.store
  steps := by rw [h'.steps, h.steps, Nat.add_assoc]

end RunState

namespace Eval

variable {sb : Sandbox} {s : RunState} {slots : List Slot}

/-- The arguments in slots, by the names of their parameters. -/
def supplied (slots : List Slot) : Captures :=
  slots.filterMap fun slot => slot.value.map (slot.param.name, ·)

/-- The default of a parameter that received nothing. -/
def Slot.default? (slot : Slot) : Option Value :=
  if slot.value.isSome then none else slot.param.default.bind Expr.constant?

/-- The defaults of parameters that received nothing. -/
def defaulted (slots : List Slot) : Captures :=
  slots.filterMap fun slot => slot.default?.map (slot.param.name, ·)

/-- Parameters that received nothing and have no default. -/
def missing (slots : List Slot) : List Slot :=
  slots.filter fun slot => slot.value.isNone && slot.param.default.isNone

/-- The defaults of parameters are constants. -/
def ConstantDefaults (slots : List Slot) : Prop :=
  ∀ slot ∈ slots, ∀ e, slot.param.default = some e → ∃ value, e.constant? = some value

theorem defineSupplied_apply : ∀ (slots : List Slot) (s : RunState),
    defineSupplied slots s = .ok () (s.bindAll (supplied slots))
  | [], _ => rfl
  | ⟨param, some value⟩ :: rest, s =>
    defineSupplied_apply rest { s with scopes := s.scopes.define param.name value }
  | ⟨_, none⟩ :: rest, s => defineSupplied_apply rest s

theorem supplied_binds (slots slots' : List Slot) (s : RunState) :
    s.Binds (s.bindAll (supplied slots ++ supplied slots')) 0 (supplied slots ++ supplied slots') where
  scopes := rfl
  store := by
    rw [RunState.store_bindAll]
    exact .refl _
  steps := by
    rw [RunState.guard_bindAll]
    rfl

/-- How defaults are bound. -/
def Defaults (sb : Sandbox) (s : RunState) (slots : List Slot) (before : List String) :
    EStateM.Result Error RunState (List String) → Prop
  | .ok names s' => names = before ++ (missing slots).map (·.param.name) ∧
      s.Binds s' (defaulted slots).length (defaulted slots)
  | .error e _ => s.OutOfSteps sb (defaulted slots).length e.kind

/-- One parameter before the others: it is bound to its default or it is missing, or neither. -/
theorem Defaults.cons {s' : RunState} {slot : Slot} {before : List String}
    {r : EStateM.Result Error RunState (List String)} (captures : Captures) (names : List String)
    (hbinds : s.Binds s' captures.length captures)
    (hdefaulted : defaulted (slot :: slots) = captures ++ defaulted slots)
    (hmissing : (missing (slot :: slots)).map (·.param.name) =
      names ++ (missing slots).map (·.param.name))
    (h : Defaults sb s' slots (before ++ names) r) : Defaults sb s (slot :: slots) before r := by
  cases r with
  | ok all s'' =>
    obtain ⟨hnames, hrest⟩ := h
    refine ⟨by rw [hnames, hmissing, List.append_assoc], ?_⟩
    rw [hdefaulted, List.length_append]
    exact hbinds.trans hrest
  | error e s'' =>
    have hsteps := hbinds.steps
    refine RunState.OutOfSteps.mono h (by omega) ?_
    rw [hsteps, hdefaulted, List.length_append]
    omega

theorem defineDefaults_ends (sb : Sandbox) (hslots : ConstantDefaults slots) (before : List String)
    (s : RunState) :
    Defaults sb s slots before (defineDefaults (visit sb) before slots s) := by
  -- on the slots, with the names that are missing so far
  induction slots generalizing before s with
  | nil => exact ⟨(List.append_nil _).symm, rfl, .refl _, rfl⟩
  | cons slot rest ih =>
    obtain ⟨hslot, hrest⟩ := List.forall_mem_cons.1 hslots
    obtain ⟨⟨name, default⟩, value⟩ := slot
    have unbound : s.Binds s 0 [] := ⟨rfl, .refl _, rfl⟩
    cases value with
    | some value =>
      refine Defaults.cons [] [] unbound rfl rfl ?_
      rw [List.append_nil]
      exact ih hrest before s
    | none =>
      cases default with
      | none => exact Defaults.cons [] [name] unbound rfl rfl (ih hrest (before ++ [name]) s)
      | some e =>
        obtain ⟨value, he⟩ := hslot e rfl
        have hdefault : defaulted (⟨⟨name, some e⟩, none⟩ :: rest) =
            [(name, value)] ++ defaulted rest := by
          simp [defaulted, Slot.default?, he]
        rw [defineDefaults, bind_apply]
        rcases expr_constant sb he s with ⟨e', h, hout⟩ | h
        · rw [h]
          refine hout.mono (Nat.le_refl _) ?_
          rw [hdefault, List.length_append, List.length_singleton]
          omega
        · rw [h]
          have bound : s.Binds { s.stepped with scopes := s.scopes.define name value } 1
            [(name, value)] := ⟨rfl, .refl _, rfl⟩
          refine Defaults.cons [(name, value)] [] bound hdefault rfl ?_
          rw [List.append_nil]
          exact ih hrest before _

/-- How the defaults of one kind of parameters are bound. -/
theorem completeSlots_ends (sb : Sandbox) (hslots : ConstantDefaults slots) (func kind : String)
    (s : RunState) :
    match completeSlots (visit sb) func kind slots s with
    | .ok _ s' => missing slots = [] ∧ s.Binds s' (defaulted slots).length (defaulted slots)
    | .error e _ => missing slots ≠ [] ∧ (∃ m, e.kind = .typeMismatch m) ∨
        s.OutOfSteps sb (defaulted slots).length e.kind := by
  have hends := defineDefaults_ends sb hslots [] s
  rw [completeSlots, bind_apply]
  cases h : defineDefaults (visit sb) [] slots s with
  | error e s' =>
    rw [h] at hends
    exact .inr hends
  | ok names s' =>
    rw [h] at hends
    obtain ⟨hnames, hbinds⟩ := hends
    dsimp only
    cases hmissing : missing slots with
    | nil =>
      rw [hmissing] at hnames
      rw [hnames]
      exact ⟨rfl, hbinds⟩
    | cons slot rest =>
      rw [hmissing] at hnames
      rw [hnames]
      exact .inl ⟨List.cons_ne_nil _ _, _, rfl⟩

/-- How the defaults of both kinds of parameters are bound. -/
theorem completeBoth_ends (sb : Sandbox) {slots' : List Slot} (hslots : ConstantDefaults slots)
    (hslots' : ConstantDefaults slots') (func kind kind' : String) (s : RunState) :
    match (completeSlots (visit sb) func kind slots >>= fun _ =>
      completeSlots (visit sb) func kind' slots') s with
    | .ok _ s' => (missing slots = [] ∧ missing slots' = []) ∧
        s.Binds s' ((defaulted slots).length + (defaulted slots').length)
          (defaulted slots ++ defaulted slots')
    | .error e _ => ¬ (missing slots = [] ∧ missing slots' = []) ∧ (∃ m, e.kind = .typeMismatch m) ∨
        s.OutOfSteps sb ((defaulted slots).length + (defaulted slots').length) e.kind := by
  have hfirst := completeSlots_ends sb hslots func kind s
  rw [bind_apply]
  cases hcomplete : completeSlots (visit sb) func kind slots s with
  | error e s' =>
    rw [hcomplete] at hfirst
    exact hfirst.imp (fun h => ⟨fun hall => h.1 hall.1, h.2⟩)
      fun hout => hout.mono (Nat.le_refl _) (Nat.add_le_add_left (Nat.le_add_right _ _) _)
  | ok u s₁ =>
    rw [hcomplete] at hfirst
    obtain ⟨hmissing, hbinds⟩ := hfirst
    have hsecond := completeSlots_ends sb hslots' func kind' s₁
    dsimp only
    cases hcomplete : completeSlots (visit sb) func kind' slots' s₁ with
    | error e s' =>
      rw [hcomplete] at hsecond
      have hsteps := hbinds.steps
      exact hsecond.imp (fun h => ⟨fun hall => h.1 hall.2, h.2⟩)
        fun hout => hout.mono (by omega) (by omega)
    | ok u s₂ =>
      rw [hcomplete] at hsecond
      exact ⟨⟨hmissing, hsecond.1⟩, hbinds.trans hsecond.2⟩

/-! ## The rests -/

theorem defineExtra_ends (sb : Sandbox) (params : Parameters) (a : Arrangement) (s : RunState) :
    match defineExtra sb params a s with
    | .ok _ s' => s.Binds s' 0
        (params.vararg.toList.map fun name => (name, .tuple s.store.nextId a.extra.toArray))
    | .error e _ => params.vararg.isSome ∧ sb.limits.size.maxContainerSize < a.extra.length ∧
        e.kind = .limitExceeded .containerSize sb.limits.size.maxContainerSize := by
  unfold defineExtra
  cases params.vararg with
  | none => exact ⟨rfl, .refl _, rfl⟩
  | some name =>
    dsimp only
    rcases Nat.lt_or_ge sb.limits.size.maxContainerSize a.extra.length with hmany | hroom
    · rw [SizeLimits.checkContainer_of_lt hmany]
      exact ⟨rfl, hmany, rfl⟩
    · rw [SizeLimits.checkContainer_of_le hroom]
      exact ⟨rfl, .newId _, rfl⟩

/-- Values under distinct names make a dict in their order. -/
theorem ofPairs_named (ks : List (String × Value)) (h : (ks.map Prod.fst).Nodup) :
    ∃ d, Dict.ofPairs (ks.map fun k => (.str k.1, k.2)) = .ok d ∧
      d.toList = ks.map fun k => (.str k.1, k.2) := by
  let entries : List (Key × Value × Value) := ks.map fun k => (.str k.1, .str k.1, k.2)
  have hpairs : entries.map Prod.snd = ks.map fun k => (.str k.1, k.2) := by
    simp [entries]
  have hnames : entries.map Prod.fst = (ks.map Prod.fst).map Key.str := by
    simp [entries]
  have hkeys : ∀ e ∈ entries, Key.ofValue e.2.1 = .ok e.1 := by
    intro e he
    obtain ⟨k, -, rfl⟩ := List.mem_map.1 he
    rfl
  have hnew : (Dict.empty.table.keyList ++ entries.map Prod.fst).Nodup := by
    rw [hnames]
    exact h.map fun _ _ heq => Key.str.inj heq
  obtain ⟨d, hd, hlist⟩ := Dict.insertAll_append hkeys hnew
  rw [← hpairs]
  exact ⟨d, hd, congrArg (List.map Prod.snd) hlist⟩

theorem defineExtraKeywords_ends (params : Parameters) (a : Arrangement) (s : RunState)
    (h : (a.extraKeywords.map Prod.fst).Nodup) :
    ∃ s', defineExtraKeywords params a s = .ok () s' ∧
      s.Binds s' 0 (params.kwarg.toList.map fun name => (name, .dict ⟨s.store.dicts.size⟩)) ∧
      (params.kwarg.isSome → (s'.store.dict ⟨s.store.dicts.size⟩).toList =
        a.extraKeywords.map fun k => (.str k.1, k.2)) := by
  unfold defineExtraKeywords
  cases params.kwarg with
  | none => exact ⟨s, rfl, ⟨rfl, .refl _, rfl⟩, nofun⟩
  | some name =>
    obtain ⟨d, hd, hlist⟩ := ofPairs_named a.extraKeywords h
    refine ⟨{ s with
      store := (s.store.addDict d).2, scopes := s.scopes.define name (.dict ⟨s.store.dicts.size⟩) },
      ?_, ⟨rfl, .addDict _ _, rfl⟩, fun _ => ?_⟩
    · have hlift : (liftM (Dict.ofPairs (a.extraKeywords.map fun k => (.str k.1, k.2))) : Eval Dict) s =
          .ok d s := by
        rw [hd]
        rfl
      exact (bind_apply _ _ s).trans (by rw [hlift]; rfl)
    · rw [← hlist]
      simp [Store.dict, Store.addDict]

/-- How the rests are bound. -/
theorem defineRests_ends (sb : Sandbox) (params : Parameters) (a : Arrangement) (s : RunState)
    (h : (a.extraKeywords.map Prod.fst).Nodup) :
    match (defineExtra sb params a >>= fun _ => defineExtraKeywords params a) s with
    | .ok _ s' => ∃ id r,
        s.Binds s' 0 (params.vararg.toList.map (fun name => (name, .tuple id a.extra.toArray)) ++
          params.kwarg.toList.map fun name => (name, .dict r)) ∧
        s.store.dicts.size ≤ r.index ∧
        (params.kwarg.isSome →
          (s'.store.dict r).toList = a.extraKeywords.map fun k => (.str k.1, k.2))
    | .error e _ => params.vararg.isSome ∧ sb.limits.size.maxContainerSize < a.extra.length ∧
        e.kind = .limitExceeded .containerSize sb.limits.size.maxContainerSize := by
  have hends := defineExtra_ends sb params a s
  rw [bind_apply]
  cases hextra : defineExtra sb params a s with
  | error e s' =>
    rw [hextra] at hends
    exact hends
  | ok u s₁ =>
    rw [hextra] at hends
    obtain ⟨s₂, hkeywords, hbinds, hdict⟩ := defineExtraKeywords_ends params a s₁ h
    dsimp only
    rw [hkeywords]
    exact ⟨_, _, hends.trans hbinds, hends.store.dicts, hdict⟩

/-! ## All of a call's arguments -/

section Arguments

variable {params : Parameters} {args : Arguments}

/-- The positional parameters of a call. -/
def byPosition (params : Parameters) (args : Arguments) : List Slot :=
  Arrangement.slots params.positional args.positional params.posonly.length args.keywords

/-- The parameters by keyword only of a call. -/
def byKeyword (params : Parameters) (args : Arguments) : List Slot :=
  Arrangement.slots params.kwonly [] 0 args.keywords

/-- What a call binds, with the rest in a tuple of this number and the keyword rest in this dict. -/
def bound (params : Parameters) (args : Arguments) (id : Nat) (r : DictRef) : Captures :=
  (supplied (byPosition params args) ++ supplied (byKeyword params args)) ++
    (defaulted (byPosition params args) ++ (defaulted (byKeyword params args) ++
      (params.vararg.toList.map (fun name =>
        (name, .tuple id (args.positional.drop params.positional.length).toArray)) ++
      params.kwarg.toList.map fun name => (name, .dict r))))

/-- The number of defaults that a call needs. -/
def defaults (params : Parameters) (args : Arguments) : Nat :=
  (defaulted (byPosition params args)).length + (defaulted (byKeyword params args)).length

/-- Once arguments are arranged, the supplied ones are bound, then defaults, then the rests. -/
theorem bindArguments_of_arranged {v : Visit} {func : String}
    (ha : ofArguments func params args = .ok (arranged params args.positional args.keywords))
    (s : RunState) :
    bindArguments sb v func params args s =
      ((completeSlots v func "positional" (byPosition params args) >>= fun _ =>
          completeSlots v func "keyword-only" (byKeyword params args)) >>= fun _ =>
        defineExtra sb params (arranged params args.positional args.keywords) >>= fun _ =>
          defineExtraKeywords params (arranged params args.positional args.keywords))
      (s.bindAll (supplied (byPosition params args) ++ supplied (byKeyword params args))) := by
  have hlift : (liftM (ofArguments func params args) : Eval Arrangement) s =
      .ok (arranged params args.positional args.keywords) s := by
    rw [ha]
    rfl
  rw [bindArguments, bind_apply, hlift, bind_assoc, RunState.bindAll_append]
  dsimp only
  rw [bind_apply, defineSupplied_apply]
  dsimp only
  rw [bind_apply, defineSupplied_apply]
  rfl

theorem bindArguments_ends (sb : Sandbox) (func : String) (h : params.Distinct)
    (hkeywords : (args.keywords.map Prod.fst).Nodup)
    (hposition : ConstantDefaults (byPosition params args))
    (hkeyword : ConstantDefaults (byKeyword params args)) (s : RunState) :
    match bindArguments sb (visit sb) func params args s with
    | .ok _ s' => params.Room args.positional.length ∧
        (∀ name ∈ args.keywords.map Prod.fst, params.Places args.positional.length name) ∧
        missing (byPosition params args) = [] ∧ missing (byKeyword params args) = [] ∧
        ∃ id r, s.Binds s' (defaults params args) (bound params args id r) ∧
          s.store.dicts.size ≤ r.index ∧ (params.kwarg.isSome → (s'.store.dict r).toList =
            (unnamed params args.keywords).map fun k => (.str k.1, k.2))
    | .error e _ =>
      ¬ (params.Room args.positional.length ∧
          (∀ name ∈ args.keywords.map Prod.fst, params.Places args.positional.length name) ∧
          missing (byPosition params args) = [] ∧ missing (byKeyword params args) = []) ∧
        (∃ m, e.kind = .typeMismatch m) ∨
      s.OutOfSteps sb (defaults params args) e.kind ∨
      params.vararg.isSome ∧
        sb.limits.size.maxContainerSize < args.positional.length - params.positional.length ∧
        e.kind = .limitExceeded .containerSize sb.limits.size.maxContainerSize := by
  have harranged := ofArguments_ends func h hkeywords
  cases ha : ofArguments func params args with
  | error e =>
    rw [ha] at harranged
    rw [bindArguments, ha]
    exact .inl ⟨fun hall => harranged.1 ⟨hall.1, hall.2.1⟩, harranged.2⟩
  | ok a =>
    rw [ha] at harranged
    obtain ⟨hroom, hplaces, rfl⟩ := harranged
    have hnodup : ((arranged params args.positional args.keywords).extraKeywords.map Prod.fst).Nodup := by
      rw [arranged]
      dsimp only
      split
      · exact hkeywords.sublist (List.filter_sublist.map _)
      · exact List.nodup_nil
    have hsupplied := supplied_binds (byPosition params args) (byKeyword params args) s
    have hcomplete := completeBoth_ends sb hposition hkeyword func "positional" "keyword-only"
      (s.bindAll (supplied (byPosition params args) ++ supplied (byKeyword params args)))
    rw [bindArguments_of_arranged ha, bind_apply]
    -- from here on the defaults matter only by how binding them ends
    generalize (completeSlots (visit sb) func "positional" (byPosition params args) >>= fun _ =>
      completeSlots (visit sb) func "keyword-only" (byKeyword params args))
      (s.bindAll (supplied (byPosition params args) ++ supplied (byKeyword params args))) = completed
      at hcomplete ⊢
    cases completed with
    | error e s' =>
      rcases hcomplete with ⟨hmissing, hm⟩ | hout
      · exact .inl ⟨fun hall => hmissing hall.2.2, hm⟩
      · have hsteps : _ = s.guard.steps := hsupplied.steps
        exact .inr (.inl (hout.mono (Nat.le_of_eq hsteps.symm)
          (Nat.add_le_add_right (Nat.le_of_eq hsteps) _)))
    | ok u s₁ =>
      obtain ⟨⟨hmissing, hmissing'⟩, hdefaults⟩ := hcomplete
      have hrests := defineRests_ends sb params (arranged params args.positional args.keywords) s₁ hnodup
      have hbinds := hsupplied.trans hdefaults
      dsimp only
      -- and so do the rests
      generalize (defineExtra sb params (arranged params args.positional args.keywords) >>= fun _ =>
        defineExtraKeywords params (arranged params args.positional args.keywords)) s₁ = ended
        at hrests ⊢
      cases ended with
      | error e s' =>
        obtain ⟨hvararg, hmany, hkind⟩ := hrests
        refine .inr (.inr ⟨hvararg, ?_, hkind⟩)
        rwa [arranged, List.length_drop] at hmany
      | ok u s₂ =>
        obtain ⟨id, r, hrests, hnew, hdict⟩ := hrests
        refine ⟨hroom, hplaces, hmissing, hmissing', id, r, ?_, ?_, fun hkwarg => ?_⟩
        · rw [bound, ← List.append_assoc (defaulted _), ← List.append_assoc (supplied _ ++ _)]
          have hsteps : 0 + defaults params args + 0 = defaults params args := Nat.zero_add _
          exact hsteps ▸ hbinds.trans hrests
        · exact Nat.le_trans hbinds.store.dicts hnew
        · rw [hdict hkwarg, arranged, if_pos hkwarg]

/-! ## What its slots hold -/

variable {slot : Slot} {p : Param} {i : Nat}

/-- The slots of a call. -/
def slotsOf (params : Parameters) (args : Arguments) : List Slot :=
  byPosition params args ++ byKeyword params args

theorem params_slots (l : List Param) (xs : List Value) (first : Nat) (ks : List (String × Value)) :
    (Arrangement.slots l xs first ks).map Slot.param = l := by
  rw [Arrangement.slots, List.map_map]
  exact List.zipIdx_map_fst 0 l

theorem params_slotsOf (params : Parameters) (args : Arguments) :
    (slotsOf params args).map Slot.param = params.positional ++ params.kwonly := by
  rw [slotsOf, List.map_append, byPosition, byKeyword, params_slots, params_slots]

theorem mem_byPosition (hi : params.positional[i]? = some p) :
    (⟨p, args.positional[i]?.or
      (if params.posonly.length ≤ i then args.keywords.lookup p.name else none)⟩ : Slot) ∈
      slotsOf params args := by
  refine List.mem_append_left _ (List.mem_of_getElem? (i := i) ?_)
  rw [byPosition, getElem?_slots, hi, Option.map_some]

theorem mem_byKeyword (hp : p ∈ params.kwonly) :
    (⟨p, args.keywords.lookup p.name⟩ : Slot) ∈ slotsOf params args := by
  obtain ⟨i, hi⟩ := List.mem_iff_getElem?.1 hp
  refine List.mem_append_right _ (List.mem_of_getElem? (i := i) ?_)
  rw [byKeyword, getElem?_slots, hi, Option.map_some, if_pos (Nat.zero_le i)]
  rfl

theorem exists_slot (args : Arguments) (hp : p ∈ params.positional ++ params.kwonly) :
    ∃ slot ∈ slotsOf params args, slot.param = p := by
  rw [← params_slotsOf params args] at hp
  exact List.mem_map.1 hp

theorem param_mem (hslot : slot ∈ slotsOf params args) :
    slot.param ∈ params.positional ++ params.kwonly := by
  rw [← params_slotsOf params args]
  exact List.mem_map_of_mem hslot

theorem slot_cases (hslot : slot ∈ slotsOf params args) :
    (∃ i, params.positional[i]? = some slot.param ∧ slot.value = args.positional[i]?.or
      (if params.posonly.length ≤ i then args.keywords.lookup slot.param.name else none)) ∨
    slot.param ∈ params.kwonly ∧ slot.value = args.keywords.lookup slot.param.name := by
  rcases List.mem_append.1 hslot with hslot | hslot
  · obtain ⟨i, hi⟩ := List.mem_iff_getElem?.1 hslot
    rw [byPosition, getElem?_slots, Option.map_eq_some_iff] at hi
    obtain ⟨p, hp, rfl⟩ := hi
    exact .inl ⟨i, hp, rfl⟩
  · obtain ⟨i, hi⟩ := List.mem_iff_getElem?.1 hslot
    rw [byKeyword, getElem?_slots, Option.map_eq_some_iff] at hi
    obtain ⟨p, hp, rfl⟩ := hi
    exact .inr ⟨List.mem_of_getElem? hp, by simp⟩

/-- A parameter receives what its slot holds. -/
theorem receives_iff (h : params.Distinct) (hslot : slot ∈ slotsOf params args) :
    params.Receives args slot.param.name ↔ slot.value.isSome := by
  have hparam := param_mem hslot
  rcases slot_cases hslot with ⟨i, hi, hvalue⟩ | ⟨hp, hvalue⟩
  · have hplace : slot.param.name ∈ (params.positional.take args.positional.length).map Param.name ↔
        i < args.positional.length := by
      rw [h.mem_map_iff (fun q hq => List.mem_append_left _ (List.mem_of_mem_take hq)) hparam]
      exact Parameters.mem_take_iff h hi _
    have hnamed : slot.param.name ∈ params.named.map Param.name ↔ params.posonly.length ≤ i := by
      rw [h.mem_map_iff (fun q hq => Parameters.mem_of_named hq) hparam, Parameters.named,
        List.mem_append, Parameters.mem_args_iff h hi,
        or_iff_left fun hp => h.ne (List.mem_of_getElem? hi) hp rfl]
    rw [Parameters.Receives, hplace, hnamed, ← isSome_lookup_iff, hvalue, Option.isSome_or]
    by_cases hle : params.posonly.length ≤ i <;> simp [hle]
  · have hplace : slot.param.name ∉ (params.positional.take args.positional.length).map Param.name := by
      intro hname
      obtain ⟨q, hq, hqname⟩ := List.mem_map.1 hname
      exact h.ne (List.mem_of_mem_take hq) hp hqname
    rw [Parameters.Receives, or_iff_right hplace, ← isSome_lookup_iff, hvalue]
    exact and_iff_right (List.mem_map_of_mem (List.mem_append_right _ hp))

/-- No parameter is missing if each receives an argument or has a default. -/
theorem missing_eq_nil_iff (h : params.Distinct) :
    missing (byPosition params args) = [] ∧ missing (byKeyword params args) = [] ↔
      ∀ p ∈ params.positional ++ params.kwonly, ¬ params.Receives args p.name → p.default.isSome := by
  have hslots : (missing (byPosition params args) = [] ∧ missing (byKeyword params args) = []) ↔
      ∀ slot ∈ slotsOf params args, ¬ slot.value.isSome → slot.param.default.isSome := by
    rw [← List.append_eq_nil_iff, missing, missing, ← List.filter_append, List.filter_eq_nil_iff]
    refine forall₂_congr fun slot _ => ?_
    cases slot.value <;> cases slot.param.default <;> simp
  rw [hslots]
  constructor
  · intro hall p hp hnot
    obtain ⟨slot, hslot, rfl⟩ := exists_slot args hp
    exact hall slot hslot fun hsome => hnot ((receives_iff h hslot).2 hsome)
  · intro hall slot hslot hnone
    exact hall _ (param_mem hslot) fun hreceives => hnone ((receives_iff h hslot).1 hreceives)

theorem default?_isSome_iff
    (hdefault : ∀ e, slot.param.default = some e → ∃ value, e.constant? = some value) :
    slot.default?.isSome ↔ ¬ slot.value.isSome ∧ slot.param.default.isSome := by
  rw [Slot.default?]
  cases hvalue : slot.value with
  | some value => simp
  | none =>
    cases he : slot.param.default with
    | none => simp
    | some e =>
      obtain ⟨value, hvalue⟩ := hdefault e he
      simp [hvalue]

/-- A call evaluates the defaults that it needs. -/
theorem defaults_eq (h : params.Distinct) (hdefaults : ConstantDefaults (slotsOf params args)) :
    defaults params args = (params.needed args).length := by
  have hslots : defaults params args = (slotsOf params args).countP fun slot => slot.default?.isSome := by
    rw [defaults, defaulted, defaulted, ← List.length_append, ← List.filterMap_append,
      List.length_filterMap_eq_countP]
    simp only [Option.isSome_map]
    rfl
  rw [hslots, Parameters.needed, ← List.countP_eq_length_filter, ← params_slotsOf params args,
    List.countP_map]
  refine List.countP_congr fun slot hslot => ?_
  rw [default?_isSome_iff (hdefaults slot hslot), ← receives_iff h hslot]
  simp

theorem default?_eq_some_iff {value : Value} : slot.value.or slot.default? = some value ↔
    slot.value = some value ∨ slot.default? = some value := by
  rw [Option.or_eq_some_iff, Slot.default?]
  cases slot.value <;> simp

/-- What names are bound to. -/
theorem mem_bound_iff {id : Nat} {r : DictRef} {name : String} {value : Value} :
    (name, value) ∈ bound params args id r ↔
      (∃ slot ∈ slotsOf params args, slot.param.name = name ∧ slot.value.or slot.default? = some value) ∨
      params.vararg = some name ∧
        value = .tuple id (args.positional.drop params.positional.length).toArray ∨
      params.kwarg = some name ∧ value = .dict r := by
  have hsupplied : (name, value) ∈ supplied (slotsOf params args) ↔
      ∃ slot ∈ slotsOf params args, slot.param.name = name ∧ slot.value = some value := by
    simp [supplied, and_comm]
  have hdefaulted : (name, value) ∈ defaulted (slotsOf params args) ↔
      ∃ slot ∈ slotsOf params args, slot.param.name = name ∧ slot.default? = some value := by
    simp [defaulted, and_comm]
  have hvararg : (name, value) ∈ params.vararg.toList.map (fun name =>
      (name, .tuple id (args.positional.drop params.positional.length).toArray)) ↔
      params.vararg = some name ∧
        value = .tuple id (args.positional.drop params.positional.length).toArray := by
    simp [eq_comm]
  have hkwarg : (name, value) ∈ params.kwarg.toList.map (fun name => (name, Value.dict r)) ↔
      params.kwarg = some name ∧ value = .dict r := by
    simp [eq_comm]
  rw [slotsOf, supplied, List.filterMap_append, List.mem_append] at hsupplied
  rw [slotsOf, defaulted, List.filterMap_append, List.mem_append] at hdefaulted
  simp only [default?_eq_some_iff, and_or_left, exists_or]
  rw [slotsOf, ← hsupplied, ← hdefaulted, ← hvararg, ← hkwarg, bound]
  simp only [List.mem_append, or_assoc]
  rfl

/-- A call binds each name once. -/
theorem bound_unique (hnames : params.names.Nodup) {id : Nat} {r : DictRef} {name : String}
    {value other : Value} (hvalue : (name, value) ∈ bound params args id r)
    (hother : (name, other) ∈ bound params args id r) : other = value := by
  obtain ⟨hparams, hrests, hdisjoint⟩ := List.nodup_append.1 hnames
  have hslots : ((slotsOf params args).map (·.param.name)).Nodup := by
    have hmap : (slotsOf params args).map (·.param.name) =
        (params.positional ++ params.kwonly).map Param.name := by
      rw [← params_slotsOf params args, List.map_map]
      rfl
    rwa [hmap]
  -- the rests have names of their own
  have apart {slot : Slot} (hslot : slot ∈ slotsOf params args) (hname : slot.param.name = name) :
      ¬ params.vararg = some name ∧ ¬ params.kwarg = some name := by
    have hmem : name ∈ (params.positional ++ params.kwonly).map Param.name :=
      hname ▸ List.mem_map_of_mem (param_mem hslot)
    exact ⟨fun h => hdisjoint name hmem name (by simp [h]) rfl,
      fun h => hdisjoint name hmem name (by simp [h]) rfl⟩
  have different : params.vararg = some name → ¬ params.kwarg = some name := by
    intro hvararg hkwarg
    rw [hvararg, hkwarg] at hrests
    simp at hrests
  rw [mem_bound_iff] at hvalue hother
  rcases hvalue with ⟨slot, hslot, hname, hv⟩ | ⟨hvararg, rfl⟩ | ⟨hkwarg, rfl⟩
  · rcases hother with ⟨slot', hslot', hname', hv'⟩ | ⟨h, -⟩ | ⟨h, -⟩
    · have heq := List.inj_on_of_nodup_map hslots hslot' hslot (hname'.trans hname.symm)
      rw [heq, hv] at hv'
      exact (Option.some.inj hv').symm
    · exact absurd h (apart hslot hname).1
    · exact absurd h (apart hslot hname).2
  · rcases hother with ⟨slot', hslot', hname', -⟩ | ⟨-, rfl⟩ | ⟨h, -⟩
    · exact absurd hvararg (apart hslot' hname').1
    · rfl
    · exact absurd h (different hvararg)
  · rcases hother with ⟨slot', hslot', hname', -⟩ | ⟨h, -⟩ | ⟨-, rfl⟩
    · exact absurd hkwarg (apart hslot' hname').2
    · exact absurd hkwarg (different h)
    · rfl

theorem names_bound {id : Nat} {r : DictRef} {name : String}
    (h : name ∈ (bound params args id r).map Prod.fst) : name ∈ params.names := by
  obtain ⟨⟨name, value⟩, hmem, rfl⟩ := List.mem_map.1 h
  rw [Parameters.names, List.mem_append, List.mem_append]
  rcases mem_bound_iff.1 hmem with ⟨slot, hslot, rfl, -⟩ | ⟨hvararg, -⟩ | ⟨hkwarg, -⟩
  · exact .inl (List.mem_map_of_mem (param_mem hslot))
  · exact .inr (.inl (by simp [hvararg]))
  · exact .inr (.inr (by simp [hkwarg]))

/-- Where all parameters have values, arguments are bound as they should. -/
theorem bound_of_binds {s s' : RunState} (hs : s.Anchored) (hnames : params.names.Nodup)
    (hkeywords : (args.keywords.map Prod.fst).Nodup)
    (hdefaults : ∀ p ∈ params.positional ++ params.kwonly, ∀ e, p.default = some e →
      ∃ value, e.constant? = some value) (haccepts : params.Accepts args) {n id : Nat} {r : DictRef}
    (hbinds : s.Binds s' n (bound params args id r)) (hnew : s.store.dicts.size ≤ r.index)
    (hdict : params.kwarg.isSome → (s'.store.dict r).toList =
      (unnamed params args.keywords).map fun k => (.str k.1, k.2)) : params.Bound args s s' := by
  have hdistinct : params.Distinct := hnames.of_append_left
  have found {name : String} {value : Value} (h : (name, value) ∈ bound params args id r) :
      (s'.scopes.scope s.scopes.current).lookup name = some value := by
    rw [hbinds.scopes]
    exact RunState.lookup_bindAll_of_unique hs h fun other hother => bound_unique hnames h hother
  have filled {slot : Slot} {value : Value} (hslot : slot ∈ slotsOf params args)
      (hvalue : slot.value.or slot.default? = some value) :
      (s'.scopes.scope s.scopes.current).lookup slot.param.name = some value :=
    found (mem_bound_iff.2 (.inl ⟨slot, hslot, rfl, hvalue⟩))
  have hrebinds := RunState.rebinds_bindAll (bound params args id r) s
    fun name hname => names_bound hname
  refine ⟨fun i p value hi hx => ?_, fun name hname => ?_, fun p hp value hmem => ?_,
    fun name hname => ?_, fun p hp hnot => ?_, fun name hname => ?_, ?_⟩
  · exact filled (mem_byPosition hi) (by rw [hx]; rfl)
  · exact ⟨id, found (mem_bound_iff.2 (.inr (.inl ⟨hname, rfl⟩)))⟩
  · -- a keyword argument goes to a slot that no positional argument has taken
    have hlookup := lookup_of_mem hkeywords hmem
    rcases List.mem_append.1 hp with hargs | hkwonly
    · obtain ⟨i, hi, hle⟩ := Parameters.exists_place hargs
      have hfree : ¬ i < args.positional.length := fun hlt =>
        (haccepts.places p.name (List.mem_map_of_mem hmem)).once p hargs
          ((Parameters.mem_take_iff hdistinct hi _).2 hlt) rfl
      refine filled (mem_byPosition hi) ?_
      rw [List.getElem?_eq_none (Nat.not_lt.1 hfree), if_pos hle, hlookup]
      rfl
    · refine filled (mem_byKeyword hkwonly) ?_
      rw [hlookup]
      rfl
  · exact ⟨r, found (mem_bound_iff.2 (.inr (.inr ⟨hname, rfl⟩))), hnew, hdict (by simp [hname])⟩
  · obtain ⟨slot, hslot, rfl⟩ := exists_slot args hp
    obtain ⟨e, he⟩ := Option.isSome_iff_exists.1 (haccepts.complete _ hp hnot)
    obtain ⟨value, hvalue⟩ := hdefaults _ hp e he
    rw [receives_iff hdistinct hslot, Option.not_isSome_iff_eq_none] at hnot
    refine ⟨e, value, he, hvalue, filled hslot ?_⟩
    rw [hnot, Option.none_or, Slot.default?, hnot, he]
    exact hvalue
  · rw [hbinds.scopes]
    exact hrebinds.lookup name hname
  · rw [hbinds.scopes]
    exact hrebinds.current

end Arguments

end Eval

/-- Binding succeeds if the parameters accept the arguments, and then all are bound as they should;
else it ends in an error about the arguments, unless a quota runs out before: visits for defaults, the
deadline, or the size of a rest. -/
theorem binding (sb : Sandbox) (func : String) {params : Parameters} {args : Arguments} {s : RunState}
    (hs : s.Anchored) (hnames : params.names.Nodup) (hkeywords : (args.keywords.map Prod.fst).Nodup)
    (hdefaults : ∀ p ∈ params.positional ++ params.kwonly, ∀ e, p.default = some e →
      ∃ value, e.constant? = some value) :
    match bindArguments sb (visit sb) func params args s with
    | .ok _ s' => params.Accepts args ∧ params.Bound args s s'
    | .error e _ =>
      ¬ params.Accepts args ∧ (∃ m, e.kind = .typeMismatch m) ∨
      s.OutOfSteps sb (params.needed args).length e.kind ∨
      params.vararg.isSome ∧
        sb.limits.size.maxContainerSize < args.positional.length - params.positional.length ∧
        e.kind = .limitExceeded .containerSize sb.limits.size.maxContainerSize := by
  have hdistinct : params.Distinct := hnames.of_append_left
  have hconstant : ConstantDefaults (slotsOf params args) := fun slot hslot =>
    hdefaults _ (param_mem hslot)
  have hends := bindArguments_ends sb func hdistinct hkeywords
    (fun slot hslot => hconstant slot (List.mem_append_left _ hslot))
    (fun slot hslot => hconstant slot (List.mem_append_right _ hslot)) s
  rw [defaults_eq hdistinct hconstant] at hends
  cases hbind : bindArguments sb (visit sb) func params args s with
  | ok u s' =>
    rw [hbind] at hends
    obtain ⟨hroom, hplaces, hposition, hkeyword, id, r, hbinds, hnew, hdict⟩ := hends
    have haccepts : params.Accepts args :=
      ⟨hroom, hplaces, (missing_eq_nil_iff hdistinct).1 ⟨hposition, hkeyword⟩⟩
    exact ⟨haccepts, bound_of_binds hs hnames hkeywords hdefaults haccepts hbinds hnew hdict⟩
  | error e s' =>
    rw [hbind] at hends
    refine hends.imp_left fun h => ⟨fun haccepts => h.1 ?_, h.2⟩
    obtain ⟨hposition, hkeyword⟩ := (missing_eq_nil_iff hdistinct).2 haccepts.complete
    exact ⟨haccepts.room, haccepts.places, hposition, hkeyword⟩

/-- The parameters `(a, /, b, c=3, *rest, d, e=5, **more)`. -/
def everyKind : Parameters where
  posonly := [⟨"a", none⟩]
  args := [⟨"b", none⟩, ⟨"c", some (Syntax.Build.int 3)⟩]
  vararg := some "rest"
  kwonly := [⟨"d", none⟩, ⟨"e", some (Syntax.Build.int 5)⟩]
  kwarg := some "more"

/-- The arguments `(1, 2, 8, 4, d=6, a=7)`, where the last one goes to the keyword rest. -/
def mixedArguments : Arguments := ⟨[.int 1, .int 2, .int 8, .int 4], [("d", .int 6), ("a", .int 7)]⟩

theorem mixedArguments_bound : ∃ s',
    bindArguments unaided (visit unaided) "f" everyKind mixedArguments (.start .empty) = .ok () s' ∧
    everyKind.Bound mixedArguments (.start .empty) s' := by
  have anchored : (RunState.start .empty).Anchored := Nat.one_pos
  have names : everyKind.names.Nodup := by decide
  have keywords : (mixedArguments.keywords.map Prod.fst).Nodup := by decide
  have defaults : ∀ p ∈ everyKind.positional ++ everyKind.kwonly, ∀ e, p.default = some e →
      ∃ value, e.constant? = some value := by
    simp [everyKind, Parameters.positional, Syntax.Build.int, Syntax.Build.expr, Expr.constant?]
  have apart : ∀ name ∈ mixedArguments.keywords.map Prod.fst, ∀ p ∈ everyKind.args, p.name ≠ name := by
    decide
  have accepts : everyKind.Accepts mixedArguments :=
    ⟨.inr rfl, fun name hname => ⟨fun p hp _ => apart name hname p hp, .inr rfl⟩, by decide⟩
  have ends := binding unaided "f" anchored names keywords defaults
  cases bind : bindArguments unaided (visit unaided) "f" everyKind mixedArguments (.start .empty) with
  | ok u s' =>
    rw [bind] at ends
    exact ⟨s', rfl, ends.2⟩
  | error e s' =>
    rw [bind] at ends
    -- nothing that binding could fail for applies
    rcases ends with ⟨refused, -⟩ | (⟨many, -⟩ | ⟨⟨number, -, -, -, late⟩, -⟩) | ⟨-, long, -⟩
    · exact absurd accepts refused
    · exact absurd many (by decide)
    · rw [show unaided.clock = .stopped from rfl, Clock.inTime_stopped (by decide)] at late
      cases late
    · exact absurd long (by decide)

end ScriptSandbox

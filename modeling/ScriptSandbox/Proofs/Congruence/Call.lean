import ScriptSandbox.Eval.Call
import ScriptSandbox.Proofs.Congruence
import ScriptSandbox.Proofs.Norm.Container

/-!
# Congruences: calls

Arranging arguments moves them into slots without making new values, so slots hold good values and
the defaults of the function called. Binding and running the code then only needs that visits are
related at the nodes of that code (`Congruence.callValue`).
-/

namespace ScriptSandbox

open Eval

namespace Congruence

variable {sb sb' : Sandbox} (C : Congruence sb sb') {v v' : Visit}

/-! ## Arranging arguments -/

/-- A slot whose argument is good and whose parameter's default is allowed. -/
structure GoodSlot (slot : Slot) : Prop where
  value : ∀ x ∈ slot.value, C.good x
  default : ∀ e ∈ slot.param.default, C.allows (.expr e)

/-- An arrangement of good arguments for parameters whose defaults are allowed. -/
structure GoodArrangement (a : Arrangement) : Prop where
  positional : ∀ slot ∈ a.positional, C.GoodSlot slot
  keywordOnly : ∀ slot ∈ a.keywordOnly, C.GoodSlot slot
  extra : ∀ x ∈ a.extra, C.good x
  extraKeywords : ∀ entry ∈ a.extraKeywords, C.good entry.2

/-- All defaults of a function are allowed. -/
def AllowsDefaults (params : Parameters) : Prop := ∀ e ∈ params.defaults, C.allows (.expr e)

variable {C}

theorem allowsDefaults {c : FunctionCode} (h : C.code c) : C.AllowsDefaults c.params := by
  intro e he
  refine C.allows_code h ?_
  cases c <;> exact List.mem_append_left _ (List.mem_map_of_mem he)

theorem AllowsDefaults.positional {params : Parameters} (h : C.AllowsDefaults params)
    {param : Param} (hp : param ∈ params.positional) {e : Expr} (he : param.default = some e) :
    C.allows (.expr e) :=
  h e (List.mem_filterMap.2 ⟨param, List.mem_append_left _ hp, he⟩)

theorem AllowsDefaults.kwonly {params : Parameters} (h : C.AllowsDefaults params)
    {param : Param} (hp : param ∈ params.kwonly) {e : Expr} (he : param.default = some e) :
    C.allows (.expr e) :=
  h e (List.mem_filterMap.2 ⟨param, List.mem_append_right _ hp, he⟩)

theorem goodArrangement_ofPositional {params : Parameters} (h : C.AllowsDefaults params)
    {args : List Value} (hargs : ∀ x ∈ args, C.good x) :
    C.GoodArrangement (.ofPositional params args) where
  positional slot hslot := by
    obtain ⟨⟨param, i⟩, hmem, rfl⟩ := List.mem_map.1 hslot
    exact ⟨fun x hx => hargs x (List.mem_of_getElem? hx),
      fun e he => h.positional (List.fst_mem_of_mem_zipIdx hmem) he⟩
  keywordOnly slot hslot := by
    obtain ⟨param, hmem, rfl⟩ := List.mem_map.1 hslot
    exact ⟨fun x hx => absurd hx (by simp), fun e he => h.kwonly hmem he⟩
  extra x hx := hargs x (List.mem_of_mem_drop hx)
  extraKeywords _ h := absurd h List.not_mem_nil

theorem fill_good {func name : String} {value : Value} {slots : List Slot} {i : Nat}
    (hv : C.good value) (hslots : ∀ slot ∈ slots, C.GoodSlot slot) :
    C.toNorm.Holds (fun slots => ∀ slot ∈ slots, C.GoodSlot slot)
      (Arrangement.fill func name value slots i) := by
  unfold Arrangement.fill
  split
  · exact Norm.Holds.plain rfl
  · intro slot hslot
    obtain ⟨j, hj, rfl⟩ := List.mem_iff_getElem.1 hslot
    rw [List.length_modify] at hj
    have hold := hslots slots[j] (List.getElem_mem hj)
    rw [List.getElem_modify]
    split
    · exact ⟨fun x hx => Option.some.inj hx ▸ hv, hold.default⟩
    · exact hold

theorem addKeyword_good {func : String} {params : Parameters} {a : Arrangement} {name : String}
    {value : Value} (hv : C.good value) (ha : C.GoodArrangement a) :
    C.toNorm.Holds C.GoodArrangement (a.addKeyword func params name value) := by
  unfold Arrangement.addKeyword
  split
  · exact (fill_good hv ha.positional).bind fun slots hslots => { ha with positional := hslots }
  · split
    · exact (fill_good hv ha.keywordOnly).bind fun slots hslots => { ha with keywordOnly := hslots }
    · split
      · refine { ha with extraKeywords := fun entry hentry => ?_ }
        rcases List.mem_append.1 hentry with h | h
        · exact ha.extraKeywords entry h
        · rw [List.mem_singleton.1 h]
          exact hv
      · split
        · exact { ha with }
        · exact Norm.Holds.plain rfl

theorem addKeywords_good {func : String} {params : Parameters} {named : List (String × Value)}
    (h : ∀ entry ∈ named, C.good entry.2) {a : Arrangement} (ha : C.GoodArrangement a) :
    C.toNorm.Holds C.GoodArrangement
      (named.foldlM (fun a (name, value) => a.addKeyword func params name value) a) := by
  induction named generalizing a with
  | nil => exact ha
  | cons entry rest ih =>
    rw [List.foldlM_cons]
    refine (addKeyword_good (h entry (by simp)) ha).bind fun a ha => ?_
    exact ih (fun entry he => h entry (by simp [he])) ha

theorem ofArguments_good {func : String} {params : Parameters} {args : Arguments}
    (h : C.AllowsDefaults params) (hargs : C.toNorm.GoodArgs args) :
    C.toNorm.Holds C.GoodArrangement (Arrangement.ofArguments func params args) := by
  unfold Arrangement.ofArguments
  simp only
  split
  · exact Norm.Holds.plain rfl
  · have start := goodArrangement_ofPositional h hargs.positional
    refine (addKeywords_good hargs.keywords start).bind fun a ha => ?_
    split
    · exact ha
    · exact Norm.Holds.plain rfl

/-! ## Binding arguments -/

theorem defineSupplied : ∀ {slots : List Slot}, (∀ slot ∈ slots, C.GoodSlot slot) →
    C.rel (fun _ => True) (defineSupplied slots) (defineSupplied slots)
  | [], _ => C.pure True.intro
  | ⟨param, some value⟩ :: rest, h => by
    refine C.bind (C.define ((h _ List.mem_cons_self).value value rfl)) fun _ _ => ?_
    exact defineSupplied fun slot (hs : slot ∈ rest) => h slot (List.mem_cons_of_mem _ hs)
  | ⟨param, none⟩ :: rest, h => by
    have hrest := defineSupplied fun slot (hs : slot ∈ rest) => h slot (List.mem_cons_of_mem _ hs)
    exact hrest

theorem defineDefaults (hv : C.Visits v v') : ∀ {slots : List Slot} (missing : List String),
    (∀ slot ∈ slots, C.GoodSlot slot) →
    C.rel (fun _ => True) (defineDefaults v missing slots) (defineDefaults v' missing slots)
  | [], _, _ => C.pure True.intro
  | ⟨_, some _⟩ :: rest, missing, h => by
    have hrest : ∀ slot ∈ rest, C.GoodSlot slot := fun slot hs => h slot (List.mem_cons_of_mem _ hs)
    have hdefaults := defineDefaults hv missing hrest
    exact hdefaults
  | ⟨⟨name, some default⟩, none⟩ :: rest, missing, h => by
    refine C.bind (hv.expr default ((h _ List.mem_cons_self).default default rfl)) fun value hgood => ?_
    refine C.bind (C.define hgood) fun _ _ => ?_
    exact defineDefaults hv missing fun slot (hs : slot ∈ rest) => h slot (List.mem_cons_of_mem _ hs)
  | ⟨⟨name, none⟩, none⟩ :: rest, missing, h => by
    have hrest : ∀ slot ∈ rest, C.GoodSlot slot := fun slot hs => h slot (List.mem_cons_of_mem _ hs)
    exact defineDefaults hv (missing ++ [name]) hrest

theorem completeSlots (hv : C.Visits v v') {func kind : String} {slots : List Slot}
    (h : ∀ slot ∈ slots, C.GoodSlot slot) :
    C.rel (fun _ => True) (completeSlots v func kind slots) (completeSlots v' func kind slots) := by
  refine C.bind (defineDefaults hv [] h) fun missing _ => ?_
  split
  · exact C.plain rfl
  · exact C.pure True.intro

theorem defineExtra (params : Parameters) {a : Arrangement} (ha : C.GoodArrangement a) :
    C.rel (fun _ => True) (defineExtra sb params a) (defineExtra sb' params a) := by
  unfold Eval.defineExtra
  split
  · exact C.pure True.intro
  · refine C.bind (C.checkContainer _) fun _ hfits => ?_
    refine C.bind (C.newTuple (by simpa using hfits) (by simpa using ha.extra)) fun value hgood => ?_
    exact C.define hgood

theorem dictOfKeywords {named : List (String × Value)} (h : ∀ entry ∈ named, C.good entry.2) :
    C.toNorm.Holds C.toNorm.GoodDict
      (Dict.ofPairs (named.map fun (name, value) => (.str name, value))) := by
  exact (Norm.goodDict_ofPairs (Norm.good_namedPairs h)).mono fun d h => h.1

theorem defineExtraKeywords {c : FunctionCode} {a : Arrangement} (hc : C.code c)
    (ha : C.GoodArrangement a) :
    C.rel (fun _ => True) (defineExtraKeywords c.params a) (defineExtraKeywords c.params a) := by
  unfold Eval.defineExtraKeywords
  cases hk : c.params.kwarg with
  | none => exact C.pure True.intro
  | some name =>
    refine C.bind (C.ofExcept (dictOfKeywords ha.extraKeywords)) fun d hd => ?_
    have fits : C.fits d.size := C.fits_rest _ hc (by rw [hk]; rfl)
    exact C.bind (C.newDict fits hd) fun value hgood => C.define hgood

theorem bindArguments (hv : C.Visits v v') {func : String} {c : FunctionCode} {args : Arguments}
    (hc : C.code c) (hargs : C.toNorm.GoodArgs args) :
    C.rel (fun _ => True) (bindArguments sb v func c.params args)
      (bindArguments sb' v' func c.params args) := by
  refine C.bind (C.ofExcept (ofArguments_good (allowsDefaults hc) hargs)) fun a ha => ?_
  refine C.bind (defineSupplied ha.positional) fun _ _ => ?_
  refine C.bind (defineSupplied ha.keywordOnly) fun _ _ => ?_
  refine C.bind (completeSlots hv ha.positional) fun _ _ => ?_
  refine C.bind (completeSlots hv ha.keywordOnly) fun _ _ => ?_
  refine C.bind (defineExtra c.params ha) fun _ _ => ?_
  exact defineExtraKeywords hc ha

/-! ## Calling -/

theorem runCode (hv : C.Visits v v') {c : FunctionCode} (hc : C.code c) :
    C.rel C.good (runCode v c) (runCode v' c) := by
  cases c with
  | lambda l => exact hv.expr l.body (C.allows_code hc (by simp [FunctionCode.children]))
  | definition d =>
    have body : C.AllowsBlock d.body := fun s hs =>
      C.allows_code hc (List.mem_append_right _ (List.mem_map_of_mem hs))
    have hblock := C.sure (block_gives hv.lawful d.body) (C.block hv body)
    refine C.bind hblock ?_
    rintro flow ⟨hflow, hwithin⟩
    have stray : ∀ g, flow.signal? = some g → g ≠ .return → C.errs g.stray.kind := fun g hg =>
      C.errs_stray hc (hwithin g hg)
    cases flow with
    | returning value => exact C.pure hflow
    | normal => exact C.pure Norm.good_null
    | breaking => exact C.throw (stray .break rfl (by decide))
    | continuing => exact C.throw (stray .continue rfl (by decide))

theorem callFunction (hv : C.Visits v v') {f : Closure} {args : Arguments} (span : Span)
    (hf : C.good (.function f)) (hargs : C.toNorm.GoodArgs args) :
    C.rel C.good (callFunction sb v f args span) (callFunction sb' v' f args span) := by
  obtain ⟨hc, hheld⟩ := (C.good_function f).1 hf
  exact C.inCall f.name span hheld (C.bind (bindArguments hv hc hargs) fun _ _ => runCode hv hc)

theorem callValue (hv : C.Visits v v') {callee : Value} {args : Arguments} (span : Span)
    (hcallee : C.good callee) (hargs : C.toNorm.GoodArgs args)
    (hprint : ∀ f, callee = .native f → f.id = .builtin .print → 2 ≤ args.positional.length →
      C.pieces := by exact fun _ _ _ _ => True.intro) :
    C.rel C.good (callValue sb v callee args span) (callValue sb' v' callee args span) := by
  cases callee with
  | function f => exact callFunction hv span hcallee hargs
  | native f => exact C.callNative hcallee hargs (hprint f rfl)
  | method id receiver name => exact C.callMethod hcallee hargs
  | object o => exact C.callObject hargs
  | _ => exact C.plain rfl

end Congruence

end ScriptSandbox

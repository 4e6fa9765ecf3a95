import ScriptSandbox.Eval.Expression
import ScriptSandbox.Proofs.Congruence.Call
import ScriptSandbox.Proofs.Congruence.Comprehension
import ScriptSandbox.Proofs.Norm.Comparison

/-!
# Congruences: expressions

One lemma for each way of evaluating the parts of an expression, put together by the kind of the
expression in `Congruence.exprKind`.
-/

namespace ScriptSandbox

open Eval

/-- `e.Comprehends v collect nothing clauses`: the expression is a comprehension of these clauses. -/
inductive ExprKind.Comprehends (v : Visit) :
    ExprKind → (Collection → Eval Collection) → Collection → List Comprehension → Prop
  | list (element : Expr) (clauses : List Comprehension) :
    Comprehends v (.listComp element clauses) (collectElement v element) (.list #[]) clauses
  | generator (element : Expr) (clauses : List Comprehension) :
    Comprehends v (.generatorExp element clauses) (collectElement v element) (.list #[]) clauses
  | set (element : Expr) (clauses : List Comprehension) :
    Comprehends v (.setComp element clauses) (collectElement v element) (.set .empty) clauses
  | dict (key value : Expr) (clauses : List Comprehension) :
    Comprehends v (.dictComp key value clauses) (collectEntry v key value) (.dict .empty) clauses

theorem ExprKind.Comprehends.exprKind_eq {sb : Sandbox} {v : Visit} {kind : ExprKind}
    {collect : Collection → Eval Collection} {nothing : Collection} {clauses : List Comprehension}
    (h : kind.Comprehends v collect nothing clauses) (span : Span) :
    exprKind sb v span kind = comprehend sb v collect nothing clauses := by
  cases h <;> rfl

namespace Congruence

variable {sb sb' : Sandbox} {C : Congruence sb sb'} {v v' : Visit}

/-! ## Truth and comparison -/

theorem boolOp (hv : C.Visits v v') (op : BoolOp) : ∀ {operands : List Expr},
    C.AllowsExprs operands → C.rel C.good (boolOp v op operands) (boolOp v' op operands)
  | [], _ => C.plain rfl
  | [last], h => hv.expr last (h last (by simp))
  | operand :: next :: rest, h => by
    refine C.bind (hv.expr operand (h _ List.mem_cons_self)) fun value hvalue => ?_
    refine C.bind (C.isTruthy value) fun truth _ => ?_
    split
    · exact C.pure hvalue
    · exact C.pure hvalue
    · exact boolOp hv op fun e he => h e (List.mem_cons_of_mem _ he)

theorem compareChain (hv : C.Visits v v') : ∀ {links : List (CompareOp × Expr)} (left : Value),
    (∀ link ∈ links, C.allows (.expr link.2)) →
    C.rel C.good (compareChain v left links) (compareChain v' left links)
  | [], _, _ => C.pure (C.good_data _ rfl)
  | (op, comparator) :: rest, left, h => by
    refine C.bind (hv.expr comparator (h (op, comparator) List.mem_cons_self)) fun right _ => ?_
    refine C.bind (C.look fun s _ => Norm.compare op left right) fun holds _ => ?_
    cases holds with
    | true => exact compareChain hv right fun link hl => h link (List.mem_cons_of_mem _ hl)
    | false => exact C.pure (C.good_data _ rfl)

/-! ## Elements and arguments -/

/-- Values that were evaluated one behind the other. -/
def GoodItemsWithin (C : Congruence sb sb') (items : Array Value) : Prop :=
  C.fits items.size ∧ ∀ x ∈ items, C.good x

theorem goodItemsWithin_empty : C.GoodItemsWithin #[] :=
  ⟨C.fits_zero, fun _ hx => absurd hx (Array.not_mem_empty _)⟩

theorem elements (hv : C.Visits v v') : ∀ {parts : List Expr} {items : Array Value},
    C.AllowsExprs parts → C.GoodItemsWithin items →
    C.rel C.GoodItemsWithin (elements sb v items parts) (elements sb' v' items parts)
  | [], items, _, hitems => by
    rw [Eval.elements, Eval.elements]
    exact C.pure hitems
  | element :: rest, items, h, hitems => by
    have hrest : C.AllowsExprs rest := fun e he => h e (List.mem_cons_of_mem _ he)
    have helement := h element List.mem_cons_self
    obtain ⟨kind, span⟩ := element
    cases kind with
    | starred source =>
      rw [Eval.elements, Eval.elements]
      have hsource := C.allows_parts helement source (by simp [ExprKind.parts])
      refine C.bind (hv.expr source hsource) fun source hsource => ?_
      refine C.bind (C.located span (C.iterate hsource)) fun more hmore => ?_
      -- the items of a starred element are counted as rounds, then measured as a whole
      refine C.bind (C.countRounds more.size) fun _ _ => ?_
      refine C.bind (C.checkContainer _) fun _ hfits => ?_
      refine elements hv hrest ⟨hfits, fun x hx => ?_⟩
      rcases Array.mem_append.1 hx with hx | hx
      · exact hitems.2 x hx
      · exact hmore x hx
    | _ =>
      simp only [Eval.elements]
      refine C.bind (hv.expr _ helement) fun value hvalue => ?_
      refine C.bind (C.checkContainer _) fun _ hfits => ?_
      refine elements hv hrest ⟨hfits, fun x hx => ?_⟩
      rcases Array.mem_push.1 hx with hx | rfl
      · exact hitems.2 x hx
      · exact hvalue

/-- All values among keyword arguments are good. -/
def GoodKeywords (C : Congruence sb sb') (found : List (String × Value)) : Prop :=
  ∀ entry ∈ found, C.good entry.2

theorem addKeyword {found : List (String × Value)} (name : String) {value : Value}
    (hfound : C.GoodKeywords found) (hvalue : C.good value) :
    C.toNorm.Holds C.GoodKeywords (addKeyword found name value) := by
  unfold Eval.addKeyword
  split
  · exact Norm.Holds.plain rfl
  · intro entry hentry
    rcases List.mem_cons.1 hentry with rfl | hentry
    · exact hvalue
    · exact hfound entry hentry

theorem addKeywords : ∀ {entries : List (Value × Value)} {found : List (String × Value)},
    (∀ entry ∈ entries, C.good entry.2) → C.GoodKeywords found →
    C.toNorm.Holds C.GoodKeywords (addKeywords found entries)
  | [], _, _, hfound => hfound
  | (key, value) :: rest, found, h, hfound => by
    cases key with
    | str name =>
      have hadd := addKeyword name hfound (h (.str name, value) List.mem_cons_self)
      rw [Eval.addKeywords]
      split
      · rename_i found' he
        rw [he] at hadd
        exact addKeywords (fun entry he => h entry (List.mem_cons_of_mem _ he)) hadd
      · rename_i e he
        rw [he] at hadd
        exact hadd
    | _ => exact Norm.Holds.plain rfl

theorem keywords (hv : C.Visits v v') : ∀ {named : List Keyword} {found : List (String × Value)},
    C.AllowsExprs (named.map (·.value)) → C.GoodKeywords found →
    C.rel C.GoodKeywords (keywords v found named) (keywords v' found named)
  | [], found, _, hfound => C.pure fun entry he => hfound entry (List.mem_reverse.1 he)
  | ⟨some name, expr⟩ :: rest, found, h, hfound => by
    refine C.bind (hv.expr expr (h _ List.mem_cons_self)) fun value hvalue => ?_
    refine C.bind (C.ofExcept (addKeyword name hfound hvalue)) fun found hfound => ?_
    exact keywords hv (fun e he => h e (List.mem_cons_of_mem _ he)) hfound
  | ⟨none, expr⟩ :: rest, found, h, hfound => by
    refine C.bind (hv.expr expr (h _ List.mem_cons_self)) fun value hvalue => ?_
    cases value with
    | dict r =>
      refine C.bind (C.look fun s hs => addKeywords ?_ hfound) fun found hfound => ?_
      · exact fun entry he => (hs.dict r entry he).2
      · exact keywords hv (fun e he => h e (List.mem_cons_of_mem _ he)) hfound
    | _ => exact C.located _ (C.plain rfl)

theorem call (hv : C.Visits v v') {span : Span} {callee : Expr} {args : List Expr}
    {named : List Keyword} (hcall : C.allows (.expr ⟨.call callee args named, span⟩)) :
    C.rel C.good (call sb v span callee args named) (call sb' v' span callee args named) := by
  have h := C.allows_parts hcall
  refine C.bind (hv.expr callee (h _ (by simp [ExprKind.parts]))) fun callee hcallee => ?_
  have hargs : C.AllowsExprs args := fun e he => h e (by simp [ExprKind.parts, he])
  have hnamed : C.AllowsExprs (named.map (·.value)) := fun e he =>
    h e (List.mem_append_right _ he)
  refine C.bind (C.sure (elements_gives sb v args #[]) (elements hv hargs goodItemsWithin_empty)) ?_
  rintro positional ⟨hpositional, hcount⟩
  refine C.bind (keywords hv hnamed fun entry he => absurd he List.not_mem_nil) fun named hnamed => ?_
  refine callValue hv span hcallee ⟨fun x hx => hpositional.2 x (by simpa using hx), hnamed, ?_⟩
    fun f hf hprint hmany => C.pieces_call hcall ?_ (hf ▸ hcallee) hprint
  · simpa using hpositional.1
  · exact severalArguments_of hcount (by simpa using hmany)

/-! ## Displays -/

theorem entries (hv : C.Visits v v') : ∀ {pairs : List (Option Expr × Expr)} {d : Dict},
    (∀ pair ∈ pairs, (∀ key ∈ pair.1, C.allows (.expr key)) ∧ C.allows (.expr pair.2)) →
    C.fits d.size ∧ C.toNorm.GoodDict d →
    C.rel (fun d => C.fits d.size ∧ C.toNorm.GoodDict d) (entries sb v d pairs)
      (entries sb' v' d pairs)
  | [], d, _, hd => C.pure hd
  | (some key, value) :: rest, d, h, hd => by
    have hpair := h _ List.mem_cons_self
    refine C.bind (hv.expr key (hpair.1 key rfl)) fun k hk => ?_
    refine C.bind (hv.expr value hpair.2) fun x hx => ?_
    refine C.bind (C.ofExcept (hd.2.insert hk hx)) fun d hd => ?_
    refine C.bind (C.checkContainer d.size) fun _ hfits => ?_
    exact entries hv (fun pair hp => h pair (List.mem_cons_of_mem _ hp)) ⟨hfits, hd.1⟩
  | (none, source) :: rest, d, h, hd => by
    refine C.bind (hv.expr source (h _ List.mem_cons_self).2) fun value _ => ?_
    cases value with
    | dict r =>
      refine C.bind (P := C.toNorm.GoodDict) (C.look fun s hs => ?_) fun d hd => ?_
      · exact (hd.2.insertAll (hs.dict r)).mono fun _ h => h.1
      refine C.bind (C.checkContainer d.size) fun _ hfits => ?_
      exact entries hv (fun pair hp => h pair (List.mem_cons_of_mem _ hp)) ⟨hfits, hd⟩
    | _ => exact C.plain rfl

theorem dictDisplay (hv : C.Visits v v') {span : Span} {keys : List (Option Expr)} {values : List Expr}
    (h : C.AllowsExprs (ExprKind.dict keys values).parts) :
    C.rel C.good (exprKind sb v span (.dict keys values)) (exprKind sb' v' span (.dict keys values)) := by
  refine C.bind (entries hv ?_ ⟨C.fits_zero, Norm.goodDict_empty⟩) fun d hd => C.newDict hd.1 hd.2
  intro pair hpair
  obtain ⟨hkey, hvalue⟩ := List.of_mem_zip hpair
  refine ⟨fun key hk => h key (List.mem_append_left _ ?_), h _ (List.mem_append_right _ hvalue)⟩
  exact List.mem_filterMap.2 ⟨pair.1, hkey, hk⟩

/-! ## Texts -/

/-- Behind the first part, nothing but a bare part is measured against less than the whole quota. -/
theorem joinedStr (hv : C.Visits v v') : ∀ {parts : List Expr} (text : String),
    C.AllowsExprs parts → (BarePart parts → C.pieces) →
    (∀ part ∈ parts.head?, part.isText = false → text.utf8ByteSize = 0 ∨ C.pieces) →
    C.rel C.good (joinedStr sb v text parts) (joinedStr sb' v' text parts)
  | [], text, _, _, _ => C.pure (Norm.good_str text)
  | part :: rest, text, h, hbare, hfirst => by
    have behind : ∀ text, C.rel C.good (Eval.joinedStr sb v text rest)
        (Eval.joinedStr sb' v' text rest) := fun text => by
      refine joinedStr hv text (fun e he => h e (List.mem_cons_of_mem _ he)) ?_ ?_
      · rintro ⟨e, he, htext⟩
        exact hbare ⟨e, List.mem_of_mem_tail he, htext⟩
      · exact fun e he htext => .inr (hbare ⟨e, List.mem_of_mem_head? he, htext⟩)
    have hpart := C.sure (hv.lawful.text_of part) (hv.expr part (h _ List.mem_cons_self))
    refine C.bind hpart ?_
    rintro value ⟨hvalue, htext⟩
    split
    · refine C.bind (P := fun _ => True) (C.pure True.intro) fun next _ => ?_
      exact C.bind (C.checkString _) fun _ _ => behind _
    · rename_i hother
      -- a part that is a text gives a text, which is taken above
      have hnot : part.isText = false := by
        rw [← Bool.not_eq_true]
        intro hpart
        obtain ⟨text, rfl⟩ := Value.exists_of_isStr (htext hpart)
        exact hother text rfl
      refine C.bind (C.text _ (hfirst part rfl hnot) hvalue) fun next _ => ?_
      exact C.bind (C.checkString _) fun _ _ => behind _

theorem formatSpec (hv : C.Visits v v') {spec : Option Expr}
    (h : ∀ e ∈ spec, C.allows (.expr e)) :
    C.rel (fun _ => True) (formatSpec v spec) (formatSpec v' spec) := by
  cases spec with
  | none => exact C.pure True.intro
  | some e =>
    refine C.bind (hv.expr e (h e rfl)) fun value _ => ?_
    split
    · exact C.pure True.intro
    · exact C.plain rfl

theorem formattedValue (hv : C.Visits v v') {value : Expr} {conversion : Option Char}
    {spec : Option Expr} (h : C.AllowsExprs (ExprKind.formattedValue value conversion spec).parts) :
    C.rel C.good (formattedValue sb v value conversion spec)
      (formattedValue sb' v' value conversion spec) := by
  refine C.bind (hv.expr value (h _ (by simp [ExprKind.parts]))) fun x hx => ?_
  refine C.bind (C.convert conversion hx) fun x hx => ?_
  refine C.bind (formatSpec hv fun e he => h e ?_) fun spec _ => ?_
  · simp [ExprKind.parts, Option.mem_def.1 he]
  refine C.bind (C.format spec hx) fun text _ => ?_
  exact C.bind (C.checkString _) fun _ _ => C.pure (Norm.good_str text)

/-! ## Subscripts -/

theorem subscript (hv : C.Visits v v') {container slice : Expr}
    (h : C.AllowsExprs [container, slice]) :
    C.rel C.good (subscript sb v container slice) (subscript sb' v' container slice) := by
  refine C.bind (hv.expr container (h _ (by simp))) fun target htarget => ?_
  have hslice := h slice (by simp)
  obtain ⟨kind, span⟩ := slice
  dsimp only
  split
  · exact C.bind (sliceBounds hv (C.allows_parts hslice)) fun bounds _ => C.getSlice bounds htarget
  · exact C.bind (hv.expr _ hslice) fun index hindex => C.getItem htarget hindex

/-! ## Comprehensions -/

/-- What is known of the parts of a comprehension is known of the same one for other visits. -/
theorem ingredients (hv : C.Visits v v') {e : Expr} (h : C.allows (.expr e))
    {collect : Collection → Eval Collection} {nothing : Collection} {clauses : List Comprehension}
    (he : e.kind.Comprehends v collect nothing clauses) :
    C.GoodCollection nothing ∧ C.AllowsExprs (clauses.flatMap Comprehension.parts) ∧
    (∀ c ∈ clauses, C.Target c.target) ∧
    ∃ collect', e.kind.Comprehends v' collect' nothing clauses ∧
      ∀ out, C.GoodContents out → C.rel C.GoodContents (collect out) (collect' out) := by
  have parts := C.allows_parts h
  have targets : ∀ target ∈ e.kind.targets, C.Target target := fun _ ht => C.target_of h ht
  generalize e.kind = kind at he parts targets
  cases he with
  | list element =>
    exact ⟨goodCollection_list, fun e he => parts e (List.mem_cons_of_mem _ he),
      fun c hc => targets _ (List.mem_map_of_mem hc), _, .list element _,
      fun _ hout => collectElement hv (parts _ List.mem_cons_self) hout⟩
  | generator element =>
    exact ⟨goodCollection_list, fun e he => parts e (List.mem_cons_of_mem _ he),
      fun c hc => targets _ (List.mem_map_of_mem hc), _, .generator element _,
      fun _ hout => collectElement hv (parts _ List.mem_cons_self) hout⟩
  | set element =>
    exact ⟨goodCollection_set, fun e he => parts e (List.mem_cons_of_mem _ he),
      fun c hc => targets _ (List.mem_map_of_mem hc), _, .set element _,
      fun _ hout => collectElement hv (parts _ List.mem_cons_self) hout⟩
  | dict key value =>
    refine ⟨goodCollection_dict,
      fun e he => parts e (List.mem_cons_of_mem _ (List.mem_cons_of_mem _ he)),
      fun c hc => targets _ (List.mem_map_of_mem hc), _, .dict key value _,
      fun _ hout => collectEntry hv (fun e he => parts e ?_) hout⟩
    rcases List.mem_cons.1 he with rfl | he
    · exact List.mem_cons_self
    · rw [List.mem_singleton.1 he]
      exact List.mem_cons_of_mem _ List.mem_cons_self

theorem comprehension (hplace : C.KeepsPlace) (hv : C.Visits v v') {e : Expr}
    (h : C.allows (.expr e)) {collect : Collection → Eval Collection} {nothing : Collection}
    {clauses : List Comprehension} (he : e.kind.Comprehends v collect nothing clauses) :
    C.rel C.good (Eval.exprKind sb v e.span e.kind) (Eval.exprKind sb' v' e.span e.kind) := by
  obtain ⟨hnothing, hclauses, htargets, collect', he', hcollect⟩ := ingredients hv h he
  rw [he.exprKind_eq, he'.exprKind_eq]
  exact comprehend hplace hv hcollect hnothing hclauses htargets

/-! ## All expressions -/

/-- What is known of the value of a node, from what is known of the nodes inside it. -/
theorem exprKind (hv : C.Visits v v') {e : Expr} (h : C.allows (.expr e))
    (hplace : (Node.expr e).TakesScope → C.KeepsPlace) :
    C.rel C.good (exprKind sb v e.span e.kind) (exprKind sb' v' e.span e.kind) := by
  have parts := C.allows_parts h
  obtain ⟨kind, span⟩ := e
  cases kind with
  | constant c => exact C.pure (C.good_data _ (by cases c <;> rfl))
  | name name => exact C.lookup (C.reads_name h)
  | binOp left op right =>
    refine C.bind (hv.expr left (parts _ (by simp [ExprKind.parts]))) fun a ha => ?_
    refine C.bind (hv.expr right (parts _ (by simp [ExprKind.parts]))) fun b hb => ?_
    exact C.binary op ha hb
  | unaryOp op operand =>
    refine C.bind (hv.expr operand (parts _ (by simp [ExprKind.parts]))) fun a _ => ?_
    exact C.look fun s _ => Norm.unary op a
  | boolOp op operands => exact boolOp hv op parts
  | compare left ops comparators =>
    refine C.bind (hv.expr left (parts _ (by simp [ExprKind.parts]))) fun a _ => ?_
    refine compareChain hv a fun link hl => parts _ (List.mem_cons_of_mem _ ?_)
    exact (List.of_mem_zip hl).2
  | ifExp test body orelse =>
    refine C.bind (hv.expr test (parts _ (by simp [ExprKind.parts]))) fun a _ => ?_
    refine C.bind (C.isTruthy a) fun truth _ => ?_
    cases truth with
    | true => exact hv.expr body (parts _ (by simp [ExprKind.parts]))
    | false => exact hv.expr orelse (parts _ (by simp [ExprKind.parts]))
  | call callee args named => exact call hv h
  | «attribute» receiver attr =>
    refine C.bind (hv.expr receiver (parts _ (by simp [ExprKind.parts]))) fun a ha => ?_
    exact C.readAttribute attr ha
  | subscript container slice => exact subscript hv parts
  | slice | starred => exact C.plain rfl
  | list elems =>
    exact C.bind (elements hv parts goodItemsWithin_empty) fun items h => C.newList h.1 h.2
  | tuple elems =>
    exact C.bind (elements hv parts goodItemsWithin_empty) fun items h => C.newTuple h.1 h.2
  | set elems =>
    refine C.bind (elements hv parts goodItemsWithin_empty) fun items h => ?_
    refine C.bind (C.ofExcept (Norm.goodSet_ofList fun x hx => h.2 x (by simpa using hx))) ?_
    exact fun set hset => C.newSet (C.fits_mono (by simpa using hset.2) h.1) hset.1
  | dict keys values => exact dictDisplay hv parts
  | listComp element clauses => exact comprehension (hplace True.intro) hv h (.list element clauses)
  | generatorExp element clauses =>
    exact comprehension (hplace True.intro) hv h (.generator element clauses)
  | setComp element clauses => exact comprehension (hplace True.intro) hv h (.set element clauses)
  | dictComp key value clauses =>
    exact comprehension (hplace True.intro) hv h (.dict key value clauses)
  | lambda params body => exact C.newFunction (hplace True.intro) (C.code_of h rfl)
  | namedExpr name value =>
    refine C.bind (hv.expr value (parts _ (by simp [ExprKind.parts]))) fun a ha => ?_
    refine C.bind C.get fun s _ => ?_
    exact C.bind (C.defineIn ha) fun _ _ => C.pure ha
  | joinedStr elems => exact joinedStr hv "" parts (C.pieces_text h) fun _ _ _ => .inl rfl
  | formattedValue value conversion spec => exact formattedValue hv parts

end Congruence

end ScriptSandbox

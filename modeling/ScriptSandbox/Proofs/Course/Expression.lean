import ScriptSandbox.Proofs.Course

/-!
# The visits of an expression: construct by construct

All expressions without calls have a course but named expressions, which bind a name outside
(`Courses.exprKind`). Targets made of names are assigned to in the scope of their comprehension.
-/

namespace ScriptSandbox

open Eval

/-- A clause assigns to names, and no call is in it. -/
structure Comprehension.CallFree (c : Comprehension) : Prop where
  target : c.target.NamesOnly fun _ => True
  iter : c.iter.CallFree
  ifs : ∀ e ∈ c.ifs, e.CallFree

/-- The clauses of an expression without calls. -/
theorem Expr.CallFree.clauses {e : Expr} (h : e.CallFree) {clauses : List Comprehension}
    (htargets : e.kind.targets = clauses.map (·.target))
    (hparts : ∀ part ∈ clauses.flatMap Comprehension.parts, part ∈ e.kind.parts) :
    ∀ c ∈ clauses, c.CallFree := by
  intro c hc
  have inside (part : Expr) (hpart : part ∈ c.parts) : part.CallFree :=
    h.part (hparts part (List.mem_flatMap.2 ⟨c, hc, hpart⟩))
  refine ⟨h.self.2 _ ?_, inside _ (by simp [Comprehension.parts]), fun e he => inside e ?_⟩
  · rw [htargets]
    exact List.mem_map_of_mem hc
  · simp [Comprehension.parts, he]

namespace Courses

variable {sb : Sandbox} {bound : Nat} {f r : ScopeRef}

/-! ## Operands -/

theorem boolOp (op : BoolOp) : ∀ operands : List Expr, (∀ e ∈ operands, e.CallFree) →
    Courses sb bound f r fun v => Eval.boolOp v op operands
  | [], _ => throw _
  | [last], h => expr (h last List.mem_cons_self)
  | operand :: next :: rest, h => by
    refine (expr (h operand List.mem_cons_self)).bind fun value => (isTruthy value).bind fun truth => ?_
    split
    · exact pure value
    · exact pure value
    · exact boolOp op (next :: rest) fun e he => h e (List.mem_cons_of_mem _ he)

theorem compareChain : ∀ (links : List (CompareOp × Expr)) (left : Value),
    (∀ link ∈ links, link.2.CallFree) → Courses sb bound f r fun v => Eval.compareChain v left links
  | [], _, _ => pure _
  | (op, comparator) :: rest, left, h => by
    refine (expr (h (op, comparator) List.mem_cons_self)).bind fun right => ?_
    refine (look _).bind fun holds => ?_
    split
    · exact compareChain rest right fun link hlink => h link (List.mem_cons_of_mem _ hlink)
    · exact pure _

theorem elements : ∀ (parts : List Expr) (items : Array Value), (∀ e ∈ parts, e.CallFree) →
    Courses sb bound f r fun v => Eval.elements sb v items parts
  | [], items, _ => by
    simp only [Eval.elements]
    exact pure items
  | ⟨kind, span⟩ :: rest, items, h => by
    have hfirst := h _ List.mem_cons_self
    have behind := fun items => elements rest items fun e he => h e (List.mem_cons_of_mem _ he)
    cases kind with
    | starred source =>
      have hsource : source.CallFree := hfirst.part (by simp [ExprKind.parts])
      simp only [Eval.elements]
      refine (expr hsource).bind fun source => ((iterate source).located span).bind fun more => ?_
      exact (countRounds more.size).bind fun _ => (ofExcept _).bind fun _ => behind _
    | _ =>
      simp only [Eval.elements]
      exact (expr hfirst).bind fun value => (ofExcept _).bind fun _ => behind _

theorem entries : ∀ (pairs : List (Option Expr × Expr)) (d : Dict),
    (∀ pair ∈ pairs, (∀ key ∈ pair.1, key.CallFree) ∧ pair.2.CallFree) →
    Courses sb bound f r fun v => Eval.entries sb v d pairs
  | [], d, _ => pure d
  | (some key, value) :: rest, d, h => by
    obtain ⟨hkey, hvalue⟩ := h _ List.mem_cons_self
    refine (expr (hkey key rfl)).bind fun key => (expr hvalue).bind fun value => ?_
    refine (ofExcept _).bind fun d => (ofExcept _).bind fun _ => entries rest d ?_
    exact fun pair hpair => h pair (List.mem_cons_of_mem _ hpair)
  | (none, source) :: rest, d, h => by
    have behind := fun d => entries rest d fun pair hpair => h pair (List.mem_cons_of_mem _ hpair)
    refine (expr (h _ List.mem_cons_self).2).bind fun value => ?_
    split
    · exact (look _).bind fun d => (ofExcept _).bind fun _ => behind d
    · exact throw _

theorem joinedStr : ∀ (parts : List Expr) (text : String), (∀ e ∈ parts, e.CallFree) →
    Courses sb bound f r fun v => Eval.joinedStr sb v text parts
  | [], text, _ => pure _
  | part :: rest, text, h => by
    have behind : ∀ next : String, Courses sb bound f r fun v => (do
        sb.limits.size.checkString (text ++ next).utf8ByteSize
        Eval.joinedStr sb v (text ++ next) rest) := fun next =>
      (ofExcept _).bind fun _ => joinedStr rest _ fun e he => h e (List.mem_cons_of_mem _ he)
    refine (expr (h part List.mem_cons_self)).bind fun value => ?_
    split
    · exact (pure _).bind behind
    · exact (look _).bind behind

theorem formatSpec (spec : Option Expr) (h : ∀ e ∈ spec, e.CallFree) :
    Courses sb bound f r fun v => Eval.formatSpec v spec := by
  cases spec with
  | none => exact pure _
  | some spec =>
    refine (expr (h spec rfl)).bind fun value => ?_
    split
    · exact pure _
    · exact throw _

theorem sliceBound (limit : Option Expr) (h : ∀ e ∈ limit, e.CallFree) :
    Courses sb bound f r fun v => Eval.sliceBound v limit := by
  cases limit with
  | none => exact pure _
  | some limit =>
    refine (expr (h limit rfl)).bind fun value => ?_
    split
    · exact pure _
    · split
      · exact pure _
      · exact located _ (throw _)

theorem subscript (container slice : Expr) (hcontainer : container.CallFree) (hslice : slice.CallFree) :
    Courses sb bound f r fun v => Eval.subscript sb v container slice := by
  refine (expr hcontainer).bind fun target => ?_
  split
  · rename_i lower upper step hkind
    have part (e : Expr) (he : e ∈ lower ∨ e ∈ upper ∨ e ∈ step) : e.CallFree :=
      hslice.part (by simpa [hkind, ExprKind.parts, Option.mem_toList] using he)
    refine bind ?_ fun bounds => onStore _
    refine (sliceBound lower fun e he => part e (.inl he)).bind fun lower => ?_
    refine (sliceBound upper fun e he => part e (.inr (.inl he))).bind fun upper => ?_
    exact (sliceBound step fun e he => part e (.inr (.inr he))).bind fun step => pure _
  · exact (expr hslice).bind fun index => onStore _

/-! ## Assignment to names -/

theorem define (hr : bound ≤ r.index) (name : String) (value : Value) :
    Courses sb bound f r fun _ => Eval.define name value := by
  intro s hs
  refine ⟨⟨.defineIn s s.scopes.current name value, rfl⟩, [],
    .ends (fun _ => rfl) ⟨fun r' hr' => ?_, Nat.le_refl _⟩⟩
  refine Scopes.scope_defineIn_of_ne fun heq => ?_
  rw [heq, hs.current] at hr'
  omega

theorem unpack (targets : List Expr) (value : Value) :
    Courses sb bound f r fun _ => Eval.unpack sb targets value := by
  unfold Eval.unpack
  simp only
  split
  · exact throw _
  refine (iterate value).bind fun items => (countRounds items.size).bind fun _ => ?_
  split
  · split
    · exact throw _
    · split
      · exact throw _
      · exact pure _
  · split
    · exact throw _
    · exact (onStore _).bind fun _ => pure _

mutual

theorem assign (hr : bound ≤ r.index) (target : Expr) (value : Value)
    (h : target.NamesOnly fun _ => True) :
    Courses sb bound f r fun v => Eval.assign sb v target value := by
  obtain ⟨kind, span⟩ := target
  simp only [Eval.assign]
  exact (assignKind hr kind value h).located span

theorem assignKind (hr : bound ≤ r.index) (kind : ExprKind) {span : Span} (value : Value)
    (h : Expr.NamesOnly (fun _ => True) ⟨kind, span⟩) :
    Courses sb bound f r fun v => Eval.assignKind sb v kind value := by
  cases kind with
  | name x =>
    simp only [Eval.assignKind]
    exact define hr x value
  | tuple targets =>
    simp only [Eval.assignKind]
    cases h with
    | tuple hparts => exact (unpack targets value).bind fun values => assignEach hr targets values hparts
  | list targets =>
    simp only [Eval.assignKind]
    cases h with
    | list hparts => exact (unpack targets value).bind fun values => assignEach hr targets values hparts
  | starred target =>
    simp only [Eval.assignKind]
    exact throw _
  | _ => cases h

theorem assignEach (hr : bound ≤ r.index) : ∀ (targets : List Expr) (values : List Value),
    (∀ e ∈ targets, e.NamesOnly fun _ => True) →
    Courses sb bound f r fun v => Eval.assignEach sb v targets values
  | [], _, _ => by
    simp only [Eval.assignEach]
    exact pure _
  | target :: targets, [], _ => by
    simp only [Eval.assignEach]
    exact pure _
  | target :: targets, value :: values, h => by
    have hrest := assignEach hr targets values fun e he => h e (List.mem_cons_of_mem _ he)
    have htarget := h target List.mem_cons_self
    rcases target with ⟨kind, span⟩
    cases kind with
    | starred inner =>
      simp only [Eval.assignEach]
      cases htarget with
      | starred hinner => exact (assign hr inner value hinner).bind fun _ => hrest
    | _ =>
      simp only [Eval.assignEach]
      exact (assign hr _ value htarget).bind fun _ => hrest

end

/-! ## Comprehensions -/

theorem collectElement {element : Expr} (h : element.CallFree) (out : Collection) :
    Courses sb bound f r fun v => Eval.collectElement v element out := by
  refine (expr h).bind fun value => ?_
  cases out with
  | set items => exact (ofExcept _).map
  | _ => exact pure _

theorem collectEntry {key value : Expr} (hkey : key.CallFree) (hvalue : value.CallFree)
    (out : Collection) : Courses sb bound f r fun v => Eval.collectEntry v key value out := by
  refine (expr hkey).bind fun key => (expr hvalue).bind fun value => ?_
  cases out with
  | dict entries => exact (ofExcept _).map
  | _ => exact pure _

theorem allHold : ∀ conditions : List Expr, (∀ e ∈ conditions, e.CallFree) →
    Courses sb bound f r fun v => Eval.allHold v conditions
  | [], _ => pure true
  | condition :: rest, h => by
    refine (expr (h condition List.mem_cons_self)).bind fun value => (isTruthy value).bind fun holds => ?_
    cases holds with
    | true => exact allHold rest fun e he => h e (List.mem_cons_of_mem _ he)
    | false => exact pure false

/-- One round of a clause: the item is assigned, and if all conditions hold, the rest is done. -/
theorem round (hr : bound ≤ r.index) {clause : Comprehension} (h : clause.CallFree) (item : Value)
    (out : Collection) {c : Visit → Eval Collection} (hc : Courses sb bound f r c) :
    Courses sb bound f r fun v => (do
      Guard.tickLoop sb.limits sb.clock
      Eval.assign sb v clause.target item
      if ← Eval.allHold v clause.ifs then c v else Pure.pure out) := by
  refine tickLoop.bind fun _ => (assign hr clause.target item h.target).bind fun _ => ?_
  refine (allHold clause.ifs h.ifs).bind fun holds => ?_
  cases holds with
  | true => exact hc
  | false => exact pure out

theorem runClause (hr : bound ≤ r.index) {collect : Visit → Collection → Eval Collection}
    (hcollect : ∀ out, Courses sb bound f r fun v => collect v out) :
    ∀ (rest : List Comprehension) (clause : Comprehension) (source : Value) (out : Collection),
      (∀ c ∈ clause :: rest, c.CallFree) →
      Courses sb bound f r fun v => Eval.runClause sb v (collect v) clause source out rest
  | [], clause, source, out, h => by
    refine ((iterate source).located _).bind fun items => foldFrom (fun out item => ?_) _ _ _
    refine round hr (h _ List.mem_cons_self) item out ((hcollect out).bind fun out => ?_)
    exact (ofExcept _).bind fun _ => pure out
  | next :: rest, clause, source, out, h => by
    have hrest : ∀ c ∈ next :: rest, c.CallFree := fun c hc => h c (List.mem_cons_of_mem _ hc)
    refine ((iterate source).located _).bind fun items => foldFrom (fun out item => ?_) _ _ _
    refine round hr (h _ List.mem_cons_self) item out ?_
    refine (expr (hrest next List.mem_cons_self).iter).bind fun source => ?_
    exact runClause hr hcollect rest next source out hrest

/-- The first iterable is evaluated in the scope around, all else in a new one. -/
theorem comprehend {collect : Visit → Collection → Eval Collection}
    (hcollect : ∀ (inner : ScopeRef) out, Courses sb bound f inner fun v => collect v out)
    (nothing : Collection) (clauses : List Comprehension) (h : ∀ c ∈ clauses, c.CallFree) :
    Courses sb bound f r fun v => Eval.comprehend sb v (collect v) nothing clauses := by
  cases clauses with
  | nil => exact throw _
  | cons first rest =>
    refine (expr (h first List.mem_cons_self).iter).bind fun source => fun s hs => ?_
    refine (currentScope s hs).bind fun parent s' hparent _ => ?_
    obtain ⟨rfl, rfl⟩ : parent = r ∧ s' = s := by
      cases hparent
      exact ⟨hs.current, rfl⟩
    refine bind (inScope fun inner hinner => ?_) (fun out : Collection => onStore out.toValue) s' hs
    exact runClause hinner (hcollect inner) rest first source nothing h

/-! ## All expressions -/

/-- Every expression without calls has a course but a named one. -/
theorem exprKind (span place : Span) {kind : ExprKind} (h : Expr.CallFree ⟨kind, place⟩)
    (hnamed : ∀ name value, kind ≠ .namedExpr name value) :
    Courses sb bound f r fun v => Eval.exprKind sb v span kind := by
  have part (e : Expr) (he : e ∈ kind.parts) : e.CallFree := h.part he
  cases kind with
  | constant c => exact pure _
  | name name => exact lookup name
  | binOp left op right =>
    exact (expr (part left (by simp [ExprKind.parts]))).bind fun a =>
      (expr (part right (by simp [ExprKind.parts]))).bind fun b => onStore _
  | unaryOp op operand => exact (expr (part operand (by simp [ExprKind.parts]))).bind fun a => look _
  | boolOp op operands => exact boolOp op operands part
  | compare left ops comparators =>
    refine (expr (part left (by simp [ExprKind.parts]))).bind fun a => compareChain _ a fun link hlink => ?_
    exact part link.2 (List.mem_cons_of_mem _ (List.of_mem_zip hlink).2)
  | ifExp test body orelse =>
    refine (expr (part test (by simp [ExprKind.parts]))).bind fun value =>
      (isTruthy value).bind fun truth => ?_
    cases truth with
    | true => exact expr (part body (by simp [ExprKind.parts]))
    | false => exact expr (part orelse (by simp [ExprKind.parts]))
  | call callee args named => exact absurd rfl (h.self.1 callee args named)
  | «attribute» receiver attr =>
    exact (expr (part receiver (by simp [ExprKind.parts]))).bind fun a => onStore _
  | subscript container slice =>
    exact subscript container slice (part _ (by simp [ExprKind.parts])) (part _ (by simp [ExprKind.parts]))
  | slice | starred => exact throw _
  | list parts => exact (elements parts #[] part).bind fun items => onStore _
  | tuple parts => exact (elements parts #[] part).bind fun items => onStore _
  | set parts => exact (elements parts #[] part).bind fun items => (ofExcept _).bind fun set => onStore _
  | dict keys values =>
    refine (entries _ .empty fun pair hpair => ?_).bind fun d => onStore _
    obtain ⟨hkeys, hvalues⟩ := List.of_mem_zip hpair
    refine ⟨fun key hkey => part key (List.mem_append_left _ ?_), part _ (List.mem_append_right _ hvalues)⟩
    exact List.mem_filterMap.2 ⟨pair.1, hkeys, hkey⟩
  | listComp element clauses | generatorExp element clauses =>
    refine comprehend (fun _ out => collectElement (part element (by simp [ExprKind.parts])) out) _
      clauses ?_
    exact h.clauses rfl fun e he => List.mem_cons_of_mem _ he
  | setComp element clauses =>
    refine comprehend (fun _ out => collectElement (part element (by simp [ExprKind.parts])) out) _
      clauses ?_
    exact h.clauses rfl fun e he => List.mem_cons_of_mem _ he
  | dictComp key value clauses =>
    refine comprehend (fun _ out => collectEntry (part key (by simp [ExprKind.parts]))
      (part value (by simp [ExprKind.parts])) out) _ clauses ?_
    exact h.clauses rfl fun e he => List.mem_cons_of_mem _ (List.mem_cons_of_mem _ he)
  | lambda params body => exact newFunction _ _ _
  | namedExpr name value => exact absurd rfl (hnamed name value)
  | joinedStr parts => exact joinedStr parts "" part
  | formattedValue value conversion spec =>
    refine (expr (part value (by simp [ExprKind.parts]))).bind fun value => (look _).bind fun value => ?_
    refine (formatSpec spec fun e he => part e ?_).bind fun spec => (look _).bind fun _ =>
      (ofExcept _).bind fun _ => pure _
    simpa [ExprKind.parts] using .inr he

end Courses

end ScriptSandbox

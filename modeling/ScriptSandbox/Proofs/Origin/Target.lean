import ScriptSandbox.Eval.Comprehension
import ScriptSandbox.Eval.Pattern
import ScriptSandbox.Proofs.Origin

/-!
# Where errors come from: targets, patterns and comprehensions

What values are taken apart by hands on the errors of the visits inside.
-/

namespace ScriptSandbox

open Eval

namespace Conveys

variable {sb : Sandbox}

/-! ## Slices -/

theorem sliceBound (bound : Option Expr) : Conveys sb Error.Fresh fun v => Eval.sliceBound v bound := by
  cases bound with
  | none => exact pure none
  | some bound =>
    refine (expr bound).bind fun value => ?_
    split
    · exact pure none
    · split
      · exact pure _
      · exact located _ (throw ⟨rfl, rfl⟩)

theorem sliceBounds (lower upper step : Option Expr) :
    Conveys sb Error.Fresh fun v => Eval.sliceBounds v lower upper step :=
  (sliceBound lower).bind fun _ => (sliceBound upper).bind fun _ =>
    (sliceBound step).bind fun _ => pure _

/-! ## Assignment -/

theorem unpack (targets : List Expr) (value : Value) :
    Conveys sb Error.Fresh fun _ => Eval.unpack sb targets value := by
  unfold Eval.unpack
  dsimp only
  split
  · exact throw ⟨rfl, rfl⟩
  refine (iterate value).bind fun items => (countRounds items.size).bind fun _ => ?_
  split
  · split
    · exact throw ⟨rfl, rfl⟩
    · split
      · exact throw ⟨rfl, rfl⟩
      · exact pure _
  · split
    · exact throw ⟨rfl, rfl⟩
    · exact (onStore (.newList _)).bind fun _ => pure _

theorem assignSubscript (container slice : Expr) (value : Value) :
    Conveys sb Error.Fresh fun v => Eval.assignSubscript sb v container slice value := by
  refine (expr container).bind fun target => ?_
  split
  · exact (sliceBounds _ _ _).bind fun bounds => onStore (.setSlice _ target bounds value)
  · exact (expr slice).bind fun index => onStore (.setItem _ target index value)

mutual

theorem assign : ∀ (target : Expr) (value : Value),
    Conveys sb Error.Fresh fun v => Eval.assign sb v target value
  | ⟨kind, span⟩, value => by
    simp only [Eval.assign]
    exact (assignKind kind value).located span

theorem assignKind : ∀ (kind : ExprKind) (value : Value),
    Conveys sb Error.Fresh fun v => Eval.assignKind sb v kind value
  | .name name, value => by
    simp only [Eval.assignKind]
    exact define name value
  | .tuple targets, value => by
    simp only [Eval.assignKind]
    exact (unpack targets value).bind fun values => assignEach targets values
  | .list targets, value => by
    simp only [Eval.assignKind]
    exact (unpack targets value).bind fun values => assignEach targets values
  | .subscript container slice, value => by
    simp only [Eval.assignKind]
    exact assignSubscript container slice value
  | .constant _, _ | .binOp .., _ | .unaryOp .., _ | .boolOp .., _ | .compare .., _ | .ifExp .., _
  | .call .., _ | .attribute .., _ | .slice .., _ | .set _, _ | .dict .., _ | .starred _, _
  | .listComp .., _ | .setComp .., _ | .dictComp .., _ | .generatorExp .., _ | .lambda .., _
  | .namedExpr .., _ | .joinedStr _, _ | .formattedValue .., _ => by
    simp only [Eval.assignKind]
    exact throw ⟨rfl, rfl⟩

theorem assignEach : ∀ (targets : List Expr) (values : List Value),
    Conveys sb Error.Fresh fun v => Eval.assignEach sb v targets values
  | [], _ => by
    simp only [Eval.assignEach]
    exact pure ()
  | _ :: _, [] => by
    simp only [Eval.assignEach]
    exact pure ()
  | ⟨kind, span⟩ :: targets, value :: values => by
    have rest := assignEach targets values
    cases kind with
    | starred target =>
      simp only [Eval.assignEach]
      exact (assign target value).bind fun _ => rest
    | _ =>
      simp only [Eval.assignEach]
      exact (assign _ value).bind fun _ => rest

end

theorem assignAll (value : Value) : ∀ targets : List Expr,
    Conveys sb Error.Fresh fun v => Eval.assignAll sb v value targets
  | [] => pure ()
  | target :: rest => (assign target value).bind fun _ => assignAll value rest

theorem ownedValue (span : Span) (scopes : Scopes) (owner : Option ScopeRef) (name : String) :
    Conveys sb Error.Fresh fun _ => Eval.ownedValue sb span scopes owner name := by
  unfold Eval.ownedValue
  split
  · exact pure _
  · exact (lookup name).located span

theorem augmentName (span : Span) (name : String) (op : BinaryOp) (value : Expr) :
    Conveys sb Error.Fresh fun v => Eval.augmentName sb v span name op value := by
  refine get.bind fun s => (ownedValue span _ _ name).bind fun current => ?_
  refine (expr value).bind fun operand => (onStore (.binary _ op current operand)).bind fun result => ?_
  split
  · exact defineIn _ name result
  · exact define name result

theorem augmentSubscript (hhost : sb.host.Fresh) (span : Span) (container slice : Expr) (op : BinaryOp)
    (value : Expr) :
    Conveys sb Error.Fresh fun v => Eval.augmentSubscript sb v span container slice op value := by
  refine (expr container).bind fun target => ?_
  split
  · refine (sliceBounds _ _ _).bind fun bounds => ?_
    refine (onStore (.getSlice target bounds)).bind fun current => (expr value).bind fun operand => ?_
    refine (onStore (.binary _ op current operand)).bind fun result => ?_
    exact (onStore (.setSlice _ target bounds result)).located span
  · refine (expr slice).bind fun index => ?_
    refine (onStore (.getItem hhost target index)).bind fun current => (expr value).bind fun operand => ?_
    refine (onStore (.binary _ op current operand)).bind fun result => ?_
    exact (onStore (.setItem _ target index result)).located span

theorem augment (hhost : sb.host.Fresh) (target : Expr) (op : BinaryOp) (value : Expr) :
    Conveys sb Error.Fresh fun v => Eval.augment sb v target op value := by
  unfold Eval.augment
  split
  · exact augmentName _ _ op value
  · exact augmentSubscript hhost _ _ _ op value
  · exact located _ (throw ⟨rfl, rfl⟩)
  · exact located _ (throw ⟨rfl, rfl⟩)

end Conveys

/-! ## Patterns -/

namespace Fresh

theorem capture (name : String) (value : Value) (captures : Captures) :
    Fresh (capture name value captures) := ite (error ⟨rfl, rfl⟩) (ok _)

theorem captureUnder (name : Option String) (value : Value) (captures : Captures) :
    Fresh (captureUnder name value captures) := by
  cases name with
  | none => exact ok _
  | some name => exact capture name value captures

theorem alignItems (patterns : List Pattern) (items : Array Value) :
    Fresh (alignItems patterns items) := by
  unfold Eval.alignItems
  refine ite (error ⟨rfl, rfl⟩) ?_
  split
  · exact ok _
  · exact ite (ok _) (ok _)

end Fresh

namespace Conveys

variable {sb : Sandbox}

theorem captureStar (patterns : List Pattern) (middle : Array Value) (captures : Captures) :
    Conveys sb Error.Fresh fun _ => Eval.captureStar patterns middle captures := by
  unfold Eval.captureStar
  split
  · exact pure _
  · exact (onStore (.newList middle)).bind fun value => ofExcept (.capture _ value captures)

theorem captureRemaining (r : DictRef) (matched : List Value) (rest : Option String)
    (captures : Captures) :
    Conveys sb Error.Fresh fun _ => Eval.captureRemaining r matched rest captures := by
  cases rest with
  | none => exact pure _
  | some name =>
    refine bind ?_ fun value => ofExcept (.capture name value captures)
    exact (look fun s => .ofPairs _).bind fun d => onStore (.newDict d)

mutual

theorem matchPattern : ∀ (pattern : Pattern) (subject : Value) (captures : Captures),
    Conveys sb Error.Fresh fun v => Eval.matchPattern v pattern subject captures
  | .value e, subject, captures => by
    simp only [Eval.matchPattern]
    refine (expr e).bind fun value => (look fun s => .equal subject value).bind fun holds => ?_
    split
    · exact pure _
    · exact pure none
  | .singleton constant, subject, captures => by
    simp only [Eval.matchPattern]
    exact pure _
  | .sequence patterns, subject, captures => by
    simp only [Eval.matchPattern]
    refine get.bind fun s => ?_
    split
    · exact pure none
    · refine (ofExcept (.alignItems patterns _)).bind fun aligned => ?_
      split
      · exact pure none
      · refine (matchEach patterns _ captures).bind fun found => ?_
        split
        · exact pure none
        · exact (captureStar patterns _ _).map
  | .mapping keys patterns rest, subject, captures => by
    cases subject with
    | dict r =>
      simp only [Eval.matchPattern]
      refine (matchEntries r patterns keys [] captures).bind fun found => ?_
      split
      · exact pure none
      · exact (captureRemaining r _ rest _).map
    | _ =>
      simp only [Eval.matchPattern]
      exact pure none
  | .star _, _, _ => by
    simp only [Eval.matchPattern]
    exact throw ⟨rfl, rfl⟩
  | .as (some pattern) name, subject, captures => by
    simp only [Eval.matchPattern]
    refine (matchPattern pattern subject captures).bind fun found => ?_
    split
    · exact pure none
    · exact (ofExcept (.captureUnder name subject _)).map
  | .as none name, subject, captures => by
    simp only [Eval.matchPattern]
    exact (ofExcept (.captureUnder name subject captures)).map
  | .or alternatives, subject, captures => by
    simp only [Eval.matchPattern]
    exact matchAny alternatives subject captures

theorem matchEach : ∀ (patterns : List Pattern) (items : List Value) (captures : Captures),
    Conveys sb Error.Fresh fun v => Eval.matchEach v patterns items captures
  | [], _, captures => by
    simp only [Eval.matchEach]
    exact pure _
  | _ :: _, [], captures => by
    simp only [Eval.matchEach]
    exact pure _
  | pattern :: patterns, item :: items, captures => by
    have first := matchPattern pattern item captures
    have rest := fun captures => matchEach patterns items captures
    cases pattern with
    | star name =>
      simp only [Eval.matchEach]
      exact rest captures
    | _ =>
      simp only [Eval.matchEach]
      refine first.bind fun found => ?_
      split
      · exact pure none
      · exact rest _

theorem matchAny : ∀ (alternatives : List Pattern) (subject : Value) (captures : Captures),
    Conveys sb Error.Fresh fun v => Eval.matchAny v alternatives subject captures
  | [], _, _ => by
    simp only [Eval.matchAny]
    exact pure none
  | pattern :: rest, subject, captures => by
    simp only [Eval.matchAny]
    refine (matchPattern pattern subject captures).bind fun found => ?_
    split
    · exact matchAny rest subject captures
    · exact pure _

theorem matchEntries (r : DictRef) : ∀ (patterns : List Pattern) (keys : List Expr)
    (matched : List Value) (captures : Captures),
    Conveys sb Error.Fresh fun v => Eval.matchEntries v r patterns keys matched captures
  | [], _, _, _ => by
    simp only [Eval.matchEntries]
    exact pure _
  | _ :: _, [], _, _ => by
    simp only [Eval.matchEntries]
    exact pure _
  | pattern :: patterns, key :: keys, matched, captures => by
    simp only [Eval.matchEntries]
    refine (expr key).bind fun key => (look fun s => .get? _ key).bind fun value => ?_
    split
    · exact pure none
    · refine (matchPattern pattern _ captures).bind fun found => ?_
      split
      · exact pure none
      · exact matchEntries r patterns keys _ _

end

theorem defineAll : ∀ captures : Captures, Conveys sb Error.Fresh fun _ => Eval.defineAll captures
  | [] => pure ()
  | (name, value) :: rest => (define name value).bind fun _ => defineAll rest

theorem firstCase (subject : Value) : ∀ cases : List MatchCase,
    Conveys sb Error.Fresh fun v => Eval.firstCase v subject cases
  | [] => pure Flow.normal
  | ⟨pattern, guard, body⟩ :: rest => by
    refine (matchPattern pattern subject []).bind fun found => ?_
    split
    · exact firstCase subject rest
    · refine (defineAll _).bind fun _ => ?_
      cases guard with
      | none => exact block body
      | some guard =>
        refine (expr guard).bind fun value => (isTruthy value).bind fun holds => ?_
        cases holds with
        | true => exact block body
        | false => exact firstCase subject rest

/-! ## Comprehensions -/

theorem collectElement (element : Expr) (out : Collection) :
    Conveys sb Error.Fresh fun v => Eval.collectElement v element out := by
  refine (expr element).bind fun value => ?_
  cases out with
  | set items => exact (ofExcept (.setInsert items value)).map
  | _ => exact pure _

theorem collectEntry (key value : Expr) (out : Collection) :
    Conveys sb Error.Fresh fun v => Eval.collectEntry v key value out := by
  refine (expr key).bind fun key => (expr value).bind fun value => ?_
  cases out with
  | dict entries => exact (ofExcept (.insert entries key value)).map
  | _ => exact pure _

theorem allHold : ∀ conditions : List Expr, Conveys sb Error.Fresh fun v => Eval.allHold v conditions
  | [] => pure true
  | condition :: rest => by
    refine (expr condition).bind fun value => (isTruthy value).bind fun holds => ?_
    cases holds with
    | true => exact allHold rest
    | false => exact pure false

/-- One round of a clause: the item is assigned, and if all conditions hold, the rest is done. -/
theorem round (clause : Comprehension) (item : Value) (out : Collection)
    {c : Visit → Eval Collection} (h : Conveys sb Error.Fresh c) :
    Conveys sb Error.Fresh fun v => (do
      Guard.tickLoop sb.limits sb.clock
      Eval.assign sb v clause.target item
      if ← Eval.allHold v clause.ifs then c v else Pure.pure out) := by
  refine tickLoop.bind fun _ => (assign clause.target item).bind fun _ => ?_
  refine (allHold clause.ifs).bind fun holds => ?_
  cases holds with
  | true => exact h
  | false => exact pure out

theorem runClause {collect : Visit → Collection → Eval Collection}
    (hcollect : ∀ out, Conveys sb Error.Fresh fun v => collect v out) :
    ∀ (rest : List Comprehension) (clause : Comprehension) (source : Value) (out : Collection),
      Conveys sb Error.Fresh fun v => Eval.runClause sb v (collect v) clause source out rest
  | [], clause, source, out => by
    refine ((iterate source).located _).bind fun items => foldFrom (fun out item => ?_) _ _ _
    refine round clause item out ((hcollect out).bind fun out => ?_)
    exact (checkContainer out.size).bind fun _ => pure out
  | next :: rest, clause, source, out => by
    refine ((iterate source).located _).bind fun items => foldFrom (fun out item => ?_) _ _ _
    refine round clause item out ((expr next.iter).bind fun source => ?_)
    exact runClause hcollect rest next source out

theorem toValue (out : Collection) :
    Conveys sb Error.Fresh fun _ => (liftM out.toValue : Eval Value) := by
  cases out with
  | list items => exact onStore (.newList items)
  | set items => exact onStore (.newSet items)
  | dict entries => exact onStore (.newDict entries)

theorem comprehend {collect : Visit → Collection → Eval Collection}
    (hcollect : ∀ out, Conveys sb Error.Fresh fun v => collect v out) (nothing : Collection)
    (clauses : List Comprehension) :
    Conveys sb Error.Fresh fun v => Eval.comprehend sb v (collect v) nothing clauses := by
  cases clauses with
  | nil => exact throw ⟨rfl, rfl⟩
  | cons first rest =>
    refine (expr first.iter).bind fun source => currentScope.bind fun parent => ?_
    exact ((runClause hcollect rest first source nothing).inScope _ _).bind fun out => toValue out

end Conveys

end ScriptSandbox

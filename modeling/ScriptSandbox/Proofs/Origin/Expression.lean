import ScriptSandbox.Eval.Expression
import ScriptSandbox.Proofs.Origin.Target

/-!
# Where errors come from: expressions and calls

All expressions hand on the errors of the visits inside but calls of script functions, where the code
called does (`Conveys.calledCode`) and the call then adds itself to what the error has passed.
-/

namespace ScriptSandbox

open Eval

/-! ## Arranging arguments -/

namespace Fresh

theorem fill (func name : String) (value : Value) (slots : List Slot) (i : Nat) :
    Fresh (Arrangement.fill func name value slots i) := ite (error ⟨rfl, rfl⟩) (ok _)

theorem addSlot (func : String) (params : Parameters) (a : Arrangement) (name : String)
    (value : Value) : Fresh (a.addKeyword func params name value) := by
  unfold Arrangement.addKeyword
  split
  · exact (fill func name value _ _).bind fun _ => ok _
  · split
    · exact (fill func name value _ _).bind fun _ => ok _
    · exact ite (ok _) (ite (ok _) (error ⟨rfl, rfl⟩))

theorem addSlots (func : String) (params : Parameters) :
    ∀ (named : List (String × Value)) (a : Arrangement),
      Fresh (named.foldlM (fun a (name, value) => a.addKeyword func params name value) a)
  | [], _ => ok _
  | (name, value) :: rest, a => by
    rw [List.foldlM_cons]
    exact (addSlot func params a name value).bind fun a => addSlots func params rest a

theorem ofArguments (func : String) (params : Parameters) (args : Arguments) :
    Fresh (Arrangement.ofArguments func params args) := by
  unfold Arrangement.ofArguments
  dsimp only
  split
  · exact error ⟨rfl, rfl⟩
  · exact (addSlots func params _ _).bind fun _ => ite (ok _) (error ⟨rfl, rfl⟩)

theorem addKeyword (found : List (String × Value)) (name : String) (value : Value) :
    Fresh (Eval.addKeyword found name value) := ite (error ⟨rfl, rfl⟩) (ok _)

theorem addKeywords : ∀ (entries : List (Value × Value)) (found : List (String × Value)),
    Fresh (Eval.addKeywords found entries)
  | [], _ => ok _
  | (key, value) :: rest, found => by
    cases key with
    | str name =>
      rw [Eval.addKeywords]
      split
      · exact addKeywords rest _
      · exact (addKeyword found name value).again ‹_›
    | _ => exact error ⟨rfl, rfl⟩

theorem convert (limits : SizeLimits) (s : Store) (value : Value) (conversion : Option Char) :
    Fresh (Eval.convert limits s value conversion) := by
  unfold Eval.convert
  split
  · exact ok _
  · exact (text _ _).map
  · exact (repr _ _).map
  · exact (repr _ _).map
  · exact error ⟨rfl, rfl⟩

end Fresh

namespace Conveys

variable {sb : Sandbox}

/-! ## Calls -/

theorem defineSupplied : ∀ slots : List Slot, Conveys sb Error.Fresh fun _ => Eval.defineSupplied slots
  | [] => pure ()
  | ⟨param, some value⟩ :: rest => (define param.name value).bind fun _ => defineSupplied rest
  | ⟨_, none⟩ :: rest => defineSupplied rest

theorem defineDefaults : ∀ (slots : List Slot) (missing : List String),
    Conveys sb Error.Fresh fun v => Eval.defineDefaults v missing slots
  | [], missing => pure missing
  | ⟨_, some _⟩ :: rest, missing => defineDefaults rest missing
  | ⟨⟨name, some default⟩, none⟩ :: rest, missing =>
    (expr default).bind fun value => (define name value).bind fun _ => defineDefaults rest missing
  | ⟨⟨name, none⟩, none⟩ :: rest, missing => defineDefaults rest (missing ++ [name])

theorem completeSlots (func kind : String) (slots : List Slot) :
    Conveys sb Error.Fresh fun v => Eval.completeSlots v func kind slots := by
  refine (defineDefaults slots []).bind fun missing => ?_
  split
  · exact throw ⟨rfl, rfl⟩
  · exact pure ()

theorem defineExtra (params : Parameters) (a : Arrangement) :
    Conveys sb Error.Fresh fun _ => Eval.defineExtra sb params a := by
  unfold Eval.defineExtra
  split
  · exact pure ()
  · refine (checkContainer _).bind fun _ => (onStore (.newTuple _)).bind fun extra => ?_
    exact define _ extra

theorem defineExtraKeywords (params : Parameters) (a : Arrangement) :
    Conveys sb Error.Fresh fun _ => Eval.defineExtraKeywords params a := by
  unfold Eval.defineExtraKeywords
  split
  · exact pure ()
  · refine (ofExcept (.ofPairs _)).bind fun d => (onStore (.newDict d)).bind fun extra => ?_
    exact define _ extra

theorem bindArguments (func : String) (params : Parameters) (args : Arguments) :
    Conveys sb Error.Fresh fun v => Eval.bindArguments sb v func params args :=
  (ofExcept (.ofArguments func params args)).bind fun a =>
    (defineSupplied a.positional).bind fun _ =>
    (defineSupplied a.keywordOnly).bind fun _ =>
    (completeSlots func "positional" a.positional).bind fun _ =>
    (completeSlots func "keyword-only" a.keywordOnly).bind fun _ =>
    (defineExtra params a).bind fun _ => defineExtraKeywords params a

theorem runCode (code : FunctionCode) : Conveys sb Error.Fresh fun v => Eval.runCode v code := by
  cases code with
  | lambda l => exact expr l.body
  | definition d =>
    refine (block d.body).bind fun flow => ?_
    split
    · exact pure _
    · exact pure _
    · exact throw ⟨rfl, rfl⟩

/-- The code that a call runs, in the scope of the call. -/
theorem calledCode (f : Closure) (args : Arguments) :
    Conveys sb Error.Fresh fun v => Eval.inScope .function f.scope (do
      Eval.bindArguments sb v f.name f.code.params args
      Eval.runCode v f.code) :=
  ((bindArguments f.name f.code.params args).bind fun _ => runCode f.code).inScope _ _

theorem callNative {f : CallContext → StoreM Value} (h : ∀ ctx, FreshRun (f ctx)) :
    Conveys sb Error.Fresh fun _ => Eval.callNative sb f :=
  enterNative.bind fun number => (onStore (h _)).bind fun value =>
    (checkDeadline (.behind number)).bind fun _ => pure value

/-- What is called without code of the script. -/
theorem callOther (hhost : sb.host.Fresh) {callee : Value} (h : ∀ f, callee ≠ .function f)
    (args : Arguments) (span : Span) :
    Conveys sb Error.Fresh fun v => Eval.callValue sb v callee args span := by
  cases callee with
  | function f => exact absurd rfl (h f)
  | native f =>
    simp only [Eval.callValue]
    refine callNative fun ctx => ?_
    split
    · exact .callBuiltin _ _ args
    · exact hhost.callFunction f _ args
  | method _ receiver name => exact onStore (.callMethod _ receiver name args)
  | object o =>
    simp only [Eval.callValue]
    exact callNative fun ctx => hhost.callObject o ctx args
  | _ => exact throw ⟨rfl, rfl⟩

/-! ## Operands -/

theorem boolOp (op : BoolOp) : ∀ operands : List Expr,
    Conveys sb Error.Fresh fun v => Eval.boolOp v op operands
  | [] => throw ⟨rfl, rfl⟩
  | [last] => expr last
  | operand :: next :: rest => by
    refine (expr operand).bind fun value => (isTruthy value).bind fun truth => ?_
    split
    · exact pure value
    · exact pure value
    · exact boolOp op (next :: rest)

theorem compareChain : ∀ (links : List (CompareOp × Expr)) (left : Value),
    Conveys sb Error.Fresh fun v => Eval.compareChain v left links
  | [], _ => pure _
  | (op, comparator) :: rest, left => by
    refine (expr comparator).bind fun right => ?_
    refine (look fun s => .compare op left right).bind fun holds => ?_
    split
    · exact compareChain rest right
    · exact pure _

theorem elements : ∀ (parts : List Expr) (items : Array Value),
    Conveys sb Error.Fresh fun v => Eval.elements sb v items parts
  | [], items => by
    simp only [Eval.elements]
    exact pure items
  | ⟨kind, span⟩ :: rest, items => by
    have behind := elements rest
    cases kind with
    | starred source =>
      simp only [Eval.elements]
      refine (expr source).bind fun source => ((iterate source).located span).bind fun more => ?_
      exact (countRounds more.size).bind fun _ => (checkContainer _).bind fun _ => behind _
    | _ =>
      simp only [Eval.elements]
      exact (expr _).bind fun value => (checkContainer _).bind fun _ => behind _

theorem keywords : ∀ (named : List Keyword) (found : List (String × Value)),
    Conveys sb Error.Fresh fun v => Eval.keywords v found named
  | [], found => pure _
  | ⟨some name, e⟩ :: rest, found =>
    (expr e).bind fun value => (ofExcept (.addKeyword found name value)).bind fun found =>
      keywords rest found
  | ⟨none, e⟩ :: rest, found => by
    refine (expr e).bind fun value => ?_
    split
    · exact (look fun s => .addKeywords _ found).bind fun found => keywords rest found
    · exact located _ (throw ⟨rfl, rfl⟩)

theorem entries : ∀ (pairs : List (Option Expr × Expr)) (d : Dict),
    Conveys sb Error.Fresh fun v => Eval.entries sb v d pairs
  | [], d => pure d
  | (some key, value) :: rest, d =>
    (expr key).bind fun key => (expr value).bind fun value =>
      (ofExcept (.insert d key value)).bind fun d =>
      (checkContainer d.size).bind fun _ => entries rest d
  | (none, source) :: rest, d => by
    refine (expr source).bind fun value => ?_
    split
    · refine (look fun s => .insertAll d _).bind fun d => ?_
      exact (checkContainer d.size).bind fun _ => entries rest d
    · exact throw ⟨rfl, rfl⟩

theorem joinedStr : ∀ (parts : List Expr) (text : String),
    Conveys sb Error.Fresh fun v => Eval.joinedStr sb v text parts
  | [], text => pure _
  | part :: rest, text => by
    have behind : ∀ next : String, Conveys sb Error.Fresh fun v => (do
        sb.limits.size.checkString (text ++ next).utf8ByteSize
        Eval.joinedStr sb v (text ++ next) rest) := fun next =>
      (checkString _).bind fun _ => joinedStr rest _
    refine (expr part).bind fun value => ?_
    split
    · exact (pure _).bind behind
    · exact (look fun s => .text _ _).bind behind

theorem formatSpec (spec : Option Expr) : Conveys sb Error.Fresh fun v => Eval.formatSpec v spec := by
  cases spec with
  | none => exact pure _
  | some spec =>
    refine (expr spec).bind fun value => ?_
    split
    · exact pure _
    · exact throw ⟨rfl, rfl⟩

theorem formattedValue (value : Expr) (conversion : Option Char) (spec : Option Expr) :
    Conveys sb Error.Fresh fun v => Eval.formattedValue sb v value conversion spec :=
  (expr value).bind fun value => (look fun s => .convert _ s value conversion).bind fun value =>
    (formatSpec spec).bind fun spec => (look fun _ => .format _ value spec).bind fun _ =>
    (checkString _).bind fun _ => pure _

theorem subscript (hhost : sb.host.Fresh) (container slice : Expr) :
    Conveys sb Error.Fresh fun v => Eval.subscript sb v container slice := by
  refine (expr container).bind fun target => ?_
  split
  · exact (sliceBounds _ _ _).bind fun bounds => onStore (.getSlice target bounds)
  · exact (expr slice).bind fun index => onStore (.getItem hhost target index)

/-! ## All expressions -/

/-- Every expression but a call hands on the errors of the visits inside. -/
theorem exprKind (hhost : sb.host.Fresh) (span : Span) {kind : ExprKind}
    (h : ∀ callee args named, kind ≠ .call callee args named) :
    Conveys sb Error.Fresh fun v => Eval.exprKind sb v span kind := by
  cases kind with
  | constant c => exact pure _
  | name name => exact lookup name
  | binOp left op right =>
    exact (expr left).bind fun a => (expr right).bind fun b => onStore (.binary _ op a b)
  | unaryOp op operand => exact (expr operand).bind fun a => look fun s => .unary op a
  | boolOp op operands => exact boolOp op operands
  | compare left ops comparators => exact (expr left).bind fun a => compareChain _ a
  | ifExp test body orelse =>
    refine (expr test).bind fun value => (isTruthy value).bind fun truth => ?_
    cases truth with
    | true => exact expr body
    | false => exact expr orelse
  | call callee args named => exact absurd rfl (h callee args named)
  | «attribute» receiver attr =>
    exact (expr receiver).bind fun a => onStore (.readAttribute hhost _ a attr)
  | subscript container slice => exact subscript hhost container slice
  | slice | starred => exact throw ⟨rfl, rfl⟩
  | list parts => exact (elements parts #[]).bind fun items => onStore (.newList items)
  | tuple parts => exact (elements parts #[]).bind fun items => onStore (.newTuple items)
  | set parts =>
    refine (elements parts #[]).bind fun items => ?_
    exact (ofExcept (.ofList _)).bind fun set => onStore (.newSet set)
  | dict keys values => exact (entries _ .empty).bind fun d => onStore (.newDict d)
  | listComp element clauses | generatorExp element clauses =>
    exact comprehend (fun out => collectElement element out) _ clauses
  | setComp element clauses => exact comprehend (fun out => collectElement element out) _ clauses
  | dictComp key value clauses => exact comprehend (fun out => collectEntry key value out) _ clauses
  | lambda params body => exact newFunction _ _ _
  | namedExpr name value =>
    refine (expr value).bind fun value => get.bind fun s => ?_
    exact (defineIn _ name value).bind fun _ => pure value
  | joinedStr parts => exact joinedStr parts ""
  | formattedValue value conversion spec => exact formattedValue value conversion spec

end Conveys

end ScriptSandbox

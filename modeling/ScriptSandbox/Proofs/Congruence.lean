import ScriptSandbox.Eval
import ScriptSandbox.Proofs.Node
import ScriptSandbox.Proofs.Norm.Items
import ScriptSandbox.Proofs.Signal

/-!
# Congruences: relations between evaluations that every construct keeps

Facts about all runs are proved by going through every construct of the language. A `Congruence` is
what such a proof has to bring: a relation between evaluations, closed under sequencing, scopes,
calls and handlers, and holding of the operations on values that evaluations end in. From it follows
once, construct by construct in the modules of this directory, that visits related at the parts of a
node are related at the node (`Congruence.exprKind`, `Congruence.stmtKind`).

The relation is between two evaluations in two sandboxes, so that one evaluation may stand for the
other; a property of one evaluation is a relation that does not look at the second. `rel P m m'` also
says that results satisfy `P`, which is how the sorts of a `Norm` travel through a script, and
`allows` restricts the nodes of the script that are spoken about.
-/

namespace ScriptSandbox

open Eval

namespace Eval

/-- Turns an error that a script may catch into a result; any other error goes on. -/
def attemptCatchable {α : Type} (m : Eval α) : Eval (Except Error α) := fun s =>
  match m s with
  | .ok a s => .ok (.ok a) s
  | .error e s => if e.isCatchable then .ok (.error e) s else .error e s

/-- Calls a script function's code in a new scope. -/
def inCall {α : Type} (sb : Sandbox) (name : String) (span : Span) (scope : ScopeRef)
    (m : Eval α) : Eval α := do
  Guard.enterCall sb.limits sb.clock
  traced name span (ensuring (inScope .function scope m) leaveCall)

/-- Runs a handler with an error as the one being handled. -/
def whileHandling {α : Type} (e : Error) (m : Eval α) : Eval α := do
  modify (startHandling e)
  ensuring m stopHandling

theorem bind_apply {α β : Type} (m : Eval α) (f : α → Eval β) (s : RunState) :
    (m >>= f) s = match m s with
      | .ok a s' => f a s'
      | .error e s' => .error e s' := by
  show EStateM.bind m f s = _
  unfold EStateM.bind
  cases m s <;> rfl

theorem get_apply (s : RunState) : (MonadState.get : Eval RunState) s = .ok s s := rfl

theorem look_eq {α : Type} (f : Store → Except Error α) :
    look f = (do let s ← get; liftM (f s.store) : Eval α) := by
  funext s
  show look f s = (liftM (f s.store) : Eval α) s
  simp only [look, onStore, StoreM.look]
  cases f s.store <;> rfl

end Eval

/-- A relation between evaluations in two sandboxes that give results of one sort. -/
structure Congruence (sb sb' : Sandbox) extends Norm sb.limits where
  allows : Node → Prop
  code : FunctionCode → Prop
  /-- Names that are looked up. -/
  reads : String → Prop
  /-- Scopes that functions capture and that new scopes lie in. -/
  held : ScopeRef → Prop
  rounds : Nat → Prop
  inv : RunState → Prop
  rel : {α : Type} → (α → Prop) → Eval α → Eval α → Prop
  -- scripts
  allows_child : ∀ {n m : Node}, allows n → m ∈ n.children → allows m
  code_of : ∀ {n : Node} {c : FunctionCode}, allows n → n.code? = some c → code c
  allows_code : ∀ {c : FunctionCode} {n : Node}, code c → n ∈ c.children → allows n
  /-- The entries of a keyword rest are not counted. -/
  fits_rest : ∀ {c : FunctionCode} (n : Nat), code c → c.params.kwarg.isSome = true → fits n
  /-- The list for a starred target is counted in rounds only. -/
  fits_starred : ∀ {n : Node} {e : Expr} {k : Nat}, allows n → e ∈ n.targets → e.HasStar →
    rounds k → fits k
  good_function : ∀ f : Closure, good (.function f) ↔ code f.code ∧ held f.scope
  reads_name : ∀ {name : String} {span : Span}, allows (.expr ⟨.name name, span⟩) → reads name
  /-- A function whose loop control may leave its loops fails where it does. -/
  errs_stray : ∀ {d : FunctionDef} {g : Signal}, code (.definition d) → BlockSignals d.body g →
    g ≠ .return → errs g.stray.kind
  pieces_text : ∀ {parts : List Expr} {span : Span}, allows (.expr ⟨.joinedStr parts, span⟩) →
    BarePart parts → pieces
  pieces_call : ∀ {callee : Expr} {args : List Expr} {named : List Keyword} {span : Span}
    {f : NativeFunction}, allows (.expr ⟨.call callee args named, span⟩) → SeveralArguments args →
    good (.native f) → f.id = .builtin .print → pieces
  -- states
  inv_kept : ∀ {s : RunState}, inv s → toNorm.Kept s.store
  inv_binding : ∀ {s : RunState} {r : ScopeRef} {name : String} {v : Value}, inv s →
    (s.scopes.scope r).lookup name = some v → good v
  inv_handling : ∀ {s : RunState} {e : Error}, inv s → e ∈ s.handling →
    errs e.kind
  -- evaluations in general
  mono : ∀ {α : Type} {P Q : α → Prop} {m m' : Eval α}, (∀ a, P a → Q a) → rel P m m' → rel Q m m'
  /-- Whatever else is known of the results of the first evaluation may be used. -/
  sure : ∀ {α : Type} {P Q : α → Prop} {m m' : Eval α}, Gives Q m → rel P m m' →
    rel (fun a => P a ∧ Q a) m m'
  pure : ∀ {α : Type} {P : α → Prop} {a : α}, P a → rel P (Pure.pure a) (Pure.pure a)
  bind : ∀ {α β : Type} {P : α → Prop} {Q : β → Prop} {m m' : Eval α} {f f' : α → Eval β},
    rel P m m' → (∀ a, P a → rel Q (f a) (f' a)) → rel Q (m >>= f) (m' >>= f')
  get : rel inv MonadState.get MonadState.get
  throw : ∀ {α : Type} {P : α → Prop} {e : Error}, errs e.kind →
    rel P (MonadExcept.throw e) (MonadExcept.throw e)
  located : ∀ {α : Type} {P : α → Prop} {m m' : Eval α} (span : Span), rel P m m' →
    rel P (located span m) (located span m')
  attempt : ∀ {α : Type} {P : α → Prop} {m m' : Eval α}, rel P m m' →
    rel (fun r => match r with
      | .ok a => P a
      | .error e => errs e.kind) (attemptCatchable m) (attemptCatchable m')
  handling : ∀ {α : Type} {P : α → Prop} {m m' : Eval α} {e : Error}, errs e.kind →
    rel P m m' → rel P (whileHandling e m) (whileHandling e m')
  -- scopes and calls
  define : ∀ {name : String} {v : Value}, good v →
    rel (fun _ => True) (define name v) (define name v)
  defineIn : ∀ {r : ScopeRef} {name : String} {v : Value}, good v →
    rel (fun _ => True) (defineIn r name v) (defineIn r name v)
  inScope : ∀ {α : Type} {P : α → Prop} {m m' : Eval α} (kind : ScopeKind) {parent : ScopeRef},
    held parent → rel P m m' → rel P (inScope kind (some parent) m) (inScope kind (some parent) m')
  inCall : ∀ {α : Type} {P : α → Prop} {m m' : Eval α} (name : String) (span : Span)
    {scope : ScopeRef}, held scope → rel P m m' →
    rel P (inCall sb name span scope m) (inCall sb' name span scope m')
  lookupBinding : ∀ name : String, reads name →
    rel good (lookupBinding sb name) (lookupBinding sb' name)
  -- counters
  tickLoop : rel (fun _ => True) (onGuard (Guard.tickLoop sb.limits sb.clock))
    (onGuard (Guard.tickLoop sb'.limits sb'.clock))
  countRounds : ∀ n : Nat, rel (fun _ => rounds n) (countRounds sb n) (countRounds sb' n)
  -- quotas on sizes
  checkContainer : ∀ n : Nat, rel (fun _ => fits n) (liftM (sb.limits.size.checkContainer n))
    (liftM (sb'.limits.size.checkContainer n))
  checkString : ∀ n : Nat, rel (fun _ => True) (liftM (sb.limits.size.checkString n))
    (liftM (sb'.limits.size.checkString n))
  -- new containers
  newId : rel (fun _ => True) (onStore StoreM.newId) (onStore StoreM.newId)
  newList : ∀ {items : Array Value}, fits items.size → (∀ x ∈ items, good x) →
    rel good (onStore (StoreM.newList items)) (onStore (StoreM.newList items))
  newDict : ∀ {d : Dict}, fits d.size → toNorm.GoodDict d →
    rel good (onStore (StoreM.newDict d)) (onStore (StoreM.newDict d))
  newSet : ∀ {s : KeySet}, fits s.size → toNorm.GoodSet s →
    rel good (onStore (StoreM.newSet s)) (onStore (StoreM.newSet s))
  -- texts
  text : ∀ (used : Nat) {v : Value}, used = 0 ∨ pieces → good v →
    rel (fun _ => True) (look (·.text (sb.limits.size.maxStringLength - used) v))
      (look (·.text (sb'.limits.size.maxStringLength - used) v))
  convert : ∀ {v : Value} (conversion : Option Char), good v →
    rel good (look (convert sb.limits.size · v conversion))
      (look (Eval.convert sb'.limits.size · v conversion))
  format : ∀ {v : Value} (spec : String), good v →
    rel (fun _ => True) (look (FormatSpec.format sb.limits.size · v spec))
      (look (FormatSpec.format sb'.limits.size · v spec))
  -- operations on values
  binary : ∀ (op : BinaryOp) {a b : Value}, good a → good b →
    rel good (onStore (Operator.binary sb.limits.size op a b))
      (onStore (Operator.binary sb'.limits.size op a b))
  getItem : ∀ {container index : Value}, good container → good index →
    rel good (onStore (Subscript.getItem sb.host container index))
      (onStore (Subscript.getItem sb'.host container index))
  getSlice : ∀ {container : Value} (bounds : SliceBounds), good container →
    rel good (onStore (Subscript.getSlice container bounds))
      (onStore (Subscript.getSlice container bounds))
  setItem : ∀ {container index v : Value}, good container → good index → good v →
    rel (fun _ => True) (onStore (Subscript.setItem sb.limits.size container index v))
      (onStore (Subscript.setItem sb'.limits.size container index v))
  setSlice : ∀ {container v : Value} (bounds : SliceBounds), good container → good v →
    rel (fun _ => True) (onStore (Subscript.setSlice sb.limits.size container bounds v))
      (onStore (Subscript.setSlice sb'.limits.size container bounds v))
  readAttribute : ∀ {receiver : Value} (attr : String), good receiver →
    rel good (onStore (Attribute.read sb.host sb.limits.attributePolicy receiver attr))
      (onStore (Attribute.read sb'.host sb'.limits.attributePolicy receiver attr))
  callNative : ∀ {f : NativeFunction} {args : Arguments}, good (.native f) → toNorm.GoodArgs args →
    (f.id = .builtin .print → 2 ≤ args.positional.length → pieces) →
    rel good (Eval.callNative sb fun ctx =>
        match f.id with
        | .builtin b => b.call ctx args
        | .host _ => sb.host.callFunction f ctx args)
      (Eval.callNative sb' fun ctx =>
        match f.id with
        | .builtin b => b.call ctx args
        | .host _ => sb'.host.callFunction f ctx args)
  callObject : ∀ {o : ObjectHandle} {args : Arguments}, toNorm.GoodArgs args →
    rel good (Eval.callNative sb fun ctx => sb.host.callObject o ctx args)
      (Eval.callNative sb' fun ctx => sb'.host.callObject o ctx args)
  callMethod : ∀ {id : Nat} {receiver : Value} {name : String} {args : Arguments},
    good (.method id receiver name) → toNorm.GoodArgs args →
    rel good (onStore (Method.call sb.limits.size receiver name args))
      (onStore (Method.call sb'.limits.size receiver name args))

namespace Congruence

variable {sb sb' : Sandbox} (C : Congruence sb sb') {α β : Type} {P : α → Prop} {Q : β → Prop}
  {v v' : Visit}

/-- What is known of the ways that statements end. -/
def GoodFlow : Flow → Prop
  | .returning value => C.good value
  | _ => True

/-- Two ways of visiting nodes that are related at all nodes that are allowed. -/
structure Visits (v v' : Visit) : Prop where
  lawful : v.Lawful
  expr : ∀ e, C.allows (.expr e) → C.rel C.good (v.expr e) (v'.expr e)
  stmt : ∀ s, C.allows (.stmt s) → C.rel C.GoodFlow (v.stmt s) (v'.stmt s)

/-- All expressions of a list are allowed. -/
def AllowsExprs (es : List Expr) : Prop := ∀ e ∈ es, C.allows (.expr e)

/-- All statements of a block are allowed. -/
def AllowsBlock (body : List Stmt) : Prop := ∀ s ∈ body, C.allows (.stmt s)

/-- An expression may be assigned to. -/
structure Target (e : Expr) : Prop where
  allows : C.allows (.expr e)
  fits : e.HasStar → ∀ k, C.rounds k → C.fits k

theorem Target.part {C : Congruence sb sb'} {e e' : Expr} (h : C.Target e)
    (he : e' ∈ e.targetParts) : C.Target e' := by
  refine ⟨C.allows_child h.allows (List.mem_map_of_mem ?_), fun hstar => h.fits (.inside he hstar)⟩
  unfold Expr.targetParts at he
  split at he <;> rename_i hkind
  · simpa [hkind, ExprKind.parts] using he
  · simpa [hkind, ExprKind.parts] using he
  · simpa [hkind, ExprKind.parts] using he
  · cases he

theorem target_of {n : Node} {e : Expr} (h : C.allows n) (he : e ∈ n.targets) : C.Target e := by
  exact ⟨C.allows_child h (Node.mem_children_of_mem_targets he),
    fun hstar k hk => C.fits_starred h he hstar hk⟩

theorem allows_children {n : Node} (h : C.allows n) : ∀ m ∈ n.children, C.allows m :=
  fun _ hm => C.allows_child h hm

theorem allows_parts {e : Expr} (h : C.allows (.expr e)) : C.AllowsExprs e.kind.parts :=
  fun _ he => C.allows_child h (List.mem_map_of_mem he)

theorem plain {e : Error} (h : e.kind.isPlain = true) :
    C.rel P (MonadExcept.throw e) (MonadExcept.throw e) := C.throw (C.errs_plain _ h)

theorem map {m m' : Eval α} {f : α → β} (h : C.rel P m m') (hf : ∀ a, P a → Q (f a)) :
    C.rel Q (f <$> m) (f <$> m') := by
  rw [map_eq_pure_bind, map_eq_pure_bind]
  exact C.bind h fun a ha => C.pure (hf a ha)

theorem ofExcept {x : Except Error α} (h : C.toNorm.Holds P x) :
    C.rel P (liftM x : Eval α) (liftM x : Eval α) := by
  cases x with
  | ok a => exact C.pure h
  | error e => exact C.throw h

/-- A look at the store that does not depend on the sandbox. -/
theorem look {f : Store → Except Error α} (h : ∀ s, C.toNorm.Kept s → C.toNorm.Holds P (f s)) :
    C.rel P (look f) (look f) := by
  rw [look_eq]
  exact C.bind C.get fun s hs => C.ofExcept (h s.store (C.inv_kept hs))

theorem isTruthy (value : Value) : C.rel (fun _ => True) (isTruthy value) (isTruthy value) :=
  C.bind C.get fun _ _ => C.pure True.intro

theorem iterate {value : Value} (h : C.good value) :
    C.rel C.toNorm.GoodItems (iterate value) (iterate value) := C.look fun _ hs => Norm.iterate hs h

/-- The current scope is one that functions may capture. -/
def KeepsPlace : Prop := C.rel C.held currentScope currentScope

theorem keepsPlace (h : ∀ r, C.held r) : C.KeepsPlace := C.bind C.get fun _ _ => C.pure (h _)

theorem lookup {name : String} (h : C.reads name) :
    C.rel C.good (lookup sb name) (lookup sb' name) := by
  refine C.bind C.get fun s hs => ?_
  dsimp only
  split
  · rename_i value hvalue
    obtain ⟨r, -, hr⟩ := List.exists_of_findSome?_eq_some hvalue
    exact C.pure (C.inv_binding hs hr)
  · exact C.lookupBinding name h

theorem newTuple {items : Array Value} (hn : C.fits items.size) (h : ∀ x ∈ items, C.good x) :
    C.rel C.good (onStore (StoreM.newTuple items)) (onStore (StoreM.newTuple items)) := by
  exact C.bind C.newId fun id _ => C.pure (C.good_tuple id items hn h)

theorem newFunction (hplace : C.KeepsPlace) {name : String} {doc : Option String} {c : FunctionCode}
    (h : C.code c) : C.rel C.good (newFunction name doc c) (newFunction name doc c) :=
  C.bind C.newId fun _ _ => C.bind hplace fun _ hheld =>
    C.pure ((C.good_function _).2 ⟨h, hheld⟩)

theorem block (hv : C.Visits v v') :
    ∀ {body : List Stmt}, C.AllowsBlock body → C.rel C.GoodFlow (block v body) (block v' body)
  | [], _ => C.pure True.intro
  | stmt :: rest, h => by
    refine C.bind (hv.stmt stmt (h stmt (by simp))) fun flow hflow => ?_
    cases flow with
    | normal => exact block hv fun s hs => h s (by simp [hs])
    | _ => exact C.pure hflow

/-! ## More than one relation -/

/-- A relation between evaluations, of which a congruence knows one, that sequencing, scopes, calls and
handlers keep. -/
structure Closed {sb : Sandbox} (C : Congruence sb sb)
    (R : {α : Type} → Eval α → Eval α → Prop) : Prop where
  refl : ∀ {α : Type} {P : α → Prop} {m : Eval α}, C.rel P m m → R m m
  bind : ∀ {α β : Type} {P : α → Prop} {Q : β → Prop} {m m' : Eval α} {f f' : α → Eval β},
    C.rel P m m → R m m' → (∀ a, P a → C.rel Q (f a) (f a) ∧ R (f a) (f' a)) →
    R (m >>= f) (m' >>= f')
  located : ∀ {α : Type} {m m' : Eval α} (span : Span), R m m' →
    R (Eval.located span m) (Eval.located span m')
  attempt : ∀ {α : Type} {m m' : Eval α}, R m m' → R (attemptCatchable m) (attemptCatchable m')
  handling : ∀ {α : Type} {m m' : Eval α} (e : Error), R m m' →
    R (whileHandling e m) (whileHandling e m')
  inScope : ∀ {α : Type} {m m' : Eval α} (kind : ScopeKind) (parent : Option ScopeRef), R m m' →
    R (Eval.inScope kind parent m) (Eval.inScope kind parent m')
  inCall : ∀ {α : Type} {m m' : Eval α} (name : String) (span : Span) (scope : ScopeRef), R m m' →
    R (Eval.inCall sb name span scope m) (Eval.inCall sb name span scope m')

/-- Such a relation is kept by every construct that keeps what the congruence knows. -/
def Closed.congruence {sb : Sandbox} {C : Congruence sb sb}
    {R : {α : Type} → Eval α → Eval α → Prop} (h : C.Closed R) : Congruence sb sb :=
  { C with
    rel := fun P m m' => C.rel P m m ∧ R m m'
    mono := fun hP hm => ⟨C.mono hP hm.1, hm.2⟩
    sure := fun hQ hm => ⟨C.sure hQ hm.1, hm.2⟩
    pure := fun ha => ⟨C.pure ha, h.refl (C.pure ha)⟩
    bind := fun hm hf => ⟨C.bind hm.1 fun a ha => (hf a ha).1, h.bind hm.1 hm.2 hf⟩
    get := ⟨C.get, h.refl C.get⟩
    throw := fun {_ P _} he => ⟨C.throw he, h.refl (C.throw (P := P) he)⟩
    located := fun span hm => ⟨C.located span hm.1, h.located span hm.2⟩
    attempt := fun hm => ⟨C.attempt hm.1, h.attempt hm.2⟩
    handling := fun he hm => ⟨C.handling he hm.1, h.handling _ hm.2⟩
    define := fun hv => ⟨C.define hv, h.refl (C.define hv)⟩
    defineIn := fun hv => ⟨C.defineIn hv, h.refl (C.defineIn hv)⟩
    inScope := fun kind _ hheld hm => ⟨C.inScope kind hheld hm.1, h.inScope kind _ hm.2⟩
    inCall := fun name span _ hheld hm => ⟨C.inCall name span hheld hm.1, h.inCall name span _ hm.2⟩
    lookupBinding := fun name hname => ⟨C.lookupBinding name hname, h.refl (C.lookupBinding name hname)⟩
    tickLoop := ⟨C.tickLoop, h.refl C.tickLoop⟩
    countRounds := fun n => ⟨C.countRounds n, h.refl (C.countRounds n)⟩
    checkContainer := fun n => ⟨C.checkContainer n, h.refl (C.checkContainer n)⟩
    checkString := fun n => ⟨C.checkString n, h.refl (C.checkString n)⟩
    newId := ⟨C.newId, h.refl C.newId⟩
    newList := fun hn hx => ⟨C.newList hn hx, h.refl (C.newList hn hx)⟩
    newDict := fun hn hx => ⟨C.newDict hn hx, h.refl (C.newDict hn hx)⟩
    newSet := fun hn hx => ⟨C.newSet hn hx, h.refl (C.newSet hn hx)⟩
    text := fun used _ hused hv => ⟨C.text used hused hv, h.refl (C.text used hused hv)⟩
    convert := fun conversion hv => ⟨C.convert conversion hv, h.refl (C.convert conversion hv)⟩
    format := fun spec hv => ⟨C.format spec hv, h.refl (C.format spec hv)⟩
    binary := fun op _ _ ha hb => ⟨C.binary op ha hb, h.refl (C.binary op ha hb)⟩
    getItem := fun hc hi => ⟨C.getItem hc hi, h.refl (C.getItem hc hi)⟩
    getSlice := fun bounds hc => ⟨C.getSlice bounds hc, h.refl (C.getSlice bounds hc)⟩
    setItem := fun hc hi hv => ⟨C.setItem hc hi hv, h.refl (C.setItem hc hi hv)⟩
    setSlice := fun bounds hc hv => ⟨C.setSlice bounds hc hv, h.refl (C.setSlice bounds hc hv)⟩
    readAttribute := fun attr hr => ⟨C.readAttribute attr hr, h.refl (C.readAttribute attr hr)⟩
    callNative := fun hf hargs hprint =>
      ⟨C.callNative hf hargs hprint, h.refl (C.callNative hf hargs hprint)⟩
    callObject := fun hargs => ⟨C.callObject hargs, h.refl (C.callObject hargs)⟩
    callMethod := fun hm hargs => ⟨C.callMethod hm hargs, h.refl (C.callMethod hm hargs)⟩ }

end Congruence

end ScriptSandbox

import ScriptSandbox.Eval.Basic
import ScriptSandbox.Operator.Binary
import ScriptSandbox.Subscript
/-!
Assignment. A plain assignment binds names in the current scope. An augmented one stands for
`target = target op value`, with the operator's ordinary result: nothing is changed in place, and a
name is written back to the scope it was read from.
-/

namespace ScriptSandbox.Eval

variable (sb : Sandbox) (v : Visit)

def isStarred (e : Expr) : Bool :=
  match e.kind with
  | .starred _ => true
  | _ => false

/-- The values for the elements of a target list, aligned with them. A starred element gets a new
list of what the others leave over. -/
def unpack (targets : List Expr) (value : Value) : Eval (List Value) := do
  let stars := (targets.filter isStarred).length
  if 1 < stars then throw .multipleStarredTargets
  let items ← iterate value
  -- items are counted before it is known whether they fit
  countRounds sb items.size
  let items := items.toList
  match targets.findIdx? isStarred with
  | none =>
    if items.length < targets.length then throw (.tooFewValues targets.length items.length)
    else if targets.length < items.length then throw (.tooManyValues targets.length)
    else pure items
  | some star =>
    let others := targets.length - 1
    if items.length < others then throw (.tooFewValuesForStar others items.length)
    let rest := items.drop star
    let middle := rest.length - (others - star)
    let starred ← StoreM.newList (rest.take middle).toArray
    pure (items.take star ++ starred :: rest.drop middle)

/-- Writes to an item or a slice of a container. -/
def assignSubscript (container slice : Expr) (value : Value) : Eval Unit := do
  let container ← v.expr container
  match slice.kind with
  | .slice lower upper step =>
    let bounds ← sliceBounds v lower upper step
    Subscript.setSlice sb.limits.size container bounds value
  | _ =>
    let index ← v.expr slice
    Subscript.setItem sb.limits.size container index value

mutual

/-- Assigns a value to a target. -/
def assign : Expr → Value → Eval Unit
  | ⟨kind, span⟩, value => located span (assignKind kind value)

def assignKind : ExprKind → Value → Eval Unit
  | .name name, value => define name value
  | .tuple targets, value => do
    let values ← unpack sb targets value
    assignEach targets values
  | .list targets, value => do
    let values ← unpack sb targets value
    assignEach targets values
  | .subscript container slice, value => assignSubscript sb v container slice value
  -- the receiver is not evaluated
  | .attribute _ attr, _ => throw (.attributeRejected attr)
  | .starred _, _ => throw .starredTarget
  | _, _ => throw .notAssignable

/-- Assigns values to the elements of a target list, to what is starred in place of the starred
element. -/
def assignEach : List Expr → List Value → Eval Unit
  | ⟨.starred target, _⟩ :: targets, value :: values => do
    assign target value
    assignEach targets values
  | target :: targets, value :: values => do
    assign target value
    assignEach targets values
  | _, _ => pure ()

end

/-- Assigns one value to several targets. -/
def assignAll (value : Value) : List Expr → Eval Unit
  | [] => pure ()
  | target :: rest => do
    assign sb v target value
    assignAll value rest

/-- The value of a name in the scope that binds it; where none does, what the host registered. -/
def ownedValue (span : Span) (scopes : Scopes) (owner : Option ScopeRef) (name : String) :
    Eval Value :=
  match owner.bind fun scope => (scopes.scope scope).lookup name with
  | some current => pure current
  | none => located span (lookup sb name)

/-- `name op= value`. The name is read before the value is evaluated, and written to the scope that
bound it then (`augmented_assign`, §4.2). -/
def augmentName (span : Span) (name : String) (op : BinaryOp) (value : Expr) : Eval Unit := do
  let scopes := (← get).scopes
  let owner := scopes.owner? scopes.current name
  let current ← ownedValue sb span scopes owner name
  let operand ← v.expr value
  let result ← Operator.binary sb.limits.size op current operand
  match owner with
  | some scope => defineIn scope name result
  | none => define name result

/-- `container[slice] op= value`. Container and index are evaluated once (§10.3). -/
def augmentSubscript (span : Span) (container slice : Expr) (op : BinaryOp) (value : Expr) :
    Eval Unit := do
  let container ← v.expr container
  match slice.kind with
  | .slice lower upper step =>
    let bounds ← sliceBounds v lower upper step
    let current ← Subscript.getSlice container bounds
    let operand ← v.expr value
    let result ← Operator.binary sb.limits.size op current operand
    located span (Subscript.setSlice sb.limits.size container bounds result)
  | _ =>
    let index ← v.expr slice
    let current ← Subscript.getItem sb.host container index
    let operand ← v.expr value
    let result ← Operator.binary sb.limits.size op current operand
    located span (Subscript.setItem sb.limits.size container index result)

/-- `target op= value`. -/
def augment (target : Expr) (op : BinaryOp) (value : Expr) : Eval Unit :=
  match target.kind with
  | .name name => augmentName sb v target.span name op value
  | .subscript container slice => augmentSubscript sb v target.span container slice op value
  | .attribute _ attr => located target.span (throw (.attributeRejected attr))
  | _ => located target.span (throw .notAugmentable)

end ScriptSandbox.Eval

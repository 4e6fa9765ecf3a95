import ScriptSandbox.Eval.Target
/-!
Comprehensions. All forms are evaluated at once in a scope of their own, so that their targets stay
inside; only the first iterable is evaluated outside (§10.3). They differ in what they collect.
-/

namespace ScriptSandbox.Eval

/-- What a comprehension has collected. -/
inductive Collection where
  | list (items : Array Value)
  | set (items : KeySet)
  | dict (entries : Dict)

namespace Collection

def size : Collection → Nat
  | list items => items.size
  | set items => items.size
  | dict entries => entries.size

/-- A new container of what was collected. -/
def toValue : Collection → StoreM Value
  | list items => StoreM.newList items
  | set items => StoreM.newSet items
  | dict entries => StoreM.newDict entries

end Collection

variable (sb : Sandbox) (v : Visit)

/-- Evaluates an element and adds it to a list, or to a set. -/
def collectElement (element : Expr) (out : Collection) : Eval Collection := do
  let value ← v.expr element
  match out with
  | .list items => pure (.list (items.push value))
  | .set items => .set <$> (items.insert value : Except Error KeySet)
  | out => pure out

/-- Evaluates a key and a value and adds them to a dict. -/
def collectEntry (key value : Expr) (out : Collection) : Eval Collection := do
  let key ← v.expr key
  let value ← v.expr value
  match out with
  | .dict entries => .dict <$> (entries.insert key value : Except Error Dict)
  | out => pure out

/-- Whether conditions hold; those behind the first that does not are not evaluated. -/
def allHold : List Expr → Eval Bool
  | [] => pure true
  | condition :: rest => do
    let value ← v.expr condition
    if ← isTruthy value then allHold rest else pure false

/-- Runs a clause over its iterable, and the clauses behind it for each item that satisfies its
conditions. What is collected innermost is checked against the quota each time. -/
def runClause (collect : Collection → Eval Collection) (clause : Comprehension) (source : Value)
    (out : Collection) : List Comprehension → Eval Collection
  | [] => do
    let items ← located clause.iter.span (iterate source)
    fold items (fun out item => do
      Guard.tickLoop sb.limits sb.clock
      assign sb v clause.target item
      if ← allHold v clause.ifs then
        let out ← collect out
        sb.limits.size.checkContainer out.size
        pure out
      else pure out) out
  | next :: rest => do
    let items ← located clause.iter.span (iterate source)
    fold items (fun out item => do
      Guard.tickLoop sb.limits sb.clock
      assign sb v clause.target item
      if ← allHold v clause.ifs then
        let source ← v.expr next.iter
        runClause collect next source out rest
      else pure out) out

/-- Evaluates a comprehension from nothing collected. -/
def comprehend (collect : Collection → Eval Collection) (nothing : Collection) :
    List Comprehension → Eval Value
  | [] => throw .noForClause
  | first :: rest => do
    let source ← v.expr first.iter
    let parent ← currentScope
    let out ← inScope .comprehension parent (runClause sb v collect first source nothing rest)
    out.toValue

end ScriptSandbox.Eval

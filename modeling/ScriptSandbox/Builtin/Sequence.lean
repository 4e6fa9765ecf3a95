import ScriptSandbox.Builtin.Conversion
import ScriptSandbox.Operator.Binary
import ScriptSandbox.Value.Order
/-!
The functions over iterables: measuring, folding, sorting and pairing. Long folds look at the
deadline on their way, since nothing else interrupts them.
-/

namespace ScriptSandbox.Builtin

def callLen (s : Store) (args : Arguments) : Except Error Value := do
  args.expectPositional "len" 1 (some 1)
  let length ←
    match args.positional.headD .null with
    | .str text => pure text.length
    | .list r => pure (s.list r).size
    | .tuple _ items => pure items.size
    | .dict r => pure (s.dict r).size
    | .set r => pure (s.set r).size
    | .range r => pure r.length
    | value => throw (.noLength value)
  pure (.int (Integer.saturate length))

def callRange (args : Arguments) : Except Error Value := do
  args.expectPositional "range" 1 (some 3)
  let (start, stop, step) ←
    match ← args.positional.mapM (Arguments.intOf "range") with
    | [stop] => pure (0, stop, 1)
    | [start, stop] => pure (start, stop, 1)
    | [start, stop, step] => pure (start, stop, step)
    | _ => pure (0, 0, 1)
  if step = 0 then throw .zeroRangeStep
  pure (.range ⟨start, stop, step⟩)

/-- The first candidate that no other one is better than, each compared with the best before it. -/
def bestOf (better : Ordering) (s : Store) (best : Value) : List Value → Except Error Value
  | [] => .ok best
  | candidate :: rest =>
    match s.order candidate best with
    | .ok order => bestOf better s (if order == some better then candidate else best) rest
    | .error e => .error e

/-- The least or the greatest of several arguments, or of the items of one argument. -/
def callExtremum (func : String) (better : Ordering) (limits : SizeLimits) (s : Store)
    (args : Arguments) : Except Error Value := do
  let (default, args) := args.takeKeyword "default"
  args.expectPositional func 1 none
  let candidates ←
    match args.positional with
    | [source] => (collect limits s source).map Array.toList
    | candidates => pure candidates
  match candidates, default with
  | first :: rest, _ => bestOf better s first rest
  | [], some default => pure default
  | [], none => throw (.emptySequence func)

/-- Adds the items from a position on to a total, one after another; the last number says how many
are left. -/
def sumFrom (ctx : CallContext) (items : Items) (total : Value) (position : Nat) :
    Nat → StoreM Value
  | 0 => pure total
  | left + 1 => do
    ctx.pollDeadline position
    let total ← Operator.binary ctx.limits .add total (items.item position)
    sumFrom ctx items total (position + 1) left

def callSum (ctx : CallContext) (args : Arguments) : StoreM Value := do
  args.expect "sum" 1 (some 2)
  let (start, args) := args.takeAt 1 "start"
  args.expectNoKeywords "sum"
  let start := start.getD (.int 0)
  if start.toStr?.isSome then throw .cannotSumStrings
  let source := args.positional.headD .null
  ctx.limits.checkIterable source
  let items ← StoreM.look (·.iterate source)
  sumFrom ctx items start 0 items.size

def callSorted (limits : SizeLimits) (args : Arguments) : StoreM Value := do
  let (descending, args) := args.takeKeyword "reverse"
  args.expectPositional "sorted" 1 (some 1)
  let sorted ← StoreM.look fun s => do
    let items ← collect limits s (args.positional.headD .null)
    s.sort items.toList (descending.any s.isTruthy)
  StoreM.newList sorted.toArray

/-- Pairs items with the numbers from `index` on. The number behind the last item has to exist,
too. -/
def numberFrom (index : Int64) (found : Array Value) : List Value → StoreM (Array Value)
  | [] => pure found
  | item :: rest => do
    let pair ← StoreM.newTuple #[.int index, item]
    match Integer.add? index 1 with
    | some next => numberFrom next (found.push pair) rest
    | none => throw (.overflow "enumerate")

def callEnumerate (limits : SizeLimits) (args : Arguments) : StoreM Value := do
  args.expect "enumerate" 1 (some 2)
  let (start, args) := args.takeAt 1 "start"
  let start ←
    match start with
    | none => pure 0
    | some start => Arguments.intOf "enumerate" start
  args.expectNoKeywords "enumerate"
  let items ← StoreM.look (collect limits · (args.positional.headD .null))
  StoreM.newList (← numberFrom start #[] items.toList)

/-- Rows of the items at the same position in each column, as many as the shortest column has. -/
def rows (columns : List (Array Value)) : List (List Value) :=
  let length := ((columns.map Array.size).min?).getD 0
  (List.range length).map fun i => columns.filterMap (·[i]?)

def callZip (limits : SizeLimits) (args : Arguments) : StoreM Value := do
  args.expectNoKeywords "zip"
  let columns ← StoreM.look fun s => args.positional.mapM (collect limits s)
  let tuples ← (rows columns).mapM fun row => StoreM.newTuple row.toArray
  StoreM.newList tuples.toArray

/-- Looks among the items from a position on for one that counts as `wanted`; the last number says
how many are left. -/
def anyTruth (ctx : CallContext) (s : Store) (wanted : Bool) (items : Items) (position : Nat) :
    Nat → Except Error Bool
  | 0 => .ok false
  | left + 1 =>
    match ctx.pollDeadline position with
    | .error e => .error e
    | .ok () =>
      if s.isTruthy (items.item position) = wanted then .ok true
      else anyTruth ctx s wanted items (position + 1) left

/-- Whether an item counts as true, or whether all do. -/
def callQuantifier (func : String) (existential : Bool) (ctx : CallContext) (s : Store)
    (args : Arguments) : Except Error Value := do
  args.expectPositional func 1 (some 1)
  let source := args.positional.headD .null
  ctx.limits.checkIterable source
  let items ← s.iterate source
  let found ← anyTruth ctx s existential items 0 items.size
  pure (.bool (found == existential))

end ScriptSandbox.Builtin

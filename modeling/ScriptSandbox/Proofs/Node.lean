import ScriptSandbox.Value.Basic

/-!
# Nodes of a script and the nodes inside them

`Node.children` lists the nodes that evaluating a node may visit next, with the code of a function
counted as inside the node that makes the function. `Node.Part` closes this: the nodes at any depth.
A property of a script such as "no function in it takes a keyword rest" is a property of all parts,
and passes from a node to its children without a recursion over the tree.
-/

namespace ScriptSandbox

/-- A node that can be visited. -/
inductive Node where
  | expr (e : Expr)
  | stmt (s : Stmt)

/-- The expressions in a clause of a comprehension. -/
def Comprehension.parts (c : Comprehension) : List Expr := c.target :: c.iter :: c.ifs

/-- The defaults of all parameters. -/
def Parameters.defaults (p : Parameters) : List Expr :=
  (p.positional ++ p.kwonly).filterMap (·.default)

/-- The nodes that calling a function may visit. -/
def FunctionCode.children : FunctionCode → List Node
  | .definition d => d.params.defaults.map .expr ++ d.body.map .stmt
  | .lambda l => l.params.defaults.map .expr ++ [.expr l.body]

/-- The expressions directly inside an expression. -/
def ExprKind.parts : ExprKind → List Expr
  | .constant _ | .name _ => []
  | .binOp left _ right => [left, right]
  | .unaryOp _ operand => [operand]
  | .boolOp _ operands => operands
  | .compare left _ comparators => left :: comparators
  | .ifExp test body orelse => [test, body, orelse]
  | .call callee args named => callee :: args ++ named.map (·.value)
  | .attribute receiver _ => [receiver]
  | .subscript container index => [container, index]
  | .slice lower upper step => lower.toList ++ upper.toList ++ step.toList
  | .list elements | .tuple elements | .set elements => elements
  | .dict keys values => keys.filterMap id ++ values
  | .starred e => [e]
  | .listComp element clauses | .setComp element clauses | .generatorExp element clauses =>
    element :: clauses.flatMap Comprehension.parts
  | .dictComp key value clauses => key :: value :: clauses.flatMap Comprehension.parts
  | .lambda params body => params.defaults ++ [body]
  | .namedExpr _ value => [value]
  | .joinedStr parts => parts
  | .formattedValue value _ spec => value :: spec.toList

mutual

/-- The expressions in a pattern, at any depth. -/
def Pattern.exprs : Pattern → List Expr
  | .value e => [e]
  | .singleton _ | .star _ => []
  | .sequence patterns | .or patterns => exprsIn patterns
  | .mapping keys patterns _ => keys ++ exprsIn patterns
  | .as none _ => []
  | .as (some pattern) _ => pattern.exprs

/-- The expressions in patterns. -/
def Pattern.exprsIn : List Pattern → List Expr
  | [] => []
  | pattern :: rest => pattern.exprs ++ exprsIn rest

end

/-- The nodes in a handler of a `try` statement. -/
def ExceptHandler.children (h : ExceptHandler) : List Node :=
  h.types.toList.map .expr ++ h.body.map .stmt

/-- The nodes in a case of a `match` statement. -/
def MatchCase.children (c : MatchCase) : List Node :=
  (c.pattern.exprs ++ c.guard.toList).map .expr ++ c.body.map .stmt

/-- The nodes directly inside a statement. -/
def StmtKind.children : StmtKind → List Node
  | .expr value => [.expr value]
  | .assign targets value => .expr value :: targets.map .expr
  | .augAssign target _ value => [.expr target, .expr value]
  | .functionDef d => (FunctionCode.definition d).children
  | .return value | .raise value => value.toList.map .expr
  | .if test body orelse | .while test body orelse =>
    .expr test :: body.map .stmt ++ orelse.map .stmt
  | .for target iter body orelse =>
    .expr target :: .expr iter :: body.map .stmt ++ orelse.map .stmt
  | .break | .continue | .pass => []
  | .try body handlers orelse finalbody =>
    body.map .stmt ++ handlers.flatMap ExceptHandler.children ++ orelse.map .stmt ++
      finalbody.map .stmt
  | .match subject cases => .expr subject :: cases.flatMap MatchCase.children

/-- The targets directly inside a target. -/
def Expr.targetParts (e : Expr) : List Expr :=
  match e.kind with
  | .tuple elements | .list elements => elements
  | .starred target => [target]
  | _ => []

/-- A target with a starred element, at any depth. -/
inductive Expr.HasStar : Expr → Prop
  | here {target element : Expr} {span : Span} :
    ⟨.starred element, span⟩ ∈ target.targetParts → HasStar target
  | inside {target part : Expr} : part ∈ target.targetParts → HasStar part → HasStar target

/-- The targets of an expression's clauses. -/
def ExprKind.targets : ExprKind → List Expr
  | .listComp _ clauses | .setComp _ clauses | .generatorExp _ clauses | .dictComp _ _ clauses =>
    clauses.map (·.target)
  | _ => []

/-- The targets that a statement unpacks values into. An augmented assignment takes no list of
targets. -/
def StmtKind.targets : StmtKind → List Expr
  | .assign targets _ => targets
  | .for target _ _ _ => [target]
  | _ => []

namespace Node

/-- The targets that evaluating a node itself assigns to. -/
def targets : Node → List Expr
  | expr e => e.kind.targets
  | stmt s => s.kind.targets

/-- The nodes directly inside a node. -/
def children : Node → List Node
  | expr e => e.kind.parts.map expr
  | stmt s => s.kind.children

/-- The code of the function that a node makes. -/
def code? : Node → Option FunctionCode
  | expr ⟨.lambda params body, _⟩ => some (.lambda ⟨params, body⟩)
  | stmt ⟨.functionDef d, _⟩ => some (.definition d)
  | _ => none

/-- Evaluating the node takes the current scope, for a function to capture or a new scope to lie in. -/
def TakesScope : Node → Prop
  | expr ⟨.lambda .., _⟩ | expr ⟨.listComp .., _⟩ | expr ⟨.setComp .., _⟩
  | expr ⟨.generatorExp .., _⟩ | expr ⟨.dictComp .., _⟩ | stmt ⟨.functionDef _, _⟩ => True
  | _ => False

theorem mem_children_of_mem_targets {n : Node} {e : Expr} (h : e ∈ n.targets) :
    expr e ∈ n.children := by
  rcases n with ⟨kind, span⟩ | ⟨kind, span⟩
  · refine List.mem_map_of_mem ?_
    have inside : ∀ {clauses : List Comprehension}, e ∈ clauses.map (·.target) →
        e ∈ clauses.flatMap Comprehension.parts := fun he => by
      obtain ⟨clause, hclause, rfl⟩ := List.mem_map.1 he
      exact List.mem_flatMap.2 ⟨clause, hclause, List.mem_cons_self⟩
    cases kind with
    | listComp | setComp | generatorExp => exact List.mem_cons_of_mem _ (inside h)
    | dictComp => exact List.mem_cons_of_mem _ (List.mem_cons_of_mem _ (inside h))
    | _ => cases h
  · cases kind with
    | assign targets value => exact List.mem_cons_of_mem _ (List.mem_map_of_mem h)
    | «for» target iter body orelse =>
      rw [List.mem_singleton.1 h]
      exact List.mem_append_left _ List.mem_cons_self
    | _ => cases h

theorem children_of_code? {n : Node} {c : FunctionCode} (h : n.code? = some c) :
    n.children = c.children := by
  unfold code? at h
  split at h
  · obtain rfl := Option.some.inj h
    simp [children, ExprKind.parts, FunctionCode.children]
  · obtain rfl := Option.some.inj h
    rfl
  · cases h

/-- `Part n m`: `m` is `n` or a node inside it, at any depth. -/
inductive Part : Node → Node → Prop where
  | refl (n : Node) : Part n n
  | step {n m k : Node} : m ∈ n.children → Part m k → Part n k

end Node

end ScriptSandbox

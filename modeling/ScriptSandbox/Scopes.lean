import ScriptSandbox.Value.Basic
/-!
Scopes of variables. A scope binds names and links to the scope it was made in; names are looked up
outward along these links. Calls and comprehensions make scopes, blocks do not. Scopes outlive the
code that made them, since functions keep theirs.
-/

namespace ScriptSandbox

/-- What made a scope. Named expressions write past the scopes of comprehensions. -/
inductive ScopeKind where
  | module | function | comprehension
deriving DecidableEq, Inhabited

/-- A scope: its own bindings, each name once, and the scope around it (§3). -/
structure Scope where
  kind : ScopeKind
  bindings : List (String × Value)
  parent : Option ScopeRef
deriving Inhabited

namespace Scope

def lookup (s : Scope) (name : String) : Option Value := s.bindings.lookup name

def contains (s : Scope) (name : String) : Bool := (s.lookup name).isSome

def size (s : Scope) : Nat := s.bindings.length

/-- Binds a name; a name that is bound keeps its place. -/
def bind (name : String) (value : Value) : List (String × Value) → List (String × Value)
  | [] => [(name, value)]
  | (other, old) :: rest =>
    if other = name then (name, value) :: rest else (other, old) :: bind name value rest

def define (s : Scope) (name : String) (value : Value) : Scope :=
  { s with bindings := bind name value s.bindings }

/-- The scope without bindings and without a link. -/
def clear (s : Scope) : Scope := { s with bindings := [], parent := none }

end Scope

/-- All scopes of a run and the one that code runs in. The first is the module's. -/
structure Scopes where
  scopes : Array Scope
  current : ScopeRef
  /-- The number of scopes there were when the scopes were torn down last. -/
  settled : Nat
deriving Inhabited

namespace Scopes

/-- The scope of the module. -/
def global : ScopeRef := ⟨0⟩

/-- The empty scope of a module. -/
def start : Scopes := ⟨#[⟨.module, [], none⟩], global, 0⟩

def scope (s : Scopes) (r : ScopeRef) : Scope := s.scopes[r.index]?.getD ⟨.module, [], none⟩

/-- A scope and those around it, from the inside out. Links lead to older scopes. -/
def path (s : Scopes) (r : ScopeRef) : List ScopeRef :=
  match (s.scope r).parent with
  | none => [r]
  | some parent => if parent.index < r.index then r :: path s parent else [r]
termination_by r.index

/-- The innermost scope that binds a name. -/
def owner? (s : Scopes) (r : ScopeRef) (name : String) : Option ScopeRef :=
  (s.path r).find? fun r => (s.scope r).contains name

/-- The value of a name in the innermost scope that binds it (`resolve`, §4.2). -/
def resolve? (s : Scopes) (r : ScopeRef) (name : String) : Option Value :=
  (s.path r).findSome? fun r => (s.scope r).lookup name

/-- The nearest scope that is not a comprehension's, or the outermost one. -/
def frame (s : Scopes) (r : ScopeRef) : ScopeRef :=
  ((s.path r).find? fun r =>
    (s.scope r).kind ≠ .comprehension || (s.scope r).parent.isNone).getD r

/-- Binds a name in a scope. -/
def defineIn (s : Scopes) (r : ScopeRef) (name : String) (value : Value) : Scopes :=
  { s with scopes := s.scopes.modify r.index (·.define name value) }

/-- Binds a name in the current scope (`assign`, §4.2). -/
def define (s : Scopes) (name : String) (value : Value) : Scopes :=
  s.defineIn s.current name value

/-- Makes a new scope current. -/
def enter (s : Scopes) (kind : ScopeKind) (parent : Option ScopeRef) : Scopes :=
  let current : ScopeRef := ⟨s.scopes.size⟩
  { s with scopes := s.scopes.push ⟨kind, [], parent⟩, current }

def restore (s : Scopes) (previous : ScopeRef) : Scopes := { s with current := previous }

/-- Drops the bindings and links of the module's scope and of all scopes made since the last time,
which ends a run. -/
def teardown (s : Scopes) : Scopes :=
  { scopes := s.scopes.mapIdx fun i scope =>
      if i = global.index || s.settled ≤ i then scope.clear else scope
    current := global
    settled := s.scopes.size }

end Scopes

end ScriptSandbox

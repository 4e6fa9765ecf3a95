import ScriptSandbox.Host
import ScriptSandbox.Text.Identifier
/-!
The names that a host gives to scripts. Scripts see them behind their own variables.
-/

namespace ScriptSandbox

/-- What a host registers under a name. -/
inductive Binding where
  | function (f : NativeFunction)
  | value (v : HostValue)

/-- Registered names, each once. -/
structure Bindings where
  entries : List (String × Binding)

namespace Bindings

def empty : Bindings := ⟨[]⟩

/-- The functions that every host can offer (§10.6). -/
def standard : Bindings :=
  ⟨Builtin.preset.map fun b => (b.name, .function b.native)⟩

def resolve? (b : Bindings) (name : String) : Option Binding := b.entries.lookup name

def contains (b : Bindings) (name : String) : Bool := (b.resolve? name).isSome

def size (b : Bindings) : Nat := b.entries.length

def names (b : Bindings) : List String := b.entries.map (·.1)

def erase (b : Bindings) (name : String) : Bindings :=
  ⟨b.entries.filter fun entry => entry.1 != name⟩

/-- Whether a host may register a name: an identifier that is not between double underscores. -/
def isName (name : String) : Bool := !Text.isDunder name && Text.isIdentifier name

/-- Registers a name, in place of what was registered under it before (`register`, §4.4). -/
def insert (b : Bindings) (name : String) (binding : Binding) : Except Error Bindings :=
  if isName name then .ok ⟨(name, binding) :: (b.erase name).entries⟩
  else .error (.attributeRejected name)

end Bindings

end ScriptSandbox

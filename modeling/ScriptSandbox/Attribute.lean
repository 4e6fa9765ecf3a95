import ScriptSandbox.Host
import ScriptSandbox.Method
/-!
Reading attributes. Every read passes the attribute policy first; only the name and the
documentation of a script function are open whatever the policy says.
-/

namespace ScriptSandbox.Attribute

/-- The attributes of script functions. -/
def ofFunction? (f : Closure) (attr : String) : Option Value :=
  match attr with
  | "name" => some (.str f.name)
  | "doc" => some ((f.doc.map Value.str).getD .null)
  | _ => none

/-- Reads an attribute that the policy allows: one that the host gives an object, or a method. -/
def readAllowed (host : Host) (receiver : Value) (attr : String) : StoreM Value := do
  match receiver with
  | .object o =>
    match ← host.attribute? o attr with
    | some value => pure value
    | none => throw (.noAttribute receiver attr)
  | _ =>
    if Method.exists? receiver attr then StoreM.newMethod receiver attr
    else throw (.noAttribute receiver attr)

/-- Reads an attribute that is not a script function's own. -/
def readGuarded (host : Host) (policy : AttributePolicy) (receiver : Value) (attr : String) :
    StoreM Value :=
  if policy.allows attr then readAllowed host receiver attr else throw (.attributeRejected attr)

/-- The value of `receiver.attr` (`get_attribute`, §4.4). -/
def read (host : Host) (policy : AttributePolicy) (receiver : Value) (attr : String) :
    StoreM Value :=
  match receiver with
  | .function f =>
    match ofFunction? f attr with
    | some value => pure value
    | none => readGuarded host policy receiver attr
  | _ => readGuarded host policy receiver attr

end ScriptSandbox.Attribute

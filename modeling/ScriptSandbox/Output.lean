/-!
Where printed text goes: it is kept for the host to read, sent to the console, or dropped.
-/

namespace ScriptSandbox

/-- A destination for printed text. Only a buffer gives back what was written. -/
inductive Output where
  | buffer (text : String)
  | silent
  | console
deriving Inhabited

namespace Output

def write (o : Output) (text : String) : Output :=
  match o with
  | buffer old => buffer (old ++ text)
  | other => other

def text : Output → String
  | buffer text => text
  | _ => ""

def clear : Output → Output
  | buffer _ => buffer ""
  | other => other

end Output

end ScriptSandbox

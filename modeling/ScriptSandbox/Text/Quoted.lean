import ScriptSandbox.Text.CharClass
/-!
Quoted text: the literal that denotes a text, and the same with everything beyond ASCII escaped.
-/

namespace ScriptSandbox.Text.Quoted

def hexDigit (n : Nat) : Char := (Nat.digitChar n)

/-- The last `width` hexadecimal digits of a number, in lower case. -/
def hex : Nat → Nat → List Char
  | 0, _ => []
  | width + 1, n => hex width (n / 16) ++ [hexDigit (n % 16)]

/-- Double quotes only for a text that holds a single quote and no double quote. -/
def quoteFor (text : List Char) : Char :=
  if text.contains '\'' && !text.contains '"' then '"' else '\''

/-- How one character is written between quotes. -/
def escape (quote c : Char) : List Char :=
  if c = '\\' then ['\\', '\\']
  else if c = '\n' then ['\\', 'n']
  else if c = '\r' then ['\\', 'r']
  else if c = '\t' then ['\\', 't']
  else if c = quote then ['\\', c]
  else if isControl c then ['\\', 'x'] ++ hex 2 c.toNat
  else [c]

/-- The literal that denotes a text. -/
def encode (text : List Char) : List Char :=
  let quote := quoteFor text
  quote :: text.flatMap (escape quote) ++ [quote]

/-- A character in ASCII: itself, or its code point in two, four or eight digits. -/
def asciiEscape (c : Char) : List Char :=
  if c.toNat < 0x80 then [c]
  else if c.toNat < 0x100 then ['\\', 'x'] ++ hex 2 c.toNat
  else if c.toNat < 0x10000 then ['\\', 'u'] ++ hex 4 c.toNat
  else ['\\', 'U'] ++ hex 8 c.toNat

def asciiText (text : String) : String := String.ofList (text.toList.flatMap asciiEscape)

/-- Whether a character stands for itself between single quotes. -/
def isPlain (c : Char) : Bool := c ≠ '\\' && c ≠ '\'' && !isControl c

/-- The literal that denotes a text. Only a text with characters that are not plain needs a look at
each of them. -/
def quote (text : String) : String :=
  if text.all isPlain then "'" ++ text ++ "'" else String.ofList (encode text.toList)

theorem escape_of_isPlain {c : Char} (plain : isPlain c) : escape '\'' c = [c] := by
  simp only [isPlain, Bool.and_eq_true, decide_eq_true_eq, Bool.not_eq_true'] at plain
  obtain ⟨⟨backslash, single⟩, control⟩ := plain
  have newline : c ≠ '\n' := by rintro rfl; exact absurd control (by decide)
  have carriage : c ≠ '\r' := by rintro rfl; exact absurd control (by decide)
  have tab : c ≠ '\t' := by rintro rfl; exact absurd control (by decide)
  simp [escape, backslash, single, control, newline, carriage, tab]

theorem flatMap_eq_self {α : Type} {f : α → List α} {l : List α} (h : ∀ a ∈ l, f a = [a]) :
    l.flatMap f = l := by
  induction l with
  | nil => rfl
  | cons a l ih => simp [h a, ih fun b member => h b (List.mem_cons_of_mem a member)]

/-- The short way gives the same literal. -/
theorem quote_eq (text : String) : quote text = String.ofList (encode text.toList) := by
  unfold quote
  split
  · next plain =>
    rw [String.all_bool_eq, List.all_eq_true] at plain
    have absent : '\'' ∉ text.toList := fun member => absurd (plain _ member) (by decide)
    have single : quoteFor text.toList = '\'' := by simp [quoteFor, absent]
    have same : text.toList.flatMap (escape '\'') = text.toList :=
      flatMap_eq_self fun c member => escape_of_isPlain (plain c member)
    apply String.toList_inj.1
    simp [encode, single, same]
  · rfl

/-- The quote is chosen by the text, and control characters are written in hexadecimal. -/
example : encode "it's".toList = "\"it's\"".toList ∧
    encode ['\x01', '\''] = "\"\\x01'\"".toList ∧ hex 4 0xe9 = "00e9".toList := by decide +kernel

end ScriptSandbox.Text.Quoted

import Mathlib.Data.List.Basic
import ScriptSandbox.Eval.Expression
import ScriptSandbox.Proofs.Rendering

/-!
# Literals read back

A reader of literals takes them character by character (`readChar?`): a character stands for itself or
is escaped, and the quote that opened the literal closes it at its end and nowhere else. It knows the
escapes of two digits, and those of four and eight digits only if it is asked to. What is written for one
character, be it by `escape` alone or by `escape` and then `asciiEscape`, is read as that character
whatever follows (`Reads`), so a literal and its form in ASCII are read as the text that they were
written for (`readBody?_flatMap`), and texts with one literal are the same.
-/

namespace ScriptSandbox.Text.Quoted

/-! ## Reading -/

def hexValue? (c : Char) : Option Nat :=
  if '0' ≤ c ∧ c ≤ '9' then some (c.toNat - '0'.toNat)
  else if 'a' ≤ c ∧ c ≤ 'f' then some (c.toNat - 'a'.toNat + 10)
  else if 'A' ≤ c ∧ c ≤ 'F' then some (c.toNat - 'A'.toNat + 10)
  else none

/-- The number that hexadecimal digits denote. -/
def hexNumber? (digits : List Char) : Option Nat :=
  digits.foldlM (fun n c => (hexValue? c).map (16 * n + ·)) 0

/-- The character whose code point hexadecimal digits denote. -/
def codePoint? (digits : List Char) : Option Char :=
  (hexNumber? digits).bind fun n => if n.isValidChar then some (Char.ofNat n) else none

/-- The character that a letter behind a backslash stands for. -/
def letterEscape? (quote : Char) : Char → Option Char
  | '\\' => some '\\'
  | 'n' => some '\n'
  | 'r' => some '\r'
  | 't' => some '\t'
  | c => if c = quote then some quote else none

/-- How many digits follow the letter of an escape; escapes beyond two digits count only for a reader
that is wide. -/
def codeWidth? (wide : Bool) : Char → Option Nat
  | 'x' => some 2
  | 'u' => if wide then some 4 else none
  | 'U' => if wide then some 8 else none
  | _ => none

/-- The first character of a text between quotes and the rest of it. A quote that is not escaped is
none, and neither is a backslash without an escape. -/
def readChar? (wide : Bool) (quote : Char) : List Char → Option (Char × List Char)
  | [] => none
  | ['\\'] => none
  | '\\' :: letter :: rest =>
    match letterEscape? quote letter with
    | some c => some (c, rest)
    | none => do
      let width ← codeWidth? wide letter
      if rest.length < width then none
      else
        let c ← codePoint? (rest.take width)
        some (c, rest.drop width)
  | c :: rest => if c = quote then none else some (c, rest)

variable {wide : Bool} {quote c : Char} {piece rest text : List Char}

theorem length_of_readChar? (h : readChar? wide quote text = some (c, rest)) :
    rest.length < text.length := by
  unfold readChar? at h
  split at h
  · cases h
  · cases h
  · rename_i letter behind
    cases hletter : letterEscape? quote letter with
    | some c' =>
      rw [hletter] at h
      cases h
      rw [List.length_cons, List.length_cons]
      omega
    | none =>
      rw [hletter] at h
      -- a code takes its digits, too
      obtain ⟨width, -, h⟩ := Option.bind_eq_some_iff.1 h
      split at h
      · cases h
      · obtain ⟨c', -, h⟩ := Option.bind_eq_some_iff.1 h
        cases h
        rw [List.length_cons, List.length_cons, List.length_drop]
        omega
  · split at h
    · cases h
    · cases h
      simp

/-- The text up to the quote that ends a literal. -/
def readBody? (wide : Bool) (quote : Char) (text : List Char) : Option (List Char) :=
  if text = [quote] then some []
  else
    match h : readChar? wide quote text with
    | none => none
    | some (c, rest) =>
      have := length_of_readChar? h
      (readBody? wide quote rest).map (c :: ·)
termination_by text.length

/-- The text that a literal denotes; nothing for what is no literal. -/
def unquote? (wide : Bool) : List Char → Option (List Char)
  | [] => none
  | quote :: rest => if quote = '\'' ∨ quote = '"' then readBody? wide quote rest else none

/-- A piece of a literal is read as a character, whatever follows. -/
def Reads (wide : Bool) (quote : Char) (piece : List Char) (c : Char) : Prop :=
  ∀ rest, readChar? wide quote (piece ++ rest) = some (c, rest)

/-! ## Hexadecimal digits -/

theorem hexValue?_hexDigit : ∀ n, n < 16 → hexValue? (hexDigit n) = some n := by decide

theorem length_hex (width n : Nat) : (hex width n).length = width := by
  induction width generalizing n with
  | zero => rfl
  | succ width ih => simp [hex, ih]

theorem hexNumber?_hex (width n : Nat) : hexNumber? (hex width n) = some (n % Nat.pow 16 width) := by
  induction width generalizing n with
  | zero => simp [hex, hexNumber?, Nat.mod_one]
  | succ width ih =>
    have hlast := hexValue?_hexDigit (n % 16) (Nat.mod_lt _ (by decide))
    have hrest := ih (n / 16)
    unfold hexNumber? at hrest ⊢
    have hpow : Nat.pow 16 (width + 1) = 16 * Nat.pow 16 width := Nat.pow_succ'
    rw [hex, List.foldlM_append, hrest, hpow, Nat.mod_mul]
    simp [hlast]
    omega

/-- Digits enough for a code point denote the character. -/
theorem codePoint?_hex {width : Nat} (h : c.toNat < Nat.pow 16 width) :
    codePoint? (hex width c.toNat) = some c := by
  have hvalid : c.toNat.isValidChar := c.valid
  rw [codePoint?, hexNumber?_hex, Nat.mod_eq_of_lt h, Option.bind_some, if_pos hvalid, Char.ofNat_toNat]

theorem mem_hex {width n : Nat} (h : c ∈ hex width n) : ∃ d, d < 16 ∧ c = hexDigit d := by
  induction width generalizing n with
  | zero => simp [hex] at h
  | succ width ih =>
    rw [hex, List.mem_append, List.mem_singleton] at h
    rcases h with h | h
    · exact ih h
    · exact ⟨_, Nat.mod_lt _ (by decide), h⟩

theorem hexDigit_plain : ∀ d, d < 16 →
    (hexDigit d).toNat < 0x80 ∧ hexDigit d ≠ '\\' ∧ hexDigit d ≠ '\'' ∧ hexDigit d ≠ '"' := by
  decide

/-! ## What is written for a character -/

theorem reads_self (hquote : c ≠ quote) (hbackslash : c ≠ '\\') : Reads wide quote [c] c := by
  intro rest
  rw [List.singleton_append, readChar?, if_neg hquote]
  · rintro rfl -
    exact hbackslash rfl
  · rintro letter rest rfl -
    exact hbackslash rfl

theorem reads_letter {letter : Char} (h : letterEscape? quote letter = some c) :
    Reads wide quote ['\\', letter] c := by
  intro rest
  simp [readChar?, h]

theorem reads_code {letter : Char} {width : Nat} (hletter : letterEscape? quote letter = none)
    (hwidth : codeWidth? wide letter = some width) (h : c.toNat < Nat.pow 16 width) :
    Reads wide quote ('\\' :: letter :: hex width c.toNat) c := by
  intro rest
  have htake : (hex width c.toNat ++ rest).take width = hex width c.toNat := by
    simp [length_hex]
  have hdrop : (hex width c.toNat ++ rest).drop width = rest := by
    simp [length_hex]
  have hlong : ¬ (hex width c.toNat ++ rest).length < width := by simp [length_hex]
  simp only [List.cons_append, readChar?, hletter, hwidth]
  rw [Option.bind_eq_bind, Option.bind_some, if_neg hlong, htake, hdrop, codePoint?_hex h]
  rfl

/-- The two characters that open and close literals. -/
def IsQuote (quote : Char) : Prop := quote = '\'' ∨ quote = '"'

theorem isQuote_quoteFor (text : List Char) : IsQuote (quoteFor text) := by
  unfold quoteFor
  split
  · exact .inr rfl
  · exact .inl rfl

theorem toNat_lt_of_isControl (h : isControl c = true) : c.toNat < 0xA0 := by
  simp only [isControl, Bool.or_eq_true, Bool.and_eq_true, decide_eq_true_eq] at h
  omega

/-- A character between quotes is escaped by a letter, escaped by its code point, or stands for
itself. -/
theorem escape_cases (hquote : IsQuote quote) (c : Char) :
    (∃ letter, escape quote c = ['\\', letter] ∧ letterEscape? quote letter = some c ∧
      letter.toNat < 0x80) ∨
    (escape quote c = '\\' :: 'x' :: hex 2 c.toNat ∧ c.toNat < 0xA0) ∨
    (escape quote c = [c] ∧ c ≠ quote ∧ c ≠ '\\') := by
  by_cases hbackslash : c = '\\'
  · exact .inl ⟨'\\', by simp [escape, hbackslash], by simp [letterEscape?, hbackslash], by decide⟩
  by_cases hnewline : c = '\n'
  · exact .inl ⟨'n', by simp [escape, hnewline], by simp [letterEscape?, hnewline], by decide⟩
  by_cases hreturn : c = '\r'
  · exact .inl ⟨'r', by simp [escape, hreturn], by simp [letterEscape?, hreturn], by decide⟩
  by_cases htab : c = '\t'
  · exact .inl ⟨'t', by simp [escape, htab], by simp [letterEscape?, htab], by decide⟩
  by_cases hsame : c = quote
  · subst hsame
    refine .inl ⟨c, by simp [escape, hbackslash, hnewline, hreturn, htab], ?_, ?_⟩
    · rcases hquote with rfl | rfl <;> rfl
    · rcases hquote with rfl | rfl <;> decide
  by_cases hcontrol : isControl c = true
  · exact .inr (.inl ⟨by simp [escape, hbackslash, hnewline, hreturn, htab, hsame, hcontrol],
      toNat_lt_of_isControl hcontrol⟩)
  · exact .inr (.inr ⟨by simp [escape, hbackslash, hnewline, hreturn, htab, hsame, hcontrol],
      hsame, hbackslash⟩)

/-- A character between quotes is read as itself. -/
theorem reads_escape (hquote : IsQuote quote) (wide : Bool) (c : Char) :
    Reads wide quote (escape quote c) c := by
  rcases escape_cases hquote c with ⟨letter, hescape, hletter, -⟩ | ⟨hescape, hsmall⟩ | ⟨hescape, hne⟩
  · rw [hescape]
    exact reads_letter hletter
  · rw [hescape]
    have hletter : letterEscape? quote 'x' = none := by rcases hquote with rfl | rfl <;> rfl
    exact reads_code hletter rfl (Nat.lt_trans hsmall (by decide))
  · rw [hescape]
    exact reads_self hne.1 hne.2

/-! ## What is written in ASCII -/

def IsAscii (c : Char) : Prop := c.toNat < 0x80

instance : Decidable (IsAscii c) := inferInstanceAs (Decidable (c.toNat < 0x80))

theorem asciiEscape_of_isAscii (h : IsAscii c) : asciiEscape c = [c] := if_pos h

theorem isAscii_of_mem_hex {width n : Nat} (h : c ∈ hex width n) : IsAscii c := by
  obtain ⟨d, hd, rfl⟩ := mem_hex h
  exact (hexDigit_plain d hd).1

/-- A character beyond ASCII is written with the digits of its code point. -/
theorem asciiEscape_cases (h : ¬ IsAscii c) :
    ∃ letter width, asciiEscape c = '\\' :: letter :: hex width c.toNat ∧
      codeWidth? true letter = some width ∧ c.toNat < Nat.pow 16 width ∧ IsAscii letter ∧
      ∀ quote, IsQuote quote → letterEscape? quote letter = none := by
  have hletter : ∀ letter ∈ ['x', 'u', 'U'], IsAscii letter ∧
      ∀ quote, IsQuote quote → letterEscape? quote letter = none := by
    intro letter hmem
    simp only [List.mem_cons, List.not_mem_nil, or_false] at hmem
    rcases hmem with rfl | rfl | rfl <;>
      exact ⟨by decide, fun quote hquote => by rcases hquote with rfl | rfl <;> rfl⟩
  have hvalid : c.toNat < 0x110000 := by
    have := c.valid
    simp only [UInt32.isValidChar, Nat.isValidChar] at this
    simp only [Char.toNat]
    omega
  unfold IsAscii at h
  by_cases htwo : c.toNat < 0x100
  · exact ⟨'x', 2, by rw [asciiEscape, if_neg h, if_pos htwo]; rfl, rfl, htwo, hletter _ (by simp)⟩
  by_cases hfour : c.toNat < 0x10000
  · exact ⟨'u', 4, by rw [asciiEscape, if_neg h, if_neg htwo, if_pos hfour]; rfl, rfl, hfour,
      hletter _ (by simp)⟩
  · exact ⟨'U', 8, by rw [asciiEscape, if_neg h, if_neg htwo, if_neg hfour]; rfl, rfl,
      Nat.lt_trans hvalid (by decide), hletter _ (by simp)⟩

theorem isAscii_asciiEscape (c : Char) : ∀ d ∈ asciiEscape c, IsAscii d := by
  by_cases hc : IsAscii c
  · rw [asciiEscape_of_isAscii hc]
    simpa using hc
  · obtain ⟨letter, width, hescape, -, -, hletter, -⟩ := asciiEscape_cases hc
    rw [hescape]
    intro d hd
    simp only [List.mem_cons] at hd
    rcases hd with rfl | rfl | hd
    · decide
    · exact hletter
    · exact isAscii_of_mem_hex hd

theorem flatMap_asciiEscape_of_isAscii (h : ∀ d ∈ text, IsAscii d) :
    text.flatMap asciiEscape = text :=
  flatMap_eq_self fun d hd => asciiEscape_of_isAscii (h d hd)

/-- A character that is escaped twice is read as itself: what the first escape wrote in more than one
character is left alone by the second. -/
theorem reads_asciiEscape (hquote : IsQuote quote) (c : Char) :
    Reads true quote ((escape quote c).flatMap asciiEscape) c := by
  have hread := reads_escape hquote true c
  have hsame (h : ∀ d ∈ escape quote c, IsAscii d) :
      Reads true quote ((escape quote c).flatMap asciiEscape) c := by
    rw [flatMap_asciiEscape_of_isAscii h]
    exact hread
  -- by what the first escape wrote: two characters, a code, or the character
  rcases escape_cases hquote c with ⟨letter, hescape, -, hletter⟩ | ⟨hescape, -⟩ | ⟨hescape, -⟩
  · refine hsame fun d hd => ?_
    rw [hescape] at hd
    simp only [List.mem_cons, List.not_mem_nil, or_false] at hd
    rcases hd with rfl | rfl
    · decide
    · exact hletter
  · refine hsame fun d hd => ?_
    rw [hescape] at hd
    simp only [List.mem_cons] at hd
    rcases hd with rfl | rfl | hd
    · decide
    · decide
    · exact isAscii_of_mem_hex hd
  · by_cases hc : IsAscii c
    · exact hsame (by rw [hescape]; simpa using hc)
    · obtain ⟨letter, width, hascii, hwidth, hsize, -, hletter⟩ := asciiEscape_cases hc
      rw [hescape, List.flatMap_singleton, hascii]
      exact reads_code (hletter quote hquote) hwidth hsize

/-! ## Whole literals -/

/-- A quote is the first character of nothing. -/
theorem readChar?_quote (wide : Bool) (quote : Char) : readChar? wide quote [quote] = none := by
  by_cases h : quote = '\\'
  · subst h
    rfl
  · rw [readChar?, if_pos rfl]
    · rintro hquote -
      exact h hquote
    · nofun

theorem readBody?_append (h : Reads wide quote piece c) (rest : List Char) :
    readBody? wide quote (piece ++ rest) = (readBody? wide quote rest).map (c :: ·) := by
  have hread := h rest
  have hne : piece ++ rest ≠ [quote] := by
    intro heq
    rw [heq, readChar?_quote] at hread
    cases hread
  rw [readBody?, if_neg hne]
  split
  · rename_i hnone
    rw [hread] at hnone
    cases hnone
  · rename_i c' rest' hsome
    rw [hread] at hsome
    cases hsome
    rfl

/-- Pieces that are read as characters are read as the text of these. -/
theorem readBody?_flatMap {write : Char → List Char} (h : ∀ c, Reads wide quote (write c) c)
    (text : List Char) : readBody? wide quote (text.flatMap write ++ [quote]) = some text := by
  induction text with
  | nil => rw [List.flatMap_nil, List.nil_append, readBody?, if_pos rfl]
  | cons c text ih => rw [List.flatMap_cons, List.append_assoc, readBody?_append (h c), ih, Option.map_some]

theorem unquote?_cons (hquote : IsQuote quote) (wide : Bool) (body : List Char) :
    unquote? wide (quote :: body) = readBody? wide quote body := by
  rw [unquote?]
  exact if_pos hquote

theorem unquote?_encode (wide : Bool) (text : List Char) : unquote? wide (encode text) = some text := by
  have hquote := isQuote_quoteFor text
  rw [encode, List.cons_append, unquote?_cons hquote]
  exact readBody?_flatMap (reads_escape hquote wide) text

theorem isAscii_of_isQuote (h : IsQuote quote) : IsAscii quote := by
  rcases h with rfl | rfl <;> decide

theorem unquote?_ascii (text : List Char) :
    unquote? true ((encode text).flatMap asciiEscape) = some text := by
  have hquote := isQuote_quoteFor text
  have hascii := asciiEscape_of_isAscii (isAscii_of_isQuote hquote)
  have hform : (encode text).flatMap asciiEscape = quoteFor text ::
      (text.flatMap fun c => (escape (quoteFor text) c).flatMap asciiEscape) ++ [quoteFor text] := by
    rw [encode, List.flatMap_append, List.flatMap_cons, List.flatMap_singleton, hascii,
      List.flatMap_assoc]
    rfl
  rw [hform, List.cons_append, unquote?_cons hquote]
  exact readBody?_flatMap (reads_asciiEscape hquote) text

/-- Whether a character stands in a text without a backslash that escapes it. -/
def standsBare (c : Char) : List Char → Bool
  | [] => false
  | [d] => d == c
  | d :: next :: rest => if d = '\\' then standsBare c rest else d == c || standsBare c (next :: rest)

theorem standsBare_cons {d : Char} (hbackslash : d ≠ '\\') (hne : d ≠ c) (rest : List Char) :
    standsBare c (d :: rest) = standsBare c rest := by
  cases rest with
  | nil => simp [standsBare, hne]
  | cons next rest => simp [standsBare, hne, hbackslash]

/-- No quote stands bare in what is written for a character. -/
theorem standsBare_escape (hquote : IsQuote quote) (c : Char) (rest : List Char) :
    standsBare quote (escape quote c ++ rest) = standsBare quote rest := by
  rcases escape_cases hquote c with ⟨letter, hescape, -, -⟩ | ⟨hescape, -⟩ | ⟨hescape, hsame, hne⟩
  · rw [hescape]
    rfl
  · have hdigit (n : Nat) (rest : List Char) :
        standsBare quote (hexDigit (n % 16) :: rest) = standsBare quote rest := by
      obtain ⟨-, hbackslash, hsingle, hdouble⟩ := hexDigit_plain (n % 16) (Nat.mod_lt _ (by decide))
      refine standsBare_cons hbackslash ?_ rest
      rcases hquote with rfl | rfl
      · exact hsingle
      · exact hdouble
    rw [hescape]
    show standsBare quote (hexDigit (c.toNat / 16 % 16) :: hexDigit (c.toNat % 16) :: rest) = _
    rw [hdigit, hdigit]
  · rw [hescape]
    exact standsBare_cons hne hsame rest

theorem standsBare_flatMap (hquote : IsQuote quote) (text : List Char) :
    standsBare quote (text.flatMap (escape quote)) = false := by
  induction text with
  | nil => rfl
  | cons c text ih => rw [List.flatMap_cons, standsBare_escape hquote, ih]

theorem toList_quote (text : String) : (Quoted.quote text).toList = encode text.toList := by
  rw [quote_eq, String.toList_ofList]

theorem toList_asciiText (text : String) :
    (asciiText text).toList = text.toList.flatMap asciiEscape := by
  rw [asciiText, String.toList_ofList]

/-- What scripts get for a text that they convert. -/
theorem repr_str (s : Store) (budget : Nat) (text : String) :
    s.repr budget (.str text) =
      if (Quoted.quote text).utf8ByteSize ≤ budget then .ok (Quoted.quote text)
      else .error (.limitExceeded .stringLength budget) :=
  s.repr_eq budget (.str text)

theorem unquote?_quote (text : String) :
    unquote? false (Quoted.quote text).toList = some text.toList := by
  rw [toList_quote, unquote?_encode]

theorem unquote?_asciiText (text : String) :
    unquote? true (asciiText (Quoted.quote text)).toList = some text.toList := by
  rw [toList_asciiText, toList_quote, unquote?_ascii]

theorem isAscii_asciiText (text : String) : ∀ c ∈ (asciiText text).toList, IsAscii c := by
  intro c hc
  rw [toList_asciiText] at hc
  obtain ⟨d, -, hc⟩ := List.mem_flatMap.1 hc
  exact isAscii_asciiEscape d c hc

theorem quote_inj {text other : String} :
    Quoted.quote text = Quoted.quote other ↔ text = other := by
  refine ⟨fun h => ?_, congrArg _⟩
  have hread := unquote?_quote other
  rw [← h, unquote?_quote, Option.some.injEq] at hread
  exact String.toList_inj.1 hread

theorem asciiText_quote_inj {text other : String} :
    asciiText (Quoted.quote text) = asciiText (Quoted.quote other) ↔ text = other := by
  refine ⟨fun h => ?_, fun h => by rw [h]⟩
  have hread := unquote?_asciiText other
  rw [← h, unquote?_asciiText, Option.some.injEq] at hread
  exact String.toList_inj.1 hread

/-- Literals denote what they were written for. The literal of a text opens and closes with one quote,
which stands bare nowhere in between, and is read as the text; its form in ASCII, too, by a reader that
knows escapes of four and eight digits. So neither is shared by two texts. These are the texts that
conversions in replacement fields give, or they fail for their length. -/
theorem literal_denotes (text : String) :
    (∃ mark body, IsQuote mark ∧ (Quoted.quote text).toList = mark :: body ++ [mark] ∧
      standsBare mark body = false) ∧
    unquote? false (Quoted.quote text).toList = some text.toList ∧
    (asciiText (Quoted.quote text)).toList.all (fun c => c.toNat < 0x80) = true ∧
    unquote? true (asciiText (Quoted.quote text)).toList = some text.toList ∧
    (∀ other, Quoted.quote text = Quoted.quote other ↔ text = other) ∧
    (∀ other, asciiText (Quoted.quote text) = asciiText (Quoted.quote other) ↔ text = other) ∧
    ∀ (limits : SizeLimits) (s : Store),
      Eval.convert limits s (.str text) (some 'r') =
        (if (Quoted.quote text).utf8ByteSize ≤ limits.maxStringLength then
          .ok (.str (Quoted.quote text))
        else .error (.limitExceeded .stringLength limits.maxStringLength)) ∧
      Eval.convert limits s (.str text) (some 'a') =
        if (Quoted.quote text).utf8ByteSize ≤ limits.maxStringLength then
          .ok (.str (asciiText (Quoted.quote text)))
        else .error (.limitExceeded .stringLength limits.maxStringLength) := by
  refine ⟨⟨quoteFor text.toList, _, isQuote_quoteFor _, toList_quote text, ?_⟩, unquote?_quote text,
    ?_, unquote?_asciiText text, fun _ => quote_inj, fun _ => asciiText_quote_inj, ?_⟩
  · exact standsBare_flatMap (isQuote_quoteFor _) _
  · rw [List.all_eq_true]
    exact fun c hc => decide_eq_true (isAscii_asciiText _ c hc)
  · intro limits s
    rw [Eval.convert, Eval.convert, repr_str]
    constructor <;> split <;> rfl

/-- A quote of the kind that was chosen is escaped, and so is a backslash that stood before it. -/
example : encode "\\'\"é→".toList = "'\\\\\\'\"é→'".toList ∧
    (encode "é→".toList).flatMap asciiEscape = "'\\xe9\\u2192'".toList := by decide +kernel

end ScriptSandbox.Text.Quoted

import ScriptSandbox.Builtin.Call
import ScriptSandbox.Method
import ScriptSandbox.Proofs.Field
import ScriptSandbox.Proofs.Rendering

/-!
# Integers read back

Integers are written plainly, filled with zeros, and as a format specification asks. All these texts
spell the integer (`SpellsInt`): between blanks they have a sign and digits with underscores among
them. A text that spells an integer is read as it (`spelledInt?_eq`), so what is written of an integer
is read back (`Builtin.int_read_back`).
-/

namespace ScriptSandbox

open Decimal

/-! ## Reading -/

namespace Text

variable {before core behind : List Char} {c : Char}

theorem trim_eq (hbefore : ∀ c ∈ before, isBlank c = true)
    (hbehind : ∀ c ∈ behind, isBlank c = true) (hcore : ∀ c ∈ core, isBlank c = false)
    (hne : core ≠ []) :
    trim (before ++ core ++ behind) = core := by
  have hstart : trimStart (before ++ core ++ behind) = core ++ behind := by
    obtain ⟨c, rest, rfl⟩ := List.exists_cons_of_ne_nil hne
    rw [trimStart, List.append_assoc, List.dropWhile_append_of_pos hbefore, List.cons_append,
      List.dropWhile_cons_of_neg (by simp [hcore])]
  have hend : core.reverse.dropWhile isBlank = core.reverse := by
    obtain ⟨c, rest, hrev⟩ := List.exists_cons_of_ne_nil (List.reverse_ne_nil_iff.2 hne)
    have hmem : c ∈ core := List.mem_reverse.1 (by rw [hrev]; exact List.mem_cons_self ..)
    rw [hrev, List.dropWhile_cons_of_neg (by simp [hcore c hmem])]
  rw [trim, hstart, trimEnd, List.reverse_append,
    List.dropWhile_append_of_pos fun c hc => hbehind c (List.mem_reverse.1 hc), hend,
    List.reverse_reverse]

/-- A text in ASCII has one byte for each character. -/
theorem utf8ByteSize_of_ascii {text : List Char} (h : ∀ c ∈ text, c.toNat < 128) :
    (String.ofList text).utf8ByteSize = text.length := by
  induction text with
  | nil => rfl
  | cons c text ih =>
    obtain ⟨hc, htext⟩ := List.forall_mem_cons.1 h
    have hbyte : c.utf8Size = 1 :=
      Char.utf8Size_eq_one_iff.2 (UInt32.le_iff_toNat_le.2 (Nat.le_of_lt_succ hc))
    have hcons : String.ofList (c :: text) = String.singleton c ++ String.ofList text := by
      rw [String.singleton_eq_ofList, ← String.ofList_append]
      rfl
    rw [hcons, String.utf8ByteSize_append, String.utf8ByteSize_singleton, hbyte, ih htext,
      List.length_cons, Nat.add_comm]

theorem isBlank_digit (h : isDigit c = true) : isBlank c = false := by
  rw [isDigit_iff] at h
  simp only [isBlank, blankRanges, inRanges]
  simp
  omega

end Text

/-- A text spells an integer with a sign, which may be left out unless the integer is negative, and with
the digits of its magnitude. There may be zeros in front of the digits, underscores among them, and
blanks around all. -/
def SpellsInt (n : Int64) (text : List Char) : Prop :=
  ∃ before sign digits behind zeros, text = before ++ (sign ++ digits) ++ behind ∧
    (∀ c ∈ before, Text.isBlank c = true) ∧ (∀ c ∈ behind, Text.isBlank c = true) ∧
    (if n < 0 then sign = ['-'] else sign = [] ∨ sign = ['+']) ∧
    (∀ c ∈ digits, isDigit c = true ∨ c = '_') ∧
    digits.filter (· ≠ '_') = List.replicate zeros '0' ++ Nat.toDigits 10 n.toInt.natAbs

namespace Decimal

variable {c : Char} {sign digits : List Char}

theorem ne_underscore (h : isDigit c = true) : c ≠ '_' := by
  rintro rfl
  exact absurd h (by decide)

theorem filter_digits (h : ∀ c ∈ digits, isDigit c = true) : digits.filter (· ≠ '_') = digits :=
  List.filter_eq_self.2 fun c hc => decide_eq_true (ne_underscore (h c hc))

theorem isDigit_zeros (count : Nat) : ∀ c ∈ List.replicate count '0', isDigit c = true :=
  List.forall_mem_replicate.2 (.inr (by decide))

/-- A sign and digits are read as a number, of which a minus makes the negative one. -/
theorem readInt?_signed {negative : Bool}
    (hsign : if negative then sign = ['-'] else sign = [] ∨ sign = ['+']) (hne : digits ≠ [])
    (h : ∀ c ∈ digits, isDigit c = true) :
    readInt? (sign ++ digits) =
      some (if negative then -(ofDigits digits : Int) else ofDigits digits) := by
  have hwhole : wholeDigits? digits = some (ofDigits digits) := by
    rw [wholeDigits?, if_neg (by simpa [hne] using h)]
  have hsigned : takeSign (sign ++ digits) = (negative, digits) := by
    obtain ⟨c, rest, rfl⟩ := List.exists_cons_of_ne_nil hne
    have hc := h c (List.mem_cons_self ..)
    cases negative with
    | true =>
      obtain rfl : sign = ['-'] := by simpa using hsign
      rfl
    | false =>
      rcases (by simpa using hsign : sign = [] ∨ sign = ['+']) with rfl | rfl
      · rw [List.nil_append]
        unfold takeSign
        -- a digit is no sign
        split
        · next heq => cases heq; exact absurd hc (by decide)
        · next heq => cases heq; exact absurd hc (by decide)
        · rfl
      · rfl
  simp [readInt?, hsigned, hwhole]

end Decimal

theorem spelledInt?_eq {n : Int64} {text : List Char} (h : SpellsInt n text) :
    Builtin.spelledInt? (String.ofList text) = some n := by
  obtain ⟨before, sign, digits, behind, zeros, rfl, hbefore, hbehind, hsign, hdigits, hvalue⟩ := h
  have hmarks : ∀ c ∈ sign, c = '-' ∨ c = '+' := by
    split at hsign
    · simp [hsign]
    · rcases hsign with rfl | rfl <;> simp
  have hcore : ∀ c ∈ sign ++ digits, Text.isBlank c = false := by
    intro c hc
    rcases List.mem_append.1 hc with hc | hc
    · rcases hmarks c hc with rfl | rfl <;> decide
    · rcases hdigits c hc with hc | rfl
      · exact Text.isBlank_digit hc
      · decide
  have hne : digits ≠ [] := by
    rintro rfl
    have hlength := congrArg List.length hvalue
    have hpos := Nat.length_toDigits_pos (b := 10) (n := n.toInt.natAbs)
    simp at hlength
    omega
  -- underscores are dropped, and neither a sign nor a digit is one
  have hfilter : (sign ++ digits).filter (· ≠ '_') =
      sign ++ (List.replicate zeros '0' ++ Nat.toDigits 10 n.toInt.natAbs) := by
    rw [List.filter_append, hvalue, List.filter_eq_self.2]
    intro c hc
    rcases hmarks c hc with rfl | rfl <;> decide
  have hnumber : ∀ c ∈ List.replicate zeros '0' ++ Nat.toDigits 10 n.toInt.natAbs,
      isDigit c = true := by
    intro c hc
    rcases List.mem_append.1 hc with hc | hc
    · exact isDigit_zeros zeros c hc
    · exact isDigit_of_mem_toDigits hc
  have hmark : if decide (n < 0) then sign = ['-'] else sign = [] ∨ sign = ['+'] := by
    simpa using hsign
  have hread := readInt?_signed hmark (by simp [Nat.toDigits_ne_nil]) hnumber
  rw [Builtin.spelledInt?, String.toList_ofList, Text.trim_eq hbefore hbehind hcore (by simp [hne]),
    hfilter, hread, ofDigits_zeros, Option.bind_some]
  rw [Integer.fit?_eq_some_iff]
  simp only [decide_eq_true_eq, Integer.lt_zero_iff]
  split <;> omega

/-! ## Writing -/

/-- The digits that separators are put between can be told from them. -/
theorem FormatSpec.filter_grouped {separator : Char} {digits : List Char}
    (h : ∀ c ∈ digits, c ≠ separator) :
    (FormatSpec.grouped separator digits).filter (· ≠ separator) = digits := by
  induction digits with
  | nil => rfl
  | cons c rest ih =>
    obtain ⟨hc, hrest⟩ := List.forall_mem_cons.1 h
    rw [FormatSpec.grouped]
    split <;> simpa [hc] using ih hrest

theorem FormatSpec.mem_grouped {separator c : Char} {digits : List Char}
    (h : c ∈ FormatSpec.grouped separator digits) : c ∈ digits ∨ c = separator := by
  induction digits with
  | nil => exact absurd h (by simp [FormatSpec.grouped])
  | cons d rest ih =>
    rw [FormatSpec.grouped] at h
    split at h <;> grind

namespace SpellsInt

variable {n : Int64} {text sign digits : List Char}

/-- Digits behind a sign, perhaps with zeros between them. -/
theorem signed (hsign : if n < 0 then sign = ['-'] else sign = [] ∨ sign = ['+']) (zeros : Nat)
    (hdigits : ∀ c ∈ digits, isDigit c = true ∨ c = '_')
    (hvalue : digits.filter (· ≠ '_') = Nat.toDigits 10 n.toInt.natAbs) :
    SpellsInt n (sign ++ (List.replicate zeros '0' ++ digits)) := by
  refine ⟨[], sign, List.replicate zeros '0' ++ digits, [], zeros, by simp, nofun, nofun, hsign,
    fun c hc => ?_, ?_⟩
  · exact (List.mem_append.1 hc).elim (fun hc => .inl (isDigit_zeros zeros c hc)) (hdigits c)
  · rw [List.filter_append, hvalue, filter_digits (isDigit_zeros zeros)]

/-- Blanks around a text change nothing. -/
theorem spaced (h : SpellsInt n text) (left right : Nat) :
    SpellsInt n (List.replicate left ' ' ++ text ++ List.replicate right ' ') := by
  obtain ⟨before, sign, digits, behind, zeros, rfl, hbefore, hbehind, hrest⟩ := h
  have hspaces (count : Nat) : ∀ c ∈ List.replicate count ' ', Text.isBlank c = true :=
    List.forall_mem_replicate.2 (.inr (by decide))
  refine ⟨List.replicate left ' ' ++ before, sign, digits, behind ++ List.replicate right ' ', zeros,
    by simp, fun c hc => ?_, fun c hc => ?_, hrest⟩
  · exact (List.mem_append.1 hc).elim (hspaces left c) (hbefore c)
  · exact (List.mem_append.1 hc).elim (hbehind c) (hspaces right c)

end SpellsInt

/-! ### Plain text and zeros -/

/-- The sign of an integer, if it has one, and its digits. -/
theorem toList_intText (n : Int64) : (Render.intText n).toList =
    (if n < 0 then ['-'] else []) ++ Nat.toDigits 10 n.toInt.natAbs := by
  unfold Render.intText
  split <;> simp [digitText]

theorem utf8ByteSize_intText (n : Int64) :
    (Render.intText n).utf8ByteSize = (Render.intText n).length := by
  have hascii : ∀ c ∈ (Render.intText n).toList, c.toNat < 128 := by
    rw [toList_intText]
    intro c hc
    rcases List.mem_append.1 hc with hc | hc
    · split at hc <;> simp_all
    · have hdigit := isDigit_iff.1 (isDigit_of_mem_toDigits hc)
      omega
  have hbytes := Text.utf8ByteSize_of_ascii hascii
  rwa [String.ofList_toList, String.length_toList] at hbytes

/-- Zeros go between a sign and what stands behind it. -/
theorem TextMethod.runZfill_eq (limits : SizeLimits) {text : String} {sign digits : List Char}
    (w : Int64) (htext : text.toList = sign ++ digits) (hsign : sign = [] ∨ sign = ['-'])
    (hdigits : ∀ c ∈ digits, isDigit c = true)
    (hfits : text.length < w.toInt.toNat →
      text.utf8ByteSize + (w.toInt.toNat - text.length) ≤ limits.maxStringLength) :
    runZfill limits text w = .ok (.str (String.ofList
      (sign ++ (List.replicate (w.toInt.toNat - text.length) '0' ++ digits)))) := by
  unfold runZfill
  dsimp only
  by_cases hmissing : w.toInt.toNat - text.length = 0
  · rw [if_pos hmissing, hmissing, List.replicate_zero, List.nil_append, ← htext,
      String.ofList_toList]
  · rw [if_neg hmissing, SizeLimits.checkString_of_le (hfits (by omega)), htext]
    simp only [bind, Except.bind]
    rcases hsign with rfl | rfl
    · rw [List.nil_append]
      split
      · exact absurd (hdigits '+' (List.mem_cons_self ..)) (by decide)
      · exact absurd (hdigits '-' (List.mem_cons_self ..)) (by decide)
      · simp [zeros, String.ofList_append]
    · simp [zeros, String.ofList_append, String.append_assoc]

theorem SpellsInt.zeros (n : Int64) (count : Nat) :
    SpellsInt n ((if n < 0 then ['-'] else []) ++
      (List.replicate count '0' ++ Nat.toDigits 10 n.toInt.natAbs)) := by
  refine .signed ?_ count (fun c hc => .inl (isDigit_of_mem_toDigits hc))
    (filter_digits fun c hc => isDigit_of_mem_toDigits hc)
  by_cases hneg : n < 0 <;> simp [hneg]

theorem SpellsInt.intText (n : Int64) : SpellsInt n (Render.intText n).toList := by
  rw [toList_intText]
  exact .zeros n 0

/-! ### Formats -/

namespace FormatSpec

variable {spec : FormatSpec} {n : Int64}

/-- A specification that asks for decimal digits, with no grouping but by underscores and with no padding
but by blanks or by the zeros that a mark asks for. -/
structure ForDecimals (spec : FormatSpec) : Prop where
  code : spec.code = none ∨ spec.code = some 'd'
  precision : spec.precision = none
  grouping : spec.grouping = none ∨ spec.grouping = some '_'
  fill : spec.fill = none ∨ spec.fill = some ' '
  align : spec.align ≠ some .afterSign

/-- Grouped or not, digits can be told from what stands between them. -/
theorem digits_groupLeading (h : spec.grouping = none ∨ spec.grouping = some '_') (m : Nat) :
    (∀ c ∈ (groupLeading spec.grouping (digitText m)).toList, isDigit c = true ∨ c = '_') ∧
    (groupLeading spec.grouping (digitText m)).toList.filter (· ≠ '_') = Nat.toDigits 10 m := by
  have hdigits : ∀ c ∈ Nat.toDigits 10 m, isDigit c = true := fun c hc => isDigit_of_mem_toDigits hc
  rcases h with h | h
  · rw [h, groupLeading, digitText, String.toList_ofList]
    exact ⟨fun c hc => .inl (hdigits c hc), filter_digits hdigits⟩
  · have hgrouped : (groupLeading (some '_') (digitText m)).toList =
        grouped '_' (Nat.toDigits 10 m) := by
      simp only [groupLeading, digitText, String.toList_ofList]
      rw [List.takeWhile_eq_self_iff.2 hdigits, List.dropWhile_eq_nil_iff.2 hdigits, List.append_nil]
    rw [h, hgrouped]
    exact ⟨fun c hc => (mem_grouped hc).imp_left (hdigits c),
      filter_grouped fun c hc => ne_underscore (hdigits c hc)⟩

/-- In front of digits, each sign that a specification can ask for is that of the integer or a blank. -/
theorem spells_signText (spec : FormatSpec) (n : Int64) (count : Nat) {digits : List Char}
    (hdigits : ∀ c ∈ digits, isDigit c = true ∨ c = '_')
    (hvalue : digits.filter (· ≠ '_') = Nat.toDigits 10 n.toInt.natAbs) :
    SpellsInt n ((spec.signText (decide (n < 0))).toList ++ (List.replicate count '0' ++ digits)) := by
  have h (sign : List Char) (hsign : if n < 0 then sign = ['-'] else sign = [] ∨ sign = ['+']) :=
    SpellsInt.signed hsign count hdigits hvalue
  unfold signText
  by_cases hneg : n < 0
  · simpa [hneg] using h ['-'] (by simp [hneg])
  · simp only [hneg, decide_false, Bool.false_eq_true, if_false]
    split
    · exact h ['+'] (by simp [hneg])
    · simpa using (h [] (by simp [hneg])).spaced 1 0
    · exact h [] (by simp [hneg])

theorem spells_padNumber (h : spec.ForDecimals) (n : Int64) {digits : String}
    (hdigits : ∀ c ∈ digits.toList, isDigit c = true ∨ c = '_')
    (hvalue : digits.toList.filter (· ≠ '_') = Nat.toDigits 10 n.toInt.natAbs) :
    SpellsInt n (spec.padNumber (spec.signText (decide (n < 0))) digits).toList := by
  have hsigned := spells_signText spec n
  unfold padNumber
  by_cases hzeros : spec.zeroPad && spec.fill.isNone && spec.align.isNone
  · simpa [hzeros, repeated] using hsigned _ hdigits hvalue
  · have hfill : spec.fill.getD ' ' = ' ' := by rcases h.fill with h | h <;> simp [h]
    have halign : spec.align.getD .right ≠ .afterSign := by
      cases ha : spec.align with
      | none => simp
      | some a => simpa [ha] using h.align
    simp only [hzeros, hfill, halign, if_false, Bool.false_eq_true]
    simpa [alignText, repeated] using (hsigned 0 hdigits hvalue).spaced _ _

theorem render_decimals (h : spec.ForDecimals) (limits : SizeLimits) (s : Store) (n : Int64) :
    ∃ result, spec.render limits s (.int n) = .ok result ∧ SpellsInt n result.toList := by
  obtain ⟨hdigits, hvalue⟩ := digits_groupLeading h.grouping n.toInt.natAbs
  refine ⟨_, ?_, spells_padNumber h n hdigits hvalue⟩
  have hbased : spec.basedDigits n.toInt.natAbs =
      ("", groupLeading spec.grouping (digitText n.toInt.natAbs)) := by
    rcases h.code with h | h <;> simp [basedDigits, h]
  have hrender : spec.render limits s (.int n) = spec.renderInt n := by
    rcases h.code with h | h <;> simp [render, h, Value.toInt?]
  rw [hrender, renderInt, h.precision, hbased]
  simp

end FormatSpec

theorem Store.strText_int (s : Store) (n : Int64) : s.strText (.int n) = Render.intText n := rfl

/-- What is written of an integer is read back as it: its plain text if that is within the quota of
strings, this text filled with zeros up to any width within the quota, and what every specification
gives that asks for decimal digits in a field within the quota, whatever its sign. -/
theorem Builtin.int_read_back (ctx : CallContext) (s : Store) (n : Int64) :
    ((Render.intText n).utf8ByteSize ≤ ctx.limits.maxStringLength →
      Builtin.call .str ctx (.ofList [.int n]) s = .ok (.str (Render.intText n)) s ∧
      Builtin.call .int ctx (.ofList [.str (Render.intText n)]) s = .ok (.int n) s ∧
      ∀ w : Int64, w.toInt ≤ ctx.limits.maxStringLength → ∃ filled,
        Method.call ctx.limits (.str (Render.intText n)) "zfill" (.ofList [.int w]) s =
          .ok (.str filled) s ∧
        Builtin.call .int ctx (.ofList [.str filled]) s = .ok (.int n) s) ∧
    ∀ text spec, FormatSpec.parse text = .ok spec → spec.ForDecimals →
      spec.width.getD 0 ≤ ctx.limits.maxStringLength →
      (text = "" → (Render.intText n).utf8ByteSize ≤ ctx.limits.maxStringLength) →
      ∃ result, FormatSpec.format ctx.limits s (.int n) text = .ok result ∧
        Builtin.call .int ctx (.ofList [.str result]) s = .ok (.int n) s := by
  -- all of the texts spell the number, and a text that spells it is read as it
  have hread {text : String} (h : SpellsInt n text.toList) :
      Builtin.call .int ctx (.ofList [.str text]) s = .ok (.int n) s := by
    have hspelled := spelledInt?_eq h
    rw [String.ofList_toList] at hspelled
    have hcall : Builtin.call .int ctx (.ofList [.str text]) s =
      StoreM.look (fun s => Builtin.toInt s (.str text)) s := rfl
    simp [hcall, StoreM.look, Builtin.toInt, hspelled]
  have htext (hfits : (Render.intText n).utf8ByteSize ≤ ctx.limits.maxStringLength) :
      s.text ctx.limits.maxStringLength (.int n) = .ok (Render.intText n) := by
    rw [Store.text_eq, s.strText_int, if_pos hfits]
  refine ⟨fun hfits => ⟨?_, hread (.intText n), fun w hw => ?_⟩,
    fun text spec hparse hspec hwidth hempty => ?_⟩
  · have hcall : Builtin.call .str ctx (.ofList [.int n]) s =
      StoreM.look (fun s => (s.text ctx.limits.maxStringLength (.int n)).map .str) s := rfl
    simp [hcall, StoreM.look, htext hfits, Except.map]
  · have hcall : Method.call ctx.limits (.str (Render.intText n)) "zfill" (.ofList [.int w]) s =
      StoreM.look (fun _ => TextMethod.runZfill ctx.limits (Render.intText n) w) s := rfl
    have hfill := TextMethod.runZfill_eq ctx.limits w (toList_intText n)
      (by by_cases hneg : n < 0 <;> simp [hneg]) (fun c hc => isDigit_of_mem_toDigits hc)
      (by rw [utf8ByteSize_intText]; omega)
    refine ⟨_, by rw [hcall, StoreM.look, hfill], hread ?_⟩
    rw [String.toList_ofList]
    exact .zeros n _
  · by_cases hnil : text = ""
    · subst hnil
      exact ⟨Render.intText n, htext (hempty rfl), hread (.intText n)⟩
    · obtain ⟨result, hrender, hspells⟩ := FormatSpec.render_decimals hspec ctx.limits s n
      have hprecision : spec.precision.getD 0 ≤ ctx.limits.maxStringLength := by
        simp [hspec.precision]
      have hformat := (FormatSpec.format_eq_ok_iff hnil).2
        ⟨spec, hparse, hwidth, hprecision, hrender⟩
      exact ⟨result, hformat, hread hspells⟩

/-- A field with grouped digits behind zeros. -/
def FormatSpec.groupedField : FormatSpec where
  fill := none
  align := none
  sign := none
  alternate := false
  zeroPad := true
  width := some 30
  grouping := some '_'
  precision := none
  code := none

/-- The least integer, whose magnitude is no integer, behind zeros and with its digits in groups. -/
theorem Builtin.least_read_back :
    (Render.intText Integer.least).utf8ByteSize ≤ Limits.standard.size.maxStringLength ∧
    FormatSpec.parse "030_" = .ok FormatSpec.groupedField ∧ FormatSpec.groupedField.ForDecimals ∧
    Builtin.call .int (.ofCall Limits.standard .stopped 0)
      (.ofList [.str (Render.intText Integer.least)]) Store.empty =
        .ok (.int Integer.least) Store.empty ∧
    ∃ result, FormatSpec.format Limits.standard.size Store.empty (.int Integer.least) "030_" =
        .ok result ∧
      Builtin.call .int (.ofCall Limits.standard .stopped 0) (.ofList [.str result]) Store.empty =
        .ok (.int Integer.least) Store.empty := by
  have hfits : (Render.intText Integer.least).utf8ByteSize ≤ Limits.standard.size.maxStringLength := by
    decide +kernel
  have hwell : FormatSpec.groupedField.WellFormed := by
    refine ⟨nofun, nofun, ?_, nofun⟩
    rintro c ⟨⟩
    exact .inr rfl
  have hparse : FormatSpec.parse "030_" = .ok FormatSpec.groupedField :=
    FormatSpec.parse_written hwell
      (⟨0, 30, by decide, by decide⟩ : FormatSpec.Spelled (some 30) ['3', '0'])
      (rfl : FormatSpec.Spelled none []) (fun _ => rfl) rfl
  have hdecimals : FormatSpec.groupedField.ForDecimals := ⟨.inl rfl, rfl, .inr rfl, .inl rfl, nofun⟩
  obtain ⟨hplain, hformats⟩ :=
    int_read_back (.ofCall Limits.standard .stopped 0) Store.empty Integer.least
  obtain ⟨-, hread, -⟩ := hplain hfits
  exact ⟨hfits, hparse, hdecimals, hread,
    hformats "030_" _ hparse hdecimals (by decide) (fun h => absurd h (by decide))⟩

end ScriptSandbox

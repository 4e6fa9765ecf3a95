import Mathlib.Data.List.Basic
import Mathlib.Data.List.TakeWhile
import ScriptSandbox.FormatSpec

/-!
# Specifications and their texts

A specification is written by putting its parts one behind another (`FormatSpec.written`), with digits
for its numbers. Each step of the reader takes one part off the front of what is left: what it takes and
what it leaves is the text that it was given, and it takes a part that was written if what stands behind
it cannot be taken for that part. A character starts one part only (`FormatSpec.place`), and parts that
are left out are followed by later ones, so that is always so, but for a fill, which the alignment behind
it tells, and for a nought, which is the mark of padding first. So what is written for a specification is
read as it (`FormatSpec.parse_written`), and nothing else is read (`FormatSpec.exists_written`), where
digits may have zeros in front and all numbers from the greatest one on count as that (`Spelled`).
-/

namespace ScriptSandbox

/-! ## Digits -/

namespace Decimal

variable {digits : List Char} {c : Char} {n : Nat}

theorem isDigit_iff : isDigit c = true ↔ 48 ≤ c.toNat ∧ c.toNat ≤ 57 := by
  unfold isDigit
  rw [Bool.and_eq_true, decide_eq_true_eq, decide_eq_true_eq]
  exact Iff.rfl

theorem isDigit_of_mem_toDigits (h : c ∈ Nat.toDigits 10 n) : isDigit c = true := by
  have hdigit := Nat.isDigit_of_mem_toDigits (by decide) (by decide) h
  rw [isDigit_iff]
  simpa [Char.isDigit, UInt32.le_iff_toNat_le] using hdigit

theorem digitValue_eq (c : Char) : digitValue c = c.toNat - 48 := rfl

theorem digitValue_lt_ten (h : isDigit c = true) : digitValue c < 10 := by
  rw [isDigit_iff] at h
  rw [digitValue_eq]
  omega

theorem digitChar_digitValue (h : isDigit c = true) : Nat.digitChar (digitValue c) = c := by
  apply Char.toNat_inj.mp
  rw [Nat.toNat_digitChar_of_lt_ten (digitValue_lt_ten h), digitValue_eq]
  rw [isDigit_iff] at h
  omega

/-- Digits behind those of a positive number are digits of a greater one. -/
theorem toDigits_append (hn : 0 < n) (h : ∀ c ∈ digits, isDigit c = true) :
    Nat.toDigits 10 n ++ digits = Nat.toDigits 10 (continueDigits n digits) := by
  induction digits generalizing n with
  | nil => exact List.append_nil _
  | cons c digits ih =>
    obtain ⟨hc, hdigits⟩ := List.forall_mem_cons.1 h
    have hsmall := digitValue_lt_ten hc
    have hfirst : Nat.toDigits 10 n ++ [c] = Nat.toDigits 10 (10 * n + digitValue c) := by
      rw [← Nat.toDigits_append_toDigits (by decide) hn hsmall, Nat.toDigits_of_lt_base hsmall,
        digitChar_digitValue hc]
    calc Nat.toDigits 10 n ++ c :: digits = Nat.toDigits 10 n ++ [c] ++ digits := by simp
      _ = Nat.toDigits 10 (continueDigits (10 * n + digitValue c) digits) := by
        rw [hfirst, ih (by omega) hdigits]

/-- Digits are those of the number that they denote, behind zeros. -/
theorem exists_zeros (hne : digits ≠ []) (h : ∀ c ∈ digits, isDigit c = true) :
    ∃ zeros, digits = List.replicate zeros '0' ++ Nat.toDigits 10 (continueDigits 0 digits) := by
  induction digits with
  | nil => exact absurd rfl hne
  | cons c digits ih =>
    obtain ⟨hc, hdigits⟩ := List.forall_mem_cons.1 h
    have hstep : continueDigits 0 (c :: digits) = continueDigits (digitValue c) digits := by
      show continueDigits (10 * 0 + digitValue c) digits = _
      rw [Nat.mul_zero, Nat.zero_add]
    -- zeros in front do not count, and the first other digit starts the number
    by_cases hzero : c = '0'
    · subst hzero
      by_cases hlast : digits = []
      · exact ⟨0, by rw [hlast]; rfl⟩
      · obtain ⟨zeros, hzeros⟩ := ih hlast hdigits
        refine ⟨zeros + 1, ?_⟩
        rw [hstep, List.replicate_succ, List.cons_append]
        exact congrArg _ hzeros
    · have hpos : 0 < digitValue c := by
        have hne : c.toNat ≠ 48 := fun heq => hzero (Char.toNat_inj.mp heq)
        have hlow := (isDigit_iff.1 hc).1
        rw [digitValue_eq]
        omega
      refine ⟨0, ?_⟩
      rw [hstep, ← toDigits_append hpos hdigits, Nat.toDigits_of_lt_base (digitValue_lt_ten hc),
        digitChar_digitValue hc]
      rfl

theorem ofDigits_zeros (zeros m : Nat) :
    ofDigits (List.replicate zeros '0' ++ Nat.toDigits 10 m) = m := by
  have hzeros : continueDigits 0 (List.replicate zeros '0') = 0 := by
    induction zeros with
    | zero => rfl
    | succ zeros ih => exact ih
  have hdigits : continueDigits 0 (Nat.toDigits 10 m) = m :=
    Nat.ofDigitChars_toDigits (by decide) (by decide)
  rw [ofDigits_eq, ← continueDigits_append, hzeros, hdigits]

end Decimal

open Decimal

/-! ## Numbers -/

namespace FormatSpec

/-- Digits of a number, perhaps behind zeros; numbers beyond the greatest one stand for that. No digits
stand for no number. -/
def Spelled : Option Nat → List Char → Prop
  | none, digits => digits = []
  | some n, digits => ∃ zeros m, digits = List.replicate zeros '0' ++ Nat.toDigits 10 m ∧
      n = min m greatestNumber

section Numbers

variable {digits : List Char} {n : Nat}

/-- What digits spell is what they denote, up to the greatest number. -/
theorem spelled_iff {value : Option Nat} : Spelled value digits ↔
    (∀ c ∈ digits, isDigit c = true) ∧
    value = if digits = [] then none else some (min (ofDigits digits) greatestNumber) := by
  cases value with
  | none =>
    constructor
    · rintro rfl
      exact ⟨nofun, rfl⟩
    · rintro ⟨-, h⟩
      by_cases hne : digits = []
      · exact hne
      · rw [if_neg hne] at h
        cases h
  | some n =>
    constructor
    · rintro ⟨zeros, m, rfl, rfl⟩
      have hne : List.replicate zeros '0' ++ Nat.toDigits 10 m ≠ [] := by
        simp [Nat.toDigits_ne_nil]
      rw [if_neg hne, ofDigits_zeros]
      refine ⟨fun c hc => ?_, rfl⟩
      rcases List.mem_append.1 hc with hc | hc
      · rw [List.eq_of_mem_replicate hc]
        decide
      · exact isDigit_of_mem_toDigits hc
    · rintro ⟨hdigits, h⟩
      by_cases hne : digits = []
      · rw [if_pos hne] at h
        cases h
      · rw [if_neg hne, Option.some.injEq, ofDigits_eq] at h
        obtain ⟨zeros, hzeros⟩ := exists_zeros hne hdigits
        exact ⟨zeros, _, hzeros, h⟩

theorem ne_nil_of_spelled (h : Spelled (some n) digits) : digits ≠ [] := by
  rintro rfl
  cases (spelled_iff.1 h).2

/-- The digits of a number, with no zeros in front. -/
def decimals : Option Nat → List Char
  | none => []
  | some n => Nat.toDigits 10 n

theorem spelled_decimals {value : Option Nat} (h : ∀ n ∈ value, n ≤ greatestNumber) :
    Spelled value (decimals value) := by
  cases value with
  | none => rfl
  | some n => exact ⟨0, n, rfl, (Nat.min_eq_left (h n rfl)).symm⟩

theorem head?_of_spelled_zero (h : Spelled (some 0) digits) : digits.head? = some '0' := by
  obtain ⟨zeros, m, rfl, hm⟩ := h
  have hpos : 0 < greatestNumber := by decide
  obtain rfl : m = 0 := by omega
  cases zeros <;> rfl

/-- Only nought has a zero in front. -/
theorem eq_zero_of_head?_toDigits (h : (Nat.toDigits 10 n).head? = some '0') : n = 0 := by
  induction n using Nat.strongRecOn with
  | ind n ih =>
    by_cases hsmall : n < 10
    · rw [Nat.toDigits_of_lt_base hsmall, List.head?_cons, Option.some.injEq] at h
      have hvalue := congrArg Char.toNat h
      rw [Nat.toNat_digitChar_of_lt_ten hsmall] at hvalue
      have hzero : '0'.toNat = 48 := rfl
      omega
    · have hsplit : Nat.toDigits 10 (n / 10) ++ Nat.toDigits 10 (n % 10) = Nat.toDigits 10 n := by
        rw [Nat.toDigits_append_toDigits (by decide) (by omega) (by omega), Nat.div_add_mod]
      rw [← hsplit, List.head?_append_of_ne_nil _ Nat.toDigits_ne_nil] at h
      have hrest := ih (n / 10) (by omega) h
      omega

end Numbers

end FormatSpec

/-! ## Parts -/

def Align.mark : Align → Char
  | .left => '<'
  | .right => '>'
  | .center => '^'
  | .afterSign => '='

def SignRule.mark : SignRule → Char
  | .plus => '+'
  | .minus => '-'
  | .space => ' '

namespace FormatSpec

/-- A mark that is written or left out. -/
def flag (mark : Char) (present : Bool) : List Char := if present then [mark] else []

/-- The digits of a precision behind their point. -/
def pointed (digits : List Char) : List Char := if digits = [] then [] else '.' :: digits

/-- Which part a character starts, where parts are counted in the order that they are written in. -/
def place (c : Char) : Nat :=
  if (alignOf? c).isSome then 0
  else if ['+', '-', ' '].contains c then 1
  else if c = '#' then 2
  else if isDigit c then 3
  else if [',', '_'].contains c then 4
  else if c = '.' then 5
  else 6

/-- A text that starts with no part before this place. -/
def StartsAt (k : Nat) (text : List Char) : Prop := ∀ c, text.head? = some c → k ≤ place c

section Parts

variable {digits rest text : List Char} {c : Char} {n k : Nat} {fill grouping : Option Char}
  {align : Option Align} {sign : Option SignRule} {mark : Char} {present : Bool} {value : Option Nat}

theorem StartsAt.head?_ne (h : StartsAt k text) (hc : place c < k) : text.head? ≠ some c :=
  fun heq => Nat.not_le.2 hc (h c heq)

theorem StartsAt.append (htext : StartsAt k text) (hrest : StartsAt k rest) :
    StartsAt k (text ++ rest) := by
  cases text with
  | nil => exact hrest
  | cons c tail => exact htext

theorem StartsAt.mono {j : Nat} (h : StartsAt k text) (hle : j ≤ k) : StartsAt j text :=
  fun c hc => Nat.le_trans hle (h c hc)

theorem place_digit (h : isDigit c = true) : place c = 3 := by
  have hall : ∀ value < 10, place (Nat.digitChar value) = 3 := by decide
  rw [← digitChar_digitValue h]
  exact hall _ (digitValue_lt_ten h)

theorem place_signMark (rule : SignRule) : place rule.mark = 1 := by
  cases rule <;> rfl

theorem place_code (h : c ∈ codes) : place c = 6 := by
  have hall : codes.all (place · == 6) = true := by decide
  exact eq_of_beq (List.all_eq_true.1 hall c h)

theorem StartsAt.not_digit (h : StartsAt 4 text) (c : Char) (hc : text.head? = some c) :
    isDigit c = false := by
  by_contra hdigit
  have hplace := h c hc
  rw [place_digit (eq_true_of_ne_false hdigit)] at hplace
  exact absurd hplace (by decide)

theorem startsAt_digits (h : ∀ c ∈ digits, isDigit c = true) : StartsAt 3 digits :=
  fun c hc => (place_digit (h c (List.mem_of_mem_head? hc))).ge

theorem startsAt_pointed (digits : List Char) : StartsAt 5 (pointed digits) := by
  intro c hc
  unfold pointed at hc
  split at hc <;> cases hc
  decide

theorem mem_flag (h : c ∈ flag mark present) : c = mark := by
  unfold flag at h
  split at h
  · exact List.mem_singleton.1 h
  · cases h

theorem startsAt_flag (mark : Char) (present : Bool) : StartsAt (place mark) (flag mark present) :=
  fun _ hc => (congrArg place (mem_flag (List.mem_of_mem_head? hc))).ge

theorem alignOf?_eq_some {a : Align} (h : alignOf? c = some a) : c = a.mark := by
  unfold alignOf? at h
  split at h <;> cases h <;> rfl

theorem alignOf?_mark (a : Align) : alignOf? a.mark = some a := by
  cases a <;> rfl

theorem alignOf?_eq_none (h : 0 < place c) : alignOf? c = none := by
  cases halign : alignOf? c with
  | none => rfl
  | some a =>
    rw [place, halign] at h
    exact absurd h (Nat.lt_irrefl 0)

theorem takeAlign_eq (h : takeAlign text = (fill, align, rest)) :
    text = fill.toList ++ (align.map Align.mark).toList ++ rest ∧ (fill.isSome → align.isSome) := by
  unfold takeAlign at h
  split at h
  next c d tail =>
    split at h
    next a hd =>
      cases h
      rw [alignOf?_eq_some hd]
      exact ⟨rfl, fun _ => rfl⟩
    next a _ hc =>
      cases h
      rw [alignOf?_eq_some hc]
      exact ⟨rfl, fun h => nomatch h⟩
    next =>
      cases h
      exact ⟨rfl, fun h => nomatch h⟩
  next c =>
    split at h
    next a hc =>
      cases h
      rw [alignOf?_eq_some hc]
      exact ⟨rfl, fun h => nomatch h⟩
    next =>
      cases h
      exact ⟨rfl, fun h => nomatch h⟩
  next =>
    cases h
    exact ⟨rfl, fun h => nomatch h⟩

/-- A fill character may be any, since the alignment stands behind it; without one, the character
behind an alignment must not be one as well. -/
theorem takeAlign_written (hfill : fill.isSome → align.isSome) (hrest : ∀ c ∈ rest, 0 < place c) :
    takeAlign (fill.toList ++ (align.map Align.mark).toList ++ rest) = (fill, align, rest) := by
  have hnone : ∀ c ∈ rest, alignOf? c = none := fun c hc => alignOf?_eq_none (hrest c hc)
  match fill, align with
  | some c, some a =>
    show takeAlign (c :: a.mark :: rest) = _
    rw [takeAlign, alignOf?_mark]
  | some c, none => cases hfill rfl
  | none, some a =>
    show takeAlign (a.mark :: rest) = _
    cases rest with
    | nil => rw [takeAlign, alignOf?_mark]
    | cons d rest => rw [takeAlign, alignOf?_mark, hnone d (List.mem_cons_self ..)]
  | none, none =>
    show takeAlign rest = _
    match rest with
    | [] => rfl
    | [c] => rw [takeAlign, hnone c (List.mem_cons_self ..)]
    | c :: d :: rest =>
      rw [takeAlign, hnone c (List.mem_cons_self ..),
        hnone d (List.mem_cons_of_mem _ (List.mem_cons_self ..))]

theorem takeSign_eq (h : takeSign text = (sign, rest)) :
    text = (sign.map SignRule.mark).toList ++ rest := by
  unfold takeSign at h
  split at h <;> cases h <;> rfl

theorem takeSign_written (hrest : StartsAt 2 rest) :
    takeSign ((sign.map SignRule.mark).toList ++ rest) = (sign, rest) := by
  cases sign with
  | some rule => cases rule <;> rfl
  | none =>
    show takeSign rest = _
    unfold takeSign
    split
    next => exact absurd rfl (hrest.head?_ne (c := '+') (by decide))
    next => exact absurd rfl (hrest.head?_ne (c := '-') (by decide))
    next => exact absurd rfl (hrest.head?_ne (c := ' ') (by decide))
    next => rfl

theorem takeMark_eq_iff : takeMark mark text = (present, rest) ↔
    text = flag mark present ++ rest ∧ (present = false → rest.head? ≠ some mark) := by
  constructor
  · intro h
    cases text with
    | nil =>
      cases h
      exact ⟨rfl, fun _ h => nomatch h⟩
    | cons c tail =>
      rw [takeMark] at h
      by_cases hc : c = mark
      · rw [if_pos hc] at h
        cases h
        exact ⟨by rw [hc]; rfl, fun h => nomatch h⟩
      · rw [if_neg hc] at h
        cases h
        exact ⟨rfl, fun _ heq => hc (Option.some.inj heq)⟩
  · rintro ⟨rfl, hrest⟩
    cases present with
    | true => exact if_pos rfl
    | false =>
      cases rest with
      | nil => rfl
      | cons c tail => exact if_neg fun hc => hrest rfl (congrArg some hc)

/-- A number takes all digits that it finds. -/
theorem takeNumber_eq_iff : takeNumber text = (value, rest) ↔
    ∃ digits, Spelled value digits ∧ text = digits ++ rest ∧
      ∀ c, rest.head? = some c → isDigit c = false := by
  have htake : takeNumber text =
      (if text.takeWhile isDigit = [] then none
        else some (min (ofDigits (text.takeWhile isDigit)) greatestNumber),
      text.dropWhile isDigit) := by
    unfold takeNumber
    by_cases hnone : text.takeWhile isDigit = []
    · have hdrop := List.takeWhile_append_dropWhile (p := isDigit) (l := text)
      rw [hnone, List.nil_append] at hdrop
      simp only [hnone, List.isEmpty_nil, if_true, hdrop]
    · simp only [List.isEmpty_iff, hnone, if_false]
  rw [htake, Prod.mk.injEq]
  constructor
  · rintro ⟨hvalue, rfl⟩
    refine ⟨text.takeWhile isDigit, ?_, List.takeWhile_append_dropWhile.symm, fun c hc => ?_⟩
    · exact spelled_iff.2 ⟨fun c hc => List.mem_takeWhile_imp hc, hvalue.symm⟩
    · have hhead := List.head?_dropWhile_not isDigit text
      rw [hc] at hhead
      exact hhead
  · rintro ⟨digits, hspelled, rfl, hrest⟩
    obtain ⟨hdigits, rfl⟩ := spelled_iff.1 hspelled
    -- the number ends where no digit follows
    have hstop : rest.takeWhile isDigit = [] ∧ rest.dropWhile isDigit = rest := by
      cases rest with
      | nil => exact ⟨rfl, rfl⟩
      | cons c tail =>
        have hc := hrest c rfl
        exact ⟨List.takeWhile_cons_of_neg (by rw [hc]; decide),
          List.dropWhile_cons_of_neg (by rw [hc]; decide)⟩
    rw [List.takeWhile_append_of_pos hdigits, List.dropWhile_append_of_pos hdigits, hstop.1,
      hstop.2, List.append_nil]
    exact ⟨rfl, rfl⟩

theorem takeGrouping_eq (h : takeGrouping text = (grouping, rest)) :
    text = grouping.toList ++ rest ∧ ∀ c ∈ grouping, c = ',' ∨ c = '_' := by
  unfold takeGrouping at h
  split at h <;> cases h
  · exact ⟨rfl, fun c hc => .inl (Option.some.inj hc).symm⟩
  · exact ⟨rfl, fun c hc => .inr (Option.some.inj hc).symm⟩
  · exact ⟨rfl, fun c hc => nomatch hc⟩

theorem takeGrouping_written (hgrouping : ∀ c ∈ grouping, c = ',' ∨ c = '_')
    (hrest : StartsAt 5 rest) :
    takeGrouping (grouping.toList ++ rest) = (grouping, rest) := by
  cases grouping with
  | some c =>
    rcases hgrouping c rfl with rfl | rfl <;> rfl
  | none =>
    show takeGrouping rest = _
    unfold takeGrouping
    split
    next => exact absurd rfl (hrest.head?_ne (c := ',') (by decide))
    next => exact absurd rfl (hrest.head?_ne (c := '_') (by decide))
    next => rfl

theorem takePrecision?_eq (h : takePrecision? text = some (value, rest)) :
    ∃ digits, Spelled value digits ∧ text = pointed digits ++ rest := by
  unfold takePrecision? at h
  split at h
  next tail =>
    split at h
    next => cases h
    next hsome hnumber =>
      cases h
      obtain ⟨digits, hspelled, rfl, -⟩ := takeNumber_eq_iff.1 hnumber
      cases value with
      | none => exact (hsome rfl).elim
      | some n =>
        exact ⟨digits, hspelled, by rw [pointed, if_neg (ne_nil_of_spelled hspelled)]; rfl⟩
  next =>
    cases h
    exact ⟨[], rfl, rfl⟩

theorem takePrecision?_written (hspelled : Spelled value digits) (hrest : StartsAt 6 rest) :
    takePrecision? (pointed digits ++ rest) = some (value, rest) := by
  cases value with
  | none =>
    obtain rfl : digits = [] := hspelled
    show takePrecision? rest = _
    unfold takePrecision?
    split
    next => exact absurd rfl (hrest.head?_ne (c := '.') (by decide))
    next => rfl
  | some n =>
    have hnumber : takeNumber (digits ++ rest) = (some n, rest) :=
      takeNumber_eq_iff.2 ⟨digits, hspelled, rfl, (hrest.mono (by decide)).not_digit⟩
    rw [pointed, if_neg (ne_nil_of_spelled hspelled), List.cons_append, takePrecision?, hnumber]

end Parts

/-! ## The text -/

/-- The steps that read a specification, one part after another. -/
theorem parse_eq_ok_iff_steps {text : String} {spec : FormatSpec} : parse text = .ok spec ↔
    ∃ r₁ r₂ r₃ r₄ r₅ r₆, takeAlign text.toList = (spec.fill, spec.align, r₁) ∧
      takeSign r₁ = (spec.sign, r₂) ∧ takeMark '#' r₂ = (spec.alternate, r₃) ∧
      takeMark '0' r₃ = (spec.zeroPad, r₄) ∧ takeNumber r₄ = (spec.width, r₅) ∧
      takeGrouping r₅ = (spec.grouping, r₆) ∧
      takePrecision? r₆ = some (spec.precision, spec.code.toList) ∧
      ∀ c ∈ spec.code, c ∈ codes := by
  constructor
  · intro h
    rcases hAlign : takeAlign text.toList with ⟨fill, align, r₁⟩
    rcases hSign : takeSign r₁ with ⟨sign, r₂⟩
    rcases hAlternate : takeMark '#' r₂ with ⟨alternate, r₃⟩
    rcases hZeroPad : takeMark '0' r₃ with ⟨zeroPad, r₄⟩
    rcases hWidth : takeNumber r₄ with ⟨width, r₅⟩
    rcases hGrouping : takeGrouping r₅ with ⟨grouping, r₆⟩
    simp only [parse, hAlign, hSign, hAlternate, hZeroPad, hWidth, hGrouping] at h
    split at h
    next => cases h
    next precision rest hPrecision =>
      split at h
      next =>
        cases h
        exact ⟨r₁, r₂, r₃, r₄, r₅, r₆, rfl, hSign, hAlternate, hZeroPad, hWidth, hGrouping,
          hPrecision, fun c hc => nomatch hc⟩
      next code rest =>
        split at h
        next => cases h
        next hcode =>
          split at h
          next hend =>
            cases h
            obtain rfl := List.isEmpty_iff.1 hend
            refine ⟨r₁, r₂, r₃, r₄, r₅, r₆, rfl, hSign, hAlternate, hZeroPad, hWidth, hGrouping,
              hPrecision, fun c hc => ?_⟩
            cases hc
            simpa using hcode
          next => cases h
  · rintro ⟨r₁, r₂, r₃, r₄, r₅, r₆, hAlign, hSign, hAlternate, hZeroPad, hWidth, hGrouping,
      hPrecision, hcode⟩
    simp only [parse, hAlign, hSign, hAlternate, hZeroPad, hWidth, hGrouping, hPrecision]
    -- the fields as they were read make up the specification
    obtain ⟨fill, align, sign, alternate, zeroPad, width, grouping, precision, code⟩ := spec
    cases code with
    | none => rfl
    | some c =>
      have hmem : codes.contains c = true := List.contains_iff_mem.2 (hcode c rfl)
      simp only [Option.toList_some, hmem, Bool.not_true, List.isEmpty_nil, if_true]
      rfl

/-- The text of a specification whose numbers are written with these digits. -/
def written (spec : FormatSpec) (width precision : List Char) : List Char :=
  spec.fill.toList ++ (spec.align.map Align.mark).toList ++ ((spec.sign.map SignRule.mark).toList ++
    (flag '#' spec.alternate ++ (flag '0' spec.zeroPad ++ (width ++ (spec.grouping.toList ++
      (pointed precision ++ spec.code.toList))))))

/-- The text of a specification, its numbers written with no zeros in front. -/
def text (spec : FormatSpec) : String :=
  String.ofList (spec.written (decimals spec.width) (decimals spec.precision))

/-- What reading promises of a specification. A width of nought is read only behind the mark of
padding, for which its digit would be taken otherwise. -/
structure WellFormed (spec : FormatSpec) : Prop where
  fill_align : spec.fill.isSome → spec.align.isSome
  width_zero : spec.width = some 0 → spec.zeroPad = true
  grouping : ∀ c ∈ spec.grouping, c = ',' ∨ c = '_'
  code : ∀ c ∈ spec.code, c ∈ codes

/-- A specification whose numbers are below the greatest one, which stands for all beyond it. -/
structure Regular (spec : FormatSpec) : Prop extends WellFormed spec where
  width_lt : ∀ n ∈ spec.width, n < greatestNumber
  precision_lt : ∀ n ∈ spec.precision, n < greatestNumber

section Text

variable {text : String} {spec : FormatSpec} {width precision : List Char}

/-- No character behind an alignment can be taken for one. -/
theorem place_pos (hspec : spec.WellFormed) (hwidth : ∀ c ∈ width, isDigit c = true)
    (hprecision : ∀ c ∈ precision, isDigit c = true) :
    ∀ c ∈ (spec.sign.map SignRule.mark).toList ++ (flag '#' spec.alternate ++
      (flag '0' spec.zeroPad ++ (width ++ (spec.grouping.toList ++
        (pointed precision ++ spec.code.toList))))), 0 < place c := by
  have hdigit {c : Char} (hc : isDigit c = true) : 0 < place c := by
    rw [place_digit hc]
    decide
  intro c hc
  simp only [List.mem_append] at hc
  -- by the part that it stands in
  rcases hc with hsign | halternate | hzeroPad | hc | hgrouping | hpointed | hcode
  · obtain ⟨rule, -, rfl⟩ := Option.map_eq_some_iff.1 (Option.mem_toList.1 hsign)
    rw [place_signMark]
    decide
  · rw [mem_flag halternate]
    decide
  · rw [mem_flag hzeroPad]
    decide
  · exact hdigit (hwidth c hc)
  · rcases hspec.grouping c (Option.mem_toList.1 hgrouping) with rfl | rfl <;> decide
  · unfold pointed at hpointed
    split at hpointed
    · cases hpointed
    · rcases List.mem_cons.1 hpointed with rfl | hpointed
      · decide
      · exact hdigit (hprecision c hpointed)
  · rw [place_code (hspec.code c (Option.mem_toList.1 hcode))]
    decide

/-- What is written for a specification is read as it, since each part ends where one starts that
comes later. -/
theorem parse_written (hspec : spec.WellFormed) (hwidth : Spelled spec.width width)
    (hprecision : Spelled spec.precision precision)
    (hzero : width.head? = some '0' → spec.zeroPad = true)
    (htext : text.toList = spec.written width precision) : parse text = .ok spec := by
  have hcode : StartsAt 6 spec.code.toList := by
    intro c hc
    have hmem := List.mem_of_mem_head? hc
    exact (place_code (hspec.code c (Option.mem_toList.1 hmem))).ge
  have hpoint : StartsAt 5 (pointed precision ++ spec.code.toList) :=
    (startsAt_pointed precision).append (hcode.mono (by decide))
  have hgrouping : StartsAt 4 (spec.grouping.toList ++ (pointed precision ++ spec.code.toList)) := by
    refine StartsAt.append (fun c hc => ?_) (hpoint.mono (by decide))
    have hmem := List.mem_of_mem_head? hc
    rcases hspec.grouping c (Option.mem_toList.1 hmem) with rfl | rfl <;> decide
  have hdigits := (spelled_iff.1 hwidth).1
  have hnumber := (startsAt_digits hdigits).append (hgrouping.mono (by decide))
  have hpadding := (startsAt_flag '0' spec.zeroPad).append hnumber
  have hbase := (startsAt_flag '#' spec.alternate).append (hpadding.mono (by decide))
  have hAlign := takeAlign_written hspec.fill_align
    (place_pos hspec hdigits (spelled_iff.1 hprecision).1)
  have hAlternate := takeMark_eq_iff.2 ⟨rfl, fun (_ : spec.alternate = false) =>
    hpadding.head?_ne (c := '#') (by decide)⟩
  -- a width starts at the place of the mark of padding, so its own digits decide
  have hunpadded (hnone : spec.zeroPad = false) :
      (width ++ (spec.grouping.toList ++ (pointed precision ++ spec.code.toList))).head? ≠
        some '0' := by
    intro hhead
    cases width with
    | nil => exact hgrouping.head?_ne (by decide) hhead
    | cons c tail => exact Bool.false_ne_true (hnone.symm.trans (hzero hhead))
  have hZeroPad := takeMark_eq_iff.2 ⟨rfl, hunpadded⟩
  have hWidth := takeNumber_eq_iff.2 ⟨width, hwidth, rfl, hgrouping.not_digit⟩
  rw [parse_eq_ok_iff_steps, htext]
  exact ⟨_, _, _, _, _, _, hAlign, takeSign_written hbase, hAlternate, hZeroPad, hWidth,
    takeGrouping_written hspec.grouping hpoint, takePrecision?_written hprecision hcode, hspec.code⟩

/-- What is read was written for the specification. -/
theorem exists_written (h : parse text = .ok spec) :
    spec.WellFormed ∧ ∃ width precision, Spelled spec.width width ∧
      Spelled spec.precision precision ∧ (width.head? = some '0' → spec.zeroPad = true) ∧
      text.toList = spec.written width precision := by
  obtain ⟨r₁, r₂, r₃, r₄, r₅, r₆, hAlign, hSign, hAlternate, hZeroPad, hWidth, hGrouping,
    hPrecision, hcode⟩ := parse_eq_ok_iff_steps.1 h
  obtain ⟨htext, hfill⟩ := takeAlign_eq hAlign
  obtain ⟨hrest, hpadding⟩ := takeMark_eq_iff.1 hZeroPad
  obtain ⟨width, hwidth, hnumber, -⟩ := takeNumber_eq_iff.1 hWidth
  obtain ⟨hgroups, hgrouping⟩ := takeGrouping_eq hGrouping
  obtain ⟨precision, hprecision, hpoint⟩ := takePrecision?_eq hPrecision
  have hpadded (hzero : width.head? = some '0') : spec.zeroPad = true := by
    by_contra hnone
    refine hpadding (eq_false_of_ne_true hnone) ?_
    rw [hnumber, List.head?_append, hzero]
    rfl
  refine ⟨⟨hfill, fun hzero => ?_, hgrouping, hcode⟩, width, precision, hwidth, hprecision, hpadded, ?_⟩
  · exact hpadded (head?_of_spelled_zero (hzero ▸ hwidth))
  · rw [htext, takeSign_eq hSign, (takeMark_eq_iff.1 hAlternate).1, hrest, hnumber, hgroups, hpoint]
    rfl

end Text

/-- Exactly the texts that are written for well-formed specifications are read as them, zeros in front of
numbers and numbers beyond the greatest one apart. -/
theorem parse_exact :
    (∀ spec : FormatSpec, spec.Regular → parse spec.text = .ok spec) ∧
    ∀ (text : String) (spec : FormatSpec), parse text = .ok spec ↔
      spec.WellFormed ∧ ∃ width precision, Spelled spec.width width ∧
        Spelled spec.precision precision ∧ (width.head? = some '0' → spec.zeroPad = true) ∧
        text.toList = spec.written width precision := by
  refine ⟨fun spec hspec => ?_, fun text spec => ⟨exists_written, ?_⟩⟩
  · have hwidth := spelled_decimals fun n hn => Nat.le_of_lt (hspec.width_lt n hn)
    have hprecision := spelled_decimals fun n hn => Nat.le_of_lt (hspec.precision_lt n hn)
    refine parse_written hspec.toWellFormed hwidth hprecision (fun hzero => ?_) (String.toList_ofList ..)
    cases hvalue : spec.width with
    | none =>
      rw [hvalue] at hzero
      cases hzero
    | some n =>
      rw [hvalue] at hzero
      exact hspec.width_zero (hvalue.trans (congrArg some (eq_zero_of_head?_toDigits hzero)))
  · rintro ⟨hspec, width, precision, hwidth, hprecision, hzero, htext⟩
    exact parse_written hspec hwidth hprecision hzero htext

/-- A specification with every part, whose fill is an alignment and whose width is a mark of padding. -/
def crowded : FormatSpec where
  fill := some '>'
  align := some .left
  sign := some .plus
  alternate := true
  zeroPad := true
  width := some 0
  grouping := some ','
  precision := some 0
  code := some '%'

theorem parse_crowded : crowded.Regular ∧ crowded.text = "><+#00,.0%" ∧
    parse crowded.text = .ok crowded ∧ parse "><+#0000,.00%" = .ok crowded := by
  have hwell : crowded.WellFormed := by
    refine ⟨fun _ => rfl, fun _ => rfl, ?_, ?_⟩
    · rintro c ⟨⟩
      exact .inl rfl
    · rintro c ⟨⟩
      decide
  have hregular : crowded.Regular := by
    refine ⟨hwell, ?_, ?_⟩ <;>
    · rintro n ⟨⟩
      decide
  refine ⟨hregular, by decide, parse_exact.1 crowded hregular, (parse_exact.2 _ _).2 ⟨hwell, ?_⟩⟩
  exact ⟨['0', '0', '0'], ['0', '0'], ⟨2, 0, by decide, by decide⟩, ⟨1, 0, by decide, by decide⟩,
    fun _ => rfl, by decide⟩

end FormatSpec

end ScriptSandbox

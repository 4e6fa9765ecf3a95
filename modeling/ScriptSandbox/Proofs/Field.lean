import ScriptSandbox.FormatSpec.Render
import ScriptSandbox.Proofs.Specification

/-!
# Fields

A specification with a width makes a field. What a value is without the field stands in it as a whole, with
fill characters where the placement of the value puts them (`FormatSpec.padded`); in the field of a number
that may be behind the sign. The sign is all that the text of a number starts with of what can be one,
since neither digits nor words start so (`FormatSpec.Unsigned`). So a value is put into its field after it
has been written without it (`FormatSpec.render_eq`), whichever of the writers it is given to.
-/

namespace ScriptSandbox

theorem Binary64.isNegative_abs (x : Binary64) : x.abs.isNegative = false := by
  have habs : x.abs.bits.toNat ≤ 0x7FFFFFFFFFFFFFFF := by
    rw [abs, UInt64.toNat_and]
    exact Nat.and_le_right
  unfold isNegative signBit
  rw [decide_eq_false_iff_not]
  omega

namespace FormatSpec

open Decimal

/-! ## Placing -/

/-- What can be the sign of a number. -/
def isSign (c : Char) : Bool := c = '+' || c = '-' || c = ' '

/-- A text with a number of fill characters. -/
def padded (fill : Char) (count : Nat) (text : List Char) : Align → List Char
  | .left => text ++ List.replicate count fill
  | .right => List.replicate count fill ++ text
  | .center => List.replicate (count / 2) fill ++ text ++ List.replicate (count - count / 2) fill
  | .afterSign => text.takeWhile isSign ++ List.replicate count fill ++ text.dropWhile isSign

/-- Where a value stands in its field. Only numbers have digits that the fill can be put in front of. -/
def placement (spec : FormatSpec) (number : Bool) : Align :=
  match spec.align with
  | some .afterSign => if number then .afterSign else .right
  | some align => align
  | none =>
    if number then if spec.zeroPad && spec.fill.isNone then .afterSign else .right else .left

/-- The fill characters of a field. -/
def filling (spec : FormatSpec) (number : Bool) : Char :=
  spec.fill.getD (if number && spec.zeroPad && spec.align.isNone then '0' else ' ')

/-- A text in the field of a value. -/
def fieldText (spec : FormatSpec) (number : Bool) (text : String) : String :=
  String.ofList
    (padded (spec.filling number) (spec.width.getD 0 - text.length) text.toList (spec.placement number))

theorem length_padded (fill : Char) (count : Nat) (text : List Char) (align : Align) :
    (padded fill count text align).length = text.length + count := by
  have hsign := congrArg List.length (List.takeWhile_append_dropWhile (p := isSign) (l := text))
  rw [List.length_append] at hsign
  cases align <;> simp [padded] <;> omega

theorem padded_zero (fill : Char) (text : List Char) (align : Align) :
    padded fill 0 text align = text := by
  cases align <;> simp [padded]

/-- A text stands in a field as it is padded, unless the fill goes behind a sign. -/
theorem alignText_eq {align : Align} (h : align ≠ .afterSign) (fill : Char) (width : Nat)
    (text : String) : alignText fill align width text =
      String.ofList (padded fill (width - text.length) text.toList align) := by
  cases align with
  | afterSign => exact absurd rfl h
  | left | right | center =>
    simp [alignText, leftPadding, repeated, padded, String.ofList_append, String.append_assoc]

theorem alignText_zero (fill : Char) (align : Align) (text : String) :
    alignText fill align 0 text = text := by
  cases align <;> simp [alignText, leftPadding, repeated]

theorem renderText_eq (spec : FormatSpec) (text : String) :
    spec.renderText text = spec.fieldText false ({ spec with width := none }.renderText text) := by
  have hfill : spec.fill.getD ' ' = spec.filling false := by simp [filling]
  have hplace (text : String) :
      alignText (spec.fill.getD ' ') (spec.align.getD .left) (spec.width.getD 0) text =
        spec.fieldText false text := by
    have hstand : alignText (spec.filling false) (spec.align.getD .left) (spec.width.getD 0) text =
        alignText (spec.filling false) (spec.placement false) (spec.width.getD 0) text := by
      unfold placement
      rcases spec.align with _ | _ | _ | _ | _ <;> rfl
    have hbehind : spec.placement false ≠ .afterSign := by
      unfold placement
      rcases spec.align with _ | _ | _ | _ | _ <;> simp
    rw [hfill, hstand, alignText_eq hbehind, fieldText]
  simp only [renderText, Option.getD_none, alignText_zero, hplace]

/-! ## Texts without signs -/

/-- A text that does not start with a sign. -/
def Unsigned (text : String) : Prop := text.toList.head?.any isSign = false

instance : DecidablePred Unsigned := fun text =>
  inferInstanceAs (Decidable (text.toList.head?.any isSign = false))

namespace Unsigned

variable {text rest : String}

theorem append (h : Unsigned text) (hrest : Unsigned rest) : Unsigned (text ++ rest) := by
  unfold Unsigned at *
  cases htext : text.toList with
  | nil => simpa [htext] using hrest
  | cons c _ => simpa [htext] using h

/-- The start of a text may be empty. -/
theorem of_start {start : List Char} (h : Unsigned text) (hstart : start <+: text.toList) :
    Unsigned (String.ofList start) := by
  unfold Unsigned at *
  obtain ⟨rest, hrest⟩ := hstart
  cases start with
  | nil => simp
  | cons c _ => simpa [← hrest] using h

theorem ofList {text : List Char} (h : ∀ c ∈ text, isSign c = false) :
    Unsigned (String.ofList text) := by
  unfold Unsigned
  cases text with
  | nil => simp
  | cons c _ => simpa using h c (List.mem_cons_self ..)

end Unsigned

/-- Each digit is that of a number below the base. -/
theorem mem_toDigits {base n : Nat} {c : Char} (hbase : 1 < base) (h : c ∈ Nat.toDigits base n) :
    ∃ d < base, c = Nat.digitChar d := by
  induction n using Nat.strongRecOn with
  | ind n ih =>
    rw [Nat.toDigits_eq_if hbase] at h
    by_cases hn : n < base
    · rw [if_pos hn, List.mem_singleton] at h
      exact ⟨n, hn, h⟩
    · rw [if_neg hn, List.mem_append, List.mem_singleton] at h
      rcases h with h | h
      · exact ih (n / base) (Nat.div_lt_self (by omega) hbase) h
      · exact ⟨n % base, Nat.mod_lt _ (by omega), h⟩

theorem isSign_digitChar : ∀ d < 16, isSign (Nat.digitChar d) = false ∧
    isSign (Nat.digitChar d).toUpper = false := by decide

theorem unsigned_toDigits {base : Nat} (hbase : 1 < base) (hle : base ≤ 16) (n : Nat) :
    Unsigned (String.ofList (Nat.toDigits base n)) := by
  refine .ofList fun c hc => ?_
  obtain ⟨d, hd, rfl⟩ := mem_toDigits hbase hc
  exact (isSign_digitChar d (by omega)).1

theorem unsigned_digitText (n : Nat) : Unsigned (digitText n) :=
  unsigned_toDigits (by decide) (by decide) n

theorem unsigned_zeros (n : Nat) : Unsigned (zeros n) := by
  refine .ofList fun c hc => ?_
  rw [List.eq_of_mem_replicate hc]
  rfl

theorem unsigned_withPlaces (digits places : Nat) : Unsigned (withPlaces digits places) := by
  have hpoint : Unsigned "." := by decide
  unfold withPlaces digitTextAtLeast
  split
  · exact unsigned_digitText _
  · exact ((unsigned_digitText _).append hpoint).append
      ((unsigned_zeros _).append (unsigned_digitText _))

theorem unsigned_fixed (x : Binary64) (places : Nat) : Unsigned (fixed x places) := by
  unfold fixed
  dsimp only
  split
  · exact unsigned_withPlaces _ _
  · exact (unsigned_withPlaces _ _).append (unsigned_zeros _)

theorem unsigned_significant (x : Binary64) (places : Nat) : Unsigned (significant x places).1 := by
  have hpad (digits shown : Nat) :
      Unsigned (if places ≤ shown then withPlaces digits shown
        else withPlaces digits shown ++ zeros (places - shown)) := by
    split
    · exact unsigned_withPlaces _ _
    · exact (unsigned_withPlaces _ _).append (unsigned_zeros _)
  unfold significant
  dsimp only
  split
  · exact hpad _ _
  -- a rounding carry moves the exponent
  · split <;> exact hpad _ _

/-- The sign of an exponent stands behind its mark, even if there is no mantissa. -/
theorem unsigned_scientific {mantissa : String} (h : Unsigned mantissa) (upper : Bool)
    (exponent : String) : Unsigned (mantissa ++ exponentMark upper ++ exponent) := by
  rw [String.append_assoc]
  refine h.append ?_
  cases upper <;> simp [Unsigned, exponentMark, isSign]

theorem unsigned_magnitudeText (x : Binary64) : Unsigned (magnitudeText x) := by
  unfold magnitudeText
  split
  · exact unsigned_scientific (unsigned_withPlaces _ _) false _
  · split
    · exact unsigned_fixed _ _
    · unfold Scaled.positional
      split
      · exact unsigned_digitText _
      · exact unsigned_withPlaces _ _

theorem unsigned_floatText {x : Binary64} (h : x.isNegative = false) : Unsigned (floatText x) := by
  unfold floatText
  split
  · decide
  · simp only [h, Bool.false_eq_true, if_false, String.empty_append]
    split
    · decide
    · exact unsigned_magnitudeText x

theorem head?_grouped (separator : Char) (digits : List Char) :
    (grouped separator digits).head? = digits.head? := by
  cases digits with
  | nil => rfl
  | cons c rest =>
    rw [grouped]
    split <;> rfl

theorem unsigned_groupLeading {text : String} (h : Unsigned text) (separator : Option Char) :
    Unsigned (groupLeading separator text) := by
  cases separator with
  | none => exact h
  | some separator =>
    unfold Unsigned groupLeading
    simp only [String.toList_ofList]
    rwa [List.head?_append, head?_grouped, ← List.head?_append, List.takeWhile_append_dropWhile]

theorem unsigned_withoutTrailingZeros {text : String} (h : Unsigned text) :
    Unsigned (withoutTrailingZeros text) := by
  unfold withoutTrailingZeros
  split
  · have hsuffix := ((text.toList.reverse.dropWhile (· = '0')).dropWhile_suffix (· = '.')).trans
      (text.toList.reverse.dropWhile_suffix (· = '0'))
    exact h.of_start (by simpa using hsuffix.reverse)
  · exact h

theorem unsigned_generalText (spec : FormatSpec) (x : Binary64) (precision : Nat) (upper : Bool) :
    Unsigned (spec.generalText x precision upper) := by
  have htrim {text : String} (h : Unsigned text) :
      Unsigned ((if spec.alternate then id else withoutTrailingZeros) text) := by
    split
    · exact h
    · exact unsigned_withoutTrailingZeros h
  unfold generalText
  dsimp only
  split
  · exact htrim (unsigned_groupLeading (unsigned_fixed _ _) _)
  · exact unsigned_scientific (htrim (unsigned_significant _ _)) upper _

theorem unsigned_percentText (spec : FormatSpec) (x : Binary64) : Unsigned (spec.percentText x) := by
  unfold percentText
  refine .append ?_ (by decide)
  split
  · exact unsigned_groupLeading (unsigned_fixed _ _) _
  · decide

theorem unsigned_finiteText (spec : FormatSpec) (x : Binary64) :
    Unsigned (spec.finiteText x.abs) := by
  unfold finiteText
  dsimp only
  split
  · exact unsigned_groupLeading (unsigned_fixed _ _) _
  · exact unsigned_groupLeading (unsigned_fixed _ _) _
  · exact unsigned_scientific (unsigned_significant _ _) _ _
  · exact unsigned_scientific (unsigned_significant _ _) _ _
  · exact unsigned_generalText spec _ _ _
  · exact unsigned_generalText spec _ _ _
  · exact unsigned_percentText spec _
  · split
    · exact unsigned_generalText spec _ _ _
    · exact unsigned_groupLeading (unsigned_floatText x.isNegative_abs) _

theorem unsigned_nonFiniteText (spec : FormatSpec) (x : Binary64) :
    Unsigned (spec.nonFiniteText x) := by
  have hword : Unsigned (if x.isNaN then if isUpper spec.code then "NAN" else "nan"
      else if isUpper spec.code then "INF" else "inf") := by
    cases x.isNaN <;> cases isUpper spec.code <;> decide
  unfold nonFiniteText
  dsimp only
  split
  · exact hword.append (by decide)
  · exact hword

theorem unsigned_basedDigits (spec : FormatSpec) (magnitude : Nat) :
    Unsigned (spec.basedDigits magnitude).1 ∧ Unsigned (spec.basedDigits magnitude).2 := by
  have hdigits {base : Nat} (hbase : 1 < base) (hle : base ≤ 16) :
      Unsigned (digitsIn base magnitude) := unsigned_toDigits hbase hle magnitude
  unfold basedDigits
  split
  · exact ⟨(by decide : Unsigned "0b"), hdigits (by decide) (by decide)⟩
  · exact ⟨(by decide : Unsigned "0o"), hdigits (by decide) (by decide)⟩
  · exact ⟨(by decide : Unsigned "0x"), hdigits (by decide) (by decide)⟩
  · refine ⟨(by decide : Unsigned "0X"), .ofList fun c hc => ?_⟩
    obtain ⟨d, hd, rfl⟩ := List.mem_map.1 hc
    obtain ⟨d, hlt, rfl⟩ := mem_toDigits (by decide) hd
    exact (isSign_digitChar d hlt).2
  · exact ⟨(by decide : Unsigned ""), unsigned_groupLeading (unsigned_digitText _) _⟩

/-! ## Values in fields -/

/-- Padding with zeros is a fill and an alignment that only numbers have. -/
theorem placement_number (spec : FormatSpec) : spec.placement true =
    if spec.zeroPad && spec.fill.isNone && spec.align.isNone then .afterSign
    else spec.align.getD .right := by
  unfold placement
  rcases spec.align with _ | _ | _ | _ | _ <;> simp

theorem filling_number (spec : FormatSpec) : spec.filling true =
    if spec.zeroPad && spec.fill.isNone && spec.align.isNone then '0' else spec.fill.getD ' ' := by
  unfold filling
  cases spec.fill <;> simp

/-- The sign of a number in a field can be found in the number itself. -/
theorem padNumber_eq (spec : FormatSpec) {sign body : String}
    (hsign : ∀ c ∈ sign.toList, isSign c = true) (hbody : Unsigned body) :
    spec.padNumber sign body =
      spec.fieldText true ({ spec with width := none }.padNumber sign body) := by
  have hbare : { spec with width := none }.padNumber sign body = sign ++ body := by
    simp [padNumber, alignText_zero, repeated]
  have hstart : body.toList.takeWhile isSign = [] ∧ body.toList.dropWhile isSign = body.toList := by
    unfold Unsigned at hbody
    cases hc : body.toList with
    | nil => simp
    | cons c _ => simp_all
  rw [hbare, padNumber, ← placement_number, ← filling_number, fieldText]
  split
  · rename_i hplace
    rw [hplace, padded, String.toList_append, List.takeWhile_append_of_pos hsign,
      List.dropWhile_append_of_pos hsign, hstart.1, hstart.2]
    simp [repeated, String.ofList_append, String.append_assoc]
  · rename_i hplace
    exact alignText_eq hplace ..

theorem isSign_signText (spec : FormatSpec) (negative : Bool) :
    ∀ c ∈ (spec.signText negative).toList, isSign c = true := by
  unfold signText
  split
  · simp [isSign]
  · split <;> simp [isSign]

theorem renderFloat_eq (spec : FormatSpec) (x : Binary64) :
    spec.renderFloat x = spec.fieldText true ({ spec with width := none }.renderFloat x) := by
  refine padNumber_eq spec (isSign_signText spec _) ?_
  split
  · exact unsigned_finiteText spec x
  · exact unsigned_nonFiniteText spec x

theorem renderInt_eq (spec : FormatSpec) (n : Int64) :
    spec.renderInt n = ({ spec with width := none }.renderInt n).map (spec.fieldText true) := by
  obtain ⟨hbase, hdigits⟩ := spec.unsigned_basedDigits n.toInt.natAbs
  unfold renderInt
  by_cases hprecision : spec.precision.isSome
  · rw [if_pos hprecision, if_pos hprecision]
    rfl
  · rw [if_neg hprecision, if_neg hprecision]
    refine congrArg Except.ok (padNumber_eq spec (isSign_signText spec _) ?_)
    split
    · exact hbase.append hdigits
    · exact hdigits

/-! ### Which writer a value is given to -/

section

variable {spec : FormatSpec} {limits : SizeLimits} {s : Store} {value : Value} {n : Int64}

theorem render_float (spec : FormatSpec) (limits : SizeLimits) (s : Store) (x : Binary64) :
    spec.render limits s (.float x) =
      if spec.code.any ("sdboxX".toList.contains ·) then
        .error (.unknownCodeFor (spec.code.getD 's') (.float x))
      else .ok (spec.renderFloat x) := by
  cases hcode : spec.code <;> simp [render, hcode]

theorem render_int (h : value.toInt? = some n) : spec.render limits s value =
    if spec.code = some 's' then .error (.unknownCodeFor 's' value)
    else if spec.code.all ("dboxX".toList.contains ·) then spec.renderInt n
    else .ok (spec.renderFloat (.ofInt n.toInt)) := by
  unfold render
  split
  case h_6 =>
    rw [h]
    split <;> simp_all
  all_goals cases h

theorem render_str (spec : FormatSpec) (limits : SizeLimits) (s : Store) (text : String) :
    spec.render limits s (.str text) =
      if spec.code.all (· = 's') then spec.checkForString.map fun _ => spec.renderText text
      else .error (.unknownCodeFor (spec.code.getD 's') (.str text)) := by
  have hchecked : (spec.checkForString >>= fun _ => .ok (spec.renderText text)) =
      spec.checkForString.map fun _ => spec.renderText text := by
    cases spec.checkForString <;> rfl
  cases hcode : spec.code with
  | none => simpa [render, hcode] using hchecked
  | some c =>
    by_cases hs : c = 's'
    · simpa [render, hcode, hs] using hchecked
    · simp [render, hcode, hs]

theorem render_other (hnumber : value.toNumber? = none) (hstr : value.toStr? = none) :
    spec.render limits s value =
      if spec.code.all (· = 's') then (s.text limits.maxStringLength value).map spec.renderText
      else .error (.unknownCodeFor (spec.code.getD 's') value) := by
  have hint : value.toInt? = none := by cases value <;> first | rfl | cases hnumber
  unfold render
  split
  case h_6 =>
    rw [hint]
    split <;> simp_all
  all_goals simp_all [Value.toNumber?, Value.toStr?]

end

/-- A value is put into its field after it has been written without the field. -/
theorem render_eq (spec : FormatSpec) (limits : SizeLimits) (s : Store) (value : Value) :
    spec.render limits s value = ({ spec with width := none }.render limits s value).map
      (spec.fieldText value.toNumber?.isSome) := by
  have htext (x : Except Error String) : x.map spec.renderText =
      (x.map { spec with width := none }.renderText).map (spec.fieldText false) := by
    cases x with
    | error _ => rfl
    | ok text => exact congrArg Except.ok (renderText_eq spec text)
  -- by how a value is written: as a text, as anything else, as an integer, as a double
  cases hnumber : value.toNumber? with
  | none =>
    cases hstr : value.toStr? with
    | some text =>
      obtain rfl : value = .str text := by cases value <;> simp_all [Value.toStr?]
      rw [render_str, render_str]
      split
      · show spec.checkForString.map _ =
          (spec.checkForString.map fun _ => { spec with width := none }.renderText text).map _
        cases spec.checkForString with
        | error _ => rfl
        | ok _ => exact htext (.ok text)
      · rfl
    | none =>
      rw [render_other hnumber hstr, render_other hnumber hstr]
      split
      · exact htext _
      · rfl
  | some number =>
    have hfloat (x : Binary64) : (.ok (spec.renderFloat x) : Except Error String) = _ :=
      congrArg Except.ok (renderFloat_eq spec x)
    cases hint : value.toInt? with
    | some n =>
      rw [render_int hint, render_int hint]
      split
      · rfl
      · split
        · exact renderInt_eq spec n
        · exact hfloat _
    | none =>
      obtain ⟨x, rfl⟩ : ∃ x, value = .float x := by
        cases value <;> simp_all [Value.toNumber?, Value.toInt?]
      rw [render_float, render_float]
      split
      · rfl
      · exact hfloat x

/-! ### Formats -/

theorem checkString_bind {limits : SizeLimits} {size : Nat} {next : Except Error String}
    {result : String} : (limits.checkString size >>= fun _ => next) = .ok result ↔
      size ≤ limits.maxStringLength ∧ next = .ok result := by
  by_cases hfits : size ≤ limits.maxStringLength
  · simp [SizeLimits.checkString_of_le hfits, hfits, bind, Except.bind]
  · simp [SizeLimits.checkString_of_lt (Nat.not_le.1 hfits), hfits, bind, Except.bind]

/-- A value is written as a specification asks if the specification is one, its numbers are within the
quota of strings, and the value can be written so. -/
theorem format_eq_ok_iff {limits : SizeLimits} {s : Store} {value : Value} {text result : String}
    (hne : text ≠ "") : format limits s value text = .ok result ↔
      ∃ spec, parse text = .ok spec ∧ spec.width.getD 0 ≤ limits.maxStringLength ∧
        spec.precision.getD 0 ≤ limits.maxStringLength ∧
        spec.render limits s value = .ok result := by
  rw [format, if_neg (by simpa using hne)]
  cases hparse : parse text with
  | error e => simp [bind, Except.bind]
  | ok spec =>
    have hchecks : (limits.checkString (spec.width.getD 0) >>= fun _ =>
        limits.checkString (spec.precision.getD 0) >>= fun _ => spec.render limits s value) =
          .ok result ↔ _ := checkString_bind.trans (and_congr_right fun _ => checkString_bind)
    exact hchecks.trans (by simp)

/-- Where a specification has a width, a value is written as without the width, but is at least as long as
the width is. What is no shorter than the width stays as it is; in the field of a shorter text there are as
many fill characters as it lacks, where the placement of the value puts them. -/
theorem format_in_field {limits : SizeLimits} {s : Store} {value : Value} {text result : String}
    (hne : text ≠ "") (h : format limits s value text = .ok result) :
    ∃ spec bare, parse text = .ok spec ∧
      { spec with width := none }.render limits s value = .ok bare ∧
      ∀ w, spec.width = some w →
        result.length = max w bare.length ∧
        (w ≤ bare.length → result = bare) ∧
        (bare.length < w → result.toList =
          padded (spec.filling value.toNumber?.isSome) (w - bare.length) bare.toList
            (spec.placement value.toNumber?.isSome)) := by
  obtain ⟨spec, hparse, -, -, hrender⟩ := (format_eq_ok_iff hne).1 h
  rw [render_eq] at hrender
  cases hbare : { spec with width := none }.render limits s value with
  | error e =>
    rw [hbare] at hrender
    cases hrender
  | ok bare =>
    rw [hbare] at hrender
    -- a specification differs from the one without a width by the field only
    obtain rfl : spec.fieldText value.toNumber?.isSome bare = result := Except.ok.inj hrender
    refine ⟨spec, bare, hparse, hbare, fun w hw => ⟨?_, fun hfull => ?_, fun hroom => ?_⟩⟩
    · rw [fieldText, String.length_ofList, length_padded, hw, Option.getD_some, String.length_toList]
      omega
    · rw [fieldText, hw, Option.getD_some, Nat.sub_eq_zero_of_le hfull, padded_zero,
        String.ofList_toList]
    · rw [fieldText, hw, Option.getD_some, String.toList_ofList]

/-- Hexadecimal digits behind their prefix in a field with a fill of two bytes. -/
def filledHex : FormatSpec where
  fill := some 'é'
  align := some .afterSign
  sign := none
  alternate := true
  zeroPad := false
  width := some 9
  grouping := none
  precision := none
  code := some 'x'

/-- The fill of a negative number stands between its sign and the prefix of the base, and its characters
are counted. -/
theorem filled_behind_sign : "é=#9x" ≠ "" ∧
    format Limits.standard.size Store.empty (.int (-255)) "é=#9x" = .ok "-éééé0xff" ∧
    parse "é=#9x" = .ok filledHex ∧ "-éééé0xff".length = max 9 "-0xff".length ∧
    "-éééé0xff".toList =
      padded (filledHex.filling true) 4 "-0xff".toList (filledHex.placement true) := by
  have hwell : filledHex.WellFormed := by
    refine ⟨fun _ => rfl, nofun, nofun, ?_⟩
    rintro c ⟨⟩
    decide
  -- the text is what is written for this specification
  have hparse : parse "é=#9x" = .ok filledHex :=
    parse_written hwell (⟨0, 9, by decide, by decide⟩ : Spelled (some 9) ['9'])
      (rfl : Spelled none []) nofun rfl
  have hrender : filledHex.render Limits.standard.size Store.empty (.int (-255)) =
      .ok "-éééé0xff" := by
    rw [render_int rfl]
    rfl
  have hformat : format Limits.standard.size Store.empty (.int (-255)) "é=#9x" = .ok "-éééé0xff" :=
    (format_eq_ok_iff (by decide)).2 ⟨filledHex, hparse, by decide, by decide, hrender⟩
  obtain ⟨spec, bare, hspec, hbare, hfield⟩ := format_in_field (by decide) hformat
  obtain rfl := Except.ok.inj (hparse.symm.trans hspec)
  rw [render_int rfl] at hbare
  obtain rfl : "-0xff" = bare := Except.ok.inj hbare
  obtain ⟨hlength, -, hpadded⟩ := hfield 9 rfl
  exact ⟨by decide, hformat, hparse, hlength, hpadded (by decide)⟩

end FormatSpec

end ScriptSandbox

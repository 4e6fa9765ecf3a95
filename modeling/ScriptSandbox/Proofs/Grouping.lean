import ScriptSandbox.FormatSpec.Render
import ScriptSandbox.Proofs.Numeral

/-!
# Digits in groups

Whether a separator stands behind a digit is decided by how many digits follow, so the groups are
counted from the end: all have three digits, and what is left over for the first one is one to three
digits (`Grouped`). There is one way of putting separators like this (`grouped_iff`). A text is grouped
up to its first character that is no digit (`groupLeading_parts`).
-/

namespace ScriptSandbox.FormatSpec

/-- The text is the digits with a separator before each group of three but the first, which has one to
three digits. -/
def Grouped (separator : Char) (digits text : List Char) : Prop :=
  ∃ (first : List Char) (groups : List (List Char)),
    digits = first ++ groups.flatten ∧ text = first ++ groups.flatMap (separator :: ·) ∧
    1 ≤ first.length ∧ first.length ≤ 3 ∧ ∀ group ∈ groups, group.length = 3

variable {separator : Char} {digits text : List Char}

/-- The first group has what the groups of three leave over. -/
theorem length_mod_three {first : List Char} {groups : List (List Char)}
    (h : ∀ group ∈ groups, group.length = 3) :
    (first ++ groups.flatten).length % 3 = first.length % 3 := by
  induction groups generalizing first with
  | nil => simp
  | cons group rest ih =>
    obtain ⟨hgroup, hrest⟩ := List.forall_mem_cons.1 h
    rw [List.flatten_cons, ← List.append_assoc, ih hrest, List.length_append, hgroup,
      Nat.add_mod_right]

theorem grouped_cons (c : Char) (rest : List Char) :
    grouped separator (c :: rest) =
      if rest ≠ [] ∧ rest.length % 3 = 0 then c :: separator :: grouped separator rest
      else c :: grouped separator rest := by
  rw [grouped]
  cases rest <;> simp

theorem grouped_grouped (h : digits ≠ []) : Grouped separator digits (grouped separator digits) := by
  induction digits with
  | nil => exact absurd rfl h
  | cons c rest ih =>
    rw [grouped_cons]
    by_cases hrest : rest = []
    · subst hrest
      exact ⟨[c], [], by simp [grouped]⟩
    obtain ⟨first, groups, hdigits, htext, hpos, hle, hgroups⟩ := ih hrest
    have hlength : rest.length % 3 = first.length % 3 := by rw [hdigits, length_mod_three hgroups]
    split
    · -- the groups behind the digit are whole, so it is a first group of its own
      have hfirst : first.length = 3 := by omega
      exact ⟨[c], first :: groups, by simp [hdigits], by simp [htext], by simp, by simp, by
        simpa [hfirst] using hgroups⟩
    · have hfirst : first.length ≠ 3 := fun h3 => by
        rename_i hnot
        exact hnot ⟨hrest, by rw [hlength, h3]⟩
      exact ⟨c :: first, groups, by simp [hdigits], by simp [htext], by simp, by
        simp only [List.length_cons]; omega, hgroups⟩

/-- What stands behind the first digit: nothing, or groups of three behind a separator, or the rest of
the first group and what is behind it. -/
theorem Grouped.behind {c : Char} {rest : List Char} (h : Grouped separator (c :: rest) text) :
    (rest = [] ∧ text = [c]) ∨
    (∃ behind, text = c :: separator :: behind ∧ rest ≠ [] ∧ rest.length % 3 = 0 ∧
      Grouped separator rest behind) ∨
    (∃ behind, text = c :: behind ∧ rest.length % 3 ≠ 0 ∧ Grouped separator rest behind) := by
  obtain ⟨first, groups, hdigits, rfl, hpos, hle, hgroups⟩ := h
  obtain _ | ⟨d, tail⟩ := first
  · exact absurd hpos (by simp)
  obtain ⟨rfl, rfl⟩ := List.cons_eq_cons.1 hdigits
  -- the groups behind the first one are whole, so the remainder is that of the first
  have hmod : (tail ++ groups.flatten).length % 3 = tail.length % 3 := length_mod_three hgroups
  cases tail with
  | cons d tail =>
    have hover : (d :: tail ++ groups.flatten).length % 3 ≠ 0 := by
      simp only [hmod, List.length_cons] at hle ⊢
      omega
    exact .inr (.inr ⟨_, rfl, hover, d :: tail, groups, rfl, rfl, by simp, Nat.le_of_succ_le hle,
      hgroups⟩)
  | nil =>
    cases groups with
    | nil => exact .inl ⟨rfl, rfl⟩
    | cons group groups =>
      obtain ⟨hgroup, hrest⟩ := List.forall_mem_cons.1 hgroups
      have hne : group ≠ [] := List.ne_nil_of_length_pos (by omega)
      exact .inr (.inl ⟨_, by simp, by simp [hne], hmod, group, groups, by simp, rfl, by omega,
        by omega, hrest⟩)

theorem Grouped.eq_grouped (h : Grouped separator digits text) : text = grouped separator digits := by
  induction digits generalizing text with
  | nil =>
    obtain ⟨first, groups, hdigits, -, hpos, -⟩ := h
    rw [(List.append_eq_nil_iff.1 hdigits.symm).1] at hpos
    exact absurd hpos (by simp)
  | cons c rest ih =>
    rw [grouped_cons]
    obtain ⟨rfl, rfl⟩ | ⟨behind, rfl, hne, hmod, hrest⟩ | ⟨behind, rfl, hmod, hrest⟩ := h.behind
    · simp [grouped]
    · rw [if_pos ⟨hne, hmod⟩, ih hrest]
    · rw [if_neg fun hand => hmod hand.2, ih hrest]

/-- There is one way of grouping digits. -/
theorem grouped_iff (h : digits ≠ []) :
    Grouped separator digits text ↔ text = grouped separator digits :=
  ⟨Grouped.eq_grouped, fun heq => heq ▸ grouped_grouped h⟩

/-- A text is written in two parts, its leading digits in groups and the rest as it is. -/
theorem groupLeading_parts (separator : Char) (text : String) :
    ∃ lead rest : List Char, text.toList = lead ++ rest ∧ (∀ c ∈ lead, Decimal.isDigit c = true) ∧
      (∀ c ∈ rest.head?, Decimal.isDigit c = false) ∧
      (groupLeading (some separator) text).toList = grouped separator lead ++ rest := by
  have hrest := List.head?_dropWhile_not Decimal.isDigit text.toList
  refine ⟨_, _, List.takeWhile_append_dropWhile.symm, fun c hc => List.mem_takeWhile_imp hc,
    fun c hc => ?_, by rw [groupLeading, String.toList_ofList]⟩
  rwa [Option.mem_def.1 hc] at hrest

theorem filter_of_digits (hseparator : Decimal.isDigit separator = false)
    (hdigits : ∀ c ∈ digits, Decimal.isDigit c = true) :
    (grouped separator digits).filter (· ≠ separator) = digits := by
  refine filter_grouped fun c hc heq => ?_
  rw [← heq, hdigits c hc] at hseparator
  cases hseparator

/-- Digits are grouped by a separator that is no digit so that without the separators they are as
before: behind a first group of one to three digits each group has three, and no other text is so. In
any text this is what happens to the leading digits, and from the first other character on the text
stays as it is. -/
theorem digit_grouping {separator : Char} (hseparator : Decimal.isDigit separator = false) :
    (∀ digits, digits ≠ [] → (∀ c ∈ digits, Decimal.isDigit c = true) →
      (∀ text, Grouped separator digits text ↔ text = grouped separator digits) ∧
      (grouped separator digits).filter (· ≠ separator) = digits) ∧
    ∀ text : String, ∃ lead rest written : List Char, text.toList = lead ++ rest ∧
      (∀ c ∈ lead, Decimal.isDigit c = true) ∧ (∀ c ∈ rest.head?, Decimal.isDigit c = false) ∧
      (groupLeading (some separator) text).toList = written ++ rest ∧
      written.filter (· ≠ separator) = lead ∧
      (lead = [] ∧ written = [] ∨ lead ≠ [] ∧ Grouped separator lead written) := by
  refine ⟨fun digits hne hdigits => ⟨fun text => grouped_iff hne, ?_⟩, fun text => ?_⟩
  · exact filter_of_digits hseparator hdigits
  · obtain ⟨lead, rest, htext, hlead, hrest, hwritten⟩ := groupLeading_parts separator text
    refine ⟨lead, rest, _, htext, hlead, hrest, hwritten, filter_of_digits hseparator hlead, ?_⟩
    by_cases hempty : lead = []
    · exact .inl ⟨hempty, by rw [hempty, grouped]⟩
    · exact .inr ⟨hempty, grouped_grouped hempty⟩

/-- Seven digits before a point make three groups, and the digits behind it none. -/
theorem millions_grouped : Decimal.isDigit ',' = false ∧
    Grouped ',' "1234567".toList "1,234,567".toList ∧
    ("1,234,567".toList.filter (· ≠ ',')) = "1234567".toList ∧
    (groupLeading (some ',') "1234567.8901").toList = "1,234,567.8901".toList := by
  have hcomma : Decimal.isDigit ',' = false := by decide
  have hdigits : ∀ c ∈ "1234567".toList, Decimal.isDigit c = true := List.all_eq_true.1 (by decide)
  obtain ⟨hgrouped, hfilter⟩ := (digit_grouping hcomma).1 _ (by decide) hdigits
  have hwritten : "1,234,567".toList = grouped ',' "1234567".toList := by decide
  exact ⟨hcomma, (hgrouped _).2 hwritten, by rw [hwritten, hfilter], by decide⟩

end ScriptSandbox.FormatSpec

import Mathlib.Data.List.Basic
import ScriptSandbox.Text.Search

/-!
# Cutting at occurrences

A text is cut at the first occurrence of a separator, and what stands behind it likewise, until there is
no occurrence left or as many cuts are made as are allowed (`Parts`). That is how texts are split
(`splitOn_parts`). Joined with the separator, the parts are the text again (`Parts.intercalate`). Cutting
without a limit leaves no occurrence (`Parts.not_occurs`), makes as many cuts as occurrences are counted
(`Parts.length_eq`), and no other way to cut the text makes more parts, though occurrences may overlap
(`Parts.length_le`).
-/

namespace ScriptSandbox.Text

/-- A text has another one in it. -/
def Occurs (needle text : String) : Prop := ∃ before after, text = before ++ needle ++ after

/-- What stands before and behind a needle whose occurrence between them is the first one. -/
def First (needle before after : String) : Prop :=
  ∀ before' after', before ++ needle ++ after = before' ++ needle ++ after' →
    before.length ≤ before'.length

/-- The parts of a text that is cut at the first occurrence of a separator, then at the first one behind
it, and so on, at most `limit` times when a limit is given. -/
inductive Parts (separator : String) : Option Nat → String → List String → Prop where
  | whole {limit : Option Nat} {text : String} : limit = some 0 ∨ ¬ Occurs separator text →
    Parts separator limit text [text]
  | cut {limit : Option Nat} {text before after : String} {parts : List String} :
    limit ≠ some 0 → text = before ++ separator ++ after → First separator before after →
    Parts separator (limit.map (· - 1)) after parts → Parts separator limit text (before :: parts)

section Occurrences

variable {separator needle text before after before' after' : String} {limit : Option Nat}
  {parts pieces : List String}

theorem occurs_iff : Occurs needle text ↔ needle.toList <:+: text.toList := by
  constructor
  · rintro ⟨before, after, rfl⟩
    exact ⟨before.toList, after.toList, by simp⟩
  · rintro ⟨before, after, h⟩
    exact ⟨String.ofList before, String.ofList after, String.toList_inj.1 (by simp [← h])⟩

/-- The empty text is in every text. -/
theorem occurs_empty (text : String) : Occurs "" text := ⟨"", text, by simp⟩

/-- Only one occurrence is the first. -/
theorem First.unique (h : First needle before after) (h' : First needle before' after')
    (heq : before ++ needle ++ after = before' ++ needle ++ after') :
    before = before' ∧ after = after' := by
  have hlength : before.toList.length = before'.toList.length := by
    rw [String.length_toList, String.length_toList]
    exact Nat.le_antisymm (h _ _ heq) (h' _ _ heq.symm)
  have hlists := congrArg String.toList heq
  simp only [String.toList_append, List.append_assoc] at hlists
  obtain ⟨hbefore, hrest⟩ := List.append_inj hlists hlength
  exact ⟨String.toList_inj.1 hbefore, String.toList_inj.1 (List.append_cancel_left hrest)⟩

/-- No occurrence lies before the first one. -/
theorem First.not_occurs (h : First needle before after) (hne : needle ≠ "") :
    ¬ Occurs needle before := by
  rintro ⟨start, rest, rfl⟩
  have hle := h start (rest ++ needle ++ after) (by simp [String.append_assoc])
  have hpos : 0 < needle.length := Nat.pos_of_ne_zero (by simpa using hne)
  simp only [String.length_append] at hle
  omega

theorem cut?_eq_some (hne : needle ≠ "") {text before after : String.Slice}
    (h : cut? needle text = some (before, after)) :
    text.copy = before.copy ++ needle ++ after.copy ∧ First needle before.copy after.copy := by
  obtain ⟨hcopy, hfirst⟩ := copy_eq_of_cut? hne h
  exact ⟨hcopy, fun t₁ t₂ heq => hfirst t₁ t₂ (hcopy.trans heq)⟩

/-- Splitting cuts at the first occurrence, again and again. -/
theorem splitFrom_parts (hne : separator ≠ "") (limit : Option Nat) (found : List String.Slice)
    (text : String.Slice) : ∃ parts, Parts separator limit text.copy parts ∧
      (splitFrom separator hne limit found text).map String.Slice.copy =
        found.reverse.map String.Slice.copy ++ parts := by
  fun_induction splitFrom separator hne limit found text with
  | case1 found text => exact ⟨[text.copy], .whole (.inl rfl), by simp⟩
  | case2 limit found text hlimit hnone =>
    have hnot : ¬ Occurs separator text.copy := by rwa [occurs_iff, ← cut?_eq_none_iff]
    exact ⟨[text.copy], .whole (.inr hnot), by simp⟩
  | case3 limit found text hlimit before after hcut ih =>
    obtain ⟨parts, hparts, hsplit⟩ := ih
    obtain ⟨hcopy, hfirst⟩ := cut?_eq_some hne hcut
    exact ⟨before.copy :: parts, .cut hlimit hcopy hfirst hparts, by simp [hsplit]⟩

theorem splitOn_parts (hne : separator ≠ "") (limit : Option Nat) (text : String) :
    Parts separator limit text ((splitOn separator hne limit text).map String.Slice.copy) := by
  obtain ⟨parts, hparts, hsplit⟩ := splitFrom_parts hne limit [] text.toSlice
  rw [splitOn, hsplit]
  simpa using hparts

namespace Parts

theorem ne_nil (h : Parts separator limit text parts) : parts ≠ [] := by
  cases h <;> simp

theorem intercalate (h : Parts separator limit text parts) :
    String.intercalate separator parts = text := by
  induction h with
  | whole => simp
  | cut hlimit htext hfirst hparts ih =>
    rw [String.intercalate_cons_of_ne_nil hparts.ne_nil, ih, htext]

/-- Up to as many cuts as are allowed are those that are made without a limit. -/
theorem length_of_limit {k : Nat} (hall : Parts separator none text pieces)
    (h : Parts separator (some k) text parts) : parts.length = 1 + min k (pieces.length - 1) := by
  generalize hlimit : some k = limit at h
  induction h generalizing k pieces with
  | whole hwhole =>
    subst hlimit
    rcases hwhole with hzero | hnot
    · simp_all
    · cases hall with
      | whole => simp
      | cut _ htext => exact absurd ⟨_, _, htext⟩ hnot
  | cut hcut htext hfirst hparts ih =>
    subst hlimit
    cases hall with
    | whole hwhole => exact absurd ⟨_, _, htext⟩ (hwhole.resolve_left (by simp))
    | cut _ htext' hfirst' hpieces =>
      obtain ⟨rfl, rfl⟩ := hfirst.unique hfirst' (htext.symm.trans htext')
      have hlength := ih (k := k - 1) hpieces rfl
      have hpos := List.length_pos_iff.2 hpieces.ne_nil
      have hk : k ≠ 0 := fun h => hcut (congrArg some h)
      simp only [List.length_cons]
      omega

/-- Where all cuts are allowed, no part has the separator in it. -/
theorem not_occurs (h : Parts separator none text parts) (hne : separator ≠ "") :
    ∀ part ∈ parts, ¬ Occurs separator part := by
  generalize hlimit : none = limit at h
  induction h with
  | whole hwhole =>
    subst hlimit
    simpa using hwhole
  | cut hcut htext hfirst hparts ih =>
    subst hlimit
    exact List.forall_mem_cons.2 ⟨hfirst.not_occurs hne, ih rfl⟩

/-- A text without the separator is one part. -/
theorem eq_singleton (h : Parts separator none text parts) (hnot : ¬ Occurs separator text) :
    parts = [text] := by
  cases h with
  | whole => rfl
  | cut _ htext => exact absurd ⟨_, _, htext⟩ hnot

/-- Without a limit, a text with the separator is cut at the first one. -/
theorem exists_rest (h : Parts separator none text parts) (htext : text = before ++ separator ++ after)
    (hfirst : First separator before after) :
    ∃ rest, Parts separator none after rest ∧ parts = before :: rest := by
  cases h with
  | whole hwhole => exact absurd ⟨_, _, htext⟩ (hwhole.resolve_left (by simp))
  | cut _ htext' hfirst' hparts =>
    obtain ⟨rfl, rfl⟩ := hfirst.unique hfirst' (htext.symm.trans htext')
    exact ⟨_, hparts, rfl⟩

/-- Counting comes to the same places as cutting. -/
theorem countFrom_eq (hne : separator ≠ "") (counted : Nat) (text : String.Slice)
    (h : Parts separator none text.copy parts) :
    parts.length + counted = countFrom separator hne counted text + 1 := by
  fun_induction countFrom separator hne counted text generalizing parts with
  | case1 counted text hnone =>
    have hnot : ¬ Occurs separator text.copy := by rwa [occurs_iff, ← cut?_eq_none_iff]
    rw [h.eq_singleton hnot, List.length_singleton, Nat.add_comm]
  | case2 counted text before after hcut ih =>
    obtain ⟨hcopy, hfirst⟩ := cut?_eq_some hne hcut
    obtain ⟨rest, hrest, rfl⟩ := h.exists_rest hcopy hfirst
    rw [← ih hrest, List.length_cons, Nat.add_right_comm, Nat.add_assoc]

/-- There are as many occurrences as cuts that are made without a limit. -/
theorem length_eq (h : Parts separator none text parts) (hne : separator ≠ "") :
    parts.length = 1 + count separator text := by
  have hcounted : parts.length + 0 = countFrom separator hne 0 text.toSlice + 1 :=
    countFrom_eq hne 0 text.toSlice (by simpa using h)
  rw [count, dif_neg hne]
  omega

/-- There is no way to cut a text into more parts than by cutting at the first occurrences: what stands
behind the first one holds what stands behind any other one. -/
theorem length_le (h : Parts separator none text parts)
    (hpieces : String.intercalate separator pieces = text) : pieces.length ≤ parts.length := by
  generalize hlimit : none = limit at h
  induction h generalizing pieces with
  | whole hwhole =>
    subst hlimit
    match pieces with
    | [] | [_] => simp
    | piece :: next :: rest =>
      rw [String.intercalate_cons_cons] at hpieces
      exact absurd ⟨_, _, hpieces.symm⟩ (hwhole.resolve_left (by simp))
  | @cut limit text before after parts hcut htext hfirst hparts ih =>
    subst hlimit
    match pieces with
    | [] | [_] => simp
    | piece :: next :: rest =>
      rw [String.intercalate_cons_cons, htext] at hpieces
      -- the cut is at the first separator, so all behind the first piece stands behind the cut
      have hle := hfirst _ _ hpieces.symm
      have hsuffix : (String.intercalate separator (next :: rest)).toList <:+ after.toList := by
        have hlists := congrArg String.toList hpieces
        have hlength := congrArg String.length hpieces
        simp only [String.length_append] at hlength
        simp only [String.toList_append] at hlists
        refine List.suffix_of_suffix_length_le ⟨_, hlists⟩ ⟨_, rfl⟩ ?_
        simp only [String.length_toList]
        omega
      obtain ⟨between, hbetween⟩ := hsuffix
      have hafter : String.intercalate separator ((String.ofList between ++ next) :: rest) = after := by
        rw [String.intercalate_cons_append]
        exact String.toList_inj.1 (by simpa using hbetween)
      simpa using ih hafter rfl

end Parts

end Occurrences

end ScriptSandbox.Text

import Mathlib.Data.List.TakeWhile
import ScriptSandbox.Proofs.Splitting
import ScriptSandbox.Text.Index

/-!
# Words

A word of a text is a longest stretch of characters that are not blank (`Stretch.IsWord`). Blanks in front
of a text move its words (`Words.behind_blanks`), and a word in front of a blank adds itself to them
(`Words.cons`), so each round of splitting takes the first word off (`wordsFrom_eq`). Splitting without a
separator therefore gives the words in order, and where fewer cuts are allowed than there are words, the
rest of the text from the next one on (`TextMethod.split_words`).
-/

namespace ScriptSandbox

namespace Text

/-! ## Longest stretches -/

/-- A character that is not blank stands at a position. -/
def SolidAt (text : List Char) (i : Nat) : Prop := ∃ c, text[i]? = some c ∧ isBlank c = false

/-- The characters from a start up to a stop. -/
structure Stretch where
  start : Nat
  stop : Nat

namespace Stretch

/-- The stretch so many characters on. -/
def shift (offset : Nat) (r : Stretch) : Stretch := ⟨offset + r.start, offset + r.stop⟩

/-- A stretch has characters, none of them blank, and cannot be made longer: on either side stands a blank
or the text ends. -/
structure IsWord (text : List Char) (r : Stretch) : Prop where
  start_lt : r.start < r.stop
  solid : ∀ i, r.start ≤ i → i < r.stop → SolidAt text i
  before : ∀ i, i + 1 = r.start → ¬ SolidAt text i
  behind : ¬ SolidAt text r.stop

end Stretch

section Stretches

variable {text blanks word rest first : List Char} {r : Stretch} {i n : Nat}

theorem solidAt_behind (first rest : List Char) (i : Nat) :
    SolidAt (first ++ rest) (first.length + i) ↔ SolidAt rest i := by
  rw [SolidAt, SolidAt, List.getElem?_append_right (Nat.le_add_right ..), Nat.add_sub_cancel_left]

theorem solidAt_of_lt (hword : ∀ c ∈ word, isBlank c = false) (hi : i < word.length)
    (rest : List Char) : SolidAt (word ++ rest) i :=
  ⟨word[i], by simp [List.getElem?_append_left hi], hword _ (List.getElem_mem hi)⟩

theorem not_solidAt_of_lt (hblanks : ∀ c ∈ blanks, isBlank c = true) (hi : i < blanks.length)
    (rest : List Char) : ¬ SolidAt (blanks ++ rest) i := by
  rintro ⟨c, hc, hsolid⟩
  rw [List.getElem?_append_left hi] at hc
  rw [hblanks c (List.mem_of_getElem? hc)] at hsolid
  cases hsolid

theorem exists_shift (hstart : n ≤ r.start) (hlt : r.start < r.stop) :
    ∃ r' : Stretch, r = r'.shift n := by
  refine ⟨⟨r.start - n, r.stop - n⟩, ?_⟩
  rw [Stretch.shift, Nat.add_sub_cancel' hstart, Nat.add_sub_cancel' (by omega)]

/-- A text in front of a word leaves it a word, unless it makes it longer. -/
theorem isWord_shift (h : r.start = 0 → ∀ i, i + 1 = first.length → ¬ SolidAt (first ++ rest) i) :
    (r.shift first.length).IsWord (first ++ rest) ↔ r.IsWord rest := by
  constructor
  · rintro ⟨hlt, hsolid, hbefore, hbehind⟩
    simp only [Stretch.shift] at hlt hsolid hbefore hbehind
    refine ⟨by omega, fun i hi hi' => ?_, fun i hi => ?_, ?_⟩
    · exact (solidAt_behind ..).1 (hsolid (first.length + i) (by omega) (by omega))
    · rw [← solidAt_behind first]
      exact hbefore (first.length + i) (by omega)
    · rwa [← solidAt_behind first]
  · rintro ⟨hlt, hsolid, hbefore, hbehind⟩
    refine ⟨Nat.add_lt_add_left hlt _, fun i hi hi' => ?_, fun i hi => ?_, ?_⟩
    · simp only [Stretch.shift] at hi hi'
      obtain ⟨j, rfl⟩ := Nat.exists_eq_add_of_le (by omega : first.length ≤ i)
      exact (solidAt_behind ..).2 (hsolid j (by omega) (by omega))
    · simp only [Stretch.shift] at hi
      by_cases hzero : r.start = 0
      · exact h hzero i (by omega)
      · obtain ⟨j, rfl⟩ := Nat.exists_eq_add_of_le (by omega : first.length ≤ i)
        rw [solidAt_behind]
        exact hbefore j (by omega)
    · rwa [Stretch.shift, solidAt_behind]

/-- Blanks in front add no word. -/
theorem isWord_behind_blanks (hblanks : ∀ c ∈ blanks, isBlank c = true) :
    r.IsWord (blanks ++ rest) ↔ ∃ r' : Stretch, r'.IsWord rest ∧ r = r'.shift blanks.length := by
  have hlast (r' : Stretch) : (r'.shift blanks.length).IsWord (blanks ++ rest) ↔ r'.IsWord rest :=
    isWord_shift fun _ i hi => not_solidAt_of_lt hblanks (by omega) rest
  constructor
  · intro h
    have hle : blanks.length ≤ r.start := by
      by_contra hlt
      exact not_solidAt_of_lt hblanks (by omega) rest (h.solid _ (Nat.le_refl _) h.start_lt)
    obtain ⟨r', rfl⟩ := exists_shift hle h.start_lt
    exact ⟨r', (hlast r').1 h, rfl⟩
  · rintro ⟨r', h, rfl⟩
    exact (hlast r').2 h

/-- A text without blanks in front of a blank or of the end is a word, and adds no other one. -/
theorem isWord_append (hne : word ≠ []) (hword : ∀ c ∈ word, isBlank c = false)
    (hrest : ¬ SolidAt rest 0) : r.IsWord (word ++ rest) ↔
      r = ⟨0, word.length⟩ ∨ ∃ r' : Stretch, r'.IsWord rest ∧ r = r'.shift word.length := by
  have hnext : ¬ SolidAt (word ++ rest) word.length := by rwa [← solidAt_behind word] at hrest
  constructor
  · intro h
    -- a stretch that starts inside the first word is all of it
    by_cases hle : word.length ≤ r.start
    · have hstart : r.start ≠ word.length := fun heq =>
        hnext (heq ▸ h.solid _ (Nat.le_refl _) h.start_lt)
      obtain ⟨r', rfl⟩ := exists_shift hle h.start_lt
      exact .inr ⟨r', (isWord_shift fun hzero => absurd (by simp [Stretch.shift, hzero]) hstart).1 h, rfl⟩
    · have hstart : r.start = 0 := by
        by_contra hpos
        exact h.before (r.start - 1) (by omega) (solidAt_of_lt hword (by omega) rest)
      have hstop : r.stop = word.length := by
        rcases Nat.lt_trichotomy r.stop word.length with hlt | heq | hgt
        · exact absurd (solidAt_of_lt hword hlt rest) h.behind
        · exact heq
        · exact absurd (h.solid _ (by omega) hgt) hnext
      left
      rw [← hstop, ← hstart]
  · rintro (rfl | ⟨r', h, rfl⟩)
    · exact ⟨List.length_pos_iff.2 hne, fun i _ hi => solidAt_of_lt hword hi rest,
        fun i hi => absurd hi (Nat.succ_ne_zero i), hnext⟩
    · refine (isWord_shift fun hzero => ?_).2 h
      exact absurd (hzero ▸ h.solid _ (Nat.le_refl _) h.start_lt) hrest

end Stretches

/-! ## Words one after another -/

/-- The words of a text in their order. -/
structure Words (text : List Char) (words : List Stretch) : Prop where
  ordered : words.Pairwise fun r r' => r.stop < r'.start
  mem_iff : ∀ r, r ∈ words ↔ r.IsWord text

/-- The characters of a stretch. -/
def Stretch.of (text : List Char) (r : Stretch) : List Char := (text.take r.stop).drop r.start

/-- Stretches of a text, or as many as are allowed and behind them the text from the next one on. -/
def cutAt (text : List Char) (words : List Stretch) : Option Nat → List (List Char)
  | none => words.map (·.of text)
  | some k => (words.take k).map (·.of text) ++ (words[k]?.map (text.drop ·.start)).toList

section Words

variable {text blanks word rest : List Char} {words : List Stretch} {c : Char}

theorem of_shift (first rest : List Char) (r : Stretch) :
    (r.shift first.length).of (first ++ rest) = r.of rest := by
  simp [Stretch.of, Stretch.shift, List.take_append, List.drop_append]

theorem cutAt_shift (first rest : List Char) (words : List Stretch) (limit : Option Nat) :
    cutAt (first ++ rest) (words.map (·.shift first.length)) limit = cutAt rest words limit := by
  cases limit with
  | none => simp [cutAt, of_shift]
  | some k =>
    have hrest (r : Stretch) : (first ++ rest).drop (r.shift first.length).start = rest.drop r.start := by
      simp [Stretch.shift, List.drop_append]
    simp [cutAt, of_shift, hrest, ← List.map_take, Function.comp_def]

/-- Cutting starts with the first word, if any cut is allowed, and goes on behind it. -/
theorem cutAt_cons (word rest : List Char) (words : List Stretch) (limit : Option Nat) :
    cutAt (word ++ rest) (⟨0, word.length⟩ :: words.map (·.shift word.length)) limit =
      if limit = some 0 then [word ++ rest] else word :: cutAt rest words (limit.map (· - 1)) := by
  have hword : (⟨0, word.length⟩ : Stretch).of (word ++ rest) = word := by simp [Stretch.of]
  match limit with
  | none => simpa [cutAt, hword] using cutAt_shift word rest words none
  | some 0 => simp [cutAt]
  | some (k + 1) => simpa [cutAt, hword] using cutAt_shift word rest words (some k)

theorem cutAt_of_length_le {k : Nat} (h : words.length ≤ k) :
    cutAt text words (some k) = words.map (·.of text) := by
  simp [cutAt, List.take_of_length_le h, List.getElem?_eq_none h]

theorem Words.nil : Words [] [] :=
  ⟨.nil, fun r => ⟨nofun, fun h => by
    obtain ⟨c, hc, -⟩ := h.solid _ (Nat.le_refl _) h.start_lt
    simp at hc⟩⟩

theorem Words.behind_blanks (h : Words rest words) (hblanks : ∀ c ∈ blanks, isBlank c = true) :
    Words (blanks ++ rest) (words.map (·.shift blanks.length)) := by
  refine ⟨List.pairwise_map.2 (h.ordered.imp fun hlt => Nat.add_lt_add_left hlt _), fun r => ?_⟩
  rw [isWord_behind_blanks hblanks, List.mem_map]
  simp only [h.mem_iff, eq_comm]

theorem Words.cons (h : Words rest words) (hne : word ≠ []) (hword : ∀ c ∈ word, isBlank c = false)
    (hrest : ¬ SolidAt rest 0) :
    Words (word ++ rest) (⟨0, word.length⟩ :: words.map (·.shift word.length)) := by
  refine ⟨List.pairwise_cons.2 ⟨?_, List.pairwise_map.2 ?_⟩, fun r => ?_⟩
  · intro r' hr'
    obtain ⟨r, hr, rfl⟩ := List.mem_map.1 hr'
    have hword := (h.mem_iff r).1 hr
    have hpos : r.start ≠ 0 := fun hzero =>
      hrest (hzero ▸ hword.solid _ (Nat.le_refl _) hword.start_lt)
    exact Nat.lt_add_of_pos_right (Nat.pos_of_ne_zero hpos)
  · exact h.ordered.imp fun hlt => Nat.add_lt_add_left hlt _
  · rw [isWord_append hne hword hrest, List.mem_cons, List.mem_map]
    simp only [h.mem_iff, eq_comm]

/-- One round of splitting: it takes the first word off a text, or finds no cut left for it, or no word. -/
theorem wordsFrom_round (text : List Char) :
    ((∀ c ∈ text, isBlank c = true) ∧ ∀ limit found, wordsFrom limit found text = found.reverse) ∨
    ∃ blanks word rest, text = blanks ++ (word ++ rest) ∧ (∀ c ∈ blanks, isBlank c = true) ∧
      word ≠ [] ∧ (∀ c ∈ word, isBlank c = false) ∧ ¬ SolidAt rest 0 ∧
      ∀ limit found, wordsFrom limit found text =
        if limit = some 0 then ((word ++ rest) :: found).reverse
        else wordsFrom (limit.map (· - 1)) (word :: found) rest := by
  have htext : text.takeWhile isBlank ++ trimStart text = text := List.takeWhile_append_dropWhile
  have hblanks : ∀ c ∈ text.takeWhile isBlank, isBlank c = true := fun c hc =>
    List.mem_takeWhile_imp hc
  -- behind the blanks there is nothing or a word
  cases htrim : trimStart text with
  | nil =>
    rw [htrim, List.append_nil] at htext
    refine .inl ⟨htext ▸ hblanks, fun limit found => ?_⟩
    rw [wordsFrom.eq_def]
    split <;> simp_all
  | cons c rest =>
    have hc : isBlank c = false := by
      have h := List.head?_dropWhile_not isBlank text
      rw [trimStart] at htrim
      simpa [htrim] using h
    have hsplit : (c :: rest).takeWhile (!isBlank ·) ++ rest.dropWhile (!isBlank ·) = c :: rest := by
      simp [hc]
    refine .inr ⟨_, (c :: rest).takeWhile (!isBlank ·), rest.dropWhile (!isBlank ·), ?_, hblanks, ?_,
      fun d hd => ?_, ?_, fun limit found => ?_⟩
    · rw [hsplit, ← htrim, htext]
    · simp [hc]
    · simpa using List.mem_takeWhile_imp hd
    · rintro ⟨d, hd, hsolid⟩
      have h := List.head?_dropWhile_not (!isBlank ·) rest
      rw [List.head?_eq_getElem?, hd] at h
      simp [hsolid] at h
    · rw [wordsFrom.eq_def, hsplit]
      split <;> simp_all

/-- Splitting at blanks cuts a text at its words. -/
theorem wordsFrom_eq (text : List Char) : ∃ words, Words text words ∧
    ∀ limit found, wordsFrom limit found text = found.reverse ++ cutAt text words limit := by
  induction hlength : text.length using Nat.strongRecOn generalizing text with
  | ind n ih =>
    rcases wordsFrom_round text with
      ⟨hblanks, hround⟩ | ⟨blanks, word, rest, rfl, hblanks, hne, hword, hrest, hround⟩
    · refine ⟨[], by simpa using Words.nil.behind_blanks hblanks, fun limit found => ?_⟩
      rw [hround]
      cases limit <;> simp [cutAt]
    · have hless : rest.length < n := by
        have hpos := List.length_pos_iff.2 hne
        rw [← hlength, List.length_append, List.length_append]
        omega
      obtain ⟨words, hwords, hfrom⟩ := ih _ hless rest rfl
      refine ⟨_, (hwords.cons hne hword hrest).behind_blanks hblanks, fun limit found => ?_⟩
      rw [hround, hfrom, cutAt_shift, cutAt_cons]
      split <;> simp

end Words

theorem part_stretch (text : String) (r : Stretch) :
    part text r.start r.stop = String.ofList (r.of text.toList) :=
  String.toList_inj.1 (by rw [toList_part, String.toList_ofList, Stretch.of])

theorem part_rest (text : String) (start : Nat) :
    part text start text.length = String.ofList (text.toList.drop start) :=
  String.toList_inj.1 (by rw [toList_part, String.toList_ofList, ← String.length_toList, List.take_length])

end Text

/-- Splitting without a separator gives the words of a text, which are its longest stretches without
blanks, in their order. If fewer cuts are allowed than there are words, the first words are as many as the
cuts, and the last part is the rest of the text from the next word on, blanks at its end included. -/
theorem TextMethod.split_words (limits : SizeLimits) (s : Store) (text : String) :
    ∃ words : List Text.Stretch, words.Pairwise (fun r r' => r.stop < r'.start) ∧
      (∀ r, r ∈ words ↔ r.IsWord text.toList) ∧
      ∀ maxsplit : Int64, ∃ parts : List String,
        (maxsplit < 0 ∨ words.length ≤ maxsplit.toInt →
          parts = words.map fun r => Text.part text r.start r.stop) ∧
        (∀ k next, maxsplit.toInt = (k : Nat) → words[k]? = some next →
          parts = (words.take k).map (fun r => Text.part text r.start r.stop) ++
            [Text.part text next.start text.length]) ∧
        ∀ args, Asks args none maxsplit →
          (parts.length ≤ limits.maxContainerSize →
            ∃ r s', Method.call limits (.str text) "split" args s = .ok (.list r) s' ∧ s.Grown s' ∧
              s.lists.size ≤ r.index ∧ s'.list r = (parts.map Value.str).toArray) ∧
          (limits.maxContainerSize < parts.length → Method.call limits (.str text) "split" args s =
            .error (.limitExceeded .containerSize limits.maxContainerSize) s) := by
  obtain ⟨words, hwords, hfrom⟩ := Text.wordsFrom_eq text.toList
  refine ⟨words, hwords.ordered, hwords.mem_iff, fun maxsplit =>
    ⟨Text.words (limitOf maxsplit) text, fun hall => ?_, fun k next hk hnext => ?_, fun args hargs =>
      call_split limits s hargs rfl⟩⟩
  · have hcut : Text.cutAt text.toList words (limitOf maxsplit) = words.map (·.of text.toList) := by
      by_cases hneg : maxsplit < 0
      · rw [limitOf_of_neg hneg, Text.cutAt]
      · have hle := hall.resolve_left hneg
        rw [limitOf_of_nonneg hneg, Text.cutAt_of_length_le (by omega)]
    rw [Text.words, hfrom, hcut]
    simp [Text.part_stretch, Function.comp_def]
  · have hneg : ¬ maxsplit < 0 := by
      rw [Integer.lt_zero_iff]
      omega
    rw [Text.words, hfrom, limitOf_of_nonneg hneg, hk, Int.toNat_natCast, Text.cutAt, hnext]
    simp [Text.part_stretch, Text.part_rest, Function.comp_def]

/-- Two cuts leave the blanks at the end of three words, and a third cut has nothing to take. -/
example : Text.words (some 2) " a \t b c " = ["a", "b", "c "] ∧
    Text.words (some 3) " a \t b c " = ["a", "b", "c"] ∧ Text.words (some 0) " \t" = [] := by
  decide +kernel

end ScriptSandbox

import ScriptSandbox.Text.CharClass
/-!
Searching, splitting and replacing. Occurrences are taken from left to right and do not overlap; the
empty text occurs before every character and at the end. Texts are cut into slices, which share the
characters of the whole. Main statements: a cut loses one occurrence and nothing else and no
occurrence starts before it (`copy_eq_of_cut?`), and there is no cut exactly when there is no
occurrence (`cut?_eq_none_iff`).
-/

namespace ScriptSandbox.Text

open String.Slice.Pattern.Model

theorem singleton_infix_iff {α : Type} {a : α} {l : List α} : [a] <:+: l ↔ a ∈ l := by
  simp [List.IsInfix, List.mem_iff_append, eq_comm]

theorem eq_singleton_front {s : String} (h : s.length = 1) : s = String.singleton s.front := by
  obtain ⟨c, hc⟩ := List.length_eq_one_iff.1 ((String.length_toList (s := s)).trans h)
  obtain rfl : s = String.singleton c := String.toList_inj.1 (by simpa using hc)
  simp [String.front_eq, String.front?_eq]

/-- The first place of a character. -/
def place? (c : Char) (text : String.Slice) : Option text.Pos := text.find? c

/-- The place of the first occurrence. Single characters are searched for as such. -/
def occurrence? (needle : String) (text : String.Slice) : Option text.Pos :=
  if needle.length = 1 then place? needle.front text else text.find? needle

/-- The needle stands at the place that is found and at no place before it. -/
theorem occurrence?_eq_some_iff {needle : String} (h : needle ≠ "") {text : String.Slice}
    {pos : text.Pos} :
    occurrence? needle text = some pos ↔
      (∃ t₁ t₂, pos.Splits t₁ (needle ++ t₂)) ∧
        ∀ earlier : text.Pos, earlier < pos → ¬ ∃ t₁ t₂, earlier.Splits t₁ (needle ++ t₂) := by
  unfold occurrence?
  split
  · next single =>
    rw [place?, String.Slice.Pattern.Model.find?_eq_some_iff needle.front]
    simp only [Char.matchesAt_iff_splits, ← eq_singleton_front single]
  · have := ForwardStringSearcher.strictPatternModel h
    have := ForwardStringSearcher.lawfulToForwardSearcherModel h
    rw [String.Slice.Pattern.Model.find?_eq_some_iff needle]
    simp only [ForwardStringSearcher.matchesAt_iff_splits]

theorem occurrence?_eq_none_iff {needle : String} {text : String.Slice} :
    occurrence? needle text = none ↔ ¬ needle.toList <:+: text.copy.toList := by
  unfold occurrence?
  split
  · next single =>
    obtain ⟨c, rfl⟩ : ∃ c, needle = String.singleton c := ⟨_, eq_singleton_front single⟩
    simp [place?, String.front_eq, String.front?_eq, singleton_infix_iff]
  · simp

/-- Whether a text occurs in another one. -/
def contains (text needle : String) : Bool := (occurrence? needle text.toSlice).isSome

theorem contains_iff {text needle : String} :
    contains text needle ↔ needle.toList <:+: text.toList := by
  rw [contains, Option.isSome_iff_ne_none, Ne, occurrence?_eq_none_iff]
  simp

/-- The parts of a text before and behind the first occurrence of a needle. -/
def cut? (needle : String) (text : String.Slice) : Option (String.Slice × String.Slice) :=
  (occurrence? needle text).map fun pos =>
    (text.sliceTo pos, (text.sliceFrom pos).drop needle.length)

/-- A cut loses one occurrence of the needle and nothing else, and no occurrence starts before
it. -/
theorem copy_eq_of_cut? {needle : String} (h : needle ≠ "") {text before after : String.Slice}
    (cut : cut? needle text = some (before, after)) :
    text.copy = before.copy ++ needle ++ after.copy ∧
      ∀ t₁ t₂ : String, text.copy = t₁ ++ needle ++ t₂ → before.copy.length ≤ t₁.length := by
  obtain ⟨pos, found, eq⟩ := Option.map_eq_some_iff.1 cut
  obtain ⟨rfl, rfl⟩ := Prod.mk.inj eq
  obtain ⟨⟨t₁, t₂, splits⟩, first⟩ := (occurrence?_eq_some_iff h).1 found
  constructor
  · have rest : ((text.sliceFrom pos).drop needle.length).copy = t₂ := by
      apply String.toList_inj.1
      simp [splits.copy_sliceFrom_eq, ← String.length_toList]
    rw [splits.eq_append, splits.copy_sliceTo_eq, rest, String.append_assoc]
  · intro u₁ u₂ eq
    rw [String.append_assoc] at eq
    have hit := String.Slice.Pos.splits_ofEqAppend eq
    have le : pos ≤ String.Slice.Pos.ofEqAppend eq :=
      Std.not_lt.1 fun earlier => first _ earlier ⟨u₁, u₂, hit⟩
    obtain ⟨t, rfl, _⟩ := (splits.le_iff_exists_eq_append hit).1 le
    simp [splits.copy_sliceTo_eq]

theorem cut?_eq_none_iff {needle : String} {text : String.Slice} :
    cut? needle text = none ↔ ¬ needle.toList <:+: text.copy.toList := by
  simp [cut?, occurrence?_eq_none_iff]

/-- What is behind a cut is shorter than the whole. -/
theorem length_lt_of_cut? {needle : String} (h : needle ≠ "") {text before after : String.Slice}
    (cut : cut? needle text = some (before, after)) : after.copy.length < text.copy.length := by
  have positive : 0 < needle.length := Nat.pos_of_ne_zero (by simpa using h)
  rw [(copy_eq_of_cut? h cut).1]
  simp only [String.length_append]
  omega

/-- The number of characters before the first occurrence. -/
def find? (needle text : String) : Option Nat :=
  if needle = "" then some 0 else (cut? needle text.toSlice).map fun parts => parts.1.copy.length

/-- The parts between the occurrences of a non-empty separator, cut at most `limit` times when a
limit is given, behind the parts already found. -/
def splitFrom (separator : String) (h : separator ≠ "") (limit : Option Nat)
    (found : List String.Slice) (text : String.Slice) : List String.Slice :=
  if limit = some 0 then (text :: found).reverse
  else
    match cut : cut? separator text with
    | none => (text :: found).reverse
    | some (before, after) => splitFrom separator h (limit.map (· - 1)) (before :: found) after
termination_by text.copy.length
decreasing_by exact length_lt_of_cut? h cut

def splitOn (separator : String) (h : separator ≠ "") (limit : Option Nat) (text : String) :
    List String.Slice := splitFrom separator h limit [] text.toSlice

/-- Counts on from a number: while there is an occurrence, it is counted and the search goes on behind
it. -/
def countFrom (needle : String) (h : needle ≠ "") (counted : Nat) (text : String.Slice) : Nat :=
  match cut : cut? needle text with
  | none => counted
  | some (_, after) => countFrom needle h (counted + 1) after
termination_by text.copy.length
decreasing_by exact length_lt_of_cut? h cut

/-- The number of occurrences. -/
def count (needle text : String) : Nat :=
  if h : needle = "" then text.length + 1 else countFrom needle h 0 text.toSlice

/-- The text with `replacement` before each of its first `limit` characters, and at its end when
the limit reaches so far, behind the text already written, which is held in reverse. -/
def interleaveFrom (replacement : List Char) (written : List Char) :
    Option Nat → List Char → List Char
  | some 0, text => written.reverse ++ text
  | _, [] => (replacement.reverse ++ written).reverse
  | limit, c :: rest =>
    interleaveFrom replacement (c :: (replacement.reverse ++ written)) (limit.map (· - 1)) rest

/-- Replaces the occurrences of `old`, at most `limit` of them when a limit is given. -/
def replace (old replacement : String) (limit : Option Nat) (text : String) : String :=
  if h : old = "" then String.ofList (interleaveFrom replacement.toList [] limit text.toList)
  else String.intercalate replacement ((splitOn old h limit text).map String.Slice.copy)

theorem length_dropWhile_le {α : Type} (p : α → Bool) (text : List α) :
    (text.dropWhile p).length ≤ text.length :=
  (List.dropWhile_sublist p).length_le

/-- The runs of characters that are not blank; after `limit` runs, when a limit is given, the rest
of the text as it is. Runs already found are held last first. -/
def wordsFrom (limit : Option Nat) (found : List (List Char)) (text : List Char) :
    List (List Char) :=
  match trimmed : trimStart text with
  | [] => found.reverse
  | c :: rest =>
    if limit = some 0 then ((c :: rest) :: found).reverse
    else
      wordsFrom (limit.map (· - 1)) ((c :: rest).takeWhile (!isBlank ·) :: found)
        (rest.dropWhile (!isBlank ·))
termination_by text.length
decreasing_by
  have h1 := length_dropWhile_le isBlank text
  have h2 := length_dropWhile_le (!isBlank ·) rest
  have h3 : (trimStart text).length = rest.length + 1 := by rw [trimmed]; rfl
  unfold trimStart at h3
  omega

def words (limit : Option Nat) (text : String) : List String :=
  (wordsFrom limit [] text.toList).map String.ofList

/-- Blanks side by side enclose no word, and a limit leaves the rest as it is. -/
example : words none " a  bc " = ["a", "bc"] ∧ words (some 1) " a  b c " = ["a", "b c "] ∧
    interleaveFrom ['-'] [] none ['a', 'b'] = "-a-b-".toList := by decide +kernel

end ScriptSandbox.Text

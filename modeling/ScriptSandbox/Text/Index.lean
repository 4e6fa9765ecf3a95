/-!
Characters of a text by their index. In a text whose characters take one byte each, an index is a
place; in other texts the characters before it are counted. Main statements: both ways lead to the
same place (`place_eq`), and reading at places is reading the list of characters (`get?_eq`,
`toList_part`).
-/

namespace ScriptSandbox.Text

theorem length_le_utf8ByteSize (s : String) : s.length ≤ s.utf8ByteSize := by
  obtain ⟨l, rfl⟩ : ∃ l, s = String.ofList l := ⟨s.toList, by simp⟩
  induction l with
  | nil => simp
  | cons c l ih =>
    have first := c.utf8Size_pos
    have : String.ofList (c :: l) = String.singleton c ++ String.ofList l := by
      rw [String.singleton_eq_ofList, ← String.ofList_append]
      rfl
    rw [this, String.length_append, String.utf8ByteSize_append, String.utf8ByteSize_singleton,
      String.length_singleton]
    omega

/-- A start of a text has one byte for each character when the whole text has. -/
theorem utf8ByteSize_left {s t₁ t₂ : String} (bytes : s.utf8ByteSize = s.length)
    (eq : s = t₁ ++ t₂) : t₁.utf8ByteSize = t₁.length := by
  have h₁ := length_le_utf8ByteSize t₁
  have h₂ := length_le_utf8ByteSize t₂
  rw [eq, String.utf8ByteSize_append, String.length_append] at bytes
  omega

/-- The place before the character at an index, or the end. -/
def place (text : String) (i : Nat) : text.Pos :=
  if text.utf8ByteSize = text.length then text.posLE ⟨i⟩ else text.startPos.nextn i

theorem place_eq (text : String) (i : Nat) : place text i = text.startPos.nextn i := by
  unfold place
  split
  · next bytes =>
    have splits := String.splits_nextn_startPos text i
    rw [String.posLE_eq_iff]
    constructor
    · rw [splits.offset_eq_rawEndPos, String.Pos.Raw.le_iff, String.byteIdx_rawEndPos,
        utf8ByteSize_left bytes splits.eq_append, String.length_ofList, List.length_take]
      exact Nat.min_le_left ..
    · intro p le
      obtain ⟨t₁, t₂, splits'⟩ : ∃ t₁ t₂, p.Splits t₁ t₂ := ⟨_, _, p.splits⟩
      rw [splits'.offset_eq_rawEndPos, String.Pos.Raw.le_iff, String.byteIdx_rawEndPos,
        utf8ByteSize_left bytes splits'.eq_append, ← String.length_toList] at le
      refine (splits'.le_iff_exists_eq_append splits).2
        ⟨String.ofList (t₂.toList.take (i - t₁.toList.length)), ?_, ?_⟩
      · apply String.toList_inj.1
        simp [splits'.eq_append, List.take_append, List.take_of_length_le le]
      · apply String.toList_inj.1
        simp [splits'.eq_append, List.drop_append, List.drop_eq_nil_of_le le]
  · rfl

/-- The character at an index. -/
def get? (text : String) (i : Nat) : Option Char := (text.sliceFrom (place text i)).front?

theorem get?_eq (text : String) (i : Nat) : get? text i = text.toList[i]? := by
  rw [get?, String.Slice.front?_eq, place_eq,
    (String.splits_nextn_startPos text i).copy_sliceFrom_eq]
  simp

/-- The characters from one index up to another. -/
def part (text : String) (start stop : Nat) : String :=
  if h : place text start ≤ place text stop then (text.slice _ _ h).copy else ""

theorem toList_part (text : String) (start stop : Nat) :
    (part text start stop).toList = (text.toList.take stop).drop start := by
  have first := String.splits_nextn_startPos text start
  have last := String.splits_nextn_startPos text stop
  unfold part
  simp only [place_eq]
  split
  · next le =>
    obtain ⟨t, eq, eq'⟩ := (first.le_iff_exists_eq_append last).1 le
    obtain ⟨_, copied⟩ := String.copy_slice_eq_iff_splits.2 ⟨_, _, eq' ▸ first, eq ▸ last⟩
    have chars : text.toList.take stop = text.toList.take start ++ t.toList := by
      simpa using congrArg String.toList eq
    rw [copied, chars, List.drop_append]
    rcases Nat.le_total start text.toList.length with inside | beyond
    · simp [List.length_take, Nat.min_eq_left inside]
    · have : t.toList = [] := by
        have := congrArg List.length chars
        simp only [List.length_append, List.length_take] at this
        exact List.eq_nil_of_length_eq_zero (by omega)
      simp [this]
  · next gt =>
    rcases Nat.lt_or_ge stop start with less | le
    · rw [List.drop_eq_nil_of_le (by simp; omega)]
      rfl
    · refine absurd ((first.le_iff_exists_eq_append last).2
        ⟨String.ofList ((text.toList.take stop).drop start), ?_, ?_⟩) gt
      · apply String.toList_inj.1
        have := List.take_append_drop start (text.toList.take stop)
        rw [List.take_take, Nat.min_eq_left le] at this
        simp only [String.toList_append, String.toList_ofList, this]
      · apply String.toList_inj.1
        have := congrArg (List.drop start) (List.take_append_drop stop text.toList)
        rw [List.drop_append] at this
        rcases Nat.le_total stop text.toList.length with inside | beyond
        · rw [List.length_take, Nat.min_eq_left inside, Nat.sub_eq_zero_of_le le] at this
          simpa using this.symm
        · simp [List.take_of_length_le beyond, List.drop_eq_nil_of_le beyond]

end ScriptSandbox.Text

import ScriptSandbox.Proofs.Progression
import ScriptSandbox.Proofs.Rounding
import ScriptSandbox.Value.Order

/-!
# Membership of ranges

Whether a range holds a value is computed, and whether a list does is found by comparing its items.
For lists of the elements of a range the results are the same, unless the value is a double. Integers
are compared with it as doubles, but the range looks for the integer that it is; and a double beyond
the words is looked for as the nearest word. The results differ for the doubles of these kinds and for
no others (`range_membership`), and these lie beyond the fifty-third bit.
-/

namespace ScriptSandbox

/-! ## Lists -/

/-- Tests that do not fail have a result. -/
theorem firstPosition_total {test : Nat → Except Error Bool} {position left : Nat}
    (h : ∀ i, position ≤ i → i < position + left → ∃ b, test i = .ok b) :
    ∃ found, firstPosition test position left = .ok found := by
  induction left generalizing position with
  | zero => exact ⟨none, rfl⟩
  | succ left ih =>
    obtain ⟨b, hb⟩ := h position (Nat.le_refl _) (by omega)
    rw [firstPosition, hb]
    cases b with
    | true => exact ⟨some position, rfl⟩
    | false => exact ih fun i hle hlt => h i (by omega) (by omega)

namespace Store

variable {s : Store} {x : Value}

/-- A list holds a value if one of its items is equal to it. -/
theorem contains_list {l : ListRef} (h : ∀ v ∈ s.list l, ∃ b, s.equal v x = .ok b) :
    ∃ b, s.contains (.list l) x = .ok b ∧ (b = true ↔ ∃ v ∈ s.list l, s.equal v x = .ok true) := by
  have hitem {i : Nat} (hi : i < (s.list l).size) : (s.list l).getD i .null = (s.list l)[i] := by
    simp [hi]
  obtain ⟨found, hfound⟩ : ∃ found, s.position? (s.list l) x = .ok found :=
    firstPosition_total fun i _ hi => by
      rw [Nat.zero_add] at hi
      rw [hitem hi]
      exact h _ (Array.getElem_mem hi)
  refine ⟨found.isSome, congrArg (Except.map Option.isSome) hfound, ?_⟩
  cases found with
  | none =>
    refine iff_of_false Bool.false_ne_true ?_
    rintro ⟨v, hv, hequal⟩
    obtain ⟨i, hi, rfl⟩ := Array.mem_iff_getElem.1 hv
    have hmiss := firstPosition_eq_none_iff.1 hfound i (Nat.zero_le i) (by omega)
    rw [hitem hi, hequal] at hmiss
    cases hmiss
  | some i =>
    obtain ⟨-, hi, hequal, -⟩ := firstPosition_eq_some hfound
    rw [Nat.zero_add] at hi
    rw [hitem hi] at hequal
    exact iff_of_true rfl ⟨_, Array.getElem_mem hi, hequal⟩

/-- An integer can be compared with every value. -/
theorem equal_int (s : Store) (n : Int64) (x : Value) :
    s.equal (.int n) x = .ok (x.toNumber?.any (Number.int n).equal) := by
  cases x <;> rfl

theorem equal_int_float {n : Int64} {y : Binary64} :
    s.equal (.int n) (.float y) = .ok true ↔ (Binary64.ofInt n.toInt).equal y = true := by
  rw [equal_int, Except.ok.injEq]
  rfl

end Store

/-! ## Ranges -/

namespace Integer

variable {m : Int}

theorem toInt_saturate (hlow : -bound ≤ m) (hhigh : m < bound) : (saturate m).toInt = m := by
  rw [saturate, if_neg (Int.not_lt.2 hlow), if_neg (Int.not_le.2 hhigh)]
  exact Int64.toInt_ofInt_of_le hlow hhigh

theorem saturate_toInt (n : Int64) : saturate n.toInt = n :=
  Int64.toInt_inj.1 (toInt_saturate n.le_toInt n.toInt_lt)

/-- What is beyond the words becomes an end of them. -/
theorem toInt_saturate_of_beyond (h : m < -bound ∨ bound < m) :
    (saturate m).toInt = -bound ∨ (saturate m).toInt = bound - 1 := by
  unfold saturate
  split
  · exact .inl (by decide)
  · rw [if_pos (by omega)]
    exact .inr (by decide)

end Integer

namespace Range

variable {s : Store} {r : Range} {x : Value} {y : Binary64} {m : Int}

/-- The doubles about which a range and the list of its elements differ: one that an element is rounded
to but that is no element itself, and one beyond the words whose nearest word is an element. -/
inductive Misjudges (r : Range) : Value → Prop where
  | rounded {y : Binary64} {m : Int} {n : Int64} : y.IsInt m → Integer.saturate m ∉ r.toList →
    n ∈ r.toList → (Binary64.ofInt n.toInt).equal y = true → r.Misjudges (.float y)
  | beyond {y : Binary64} {m : Int} : y.IsInt m → (m < -Integer.bound ∨ Integer.bound < m) →
    Integer.saturate m ∈ r.toList → r.Misjudges (.float y)

/-- Values other than doubles are compared exactly. -/
theorem contains_of_not_float (hstep : r.step ≠ 0) (hx : ∀ y, x ≠ .float y) :
    ∃ b, s.contains (.range r) x = .ok b ∧
      (b = true ↔ ∃ n ∈ r.toList, s.equal (.int n) x = .ok true) := by
  have hcontains : s.contains (.range r) x = .ok (x.toInt?.any r.contains) := by
    cases x with
    | float y => exact absurd rfl (hx y)
    | _ => rfl
  have hnumber : x.toNumber? = x.toInt?.map .int := by
    cases x with
    | float y => exact absurd rfl (hx y)
    | _ => rfl
  refine ⟨_, hcontains, ?_⟩
  simp only [Store.equal_int, hnumber, Except.ok.injEq]
  cases x.toInt? with
  | none => simp
  | some k => simp [contains_iff hstep, Number.equal]

/-- A double is looked for as the word nearest to the integer that it is. -/
theorem contains_float (hstep : r.step ≠ 0) : ∃ b, s.contains (.range r) (.float y) = .ok b ∧
    (b = true ↔ ∃ m, y.IsInt m ∧ Integer.saturate m ∈ r.toList) := by
  refine ⟨_, rfl, ?_⟩
  rw [Bool.and_eq_true, contains_iff hstep]
  constructor
  · rintro ⟨hintegral, hmem⟩
    exact ⟨_, ⟨hintegral, rfl⟩, hmem⟩
  · rintro ⟨m, ⟨hintegral, rfl⟩, hmem⟩
    exact ⟨hintegral, hmem⟩

/-- An integral double up to the bounds is equal to its nearest word: the greatest one is rounded. -/
theorem equal_ofInt_saturate (hy : y.IsInt m) (hlow : -Integer.bound ≤ m) (hhigh : m ≤ Integer.bound) :
    (Binary64.ofInt (Integer.saturate m).toInt).equal y = true := by
  rcases Int.lt_or_eq_of_le hhigh with hlt | rfl
  · rw [Integer.toInt_saturate hlow hlt]
    exact Binary64.equal_ofInt hy
  · have hgreatest : Binary64.ofInt (Integer.saturate Integer.bound).toInt =
        Binary64.ofInt Integer.bound := by decide +kernel
    rw [hgreatest]
    exact Binary64.equal_ofInt hy

/-- A word is not rounded beyond the bounds. -/
theorem bounds_of_rounded {n : Int64} (hy : y.IsInt m)
    (h : (Binary64.ofInt n.toInt).equal y = true) : -Integer.bound ≤ m ∧ m ≤ Integer.bound := by
  have hbottom : (Binary64.ofInt (-Integer.bound)).IsInt (-Integer.bound) :=
    ⟨by decide +kernel, by decide +kernel⟩
  have htop : (Binary64.ofInt Integer.bound).IsInt Integer.bound :=
    ⟨by decide +kernel, by decide +kernel⟩
  exact ⟨Binary64.le_of_rounded hbottom n.le_toInt hy h,
    Binary64.ge_of_rounded htop (Int.le_of_lt n.toInt_lt) hy h⟩

theorem misjudges_float : r.Misjudges (.float y) ↔
    ¬ ((∃ m, y.IsInt m ∧ Integer.saturate m ∈ r.toList) ↔
      ∃ n ∈ r.toList, (Binary64.ofInt n.toInt).equal y = true) := by
  constructor
  · rintro hmis hiff
    cases hmis with
    | @rounded _ m n hy hmiss hn hequal =>
      obtain ⟨m', hy', hmem⟩ := hiff.2 ⟨n, hn, hequal⟩
      exact hmiss (hy.2.symm.trans hy'.2 ▸ hmem)
    | @beyond _ m hy hbeyond hmem =>
      obtain ⟨n, -, hequal⟩ := hiff.1 ⟨m, hy, hmem⟩
      have := bounds_of_rounded hy hequal
      omega
  · intro hdiffer
    -- whichever of the two answers is yes tells in which way they differ
    by_cases hlist : ∃ n ∈ r.toList, (Binary64.ofInt n.toInt).equal y = true
    · obtain ⟨n, hn, hequal⟩ := hlist
      have hword : n.toInt.natAbs ≤ Binary64.signBit := by
        have := n.le_toInt
        have := n.toInt_lt
        unfold Binary64.signBit
        omega
      obtain ⟨m, hy⟩ := Binary64.isInt_of_rounded hword hequal
      have hmiss : Integer.saturate m ∉ r.toList := fun hmem =>
        hdiffer (iff_of_true ⟨m, hy, hmem⟩ ⟨n, hn, hequal⟩)
      exact .rounded hy hmiss hn hequal
    · have hrange : ∃ m, y.IsInt m ∧ Integer.saturate m ∈ r.toList := Classical.not_not.1 fun hno =>
        hdiffer (iff_of_false hno hlist)
      obtain ⟨m, hy, hmem⟩ := hrange
      refine .beyond hy (Classical.not_not.1 fun hwithin => hlist ⟨_, hmem, ?_⟩) hmem
      exact equal_ofInt_saturate hy (by omega) (by omega)

/-- Differences arise beyond the fifty-third bit only. -/
theorem Misjudges.large (h : r.Misjudges x) : ∃ y m, x = .float y ∧ y.IsInt m ∧
    2 * Binary64.hiddenBit ≤ m.natAbs ∧ ∃ n ∈ r.toList, 2 * Binary64.hiddenBit < n.toInt.natAbs := by
  cases h with
  | @rounded y m n hy hmiss hn hequal =>
    have hne : n.toInt ≠ m := by
      rintro rfl
      exact hmiss ((Integer.saturate_toInt n).symm ▸ hn)
    obtain ⟨hn', hm⟩ := Binary64.large_of_rounded hy hne hequal
    exact ⟨y, m, rfl, hy, hm, n, hn, hn'⟩
  | @beyond y m hy hbeyond hmem =>
    have hword := Integer.toInt_saturate_of_beyond hbeyond
    unfold Integer.bound at hbeyond hword
    exact ⟨y, m, rfl, hy, by unfold Binary64.hiddenBit; omega, _, hmem,
      by unfold Binary64.hiddenBit; omega⟩

end Range

/-- A range and a list of its elements hold the same values, but for the doubles beyond the fifty-third
bit that the range misjudges; the list holds what is equal to an element. -/
theorem range_membership (s : Store) (r : Range) (hstep : r.step ≠ 0) (l : ListRef)
    (hl : s.list l = (Items.range r).toArray) (x : Value) :
    ∃ inRange inList, s.contains (.range r) x = .ok inRange ∧ s.contains (.list l) x = .ok inList ∧
      (inList = true ↔ ∃ n ∈ r.toList, s.equal (.int n) x = .ok true) ∧
      (inRange = inList ↔ ¬ r.Misjudges x) ∧
      (r.Misjudges x → ∃ y m, x = .float y ∧ y.IsInt m ∧ 0x20000000000000 ≤ m.natAbs ∧
        ∃ n ∈ r.toList, 0x20000000000000 < n.toInt.natAbs) := by
  have hmem (p : Value → Prop) : (∃ v ∈ s.list l, p v) ↔ ∃ n ∈ r.toList, p (.int n) := by
    have hitems : (s.list l).toList = r.toList.map Value.int := by
      rw [hl]
      exact Items.toList_range r
    simp [← Array.mem_toList_iff, hitems]
  obtain ⟨inList, hlist, hlistIff⟩ := Store.contains_list (s := s) (x := x) (l := l) fun v hv => by
    obtain ⟨n, -, rfl⟩ := (hmem (v = ·)).1 ⟨v, hv, rfl⟩
    exact ⟨_, Store.equal_int s n x⟩
  rw [hmem] at hlistIff
  -- only doubles are misjudged
  by_cases hx : ∃ y, x = .float y
  · obtain ⟨y, rfl⟩ := hx
    obtain ⟨inRange, hrange, hrangeIff⟩ := Range.contains_float (s := s) (y := y) hstep
    refine ⟨inRange, inList, hrange, hlist, hlistIff, ?_, Range.Misjudges.large⟩
    simp only [Store.equal_int_float] at hlistIff
    rw [Range.misjudges_float, Classical.not_not, ← hrangeIff, ← hlistIff, Bool.eq_iff_iff]
  · obtain ⟨inRange, hrange, hrangeIff⟩ :=
      Range.contains_of_not_float (s := s) hstep fun y hy => hx ⟨y, hy⟩
    refine ⟨inRange, inList, hrange, hlist, hlistIff, ?_, Range.Misjudges.large⟩
    refine iff_of_true (Bool.eq_iff_iff.2 (hrangeIff.trans hlistIff.symm)) fun hmis => ?_
    obtain ⟨y, m, hy, -⟩ := hmis.large
    exact hx ⟨y, hy⟩

/-- A range from the integer after two to the fifty-third does not hold this power, to which the integer
is rounded; one that holds the greatest word holds two to the sixty-fourth. -/
theorem powers_misjudged :
    (∃ inRange inList,
      (Store.empty.addList #[.int 9007199254740993]).2.contains
        (.range ⟨9007199254740993, 9007199254740994, 1⟩) (.float ⟨0x4340000000000000⟩) = .ok inRange ∧
      (Store.empty.addList #[.int 9007199254740993]).2.contains
        (.list ⟨0⟩) (.float ⟨0x4340000000000000⟩) = .ok inList ∧ inRange ≠ inList) ∧
    ∃ inRange inList,
      (Store.empty.addList #[.int Integer.greatest]).2.contains
        (.range ⟨Integer.greatest, 9223372036854775806, -1⟩) (.float ⟨0x43F0000000000000⟩) =
          .ok inRange ∧
      (Store.empty.addList #[.int Integer.greatest]).2.contains
        (.list ⟨0⟩) (.float ⟨0x43F0000000000000⟩) = .ok inList ∧ inRange ≠ inList := by
  obtain ⟨inRange, inList, hrange, hlist, -, hiff, -⟩ :=
    range_membership (Store.empty.addList #[.int 9007199254740993]).2
      ⟨9007199254740993, 9007199254740994, 1⟩ (by decide) ⟨0⟩ rfl (.float ⟨0x4340000000000000⟩)
  obtain ⟨inRange', inList', hrange', hlist', -, hiff', -⟩ :=
    range_membership (Store.empty.addList #[.int Integer.greatest]).2
      ⟨Integer.greatest, 9223372036854775806, -1⟩ (by decide) ⟨0⟩ rfl (.float ⟨0x43F0000000000000⟩)
  have hrounded : Range.Misjudges ⟨9007199254740993, 9007199254740994, 1⟩
      (.float ⟨0x4340000000000000⟩) :=
    .rounded (m := 9007199254740992) (n := 9007199254740993) ⟨by decide +kernel, by decide +kernel⟩
      (by decide +kernel) (by decide +kernel) (by decide +kernel)
  have hbeyond : Range.Misjudges ⟨Integer.greatest, 9223372036854775806, -1⟩
      (.float ⟨0x43F0000000000000⟩) :=
    .beyond (m := 0x10000000000000000) ⟨by decide +kernel, by decide +kernel⟩ (by decide)
      (by decide +kernel)
  exact ⟨⟨inRange, inList, hrange, hlist, fun h => hiff.1 h hrounded⟩,
    ⟨inRange', inList', hrange', hlist', fun h => hiff'.1 h hbeyond⟩⟩

end ScriptSandbox

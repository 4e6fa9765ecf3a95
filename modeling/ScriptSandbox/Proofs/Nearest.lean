import ScriptSandbox.Operator.Arithmetic

/-!
# Nearest numbers keep the order of integers

Quotas on powers are natural numbers but are compared as doubles. Rounding a natural number to the
nearest double never reverses the order (`Binary64.less_ofInt_of_le`), so that whatever exceeds the
greater of two quotas exceeds the smaller one (`Arithmetic.exceeds_of_le`).
-/

namespace ScriptSandbox

namespace Decimal

theorem roundDiv_mono {a b : Nat} (den : Nat) (h : a ≤ b) : roundDiv a den ≤ roundDiv b den := by
  have hquotient : a / den ≤ b / den := Nat.div_le_div_right h
  have ha := Nat.div_add_mod a den
  have hb := Nat.div_add_mod b den
  unfold roundDiv
  dsimp only
  rcases Nat.lt_or_eq_of_le hquotient with hlt | heq
  · split <;> split <;> omega
  · -- with the same quotient the remainders are in order, too
    rw [heq] at ha ⊢
    split <;> split <;> omega

theorem le_roundDiv {a k den : Nat} (hden : 0 < den) (h : k * den ≤ a) : k ≤ roundDiv a den := by
  have := (Nat.le_div_iff_mul_le hden).2 h
  unfold roundDiv
  dsimp only
  split <;> omega

theorem roundDiv_le {a k den : Nat} (hden : 0 < den) (h : a ≤ k * den) : roundDiv a den ≤ k := by
  rcases Nat.lt_or_eq_of_le h with hlt | rfl
  · have := Nat.div_lt_of_lt_mul (Nat.mul_comm k den ▸ hlt)
    unfold roundDiv
    dsimp only
    split <;> omega
  · have hquotient := Nat.mul_div_cancel k hden
    have hremainder := Nat.mul_mod_left k den
    unfold roundDiv
    dsimp only
    split <;> omega

end Decimal

namespace Binary64

/-- The significand of the double nearest to a positive natural number: fifty-three bits. -/
def intSignificand (n : Nat) : Nat :=
  if 52 ≤ n.log2 then Decimal.roundDiv n (Decimal.twoTo (n.log2 - 52))
  else n * Decimal.twoTo (52 - n.log2)

/-- The exponent and fraction fields of the double nearest to a positive natural number, but for the
end of the range. -/
def intField (n : Nat) : Nat := (n.log2 + 1023) * hiddenBit + (intSignificand n - hiddenBit)

theorem intSignificand_bounds {n : Nat} (h : n ≠ 0) :
    hiddenBit ≤ intSignificand n ∧ intSignificand n ≤ 2 * hiddenBit := by
  have hlow : 2 ^ n.log2 ≤ n := Nat.log2_self_le h
  have hhigh : n < 2 ^ (n.log2 + 1) := Nat.lt_log2_self
  -- bits are cut off above fifty-three of them, and zeros are appended below
  unfold intSignificand
  split
  · rename_i hlog
    have hsplit : 2 ^ n.log2 = hiddenBit * Decimal.twoTo (n.log2 - 52) := by
      show 2 ^ n.log2 = 2 ^ 52 * 2 ^ (n.log2 - 52)
      rw [← Nat.pow_add]
      congr 1
      omega
    have hpos : 0 < Decimal.twoTo (n.log2 - 52) := Nat.two_pow_pos _
    exact ⟨Decimal.le_roundDiv hpos (by omega), Decimal.roundDiv_le hpos (by
      rw [Nat.pow_succ] at hhigh
      rw [Nat.mul_assoc, ← hsplit]
      omega)⟩
  · rename_i hlog
    have hsplit : hiddenBit = 2 ^ n.log2 * Decimal.twoTo (52 - n.log2) := by
      show 2 ^ 52 = 2 ^ n.log2 * 2 ^ (52 - n.log2)
      rw [← Nat.pow_add]
      congr 1
      omega
    rw [Nat.pow_succ] at hhigh
    refine ⟨?_, ?_⟩
    · rw [hsplit]
      exact Nat.mul_le_mul_right _ hlow
    · calc n * Decimal.twoTo (52 - n.log2) ≤ 2 * 2 ^ n.log2 * Decimal.twoTo (52 - n.log2) :=
            Nat.mul_le_mul_right _ (by omega)
        _ = 2 * hiddenBit := by rw [Nat.mul_assoc, ← hsplit]

theorem intField_mono {m n : Nat} (hm : m ≠ 0) (h : m ≤ n) : intField m ≤ intField n := by
  have hn : n ≠ 0 := by omega
  have hlog : m.log2 ≤ n.log2 := (Nat.le_log2 hn).2 (Nat.le_trans (Nat.log2_self_le hm) h)
  have hbm := intSignificand_bounds hm
  have hbn := intSignificand_bounds hn
  unfold intField
  rcases Nat.lt_or_eq_of_le hlog with hlt | heq
  · have : (m.log2 + 1024) * hiddenBit ≤ (n.log2 + 1023) * hiddenBit :=
      Nat.mul_le_mul_right _ (by omega)
    have : (m.log2 + 1024) * hiddenBit = (m.log2 + 1023) * hiddenBit + hiddenBit :=
      Nat.succ_mul _ _
    omega
  · have hsig : intSignificand m ≤ intSignificand n := by
      unfold intSignificand
      rw [heq]
      split
      · exact Decimal.roundDiv_mono _ h
      · exact Nat.mul_le_mul_right _ h
    rw [heq]
    omega

theorem lastPlace_one {n : Nat} (h : n ≠ 0) : lastPlace n 1 = (n.log2 : Int) - 52 := by
  have hlow : 2 ^ n.log2 ≤ n := Nat.log2_self_le h
  have hguess : (n.log2 : Int) - (Nat.log2 1 : Nat) - 52 + 52 = n.log2 := by
    rw [show Nat.log2 1 = 0 from by decide]
    omega
  have hexact : ¬n < 1 * Decimal.twoTo n.log2 := by
    show ¬n < 1 * 2 ^ n.log2
    omega
  unfold lastPlace
  simp only [hguess, Int.toNat_natCast, hexact]
  simp
  omega

/-- The double nearest to a number that is positive but for its sign. -/
theorem ofRatio_one (negative : Bool) {n : Nat} (h : n ≠ 0) :
    ofRatio negative n 1 = withSign negative (min (intField n) (2047 * hiddenBit)) := by
  have hsig : (if 0 ≤ lastPlace n 1 then
        Decimal.roundDiv n (1 * Decimal.twoTo (lastPlace n 1).toNat)
      else Decimal.roundDiv (n * Decimal.twoTo (-lastPlace n 1).toNat) 1) = intSignificand n := by
    rw [lastPlace_one h]
    unfold intSignificand
    by_cases hlog : 52 ≤ n.log2
    · rw [if_pos hlog, if_pos (by omega), Nat.one_mul]
      congr 2
      omega
    · rw [if_neg hlog, if_neg (by omega)]
      have hplace : (-((n.log2 : Int) - 52)).toNat = 52 - n.log2 := by omega
      rw [hplace]
      simp [Decimal.roundDiv, Nat.mod_one]
  have hbounds := intSignificand_bounds h
  have hplace : (lastPlace n 1 + 1075).toNat = n.log2 + 1023 := by
    rw [lastPlace_one h]
    omega
  unfold ofRatio
  simp only [if_neg h, hsig, if_neg (Nat.not_lt.2 hbounds.1), hplace, intField]

theorem ofInt_eq {n : Nat} (h : n ≠ 0) :
    ofInt n = withSign false (min (intField n) (2047 * hiddenBit)) := by
  show ofRatio ((n : Int) < 0) (n : Int).natAbs 1 = _
  rw [Int.natAbs_natCast, ofRatio_one _ h]
  congr 1

theorem toNat_withSign (negative : Bool) {field : Nat} (h : field ≤ 2047 * hiddenBit) :
    (withSign negative field).bits.toNat = (if negative then signBit else 0) + field := by
  have hsize : signBit + 2047 * hiddenBit < 2 ^ 64 := by decide
  have hfits : (if negative then signBit + field else field) < 2 ^ 64 := by split <;> omega
  rw [withSign, UInt64.toNat_ofNat_of_lt' hfits]
  cases negative <;> simp

theorem isNegative_withSign (negative : Bool) {field : Nat} (h : field ≤ 2047 * hiddenBit) :
    (withSign negative field).isNegative = negative := by
  have hsize : 2047 * hiddenBit < signBit := by decide
  rw [isNegative, toNat_withSign negative h]
  cases negative
  · simp only [Bool.false_eq_true, if_false, Nat.zero_add, decide_eq_false_iff_not]
    omega
  · simp

theorem orderKey_withSign (negative : Bool) {field : Nat} (h : field ≤ 2047 * hiddenBit) :
    (withSign negative field).orderKey = if negative then -(field : Int) else field := by
  have hsize : 2047 * hiddenBit < signBit := by decide
  have hmagnitude : (withSign negative field).magnitudeBits = field := by
    rw [magnitudeBits, toNat_withSign negative h]
    cases negative
    · simpa using Nat.mod_eq_of_lt (show field < signBit by omega)
    · simpa using Nat.mod_eq_of_lt (show field < signBit by omega)
  rw [orderKey, hmagnitude, isNegative_withSign negative h]

theorem isNaN_withSign (negative : Bool) {field : Nat} (h : field ≤ 2047 * hiddenBit) :
    (withSign negative field).isNaN = false := by
  simp only [isNaN, exponentField, fraction, toNat_withSign negative h, decide_eq_false_iff_not]
  unfold hiddenBit signBit at *
  split <;> omega

/-- The double nearest to a natural number, by the order of its bits. -/
theorem ofInt_cases (n : Nat) : ∃ field ≤ 2047 * hiddenBit, ofInt n = withSign false field ∧
    (n = 0 → field = 0) ∧ (n ≠ 0 → field = min (intField n) (2047 * hiddenBit)) := by
  rcases Nat.eq_zero_or_pos n with rfl | hpos
  · exact ⟨0, Nat.zero_le _, rfl, fun _ => rfl, fun h => absurd rfl h⟩
  · have hn : n ≠ 0 := by omega
    exact ⟨_, Nat.min_le_right _ _, ofInt_eq hn, fun h => absurd h hn, fun _ => rfl⟩

theorem isNaN_ofInt (n : Nat) : (ofInt n).isNaN = false := by
  obtain ⟨field, hfield, heq, -⟩ := ofInt_cases n
  rw [heq]
  exact isNaN_withSign false hfield

/-- Rounding keeps the order of natural numbers. -/
theorem orderKey_ofInt_mono {m n : Nat} (h : m ≤ n) : (ofInt m).orderKey ≤ (ofInt n).orderKey := by
  obtain ⟨a, ha, hma, hzero, hpos⟩ := ofInt_cases m
  obtain ⟨b, hb, hnb, hzero', hpos'⟩ := ofInt_cases n
  rw [hma, hnb, orderKey_withSign false ha, orderKey_withSign false hb]
  simp only [Bool.false_eq_true, if_false]
  by_cases hm : m = 0
  · rw [hzero hm]
    omega
  · have := intField_mono hm h
    rw [hpos hm, hpos' (by omega)]
    omega

theorem less_ofInt_of_le {m n : Nat} {x : Binary64} (h : m ≤ n) (hx : (ofInt n).less x = true) :
    (ofInt m).less x = true := by
  have hkeys := orderKey_ofInt_mono h
  simp only [less, order, isNaN_ofInt, Bool.false_or] at hx ⊢
  split at hx
  · cases hx
  · rename_i hnan
    rw [if_neg hnan]
    simp only [beq_iff_eq, Option.some.injEq, Int.compare_eq_lt] at hx ⊢
    omega

end Binary64

/-- What exceeds the greater of two bounds exceeds the smaller one. -/
theorem Arithmetic.exceeds_of_le {m n : Nat} {x : Binary64} (h : m ≤ n)
    (hx : exceeds x n = true) : exceeds x m = true := Binary64.less_ofInt_of_le h hx

end ScriptSandbox

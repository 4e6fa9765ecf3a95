import ScriptSandbox.Proofs.Nearest

/-!
# Integral doubles

An integral double is the one nearest to its integer part, so as a number it is equal to that
integer (`Binary64.equal_ofInt`), and two integral doubles with one integer part are equal. Doubles
that are equal have the same bits unless both are zero (`Binary64.eq_of_equal`).
-/

namespace ScriptSandbox

namespace Decimal

/-- Rounding an exact quotient changes nothing. -/
theorem roundDiv_exact {n den : Nat} (h : 0 < den) : roundDiv (n * den) den = n :=
  Nat.le_antisymm (roundDiv_le h (Nat.le_refl _)) (le_roundDiv h (Nat.le_refl _))

end Decimal

namespace Binary64

variable {x y : Binary64}

/-! ## Fields -/

theorem hiddenBit_le_twoTo {n : Nat} (h : 52 ≤ n) : hiddenBit ≤ Decimal.twoTo n :=
  show 2 ^ 52 ≤ 2 ^ n from Nat.pow_le_pow_right (by decide) h

theorem fraction_lt (x : Binary64) : x.fraction < hiddenBit := Nat.mod_lt _ (by decide)

theorem magnitudeBits_eq (x : Binary64) :
    x.magnitudeBits = x.exponentField * hiddenBit + x.fraction := by
  unfold magnitudeBits exponentField fraction signBit hiddenBit
  omega

theorem toNat_bits (x : Binary64) :
    x.bits.toNat = (if x.isNegative then signBit else 0) + x.magnitudeBits := by
  have := x.bits.toNat_lt
  unfold isNegative magnitudeBits signBit
  simp only [decide_eq_true_eq]
  split <;> omega

theorem eq_of_fields (hsign : x.isNegative = y.isNegative)
    (hmagnitude : x.magnitudeBits = y.magnitudeBits) : x = y := by
  have hbits : x.bits.toNat = y.bits.toNat := by rw [toNat_bits, toNat_bits, hsign, hmagnitude]
  obtain ⟨_⟩ := x
  obtain ⟨_⟩ := y
  exact congrArg _ (UInt64.toNat_inj.1 hbits)

/-! ## Equality -/

theorem equal_iff : x.equal y = true ↔
    x.isNaN = false ∧ y.isNaN = false ∧ x.orderKey = y.orderKey := by
  unfold equal order
  cases x.isNaN <;> cases y.isNaN <;> simp

theorem natAbs_orderKey (x : Binary64) : x.orderKey.natAbs = x.magnitudeBits := by
  unfold orderKey
  split <;> simp

/-- Only the zeros are equal to a number with other bits. -/
theorem eq_of_equal (h : x.equal y = true) : x = y ∨ (x.isZero = true ∧ y.isZero = true) := by
  obtain ⟨-, -, hkey⟩ := equal_iff.1 h
  have hmagnitude : x.magnitudeBits = y.magnitudeBits := by
    rw [← natAbs_orderKey x, ← natAbs_orderKey y, hkey]
  by_cases hsign : x.isNegative = y.isNegative
  · exact .inl (eq_of_fields hsign hmagnitude)
  · -- numbers of different signs have one order key only if this is zero
    simp only [isZero, decide_eq_true_eq]
    unfold orderKey at hkey
    cases hx : x.isNegative <;> cases hy : y.isNegative <;> rw [hx, hy] at hkey hsign
    · exact absurd rfl hsign
    · simp only [Bool.false_eq_true, if_true, if_false] at hkey
      omega
    · simp only [Bool.false_eq_true, if_true, if_false] at hkey
      omega
    · exact absurd rfl hsign

/-! ## Integer parts -/

/-- The integer part without its sign. -/
def whole (x : Binary64) : Nat := x.ratio.1 / x.ratio.2

/-- A number is an integer if it is finite and nothing of it is cut off. -/
def IsInt (x : Binary64) (n : Int) : Prop := x.isIntegral = true ∧ x.truncate = n

/-- Fifty-three significant bits followed by zeros are kept. -/
theorem intField_shifted {significand shift : Nat} (hlow : hiddenBit ≤ significand)
    (hhigh : significand < 2 * hiddenBit) :
    intField (significand * Decimal.twoTo shift) =
      (shift + 1075) * hiddenBit + (significand - hiddenBit) := by
  have hpow : Decimal.twoTo shift = 2 ^ shift := rfl
  have hpos : 0 < Decimal.twoTo shift := Nat.two_pow_pos _
  have hlog : (significand * Decimal.twoTo shift).log2 = 52 + shift := by
    rw [Nat.log2_eq_iff (Nat.mul_ne_zero (by unfold hiddenBit at hlow; omega) (by omega)),
      Nat.add_right_comm, Nat.pow_add, Nat.pow_add, ← hpow]
    exact ⟨Nat.mul_le_mul_right _ hlow, Nat.mul_lt_mul_of_pos_right hhigh hpos⟩
  unfold intField intSignificand
  rw [hlog, if_pos (by omega), Nat.add_sub_cancel_left, Decimal.roundDiv_exact hpos]
  congr 2
  omega

/-- Fewer than fifty-three bits are filled up with zeros. -/
theorem intField_filled {n shift : Nat} (hn : n ≠ 0) (hlow : hiddenBit ≤ n * Decimal.twoTo shift)
    (hhigh : n * Decimal.twoTo shift < 2 * hiddenBit) (hshift : 0 < shift) :
    intField n = (1075 - shift) * hiddenBit + (n * Decimal.twoTo shift - hiddenBit) := by
  have hpow : Decimal.twoTo shift = 2 ^ shift := rfl
  have hle : shift ≤ 52 := by
    have hone : 2 ^ shift < 2 ^ 53 :=
      Nat.lt_of_le_of_lt (Nat.le_mul_of_pos_left _ (Nat.pos_of_ne_zero hn)) hhigh
    exact Nat.le_of_lt_succ ((Nat.pow_lt_pow_iff_right (by decide)).1 hone)
  have hlog : n.log2 = 52 - shift := by
    have hsplit : hiddenBit = 2 ^ (52 - shift) * Decimal.twoTo shift := by
      rw [hpow, ← Nat.pow_add, Nat.sub_add_cancel hle]
      rfl
    rw [Nat.log2_eq_iff hn, Nat.pow_succ, Nat.mul_comm _ 2]
    rw [hsplit] at hlow hhigh
    rw [← Nat.mul_assoc] at hhigh
    exact ⟨Nat.le_of_mul_le_mul_right hlow (Nat.two_pow_pos _), Nat.lt_of_mul_lt_mul_right hhigh⟩
  unfold intField intSignificand
  rw [hlog, if_neg (by omega), show 52 - (52 - shift) = shift by omega]
  congr 2
  omega

/-- Small numbers have no hidden bit, and the last place of large ones is one or more. -/
theorem ratio_cases (x : Binary64) :
    (x.exponentField = 0 ∧ x.ratio = (x.fraction, Decimal.twoTo 1074)) ∨
    (0 < x.exponentField ∧ x.exponentField < 1075 ∧
      x.ratio = (hiddenBit + x.fraction, Decimal.twoTo (1075 - x.exponentField))) ∨
    (1075 ≤ x.exponentField ∧
      x.ratio = ((hiddenBit + x.fraction) * Decimal.twoTo (x.exponentField - 1075), 1)) := by
  unfold ratio significand exponent
  by_cases hsmall : x.exponentField = 0
  · exact .inl ⟨hsmall, by simp [hsmall]⟩
  · have hmax : max x.exponentField 1 = x.exponentField := by omega
    rw [if_neg hsmall, hmax]
    by_cases hlarge : 1075 ≤ x.exponentField
    · have hplace : ((x.exponentField : Int) - 1075).toNat = x.exponentField - 1075 := by omega
      exact .inr (.inr ⟨hlarge, by rw [if_pos (by omega), hplace]⟩)
    · have hplace : (-((x.exponentField : Int) - 1075)).toNat = 1075 - x.exponentField := by omega
      exact .inr (.inl ⟨by omega, by omega, by rw [if_neg (by omega), hplace]⟩)

theorem whole_mul (h : x.isIntegral = true) : x.whole * x.ratio.2 = x.ratio.1 := by
  simp only [isIntegral, Bool.and_eq_true, beq_iff_eq] at h
  exact Nat.div_mul_cancel (Nat.dvd_of_mod_eq_zero h.2)

/-- The exponent and fraction of an integral number are those of the number nearest to its integer
part. -/
theorem intField_whole (h : x.isIntegral = true) (hwhole : x.whole ≠ 0) :
    intField x.whole = x.magnitudeBits := by
  have hfraction := x.fraction_lt
  have hexact := whole_mul h
  rw [magnitudeBits_eq]
  rcases x.ratio_cases with ⟨-, hratio⟩ | ⟨hpos, hlt, hratio⟩ | ⟨hle, hratio⟩
  · -- what is smaller than the last place of one is no integer
    refine absurd ?_ hwhole
    have hlt : x.fraction < Decimal.twoTo 1074 :=
      Nat.lt_of_lt_of_le hfraction (hiddenBit_le_twoTo (by decide))
    simp only [whole, hratio, Nat.div_eq_of_lt hlt]
  · simp only [hratio] at hexact
    have hfield := intField_filled hwhole (by omega) (by omega) (Nat.sub_pos_of_lt hlt)
    rw [hfield, hexact, Nat.add_sub_cancel_left, Nat.sub_sub_self (Nat.le_of_lt hlt)]
  · simp only [hratio, Nat.mul_one] at hexact
    rw [hexact, intField_shifted (by omega) (by omega), Nat.add_sub_cancel_left,
      Nat.sub_add_cancel hle]

theorem magnitudeBits_of_whole (h : x.isIntegral = true) (hwhole : x.whole = 0) :
    x.magnitudeBits = 0 := by
  have hexact := whole_mul h
  rw [hwhole, Nat.zero_mul] at hexact
  have hsignificand : hiddenBit + x.fraction ≠ 0 := by unfold hiddenBit; omega
  rw [magnitudeBits_eq]
  rcases x.ratio_cases with ⟨hzero, hratio⟩ | ⟨-, -, hratio⟩ | ⟨-, hratio⟩
  · simp only [hratio] at hexact
    rw [hzero, ← hexact, Nat.zero_mul]
  · simp only [hratio] at hexact
    exact absurd hexact.symm hsignificand
  · simp only [hratio] at hexact
    exact absurd hexact.symm (Nat.mul_ne_zero hsignificand (Nat.ne_of_gt (Nat.two_pow_pos _)))

theorem isInt_zero (h : x.isZero = true) : x.IsInt 0 := by
  simp only [isZero, decide_eq_true_eq, magnitudeBits_eq] at h
  have hzero : x.exponentField = 0 := by unfold hiddenBit at h; omega
  have hfraction : x.fraction = 0 := by omega
  rcases x.ratio_cases with ⟨-, hratio⟩ | ⟨hpos, -⟩ | ⟨hle, -⟩
  · have hnum : x.ratio.1 = 0 := by rw [hratio, hfraction]
    exact ⟨by simp [isIntegral, isFinite, hzero, hnum], by simp [truncate, hnum]⟩
  · omega
  · omega

/-- An integral number is not reached by rounding: it is equal to its integer part. -/
theorem equal_ofInt {n : Int} (h : x.IsInt n) : (ofInt n).equal x = true := by
  obtain ⟨h, rfl⟩ := h
  have hfinite : x.exponentField ≠ 2047 := by
    simp only [isIntegral, isFinite, Bool.and_eq_true, decide_eq_true_eq] at h
    exact h.1
  have hnan : x.isNaN = false := by simp [isNaN, hfinite]
  have htruncate : x.truncate = if x.isNegative then -(x.whole : Int) else x.whole := rfl
  -- zero has no exponent, so it is looked at on its own
  by_cases hwhole : x.whole = 0
  · have hzero : x.truncate = 0 := by rw [htruncate, hwhole]; simp
    have hkey : x.orderKey = 0 := by simp [orderKey, magnitudeBits_of_whole h hwhole]
    rw [hzero]
    exact equal_iff.2 ⟨by decide, hnan, by rw [hkey]; decide⟩
  · have hmagnitude := intField_whole h hwhole
    have hmax : x.magnitudeBits ≤ 2047 * hiddenBit := by
      have := x.fraction_lt
      have hfield : x.exponentField < 2048 := Nat.mod_lt _ (by decide)
      have : x.exponentField * hiddenBit ≤ 2046 * hiddenBit := Nat.mul_le_mul_right _ (by omega)
      rw [magnitudeBits_eq]
      omega
    have hnearest : ofInt x.truncate = withSign x.isNegative x.magnitudeBits := by
      have habs : x.truncate.natAbs = x.whole := by rw [htruncate]; split <;> simp
      have hsign : decide (x.truncate < 0) = x.isNegative := by
        rw [htruncate]
        cases x.isNegative
        · simp
        · simp only [if_true, decide_eq_true_eq]
          omega
      rw [ofInt, habs, hsign, ofRatio_one _ hwhole, hmagnitude, Nat.min_eq_left hmax]
    rw [hnearest]
    exact equal_iff.2 ⟨isNaN_withSign _ hmax, hnan, by rw [orderKey_withSign _ hmax, orderKey]⟩

/-- Two doubles that are one integer are equal. -/
theorem IsInt.equal {n : Int} (hx : x.IsInt n) (hy : y.IsInt n) : x.equal y = true := by
  obtain ⟨-, hxnan, hxkey⟩ := equal_iff.1 (equal_ofInt hx)
  obtain ⟨-, hynan, hykey⟩ := equal_iff.1 (equal_ofInt hy)
  exact equal_iff.2 ⟨hxnan, hynan, hxkey.symm.trans hykey⟩

end Binary64

end ScriptSandbox

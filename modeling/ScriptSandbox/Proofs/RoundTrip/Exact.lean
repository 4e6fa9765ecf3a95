import Mathlib.Algebra.Group.Nat.Defs
import ScriptSandbox.Json.Basic
import ScriptSandbox.Proofs.Integral

/-!
# Doubles as exact decimals

A finite double is a significand times a power of two, so it is a decimal with finitely many digits:
a negative power of two is one of five over one of ten. Written so in full, it is read back exactly
(`toBinary64?_exact`).
-/

namespace ScriptSandbox

namespace Binary64

variable {x : Binary64}

/-- A number has its sign and its remaining bits. -/
theorem withSign_eq (h : x.magnitudeBits ≤ 2047 * hiddenBit) :
    withSign x.isNegative x.magnitudeBits = x := by
  have hbits : (withSign x.isNegative x.magnitudeBits).bits.toNat = x.bits.toNat := by
    rw [toNat_withSign _ h, toNat_bits x]
  exact congrArg Binary64.mk (UInt64.toNat_inj.1 hbits)

theorem exponentField_lt (h : x.isFinite = true) : x.exponentField < 2047 := by
  have : x.exponentField < 2048 := Nat.mod_lt _ (by decide)
  simp only [isFinite, ne_eq, decide_eq_true_eq] at h
  omega

theorem magnitudeBits_lt (h : x.isFinite = true) : x.magnitudeBits < 2047 * hiddenBit := by
  have hfield := exponentField_lt h
  have hfraction := x.fraction_lt
  rw [magnitudeBits_eq]
  calc x.exponentField * hiddenBit + x.fraction < (x.exponentField + 1) * hiddenBit := by
        rw [Nat.succ_mul]
        omega
    _ ≤ 2047 * hiddenBit := Nat.mul_le_mul_right _ hfield

theorem significand_lt (x : Binary64) : x.significand < 2 ^ 53 := by
  have : x.fraction < 2 ^ 52 := x.fraction_lt
  have hhidden : hiddenBit = 2 ^ 52 := rfl
  unfold significand
  split <;> omega

/-- Only the smallest numbers lack the hidden bit. -/
theorem significand_ge (x : Binary64) : 2 ^ 52 ≤ x.significand ∨ x.exponent = -1074 := by
  unfold significand exponent
  split
  · rename_i hzero
    exact .inr (by rw [hzero]; rfl)
  · exact .inl (Nat.le_add_right (2 ^ 52) _)

theorem exponent_ge (x : Binary64) : -1074 ≤ x.exponent := by
  unfold exponent
  omega

theorem exponent_le (h : x.isFinite = true) : x.exponent ≤ 971 := by
  have := exponentField_lt h
  unfold exponent
  omega

/-- The exponent and fraction fields for a significand whose last place has an exponent. -/
def fieldAt (place : Int) (significand : Nat) : Nat :=
  if significand < hiddenBit then significand
  else (place + 1075).toNat * hiddenBit + (significand - hiddenBit)

theorem fieldAt_exponent (x : Binary64) : fieldAt x.exponent x.significand = x.magnitudeBits := by
  have hfraction := x.fraction_lt
  rw [magnitudeBits_eq, fieldAt, exponent, significand]
  by_cases hzero : x.exponentField = 0
  · simp [hzero, hfraction]
  · rw [if_neg hzero, if_neg (by omega)]
    have hfield : ((max x.exponentField 1 : Nat) - 1075 + 1075 : Int).toNat = x.exponentField := by omega
    rw [hfield]
    omega

/-- The last place by the binary logarithms of a quotient. -/
theorem lastPlace_eq (num den : Nat) : lastPlace num den =
    max ((num.log2 : Int) - den.log2 - (if num * 2 ^ den.log2 < den * 2 ^ num.log2 then 53 else 52))
      (-1074) := by
  -- the division by the smaller power is written as a product in both cases
  have hlow : (if 0 ≤ (num.log2 : Int) - den.log2 - 52 + 52 then
        decide (num < den * Decimal.twoTo ((num.log2 : Int) - den.log2 - 52 + 52).toNat)
      else decide (num * Decimal.twoTo (-((num.log2 : Int) - den.log2 - 52 + 52)).toNat < den)) =
      decide (num * 2 ^ den.log2 < den * 2 ^ num.log2) := by
    simp only [Int.sub_add_cancel]
    split
    · rename_i hle
      have hsplit : 2 ^ num.log2 = 2 ^ ((num.log2 : Int) - den.log2).toNat * 2 ^ den.log2 := by
        rw [← Nat.pow_add]
        congr 1
        omega
      rw [hsplit, ← Nat.mul_assoc]
      exact decide_eq_decide.2 (Nat.mul_lt_mul_right (Nat.two_pow_pos _)).symm
    · rename_i hlt
      have hsplit : 2 ^ den.log2 = 2 ^ (-((num.log2 : Int) - den.log2)).toNat * 2 ^ num.log2 := by
        rw [← Nat.pow_add]
        congr 1
        omega
      rw [hsplit, ← Nat.mul_assoc]
      exact decide_eq_decide.2 (Nat.mul_lt_mul_right (Nat.two_pow_pos _)).symm
  unfold lastPlace
  simp only [hlow, decide_eq_true_eq]
  split <;> omega

section Exact

variable {num den significand shift : Nat}

/-- The logarithms of an exact quotient, from a bound on its significand. -/
theorem log2_lt_of_exact {bits : Nat} (hnum : num ≠ 0)
    (hexact : num * 2 ^ shift = significand * den) (hhigh : significand < 2 ^ bits) :
    num.log2 + shift < bits + (den.log2 + 1) := by
  rw [← Nat.pow_lt_pow_iff_right (show 1 < 2 by decide), Nat.pow_add, Nat.pow_add]
  calc 2 ^ num.log2 * 2 ^ shift ≤ num * 2 ^ shift := Nat.mul_le_mul_right _ (Nat.log2_self_le hnum)
    _ = significand * den := hexact
    _ ≤ 2 ^ bits * den := Nat.mul_le_mul_right _ (Nat.le_of_lt hhigh)
    _ < 2 ^ bits * 2 ^ (den.log2 + 1) :=
      Nat.mul_lt_mul_of_pos_left Nat.lt_log2_self (Nat.two_pow_pos _)

theorem le_log2_of_exact {bits : Nat} (hden : den ≠ 0)
    (hexact : num * 2 ^ shift = significand * den) (hlow : 2 ^ bits ≤ significand) :
    bits + den.log2 < num.log2 + 1 + shift := by
  rw [← Nat.pow_lt_pow_iff_right (show 1 < 2 by decide), Nat.pow_add, Nat.pow_add _ _ shift]
  calc 2 ^ bits * 2 ^ den.log2 ≤ significand * den := Nat.mul_le_mul hlow (Nat.log2_self_le hden)
    _ = num * 2 ^ shift := hexact.symm
    _ < 2 ^ (num.log2 + 1) * 2 ^ shift :=
      Nat.mul_lt_mul_of_pos_right Nat.lt_log2_self (Nat.two_pow_pos _)

/-- The last place of an exact quotient with at most fifty-three significant bits. -/
theorem lastPlace_exact (hnum : num ≠ 0) (hden : den ≠ 0)
    (hexact : num * 2 ^ shift = significand * den) (hhigh : significand < 2 ^ 53)
    (hlow : 2 ^ 52 ≤ significand ∨ shift = 1074) (hshift : shift ≤ 1074) :
    lastPlace num den = -shift := by
  rw [lastPlace_eq]
  by_cases hnormal : 2 ^ 52 ≤ significand
  · have hupper := log2_lt_of_exact hnum hexact hhigh
    have hlower := le_log2_of_exact hden hexact hnormal
    have hscaled : num * 2 ^ den.log2 * 2 ^ shift = significand * 2 ^ den.log2 * den := by
      rw [Nat.mul_right_comm, hexact, Nat.mul_right_comm]
    have hother : ∀ bits, num.log2 + shift = bits + den.log2 →
        den * 2 ^ num.log2 * 2 ^ shift = 2 ^ bits * 2 ^ den.log2 * den := fun bits h => by
      rw [Nat.mul_assoc, ← Nat.pow_add, h, Nat.pow_add, Nat.mul_comm]
    -- the logarithms leave two cases, and the comparison tells them apart
    by_cases hcarry : num.log2 + shift = 53 + den.log2
    · have hlt : num * 2 ^ den.log2 < den * 2 ^ num.log2 := by
        refine Nat.lt_of_mul_lt_mul_right (a := 2 ^ shift) ?_
        rw [hscaled, hother 53 hcarry, Nat.mul_assoc, Nat.mul_assoc]
        exact Nat.mul_lt_mul_of_pos_right hhigh
          (Nat.mul_pos (Nat.two_pow_pos _) (Nat.pos_of_ne_zero hden))
      rw [if_pos hlt]
      omega
    · have hge : den * 2 ^ num.log2 ≤ num * 2 ^ den.log2 := by
        refine Nat.le_of_mul_le_mul_right ?_ (Nat.two_pow_pos shift)
        rw [hscaled, hother 52 (by omega), Nat.mul_assoc, Nat.mul_assoc]
        exact Nat.mul_le_mul_right _ hnormal
      rw [if_neg (Nat.not_lt.2 hge)]
      omega
  · have hupper := log2_lt_of_exact hnum hexact (Nat.not_le.1 hnormal)
    split <;> omega

end Exact

/-- An exact quotient is not rounded. -/
theorem ofRatio_exact {num den : Nat} (hfinite : x.isFinite = true) (hden : den ≠ 0)
    (hexponent : x.exponent < 0) (hzero : x.significand ≠ 0)
    (hexact : num * 2 ^ (-x.exponent).toNat = x.significand * den) :
    ofRatio x.isNegative num den = x := by
  have hnum : num ≠ 0 := by
    rintro rfl
    rw [Nat.zero_mul] at hexact
    exact Nat.mul_ne_zero hzero hden hexact.symm
  have hleast := x.exponent_ge
  have hplace : lastPlace num den = x.exponent := by
    rw [lastPlace_exact hnum hden hexact x.significand_lt
      (x.significand_ge.imp_right fun h => by omega) (by omega)]
    omega
  have hsignificand :
      Decimal.roundDiv (num * Decimal.twoTo (-x.exponent).toNat) den = x.significand := by
    show Decimal.roundDiv (num * 2 ^ (-x.exponent).toNat) den = _
    rw [hexact, Decimal.roundDiv_exact (Nat.pos_of_ne_zero hden)]
  have hfield := fieldAt_exponent x
  have hmax := Nat.le_of_lt (magnitudeBits_lt hfinite)
  unfold fieldAt at hfield
  unfold ofRatio
  simp only [if_neg hnum, hplace, if_neg (Int.not_le.2 hexponent), hsignificand]
  rw [hfield, Nat.min_eq_left hmax, withSign_eq hmax]

/-- A whole number with at most fifty-three significant bits is not rounded. -/
theorem ofRatio_whole (hfinite : x.isFinite = true) (hexponent : 0 ≤ x.exponent) :
    ofRatio x.isNegative (x.significand * Decimal.twoTo x.exponent.toNat) 1 = x := by
  have hlow : hiddenBit ≤ x.significand := x.significand_ge.resolve_right (by omega)
  have hhigh : x.significand < 2 * hiddenBit := x.significand_lt
  have hfield : intField (x.significand * Decimal.twoTo x.exponent.toNat) = x.magnitudeBits := by
    rw [← fieldAt_exponent, fieldAt, if_neg (Nat.not_lt.2 hlow)]
    have hplace : (x.exponent + 1075).toNat = x.exponent.toNat + 1075 := by omega
    rw [intField_shifted hlow hhigh, hplace]
  have hmax := Nat.le_of_lt (magnitudeBits_lt hfinite)
  have hpos : x.significand * Decimal.twoTo x.exponent.toNat ≠ 0 :=
    Nat.mul_ne_zero (Nat.ne_of_gt (Nat.lt_of_lt_of_le (by decide) hlow))
      (Nat.ne_of_gt (Nat.two_pow_pos _))
  rw [ofRatio_one _ hpos, hfield, Nat.min_eq_left hmax, withSign_eq hmax]

/-- A decimal whose size is not far outside the range is read by its quotient. -/
theorem ofDecimal_within (negative : Bool) {digits : Nat} {exponent : Int} (hdigits : digits ≠ 0)
    (hhigh : (3 * digits.log2 / 10 : Nat) + exponent ≤ 400)
    (hlow : -400 ≤ (digits.log2 / 3 + 2 : Nat) + exponent) :
    ofDecimal negative digits exponent =
      if 0 ≤ exponent then ofRatio negative (digits * Decimal.tenTo exponent.toNat) 1
      else ofRatio negative digits (Decimal.tenTo (-exponent).toNat) := by
  unfold ofDecimal
  rw [if_neg hdigits]
  simp only [if_neg (Int.not_lt.2 hhigh), if_neg (Int.not_lt.2 hlow)]

theorem eq_zero_of_significand (h : x.significand = 0) : withSign x.isNegative 0 = x := by
  have hfield := fieldAt_exponent x
  rw [h, fieldAt, if_pos (by decide)] at hfield
  rw [hfield, withSign_eq (by rw [← hfield]; exact Nat.zero_le _)]

/-- A whole double is read from its digits. -/
theorem ofDecimal_whole (hfinite : x.isFinite = true) (hexponent : 0 ≤ x.exponent) :
    ofDecimal x.isNegative (x.significand * Decimal.twoTo x.exponent.toNat) 0 = x := by
  have hgreatest := exponent_le hfinite
  have hlow : 2 ^ 52 ≤ x.significand := x.significand_ge.resolve_right (by omega)
  have hdigits : x.significand * Decimal.twoTo x.exponent.toNat ≠ 0 :=
    Nat.mul_ne_zero (Nat.ne_of_gt (Nat.lt_of_lt_of_le (by decide) hlow))
      (Nat.ne_of_gt (Nat.two_pow_pos _))
  have hlog : (x.significand * Decimal.twoTo x.exponent.toNat).log2 < 53 + x.exponent.toNat := by
    rw [Nat.log2_lt hdigits, Nat.pow_add]
    exact Nat.mul_lt_mul_of_pos_right x.significand_lt (Nat.two_pow_pos _)
  rw [ofDecimal_within _ hdigits (by omega) (by omega), if_pos (Int.le_refl 0)]
  have hone : Decimal.tenTo (0 : Int).toNat = 1 := rfl
  rw [hone, Nat.mul_one, ofRatio_whole hfinite hexponent]

/-- A double with a fraction is read from its digits: a negative power of two is one of five over one
of ten. -/
theorem ofDecimal_fraction (hfinite : x.isFinite = true) (hexponent : x.exponent < 0)
    (hzero : x.significand ≠ 0) :
    ofDecimal x.isNegative (x.significand * 5 ^ (-x.exponent).toNat) x.exponent = x := by
  have hleast := x.exponent_ge
  have hdigits : x.significand * 5 ^ (-x.exponent).toNat ≠ 0 :=
    Nat.mul_ne_zero hzero (Nat.ne_of_gt (Nat.pow_pos (by decide)))
  have hlogHigh : (x.significand * 5 ^ (-x.exponent).toNat).log2 < 53 + 3 * (-x.exponent).toNat := by
    rw [Nat.log2_lt hdigits, Nat.pow_add, Nat.pow_mul]
    exact Nat.mul_lt_mul_of_lt_of_le x.significand_lt (Nat.pow_le_pow_left (by decide) _)
      (Nat.pow_pos (by decide))
  have hlogLow : 2 * (-x.exponent).toNat ≤ (x.significand * 5 ^ (-x.exponent).toNat).log2 := by
    rw [Nat.le_log2 hdigits, Nat.pow_mul]
    exact Nat.le_trans (Nat.pow_le_pow_left (by decide) _)
      (Nat.le_mul_of_pos_left _ (Nat.pos_of_ne_zero hzero))
  rw [ofDecimal_within _ hdigits (by omega) (by omega), if_neg (Int.not_le.2 hexponent)]
  refine ofRatio_exact hfinite (Nat.ne_of_gt (Nat.pow_pos (by decide))) hexponent hzero ?_
  show x.significand * 5 ^ _ * 2 ^ _ = x.significand * 10 ^ _
  rw [Nat.mul_assoc, ← Nat.mul_pow]

end Binary64

namespace JsonNumber

/-- A finite double with all its digits. -/
def exact (x : Binary64) : JsonNumber :=
  if 0 ≤ x.exponent then ⟨x.isNegative, x.significand * Decimal.twoTo x.exponent.toNat, 0, false⟩
  else ⟨x.isNegative, x.significand * 5 ^ (-x.exponent).toNat, x.exponent, false⟩

/-- Every finite double is read back from its digits. -/
theorem toBinary64?_exact {x : Binary64} (h : x.isFinite = true) :
    (exact x).toBinary64? = some x := by
  have hread : Binary64.ofDecimal (exact x).negative (exact x).digits (exact x).exponent = x := by
    unfold exact
    split
    · rename_i hexponent
      exact Binary64.ofDecimal_whole h hexponent
    · rename_i hexponent
      by_cases hzero : x.significand = 0
      · dsimp only
        rw [hzero, Nat.zero_mul, Binary64.ofDecimal, if_pos rfl]
        exact Binary64.eq_zero_of_significand hzero
      · exact Binary64.ofDecimal_fraction h (Int.not_le.1 hexponent) hzero
  rw [toBinary64?, hread]
  exact if_pos h

end JsonNumber

end ScriptSandbox

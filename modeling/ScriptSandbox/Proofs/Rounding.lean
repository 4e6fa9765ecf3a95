import ScriptSandbox.Proofs.Integral

/-!
# Integers as doubles

An integer is compared with a double as the double nearest to it. Up to two to the fifty-third all
integers are doubles (`Binary64.isInt_ofInt`). A word beyond that may be rounded, but the nearest double
is still an integer (`Binary64.isIntegral_ofInt`), and rounding does not carry it past an integer that
is a double (`Binary64.le_of_rounded`, `Binary64.ge_of_rounded`).
-/

namespace ScriptSandbox

theorem Decimal.twoTo_zero : twoTo 0 = 1 := rfl

namespace Binary64

variable {x : Binary64} {k m n : Int}

/-! ## Fields -/

section Fields

variable {field : Nat} (negative : Bool)

theorem exponentField_withSign (h : field ≤ 2047 * hiddenBit) :
    (withSign negative field).exponentField = field / hiddenBit := by
  rw [exponentField, toNat_withSign negative h]
  unfold hiddenBit signBit at *
  split <;> omega

theorem fraction_withSign (h : field ≤ 2047 * hiddenBit) :
    (withSign negative field).fraction = field % hiddenBit := by
  rw [fraction, toNat_withSign negative h]
  unfold hiddenBit signBit at *
  split <;> omega

end Fields

/-- The double nearest to an integer that is not zero. -/
theorem ofInt_eq_withSign (h : n ≠ 0) :
    ofInt n = withSign (n < 0) (min (intField n.natAbs) (2047 * hiddenBit)) :=
  ofRatio_one _ (Int.natAbs_ne_zero.2 h)

/-! ## Order -/

theorem not_isNaN_ofInt (n : Int) : (ofInt n).isNaN = false := by
  by_cases h : n = 0
  · subst h
    decide
  · rw [ofInt_eq_withSign h]
    exact isNaN_withSign _ (Nat.min_le_right _ _)

theorem orderKey_ofInt_of_neg (h : n < 0) :
    (ofInt n).orderKey = -(ofInt (n.natAbs : Int)).orderKey := by
  have hn : n.natAbs ≠ 0 := by omega
  rw [ofInt_eq_withSign (by omega : n ≠ 0), ofInt_eq hn, orderKey_withSign _ (Nat.min_le_right _ _),
    orderKey_withSign _ (Nat.min_le_right _ _), decide_eq_true h, if_pos rfl,
    if_neg Bool.false_ne_true]

/-- Rounding keeps the order of integers. -/
theorem orderKey_ofInt_le (h : m ≤ n) : (ofInt m).orderKey ≤ (ofInt n).orderKey := by
  have hzero : (ofInt ((0 : Nat) : Int)).orderKey = 0 := by decide
  have hpos (n : Nat) : 0 ≤ (ofInt n).orderKey := hzero ▸ orderKey_ofInt_mono (Nat.zero_le n)
  rcases Int.lt_or_le m 0 with hm | hm
  · rw [orderKey_ofInt_of_neg hm]
    have := hpos m.natAbs
    rcases Int.lt_or_le n 0 with hn | hn
    · rw [orderKey_ofInt_of_neg hn]
      exact Int.neg_le_neg (orderKey_ofInt_mono (by omega))
    · obtain ⟨n, rfl⟩ := Int.eq_ofNat_of_zero_le hn
      have := hpos n
      omega
  · obtain ⟨m, rfl⟩ := Int.eq_ofNat_of_zero_le hm
    obtain ⟨n, rfl⟩ := Int.eq_ofNat_of_zero_le (Int.le_trans hm h)
    exact orderKey_ofInt_mono (Int.ofNat_le.1 h)

/-! ## Integers that are doubles -/

theorem IsInt.eq_of_equal {y : Binary64} (hx : x.IsInt m) (hy : y.IsInt n)
    (h : x.equal y = true) : m = n := by
  rcases Binary64.eq_of_equal h with rfl | ⟨hx0, hy0⟩
  · exact hx.2.symm.trans hy.2
  · rw [← hx.2, ← hy.2, (isInt_zero hx0).2, (isInt_zero hy0).2]

/-- A finite number is an integer if its numerator is a multiple of its denominator. -/
theorem isInt_of_ratio {N : Nat} (hfinite : x.exponentField ≠ 2047) (hden : 0 < x.ratio.2)
    (hratio : x.ratio.1 = N * x.ratio.2) : x.IsInt (if x.isNegative then -N else N) := by
  constructor
  · simp [isIntegral, isFinite, hfinite, hratio]
  · have hwhole : (x.ratio.1 : Int) / x.ratio.2 = N := by
      rw [hratio, ← Int.natCast_ediv, Nat.mul_div_cancel _ hden]
    unfold truncate
    simp only [hwhole]

/-- Fifty-three bits fill the significand exactly. -/
theorem intSignificand_of_lt {N : Nat} (h : N ≠ 0) (hN : N < 2 * hiddenBit) :
    intSignificand N = N * Decimal.twoTo (52 - N.log2) ∧ intSignificand N < 2 * hiddenBit ∧
      N.log2 ≤ 52 := by
  have hlog : N.log2 < 53 := (Nat.log2_lt h).2 hN
  have hexact : intSignificand N = N * Decimal.twoTo (52 - N.log2) := by
    unfold intSignificand
    split
    · have hplaces : N.log2 = 52 := by omega
      have hdiv := Decimal.roundDiv_exact (n := N) Nat.one_pos
      rw [Nat.mul_one] at hdiv
      rw [hplaces, Nat.sub_self, Decimal.twoTo_zero, Nat.mul_one, hdiv]
    · rfl
  refine ⟨hexact, ?_, by omega⟩
  have hpower : 2 ^ (N.log2 + 1) * Decimal.twoTo (52 - N.log2) = 2 * hiddenBit := by
    show 2 ^ (N.log2 + 1) * 2 ^ (52 - N.log2) = 2 ^ 53
    rw [← Nat.pow_add]
    congr 1
    omega
  rw [hexact, ← hpower]
  exact Nat.mul_lt_mul_of_pos_right Nat.lt_log2_self (Nat.two_pow_pos _)

/-- A word is far from the greatest doubles. -/
theorem intField_le {N : Nat} (h : N ≠ 0) (hN : N ≤ signBit) : intField N ≤ 1087 * hiddenBit := by
  have hlog : N.log2 < 64 := (Nat.log2_lt h).2 (Nat.lt_of_le_of_lt hN (by decide))
  have hsignificand := (intSignificand_bounds h).2
  have hexponent : (N.log2 + 1023) * hiddenBit ≤ 1086 * hiddenBit :=
    Nat.mul_le_mul_right _ (by omega)
  unfold intField
  omega

/-- The fields of the double nearest to a word. -/
theorem ofInt_fields (h : n ≠ 0) (hn : n.natAbs ≤ signBit) :
    (ofInt n).isNegative = decide (n < 0) ∧
      (ofInt n).exponentField = intField n.natAbs / hiddenBit ∧
      (ofInt n).fraction = intField n.natAbs % hiddenBit := by
  have hfield := intField_le (Int.natAbs_ne_zero.2 h) hn
  have hmax : intField n.natAbs ≤ 2047 * hiddenBit :=
    Nat.le_trans hfield (Nat.mul_le_mul_right _ (by decide))
  rw [ofInt_eq_withSign h, Nat.min_eq_left hmax]
  exact ⟨isNegative_withSign _ hmax, exponentField_withSign _ hmax, fraction_withSign _ hmax⟩

/-- The integers of fifty-three bits are doubles. -/
theorem isInt_ofInt (hn : n.natAbs ≤ 2 * hiddenBit) : (ofInt n).IsInt n := by
  by_cases h : n = 0
  · subst h
    exact isInt_zero (by decide)
  -- the power of two itself has one bit more, so it is looked at on its own
  rcases Nat.lt_or_eq_of_le hn with hlt | heq
  · have hN := Int.natAbs_ne_zero.2 h
    obtain ⟨hnegative, hexponent, hfraction⟩ := ofInt_fields h
      (Nat.le_trans hn (by decide))
    obtain ⟨hexact, hhigh, hlog⟩ := intSignificand_of_lt hN hlt
    have hlow := (intSignificand_bounds hN).1
    have hfield : intField n.natAbs =
        (n.natAbs.log2 + 1023) * hiddenBit + (intSignificand n.natAbs - hiddenBit) := rfl
    replace hexponent : (ofInt n).exponentField = n.natAbs.log2 + 1023 := by
      unfold hiddenBit at *
      omega
    replace hfraction : hiddenBit + (ofInt n).fraction = intSignificand n.natAbs := by
      unfold hiddenBit at *
      omega
    have hratio : 0 < (ofInt n).ratio.2 ∧ (ofInt n).ratio.1 = n.natAbs * (ofInt n).ratio.2 := by
      -- the significand has been shifted by as much as the exponent says
      rcases (ofInt n).ratio_cases with ⟨hzero, -⟩ | ⟨-, -, hratio⟩ | ⟨hle, hratio⟩
      · omega
      · have hplaces : 1075 - (n.natAbs.log2 + 1023) = 52 - n.natAbs.log2 := by omega
        rw [hratio, hfraction, hexponent, hexact, hplaces]
        exact ⟨Nat.two_pow_pos _, rfl⟩
      · have hplaces : n.natAbs.log2 = 52 := by omega
        rw [hratio, hfraction, hexponent, hexact, hplaces, Nat.sub_self, Decimal.twoTo_zero,
          Nat.mul_one]
        exact ⟨Nat.one_pos, rfl⟩
    have hint := isInt_of_ratio (by omega) hratio.1 hratio.2
    rw [hnegative] at hint
    have hsign : (if decide (n < 0) = true then -(n.natAbs : Int) else n.natAbs) = n := by
      simp only [decide_eq_true_eq]
      omega
    rwa [hsign] at hint
  · have hends : n = 2 * hiddenBit ∨ n = -(2 * hiddenBit : Nat) := by omega
    rcases hends with rfl | rfl
    · exact ⟨by decide +kernel, by decide +kernel⟩
    · exact ⟨by decide +kernel, by decide +kernel⟩

/-! ## Integers that may be rounded -/

/-- Beyond the fifty-third bit a double has no fraction. -/
theorem isIntegral_ofInt (hn : n.natAbs ≤ signBit) : (ofInt n).isIntegral = true := by
  rcases Nat.lt_or_ge (2 * hiddenBit) n.natAbs with hlarge | hsmall
  · have h : n ≠ 0 := by omega
    have hN := Int.natAbs_ne_zero.2 h
    obtain ⟨-, hexponent, -⟩ := ofInt_fields h hn
    have hlog : 53 ≤ n.natAbs.log2 := (Nat.le_log2 hN).2 (Nat.le_of_lt hlarge)
    have hfield : (n.natAbs.log2 + 1023) * hiddenBit ≤ intField n.natAbs := Nat.le_add_right _ _
    have hfield' := intField_le hN hn
    have hle : 1075 ≤ (ofInt n).exponentField ∧ (ofInt n).exponentField < 2047 := by
      unfold hiddenBit at *
      omega
    rcases (ofInt n).ratio_cases with ⟨hzero, -⟩ | ⟨-, hlt, -⟩ | ⟨-, hratio⟩
    · omega
    · omega
    · simp [isIntegral, isFinite, hratio, Nat.mod_one, Nat.ne_of_lt hle.2]
  · exact (isInt_ofInt hsmall).1

/-- What is equal to a rounded word is an integer. -/
theorem isInt_of_rounded (hn : n.natAbs ≤ signBit) (h : (ofInt n).equal x = true) :
    ∃ m, x.IsInt m := by
  rcases eq_of_equal h with rfl | ⟨-, hzero⟩
  · exact ⟨_, isIntegral_ofInt hn, rfl⟩
  · exact ⟨0, isInt_zero hzero⟩

theorem IsInt.orderKey_ofInt (hx : x.IsInt m) : (ofInt m).orderKey = x.orderKey :=
  (equal_iff.1 (equal_ofInt hx)).2.2

theorem IsInt.eq_of_orderKey (hk : (ofInt k).IsInt k) (hx : x.IsInt m)
    (h : (ofInt k).orderKey = x.orderKey) : k = m :=
  hk.eq_of_equal hx (equal_iff.2 ⟨not_isNaN_ofInt k, (equal_iff.1 (equal_ofInt hx)).2.1, h⟩)

/-- An integer that is not below a double is not rounded to a lower one. -/
theorem le_of_rounded (hk : (ofInt k).IsInt k) (hkn : k ≤ n) (hx : x.IsInt m)
    (h : (ofInt n).equal x = true) : k ≤ m := by
  refine Int.not_lt.1 fun hlt => ?_
  have hbelow : (ofInt m).orderKey ≤ (ofInt k).orderKey := orderKey_ofInt_le (Int.le_of_lt hlt)
  have habove : (ofInt k).orderKey ≤ (ofInt n).orderKey := orderKey_ofInt_le hkn
  rw [hx.orderKey_ofInt] at hbelow
  rw [(equal_iff.1 h).2.2] at habove
  exact absurd (hk.eq_of_orderKey hx (Int.le_antisymm habove hbelow)) (Int.ne_of_gt hlt)

/-- An integer that is not above a double is not rounded to a higher one. -/
theorem ge_of_rounded (hk : (ofInt k).IsInt k) (hnk : n ≤ k) (hx : x.IsInt m)
    (h : (ofInt n).equal x = true) : m ≤ k := by
  refine Int.not_lt.1 fun hlt => ?_
  have habove : (ofInt k).orderKey ≤ (ofInt m).orderKey := orderKey_ofInt_le (Int.le_of_lt hlt)
  have hbelow : (ofInt n).orderKey ≤ (ofInt k).orderKey := orderKey_ofInt_le hnk
  rw [hx.orderKey_ofInt] at habove
  rw [(equal_iff.1 h).2.2] at hbelow
  exact absurd (hk.eq_of_orderKey hx (Int.le_antisymm habove hbelow)) (Int.ne_of_lt hlt)

/-- Only integers beyond the fifty-third bit are rounded, and to integers that are not below it. -/
theorem large_of_rounded (hx : x.IsInt m) (hne : n ≠ m) (h : (ofInt n).equal x = true) :
    2 * hiddenBit < n.natAbs ∧ 2 * hiddenBit ≤ m.natAbs := by
  have hlarge : 2 * hiddenBit < n.natAbs := Nat.lt_of_not_le fun hsmall =>
    hne ((isInt_ofInt hsmall).eq_of_equal hx h)
  have htop : (ofInt (2 * hiddenBit : Nat)).IsInt (2 * hiddenBit : Nat) := isInt_ofInt (Nat.le_refl _)
  have hbottom : (ofInt (-(2 * hiddenBit : Nat))).IsInt (-(2 * hiddenBit : Nat)) :=
    isInt_ofInt (by omega)
  refine ⟨hlarge, ?_⟩
  rcases Int.lt_or_le n 0 with hneg | hpos
  · have := ge_of_rounded hbottom (by omega) hx h
    omega
  · have := le_of_rounded htop (by omega) hx h
    omega

end Binary64

end ScriptSandbox

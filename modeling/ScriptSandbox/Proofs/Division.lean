import Mathlib.Data.Rat.Floor
import ScriptSandbox.Operator.Binary

/-!
# Division and shifts of integers

The operators `//` and `%` on integers are floor division and the remainder that goes with it, and the
shifts are products with powers of two and floor division by them. What does not fit is a fault of
overflow; besides, two results that fit are refused: the remainder of the least integer by minus one,
since it is taken together with a quotient that does not fit (`floor_division_exact`), and minus one
shifted to the left by sixty-three places, which is the least integer (`shifts_exact`).
-/

namespace ScriptSandbox

/-! ## Integers -/

theorem floor_div_eq_fdiv (m n : Int) : ⌊(m : ℚ) / n⌋ = m.fdiv n := by
  rcases Int.le_total 0 n with h | h
  · lift n to Nat using h
    rw [Int.fdiv_eq_ediv_of_nonneg _ (Int.natCast_nonneg n), Int.cast_natCast,
      Rat.floor_intCast_div_natCast]
  · obtain ⟨k, hk⟩ := Int.eq_ofNat_of_zero_le (Int.neg_nonneg_of_nonpos h)
    have hneg : (m : ℚ) / n = ((-m : Int) : ℚ) / (k : ℚ) := by
      rw [← Int.cast_natCast, ← hk, Int.cast_neg, Int.cast_neg, neg_div_neg_eq]
    rw [hneg, Rat.floor_intCast_div_natCast, ← Int.fdiv_eq_ediv_of_nonneg _ (Int.natCast_nonneg k),
      ← hk, Int.neg_fdiv_neg]

/-- The remainder of floor division is smaller than the divisor and has its sign. -/
theorem fmod_bounds (m : Int) {n : Int} (hn : n ≠ 0) :
    (m.fmod n = 0 ∨ (m.fmod n < 0 ↔ n < 0)) ∧ |m.fmod n| < |n| := by
  rcases Int.lt_or_gt_of_ne hn with hneg | hpos
  · have hlow := Int.fmod_nonneg_of_pos (-m) (Int.neg_pos_of_neg hneg)
    have hhigh := Int.fmod_lt_of_pos (-m) (Int.neg_pos_of_neg hneg)
    rw [Int.neg_fmod_neg] at hlow hhigh
    rw [abs_of_nonpos (by omega), abs_of_neg hneg]
    omega
  · have hlow := Int.fmod_nonneg_of_pos m hpos
    have hhigh := Int.fmod_lt_of_pos m hpos
    rw [abs_of_nonneg hlow, abs_of_pos hpos]
    omega

namespace Integer

variable {a b n : Int64} {m : Int} {places : Nat}

theorem fit?_eq_none (h : ∀ n : Int64, n.toInt ≠ m) : fit? m = none :=
  Option.eq_none_iff_forall_ne_some.2 fun n hn => h n (fit?_eq_some_iff.1 hn)

/-- The remainder of a word fits. -/
theorem exists_fmod (a : Int64) (hb : b ≠ 0) : ∃ r : Int64, r.toInt = a.toInt.fmod b.toInt := by
  have hlow := b.le_toInt
  have hhigh := b.toInt_lt
  have hsize := (fmod_bounds a.toInt fun h => hb (toInt_eq_zero_iff.1 h)).2
  rw [Int.abs_eq_natAbs, Int.abs_eq_natAbs] at hsize
  have hfits : (fit? (a.toInt.fmod b.toInt)).isSome := by
    rw [fit?_isSome_iff, bound]
    omega
  obtain ⟨r, hr⟩ := Option.isSome_iff_exists.1 hfits
  exact ⟨r, fit?_eq_some_iff.1 hr⟩

/-- The remainder is none where the quotient does not fit, and exact elsewhere. -/
theorem floorMod?_exact (a : Int64) (hb : b ≠ 0) : floorMod? a b =
    if a = least ∧ b = -1 then none else fit? (a.toInt.fmod b.toInt) := by
  split
  · rename_i hlast
    rw [hlast.1, hlast.2]
    rfl
  · rename_i hlast
    exact floorMod?_eq hb hlast

/-! ## Shifts -/

theorem toNat_places {places : Nat} (h : places < 64) :
    ((Int64.ofNat places).toBitVec.smod 64).toNat = places := by
  have hall : ∀ n : Fin 64, ((Int64.ofNat n).toBitVec.smod 64).toNat = n := by decide +kernel
  exact hall ⟨places, h⟩

/-- A shift to the left is a product that may come round. -/
theorem shiftLeft_eq (a : Int64) {places : Nat} (h : places < 64) :
    a <<< Int64.ofNat places = Int64.ofInt (a.toInt * 2 ^ places) := by
  have hpower : (Int64.ofInt (2 ^ places)).toBitVec = BitVec.twoPow 64 places := by
    apply BitVec.eq_of_toNat_eq
    rw [Int64.toBitVec_ofInt, BitVec.toNat_twoPow, BitVec.toNat_ofInt]
    norm_cast
  rw [Int64.ofInt_mul, Int64.ofInt_toInt, ← Int64.toBitVec_inj, Int64.toBitVec_shiftLeft,
    BitVec.shiftLeft_eq', toNat_places h, BitVec.shiftLeft_eq_mul_twoPow, Int64.toBitVec_mul, hpower]

/-- A shift to the right is a quotient rounded toward negative infinity. -/
theorem toInt_shiftRight (a : Int64) {places : Nat} (h : places < 64) :
    (a >>> Int64.ofNat places).toInt = a.toInt / 2 ^ places := by
  rw [Int64.toInt, Int64.toBitVec_shiftRight, BitVec.toInt_sshiftRight', toNat_places h,
    Int.shiftRight_eq_div_pow]
  norm_cast

/-- Shifts to the left are exact, up to sixty-two places. -/
theorem shiftLeft?_eq (a : Int64) {places : Nat} (h : places < 63) :
    shiftLeft? a places = fit? (a.toInt * 2 ^ places) := by
  have hplaces : places < 64 := Nat.lt_succ_of_lt h
  have hpos : (0 : Int) < 2 ^ places := Int.pow_pos (by decide)
  have hback : Int64.ofInt (a.toInt * 2 ^ places) >>> Int64.ofNat places = a ↔
      (Int64.ofInt (a.toInt * 2 ^ places)).toInt = a.toInt * 2 ^ places := by
    have hdvd : (2 ^ places : Int) ∣ (Int64.ofInt (a.toInt * 2 ^ places)).toInt := by
      have hword : (2 ^ places : Int) ∣ (2 ^ 64 : Nat) :=
        Int.natCast_dvd_natCast.2 (Nat.pow_dvd_pow 2 (Nat.le_of_lt hplaces))
      have hround := Int.dvd_trans hword (Int.dvd_bmod_sub_self (x := a.toInt * 2 ^ places))
      rw [Int64.toInt_ofInt]
      exact (Int.dvd_iff_dvd_of_dvd_sub hround).2 (Int.dvd_mul_left ..)
    rw [← Int64.toInt_inj, toInt_shiftRight _ hplaces,
      Int.ediv_eq_iff_eq_mul_left (Int.ne_of_gt hpos) hdvd]
  unfold shiftLeft? fit?
  rw [shiftLeft_eq a hplaces, if_neg (Nat.not_le_of_lt h)]
  simp only [hback]
  split
  · next hzero =>
    subst hzero
    simp
  · rfl

/-- What fits when it is shifted by sixty-three places or more is zero or, just so, minus one. -/
theorem eq_last_of_large (h : 63 ≤ places) (ha : a ≠ 0) (hn : n.toInt = a.toInt * 2 ^ places) :
    a = -1 ∧ places = 63 := by
  have hpower : (2 : Int) ^ 63 ≤ 2 ^ places := by exact_mod_cast Nat.pow_le_pow_right (by decide) h
  have hlow := n.le_toInt
  have hhigh := n.toInt_lt
  rcases Int.lt_or_gt_of_ne fun h => ha (toInt_eq_zero_iff.1 h) with hneg | hpos
  · have hplaces : places = 63 := by
      have hle : a.toInt * 2 ^ places ≤ -1 * 2 ^ places :=
        Int.mul_le_mul_of_nonneg_right (by omega) (by omega)
      have hbound : (2 : Int) ^ places ≤ 2 ^ 63 := by omega
      exact Nat.le_antisymm ((Nat.pow_le_pow_iff_right Nat.one_lt_two).1 (by exact_mod_cast hbound)) h
    subst hplaces
    exact ⟨Int64.toInt_inj.1 (show a.toInt = -1 by omega), rfl⟩
  · have hle : 1 * 2 ^ places ≤ a.toInt * 2 ^ places :=
      Int.mul_le_mul_of_nonneg_right hpos (by omega)
    omega

/-- A shift to the left gives the product if that fits, but for the one of minus one that fits just
so. -/
theorem shiftLeft?_exact (a : Int64) (places : Nat) : shiftLeft? a places =
    if a = -1 ∧ places = 63 then none else fit? (a.toInt * 2 ^ places) := by
  by_cases hsmall : places < 63
  · rw [shiftLeft?_eq a hsmall, if_neg fun h => Nat.ne_of_lt hsmall h.2]
  · replace hsmall := Nat.le_of_not_lt hsmall
    by_cases ha : a = 0
    · subst ha
      rw [shiftLeft?, if_pos rfl, if_neg nofun, Int64.toInt_zero, Int.zero_mul]
      rfl
    · have hnone : shiftLeft? a places = none := by rw [shiftLeft?, if_neg ha, if_pos hsmall]
      rw [hnone]
      split
      · rfl
      · rename_i hlast
        exact (fit?_eq_none fun n hn => hlast (eq_last_of_large hsmall ha hn)).symm

/-- Shifts to the right are quotients rounded toward negative infinity, also where they leave no
digit. -/
theorem toInt_shiftRight_eq (a : Int64) (places : Nat) :
    (shiftRight a places).toInt = a.toInt / 2 ^ places := by
  unfold shiftRight
  split
  · rename_i hlarge
    have hpower : (2 : Int) ^ 64 ≤ 2 ^ places := by
      exact_mod_cast Nat.pow_le_pow_right (by decide) hlarge
    have hlow := a.le_toInt
    have hhigh := a.toInt_lt
    split
    · rename_i hneg
      rw [lt_zero_iff] at hneg
      rw [Int.ediv_eq_neg_one_of_neg_of_le hneg (by omega)]
      rfl
    · rename_i hneg
      rw [lt_zero_iff, Int.not_lt] at hneg
      rw [Int.ediv_eq_zero_of_lt hneg (by omega)]
      rfl
  · rename_i hsmall
    exact toInt_shiftRight a (Nat.lt_of_not_le hsmall)

/-- A shift to the right takes a product back. -/
theorem shiftRight_of_eq (hn : n.toInt = a.toInt * 2 ^ places) : shiftRight n places = a := by
  rw [← Int64.toInt_inj, toInt_shiftRight_eq, hn,
    Int.mul_ediv_cancel _ (Int.ne_of_gt (Int.pow_pos (by decide)))]

end Integer

/-! ## Operators -/

namespace Operator

variable {limits : SizeLimits} {s : Store} {a b : Int64} {places : Nat}

theorem binary_ints (op : BinaryOp) : binary limits op (.int a) (.int b) s =
    StoreM.ofExcept (Arithmetic.onInts limits op a b) s := by
  cases op <;> rfl

theorem binary_floorDiv (hb : b ≠ 0) : binary limits .floorDiv (.int a) (.int b) s =
    StoreM.ofExcept (Arithmetic.fitting "floor division" (Integer.fit? (a.toInt.fdiv b.toInt))) s := by
  rw [binary_ints, Arithmetic.onInts, if_neg hb, Integer.floorDiv?_eq a hb]

theorem binary_mod (hb : b ≠ 0) : binary limits .mod (.int a) (.int b) s =
    StoreM.ofExcept (Arithmetic.fitting "modulo" (Integer.floorMod? a b)) s := by
  rw [binary_ints, Arithmetic.onInts, if_neg hb]

theorem binary_lShift (hb : b.toInt = places) : binary limits .lShift (.int a) (.int b) s =
    StoreM.ofExcept (Arithmetic.fitting "left shift" (Integer.shiftLeft? a places)) s := by
  have hneg : ¬ b < 0 := by
    rw [Integer.lt_zero_iff]
    omega
  rw [binary_ints, Arithmetic.onInts, if_neg hneg, hb, Int.toNat_natCast]

theorem binary_rShift (hb : b.toInt = places) : binary limits .rShift (.int a) (.int b) s =
    .ok (.int (Integer.shiftRight a places)) s := by
  have hneg : ¬ b < 0 := by
    rw [Integer.lt_zero_iff]
    omega
  rw [binary_ints, Arithmetic.onInts, if_neg hneg, hb, Int.toNat_natCast]
  rfl

end Operator

/-- Floor division gives the floor of the quotient if that fits and is an overflow otherwise. The
remainder always fits: it completes the floor times the divisor, is smaller than the divisor and has
its sign. It is given unless the floor does not fit, which is an overflow here as well. -/
theorem floor_division_exact (limits : SizeLimits) (s : Store) (a : Int64) {b : Int64} (hb : b ≠ 0) :
    (∀ q : Int64, q.toInt = ⌊(a.toInt : ℚ) / b.toInt⌋ →
      Operator.binary limits .floorDiv (.int a) (.int b) s = .ok (.int q) s) ∧
    ((∀ q : Int64, q.toInt ≠ ⌊(a.toInt : ℚ) / b.toInt⌋) →
      Operator.binary limits .floorDiv (.int a) (.int b) s = .error (.overflow "floor division") s) ∧
    (∃ r : Int64, a.toInt = ⌊(a.toInt : ℚ) / b.toInt⌋ * b.toInt + r.toInt ∧
      (r = 0 ∨ (r < 0 ↔ b < 0)) ∧ |r.toInt| < |b.toInt| ∧
      Operator.binary limits .mod (.int a) (.int b) s =
        if a = Integer.least ∧ b = -1 then .error (.overflow "modulo") s else .ok (.int r) s) := by
  simp only [floor_div_eq_fdiv]
  rw [Operator.binary_floorDiv hb, Operator.binary_mod hb]
  refine ⟨fun q hq => ?_, fun hq => ?_, ?_⟩
  · rw [Integer.fit?_eq_some_iff.2 hq]
    rfl
  · rw [Integer.fit?_eq_none hq]
    rfl
  · obtain ⟨hsign, hsize⟩ := fmod_bounds a.toInt fun h => hb (Integer.toInt_eq_zero_iff.1 h)
    -- the remainder is smaller than the divisor, so it fits also where the quotient does not
    obtain ⟨r, hr⟩ := Integer.exists_fmod a hb
    refine ⟨r, ?_, ?_, ?_, ?_⟩
    · rw [hr, Int.mul_comm, Int.mul_fdiv_add_fmod]
    · rwa [← Integer.toInt_eq_zero_iff, Integer.lt_zero_iff, Integer.lt_zero_iff, hr]
    · rwa [hr]
    · rw [Integer.floorMod?_exact a hb, Integer.fit?_eq_some_iff.2 hr]
      split <;> rfl

/-- Minus seven by two, and the least integer by minus one. -/
theorem minusSeven_floored :
    Operator.binary Limits.standard.size .floorDiv (.int (-7)) (.int 2) .empty =
      .ok (.int (-4)) .empty ∧
    (∃ r : Int64, -7 = -4 * 2 + r.toInt ∧
      Operator.binary Limits.standard.size .mod (.int (-7)) (.int 2) .empty = .ok (.int r) .empty) ∧
    Operator.binary Limits.standard.size .mod (.int Integer.least) (.int (-1)) .empty =
      .error (.overflow "modulo") .empty := by
  have hfloor : ⌊((-7 : Int64).toInt : ℚ) / (2 : Int64).toInt⌋ = -4 := by
    rw [floor_div_eq_fdiv]
    rfl
  obtain ⟨hquotient, -, r, hr, -, -, hremainder⟩ :=
    floor_division_exact Limits.standard.size .empty (-7) (b := 2) (by decide)
  obtain ⟨-, -, _, -, -, -, hleast⟩ :=
    floor_division_exact Limits.standard.size .empty Integer.least (b := -1) (by decide)
  rw [hfloor] at hr
  exact ⟨hquotient (-4) hfloor.symm, ⟨r, hr, hremainder⟩, hleast⟩

/-- A shift to the left gives the product with the power of two if that fits, except for minus one by
sixty-three places, and is an overflow otherwise. A shift to the right gives the floor of the quotient
by the power of two, and so takes a shift to the left back. -/
theorem shifts_exact (limits : SizeLimits) (s : Store) (a : Int64) {b : Int64} (hb : 0 ≤ b) :
    (∀ n : Int64, n.toInt = a.toInt * 2 ^ b.toInt.toNat → ¬ (a = -1 ∧ b = 63) →
      Operator.binary limits .lShift (.int a) (.int b) s = .ok (.int n) s) ∧
    ((∀ n : Int64, n.toInt ≠ a.toInt * 2 ^ b.toInt.toNat) ∨ (a = -1 ∧ b = 63) →
      Operator.binary limits .lShift (.int a) (.int b) s = .error (.overflow "left shift") s) ∧
    (∃ n : Int64, n.toInt = ⌊(a.toInt : ℚ) / 2 ^ b.toInt.toNat⌋ ∧
      Operator.binary limits .rShift (.int a) (.int b) s = .ok (.int n) s) ∧
    (∀ v s', Operator.binary limits .lShift (.int a) (.int b) s = .ok v s' →
      Operator.binary limits .rShift v (.int b) s' = .ok (.int a) s') := by
  obtain ⟨places, hplaces⟩ := Int.eq_ofNat_of_zero_le
    (show 0 ≤ b.toInt from Int64.le_iff_toInt_le.1 hb)
  have hlast : b = 63 ↔ places = 63 := by
    rw [← Int64.toInt_inj, hplaces]
    exact Int.ofNat_inj
  -- the number of places as a natural number, on which the cases depend
  rw [hplaces, Int.toNat_natCast, hlast, Operator.binary_lShift hplaces, Integer.shiftLeft?_exact]
  refine ⟨fun n hn hne => ?_, fun hnone => ?_, ⟨_, ?_, Operator.binary_rShift hplaces⟩,
    fun v s' hv => ?_⟩
  · rw [if_neg hne, Integer.fit?_eq_some_iff.2 hn]
    rfl
  · rcases hnone with hn | hlast
    · rw [Integer.fit?_eq_none hn, ite_self]
      rfl
    · rw [if_pos hlast]
      rfl
  · rw [Integer.toInt_shiftRight_eq]
    exact_mod_cast (Rat.floor_intCast_div_natCast a.toInt (2 ^ places)).symm
  · split at hv
    · cases hv
    · cases hn : Integer.fit? (a.toInt * 2 ^ places) with
      | none =>
        rw [hn] at hv
        cases hv
      | some n =>
        rw [hn] at hv
        cases hv
        rw [Operator.binary_rShift hplaces,
          Integer.shiftRight_of_eq (Integer.fit?_eq_some_iff.1 hn)]

/-- Three shifted by sixty-one places and back, and minus one by sixty-three. -/
theorem three_shifted :
    Operator.binary Limits.standard.size .lShift (.int 3) (.int 61) .empty =
      .ok (.int 6917529027641081856) .empty ∧
    Operator.binary Limits.standard.size .rShift (.int 6917529027641081856) (.int 61) .empty =
      .ok (.int 3) .empty ∧
    Operator.binary Limits.standard.size .lShift (.int (-1)) (.int 63) .empty =
      .error (.overflow "left shift") .empty := by
  obtain ⟨hproduct, -, -, hback⟩ :=
    shifts_exact Limits.standard.size .empty 3 (b := 61) (by decide)
  obtain ⟨-, hoverflow, -⟩ := shifts_exact Limits.standard.size .empty (-1) (b := 63) (by decide)
  have hshifted := hproduct 6917529027641081856 (by decide) nofun
  exact ⟨hshifted, hback _ _ hshifted, hoverflow (.inr ⟨rfl, rfl⟩)⟩

end ScriptSandbox

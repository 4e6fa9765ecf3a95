/-!
Integers of sixty-four bits. Every operation has the exact result if that fits; what does not fit is
no result. Main statements: an integer fits when it lies between the bounds (`fit?_isSome_iff`), and
where operations are carried out on words, which come round and cut off, their results are those of
integers: sums and differences (`add?_eq`, `sub?_eq`), quotients and remainders (`floorDiv?_eq`,
`floorMod?_eq`).
-/

namespace ScriptSandbox.Integer

/-- The words are the integers from `-bound` up to below `bound`, two to the sixty-third. -/
def bound : Int := 0x8000000000000000

/-- The integer as a word, if it is one. -/
def fit? (n : Int) : Option Int64 :=
  let word := Int64.ofInt n
  if word.toInt = n then some word else none

def least : Int64 := Int64.ofInt (-bound)

def greatest : Int64 := Int64.ofInt (bound - 1)

/-- The nearest word: what lies outside the range becomes its nearer end. -/
def saturate (n : Int) : Int64 :=
  if n < -bound then least else if bound ≤ n then greatest else Int64.ofInt n

/-- The sum. One that does not fit comes round to the wrong side of `a`. -/
def add? (a b : Int64) : Option Int64 :=
  let sum := a + b
  if 0 ≤ b ↔ a ≤ sum then some sum else none

/-- The difference. One that does not fit comes round to the wrong side of `a`. -/
def sub? (a b : Int64) : Option Int64 :=
  let difference := a - b
  if 0 ≤ b ↔ difference ≤ a then some difference else none

def mul? (a b : Int64) : Option Int64 := fit? (a.toInt * b.toInt)

def neg? (a : Int64) : Option Int64 := fit? (-a.toInt)

def abs? (a : Int64) : Option Int64 := fit? a.toInt.natAbs

/-- The quotient rounded toward zero. There is none by zero, and that of the least word by minus one
does not fit. -/
def quotient? (a b : Int64) : Option Int64 :=
  if b = 0 ∨ (a = least ∧ b = -1) then none else some (a / b)

/-- What the quotient rounded toward zero leaves; there is none where that quotient is none. -/
def remainder? (a b : Int64) : Option Int64 :=
  if b = 0 ∨ (a = least ∧ b = -1) then none else some (a % b)

/-- The quotient rounded toward negative infinity: the one below where a negative quotient was
rounded. -/
def floorDiv? (a b : Int64) : Option Int64 :=
  (quotient? a b).bind fun q =>
    if a % b ≠ 0 ∧ ¬ (a < 0 ↔ b < 0) then sub? q 1 else some q

/-- The remainder of the same sign as the divisor. It is taken from the one that goes with the
quotient rounded toward zero, so there is none where that quotient does not fit. -/
def floorMod? (a b : Int64) : Option Int64 :=
  (remainder? a b).bind fun r =>
    if r ≠ 0 ∧ ¬ (r < 0 ↔ b < 0) then add? r b else some r

/-- A power with a natural exponent of thirty-two bits. Beyond sixty-three factors only the powers of
zero, one and minus one fit. -/
def pow? (base : Int64) (exponent : Nat) : Option Int64 :=
  if 0x100000000 ≤ exponent then none
  else if base = 0 ∨ base = 1 ∨ base = -1 then
    fit? (Int.pow base.toInt (if exponent < 2 then exponent else 2 + exponent % 2))
  else if 63 < exponent then none
  else fit? (Int.pow base.toInt exponent)

/-- A shift to the left by fewer than sixty-three places, if shifting back gives the same word; zero
can be shifted any number of places. -/
def shiftLeft? (a : Int64) (places : Nat) : Option Int64 :=
  if a = 0 then some 0
  else if 63 ≤ places then none
  else
    let shifted := a <<< Int64.ofNat places
    if shifted >>> Int64.ofNat places = a then some shifted else none

/-- A shift to the right, which rounds toward negative infinity. -/
def shiftRight (a : Int64) (places : Nat) : Int64 :=
  if 64 ≤ places then (if a < 0 then -1 else 0) else a >>> Int64.ofNat places

/-- The multiple of ten to the power of `places` nearest to a word; a half goes to the even multiple. -/
def roundAt? (a : Int64) (places : Nat) : Option Int64 :=
  if 18 < places then some 0
  else
    let unit := Int.pow 10 places
    let quotient := a.toInt.fdiv unit
    let twice := 2 * a.toInt.fmod unit
    let up := unit < twice ∨ (twice = unit ∧ quotient % 2 ≠ 0)
    fit? ((if up then quotient + 1 else quotient) * unit)

theorem fit?_eq_some_iff {n : Int} {a : Int64} : fit? n = some a ↔ a.toInt = n := by
  simp only [fit?]
  split
  · next eq =>
    constructor
    · intro h
      obtain rfl := Option.some.inj h
      exact eq
    · rintro rfl
      rw [Int64.ofInt_toInt]
  · next ne =>
    refine ⟨nofun, ?_⟩
    rintro rfl
    exact absurd (by rw [Int64.ofInt_toInt]) ne

/-- The words are the integers between the bounds. -/
theorem fit?_isSome_iff {n : Int} : (fit? n).isSome ↔ -bound ≤ n ∧ n < bound := by
  rw [Option.isSome_iff_exists]
  constructor
  · rintro ⟨a, fits⟩
    rw [fit?_eq_some_iff] at fits
    exact fits ▸ ⟨a.le_toInt, a.toInt_lt⟩
  · rintro ⟨h₁, h₂⟩
    exact ⟨Int64.ofInt n, fit?_eq_some_iff.2 (Int64.toInt_ofInt_of_le h₁ h₂)⟩

/-- Sums are exact. -/
theorem add?_eq (a b : Int64) : add? a b = fit? (a.toInt + b.toInt) := by
  have wrapped : Int64.ofInt (a.toInt + b.toInt) = a + b := by
    rw [Int64.ofInt_add, Int64.ofInt_toInt, Int64.ofInt_toInt]
  have h₁ := a.le_toInt
  have h₂ := a.toInt_lt
  have h₃ := b.le_toInt
  have h₄ := b.toInt_lt
  simp only [add?, fit?, wrapped]
  congr 1
  rw [Int64.le_iff_toInt_le, Int64.le_iff_toInt_le, Int64.toInt_add, Int64.toInt_zero,
    Int.bmod_def, eq_iff_iff]
  omega

/-- Differences are exact. -/
theorem sub?_eq (a b : Int64) : sub? a b = fit? (a.toInt - b.toInt) := by
  have wrapped : Int64.ofInt (a.toInt - b.toInt) = a - b := by
    rw [Int64.ofInt_sub, Int64.ofInt_toInt, Int64.ofInt_toInt]
  have h₁ := a.le_toInt
  have h₂ := a.toInt_lt
  have h₃ := b.le_toInt
  have h₄ := b.toInt_lt
  simp only [sub?, fit?, wrapped]
  congr 1
  rw [Int64.le_iff_toInt_le, Int64.le_iff_toInt_le, Int64.toInt_sub, Int64.toInt_zero,
    Int.bmod_def, eq_iff_iff]
  omega

theorem fit?_toInt (a : Int64) : fit? a.toInt = some a := fit?_eq_some_iff.2 rfl

theorem toInt_eq_zero_iff {a : Int64} : a.toInt = 0 ↔ a = 0 := by
  rw [← Int64.toInt_zero, Int64.toInt_inj]

theorem lt_zero_iff {a : Int64} : a < 0 ↔ a.toInt < 0 := by
  rw [Int64.lt_iff_toInt_lt, Int64.toInt_zero]

/-- Quotients rounded toward zero are exact where they fit. -/
theorem toInt_quotient {a b : Int64} (h : ¬ (a = least ∧ b = -1)) :
    (a / b).toInt = a.toInt.tdiv b.toInt := by
  by_cases ha : a = least
  · exact Int64.toInt_div_of_ne_right a b fun hb => h ⟨ha, hb⟩
  · exact Int64.toInt_div_of_ne_left a b ha

/-- Nothing is left if the divisor divides. -/
theorem mod_eq_zero_iff {a b : Int64} : a % b = 0 ↔ b.toInt ∣ a.toInt := by
  rw [← toInt_eq_zero_iff, Int64.toInt_mod, Int.dvd_iff_tmod_eq_zero]

/-- Quotients rounded toward negative infinity are exact. -/
theorem floorDiv?_eq (a : Int64) {b : Int64} (hb : b ≠ 0) :
    floorDiv? a b = fit? (a.toInt.fdiv b.toInt) := by
  by_cases hlast : a = least ∧ b = -1
  · obtain ⟨rfl, rfl⟩ := hlast
    decide
  · have hzero : b.toInt ≠ 0 := fun h => hb (toInt_eq_zero_iff.1 h)
    have hquotient : quotient? a b = some (a / b) := if_neg (by simp [hb, hlast])
    rw [floorDiv?, hquotient, Option.bind_some, ← fit?_toInt (a / b), sub?_eq, toInt_quotient hlast,
      Int.fdiv_eq_tdiv, Int64.toInt_one, ← apply_ite fit?]
    congr 1
    simp only [ne_eq, mod_eq_zero_iff, lt_zero_iff]
    rcases Int.lt_or_gt_of_ne hzero with hneg | hpos
    · rw [Int.sign_eq_neg_one_of_neg hneg]
      grind
    · rw [Int.sign_eq_one_of_pos hpos]
      grind

theorem floorMod?_eq {a b : Int64} (hb : b ≠ 0) (hlast : ¬ (a = least ∧ b = -1)) :
    floorMod? a b = fit? (a.toInt.fmod b.toInt) := by
  have hzero : b.toInt ≠ 0 := fun h => hb (toInt_eq_zero_iff.1 h)
  have hremainder : remainder? a b = some (a % b) := if_neg (by simp [hb, hlast])
  have hnonneg : 0 ≤ a.toInt → 0 ≤ a.toInt.tmod b.toInt := Int.tmod_nonneg _
  have hnonpos : a.toInt < 0 → a.toInt.tmod b.toInt ≤ 0 := fun h => by
    have hneg := Int.tmod_nonneg b.toInt (Int.neg_nonneg_of_nonpos (Int.le_of_lt h))
    rw [Int.neg_tmod] at hneg
    exact Int.nonpos_of_neg_nonneg hneg
  rw [floorMod?, hremainder, Option.bind_some, ← fit?_toInt (a % b), add?_eq, Int64.toInt_mod,
    Int.fmod_eq_tmod, ← apply_ite fit?]
  congr 1
  simp only [ne_eq, ← toInt_eq_zero_iff, Int64.toInt_mod, Int.dvd_iff_tmod_eq_zero, lt_zero_iff]
  grind

/-- The quotient of the least word by minus one does not fit, and so there is no remainder. -/
example : floorDiv? least (-1) = none ∧ floorMod? least (-1) = none ∧
    floorDiv? (-7) 2 = some (-4) ∧ floorMod? (-7) 2 = some 1 ∧
    roundAt? 25 1 = some 20 ∧ roundAt? 35 1 = some 40 := by decide +kernel

end ScriptSandbox.Integer

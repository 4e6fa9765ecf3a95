import ScriptSandbox.Decimal.Binary64
/-!
Numbers read from text: decimal integers that fit sixty-four bits, and doubles written as decimals,
as infinity or as not-a-number. Neither skips blanks; callers trim the text first. Main statement:
digits may be read by halves (`ofDigits_eq`).
-/

namespace ScriptSandbox.Decimal

def isDigit (c : Char) : Bool := '0' ≤ c && c ≤ '9'

def digitValue (c : Char) : Nat := c.toNat - '0'.toNat

/-- The number that digits denote when they follow those of `n`. -/
def continueDigits (n : Nat) (digits : List Char) : Nat :=
  digits.foldl (fun n c => 10 * n + digitValue c) n

/-- The number that the first `n` of some digits denote, and the digits behind them. Long runs are
read by halves, so that numbers of many digits are multiplied rarely. -/
def ofFirstDigits (n : Nat) (digits : List Char) : Nat × List Char :=
  if n ≤ 16 then (continueDigits 0 (digits.take n), digits.drop n)
  else
    let (high, rest) := ofFirstDigits (n - n / 2) digits
    let (low, rest) := ofFirstDigits (n / 2) rest
    (high * tenTo (n / 2) + low, rest)
termination_by n

/-- The number that a run of digits denotes. -/
def ofDigits (digits : List Char) : Nat := (ofFirstDigits digits.length digits).1

theorem continueDigits_append (n : Nat) (first second : List Char) :
    continueDigits (continueDigits n first) second = continueDigits n (first ++ second) :=
  List.foldl_append.symm

theorem continueDigits_eq (n : Nat) (digits : List Char) :
    continueDigits n digits = n * tenTo digits.length + continueDigits 0 digits := by
  induction digits generalizing n with
  | nil => simp [continueDigits, tenTo]
  | cons c digits ih =>
    have step (n : Nat) :
        continueDigits n (c :: digits) = continueDigits (10 * n + digitValue c) digits := rfl
    rw [step, step, ih, ih (10 * 0 + digitValue c), List.length_cons]
    have : tenTo (digits.length + 1) = tenTo digits.length * 10 := rfl
    rw [this, Nat.add_mul, Nat.add_mul]
    grind

theorem ofFirstDigits_eq {n : Nat} {digits : List Char} (h : n ≤ digits.length) :
    ofFirstDigits n digits = (continueDigits 0 (digits.take n), digits.drop n) := by
  fun_induction ofFirstDigits n digits with
  | case1 => rfl
  | case2 n digits large high rest eq₁ low rest' eq₂ ih₁ ih₂ =>
    obtain ⟨rfl, rfl⟩ := Prod.mk.inj ((ih₁ (by omega)).symm.trans eq₁)
    obtain ⟨rfl, rfl⟩ := Prod.mk.inj ((ih₂ (by rw [List.length_drop]; omega)).symm.trans eq₂)
    have parts : n - n / 2 + n / 2 = n := by omega
    have low : (List.take (n / 2) (digits.drop (n - n / 2))).length = n / 2 := by
      rw [List.length_take, List.length_drop]
      omega
    have whole : digits.take n =
        digits.take (n - n / 2) ++ List.take (n / 2) (digits.drop (n - n / 2)) := by
      rw [← List.take_add, parts]
    rw [List.drop_drop, parts, whole, ← continueDigits_append,
      continueDigits_eq (continueDigits 0 _), low]

/-- Reading by halves gives what reading digit by digit gives. -/
theorem ofDigits_eq (digits : List Char) : ofDigits digits = continueDigits 0 digits := by
  rw [ofDigits, ofFirstDigits_eq (Nat.le_refl _), List.take_length]

/-- A leading plus or minus sign; `true` for minus. -/
def takeSign : List Char → Bool × List Char
  | '-' :: rest => (true, rest)
  | '+' :: rest => (false, rest)
  | text => (false, text)

/-- A non-empty run of digits that is the whole text. -/
def wholeDigits? (text : List Char) : Option Nat :=
  if text.isEmpty || !text.all isDigit then none else some (ofDigits text)

/-- An optional sign and a run of digits. -/
def readInt? (text : List Char) : Option Int :=
  let (negative, digits) := takeSign text
  (wholeDigits? digits).map fun n => if negative then -(n : Int) else n

/-- An exponent mark, an optional sign and digits; nothing at all is exponent zero. -/
def readExponent? : List Char → Option Int
  | [] => some 0
  | mark :: rest => if mark = 'e' ∨ mark = 'E' then readInt? rest else none

def lowered (text : List Char) : List Char := text.map Char.toLower

/-- Digits with an optional point among, before or after them, then an optional exponent. -/
def readUnsigned? (negative : Bool) (text : List Char) : Option Binary64 :=
  let whole := text.takeWhile isDigit
  let rest := text.dropWhile isDigit
  let (places, rest) :=
    match rest with
    | '.' :: rest => (rest.takeWhile isDigit, rest.dropWhile isDigit)
    | rest => ([], rest)
  if whole.isEmpty && places.isEmpty then none
  else
    (readExponent? rest).map fun e =>
      Binary64.ofDecimal negative (ofDigits (whole ++ places)) (e - places.length)

/-- A double: an optional sign before a decimal, or before one of the words for infinity or
not-a-number in any case. -/
def readFloat? (text : List Char) : Option Binary64 :=
  let (negative, body) := takeSign text
  let word := lowered body
  if word = "inf".toList ∨ word = "infinity".toList then some (.infinity negative)
  else if word = "nan".toList then some (if negative then Binary64.nan.neg else .nan)
  else readUnsigned? negative body

/-- A point needs a digit on one side; an exponent needs digits. -/
example : readFloat? ".5".toList = some ⟨0x3FE0000000000000⟩ ∧
    readFloat? "1.".toList = some .one ∧ readFloat? ".".toList = none ∧
    readFloat? "1e".toList = none ∧ readFloat? "+iNF".toList = some (.infinity false) := by
  decide +kernel

end ScriptSandbox.Decimal

import Mathlib.Algebra.Group.Nat.Defs
import ScriptSandbox.Proofs.Rounding
import ScriptSandbox.Value.Order

/-!
# The order of numbers

Two integers are in their own order, and as soon as a double is involved the order is that of doubles.
Both agree in that a number that is not after another is not after it as a double either
(`Number.order_cases`), so the order passes on from the first to the last of three numbers unless these
are integers and the one between is a double. There it is lost exactly if the two are different integers
that are both rounded to that double (`number_order_passes_on_iff`), and these have more than
fifty-three bits.
-/

namespace ScriptSandbox

/-- The order of the first two of three values and that of the last two pass on: if neither pair is in
descending order, the outer two are not, and if both pairs are equal, the outer two are. -/
def Chains (first second outer : Ordering) : Prop :=
  first.isLE → second.isLE → outer.isLE ∧ (first = .eq → second = .eq → outer = .eq)

namespace Number

variable {x y z : Number} {m n : Int64} {d : Binary64}

/-- The place of a number among the doubles. -/
def rank (x : Number) : Int := x.toBinary64.orderKey

def IsNaN (x : Number) : Prop := x.toBinary64.isNaN = true

theorem not_isNaN_int (n : Int64) : ¬ (int n).IsNaN := by
  rw [IsNaN, toBinary64, Binary64.not_isNaN_ofInt]
  exact Bool.false_ne_true

theorem rank_int_le (h : m ≤ n) : (int m).rank ≤ (int n).rank :=
  Binary64.orderKey_ofInt_le (Int64.le_iff_toInt_le.1 h)

theorem order_ints (m n : Int64) : (int m).order (int n) = some (compare m n) := rfl

/-- Unless both are integers, numbers are in the order of doubles. -/
theorem order_of_not_ints (h : ¬ ∃ m n, x = int m ∧ y = int n) (hx : ¬ x.IsNaN) (hy : ¬ y.IsNaN) :
    x.order y = some (compare x.rank y.rank) := by
  have hdoubles : x.order y = x.toBinary64.order y.toBinary64 := by
    cases x <;> cases y <;> first
      | exact absurd ⟨_, _, rfl, rfl⟩ h
      | rfl
  rw [IsNaN, Bool.not_eq_true] at hx hy
  rw [hdoubles, Binary64.order, hx, hy]
  rfl

/-- A number that is not after another one is not after it as a double. -/
theorem order_cases (hx : ¬ x.IsNaN) (hy : ¬ y.IsNaN) : ∃ o, x.order y = some o ∧
    (o.isLE → x.rank ≤ y.rank) ∧ (o = .eq → x.rank = y.rank) := by
  by_cases h : ∃ m n, x = int m ∧ y = int n
  · obtain ⟨m, n, rfl, rfl⟩ := h
    refine ⟨_, order_ints m n, fun hle => rank_int_le (Std.isLE_compare.1 hle), fun heq => ?_⟩
    rw [Std.LawfulEqCmp.compare_eq_iff_eq.1 heq]
  · exact ⟨_, order_of_not_ints h hx hy, Std.isLE_compare.1, Std.LawfulEqCmp.compare_eq_iff_eq.1⟩

/-- Two different integers on both sides of a double to which they are rounded. -/
inductive Merged : Number → Number → Number → Prop where
  | intro {m n : Int64} {d : Binary64} : m ≠ n → (Binary64.ofInt m.toInt).equal d = true →
    (Binary64.ofInt n.toInt).equal d = true → Merged (int m) (float d) (int n)

theorem merged_iff (hd : ¬ (float d).IsNaN) : Merged (int m) (float d) (int n) ↔
    m ≠ n ∧ (int m).rank = (float d).rank ∧ (float d).rank = (int n).rank := by
  rw [IsNaN, Bool.not_eq_true] at hd
  have hequal (k : Int64) : (Binary64.ofInt k.toInt).equal d = true ↔ (int k).rank = (float d).rank := by
    rw [Binary64.equal_iff]
    exact ⟨fun h => h.2.2, fun h => ⟨Binary64.not_isNaN_ofInt _, hd, h⟩⟩
  rw [eq_comm (b := (int n).rank), ← hequal, ← hequal]
  exact ⟨fun ⟨hne, hm, hn⟩ => ⟨hne, hm, hn⟩, fun ⟨hne, hm, hn⟩ => ⟨hne, hm, hn⟩⟩

/-- Integers of fifty-three bits are not rounded. -/
theorem Merged.large (h : Merged x y z) : ∃ m n : Int64, x = int m ∧ z = int n ∧
    2 ^ 53 ≤ m.toInt.natAbs ∧ 2 ^ 53 ≤ n.toInt.natAbs := by
  obtain ⟨hne, hm, hn⟩ := h
  rename_i m n d
  have hword (k : Int64) : k.toInt.natAbs ≤ Binary64.signBit := by
    have hlow := k.le_toInt
    have hhigh := k.toInt_lt
    unfold Binary64.signBit
    omega
  obtain ⟨k, hk⟩ := Binary64.isInt_of_rounded (hword m) hm
  have hbit : 2 * Binary64.hiddenBit = 2 ^ 53 := rfl
  refine ⟨m, n, rfl, rfl, ?_⟩
  -- at least one of the two is rounded, and it is not below the fifty-third bit then
  by_cases hmk : m.toInt = k
  · have hnk : n.toInt ≠ k := fun hnk => hne (Int64.toInt_inj.1 (hmk.trans hnk.symm))
    have hlarge := Binary64.large_of_rounded hk hnk hn
    omega
  · have hlarge := Binary64.large_of_rounded hk hmk hm
    by_cases hnk : n.toInt = k
    · omega
    · have hlarge' := Binary64.large_of_rounded hk hnk hn
      omega

/-! ### Three numbers -/

theorem chains_ints (k m n : Int64) : Chains (compare k m) (compare m n) (compare k n) := by
  simp only [Chains, Std.isLE_compare, Std.LawfulEqCmp.compare_eq_iff_eq]
  exact fun hkm hmn => ⟨Int64.le_trans hkm hmn, Eq.trans⟩

/-- As doubles the outer two are in order. -/
theorem chains_ranks {o o' : Ordering} (hx : ¬ x.IsNaN) (hy : ¬ y.IsNaN) (hz : ¬ z.IsNaN)
    (hxy : x.order y = some o) (hyz : y.order z = some o') :
    Chains o o' (compare x.rank z.rank) := by
  obtain ⟨_, ho, hle, heq⟩ := order_cases hx hy
  obtain ⟨_, ho', hle', heq'⟩ := order_cases hy hz
  cases hxy.symm.trans ho
  cases hyz.symm.trans ho'
  simp only [Chains, Std.isLE_compare, Std.LawfulEqCmp.compare_eq_iff_eq]
  exact fun h h' => ⟨Int.le_trans (hle h) (hle' h'), fun h h' => (heq h).trans (heq' h')⟩

/-- With a double between them two integers are in order unless it merges them. -/
theorem chains_between_iff (hd : ¬ (float d).IsNaN) :
    Chains (compare (int m).rank (float d).rank) (compare (float d).rank (int n).rank) (compare m n) ↔
      ¬ Merged (int m) (float d) (int n) := by
  rw [merged_iff hd]
  simp only [Chains, Std.isLE_compare, Std.LawfulEqCmp.compare_eq_iff_eq]
  constructor
  · rintro h ⟨hne, hm, hn⟩
    exact hne ((h (Int.le_of_eq hm) (Int.le_of_eq hn)).2 hm hn)
  · intro h hm hn
    refine ⟨Classical.byContradiction fun hgt => ?_, fun hm hn => ?_⟩
    · -- the greater integer is not the lower double, so both are the one between
      have hback := rank_int_le (Int64.le_of_lt (Int64.not_le.1 hgt))
      exact h ⟨fun heq => hgt (heq ▸ Int64.le_refl _), by omega, by omega⟩
    · exact Classical.byContradiction fun hne => h ⟨hne, hm, hn⟩

/-- The order of numbers passes on unless a double merges two integers. -/
theorem chains_iff (hx : ¬ x.IsNaN) (hy : ¬ y.IsNaN) (hz : ¬ z.IsNaN) : ∃ o o' o'',
    x.order y = some o ∧ y.order z = some o' ∧ x.order z = some o'' ∧
      (Chains o o' o'' ↔ ¬ Merged x y z) := by
  by_cases h : ∃ m n, x = int m ∧ z = int n
  · obtain ⟨m, n, rfl, rfl⟩ := h
    cases y with
    | int k =>
      refine ⟨_, _, _, rfl, rfl, rfl, iff_of_true (chains_ints m k n) ?_⟩
      rintro ⟨⟩
    | float d =>
      refine ⟨_, _, _, order_of_not_ints ?_ hx hy, order_of_not_ints ?_ hy hz, order_ints m n,
        chains_between_iff hy⟩
      · rintro ⟨_, _, -, ⟨⟩⟩
      · rintro ⟨_, _, ⟨⟩, -⟩
  · obtain ⟨o, ho, -⟩ := order_cases hx hy
    obtain ⟨o', ho', -⟩ := order_cases hy hz
    refine ⟨o, o', _, ho, ho', order_of_not_ints h hx hz, iff_of_true ?_ ?_⟩
    · exact chains_ranks hx hy hz ho ho'
    · rintro ⟨⟩
      exact h ⟨_, _, rfl, rfl⟩

end Number

theorem Store.order_number {s : Store} {a b : Value} {x y : Number} (ha : a.toNumber? = some x)
    (hb : b.toNumber? = some y) : s.order a b = .ok (x.order y) := by
  cases a <;> cases ha <;> cases b <;> cases hb <;> rfl

/-- Of any three numbers each two are in an order, and it passes on from the first to the last exactly
if these are not two integers that both are rounded to a double between them. Such integers have more
than fifty-three bits. -/
theorem number_order_passes_on_iff (s : Store) {a b c : Value} {x y z : Number}
    (ha : a.toNumber? = some x) (hb : b.toNumber? = some y) (hc : c.toNumber? = some z)
    (hx : ¬ x.IsNaN) (hy : ¬ y.IsNaN) (hz : ¬ z.IsNaN) :
    (∃ o o' o'', s.order a b = .ok (some o) ∧ s.order b c = .ok (some o') ∧
      s.order a c = .ok (some o'') ∧
      ((o.isLE → o'.isLE → o''.isLE ∧ (o = .eq → o' = .eq → o'' = .eq)) ↔ ¬ Number.Merged x y z)) ∧
    (Number.Merged x y z → ∃ m n : Int64, x = .int m ∧ z = .int n ∧
      2 ^ 53 ≤ m.toInt.natAbs ∧ 2 ^ 53 ≤ n.toInt.natAbs) := by
  refine ⟨?_, Number.Merged.large⟩
  rw [Store.order_number ha hb, Store.order_number hb hc, Store.order_number ha hc]
  obtain ⟨o, o', o'', hxy, hyz, hxz, hiff⟩ := Number.chains_iff hx hy hz
  exact ⟨o, o', o'', by rw [hxy], by rw [hyz], by rw [hxz], hiff⟩

/-- Two to the fifty-third is equal to the integer after it as a double and to itself, and so merges two
different integers; one and a half is between one and two. -/
theorem power_merges :
    (∃ o o' o'', Store.empty.order (.int 9007199254740993) (.float ⟨0x4340000000000000⟩) = .ok (some o) ∧
      Store.empty.order (.float ⟨0x4340000000000000⟩) (.int 9007199254740992) = .ok (some o') ∧
      Store.empty.order (.int 9007199254740993) (.int 9007199254740992) = .ok (some o'') ∧
      ¬ (o.isLE → o'.isLE → o''.isLE ∧ (o = .eq → o' = .eq → o'' = .eq))) ∧
    ∃ o o' o'', Store.empty.order (.int 1) (.float ⟨0x3FF8000000000000⟩) = .ok (some o) ∧
      Store.empty.order (.float ⟨0x3FF8000000000000⟩) (.int 2) = .ok (some o') ∧
      Store.empty.order (.int 1) (.int 2) = .ok (some o'') ∧
      (o.isLE → o'.isLE → o''.isLE ∧ (o = .eq → o' = .eq → o'' = .eq)) := by
  have hmerged : Number.Merged (.int 9007199254740993) (.float ⟨0x4340000000000000⟩)
      (.int 9007199254740992) := .intro (by decide) (by decide +kernel) (by decide +kernel)
  have hpower : ¬ (Number.float ⟨0x4340000000000000⟩).IsNaN := by unfold Number.IsNaN; decide
  have hhalf : ¬ (Number.float ⟨0x3FF8000000000000⟩).IsNaN := by unfold Number.IsNaN; decide
  obtain ⟨⟨o, o', o'', h, h', h'', hiff⟩, -⟩ := number_order_passes_on_iff .empty
    (a := .int 9007199254740993) (b := .float ⟨0x4340000000000000⟩) (c := .int 9007199254740992)
    rfl rfl rfl (Number.not_isNaN_int _) hpower (Number.not_isNaN_int _)
  obtain ⟨⟨p, p', p'', g, g', g'', hiff'⟩, hlarge⟩ := number_order_passes_on_iff .empty
    (a := .int 1) (b := .float ⟨0x3FF8000000000000⟩) (c := .int 2)
    rfl rfl rfl (Number.not_isNaN_int _) hhalf (Number.not_isNaN_int _)
  refine ⟨⟨o, o', o'', h, h', h'', fun hlaw => hiff.1 hlaw hmerged⟩, p, p', p'', g, g', g'',
    hiff'.2 fun hmerged => ?_⟩
  -- one is too small to be rounded
  obtain ⟨m, n, hm, -, hbits, -⟩ := hlarge hmerged
  cases hm
  exact absurd hbits (by decide)

end ScriptSandbox

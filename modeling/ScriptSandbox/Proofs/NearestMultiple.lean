import ScriptSandbox.Builtin.Call
import ScriptSandbox.Proofs.Division

/-!
# Rounding to places before the point

An integer rounded to places before the point is the nearest multiple of a power of ten, and of two
that are equally near the even one. A multiple that does not fit is a fault of overflow, unless it is
one of the nineteenth power, which itself does not fit although half of it does: what is nearest to such
a multiple becomes zero (`rounding_nearest`).
-/

namespace ScriptSandbox

/-- The multiple of a unit that is nearest to an integer; of two that are equally near it is the even
one. -/
structure NearestEven (unit n m : Int) : Prop where
  dvd : unit ∣ m
  nearest : ∀ k, unit ∣ k → (n - m).natAbs ≤ (n - k).natAbs
  even : ∀ k, unit ∣ k → k ≠ m → (n - k).natAbs = (n - m).natAbs → 2 * unit ∣ m

namespace NearestEven

variable {unit n m k : Int}

/-- Different multiples are a unit apart. -/
theorem unit_le (hm : unit ∣ m) (hk : unit ∣ k) (hne : k ≠ m) : unit ≤ (m - k).natAbs := by
  have := Int.natAbs_le_of_dvd_ne_zero (Int.dvd_sub hm hk) (by omega)
  omega

/-- A multiple within half a unit is the nearest one. -/
theorem of_within (hm : unit ∣ m) (hnear : 2 * (n - m).natAbs ≤ unit)
    (htie : 2 * (n - m).natAbs = unit → 2 * unit ∣ m) : NearestEven unit n m where
  dvd := hm
  nearest k hk := by
    by_cases hne : k = m
    · rw [hne]
    · have := unit_le hm hk hne
      omega
  even k hk hne heq := by
    have := unit_le hm hk hne
    exact htie (by omega)

/-- There is no other one: between two even multiples that are equally near lies a nearer one. -/
theorem unique (h : NearestEven unit n m) (h' : NearestEven unit n k) : k = m := by
  by_contra hne
  have hdistance := h.nearest k h'.dvd
  have hdistance' := h'.nearest m h.dvd
  obtain ⟨a, ha⟩ := h.even k h'.dvd hne (by omega)
  obtain ⟨b, hb⟩ := h'.even m h.dvd (Ne.symm hne) (by omega)
  have hmiddle := h.nearest (unit * (a + b)) (Int.dvd_mul_right ..)
  rw [Int.mul_add] at hmiddle
  rw [Int.mul_assoc] at ha hb
  omega

/-- The quotient rounded to the nearest integer, a half to the even one, gives the multiple. -/
theorem of_quotient (hunit : 0 < unit) (n : Int) : NearestEven unit n
    ((if unit < 2 * n.fmod unit ∨ (2 * n.fmod unit = unit ∧ n.fdiv unit % 2 ≠ 0)
      then n.fdiv unit + 1 else n.fdiv unit) * unit) := by
  have hsplit := Int.mul_fdiv_add_fmod n unit
  have hlow := Int.fmod_nonneg_of_pos n hunit
  have hhigh := Int.fmod_lt_of_pos n hunit
  have heven (q : Int) (hq : q % 2 = 0) : 2 * unit ∣ q * unit :=
    Int.mul_dvd_mul_right unit (Int.dvd_of_emod_eq_zero hq)
  rw [Int.mul_comm] at hsplit
  split
  · refine of_within (Int.dvd_mul_left ..) ?_ fun htie => heven _ ?_
    · rw [Int.add_mul]
      omega
    · rw [Int.add_mul] at htie
      omega
  · refine of_within (Int.dvd_mul_left ..) ?_ fun htie => heven _ ?_
    · omega
    · omega

end NearestEven

namespace Integer

variable {a : Int64} {m : Int} {places : Nat}

theorem roundAt?_eq (hplaces : places ≤ 18) (h : NearestEven (10 ^ places) a.toInt m) :
    roundAt? a places = fit? m := by
  have hunit : (0 : Int) < 10 ^ places := Int.pow_pos (by decide)
  rw [← h.unique (.of_quotient hunit a.toInt), roundAt?, if_neg (Nat.not_lt.2 hplaces)]
  rfl

/-- A multiple of a higher power than the eighteenth fits only if it is zero. -/
theorem eq_zero_of_multiple {n : Int64} (hplaces : 18 < places) (hn : (10 : Int) ^ places ∣ n.toInt) :
    n = 0 := by
  by_contra hne
  have hpower : (10 : Int) ^ 19 ∣ 10 ^ places := pow_dvd_pow 10 hplaces
  have hsize := Int.natAbs_le_of_dvd_ne_zero (Int.dvd_trans hpower hn) fun h =>
    hne (toInt_eq_zero_iff.1 h)
  have := n.le_toInt
  have := n.toInt_lt
  omega

/-- Beyond the nineteenth power the nearest multiple is zero. -/
theorem nearest_zero (hplaces : 19 < places) (h : NearestEven (10 ^ places) a.toInt m) : m = 0 := by
  refine (NearestEven.unique h (.of_within (Int.dvd_zero _) ?_ fun _ => Int.dvd_zero _)).symm
  have hpower : (10 : Int) ^ 20 ≤ 10 ^ places := by
    exact_mod_cast Nat.pow_le_pow_right (by decide) hplaces
  have := a.le_toInt
  have := a.toInt_lt
  omega

/-- A multiple of the nineteenth power does not fit exactly where the integer nearest to it is beyond half
the power. -/
theorem nearest_beyond_iff (h : NearestEven (10 ^ 19) a.toInt m) :
    (∀ n : Int64, n.toInt ≠ m) ↔ 5000000000000000000 < a.toInt.natAbs := by
  have hzero : NearestEven (10 ^ 19) a.toInt 0 ↔ a.toInt.natAbs ≤ 5000000000000000000 := by
    constructor
    · intro hzero
      have habove := hzero.nearest (10 ^ 19) (Int.dvd_refl _)
      have hbelow := hzero.nearest (-10 ^ 19) (Int.dvd_neg.2 (Int.dvd_refl _))
      omega
    · intro hsmall
      exact .of_within (Int.dvd_zero _) (by omega) fun _ => Int.dvd_zero _
  rw [← Nat.not_le, ← hzero]
  constructor
  · intro hfits hzero
    exact hfits 0 (hzero.unique h).symm
  · rintro hne n rfl
    obtain rfl := eq_zero_of_multiple (by decide) h.dvd
    exact hne h

end Integer

/-! ## The function -/

namespace Builtin

/-- The number of places, given as the second argument or by name. -/
theorem callRound_places {a d : Int64} {args : Arguments} (hd : d < 0)
    (hargs : args = ⟨[.int a, .int d], []⟩ ∨ args = ⟨[.int a], [("ndigits", .int d)]⟩) :
    callRound args = match Integer.roundAt? a (-d.toInt).toNat with
      | some n => .ok (.int n)
      | none => .error (.overflow "round") := by
  have hvalue : callRound args = roundValue (.int a) (some d) := by
    rcases hargs with rfl | rfl <;> rfl
  rw [hvalue]
  exact if_pos hd

end Builtin

/-- An integer rounded to places before the point is the one multiple of the power of ten that is nearest,
the even one of two, if that fits, and an overflow otherwise. Multiples of the nineteenth power are the
exception: of these only zero fits, and where another one is nearest, beyond half the power, the result
is zero as well. -/
theorem rounding_nearest (ctx : CallContext) (s : Store) (a : Int64) {d : Int64} (hneg : d < 0)
    {args : Arguments}
    (hargs : args = ⟨[.int a, .int d], []⟩ ∨ args = ⟨[.int a], [("ndigits", .int d)]⟩) :
    ∃ m, (∀ k, NearestEven (10 ^ (-d.toInt).toNat) a.toInt k ↔ k = m) ∧
      (∀ n : Int64, n.toInt = m → Builtin.call .round ctx args s = .ok (.int n) s) ∧
      ((∀ n : Int64, n.toInt ≠ m) → d ≠ -19 →
        Builtin.call .round ctx args s = .error (.overflow "round") s) ∧
      (d = -19 → ((∀ n : Int64, n.toInt ≠ m) ↔ 5000000000000000000 < a.toInt.natAbs) ∧
        ((∀ n : Int64, n.toInt ≠ m) → Builtin.call .round ctx args s = .ok (.int 0) s)) := by
  have hunit : (0 : Int) < 10 ^ (-d.toInt).toNat := Int.pow_pos (by decide)
  have hm := NearestEven.of_quotient hunit a.toInt
  have hplaces : d = -19 ↔ (-d.toInt).toNat = 19 := by
    rw [Integer.lt_zero_iff] at hneg
    rw [← Int64.toInt_inj, show (-19 : Int64).toInt = -19 from rfl]
    omega
  have hcall : Builtin.call .round ctx args s = StoreM.ofExcept (Builtin.callRound args) s := rfl
  refine ⟨_, fun k => ⟨fun hk => hm.unique hk, fun hk => hk ▸ hm⟩, ?_⟩
  generalize (_ * _ : Int) = m at hm ⊢
  rw [hcall, Builtin.callRound_places hneg hargs, ne_eq, hplaces]
  generalize (-d.toInt).toNat = places at hm ⊢
  -- the power of ten itself is a word up to the eighteenth one
  by_cases hlarge : 18 < places
  · have hresult : Integer.roundAt? a places = some 0 := if_pos hlarge
    rw [hresult]
    refine ⟨?_, fun hfits hne => ?_, ?_⟩
    · rintro n rfl
      rw [Integer.eq_zero_of_multiple hlarge hm.dvd]
      rfl
    · have hbeyond : 19 < places := by omega
      exact absurd (Integer.nearest_zero hbeyond hm).symm (hfits 0)
    · rintro rfl
      exact ⟨Integer.nearest_beyond_iff hm, fun _ => rfl⟩
  · rw [Integer.roundAt?_eq (Nat.le_of_not_lt hlarge) hm]
    refine ⟨fun n hn => ?_, fun hfits _ => ?_, fun h => absurd h (by omega)⟩
    · rw [Integer.fit?_eq_some_iff.2 hn]
      rfl
    · rw [Integer.fit?_eq_none hfits]
      rfl

/-- Twenty-five becomes twenty, the greatest integer overflows, and nine times the eighteenth power becomes
zero, although ten times this power is nearer. -/
theorem twentyFive_rounded :
    let ctx := CallContext.ofCall .standard .stopped 0
    Builtin.call .round ctx (.ofList [.int 25, .int (-1)]) .empty = .ok (.int 20) .empty ∧
    Builtin.call .round ctx (.ofList [.int Integer.greatest, .int (-1)]) .empty =
      .error (.overflow "round") .empty ∧
    Builtin.call .round ctx (.ofList [.int 9000000000000000000, .int (-19)]) .empty =
      .ok (.int 0) .empty := by
  intro ctx
  obtain ⟨m, hm, hfits, -⟩ := rounding_nearest ctx .empty 25 (d := -1) (by decide) (.inl rfl)
  obtain ⟨k, hk, -, hoverflow, -⟩ :=
    rounding_nearest ctx .empty Integer.greatest (d := -1) (by decide) (.inl rfl)
  obtain ⟨_, -, -, -, hbeyond⟩ :=
    rounding_nearest ctx .empty 9000000000000000000 (d := -19) (by decide) (.inl rfl)
  obtain rfl : (20 : Int) = m := (hm 20).1 (.of_within (by decide) (by decide) (by decide))
  obtain rfl : (9223372036854775810 : Int) = k :=
    (hk _).1 (.of_within (by decide) (by decide) (by decide))
  obtain ⟨hiff, hzero⟩ := hbeyond rfl
  refine ⟨hfits 20 rfl, hoverflow (fun n hn => ?_) (by decide), hzero (hiff.2 (by decide))⟩
  have := n.toInt_lt
  omega

end ScriptSandbox

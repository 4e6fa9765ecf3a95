import ScriptSandbox.Proofs.Equivalence
import ScriptSandbox.Value.Order

/-!
# The order of values

Where no doubles are involved, the values that can be compared are in order: the outcome is the same
from both sides, it is that of equality, and it passes on (`order_lawful`). An order of items with these
laws gives one of sequences (`LawfulOrder.lex_swap`, `LawfulOrder.lex_trans`), although sequences look
for the first items that are not equal before they look at any order; so the laws hold at every depth
(`Store.lawful_orderWithin`).
-/

namespace ScriptSandbox

/-! ## Sequences -/

section Sequences

variable (equal : Value → Value → Except Error Bool)
  (order : Value → Value → Except Error (Option Ordering))

/-- The order of the first two items that are not equal, or of the lengths where there are none. -/
def lexOrder : List Value → List Value → Except Error (Option Ordering)
  | x :: xs, y :: ys =>
    match equal x y with
    | .ok true => lexOrder xs ys
    | .ok false => order x y
    | .error e => .error e
  | xs, ys => .ok (some (compare xs.length ys.length))

theorem lexOrder_nil (ys : List Value) :
    lexOrder equal order [] ys = .ok (some (compare 0 ys.length)) := by
  cases ys <;> rfl

theorem lexOrder_to_nil (xs : List Value) :
    lexOrder equal order xs [] = .ok (some (compare xs.length 0)) := by
  cases xs <;> rfl

theorem drop_toList {xs : Array Value} {i : Nat} (h : i < xs.size) :
    xs.toList.drop i = xs.getD i .null :: xs.toList.drop (i + 1) := by
  rw [List.drop_eq_getElem_cons (by simpa using h), Array.getElem_toList, Array.getD, dif_pos h]
  rfl

/-- Looking for a difference from some position on is comparing what is left there. -/
theorem lexOrder_drop (xs ys : Array Value) {position left : Nat}
    (h : position + left = min xs.size ys.size) :
    lexOrder equal order (xs.toList.drop position) (ys.toList.drop position) =
      (firstPosition (fun i => (equal (xs.getD i .null) (ys.getD i .null)).map (!·)) position left).bind
        fun found => found.elim (.ok (some (compare xs.size ys.size)))
          fun i => order (xs.getD i .null) (ys.getD i .null) := by
  -- on the number of positions that both lists still have
  induction left generalizing position with
  | zero =>
    have hcompare : compare (xs.size - position) (ys.size - position) = compare xs.size ys.size := by
      rw [Nat.compare_eq_ite_lt, Nat.compare_eq_ite_lt]
      grind
    change _ = Except.ok (some (compare xs.size ys.size))
    rw [← hcompare]
    rcases Nat.le_total xs.size ys.size with hle | hle
    · have hsize : xs.size - position = 0 := by omega
      have hnil : xs.toList.drop position = [] := List.drop_eq_nil_of_le (by simp; omega)
      rw [hnil, lexOrder_nil, List.length_drop, Array.length_toList, hsize]
    · have hsize : ys.size - position = 0 := by omega
      have hnil : ys.toList.drop position = [] := List.drop_eq_nil_of_le (by simp; omega)
      rw [hnil, lexOrder_to_nil, List.length_drop, Array.length_toList, hsize]
  | succ left ih =>
    have hxs : position < xs.size := by omega
    have hys : position < ys.size := by omega
    rw [drop_toList hxs, drop_toList hys, lexOrder, firstPosition, ih (by omega)]
    cases equal (xs.getD position .null) (ys.getD position .null) with
    | error e => rfl
    | ok truth => cases truth <;> rfl

theorem sequenceOrder_eq (xs ys : Array Value) :
    sequenceOrder equal order xs ys = lexOrder equal order xs.toList ys.toList := by
  have hdrop := lexOrder_drop equal order xs ys (Nat.zero_add _)
  rw [List.drop_zero, List.drop_zero] at hdrop
  rw [hdrop, sequenceOrder, firstDifference]
  cases firstPosition _ 0 (min xs.size ys.size) with
  | error e => rfl
  | ok found => cases found <;> rfl

/-- Equality that always has an outcome and is symmetric and transitive. -/
structure LawfulEqual (P : Value → Prop) (equal : Value → Value → Except Error Bool) : Prop where
  equal_total : ∀ {x y}, P x → P y → ∃ truth, equal x y = .ok truth
  equal_symm : ∀ {x y}, P x → P y → equal x y = .ok true → equal y x = .ok true
  equal_trans : ∀ {x y z}, P x → P y → P z → equal x y = .ok true → equal y z = .ok true →
    equal x z = .ok true

/-- An order that may fail, but has the laws of an order where it does not. -/
structure LawfulOrder (P : Value → Prop) (equal : Value → Value → Except Error Bool)
    (order : Value → Value → Except Error (Option Ordering)) : Prop
    extends LawfulEqual P equal where
  swap : ∀ {x y outcome}, P x → P y → order x y = .ok outcome →
    ∃ o, outcome = some o ∧ order y x = .ok (some o.swap) ∧ (o = .eq ↔ equal x y = .ok true)
  of_equal : ∀ {x y z outcome}, P x → P y → P z → order x y = .ok outcome →
    equal y z = .ok true → order y z = .ok (some .eq)
  trans : ∀ {x y z o o'}, P x → P y → P z → order x y = .ok (some o) →
    order y z = .ok (some o') → o ≠ .gt → o' ≠ .gt → order x z = .ok (some (o.then o'))

variable {equal order} {P : Value → Prop} {x y z : Value} {xs ys zs : List Value}

theorem LawfulEqual.eq_swap (h : LawfulEqual P equal) (hx : P x) (hy : P y) :
    equal y x = equal x y := by
  obtain ⟨truth, htruth⟩ := h.equal_total hx hy
  obtain ⟨truth', htruth'⟩ := h.equal_total hy hx
  cases truth <;> cases truth' <;> first
    | exact htruth'.trans htruth.symm
    | exact absurd (h.equal_symm hx hy htruth) (by simp [htruth'])
    | exact absurd (h.equal_symm hy hx htruth') (by simp [htruth])

theorem lexOrder_cons_of_equal (h : equal x y = .ok true) :
    lexOrder equal order (x :: xs) (y :: ys) = lexOrder equal order xs ys := by
  rw [lexOrder, h]

theorem lexOrder_cons_of_ne (h : equal x y = .ok false) :
    lexOrder equal order (x :: xs) (y :: ys) = order x y := by
  rw [lexOrder, h]

theorem lexOrder_of_equal (h : List.Forall₂ (fun x y => equal x y = .ok true) xs ys) :
    lexOrder equal order xs ys = .ok (some .eq) := by
  induction h with
  | nil => rfl
  | cons hxy _ ih => rw [lexOrder_cons_of_equal hxy, ih]

namespace LawfulOrder

variable (horder : LawfulOrder P equal order)
include horder

theorem reverse {o : Ordering} (hx : P x) (hy : P y) (h : order x y = .ok (some o)) :
    order y x = .ok (some o.swap) := by
  obtain ⟨o', ho', hswap, -⟩ := horder.swap hx hy h
  obtain rfl := Option.some.inj ho'
  exact hswap

theorem eq_iff {o : Ordering} (hx : P x) (hy : P y) (h : order x y = .ok (some o)) :
    o = .eq ↔ equal x y = .ok true := by
  obtain ⟨o', ho', -, heq⟩ := horder.swap hx hy h
  obtain rfl := Option.some.inj ho'
  exact heq

/-- Of items that are different, one comes first. -/
theorem eq_lt_of_ne {o : Ordering} (hx : P x) (hy : P y) (h : order x y = .ok (some o))
    (hne : equal x y = .ok false) (ho : o ≠ .gt) : o = .lt := by
  have heq := horder.eq_iff hx hy h
  cases o with
  | lt => rfl
  | eq => simp [hne] at heq
  | gt => exact absurd rfl ho

theorem lt_of_equal_of_lt (hx : P x) (hy : P y) (hz : P z) (hxy : equal x y = .ok true)
    (hyz : order y z = .ok (some .lt)) : order x z = .ok (some .lt) := by
  have hyx := horder.equal_symm hx hy hxy
  have hyx' := horder.of_equal hz hy hx (horder.reverse hy hz hyz) hyx
  exact horder.trans hx hy hz (horder.reverse hy hx hyx') hyz nofun nofun

theorem lexOrder_cons_of_lt (hx : P x) (hz : P z) (h : order x z = .ok (some .lt)) :
    lexOrder equal order (x :: xs) (z :: zs) = .ok (some .lt) := by
  have heq := horder.eq_iff hx hz h
  obtain ⟨truth, hxz⟩ := horder.equal_total hx hz
  cases truth with
  | true => simp [hxz] at heq
  | false => rw [lexOrder_cons_of_ne hxz, h]

theorem lex_swap {outcome : Option Ordering} (hxs : ∀ x ∈ xs, P x) (hys : ∀ y ∈ ys, P y)
    (h : lexOrder equal order xs ys = .ok outcome) : ∃ o, outcome = some o ∧
      lexOrder equal order ys xs = .ok (some o.swap) ∧
      (o = .eq ↔ List.Forall₂ (fun x y => equal x y = .ok true) xs ys) := by
  induction xs generalizing ys with
  | nil =>
    rw [lexOrder_nil] at h
    refine ⟨compare 0 ys.length, (Except.ok.inj h).symm, ?_, ?_⟩
    · rw [lexOrder_to_nil, Nat.compare_swap]
    · rw [List.forall₂_nil_left_iff, compare_eq_iff_eq, eq_comm, List.length_eq_zero_iff]
  | cons x xs ih =>
    cases ys with
    | nil =>
      rw [lexOrder_to_nil] at h
      refine ⟨.gt, ?_, ?_, by simp⟩
      · exact (Except.ok.inj h).symm
      · rfl
    | cons y ys =>
      obtain ⟨hx, hxs⟩ := List.forall_mem_cons.1 hxs
      obtain ⟨hy, hys⟩ := List.forall_mem_cons.1 hys
      obtain ⟨truth, hxy⟩ := horder.equal_total hx hy
      have hyx := (horder.eq_swap hx hy).trans hxy
      rw [List.forall₂_cons, hxy]
      -- the first items that differ decide
      cases truth with
      | true =>
        rw [lexOrder_cons_of_equal hxy] at h
        obtain ⟨o, rfl, hswap, heq⟩ := ih hxs hys h
        exact ⟨o, rfl, (lexOrder_cons_of_equal hyx).trans hswap, by simp [heq]⟩
      | false =>
        rw [lexOrder_cons_of_ne hxy] at h
        obtain ⟨o, rfl, hswap, heq⟩ := horder.swap hx hy h
        exact ⟨o, rfl, (lexOrder_cons_of_ne hyx).trans hswap, by simp [heq, hxy]⟩

/-- Unless both pairs of first items are equal, the first one of the outer two comes first. Which pair of
items decides differs from one comparison to the other, so equal items have to count as ordered where
one of them is. -/
theorem lt_of_first {o o' : Ordering} (hx : P x) (hy : P y) (hz : P z)
    (hxy : lexOrder equal order (x :: xs) (y :: ys) = .ok (some o))
    (hyz : lexOrder equal order (y :: ys) (z :: zs) = .ok (some o')) (ho : o ≠ .gt) (ho' : o' ≠ .gt)
    (hne : ¬ (equal x y = .ok true ∧ equal y z = .ok true)) :
    order x z = .ok (some .lt) ∧ o.then o' = .lt := by
  obtain ⟨truth, hequal⟩ := horder.equal_total hx hy
  obtain ⟨truth', hequal'⟩ := horder.equal_total hy hz
  -- by which of the two pairs differs, the first one or only the second
  cases truth with
  | true =>
    cases truth' with
    | true => exact absurd ⟨hequal, hequal'⟩ hne
    | false =>
      rw [lexOrder_cons_of_ne hequal'] at hyz
      obtain rfl := horder.eq_lt_of_ne hy hz hyz hequal' ho'
      refine ⟨horder.lt_of_equal_of_lt hx hy hz hequal hyz, ?_⟩
      cases o <;> first | rfl | exact absurd rfl ho
  | false =>
    rw [lexOrder_cons_of_ne hequal] at hxy
    obtain rfl := horder.eq_lt_of_ne hx hy hxy hequal ho
    refine ⟨?_, rfl⟩
    cases truth' with
    | true => exact horder.trans hx hy hz hxy (horder.of_equal hx hy hz hxy hequal') ho nofun
    | false =>
      rw [lexOrder_cons_of_ne hequal'] at hyz
      exact horder.trans hx hy hz hxy hyz ho ho'

theorem lex_trans {o o' : Ordering} (hxs : ∀ x ∈ xs, P x) (hys : ∀ y ∈ ys, P y)
    (hzs : ∀ z ∈ zs, P z) (hxy : lexOrder equal order xs ys = .ok (some o))
    (hyz : lexOrder equal order ys zs = .ok (some o')) (ho : o ≠ .gt) (ho' : o' ≠ .gt) :
    lexOrder equal order xs zs = .ok (some (o.then o')) := by
  induction xs generalizing ys zs with
  | nil =>
    cases ys with
    | nil =>
      cases hxy
      exact hyz
    | cons y ys =>
      cases zs with
      | nil => cases hyz; exact absurd rfl ho'
      | cons z zs => cases hxy; rfl
  | cons x xs ih =>
    cases ys with
    | nil => cases hxy; exact absurd rfl ho
    | cons y ys =>
      cases zs with
      | nil => cases hyz; exact absurd rfl ho'
      | cons z zs =>
        obtain ⟨hx, hxs⟩ := List.forall_mem_cons.1 hxs
        obtain ⟨hy, hys⟩ := List.forall_mem_cons.1 hys
        obtain ⟨hz, hzs⟩ := List.forall_mem_cons.1 hzs
        -- as long as the first items of all three are equal, the others decide
        by_cases hfirst : equal x y = .ok true ∧ equal y z = .ok true
        · rw [lexOrder_cons_of_equal hfirst.1] at hxy
          rw [lexOrder_cons_of_equal hfirst.2] at hyz
          rw [lexOrder_cons_of_equal (horder.equal_trans hx hy hz hfirst.1 hfirst.2)]
          exact ih hxs hys hzs hxy hyz
        · obtain ⟨hxz, hthen⟩ := horder.lt_of_first hx hy hz hxy hyz ho ho' hfirst
          rw [horder.lexOrder_cons_of_lt hx hz hxz, hthen]

end LawfulOrder

end Sequences

/-! ## Values -/

theorem compare_then {α : Type} [Ord α] [Std.TransOrd α] {a b c : α} (h : compare a b ≠ .gt)
    (h' : compare b c ≠ .gt) : compare a c = (compare a b).then (compare b c) := by
  cases hab : compare a b with
  | lt =>
    cases hbc : compare b c with
    | lt => exact Std.TransCmp.lt_trans hab hbc
    | eq => exact Std.TransCmp.lt_of_lt_of_eq hab hbc
    | gt => exact absurd hbc h'
  | eq => exact Std.TransCmp.congr_left hab
  | gt => exact absurd hab h

theorem Value.toInt?_of_toStr? {v : Value} {t : String} (h : v.toStr? = some t) :
    v.toInt? = none := by
  cases v <;> cases h
  rfl

namespace Store

variable {s : Store} {tuples : Nat → Array Value} {a b c : Value} {levels : Nat}
  {xs ys zs : Array Value}

theorem NestsWithin.succ {v : Value} (h : s.NestsWithin levels v) : s.NestsWithin (levels + 1) v := by
  induction levels generalizing v with
  | zero =>
    intro x hx
    cases hx <;> cases h
  | succ levels ih => exact fun x hx => ih (h x hx)

/-- A value without doubles that does not nest too deeply to be compared. -/
structure Comparable (s : Store) (tuples : Nat → Array Value) (v : Value) : Prop extends
    s.Discrete tuples v where
  nests : s.NestsWithin maxCompareDepth v

theorem Comparable.item {x v : Value} (h : s.Comparable tuples v) (hx : s.ItemOf x v) :
    s.Comparable tuples x :=
  ⟨h.toDiscrete.item hx, NestsWithin.succ (h.nests x hx)⟩

theorem NestsWithin.of_le {levels' : Nat} {v : Value} (h : s.NestsWithin levels v)
    (hle : levels ≤ levels') : s.NestsWithin levels' v := by
  induction hle with
  | refl => exact h
  | step _ ih => exact ih.succ

theorem Comparable.of_flat {v : Value} (hflat : v.hasItems = false) (hexact : ∀ x, v ≠ .float x) :
    s.Comparable tuples v := by
  have hpart {p : Value} (h : s.Part p v) : p = v := by
    cases h with
    | refl => rfl
    | item hx => cases hx <;> cases hflat
  refine ⟨⟨fun x h => hexact x (hpart h).symm, fun id items h => ?_⟩, ?_⟩
  · rw [← hpart h] at hflat
    cases hflat
  · have hlevels : s.NestsWithin 0 v := hflat
    exact hlevels.of_le (Nat.zero_le _)

theorem Comparable.flat_tuple {id : Nat} {items : Array Value}
    (hitems : ∀ x ∈ items, x.hasItems = false ∧ ∀ y, x ≠ .float y) (hnumber : tuples id = items) :
    s.Comparable tuples (.tuple id items) := by
  have hitem : ∀ x ∈ items, s.Comparable tuples x :=
    fun x hx => .of_flat (hitems x hx).1 (hitems x hx).2
  refine ⟨⟨fun y hy => ?_, fun i xs hpart => ?_⟩, ?_⟩
  · cases hy with
    | item hx hy =>
      cases hx with
      | tuple hx => exact (hitem _ hx).exact y hy
  · cases hpart with
    | refl => exact hnumber
    | item hx hpart =>
      cases hx with
      | tuple hx => exact (hitem _ hx).numbered i xs hpart
  · have hlevels : s.NestsWithin 1 (.tuple id items) := by
      intro x hx
      cases hx with
      | tuple hx => exact (hitems x hx).1
    exact hlevels.of_le (by decide)

theorem lawful_equal : LawfulEqual (s.Comparable tuples) s.equal where
  equal_total {x y} hx hy := by
    cases h : s.equal x y with
    | ok truth => exact ⟨truth, rfl⟩
    | error e => exact absurd h (equalWithin_ne_error hx.nests)
  equal_symm _ _ h := equalWithin_true_swap h
  equal_trans hx hy hz := equalWithin_trans hx.toDiscrete hy.toDiscrete hz.toDiscrete

/-! ### The values that can be compared -/

/-- Values with a key are in the order of their keys and equal if they have one key. -/
structure KeyOrder {K : Type} [Ord K] (s : Store) (key : Value → Option K) : Prop where
  order_eq : ∀ {levels a b m n}, key a = some m → key b = some n →
    s.orderWithin (levels + 1) a b = .ok (some (compare m n))
  equal_iff : ∀ {a b n}, (∀ x, a ≠ .float x) → key b = some n →
    (s.equal a b = .ok true ↔ key a = some n)

theorem keyOrder_toInt? : s.KeyOrder Value.toInt? where
  order_eq {levels a b m n} ha hb := by
    cases a <;> cases ha <;> cases b <;> cases hb <;> rfl
  equal_iff ha hb := equalWithin_toInt? ha hb

theorem keyOrder_toStr? : s.KeyOrder Value.toStr? where
  order_eq {levels a b m n} ha hb := by
    cases a <;> cases ha
    cases b <;> cases hb
    rfl
  equal_iff {a b n} _ hb := by
    cases b <;> cases hb
    refine equalWithin_str.trans ?_
    cases a <;> simp [Value.toStr?]

section Keys

variable {K : Type} [Ord K] {key : Value → Option K} {m n p : K}
  (hkeys : s.KeyOrder key)
include hkeys

theorem KeyOrder.swap [Std.OrientedOrd K] [Std.LawfulEqOrd K] {outcome : Option Ordering}
    (hnum : ∀ x, a ≠ .float x) (ha : key a = some m) (hb : key b = some n)
    (h : s.orderWithin (levels + 1) a b = .ok outcome) :
    ∃ o, outcome = some o ∧ s.orderWithin (levels + 1) b a = .ok (some o.swap) ∧
      (o = .eq ↔ s.equal a b = .ok true) := by
  rw [hkeys.order_eq ha hb] at h
  refine ⟨compare m n, (Except.ok.inj h).symm, ?_, ?_⟩
  · rw [hkeys.order_eq hb ha, Std.OrientedOrd.eq_swap]
  · rw [hkeys.equal_iff hnum hb, ha, Std.LawfulEqCmp.compare_eq_iff_eq, Option.some_inj]

theorem KeyOrder.of_equal [Std.ReflOrd K] (hnum : ∀ x, c ≠ .float x) (hb : key b = some n)
    (h : s.equal b c = .ok true) : s.orderWithin (levels + 1) b c = .ok (some .eq) := by
  have hc := (hkeys.equal_iff hnum hb).1 (equalWithin_true_swap h)
  rw [hkeys.order_eq hb hc, Std.ReflOrd.compare_self]

theorem KeyOrder.trans [Std.TransOrd K] {o o' : Ordering} (ha : key a = some m) (hb : key b = some n)
    (hc : key c = some p) (hab : s.orderWithin (levels + 1) a b = .ok (some o))
    (hbc : s.orderWithin (levels + 1) b c = .ok (some o')) (ho : o ≠ .gt) (ho' : o' ≠ .gt) :
    s.orderWithin (levels + 1) a c = .ok (some (o.then o')) := by
  rw [hkeys.order_eq ha hb] at hab
  rw [hkeys.order_eq hb hc] at hbc
  cases hab
  cases hbc
  rw [hkeys.order_eq ha hc, compare_then ho ho']

end Keys

theorem orderWithin_cases (ha : ∀ x, a ≠ .float x) (hb : ∀ x, b ≠ .float x)
    {outcome : Option Ordering} (h : s.orderWithin levels a b = .ok outcome) :
    (∃ m n, a.toInt? = some m ∧ b.toInt? = some n) ∨ (∃ t u, a.toStr? = some t ∧ b.toStr? = some u) ∨
      ∃ xs ys, s.Paired a b xs ys := by
  cases levels with
  | zero => cases h
  | succ levels =>
    cases a <;> cases b <;> first
      | exact absurd rfl (ha _)
      | exact absurd rfl (hb _)
      | exact .inl ⟨_, _, rfl, rfl⟩
      | exact .inr (.inl ⟨_, _, rfl, rfl⟩)
      | exact .inr (.inr ⟨_, _, .lists _ _⟩)
      | exact .inr (.inr ⟨_, _, .tuples ..⟩)
      | cases h

theorem Paired.toInt? (h : s.Paired a b xs ys) : a.toInt? = none := by
  cases h <;> rfl

theorem Paired.toStr? (h : s.Paired a b xs ys) : a.toStr? = none := by
  cases h <;> rfl

/-- What is equal to a sequence is one. -/
theorem Paired.of_equal (h : s.Paired a b xs ys) (hequal : s.equal b c = .ok true) :
    ∃ zs, s.Paired b c ys zs := by
  cases h <;> cases c <;> first
    | exact ⟨_, .lists _ _⟩
    | exact ⟨_, .tuples ..⟩
    | cases hequal

theorem Paired.trans {ys' : Array Value} (h : s.Paired a b xs ys) (h' : s.Paired b c ys' zs) :
    ys' = ys ∧ s.Paired a c xs zs := by
  cases h <;> cases h'
  · exact ⟨rfl, .lists _ _⟩
  · exact ⟨rfl, .tuples ..⟩

theorem Paired.comparable (h : s.Paired a b xs ys) (ha : s.Comparable tuples a) :
    ∀ x ∈ xs.toList, s.Comparable tuples x :=
  fun _ hx => ha.item (h.itemOf (Array.mem_toList_iff.1 hx))

theorem Paired.equal_iff_forall₂ (h : s.Paired a b xs ys) (ha : s.Comparable tuples a)
    (hb : s.Comparable tuples b) : s.equal a b = .ok true ↔
      List.Forall₂ (fun x y => s.equal x y = .ok true) xs.toList ys.toList :=
  h.equal_iff ha.toDiscrete hb.toDiscrete ha.nests (Nat.lt_succ_self 99)

/-- Sequences are in the order of their items; a list that is compared with itself need not be
looked at. -/
theorem Paired.order_eq (h : s.Paired a b xs ys) (ha : s.Comparable tuples a)
    (hb : s.Comparable tuples b) : s.orderWithin (levels + 1) a b =
      lexOrder s.equal (s.orderWithin levels) xs.toList ys.toList := by
  rw [← sequenceOrder_eq]
  cases h with
  | tuples i j xs ys => rfl
  | lists r r' =>
    by_cases hsame : r = r'
    · subst hsame
      have hself := ((Paired.lists r r).equal_iff_forall₂ ha hb).1 (equalWithin_self ha.ne_float)
      rw [sequenceOrder_eq, lexOrder_of_equal hself]
      exact if_pos rfl
    · exact if_neg hsame

theorem orderWithin_swap {outcome : Option Ordering}
    (hitems : LawfulOrder (s.Comparable tuples) s.equal (s.orderWithin levels))
    (ha : s.Comparable tuples a) (hb : s.Comparable tuples b)
    (h : s.orderWithin (levels + 1) a b = .ok outcome) :
    ∃ o, outcome = some o ∧ s.orderWithin (levels + 1) b a = .ok (some o.swap) ∧
      (o = .eq ↔ s.equal a b = .ok true) := by
  rcases orderWithin_cases ha.ne_float hb.ne_float h with
    ⟨m, n, hm, hn⟩ | ⟨t, u, ht, hu⟩ | ⟨xs, ys, hab⟩
  · exact keyOrder_toInt?.swap ha.ne_float hm hn h
  · exact keyOrder_toStr?.swap ha.ne_float ht hu h
  · rw [hab.order_eq ha hb] at h
    rw [hab.symm.order_eq hb ha, hab.equal_iff_forall₂ ha hb]
    exact hitems.lex_swap (hab.comparable ha) (hab.symm.comparable hb) h

theorem orderWithin_of_equal {outcome : Option Ordering} (ha : s.Comparable tuples a)
    (hb : s.Comparable tuples b) (hc : s.Comparable tuples c)
    (h : s.orderWithin (levels + 1) a b = .ok outcome)
    (hequal : s.equal b c = .ok true) : s.orderWithin (levels + 1) b c = .ok (some .eq) := by
  rcases orderWithin_cases ha.ne_float hb.ne_float h with
    ⟨m, n, hm, hn⟩ | ⟨t, u, ht, hu⟩ | ⟨xs, ys, hab⟩
  · exact keyOrder_toInt?.of_equal hc.ne_float hn hequal
  · exact keyOrder_toStr?.of_equal hc.ne_float hu hequal
  · obtain ⟨zs, hbc⟩ := hab.of_equal hequal
    rw [hbc.order_eq hb hc]
    exact lexOrder_of_equal ((hbc.equal_iff_forall₂ hb hc).1 hequal)

theorem orderWithin_trans {o o' : Ordering}
    (hitems : LawfulOrder (s.Comparable tuples) s.equal (s.orderWithin levels))
    (ha : s.Comparable tuples a) (hb : s.Comparable tuples b) (hc : s.Comparable tuples c)
    (hab : s.orderWithin (levels + 1) a b = .ok (some o))
    (hbc : s.orderWithin (levels + 1) b c = .ok (some o')) (ho : o ≠ .gt) (ho' : o' ≠ .gt) :
    s.orderWithin (levels + 1) a c = .ok (some (o.then o')) := by
  rcases orderWithin_cases ha.ne_float hb.ne_float hab with
    ⟨m, n, hm, hn⟩ | ⟨t, u, ht, hu⟩ | ⟨xs, ys, hxy⟩ <;>
  rcases orderWithin_cases hb.ne_float hc.ne_float hbc with
    ⟨n', p, hn', hp⟩ | ⟨u', v, hu', hv⟩ | ⟨ys', zs, hyz⟩
  · exact keyOrder_toInt?.trans hm hn hp hab hbc ho ho'
  · simp [Value.toInt?_of_toStr? hu'] at hn
  · simp [hyz.toInt?] at hn
  · simp [Value.toInt?_of_toStr? hu] at hn'
  · exact keyOrder_toStr?.trans ht hu hv hab hbc ho ho'
  · simp [hyz.toStr?] at hu
  · simp [hxy.symm.toInt?] at hn'
  · simp [hxy.symm.toStr?] at hu'
  · -- both are sequences of one type
    obtain ⟨rfl, hxz⟩ := hxy.trans hyz
    rw [hxy.order_eq ha hb] at hab
    rw [hyz.order_eq hb hc] at hbc
    rw [hxz.order_eq ha hc]
    exact hitems.lex_trans (hxy.comparable ha) (hyz.comparable hb) (hyz.symm.comparable hc)
      hab hbc ho ho'

/-- The order has its laws at every depth: where no levels are left it fails, and otherwise sequences
have them from their items. -/
theorem lawful_orderWithin (levels : Nat) :
    LawfulOrder (s.Comparable tuples) s.equal (s.orderWithin levels) := by
  induction levels with
  | zero => exact { lawful_equal with swap := nofun, of_equal := nofun, trans := nofun }
  | succ levels hitems =>
    exact
      { lawful_equal with
        swap := orderWithin_swap hitems
        of_equal := orderWithin_of_equal
        trans := fun ha hb hc => orderWithin_trans hitems ha hb hc }

end Store

/-- Where no doubles are involved, values that can be compared are in order: from the other side the
order is reversed, it is that of equality exactly if the values are equal, and it passes on. -/
theorem order_lawful {s : Store} {tuples : Nat → Array Value} {a b c : Value}
    (ha : s.Comparable tuples a) (hb : s.Comparable tuples b) (hc : s.Comparable tuples c) :
    (∀ outcome, s.order a b = .ok outcome → ∃ o, outcome = some o ∧
      s.order b a = .ok (some o.swap) ∧ s.equal a b = .ok o.isEq) ∧
    (∀ o o', s.order a b = .ok (some o) → s.order b c = .ok (some o') → o ≠ .gt → o' ≠ .gt →
      s.order a c = .ok (some (o.then o'))) := by
  have horder : LawfulOrder (s.Comparable tuples) s.equal s.order := Store.lawful_orderWithin _
  refine ⟨fun outcome h => ?_, fun o o' => horder.trans ha hb hc⟩
  obtain ⟨o, rfl, hswap, heq⟩ := horder.swap ha hb h
  refine ⟨o, rfl, hswap, ?_⟩
  obtain ⟨truth, htruth⟩ := horder.equal_total ha hb
  rw [htruth] at heq ⊢
  cases o <;> cases truth <;> simp_all

/-- `(1, "a")` is before `(True, "b")`, which is before `(True, "b", None)`. -/
theorem threeTuples_ordered :
    let a := Value.tuple 0 #[.int 1, .str "a"]
    let b := Value.tuple 1 #[.bool true, .str "b"]
    let c := Value.tuple 2 #[.bool true, .str "b", .null]
    Store.empty.order b a = .ok (some .gt) ∧ Store.empty.equal a b = .ok false ∧
      Store.empty.order a c = .ok (some .lt) := by
  intro a b c
  let tuples : Nat → Array Value := fun id =>
    [#[.int 1, .str "a"], #[.bool true, .str "b"], #[.bool true, .str "b", .null]].getD id #[]
  have ha : Store.empty.Comparable tuples a := .flat_tuple (by simp [Value.hasItems]) rfl
  have hb : Store.empty.Comparable tuples b := .flat_tuple (by simp [Value.hasItems]) rfl
  have hc : Store.empty.Comparable tuples c := .flat_tuple (by simp [Value.hasItems]) rfl
  obtain ⟨hswap, htrans⟩ := order_lawful ha hb hc
  obtain ⟨o, ho, hba, hne⟩ := hswap (some .lt) rfl
  obtain rfl := Option.some.inj ho
  exact ⟨hba, hne, htrans .lt .lt rfl rfl nofun nofun⟩

end ScriptSandbox

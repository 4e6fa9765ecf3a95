import Mathlib.Data.List.Forall2
import ScriptSandbox.Proofs.Symmetry

/-!
# Equality without doubles

Where no doubles are involved, equality is an equivalence: a value is equal to itself
(`equalWithin_self`), equality is the same from both sides (`equal_both_ways`) and passes on
(`equalWithin_trans`). Values that nest no deeper than can be compared are always equal or different,
however many levels are left (`equalWithin_of_nests`), so that lists and tuples are equal exactly if
their items are (`Paired.equal_iff`).
-/

namespace ScriptSandbox

/-! ## Values without items -/

theorem Range.sameElements_self (r : Range) : r.sameElements r = true := by simp [sameElements]

theorem Range.sameElements_trans {r r' r'' : Range} (h : r.sameElements r' = true)
    (h' : r'.sameElements r'' = true) : r.sameElements r'' = true := by
  simp only [sameElements, Bool.and_eq_true, Bool.or_eq_true, beq_iff_eq] at h h' ⊢
  grind

theorem KeySet.equal_trans {t u v : KeySet} (h : t.equal u = true) (h' : u.equal v = true) :
    t.equal v = true := by
  rw [equal_iff] at h h' ⊢
  exact ⟨h.1.trans h'.1, List.Subset.trans h.2 h'.2⟩

namespace Value

theorem same_self (a : Value) : a.same a = true := by
  cases a <;> simp [same, Range.sameElements_self]

theorem same_trans {a b c : Value} (h : a.same b = true) (h' : b.same c = true) :
    a.same c = true := by
  cases b <;> cases a <;> try cases h
  all_goals cases c <;> try cases h'
  all_goals first
    | rfl
    | exact Range.sameElements_trans h h'
    | (simp only [same, beq_iff_eq] at h h' ⊢; exact h.trans h')

/-- Lists, tuples and dicts are compared by what they hold. -/
def hasItems : Value → Bool
  | list _ | tuple .. | dict _ => true
  | _ => false

end Value

/-! ## What values hold -/

namespace Store

/-- What a list or a tuple holds are its items, and what a dict holds are the values under its keys. -/
inductive ItemOf (s : Store) (x : Value) : Value → Prop where
  | list {r : ListRef} : x ∈ s.list r → ItemOf s x (.list r)
  | tuple {id : Nat} {items : Array Value} : x ∈ items → ItemOf s x (.tuple id items)
  | dict {r : DictRef} {k : Key} : (s.dict r).getByKey? k = some x → ItemOf s x (.dict r)

/-- A value is a part of itself and of what holds it, at any depth. -/
inductive Part (s : Store) (p : Value) : Value → Prop where
  | refl : Part s p p
  | item {x v : Value} : s.ItemOf x v → Part s p x → Part s p v

/-- Lists, tuples and dicts in a value nest at most so many levels deep. -/
def NestsWithin (s : Store) : Nat → Value → Prop
  | 0, v => v.hasItems = false
  | levels + 1, v => ∀ x, s.ItemOf x v → s.NestsWithin levels x

/-- No part of a value is a double, and the tuples in it are those that have their numbers. -/
structure Discrete (s : Store) (tuples : Nat → Array Value) (v : Value) : Prop where
  exact : ∀ x, ¬ s.Part (.float x) v
  numbered : ∀ id items, s.Part (.tuple id items) v → tuples id = items

variable {s : Store} {tuples : Nat → Array Value} {a b c x v : Value} {levels : Nat} {truth : Bool}

theorem Discrete.ne_float (h : s.Discrete tuples v) (y : Binary64) : v ≠ .float y := by
  rintro rfl
  exact h.exact y .refl

theorem Discrete.item (h : s.Discrete tuples v) (hx : s.ItemOf x v) : s.Discrete tuples x :=
  ⟨fun y hy => h.exact y (.item hx hy), fun id items ht => h.numbered id items (.item hx ht)⟩

/-- Tuples with one number are one tuple. -/
theorem Discrete.items_eq {id : Nat} {xs ys : Array Value} (ha : s.Discrete tuples (.tuple id xs))
    (hb : s.Discrete tuples (.tuple id ys)) : xs = ys :=
  (ha.numbered id xs .refl).symm.trans (hb.numbered id ys .refl)

end Store

/-! ## Outcomes -/

section Outcomes

variable {equal equal' : Value → Value → Except Error Bool} {xs ys zs : Array Value} {truth : Bool}

theorem allM_mono {α : Type} {xs : List α} {p q : α → Except Error Bool}
    (h : ∀ x t, p x = .ok t → q x = .ok t) (hp : xs.allM p = .ok truth) : xs.allM q = .ok truth := by
  induction xs with
  | nil => exact hp
  | cons x xs ih =>
    rw [List.allM] at hp ⊢
    cases hx : p x with
    | error e =>
      rw [hx] at hp
      cases hp
    | ok t =>
      rw [hx] at hp
      rw [h x t hx]
      cases t with
      | false => exact hp
      | true => exact ih hp

theorem sequencesEqual_mono (h : ∀ x y t, equal x y = .ok t → equal' x y = .ok t)
    (hequal : sequencesEqual equal xs ys = .ok truth) : sequencesEqual equal' xs ys = .ok truth := by
  rw [sequencesEqual_eq] at hequal ⊢
  split
  · rw [if_pos ‹_›] at hequal
    exact allM_mono (fun p t => h p.1 p.2 t) hequal
  · rwa [if_neg ‹_›] at hequal

theorem Dict.equalBy_mono {d other : Dict} (h : ∀ x y t, equal x y = .ok t → equal' x y = .ok t)
    (hequal : d.equalBy equal other = .ok truth) : d.equalBy equal' other = .ok truth := by
  rw [equalBy_eq] at hequal ⊢
  split
  · rw [if_pos ‹_›] at hequal
    refine allM_mono (fun k t hk => ?_) hequal
    unfold agreeAt at hk ⊢
    revert hk
    cases d.getByKey? k <;> cases other.getByKey? k <;> first
      | exact id
      | exact h _ _ t
  · rwa [if_neg ‹_›] at hequal

/-- Sequences are equal if their items are, one by one. -/
theorem sequencesEqual_iff_forall₂ : sequencesEqual equal xs ys = .ok true ↔
    List.Forall₂ (fun x y => equal x y = .ok true) xs.toList ys.toList := by
  rw [sequencesEqual_eq_true_iff, List.forall₂_iff_zip, Array.length_toList, Array.length_toList]
  exact and_congr_right' ⟨fun h _ _ hp => h _ hp, fun h p hp => h hp⟩

theorem forall₂_trans {R : Value → Value → Prop} {xs ys zs : List Value} (h : List.Forall₂ R xs ys)
    (h' : List.Forall₂ R ys zs)
    (htrans : ∀ x ∈ xs, ∀ y ∈ ys, ∀ z ∈ zs, R x y → R y z → R x z) : List.Forall₂ R xs zs := by
  induction h generalizing zs with
  | nil =>
    cases h'
    exact .nil
  | cons hxy _ ih =>
    cases h' with
    | cons hyz hrest =>
      refine .cons (htrans _ (by simp) _ (by simp) _ (by simp) hxy hyz) (ih hrest ?_)
      exact fun x hx y hy z hz => htrans x (by simp [hx]) y (by simp [hy]) z (by simp [hz])

theorem sequencesEqual_true_trans
    (htrans : ∀ x ∈ xs, ∀ y ∈ ys, ∀ z ∈ zs, equal x y = .ok true → equal y z = .ok true →
      equal x z = .ok true)
    (h : sequencesEqual equal xs ys = .ok true) (h' : sequencesEqual equal ys zs = .ok true) :
    sequencesEqual equal xs zs = .ok true := by
  rw [sequencesEqual_iff_forall₂] at h h' ⊢
  simp only [← Array.mem_toList_iff] at htrans
  exact forall₂_trans h h' htrans

theorem Dict.equalBy_true_trans {d e f : Dict}
    (htrans : ∀ {k x y z}, d.getByKey? k = some x → e.getByKey? k = some y → f.getByKey? k = some z →
      equal x y = .ok true → equal y z = .ok true → equal x z = .ok true)
    (h : d.equalBy equal e = .ok true) (h' : e.equalBy equal f = .ok true) :
    d.equalBy equal f = .ok true := by
  rw [equalBy_eq_true_iff] at h h' ⊢
  refine ⟨h.1.trans h'.1, fun k hk => ?_⟩
  obtain ⟨x, y, hx, hy, hxy⟩ := agreeAt_eq_true_iff.1 (h.2 k hk)
  obtain ⟨y', z, hy', hz, hyz⟩ := agreeAt_eq_true_iff.1 (h'.2 k (mem_keyList.2 ⟨y, hy⟩))
  obtain rfl : y = y' := Option.some.inj (hy.symm.trans hy')
  exact agreeAt_eq_true_iff.2 ⟨x, z, hx, hz, htrans hx hy hz hxy hyz⟩

theorem same_or_mono {c : Prop} [Decidable c] {x y : Except Error Bool}
    (hxy : x = .ok truth → y = .ok truth) (h : (if c then .ok true else x) = .ok truth) :
    (if c then .ok true else y) = (.ok truth : Except Error Bool) := by
  split at h
  · rwa [if_pos ‹_›]
  · rw [if_neg ‹_›, hxy h]

end Outcomes

namespace Store

variable {s : Store} {tuples : Nat → Array Value} {a b c : Value} {levels levels' : Nat} {truth : Bool}

/-- An outcome stays the same with more levels left. -/
theorem equalWithin_mono (h : s.equalWithin levels a b = .ok truth) (hle : levels ≤ levels') :
    s.equalWithin levels' a b = .ok truth := by
  induction levels generalizing a b truth levels' with
  | zero => cases h
  | succ levels ih =>
    obtain ⟨levels', rfl⟩ : ∃ n, levels' = n + 1 := ⟨levels' - 1, by omega⟩
    have hitems (x y : Value) (t : Bool) (hxy : s.equalWithin levels x y = .ok t) :
        s.equalWithin levels' x y = .ok t := ih hxy (by omega)
    rcases s.equalWithin_cases a b with ⟨r, r', rfl, rfl⟩ | ⟨i, xs, j, ys, rfl, rfl⟩ |
      ⟨r, r', rfl, rfl⟩ | ⟨truth', hflat⟩
    · exact same_or_mono (sequencesEqual_mono hitems) h
    · exact same_or_mono (sequencesEqual_mono hitems) h
    · exact same_or_mono (Dict.equalBy_mono hitems) h
    · rw [(hflat levels).1] at h
      rw [(hflat levels').1, h]

/-- What does not nest too deeply has an outcome. -/
theorem equalWithin_ne_error {e : Error} (h : s.NestsWithin levels a) :
    s.equalWithin (levels + 1) a b ≠ .error e := by
  induction levels generalizing a b with
  | zero =>
    rcases s.equalWithin_cases a b with ⟨r, r', rfl, rfl⟩ | ⟨i, xs, j, ys, rfl, rfl⟩ |
      ⟨r, r', rfl, rfl⟩ | ⟨truth, hflat⟩
    · cases h
    · cases h
    · cases h
    · rw [(hflat 0).1]
      exact nofun
  | succ levels ih =>
    intro herror
    rcases s.equalWithin_cases a b with ⟨r, r', rfl, rfl⟩ | ⟨i, xs, j, ys, rfl, rfl⟩ |
      ⟨r, r', rfl, rfl⟩ | ⟨truth, hflat⟩
    · obtain ⟨x, hx, y, -, hxy⟩ := sequencesEqual_error (same_or_error herror)
      exact ih (h x (.list hx)) hxy
    · obtain ⟨x, hx, y, -, hxy⟩ := sequencesEqual_error (same_or_error herror)
      exact ih (h x (.tuple hx)) hxy
    · obtain ⟨k, x, y, hx, -, hxy⟩ := Dict.equalBy_error (same_or_error herror)
      exact ih (h x (.dict hx)) hxy
    · rw [(hflat _).1] at herror
      cases herror

/-- Where the levels suffice, their number does not matter. -/
theorem equalWithin_of_nests (h : s.NestsWithin levels a) (hlt : levels < levels') :
    s.equalWithin levels' a b = s.equalWithin (levels + 1) a b := by
  cases hequal : s.equalWithin (levels + 1) a b with
  | error e => exact absurd hequal (equalWithin_ne_error h)
  | ok truth => exact equalWithin_mono hequal hlt

/-! ## The equivalence -/

theorem equalWithin_self (h : ∀ x, a ≠ .float x) : s.equalWithin (levels + 1) a a = .ok true := by
  cases a with
  | float x => exact absurd rfl (h x)
  | _ =>
    simp [equalWithin, Value.toNumber?, Value.toInt?, Number.equal, Value.same_self,
      Range.sameElements_self]

/-- Integers and truth values are equal if they stand for one integer. -/
theorem equalWithin_toInt? {n : Int64} (ha : ∀ x, a ≠ .float x) (hb : b.toInt? = some n) :
    s.equalWithin (levels + 1) a b = .ok true ↔ a.toInt? = some n := by
  cases b <;> try cases hb
  all_goals cases a <;> first
    | exact absurd rfl (ha _)
    | simp [equalWithin, Value.toNumber?, Value.toInt?, Number.equal]

theorem equalWithin_str {t : String} : s.equalWithin (levels + 1) a (.str t) = .ok true ↔ a = .str t := by
  cases a <;> simp [equalWithin, Value.toNumber?, Value.toInt?]

/-- Equality of values without items passes on. -/
theorem equalWithin_trans_flat (hflat : b.hasItems = false) (ha : ∀ x, a ≠ .float x)
    (hb : ∀ x, b ≠ .float x) (hc : ∀ x, c ≠ .float x)
    (h : s.equalWithin (levels + 1) a b = .ok true)
    (h' : s.equalWithin (levels + 1) b c = .ok true) :
    s.equalWithin (levels + 1) a c = .ok true := by
  cases b with
  | float y => exact absurd rfl (hb y)
  | list _ | tuple _ _ | dict _ => cases hflat
  | bool _ | int _ =>
    have hc' := (equalWithin_toInt? hc rfl).1 (equalWithin_true_swap h')
    exact (equalWithin_toInt? ha hc').2 ((equalWithin_toInt? ha rfl).1 h)
  | str t =>
    obtain rfl := equalWithin_str.1 h
    exact h'
  | null =>
    cases a <;> try cases h
    exact h'
  | set r =>
    cases a <;> try cases h
    cases c <;> try cases h'
    have h₁ := Except.ok.inj h
    have h₂ := Except.ok.inj h'
    rw [Bool.or_eq_true, beq_iff_eq] at h₁ h₂
    -- sets in one place of the store are equal whatever they hold
    rcases h₁ with rfl | h₁
    · exact h'
    rcases h₂ with rfl | h₂
    · exact h
    exact congrArg Except.ok (Bool.or_eq_true_iff.2 (.inr (KeySet.equal_trans h₁ h₂)))
  | range r =>
    cases a <;> try cases h
    cases c <;> try cases h'
    exact congrArg Except.ok (Range.sameElements_trans (Except.ok.inj h) (Except.ok.inj h'))
  | function _ | native _ | object _ =>
    cases a <;> try cases h
    cases c <;> try cases h'
    have h₁ := beq_iff_eq.1 (Except.ok.inj h)
    have h₂ := beq_iff_eq.1 (Except.ok.inj h')
    exact congrArg Except.ok (beq_iff_eq.2 (h₁.trans h₂))
  | method id v m =>
    cases a <;> try cases h
    cases c <;> try cases h'
    have h₁ := Except.ok.inj h
    have h₂ := Except.ok.inj h'
    rw [Bool.and_eq_true, beq_iff_eq] at h₁ h₂
    exact congrArg Except.ok (Bool.and_eq_true_iff.2
      ⟨beq_iff_eq.2 (h₁.1.trans h₂.1), Value.same_trans h₁.2 h₂.2⟩)

theorem same_or_true_iff {c : Prop} [Decidable c] {x : Except Error Bool} :
    (if c then .ok true else x) = .ok true ↔ c ∨ x = .ok true := by
  by_cases hc : c <;> simp [hc]

/-- Equality passes on. -/
theorem equalWithin_trans (ha : s.Discrete tuples a) (hb : s.Discrete tuples b)
    (hc : s.Discrete tuples c) (h : s.equalWithin levels a b = .ok true)
    (h' : s.equalWithin levels b c = .ok true) : s.equalWithin levels a c = .ok true := by
  -- on the levels that are left, which go down with the items
  induction levels generalizing a b c with
  | zero => cases h
  | succ levels ih =>
    cases hitems : b.hasItems with
    | false => exact equalWithin_trans_flat hitems ha.ne_float hb.ne_float hc.ne_float h h'
    | true =>
      cases b with
      | list r' =>
        cases a <;> try cases h
        cases c <;> try cases h'
        rcases same_or_true_iff.1 h with rfl | h₁
        · exact h'
        rcases same_or_true_iff.1 h' with rfl | h₂
        · exact h
        refine same_or_true_iff.2 (.inr (sequencesEqual_true_trans (fun x hx y hy z hz => ?_) h₁ h₂))
        exact ih (ha.item (.list hx)) (hb.item (.list hy)) (hc.item (.list hz))
      | tuple i ys =>
        cases a <;> try cases h
        cases c <;> try cases h'
        rcases same_or_true_iff.1 h with rfl | h₁
        · rwa [ha.items_eq hb]
        rcases same_or_true_iff.1 h' with rfl | h₂
        · rwa [← hb.items_eq hc]
        refine same_or_true_iff.2 (.inr (sequencesEqual_true_trans (fun x hx y hy z hz => ?_) h₁ h₂))
        exact ih (ha.item (.tuple hx)) (hb.item (.tuple hy)) (hc.item (.tuple hz))
      | dict r' =>
        cases a <;> try cases h
        cases c <;> try cases h'
        rcases same_or_true_iff.1 h with rfl | h₁
        · exact h'
        rcases same_or_true_iff.1 h' with rfl | h₂
        · exact h
        refine same_or_true_iff.2 (.inr (Dict.equalBy_true_trans (fun hx hy hz => ?_) h₁ h₂))
        exact ih (ha.item (.dict hx)) (hb.item (.dict hy)) (hc.item (.dict hz))
      | _ => cases hitems

/-! ## Sequences -/

/-- Two lists or two tuples, and the items of each. -/
inductive Paired (s : Store) : Value → Value → Array Value → Array Value → Prop where
  | lists (r r' : ListRef) : Paired s (.list r) (.list r') (s.list r) (s.list r')
  | tuples (i j : Nat) (xs ys : Array Value) : Paired s (.tuple i xs) (.tuple j ys) xs ys

variable {xs ys : Array Value}

theorem Paired.symm (h : s.Paired a b xs ys) : s.Paired b a ys xs := by
  cases h with
  | lists r r' => exact .lists r' r
  | tuples i j xs ys => exact .tuples j i ys xs

theorem Paired.itemOf (h : s.Paired a b xs ys) {x : Value} (hx : x ∈ xs) : s.ItemOf x a := by
  cases h with
  | lists => exact .list hx
  | tuples => exact .tuple hx

/-- Items nest less deeply, so they are compared as they would be on their own. -/
theorem Paired.equal_iff (h : s.Paired a b xs ys) (ha : s.Discrete tuples a)
    (hb : s.Discrete tuples b) (hnests : s.NestsWithin (levels + 1) a)
    (hlevels : levels < maxCompareDepth) : s.equal a b = .ok true ↔
      List.Forall₂ (fun x y => s.equal x y = .ok true) xs.toList ys.toList := by
  have hitem (x y : Value) (hx : x ∈ xs) : s.equalWithin maxCompareDepth x y = s.equal x y := by
    have hx' := hnests x (h.itemOf hx)
    rw [equal, equalWithin_of_nests hx' hlevels, equalWithin_of_nests hx' (Nat.lt_succ_of_lt hlevels)]
  -- one level less is left for items, which makes no difference to them
  have hsequences : sequencesEqual (s.equalWithin maxCompareDepth) xs ys = .ok true ↔
      List.Forall₂ (fun x y => s.equal x y = .ok true) xs.toList ys.toList := by
    rw [sequencesEqual_iff_forall₂, List.forall₂_iff_zip, List.forall₂_iff_zip]
    refine and_congr_right' (forall_congr' fun x => forall_congr' fun y => ?_)
    refine imp_congr_right fun hxy => ?_
    rw [hitem x y (Array.mem_toList_iff.1 (List.of_mem_zip hxy).1)]
  have hself (hsame : xs = ys) :
      List.Forall₂ (fun x y => s.equal x y = .ok true) xs.toList ys.toList := by
    subst hsame
    refine List.forall₂_same.2 fun x hx => equalWithin_self (ha.item (h.itemOf ?_)).ne_float
    exact Array.mem_toList_iff.1 hx
  cases h with
  | lists r r' =>
    refine same_or_true_iff.trans ⟨?_, fun h => .inr (hsequences.2 h)⟩
    rintro (rfl | h)
    · exact hself rfl
    · exact hsequences.1 h
  | tuples i j xs ys =>
    refine same_or_true_iff.trans ⟨?_, fun h => .inr (hsequences.2 h)⟩
    rintro (rfl | h)
    · exact hself (ha.items_eq hb)
    · exact hsequences.1 h

end Store

end ScriptSandbox

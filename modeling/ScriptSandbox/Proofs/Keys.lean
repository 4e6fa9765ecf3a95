import ScriptSandbox.Proofs.Integral
import ScriptSandbox.Proofs.Symmetry

/-!
# Keys

A key tells which values have it: the numbers that are one integer, one double, one text, or tuples
whose items have the same keys (`Key.Of`, `Key.ofValue_eq_ok`). Dicts and sets that are made by
storing and removing, as all are, have each entry under the key of the value it was stored with
(`Dict.Made.filed`, `KeySet.Made.filed`).

Values that share a key are equal, so what is found under a value's key was stored with a value
equal to it (`equal_of_key_eq`).
-/

namespace ScriptSandbox

theorem map_eq_ok_iff {α β : Type} {x : Except Error α} {f : α → β} {b : β} :
    x.map f = .ok b ↔ ∃ a, x = .ok a ∧ f a = b := by
  cases x <;> simp [Except.map]

/-! ## Keys of numbers -/

namespace Number

/-- The key of a number. -/
def key : Number → Key
  | .int n => .int n
  | .float x => .ofFloat x

/-- A number is an integer. -/
def IsInt (n : Int) : Number → Prop
  | .int m => m.toInt = n
  | .float x => x.IsInt n

theorem IsInt.equal {x y : Number} {n : Int} (hx : x.IsInt n) (hy : y.IsInt n) :
    x.equal y = true := by
  cases x <;> cases y
  case int.int m k => exact beq_iff_eq.2 (Int64.toInt_inj.1 (hx.trans hy.symm))
  case int.float m y =>
    obtain rfl : m.toInt = n := hx
    exact Binary64.equal_ofInt hy
  case float.int x m =>
    obtain rfl : m.toInt = n := hy
    exact (Binary64.equal_comm _ _).trans (Binary64.equal_ofInt hx)
  case float.float x y => exact Binary64.IsInt.equal hx hy

end Number

namespace Key

theorem ofFloat_eq_int_iff {x : Binary64} {n : Int64} : ofFloat x = .int n ↔ x.IsInt n.toInt := by
  unfold ofFloat Binary64.IsInt
  split
  · rename_i h
    simp only [Bool.and_eq_true, decide_eq_true_eq] at h
    obtain ⟨⟨hint, hlow⟩, hhigh⟩ := h
    have hback : (Int64.ofInt x.truncate).toInt = x.truncate :=
      Int64.toInt_ofInt_of_le hlow hhigh
    rw [Key.int.injEq, ← Int64.toInt_inj, hback]
    exact ⟨fun h => ⟨hint, h⟩, fun h => h.2⟩
  · rename_i h
    refine ⟨nofun, fun ⟨hint, htruncate⟩ => absurd ?_ h⟩
    have hlow := n.le_toInt
    have hhigh := n.toInt_lt
    unfold Integer.bound
    simp [hint, htruncate]
    omega

theorem ofFloat_zero {x : Binary64} (h : x.isZero = true) : ofFloat x = .int 0 := by
  have hint : x.IsInt (0 : Int64).toInt := Binary64.isInt_zero h
  exact ofFloat_eq_int_iff.2 hint

theorem ofFloat_cases (x : Binary64) : (∃ n, ofFloat x = .int n) ∨ ofFloat x = .float x := by
  unfold ofFloat
  split
  · exact .inl ⟨_, rfl⟩
  · exact .inr rfl

/-! ## Keys of values -/

theorem ofValue_number {v : Value} {x : Number} (h : v.toNumber? = some x) :
    ofValue v = .ok x.key := by
  cases v <;> cases h <;> rfl

theorem ofValues_eq_ok_iff {vs : List Value} {ks : List Key} :
    ofValues vs = .ok ks ↔ List.Forall₂ (fun v k => ofValue v = .ok k) vs ks := by
  induction vs generalizing ks with
  | nil => simp [ofValues, eq_comm]
  | cons v rest ih =>
    rw [ofValues, List.forall₂_cons_left_iff]
    cases hv : ofValue v with
    | error e => simp [bind, Except.bind]
    | ok k =>
      cases hrest : ofValues rest with
      | error e =>
        refine ⟨nofun, fun ⟨_, ks, _, hks, _⟩ => ?_⟩
        rw [← ih, hrest] at hks
        cases hks
      | ok ks' =>
        simp only [← ih, hrest, bind, Except.bind, Except.ok.injEq]
        exact ⟨fun h => ⟨k, ks', rfl, rfl, h.symm⟩, fun ⟨_, _, hk, hks, h⟩ => by rw [h, hk, hks]⟩

theorem ofValue_tuple {id : Nat} {items : Array Value} {k : Key} :
    ofValue (.tuple id items) = .ok k ↔
      ∃ ks, k = .tuple ks ∧ List.Forall₂ (fun v k => ofValue v = .ok k) items.toList ks := by
  obtain ⟨items⟩ := items
  rw [ofValue, map_eq_ok_iff]
  simp only [ofValues_eq_ok_iff]
  exact exists_congr fun ks => and_comm.trans (and_congr_left' eq_comm)

/-- What the values with a key are. -/
def Of (v : Value) : Key → Prop
  | .null => v = .null
  | .int n => ∃ x, v.toNumber? = some x ∧ x.IsInt n.toInt
  | .float x => v = .float x
  | .str s => v = .str s
  | .tuple ks => ∃ id items, v = .tuple id items ∧
      List.Forall₂ (fun v k => ofValue v = .ok k) items.toList ks

theorem ofValue_eq_ok {v : Value} {k : Key} (h : ofValue v = .ok k) : k.Of v := by
  cases v with
  | null => cases h; rfl
  | bool b => cases h; exact ⟨_, rfl, rfl⟩
  | int n => cases h; exact ⟨_, rfl, rfl⟩
  | float x =>
    obtain rfl : ofFloat x = k := Except.ok.inj h
    rcases ofFloat_cases x with ⟨n, hn⟩ | hx
    · rw [hn]
      exact ⟨_, rfl, ofFloat_eq_int_iff.1 hn⟩
    · rw [hx]
      rfl
  | str s => cases h; rfl
  | tuple id items =>
    obtain ⟨ks, rfl, hks⟩ := ofValue_tuple.1 h
    exact ⟨id, items, rfl, hks⟩
  | _ => cases h

end Key

/-! ## Dicts and sets -/

namespace Dict

/-- Dicts are made by storing values under the keys of values and by removing entries. -/
inductive Made : Dict → Prop where
  | empty : Made .empty
  | insert {d : Dict} {k : Key} {key : Value} (value : Value) : Made d → Key.ofValue key = .ok k →
    Made (d.insertByKey k key value)
  | erase {d : Dict} (k : Key) : Made d → Made (d.eraseByKey k)

variable {d other : Dict} {k : Key} {key value : Value}

/-- Each entry stands under the key of the value it was stored with. -/
theorem Made.filed (h : d.Made) (hmem : (k, key, value) ∈ d.table.toList) :
    Key.ofValue key = .ok k := by
  induction h generalizing k key value with
  | empty => cases hmem
  | insert stored _ hk ih =>
    rcases Table.mem_upsert hmem with hold | hnew | ⟨old, hold, hchanged⟩
    · exact ih hold
    · cases hnew
      exact hk
    · cases hchanged
      exact ih hold
  | erase k _ ih => exact ih (Table.mem_erase hmem)

theorem Made.insertAll (h : d.Made) {pairs : List (Value × Value)} {d' : Dict}
    (hd' : d.insertAll pairs = .ok d') : d'.Made := by
  induction pairs generalizing d with
  | nil => exact Except.ok.inj hd' ▸ h
  | cons pair rest ih =>
    obtain ⟨key, value⟩ := pair
    rw [Dict.insertAll] at hd'
    cases hinsert : d.insert key value with
    | error e =>
      rw [hinsert] at hd'
      cases hd'
    | ok grown =>
      rw [hinsert] at hd'
      obtain ⟨k, hk, rfl⟩ := map_eq_ok_iff.1 hinsert
      exact ih (.insert value h hk) hd'

theorem Made.insertEntries (h : d.Made) {entries : List (Key × Value × Value)}
    (hentries : ∀ e ∈ entries, Key.ofValue e.2.1 = .ok e.1) :
    (entries.foldl (fun d e => d.insertByKey e.1 e.2.1 e.2.2) d).Made := by
  induction entries generalizing d with
  | nil => exact h
  | cons e rest ih =>
    exact ih (.insert _ h (hentries e (by simp))) fun e he => hentries e (by simp [he])

theorem Made.merged (h : d.Made) (hother : other.Made) : (d.merged other).Made :=
  h.insertEntries fun _ he => hother.filed he

theorem get?_eq_some (h : d.Made) (hfound : d.get? key = .ok (some value)) :
    ∃ k stored, Key.ofValue key = .ok k ∧ Key.ofValue stored = .ok k ∧
      (stored, value) ∈ d.toList := by
  obtain ⟨k, hk, hfound⟩ := map_eq_ok_iff.1 hfound
  obtain ⟨⟨stored, _⟩, hentry, rfl⟩ := Option.map_eq_some_iff.1 hfound
  have hmem := Table.get?_eq_some_iff.1 hentry
  exact ⟨k, stored, hk, h.filed hmem, mem_toList.2 ⟨k, hmem⟩⟩

end Dict

namespace KeySet

/-- Sets are made by adding values under their keys and by removing elements. -/
inductive Made : KeySet → Prop where
  | empty : Made .empty
  | insert {s : KeySet} {k : Key} {value : Value} : Made s → Key.ofValue value = .ok k →
    Made (s.insertByKey k value)
  | erase {s : KeySet} (k : Key) : Made s → Made (s.eraseByKey k)

variable {s t : KeySet} {k : Key} {value : Value}

/-- Each element stands under its key. -/
theorem Made.filed (h : s.Made) (hmem : (k, value) ∈ s.table.toList) :
    Key.ofValue value = .ok k := by
  induction h generalizing k value with
  | empty => cases hmem
  | insert _ hk ih =>
    rcases Table.mem_insertNew hmem with hold | hnew
    · exact ih hold
    · cases hnew
      exact hk
  | erase k _ ih => exact ih (Table.mem_erase hmem)

theorem Made.insertAll (h : s.Made) {values : List Value} (ht : s.insertAll values = .ok t) :
    t.Made := by
  induction values generalizing s with
  | nil => exact Except.ok.inj ht ▸ h
  | cons value rest ih =>
    rw [KeySet.insertAll] at ht
    cases hinsert : s.insert value with
    | error e =>
      rw [hinsert] at ht
      cases ht
    | ok grown =>
      rw [hinsert] at ht
      obtain ⟨k, hk, rfl⟩ := map_eq_ok_iff.1 hinsert
      exact ih (.insert h hk) ht

theorem Made.insertEntries (h : s.Made) {entries : List (Key × Value)}
    (hentries : ∀ e ∈ entries, Key.ofValue e.2 = .ok e.1) :
    (entries.foldl (fun s e => s.insertByKey e.1 e.2) s).Made := by
  induction entries generalizing s with
  | nil => exact h
  | cons e rest ih =>
    exact ih (.insert h (hentries e (by simp))) fun e he => hentries e (by simp [he])

theorem Made.union (h : s.Made) (ht : t.Made) : (s.union t).Made :=
  h.insertEntries fun _ he => ht.filed he

theorem Made.filter (h : s.Made) (p : Key → Bool) : Made ⟨s.table.filter p⟩ := by
  have tables : ∀ (entries : List (Key × Value)) (s : KeySet),
      (⟨entries.foldl (fun t e => t.insertNew e.1 e.2) s.table⟩ : KeySet) =
        entries.foldl (fun s e => s.insertByKey e.1 e.2) s := by
    intro entries
    induction entries with
    | nil => exact fun s => rfl
    | cons e rest ih => exact fun s => ih (s.insertByKey e.1 e.2)
  have hfilter : (⟨s.table.filter p⟩ : KeySet) = _ := tables _ .empty
  rw [hfilter]
  exact Made.empty.insertEntries fun e he => h.filed (List.mem_filter.1 he).1

theorem Made.intersection (h : s.Made) : (s.intersection t).Made := h.filter _

theorem Made.difference (h : s.Made) : (s.difference t).Made := h.filter _

theorem Made.symmetricDifference (h : s.Made) (ht : t.Made) : (s.symmetricDifference t).Made :=
  h.difference.union ht.difference

theorem contains_iff (h : s.Made) : s.contains value = .ok true ↔
    ∃ k stored, Key.ofValue value = .ok k ∧ Key.ofValue stored = .ok k ∧ stored ∈ s.toList := by
  simp only [contains, map_eq_ok_iff, Table.contains_iff, Table.mem_keyList,
    Table.get?_eq_some_iff, mem_toList]
  constructor
  · rintro ⟨k, hk, stored, hmem⟩
    exact ⟨k, stored, hk, h.filed hmem, k, hmem⟩
  · rintro ⟨k, stored, hk, hstored, k', hmem⟩
    rw [h.filed hmem] at hstored
    cases hstored
    exact ⟨_, hk, stored, hmem⟩

/-- A set of one value. -/
theorem table_singleton (k : Key) (value : Value) :
    (empty.insertByKey k value).table.toList = [(k, value)] := by
  have habsent : k ∉ empty.table.keyList := List.not_mem_nil
  rw [insertByKey, Table.insertNew, if_neg fun h => habsent (Table.contains_iff.1 h),
    Table.toList_upsert_of_absent habsent]
  rfl

theorem ofList_singleton (h : Key.ofValue value = .ok k) :
    ofList [value] = .ok (empty.insertByKey k value) := by
  rw [ofList, insertAll, insert, h]
  rfl

/-- The set of one value holds what shares its key. -/
theorem contains_singleton (h : Key.ofValue value = .ok k) {other : Value} :
    (empty.insertByKey k value).contains other = .ok true ↔ Key.ofValue other = .ok k := by
  rw [contains_iff (.insert .empty h), toList, table_singleton]
  simp only [List.map_cons, List.map_nil, List.mem_singleton]
  constructor
  · rintro ⟨_, _, hother, hstored, rfl⟩
    rw [hother, ← hstored, h]
  · exact fun hother => ⟨k, value, hother, h, rfl⟩

end KeySet

/-! ## Values that share a key -/

namespace Value

/-- A value is a part of itself and of the tuples that hold it, at any depth. -/
inductive Part (p : Value) : Value → Prop where
  | refl : Part p p
  | item {id : Nat} {items : Array Value} {v : Value} : v ∈ items → Part p v →
    Part p (.tuple id items)

/-- No part of a value is a double that is not a number. -/
def NoNaN (v : Value) : Prop := ∀ x, Part (.float x) v → x.isNaN = false

/-- The tuples of a value nest at most so many levels deep. -/
def NestsWithin : Nat → Value → Prop
  | 0, v => ∀ id items, v ≠ .tuple id items
  | levels + 1, v => ∀ id items, v = .tuple id items → ∀ x ∈ items, NestsWithin levels x

section Tuple

variable {id : Nat} {items : Array Value}

theorem NoNaN.tuple (h : ∀ v ∈ items, v.NoNaN) : NoNaN (.tuple id items) := by
  intro x hx
  cases hx with
  | item hv hx => exact h _ hv x hx

theorem NoNaN.item (h : NoNaN (.tuple id items)) {v : Value} (hv : v ∈ items) : v.NoNaN :=
  fun x hx => h x (.item hv hx)

theorem NestsWithin.tuple {levels : Nat} (h : ∀ v ∈ items, v.NestsWithin levels) :
    NestsWithin (levels + 1) (.tuple id items) := by
  intro _ _ heq
  cases heq
  exact h

end Tuple

end Value

namespace Store

variable {s : Store} {a b : Value}

theorem equalWithin_number {x y : Number} (ha : a.toNumber? = some x) (hb : b.toNumber? = some y)
    (levels : Nat) : s.equalWithin (levels + 1) a b = .ok (x.equal y) := by
  cases a <;> cases ha <;> cases b <;> cases hb <;> rfl

theorem equalWithin_of_flat_key {k : Key} (hflat : ∀ ks, k ≠ .tuple ks) (hnan : a.NoNaN)
    (ha : Key.ofValue a = .ok k) (hb : Key.ofValue b = .ok k) (levels : Nat) :
    s.equalWithin (levels + 1) a b = .ok true := by
  have hof := Key.ofValue_eq_ok ha
  have hof' := Key.ofValue_eq_ok hb
  cases k with
  | null =>
    obtain rfl : a = .null := hof
    obtain rfl : b = .null := hof'
    rfl
  | int n =>
    obtain ⟨x, hx, hxn⟩ := hof
    obtain ⟨y, hy, hyn⟩ := hof'
    rw [equalWithin_number hx hy, hxn.equal hyn]
  | float x =>
    obtain rfl : a = .float x := hof
    obtain rfl : b = .float x := hof'
    have hx := hnan x .refl
    rw [equalWithin_number rfl rfl]
    exact congrArg _ (Binary64.equal_iff.2 ⟨hx, hx, rfl⟩)
  | str text =>
    obtain rfl : a = .str text := hof
    obtain rfl : b = .str text := hof'
    simp [equalWithin]
  | tuple ks => exact absurd rfl (hflat ks)

/-- Tuples that share a key have as many items as one another, and these share keys, too. -/
theorem zip_of_keys {xs ys : List Value} {ks : List Key}
    (hxs : List.Forall₂ (fun v k => Key.ofValue v = .ok k) xs ks)
    (hys : List.Forall₂ (fun v k => Key.ofValue v = .ok k) ys ks) :
    xs.length = ys.length ∧
      ∀ p ∈ xs.zip ys, ∃ k, Key.ofValue p.1 = .ok k ∧ Key.ofValue p.2 = .ok k := by
  induction hxs generalizing ys with
  | nil =>
    cases hys
    exact ⟨rfl, by simp⟩
  | cons hx _ ih =>
    cases hys with
    | cons hy hrest =>
      obtain ⟨hlength, hall⟩ := ih hrest
      refine ⟨by simp [hlength], fun p hp => ?_⟩
      rcases List.mem_cons.1 hp with rfl | hp
      · exact ⟨_, hx, hy⟩
      · exact hall p hp

theorem equalWithin_of_key {levels : Nat} {k : Key} (hnan : a.NoNaN) (hnests : a.NestsWithin levels)
    (ha : Key.ofValue a = .ok k) (hb : Key.ofValue b = .ok k) :
    s.equalWithin (levels + 1) a b = .ok true := by
  induction levels generalizing a b k with
  | zero =>
    refine equalWithin_of_flat_key (fun ks hk => ?_) hnan ha hb 0
    rw [hk] at ha
    obtain ⟨id, items, rfl, -⟩ := Key.ofValue_eq_ok ha
    -- a tuple nests one level at least
    exact hnests id items rfl
  | succ levels ih =>
    by_cases hflat : ∀ ks, k ≠ .tuple ks
    · exact equalWithin_of_flat_key hflat hnan ha hb _
    · simp only [not_forall, Classical.not_not] at hflat
      obtain ⟨ks, rfl⟩ := hflat
      obtain ⟨i, xs, rfl, hxs⟩ := Key.ofValue_eq_ok ha
      obtain ⟨j, ys, rfl, hys⟩ := Key.ofValue_eq_ok hb
      obtain ⟨hlength, hkeys⟩ := zip_of_keys hxs hys
      have hitems : sequencesEqual (s.equalWithin (levels + 1)) xs ys = .ok true := by
        refine sequencesEqual_eq_true_iff.2 ⟨by simpa using hlength, fun p hp => ?_⟩
        obtain ⟨k, hk, hk'⟩ := hkeys p hp
        have hmem : p.1 ∈ xs := Array.mem_toList_iff.1 (List.of_mem_zip hp).1
        exact ih (hnan.item hmem) (hnests i xs rfl p.1 hmem) hk hk'
      show (if i = j then _ else sequencesEqual _ xs ys) = _
      rw [hitems, ite_self]

end Store

/-- Values that share a key are equal, if no double in them is not a number and their tuples nest no
deeper than can be compared. So a dict or a set finds an entry for a value only if the entry was
stored with a value equal to it. -/
theorem equal_of_key_eq (s : Store) :
    (∀ a b k, a.NoNaN → a.NestsWithin maxCompareDepth → Key.ofValue a = .ok k →
      Key.ofValue b = .ok k → s.equal a b = .ok true) ∧
    (∀ d : Dict, d.Made → ∀ b value, b.NoNaN → b.NestsWithin maxCompareDepth →
      d.get? b = .ok (some value) → ∃ a, (a, value) ∈ d.toList ∧ s.equal a b = .ok true) ∧
    (∀ t : KeySet, t.Made → ∀ b, b.NoNaN → b.NestsWithin maxCompareDepth →
      t.contains b = .ok true → ∃ a ∈ t.toList, s.equal a b = .ok true) := by
  refine ⟨fun a b k hnan hnests ha hb => Store.equalWithin_of_key hnan hnests ha hb,
    fun d hd b value hnan hnests hfound => ?_, fun t ht b hnan hnests hfound => ?_⟩
  · obtain ⟨k, a, hb, ha, hmem⟩ := Dict.get?_eq_some hd hfound
    exact ⟨a, hmem, Store.equalWithin_true_swap (Store.equalWithin_of_key hnan hnests hb ha)⟩
  · obtain ⟨k, a, hb, ha, hmem⟩ := (KeySet.contains_iff ht).1 hfound
    exact ⟨a, hmem, Store.equalWithin_true_swap (Store.equalWithin_of_key hnan hnests hb ha)⟩

/-- The tuple `(1, -0.0)`. -/
def oneAndZero : Value := .tuple 0 #[.int 1, .float ⟨0x8000000000000000⟩]

/-- The tuple `(True, 0)`. -/
def trueAndZero : Value := .tuple 1 #[.bool true, .int 0]

/-- Both tuples share a key, so they are equal, and a set that holds the one holds the other. -/
theorem oneAndZero_equal :
    Key.ofValue oneAndZero = .ok (.tuple [.int 1, .int 0]) ∧
      Key.ofValue trueAndZero = .ok (.tuple [.int 1, .int 0]) ∧
      Store.empty.equal oneAndZero trueAndZero = .ok true ∧
      ∃ t, KeySet.ofList [trueAndZero] = .ok t ∧ t.contains oneAndZero = .ok true ∧
        ∃ a ∈ t.toList, Store.empty.equal a oneAndZero = .ok true := by
  have hzero : Key.ofValue (.float ⟨0x8000000000000000⟩) = .ok (.int 0) := by
    rw [Key.ofValue, Key.ofFloat_zero rfl]
  have hone : Key.ofValue oneAndZero = .ok (.tuple [.int 1, .int 0]) :=
    Key.ofValue_tuple.2 ⟨_, rfl, .cons rfl (.cons hzero .nil)⟩
  have htrue : Key.ofValue trueAndZero = .ok (.tuple [.int 1, .int 0]) := rfl
  -- minus zero is a number
  have hnan : oneAndZero.NoNaN := by
    refine .tuple fun v hv => ?_
    simp only [List.mem_toArray, List.mem_cons, List.not_mem_nil, or_false] at hv
    rcases hv with rfl | rfl
    · exact nofun
    · rintro x ⟨⟩
      rfl
  have hnests : oneAndZero.NestsWithin maxCompareDepth := by
    refine .tuple fun v hv => ?_
    simp only [List.mem_toArray, List.mem_cons, List.not_mem_nil, or_false] at hv
    rcases hv with rfl | rfl <;> exact nofun
  obtain ⟨hequal, -, hset⟩ := equal_of_key_eq .empty
  have hcontains := (KeySet.contains_singleton htrue).2 hone
  exact ⟨hone, htrue, hequal _ _ _ hnan hnests hone htrue, _, KeySet.ofList_singleton htrue,
    hcontains, hset _ (.insert .empty htrue) _ hnan hnests hcontains⟩

end ScriptSandbox

import Mathlib.Data.Multiset.MapFold
import ScriptSandbox.Proofs.Elements
import ScriptSandbox.Proofs.Keys
import ScriptSandbox.Proofs.Order

/-!
# Equality and structure

What values have one structure is said without keys, depths or an order of entries (`Store.Alike`):
sequences are alike if their items are, one by one, and dicts and sets if their entries are, in some
order. Where no doubles are involved, values that can be compared are equal exactly if they are alike
(`Store.equal_iff_alike`). Dicts and sets compare keys instead of the values that were stored under
them, which comes to the same, since the values alike to one with a key are those with this key
(`Store.alike_iff_key`).
-/

namespace ScriptSandbox

/-! ## Alike values -/

namespace Store

/-- Values of one structure: sequences of one kind whose items are alike one by one, dicts whose
entries and sets whose elements can be paired, ranges of the same numbers. Truth values and integers
are alike if they stand for one integer, functions and objects if they are one, and methods if they
have one name and were read from the same value. -/
inductive Alike (s : Store) : Value → Value → Prop where
  | null : Alike s .null .null
  | number {a b : Value} {n : Int64} : a.toInt? = some n → b.toInt? = some n → Alike s a b
  | str (text : String) : Alike s (.str text) (.str text)
  | list {r r' : ListRef} : List.Forall₂ (Alike s) (s.list r).toList (s.list r').toList →
    Alike s (.list r) (.list r')
  | tuple {i j : Nat} {xs ys : Array Value} : List.Forall₂ (Alike s) xs.toList ys.toList →
    Alike s (.tuple i xs) (.tuple j ys)
  | dict {r r' : DictRef} :
    Multiset.Rel (Prod.RProd (Alike s) (Alike s)) (s.dict r).toList (s.dict r').toList →
    Alike s (.dict r) (.dict r')
  | set {r r' : SetRef} : Multiset.Rel (Alike s) (s.set r).toList (s.set r').toList →
    Alike s (.set r) (.set r')
  | range {r r' : Range} : r.toList = r'.toList → Alike s (.range r) (.range r')
  | function {f g : Closure} : f.id = g.id → Alike s (.function f) (.function g)
  | native {f g : NativeFunction} : f.id = g.id → Alike s (.native f) (.native g)
  | object {o p : ObjectHandle} : o.id = p.id → Alike s (.object o) (.object p)
  | method {i j : Nat} {receiver receiver' : Value} (name : String) :
    receiver.same receiver' = true → Alike s (.method i receiver name) (.method j receiver' name)

end Store

/-- Values that are not built from others and are no doubles. -/
def Value.isAtom : Value → Bool
  | .null | .bool _ | .int _ | .str _ | .range _ | .function _ | .native _ | .object _ => true
  | _ => false

namespace Store

/-- Two values that were built from the same atoms in the same way, each with lists, tuples, dicts and
sets of its own. -/
inductive Copy (s : Store) : Value → Value → Prop where
  | atom {v : Value} : v.isAtom = true → Copy s v v
  | method {i j : Nat} (receiver : Value) (name : String) :
    Copy s (.method i receiver name) (.method j receiver name)
  | list {r r' : ListRef} : List.Forall₂ (Copy s) (s.list r).toList (s.list r').toList →
    Copy s (.list r) (.list r')
  | tuple {i j : Nat} {xs ys : Array Value} : List.Forall₂ (Copy s) xs.toList ys.toList →
    Copy s (.tuple i xs) (.tuple j ys)
  | dict {r r' : DictRef} :
    List.Forall₂ (Prod.RProd (Copy s) (Copy s)) (s.dict r).toList (s.dict r').toList →
    Copy s (.dict r) (.dict r')
  | set {r r' : SetRef} : List.Forall₂ (Copy s) (s.set r).toList (s.set r').toList →
    Copy s (.set r) (.set r')

end Store

section Relations

variable {α β : Type} {R S : α → β → Prop} {xs : List α} {ys : List β}

theorem rel_of_forall₂ (h : List.Forall₂ R xs ys) : Multiset.Rel R (xs : Multiset α) ys := by
  induction h with
  | nil => exact .zero
  | cons hxy _ ih => exact .cons hxy ih

theorem forall₂_congr_mem (h : ∀ x ∈ xs, ∀ y ∈ ys, (R x y ↔ S x y)) :
    List.Forall₂ R xs ys ↔ List.Forall₂ S xs ys := by
  rw [List.forall₂_iff_zip, List.forall₂_iff_zip]
  refine and_congr_right' (forall_congr' fun x => forall_congr' fun y => ?_)
  exact imp_congr_right fun hxy => h x (List.of_mem_zip hxy).1 y (List.of_mem_zip hxy).2

theorem rel_congr_mem (h : ∀ x ∈ xs, ∀ y ∈ ys, (R x y ↔ S x y)) :
    Multiset.Rel R (xs : Multiset α) ys ↔ Multiset.Rel S (xs : Multiset α) ys :=
  ⟨fun hrel => hrel.mono fun x hx y hy => (h x hx y hy).1,
    fun hrel => hrel.mono fun x hx y hy => (h x hx y hy).2⟩

theorem rprod_iff {R : α → α → Prop} {S : β → β → Prop} {p q : α × β} :
    Prod.RProd R S p q ↔ R p.1 q.1 ∧ S p.2 q.2 :=
  ⟨fun ⟨h, h'⟩ => ⟨h, h'⟩, fun h => .intro h.1 h.2⟩

theorem exists_forall₂ (h : ∀ x ∈ xs, ∃ y, R x y) : ∃ ys, List.Forall₂ R xs ys := by
  induction xs with
  | nil => exact ⟨[], .nil⟩
  | cons x xs ih =>
    obtain ⟨hx, hxs⟩ := List.forall_mem_cons.1 h
    obtain ⟨y, hy⟩ := hx
    obtain ⟨ys, hys⟩ := ih hxs
    exact ⟨y :: ys, .cons hy hys⟩

end Relations

namespace Store

variable {s : Store} {a b : Value}

theorem Alike.of_atom (h : a.isAtom = true) : s.Alike a a := by
  cases a with
  | null => exact .null
  | bool _ | int _ => exact .number rfl rfl
  | str text => exact .str text
  | range r => exact .range rfl
  | function f => exact .function rfl
  | native f => exact .native rfl
  | object o => exact .object rfl
  | _ => cases h

/-- Copies are alike: their items and entries are copies, in the same order. -/
theorem Copy.alike (h : s.Copy a b) : s.Alike a b :=
  -- the induction is on values, items, entries and single entries at once
  @Copy.rec s (fun a b _ => s.Alike a b) (fun xs ys _ => List.Forall₂ s.Alike xs ys)
    (fun xs ys _ => List.Forall₂ (Prod.RProd s.Alike s.Alike) xs ys)
    (fun x y _ => Prod.RProd s.Alike s.Alike x y)
    Alike.of_atom
    (fun receiver name => .method name receiver.same_self)
    (fun _ ih => .list ih)
    (fun _ ih => .tuple ih)
    (fun _ ih => .dict (rel_of_forall₂ ih))
    (fun _ ih => .set (rel_of_forall₂ ih))
    .nil
    (fun _ _ => .cons)
    .nil
    (fun _ _ => .cons)
    (fun _ _ => .intro)
    a b h

end Store

/-! ## Tables -/

/-- The entries of two equally large tables can be paired if each entry of the one has a partner with
its key: no partner is found twice, since no two entries have one key. -/
theorem Table.rel_iff {α : Type} {t u : Table α} {R : α → α → Prop} :
    Multiset.Rel (fun e e' : Key × α => e.1 = e'.1 ∧ R e.2 e'.2) t.toList u.toList ↔
      t.size = u.size ∧ ∀ e ∈ t.toList, ∃ e' ∈ u.toList, e.1 = e'.1 ∧ R e.2 e'.2 := by
  rw [← length_toList, ← length_toList]
  constructor
  · intro h
    exact ⟨Multiset.card_eq_card_of_rel h, fun e he => Multiset.exists_mem_of_rel_of_mem h he⟩
  · rintro ⟨hsize, h⟩
    obtain ⟨es, hes⟩ := exists_forall₂ h
    have hmem : es ⊆ u.toList := fun e' he' => by
      have hback := Multiset.rel_flip.2 (rel_of_forall₂ hes)
      obtain ⟨_, -, hu, -⟩ := Multiset.exists_mem_of_rel_of_mem hback he'
      exact hu
    have hkeys : t.keyList = es.map Prod.fst := by
      rw [keyList, ← List.forall₂_eq_eq_eq, List.forall₂_map_left_iff, List.forall₂_map_right_iff]
      exact hes.imp fun _ _ h => h.2.1
    have hnodup : es.Nodup := .of_map Prod.fst (hkeys ▸ t.nodup_keyList)
    have hperm : es.Perm u.toList :=
      (hnodup.subperm hmem).perm_of_length_le (by rw [← hsize, hes.length_eq])
    rw [← Multiset.coe_eq_coe.2 hperm]
    exact rel_of_forall₂ (hes.imp fun _ _ h => h.2)

theorem Dict.equalBy_iff_rel {equal : Value → Value → Except Error Bool} {d other : Dict} :
    d.equalBy equal other = .ok true ↔
      Multiset.Rel (fun e e' : Key × Value × Value => e.1 = e'.1 ∧ equal e.2.2 e'.2.2 = .ok true)
        d.table.toList other.table.toList := by
  rw [Table.rel_iff (R := fun x y : Value × Value => equal x.2 y.2 = .ok true), equalBy_eq_true_iff]
  simp only [agreeAt_eq_true_iff, Table.keyList, List.forall_mem_map]
  refine and_congr_right' (forall₂_congr fun e he => ?_)
  rw [getByKey?_of_mem he]
  constructor
  · rintro ⟨_, theirs, ⟨⟩, htheirs, hequal⟩
    obtain ⟨entry, hentry, rfl⟩ := Option.map_eq_some_iff.1 htheirs
    exact ⟨(e.1, entry), Table.get?_eq_some_iff.1 hentry, rfl, hequal⟩
  · rintro ⟨e', he', hkey, hequal⟩
    exact ⟨_, _, rfl, hkey ▸ getByKey?_of_mem he', hequal⟩

theorem KeySet.equal_iff_rel {t u : KeySet} : t.equal u = true ↔
    Multiset.Rel (fun e e' : Key × Value => e.1 = e'.1) t.table.toList u.table.toList := by
  have hrel := Table.rel_iff (t := t.table) (u := u.table) (R := fun _ _ => True)
  simp only [and_true] at hrel
  rw [hrel, equal_iff, List.subset_def, Table.keyList, List.forall_mem_map]
  simp only [Table.keyList, List.mem_map, eq_comm]
  rfl

/-! ## Keys -/

/-- What holds of a tuple's key if it holds of the keys of its items, and of the other keys, holds of
every key. -/
theorem Key.induction {P : Key → Prop} (null : P .null) (int : ∀ n, P (.int n))
    (float : ∀ x, P (.float x)) (str : ∀ text, P (.str text))
    (tuple : ∀ ks, (∀ k ∈ ks, P k) → P (.tuple ks)) : ∀ k, P k
  | .null => null
  | .int n => int n
  | .float x => float x
  | .str text => str text
  | .tuple ks => tuple ks fun k _ => Key.induction null int float str tuple k

namespace Value

/-- No part of a value is a double. -/
def Exact (v : Value) : Prop := ∀ x, ¬ Part (.float x) v

variable {v : Value} {k : Key}

theorem Exact.item {id : Nat} {items : Array Value} (h : Exact (.tuple id items)) (hv : v ∈ items) :
    v.Exact :=
  fun x hx => h x (.item hv hx)

theorem hasItems_of_atom (h : v.isAtom = true) : v.hasItems = false := by
  cases v <;> first
    | rfl
    | cases h

theorem Exact.of_atom (h : v.isAtom = true) : v.Exact := by
  rintro x ⟨⟩ <;> cases h

theorem ofValue_toInt? {n : Int64} (h : v.toInt? = some n) : Key.ofValue v = .ok (.int n) := by
  cases v <;> cases h <;> rfl

theorem Exact.toInt?_of_key {n : Int64} (h : v.Exact) (hk : Key.ofValue v = .ok (.int n)) :
    v.toInt? = some n := by
  cases v <;> first
    | exact absurd .refl (h _)
    | (cases hk; rfl)
    | simp [Key.ofValue, map_eq_ok_iff] at hk

end Value

namespace Store

variable {s : Store} {a b : Value} {k : Key} {n : Int64} {text : String}

theorem alike_null_iff : s.Alike .null b ↔ b = .null := by
  constructor
  · intro h
    cases h with
    | null => rfl
    | number h => cases h
  · rintro rfl
    exact .null

theorem alike_toInt?_iff (ha : a.toInt? = some n) : s.Alike a b ↔ b.toInt? = some n := by
  refine ⟨fun h => ?_, .number ha⟩
  cases h with
  | number ha' hb => rwa [← Option.some.inj (ha'.symm.trans ha)]
  | _ => cases ha

theorem alike_str_iff : s.Alike (.str text) b ↔ b = .str text := by
  constructor
  · intro h
    cases h with
    | str => rfl
    | number h => cases h
  · rintro rfl
    exact .str text

theorem alike_tuple_iff {i : Nat} {xs : Array Value} : s.Alike (.tuple i xs) b ↔
    ∃ j ys, b = .tuple j ys ∧ List.Forall₂ s.Alike xs.toList ys.toList := by
  constructor
  · intro h
    cases h with
    | tuple h => exact ⟨_, _, rfl, h⟩
    | number h => cases h
  · rintro ⟨j, ys, rfl, h⟩
    exact .tuple h

/-- Items are alike one by one if they have the same keys one by one. -/
theorem forall₂_alike_iff {xs ys : List Value} {ks : List Key}
    (hks : List.Forall₂ (fun v k => Key.ofValue v = .ok k) xs ks)
    (h : ∀ k ∈ ks, ∀ x ∈ xs, ∀ y ∈ ys, Key.ofValue x = .ok k →
      (s.Alike x y ↔ Key.ofValue y = .ok k)) :
    List.Forall₂ s.Alike xs ys ↔ List.Forall₂ (fun v k => Key.ofValue v = .ok k) ys ks := by
  induction hks generalizing ys with
  | nil => rw [List.forall₂_nil_left_iff, List.forall₂_nil_right_iff]
  | cons hx _ ih =>
    cases ys with
    | nil => simp
    | cons y ys =>
      rw [List.forall₂_cons, List.forall₂_cons]
      refine and_congr (h _ (by simp) _ (by simp) y (by simp) hx) (ih ?_)
      exact fun k hk x hx y hy => h k (by simp [hk]) x (by simp [hx]) y (by simp [hy])

/-- The values alike to one with a key are those with this key. -/
theorem alike_iff_key (ha : a.Exact) (hb : b.Exact) (hk : Key.ofValue a = .ok k) :
    s.Alike a b ↔ Key.ofValue b = .ok k := by
  -- on the key, of which a tuple has parts
  induction k using Key.induction generalizing a b with
  | null =>
    obtain rfl : a = .null := Key.ofValue_eq_ok hk
    refine alike_null_iff.trans ⟨?_, fun h => Key.ofValue_eq_ok h⟩
    rintro rfl
    rfl
  | int n =>
    rw [alike_toInt?_iff (ha.toInt?_of_key hk)]
    exact ⟨Value.ofValue_toInt?, hb.toInt?_of_key⟩
  | float x =>
    obtain rfl : a = .float x := Key.ofValue_eq_ok hk
    exact absurd .refl (ha x)
  | str text =>
    obtain rfl : a = .str text := Key.ofValue_eq_ok hk
    refine alike_str_iff.trans ⟨?_, fun h => Key.ofValue_eq_ok h⟩
    rintro rfl
    rfl
  | tuple ks ih =>
    obtain ⟨i, xs, rfl, hks⟩ := Key.ofValue_eq_ok hk
    rw [alike_tuple_iff]
    constructor
    · rintro ⟨j, ys, rfl, h⟩
      refine Key.ofValue_tuple.2 ⟨ks, rfl, (forall₂_alike_iff hks fun k hk x hx y hy => ?_).1 h⟩
      exact ih k hk (ha.item (Array.mem_toList_iff.1 hx)) (hb.item (Array.mem_toList_iff.1 hy))
    · intro hl
      obtain ⟨j, ys, rfl, hls⟩ := Key.ofValue_eq_ok hl
      refine ⟨j, ys, rfl, (forall₂_alike_iff hks fun k hk x hx y hy => ?_).2 hls⟩
      exact ih k hk (ha.item (Array.mem_toList_iff.1 hx)) (hb.item (Array.mem_toList_iff.1 hy))

/-! ## Equality -/

/-- All dicts and sets were made by storing and removing. -/
structure Filed (s : Store) : Prop where
  dicts : ∀ d ∈ s.dicts, d.Made
  sets : ∀ t ∈ s.sets, t.Made

theorem Filed.dict (h : s.Filed) (r : DictRef) : (s.dict r).Made := by
  unfold Store.dict
  cases hr : s.dicts[r.index]? with
  | none => exact .empty
  | some d => exact h.dicts d (Array.mem_of_getElem? hr)

theorem Filed.set (h : s.Filed) (r : SetRef) : (s.set r).Made := by
  unfold Store.set
  cases hr : s.sets[r.index]? with
  | none => exact .empty
  | some t => exact h.sets t (Array.mem_of_getElem? hr)

/-- A value that can be compared and holds no doubles, not even in keys of dicts and in sets. -/
structure Exact (s : Store) (tuples : Nat → Array Value) (v : Value) : Prop extends
    s.Comparable tuples v where
  keys : ∀ r, s.Part (.dict r) v → ∀ key ∈ (s.dict r).keys, key.Exact
  elements : ∀ r, s.Part (.set r) v → ∀ x ∈ (s.set r).toList, x.Exact

variable {tuples : Nat → Array Value} {levels : Nat}

theorem Exact.item {x v : Value} (h : s.Exact tuples v) (hx : s.ItemOf x v) : s.Exact tuples x :=
  ⟨h.toComparable.item hx, fun r hr => h.keys r (.item hx hr), fun r hr => h.elements r (.item hx hr)⟩

/-- Items nest less deeply, so they are compared as they would be on their own. -/
theorem Comparable.equalWithin_item {x v : Value} (h : s.Comparable tuples v) (hx : s.ItemOf x v)
    (y : Value) : s.equalWithin maxCompareDepth x y = s.equal x y := by
  have hnests : s.NestsWithin 99 x := h.nests x hx
  have hlevels : 99 < maxCompareDepth := Nat.lt_succ_self 99
  rw [equal, equalWithin_of_nests hnests hlevels,
    equalWithin_of_nests hnests (Nat.lt_succ_of_lt hlevels)]

theorem Exact.exact_key {r : DictRef} {e : Key × Value × Value} (h : s.Exact tuples (.dict r))
    (he : e ∈ (s.dict r).table.toList) : e.2.1.Exact :=
  h.keys r .refl _ (List.mem_map_of_mem (Dict.mem_toList.2 ⟨e.1, he⟩))

theorem Paired.equal_iff_alike {xs ys : Array Value} (h : s.Paired a b xs ys)
    (ha : s.Exact tuples a) (hb : s.Exact tuples b)
    (hitems : ∀ x y, s.ItemOf x a → s.ItemOf y b → (s.equal x y = .ok true ↔ s.Alike x y)) :
    s.equal a b = .ok true ↔ List.Forall₂ s.Alike xs.toList ys.toList := by
  rw [h.equal_iff_forall₂ ha.toComparable hb.toComparable]
  refine forall₂_congr_mem fun x hx y hy => hitems x y (h.itemOf ?_) (h.symm.itemOf ?_)
  · exact Array.mem_toList_iff.1 hx
  · exact Array.mem_toList_iff.1 hy

theorem set_equal_iff_alike (hs : s.Filed) {r r' : SetRef} (ha : s.Exact tuples (.set r))
    (hb : s.Exact tuples (.set r')) : s.equal (.set r) (.set r') = .ok true ↔
      Multiset.Rel s.Alike (s.set r).toList (s.set r').toList := by
  have hrefs : s.equal (.set r) (.set r') = .ok (r == r' || (s.set r).equal (s.set r')) := rfl
  have hself : r = r' → (s.set r).equal (s.set r') = true := by
    rintro rfl
    exact KeySet.equal_iff.2 ⟨rfl, List.Subset.refl _⟩
  rw [hrefs, Except.ok.injEq, Bool.or_eq_true, beq_iff_eq, or_iff_right_of_imp hself,
    KeySet.equal_iff_rel, KeySet.toList, KeySet.toList, ← Multiset.map_coe, ← Multiset.map_coe,
    Multiset.rel_map]
  refine rel_congr_mem fun e he e' he' => ?_
  have hkey := (hs.set r).filed he
  have hkey' := (hs.set r').filed he'
  rw [alike_iff_key (ha.elements r .refl _ (KeySet.mem_toList.2 ⟨_, he⟩))
    (hb.elements r' .refl _ (KeySet.mem_toList.2 ⟨_, he'⟩)) hkey, hkey', Except.ok.injEq, eq_comm]

theorem dict_equal_iff_alike (hs : s.Filed) {r r' : DictRef} (ha : s.Exact tuples (.dict r))
    (hb : s.Exact tuples (.dict r'))
    (hitems : ∀ x y, s.ItemOf x (.dict r) → s.ItemOf y (.dict r') →
      (s.equal x y = .ok true ↔ s.Alike x y)) : s.equal (.dict r) (.dict r') = .ok true ↔
      Multiset.Rel (Prod.RProd s.Alike s.Alike) (s.dict r).toList (s.dict r').toList := by
  have hkeys (e) (he : e ∈ (s.dict r).table.toList) (e') (he' : e' ∈ (s.dict r').table.toList) :
      e.1 = e'.1 ↔ s.Alike e.2.1 e'.2.1 := by
    rw [alike_iff_key (ha.exact_key he) (hb.exact_key he') ((hs.dict r).filed he),
      (hs.dict r').filed he', Except.ok.injEq, eq_comm]
  have hrel : (s.dict r).equalBy (s.equalWithin maxCompareDepth) (s.dict r') = .ok true ↔
      Multiset.Rel (Prod.RProd s.Alike s.Alike) (s.dict r).toList (s.dict r').toList := by
    rw [Dict.equalBy_iff_rel, Dict.toList, Dict.toList, ← Multiset.map_coe, ← Multiset.map_coe,
      Multiset.rel_map]
    refine rel_congr_mem fun e he e' he' => ?_
    have hvalue : s.ItemOf e.2.2 (.dict r) := .dict (Dict.getByKey?_of_mem he)
    have hvalue' : s.ItemOf e'.2.2 (.dict r') := .dict (Dict.getByKey?_of_mem he')
    rw [ha.equalWithin_item hvalue, hitems _ _ hvalue hvalue', hkeys e he e' he', rprod_iff]
  refine same_or_true_iff.trans ⟨?_, fun h => .inr (hrel.2 h)⟩
  rintro (rfl | h)
  · refine hrel.1 (Dict.equalBy_iff_rel.2 (Multiset.rel_refl_of_refl_on fun e he => ⟨rfl, ?_⟩))
    exact equalWithin_self (ha.item (.dict (Dict.getByKey?_of_mem he))).ne_float
  · exact hrel.1 h

section Items

variable (hs : s.Filed) (ha : s.Exact tuples a) (hb : s.Exact tuples b)
  (hitems : ∀ x y, s.ItemOf x a → s.ItemOf y b → (s.equal x y = .ok true ↔ s.Alike x y))
include hs ha hb hitems

theorem alike_of_equal (h : s.equal a b = .ok true) : s.Alike a b := by
  -- values of different types are not equal, but for numbers
  cases a with
  | float x => exact absurd rfl (ha.ne_float x)
  | null =>
    cases b <;> try cases h
    exact .null
  | bool _ | int _ =>
    exact .number rfl ((equalWithin_toInt? hb.ne_float rfl).1 (equalWithin_true_swap h))
  | str text =>
    obtain rfl := equalWithin_str.1 (equalWithin_true_swap h)
    exact .str text
  | list r =>
    cases b <;> try cases h
    exact .list (((Paired.lists _ _).equal_iff_alike ha hb hitems).1 h)
  | tuple i xs =>
    cases b <;> try cases h
    exact .tuple (((Paired.tuples ..).equal_iff_alike ha hb hitems).1 h)
  | dict r =>
    cases b <;> try cases h
    exact .dict ((dict_equal_iff_alike hs ha hb hitems).1 h)
  | set r =>
    cases b <;> try cases h
    exact .set ((set_equal_iff_alike hs ha hb).1 h)
  | range r =>
    cases b <;> try cases h
    exact .range (Range.sameElements_iff.1 (Except.ok.inj h))
  | function f =>
    cases b <;> try cases h
    exact .function (beq_iff_eq.1 (Except.ok.inj h))
  | native f =>
    cases b <;> try cases h
    exact .native (beq_iff_eq.1 (Except.ok.inj h))
  | object o =>
    cases b <;> try cases h
    exact .object (beq_iff_eq.1 (Except.ok.inj h))
  | method i receiver name =>
    cases b <;> try cases h
    obtain ⟨hname, hsame⟩ := Bool.and_eq_true_iff.1 (Except.ok.inj h)
    obtain rfl := beq_iff_eq.1 hname
    exact .method name hsame

theorem equal_of_alike (h : s.Alike a b) : s.equal a b = .ok true := by
  cases h with
  | null => rfl
  | number h h' => exact (equalWithin_toInt? ha.ne_float h').2 h
  | str text => exact equalWithin_str.2 rfl
  | list h => exact ((Paired.lists _ _).equal_iff_alike ha hb hitems).2 h
  | tuple h => exact ((Paired.tuples ..).equal_iff_alike ha hb hitems).2 h
  | dict h => exact (dict_equal_iff_alike hs ha hb hitems).2 h
  | set h => exact (set_equal_iff_alike hs ha hb).2 h
  | range h => exact congrArg Except.ok (Range.sameElements_iff.2 h)
  | function h => exact congrArg Except.ok (beq_iff_eq.2 h)
  | native h => exact congrArg Except.ok (beq_iff_eq.2 h)
  | object h => exact congrArg Except.ok (beq_iff_eq.2 h)
  | method name h => exact congrArg Except.ok (Bool.and_eq_true_iff.2 ⟨beq_self_eq_true name, h⟩)

end Items

/-- Where no doubles are involved, values that can be compared are equal exactly if they are alike. -/
theorem equal_iff_alike (hs : s.Filed) (hnests : s.NestsWithin levels a) (ha : s.Exact tuples a)
    (hb : s.Exact tuples b) : s.equal a b = .ok true ↔ s.Alike a b := by
  induction levels generalizing a b with
  | zero =>
    have hitems : ∀ x y, s.ItemOf x a → s.ItemOf y b → (s.equal x y = .ok true ↔ s.Alike x y) := by
      intro x y hx
      cases hx <;> cases hnests
    exact ⟨alike_of_equal hs ha hb hitems, equal_of_alike hs ha hb hitems⟩
  | succ levels ih =>
    have hitems : ∀ x y, s.ItemOf x a → s.ItemOf y b → (s.equal x y = .ok true ↔ s.Alike x y) :=
      fun x y hx hy => ih (hnests x hx) (ha.item hx) (hb.item hy)
    exact ⟨alike_of_equal hs ha hb hitems, equal_of_alike hs ha hb hitems⟩

end Store

/-! ## Dicts of atoms -/

theorem Dict.entries_ofTwo {k k' : Int64} (h : k ≠ k') (v v' : Value) :
    (ofTwo k k' v v').toList = [(.int k, v), (.int k', v')] := by
  rw [toList, toList_ofTwo h]
  rfl

theorem Dict.made_ofTwo (k k' : Int64) (v v' : Value) : (ofTwo k k' v v').Made :=
  .insert _ (.insert _ .empty rfl) rfl

namespace Store

variable {s : Store} {tuples : Nat → Array Value}

theorem Part.eq_of_atom {p v : Value} (h : s.Part p v) (hv : v.isAtom = true) : p = v := by
  cases h with
  | refl => rfl
  | item hx => cases hx <;> cases hv

theorem Exact.dict_of_atoms {r : DictRef}
    (hentries : ∀ e ∈ (s.dict r).toList, e.1.isAtom = true ∧ e.2.isAtom = true) :
    s.Exact tuples (.dict r) := by
  have hitem {x : Value} (hx : s.ItemOf x (.dict r)) : x.isAtom = true := by
    cases hx with
    | dict hget =>
      obtain ⟨key, hmem⟩ := Dict.mem_of_getByKey? hget
      exact (hentries _ hmem).2
  have hpart {p : Value} (h : s.Part p (.dict r)) : p = .dict r ∨ p.isAtom = true := by
    cases h with
    | refl => exact .inl rfl
    | item hx hp => exact .inr (hp.eq_of_atom (hitem hx) ▸ hitem hx)
  have hlevels : s.NestsWithin 1 (.dict r) := fun x hx => Value.hasItems_of_atom (hitem hx)
  refine ⟨⟨⟨fun x h => ?_, fun id items h => ?_⟩, hlevels.of_le (by decide)⟩, fun r' h key hkey => ?_,
    fun r' h => ?_⟩
  · rcases hpart h with h | h <;> cases h
  · rcases hpart h with h | h <;> cases h
  · rcases hpart h with h | h <;> cases h
    obtain ⟨e, he, rfl⟩ := List.mem_map.1 hkey
    exact .of_atom (hentries e he).1
  · rcases hpart h with h | h <;> cases h

theorem Exact.dict_ofTwo {r : DictRef} {k k' : Int64} {v v' : Value}
    (h : s.dict r = .ofTwo k k' v v') (hne : k ≠ k') (hv : v.isAtom = true) (hv' : v'.isAtom = true) :
    s.Exact tuples (.dict r) := by
  refine .dict_of_atoms fun e he => ?_
  rw [h, Dict.entries_ofTwo hne] at he
  rcases List.mem_pair.1 he with rfl | rfl
  · exact ⟨rfl, hv⟩
  · exact ⟨rfl, hv'⟩

end Store

/-! ## Structural equality -/

/-- A comparison has an outcome unless the values nest too deeply, which is its only error. Values that
nest no deeper than can be compared and hold no doubles always have one: they are equal exactly if they
are alike, so copies of one value are, and equality passes on. -/
theorem equal_structural (s : Store) :
    (∀ a b e, s.equal a b = .error e →
      e = .comparisonTooDeep ∧ e.exceptionName? = some "RuntimeError") ∧
    ∀ tuples, s.Filed → ∀ a b c, s.Exact tuples a → s.Exact tuples b → s.Exact tuples c →
      (∃ truth, s.equal a b = .ok truth) ∧ (s.equal a b = .ok true ↔ s.Alike a b) ∧
      (s.Copy a b → s.equal a b = .ok true) ∧
      (s.equal a b = .ok true → s.equal b c = .ok true → s.equal a c = .ok true) := by
  refine ⟨fun a b e h => ?_, fun tuples hs a b c ha hb hc => ?_⟩
  · obtain rfl := Store.equalWithin_error h
    exact ⟨rfl, rfl⟩
  · have hlaws : LawfulEqual (s.Comparable tuples) s.equal := Store.lawful_equal
    have halike := Store.equal_iff_alike hs ha.nests ha hb
    exact ⟨hlaws.equal_total ha.toComparable hb.toComparable, halike, fun h => halike.2 h.alike,
      hlaws.equal_trans ha.toComparable hb.toComparable hc.toComparable⟩

/-- The dict `{1: "a", 2: None}`, the same dict built the other way round, and a copy of it. -/
def threeDicts : Store :=
  { Store.empty with
    dicts :=
      #[.ofTwo 1 2 (.str "a") .null, .ofTwo 2 1 .null (.str "a"), .ofTwo 1 2 (.str "a") .null] }

theorem threeDicts_filed : threeDicts.Filed := by
  refine ⟨fun d hd => ?_, by simp [threeDicts, Store.empty]⟩
  simp only [threeDicts, List.mem_toArray, List.mem_cons, List.not_mem_nil, or_false] at hd
  rcases hd with rfl | rfl | rfl <;> exact Dict.made_ofTwo ..

/-- Lists that hold themselves cannot be compared, and the three dicts are equal. -/
theorem threeDicts_equal :
    (∃ e, crossed.equal (.list ⟨0⟩) (.list ⟨1⟩) = .error e ∧ e.exceptionName? = some "RuntimeError") ∧
    threeDicts.Alike (.dict ⟨1⟩) (.dict ⟨0⟩) ∧ threeDicts.equal (.dict ⟨1⟩) (.dict ⟨0⟩) = .ok true ∧
    threeDicts.Copy (.dict ⟨0⟩) (.dict ⟨2⟩) ∧ threeDicts.equal (.dict ⟨0⟩) (.dict ⟨2⟩) = .ok true ∧
    threeDicts.equal (.dict ⟨1⟩) (.dict ⟨2⟩) = .ok true := by
  have hfirst : threeDicts.Exact (fun _ => #[]) (.dict ⟨0⟩) := .dict_ofTwo rfl (by decide) rfl rfl
  have hsecond : threeDicts.Exact (fun _ => #[]) (.dict ⟨1⟩) := .dict_ofTwo rfl (by decide) rfl rfl
  have hthird : threeDicts.Exact (fun _ => #[]) (.dict ⟨2⟩) := .dict_ofTwo rfl (by decide) rfl rfl
  have hforth : (threeDicts.dict ⟨0⟩).toList = [(.int 1, .str "a"), (.int 2, .null)] :=
    Dict.entries_ofTwo (by decide) ..
  have hback : (threeDicts.dict ⟨1⟩).toList = [(.int 2, .null), (.int 1, .str "a")] :=
    Dict.entries_ofTwo (by decide) ..
  have hagain : (threeDicts.dict ⟨2⟩).toList = [(.int 1, .str "a"), (.int 2, .null)] :=
    Dict.entries_ofTwo (by decide) ..
  have halike : threeDicts.Alike (.dict ⟨1⟩) (.dict ⟨0⟩) := by
    refine .dict ?_
    rw [hback, hforth, Multiset.coe_eq_coe.2 (.swap ..)]
    exact rel_of_forall₂ (.cons ⟨.number rfl rfl, .str _⟩ (.cons ⟨.number rfl rfl, .null⟩ .nil))
  have hcopy : threeDicts.Copy (.dict ⟨0⟩) (.dict ⟨2⟩) := by
    refine .dict ?_
    rw [hforth, hagain]
    exact .cons ⟨.atom rfl, .atom rfl⟩ (.cons ⟨.atom rfl, .atom rfl⟩ .nil)
  have htooDeep : crossed.equal (.list ⟨0⟩) (.list ⟨1⟩) = .error .comparisonTooDeep :=
    crossed_lists_tooDeep _
  obtain ⟨-, hequal⟩ := equal_structural threeDicts
  obtain ⟨-, hiff, -, htrans⟩ := hequal _ threeDicts_filed _ _ _ hsecond hfirst hthird
  obtain ⟨-, -, hcopies, -⟩ := hequal _ threeDicts_filed _ _ _ hfirst hthird hthird
  exact ⟨⟨_, htooDeep, ((equal_structural crossed).1 _ _ _ htooDeep).2⟩, halike, hiff.2 halike, hcopy,
    hcopies hcopy, htrans (hiff.2 halike) (hcopies hcopy)⟩

end ScriptSandbox

import ScriptSandbox.Proofs.Elements
import ScriptSandbox.Proofs.Membership
import ScriptSandbox.Proofs.Numeral
import ScriptSandbox.Proofs.Slice

/-!
# Access by index

Lists, tuples, texts and ranges are iterated, measured, read at an index and cut into slices, each in its
own way. All of it is about the same items: an item has two indices, its position and the one that counts
from the end (`Items.HasAt`), it is read at these and at no other one, and it is the slice from its
position to the next (`sequence_access`).
-/

namespace ScriptSandbox

/-- The values that have an index for each item, and the name that an error calls them. -/
inductive Value.IsSequence : Value → String → Prop where
  | list (r : ListRef) : IsSequence (.list r) "list"
  | tuple (id : Nat) (items : Array Value) : IsSequence (.tuple id items) "tuple"
  | text (text : String) : IsSequence (.str text) "string"
  | range (r : Range) : IsSequence (.range r) "range object"

/-! ## Indices -/

namespace Items

variable {its : Items} {i : Int64} {v : Value}

/-- An item stands at an index: at its position, or at the one that counts from the end. -/
def HasAt (its : Items) (i : Int64) (v : Value) : Prop :=
  ∃ k : Nat, its.toList[k]? = some v ∧ (i.toInt = k ∨ i.toInt = k - its.size)

theorem lt_size_of_getElem? {k : Nat} (h : its.toList[k]? = some v) : k < its.size := by
  rw [← length_toList]
  exact (List.getElem?_eq_some_iff.1 h).1

theorem HasAt.bounds (h : its.HasAt i v) : -(its.size : Int) ≤ i.toInt ∧ i.toInt < its.size := by
  obtain ⟨k, hk, hi⟩ := h
  have := lt_size_of_getElem? hk
  omega

theorem HasAt.getElem?_of_nonneg (h : its.HasAt i v) (hi : 0 ≤ i.toInt) :
    its.toList[i.toInt.toNat]? = some v := by
  obtain ⟨k, hk, hposition⟩ := h
  have hlt := lt_size_of_getElem? hk
  obtain rfl : k = i.toInt.toNat := by omega
  exact hk

/-- An index from minus the size up to the size has its item. -/
theorem exists_hasAt (h : -(its.size : Int) ≤ i.toInt ∧ i.toInt < its.size) :
    ∃ v, its.toList[(if 0 ≤ i.toInt then i.toInt else its.size + i.toInt).toNat]? = some v ∧
      its.HasAt i v := by
  have hlt : (if 0 ≤ i.toInt then i.toInt else its.size + i.toInt).toNat < its.toList.length := by
    rw [length_toList]
    split <;> omega
  refine ⟨_, List.getElem?_eq_getElem hlt, _, List.getElem?_eq_getElem hlt, ?_⟩
  split <;> omega

end Items

/-! ## Texts -/

namespace Text

/-- Counting characters from the front leads to the one at an index. -/
theorem front?_nextn (text : String) (i : Nat) :
    (text.sliceFrom (text.startPos.nextn i)).front? = text.toList[i]? := by
  rw [← place_eq]
  exact get?_eq text i

/-- Where each character has one byte, so does the byte at the index. -/
theorem front?_posLE {text : String} (h : ∀ c ∈ text.toList, c.toNat < 128) (i : Nat) :
    (text.sliceFrom (text.posLE ⟨i⟩)).front? = text.toList[i]? := by
  have hbytes := utf8ByteSize_of_ascii h
  rw [String.ofList_toList, String.length_toList] at hbytes
  have hplace : place text i = text.posLE ⟨i⟩ := if_pos hbytes
  rw [← hplace]
  exact get?_eq text i

end Text

/-! ## Sequences -/

namespace Store.Sequence

variable {s : Store} {xs : Value} {items : List Value}

theorem iterate (h : s.Sequence xs items) : s.iterate xs = .ok (.values items.toArray) := by
  cases h with
  | list hr => rfl
  | tuple id items => rfl
  | text text => rfl

/-- What is iterated is a sequence, unless it is a range or a list that there is not. -/
theorem of_iterate {what : String} {its : Items} (hxs : xs.IsSequence what)
    (hrange : ∀ r, xs ≠ .range r) (hits : s.iterate xs = .ok its) (hsome : 0 < its.size) :
    s.Sequence xs its.toList := by
  cases hxs with
  | list r =>
    obtain rfl : Items.values (s.list r) = its := Except.ok.inj hits
    refine .list (Nat.lt_of_not_le fun hout => ?_)
    have hnone : s.list r = #[] := by simp [Store.list, hout]
    simp [Items.size, hnone] at hsome
  | tuple id items =>
    obtain rfl : Items.values items = its := Except.ok.inj hits
    exact .tuple id items
  | text text =>
    obtain rfl := Except.ok.inj hits
    exact .text text
  | range r => exact absurd rfl (hrange r)

end Store.Sequence

namespace Value.IsSequence

variable {s : Store} {xs : Value} {what : String} {its : Items}

theorem exists_iterate (h : xs.IsSequence what) (s : Store) : ∃ its, s.iterate xs = .ok its := by
  cases h with
  | list r => exact ⟨_, rfl⟩
  | tuple id items => exact ⟨_, rfl⟩
  | text text => exact ⟨_, rfl⟩
  | range r => exact ⟨_, rfl⟩

/-- The length of a sequence is the number of its items, or the greatest word if there are more. -/
theorem callLen (h : xs.IsSequence what) (hits : s.iterate xs = .ok its) :
    Builtin.callLen s (.ofList [xs]) = .ok (.int (Integer.saturate its.size)) := by
  cases h with
  | list r => cases hits; rfl
  | tuple id items => cases hits; rfl
  | text text =>
    obtain rfl := Except.ok.inj hits
    rw [Items.size, List.size_toArray, List.length_map, String.length_toList]
    rfl
  | range r => cases hits; rfl

end Value.IsSequence

namespace Subscript

variable {host : Host} {s : Store} {xs v : Value} {what : String} {its : Items} {items : List Value}
  {i : Int64} {length k : Nat}

/-! ## Items at an index -/

theorem position?_eq_some_iff (hlength : (length : Int) < Integer.bound) :
    position? i length = some k ↔ k < length ∧ (i.toInt = k ∨ i.toInt = k - length) := by
  have hneg : i < 0 ↔ i.toInt < 0 := by rw [Int64.lt_iff_toInt_lt, Int64.toInt_zero]
  simp only [position?, hneg, Option.ite_none_right_eq_some, Option.some.injEq]
  constructor
  · rintro ⟨hinside, rfl⟩
    split at * <;> omega
  · rintro ⟨hk, hi⟩
    split <;> omega

/-- The items that are kept one by one are read at their indices. -/
theorem bind_position?_eq_some_iff {items : Array Value} (hlength : (items.size : Int) < Integer.bound) :
    (position? i items.size).bind (items[·]?) = some v ↔ (Items.values items).HasAt i v := by
  simp only [Option.bind_eq_some_iff, position?_eq_some_iff hlength, Items.HasAt, Items.toList,
    Items.toArray, Array.getElem?_toList, Items.size]
  constructor
  · rintro ⟨k, ⟨-, hi⟩, hk⟩
    exact ⟨k, hk, hi⟩
  · rintro ⟨k, hk, hi⟩
    exact ⟨k, ⟨(Array.getElem?_eq_some_iff.1 hk).1, hi⟩, hk⟩

theorem characterAt?_eq (text : String) (k : Nat) :
    characterAt? text k = (text.toList.map fun c => Value.str (String.singleton c)).toArray[k]? := by
  rw [characterAt?, Text.get?_eq, List.getElem?_toArray, List.getElem?_map]

/-- A sequence is read at the indices of its items, and is out of range at all others. -/
theorem getItem_sequence (host : Host) (i : Int64) (hxs : xs.IsSequence what)
    (hits : s.iterate xs = .ok its) (hsize : (its.size : Int) < Integer.bound) :
    ∃ found : Option Value, (∀ v, found = some v ↔ its.HasAt i v) ∧
      getItem host xs (.int i) s = found.elim (.error (.outOfRange what) s) (.ok · s) := by
  cases hxs with
  | list r =>
    obtain rfl : Items.values (s.list r) = its := Except.ok.inj hits
    refine ⟨_, fun v => bind_position?_eq_some_iff hsize, ?_⟩
    show StoreM.look (fun s => itemAt "list" (s.list r).size ((s.list r)[·]?) i) s = _
    simp only [StoreM.look, itemAt]
    cases (position? i (s.list r).size).bind ((s.list r)[·]?) <;> rfl
  | tuple id items =>
    obtain rfl : Items.values items = its := Except.ok.inj hits
    refine ⟨_, fun v => bind_position?_eq_some_iff hsize, ?_⟩
    show StoreM.ofExcept (itemAt "tuple" items.size (items[·]?) i) s = _
    rw [itemAt]
    cases (position? i items.size).bind (items[·]?) <;> rfl
  | text text =>
    obtain rfl := Except.ok.inj hits
    refine ⟨_, fun v => bind_position?_eq_some_iff hsize, ?_⟩
    show StoreM.ofExcept (itemAt "string" text.length (characterAt? text) i) s = _
    rw [itemAt, funext (characterAt?_eq text), List.size_toArray, List.length_map,
      String.length_toList]
    cases (position? i text.length).bind _ <;> rfl
  | range r =>
    -- no items are held for a range: an element is found by its number
    obtain rfl : Items.range r = its := Except.ok.inj hits
    refine ⟨(r.get? i).map .int, fun v => ?_, ?_⟩
    · simp only [Option.map_eq_some_iff, Range.get?_eq_some_iff, Items.HasAt, Items.toList_range,
        List.getElem?_map, Items.size]
      constructor
      · rintro ⟨n, ⟨k, hk, hi⟩, rfl⟩
        exact ⟨k, ⟨n, hk, rfl⟩, hi⟩
      · rintro ⟨k, ⟨n, hk, rfl⟩, hi⟩
        exact ⟨n, ⟨k, hk, hi⟩, rfl⟩
    · have hindex : StoreM.ofExcept (integerIndex (.range r) (.int i)) = pure i := rfl
      simp only [getItem, hindex, pure_bind]
      cases r.get? i <;> rfl

theorem getItem_eq_ok_iff (hxs : xs.IsSequence what) (hits : s.iterate xs = .ok its)
    (hsize : (its.size : Int) < Integer.bound) :
    getItem host xs (.int i) s = .ok v s ↔ its.HasAt i v := by
  obtain ⟨found, hfound, hget⟩ := getItem_sequence host i hxs hits hsize
  rw [hget, ← hfound]
  cases found with
  | none => exact ⟨nofun, nofun⟩
  | some w => simp

theorem getItem_eq_error (hxs : xs.IsSequence what) (hits : s.iterate xs = .ok its)
    (hsize : (its.size : Int) < Integer.bound)
    (hout : ¬ (-(its.size : Int) ≤ i.toInt ∧ i.toInt < its.size)) :
    getItem host xs (.int i) s = .error (.outOfRange what) s := by
  obtain ⟨found, hfound, hget⟩ := getItem_sequence host i hxs hits hsize
  cases found with
  | none => exact hget
  | some v => exact absurd ((hfound v).1 rfl).bounds hout

/-! ## Slices of one item -/

/-- The slice from a position to the next one is a sequence of the item there. -/
theorem getSlice_item {p stop : Int64} (h : s.Sequence xs items)
    (hlength : (items.length : Int) < Integer.bound) (hk : items[k]? = some v) (hp : p.toInt = k)
    (hstop : stop.toInt = k + 1) :
    ∃ part s', getSlice xs ⟨some p, some stop, none⟩ s = .ok part s' ∧
      part.typeName = xs.typeName ∧ s'.Sequence part [v] := by
  obtain ⟨part, s', found, hpart, htype, -, hfound, hitems⟩ :=
    getSlice_sequence (b := ⟨some p, some stop, none⟩) (Option.some_ne_none 0).symm h
  have hbound : Integer.bound = 2 ^ 63 := rfl
  have hlt := (List.getElem?_eq_some_iff.1 hk).1
  have hcapped : SliceBounds.cappedLength items.length = items.length :=
    Nat.min_eq_left (by omega)
  have hends : (SliceBounds.mk (some p) (some stop) none).ends items.length = ⟨k, k + 1, 1⟩ := by
    rw [SliceBounds.ends_between (by omega) (by omega), hp, hstop]
    congr 1 <;> omega
  have hpositions : (SliceIndices.mk k (k + 1) 1).positions = [k] := by
    rw [SliceIndices.positions_of_step_one rfl (Int.natCast_nonneg k)]
    simp
  rw [hcapped, hends, hpositions, List.map_singleton, hk] at hitems
  obtain rfl : found = [v] := List.map_injective_iff.2 (Option.some_injective _) hitems
  exact ⟨part, s', hpart, htype, hfound⟩

end Subscript

/-- A sequence of at most as many items as there are indices is measured, read and cut as it is iterated. Its
length is the number of its items. An index from minus the length up to the length is that of an item,
counted from the end where it is negative, and every other index is out of range. Unless the sequence is a
range, the slice from a position to the next one is a new sequence of the same type, of the item there. It
makes no difference whether a text is read by its bytes or by counting its characters, nor whether the items
of a range are written out or come from a cursor. -/
theorem sequence_access (host : Host) (ctx : CallContext) (s : Store) (xs : Value) (what : String)
    (hxs : xs.IsSequence what) : ∃ (its : Items) (items : List Value),
    s.iterate xs = .ok its ∧ its.toList = items ∧ ((items.length : Int) < Integer.bound →
      (∃ n : Int64, n.toInt = items.length ∧
        Builtin.call .len ctx (.ofList [xs]) s = .ok (.int n) s) ∧
      (∀ i : Int64, if -(items.length : Int) ≤ i.toInt ∧ i.toInt < items.length then
          ∃ v, items[(if 0 ≤ i.toInt then i.toInt else items.length + i.toInt).toNat]? = some v ∧
            Subscript.getItem host xs (.int i) s = .ok v s
        else Subscript.getItem host xs (.int i) s = .error (.outOfRange what) s ∧
          (Error.outOfRange what).exceptionName? = some "IndexError") ∧
      (∀ (p : Int64) (v : Value), (∀ r, xs ≠ .range r) → 0 ≤ p.toInt →
        Subscript.getItem host xs (.int p) s = .ok v s → (p + 1).toInt = p.toInt + 1 ∧
          ∃ part s', Subscript.getSlice xs ⟨some p, some (p + 1), none⟩ s = .ok part s' ∧
            part.typeName = xs.typeName ∧ s'.iterate part = .ok (.values #[v])) ∧
      (∀ text, xs = .str text → ∀ k : Nat,
        (text.sliceFrom (text.startPos.nextn k)).front? = text.toList[k]? ∧
        ((∀ c ∈ text.toList, c.toNat < 128) →
          (text.sliceFrom (text.posLE ⟨k⟩)).front? = text.toList[k]?)) ∧
      (∀ r, xs = .range r → (r.cursor.take items.length).1.map Value.int = items ∧
        (r.cursor.take items.length).2.next? = none)) := by
  obtain ⟨its, hits⟩ := hxs.exists_iterate s
  refine ⟨its, _, hits, rfl, ?_⟩
  rw [Items.length_toList]
  intro hsize
  have hbound : Integer.bound = 2 ^ 63 := rfl
  refine ⟨⟨_, Integer.toInt_saturate (by omega) hsize, ?_⟩, fun i => ?_, fun p v hrange hp hget => ?_,
    fun text _ k => ⟨Text.front?_nextn text k, fun hascii => Text.front?_posLE hascii k⟩,
    fun r hr => ?_⟩
  · have hcall : Builtin.call .len ctx (.ofList [xs]) s =
        StoreM.look (Builtin.callLen · (.ofList [xs])) s := rfl
    rw [hcall, StoreM.look, hxs.callLen hits]
  · split
    · next hinside =>
      obtain ⟨v, hv, hat⟩ := Items.exists_hasAt hinside
      exact ⟨v, hv, (Subscript.getItem_eq_ok_iff hxs hits hsize).2 hat⟩
    · next hout => exact ⟨Subscript.getItem_eq_error hxs hits hsize hout, rfl⟩
  · have hat := (Subscript.getItem_eq_ok_iff hxs hits hsize).1 hget
    obtain ⟨hlow, hhigh⟩ := hat.bounds
    have hk := hat.getElem?_of_nonneg hp
    have hnext : (p + 1).toInt = p.toInt + 1 := by
      rw [Int64.toInt_add, Int64.toInt_one, Int.bmod_eq_of_le (by omega) (by omega)]
    -- there is an item, so a list is one of the store
    have hsequence := Store.Sequence.of_iterate hxs hrange hits (by omega)
    have hstop : (p + 1).toInt = p.toInt.toNat + 1 := by omega
    obtain ⟨part, s', hpart, htype, hitem⟩ := Subscript.getSlice_item hsequence
      (its.length_toList ▸ hsize) hk (Int.toNat_of_nonneg hp).symm hstop
    exact ⟨hnext, part, s', hpart, htype, hitem.iterate⟩
  · subst hr
    obtain rfl : Items.range r = its := Except.ok.inj hits
    -- a cursor that is asked for as many elements as there are gives all of them
    have htake := Range.Cursor.take_eq hsize (Nat.zero_le r.length) r.length
    rw [List.drop_zero, Nat.zero_add, Nat.min_self] at htake
    show (r.cursor.take r.length).1.map Value.int = _ ∧ (r.cursor.take r.length).2.next? = none
    rw [Range.cursor, htake, Items.toList_range, ← r.length_toList, List.take_length]
    exact ⟨rfl, Range.Cursor.next?_of_le (Nat.le_of_eq r.length_toList.symm)⟩

/-- Three characters of one, two and three bytes: the last one is also at minus one, there is none at three,
and the second one is the slice from one to two. -/
theorem threeCharacters_accessed : (Value.str "aö€").IsSequence "string" ∧
    Subscript.getItem .bare (.str "aö€") (.int (-1)) .empty = .ok (.str "€") .empty ∧
    Subscript.getItem .bare (.str "aö€") (.int 3) .empty = .error (.outOfRange "string") .empty ∧
    ∃ part s', Subscript.getSlice (.str "aö€") ⟨some 1, some 2, none⟩ .empty = .ok part s' ∧
      s'.iterate part = .ok (.values #[.str "ö"]) := by
  have hxs : (Value.str "aö€").IsSequence "string" := .text "aö€"
  obtain ⟨its, items, hits, hitems, haccess⟩ :=
    sequence_access .bare (.ofCall .standard .stopped 0) .empty (.str "aö€") "string" hxs
  obtain rfl := Except.ok.inj hits
  obtain rfl : [Value.str "a", .str "ö", .str "€"] = items := hitems
  obtain ⟨-, hget, hslice, -, -⟩ := haccess (by decide)
  have hone := hget 1
  have hminus := hget (-1)
  have hthree := hget 3
  rw [if_pos (by decide)] at hone hminus
  rw [if_neg (by decide)] at hthree
  obtain ⟨v, hv, hone⟩ := hone
  obtain ⟨w, hw, hminus⟩ := hminus
  obtain rfl : Value.str "ö" = v := Option.some.inj hv
  obtain rfl : Value.str "€" = w := Option.some.inj hw
  obtain ⟨-, part, s', hpart, -, hitem⟩ := hslice 1 _ nofun (by decide) hone
  exact ⟨hxs, hminus, hthree.1, part, s', hpart, hitem⟩

end ScriptSandbox

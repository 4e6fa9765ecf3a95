import ScriptSandbox.Proofs.Growth
import ScriptSandbox.Proofs.InPlace
import ScriptSandbox.Proofs.Norm.Store
import ScriptSandbox.Proofs.Slice.Bounds
import ScriptSandbox.Subscript

/-!
# Slices

A slice of a list, a tuple or a text is a new sequence of the same type, of the items at its positions
(`Subscript.getSlice_sequence`). They are those that its bounds select; so no slice looks for an item
outside the sequence, and the sequence is what is before a bound and what is from there on
(`slice_positions`).
-/

namespace ScriptSandbox

/-! ## Items -/

/-- The items at positions side by side. -/
theorem map_getElem?_range' {α : Type} {xs : List α} {start count : Nat}
    (h : start + count ≤ xs.length) :
    (List.range' start count).map (xs[·]?) = ((xs.drop start).take count).map some := by
  apply List.ext_getElem
  · simp
    omega
  · intro k hk _
    rw [List.length_map, List.length_range'] at hk
    simp [List.getElem?_eq_getElem (show start + k < xs.length by omega)]

namespace Subscript

variable {α : Type} [Inhabited α] {items : Array α} {i : SliceIndices}

/-- Every position of a slice is one of the sequence, and its item is picked. -/
theorem map_some_pick (h : i.Within items.size) :
    (pick items i).toList.map some = i.positions.map (items.toList[·]?) := by
  rw [pick, List.map_map]
  refine List.map_congr_left fun p hp => ?_
  have hinside : p < items.size := h.lt hp
  simp [hinside]

theorem map_some_pickText {text : String} (h : i.Within text.length) :
    (pickText text i).toList.map some = i.positions.map (text.toList[·]?) := by
  rw [pickText, String.toList_ofList]
  exact map_some_pick (by rwa [List.size_toArray, String.length_toList])

/-- The characters of a slice of step one stand side by side. -/
theorem toList_pickText_of_step_one {text : String} (hstep : i.step = 1)
    (hstart : 0 ≤ i.start ∧ i.start ≤ text.length) (hstop : i.stop ≤ text.length) :
    (pickText text i).toList = (text.toList.take i.stop.toNat).drop i.start.toNat := by
  have hwithin : i.Within text.length := ⟨fun _ => ⟨hstart.1, hstop⟩, fun hneg => by omega⟩
  have hcount : (i.stop - i.start).toNat = i.stop.toNat - i.start.toNat := by omega
  apply List.map_injective_iff.2 (Option.some_injective _)
  rw [map_some_pickText hwithin, SliceIndices.positions_of_step_one hstep hstart.1, List.drop_take,
    hcount]
  by_cases hempty : i.stop ≤ i.start
  · simp [show i.stop.toNat - i.start.toNat = 0 by omega]
  · exact map_getElem?_range' (by rw [String.length_toList]; omega)

end Subscript

/-- A list of the store, a tuple or a text, and its items in order; those of a text are its
characters. -/
inductive Store.Sequence (s : Store) : Value → List Value → Prop where
  | list {r : ListRef} : r.index < s.lists.size → s.Sequence (.list r) (s.list r).toList
  | tuple (id : Nat) (items : Array Value) : s.Sequence (.tuple id items) items.toList
  | text (text : String) :
    s.Sequence (.str text) (text.toList.map fun c => .str (String.singleton c))

namespace Store.Sequence

variable {s s' : Store} {xs : Value} {items : List Value}

/-- What is only added to leaves the items of a sequence alone. -/
theorem grown (h : s.Sequence xs items) (hgrown : s.Grown s') : s'.Sequence xs items := by
  cases h with
  | @list r hr =>
    rw [← hgrown.list r hr]
    exact .list (Nat.lt_of_lt_of_le hr hgrown.lists)
  | tuple id items => exact .tuple id items
  | text text => exact .text text

/-- A list that is added holds the items it is made of. -/
theorem addList (s : Store) (items : Array Value) :
    (s.addList items).2.Sequence (.list (s.addList items).1) items.toList := by
  have hsequence := @list (s.addList items).2 (s.addList items).1 (by simp [Store.addList])
  rwa [list_addList] at hsequence

end Store.Sequence

namespace Subscript

variable {s : Store} {b : SliceBounds} {xs : Value} {items : List Value}

theorem getSlice_list (r : ListRef) : getSlice (.list r) b s =
    match b.indices (s.list r).size with
    | .ok i => .ok (.list (s.addList (pick (s.list r) i)).1) (s.addList (pick (s.list r) i)).2
    | .error e => .error e s := by
  show (StoreM.look (fun s => (b.indices (s.list r).size).map _) >>= _) s = _
  rw [Norm.SoundAt.look_bind]
  cases b.indices (s.list r).size <;> rfl

theorem getSlice_tuple (id : Nat) (items : Array Value) : getSlice (.tuple id items) b s =
    match b.indices items.size with
    | .ok i => .ok (.tuple s.newId.1 (pick items i)) s.newId.2
    | .error e => .error e s := by
  show (StoreM.ofExcept (b.indices items.size) >>= _) s = _
  cases b.indices items.size <;> rfl

theorem getSlice_text (text : String) : getSlice (.str text) b s =
    match b.indices text.length with
    | .ok i => .ok (.str (pickText text i)) s
    | .error e => .error e s := by
  show (StoreM.ofExcept (b.indices text.length) >>= _) s = _
  cases b.indices text.length <;> rfl

theorem getSlice_zero (hb : b.step = some 0) (h : s.Sequence xs items) :
    getSlice xs b s = .error .zeroSliceStep s := by
  cases h with
  | @list r hr => rw [getSlice_list, SliceBounds.indices_eq_error hb]
  | tuple id items => rw [getSlice_tuple, SliceBounds.indices_eq_error hb]
  | text text => rw [getSlice_text, SliceBounds.indices_eq_error hb]

/-- A slice is a new sequence of the same type, of the items at its positions. -/
theorem getSlice_sequence (hb : b.step ≠ some 0) (h : s.Sequence xs items) :
    ∃ v s' found, getSlice xs b s = .ok v s' ∧ v.typeName = xs.typeName ∧ s.Grown s' ∧
      s'.Sequence v found ∧ found.map some =
        (b.ends (SliceBounds.cappedLength items.length)).positions.map (items[·]?) := by
  have hwithin (length : Nat) :=
    (SliceBounds.within_ends b (SliceBounds.cappedLength length)).mono (Nat.min_le_left _ _)
  cases h with
  | @list r hr =>
    rw [getSlice_list, SliceBounds.indices_eq hb]
    exact ⟨_, _, _, rfl, rfl, .addList s _, .addList s _, map_some_pick (hwithin _)⟩
  | tuple id items =>
    rw [getSlice_tuple, SliceBounds.indices_eq hb]
    exact ⟨_, _, _, rfl, rfl, .newId s, .tuple _ _, map_some_pick (hwithin _)⟩
  | text text =>
    rw [getSlice_text, SliceBounds.indices_eq hb]
    refine ⟨_, s, _, rfl, rfl, .refl s, .text _, ?_⟩
    have hpick := map_some_pickText (hwithin text.length)
    have hchars := congrArg (List.map (Option.map fun c => Value.str (String.singleton c))) hpick
    rw [List.map_map, List.map_map] at hchars
    rw [List.length_map, String.length_toList, List.map_map]
    simp only [List.getElem?_map]
    exact hchars

end Subscript

/-! ## Slices -/

/-- A slice of a sequence holds the items at its positions. -/
theorem slice_positions :
    (∀ (b : SliceBounds) (length : Nat), length ≤ 0x7FFFFFFFFFFFFFFF →
      if b.step = some 0 then
        b.positions length = .error .zeroSliceStep ∧
          Error.zeroSliceStep.exceptionName? = some "ValueError"
      else ∃ positions, b.positions length = .ok positions ∧ b.Selection length positions ∧
        ∀ p ∈ positions, p < length) ∧
    (∀ (s : Store) (b : SliceBounds) (xs : Value) (items : List Value), s.Sequence xs items →
      match b.positions items.length with
      | .ok positions => ∃ v s' found, Subscript.getSlice xs b s = .ok v s' ∧
          v.typeName = xs.typeName ∧ s'.Sequence v found ∧
          found.map some = positions.map (items[·]?)
      | .error e => Subscript.getSlice xs b s = .error e s) ∧
    (∀ (s : Store) (bound : Int64) (xs : Value) (items : List Value), s.Sequence xs items →
      items.length ≤ 0x7FFFFFFFFFFFFFFF → ∃ front s' back s'' first rest,
        Subscript.getSlice xs ⟨none, some bound, none⟩ s = .ok front s' ∧
        Subscript.getSlice xs ⟨some bound, none, none⟩ s' = .ok back s'' ∧
        s''.Sequence front first ∧ s''.Sequence back rest ∧ first ++ rest = items) := by
  refine ⟨fun b length hlength => ?_, fun s b xs items h => ?_, fun s bound xs items h hlength => ?_⟩
  · have hcapped : SliceBounds.cappedLength length = length := Nat.min_eq_left hlength
    split
    · rename_i hb
      exact ⟨by rw [SliceBounds.positions, SliceBounds.indices_eq_error hb]; rfl, rfl⟩
    · rename_i hb
      refine ⟨_, SliceBounds.positions_eq hb, ?_, ?_⟩
      · rw [hcapped]
        exact SliceBounds.selection_positions hb length
      · rw [hcapped]
        exact fun p hp => (SliceBounds.within_ends b length).lt hp
  · by_cases hb : b.step = some 0
    · rw [SliceBounds.positions, SliceBounds.indices_eq_error hb]
      exact Subscript.getSlice_zero hb h
    · rw [SliceBounds.positions_eq hb]
      obtain ⟨v, s', found, hget, htype, -, hfound, hitems⟩ := Subscript.getSlice_sequence hb h
      exact ⟨v, s', found, hget, htype, hfound, hitems⟩
  · have hcapped : SliceBounds.cappedLength items.length = items.length := Nat.min_eq_left hlength
    obtain ⟨front, s', first, hfront, -, hgrown, hfirst, hfirstItems⟩ :=
      Subscript.getSlice_sequence (b := ⟨none, some bound, none⟩) (Option.some_ne_none 0).symm h
    obtain ⟨back, s'', rest, hback, -, hgrown', hrest, hrestItems⟩ :=
      Subscript.getSlice_sequence (b := ⟨some bound, none, none⟩) (Option.some_ne_none 0).symm
        (h.grown hgrown)
    refine ⟨front, s', back, s'', first, rest, hfront, hback, hfirst.grown hgrown', hrest, ?_⟩
    -- by positions, where the two halves are one range
    apply List.map_injective_iff.2 (Option.some_injective _)
    rw [hcapped] at hfirstItems hrestItems
    rw [List.map_append, hfirstItems, hrestItems, ← List.map_append, SliceBounds.positions_halves,
      List.range_eq_range', map_getElem?_range' (by omega), List.drop_zero, List.take_length]

/-- Four items backward in steps of two, and a text cut before its last two characters. -/
theorem fourItems_selected :
    (⟨none, none, some (-2)⟩ : SliceBounds).Selection 4 [3, 1] ∧
    ∃ front s' back s'' first rest,
      Subscript.getSlice (.str "äöü€") ⟨none, some (-2), none⟩ .empty = .ok front s' ∧
      Subscript.getSlice (.str "äöü€") ⟨some (-2), none, none⟩ s' = .ok back s'' ∧
      s''.Sequence front first ∧ s''.Sequence back rest ∧
      first ++ rest = [.str "ä", .str "ö", .str "ü", .str "€"] := by
  obtain ⟨hpositions, -, hhalves⟩ := slice_positions
  have hselected := hpositions ⟨none, none, some (-2)⟩ 4 (by decide)
  rw [if_neg (by decide)] at hselected
  obtain ⟨positions, hreversed, hselection, -⟩ := hselected
  have hwalk : SliceIndices.positions ⟨3, -1, -2⟩ = [3, 1] := by decide +kernel
  obtain rfl : [3, 1] = positions := hwalk.symm.trans (Except.ok.inj hreversed)
  exact ⟨hselection, hhalves .empty (-2) (.str "äöü€") _ (.text _) (by decide)⟩

end ScriptSandbox

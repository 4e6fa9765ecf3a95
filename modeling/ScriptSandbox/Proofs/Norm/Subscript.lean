import ScriptSandbox.Attribute
import ScriptSandbox.Proofs.Norm.Host
import ScriptSandbox.Proofs.Norm.Items
import ScriptSandbox.Proofs.Slice.Bounds
import ScriptSandbox.Subscript

/-!
# Norms: parts of values

What is read from a value is good when the value is. A slice holds no more items than the sequence it
is taken from, and what a list or a dict becomes by an assignment is held against the quota.
-/

namespace ScriptSandbox.Norm

variable {l : Limits} {N : Norm l} {s : Store} {host : Host}

/-! ## Items -/

theorem integerIndex (container index : Value) :
    N.Holds (fun _ => True) (Subscript.integerIndex container index) := by
  unfold Subscript.integerIndex
  split
  · exact True.intro
  · exact Holds.plain rfl

theorem itemAt {what : String} {length : Nat} {get : Nat → Option Value} {index : Int64}
    (h : ∀ i x, get i = some x → N.good x) :
    N.Holds N.good (Subscript.itemAt what length get index) := by
  unfold Subscript.itemAt
  split
  · rename_i item hitem
    obtain ⟨i, -, hi⟩ := Option.bind_eq_some_iff.1 hitem
    exact h i item hi
  · exact Holds.plain rfl

/-- The item of an array at an index. -/
theorem itemAt_array {what : String} {items : Array Value} {index : Int64}
    (h : ∀ x ∈ items, N.good x) :
    N.Holds N.good (Subscript.itemAt what items.size (items[·]?) index) :=
  itemAt fun _ x hx => h x (Array.mem_of_getElem? hx)

/-- Showing a key in an error keeps everything. -/
theorem keyError {α : Type} {P : α → Prop} (key : Value) :
    N.Sound P (do throw (.keyError ((← get).shownRepr key)) : StoreM α) :=
  Sound.get.bind fun _ _ => Sound.plain rfl

theorem getItem (hhost : N.Lends host) {container index : Value} (hc : N.good container)
    (hi : N.good index) : N.Sound N.good (Subscript.getItem host container index) := by
  unfold Subscript.getItem
  split
  · refine (Sound.ofExcept (integerIndex _ _)).bind fun i _ => ?_
    exact Sound.look fun s hs => itemAt_array (hs.list _)
  · refine (Sound.ofExcept (integerIndex _ _)).bind fun i _ => ?_
    exact Sound.ofExcept (itemAt_array (N.good_items hc))
  · refine (Sound.ofExcept (integerIndex _ _)).bind fun i _ => ?_
    refine Sound.ofExcept (itemAt fun i x hx => ?_)
    obtain ⟨c, -, rfl⟩ := Option.map_eq_some_iff.1 hx
    exact good_str _
  · refine (Sound.ofExcept (integerIndex _ _)).bind fun i _ => ?_
    split
    · exact Sound.pure (good_int _)
    · exact Sound.plain rfl
  · refine (Sound.look fun s hs => (hs.dict _).get? index).bind fun found hfound => ?_
    split
    · exact Sound.pure (hfound _ rfl)
    · exact keyError index
  · refine (hhost.item _ hi).bind fun found hfound => ?_
    split
    · exact Sound.pure (hfound _ rfl)
    · exact keyError index
  · exact Sound.plain rfl

/-! ## Slices -/

/-- No more positions are selected than the sequence has. -/
theorem indices (bounds : SliceBounds) (length : Nat) :
    N.Holds (fun i => i.count ≤ length) (bounds.indices length) := by
  by_cases hstep : bounds.step = some 0
  · rw [SliceBounds.indices_eq_error hstep]
    exact Holds.plain rfl
  · rw [SliceBounds.indices_eq hstep]
    exact Holds.ok ((SliceBounds.within_ends bounds _).mono (Nat.min_le_left _ _)).count_le

theorem goodList_pick {items : Array Value} (h : N.GoodList items) {i : SliceIndices}
    (hi : i.count ≤ items.size) : N.GoodList (Subscript.pick items i) := by
  rw [Subscript.pick]
  refine ⟨N.fits_mono ?_ h.1, fun x hx => ?_⟩
  · rwa [List.size_toArray, List.length_map, SliceIndices.length_positions]
  · obtain ⟨p, -, rfl⟩ := List.mem_map.1 (List.mem_toArray.1 hx)
    rw [Array.getD_eq_getD_getElem?]
    cases hx : items[p]? with
    | none => exact good_null
    | some x => exact h.2 x (Array.mem_of_getElem? hx)

theorem sliceRange (r : Range) (bounds : SliceBounds) :
    N.Holds N.good (Subscript.sliceRange r bounds) := by
  refine (indices bounds r.length).bind fun i _ => ?_
  dsimp only
  split
  · exact N.good_data _ rfl
  · exact Holds.plain rfl

theorem getSlice {container : Value} (bounds : SliceBounds) (h : N.good container) :
    N.Sound N.good (Subscript.getSlice container bounds) := by
  unfold Subscript.getSlice
  split
  · refine (Sound.look fun s hs => ?_).bind fun items hitems => Sound.newList hitems
    exact (indices bounds _).map fun i hi => goodList_pick (hs.goodList _) hi
  · refine (Sound.ofExcept (indices bounds _)).bind fun i hi => Sound.newTuple ?_
    exact goodList_pick ⟨N.fits_items h, N.good_items h⟩ hi
  · exact (Sound.ofExcept (indices bounds _)).bind fun i _ => Sound.pure (good_str _)
  · exact Sound.ofExcept (sliceRange _ _)
  · exact Sound.plain rfl

/-! ## Writing -/

theorem setItem {container index value : Value} (hi : N.good index) (hv : N.good value) :
    N.Sound (fun _ => True) (Subscript.setItem l.size container index value) := by
  unfold Subscript.setItem
  split
  · refine (Sound.ofExcept (integerIndex _ _)).bind fun i _ => ?_
    refine Sound.get.bind fun s _ => ?_
    split
    · exact Sound.plain rfl
    · refine Sound.change fun s hs => hs.modifyList ⟨?_, fun x hx => ?_⟩
      · rw [Array.size_setIfInBounds]
        exact hs.listFits _
      · rcases Array.mem_or_eq_of_mem_setIfInBounds hx with hx | rfl
        · exact hs.list _ x hx
        · exact hv
  · refine (Sound.ofExcept (key_holds index)).bind fun k _ => ?_
    intro s hs
    refine SoundAt.after_change (SoundAt.check fun hfits => ?_)
    exact hs.modifyDict ((hs.dict _).insertByKey hi hv k) hfits
  · exact Sound.plain rfl

theorem goodList_splice {items replacement : Array Value} {start stop : Nat}
    (hitems : ∀ x ∈ items, N.good x) (hr : ∀ x ∈ replacement, N.good x)
    (hfits : N.fits (items.size - (stop - start) + replacement.size)) (hstart : start ≤ stop)
    (hstop : stop ≤ items.size) : N.GoodList (Subscript.splice items start stop replacement) := by
  have part : ∀ i j, ∀ x ∈ items.extract i j, N.good x := by
    intro i j x hx
    obtain ⟨k, hk, rfl⟩ := Array.mem_iff_getElem.1 hx
    rw [Array.getElem_extract]
    exact hitems _ (Array.getElem_mem _)
  refine ⟨N.fits_mono ?_ hfits, fun x hx => ?_⟩
  · simp only [Subscript.splice, Array.size_append, Array.size_extract]
    omega
  · simp only [Subscript.splice, Array.mem_append] at hx
    rcases hx with (hx | hx) | hx
    · exact part _ _ x hx
    · exact hr x hx
    · exact part _ _ x hx

theorem goodList_scatter (positions : List Nat) :
    ∀ {replacement : List Value} {items : Array Value}, N.GoodList items →
    (∀ x ∈ replacement, N.good x) → N.GoodList (Subscript.scatter items positions replacement) := by
  unfold Subscript.scatter
  induction positions with
  | nil => exact fun h _ => h
  | cons i rest ih =>
    intro replacement items h hr
    cases replacement with
    | nil => exact h
    | cons value replacement =>
      refine ih ⟨by rw [Array.size_setIfInBounds]; exact h.1, fun x hx => ?_⟩
        fun x hx => hr x (List.mem_cons_of_mem _ hx)
      rcases Array.mem_or_eq_of_mem_setIfInBounds hx with hx | rfl
      · exact h.2 x hx
      · exact hr x List.mem_cons_self

theorem assignSlice {items replacement : Array Value} (bounds : SliceBounds)
    (h : N.GoodList items) (hr : ∀ x ∈ replacement, N.good x) :
    N.Holds N.GoodList (Subscript.assignSlice l.size bounds items replacement) := by
  unfold Subscript.assignSlice
  refine .ite ?_ ?_
  · refine (indices bounds _).bind fun i _ => (checkContainer _).bind fun _ hfits => ?_
    exact goodList_splice h.2 hr hfits (by omega) (by omega)
  · refine Holds.bind (P := fun _ => True) ((indices bounds _).map fun _ _ => True.intro) ?_
    refine fun positions _ => .ite ?_ (Holds.plain rfl)
    exact goodList_scatter positions h fun x hx => hr x (by simpa using hx)

theorem setSlice {container value : Value} (bounds : SliceBounds) (hv : N.good value) :
    N.Sound (fun _ => True) (Subscript.setSlice l.size container bounds value) := by
  unfold Subscript.setSlice
  split
  · refine Sound.bind (P := N.GoodList) (Sound.look fun s hs => ?_) fun items hitems => ?_
    · refine (checkIterable value).bind fun _ _ => (iterate hs hv).bind fun r hr => ?_
      exact assignSlice bounds (hs.goodList _) hr
    · exact Sound.change fun s hs => hs.setList _ hitems
  · exact Sound.plain rfl

/-! ## Attributes -/

theorem newMethod {receiver : Value} {name : String} (hname : l.attributePolicy.allows name = true)
    (hexists : Method.exists? receiver name = true) (h : N.good receiver) :
    N.Sound N.good (StoreM.newMethod receiver name) :=
  Sound.newId.bind fun id _ => Sound.pure (N.good_method id hname hexists h)

theorem ofFunction? {f : Closure} {attr : String} {value : Value}
    (h : Attribute.ofFunction? f attr = some value) : N.good value := by
  unfold Attribute.ofFunction? at h
  split at h
  · cases h
    exact good_str _
  · cases h
    cases f.doc with
    | none => exact good_null
    | some text => exact good_str text
  · cases h

theorem readAttribute (hhost : N.Lends host) {receiver : Value} (attr : String)
    (h : N.good receiver) :
    N.Sound N.good (Attribute.read host l.attributePolicy receiver attr) := by
  have allowed (hattr : l.attributePolicy.allows attr = true) :
      N.Sound N.good (Attribute.readAllowed host receiver attr) := by
    unfold Attribute.readAllowed
    split
    · refine (hhost.readAttribute _ attr).bind fun found hfound => ?_
      split
      · exact Sound.pure (hfound _ rfl)
      · exact Sound.plain rfl
    · split
      · exact newMethod hattr ‹_› h
      · exact Sound.plain rfl
  have guarded : N.Sound N.good
      (Attribute.readGuarded host l.attributePolicy receiver attr) := by
    unfold Attribute.readGuarded
    split
    · exact allowed ‹_›
    · exact Sound.plain rfl
  unfold Attribute.read
  split
  · split
    · rename_i hvalue
      exact Sound.pure (ofFunction? hvalue)
    · exact guarded
  · exact guarded

end ScriptSandbox.Norm

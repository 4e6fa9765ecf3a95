import ScriptSandbox.Proofs.Slice

/-!
# Assignment to slices

A slice of step one is cut out of the list and the new items are put into its place; a slice of any
other step is overwritten item by item, and there have to be just as many. The new items are those that
the value has before the list changes, and nothing changes unless all of it can (`slice_assignment`).
-/

namespace ScriptSandbox

namespace SliceBounds

/-- What becomes of the items of a list when a slice gets new items. -/
def Replaces (b : SliceBounds) (items found new : List Value) : Prop :=
  let length := cappedLength items.length
  if b.stepSize = 1 then
    let start := (b.lowerEnd length).toNat
    let stop := max start (b.upperEnd length).toNat
    new = items.take start ++ found ++ items.drop stop
  else
    ∃ positions, b.Selection length positions ∧ found.length = positions.length ∧
      new.length = items.length ∧
      (∀ j p : Nat, positions[j]? = some p → new[p]? = found[j]?) ∧
      ∀ p, p ∉ positions → new[p]? = items[p]?

end SliceBounds

namespace Subscript

/-! ## Overwriting item by item -/

section Scatter

variable {items : Array Value} {positions : List Nat} {found : List Value}

theorem scatter_cons (items : Array Value) (p : Nat) (positions : List Nat) (v : Value)
    (found : List Value) :
    scatter items (p :: positions) (v :: found) = scatter (items.setIfInBounds p v) positions found :=
  rfl

theorem size_scatter : (scatter items positions found).size = items.size := by
  induction positions generalizing items found with
  | nil => rfl
  | cons p positions ih =>
    cases found with
    | nil => rfl
    | cons v found => rw [scatter_cons, ih, Array.size_setIfInBounds]

/-- Other positions keep their items. -/
theorem getElem?_scatter_of_not_mem {q : Nat} (h : q ∉ positions) :
    (scatter items positions found)[q]? = items[q]? := by
  induction positions generalizing items found with
  | nil => rfl
  | cons p positions ih =>
    rw [List.mem_cons, not_or] at h
    cases found with
    | nil => rfl
    | cons v found => rw [scatter_cons, ih h.2, Array.getElem?_setIfInBounds_ne (Ne.symm h.1)]

/-- Each position gets its own item: it is written once. -/
theorem getElem?_scatter (hnodup : positions.Nodup) (hinside : ∀ p ∈ positions, p < items.size)
    (hlength : found.length = positions.length) {j p : Nat} (hp : positions[j]? = some p) :
    (scatter items positions found)[p]? = found[j]? := by
  induction positions generalizing items found j with
  | nil => cases hp
  | cons q positions ih =>
    rw [List.nodup_cons] at hnodup
    rw [List.forall_mem_cons] at hinside
    cases found with
    | nil => cases hlength
    | cons v found =>
      rw [scatter_cons]
      cases j with
      | zero =>
        obtain rfl : q = p := Option.some.inj hp
        rw [getElem?_scatter_of_not_mem hnodup.1]
        simp [hinside.1]
      | succ j =>
        refine ih hnodup.2 ?_ (Nat.succ.inj hlength) hp
        simpa using hinside.2

end Scatter

/-! ## The new items -/

variable {limits : SizeLimits} {b : SliceBounds} {items replacement : Array Value}

theorem toList_splice (items : Array Value) (start stop : Nat) (replacement : Array Value) :
    (splice items start stop replacement).toList =
      items.toList.take start ++ replacement.toList ++ items.toList.drop stop := by
  simp [splice, List.extract_eq_take_drop, List.take_of_length_le]

/-- A list whose slice of step one is cut out, with new items in its place. -/
def spliced (b : SliceBounds) (items replacement : Array Value) : Array Value :=
  let i := b.ends (SliceBounds.cappedLength items.size)
  splice items i.start.toNat (max i.start.toNat i.stop.toNat) replacement

/-- The positions of a list that an assignment to a slice of another step writes. -/
def written (b : SliceBounds) (items : Array Value) : List Nat :=
  (b.ends (SliceBounds.cappedLength items.size)).positions

theorem assignSlice_spliced (hstep : b.stepSize = 1) :
    assignSlice limits b items replacement =
      (limits.checkContainer (spliced b items replacement).size).map fun _ =>
        spliced b items replacement := by
  have hb : b.step ≠ some 0 := fun hzero => by
    rw [SliceBounds.stepSize_eq_zero_iff.2 hzero] at hstep
    cases hstep
  have hcapped : SliceBounds.cappedLength items.size ≤ items.size := Nat.min_le_left _ _
  have hstart : (b.ends (SliceBounds.cappedLength items.size)).start.toNat ≤ items.size := by
    have := SliceBounds.lowerEnd_le hstep (SliceBounds.cappedLength items.size)
    simp only [SliceBounds.ends]
    omega
  have hstop : (b.ends (SliceBounds.cappedLength items.size)).stop.toNat ≤ items.size := by
    have := ((SliceBounds.within_ends b (SliceBounds.cappedLength items.size)).up
      (by rw [SliceBounds.ends, hstep]; exact Int.one_pos)).2
    omega
  unfold assignSlice spliced
  rw [if_pos (SliceBounds.step_eq_one_iff.2 hstep), SliceBounds.indices_eq hb]
  -- all that is used of the ends is that both are within the list
  generalize b.ends (SliceBounds.cappedLength items.size) = i at *
  have hsize : (splice items i.start.toNat (max i.start.toNat i.stop.toNat) replacement).size =
      items.size - (max i.start.toNat i.stop.toNat - i.start.toNat) + replacement.size := by
    rw [← Array.length_toList, toList_splice]
    simp
    omega
  show (limits.checkContainer _ >>= fun _ => pure (splice items _ _ replacement)) = _
  rw [Nat.min_eq_left hstart, Nat.min_eq_left hstop, hsize]
  cases limits.checkContainer _ <;> rfl

theorem assignSlice_scattered (hb : b.step ≠ some 0) (hstep : b.stepSize ≠ 1) :
    assignSlice limits b items replacement =
      if (written b items).length = replacement.size then
        .ok (scatter items (written b items) replacement.toList)
      else .error (.sliceSizeMismatch replacement.size (written b items).length) := by
  unfold assignSlice
  rw [if_neg (mt SliceBounds.step_eq_one_iff.1 hstep), SliceBounds.positions_eq hb]
  rfl

theorem replaces_spliced (hstep : b.stepSize = 1) {new : Array Value} :
    b.Replaces items.toList replacement.toList new.toList ↔ new = spliced b items replacement := by
  unfold SliceBounds.Replaces
  rw [if_pos hstep, ← Array.toList_inj, spliced, toList_splice]
  rfl

theorem replaces_scattered (hb : b.step ≠ some 0) (hstep : b.stepSize ≠ 1) {new : Array Value} :
    b.Replaces items.toList replacement.toList new.toList ↔
      (written b items).length = replacement.size ∧
        new = scatter items (written b items) replacement.toList := by
  have hwithin := (SliceBounds.within_ends b (SliceBounds.cappedLength items.size)).mono
    (Nat.min_le_left _ _)
  have hselection : b.Selection (SliceBounds.cappedLength items.toList.length) (written b items) :=
    SliceBounds.selection_positions hb _
  unfold SliceBounds.Replaces
  rw [if_neg hstep]
  constructor
  · rintro ⟨positions, hpositions, hlength, hsize, hwritten, hkept⟩
    obtain rfl := hpositions.unique hselection
    refine ⟨hlength.symm, Array.ext_getElem? fun p => ?_⟩
    -- positions are written once, and the others not at all
    by_cases hp : p ∈ written b items
    · obtain ⟨j, hj⟩ := List.mem_iff_getElem?.1 hp
      rw [getElem?_scatter hselection.nodup (fun q hq => hwithin.lt hq) hlength hj, ← hwritten j p hj,
        Array.getElem?_toList]
    · rw [getElem?_scatter_of_not_mem hp, ← Array.getElem?_toList, ← Array.getElem?_toList, hkept p hp]
  · rintro ⟨hlength, rfl⟩
    refine ⟨_, hselection, hlength.symm, ?_, fun j p hp => ?_, fun p hp => ?_⟩
    · exact size_scatter
    · rw [Array.getElem?_toList]
      exact getElem?_scatter hselection.nodup (fun q hq => hwithin.lt hq) hlength.symm hp
    · rw [Array.getElem?_toList, Array.getElem?_toList, getElem?_scatter_of_not_mem hp]

/-- An assignment gives the new items unless there are too many of them, or as many as there are
positions are asked for. -/
theorem assignSlice_eq_ok_iff (hb : b.step ≠ some 0) {new : Array Value} :
    assignSlice limits b items replacement = .ok new ↔
      b.Replaces items.toList replacement.toList new.toList ∧
        (b.stepSize = 1 → new.size ≤ limits.maxContainerSize) := by
  by_cases hstep : b.stepSize = 1
  · rw [assignSlice_spliced hstep, replaces_spliced hstep]
    rcases Nat.lt_or_ge limits.maxContainerSize (spliced b items replacement).size with hlarge | hfits
    · rw [SizeLimits.checkContainer_of_lt hlarge]
      refine iff_of_false nofun ?_
      rintro ⟨rfl, hfits⟩
      exact absurd (hfits hstep) (Nat.not_le.2 hlarge)
    · rw [SizeLimits.checkContainer_of_le hfits]
      constructor
      · rintro h
        obtain rfl := Except.ok.inj h
        exact ⟨rfl, fun _ => hfits⟩
      · rintro ⟨rfl, -⟩
        rfl
  · rw [assignSlice_scattered hb hstep, replaces_scattered hb hstep]
    constructor
    · intro h
      split at h
      · rename_i hlength
        exact ⟨⟨hlength, (Except.ok.inj h).symm⟩, fun hone => absurd hone hstep⟩
      · cases h
    · rintro ⟨⟨hlength, rfl⟩, -⟩
      exact if_pos hlength

theorem assignSlice_zero (hb : b.step = some 0) :
    assignSlice limits b items replacement = .error .zeroSliceStep := by
  have hstep : ¬ b.step.getD 1 = 1 := by
    rw [hb]
    decide
  unfold assignSlice
  rw [if_neg hstep, SliceBounds.positions, SliceBounds.indices_eq_error hb]
  rfl

/-- The items that a list gets from an assignment to a slice of it. -/
def assigned (limits : SizeLimits) (b : SliceBounds) (v : Value) (r : ListRef) (s : Store) :
    Except Error (Array Value) := do
  limits.checkIterable v
  let found ← s.iterate v
  assignSlice limits b (s.list r) found.toArray

/-- The list is written last. -/
theorem setSlice_list (r : ListRef) (v : Value) (s : Store) :
    setSlice limits (.list r) b v s =
      match assigned limits b v r s with
      | .ok new => .ok () (s.setList r new)
      | .error e => .error e s := by
  show (StoreM.look (assigned limits b v r) >>= fun new => modify (·.setList r new)) s = _
  rw [Norm.SoundAt.look_bind]
  cases assigned limits b v r s <;> rfl

theorem assigned_eq_ok_iff {v : Value} {r : ListRef} {s : Store} {new : Array Value} :
    assigned limits b v r s = .ok new ↔
      limits.checkIterable v = .ok () ∧ ∃ found, s.iterate v = .ok found ∧
        assignSlice limits b (s.list r) found.toArray = .ok new := by
  unfold assigned
  cases limits.checkIterable v with
  | error e => simp [bind, Except.bind]
  | ok _ => cases s.iterate v <;> simp [bind, Except.bind]

end Subscript

/-! ## Assignments -/

theorem Store.Sequence.setList {s : Store} {r : ListRef} (h : r.index < s.lists.size)
    (items : Array Value) : (s.setList r items).Sequence (.list r) items.toList := by
  have hlist : (s.setList r items).list r = items := by simp [Store.setList, Store.list, h]
  have hsequence := @Store.Sequence.list (s.setList r items) r (by simpa [Store.setList] using h)
  rwa [hlist] at hsequence

/-- The slice that was overwritten holds the new items. -/
theorem SliceBounds.Replaces.read_back {b : SliceBounds} {items found new : List Value}
    (h : b.Replaces items found new) (hb : b.step ≠ some 0) (hstep : b.stepSize ≠ 1) :
    found.map some = (b.ends (cappedLength new.length)).positions.map (new[·]?) := by
  unfold Replaces at h
  rw [if_neg hstep] at h
  obtain ⟨positions, hselection, hlength, hsize, hwritten, -⟩ := h
  rw [hsize, ← hselection.unique (selection_positions hb _)]
  apply List.ext_getElem?
  intro j
  rw [List.getElem?_map, List.getElem?_map]
  cases hp : positions[j]? with
  | none =>
    rw [List.getElem?_eq_none_iff, ← hlength] at hp
    rw [List.getElem?_eq_none hp]
    rfl
  | some p =>
    obtain ⟨hj, -⟩ := List.getElem?_eq_some_iff.1 hp
    rw [Option.map_some, hwritten j p hp, List.getElem?_eq_getElem (hlength ▸ hj)]
    rfl

/-- An assignment to a slice of a list replaces the slice by the items that the value had before, or it
leaves everything as it is; that is so if the step is zero, if the value cannot be walked, if there are
too many items for the quota, or if a slice that cannot grow would have to. -/
theorem slice_assignment (limits : SizeLimits) (s : Store) (r : ListRef) (items : List Value)
    (hitems : s.Sequence (.list r) items) (b : SliceBounds) (v : Value) :
    match Subscript.setSlice limits (.list r) b v s with
    | .ok _ s' => b.step ≠ some 0 ∧ ∃ found new, (s.iterate v).map Items.toList = .ok found ∧
        b.Replaces items found new ∧ s' = s.setList r new.toArray ∧ s'.Sequence (.list r) new ∧
        (b.stepSize = 1 → new.length ≤ limits.maxContainerSize) ∧
        (b.stepSize ≠ 1 → ∃ w s'', Subscript.getSlice (.list r) b s' = .ok w s'' ∧
          s''.Sequence w found)
    | .error _ s' => s' = s ∧ ∀ found new, b.step ≠ some 0 → limits.checkIterable v = .ok () →
        (s.iterate v).map Items.toList = .ok found → b.Replaces items found new →
        b.stepSize = 1 ∧ limits.maxContainerSize < new.length := by
  cases hitems with
  | list hr =>
  rw [Subscript.setSlice_list]
  cases hassigned : Subscript.assigned limits b v r s with
  | ok new =>
    obtain ⟨-, found, hfound, hnew⟩ := Subscript.assigned_eq_ok_iff.1 hassigned
    have hb : b.step ≠ some 0 := fun hzero => by
      rw [Subscript.assignSlice_zero hzero] at hnew
      cases hnew
    obtain ⟨hreplaces, hfits⟩ := (Subscript.assignSlice_eq_ok_iff hb).1 hnew
    have hsequence := Store.Sequence.setList hr new
    refine ⟨hb, found.toList, new.toList, congrArg (Except.map Items.toList) hfound, hreplaces,
      rfl, hsequence, hfits, fun hstep => ?_⟩
    obtain ⟨w, s'', back, hget, -, -, hback, hitems⟩ := Subscript.getSlice_sequence hb hsequence
    rw [← hreplaces.read_back hb hstep] at hitems
    obtain rfl := List.map_injective_iff.2 (Option.some_injective _) hitems
    exact ⟨w, s'', hget, hback⟩
  | error e =>
    refine ⟨rfl, fun found new hb hiterable hfound hreplaces => ?_⟩
    cases htaken : s.iterate v with
    | error e =>
      rw [htaken] at hfound
      cases hfound
    | ok taken =>
    rw [htaken] at hfound
    obtain rfl : taken.toList = found := Except.ok.inj hfound
    -- all that could refuse the assignment is excluded but the quota
    by_contra hfits
    have hnew : Subscript.assignSlice limits b (s.list r) taken.toArray = .ok new.toArray :=
      (Subscript.assignSlice_eq_ok_iff hb).2 ⟨hreplaces, fun hstep =>
        Nat.not_lt.1 fun hlarge => hfits ⟨hstep, hlarge⟩⟩
    rw [Subscript.assigned_eq_ok_iff.2 ⟨hiterable, taken, htaken, hnew⟩] at hassigned
    cases hassigned

/-- A list of three is reversed by an assignment to itself, and what is read back is the list as it
was. -/
theorem threeItems_reversed :
    let s := (Store.empty.addList #[.int 1, .int 2, .int 3]).2
    let backward : SliceBounds := ⟨none, none, some (-1)⟩
    ∃ s' w s'', Subscript.setSlice ⟨100, 3, 100, 100⟩ (.list ⟨0⟩) backward (.list ⟨0⟩) s =
        .ok () s' ∧
      s'.Sequence (.list ⟨0⟩) [.int 3, .int 2, .int 1] ∧
      Subscript.getSlice (.list ⟨0⟩) backward s' = .ok w s'' ∧
      s''.Sequence w [.int 1, .int 2, .int 3] := by
  have hrun : Subscript.setSlice ⟨100, 3, 100, 100⟩ (.list ⟨0⟩) ⟨none, none, some (-1)⟩ (.list ⟨0⟩)
      (Store.empty.addList #[.int 1, .int 2, .int 3]).2 =
      .ok () (Store.empty.addList #[.int 3, .int 2, .int 1]).2 := by with_unfolding_all rfl
  have hitems : (Store.empty.addList #[.int 1, .int 2, .int 3]).2.Sequence (.list ⟨0⟩)
      [.int 1, .int 2, .int 3] := .addList .empty #[.int 1, .int 2, .int 3]
  have hassigned := slice_assignment ⟨100, 3, 100, 100⟩ _ ⟨0⟩ _ hitems ⟨none, none, some (-1)⟩
    (.list ⟨0⟩)
  rw [hrun] at hassigned
  obtain ⟨-, found, new, hfound, -, hnew, hsequence, -, hread⟩ := hassigned
  obtain rfl : [.int 1, .int 2, .int 3] = found := Except.ok.inj hfound
  obtain rfl : [.int 3, .int 2, .int 1] = new := congrArg (fun s => (s.list ⟨0⟩).toList) hnew
  obtain ⟨w, s'', hget, hback⟩ := hread (by decide)
  exact ⟨_, w, s'', hrun, hsequence, hget, hback⟩

end ScriptSandbox

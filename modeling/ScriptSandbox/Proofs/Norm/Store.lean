import ScriptSandbox.Proofs.Norm.Container

/-!
# Norms: changes of the store

A store stays kept when what is added or written to it is good and fits. An operation that makes a
container gives a good value, since what a container holds is looked up in the store.
-/

namespace ScriptSandbox.Norm

variable {l : Limits} {N : Norm l} {s : Store}

variable (N) in
/-- A store without containers is kept. -/
theorem kept_empty : N.Kept .empty where
  list r x hx := by simp [Store.empty, Store.list] at hx
  listFits r := by simpa [Store.empty, Store.list] using N.fits_zero
  dict r := by simpa [Store.empty, Store.dict] using goodDict_empty
  dictFits r := by simpa [Store.empty, Store.dict] using (show N.fits Dict.empty.size from N.fits_zero)
  set r := by simpa [Store.empty, Store.set] using goodSet_empty
  setFits r := by simpa [Store.empty, Store.set] using (show N.fits KeySet.empty.size from N.fits_zero)

/-! ## Entries of an array, with a default behind its end -/

section Entries

variable {α : Type} {xs : Array α} {default : α} {P : α → Prop} (h : ∀ i : Nat, P (xs[i]?.getD default))

include h

theorem entries_push {a : α} (ha : P a) (i : Nat) : P ((xs.push a)[i]?.getD default) := by
  rw [Array.getElem?_push]
  split
  · exact ha
  · exact h i

theorem entries_modify {f : α → α} {j : Nat} (hf : ∀ x, xs[j]? = some x → P (f x)) (i : Nat) :
    P ((xs.modify j f)[i]?.getD default) := by
  rw [Array.getElem?_modify]
  split
  · rename_i hj
    subst hj
    cases hx : xs[j]? with
    | none =>
      have := h j
      rwa [hx] at this
    | some x => exact hf x hx
  · exact h i

theorem entries_set {a : α} (j : Nat) (ha : P a) (i : Nat) :
    P ((xs.setIfInBounds j a)[i]?.getD default) := by
  rw [Array.getElem?_setIfInBounds]
  split
  · split
    · exact ha
    · rename_i hj hlt
      subst hj
      have := h j
      rwa [Array.getElem?_eq_none (by omega)] at this
  · exact h i

end Entries

/-! ## Writing -/

variable (N) in
/-- Items of a list: all are good, and they fit. -/
def GoodList (items : Array Value) : Prop := N.fits items.size ∧ ∀ x ∈ items, N.good x

variable (N) in
/-- A dict that can be stored. -/
def FitDict (d : Dict) : Prop := N.fits d.size ∧ N.GoodDict d

variable (N) in
/-- A set that can be stored. -/
def FitSet (items : KeySet) : Prop := N.fits items.size ∧ N.GoodSet items

namespace Kept

theorem goodList (h : N.Kept s) (r : ListRef) : N.GoodList (s.list r) := ⟨h.listFits r, h.list r⟩

theorem fitDict (h : N.Kept s) (r : DictRef) : N.FitDict (s.dict r) := ⟨h.dictFits r, h.dict r⟩

theorem fitSet (h : N.Kept s) (r : SetRef) : N.FitSet (s.set r) := ⟨h.setFits r, h.set r⟩

theorem newId (h : N.Kept s) : N.Kept s.newId.2 := { h with }

theorem write (h : N.Kept s) (output : Output) : N.Kept { s with output } := { h with }

theorem of_lists (h : N.Kept s) {lists : Array (Array Value)}
    (hl : ∀ i : Nat, N.GoodList (lists[i]?.getD #[])) : N.Kept { s with lists } :=
  { h with list := fun r => (hl r.index).2, listFits := fun r => (hl r.index).1 }

theorem of_dicts (h : N.Kept s) {dicts : Array Dict}
    (hd : ∀ i : Nat, N.FitDict (dicts[i]?.getD .empty)) : N.Kept { s with dicts } :=
  { h with dict := fun r => (hd r.index).2, dictFits := fun r => (hd r.index).1 }

theorem of_sets (h : N.Kept s) {sets : Array KeySet}
    (hs : ∀ i : Nat, N.FitSet (sets[i]?.getD .empty)) : N.Kept { s with sets } :=
  { h with set := fun r => (hs r.index).2, setFits := fun r => (hs r.index).1 }

theorem addList (h : N.Kept s) {items : Array Value} (hitems : N.GoodList items) :
    N.Kept (s.addList items).2 := h.of_lists (entries_push (fun i => h.goodList ⟨i⟩) hitems)

theorem addDict (h : N.Kept s) {d : Dict} (hd : N.FitDict d) : N.Kept (s.addDict d).2 :=
  h.of_dicts (entries_push (fun i => h.fitDict ⟨i⟩) hd)

theorem addSet (h : N.Kept s) {items : KeySet} (hitems : N.FitSet items) :
    N.Kept (s.addSet items).2 := h.of_sets (entries_push (fun i => h.fitSet ⟨i⟩) hitems)

theorem setList (h : N.Kept s) (r : ListRef) {items : Array Value} (hitems : N.GoodList items) :
    N.Kept (s.setList r items) :=
  h.of_lists (entries_set (fun i => h.goodList ⟨i⟩) r.index hitems)

theorem modifyList (h : N.Kept s) {r : ListRef} {f : Array Value → Array Value}
    (hf : N.GoodList (f (s.list r))) : N.Kept (s.modifyList r f) := by
  refine h.of_lists (entries_modify (fun i => h.goodList ⟨i⟩) fun items hitems => ?_)
  simpa [Store.list, hitems] using hf

/-- A dict that grows is kept if it fits then. -/
theorem modifyDict (h : N.Kept s) {r : DictRef} {f : Dict → Dict} (hf : N.GoodDict (f (s.dict r)))
    (hfits : N.fits ((s.modifyDict r f).dict r).size) : N.Kept (s.modifyDict r f) := by
  refine h.of_dicts (entries_modify (fun i => h.fitDict ⟨i⟩) fun d hd => ?_)
  have grown : (s.modifyDict r f).dict r = f d := by
    simp [Store.modifyDict, Store.dict, Array.getElem?_modify, hd]
  rw [grown] at hfits
  simp only [Store.dict, hd, Option.getD_some] at hf
  exact ⟨hfits, hf⟩

/-- A set that grows is kept if it fits then. -/
theorem modifySet (h : N.Kept s) {r : SetRef} {f : KeySet → KeySet} (hf : N.GoodSet (f (s.set r)))
    (hfits : N.fits ((s.modifySet r f).set r).size) : N.Kept (s.modifySet r f) := by
  refine h.of_sets (entries_modify (fun i => h.fitSet ⟨i⟩) fun items hitems => ?_)
  have grown : (s.modifySet r f).set r = f items := by
    simp [Store.modifySet, Store.set, Array.getElem?_modify, hitems]
  rw [grown] at hfits
  simp only [Store.set, hitems, Option.getD_some] at hf
  exact ⟨hfits, hf⟩

theorem size_modifyDict_le (s : Store) (r : DictRef) (f : Dict → Dict) :
    ((s.modifyDict r f).dict r).size ≤ (f (s.dict r)).size := by
  simp only [Store.modifyDict, Store.dict, Array.getElem?_modify, if_true]
  cases s.dicts[r.index]? with
  | none => exact Nat.zero_le _
  | some d => exact Nat.le_refl _

theorem size_modifySet_le (s : Store) (r : SetRef) (f : KeySet → KeySet) :
    ((s.modifySet r f).set r).size ≤ (f (s.set r)).size := by
  simp only [Store.modifySet, Store.set, Array.getElem?_modify, if_true]
  cases s.sets[r.index]? with
  | none => exact Nat.zero_le _
  | some items => exact Nat.le_refl _

theorem setDict (h : N.Kept s) {r : DictRef} {f : Dict → Dict} (hf : N.FitDict (f (s.dict r))) :
    N.Kept (s.modifyDict r f) := h.modifyDict hf.2 (N.fits_mono (size_modifyDict_le s r f) hf.1)

theorem setSet (h : N.Kept s) {r : SetRef} {f : KeySet → KeySet} (hf : N.FitSet (f (s.set r))) :
    N.Kept (s.modifySet r f) := h.modifySet hf.2 (N.fits_mono (size_modifySet_le s r f) hf.1)

end Kept

/-! ## Making -/

namespace Sound

theorem newId : N.Sound (fun _ => True) StoreM.newId := fun _ hs => ⟨True.intro, hs.newId⟩

theorem newList {items : Array Value} (h : N.GoodList items) : N.Sound N.good (StoreM.newList items) :=
  fun _ hs => ⟨N.good_data _ rfl, hs.addList h⟩

theorem newDict {d : Dict} (h : N.FitDict d) : N.Sound N.good (StoreM.newDict d) :=
  fun _ hs => ⟨N.good_data _ rfl, hs.addDict h⟩

theorem newSet {items : KeySet} (h : N.FitSet items) : N.Sound N.good (StoreM.newSet items) :=
  fun _ hs => ⟨N.good_data _ rfl, hs.addSet h⟩

theorem newTuple {items : Array Value} (h : N.GoodList items) :
    N.Sound N.good (StoreM.newTuple items) :=
  newId.bind fun id _ => pure (N.good_tuple id items h.1 h.2)

end Sound

/-! ## Growing -/

namespace SoundAt

variable {α β : Type} {P : α → Prop} {Q : β → Prop}

theorem after_change {f : Store → Store} {m : StoreM β} (h : N.SoundAt Q m (f s)) :
    N.SoundAt Q (modify f >>= fun _ => m) s := h

theorem changed {f : Store → Store} {b : β} (h : N.Kept (f s)) (hb : Q b) :
    N.SoundAt Q (do modify f; pure b) s := ⟨hb, h⟩

/-- What a look has found is known of the store that was looked at. -/
theorem look_bind (f : Store → Except Error α) (g : α → StoreM β) (s : Store) :
    (StoreM.look f >>= g) s =
      match f s with
      | .ok a => g a s
      | .error e => .error e s := by
  show EStateM.bind (StoreM.look f) g s = _
  unfold EStateM.bind StoreM.look
  cases f s <;> rfl

theorem look {f : Store → Except Error α} {g : α → StoreM β} (hs : N.Kept s) (h : N.Holds P (f s))
    (hg : ∀ a, P a → N.SoundAt Q (g a) s) : N.SoundAt Q (StoreM.look f >>= g) s := by
  unfold SoundAt
  rw [look_bind]
  cases hf : f s with
  | ok a =>
    rw [hf] at h
    exact hg a h
  | error e =>
    rw [hf] at h
    exact ⟨h, fun _ => hs⟩

/-- A check of a size that decides whether the store is kept. A breach ends the run. -/
theorem check {size : Store → Nat} (h : N.fits (size s) → N.Kept s) :
    N.SoundAt (fun _ => True) (StoreM.look fun s => l.size.checkContainer (size s)) s := by
  unfold SoundAt StoreM.look SizeLimits.checkContainer
  by_cases hbreach : l.size.maxContainerSize < size s
  · simp only [hbreach, if_true]
    exact ⟨N.errs_container, fun he => by cases he⟩
  · simp only [hbreach, if_false]
    exact ⟨True.intro, h (N.fits_of_le (by omega))⟩

end SoundAt

end ScriptSandbox.Norm

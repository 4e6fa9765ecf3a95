import ScriptSandbox.Proofs.Norm
import ScriptSandbox.Proofs.Table

/-!
# Norms: dicts, sets and the store

Changing a dict or a set by good values leaves it good, and storing one that is good and fits keeps
the store.
-/

namespace ScriptSandbox.Norm

variable {l : Limits} {N : Norm l}

/-! ## Keys -/

mutual

theorem key_error : ∀ {v : Value} {e : Error}, Key.ofValue v = .error e → ∃ w, e = .unhashable w
  | .null, _, h | .bool _, _, h | .int _, _, h | .float _, _, h | .str _, _, h => by cases h
  | .tuple _ ⟨items⟩, e, h => by
    rw [Key.ofValue] at h
    cases hk : Key.ofValues items with
    | ok keys =>
      rw [hk] at h
      cases h
    | error e' =>
      rw [hk] at h
      cases h
      exact keys_error hk
  | .list _, _, h | .dict _, _, h | .set _, _, h | .range _, _, h | .function _, _, h
  | .native _, _, h | .method .., _, h | .object _, _, h => by
    cases h
    exact ⟨_, rfl⟩

theorem keys_error : ∀ {vs : List Value} {e : Error}, Key.ofValues vs = .error e →
    ∃ w, e = .unhashable w
  | [], _, h => by cases h
  | v :: vs, e, h => by
    rw [Key.ofValues] at h
    cases hk : Key.ofValue v with
    | ok key =>
      cases hks : Key.ofValues vs with
      | ok keys =>
        rw [hk, hks] at h
        cases h
      | error e' =>
        rw [hk, hks] at h
        cases h
        exact keys_error hks
    | error e' =>
      rw [hk] at h
      cases h
      exact key_error hk

end

theorem key_holds (v : Value) : N.Holds (fun _ => True) (Key.ofValue v) := by
  cases h : Key.ofValue v with
  | ok key => exact True.intro
  | error e =>
    obtain ⟨w, rfl⟩ := key_error h
    exact Holds.plain rfl

/-! ## Dicts -/

section Dict

variable {d e : Dict} {key value : Value}

theorem goodDict_empty : N.GoodDict .empty := fun _ h => absurd h Dict.mem_empty

theorem GoodDict.insertByKey (hd : N.GoodDict d) (hk : N.good key) (hv : N.good value) (k : Key) :
    N.GoodDict (d.insertByKey k key value) := by
  intro entry h
  rcases Dict.mem_insertByKey h with h | rfl | ⟨old, hold, rfl⟩
  · exact hd entry h
  · exact ⟨hk, hv⟩
  · exact ⟨(hd old hold).1, hv⟩

theorem GoodDict.eraseByKey (hd : N.GoodDict d) (k : Key) : N.GoodDict (d.eraseByKey k) :=
  fun entry h => hd entry (Dict.mem_eraseByKey h)

theorem GoodDict.getByKey? (hd : N.GoodDict d) {k : Key} (h : d.getByKey? k = some value) :
    N.good value := by
  obtain ⟨key, h⟩ := Dict.mem_of_getByKey? h
  exact (hd _ h).2

theorem GoodDict.get? (hd : N.GoodDict d) (key : Value) :
    N.Holds (fun found => ∀ v ∈ found, N.good v) (d.get? key) :=
  (key_holds key).map fun _ _ _ hv => hd.getByKey? hv

theorem GoodDict.insert (hd : N.GoodDict d) (hk : N.good key) (hv : N.good value) :
    N.Holds (fun d' => N.GoodDict d' ∧ d'.size ≤ d.size + 1) (d.insert key value) :=
  (key_holds key).map fun k _ => ⟨hd.insertByKey hk hv k, Dict.size_insertByKey_le⟩

theorem GoodDict.insertAll {pairs : List (Value × Value)} (hd : N.GoodDict d)
    (hp : ∀ p ∈ pairs, N.good p.1 ∧ N.good p.2) :
    N.Holds (fun d' => N.GoodDict d' ∧ d'.size ≤ d.size + pairs.length) (d.insertAll pairs) := by
  induction pairs generalizing d with
  | nil => exact ⟨hd, Nat.le_refl _⟩
  | cons p rest ih =>
    obtain ⟨key, value⟩ := p
    have hkv := hp (key, value) (by simp)
    have step := hd.insert hkv.1 hkv.2
    rw [Dict.insertAll]
    cases hi : d.insert key value with
    | ok d' =>
      rw [hi] at step
      refine (ih step.1 fun p h => hp p (by simp [h])).mono fun d'' h => ⟨h.1, ?_⟩
      have := step.2
      have := h.2
      simp only [List.length_cons]
      omega
    | error e =>
      rw [hi] at step
      exact step

theorem goodDict_ofPairs {pairs : List (Value × Value)}
    (hp : ∀ p ∈ pairs, N.good p.1 ∧ N.good p.2) :
    N.Holds (fun d => N.GoodDict d ∧ d.size ≤ pairs.length) (Dict.ofPairs pairs) := by
  refine (goodDict_empty.insertAll hp).mono fun d h => ⟨h.1, ?_⟩
  have : Dict.empty.size = 0 := rfl
  have := h.2
  omega

theorem good_namedPairs {keywords : List (String × Value)}
    (h : ∀ entry ∈ keywords, N.good entry.2) :
    ∀ p ∈ keywords.map fun (name, value) => (Value.str name, value), N.good p.1 ∧ N.good p.2 := by
  intro p hp
  obtain ⟨⟨name, value⟩, he, rfl⟩ := List.mem_map.1 hp
  exact ⟨N.good_data _ rfl, h _ he⟩

theorem GoodDict.merged (hd : N.GoodDict d) (he : N.GoodDict e) : N.GoodDict (d.merged e) := by
  have good : ∀ entry ∈ e.table.toList, N.good entry.2.1 ∧ N.good entry.2.2 := fun entry h =>
    he entry.2 (Dict.mem_toList.2 ⟨entry.1, h⟩)
  unfold Dict.merged
  generalize e.table.toList = entries at good
  induction entries generalizing d with
  | nil => exact hd
  | cons entry rest ih =>
    have h := good entry (by simp)
    exact ih (hd.insertByKey h.1 h.2 _) fun entry h => good entry (by simp [h])

end Dict

/-! ## Sets -/

section Set

variable {s t : KeySet} {value : Value}

theorem goodSet_empty : N.GoodSet .empty := fun _ h => absurd h KeySet.mem_empty

theorem GoodSet.insertByKey (hs : N.GoodSet s) (hv : N.good value) (k : Key) :
    N.GoodSet (s.insertByKey k value) := by
  intro x h
  rcases KeySet.mem_insertByKey h with h | rfl
  · exact hs x h
  · exact hv

theorem GoodSet.eraseByKey (hs : N.GoodSet s) (k : Key) : N.GoodSet (s.eraseByKey k) :=
  fun x h => hs x (KeySet.mem_eraseByKey h)

theorem GoodSet.insert (hs : N.GoodSet s) (hv : N.good value) :
    N.Holds (fun s' => N.GoodSet s' ∧ s'.size ≤ s.size + 1) (s.insert value) :=
  (key_holds value).map fun k _ => ⟨hs.insertByKey hv k, KeySet.size_insertByKey_le⟩

theorem GoodSet.insertAll {values : List Value} (hs : N.GoodSet s) (hv : ∀ v ∈ values, N.good v) :
    N.Holds (fun s' => N.GoodSet s' ∧ s'.size ≤ s.size + values.length) (s.insertAll values) := by
  induction values generalizing s with
  | nil => exact ⟨hs, Nat.le_refl _⟩
  | cons value rest ih =>
    have step := hs.insert (hv value (by simp))
    rw [KeySet.insertAll]
    cases hi : s.insert value with
    | ok s' =>
      rw [hi] at step
      refine (ih step.1 fun v h => hv v (by simp [h])).mono fun s'' h => ⟨h.1, ?_⟩
      have := step.2
      have := h.2
      simp only [List.length_cons]
      omega
    | error e =>
      rw [hi] at step
      exact step

theorem goodSet_ofList {values : List Value} (hv : ∀ v ∈ values, N.good v) :
    N.Holds (fun s => N.GoodSet s ∧ s.size ≤ values.length) (KeySet.ofList values) := by
  refine (goodSet_empty.insertAll hv).mono fun s h => ⟨h.1, ?_⟩
  have : KeySet.empty.size = 0 := rfl
  have := h.2
  omega

theorem GoodSet.union (hs : N.GoodSet s) (ht : N.GoodSet t) : N.GoodSet (s.union t) := by
  intro x h
  rcases KeySet.mem_union h with h | h
  · exact hs x h
  · exact ht x h

theorem GoodSet.intersection (hs : N.GoodSet s) : N.GoodSet (s.intersection t) :=
  fun x h => hs x (KeySet.mem_intersection h)

theorem GoodSet.difference (hs : N.GoodSet s) : N.GoodSet (s.difference t) :=
  fun x h => hs x (KeySet.mem_difference h)

theorem GoodSet.symmetricDifference (hs : N.GoodSet s) (ht : N.GoodSet t) :
    N.GoodSet (s.symmetricDifference t) := hs.difference.union ht.difference

end Set

end ScriptSandbox.Norm

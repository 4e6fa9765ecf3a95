import ScriptSandbox.Proofs.Extremum
import ScriptSandbox.Proofs.Growth

/-!
# Numbering items

Items are paired with the numbers from a start on. The number behind the last item is made as well, so
numbering fails when that one does not fit, even if all numbers in pairs do (`enumeration_exact`).
-/

namespace ScriptSandbox

/-- Items and the pairs that number them from an integer on. -/
inductive Numbered : Int → List Value → List Value → Prop where
  | nil {start : Int} : Numbered start [] []
  | cons {start : Int} {n : Int64} {id : Nat} {item : Value} {items pairs : List Value} :
    n.toInt = start → Numbered (start + 1) items pairs →
    Numbered start (item :: items) (.tuple id #[.int n, item] :: pairs)

namespace Numbered

variable {start : Int} {items pairs : List Value}

theorem length_eq (h : Numbered start items pairs) : pairs.length = items.length := by
  induction h with
  | nil => rfl
  | cons _ _ ih => rw [List.length_cons, List.length_cons, ih]

/-- Each item is paired with the start and its position. -/
theorem getElem? (h : Numbered start items pairs) {k : Nat} {item : Value}
    (hitem : items[k]? = some item) :
    ∃ id n, pairs[k]? = some (.tuple id #[.int n, item]) ∧ n.toInt = start + k := by
  induction h generalizing k with
  | nil => cases hitem
  | @cons start n id _ _ _ hn _ ih =>
    cases k with
    | zero =>
      obtain rfl := Option.some.inj hitem
      exact ⟨id, n, rfl, by omega⟩
    | succ k =>
      obtain ⟨id, n, hpair, hn⟩ := ih hitem
      exact ⟨id, n, hpair, by omega⟩

end Numbered

/-- As many numbers as are wanted fit if the last one does. -/
theorem Integer.forall_exists_add {start : Int64} {size : Nat} :
    (∀ k < size, ∃ n : Int64, n.toInt = start.toInt + k) ↔
      size = 0 ∨ start.toInt + size ≤ bound := by
  have hlow := start.le_toInt
  constructor
  · intro h
    rcases Nat.eq_zero_or_pos size with hzero | hpos
    · exact .inl hzero
    · obtain ⟨n, hn⟩ := h (size - 1) (Nat.sub_one_lt_of_lt hpos)
      have := n.toInt_lt
      unfold bound
      omega
  · intro h k hk
    have hsome : (fit? (start.toInt + k)).isSome := by
      rw [fit?_isSome_iff]
      unfold bound at h ⊢
      omega
    obtain ⟨n, hn⟩ := Option.isSome_iff_exists.1 hsome
    exact ⟨n, fit?_eq_some_iff.1 hn⟩

namespace Builtin

variable {s : Store} {start : Int64} {items : List Value}

theorem numberFrom_cons (index : Int64) (found : Array Value) (item : Value) (rest : List Value)
    (s : Store) : numberFrom index found (item :: rest) s =
      match Integer.fit? (index.toInt + 1) with
      | some next => numberFrom next (found.push (.tuple s.nextId #[.int index, item])) rest s.newId.2
      | none => .error (.overflow "enumerate") s.newId.2 := by
  simp only [numberFrom, Integer.add?_eq, Int64.toInt_one]
  cases Integer.fit? (index.toInt + 1) <;> rfl

/-- Numbering succeeds if the number behind the last item fits. -/
theorem numberFrom_ok (index : Int64) (found : Array Value) (s : Store)
    (hfits : items = [] ∨ index.toInt + items.length < Integer.bound) :
    ∃ pairs s', numberFrom index found items s = .ok (found ++ pairs.toArray) s' ∧
      Numbered index.toInt items pairs ∧ s.Grown s' := by
  induction items generalizing index found s with
  | nil => exact ⟨[], s, by rw [Array.append_empty]; rfl, .nil, .refl s⟩
  | cons item rest ih =>
    replace hfits : index.toInt + (rest.length + 1 : Nat) < Integer.bound := by simpa using hfits
    have hlow := index.le_toInt
    have hsome : (Integer.fit? (index.toInt + 1)).isSome := by
      rw [Integer.fit?_isSome_iff]
      unfold Integer.bound at hfits ⊢
      omega
    obtain ⟨next, hnext⟩ := Option.isSome_iff_exists.1 hsome
    have hvalue := Integer.fit?_eq_some_iff.1 hnext
    obtain ⟨pairs, s', hrun, hnumbered, hgrown⟩ :=
      ih next (found.push (.tuple s.nextId #[.int index, item])) s.newId.2 (.inr (by omega))
    refine ⟨.tuple s.nextId #[.int index, item] :: pairs, s', ?_, .cons rfl (hvalue ▸ hnumbered),
      (Store.Grown.newId s).trans hgrown⟩
    rw [numberFrom_cons, hnext]
    dsimp only
    rw [hrun, List.push_append_toArray]

/-- Numbering fails if the number behind the last item does not fit, whichever is the first one that does
not. -/
theorem numberFrom_overflow (index : Int64) (found : Array Value) (s : Store) (hitems : items ≠ [])
    (hbeyond : Integer.bound ≤ index.toInt + items.length) :
    ∃ s', numberFrom index found items s = .error (.overflow "enumerate") s' := by
  induction items generalizing index found s with
  | nil => exact absurd rfl hitems
  | cons item rest ih =>
    rw [List.length_cons] at hbeyond
    rw [numberFrom_cons]
    cases hnext : Integer.fit? (index.toInt + 1) with
    | none => exact ⟨_, rfl⟩
    | some next =>
      have hvalue := Integer.fit?_eq_some_iff.1 hnext
      refine ih next _ _ (fun hrest => ?_) (by omega)
      have := next.toInt_lt
      subst hrest
      unfold Integer.bound at hbeyond
      simp only [List.length_nil] at hbeyond
      omega

/-- The start, given as the second argument or by name. -/
theorem callEnumerate_eq {limits : SizeLimits} {source : Value} {items : Items} {args : Arguments}
    (hitems : s.iterate source = .ok items) (hfits : items.size ≤ limits.maxContainerSize)
    (hargs : args = ⟨[source, .int start], []⟩ ∨ args = ⟨[source], [("start", .int start)]⟩) :
    callEnumerate limits args s =
      (numberFrom start #[] items.toList >>= StoreM.newList : StoreM Value) s := by
  have hcollect : StoreM.look (collect limits · source) s = .ok items.toArray s :=
    look_of_ok (collect_of_iterate hitems hfits)
  have hrun : callEnumerate limits args s = EStateM.bind (StoreM.look (collect limits · source))
      (fun items => numberFrom start #[] items.toList >>= StoreM.newList) s := by
    rcases hargs with rfl | rfl <;> rfl
  rw [hrun, EStateM.bind, hcollect]
  rfl

end Builtin

/-- Items within the quota are numbered if all numbers up to the one behind the last item fit, and then the
result is a new list of the pairs in order. If a number does not fit, also if it is the one behind the
last item, the result is an overflow; without items there is none. -/
theorem enumeration_exact (ctx : CallContext) (s : Store) {source : Value} {items : Items}
    (hitems : s.iterate source = .ok items) (hfits : items.size ≤ ctx.limits.maxContainerSize)
    (start : Int64) {args : Arguments}
    (hargs : args = ⟨[source, .int start], []⟩ ∨ args = ⟨[source], [("start", .int start)]⟩) :
    ((∀ k < items.size, ∃ n : Int64, n.toInt = start.toInt + k) →
      ¬ (items.size ≠ 0 ∧ start.toInt + items.size = Integer.bound) →
      ∃ r s', Builtin.call .enumerate ctx args s = .ok (.list r) s' ∧ s.Grown s' ∧
        s.lists.size ≤ r.index ∧ (s'.list r).size = items.size ∧
        ∀ k < items.size, ∃ id n, (s'.list r)[k]? = some (.tuple id #[.int n, items.item k]) ∧
          n.toInt = start.toInt + k) ∧
    ((¬ ∀ k < items.size, ∃ n : Int64, n.toInt = start.toInt + k) ∨
        (items.size ≠ 0 ∧ start.toInt + items.size = Integer.bound) →
      ∃ s', Builtin.call .enumerate ctx args s = .error (.overflow "enumerate") s') := by
  have hcall : Builtin.call .enumerate ctx args s =
      EStateM.bind (Builtin.numberFrom start #[] items.toList) StoreM.newList s :=
    Builtin.callEnumerate_eq hitems hfits hargs
  have hlength := items.length_toList
  rw [hcall, EStateM.bind, Integer.forall_exists_add]
  refine ⟨fun hnumbers hbehind => ?_, fun hbeyond => ?_⟩
  · have hroom : items.toList = [] ∨ start.toInt + items.toList.length < Integer.bound := by
      rw [← List.length_eq_zero_iff, hlength]
      omega
    obtain ⟨pairs, s', hrun, hnumbered, hgrown⟩ := Builtin.numberFrom_ok start #[] s hroom
    rw [hrun, Array.empty_append]
    refine ⟨(s'.addList pairs.toArray).1, (s'.addList pairs.toArray).2, rfl,
      hgrown.trans (.addList s' _), hgrown.lists, ?_, fun k hk => ?_⟩
    · rw [Store.list_addList, List.size_toArray, hnumbered.length_eq, hlength]
    · rw [Store.list_addList, List.getElem?_toArray]
      refine hnumbered.getElem? ?_
      rw [← hlength] at hk
      rw [List.getElem?_eq_getElem hk]
      exact congrArg some (Items.getElem_toArray items hk)
  · have hne : items.toList ≠ [] := by
      rw [← List.length_pos_iff, hlength]
      omega
    obtain ⟨s', hrun⟩ := Builtin.numberFrom_overflow start #[] s hne (by omega)
    rw [hrun]
    exact ⟨s', rfl⟩

/-- Two items are given the last numbers but one, and not the last two, although these fit. -/
theorem lastNumbers_enumerated :
    let ctx := CallContext.ofCall .standard .stopped 0
    let s := (Store.empty.addList #[.str "a", .str "b"]).2
    (∃ r s', Builtin.call .enumerate ctx (.ofList [.list ⟨0⟩, .int 9223372036854775805]) s =
        .ok (.list r) s' ∧ (s'.list r).size = 2 ∧
      ∃ id, (s'.list r)[1]? = some (.tuple id #[.int 9223372036854775806, .str "b"])) ∧
    ∃ s', Builtin.call .enumerate ctx (.ofList [.list ⟨0⟩, .int 9223372036854775806]) s =
      .error (.overflow "enumerate") s' := by
  intro ctx s
  have hitems : s.iterate (.list ⟨0⟩) = .ok (.values #[.str "a", .str "b"]) := rfl
  have hfits : (Items.values #[.str "a", .str "b"]).size ≤ ctx.limits.maxContainerSize := by decide
  obtain ⟨hnumbered, -⟩ := enumeration_exact ctx s hitems hfits 9223372036854775805 (.inl rfl)
  obtain ⟨-, hoverflow⟩ := enumeration_exact ctx s hitems hfits 9223372036854775806 (.inl rfl)
  obtain ⟨r, s', hrun, -, -, hsize, hpairs⟩ :=
    hnumbered (Integer.forall_exists_add.2 (by decide)) (by decide)
  obtain ⟨id, n, hpair, hn⟩ := hpairs 1 (by decide)
  obtain rfl : n = 9223372036854775806 := Int64.toInt_inj.1 hn
  exact ⟨⟨r, s', hrun, hsize, id, hpair⟩, hoverflow (.inr (by decide))⟩

end ScriptSandbox

import ScriptSandbox.Proofs.Order

/-!
# Sorting

Sorting keeps the items, whatever their order (`perm_of_sort`). Where all items are texts, or all are
integers and truth values, it succeeds, and the items end in order, ties as they stood before
(`sort_sorted`). Merging is the merge of lists (`mergeSorted_eq`), which takes the left item of a tie;
so what is sorted by halves is sorted and keeps its ties (`StablySorted.merge`).
-/

namespace ScriptSandbox

open Std

/-! ## Sorted by a comparison -/

/-- Items in the order of a comparison, of which those that tie with each other stand as they did. -/
structure StablySorted (cmp : Value → Value → Ordering) (items sorted : List Value) : Prop where
  perm : sorted.Perm items
  ordered : sorted.Pairwise fun a b => (cmp a b).isLE
  stable : ∀ v, sorted.filter (cmp v · == .eq) = items.filter (cmp v · == .eq)

/-- A comparison, or the same from the other side. -/
def directed (cmp : Value → Value → Ordering) : Bool → Value → Value → Ordering
  | false => cmp
  | true => fun a b => cmp b a

section Comparison

variable {cmp : Value → Value → Ordering} {items sorted xs ys xs' ys' : List Value} {descending : Bool}

theorem StablySorted.of_length_le_one (h : items.length ≤ 1) : StablySorted cmp items items := by
  refine ⟨.refl _, ?_, fun v => rfl⟩
  match items, h with
  | [], _ => exact .nil
  | [x], _ => exact List.pairwise_singleton _ x

variable [TransCmp cmp]

instance : TransCmp (directed cmp descending) := by
  cases descending with
  | false => exact ‹TransCmp cmp›
  | true => exact (TransCmp.opposite : TransCmp fun a b => cmp b a)

theorem directed_beq_eq (a b : Value) : (directed cmp descending a b == .eq) = (cmp a b == .eq) := by
  cases descending with
  | false => rfl
  | true =>
    have hswap : cmp a b = (cmp b a).swap := OrientedCmp.eq_swap
    rw [hswap]
    change (cmp b a == .eq) = _
    cases cmp b a <;> rfl

theorem ne_of_directed_isLE {a b : Value} (h : (directed cmp descending a b).isLE) :
    cmp a b ≠ if descending then .lt else .gt := by
  cases descending with
  | false => exact Ordering.isLE_iff_ne_gt.1 h
  | true => exact Ordering.isGE_iff_ne_lt.1 (OrientedCmp.isGE_iff_isLE.2 h)

/-- What ties with an item does not tie with those behind it. -/
theorem filter_eq_nil {v y : Value} (hxs : ∀ x ∈ xs, cmp y x = .lt) (h : cmp v y = .eq) :
    xs.filter (cmp v · == .eq) = [] := by
  refine List.filter_eq_nil_iff.2 fun x hx => ?_
  rw [TransCmp.congr_left h, hxs x hx]
  simp

/-- The items of a merge that tie with one are those of the left list, then those of the right one. -/
theorem filter_merge (hxs : xs.Pairwise fun a b => (cmp a b).isLE) (v : Value) :
    (xs.merge ys fun a b => (cmp a b).isLE).filter (cmp v · == .eq) =
      xs.filter (cmp v · == .eq) ++ ys.filter (cmp v · == .eq) := by
  induction xs generalizing ys with
  | nil => simp
  | cons x xs ihx =>
    induction ys with
    | nil => simp
    | cons y ys ihy =>
      rw [List.merge]
      by_cases hle : (cmp x y).isLE
      · rw [if_pos hle, List.filter_cons, ihx hxs.tail]
        split <;> simp [*]
      · -- The right item is before all that is left of the left list, so nothing there ties with it.
        have hyx : cmp y x = .lt := OrientedCmp.lt_of_gt (Ordering.isLE_eq_false.1 (by simpa using hle))
        have hall : ∀ a ∈ x :: xs, cmp y a = .lt :=
          List.forall_mem_cons.2 ⟨hyx, fun a ha =>
            TransCmp.lt_of_lt_of_isLE hyx (List.rel_of_pairwise_cons hxs ha)⟩
        rw [if_neg hle, List.filter_cons, ihy]
        by_cases hties : cmp v y = .eq
        · rw [filter_eq_nil hall hties]
          simp [hties]
        · simp [hties]

theorem StablySorted.merge (h : StablySorted cmp xs xs') (h' : StablySorted cmp ys ys') :
    StablySorted cmp (xs ++ ys) (xs'.merge ys' fun a b => (cmp a b).isLE) where
  perm := (List.merge_perm_append _).trans (h.perm.append h'.perm)
  ordered := by
    refine List.pairwise_merge (fun a b c => TransCmp.isLE_trans) (fun a b => ?_) _ _ h.ordered h'.ordered
    rw [← OrientedCmp.isGE_eq_isLE (a := a)]
    cases cmp a b <;> rfl
  stable v := by rw [filter_merge h.ordered, List.filter_append, h.stable, h'.stable]

/-- Backwards, items are in the reverse order, and ties stand as in the items backwards. -/
theorem StablySorted.reverse (h : StablySorted cmp items.reverse sorted) :
    StablySorted (directed cmp true) items sorted.reverse where
  perm := (List.reverse_perm _).trans (h.perm.trans (List.reverse_perm _))
  ordered := List.pairwise_reverse.2 h.ordered
  stable v := by
    simp only [directed_beq_eq]
    rw [List.filter_reverse, h.stable, List.filter_reverse, List.reverse_reverse]

end Comparison

/-! ## Merge sort -/

section MergeSort

variable {isBefore : Value → Value → Except Error Bool} {cmp : Value → Value → Ordering} [TransCmp cmp]
  {items : List Value}

theorem mergeSorted_eq {merged left right : List Value}
    (hbefore : ∀ x ∈ left, ∀ y ∈ right, isBefore y x = .ok (cmp y x == .lt)) :
    mergeSorted isBefore merged left right =
      .ok (merged.reverse ++ left.merge right fun a b => (cmp a b).isLE) := by
  fun_induction mergeSorted isBefore merged left right with
  | case1 merged right => simp [List.reverseAux_eq]
  | case2 merged left => simp [List.reverseAux_eq]
  | case3 merged x left y right hyx ih =>
    rw [hbefore x (by simp) y (by simp), Except.ok.injEq, beq_iff_eq] at hyx
    -- an item of the right list goes first only if it is less, which keeps equal ones in order
    have hle : ¬ (cmp x y).isLE := by
      rw [OrientedCmp.gt_of_lt hyx]
      exact Bool.false_ne_true
    rw [List.merge, if_neg hle, ih fun a ha b hb => hbefore a ha b (by simp [hb])]
    simp
  | case4 merged x left y right hyx ih =>
    rw [hbefore x (by simp) y (by simp), Except.ok.injEq, beq_eq_false_iff_ne] at hyx
    have hle : (cmp x y).isLE := by
      rw [← OrientedCmp.isGE_eq_isLE, ← Ordering.ne_lt_iff_isGE]
      exact hyx
    rw [List.merge, if_pos hle, ih fun a ha b hb => hbefore a (by simp [ha]) b hb]
    simp
  | case5 merged x left y right e herror =>
    rw [hbefore x (by simp) y (by simp)] at herror
    cases herror

theorem sortFirst_sorted {n : Nat}
    (hbefore : ∀ x ∈ items, ∀ y ∈ items, isBefore x y = .ok (cmp x y == .lt)) :
    ∃ sorted, sortFirst isBefore n items = .ok (sorted, items.drop n) ∧
      StablySorted cmp (items.take n) sorted := by
  fun_induction sortFirst isBefore n items with
  | case1 n items hsmall =>
    refine ⟨items.take n, by rw [List.splitAt_eq], .of_length_le_one ?_⟩
    rw [List.length_take]
    omega
  | case2 n items hlarge ihleft ihright =>
    obtain ⟨left, hleft, hleftsorted⟩ := ihleft hbefore
    have hrest : ∀ x ∈ items.drop (n / 2), ∀ y ∈ items.drop (n / 2),
        isBefore x y = .ok (cmp x y == .lt) :=
      fun x hx y hy => hbefore x (List.mem_of_mem_drop hx) y (List.mem_of_mem_drop hy)
    obtain ⟨right, hright, hrightsorted⟩ := ihright _ hrest
    -- the halves hold items of the list only, for which the comparison is known
    have hmerge : mergeSorted isBefore [] left right =
        .ok (left.merge right fun a b => (cmp a b).isLE) := by
      refine mergeSorted_eq fun x hx y hy => hbefore y ?_ x ?_
      · exact List.mem_of_mem_drop (List.mem_of_mem_take (hrightsorted.perm.mem_iff.1 hy))
      · exact List.mem_of_mem_take (hleftsorted.perm.mem_iff.1 hx)
    have hhalves : n / 2 + (n - n / 2) = n := by omega
    refine ⟨left.merge right fun a b => (cmp a b).isLE, ?_, ?_⟩
    · simp only [hleft, hright, hmerge, bind, Except.bind, pure, Except.pure, List.drop_drop, hhalves]
    · rw [← hhalves, List.take_add]
      exact hleftsorted.merge hrightsorted

theorem sortBy_sorted (hbefore : ∀ x ∈ items, ∀ y ∈ items, isBefore x y = .ok (cmp x y == .lt)) :
    ∃ sorted, sortBy isBefore items = .ok sorted ∧ StablySorted cmp items sorted := by
  obtain ⟨sorted, hsort, hsorted⟩ := sortFirst_sorted (n := items.length) hbefore
  rw [List.take_length] at hsorted
  exact ⟨sorted, by rw [sortBy, hsort]; rfl, hsorted⟩

end MergeSort

/-! ## Sorting values -/

/-- All items are texts, or all are integers and truth values. -/
def OneKind (items : List Value) : Prop :=
  (∀ v ∈ items, v.toStr?.isSome) ∨ ∀ v ∈ items, v.toInt?.isSome

namespace Store

/-- Two values of which neither comes first. -/
def ties (s : Store) (a b : Value) : Bool :=
  match s.order a b with
  | .ok (some .eq) => true
  | _ => false

/-- The same items in ascending or descending order, and ties as they stood. -/
structure SortedAs (s : Store) (descending : Bool) (items sorted : List Value) : Prop where
  perm : sorted.Perm items
  ordered : sorted.Pairwise fun a b =>
    ∃ o, s.order a b = .ok (some o) ∧ o ≠ if descending then .lt else .gt
  stable : ∀ v ∈ items, sorted.filter (s.ties v) = items.filter (s.ties v)

/-- The order of some items is that of a comparison. -/
def OrderedBy (s : Store) (cmp : Value → Value → Ordering) (items : List Value) : Prop :=
  ∀ a ∈ items, ∀ b ∈ items, s.order a b = .ok (some (cmp a b))

variable {s : Store} {cmp : Value → Value → Ordering} {items sorted : List Value} {descending : Bool}

theorem KeyOrder.orderedBy {K : Type} [Ord K] {key : Value → Option K} (hkeys : s.KeyOrder key)
    (hitems : ∀ v ∈ items, (key v).isSome) : s.OrderedBy (compareOn key) items := by
  intro a ha b hb
  obtain ⟨m, hm⟩ := Option.isSome_iff_exists.1 (hitems a ha)
  obtain ⟨n, hn⟩ := Option.isSome_iff_exists.1 (hitems b hb)
  rw [order, hkeys.order_eq hm hn, compareOn, hm, hn]
  rfl

theorem orderedBy_of_oneKind (h : OneKind items) :
    ∃ cmp, TransCmp cmp ∧ s.OrderedBy cmp items := by
  rcases h with htexts | hnumbers
  · exact ⟨compareOn Value.toStr?, inferInstance, keyOrder_toStr?.orderedBy htexts⟩
  · exact ⟨compareOn Value.toInt?, inferInstance, keyOrder_toInt?.orderedBy hnumbers⟩

theorem OrderedBy.isBefore (h : s.OrderedBy cmp items) {a b : Value} (ha : a ∈ items)
    (hb : b ∈ items) : s.isBefore a b = .ok (cmp a b == .lt) := by
  rw [Store.isBefore, h a ha b hb]
  cases cmp a b <;> rfl

theorem OrderedBy.ties (h : s.OrderedBy cmp items) {a b : Value} (ha : a ∈ items)
    (hb : b ∈ items) : s.ties a b = (cmp a b == .eq) := by
  rw [Store.ties, h a ha b hb]
  cases cmp a b <;> rfl

theorem perm_of_sort (h : s.sort items descending = .ok sorted) : sorted.Perm items := by
  cases descending with
  | false => exact perm_of_sortBy h
  | true =>
    cases hsort : sortBy s.isBefore items.reverse with
    | error e =>
      rw [sort, hsort] at h
      cases h
    | ok backwards =>
      rw [sort, hsort] at h
      cases h
      exact (List.reverse_perm _).trans ((perm_of_sortBy hsort).trans (List.reverse_perm _))

variable [TransCmp cmp]

theorem OrderedBy.sort (h : s.OrderedBy cmp items) (descending : Bool) :
    ∃ sorted, s.sort items descending = .ok sorted ∧
      StablySorted (directed cmp descending) items sorted := by
  cases descending with
  | false => exact sortBy_sorted fun x hx y hy => h.isBefore hx hy
  | true =>
    have hbefore : ∀ x ∈ items.reverse, ∀ y ∈ items.reverse, s.isBefore x y = .ok (cmp x y == .lt) :=
      fun x hx y hy => h.isBefore (List.mem_reverse.1 hx) (List.mem_reverse.1 hy)
    obtain ⟨backwards, hsort, hsorted⟩ := sortBy_sorted hbefore
    exact ⟨backwards.reverse, by rw [Store.sort, hsort]; rfl, hsorted.reverse⟩

theorem OrderedBy.sortedAs (h : s.OrderedBy cmp items)
    (hsorted : StablySorted (directed cmp descending) items sorted) :
    s.SortedAs descending items sorted := by
  have hmem {x : Value} (hx : x ∈ sorted) : x ∈ items := hsorted.perm.mem_iff.1 hx
  have hties (v : Value) (hv : v ∈ items) {xs : List Value} (hxs : ∀ x ∈ xs, x ∈ items) :
      xs.filter (s.ties v) = xs.filter (directed cmp descending v · == .eq) := by
    refine List.filter_congr fun x hx => ?_
    rw [h.ties hv (hxs x hx), directed_beq_eq]
  refine ⟨hsorted.perm, ?_, fun v hv => ?_⟩
  · refine hsorted.ordered.imp_of_mem fun ha hb hle => ⟨_, h _ (hmem ha) _ (hmem hb), ?_⟩
    exact ne_of_directed_isLE hle
  · rw [hties v hv fun x => hmem, hties v hv fun x => id, hsorted.stable]

end Store

/-- Sorting never loses or repeats an item. All texts, or all integers and truth values, are sorted in
either direction, and of those that are equal none overtakes another. -/
theorem sort_sorted (s : Store) (items : List Value) (descending : Bool) :
    (∀ sorted, s.sort items descending = .ok sorted → sorted.Perm items) ∧
    (OneKind items → ∃ sorted, s.sort items descending = .ok sorted ∧
      s.SortedAs descending items sorted) := by
  refine ⟨fun sorted => Store.perm_of_sort, fun h => ?_⟩
  obtain ⟨cmp, _, hordered⟩ := Store.orderedBy_of_oneKind (s := s) h
  obtain ⟨sorted, hsort, hsorted⟩ := hordered.sort descending
  exact ⟨sorted, hsort, hordered.sortedAs hsorted⟩

/-- In descending order `True` stays before one, to which it is equal. -/
theorem fourNumbers_sorted : ∃ sorted,
    Store.empty.sort [.int 0, .bool true, .int 2, .int 1] true = .ok sorted ∧
      sorted.Perm [.int 0, .bool true, .int 2, .int 1] ∧
      sorted.filter (Store.empty.ties (.int 1)) = [.bool true, .int 1] := by
  obtain ⟨hperm, hkind⟩ := sort_sorted .empty [.int 0, .bool true, .int 2, .int 1] true
  obtain ⟨sorted, hsort, hsorted⟩ := hkind (.inr (by simp [Value.toInt?]))
  refine ⟨sorted, hsort, hperm sorted hsort, ?_⟩
  rw [hsorted.stable (.int 1) (by simp)]
  rfl

end ScriptSandbox

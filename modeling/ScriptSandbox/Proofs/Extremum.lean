import ScriptSandbox.Proofs.InPlace
import ScriptSandbox.Proofs.Sorting
import ScriptSandbox.Builtin.Call

/-!
# The first of the sorted items

The least item of a list is the first of the sorted list, and the greatest one the first of the list
sorted in descending order (`extremum_eq_first`), the very items: among equal ones both ways take the
one that stands first. A fold that moves on only for better candidates keeps to the foremost of the
items it has seen (`bestOf_foremost`), and there is only one such item (`Foremost.unique`).
-/

namespace ScriptSandbox

open Std

/-! ## The foremost item -/

/-- An item that none is before, and the first one of those that tie with it. -/
structure Foremost (cmp : Value → Value → Ordering) (items : List Value) (v : Value) : Prop where
  le : ∀ x ∈ items, (cmp v x).isLE
  first : (items.filter (cmp v · == .eq)).head? = some v

section Foremost

variable {cmp : Value → Value → Ordering} {items : List Value} {v w : Value}

theorem Foremost.mem (h : Foremost cmp items v) : v ∈ items :=
  (List.mem_filter.1 (List.mem_of_head? h.first)).1

variable [TransCmp cmp]

theorem Foremost.unique (h : Foremost cmp items v) (h' : Foremost cmp items w) : v = w := by
  have hties : cmp v w = .eq := OrientedCmp.isLE_antisymm (h.le w h'.mem) (h'.le v h.mem)
  have hfilter : items.filter (cmp v · == .eq) = items.filter (cmp w · == .eq) :=
    List.filter_congr fun x _ => by rw [TransCmp.congr_left hties]
  rw [← Option.some_inj, ← h.first, hfilter, h'.first]

theorem Foremost.singleton : Foremost cmp [v] v := by
  have hself : cmp v v = .eq := ReflCmp.compare_self
  constructor <;> simp [hself]

theorem StablySorted.foremost {sorted : List Value} (h : StablySorted cmp items (v :: sorted)) :
    Foremost cmp items v where
  le x hx := by
    rcases List.mem_cons.1 (h.perm.mem_iff.2 hx) with rfl | hx
    · exact ReflCmp.isLE_rfl
    · exact List.rel_of_pairwise_cons h.ordered hx
  first := by
    have hself : cmp v v = .eq := ReflCmp.compare_self
    rw [← h.stable, List.filter_cons_of_pos (by simp [hself]), List.head?_cons]

/-- A candidate that is before the foremost item is the foremost one with it. -/
theorem Foremost.append_lt (h : Foremost cmp items v) (hlt : cmp w v = .lt) :
    Foremost cmp (items ++ [w]) w := by
  have hself : cmp w w = .eq := ReflCmp.compare_self
  have hbefore : ∀ x ∈ items, cmp w x = .lt :=
    fun x hx => TransCmp.lt_of_lt_of_isLE hlt (h.le x hx)
  constructor
  · intro x hx
    rcases List.mem_append.1 hx with hx | hx
    · rw [hbefore x hx]
      rfl
    · obtain rfl := List.mem_singleton.1 hx
      exact ReflCmp.isLE_rfl
  · rw [List.filter_append, filter_eq_nil hbefore hself, List.nil_append,
      List.filter_cons_of_pos (by simp [hself]), List.head?_cons]

theorem Foremost.append_ne_lt (h : Foremost cmp items v) (hlt : cmp w v ≠ .lt) :
    Foremost cmp (items ++ [w]) v where
  le x hx := by
    rcases List.mem_append.1 hx with hx | hx
    · exact h.le x hx
    · obtain rfl := List.mem_singleton.1 hx
      exact OrientedCmp.isGE_iff_isLE.1 (Ordering.isGE_iff_ne_lt.2 hlt)
  first := by
    rw [List.filter_append, List.head?_append, h.first]
    rfl

end Foremost

/-! ## Folds over candidates -/

theorem directed_eq_lt_iff {cmp : Value → Value → Ordering} [TransCmp cmp] {descending : Bool}
    {a b : Value} : directed cmp descending a b = .lt ↔ cmp a b = if descending then .gt else .lt := by
  cases descending with
  | false => rfl
  | true =>
    change cmp b a = .lt ↔ cmp a b = .gt
    exact OrientedCmp.gt_iff_lt.symm

/-- The best of the candidates is the foremost one of all that were met. -/
theorem bestOf_foremost {s : Store} {cmp : Value → Value → Ordering} [TransCmp cmp]
    {descending : Bool} {met candidates : List Value} {best : Value}
    (h : s.OrderedBy cmp (met ++ candidates)) (hbest : Foremost (directed cmp descending) met best) :
    ∃ v, Builtin.bestOf (if descending then .gt else .lt) s best candidates = .ok v ∧
      Foremost (directed cmp descending) (met ++ candidates) v := by
  -- On the candidates left: what was met grows by each of them, and its foremost item is the best one.
  induction candidates generalizing met best with
  | nil => exact ⟨best, rfl, by rwa [List.append_nil]⟩
  | cons candidate rest ih =>
    have horder : s.order candidate best = .ok (some (cmp candidate best)) :=
      h candidate (by simp) best (by simp [hbest.mem])
    rw [List.append_cons] at h ⊢
    rw [Builtin.bestOf, horder]
    refine ih h ?_
    by_cases hlt : directed cmp descending candidate best = .lt
    · rw [if_pos (by simpa using directed_eq_lt_iff.1 hlt)]
      exact hbest.append_lt hlt
    · rw [if_neg (by simpa using fun h => hlt (directed_eq_lt_iff.2 h))]
      exact hbest.append_ne_lt hlt

/-! ## The functions -/

namespace Builtin

variable {ctx : CallContext} {limits : SizeLimits} {s : Store} {r : ListRef}

theorem look_of_ok {α : Type} {f : Store → Except Error α} {a : α} (h : f s = .ok a) :
    StoreM.look f s = .ok a s := by
  rw [StoreM.look, h]

theorem collect_of_iterate {source : Value} {items : Items} (hitems : s.iterate source = .ok items)
    (hfits : items.size ≤ limits.maxContainerSize) : collect limits s source = .ok items.toArray := by
  have hcheck := SizeLimits.checkContainer_of_le hfits
  have hopen : limits.checkIterable source = .ok () := by
    cases source with
    | range r =>
      cases hitems
      exact hcheck
    | _ => rfl
  simp only [collect, hopen, hitems, Items.size_toArray, hcheck, bind, Except.bind]
  rfl

theorem collect_list (hfits : (s.list r).size ≤ limits.maxContainerSize) :
    collect limits s (.list r) = .ok (s.list r) := by
  have hitems : s.iterate (.list r) = .ok (.values (s.list r)) := rfl
  exact collect_of_iterate hitems hfits

theorem callExtremum_list {func : String} {better : Ordering} {first : Value} {rest : List Value}
    (hfits : (s.list r).size ≤ limits.maxContainerSize)
    (hitems : (s.list r).toList = first :: rest) :
    callExtremum func better limits s (.ofList [.list r]) = bestOf better s first rest := by
  have hcandidates : (collect limits s (.list r)).map Array.toList = .ok (first :: rest) := by
    rw [collect_list hfits, ← hitems]
    rfl
  unfold callExtremum
  change ((collect limits s (.list r)).map Array.toList >>= _) = _
  rw [hcandidates]
  rfl

theorem callSorted_list {descending : Bool} {sorted : List Value}
    (hfits : (s.list r).size ≤ limits.maxContainerSize)
    (hsort : s.sort (s.list r).toList descending = .ok sorted) :
    callSorted limits ⟨[.list r], if descending then [("reverse", .bool true)] else []⟩ s =
      .ok (.list (s.addList sorted.toArray).1) (s.addList sorted.toArray).2 := by
  have hcollected : (do
      let items ← collect limits s (.list r)
      s.sort items.toList descending) = .ok sorted := by
    rw [collect_list hfits]
    exact hsort
  have hrun : callSorted limits ⟨[.list r], if descending then [("reverse", .bool true)] else []⟩ s =
      EStateM.bind (StoreM.look fun s => do
        let items ← collect limits s (.list r)
        s.sort items.toList descending) (fun sorted => StoreM.newList sorted.toArray) s := by
    cases descending <;> rfl
  rw [hrun, EStateM.bind, look_of_ok hcollected]
  rfl

end Builtin

/-- An item such that none is before it, or that none is after it. -/
structure Store.Extreme (s : Store) (descending : Bool) (items : List Value) (v : Value) : Prop where
  mem : v ∈ items
  bound : ∀ x ∈ items, ∃ o, s.order x v = .ok (some o) ∧ o ≠ if descending then .gt else .lt

theorem Store.OrderedBy.extreme {s : Store} {cmp : Value → Value → Ordering} [TransCmp cmp]
    {items : List Value} {v : Value} {descending : Bool} (h : s.OrderedBy cmp items)
    (hv : Foremost (directed cmp descending) items v) : s.Extreme descending items v where
  mem := hv.mem
  bound x hx := by
    refine ⟨_, h x hx v hv.mem, fun hlt => ?_⟩
    have hbefore : directed cmp descending x v = .lt := directed_eq_lt_iff.2 hlt
    have hle := hv.le x hx
    rw [OrientedCmp.gt_of_lt hbefore] at hle
    cases hle

/-- The extreme item of a list, in either direction, is the first of the sorted list. -/
theorem extremum_of_oneKind {limits : SizeLimits} {s : Store} {r : ListRef} (func : String)
    (descending : Bool) (hkind : OneKind (s.list r).toList) (hnonempty : s.list r ≠ #[])
    (hfits : (s.list r).size ≤ limits.maxContainerSize) :
    ∃ v behind, Builtin.callExtremum func (if descending then .gt else .lt) limits s
        (.ofList [.list r]) = .ok v ∧
      s.sort (s.list r).toList descending = .ok (v :: behind) ∧
      s.Extreme descending (s.list r).toList v := by
  obtain ⟨cmp, _, hordered⟩ := Store.orderedBy_of_oneKind (s := s) hkind
  obtain ⟨sorted, hsort, hsorted⟩ := hordered.sort descending
  cases hitems : (s.list r).toList with
  | nil => exact absurd (Array.toList_eq_nil_iff.1 hitems) hnonempty
  | cons first rest =>
    rw [hitems] at hordered hsorted hsort
    have hfirst : Foremost (directed cmp descending) [first] first := .singleton
    obtain ⟨v, hbest, hforemost⟩ := bestOf_foremost hordered hfirst
    cases sorted with
    | nil => cases hsorted.perm.nil_eq
    | cons w behind =>
      obtain rfl : v = w := hforemost.unique hsorted.foremost
      refine ⟨v, behind, ?_, hsort, hordered.extreme hforemost⟩
      rw [Builtin.callExtremum_list hfits hitems, hbest]

/-- Of a list of texts, or of integers and truth values, the least item is the first of the sorted
list and the greatest the first of the list sorted in descending order. -/
theorem extremum_eq_first {ctx : CallContext} {s : Store} {r : ListRef}
    (hkind : OneKind (s.list r).toList) (hnonempty : s.list r ≠ #[])
    (hfits : (s.list r).size ≤ ctx.limits.maxContainerSize) :
    ∃ least greatest up s₁ down s₂,
      Builtin.min.call ctx (.ofList [.list r]) s = .ok least s ∧
      Builtin.sorted.call ctx (.ofList [.list r]) s = .ok (.list up) s₁ ∧
      (s₁.list up)[0]? = some least ∧
      Builtin.max.call ctx (.ofList [.list r]) s = .ok greatest s ∧
      Builtin.sorted.call ctx ⟨[.list r], [("reverse", .bool true)]⟩ s = .ok (.list down) s₂ ∧
      (s₂.list down)[0]? = some greatest ∧
      s.Extreme false (s.list r).toList least ∧ s.Extreme true (s.list r).toList greatest := by
  obtain ⟨least, above, hmin, hup, hleast⟩ := extremum_of_oneKind "min" false hkind hnonempty hfits
  obtain ⟨greatest, below, hmax, hdown, hgreatest⟩ :=
    extremum_of_oneKind "max" true hkind hnonempty hfits
  refine ⟨least, greatest, _, _, _, _, ?_, Builtin.callSorted_list hfits hup, ?_, ?_,
    Builtin.callSorted_list hfits hdown, ?_, hleast, hgreatest⟩
  · change StoreM.look (Builtin.callExtremum "min" .lt ctx.limits · (.ofList [.list r])) s = _
    exact Builtin.look_of_ok hmin
  · rw [Store.list_addList]
    rfl
  · change StoreM.look (Builtin.callExtremum "max" .gt ctx.limits · (.ofList [.list r])) s = _
    exact Builtin.look_of_ok hmax
  · rw [Store.list_addList]
    rfl

/-- Of `[True, 1, 0, False]` the least item is zero and the greatest is `True`. -/
theorem fourTruths_sorted :
    let s := (Store.empty.addList #[.bool true, .int 1, .int 0, .bool false]).2
    let ctx := CallContext.ofCall .standard .stopped 0
    ∃ up s₁ down s₂, Builtin.sorted.call ctx (.ofList [.list ⟨0⟩]) s = .ok (.list up) s₁ ∧
      (s₁.list up)[0]? = some (.int 0) ∧
      Builtin.sorted.call ctx ⟨[.list ⟨0⟩], [("reverse", .bool true)]⟩ s = .ok (.list down) s₂ ∧
      (s₂.list down)[0]? = some (.bool true) := by
  intro s ctx
  have hitems : s.list ⟨0⟩ = #[.bool true, .int 1, .int 0, .bool false] := rfl
  obtain ⟨least, greatest, up, s₁, down, s₂, hmin, hup, hleast, hmax, hdown, hgreatest, -⟩ :=
    @extremum_eq_first ctx s ⟨0⟩ (.inr (by simp [hitems, Value.toInt?])) (by simp [hitems]) (by decide)
  have hzero : Builtin.min.call ctx (.ofList [.list ⟨0⟩]) s = .ok (.int 0) s := rfl
  have htrue : Builtin.max.call ctx (.ofList [.list ⟨0⟩]) s = .ok (.bool true) s := rfl
  cases hmin.symm.trans hzero
  cases hmax.symm.trans htrue
  exact ⟨up, s₁, down, s₂, hup, hleast, hdown, hgreatest⟩

end ScriptSandbox

import ScriptSandbox.Operator.Comparison
import ScriptSandbox.Proofs.Growth
import ScriptSandbox.Proofs.Keys
import ScriptSandbox.Proofs.Symmetry

/-!
# The algebra of sets

What the four operators on sets give is told by one rule each, which says of an element whether it is
taken from whether the first set has it and whether the second one has (`SetOperator.takes`). The
elements of the first set that are taken come first and in its order, as the objects that they are
there; behind them come those that only the second set has (`SetOperator.taken`). Membership of the
result follows from that list, as keys are distinct (`SetOperator.contains_apply`). The comparison operators
order sets by inclusion, which is decided by keys alone (`KeySet.isSubset_iff`).
-/

namespace ScriptSandbox

/-! ## Tables -/

namespace Table

variable {α : Type} {t u : Table α} {k : Key}

theorem contains_eq_any : t.contains k = t.toList.any fun e => e.1 = k := by
  rw [Bool.eq_iff_iff, contains_iff]
  simp [keyList]

theorem toList_filter (p : Key → Bool) : (t.filter p).toList = t.toList.filter fun e => p e.1 :=
  toList_ofList (t.nodup_keyList.sublist (List.filter_sublist.map _))

theorem insertNew_of_contains (h : t.contains k = true) (a : α) : t.insertNew k a = t :=
  if_pos h

theorem toList_insertNew (h : t.contains k = false) (a : α) :
    (t.insertNew k a).toList = t.toList ++ [(k, a)] := by
  have habsent : k ∉ t.keyList := by
    rw [← contains_iff, h]
    exact Bool.false_ne_true
  rw [insertNew, h]
  exact toList_upsert_of_absent habsent _ _

/-- Of entries that are put in one after another, those with a key of their own come in, behind the
others. -/
theorem toList_insertAll {entries : List (Key × α)} (h : (entries.map Prod.fst).Nodup) :
    (entries.foldl (fun t e => t.insertNew e.1 e.2) t).toList =
      t.toList ++ entries.filter fun e => !t.contains e.1 := by
  induction entries generalizing t with
  | nil => simp
  | cons e rest ih =>
    obtain ⟨hfirst, hrest⟩ := List.nodup_cons.1 h
    rw [List.foldl_cons, ih hrest]
    by_cases hcontains : t.contains e.1 = true
    · rw [insertNew_of_contains hcontains, List.filter_cons_of_neg (by simp [hcontains])]
    · have habsent : t.contains e.1 = false := by simpa using hcontains
      have hlater : ∀ e' ∈ rest, (t.insertNew e.1 e.2).contains e'.1 = t.contains e'.1 := by
        intro e' he'
        have hne : e.1 ≠ e'.1 := fun heq => hfirst (heq ▸ List.mem_map_of_mem he')
        rw [contains_eq_any, contains_eq_any, toList_insertNew habsent]
        simp [hne]
      rw [toList_insertNew habsent, List.filter_cons_of_pos (by simp [habsent]),
        List.filter_congr fun e' he' => congrArg Bool.not (hlater e' he')]
      simp

/-- The keys of a table are no more than those that include them. -/
theorem size_le_of_subset (h : t.keyList ⊆ u.keyList) : t.size ≤ u.size := by
  have hle := (t.nodup_keyList.subperm h).length_le
  simpa [keyList, length_toList] using hle

end Table

/-! ## Operators -/

/-- The operators of the algebra of sets. -/
inductive SetOperator where
  | union | intersection | difference | symmetricDifference

namespace SetOperator

/-- The operator of scripts. -/
def op : SetOperator → BinaryOp
  | union => .bitOr
  | intersection => .bitAnd
  | difference => .sub
  | symmetricDifference => .bitXor

/-- Whether an element is taken, by whether the first set has it and whether the second one has. -/
def takes : SetOperator → Bool → Bool → Bool
  | union => fun first second => first || second
  | intersection => fun first second => first && second
  | difference => fun first second => first && !second
  | symmetricDifference => fun first second => first ^^ second

/-- What is taken of two sets: from the first one in its order, then from the second one in its order
what the first one has not. -/
def taken (o : SetOperator) (a b : KeySet) : List (Key × Value) :=
  (a.table.toList.filter fun e => o.takes true (b.table.contains e.1)) ++
    b.table.toList.filter fun e => !a.table.contains e.1 && o.takes false true

/-- The set that an operator gives. -/
def apply : SetOperator → KeySet → KeySet → KeySet
  | union => KeySet.union
  | intersection => KeySet.intersection
  | difference => KeySet.difference
  | symmetricDifference => KeySet.symmetricDifference

variable {o : SetOperator} {a b : KeySet}

theorem toList_difference (a b : KeySet) :
    (a.difference b).table.toList = a.table.toList.filter fun e => !b.table.contains e.1 :=
  Table.toList_filter _

theorem toList_union (a b : KeySet) : (a.union b).table.toList =
    a.table.toList ++ b.table.toList.filter fun e => !a.table.contains e.1 := by
  have htable : ∀ (entries : List (Key × Value)) (a : KeySet),
      (entries.foldl (fun a e => a.insertByKey e.1 e.2) a).table =
        entries.foldl (fun t e => t.insertNew e.1 e.2) a.table := by
    intro entries
    induction entries with
    | nil => exact fun _ => rfl
    | cons e rest ih => exact fun a => ih (a.insertByKey e.1 e.2)
  rw [KeySet.union, htable]
  exact Table.toList_insertAll b.table.nodup_keyList

/-- An operator gives what its rule takes. -/
theorem toList_apply (o : SetOperator) (a b : KeySet) :
    (o.apply a b).table.toList = o.taken a b := by
  cases o with
  | union => simp [apply, taken, takes, toList_union]
  | intersection => simp [apply, taken, takes, KeySet.intersection, Table.toList_filter]
  | difference => simp [apply, taken, takes, toList_difference]
  | symmetricDifference =>
    have hnew : ∀ e ∈ b.table.toList.filter (fun e => !a.table.contains e.1),
        (!(a.difference b).table.contains e.1) = true := by
      intro e he
      rw [Table.contains_eq_any, toList_difference]
      simp only [List.mem_filter, Bool.not_eq_true'] at he
      have hfirst : ∀ e' ∈ a.table.toList, e'.1 ≠ e.1 := by
        intro e' he' heq
        have hcontains : a.table.contains e'.1 = true :=
          Table.contains_iff.2 (List.mem_map_of_mem he')
        rw [heq, he.2] at hcontains
        cases hcontains
      simp only [Bool.not_eq_true', List.any_eq_false, List.mem_filter, decide_eq_true_eq]
      exact fun e' he' => hfirst e' he'.1
    rw [apply, KeySet.symmetricDifference, toList_union, toList_difference, toList_difference,
      List.filter_eq_self.2 hnew]
    simp [taken, takes]

theorem size_apply (o : SetOperator) (a b : KeySet) : (o.apply a b).size = (o.taken a b).length := by
  rw [KeySet.size, ← Table.length_toList, toList_apply]

/-- Membership in what is taken follows the rule. -/
theorem contains_apply (o : SetOperator) (a b : KeySet) (k : Key) :
    (o.apply a b).table.contains k = o.takes (a.table.contains k) (b.table.contains k) := by
  have hnone : o.takes false false = false := by cases o <;> rfl
  have hkey {t : Table Value} (p : Key → Bool) :
      ((t.toList.filter fun e => p e.1).any fun e => e.1 = k) = (t.contains k && p k) := by
    rw [Table.contains_eq_any, List.any_filter, Bool.eq_iff_iff]
    simp only [List.any_eq_true, Bool.and_eq_true, decide_eq_true_eq]
    constructor
    · rintro ⟨e, he, hp, rfl⟩
      exact ⟨⟨e, he, rfl⟩, hp⟩
    · rintro ⟨⟨e, he, rfl⟩, hp⟩
      exact ⟨e, he, hp, rfl⟩
  rw [Table.contains_eq_any, toList_apply, taken, List.any_append,
    hkey fun k => o.takes true (b.table.contains k),
    hkey fun k => !a.table.contains k && o.takes false true]
  cases a.table.contains k <;> cases b.table.contains k <;> simp [hnone]

end SetOperator

/-! ## Inclusion -/

namespace KeySet

variable {s t u : KeySet}

theorem isSubset_iff : s.isSubset t = true ↔ s.table.keyList ⊆ t.table.keyList := by
  simp only [isSubset, size, Bool.and_eq_true, Table.allKeys_iff, Table.contains_iff]
  exact ⟨fun h => h.2, fun h => ⟨decide_eq_true (Table.size_le_of_subset h), h⟩⟩

/-- Sets are equal if each of them includes the other one. -/
theorem equal_eq (s t : KeySet) : s.equal t = (s.isSubset t && t.isSubset s) := by
  rw [Bool.eq_iff_iff, equal_iff, Bool.and_eq_true, isSubset_iff, isSubset_iff]
  constructor
  · rintro ⟨hsize, hkeys⟩
    exact ⟨hkeys, Table.keyList_subset hkeys (Nat.le_of_eq hsize.symm)⟩
  · rintro ⟨hkeys, hback⟩
    exact ⟨Nat.le_antisymm (Table.size_le_of_subset hkeys) (Table.size_le_of_subset hback), hkeys⟩

/-- A set is smaller than one that includes it, unless the two are equal. -/
theorem size_lt_iff (h : s.isSubset t = true) : s.size < t.size ↔ s.equal t = false := by
  have hle : s.size ≤ t.size := Table.size_le_of_subset (isSubset_iff.1 h)
  rw [← Bool.not_eq_true, equal_iff]
  constructor
  · rintro hlt ⟨hsize, -⟩
    omega
  · intro hne
    have : s.size ≠ t.size := fun hsize => hne ⟨hsize, isSubset_iff.1 h⟩
    omega

theorem equal_of_contains (h : ∀ k, s.table.contains k = t.table.contains k) : s.equal t = true := by
  rw [equal_eq, Bool.and_eq_true, isSubset_iff, isSubset_iff]
  constructor <;> intro k hk <;> rw [← Table.contains_iff] at hk ⊢
  · rw [← h, hk]
  · rw [h, hk]

end KeySet

namespace Store

variable {s : Store}

/-- The comparison operators order the sets of a store by inclusion. -/
structure OrdersSets (s : Store) : Prop where
  /-- No comparison of two sets fails. -/
  decided : ∀ a b, ∀ op ∈ [CompareOp.eq, .notEq, .lt, .ltE, .gt, .gtE],
    ∃ truth, Operator.compare s op (.set a) (.set b) = .ok truth
  includes : ∀ a b, Operator.compare s .ltE (.set a) (.set b) = .ok true ↔
    ∀ e ∈ (s.set a).table.toList, (s.set b).table.contains e.1 = true
  refl : ∀ a, Operator.compare s .ltE (.set a) (.set a) = .ok true
  trans : ∀ a b c, Operator.compare s .ltE (.set a) (.set b) = .ok true →
    Operator.compare s .ltE (.set b) (.set c) = .ok true →
    Operator.compare s .ltE (.set a) (.set c) = .ok true
  antisymm : ∀ a b, Operator.compare s .ltE (.set a) (.set b) = .ok true ∧
    Operator.compare s .ltE (.set b) (.set a) = .ok true ↔
    Operator.compare s .eq (.set a) (.set b) = .ok true
  strict : ∀ a b, Operator.compare s .lt (.set a) (.set b) = .ok true ↔
    Operator.compare s .ltE (.set a) (.set b) = .ok true ∧
    Operator.compare s .notEq (.set a) (.set b) = .ok true
  flipped : ∀ a b,
    Operator.compare s .gt (.set a) (.set b) = Operator.compare s .lt (.set b) (.set a) ∧
    Operator.compare s .gtE (.set a) (.set b) = Operator.compare s .ltE (.set b) (.set a)

theorem compare_ltE {a b : SetRef} : Operator.compare s .ltE (.set a) (.set b) = .ok true ↔
    (s.set a).table.keyList ⊆ (s.set b).table.keyList := by
  rw [← KeySet.isSubset_iff]
  exact ⟨Except.ok.inj, congrArg Except.ok⟩

theorem compare_lt {a b : SetRef} : Operator.compare s .lt (.set a) (.set b) = .ok true ↔
    (s.set a).size < (s.set b).size ∧ (s.set a).isSubset (s.set b) = true := by
  have hcompare : Operator.compare s .lt (.set a) (.set b) =
      .ok (decide ((s.set a).size < (s.set b).size) && (s.set a).isSubset (s.set b)) := rfl
  rw [hcompare, Except.ok.injEq, Bool.and_eq_true, decide_eq_true_eq]

/-- A set is equal to itself in any case, so references need not be told apart. -/
theorem equal_sets (a b : SetRef) :
    s.equal (.set a) (.set b) = .ok ((s.set a).equal (s.set b)) := by
  have hequal : s.equal (.set a) (.set b) = .ok (a == b || (s.set a).equal (s.set b)) := rfl
  rw [hequal]
  by_cases hab : a = b
  · have hself : (s.set b).equal (s.set b) = true :=
      KeySet.equal_iff.2 ⟨rfl, List.Subset.refl _⟩
    rw [hab, hself, Bool.or_true]
  · simp [hab]

theorem compare_eq {a b : SetRef} : Operator.compare s .eq (.set a) (.set b) = .ok true ↔
    (s.set a).equal (s.set b) = true := by
  rw [Operator.compare, equal_sets, Except.ok.injEq]

theorem compare_notEq {a b : SetRef} : Operator.compare s .notEq (.set a) (.set b) = .ok true ↔
    (s.set a).equal (s.set b) = false := by
  rw [Operator.compare, equal_sets]
  simp [Except.map]

theorem ordersSets (s : Store) : s.OrdersSets where
  decided a b op hop := by
    simp only [List.mem_cons, List.not_mem_nil, or_false] at hop
    rcases hop with rfl | rfl | rfl | rfl | rfl | rfl
    · exact ⟨_, equal_sets a b⟩
    · exact ⟨_, congrArg (Except.map _) (equal_sets a b)⟩
    all_goals exact ⟨_, rfl⟩
  includes a b := by
    rw [compare_ltE]
    -- by keys, which is how elements are looked up
    constructor
    · intro h e he
      exact Table.contains_iff.2 (h (List.mem_map_of_mem he))
    · intro h k hk
      obtain ⟨e, he, rfl⟩ := List.mem_map.1 hk
      exact Table.contains_iff.1 (h e he)
  refl a := compare_ltE.2 (List.Subset.refl _)
  trans a b c h h' := compare_ltE.2 (List.Subset.trans (compare_ltE.1 h) (compare_ltE.1 h'))
  antisymm a b := by
    rw [compare_ltE, compare_ltE, compare_eq, KeySet.equal_eq, Bool.and_eq_true,
      KeySet.isSubset_iff, KeySet.isSubset_iff]
  strict a b := by
    rw [compare_lt, compare_ltE, compare_notEq, ← KeySet.isSubset_iff, and_comm]
    exact and_congr_right KeySet.size_lt_iff
  flipped a b := ⟨rfl, rfl⟩

end Store

/-! ## The operators at work -/

namespace SetOperator

variable {limits : SizeLimits} {s : Store} {o : SetOperator} {a b : SetRef}

/-- An operator gives a new set of what its rule takes, and neither this nor a failure, which comes
only where that is more than the quota allows, changes what was there before. -/
def Combines (limits : SizeLimits) (s : Store) (o : SetOperator) (a b : SetRef) : Prop :=
  match Operator.binary limits o.op (.set a) (.set b) s with
  | .ok v s' => ∃ r, v = .set r ∧ s.sets.size ≤ r.index ∧ s.Grown s' ∧
      (o.taken (s.set a) (s.set b)).length ≤ limits.maxContainerSize ∧
      (s'.set r).table.toList = o.taken (s.set a) (s.set b) ∧
      ∀ x, s'.contains (.set r) x = do
        let first ← s.contains (.set a) x
        let second ← s.contains (.set b) x
        .ok (o.takes first second)
  | .error e s' => s' = s ∧ e = .limitExceeded .containerSize limits.maxContainerSize ∧
      limits.maxContainerSize < (o.taken (s.set a) (s.set b)).length

theorem binary_sets (limits : SizeLimits) (s : Store) (o : SetOperator) (a b : SetRef) :
    Operator.binary limits o.op (.set a) (.set b) s =
      if limits.maxContainerSize < (o.taken (s.set a) (s.set b)).length then
        .error (.limitExceeded .containerSize limits.maxContainerSize) s
      else .ok (.set (s.addSet (o.apply (s.set a) (s.set b))).1)
        (s.addSet (o.apply (s.set a) (s.set b))).2 := by
  have hlook : Operator.binary limits o.op (.set a) (.set b) =
      StoreM.look (fun s => do
        limits.checkContainer (o.apply (s.set a) (s.set b)).size
        pure (o.apply (s.set a) (s.set b))) >>= StoreM.newSet := by
    cases o <;> rfl
  rw [hlook, ← size_apply]
  by_cases hfits : limits.maxContainerSize < (o.apply (s.set a) (s.set b)).size
  · simp only [bind, EStateM.bind, StoreM.look, SizeLimits.checkContainer, if_pos hfits]
    rfl
  · simp only [bind, EStateM.bind, StoreM.look, SizeLimits.checkContainer, if_neg hfits]
    rfl

theorem set_addSet (s : Store) (items : KeySet) : (s.addSet items).2.set (s.addSet items).1 = items := by
  simp [Store.set, Store.addSet]

theorem combines (limits : SizeLimits) (s : Store) (o : SetOperator) (a b : SetRef) :
    Combines limits s o a b := by
  unfold Combines
  rw [binary_sets]
  by_cases hfits : limits.maxContainerSize < (o.taken (s.set a) (s.set b)).length
  · rw [if_pos hfits]
    exact ⟨rfl, rfl, hfits⟩
  · rw [if_neg hfits]
    refine ⟨_, rfl, Nat.le_refl _, .addSet s _, Nat.not_lt.1 hfits, ?_, fun x => ?_⟩
    · rw [set_addSet, toList_apply]
    · simp only [Store.contains, set_addSet, KeySet.contains]
      cases Key.ofValue x with
      | error e => rfl
      | ok k => exact congrArg Except.ok (contains_apply o _ _ k)

/-- No operator takes more than the union. -/
theorem length_taken_le (o : SetOperator) (a b : KeySet) :
    (o.taken a b).length ≤ (union.taken a b).length := by
  have hfirst : a.table.toList.filter (fun e => union.takes true (b.table.contains e.1)) =
      a.table.toList := List.filter_eq_self.2 fun _ _ => rfl
  have hsecond : b.table.toList.filter (fun e => !a.table.contains e.1 && union.takes false true) =
      b.table.toList.filter fun e => !a.table.contains e.1 :=
    List.filter_congr fun _ _ => Bool.and_true _
  rw [taken, taken, hfirst, hsecond, List.length_append, List.length_append]
  refine Nat.add_le_add (List.length_filter_le _ _) ?_
  rw [← List.countP_eq_length_filter, ← List.countP_eq_length_filter]
  refine List.countP_mono_left fun e _ he => ?_
  rw [Bool.and_eq_true] at he
  exact he.1

/-- A difference takes only elements of the first set. -/
theorem length_taken_difference_le (a b : KeySet) :
    (difference.taken a b).length ≤ a.table.toList.length := by
  simpa [taken, takes] using List.length_filter_le _ _

/-- Behind other operators, sets that were there before are combined as they were. -/
theorem binary_later {s₁ : Store} (hgrown : s.Grown s₁) (ha : a.index < s.sets.size)
    (hb : b.index < s.sets.size)
    (hfits : (o.taken (s.set a) (s.set b)).length ≤ limits.maxContainerSize) :
    ∃ r s₂, Operator.binary limits o.op (.set a) (.set b) s₁ = .ok (.set r) s₂ ∧ s₁.Grown s₂ ∧
      r.index < s₂.sets.size ∧ s₂.set r = o.apply (s.set a) (s.set b) := by
  rw [← hgrown.set a ha, ← hgrown.set b hb] at hfits ⊢
  refine ⟨_, _, ?_, .addSet s₁ _, ?_, set_addSet s₁ _⟩
  · rw [binary_sets, if_neg (Nat.not_lt.2 hfits)]
  · simp [Store.addSet]

/-- The symmetric difference is what the union has beyond the intersection. -/
theorem symmetricDifference_equal (a b : KeySet) :
    (symmetricDifference.apply a b).equal
      (difference.apply (union.apply a b) (intersection.apply a b)) = true := by
  refine KeySet.equal_of_contains fun k => ?_
  simp only [contains_apply, takes]
  cases a.table.contains k <;> cases b.table.contains k <;> rfl

theorem exclusive_eq_rest (ha : a.index < s.sets.size) (hb : b.index < s.sets.size)
    (hfits : (union.taken (s.set a) (s.set b)).length ≤ limits.maxContainerSize) :
    ∃ s', (do
      let exclusive ← Operator.binary limits .bitXor (.set a) (.set b)
      let either ← Operator.binary limits .bitOr (.set a) (.set b)
      let both ← Operator.binary limits .bitAnd (.set a) (.set b)
      let rest ← Operator.binary limits .sub either both
      StoreM.look fun s => Operator.compare s .eq exclusive rest) s = .ok true s' := by
  have hsize (o : SetOperator) :
      (o.taken (s.set a) (s.set b)).length ≤ limits.maxContainerSize :=
    Nat.le_trans (o.length_taken_le _ _) hfits
  obtain ⟨x, s₁, hx, hgrown₁, hxin, hxset⟩ :=
    binary_later (.refl s) ha hb (hsize symmetricDifference)
  obtain ⟨u, s₂, hu, hgrown₂, huin, huset⟩ := binary_later hgrown₁ ha hb (hsize union)
  obtain ⟨i, s₃, hi, hgrown₃, hiin, hiset⟩ :=
    binary_later (hgrown₁.trans hgrown₂) ha hb (hsize intersection)
  -- later sets leave the earlier ones in the store as they are
  have huset₃ : s₃.set u = union.apply (s.set a) (s.set b) := by rw [hgrown₃.set u huin, huset]
  have hrest : (difference.taken (s₃.set u) (s₃.set i)).length ≤ limits.maxContainerSize := by
    refine Nat.le_trans (length_taken_difference_le _ _) ?_
    rw [huset₃, toList_apply]
    exact hfits
  obtain ⟨d, s₄, hd, hgrown₄, -, hdset⟩ :=
    binary_later (.refl s₃) (Nat.lt_of_lt_of_le huin hgrown₃.sets) hiin hrest
  have hxset₄ : s₄.set x = symmetricDifference.apply (s.set a) (s.set b) := by
    rw [((hgrown₂.trans hgrown₃).trans hgrown₄).set x hxin, hxset]
  have hequal : Operator.compare s₄ .eq (.set x) (.set d) = .ok true := by
    rw [Store.compare_eq, hxset₄, hdset, huset₃, hiset]
    exact symmetricDifference_equal _ _
  refine ⟨s₄, ?_⟩
  simp only [op] at hx hu hi hd
  simp only [bind, EStateM.bind, hx, hu, hi, hd, StoreM.look, hequal]

end SetOperator

/-- The algebra of sets in a store. Each operator gives a new set of what its rule takes, the elements
of the first set in front, if this is within the quota; inclusion is a partial order of sets whose
antisymmetry is equality and whose strict part leaves out equal sets; and where the union is within the
quota, `a ^ b == (a | b) - (a & b)` is true. -/
theorem set_algebra (limits : SizeLimits) (s : Store) (a b : SetRef) (ha : a.index < s.sets.size)
    (hb : b.index < s.sets.size) :
    (∀ o, SetOperator.Combines limits s o a b) ∧
    s.OrdersSets ∧
    ((SetOperator.union.taken (s.set a) (s.set b)).length ≤ limits.maxContainerSize →
      ∃ s', (do
        let exclusive ← Operator.binary limits .bitXor (.set a) (.set b)
        let either ← Operator.binary limits .bitOr (.set a) (.set b)
        let both ← Operator.binary limits .bitAnd (.set a) (.set b)
        let rest ← Operator.binary limits .sub either both
        StoreM.look fun s => Operator.compare s .eq exclusive rest) s = .ok true s') :=
  ⟨fun o => SetOperator.combines limits s o a b, s.ordersSets,
    fun hfits => SetOperator.exclusive_eq_rest ha hb hfits⟩

/-- The set of the integer one and the set of the truth value that shares its key. -/
def twinSets : Store :=
  { Store.empty with
    sets := #[KeySet.empty.insertByKey (.int 1) (.int 1), KeySet.empty.insertByKey (.int 1) (.bool true)] }

theorem taken_twinSets (o : SetOperator) :
    o.taken (twinSets.set ⟨0⟩) (twinSets.set ⟨1⟩) =
      if o.takes true true then [(.int 1, .int 1)] else [] := by
  have hone : (twinSets.set ⟨0⟩).table.toList = [(.int 1, .int 1)] := KeySet.table_singleton _ _
  have htrue : (twinSets.set ⟨1⟩).table.toList = [(.int 1, .bool true)] :=
    KeySet.table_singleton _ _
  simp [SetOperator.taken, Table.contains_eq_any, hone, htrue, List.filter_cons]

/-- Of two elements with one key, the one of the first set is taken. -/
theorem twinSets_combined :
    0 < twinSets.sets.size ∧ 1 < twinSets.sets.size ∧
    (∀ o : SetOperator, ∃ r s',
      Operator.binary Limits.standard.size o.op (.set ⟨0⟩) (.set ⟨1⟩) twinSets = .ok (.set r) s' ∧
      (s'.set r).table.toList = if o.takes true true then [(.int 1, .int 1)] else []) ∧
    twinSets.OrdersSets ∧
    ∃ s', (do
      let exclusive ← Operator.binary Limits.standard.size .bitXor (.set ⟨0⟩) (.set ⟨1⟩)
      let either ← Operator.binary Limits.standard.size .bitOr (.set ⟨0⟩) (.set ⟨1⟩)
      let both ← Operator.binary Limits.standard.size .bitAnd (.set ⟨0⟩) (.set ⟨1⟩)
      let rest ← Operator.binary Limits.standard.size .sub either both
      StoreM.look fun s => Operator.compare s .eq exclusive rest) twinSets = .ok true s' := by
  have hfirst : 0 < twinSets.sets.size := by decide
  have hsecond : 1 < twinSets.sets.size := by decide
  have hfits (o : SetOperator) : (o.taken (twinSets.set ⟨0⟩) (twinSets.set ⟨1⟩)).length ≤
      Limits.standard.size.maxContainerSize := by
    rw [taken_twinSets]
    cases o <;> decide
  obtain ⟨hcombines, horders, hlaw⟩ :=
    set_algebra Limits.standard.size twinSets ⟨0⟩ ⟨1⟩ hfirst hsecond
  refine ⟨hfirst, hsecond, fun o => ?_, horders, hlaw (hfits .union)⟩
  have ho := hcombines o
  unfold SetOperator.Combines at ho
  cases hbinary : Operator.binary Limits.standard.size o.op (.set ⟨0⟩) (.set ⟨1⟩) twinSets with
  | ok v s' =>
    rw [hbinary] at ho
    obtain ⟨r, rfl, -, -, -, hlist, -⟩ := ho
    exact ⟨r, s', rfl, hlist.trans (taken_twinSets o)⟩
  | error e s' =>
    rw [hbinary] at ho
    exact absurd ho.2.2 (Nat.not_lt.2 (hfits o))

end ScriptSandbox

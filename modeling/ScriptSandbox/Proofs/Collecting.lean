import ScriptSandbox.Proofs.Assignment
import ScriptSandbox.Proofs.Attribute.Target
import ScriptSandbox.Proofs.InPlace
import ScriptSandbox.Proofs.SetAlgebra
import ScriptSandbox.Syntax.Build

/-!
# What comprehensions collect

A list comprehension and a set comprehension of the same element and clauses run alike and differ in
what they do with an element. Where the list is collected and all its items can be hashed, the set of
these items is collected on the way, from the same states (`Collects`): a set has no more elements than
there are items, so the quota does not refuse it where it lets the list pass.
-/

namespace ScriptSandbox

open Eval

namespace KeySet

theorem insertAll_append (s : KeySet) (before behind : List Value) :
    s.insertAll (before ++ behind) = (s.insertAll before >>= fun t => t.insertAll behind) := by
  induction before generalizing s with
  | nil => rfl
  | cons value rest ih =>
    rw [List.cons_append, insertAll, insertAll]
    cases s.insert value with
    | ok t => exact ih t
    | error e => rfl

/-- What is put in front of other values can be put in a set where these can. -/
theorem ofList_of_prefix {before values : List Value} {t : KeySet} (h : before <+: values)
    (ht : ofList values = .ok t) : ∃ s, ofList before = .ok s := by
  obtain ⟨behind, rfl⟩ := h
  rw [ofList, insertAll_append] at ht
  cases hs : empty.insertAll before with
  | ok s => exact ⟨s, hs⟩
  | error e =>
    rw [hs] at ht
    cases ht

theorem ofList_push {values : List Value} {s : KeySet} (h : ofList values = .ok s) (value : Value) :
    ofList (values ++ [value]) = s.insert value := by
  have hs : empty.insertAll values = .ok s := h
  rw [ofList, insertAll_append, hs]
  show s.insertAll [value] = _
  rw [insertAll]
  cases s.insert value <;> rfl

/-- Values that have keys make up a set. -/
theorem exists_ofList {values : List Value} (h : ∀ value ∈ values, ∃ k, Key.ofValue value = .ok k) :
    ∃ s, ofList values = .ok s := by
  have insertable : ∀ s : KeySet, ∃ t, s.insertAll values = .ok t := by
    induction values with
    | nil => exact fun s => ⟨s, rfl⟩
    | cons value rest ih =>
      intro s
      obtain ⟨k, hk⟩ := h value List.mem_cons_self
      obtain ⟨t, ht⟩ := ih (fun v hv => h v (List.mem_cons_of_mem _ hv)) (s.insertByKey k value)
      refine ⟨t, ?_⟩
      rw [insertAll, insert, hk]
      exact ht
  exact insertable empty

theorem size_ofList_le {values : List Value} {s : KeySet} (h : ofList values = .ok s) :
    s.size ≤ values.length := by
  let N : Norm Limits.standard := .trivial Limits.standard
  have hsize : N.Holds (fun s => N.GoodSet s ∧ s.size ≤ values.length) (KeySet.ofList values) :=
    Norm.goodSet_ofList fun _ _ => True.intro
  rw [h] at hsize
  exact hsize.2

end KeySet

/-! ## A set collected beside a list -/

/-- A way to go on with what was collected, a list or a set, which adds items to a list. If they can
all be hashed, it goes on with a set of the items before to the set of all of them, with the same
effects. -/
def Eval.Collects (step : Collection → Eval Collection) : Prop :=
  ∀ (items : Array Value) (s s' : RunState) (out : Collection), step (.list items) s = .ok out s' →
    ∃ more : Array Value, out = .list more ∧ items.toList <+: more.toList ∧
      ∀ set set', KeySet.ofList items.toList = .ok set → KeySet.ofList more.toList = .ok set' →
        step (.set set) s = .ok (.set set') s'

namespace Eval.Collects

variable {α : Type} {step next : Collection → Eval Collection}

theorem pure : Collects Pure.pure := fun items s s' out h => by
  cases h
  refine ⟨items, rfl, List.prefix_rfl, fun set set' hset hset' => ?_⟩
  rw [hset] at hset'
  cases hset'
  rfl

/-- What comes before does not depend on what was collected. -/
theorem behind {m : Eval α} {step : α → Collection → Eval Collection} (h : ∀ a, Collects (step a)) :
    Collects fun out => m >>= fun a => step a out := by
  intro items s s' out hr
  dsimp only at hr ⊢
  rw [bind_apply] at hr
  cases hm : m s with
  | error e s₁ =>
    rw [hm] at hr
    cases hr
  | ok a s₁ =>
    rw [hm] at hr
    obtain ⟨more, hout, hprefix, hset⟩ := h a items s₁ s' out hr
    refine ⟨more, hout, hprefix, fun set set' hbefore hmore => ?_⟩
    rw [bind_apply, hm]
    exact hset set set' hbefore hmore

theorem bind (h : Collects step) (hnext : Collects next) : Collects fun out => step out >>= next := by
  intro items s s' out hr
  dsimp only at hr ⊢
  rw [bind_apply] at hr
  cases hm : step (.list items) s with
  | error e s₁ =>
    rw [hm] at hr
    cases hr
  | ok out₁ s₁ =>
    rw [hm] at hr
    obtain ⟨some, rfl, hsome, set₁⟩ := h items s s₁ out₁ hm
    obtain ⟨more, hout, hmore, set₂⟩ := hnext some s₁ s' out hr
    refine ⟨more, hout, hsome.trans hmore, fun set set' hset hset' => ?_⟩
    -- the items in between are among the last ones, so they can be hashed, too
    obtain ⟨between, hbetween⟩ := KeySet.ofList_of_prefix hmore hset'
    rw [bind_apply, set₁ set between hset hbetween]
    exact set₂ between set' hbetween hset'

theorem ite {holds : Bool} (h : Collects step) (hnext : Collects next) :
    Collects fun out => if holds then step out else next out := by
  cases holds with
  | true => exact h
  | false => exact hnext

theorem inScope (kind : ScopeKind) (parent : Option ScopeRef) (h : Collects step) :
    Collects fun out => Eval.inScope kind parent (step out) := by
  refine behind fun s₀ => behind fun _ items s s' out hr => ?_
  simp only [ensuring] at hr
  cases hm : step (.list items) s with
  | error e s₁ =>
    rw [hm] at hr
    cases hr
  | ok out₁ s₁ =>
    rw [hm] at hr
    cases hr
    obtain ⟨more, hout, hprefix, hset⟩ := h items s s₁ out hm
    refine ⟨more, hout, hprefix, fun set set' hbefore hmore => ?_⟩
    simp only [ensuring, hset set set' hbefore hmore]

/-- Item by item, by induction on how many are left. -/
theorem foldFrom {items : Items} {step : Collection → Value → Eval Collection}
    (h : ∀ item, Collects (step · item)) :
    ∀ left position, Collects fun out => Eval.foldFrom items step out position left
  | 0, _ => pure
  | left + 1, position => (h (items.item position)).bind (foldFrom h left (position + 1))

/-- An element is pushed to the list and put in the set. -/
theorem element (v : Visit) (element : Expr) : Collects (collectElement v element) := by
  refine behind fun value items s s' out h => ?_
  cases h
  refine ⟨items.push value, rfl, by simp, fun set set' hset hset' => ?_⟩
  rw [Array.toList_push, KeySet.ofList_push hset] at hset'
  simp only [hset']
  rfl

/-- The quota on containers lets a set pass where it lets the list of its items pass. -/
theorem checked (sb : Sandbox) :
    Collects fun out => (do
      sb.limits.size.checkContainer out.size
      Pure.pure out) := by
  have passed (out : Collection) (s : RunState) (hle : out.size ≤ sb.limits.size.maxContainerSize) :
      (do
        sb.limits.size.checkContainer out.size
        Pure.pure out : Eval Collection) s = .ok out s := by
    rw [SizeLimits.checkContainer_of_le hle]
    rfl
  intro items s s' out h
  dsimp only at h ⊢
  -- the list has passed, and inserting its items makes no more of them
  have hle : items.size ≤ sb.limits.size.maxContainerSize := by
    by_contra hlt
    rw [bind_apply] at h
    simp only [Collection.size, SizeLimits.checkContainer_of_lt (Nat.lt_of_not_le hlt)] at h
    cases h
  rw [passed (.list items) s hle] at h
  cases h
  refine ⟨items, rfl, List.prefix_rfl, fun set set' hset hset' => ?_⟩
  rw [hset] at hset'
  cases hset'
  have hsize : set.size ≤ items.size := by simpa using KeySet.size_ofList_le hset
  exact passed (.set set) s (Nat.le_trans hsize hle)

/-- A clause and those behind it, by induction on these. -/
theorem runClause {sb : Sandbox} {v : Visit} {collect : Collection → Eval Collection}
    (h : Collects collect) : ∀ (rest : List Comprehension) (clause : Comprehension) (source : Value),
      Collects fun out => Eval.runClause sb v collect clause source out rest
  | [], clause, source => by
    refine behind fun items => foldFrom (fun item => ?_) items.size 0
    exact behind fun _ => behind fun _ => behind fun holds => (h.bind (checked sb)).ite pure
  | next :: rest, clause, source => by
    refine behind fun items => foldFrom (fun item => ?_) items.size 0
    refine behind fun _ => behind fun _ => behind fun holds => ite ?_ pure
    exact behind fun source => runClause h rest next source

end Eval.Collects

/-! ## Comprehensions -/

namespace Eval

variable {sb : Sandbox} {v : Visit} {element : Expr} {clauses : List Comprehension}
  {s s₁ : RunState} {value : Value}

/-- The state behind an evaluation that has made a new container. -/
def stored (s : RunState) (store : Store) : RunState := { s with store }

theorem comprehend_collected
    (h : comprehend sb v (collectElement v element) (.list #[]) clauses s = .ok value s₁) :
    ∃ (items : Array Value) (s₀ : RunState), value = .list (s₀.store.addList items).1 ∧
      s₁ = stored s₀ (s₀.store.addList items).2 ∧
      ∀ set, KeySet.ofList items.toList = .ok set →
        comprehend sb v (collectElement v element) (.set .empty) clauses s =
          .ok (.set (s₀.store.addSet set).1) (stored s₀ (s₀.store.addSet set).2) := by
  cases clauses with
  | nil => cases h
  | cons first rest =>
    -- everything up to the making of the container
    have collects : Collects fun out => v.expr first.iter >>= fun source => currentScope >>=
        fun parent => inScope .comprehension parent
          (runClause sb v (collectElement v element) first source out rest) :=
      .behind fun source => .behind fun parent =>
        .inScope _ _ (.runClause (.element v element) rest first source)
    have split (out : Collection) :
        comprehend sb v (collectElement v element) out (first :: rest) =
          ((v.expr first.iter >>= fun source => currentScope >>= fun parent =>
            inScope .comprehension parent
              (runClause sb v (collectElement v element) first source out rest)) >>=
            fun out => onStore out.toValue) := by
      simp only [bind_assoc]
      rfl
    rw [split, bind_apply] at h
    generalize hr : (v.expr first.iter >>= _ : Eval Collection) s = r at h
    cases r with
    | error e s₀ => cases h
    | ok out s₀ =>
      obtain ⟨items, rfl, -, hset⟩ := collects #[] s s₀ out hr
      cases h
      refine ⟨items, s₀, rfl, rfl, fun set hitems => ?_⟩
      have hrun := hset .empty set rfl hitems
      dsimp only at hrun
      rw [split, bind_apply, hrun]
      rfl

end Eval

/-- Where a list comprehension gives a value, this is a new list. If all its items can be hashed, the
set comprehension of the same element and clauses gives from the same state a new set, made by
inserting the items in order, and whatever else the evaluations have done is the same: they end in one
state but for the new container. -/
theorem setComp_refines_listComp (sb : Sandbox) (element : Expr) (clauses : List Comprehension)
    (span span' : Span) {s s₁ : RunState} {value : Value}
    (h : expr sb ⟨.listComp element clauses, span⟩ s = .ok value s₁) :
    ∃ (items : Array Value) (s₀ : RunState),
      value = .list (s₀.store.addList items).1 ∧ s₁ = stored s₀ (s₀.store.addList items).2 ∧
      s₁.store.list (s₀.store.addList items).1 = items ∧
      ((∀ x ∈ items, ∃ k, Key.ofValue x = .ok k) → ∃ set, KeySet.ofList items.toList = .ok set ∧
        expr sb ⟨.setComp element clauses, span'⟩ s =
          .ok (.set (s₀.store.addSet set).1) (stored s₀ (s₀.store.addSet set).2)) := by
  rw [expr_eq, located_ok, bind_apply] at h
  generalize htick : onGuard (Guard.tick sb.limits sb.clock) s = ticked at h
  cases ticked with
  | error e s' => cases h
  | ok _ s' =>
    obtain ⟨items, s₀, hvalue, hs₁, hset⟩ := comprehend_collected h
    refine ⟨items, s₀, hvalue, hs₁, ?_, fun hkeys => ?_⟩
    · rw [hs₁]
      exact Store.list_addList items
    · obtain ⟨set, hitems⟩ := KeySet.exists_ofList fun x hx => hkeys x (Array.mem_toList_iff.1 hx)
      refine ⟨set, hitems, ?_⟩
      rw [expr_eq, located_ok, bind_apply, htick]
      exact hset set hitems

/-! ### An item that shares its key with one before -/

/-- The clause `for x in [1, True, 2]`. -/
def overOneAndTrue : Comprehension :=
  ⟨Syntax.Build.name "x",
    Syntax.Build.list [Syntax.Build.int 1, Syntax.Build.boolean true, Syntax.Build.int 2], []⟩

/-- The set of the items keeps the `1` that came first. -/
theorem ofList_oneAndTrue : ∃ set, KeySet.ofList [.int 1, .bool true, .int 2] = .ok set ∧
    set.toList = [.int 1, .int 2] := by
  have one : (KeySet.empty.insertByKey (.int 1) (.int 1)).table.toList = [(.int 1, .int 1)] :=
    KeySet.table_singleton _ _
  have same : (KeySet.empty.insertByKey (.int 1) (.int 1)).insertByKey (.int 1) (.bool true) =
      KeySet.empty.insertByKey (.int 1) (.int 1) :=
    congrArg KeySet.mk (Table.insertNew_of_contains (by rw [Table.contains_eq_any, one]; rfl) _)
  refine ⟨(KeySet.empty.insertByKey (.int 1) (.int 1)).insertByKey (.int 2) (.int 2), ?_, ?_⟩
  · rw [← same]
    rfl
  · have absent : (KeySet.empty.insertByKey (.int 1) (.int 1)).table.contains (.int 2) = false := by
      rw [Table.contains_eq_any, one]
      rfl
    rw [KeySet.toList, KeySet.insertByKey, Table.toList_insertNew absent, one]
    rfl

theorem same_int_iff {v : Value} {n : Int64} : v.same (.int n) = true ↔ v = .int n := by
  cases v <;> simp [Value.same]

theorem same_bool_iff {v : Value} {b : Bool} : v.same (.bool b) = true ↔ v = .bool b := by
  cases v <;> simp [Value.same]

theorem same_list_iff {v : Value} {r : ListRef} : v.same (.list r) = true ↔ v = .list r := by
  cases v <;> simp [Value.same]

theorem oneTrueTwo_of_same {items : List Value}
    (h : items.isEqv [.int 1, .bool true, .int 2] Value.same = true) :
    items = [.int 1, .bool true, .int 2] := by
  rcases items with _ | ⟨a, _ | ⟨b, _ | ⟨c, _ | ⟨d, rest⟩⟩⟩⟩ <;>
    simp_all [List.isEqv, same_int_iff, same_bool_iff]

/-- `[x for x in [1, True, 2]]` runs three rounds and files the list of the items after the one it
walks. -/
theorem overOneAndTrue_listed : ∃ s,
    expr unaided (Syntax.Build.listComp (Syntax.Build.name "x") [overOneAndTrue]) (.start .empty) =
      .ok (.list ⟨1⟩) s ∧ (s.store.list ⟨1⟩).toList = [.int 1, .bool true, .int 2] ∧
    s.guard.loops = 3 ∧ s.store.lists.size = 2 ∧ s.store.sets.size = 0 := by
  generalize hm : expr unaided (Syntax.Build.listComp (Syntax.Build.name "x") [overOneAndTrue]) = m
  -- whether values are equal is not decided, but whether they are the same
  have hvalue : (m.run' (.start .empty)).any (Value.same · (.list ⟨1⟩)) = true := by
    subst hm
    decide +kernel
  have hafter : ((m.after (.start .empty)).store.list ⟨1⟩).toList.isEqv
        [.int 1, .bool true, .int 2] Value.same = true ∧
      (m.after (.start .empty)).guard.loops = 3 ∧ (m.after (.start .empty)).store.lists.size = 2 ∧
      (m.after (.start .empty)).store.sets.size = 0 := by
    subst hm
    decide +kernel
  unfold EStateM.run' EStateM.run at hvalue
  unfold Eval.after at hafter
  cases hrun : m (.start .empty) with
  | error e s =>
    rw [hrun] at hvalue
    cases hvalue
  | ok v s =>
    rw [hrun] at hvalue hafter
    obtain ⟨hitems, hcounts⟩ := hafter
    obtain rfl := same_list_iff.1 hvalue
    exact ⟨s, rfl, oneTrueTwo_of_same hitems, hcounts⟩

/-- `[x for x in [1, True, 2]]` gives a list of three items, and `{x for x in [1, True, 2]}` the set of
`1` and `2` in a state that has counted the same steps and rounds. -/
theorem overOneAndTrue_refined : ∃ (s₀ : RunState) (set : KeySet),
    expr unaided (Syntax.Build.listComp (Syntax.Build.name "x") [overOneAndTrue]) (.start .empty) =
      .ok (.list ⟨1⟩) (stored s₀ (s₀.store.addList #[.int 1, .bool true, .int 2]).2) ∧
    expr unaided (Syntax.Build.setComp (Syntax.Build.name "x") [overOneAndTrue]) (.start .empty) =
      .ok (.set ⟨0⟩) (stored s₀ (s₀.store.addSet set).2) ∧
    set.toList = [.int 1, .int 2] ∧ s₀.guard.loops = 3 := by
  -- the set comprehension is not run: its table is what the theorem says
  obtain ⟨s₁, h, hlist, hloops, hlists, hsets⟩ := overOneAndTrue_listed
  obtain ⟨items, s₀, hvalue, rfl, hitems, hset⟩ := setComp_refines_listComp unaided
    (Syntax.Build.name "x") [overOneAndTrue] .dummy .dummy h
  have hitems : items = #[.int 1, .bool true, .int 2] := by
    rw [← hitems, ← Value.list.inj hvalue, ← hlist, Array.toArray_toList]
  subst hitems
  obtain ⟨set, hset, hrun⟩ := hset fun x hx => by
    simp only [List.mem_toArray, List.mem_cons, List.not_mem_nil, or_false] at hx
    rcases hx with rfl | rfl | rfl <;> exact ⟨_, rfl⟩
  refine ⟨s₀, set, h, ?_, ?_, hloops⟩
  · have href : (s₀.store.addSet set).1 = ⟨0⟩ := congrArg SetRef.mk hsets
    rw [← href]
    exact hrun
  · obtain ⟨set', hset', hlist'⟩ := ofList_oneAndTrue
    rw [hset'] at hset
    cases hset
    exact hlist'

end ScriptSandbox

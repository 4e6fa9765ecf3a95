import ScriptSandbox.Operator.Comparison
import ScriptSandbox.Operator.Unary
import ScriptSandbox.Proofs.Norm.Container

/-!
# Norms: comparisons

Equality, order, membership and sorting fail only where values cannot be compared or hashed, and a
list that is sorted holds the items it held before.
-/

namespace ScriptSandbox.Norm

variable {l : Limits} {N : Norm l} {s : Store}

/-! ## Equality -/

theorem firstPosition {test : Nat → Except Error Bool}
    (h : ∀ i, N.Holds (fun _ => True) (test i)) :
    ∀ left position, N.Holds (fun _ => True) (firstPosition test position left)
  | 0, _ => True.intro
  | left + 1, position => by
    have hi := h position
    rw [ScriptSandbox.firstPosition]
    split
    · exact True.intro
    · exact firstPosition h left (position + 1)
    · rename_i e he
      rw [he] at hi
      exact hi

theorem firstDifference {equal : Value → Value → Except Error Bool}
    (h : ∀ a b, N.Holds (fun _ => True) (equal a b)) (xs ys : Array Value) :
    N.Holds (fun _ => True) (firstDifference equal xs ys) :=
  firstPosition (fun _ => (h _ _).map fun _ _ => True.intro) _ _

theorem sequencesEqual {equal : Value → Value → Except Error Bool}
    (h : ∀ a b, N.Holds (fun _ => True) (equal a b)) (xs ys : Array Value) :
    N.Holds (fun _ => True) (sequencesEqual equal xs ys) := by
  unfold ScriptSandbox.sequencesEqual
  split
  · exact (firstDifference h xs ys).map fun _ _ => True.intro
  · exact True.intro

theorem allPass {α : Type} {test : Key → α → Except Error Bool}
    (h : ∀ k a, N.Holds (fun _ => True) (test k a)) (t : Table α) :
    N.Holds (fun _ => True) (t.allPass test) := by
  refine (firstPosition (fun i => ?_) _ _).map fun _ _ => True.intro
  split
  · exact (h _ _).map fun _ _ => True.intro
  · exact True.intro

theorem equalBy {equal : Value → Value → Except Error Bool}
    (h : ∀ a b, N.Holds (fun _ => True) (equal a b)) (d e : Dict) :
    N.Holds (fun _ => True) (d.equalBy equal e) := by
  unfold Dict.equalBy
  split
  · refine allPass (fun k entry => ?_) _
    split
    · exact True.intro
    · exact h _ _
  · exact True.intro

theorem equalWithin : ∀ (levels : Nat) (a b : Value),
    N.Holds (fun _ => True) (s.equalWithin levels a b)
  | 0, _, _ => Holds.plain rfl
  | levels + 1, a, b => by
    unfold Store.equalWithin
    split
    case h_4 | h_5 =>
      split
      · exact True.intro
      · exact sequencesEqual (equalWithin levels) _ _
    case h_6 =>
      split
      · exact True.intro
      · exact equalBy (equalWithin levels) _ _
    case h_13 => split <;> exact True.intro
    all_goals exact True.intro

theorem equal (a b : Value) : N.Holds (fun _ => True) (s.equal a b) := equalWithin _ a b

theorem position? (items : Array Value) (value : Value) :
    N.Holds (fun _ => True) (s.position? items value) := firstPosition (fun _ => equal _ _) _ _

/-! ## Order -/

theorem orderWithin : ∀ (levels : Nat) (a b : Value),
    N.Holds (fun _ => True) (s.orderWithin levels a b)
  | 0, _, _ => Holds.plain rfl
  | levels + 1, a, b => by
    -- items are compared one level down, after the first two that differ
    have sequences : ∀ xs ys, N.Holds (fun _ => True)
        (sequenceOrder s.equal (s.orderWithin levels) xs ys) := by
      intro xs ys
      have hd := firstDifference (N := N) (equal (s := s)) xs ys
      unfold sequenceOrder
      split
      · exact orderWithin levels _ _
      · exact True.intro
      · rename_i e he
        rw [he] at hd
        exact hd
    unfold Store.orderWithin
    split
    · exact True.intro
    · exact True.intro
    · split
      · exact True.intro
      · exact sequences _ _
    · exact sequences _ _
    · split
      · exact True.intro
      · exact Holds.plain rfl

theorem order (a b : Value) : N.Holds (fun _ => True) (s.order a b) := orderWithin _ a b

theorem contains (container item : Value) : N.Holds (fun _ => True) (s.contains container item) := by
  unfold Store.contains
  split
  · split
    · exact True.intro
    · exact Holds.plain rfl
  · exact (position? _ _).map fun _ _ => True.intro
  · exact (position? _ _).map fun _ _ => True.intro
  · exact (key_holds item).map fun _ _ => True.intro
  · exact (key_holds item).map fun _ _ => True.intro
  · split <;> exact True.intro
  · exact Holds.plain rfl

/-! ## Sorting -/

section Sorting

variable {isBefore : Value → Value → Except Error Bool}
  (h : ∀ a b, N.Holds (fun _ => True) (isBefore a b))

include h

theorem mergeSorted (merged left right : List Value) :
    N.Holds (fun _ => True) (mergeSorted isBefore merged left right) := by
  fun_induction ScriptSandbox.mergeSorted isBefore merged left right with
  | case1 | case2 => exact True.intro
  | case3 merged x left y right hb ih => exact ih
  | case4 merged x left y right hb ih => exact ih
  | case5 merged x left y right e he =>
    have := h y x
    rw [he] at this
    exact this

theorem sortFirst (n : Nat) (items : List Value) :
    N.Holds (fun _ => True) (sortFirst isBefore n items) := by
  fun_induction ScriptSandbox.sortFirst isBefore n items with
  | case1 => exact True.intro
  | case2 n items _ ih₁ ih₂ =>
    refine ih₁.bind fun half _ => ?_
    obtain ⟨left, rest⟩ := half
    refine (ih₂ rest).bind fun half _ => ?_
    obtain ⟨right, rest⟩ := half
    exact (mergeSorted h [] left right).bind fun _ _ => True.intro

theorem sortBy (items : List Value) :
    N.Holds (fun sorted => sorted.Perm items) (sortBy isBefore items) :=
  ((sortFirst h _ _).map fun _ _ => True.intro).and fun _ => perm_of_sortBy

end Sorting

theorem isBefore (a b : Value) : N.Holds (fun _ => True) (s.isBefore a b) := by
  have ho := order (N := N) (s := s) a b
  unfold Store.isBefore
  split
  · exact True.intro
  · exact True.intro
  · rename_i e he
    rw [he] at ho
    exact ho

theorem sort (items : List Value) (descending : Bool) :
    N.Holds (fun sorted => sorted.Perm items) (s.sort items descending) := by
  unfold Store.sort
  split
  · refine (sortBy isBefore items.reverse).map fun sorted h => ?_
    exact (List.reverse_perm sorted).trans (h.trans (List.reverse_perm items))
  · exact sortBy isBefore items

/-! ## Operators -/

theorem compare (op : CompareOp) (left right : Value) :
    N.Holds (fun _ => True) (Operator.compare s op left right) := by
  have ordered : ∀ op : CompareOp, N.Holds (fun _ => True) (Operator.ordering s op left right) := by
    intro op
    have ho := order (N := N) (s := s) left right
    unfold Operator.ordering
    split
    · exact True.intro
    · split
      · exact True.intro
      · exact True.intro
      · rename_i e he
        rw [he] at ho
        split
        · exact Holds.plain rfl
        · exact ho
  cases op with
  | eq => exact equal left right
  | notEq => exact (equal left right).map fun _ _ => True.intro
  | is | isNot => exact True.intro
  | «in» => exact contains right left
  | notIn => exact (contains right left).map fun _ _ => True.intro
  | _ => exact ordered _

theorem fitting (operation : String) (n : Option Int64) :
    N.Holds N.good (Arithmetic.fitting operation n) := by
  cases n with
  | none => exact Holds.plain rfl
  | some n => exact N.good_data _ rfl

theorem unary (op : UnaryOp) (operand : Value) :
    N.Holds N.good (Operator.unary s op operand) := by
  unfold Operator.unary
  split
  · exact N.good_data _ rfl
  · exact N.good_data _ rfl
  · exact N.good_data _ rfl
  · split
    · exact Holds.plain rfl
    · split
      · exact fitting _ _
      · exact N.good_data _ rfl
      · exact N.good_data _ rfl

end ScriptSandbox.Norm

import ScriptSandbox.Operator.Comparison
import ScriptSandbox.Operator.Unary
import ScriptSandbox.Value.Items
import ScriptSandbox.Value.Render

/-!
# Fresh errors

An error that an operation on values ends in has passed no call yet, and no such operation refuses a
call for the depth of calls. This is shown operation by operation, here for those that only look at
the store and in the modules of this directory for the others; what a host adds has to be like this,
too (`Host.Fresh`). So whatever an error says of calls it has gathered behind the operation.
-/

namespace ScriptSandbox

/-- The kind of error that a call has been refused with. -/
def ErrorKind.refusesCall : ErrorKind → Bool
  | .limitExceeded .callDepth _ => true
  | _ => false

/-- An error that has passed no call, and that no call was refused with. -/
structure Error.Fresh (e : Error) : Prop where
  passed : e.passed = []
  kind : e.kind.refusesCall = false

/-- A result that is no error unless a fresh one. -/
def Fresh {α : Type} (x : Except Error α) : Prop := ∀ e, x = .error e → e.Fresh

namespace Fresh

variable {α β : Type} {x : Except Error α} {s : Store}

theorem ok (a : α) : Fresh (.ok a) := nofun

theorem error {e : Error} (h : e.Fresh) : Fresh (.error e : Except Error α) := by
  rintro _ ⟨⟩
  exact h

theorem bind {f : α → Except Error β} (h : Fresh x) (hf : ∀ a, Fresh (f a)) : Fresh (x >>= f) := by
  cases x with
  | ok a => exact hf a
  | error e =>
    rintro _ ⟨⟩
    exact h e rfl

theorem map {f : α → β} (h : Fresh x) : Fresh (x.map f) := by
  cases x with
  | ok a => exact ok _
  | error e =>
    rintro _ ⟨⟩
    exact h e rfl

theorem ite {c : Prop} [Decidable c] {y : Except Error α} (hx : Fresh x) (hy : Fresh y) :
    Fresh (if c then x else y) := by
  split
  · exact hx
  · exact hy

theorem mapM {f : α → Except Error β} (h : ∀ a, Fresh (f a)) : ∀ xs : List α, Fresh (xs.mapM f)
  | [] => ok _
  | x :: xs => by
    rw [List.mapM_cons]
    exact (h x).bind fun _ => (mapM h xs).bind fun _ => ok _

/-- An error that is passed on as it is. -/
theorem again {e : Error} (h : Fresh x) (he : x = .error e) : Fresh (.error e : Except Error β) :=
  error (h e he)

/-! ## Quotas -/

theorem checkString (l : SizeLimits) (n : Nat) : Fresh (l.checkString n) :=
  ite (error ⟨rfl, rfl⟩) (ok _)

theorem checkContainer (l : SizeLimits) (n : Nat) : Fresh (l.checkContainer n) :=
  ite (error ⟨rfl, rfl⟩) (ok _)

theorem checkIterable (l : SizeLimits) (v : Value) : Fresh (l.checkIterable v) := by
  cases v with
  | range r => exact checkContainer l _
  | _ => exact ok _

/-! ## Keys -/

mutual

theorem key : ∀ v : Value, Fresh (Key.ofValue v)
  | .tuple _ ⟨items⟩ => by
    rw [Key.ofValue]
    exact (keys items).map
  | .null | .bool _ | .int _ | .float _ | .str _ => by
    rw [Key.ofValue]
    exact ok _
  | .list _ | .dict _ | .set _ | .range _ | .function _ | .native _ | .method .. | .object _ => by
    simp only [Key.ofValue]
    exact error ⟨rfl, rfl⟩

theorem keys : ∀ vs : List Value, Fresh (Key.ofValues vs)
  | [] => by
    rw [Key.ofValues]
    exact ok _
  | v :: vs => by
    rw [Key.ofValues]
    exact (key v).bind fun _ => (keys vs).bind fun _ => ok _

end

theorem get? (d : Dict) (k : Value) : Fresh (d.get? k) := (key k).map

theorem insert (d : Dict) (k v : Value) : Fresh (d.insert k v) := (key k).map

theorem insertAll : ∀ (d : Dict) (pairs : List (Value × Value)), Fresh (d.insertAll pairs)
  | d, [] => ok _
  | d, (k, v) :: rest => by
    rw [Dict.insertAll]
    split
    · exact insertAll _ rest
    · exact (insert d k v).again ‹_›

theorem ofPairs (pairs : List (Value × Value)) : Fresh (Dict.ofPairs pairs) := insertAll _ pairs

theorem setInsert (s : KeySet) (v : Value) : Fresh (s.insert v) := (key v).map

theorem setInsertAll : ∀ (s : KeySet) (vs : List Value), Fresh (s.insertAll vs)
  | s, [] => ok _
  | s, v :: rest => by
    rw [KeySet.insertAll]
    split
    · exact setInsertAll _ rest
    · exact (setInsert s v).again ‹_›

theorem ofList (vs : List Value) : Fresh (KeySet.ofList vs) := setInsertAll _ vs

/-! ## Equality -/

theorem firstPosition {test : Nat → Except Error Bool} (h : ∀ i, Fresh (test i)) :
    ∀ left position, Fresh (firstPosition test position left)
  | 0, _ => ok _
  | left + 1, position => by
    rw [ScriptSandbox.firstPosition]
    split
    · exact ok _
    · exact firstPosition h left (position + 1)
    · exact (h position).again ‹_›

theorem firstDifference {equal : Value → Value → Except Error Bool} (h : ∀ a b, Fresh (equal a b))
    (xs ys : Array Value) : Fresh (firstDifference equal xs ys) :=
  firstPosition (fun _ => (h _ _).map) _ _

theorem sequencesEqual {equal : Value → Value → Except Error Bool} (h : ∀ a b, Fresh (equal a b))
    (xs ys : Array Value) : Fresh (sequencesEqual equal xs ys) :=
  ite (firstDifference h xs ys).map (ok _)

theorem equalBy {equal : Value → Value → Except Error Bool} (h : ∀ a b, Fresh (equal a b))
    (d e : Dict) : Fresh (d.equalBy equal e) := by
  refine ite (map (firstPosition (fun i => ?_) _ _)) (ok _)
  split
  · refine map ?_
    dsimp only
    split
    · exact ok _
    · exact h _ _
  · exact ok _

theorem equalWithin : ∀ (levels : Nat) (a b : Value), Fresh (s.equalWithin levels a b)
  | 0, _, _ => error ⟨rfl, rfl⟩
  | levels + 1, a, b => by
    unfold Store.equalWithin
    split
    case h_4 | h_5 => exact ite (ok _) (sequencesEqual (equalWithin levels) _ _)
    case h_6 => exact ite (ok _) (equalBy (equalWithin levels) _ _)
    case h_13 => split <;> exact ok _
    all_goals exact ok _

theorem equal (a b : Value) : Fresh (s.equal a b) := equalWithin _ a b

theorem position? (items : Array Value) (v : Value) : Fresh (s.position? items v) :=
  firstPosition (fun _ => equal _ _) _ _

/-! ## Order -/

theorem sequenceOrder {order : Value → Value → Except Error (Option Ordering)}
    (h : ∀ a b, Fresh (order a b)) (xs ys : Array Value) :
    Fresh (sequenceOrder s.equal order xs ys) := by
  unfold ScriptSandbox.sequenceOrder
  split
  · exact h _ _
  · exact ok _
  · exact (firstDifference equal xs ys).again ‹_›

theorem orderWithin : ∀ (levels : Nat) (a b : Value), Fresh (s.orderWithin levels a b)
  | 0, _, _ => error ⟨rfl, rfl⟩
  | levels + 1, a, b => by
    unfold Store.orderWithin
    split
    · exact ok _
    · exact ok _
    · exact ite (ok _) (sequenceOrder (orderWithin levels) _ _)
    · exact sequenceOrder (orderWithin levels) _ _
    · split
      · exact ok _
      · exact error ⟨rfl, rfl⟩

theorem order (a b : Value) : Fresh (s.order a b) := orderWithin _ a b

theorem contains (container item : Value) : Fresh (s.contains container item) := by
  unfold Store.contains
  split
  · split
    · exact ok _
    · exact error ⟨rfl, rfl⟩
  · exact (position? _ _).map
  · exact (position? _ _).map
  · exact (key item).map
  · exact (key item).map
  · split <;> exact ok _
  · exact error ⟨rfl, rfl⟩

theorem isBefore (a b : Value) : Fresh (s.isBefore a b) := by
  unfold Store.isBefore
  split
  · exact ok _
  · exact ok _
  · exact (order a b).again ‹_›

theorem mergeSorted (merged left right : List Value) :
    Fresh (mergeSorted s.isBefore merged left right) := by
  fun_induction ScriptSandbox.mergeSorted s.isBefore merged left right with
  | case1 | case2 => exact ok _
  | case3 merged x left y right hb ih => exact ih
  | case4 merged x left y right hb ih => exact ih
  | case5 merged x left y right e he => exact (isBefore y x).again he

theorem sortFirst (n : Nat) (items : List Value) : Fresh (sortFirst s.isBefore n items) := by
  fun_induction ScriptSandbox.sortFirst s.isBefore n items with
  | case1 => exact ok _
  | case2 n items _ ih₁ ih₂ =>
    exact ih₁.bind fun half => (ih₂ half.2).bind fun _ => (mergeSorted _ _ _).bind fun _ => ok _

theorem sort (items : List Value) (descending : Bool) : Fresh (s.sort items descending) :=
  ite (sortFirst _ _).map.map (sortFirst _ _).map

/-! ## Items and texts -/

theorem iterate (v : Value) : Fresh (s.iterate v) := by
  unfold Store.iterate
  split
  case h_7 => exact error ⟨rfl, rfl⟩
  all_goals exact ok _

theorem pairAt (position : Nat) (item : Value) : Fresh (s.pairAt position item) := by
  refine (iterate item).bind fun parts => ?_
  split
  · exact ok _
  · exact error ⟨rfl, rfl⟩

theorem pairsFrom : ∀ (position : Nat) (found : List (Value × Value)) (items : List Value),
    Fresh (s.pairsFrom position found items)
  | _, _, [] => ok _
  | position, found, item :: rest => by
    rw [Store.pairsFrom]
    split
    · exact pairsFrom _ _ rest
    · exact (pairAt position item).again ‹_›

theorem pairs (v : Value) : Fresh (s.pairs v) := by
  unfold Store.pairs
  split
  · exact ok _
  · exact pairsFrom _ _ _
  · exact (iterate _).bind fun _ => pairsFrom _ _ _

theorem repr (budget : Nat) (v : Value) : Fresh (s.repr budget v) := by
  unfold Store.repr
  split
  · exact ok _
  · exact error ⟨rfl, rfl⟩

theorem text (budget : Nat) (v : Value) : Fresh (s.text budget v) := by
  unfold Store.text
  split
  · exact ite (error ⟨rfl, rfl⟩) (ok _)
  · exact repr _ _

/-! ## Operators -/

theorem compare (op : CompareOp) (a b : Value) : Fresh (Operator.compare s op a b) := by
  have ordering : ∀ op : CompareOp, Fresh (Operator.ordering s op a b) := by
    intro op
    unfold Operator.ordering
    split
    · exact ok _
    · split
      · exact ok _
      · exact ok _
      · split
        · exact error ⟨rfl, rfl⟩
        · exact (order a b).again ‹_›
  cases op with
  | eq => exact equal a b
  | notEq => exact (equal a b).map
  | is | isNot => exact ok _
  | «in» => exact contains b a
  | notIn => exact (contains b a).map
  | _ => exact ordering _

theorem fitting (operation : String) (n : Option Int64) : Fresh (Arithmetic.fitting operation n) := by
  cases n with
  | none => exact error ⟨rfl, rfl⟩
  | some n => exact ok _

theorem unary (op : UnaryOp) (v : Value) : Fresh (Operator.unary s op v) := by
  unfold Operator.unary
  split
  · exact ok _
  · exact ok _
  · exact ok _
  · split
    · exact error ⟨rfl, rfl⟩
    · split
      · exact fitting _ _
      · exact ok _
      · exact ok _

end Fresh

end ScriptSandbox

import ScriptSandbox.Value.Equality
import ScriptSandbox.Text.Search
/-!
The order of values: numbers by value, texts by code point, lists with lists and tuples with tuples
by their first difference. Other pairs have no order, and neither has anything that is not a
number; sets are ordered by inclusion, but only by the comparison operators. Sorting is stable in
both directions. Main statement: it keeps every item (`perm_of_sortBy`).
-/

namespace ScriptSandbox

def textOrder (a b : String) : Ordering :=
  if a < b then .lt else if a = b then .eq else .gt

/-- Two sequences are ordered as the first pair of items that are not equal, or by length. -/
def sequenceOrder (equal : Value → Value → Except Error Bool)
    (order : Value → Value → Except Error (Option Ordering))
    (xs ys : Array Value) : Except Error (Option Ordering) :=
  match firstDifference equal xs ys with
  | .ok (some i) => order (xs.getD i .null) (ys.getD i .null)
  | .ok none => .ok (some (compare xs.size ys.size))
  | .error e => .error e

namespace Store

/-- The order of values that may still nest `levels` deep; none when a value that is not a number
is involved. -/
def orderWithin (s : Store) : Nat → Value → Value → Except Error (Option Ordering)
  | 0, _, _ => .error .comparisonTooDeep
  | levels + 1, a, b =>
    match a, b with
    | .int a, .int b => .ok (some (compare a b))
    | .str a, .str b => .ok (some (textOrder a b))
    | .list a, .list b =>
      if a = b then .ok (some .eq)
      else sequenceOrder s.equal (s.orderWithin levels) (s.list a) (s.list b)
    -- a tuple is compared item by item even with itself
    | .tuple _ a, .tuple _ b => sequenceOrder s.equal (s.orderWithin levels) a b
    | a, b =>
      match a.toNumber?, b.toNumber? with
      | some x, some y => .ok (x.order y)
      | _, _ => .error (.notOrderable CompareOp.lt.symbol a b)

/-- The order of values (§10.7). -/
def order (s : Store) : Value → Value → Except Error (Option Ordering) :=
  s.orderWithin (maxCompareDepth + 1)

/-- Whether a container holds an item; a text holds the texts that occur in it (§10.7). -/
def contains (s : Store) (container item : Value) : Except Error Bool :=
  match container with
  | .str text =>
    match item with
    | .str needle => .ok (Text.contains text needle)
    | _ => .error (.needsStringOperand item)
  | .list r => (s.position? (s.list r) item).map (·.isSome)
  | .tuple _ items => (s.position? items item).map (·.isSome)
  | .dict r => (s.dict r).contains item
  | .set r => (s.set r).contains item
  | .range r =>
    match item with
    | .float x => .ok (x.isIntegral && r.contains (Integer.saturate x.truncate))
    | _ => .ok (item.toInt?.any r.contains)
  | _ => .error (.notSearchable container)

end Store

/-- Merges two sorted lists behind the items already merged, which are held in reverse. The right
list's item is taken only when it is strictly before the left one's. -/
def mergeSorted (isBefore : Value → Value → Except Error Bool) (merged : List Value) :
    List Value → List Value → Except Error (List Value)
  | [], right => .ok (merged.reverseAux right)
  | left, [] => .ok (merged.reverseAux left)
  | x :: left, y :: right =>
    match isBefore y x with
    | .ok true => mergeSorted isBefore (y :: merged) (x :: left) right
    | .ok false => mergeSorted isBefore (x :: merged) left (y :: right)
    | .error e => .error e
termination_by left right => left.length + right.length

/-- Sorts the first `n` of some items by halves, of which the left one is the shorter, and gives
the items behind them as well. -/
def sortFirst (isBefore : Value → Value → Except Error Bool) (n : Nat) (items : List Value) :
    Except Error (List Value × List Value) :=
  if n ≤ 1 then .ok (items.splitAt n)
  else do
    let (left, rest) ← sortFirst isBefore (n / 2) items
    let (right, rest) ← sortFirst isBefore (n - n / 2) rest
    let merged ← mergeSorted isBefore [] left right
    pure (merged, rest)
termination_by n

/-- A merge keeps every item. -/
theorem perm_of_mergeSorted {isBefore : Value → Value → Except Error Bool}
    {merged left right sorted : List Value}
    (h : mergeSorted isBefore merged left right = .ok sorted) :
    sorted.Perm (merged ++ left ++ right) := by
  fun_induction mergeSorted isBefore merged left right with
  | case1 merged right =>
    obtain rfl := Except.ok.inj h
    rw [List.reverseAux_eq, List.append_nil]
    exact (List.reverse_perm merged).append_right right
  | case2 merged left =>
    obtain rfl := Except.ok.inj h
    rw [List.reverseAux_eq, List.append_nil]
    exact (List.reverse_perm merged).append_right left
  | case3 merged x left y right before ih =>
    refine (ih h).trans ?_
    simpa using (@List.perm_middle _ y (merged ++ x :: left) right).symm
  | case4 merged x left y right after ih =>
    refine (ih h).trans ?_
    simpa using (@List.perm_middle _ x merged (left ++ y :: right)).symm
  | case5 => cases h

/-- Sorting the first items keeps them all and leaves the rest as it is. -/
theorem perm_of_sortFirst {isBefore : Value → Value → Except Error Bool} {n : Nat}
    {items sorted rest : List Value} (h : sortFirst isBefore n items = .ok (sorted, rest)) :
    sorted.Perm (items.take n) ∧ rest = items.drop n := by
  fun_induction sortFirst isBefore n items generalizing sorted rest with
  | case1 n items =>
    simp only [List.splitAt_eq, Except.ok.injEq, Prod.mk.injEq] at h
    exact ⟨h.1 ▸ .refl _, h.2.symm⟩
  | case2 n items large ih₁ ih₂ =>
    match h₁ : sortFirst isBefore (n / 2) items with
    | .error e => simp [h₁, bind, Except.bind] at h
    | .ok (left, behind) =>
      obtain ⟨perm₁, rfl⟩ := ih₁ h₁
      match h₂ : sortFirst isBefore (n - n / 2) (items.drop (n / 2)) with
      | .error e => simp [h₁, h₂, bind, Except.bind] at h
      | .ok (right, behind) =>
        obtain ⟨perm₂, rfl⟩ := ih₂ _ h₂
        match h₃ : mergeSorted isBefore [] left right with
        | .error e => simp [h₁, h₂, h₃, bind, Except.bind] at h
        | .ok merged =>
          simp only [h₁, h₂, h₃, bind, Except.bind, pure, Except.pure, Except.ok.injEq,
            Prod.mk.injEq] at h
          obtain ⟨rfl, rfl⟩ := h
          have parts : n / 2 + (n - n / 2) = n := by omega
          refine ⟨((perm_of_mergeSorted h₃).trans (perm₁.append perm₂)).trans ?_, ?_⟩
          · rw [← List.take_add, parts]
          · rw [List.drop_drop, parts]

/-- The items in order; a failed comparison fails the whole. -/
def sortBy (isBefore : Value → Value → Except Error Bool) (items : List Value) :
    Except Error (List Value) :=
  (sortFirst isBefore items.length items).map (·.1)

/-- Sorting keeps every item. -/
theorem perm_of_sortBy {isBefore : Value → Value → Except Error Bool} {items sorted : List Value}
    (h : sortBy isBefore items = .ok sorted) : sorted.Perm items := by
  unfold sortBy at h
  match found : sortFirst isBefore items.length items with
  | .error e => simp [found, Except.map] at h
  | .ok (all, rest) =>
    have := (perm_of_sortFirst found).1
    rw [List.take_length] at this
    simp only [found, Except.map, Except.ok.injEq] at h
    exact h ▸ this

namespace Store

/-- Whether a value orders strictly before another; unordered values do not. -/
def isBefore (s : Store) (a b : Value) : Except Error Bool :=
  match s.order a b with
  | .ok (some .lt) => .ok true
  | .ok _ => .ok false
  | .error e => .error e

/-- The items in ascending or descending order. Items that are equal keep their order in both
directions. -/
def sort (s : Store) (items : List Value) (descending : Bool) : Except Error (List Value) :=
  if descending then (sortBy s.isBefore items.reverse).map List.reverse
  else sortBy s.isBefore items

end Store

end ScriptSandbox

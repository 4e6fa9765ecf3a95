import ScriptSandbox.Operator.Binary
import ScriptSandbox.Proofs.Norm.Comparison
import ScriptSandbox.Proofs.Norm.Items
import ScriptSandbox.Proofs.Norm.Store

/-!
# Norms: operators

An operator gives a number, a text, or a new container of items of its operands, and the size of a
new container is checked before it is stored.
-/

namespace ScriptSandbox.Norm

variable {l : Limits} {N : Norm l} {s : Store} {left right : Value}

/-! ## Arithmetic -/

theorem checkPower (base exponent : Binary64) :
    N.Holds (fun _ => True) (Arithmetic.checkPower l.size base exponent) := by
  unfold Arithmetic.checkPower
  split
  · exact N.errs_powerBase
  · split
    · exact N.errs_power
    · exact True.intro

theorem intPow (base exponent : Int64) : N.Holds N.good (Arithmetic.intPow l.size base exponent) := by
  refine (checkPower _ _).bind fun _ _ => ?_
  split
  · split
    · exact Holds.plain rfl
    · exact N.good_data _ rfl
  · exact fitting _ _

theorem onInts (op : BinaryOp) (a b : Int64) :
    N.Holds N.good (Arithmetic.onInts l.size op a b) := by
  cases op with
  | add | sub | mul => exact fitting _ _
  | div => exact .ite (.plain rfl) (N.good_data _ rfl)
  | floorDiv | mod | lShift => exact .ite (.plain rfl) (fitting _ _)
  | pow => exact intPow a b
  | rShift => exact .ite (.plain rfl) (N.good_data _ rfl)
  | bitOr | bitXor | bitAnd => exact N.good_data _ rfl

theorem floatPow (x y : Binary64) : N.Holds N.good (Arithmetic.floatPow l.size x y) := by
  refine (checkPower x y).bind fun _ _ => ?_
  split
  · exact Holds.plain rfl
  · dsimp only
    split
    · exact Holds.plain rfl
    · exact N.good_data _ rfl

theorem onFloats (op : BinaryOp) (x y : Binary64) :
    N.Holds N.good (Arithmetic.onFloats l.size op x y) := by
  cases op with
  | add | sub | mul => exact N.good_data _ rfl
  | div | floorDiv | mod => exact .ite (.plain rfl) (N.good_data _ rfl)
  | pow => exact floatPow x y
  | _ => exact Holds.plain rfl

theorem onNumbers (op : BinaryOp) (left right : Value) :
    N.Holds N.good (Operator.onNumbers l.size op left right) := by
  unfold Operator.onNumbers
  split
  · exact onInts op _ _
  · split
    · exact Holds.plain rfl
    · exact onFloats op _ _
  · exact Holds.plain rfl

/-! ## Texts and sequences -/

theorem joinTexts (a b : String) : N.Holds N.good (Operator.joinTexts l.size a b) :=
  (checkString _).bind fun _ _ => good_str _

theorem timesText (left right : Value) (text : String) (other : Value) :
    N.Holds N.good (Operator.timesText l.size left right text other) := by
  unfold Operator.timesText
  split
  · exact Holds.plain rfl
  · exact (checkString _).bind fun _ _ => good_str _

theorem mem_repeatedItems {items : Array Value} (h : ∀ x ∈ items, N.good x) (count : Nat) :
    ∀ x ∈ Operator.repeatedItems items count, N.good x := by
  have item : ∀ i, N.good (items.getD i .null) := by
    intro i
    rw [Array.getD_eq_getD_getElem?]
    cases hx : items[i]? with
    | none => exact good_null
    | some x => exact h x (Array.mem_of_getElem? hx)
  intro x hx
  unfold Operator.repeatedItems at hx
  split at hx
  · rw [(Array.mem_replicate.1 hx).2]
    exact item 0
  · obtain ⟨i, rfl⟩ := Array.mem_ofFn.1 hx
    exact item _

theorem timesItems {items : Array Value} (h : ∀ x ∈ items, N.good x) (left right other : Value) :
    N.Holds N.GoodList (Operator.timesItems l.size left right items other) := by
  unfold Operator.timesItems
  split
  · exact Holds.plain rfl
  · rename_i count _
    refine (checkContainer _).bind fun _ hfits => ⟨?_, mem_repeatedItems h count⟩
    rw [Operator.size_repeatedItems, Nat.mul_comm]
    exact hfits

theorem multiply (hl : N.good left) (hr : N.good right) :
    N.Sound N.good (Operator.multiply l.size left right) := by
  unfold Operator.multiply
  split
  · exact Sound.ofExcept (timesText _ _ _ _)
  · split
    · exact Sound.plain rfl
    · exact Sound.plain rfl
    · exact Sound.ofExcept (timesText _ _ _ _)
  · refine Sound.bind (Sound.look fun s hs => timesItems (hs.list _) _ _ _) fun items h => ?_
    exact Sound.newList h
  · refine Sound.bind (Sound.ofExcept (timesItems (N.good_items hl) _ _ _)) fun items h => ?_
    exact Sound.newTuple h
  · refine Sound.bind (Sound.look fun s hs => timesItems (hs.list _) _ _ _) fun items h => ?_
    exact Sound.newList h
  · refine Sound.bind (Sound.ofExcept (timesItems (N.good_items hr) _ _ _)) fun items h => ?_
    exact Sound.newTuple h
  · exact Sound.ofExcept (onNumbers _ _ _)

/-! ## All operators -/

theorem onSets {op : BinaryOp} {a b result : KeySet} (ha : N.GoodSet a) (hb : N.GoodSet b)
    (h : Operator.onSets op a b = some result) : N.GoodSet result := by
  unfold Operator.onSets at h
  split at h
  all_goals cases h
  · exact ha.union hb
  · exact ha.intersection
  · exact ha.difference
  · exact ha.symmetricDifference hb

theorem good_joined {a b : Array Value} (ha : ∀ x ∈ a, N.good x) (hb : ∀ x ∈ b, N.good x) :
    ∀ x ∈ Operator.joinedItems a b, N.good x := by
  intro x hx
  rw [Operator.joinedItems_eq] at hx
  rcases Array.mem_append.1 hx with hx | hx
  · exact ha x hx
  · exact hb x hx

theorem binary (op : BinaryOp) (hl : N.good left) (hr : N.good right) :
    N.Sound N.good (Operator.binary l.size op left right) := by
  unfold Operator.binary
  split
  · exact Sound.ofExcept (onInts _ _ _)
  · exact multiply hl hr
  · exact Sound.ofExcept (joinTexts _ _)
  · refine Sound.bind (P := N.GoodList) (Sound.look fun s hs => ?_) fun items h => Sound.newList h
    exact (checkContainer _).bind fun _ hfits => ⟨hfits, good_joined (hs.list _) (hs.list _)⟩
  · refine Sound.bind (Sound.ofExcept (checkContainer _)) fun _ hfits => Sound.newTuple ⟨?_, ?_⟩
    · rw [Operator.joinedItems_eq, Array.size_append]
      exact hfits
    · exact good_joined (N.good_items hl) (N.good_items hr)
  · refine Sound.bind (P := N.FitDict) (Sound.look fun s hs => ?_) fun d h => Sound.newDict h
    exact (checkContainer _).bind fun _ hfits => ⟨hfits, (hs.dict _).merged (hs.dict _)⟩
  · refine Sound.bind (P := N.FitSet) (Sound.look fun s hs => ?_) fun d h => Sound.newSet h
    split
    · exact Holds.plain rfl
    · rename_i result h
      exact (checkContainer _).bind fun _ hfits => ⟨hfits, onSets (hs.set _) (hs.set _) h⟩
  · split
    · exact Sound.pure (N.good_data _ rfl)
    · exact Sound.ofExcept (onNumbers _ _ _)
  · exact Sound.ofExcept (onNumbers _ _ _)

end ScriptSandbox.Norm

import ScriptSandbox.Host
import ScriptSandbox.Operator.Binary

/-!
# Stores that only grow

An operator never changes an operand: behind it every list, dict and set that was there before holds
what it held, and a result that is one of these is a new one (`Operator.binary_makes`). An operator
that fails leaves the store as it is. Copies of registered values only add containers, too
(`HostValue.toValue_grows`).
-/

namespace ScriptSandbox

namespace Store

/-- Every container of the first store holds the same in the second one, and nothing was printed. -/
structure Grown (s s' : Store) : Prop where
  lists : s.lists.size ≤ s'.lists.size
  dicts : s.dicts.size ≤ s'.dicts.size
  sets : s.sets.size ≤ s'.sets.size
  list : ∀ r : ListRef, r.index < s.lists.size → s'.list r = s.list r
  dict : ∀ r : DictRef, r.index < s.dicts.size → s'.dict r = s.dict r
  set : ∀ r : SetRef, r.index < s.sets.size → s'.set r = s.set r
  output : s'.output = s.output

namespace Grown

variable {s s' s'' : Store}

theorem refl (s : Store) : s.Grown s where
  lists := Nat.le_refl _
  dicts := Nat.le_refl _
  sets := Nat.le_refl _
  list _ _ := rfl
  dict _ _ := rfl
  set _ _ := rfl
  output := rfl

theorem trans (h : s.Grown s') (h' : s'.Grown s'') : s.Grown s'' where
  lists := Nat.le_trans h.lists h'.lists
  dicts := Nat.le_trans h.dicts h'.dicts
  sets := Nat.le_trans h.sets h'.sets
  list r hr := (h'.list r (Nat.lt_of_lt_of_le hr h.lists)).trans (h.list r hr)
  dict r hr := (h'.dict r (Nat.lt_of_lt_of_le hr h.dicts)).trans (h.dict r hr)
  set r hr := (h'.set r (Nat.lt_of_lt_of_le hr h.sets)).trans (h.set r hr)
  output := h'.output.trans h.output

/-- What an array holds below its size is still there when something is added. -/
theorem getD_push {α : Type} {xs : Array α} {x default : α} {i : Nat} (h : i < xs.size) :
    (xs.push x)[i]?.getD default = xs[i]?.getD default := by
  rw [Array.getElem?_push_lt h, Array.getElem?_eq_getElem h]

theorem addList (s : Store) (items : Array Value) : s.Grown (s.addList items).2 :=
  { refl s with
    lists := by simp [Store.addList]
    list := fun _ hr => getD_push hr }

theorem addDict (s : Store) (d : Dict) : s.Grown (s.addDict d).2 :=
  { refl s with
    dicts := by simp [Store.addDict]
    dict := fun _ hr => getD_push hr }

theorem addSet (s : Store) (items : KeySet) : s.Grown (s.addSet items).2 :=
  { refl s with
    sets := by simp [Store.addSet]
    set := fun _ hr => getD_push hr }

theorem newId (s : Store) : s.Grown s.newId.2 := { refl s with }

end Grown

end Store

/-- A value that is a list, a dict or a set is one of the containers that the second store has beyond
the first. -/
def Value.NewIn (s s' : Store) : Value → Prop
  | .list r => s.lists.size ≤ r.index ∧ r.index < s'.lists.size
  | .dict r => s.dicts.size ≤ r.index ∧ r.index < s'.dicts.size
  | .set r => s.sets.size ≤ r.index ∧ r.index < s'.sets.size
  | _ => True

/-! ## Results -/

/-- What comes out, if anything, is of a sort. -/
def Yields {α : Type} (P : α → Prop) (x : Except Error α) : Prop := ∀ a, x = .ok a → P a

namespace Yields

variable {α β : Type} {P : α → Prop} {Q : β → Prop} {x y : Except Error α}

theorem ok {a : α} (h : P a) : Yields P (.ok a) := by
  rintro b ⟨⟩
  exact h

theorem error (e : Error) : Yields P (.error e) := nofun

theorem bind {f : α → Except Error β} (h : Yields P x) (hf : ∀ a, P a → Yields Q (f a)) :
    Yields Q (x >>= f) := by
  cases x with
  | ok a => exact hf a (h a rfl)
  | error e => exact error e

theorem behind {f : α → Except Error β} (h : ∀ a, Yields Q (f a)) : Yields Q (x >>= f) :=
  bind (P := fun _ => True) (fun _ _ => True.intro) fun a _ => h a

theorem map {f : α → β} (h : ∀ a, Q (f a)) : Yields Q (x.map f) := by
  cases x with
  | ok a => exact ok (h a)
  | error e => exact error e

theorem ite {c : Prop} [Decidable c] (hx : Yields P x) (hy : Yields P y) :
    Yields P (if c then x else y) := by
  split
  · exact hx
  · exact hy

end Yields

/-! ## Operators -/

/-- At a store, an operation makes a value from what is there: it adds to the store, and a container
that it gives is new. When it fails, the store stays as it is. -/
def MakesAt (m : StoreM Value) (s : Store) : Prop :=
  match m s with
  | .ok v s' => s.Grown s' ∧ v.NewIn s s'
  | .error _ s' => s' = s

/-- A result that is no container. -/
def Plain (x : Except Error Value) : Prop := ∀ v, x = .ok v → ∀ s, v.NewIn s s

/-- A result that is a number. -/
def Numeric (x : Except Error Value) : Prop := Yields (fun v => v.toNumber?.isSome = true) x

theorem Numeric.plain {x : Except Error Value} (h : Numeric x) : Plain x := by
  intro v hv s
  have hnumber := h v hv
  cases v with
  | list r | dict r | set r => cases hnumber
  | _ => exact True.intro

namespace MakesAt

variable {s : Store} {α : Type}

theorem ofExcept {x : Except Error Value} (h : Plain x) : MakesAt (StoreM.ofExcept x) s := by
  cases x with
  | ok v => exact ⟨.refl s, h v rfl s⟩
  | error e => exact rfl

/-- What is made may depend on a look at the store, which may fail. -/
theorem look {f : Store → Except Error α} {make : α → StoreM Value} (h : ∀ a, MakesAt (make a) s) :
    MakesAt (StoreM.look f >>= make) s := by
  show match EStateM.bind (StoreM.look f) make s with
    | .ok v s' => s.Grown s' ∧ v.NewIn s s'
    | .error _ s' => s' = s
  unfold EStateM.bind StoreM.look
  cases f s with
  | ok a => exact h a
  | error e => exact rfl

theorem known {x : Except Error α} {make : α → StoreM Value} (h : ∀ a, MakesAt (make a) s) :
    MakesAt (StoreM.ofExcept x >>= make) s := by
  cases x with
  | ok a => exact h a
  | error e => exact rfl

theorem newList (items : Array Value) : MakesAt (StoreM.newList items) s :=
  ⟨.addList s items, Nat.le_refl _, by simp⟩

theorem newDict (d : Dict) : MakesAt (StoreM.newDict d) s :=
  ⟨.addDict s d, Nat.le_refl _, by simp⟩

theorem newSet (items : KeySet) : MakesAt (StoreM.newSet items) s :=
  ⟨.addSet s items, Nat.le_refl _, by simp⟩

theorem newTuple (items : Array Value) : MakesAt (StoreM.newTuple items) s :=
  ⟨.newId s, True.intro⟩

theorem throw (e : Error) : MakesAt (MonadExcept.throw e) s := rfl

end MakesAt

namespace Operator

variable {limits : SizeLimits} {s : Store}

theorem numeric_fitting (operation : String) (n : Option Int64) :
    Numeric (Arithmetic.fitting operation n) := by
  cases n with
  | some n => exact .ok rfl
  | none => exact .error _

theorem numeric_onInts (op : BinaryOp) (a b : Int64) : Numeric (Arithmetic.onInts limits op a b) := by
  cases op with
  | add | sub | mul => exact numeric_fitting _ _
  | div => exact .ite (.error _) (.ok rfl)
  | floorDiv | mod => exact .ite (.error _) (numeric_fitting _ _)
  | pow =>
    refine .behind fun _ => ?_
    exact .ite (.ite (.error _) (.ok rfl)) (numeric_fitting _ _)
  | lShift => exact .ite (.error _) (numeric_fitting _ _)
  | rShift => exact .ite (.error _) (.ok rfl)
  | bitOr | bitXor | bitAnd => exact .ok rfl

theorem numeric_onFloats (op : BinaryOp) (x y : Binary64) :
    Numeric (Arithmetic.onFloats limits op x y) := by
  cases op with
  | add | sub | mul => exact .ok rfl
  | div | floorDiv | mod => exact .ite (.error _) (.ok rfl)
  | pow =>
    refine .behind fun _ => .ite (.error _) ?_
    exact .ite (.error _) (.ok rfl)
  | lShift | rShift | bitOr | bitXor | bitAnd => exact .error _

theorem numeric_onNumbers (op : BinaryOp) (left right : Value) :
    Numeric (onNumbers limits op left right) := by
  unfold onNumbers
  split
  · exact numeric_onInts op _ _
  · split
    · exact .error _
    · exact numeric_onFloats op _ _
  · exact .error _

theorem plain_timesText (left right : Value) (text : String) (other : Value) :
    Plain (timesText limits left right text other) := by
  unfold timesText
  split
  · exact Yields.error _
  · exact Yields.behind fun _ => .ok fun _ => True.intro

theorem multiply_makes (left right : Value) (s : Store) : MakesAt (multiply limits left right) s := by
  unfold multiply
  split
  · exact .ofExcept (plain_timesText _ _ _ _)
  · split
    · exact .throw _
    · exact .throw _
    · exact .ofExcept (plain_timesText _ _ _ _)
  · exact .look .newList
  · exact .known .newTuple
  · exact .look .newList
  · exact .known .newTuple
  · exact .ofExcept (numeric_onNumbers _ _ _).plain

/-- No operator changes an operand. -/
theorem binary_makes (limits : SizeLimits) (op : BinaryOp) (left right : Value) (s : Store) :
    MakesAt (binary limits op left right) s := by
  unfold binary
  split
  · exact .ofExcept (numeric_onInts _ _ _).plain
  · exact multiply_makes _ _ s
  · exact .ofExcept (Yields.behind fun _ => .ok fun _ => True.intro)
  · exact .look .newList
  · exact .known fun _ => .newTuple _
  · exact .look .newDict
  · exact .look .newSet
  · split
    · exact ⟨.refl s, True.intro⟩
    · exact .ofExcept (numeric_onNumbers _ _ _).plain
  · exact .ofExcept (numeric_onNumbers _ _ _).plain

end Operator

/-! ## Copies of registered values -/

/-- However an operation ends, it has only added to the store. -/
def Grows {α : Type} (m : StoreM α) : Prop :=
  ∀ s, match m s with
    | .ok _ s' => s.Grown s'
    | .error _ s' => s.Grown s'

namespace Grows

variable {α β : Type} {m : StoreM α}

theorem pure (a : α) : Grows (Pure.pure a) := fun s => .refl s

theorem ofExcept (x : Except Error α) : Grows (StoreM.ofExcept x) := by
  cases x with
  | ok a => exact pure a
  | error e => exact fun s => .refl s

theorem look (f : Store → Except Error α) : Grows (StoreM.look f) := by
  intro s
  simp only [StoreM.look]
  cases f s <;> exact .refl s

theorem bind {f : α → StoreM β} (h : Grows m) (hf : ∀ a, Grows (f a)) : Grows (m >>= f) := by
  intro s
  have hs := h s
  show match EStateM.bind m f s with
    | .ok _ s' => s.Grown s'
    | .error _ s' => s.Grown s'
  unfold EStateM.bind
  cases hm : m s with
  | error e s' =>
    rw [hm] at hs
    exact hs
  | ok a s' =>
    rw [hm] at hs
    have hs' := hf a s'
    dsimp only
    cases hb : f a s' <;> rw [hb] at hs' <;> exact hs.trans hs'

theorem of_makes {m : StoreM Value} (h : ∀ s, MakesAt m s) : Grows m := by
  intro s
  have hs := h s
  unfold MakesAt at hs
  cases hm : m s with
  | ok a s' =>
    rw [hm] at hs
    exact hs.1
  | error e s' =>
    rw [hm] at hs
    dsimp only at hs
    rw [hs]
    exact .refl s

end Grows

namespace HostValue

mutual

/-- The copy of a registered value is made of new containers. -/
theorem toValue_grows : ∀ h : HostValue, Grows h.toValue
  | null | bool _ | int _ | float _ | str _ | object _ => .pure _
  | list items => (toValues_grows items).bind fun _ => .of_makes fun _ => .newList _
  | tuple items => (toValues_grows items).bind fun _ => .of_makes fun _ => .newTuple _
  | dict entries => (toDict_grows .empty entries).bind fun _ => .of_makes fun _ => .newDict _
  | set items => (toValues_grows items).bind fun _ => (Grows.ofExcept _).bind fun _ =>
      .of_makes fun _ => .newSet _

theorem toValues_grows : ∀ hs : List HostValue, Grows (toValues hs)
  | [] => .pure _
  | h :: rest => (toValue_grows h).bind fun _ => (toValues_grows rest).bind fun _ => .pure _

theorem toDict_grows (d : Dict) : ∀ entries : List (HostValue × HostValue), Grows (toDict d entries)
  | [] => .pure _
  | (key, value) :: rest => (toValue_grows key).bind fun _ => (toValue_grows value).bind fun _ =>
      (Grows.ofExcept _).bind fun d => toDict_grows d rest

end

end HostValue

end ScriptSandbox

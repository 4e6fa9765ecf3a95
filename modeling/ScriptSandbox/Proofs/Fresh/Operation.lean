import ScriptSandbox.Attribute
import ScriptSandbox.FormatSpec.Render
import ScriptSandbox.Operator.Binary
import ScriptSandbox.Proofs.Fresh
import ScriptSandbox.Subscript

/-!
# Fresh errors: operations on the store

Operators, subscripts, attributes and formats. An operation may change the store on its way; its errors
are fresh from whatever store it starts (`FreshRun`).
-/

namespace ScriptSandbox

/-- An operation on the store that ends in no error unless a fresh one. -/
def FreshRun {α : Type} (m : StoreM α) : Prop := ∀ s e s', m s = .error e s' → e.Fresh

/-- A host whose functions and objects make fresh errors. -/
structure Host.Fresh (h : Host) : Prop where
  callFunction : ∀ f ctx args, FreshRun (h.callFunction f ctx args)
  readAttribute : ∀ o attr, FreshRun (h.attribute? o attr)
  item : ∀ o index, FreshRun (h.item? o index)
  callObject : ∀ o ctx args, FreshRun (h.callObject o ctx args)

namespace FreshRun

variable {α β : Type} {m : StoreM α}

theorem succeeds (h : ∀ s, ∃ a s', m s = .ok a s') : FreshRun m := by
  intro s e s' he
  obtain ⟨a, s₁, hok⟩ := h s
  rw [hok] at he
  cases he

theorem pure (a : α) : FreshRun (Pure.pure a) := succeeds fun _ => ⟨_, _, rfl⟩

theorem throw {e : Error} (h : e.Fresh) : FreshRun (MonadExcept.throw e : StoreM α) := by
  rintro s _ _ ⟨⟩
  exact h

theorem bind {f : α → StoreM β} (h : FreshRun m) (hf : ∀ a, FreshRun (f a)) : FreshRun (m >>= f) := by
  intro s e s' hr
  change EStateM.bind m f s = _ at hr
  unfold EStateM.bind at hr
  cases hm : m s with
  | ok a s₁ =>
    rw [hm] at hr
    exact hf a _ _ _ hr
  | error e₁ s₁ =>
    rw [hm] at hr
    cases hr
    exact h _ _ _ hm

/-- What follows a check is fresh where it is behind the check. -/
theorem guarded {c : Prop} [Decidable c] {e : Error} {rest : PUnit → StoreM α} (h : e.Fresh)
    (hrest : ∀ u, FreshRun (rest u)) :
    FreshRun (if c then MonadExcept.throw e >>= rest else rest ⟨⟩) := by
  split
  · exact bind (throw h) hrest
  · exact hrest _

theorem get : FreshRun (MonadState.get : StoreM Store) := succeeds fun _ => ⟨_, _, rfl⟩

theorem change (f : Store → Store) : FreshRun (modify f : StoreM PUnit) := succeeds fun _ => ⟨_, _, rfl⟩

theorem ofExcept {x : Except Error α} (h : Fresh x) : FreshRun (StoreM.ofExcept x) := by
  cases x with
  | ok a => exact pure a
  | error e => exact throw (h e rfl)

theorem look {f : Store → Except Error α} (h : ∀ s, Fresh (f s)) : FreshRun (StoreM.look f) := by
  intro s e s' hr
  unfold StoreM.look at hr
  split at hr
  · cases hr
  · rename_i he
    cases hr
    exact h s _ he

theorem mapM {f : α → StoreM β} (h : ∀ a, FreshRun (f a)) : ∀ xs : List α, FreshRun (xs.mapM f)
  | [] => pure _
  | x :: xs => by
    rw [List.mapM_cons]
    exact (h x).bind fun _ => (mapM h xs).bind fun _ => pure _

theorem newId : FreshRun StoreM.newId := succeeds fun _ => ⟨_, _, rfl⟩

theorem newList (items : Array Value) : FreshRun (StoreM.newList items) := succeeds fun _ => ⟨_, _, rfl⟩

theorem newDict (d : Dict) : FreshRun (StoreM.newDict d) := succeeds fun _ => ⟨_, _, rfl⟩

theorem newSet (s : KeySet) : FreshRun (StoreM.newSet s) := succeeds fun _ => ⟨_, _, rfl⟩

theorem newTuple (items : Array Value) : FreshRun (StoreM.newTuple items) := newId.bind fun _ => pure _

theorem newMethod (receiver : Value) (name : String) : FreshRun (StoreM.newMethod receiver name) :=
  newId.bind fun _ => pure _

end FreshRun

/-! ## Arithmetic -/

namespace Fresh

theorem checkPower (limits : SizeLimits) (base exponent : Binary64) :
    Fresh (Arithmetic.checkPower limits base exponent) :=
  ite (error ⟨rfl, rfl⟩) (ite (error ⟨rfl, rfl⟩) (ok _))

theorem onInts (limits : SizeLimits) (op : BinaryOp) (a b : Int64) :
    Fresh (Arithmetic.onInts limits op a b) := by
  cases op with
  | add | sub | mul => exact fitting _ _
  | div => exact ite (error ⟨rfl, rfl⟩) (ok _)
  | floorDiv | mod => exact ite (error ⟨rfl, rfl⟩) (fitting _ _)
  | pow => exact (checkPower _ _ _).bind fun _ => ite (ite (error ⟨rfl, rfl⟩) (ok _)) (fitting _ _)
  | lShift => exact ite (error ⟨rfl, rfl⟩) (fitting _ _)
  | rShift => exact ite (error ⟨rfl, rfl⟩) (ok _)
  | bitOr | bitXor | bitAnd => exact ok _

theorem onFloats (limits : SizeLimits) (op : BinaryOp) (x y : Binary64) :
    Fresh (Arithmetic.onFloats limits op x y) := by
  cases op with
  | add | sub | mul => exact ok _
  | div | floorDiv | mod => exact ite (error ⟨rfl, rfl⟩) (ok _)
  | pow =>
    exact (checkPower _ _ _).bind fun _ => ite (error ⟨rfl, rfl⟩) (ite (error ⟨rfl, rfl⟩) (ok _))
  | lShift | rShift | bitOr | bitXor | bitAnd => exact error ⟨rfl, rfl⟩

theorem onNumbers (limits : SizeLimits) (op : BinaryOp) (a b : Value) :
    Fresh (Operator.onNumbers limits op a b) := by
  unfold Operator.onNumbers
  split
  · exact onInts _ _ _ _
  · exact ite (error ⟨rfl, rfl⟩) (onFloats _ _ _ _)
  · exact error ⟨rfl, rfl⟩

theorem timesText (limits : SizeLimits) (a b : Value) (text : String) (other : Value) :
    Fresh (Operator.timesText limits a b text other) := by
  unfold Operator.timesText
  split
  · exact error ⟨rfl, rfl⟩
  · exact (checkString _ _).bind fun _ => ok _

theorem timesItems (limits : SizeLimits) (a b : Value) (items : Array Value) (other : Value) :
    Fresh (Operator.timesItems limits a b items other) := by
  unfold Operator.timesItems
  split
  · exact error ⟨rfl, rfl⟩
  · exact (checkContainer _ _).bind fun _ => ok _

end Fresh

namespace FreshRun

theorem multiply (limits : SizeLimits) (a b : Value) : FreshRun (Operator.multiply limits a b) := by
  unfold Operator.multiply
  split
  · exact ofExcept (.timesText _ _ _ _ _)
  · split
    · exact throw ⟨rfl, rfl⟩
    · exact throw ⟨rfl, rfl⟩
    · exact ofExcept (.timesText _ _ _ _ _)
  · exact (look fun _ => .timesItems _ _ _ _ _).bind newList
  · exact (ofExcept (.timesItems _ _ _ _ _)).bind newTuple
  · exact (look fun _ => .timesItems _ _ _ _ _).bind newList
  · exact (ofExcept (.timesItems _ _ _ _ _)).bind newTuple
  · exact ofExcept (.onNumbers _ _ _ _)

theorem binary (limits : SizeLimits) (op : BinaryOp) (a b : Value) :
    FreshRun (Operator.binary limits op a b) := by
  have measured : ∀ {α : Type} (n : Nat) (a : α),
      Fresh (limits.checkContainer n >>= fun _ => Pure.pure a) := fun n a =>
    (Fresh.checkContainer limits n).bind fun _ => .ok a
  unfold Operator.binary
  split
  · exact ofExcept (.onInts _ _ _ _)
  · exact multiply _ _ _
  · exact ofExcept ((Fresh.checkString _ _).bind fun _ => .ok _)
  · exact (look fun _ => measured _ _).bind newList
  · exact (ofExcept (.checkContainer _ _)).bind fun _ => newTuple _
  · exact (look fun _ => measured _ _).bind newDict
  · refine (look fun s => ?_).bind newSet
    split
    · exact .error ⟨rfl, rfl⟩
    · exact measured _ _
  · split
    · exact pure _
    · exact ofExcept (.onNumbers _ _ _ _)
  · exact ofExcept (.onNumbers _ _ _ _)

end FreshRun

/-! ## Subscripts -/

namespace Fresh

theorem integerIndex (container index : Value) : Fresh (Subscript.integerIndex container index) := by
  unfold Subscript.integerIndex
  split
  · exact ok _
  · exact error ⟨rfl, rfl⟩

theorem itemAt (what : String) (length : Nat) (get : Nat → Option Value) (index : Int64) :
    Fresh (Subscript.itemAt what length get index) := by
  unfold Subscript.itemAt
  split
  · exact ok _
  · exact error ⟨rfl, rfl⟩

theorem indices (b : SliceBounds) (length : Nat) : Fresh (b.indices length) :=
  ite (error ⟨rfl, rfl⟩) (ok _)

theorem sliceRange (r : Range) (b : SliceBounds) : Fresh (Subscript.sliceRange r b) := by
  refine (indices b _).bind fun i => ?_
  dsimp only
  split
  · exact ok _
  · exact error ⟨rfl, rfl⟩

theorem assignSlice (limits : SizeLimits) (b : SliceBounds) (items replacement : Array Value) :
    Fresh (Subscript.assignSlice limits b items replacement) := by
  refine ite ((indices b _).bind fun _ => (checkContainer _ _).bind fun _ => ok _) ?_
  exact (indices b _).map.bind fun _ => ite (ok _) (error ⟨rfl, rfl⟩)

end Fresh

namespace FreshRun

/-- A key that is absent is reported by its text at that moment. -/
theorem keyError (k : Value) :
    FreshRun (do MonadExcept.throw (.keyError ((← MonadState.get).shownRepr k)) : StoreM Value) :=
  get.bind fun _ => throw ⟨rfl, rfl⟩

theorem getItem {host : Host} (hhost : host.Fresh) (container index : Value) :
    FreshRun (Subscript.getItem host container index) := by
  have indexed := fun container => ofExcept (Fresh.integerIndex container index)
  unfold Subscript.getItem
  split
  · exact (indexed _).bind fun _ => look fun _ => .itemAt _ _ _ _
  · exact (indexed _).bind fun _ => ofExcept (.itemAt _ _ _ _)
  · exact (indexed _).bind fun _ => ofExcept (.itemAt _ _ _ _)
  · refine (indexed _).bind fun i => ?_
    split
    · exact pure _
    · exact throw ⟨rfl, rfl⟩
  · refine (look fun _ => .get? _ _).bind fun found => ?_
    split
    · exact pure _
    · exact keyError index
  · refine (hhost.item _ _).bind fun found => ?_
    split
    · exact pure _
    · exact keyError index
  · exact throw ⟨rfl, rfl⟩

theorem getSlice (container : Value) (b : SliceBounds) : FreshRun (Subscript.getSlice container b) := by
  unfold Subscript.getSlice
  split
  · exact (look fun _ => (Fresh.indices b _).map).bind newList
  · exact (ofExcept (.indices b _)).bind fun _ => newTuple _
  · exact (ofExcept (.indices b _)).bind fun _ => pure _
  · exact ofExcept (.sliceRange _ b)
  · exact throw ⟨rfl, rfl⟩

theorem setItem (limits : SizeLimits) (container index v : Value) :
    FreshRun (Subscript.setItem limits container index v) := by
  unfold Subscript.setItem
  split
  · refine (ofExcept (.integerIndex _ _)).bind fun i => get.bind fun s => ?_
    split
    · exact throw ⟨rfl, rfl⟩
    · exact change _
  · refine (ofExcept (.key _)).bind fun k => (change _).bind fun _ => ?_
    exact look fun _ => .checkContainer _ _
  · exact throw ⟨rfl, rfl⟩

theorem setSlice (limits : SizeLimits) (container : Value) (b : SliceBounds) (v : Value) :
    FreshRun (Subscript.setSlice limits container b v) := by
  unfold Subscript.setSlice
  split
  · refine (look fun s => ?_).bind fun _ => change _
    refine (Fresh.checkIterable _ _).bind fun _ => (Fresh.iterate _).bind fun _ => ?_
    exact .assignSlice _ _ _ _
  · exact throw ⟨rfl, rfl⟩

/-! ## Attributes -/

theorem readAttribute {host : Host} (hhost : host.Fresh) (policy : AttributePolicy) (receiver : Value)
    (attr : String) : FreshRun (Attribute.read host policy receiver attr) := by
  have guarded : FreshRun (Attribute.readGuarded host policy receiver attr) := by
    unfold Attribute.readGuarded
    split
    · unfold Attribute.readAllowed
      split
      · refine (hhost.readAttribute _ _).bind fun found => ?_
        split
        · exact pure _
        · exact throw ⟨rfl, rfl⟩
      · split
        · exact newMethod _ _
        · exact throw ⟨rfl, rfl⟩
    · exact throw ⟨rfl, rfl⟩
  unfold Attribute.read
  split
  · split
    · exact pure _
    · exact guarded
  · exact guarded

/-! ## Registered values -/

mutual

theorem toValue : ∀ v : HostValue, FreshRun v.toValue
  | .null | .bool _ | .int _ | .float _ | .str _ | .object _ => by
    rw [HostValue.toValue]
    exact pure _
  | .list items => by
    rw [HostValue.toValue]
    exact (toValues items).bind fun _ => newList _
  | .tuple items => by
    rw [HostValue.toValue]
    exact (toValues items).bind fun _ => newTuple _
  | .dict entries => by
    rw [HostValue.toValue]
    exact (toDict .empty entries).bind newDict
  | .set items => by
    rw [HostValue.toValue]
    exact (toValues items).bind fun _ => (ofExcept (.ofList _)).bind newSet

theorem toValues : ∀ items : List HostValue, FreshRun (HostValue.toValues items)
  | [] => by
    rw [HostValue.toValues]
    exact pure _
  | item :: rest => by
    rw [HostValue.toValues]
    exact (toValue item).bind fun _ => (toValues rest).bind fun _ => pure _

theorem toDict : ∀ (d : Dict) (entries : List (HostValue × HostValue)),
    FreshRun (HostValue.toDict d entries)
  | d, [] => by
    rw [HostValue.toDict]
    exact pure _
  | d, (k, v) :: rest => by
    rw [HostValue.toDict]
    refine (toValue k).bind fun k => (toValue v).bind fun v => ?_
    exact (ofExcept (.insert _ _ _)).bind fun d => toDict d rest

end

end FreshRun

/-! ## Formats -/

namespace Fresh

variable {s : Store}

theorem parse (spec : String) : Fresh (FormatSpec.parse spec) := by
  unfold FormatSpec.parse
  dsimp only
  split
  · exact error ⟨rfl, rfl⟩
  · split
    · exact ok _
    · exact ite (error ⟨rfl, rfl⟩) (ite (ok _) (error ⟨rfl, rfl⟩))

theorem renderInt (spec : FormatSpec) (n : Int64) : Fresh (spec.renderInt n) :=
  ite (error ⟨rfl, rfl⟩) (ok _)

theorem checkForString (spec : FormatSpec) : Fresh spec.checkForString := by
  refine ite (error ⟨rfl, rfl⟩) (ite (error ⟨rfl, rfl⟩) ?_)
  split
  · exact error ⟨rfl, rfl⟩
  · exact ok _

theorem render (spec : FormatSpec) (limits : SizeLimits) (v : Value) :
    Fresh (spec.render limits s v) := by
  unfold FormatSpec.render
  split
  · exact ite (error ⟨rfl, rfl⟩) (ok _)
  · exact ok _
  · exact (checkForString _).bind fun _ => ok _
  · exact (checkForString _).bind fun _ => ok _
  · exact error ⟨rfl, rfl⟩
  · split
    · exact error ⟨rfl, rfl⟩
    · exact renderInt _ _
    · exact ite (renderInt _ _) (ok _)
    · exact (text _ _).map
    · exact (text _ _).map
    · exact error ⟨rfl, rfl⟩

theorem format (limits : SizeLimits) (v : Value) (spec : String) :
    Fresh (FormatSpec.format limits s v spec) := by
  refine ite (text _ _) ((parse spec).bind fun spec => ?_)
  exact (checkString _ _).bind fun _ => (checkString _ _).bind fun _ => render spec limits v

end Fresh

end ScriptSandbox

import ScriptSandbox.Limits
import ScriptSandbox.Method

/-!
# Norms: what values, sizes and errors may come up in a run

Many facts about runs have one shape: if all values at hand are of some sort, so are all values that
an operation makes, and the errors it can end in are of some sort, too. A `Norm` names such sorts
and says which of them the library's operations rely on. `Norm.Kept` says that a store holds only
such values, and `Norm.Sound` is the judgement that an operation keeps this: each operation gets one
lemma about it, and every fact of this shape is an instance.

An error that a script may catch lets the run go on, so the store has to be kept up to the moment of
such an error. Any other error ends the run and may leave the store as it is.
-/

namespace ScriptSandbox

/-- A value that holds no other value: only tuples and methods do, and functions hold code. What a
list, a dict or a set holds is in the store. -/
def Value.isFlat : Value → Bool
  | .tuple .. | .function _ | .method .. => false
  | _ => true

/-- A flat value that is not a function either. -/
def Value.isData : Value → Bool
  | .native _ => false
  | v => v.isFlat

theorem Value.isFlat_of_isData {v : Value} (h : v.isData = true) : v.isFlat = true := by
  cases v <;> first | exact h | rfl

/-- Every kind of error but exhausted quotas, raised values, and `return`, `break` and `continue` where
there is nothing to leave. -/
def ErrorKind.isPlain : ErrorKind → Bool
  | .limitExceeded .. | .raised _ => false
  | .structural message =>
    message != "'return' outside function" && message != "loop control outside loop"
  | _ => true

/-- A message that starts otherwise than those about `return`, `break` and `continue`. -/
theorem ErrorKind.isPlain_structural {message : String} (hquote : message.toList.head? ≠ some '\'')
    (hloop : message.toList.head? ≠ some 'l') : (structural message).isPlain = true := by
  have hreturn : message ≠ "'return' outside function" := by
    rintro rfl
    exact hquote rfl
  have hcontrol : message ≠ "loop control outside loop" := by
    rintro rfl
    exact hloop rfl
  simp [isPlain, hreturn, hcontrol]

/-- Sorts of values, of container sizes and of errors under given limits. -/
structure Norm (l : Limits) where
  good : Value → Prop
  fits : Nat → Prop
  errs : ErrorKind → Prop
  /-- The library makes no functions. -/
  good_data : ∀ v : Value, v.isData = true → good v
  good_tuple : ∀ (id : Nat) (items : Array Value), fits items.size → (∀ x ∈ items, good x) →
    good (.tuple id items)
  good_items : ∀ {id : Nat} {items : Array Value}, good (.tuple id items) → ∀ x ∈ items, good x
  fits_items : ∀ {id : Nat} {items : Array Value}, good (.tuple id items) → fits items.size
  /-- Only methods that exist and that the policy allows are read. -/
  good_method : ∀ (id : Nat) {receiver : Value} {name : String},
    l.attributePolicy.allows name = true → Method.exists? receiver name = true →
    good receiver → good (.method id receiver name)
  fits_of_le : ∀ {n : Nat}, n ≤ l.size.maxContainerSize → fits n
  fits_mono : ∀ {m n : Nat}, m ≤ n → fits n → fits m
  /-- Some functions give pairs without a look at the quota. -/
  fits_two : fits 2
  errs_plain : ∀ k : ErrorKind, k.isPlain = true → errs k
  errs_raised : ∀ {v : Value}, good v → errs (.raised v)
  errs_container : errs (.limitExceeded .containerSize l.size.maxContainerSize)
  errs_string : errs (.limitExceeded .stringLength l.size.maxStringLength)
  /-- Texts may be put together of pieces, each of which is measured against what the pieces before it
  leave of the quota. -/
  pieces : Prop
  errs_piece : ∀ {n : Nat}, pieces → n ≤ l.size.maxStringLength →
    errs (.limitExceeded .stringLength n)
  errs_powerBase : errs (.limitExceeded .powerBase l.size.maxPowerBase)
  errs_power : errs (.limitExceeded .power l.size.maxPower)
  errs_timeout : errs (.limitExceeded .timeout l.timeoutMillis)

namespace Norm

variable {l : Limits} (N : Norm l) {α β : Type} {P : α → Prop} {Q : β → Prop}

/-- The norm under which everything may come up. -/
def trivial (l : Limits) : Norm l where
  good _ := True
  fits _ := True
  errs _ := True
  good_data _ _ := True.intro
  good_tuple _ _ _ _ := True.intro
  good_items _ _ _ := True.intro
  fits_items _ := True.intro
  good_method _ _ _ _ _ _ := True.intro
  fits_of_le _ := True.intro
  fits_mono _ _ := True.intro
  fits_two := True.intro
  errs_plain _ _ := True.intro
  errs_raised _ := True.intro
  errs_container := True.intro
  errs_string := True.intro
  pieces := True
  errs_piece _ _ := True.intro
  errs_powerBase := True.intro
  errs_power := True.intro
  errs_timeout := True.intro

/-- All values in a dict are good. -/
def GoodDict (d : Dict) : Prop := ∀ entry ∈ d.toList, N.good entry.1 ∧ N.good entry.2

/-- All elements of a set are good. -/
def GoodSet (s : KeySet) : Prop := ∀ x ∈ s.toList, N.good x

/-- All arguments are good, and they fit a container. -/
structure GoodArgs (args : Arguments) : Prop where
  positional : ∀ x ∈ args.positional, N.good x
  keywords : ∀ entry ∈ args.keywords, N.good entry.2
  fits : N.fits args.positional.length

/-- A store whose lists, dicts and sets hold good values only and fit. -/
structure Kept (s : Store) : Prop where
  list : ∀ r, ∀ x ∈ s.list r, N.good x
  listFits : ∀ r, N.fits (s.list r).size
  dict : ∀ r, N.GoodDict (s.dict r)
  dictFits : ∀ r, N.fits (s.dict r).size
  set : ∀ r, N.GoodSet (s.set r)
  setFits : ∀ r, N.fits (s.set r).size

theorem fits_zero : N.fits 0 := N.fits_of_le (Nat.zero_le _)

/-! ## Results that may be errors -/

/-- A result is of a sort, and an error is one that may come up. -/
def Holds (P : α → Prop) : Except Error α → Prop
  | .ok a => P a
  | .error e => N.errs e.kind

namespace Holds

variable {N}

theorem ok {a : α} (h : P a) : N.Holds P (.ok a) := h

/-- Most errors are of a kind that every norm allows. -/
theorem plain {e : Error} (h : e.kind.isPlain = true) : N.Holds P (.error e) := N.errs_plain _ h

theorem mono {x : Except Error α} {P' : α → Prop} (h : N.Holds P x) (hP : ∀ a, P a → P' a) :
    N.Holds P' x := by
  cases x with
  | ok a => exact hP a h
  | error e => exact h

theorem bind {x : Except Error α} {f : α → Except Error β} (h : N.Holds P x)
    (hf : ∀ a, P a → N.Holds Q (f a)) : N.Holds Q (x >>= f) := by
  cases x with
  | ok a => exact hf a h
  | error e => exact h

theorem map {x : Except Error α} {f : α → β} (h : N.Holds P x) (hf : ∀ a, P a → Q (f a)) :
    N.Holds Q (x.map f) := by
  cases x with
  | ok a => exact hf a h
  | error e => exact h

theorem ite {c : Prop} [Decidable c] {x y : Except Error α} (hx : N.Holds P x) (hy : N.Holds P y) :
    N.Holds P (if c then x else y) := by
  split
  · exact hx
  · exact hy

theorem mapM {f : α → Except Error β} {xs : List α} (h : ∀ x ∈ xs, N.Holds Q (f x)) :
    N.Holds (fun ys => ys.length = xs.length ∧ ∀ y ∈ ys, Q y) (xs.mapM f) := by
  induction xs with
  | nil => exact ⟨rfl, by simp⟩
  | cons x xs ih =>
    rw [List.mapM_cons]
    refine (h x (by simp)).bind fun y hy => ?_
    refine (ih fun x hx => h x (by simp [hx])).bind fun ys hys => ?_
    exact ⟨by simp [hys.1], by simpa using ⟨hy, hys.2⟩⟩

theorem and {x : Except Error α} (h : N.Holds (fun _ => True) x) (hP : ∀ a, x = .ok a → P a) :
    N.Holds P x := by
  cases x with
  | ok a => exact hP a rfl
  | error e => exact h

end Holds

variable {N} in
theorem checkContainer (n : Nat) : N.Holds (fun _ => N.fits n) (l.size.checkContainer n) := by
  unfold SizeLimits.checkContainer
  split
  · exact N.errs_container
  · exact N.fits_of_le (by omega)

variable {N} in
theorem checkString (n : Nat) : N.Holds (fun _ => True) (l.size.checkString n) := by
  unfold SizeLimits.checkString
  split
  · exact N.errs_string
  · exact True.intro

variable {N} in
theorem checkIterable (v : Value) : N.Holds (fun _ => True) (l.size.checkIterable v) := by
  cases v <;> first | exact (checkContainer _).mono fun _ _ => True.intro | exact True.intro

/-! ## Operations on the store -/

/-- At a store, an operation gives a result of a sort and a store that is kept, or it ends in an error
that may come up, and the store is still kept if the script may catch the error. -/
def SoundAt (P : α → Prop) (m : StoreM α) (s : Store) : Prop :=
  match m s with
  | .ok a s' => P a ∧ N.Kept s'
  | .error e s' => N.errs e.kind ∧ (e.isCatchable = true → N.Kept s')

/-- An operation is sound at every store that is kept. -/
def Sound (P : α → Prop) (m : StoreM α) : Prop := ∀ s, N.Kept s → N.SoundAt P m s

variable {N} in
theorem SoundAt.bind {m : StoreM α} {f : α → StoreM β} {s : Store} (h : N.SoundAt P m s)
    (hf : ∀ a s', m s = .ok a s' → P a → N.Kept s' → N.SoundAt Q (f a) s') :
    N.SoundAt Q (m >>= f) s := by
  unfold SoundAt at h
  show match EStateM.bind m f s with
    | .ok a s' => Q a ∧ N.Kept s'
    | .error e s' => N.errs e.kind ∧ (e.isCatchable = true → N.Kept s')
  unfold EStateM.bind
  cases hr : m s with
  | ok a s' =>
    rw [hr] at h
    exact hf a s' hr h.1 h.2
  | error e s' =>
    rw [hr] at h
    exact h

namespace Sound

variable {N} {m : StoreM α}

theorem pure {a : α} (h : P a) : N.Sound P (Pure.pure a) := fun _ hs => ⟨h, hs⟩

theorem throw {e : Error} (h : N.errs e.kind) : N.Sound P (MonadExcept.throw e) :=
  fun _ hs => ⟨h, fun _ => hs⟩

theorem plain {e : Error} (h : e.kind.isPlain = true) : N.Sound P (MonadExcept.throw e) :=
  throw (N.errs_plain _ h)

theorem mono {P' : α → Prop} (h : N.Sound P m) (hP : ∀ a, P a → P' a) : N.Sound P' m := by
  intro s hs
  have := h s hs
  unfold SoundAt at this ⊢
  cases hm : m s with
  | ok a s' =>
    rw [hm] at this
    exact ⟨hP a this.1, this.2⟩
  | error e s' =>
    rw [hm] at this
    exact this

theorem bind {f : α → StoreM β} (h : N.Sound P m) (hf : ∀ a, P a → N.Sound Q (f a)) :
    N.Sound Q (m >>= f) := fun s hs => (h s hs).bind fun a s' _ ha hs' => hf a ha s' hs'

theorem get : N.Sound N.Kept MonadState.get := fun _ hs => ⟨hs, hs⟩

/-- A look at the store, which may fail. -/
theorem look {f : Store → Except Error α} (h : ∀ s, N.Kept s → N.Holds P (f s)) :
    N.Sound P (StoreM.look f) := by
  intro s hs
  have := h s hs
  simp only [SoundAt, StoreM.look]
  cases hf : f s with
  | ok a =>
    rw [hf] at this
    exact ⟨this, hs⟩
  | error e =>
    rw [hf] at this
    exact ⟨this, fun _ => hs⟩

theorem ofExcept {x : Except Error α} (h : N.Holds P x) : N.Sound P (StoreM.ofExcept x) := by
  cases x with
  | ok a => exact pure h
  | error e => exact throw h

theorem change {f : Store → Store} (h : ∀ s, N.Kept s → N.Kept (f s)) :
    N.Sound (fun _ => True) (modify f : StoreM PUnit) := fun s hs => ⟨True.intro, h s hs⟩

theorem mapM {γ : Type} {f : γ → StoreM β} {xs : List γ} (h : ∀ x ∈ xs, N.Sound Q (f x)) :
    N.Sound (fun ys => ys.length = xs.length ∧ ∀ y ∈ ys, Q y) (xs.mapM f) := by
  induction xs with
  | nil => exact pure ⟨rfl, by simp⟩
  | cons x xs ih =>
    rw [List.mapM_cons]
    refine (h x (by simp)).bind fun y hy => ?_
    refine (ih fun x hx => h x (by simp [hx])).bind fun ys hys => ?_
    exact pure ⟨by simp [hys.1], by simpa using ⟨hy, hys.2⟩⟩

end Sound

variable {N} in
theorem kept_of_forall (hgood : ∀ v, N.good v) (hfits : ∀ n, N.fits n) (s : Store) : N.Kept s :=
  ⟨fun _ _ _ => hgood _, fun _ => hfits _, fun _ _ _ => ⟨hgood _, hgood _⟩, fun _ => hfits _,
    fun _ _ _ => hgood _, fun _ => hfits _⟩

/-! ## The norm under which everything may come up -/

theorem kept_trivial (s : Store) : (trivial l).Kept s :=
  kept_of_forall (fun _ => True.intro) (fun _ => True.intro) s

theorem sound_trivial (h : ∀ a, P a) (m : StoreM α) : (trivial l).Sound P m := by
  intro s _
  unfold SoundAt
  cases m s with
  | ok a s' => exact ⟨h a, kept_trivial s'⟩
  | error e s' => exact ⟨True.intro, fun _ => kept_trivial s'⟩

end Norm

end ScriptSandbox

import ScriptSandbox.Proofs.Counters

/-!
# Quotas that are raised

Raising the quotas of a run can only let it go on where it was stopped: what an operation computes
does not depend on them. `UpToQuota` says of two results that they are equal unless the first is the
error of an exhausted quota, and `RunsUpToQuota` says it of two computations at every state. Both are
kept by sequencing, so that it is enough to look at the checks themselves.
-/

namespace ScriptSandbox

/-- An error reports an exhausted quota. -/
def Error.IsQuota (e : Error) : Prop := e.kind.quota?.isSome = true

theorem Error.isQuota_limitExceeded (quota : Quota) (max : Nat) :
    (Error.limitExceeded quota max).IsQuota := rfl

/-- Scripts cannot catch the error of an exhausted quota. -/
theorem Error.IsQuota.not_catchable {e : Error} (h : e.IsQuota) : e.isCatchable = false := by
  obtain ⟨kind, span, passed⟩ := e
  cases kind <;> first | rfl | cases h

/-- All quotas on sizes are at most those of other limits. -/
structure SizeLimits.Below (l l' : SizeLimits) : Prop where
  string : l.maxStringLength ≤ l'.maxStringLength
  container : l.maxContainerSize ≤ l'.maxContainerSize
  powerBase : l.maxPowerBase ≤ l'.maxPowerBase
  power : l.maxPower ≤ l'.maxPower

/-! ## Results -/

/-- Two results are equal unless the first is the error of an exhausted quota. -/
def UpToQuota {α : Type} (x x' : Except Error α) : Prop :=
  (∃ e, x = .error e ∧ e.IsQuota) ∨ x = x'

namespace UpToQuota

variable {α β : Type} {x x' : Except Error α} {l l' : SizeLimits}

theorem refl (x : Except Error α) : UpToQuota x x := .inr rfl

theorem exhausted (quota : Quota) (max : Nat) :
    UpToQuota (.error (.limitExceeded quota max)) x :=
  .inl ⟨_, rfl, Error.isQuota_limitExceeded quota max⟩

theorem bind {f f' : α → Except Error β} (h : UpToQuota x x')
    (hf : ∀ a, UpToQuota (f a) (f' a)) : UpToQuota (x >>= f) (x' >>= f') := by
  obtain ⟨e, rfl, he⟩ | rfl := h
  · exact .inl ⟨e, rfl, he⟩
  · cases x with
    | ok a => exact hf a
    | error e => exact refl _

theorem map (h : UpToQuota x x') (f : α → β) : UpToQuota (x.map f) (x'.map f) := by
  obtain ⟨e, rfl, he⟩ | rfl := h
  · exact .inl ⟨e, rfl, he⟩
  · exact refl _

theorem mapM {γ : Type} {f f' : γ → Except Error β} (h : ∀ c, UpToQuota (f c) (f' c)) :
    ∀ xs : List γ, UpToQuota (xs.mapM f) (xs.mapM f')
  | [] => refl _
  | c :: xs => by
    rw [List.mapM_cons, List.mapM_cons]
    exact (h c).bind fun _ => (mapM h xs).bind fun _ => refl _

/-! ### Checks -/

theorem checkString (h : l.Below l') (n : Nat) : UpToQuota (l.checkString n) (l'.checkString n) := by
  have := h.string
  unfold SizeLimits.checkString
  split
  · exact exhausted _ _
  · rw [if_neg (by omega)]
    exact refl _

theorem checkContainer (h : l.Below l') (n : Nat) :
    UpToQuota (l.checkContainer n) (l'.checkContainer n) := by
  have := h.container
  unfold SizeLimits.checkContainer
  split
  · exact exhausted _ _
  · rw [if_neg (by omega)]
    exact refl _

theorem checkIterable (h : l.Below l') (v : Value) :
    UpToQuota (l.checkIterable v) (l'.checkIterable v) := by
  cases v with
  | range r => exact checkContainer h r.length
  | _ => exact refl _

end UpToQuota

/-! ## Computations -/

/-- At every state two computations end alike unless the first ends with an exhausted quota. -/
def RunsUpToQuota {σ α : Type} (m m' : EStateM Error σ α) : Prop :=
  ∀ s, (∃ e t, m s = .error e t ∧ e.IsQuota) ∨ m s = m' s

namespace RunsUpToQuota

variable {σ α β : Type} {m m' : EStateM Error σ α}

theorem refl (m : EStateM Error σ α) : RunsUpToQuota m m := fun _ => .inr rfl

/-- What comes next has to agree for results of the first part only. -/
theorem bind_of_ok {f f' : α → EStateM Error σ β} (h : RunsUpToQuota m m')
    (hf : ∀ {s a t}, m s = .ok a t → RunsUpToQuota (f a) (f' a)) :
    RunsUpToQuota (m >>= f) (m' >>= f') := by
  intro s
  show (∃ e t, EStateM.bind m f s = .error e t ∧ e.IsQuota) ∨ EStateM.bind m f s = EStateM.bind m' f' s
  unfold EStateM.bind
  obtain ⟨e, t, he, hquota⟩ | heq := h s
  · rw [he]
    exact .inl ⟨e, t, rfl, hquota⟩
  · rw [← heq]
    cases hm : m s with
    | ok a t => exact hf hm t
    | error e t => exact .inr rfl

theorem bind {f f' : α → EStateM Error σ β} (h : RunsUpToQuota m m')
    (hf : ∀ a, RunsUpToQuota (f a) (f' a)) : RunsUpToQuota (m >>= f) (m' >>= f') :=
  h.bind_of_ok fun _ => hf _

theorem ofExcept {x x' : Except Error α} (h : UpToQuota x x') :
    RunsUpToQuota (StoreM.ofExcept x) (StoreM.ofExcept x') := by
  intro s
  obtain ⟨e, rfl, he⟩ | rfl := h
  · exact .inl ⟨e, s, rfl, he⟩
  · exact .inr rfl

theorem look {f f' : Store → Except Error α} (h : ∀ s, UpToQuota (f s) (f' s)) :
    RunsUpToQuota (StoreM.look f) (StoreM.look f') := by
  intro s
  simp only [StoreM.look]
  obtain ⟨e, he, hquota⟩ | heq := h s
  · rw [he]
    exact .inl ⟨e, s, rfl, hquota⟩
  · rw [heq]
    exact .inr rfl

end RunsUpToQuota

end ScriptSandbox

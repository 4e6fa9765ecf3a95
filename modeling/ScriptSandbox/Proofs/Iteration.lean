import ScriptSandbox.Builtin.Call
import ScriptSandbox.Method

/-!
# Iteration: no call walks a range that is longer than a container may be

Functions and methods walk some of their arguments item by item, and nothing interrupts them on the
way. `Builtin.sources` and `Method.sources` say which arguments these are, once the other ones are in
order, and `Reached` which of them a call gets to. Each is opened before it is walked, and the first
refusal decides the call (`Builtin.call_of_refusal`, `Method.call_of_refusal`); a range that is too
long is refused. Pairs for a dict are the exception: they are read without a look at the quota.
-/

namespace ScriptSandbox

/-! ## Operations that fail and leave the store as it is -/

/-- At a store, an operation ends in an error and leaves the store as it is. -/
def FailsAt {α : Type} (m : StoreM α) (s : Store) (e : Error) : Prop := m s = .error e s

namespace FailsAt

variable {α β : Type} {m : StoreM α} {f : α → StoreM β} {s : Store} {e : Error}

theorem bind (h : FailsAt m s e) : FailsAt (m >>= f) s e := by
  show EStateM.bind m f s = .error e s
  simp only [EStateM.bind, show m s = .error e s from h]

/-- What comes before may only look. -/
theorem after {a : α} (hm : m s = .ok a s) (h : FailsAt (f a) s e) : FailsAt (m >>= f) s e := by
  show EStateM.bind m f s = .error e s
  simp only [EStateM.bind, hm]
  exact h

theorem look {g : Store → Except Error α} (h : g s = .error e) : FailsAt (StoreM.look g) s e := by
  simp only [FailsAt, StoreM.look, h]

end FailsAt

/-! ## The first refusal decides -/

/-- A value that a traversal gets to: what comes before it is read without error. -/
def Reached {α : Type} (read : Value → Except Error α) (sources : List Value) (v : Value) : Prop :=
  ∃ before after, sources = before ++ v :: after ∧ ∀ w ∈ before, ∃ a, read w = .ok a

namespace Reached

variable {α : Type} {read : Value → Except Error α} {sources : List Value} {v : Value} {e : Error}

theorem mapM_eq (h : Reached read sources v) (hv : read v = .error e) :
    sources.mapM read = .error e := by
  obtain ⟨before, after, rfl, hbefore⟩ := h
  induction before with
  | nil =>
    rw [List.nil_append, List.mapM_cons, hv]
    rfl
  | cons w before ih =>
    obtain ⟨a, ha⟩ := hbefore w (by simp)
    rw [List.cons_append, List.mapM_cons, ha]
    show (do
      let rest ← (before ++ v :: after).mapM read
      pure (a :: rest)) = _
    rw [ih fun w hw => hbefore w (by simp [hw])]
    rfl

theorem eq_of_length_le (h : Reached read sources v) (one : sources.length ≤ 1) :
    sources = [v] := by
  obtain ⟨before, after, rfl, -⟩ := h
  cases before <;> cases after <;> simp at one ⊢

end Reached

/-- What is asked of a value before it is walked. -/
def Store.opened (s : Store) (limits : SizeLimits) (source : Value) : Except Error Items := do
  limits.checkIterable source
  s.iterate source

theorem Store.opened_bind {α : Type} {s : Store} {limits : SizeLimits} {v : Value} {e : Error}
    {f : Items → Except Error α} (h : s.opened limits v = .error e) : (do
      limits.checkIterable v
      let items ← s.iterate v
      f items) = .error e := by
  unfold Store.opened at h
  cases hv : limits.checkIterable v with
  | error e' =>
    rw [hv] at h
    cases h
    rfl
  | ok =>
    rw [hv] at h
    have hi : s.iterate v = .error e := h
    rw [hi]
    rfl

theorem Store.opened_failsAt {α : Type} {s : Store} {limits : SizeLimits} {v : Value} {e : Error}
    {f : Items → StoreM α} (h : s.opened limits v = .error e) : FailsAt (do
      StoreM.ofExcept (limits.checkIterable v)
      let items ← StoreM.look (·.iterate v)
      f items) s e := by
  unfold Store.opened at h
  cases hv : limits.checkIterable v with
  | error e' =>
    rw [hv] at h
    cases h
    exact FailsAt.bind rfl
  | ok =>
    rw [hv] at h
    exact FailsAt.after rfl (FailsAt.bind (.look h))

theorem Store.opened_range {s : Store} {limits : SizeLimits} {r : Range}
    (long : limits.maxContainerSize < r.length) :
    s.opened limits (.range r) =
      .error (.limitExceeded .containerSize limits.maxContainerSize) := by
  simp only [Store.opened, SizeLimits.checkIterable, SizeLimits.checkContainer, if_pos long]
  rfl

/-- Either the arguments as a whole are refused, or one of those to walk is reached and cannot be
opened. -/
def Refusal {α : Type} (limits : SizeLimits) (s : Store) (read : Value → Except Error α)
    (sources : Except Error (List Value)) (e : Error) : Prop :=
  sources = .error e ∨
    ∃ found v, sources = .ok found ∧ Reached read found v ∧ s.opened limits v = .error e

namespace Refusal

variable {α β γ : Type} {limits : SizeLimits} {s : Store} {read : Value → Except Error α} {e : Error}
  {x : Except Error β} {g : β → Except Error (List Value)}

/-- What is asked of the arguments first is either refused or says what is asked next. -/
theorem step (h : Refusal limits s read (x >>= g) e) :
    x = .error e ∨ ∃ b, x = .ok b ∧ Refusal limits s read (g b) e := by
  cases x with
  | error e' =>
    obtain h | ⟨_, _, h, -⟩ := h
    · cases h
      exact .inl rfl
    · cases h
  | ok b => exact .inr ⟨b, rfl, h⟩

theorem refused {e' : Error} {g : β → Except Error (List Value)}
    (h : Refusal limits s read (.error e' >>= g) e) : e' = e := by
  obtain h | ⟨_, h, -⟩ := h.step
  · exact Except.error.inj h
  · cases h

theorem bind {f : β → Except Error γ} (h : Refusal limits s read (x >>= g) e)
    (hf : ∀ b, Refusal limits s read (g b) e → f b = .error e) : x >>= f = .error e := by
  obtain rfl | ⟨b, rfl, hb⟩ := h.step
  · rfl
  · exact hf b hb

theorem failsAt {f : β → StoreM γ} (h : Refusal limits s read (x >>= g) e)
    (hf : ∀ b, Refusal limits s read (g b) e → FailsAt (f b) s e) :
    FailsAt (StoreM.ofExcept x >>= f) s e := by
  obtain rfl | ⟨b, rfl, hb⟩ := h.step
  · exact FailsAt.bind rfl
  · exact FailsAt.after rfl (hf b hb)

theorem reached {found : List Value} (h : Refusal limits s read (pure found) e) :
    ∃ v, Reached read found v ∧ s.opened limits v = .error e := by
  obtain h | ⟨_, v, h, hv⟩ := h
  · cases h
  · cases h
    exact ⟨v, hv⟩

theorem opened {v : Value} (h : Refusal limits s read (pure [v]) e) :
    s.opened limits v = .error e := by
  obtain ⟨w, hw, he⟩ := h.reached
  cases hw.eq_of_length_le (Nat.le_refl 1)
  exact he

theorem false (h : Refusal limits s read (pure []) e) : False := by
  obtain ⟨_, ⟨before, after, h, -⟩, -⟩ := h.reached
  cases before <;> cases h

end Refusal

/-! ## Functions of the preset -/

namespace Builtin

variable {limits : SizeLimits} {s : Store} {args : Arguments} {v : Value} {e : Error}

/-- The arguments that a call walks item by item, in their order. A call that is refused for its other
arguments walks none. -/
def sources (b : Builtin) (args : Arguments) : Except Error (List Value) :=
  match b with
  | list => optional "list" args
  | tuple => optional "tuple" args
  | set => optional "set" args
  | dict => do
    args.expect "dict" 0 (some 1)
    pure args.positional.head?.toList
  | min => extremum "min" args
  | max => extremum "max" args
  | sum => do
    args.expect "sum" 1 (some 2)
    let (start, args) := args.takeAt 1 "start"
    args.expectNoKeywords "sum"
    if (start.getD (.int 0)).toStr?.isSome then throw .cannotSumStrings
    pure [args.positional.headD .null]
  | sorted => single "sorted" (args.takeKeyword "reverse").2
  | enumerate => do
    args.expect "enumerate" 1 (some 2)
    let (start, args) := args.takeAt 1 "start"
    let _ ←
      match start with
      | none => pure 0
      | some start => Arguments.intOf "enumerate" start
    args.expectNoKeywords "enumerate"
    pure [args.positional.headD .null]
  | zip => do
    args.expectNoKeywords "zip"
    pure args.positional
  | any => single "any" args
  | all => single "all" args
  | _ => pure []
where
  single (func : String) (args : Arguments) : Except Error (List Value) := do
    args.expectPositional func 1 (some 1)
    pure [args.positional.headD .null]
  optional (func : String) (args : Arguments) : Except Error (List Value) := do
    args.expectPositional func 0 (some 1)
    pure args.positional.head?.toList
  /-- One argument stands for its items, several for themselves. -/
  extremum (func : String) (args : Arguments) : Except Error (List Value) := do
    let (_, args) := args.takeKeyword "default"
    args.expectPositional func 1 none
    match args.positional with
    | [source] => pure [source]
    | _ => pure []

theorem collect_eq (h : s.opened limits v = .error e) : collect limits s v = .error e := by
  have opens : collect limits s v = (s.opened limits v >>= fun items => do
      limits.checkContainer items.toArray.size
      pure items.toArray) := by
    unfold collect Store.opened
    cases limits.checkIterable v <;> rfl
  rw [opens, h]
  rfl

theorem collectOptional_eq {func : String}
    (h : Refusal limits s (collect limits s) (sources.optional func args) e) :
    collectOptional func limits s args = .error e := by
  refine h.bind fun _ h => ?_
  cases hsource : args.positional.head? with
  | none =>
    rw [hsource] at h
    exact h.false.elim
  | some source =>
    rw [hsource] at h
    exact collect_eq h.opened

theorem callList_of_refusal (h : Refusal limits s (collect limits s) (sources list args) e) :
    FailsAt (callList limits args) s e :=
  FailsAt.bind (.look (collectOptional_eq h))

theorem callSet_of_refusal (h : Refusal limits s (collect limits s) (sources set args) e) :
    FailsAt (callSet limits args) s e :=
  FailsAt.bind (.look (collectOptional_eq h))

theorem callTuple_of_refusal (h : Refusal limits s (collect limits s) (sources tuple args) e) :
    FailsAt (callTuple limits args) s e := by
  refine h.failsAt fun _ h' => ?_
  split
  · rename_i hargs
    rw [hargs] at h'
    cases h'.opened
  · exact FailsAt.bind (.look (collectOptional_eq h))

theorem callExtremum_of_refusal {func : String} {better : Ordering}
    (h : Refusal limits s (collect limits s) (sources.extremum func args) e) :
    callExtremum func better limits s args = .error e := by
  unfold callExtremum
  unfold sources.extremum at h
  generalize args.takeKeyword "default" = taken at h ⊢
  obtain ⟨default, positional, keywords⟩ := taken
  refine h.bind fun _ h => ?_
  rcases positional with _ | ⟨source, _ | ⟨next, rest⟩⟩
  · exact h.false.elim
  · have hcollect : collect limits s source = .error e := collect_eq h.opened
    simp only [hcollect]
    rfl
  · exact h.false.elim

theorem callSum_of_refusal {ctx : CallContext}
    (h : Refusal ctx.limits s (collect ctx.limits s) (sources sum args) e) :
    FailsAt (callSum ctx args) s e := by
  refine h.failsAt fun _ h => ?_
  generalize args.takeAt 1 "start" = taken at h ⊢
  obtain ⟨start, rest⟩ := taken
  refine h.failsAt fun _ h => ?_
  by_cases text : (start.getD (.int 0)).toStr?.isSome = true
  · simp only [text, if_true] at h ⊢
    obtain refused | ⟨_, ok, -⟩ := h.step
    · cases refused
      exact FailsAt.bind rfl
    · cases ok
  · simp only [text] at h ⊢
    exact Store.opened_failsAt h.opened

theorem callSorted_of_refusal (h : Refusal limits s (collect limits s) (sources sorted args) e) :
    FailsAt (callSorted limits args) s e := by
  refine h.failsAt fun _ h => FailsAt.bind (.look ?_)
  have hcollect : collect limits s (args.positional.headD .null) = .error e := collect_eq h.opened
  rw [hcollect]
  rfl

theorem callEnumerate_of_refusal
    (h : Refusal limits s (collect limits s) (sources enumerate args) e) :
    FailsAt (callEnumerate limits args) s e := by
  refine h.failsAt fun _ h => ?_
  generalize args.takeAt 1 "start" = taken at h ⊢
  obtain ⟨start, rest⟩ := taken
  have rejoin : ∀ index : Int64, Refusal limits s (collect limits s) (do
      rest.expectNoKeywords "enumerate"
      pure [rest.positional.headD .null]) e → FailsAt (do
      StoreM.ofExcept (rest.expectNoKeywords "enumerate")
      let items ← StoreM.look (collect limits · (rest.positional.headD .null))
      StoreM.newList (← numberFrom index #[] items.toList)) s e := fun _ h =>
    h.failsAt fun _ h => FailsAt.bind (.look (collect_eq h.opened))
  cases start with
  | none => exact FailsAt.after rfl (rejoin 0 h)
  | some start => exact Refusal.failsAt h fun index h => rejoin index h

theorem callZip_of_refusal (h : Refusal limits s (collect limits s) (sources zip args) e) :
    FailsAt (callZip limits args) s e := by
  refine h.failsAt fun _ h => ?_
  obtain ⟨v, hv, he⟩ := h.reached
  exact FailsAt.bind (.look (hv.mapM_eq (collect_eq he)))

theorem callQuantifier_of_refusal {func : String} {existential : Bool} {ctx : CallContext}
    (h : Refusal ctx.limits s (collect ctx.limits s) (sources.single func args) e) :
    callQuantifier func existential ctx s args = .error e := by
  exact h.bind fun _ h => Store.opened_bind h.opened

/-- The first refusal decides a call, but for pairs. -/
theorem call_of_refusal {b : Builtin} {ctx : CallContext} (hb : b ≠ dict)
    (h : Refusal ctx.limits s (collect ctx.limits s) (b.sources args) e) :
    FailsAt (b.call ctx args) s e := by
  cases b
  case list => exact callList_of_refusal h
  case tuple => exact callTuple_of_refusal h
  case set => exact callSet_of_refusal h
  case dict => exact absurd rfl hb
  case min => exact .look (callExtremum_of_refusal h)
  case max => exact .look (callExtremum_of_refusal h)
  case sum => exact callSum_of_refusal h
  case sorted => exact callSorted_of_refusal h
  case enumerate => exact callEnumerate_of_refusal h
  case zip => exact callZip_of_refusal h
  case any => exact .look (callQuantifier_of_refusal h)
  case all => exact .look (callQuantifier_of_refusal h)
  all_goals exact h.false.elim

end Builtin

/-! ## Methods -/

/-- One argument is neither more nor less than a function of one argument takes. -/
theorem Arguments.expect_one (args : Arguments) (func : String) : args.expect func 1 (some 1) =
    match args.positional with
    | [_] => .ok ()
    | other => .error (.wrongArity func other.length 1 (some 1)) := by
  unfold Arguments.expect
  split
  · rename_i source hargs
    simp [hargs]
  · rename_i hargs
    refine if_neg fun bounds => ?_
    obtain ⟨source, hsource⟩ := List.length_eq_one_iff.1
      (Nat.le_antisymm (by simpa using bounds.2) bounds.1)
    exact hargs source hsource

variable {limits : SizeLimits} {s : Store} {args : Arguments} {v : Value} {e : Error}

namespace ListMethod

/-- The arguments that a call walks item by item. -/
def sources (m : ListMethod) (args : Arguments) : Except Error (List Value) :=
  match m with
  | extend => do
    args.expectNoKeywords extend.qualifiedName
    args.expect extend.qualifiedName 1 (some 1)
    pure [args.positional.headD .null]
  | _ => pure []

theorem call_of_refusal {m : ListMethod} {r : ListRef}
    (h : Refusal limits s (SetMethod.asSet limits s) (m.sources args) e) :
    FailsAt (m.call limits r args) s e := by
  cases m
  case extend =>
    refine h.failsAt fun _ h => ?_
    rw [Arguments.expect_one] at h
    show FailsAt (run extend limits r args.positional) s e
    rcases hargs : args.positional with _ | ⟨source, _ | ⟨_, _⟩⟩ <;> rw [hargs] at h
    · cases h.refused
      rfl
    · exact Store.opened_failsAt h.opened
    · cases h.refused
      rfl
  all_goals exact h.false.elim

end ListMethod

namespace TextMethod

/-- The arguments that a call walks item by item. -/
def sources (m : TextMethod) (args : Arguments) : Except Error (List Value) :=
  match m with
  | join => do
    args.expectNoKeywords join.qualifiedName
    args.expect join.qualifiedName 1 (some 1)
    pure [args.positional.headD .null]
  | _ => pure []

theorem call_of_refusal {m : TextMethod} {text : String}
    (h : Refusal limits s (SetMethod.asSet limits s) (m.sources args) e) :
    FailsAt (m.call limits text args) s e := by
  cases m
  case join =>
    refine h.failsAt fun _ h => .look ?_
    rw [Arguments.expect_one] at h
    rcases hargs : args.positional with _ | ⟨source, _ | ⟨_, _⟩⟩ <;> rw [hargs] at h
    · cases h.refused
      rfl
    · exact Store.opened_bind h.opened
    · cases h.refused
      rfl
  all_goals exact h.false.elim

end TextMethod

namespace SetMethod

/-- The arguments that a call walks item by item, in their order. -/
def sources (m : SetMethod) (args : Arguments) : Except Error (List Value) :=
  match m with
  | update | union | intersection | difference => do
    args.expectNoKeywords m.qualifiedName
    pure args.positional
  | _ => pure []

theorem asSet_eq (h : s.opened limits v = .error e) : asSet limits s v = .error e := by
  cases v
  case set => cases h
  all_goals exact Store.opened_bind h

theorem algebra_of_refusal {operation : KeySet → KeySet → KeySet} {r : SetRef}
    {found : List Value} (h : Refusal limits s (asSet limits s) (pure found) e) :
    FailsAt (algebra operation limits r found) s e := by
  obtain ⟨v, hv, he⟩ := h.reached
  refine FailsAt.bind (.look ?_)
  rw [hv.mapM_eq (asSet_eq he)]
  rfl

theorem call_of_refusal {m : SetMethod} {r : SetRef}
    (h : Refusal limits s (asSet limits s) (m.sources args) e) :
    FailsAt (m.call limits r args) s e := by
  cases m
  case update =>
    refine h.failsAt fun _ h => ?_
    obtain ⟨v, hv, he⟩ := h.reached
    exact FailsAt.bind (.look (hv.mapM_eq (asSet_eq he)))
  case union => exact h.failsAt fun _ h => algebra_of_refusal h
  case intersection => exact h.failsAt fun _ h => algebra_of_refusal h
  case difference => exact h.failsAt fun _ h => algebra_of_refusal h
  all_goals exact h.false.elim

end SetMethod

/-! ## Pairs for a dict -/

namespace DictMethod

/-- The arguments that a call walks item by item. -/
def sources (m : DictMethod) (args : Arguments) : Except Error (List Value) :=
  match m with
  | update => do
    args.expect update.qualifiedName 0 (some 1)
    pure args.positional.head?.toList
  | _ => pure []

end DictMethod

namespace Store

/-- An item that is walked when a value is read as pairs: an iterable other than a dict, behind items
that are pairs. -/
def WalksItem (s : Store) (source v : Value) : Prop :=
  (∀ r, source ≠ .dict r) ∧ ∃ items, s.iterate source = .ok items ∧
    Reached (s.pairAt 0) items.toList v

/-- Why a range of more than two numbers cannot be read as pairs or as one of them. -/
inductive MisfitRange (r : Range) : Error → Prop
  | source : MisfitRange r (Error.notIterable (.int (r.element 0)))
  | item (position : Nat) : MisfitRange r (Error.badPairLength position r.length)

theorem pairAt_range {r : Range} {position : Nat} (h : 2 < r.length) :
    s.pairAt position (.range r) = .error (Error.badPairLength position r.length) := by
  simp only [pairAt, iterate, bind, Except.bind]
  split
  · rename_i hsize _
    exact absurd hsize (by simp only [Items.size]; omega)
  · rfl

theorem pairAt_position {p q : Nat} {pair : Value × Value} (h : s.pairAt p v = .ok pair) :
    s.pairAt q v = .ok pair := by
  unfold pairAt at h ⊢
  cases hv : s.iterate v with
  | error e =>
    rw [hv] at h
    cases h
  | ok parts =>
    rw [hv] at h
    dsimp only [bind, Except.bind] at h ⊢
    split at h
    · exact h
    · cases h

theorem pairsFrom_range {items : List Value} {r : Range} (h : Reached (s.pairAt 0) items (.range r))
    (long : 2 < r.length) : ∀ (position : Nat) (found : List (Value × Value)),
    ∃ e, s.pairsFrom position found items = .error e ∧ MisfitRange r e := by
  obtain ⟨before, after, rfl, hbefore⟩ := h
  induction before with
  | nil =>
    intro position found
    refine ⟨_, ?_, .item position⟩
    simp only [List.nil_append, pairsFrom, pairAt_range long]
  | cons w before ih =>
    intro position found
    obtain ⟨pair, hpair⟩ := hbefore w (by simp)
    obtain ⟨e, he, hr⟩ := ih (fun w hw => hbefore w (by simp [hw])) (position + 1) (pair :: found)
    refine ⟨e, ?_, hr⟩
    simp only [List.cons_append, pairsFrom, pairAt_position hpair]
    exact he

theorem pairs_range {r : Range} (h : 0 < r.length) :
    s.pairs (.range r) = .error (.notIterable (.int (r.element 0))) := by
  have first : (Items.range r).take 1 = [.int (r.element 0)] := by
    simp only [Items.take, Items.size, Nat.min_eq_left h]
    rfl
  show s.pairsFrom 0 [] ((Items.range r).take 1) = _
  rw [first]
  rfl

theorem pairs_of_walksItem {source : Value} {r : Range} (h : s.WalksItem source (.range r))
    (long : 2 < r.length) : ∃ e, s.pairs source = .error e ∧ MisfitRange r e := by
  obtain ⟨notDict, items, hitems, hreached⟩ := h
  cases source
  case dict r => exact absurd rfl (notDict r)
  case range r' =>
    -- the items of a range are numbers
    obtain rfl : Items.range r' = items := Except.ok.inj hitems
    obtain ⟨before, after, hsplit, -⟩ := hreached
    have hmem : Value.range r ∈ (Items.range r').toList := by
      rw [hsplit]
      simp
    simp [Items.toList, Items.toArray] at hmem
  all_goals
    obtain ⟨e, he, hr⟩ := pairsFrom_range hreached long 0 []
    exact ⟨e, by simp only [pairs, hitems, Except.bind, he], hr⟩

end Store

namespace Builtin

/-- A value that a call walks: an argument that it gets to or, when it reads pairs, an item of one. -/
def Walks (b : Builtin) (limits : SizeLimits) (s : Store) (args : Arguments) (v : Value) : Prop :=
  ∃ found, b.sources args = .ok found ∧
    (Reached (collect limits s) found v ∨ b = dict ∧ ∃ source ∈ found, s.WalksItem source v)

end Builtin

/-- An optional argument that is read as pairs is refused for a range of more than two numbers. -/
theorem Store.pairs_of_walks {r : Range} {α : Type} {read : Value → Except Error α}
    {source : Option Value} (long : 2 < r.length)
    (h : Reached read source.toList (.range r) ∨ ∃ v ∈ source.toList, s.WalksItem v (.range r)) :
    ∃ v e, source = some v ∧ s.pairs v = .error e ∧ MisfitRange r e := by
  cases source with
  | none =>
    obtain ⟨before, after, h, -⟩ | ⟨v, h, -⟩ := h
    · cases before <;> cases h
    · cases h
  | some source =>
    obtain h | ⟨v, hv, hitem⟩ := h
    · cases h.eq_of_length_le (Nat.le_refl 1)
      exact ⟨_, _, rfl, pairs_range (by omega), .source⟩
    · obtain rfl : v = source := by simpa using hv
      obtain ⟨e, he, hr⟩ := pairs_of_walksItem hitem long
      exact ⟨v, e, rfl, he, hr⟩

namespace Method

/-- The arguments that a call walks item by item, in their order. -/
def sources (receiver : Value) (name : String) (args : Arguments) : Except Error (List Value) :=
  match receiver with
  | .list _ => ((ListMethod.all.find? (·.name == name)).map (·.sources args)).getD (pure [])
  | .dict _ => ((DictMethod.all.find? (·.name == name)).map (·.sources args)).getD (pure [])
  | .set _ => ((SetMethod.all.find? (·.name == name)).map (·.sources args)).getD (pure [])
  | .str _ => ((TextMethod.all.find? (·.name == name)).map (·.sources args)).getD (pure [])
  | _ => pure []

/-- Whether a method reads its argument as pairs. -/
def ReadsPairs (receiver : Value) (name : String) : Prop :=
  name = DictMethod.update.name ∧ ∃ r, receiver = .dict r

/-- A value that a call walks: an argument that it gets to or, when it reads pairs, an item of one. -/
def Walks (receiver : Value) (name : String) (limits : SizeLimits) (s : Store) (args : Arguments)
    (v : Value) : Prop :=
  ∃ found, sources receiver name args = .ok found ∧
    (Reached (SetMethod.asSet limits s) found v ∨
      ReadsPairs receiver name ∧ ∃ source ∈ found, s.WalksItem source v)

theorem exists_of_refusal {M : Type} {found : Option M} {sources : M → Except Error (List Value)}
    (h : Refusal limits s (SetMethod.asSet limits s) ((found.map sources).getD (pure [])) e) :
    ∃ m, found = some m ∧ Refusal limits s (SetMethod.asSet limits s) (sources m) e := by
  cases found with
  | none => exact h.false.elim
  | some m => exact ⟨m, rfl, h⟩

/-- The first refusal decides a call, but for pairs. -/
theorem call_of_refusal {receiver : Value} {name : String} (hpairs : ¬ReadsPairs receiver name)
    (h : Refusal limits s (SetMethod.asSet limits s) (sources receiver name args) e) :
    FailsAt (call limits receiver name args) s e := by
  cases receiver
  case list r =>
    obtain ⟨m, hm, h⟩ := exists_of_refusal h
    simp only [call, hm]
    exact ListMethod.call_of_refusal h
  case dict r =>
    obtain ⟨m, hm, h⟩ := exists_of_refusal h
    cases m
    case update =>
      have named : (DictMethod.update.name == name) = true :=
        List.find?_some (p := fun m : DictMethod => m.name == name) hm
      exact absurd ⟨(eq_of_beq named).symm, r, rfl⟩ hpairs
    all_goals exact h.false.elim
  case set r =>
    obtain ⟨m, hm, h⟩ := exists_of_refusal h
    simp only [call, hm]
    exact SetMethod.call_of_refusal h
  case str text =>
    obtain ⟨m, hm, h⟩ := exists_of_refusal h
    simp only [call, hm]
    exact TextMethod.call_of_refusal h
  all_goals exact h.false.elim

end Method

theorem Arguments.length_le_of_expect {func : String} {atLeast atMost : Nat}
    (h : args.expect func atLeast (some atMost) = .ok ()) : args.positional.length ≤ atMost := by
  unfold Arguments.expect at h
  dsimp only at h
  split at h
  · rename_i bounds
    simpa using bounds.2
  · cases h

theorem Builtin.callDict_of_walks {r : Range} (h : dict.Walks limits s args (.range r))
    (long : 2 < r.length) : ∃ e, FailsAt (callDict limits args) s e ∧ Store.MisfitRange r e := by
  obtain ⟨found, hfound, hwalks⟩ := h
  cases harity : args.expect "dict" 0 (some 1) with
  | error e =>
    simp only [sources, harity] at hfound
    cases hfound
  | ok =>
    simp only [sources, harity] at hfound
    cases hfound
    obtain ⟨source, e, hsource, he, hr⟩ := Store.pairs_of_walks long (hwalks.imp id And.right)
    refine ⟨e, ?_, hr⟩
    unfold callDict
    rw [harity, hsource]
    exact FailsAt.after rfl (FailsAt.bind (.look he))

theorem DictMethod.call_update_of_walks {d : DictRef} {r : Range}
    (h : Method.Walks (.dict d) update.name limits s args (.range r)) (long : 2 < r.length) :
    ∃ e, FailsAt (Method.call limits (.dict d) update.name args) s e ∧ Store.MisfitRange r e := by
  obtain ⟨found, hfound, hwalks⟩ := h
  have hsources : (do
      args.expect update.qualifiedName 0 (some 1)
      pure args.positional.head?.toList) = Except.ok found := hfound
  cases harity : args.expect update.qualifiedName 0 (some 1) with
  | error e =>
    rw [harity] at hsources
    cases hsources
  | ok =>
    rw [harity] at hsources
    cases hsources
    obtain ⟨source, e, hsource, he, hr⟩ := Store.pairs_of_walks long (hwalks.imp id And.right)
    refine ⟨e, ?_, hr⟩
    obtain ⟨rest, hpositional⟩ := List.head?_eq_some_iff.1 hsource
    have hlength := Arguments.length_le_of_expect harity
    rw [hpositional, List.length_cons] at hlength
    obtain rfl : rest = [] := List.length_eq_zero_iff.1 (by omega)
    show FailsAt (run update limits d args) s e
    simp only [run, hpositional]
    exact FailsAt.bind (.look he)

/-- No call walks a range that is longer than a container may be: the call fails at the quota and
changes nothing. Where pairs are read, a long range is no pair and has none, so that such a call fails
all the same unless the quota is below two. -/
theorem walked_range_refused (ctx : CallContext) (s : Store) {r : Range}
    (long : ctx.limits.maxContainerSize < r.length) :
    let tooLarge : Error := .limitExceeded .containerSize ctx.limits.maxContainerSize
    (∀ (b : Builtin) (args : Arguments), b ≠ .dict → b.Walks ctx.limits s args (.range r) →
      FailsAt (b.call ctx args) s tooLarge) ∧
    (∀ (receiver : Value) (name : String) (args : Arguments), ¬Method.ReadsPairs receiver name →
      Method.Walks receiver name ctx.limits s args (.range r) →
      FailsAt (Method.call ctx.limits receiver name args) s tooLarge) ∧
    (2 ≤ ctx.limits.maxContainerSize →
      (∀ args, Builtin.dict.Walks ctx.limits s args (.range r) →
        ∃ e, FailsAt (Builtin.dict.call ctx args) s e ∧ Store.MisfitRange r e) ∧
      ∀ receiver name args, Method.ReadsPairs receiver name →
        Method.Walks receiver name ctx.limits s args (.range r) →
        ∃ e, FailsAt (Method.call ctx.limits receiver name args) s e ∧ Store.MisfitRange r e) := by
  -- a range that is walked is refused before any of its elements is read
  have refused {α : Type} {read : Value → Except Error α} {sources : Except Error (List Value)}
      {found : List Value} (hfound : sources = .ok found) (h : Reached read found (.range r)) :
      Refusal ctx.limits s read sources
        (.limitExceeded .containerSize ctx.limits.maxContainerSize) :=
    .inr ⟨found, .range r, hfound, h, Store.opened_range long⟩
  refine ⟨fun b args hb => ?_, fun receiver name args hpairs => ?_, fun two => ⟨?_, ?_⟩⟩
  · rintro ⟨found, hfound, hreached | ⟨rfl, -⟩⟩
    · exact Builtin.call_of_refusal hb (refused hfound hreached)
    · exact absurd rfl hb
  · rintro ⟨found, hfound, hreached | ⟨hreads, -⟩⟩
    · exact Method.call_of_refusal hpairs (refused hfound hreached)
    · exact absurd hreads hpairs
  · exact fun args h => Builtin.callDict_of_walks h (by omega)
  · rintro receiver name args ⟨rfl, d, rfl⟩ h
    exact DictMethod.call_update_of_walks h (by omega)

/-- A range of three numbers where a container holds two: behind another column, behind another set,
and as a pair. -/
theorem range_of_three_refused :
    let ctx : CallContext := ⟨⟨10, 2, 10, 10⟩, 1, 1000000, fun _ => 0⟩
    let three : Value := .range ⟨0, 3, 1⟩
    let tooLarge : Error := .limitExceeded .containerSize 2
    FailsAt (Builtin.zip.call ctx (.ofList [.tuple 0 #[.int 7], three])) .empty tooLarge ∧
    FailsAt (Method.call ctx.limits (.set ⟨0⟩) "union" (.ofList [.set ⟨0⟩, three])) .empty
      tooLarge ∧
    ∃ e, FailsAt (Builtin.dict.call ctx (.ofList [.tuple 0 #[three]])) .empty e ∧
      Store.MisfitRange ⟨0, 3, 1⟩ e := by
  intro ctx three tooLarge
  have refused := walked_range_refused ctx .empty (r := ⟨0, 3, 1⟩) (by decide)
  refine ⟨refused.1 .zip _ nofun ⟨_, rfl, .inl ⟨[.tuple 0 #[.int 7]], [], rfl, ?_⟩⟩,
    refused.2.1 _ _ _ nofun ⟨[.set ⟨0⟩, three], rfl, .inl ⟨[.set ⟨0⟩], [], rfl, ?_⟩⟩,
    (refused.2.2 (Nat.le_refl 2)).1 _ ⟨_, rfl, .inr ⟨rfl, .tuple 0 #[three], ?_, ?_⟩⟩⟩
  · exact List.forall_mem_singleton.2 ⟨#[.int 7], rfl⟩
  · exact List.forall_mem_singleton.2 ⟨.empty, rfl⟩
  · exact List.mem_singleton_self _
  · exact ⟨nofun, .values #[three], rfl, [], [], rfl, nofun⟩

end ScriptSandbox

import ScriptSandbox.Builtin.Call
import ScriptSandbox.Proofs.Norm.Builtin.Conversion
import ScriptSandbox.Proofs.Norm.Comparison
import ScriptSandbox.Proofs.Norm.Operator

/-!
# Norms: functions of the preset

The pairs of an enumeration and the rows of a zip are made unchecked: the first have two items, the
others as many as there are arguments. Folds may end at the deadline.
-/

namespace ScriptSandbox.Norm.Builtin

open ScriptSandbox.Builtin

variable {l : Limits} {N : Norm l} {s : Store} {args : Arguments} {clock : Clock} {number : Nat}

/-! ## Folds -/

theorem pollDeadline (round : Nat) :
    N.Holds (fun _ => True) ((CallContext.ofCall l clock number).pollDeadline round) := by
  unfold CallContext.pollDeadline CallContext.checkDeadline
  exact .ite (.ite N.errs_timeout True.intro) True.intro

theorem callLen (args : Arguments) : N.Holds N.good (callLen s args) := by
  refine (expectPositional _ _ _ _).bind fun _ _ => ?_
  split
  iterate 6 exact Holds.ok (good_int _)
  exact Holds.plain rfl

theorem callRange (args : Arguments) : N.Holds N.good (callRange args) := by
  have ranged : ∀ start stop step : Int64, N.Holds N.good (do
      if step = 0 then throw .zeroRangeStep
      pure (.range ⟨start, stop, step⟩)) := fun _ _ _ => by
    split
    · exact Holds.plain rfl
    · exact N.good_data _ rfl
  refine (expectPositional _ _ _ _).bind fun _ _ => ?_
  refine (Holds.mapM fun x _ => intOf _ x).bind fun bounds _ => ?_
  split
  · rename_i stop _
    exact ranged 0 stop 1
  · rename_i start stop _
    exact ranged start stop 1
  · rename_i start stop step _
    exact ranged start stop step
  · exact ranged 0 0 1

theorem bestOf (better : Ordering) : ∀ {best : Value} {candidates : List Value}, N.good best →
    (∀ x ∈ candidates, N.good x) → N.Holds N.good (bestOf better s best candidates)
  | _, [], hbest, _ => hbest
  | best, candidate :: rest, hbest, h => by
    have ho := order (N := N) (s := s) candidate best
    rw [ScriptSandbox.Builtin.bestOf]
    split
    · refine bestOf better ?_ fun x hx => h x (by simp [hx])
      split
      · exact h candidate (by simp)
      · exact hbest
    · rename_i e he
      rw [he] at ho
      exact ho

theorem bestOrDefault (func : String) (better : Ordering) (s : Store) {candidates : List Value}
    {default : Option Value} : (∀ x ∈ candidates, N.good x) → (∀ v ∈ default, N.good v) →
    N.Holds N.good (match candidates, default with
      | first :: rest, _ => ScriptSandbox.Builtin.bestOf better s first rest
      | [], some default => pure default
      | [], none => throw (.emptySequence func)) := by
  intro h hdefault
  split
  · exact bestOf better (h _ (by simp)) fun x hx => h x (by simp [hx])
  · exact hdefault _ rfl
  · exact Holds.plain rfl

theorem callExtremum (func : String) (better : Ordering) (hs : N.Kept s) (h : N.GoodArgs args) :
    N.Holds N.good (callExtremum func better l.size s args) := by
  obtain ⟨hdefault, hargs⟩ := h.takeKeyword "default"
  unfold ScriptSandbox.Builtin.callExtremum
  dsimp only
  refine (expectPositional _ _ _ _).bind fun _ _ => ?_
  split
  · rename_i source hsource
    have hgood := hargs.positional source (by rw [hsource]; simp)
    refine Holds.bind (P := fun items => ∀ x ∈ items, N.good x) ?_ fun _ h =>
      bestOrDefault func better s h hdefault
    exact (collect hs hgood).map fun items hitems x hx => hitems.2 x (by simpa using hx)
  · exact bestOrDefault func better s hargs.positional hdefault

theorem sumFrom {items : Items} (hitems : N.GoodItems items) : ∀ (left position : Nat)
    {total : Value}, N.good total →
    N.Sound N.good (sumFrom (.ofCall l clock number) items total position left)
  | 0, _, _, h => Sound.pure h
  | left + 1, position, total, h => by
    rw [ScriptSandbox.Builtin.sumFrom]
    refine (Sound.ofExcept (pollDeadline position)).bind fun _ _ => ?_
    refine (binary .add h (hitems.item position)).bind fun total htotal => ?_
    exact sumFrom hitems left _ htotal

theorem callSum (h : N.GoodArgs args) : N.Sound N.good (callSum (.ofCall l clock number) args) := by
  obtain ⟨hstart, hargs⟩ := h.takeAt 1 "start"
  refine (Sound.ofExcept (expect _ _ _ _)).bind fun _ _ => ?_
  dsimp only
  refine (Sound.ofExcept (expectNoKeywords _ _)).bind fun _ _ => ?_
  split
  · exact Sound.plain rfl
  refine (Sound.ofExcept (checkIterable _)).bind fun _ _ => ?_
  refine (Sound.look fun s hs => iterate hs (good_headD hargs.positional)).bind fun items hitems => ?_
  refine sumFrom hitems _ 0 ?_
  cases hfound : (args.takeAt 1 "start").1 with
  | none => exact good_int _
  | some start => exact hstart start hfound

theorem anyTruth (wanted : Bool) (items : Items) : ∀ left position : Nat,
    N.Holds (fun _ => True) (anyTruth (.ofCall l clock number) s wanted items position left)
  | 0, _ => True.intro
  | left + 1, position => by
    have hpoll : N.Holds (fun _ => True) ((CallContext.ofCall l clock number).pollDeadline position) :=
      pollDeadline position
    rw [ScriptSandbox.Builtin.anyTruth]
    split
    · rename_i e he
      rw [he] at hpoll
      exact hpoll
    · exact .ite True.intro (anyTruth wanted items left _)

theorem callQuantifier (func : String) (existential : Bool) (hs : N.Kept s)
    (h : N.GoodArgs args) :
    N.Holds N.good (callQuantifier func existential (.ofCall l clock number) s args) := by
  refine (expectPositional _ _ _ _).bind fun _ _ => (checkIterable _).bind fun _ _ => ?_
  refine (iterate hs (good_headD h.positional)).bind fun items _ => ?_
  exact (anyTruth existential items _ _).bind fun _ _ => Holds.ok (good_bool _)

/-! ## Lists made of other values -/

theorem callSorted (h : N.GoodArgs args) : N.Sound N.good (callSorted l.size args) := by
  have hargs := (h.takeKeyword "reverse").2
  refine (Sound.ofExcept (expectPositional _ _ _ _)).bind fun _ _ => ?_
  refine Sound.bind (P := fun sorted => N.GoodList sorted.toArray) (Sound.look fun s hs => ?_)
    fun _ hsorted => Sound.newList hsorted
  refine (collect hs (good_headD hargs.positional)).bind fun items hitems => ?_
  refine (sort _ _).mono fun sorted hperm => ⟨?_, fun x hx => ?_⟩
  · rw [List.size_toArray, hperm.length_eq, Array.length_toList]
    exact hitems.1
  · exact hitems.2 x (by simpa using hperm.mem_iff.1 (List.mem_toArray.1 hx))

theorem numberFrom : ∀ {items : List Value} (index : Int64) {found : Array Value},
    (∀ x ∈ items, N.good x) → (∀ x ∈ found, N.good x) →
    N.Sound (fun pairs => pairs.size = found.size + items.length ∧ ∀ x ∈ pairs, N.good x)
      (numberFrom index found items)
  | [], _, _, _, hfound => Sound.pure ⟨rfl, hfound⟩
  | item :: rest, index, found, hitems, hfound => by
    rw [ScriptSandbox.Builtin.numberFrom]
    have hitem := hitems item (by simp)
    refine Sound.bind (Sound.newTuple ⟨N.fits_two, ?_⟩) fun pair hpair => ?_
    · simpa using ⟨good_int index, hitem⟩
    split
    · refine (numberFrom _ (fun x hx => hitems x (by simp [hx])) fun x hx => ?_).mono ?_
      · rcases Array.mem_push.1 hx with hx | rfl
        · exact hfound x hx
        · exact hpair
      · refine fun pairs h => ⟨?_, h.2⟩
        rw [h.1, Array.size_push, List.length_cons]
        omega
    · exact Sound.plain rfl

theorem callEnumerate (h : N.GoodArgs args) : N.Sound N.good (callEnumerate l.size args) := by
  have hargs := (h.takeAt 1 "start").2
  have number : ∀ start : Int64, N.Sound N.good (do
      (args.takeAt 1 "start").2.expectNoKeywords "enumerate"
      let items ← StoreM.look
        (ScriptSandbox.Builtin.collect l.size · ((args.takeAt 1 "start").2.positional.headD .null))
      StoreM.newList (← ScriptSandbox.Builtin.numberFrom start #[] items.toList)) := by
    intro start
    refine (Sound.ofExcept (expectNoKeywords _ _)).bind fun _ _ => ?_
    refine (Sound.look fun s hs => collect hs (good_headD hargs.positional)).bind
      fun items hitems => ?_
    refine Sound.bind (numberFrom start (fun x hx => hitems.2 x (by simpa using hx)) (by simp))
      fun pairs hpairs => Sound.newList ⟨?_, hpairs.2⟩
    rw [hpairs.1]
    simpa using hitems.1
  refine (Sound.ofExcept (expect _ _ _ _)).bind fun _ _ => ?_
  dsimp only
  split
  · exact number 0
  · exact (Sound.ofExcept (intOf _ _)).bind fun start _ => number start

theorem mem_rows {columns : List (Array Value)} {row : List Value} (h : row ∈ rows columns) :
    row.length ≤ columns.length ∧ ∀ x ∈ row, ∃ column ∈ columns, x ∈ column := by
  obtain ⟨i, -, rfl⟩ := List.mem_map.1 h
  refine ⟨List.length_filterMap_le _ _, fun x hx => ?_⟩
  obtain ⟨column, hcolumn, hget⟩ := List.mem_filterMap.1 hx
  exact ⟨column, hcolumn, Array.mem_of_getElem? hget⟩

/-- There are no more rows than a column has items, if there is a column. -/
theorem length_rows {columns : List (Array Value)} {fits : Nat → Prop} (hzero : fits 0)
    (h : ∀ column ∈ columns, fits column.size) : fits (rows columns).length := by
  simp only [rows, List.length_map, List.length_range]
  cases hmin : (columns.map Array.size).min? with
  | none => exact hzero
  | some n =>
    obtain ⟨column, hcolumn, rfl⟩ := List.mem_map.1 (List.min?_mem hmin)
    exact h column hcolumn

theorem callZip (h : N.GoodArgs args) : N.Sound N.good (callZip l.size args) := by
  refine (Sound.ofExcept (expectNoKeywords _ _)).bind fun _ _ => ?_
  refine Sound.bind (Sound.look fun s hs => Holds.mapM fun x hx => collect hs (h.positional x hx))
    fun columns hcolumns => ?_
  refine Sound.bind (Sound.mapM (Q := N.good) fun row hrow => ?_) fun tuples htuples => ?_
  · obtain ⟨hlength, hitems⟩ := mem_rows hrow
    refine Sound.newTuple ⟨N.fits_mono ?_ h.fits, fun x hx => ?_⟩
    · rw [List.size_toArray, ← hcolumns.1]
      exact hlength
    · obtain ⟨column, hcolumn, hx⟩ := hitems x (by simpa using hx)
      exact (hcolumns.2 column hcolumn).2 x hx
  · refine Sound.newList ⟨?_, fun x hx => htuples.2 x (by simpa using hx)⟩
    rw [List.size_toArray, htuples.1]
    exact length_rows N.fits_zero fun column hcolumn => (hcolumns.2 column hcolumn).1

/-! ## Printing -/

theorem textOr (func default : String) (value : Option Value) :
    N.Holds (fun _ => True) (textOr func default value) := by
  unfold ScriptSandbox.Builtin.textOr
  split
  iterate 3 exact True.intro
  exact Holds.plain rfl

theorem lineFrom_pieces (hpieces : N.pieces) (separator : String) :
    ∀ (values : List Value) (line : String),
    N.Holds (fun _ => True) (lineFrom l.size s separator line values)
  | [], _ => True.intro
  | value :: rest, line => by
    rw [ScriptSandbox.Builtin.lineFrom]
    refine (text (budget_left (.inr hpieces)) value).bind fun _ _ => ?_
    exact (checkString _).bind fun _ _ => lineFrom_pieces hpieces separator rest _

/-- A line of one value has the whole quota. -/
theorem lineFrom (separator : String) {values : List Value}
    (hpieces : 2 ≤ values.length → N.pieces) :
    N.Holds (fun _ => True) (lineFrom l.size s separator "" values) := by
  cases values with
  | nil => exact True.intro
  | cons value rest =>
    rw [ScriptSandbox.Builtin.lineFrom]
    refine (text (budget_left (.inl rfl)) value).bind fun _ _ => (checkString _).bind fun _ _ => ?_
    cases rest with
    | nil => exact True.intro
    | cons next rest => exact lineFrom_pieces (hpieces (by simp)) separator _ _

theorem callPrint (args : Arguments) (hpieces : 2 ≤ args.positional.length → N.pieces) :
    N.Sound N.good (callPrint l.size args) := by
  refine (Sound.ofExcept (textOr _ _ _)).bind fun separator _ => ?_
  refine (Sound.ofExcept (textOr _ _ _)).bind fun ending _ => ?_
  refine (Sound.ofExcept (expectNoKeywords _ _)).bind fun _ _ => ?_
  refine (Sound.look fun s _ => lineFrom separator hpieces).bind fun line _ => ?_
  exact Sound.bind (Sound.change fun s hs => hs.write _) fun _ _ => Sound.pure good_null

theorem call (b : Builtin) (h : N.GoodArgs args)
    (hpieces : b = .print → 2 ≤ args.positional.length → N.pieces) :
    N.Sound N.good (b.call (.ofCall l clock number) args) := by
  cases b with
  | int => exact Sound.look fun _ _ => callInt args
  | float => exact Sound.look fun _ _ => callFloat args
  | str => exact Sound.look fun _ _ => callStr args
  | bool => exact Sound.look fun _ _ => callBool args
  | list => exact callList h
  | tuple => exact callTuple h
  | dict => exact callDict h
  | set => exact callSet h
  | len => exact Sound.look fun _ _ => callLen args
  | range => exact Sound.ofExcept (callRange args)
  | abs => exact Sound.ofExcept (callAbs args)
  | min => exact Sound.look fun _ hs => callExtremum _ _ hs h
  | max => exact Sound.look fun _ hs => callExtremum _ _ hs h
  | sum => exact callSum h
  | sorted => exact callSorted h
  | enumerate => exact callEnumerate h
  | zip => exact callZip h
  | round => exact Sound.ofExcept (callRound args)
  | any => exact Sound.look fun _ hs => callQuantifier _ _ hs h
  | all => exact Sound.look fun _ hs => callQuantifier _ _ hs h
  | print => exact callPrint args (hpieces rfl)
  | typeof =>
    exact Sound.ofExcept ((expectPositional _ _ _ _).bind fun _ _ => Holds.ok (good_str _))

end ScriptSandbox.Norm.Builtin

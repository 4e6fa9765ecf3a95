import ScriptSandbox.Method
import ScriptSandbox.Proofs.Fresh.Operation

/-!
# Fresh errors: methods

The methods of lists, dicts, sets and strings, with what they ask of their arguments.
-/

namespace ScriptSandbox

/-! ## Arguments -/

namespace Fresh

theorem expect (args : Arguments) (func : String) (atLeast : Nat) (atMost : Option Nat) :
    Fresh (args.expect func atLeast atMost) := ite (ok _) (error ⟨rfl, rfl⟩)

theorem expectNoKeywords (args : Arguments) (func : String) : Fresh (args.expectNoKeywords func) := by
  unfold Arguments.expectNoKeywords
  split
  · exact ok _
  · exact error ⟨rfl, rfl⟩

theorem expectPositional (args : Arguments) (func : String) (atLeast : Nat) (atMost : Option Nat) :
    Fresh (args.expectPositional func atLeast atMost) :=
  (expectNoKeywords args func).bind fun _ => expect args func atLeast atMost

theorem intOf (func : String) (v : Value) : Fresh (Arguments.intOf func v) := by
  unfold Arguments.intOf
  split
  · exact ok _
  · exact error ⟨rfl, rfl⟩

theorem strOf (func : String) (v : Value) : Fresh (Arguments.strOf func v) := by
  unfold Arguments.strOf
  split
  · exact ok _
  · exact error ⟨rfl, rfl⟩

end Fresh

/-! ## Lists -/

namespace FreshRun

variable (limits : SizeLimits)

theorem countEqual {s : Store} (v : Value) :
    ∀ (found : Nat) (items : List Value), Fresh (ListMethod.countEqual s v found items)
  | _, [] => .ok _
  | found, item :: rest => by
    rw [ListMethod.countEqual]
    split
    · exact countEqual v _ rest
    · exact (Fresh.equal _ _).again ‹_›

theorem checkGrowth (r : ListRef) (extra : Nat) : FreshRun (ListMethod.checkGrowth limits r extra) :=
  look fun _ => .checkContainer _ _

/-- A change of the store that gives nothing. -/
theorem changed (f : Store → Store) : FreshRun (do modify f; Pure.pure Value.null : StoreM Value) :=
  (change f).bind fun _ => pure _

theorem listPop (func : String) (r : ListRef) (index : Option Value) :
    FreshRun (ListMethod.runPop func r index) := by
  refine get.bind fun s => ?_
  cases index with
  | none =>
    refine guarded ⟨rfl, rfl⟩ fun _ => (pure _).bind fun _ => ?_
    dsimp only
    split
    · exact throw ⟨rfl, rfl⟩
    · exact get.bind fun _ => (change _).bind fun _ => pure _
  | some index =>
    refine guarded ⟨rfl, rfl⟩ fun _ => (ofExcept (.intOf func index)).bind fun _ => ?_
    dsimp only
    split
    · exact throw ⟨rfl, rfl⟩
    · exact get.bind fun _ => (change _).bind fun _ => pure _

theorem listMethod (m : ListMethod) (r : ListRef) (args : List Value) :
    FreshRun (m.run limits r args) := by
  have found : ∀ v, FreshRun (StoreM.look fun s => s.position? (s.list r) v) := fun v =>
    look fun _ => .position? _ v
  unfold ListMethod.run
  split
  · exact (checkGrowth limits r 1).bind fun _ => changed _
  · refine (ofExcept (.checkIterable _ _)).bind fun _ => (look fun _ => .iterate _).bind fun _ => ?_
    exact (checkGrowth limits r _).bind fun _ => changed _
  · exact (ofExcept (.intOf _ _)).bind fun _ => (checkGrowth limits r 1).bind fun _ => changed _
  · exact listPop _ r none
  · exact listPop _ r _
  · refine (found _).bind fun i => ?_
    split
    · exact throw ⟨rfl, rfl⟩
    · exact changed _
  · exact changed _
  · refine (found _).bind fun i => ?_
    split
    · exact get.bind fun _ => throw ⟨rfl, rfl⟩
    · exact pure _
  · exact (look fun _ => countEqual _ _ _).bind fun _ => pure _
  · exact get.bind fun _ => newList _
  · exact changed _
  · exact throw ⟨rfl, rfl⟩

theorem callList (m : ListMethod) (r : ListRef) (args : Arguments) :
    FreshRun (m.call limits r args) := by
  unfold ListMethod.call
  split
  · refine (ofExcept (.expectNoKeywords _ _)).bind fun _ => ?_
    split
    · refine get.bind fun s => ?_
      exact (look fun _ => .sort _ _).bind fun _ => changed _
    · exact throw ⟨rfl, rfl⟩
  · exact (ofExcept (.expectNoKeywords _ _)).bind fun _ => listMethod limits m r _

/-! ## Dicts -/

theorem insertPairs (r : DictRef) : ∀ pairs : List (Value × Value),
    FreshRun (DictMethod.insertPairs r pairs)
  | [] => pure _
  | (k, v) :: rest => by
    rw [DictMethod.insertPairs]
    exact (ofExcept (.key k)).bind fun _ => (change _).bind fun _ => insertPairs r rest

theorem runUpdate (r : DictRef) (source : Option Value) (named : List (String × Value)) :
    FreshRun (DictMethod.runUpdate limits r source named) := by
  have stored : ∀ pairs : List (Value × Value), FreshRun (do
      DictMethod.insertPairs r pairs
      StoreM.look fun s => limits.checkContainer (s.dict r).size
      Pure.pure Value.null : StoreM Value) := fun pairs =>
    (insertPairs r pairs).bind fun _ => (look fun _ => .checkContainer _ _).bind fun _ => pure _
  cases source with
  | none => exact stored _
  | some source => exact (look fun _ => .pairs source).bind fun _ => stored _

theorem dictPop (r : DictRef) (k : Value) (default : Option Value) :
    FreshRun (DictMethod.runPop r k default) := by
  refine (ofExcept (.key k)).bind fun _ => get.bind fun s => (change _).bind fun _ => ?_
  split
  · exact pure _
  · exact keyError k

theorem runSetdefault (r : DictRef) (k default : Value) :
    FreshRun (DictMethod.runSetdefault limits r k default) := by
  refine (look fun _ => .get? _ k).bind fun found => ?_
  split
  · exact pure _
  · refine (look fun _ => .checkContainer _ _).bind fun _ => ?_
    exact (insertPairs r _).bind fun _ => pure _

theorem dictMethod (m : DictMethod) (r : DictRef) (args : Arguments) :
    FreshRun (m.run limits r args) := by
  have found : ∀ k, FreshRun (DictMethod.find? r k) := fun k => look fun _ => .get? _ k
  unfold DictMethod.run
  split
  · exact (found _).bind fun _ => pure _
  · exact (found _).bind fun _ => pure _
  · exact get.bind fun _ => newList _
  · exact get.bind fun _ => newList _
  · exact get.bind fun _ => (mapM (fun _ => newTuple _) _).bind fun _ => newList _
  · exact runUpdate limits r _ _
  · exact runUpdate limits r _ _
  · exact dictPop r _ _
  · exact dictPop r _ _
  · exact runSetdefault limits r _ _
  · exact runSetdefault limits r _ _
  · exact changed _
  · exact get.bind fun _ => newDict _
  · exact throw ⟨rfl, rfl⟩

theorem callDict (m : DictMethod) (r : DictRef) (args : Arguments) :
    FreshRun (m.call limits r args) := by
  unfold DictMethod.call
  split
  · exact (ofExcept (.expectNoKeywords _ _)).bind fun _ => dictMethod limits m r args
  · exact dictMethod limits m r args

/-! ## Sets -/

theorem asSet {s : Store} (v : Value) : Fresh (SetMethod.asSet limits s v) := by
  unfold SetMethod.asSet
  split
  · exact .ok _
  · exact (Fresh.checkIterable _ _).bind fun _ => (Fresh.iterate _).bind fun _ => .ofList _

theorem addAll (r : SetRef) : ∀ others : List KeySet, FreshRun (SetMethod.addAll limits r others)
  | [] => pure _
  | other :: rest => by
    rw [SetMethod.addAll]
    exact (change _).bind fun _ => (look fun _ => .checkContainer _ _).bind fun _ => addAll r rest

theorem algebra (operation : KeySet → KeySet → KeySet) (r : SetRef) (sources : List Value) :
    FreshRun (SetMethod.algebra operation limits r sources) := by
  refine (look fun s => ?_).bind newSet
  refine (Fresh.mapM (asSet limits) _).bind fun _ => ?_
  exact (Fresh.checkContainer _ _).bind fun _ => .ok _

theorem erase (r : SetRef) (v : Value) : FreshRun (SetMethod.erase r v) :=
  (ofExcept (.key v)).bind fun _ => get.bind fun _ => (change _).bind fun _ => pure _

theorem setMethod (m : SetMethod) (r : SetRef) (args : List Value) :
    FreshRun (m.run limits r args) := by
  unfold SetMethod.run
  split
  · refine (ofExcept (.key _)).bind fun _ => (change _).bind fun _ => ?_
    exact (look fun _ => .checkContainer _ _).bind fun _ => pure _
  · refine (look fun _ => Fresh.mapM (asSet limits) _).bind fun _ => ?_
    exact (addAll limits r _).bind fun _ => pure _
  · exact (erase r _).bind fun _ => pure _
  · refine (erase r _).bind fun present => ?_
    split
    · exact pure _
    · exact keyError _
  · refine get.bind fun s => ?_
    split
    · exact throw ⟨rfl, rfl⟩
    · exact (change _).bind fun _ => pure _
  · exact changed _
  · exact get.bind fun _ => newSet _
  · exact algebra limits _ r _
  · exact algebra limits _ r _
  · exact algebra limits _ r _
  · exact throw ⟨rfl, rfl⟩

/-! ## Strings -/

end FreshRun

namespace Fresh

variable (limits : SizeLimits)

theorem checked (text : List Char) : Fresh (TextMethod.checked limits text) :=
  (checkString _ _).bind fun _ => ok _

theorem splitAt (separator text : String) (limit : Option Nat) :
    Fresh (TextMethod.splitAt separator text limit) := by
  unfold TextMethod.splitAt
  split
  · exact error ⟨rfl, rfl⟩
  · exact ok _

theorem runSplit (text : String) (args : Arguments) : Fresh (TextMethod.runSplit limits text args) := by
  have measured : ∀ parts : List String, Fresh (do
      limits.checkContainer parts.length
      Pure.pure (parts.map Value.str)) := fun _ => (checkContainer _ _).bind fun _ => ok _
  refine (expect _ _ _ _).bind fun _ => ?_
  dsimp only
  split
  all_goals
    refine bind ?_ fun _ => (expectNoKeywords _ _).bind fun _ => ?_
    · first | exact ok _ | exact (intOf _ _).map
    · split
      · exact measured _
      · exact (strOf _ _).bind fun _ => (splitAt _ _ _).bind measured

theorem strippable (func : String) (v : Value) : Fresh (TextMethod.strippable func v) := by
  unfold TextMethod.strippable
  split
  · exact ok _
  · exact (strOf _ _).map

theorem anyAffix (func : String) (stands : String → Bool) (vs : List Value) :
    Fresh (TextMethod.anyAffix func stands vs) := by
  induction vs with
  | nil => exact ok _
  | cons v rest ih =>
    rw [TextMethod.anyAffix]
    exact (strOf _ _).bind fun _ => ite (ok _) ih

theorem runReplace (text old new : String) (limit : Option Nat) :
    Fresh (TextMethod.runReplace limits text old new limit) := (checkString _ _).bind fun _ => ok _

theorem textsFrom : ∀ (position : Nat) (found : List String) (items : List Value),
    Fresh (TextMethod.textsFrom position found items)
  | _, _, [] => ok _
  | position, found, item :: rest => by
    unfold TextMethod.textsFrom
    split
    · exact ok _
    · rename_i h
      cases h
      exact textsFrom _ _ rest
    · exact error ⟨rfl, rfl⟩

theorem runJoin (separator : String) (items : Items) :
    Fresh (TextMethod.runJoin limits separator items) :=
  (textsFrom _ _ _).bind fun _ => (checkString _ _).bind fun _ => ok _

theorem runZfill (text : String) (width : Int64) : Fresh (TextMethod.runZfill limits text width) := by
  refine ite (ok _) ((checkString _ _).bind fun _ => ?_)
  split <;> exact ok _

theorem textMethod {s : Store} (m : TextMethod) (text : String) (args : List Value) :
    Fresh (m.run limits s text args) := by
  unfold TextMethod.run
  dsimp only
  split
  · exact checked limits _
  · exact checked limits _
  · exact checked limits _
  · exact checked limits _
  · exact ok _
  · exact ok _
  · exact ok _
  · exact ok _
  · exact ok _
  · exact (strippable _ _).bind fun _ => ok _
  · exact (strippable _ _).bind fun _ => ok _
  · exact (strippable _ _).bind fun _ => ok _
  · refine (checkIterable _ _).bind fun _ => (iterate _).bind fun _ => runJoin limits _ _
  · exact (anyAffix _ _ _).map
  · exact (anyAffix _ _ _).map
  · exact (strOf _ _).bind fun _ => (strOf _ _).bind fun _ => runReplace limits _ _ _ _
  · refine (strOf _ _).bind fun _ => (strOf _ _).bind fun _ => (intOf _ _).bind fun _ => ?_
    exact runReplace limits _ _ _ _
  · refine (strOf _ _).bind fun _ => ?_
    split <;> exact ok _
  · exact (strOf _ _).bind fun _ => ok _
  · exact (intOf _ _).bind fun _ => runZfill limits _ _
  · exact error ⟨rfl, rfl⟩

end Fresh

namespace FreshRun

theorem callMethod (limits : SizeLimits) (receiver : Value) (name : String) (args : Arguments) :
    FreshRun (Method.call limits receiver name args) := by
  have unknown : FreshRun (Method.unknown receiver name args) :=
    (ofExcept (.expectNoKeywords _ _)).bind fun _ => throw ⟨rfl, rfl⟩
  have noKeywords : ∀ func, FreshRun (StoreM.ofExcept (args.expectNoKeywords func)) := fun func =>
    ofExcept (.expectNoKeywords args func)
  unfold Method.call
  split
  · split
    · exact callList limits _ _ args
    · exact unknown
  · split
    · exact callDict limits _ _ args
    · exact unknown
  · split
    · exact (noKeywords _).bind fun _ => setMethod limits _ _ _
    · exact unknown
  · split
    · unfold TextMethod.call
      split
      · exact (ofExcept (.runSplit limits _ args)).bind fun _ => newList _
      · exact (noKeywords _).bind fun _ => look fun _ => .textMethod limits _ _ _
    · exact unknown
  · exact throw ⟨rfl, rfl⟩

end FreshRun

end ScriptSandbox

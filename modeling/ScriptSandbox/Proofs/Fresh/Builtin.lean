import ScriptSandbox.Builtin.Call
import ScriptSandbox.Proofs.Fresh.Method

/-!
# Fresh errors: the functions of the preset
-/

namespace ScriptSandbox

/-! ## Conversions -/

namespace Fresh

variable {s : Store} (limits : SizeLimits)

theorem pollDeadline (ctx : CallContext) (round : Nat) : Fresh (ctx.pollDeadline round) :=
  ite (ite (error ⟨rfl, rfl⟩) (ok _)) (ok _)

theorem collect (v : Value) : Fresh (Builtin.collect limits s v) := by
  refine (checkIterable _ _).bind fun _ => (iterate v).bind fun _ => ?_
  exact (checkContainer _ _).bind fun _ => ok _

theorem cutToInt (x : Binary64) : Fresh (Builtin.cutToInt x) := by
  refine ite (error ⟨rfl, rfl⟩) (ite (error ⟨rfl, rfl⟩) ?_)
  split
  · exact ok _
  · exact error ⟨rfl, rfl⟩

theorem callInt (args : Arguments) : Fresh (Builtin.callInt s args) := by
  refine (expectPositional _ _ _ _).bind fun _ => ?_
  split
  · exact ok _
  · unfold Builtin.toInt
    split
    · exact cutToInt _
    · split
      · exact ok _
      · exact error ⟨rfl, rfl⟩
    · split
      · exact ok _
      · exact error ⟨rfl, rfl⟩

theorem callFloat (args : Arguments) : Fresh (Builtin.callFloat s args) := by
  refine (expectPositional _ _ _ _).bind fun _ => ?_
  split
  · exact ok _
  · unfold Builtin.toFloat
    split
    · split
      · exact ok _
      · exact error ⟨rfl, rfl⟩
    · split
      · exact ok _
      · exact error ⟨rfl, rfl⟩

theorem callStr (args : Arguments) : Fresh (Builtin.callStr limits s args) := by
  refine (expectPositional _ _ _ _).bind fun _ => ?_
  split
  · exact ok _
  · exact ok _
  · exact (text _ _).map

theorem callBool (args : Arguments) : Fresh (Builtin.callBool s args) :=
  (expectPositional _ _ _ _).bind fun _ => ok _

theorem collectOptional (func : String) (args : Arguments) :
    Fresh (Builtin.collectOptional func limits s args) := by
  refine (expectPositional _ _ _ _).bind fun _ => ?_
  split
  · exact ok _
  · exact collect limits _

theorem callAbs (args : Arguments) : Fresh (Builtin.callAbs args) := by
  refine (expectPositional _ _ _ _).bind fun _ => ?_
  split
  · exact ok _
  · split
    · exact error ⟨rfl, rfl⟩
    · split
      · exact ok _
      · exact error ⟨rfl, rfl⟩

theorem roundValue (v : Value) (places : Option Int64) : Fresh (Builtin.roundValue v places) := by
  unfold Builtin.roundValue
  split
  · exact cutToInt _
  · exact ok _
  · split
    · exact error ⟨rfl, rfl⟩
    · exact ok _
    · refine ite ?_ (ok _)
      split
      · exact ok _
      · exact error ⟨rfl, rfl⟩

theorem callRound (args : Arguments) : Fresh (Builtin.callRound args) := by
  refine (expect _ _ _ _).bind fun _ => (expectNoKeywords _ _).bind fun _ => ?_
  dsimp only
  split
  · exact (ok none).bind fun _ => roundValue _ _
  · exact (intOf _ _).map.bind fun _ => roundValue _ _

/-! ## Sequences -/

theorem callLen (args : Arguments) : Fresh (Builtin.callLen s args) := by
  refine (expectPositional _ _ _ _).bind fun _ => ?_
  split
  case h_7 => exact bind (error ⟨rfl, rfl⟩) fun _ => ok _
  all_goals exact ok _

theorem callRange (args : Arguments) : Fresh (Builtin.callRange args) := by
  have stepped : ∀ start stop step : Int64, Fresh (do
      if step = 0 then throw .zeroRangeStep
      Pure.pure (.range ⟨start, stop, step⟩) : Except Error Value) := fun start stop step =>
    ite (bind (error ⟨rfl, rfl⟩) fun _ => ok _) (ok _)
  refine (expectPositional _ _ _ _).bind fun _ => (mapM (intOf _) _).bind fun bounds => ?_
  split <;> exact (ok _).bind fun ⟨start, stop, step⟩ => stepped start stop step

theorem bestOf (better : Ordering) : ∀ (best : Value) (vs : List Value),
    Fresh (Builtin.bestOf better s best vs)
  | _, [] => ok _
  | best, v :: rest => by
    rw [Builtin.bestOf]
    split
    · exact bestOf better _ rest
    · exact (order v best).again ‹_›

theorem callExtremum (func : String) (better : Ordering) (args : Arguments) :
    Fresh (Builtin.callExtremum func better limits s args) := by
  refine (expectPositional _ _ _ _).bind fun _ => ?_
  split
  all_goals
    refine bind ?_ fun _ => ?_
    · first | exact (collect limits _).map | exact ok _
    · dsimp only
      split
      · exact bestOf better _ _
      · exact ok _
      · exact error ⟨rfl, rfl⟩

theorem anyTruth (ctx : CallContext) (wanted : Bool) (items : Items) :
    ∀ left position, Fresh (Builtin.anyTruth ctx s wanted items position left)
  | 0, _ => ok _
  | left + 1, position => by
    rw [Builtin.anyTruth]
    split
    · exact (pollDeadline ctx position).again ‹_›
    · exact ite (ok _) (anyTruth ctx wanted items left (position + 1))

theorem callQuantifier (func : String) (existential : Bool) (ctx : CallContext) (args : Arguments) :
    Fresh (Builtin.callQuantifier func existential ctx s args) := by
  refine (expectPositional _ _ _ _).bind fun _ => (checkIterable _ _).bind fun _ => ?_
  exact (iterate _).bind fun _ => (anyTruth ctx _ _ _ _).bind fun _ => ok _

/-! ## Output -/

theorem textOr (func default : String) (v : Option Value) : Fresh (Builtin.textOr func default v) := by
  unfold Builtin.textOr
  split
  · exact ok _
  · exact ok _
  · exact ok _
  · exact error ⟨rfl, rfl⟩

theorem lineFrom (separator : String) : ∀ (line : String) (vs : List Value),
    Fresh (Builtin.lineFrom limits s separator line vs)
  | _, [] => ok _
  | line, v :: rest => by
    rw [Builtin.lineFrom]
    exact (text _ _).bind fun _ => (checkString _ _).bind fun _ => lineFrom separator _ rest

end Fresh

/-! ## All functions -/

namespace FreshRun

variable (limits : SizeLimits)

theorem callTuple (args : Arguments) : FreshRun (Builtin.callTuple limits args) := by
  refine (ofExcept (.expectPositional _ _ _ _)).bind fun _ => ?_
  split
  · exact pure _
  · exact (look fun _ => .collectOptional limits _ _).bind fun _ => newTuple _

theorem callSet (args : Arguments) : FreshRun (Builtin.callSet limits args) :=
  (look fun _ => .collectOptional limits _ _).bind fun _ => (ofExcept (.ofList _)).bind newSet

theorem newDictOf (args : Arguments) : FreshRun (Builtin.callDict limits args) := by
  have filled : ∀ keywords entries : List (Value × Value), FreshRun (do
      let d ← Dict.ofPairs entries
      let d ← d.insertAll keywords
      limits.checkContainer d.size
      StoreM.newDict d) := by
    intro keywords entries
    refine (ofExcept (.ofPairs _)).bind fun _ => (ofExcept (.insertAll _ _)).bind fun _ => ?_
    exact (ofExcept (.checkContainer _ _)).bind fun _ => newDict _
  refine (ofExcept (.expect _ _ _ _)).bind fun _ => ?_
  split
  · exact bind (pure _) (filled _)
  · exact (look fun _ => .pairs _).bind (filled _)

theorem sumFrom (ctx : CallContext) (items : Items) :
    ∀ left total position, FreshRun (Builtin.sumFrom ctx items total position left)
  | 0, _, _ => pure _
  | left + 1, total, position => by
    rw [Builtin.sumFrom]
    refine (ofExcept (.pollDeadline _ _)).bind fun _ => (binary _ _ _ _).bind fun _ => ?_
    exact sumFrom ctx items left _ _

theorem callSum (ctx : CallContext) (args : Arguments) : FreshRun (Builtin.callSum ctx args) := by
  have summed : ∀ source start : Value, FreshRun (do
      if start.toStr?.isSome then MonadExcept.throw .cannotSumStrings
      ctx.limits.checkIterable source
      let items ← StoreM.look (·.iterate source)
      Builtin.sumFrom ctx items start 0 items.size) := by
    intro source start
    refine guarded ⟨rfl, rfl⟩ fun _ => (ofExcept (.checkIterable _ _)).bind fun _ => ?_
    exact (look fun _ => .iterate _).bind fun items => sumFrom ctx items _ _ _
  refine (ofExcept (.expect _ _ _ _)).bind fun _ => ?_
  exact (ofExcept (.expectNoKeywords _ _)).bind fun _ => summed _ _

theorem callSorted (args : Arguments) : FreshRun (Builtin.callSorted limits args) := by
  refine (ofExcept (.expectPositional _ _ _ _)).bind fun _ => ?_
  exact (look fun _ => (Fresh.collect limits _).bind fun _ => .sort _ _).bind fun _ => newList _

theorem numberFrom : ∀ (index : Int64) (found : Array Value) (items : List Value),
    FreshRun (Builtin.numberFrom index found items)
  | _, _, [] => pure _
  | index, found, item :: rest => by
    rw [Builtin.numberFrom]
    refine (newTuple _).bind fun _ => ?_
    split
    · exact numberFrom _ _ rest
    · exact throw ⟨rfl, rfl⟩

theorem callEnumerate (args : Arguments) : FreshRun (Builtin.callEnumerate limits args) := by
  have numbered : ∀ (args : Arguments) (start : Int64), FreshRun (do
      args.expectNoKeywords "enumerate"
      let items ← StoreM.look (Builtin.collect limits · (args.positional.headD .null))
      StoreM.newList (← Builtin.numberFrom start #[] items.toList)) := by
    intro args start
    refine (ofExcept (.expectNoKeywords _ _)).bind fun _ => (look fun _ => .collect limits _).bind ?_
    exact fun _ => (numberFrom _ _ _).bind newList
  refine (ofExcept (.expect _ _ _ _)).bind fun _ => ?_
  dsimp only
  split
  · exact numbered _ _
  · exact (ofExcept (.intOf _ _)).bind (numbered _)

theorem callZip (args : Arguments) : FreshRun (Builtin.callZip limits args) := by
  refine (ofExcept (.expectNoKeywords _ _)).bind fun _ => ?_
  refine (look fun _ => Fresh.mapM (Fresh.collect limits) _).bind fun _ => ?_
  exact (mapM (fun _ => newTuple _) _).bind fun _ => newList _

theorem callPrint (args : Arguments) : FreshRun (Builtin.callPrint limits args) := by
  refine (ofExcept (.textOr _ _ _)).bind fun _ => (ofExcept (.textOr _ _ _)).bind fun _ => ?_
  refine (ofExcept (.expectNoKeywords _ _)).bind fun _ => ?_
  exact (look fun _ => .lineFrom limits _ _ _).bind fun _ => changed _

theorem callBuiltin (b : Builtin) (ctx : CallContext) (args : Arguments) :
    FreshRun (b.call ctx args) := by
  cases b with
  | int => exact look fun _ => .callInt args
  | float => exact look fun _ => .callFloat args
  | str => exact look fun _ => .callStr ctx.limits args
  | bool => exact look fun _ => .callBool args
  | list => exact (look fun _ => .collectOptional ctx.limits _ _).bind newList
  | tuple => exact callTuple ctx.limits args
  | dict => exact newDictOf ctx.limits args
  | set => exact callSet ctx.limits args
  | len => exact look fun _ => .callLen args
  | range => exact ofExcept (.callRange args)
  | abs => exact ofExcept (.callAbs args)
  | min | max => exact look fun _ => .callExtremum ctx.limits _ _ args
  | sum => exact callSum ctx args
  | sorted => exact callSorted ctx.limits args
  | enumerate => exact callEnumerate ctx.limits args
  | zip => exact callZip ctx.limits args
  | round => exact ofExcept (.callRound args)
  | any | all => exact look fun _ => .callQuantifier _ _ ctx args
  | print => exact callPrint ctx.limits args
  | typeof => exact ofExcept ((Fresh.expectPositional _ _ _ _).bind fun _ => .ok _)

end FreshRun

end ScriptSandbox

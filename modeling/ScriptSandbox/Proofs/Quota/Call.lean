import ScriptSandbox.Builtin.Call
import ScriptSandbox.Method
import ScriptSandbox.Proofs.Quota.Operation

/-!
# Raised quotas: functions and methods

Functions of the preset and methods hold what they read and what they make against the quotas, and
long folds look at the clock, which is taken not to reach the deadline here.
-/

namespace ScriptSandbox

/-- No look of a call finds the deadline passed. -/
def CallContext.InTime (c : CallContext) : Prop := ∀ look, c.elapsed look < c.deadline

/-- The context of a call under limits and that of the same call under raised ones, neither of them
behind its deadline. -/
structure CallContext.Below (c c' : CallContext) : Prop where
  limits : c.limits.Below c'.limits
  inTime : c.InTime
  inTime' : c'.InTime

namespace UpToQuota

variable {l l' : SizeLimits} {c c' : CallContext} {s : Store}

theorem pollDeadline_eq (h : c.InTime) (round : Nat) : c.pollDeadline round = .ok () := by
  unfold CallContext.pollDeadline CallContext.checkDeadline
  rw [if_neg (Nat.not_le.2 (h round))]
  exact ite_self _

theorem pollDeadline (h : c.Below c') (round : Nat) :
    UpToQuota (c.pollDeadline round) (c'.pollDeadline round) := by
  rw [pollDeadline_eq h.inTime, pollDeadline_eq h.inTime']
  exact refl _

/-! ## Functions of the preset -/

theorem collect (h : l.Below l') (source : Value) :
    UpToQuota (Builtin.collect l s source) (Builtin.collect l' s source) := by
  refine (checkIterable h source).bind fun _ => (refl (s.iterate source)).bind fun items => ?_
  exact (checkContainer h _).bind fun _ => refl _

theorem collectOptional (h : l.Below l') (func : String) (args : Arguments) :
    UpToQuota (Builtin.collectOptional func l s args) (Builtin.collectOptional func l' s args) := by
  refine (refl _).bind fun _ => ?_
  split
  · exact refl _
  · exact collect h _

theorem callStr (h : l.Below l') (args : Arguments) :
    UpToQuota (Builtin.callStr l s args) (Builtin.callStr l' s args) := by
  refine (refl _).bind fun _ => ?_
  split
  · exact refl _
  · exact refl _
  · exact (text h.string _).map _

theorem callExtremum (h : l.Below l') (func : String) (better : Ordering) (args : Arguments) :
    UpToQuota (Builtin.callExtremum func better l s args)
      (Builtin.callExtremum func better l' s args) := by
  refine (refl _).bind fun _ => ?_
  split
  · exact ((collect h _).map _).bind fun _ => refl _
  · exact refl _

theorem anyTruth (h : c.Below c') (wanted : Bool) (items : Items) : ∀ left position : Nat,
    UpToQuota (Builtin.anyTruth c s wanted items position left)
      (Builtin.anyTruth c' s wanted items position left)
  | 0, _ => refl _
  | left + 1, position => by
    simp only [Builtin.anyTruth, pollDeadline_eq h.inTime, pollDeadline_eq h.inTime']
    split
    · exact refl _
    · exact anyTruth h wanted items left (position + 1)

theorem callQuantifier (h : c.Below c') (func : String) (existential : Bool) (args : Arguments) :
    UpToQuota (Builtin.callQuantifier func existential c s args)
      (Builtin.callQuantifier func existential c' s args) := by
  refine (refl _).bind fun _ => (checkIterable h.limits _).bind fun _ => ?_
  refine (refl _).bind fun items => (anyTruth h existential items _ _).bind fun _ => refl _

theorem lineFrom (h : l.Below l') (separator : String) : ∀ (values : List Value) (line : String),
    UpToQuota (Builtin.lineFrom l s separator line values)
      (Builtin.lineFrom l' s separator line values)
  | [], _ => refl _
  | value :: rest, line => by
    have := h.string
    refine (text (by omega) value).bind fun _ => (checkString h _).bind fun _ => ?_
    exact lineFrom h separator rest _

/-! ## Methods -/

theorem asSet (h : l.Below l') (source : Value) :
    UpToQuota (SetMethod.asSet l s source) (SetMethod.asSet l' s source) := by
  cases source
  case set r => exact refl _
  all_goals exact (checkIterable h _).bind fun _ => refl _

theorem checked (h : l.Below l') (text : List Char) :
    UpToQuota (TextMethod.checked l text) (TextMethod.checked l' text) :=
  (checkString h _).bind fun _ => refl _

theorem runSplit (h : l.Below l') (text : String) (args : Arguments) :
    UpToQuota (TextMethod.runSplit l text args) (TextMethod.runSplit l' text args) := by
  refine (refl _).bind fun _ => ?_
  generalize args.takeAt 0 "sep" = taken
  obtain ⟨separator, rest⟩ := taken
  dsimp only
  generalize rest.takeAt 0 "maxsplit" = taken
  obtain ⟨given, rest⟩ := taken
  cases given <;> refine (refl _).bind fun limit => (refl _).bind fun _ => ?_
  all_goals
    split
    · exact (refl _).bind fun parts => (checkContainer h _).bind fun _ => refl _
    · refine (refl _).bind fun _ => (refl _).bind fun parts => ?_
      exact (checkContainer h _).bind fun _ => refl _

theorem runReplace (h : l.Below l') (text old new : String) (limit : Option Nat) :
    UpToQuota (TextMethod.runReplace l text old new limit)
      (TextMethod.runReplace l' text old new limit) :=
  (checkString h _).bind fun _ => refl _

theorem runJoin (h : l.Below l') (separator : String) (items : Items) :
    UpToQuota (TextMethod.runJoin l separator items) (TextMethod.runJoin l' separator items) :=
  (refl _).bind fun _ => (checkString h _).bind fun _ => refl _

theorem runZfill (h : l.Below l') (text : String) (width : Int64) :
    UpToQuota (TextMethod.runZfill l text width) (TextMethod.runZfill l' text width) := by
  unfold TextMethod.runZfill
  dsimp only
  split
  · exact refl _
  · exact (checkString h _).bind fun _ => refl _

theorem textMethod (h : l.Below l') (m : TextMethod) (text : String) (args : List Value) :
    UpToQuota (m.run l s text args) (m.run l' s text args) := by
  unfold TextMethod.run
  dsimp only
  split
  iterate 4 exact checked h _
  iterate 8 exact refl _
  · exact (checkIterable h _).bind fun _ => (refl _).bind fun items => runJoin h text items
  iterate 2 exact refl _
  · exact (refl _).bind fun _ => (refl _).bind fun _ => runReplace h _ _ _ _
  · refine (refl _).bind fun _ => (refl _).bind fun _ => (refl _).bind fun _ => ?_
    exact runReplace h _ _ _ _
  iterate 2 exact refl _
  · exact (refl _).bind fun _ => runZfill h _ _
  · exact refl _

end UpToQuota

namespace RunsUpToQuota

variable {l l' : SizeLimits} {c c' : CallContext}

theorem sumFrom (h : c.Below c') (items : Items) : ∀ (left position : Nat) (total : Value),
    RunsUpToQuota (Builtin.sumFrom c items total position left)
      (Builtin.sumFrom c' items total position left)
  | 0, _, _ => refl _
  | left + 1, position, total => by
    refine (ofExcept (.pollDeadline h position)).bind fun _ => ?_
    exact (binary h.limits .add total _).bind fun total => sumFrom h items left _ total

theorem callSum (h : c.Below c') (args : Arguments) :
    RunsUpToQuota (Builtin.callSum c args) (Builtin.callSum c' args) := by
  refine (refl _).bind fun _ => ?_
  dsimp only
  refine (refl _).bind fun _ => ?_
  split
  · exact refl _
  · refine (ofExcept (.checkIterable h.limits _)).bind fun _ => (refl _).bind fun items => ?_
    exact sumFrom h items _ _ _

theorem callEnumerate (h : l.Below l') (args : Arguments) :
    RunsUpToQuota (Builtin.callEnumerate l args) (Builtin.callEnumerate l' args) := by
  refine (refl _).bind fun _ => ?_
  generalize args.takeAt 1 "start" = taken
  obtain ⟨start, rest⟩ := taken
  cases start
  all_goals
    refine (refl _).bind fun index => (refl _).bind fun _ => ?_
    exact (look fun s => .collect h _).bind fun _ => refl _

theorem callBuiltin (h : c.Below c') (b : Builtin) (args : Arguments) :
    RunsUpToQuota (b.call c args) (b.call c' args) := by
  cases b
  case str => exact look fun s => .callStr h.limits args
  case list => exact (look fun s => .collectOptional h.limits _ args).bind fun _ => refl _
  case tuple =>
    refine (refl _).bind fun _ => ?_
    split
    · exact refl _
    · exact (look fun s => .collectOptional h.limits _ args).bind fun _ => refl _
  case dict =>
    refine (refl _).bind fun _ => ?_
    cases args.positional.head?
    all_goals
      refine (refl _).bind fun entries => (refl _).bind fun d => (refl _).bind fun d => ?_
      exact (ofExcept (.checkContainer h.limits _)).bind fun _ => refl _
  case set => exact (look fun s => .collectOptional h.limits _ args).bind fun _ => refl _
  case min => exact look fun s => .callExtremum h.limits _ _ args
  case max => exact look fun s => .callExtremum h.limits _ _ args
  case sum => exact callSum h args
  case sorted =>
    refine (refl _).bind fun _ => (look fun s => ?_).bind fun _ => refl _
    exact (UpToQuota.collect h.limits _).bind fun _ => .refl _
  case enumerate => exact callEnumerate h.limits args
  case zip =>
    refine (refl _).bind fun _ => (look fun s => ?_).bind fun _ => refl _
    exact .mapM (fun source => .collect h.limits source) _
  case any => exact look fun s => .callQuantifier h _ _ args
  case all => exact look fun s => .callQuantifier h _ _ args
  case print =>
    refine (refl _).bind fun separator => ?_
    refine (refl _).bind fun ending => (refl _).bind fun _ => ?_
    exact (look fun s => .lineFrom h.limits _ _ _).bind fun _ => refl _
  all_goals exact refl _

/-! ## Methods -/

theorem checkGrowth (h : l.Below l') (r : ListRef) (extra : Nat) :
    RunsUpToQuota (ListMethod.checkGrowth l r extra) (ListMethod.checkGrowth l' r extra) :=
  look fun _ => .checkContainer h _

theorem listMethod (h : l.Below l') (m : ListMethod) (r : ListRef) (args : Arguments) :
    RunsUpToQuota (m.call l r args) (m.call l' r args) := by
  unfold ListMethod.call
  split
  · exact refl _
  · refine (refl _).bind fun _ => ?_
    unfold ListMethod.run
    split
    · exact (checkGrowth h r 1).bind fun _ => refl _
    · refine (ofExcept (.checkIterable h _)).bind fun _ => (refl _).bind fun extra => ?_
      exact (checkGrowth h r _).bind fun _ => refl _
    · exact (refl _).bind fun index => (checkGrowth h r 1).bind fun _ => refl _
    all_goals exact refl _

theorem runUpdate (h : l.Below l') (r : DictRef) (source : Option Value)
    (keywords : List (String × Value)) : RunsUpToQuota (DictMethod.runUpdate l r source keywords)
      (DictMethod.runUpdate l' r source keywords) := by
  cases source
  all_goals
    refine (refl _).bind fun pairs => (refl _).bind fun _ => ?_
    exact (look fun s => .checkContainer h _).bind fun _ => refl _

theorem runSetdefault (h : l.Below l') (r : DictRef) (key default : Value) :
    RunsUpToQuota (DictMethod.runSetdefault l r key default)
      (DictMethod.runSetdefault l' r key default) := by
  refine (refl _).bind fun found => ?_
  split
  · exact refl _
  · exact (look fun s => .checkContainer h _).bind fun _ => refl _

theorem dictMethod (h : l.Below l') (m : DictMethod) (r : DictRef) (args : Arguments) :
    RunsUpToQuota (m.call l r args) (m.call l' r args) := by
  have run : RunsUpToQuota (m.run l r args) (m.run l' r args) := by
    unfold DictMethod.run
    split
    iterate 5 exact refl _
    iterate 2 exact runUpdate h r _ _
    iterate 2 exact refl _
    iterate 2 exact runSetdefault h r _ _
    all_goals exact refl _
  unfold DictMethod.call
  split
  · exact (refl _).bind fun _ => run
  · exact run

theorem addAll (h : l.Below l') (r : SetRef) : ∀ others : List KeySet,
    RunsUpToQuota (SetMethod.addAll l r others) (SetMethod.addAll l' r others)
  | [] => refl _
  | _ :: rest => by
    refine (refl _).bind fun _ => (look fun s => ?_).bind fun _ => addAll h r rest
    exact .checkContainer h _

theorem algebra (h : l.Below l') (operation : KeySet → KeySet → KeySet) (r : SetRef)
    (sources : List Value) : RunsUpToQuota (SetMethod.algebra operation l r sources)
      (SetMethod.algebra operation l' r sources) := by
  refine (look fun s => ?_).bind fun _ => refl _
  refine (UpToQuota.mapM (.asSet h) sources).bind fun others => ?_
  exact (UpToQuota.checkContainer h _).bind fun _ => .refl _

theorem setMethod (h : l.Below l') (m : SetMethod) (r : SetRef) (args : Arguments) :
    RunsUpToQuota (m.call l r args) (m.call l' r args) := by
  refine (refl _).bind fun _ => ?_
  unfold SetMethod.run
  split
  · refine (refl _).bind fun _ => (refl _).bind fun _ => ?_
    exact (look fun s => .checkContainer h _).bind fun _ => refl _
  · refine (look fun s => UpToQuota.mapM (.asSet h) _).bind fun others => ?_
    exact (addAll h r others).bind fun _ => refl _
  iterate 5 exact refl _
  iterate 3 exact algebra h _ r _
  · exact refl _

theorem callTextMethod (h : l.Below l') (m : TextMethod) (text : String) (args : Arguments) :
    RunsUpToQuota (m.call l text args) (m.call l' text args) := by
  unfold TextMethod.call
  split
  · exact (ofExcept (.runSplit h text args)).bind fun _ => refl _
  · exact (refl _).bind fun _ => look fun s => .textMethod h m text _

theorem callMethod (h : l.Below l') (receiver : Value) (name : String) (args : Arguments) :
    RunsUpToQuota (Method.call l receiver name args) (Method.call l' receiver name args) := by
  unfold Method.call
  split
  · split
    · exact listMethod h _ _ _
    · exact refl _
  · split
    · exact dictMethod h _ _ _
    · exact refl _
  · split
    · exact setMethod h _ _ _
    · exact refl _
  · split
    · exact callTextMethod h _ _ _
    · exact refl _
  · exact refl _

end RunsUpToQuota

end ScriptSandbox

import ScriptSandbox.Method
import ScriptSandbox.Proofs.Norm.Method.List
import ScriptSandbox.Proofs.Norm.Method.Table

/-!
# Norms: methods

Methods of texts make at most one list, of parts that are held against the quota. With those of the
containers, all methods keep the store and give good values.
-/

namespace ScriptSandbox.Norm

variable {l : Limits} {N : Norm l} {s : Store}

/-! ## Texts -/

namespace TextMethod

open ScriptSandbox.TextMethod

theorem checked (chars : List Char) : N.Holds N.good (checked l.size chars) :=
  (checkString _).bind fun _ _ => Holds.ok (good_str _)

theorem splitAt (separator text : String) (limit : Option Nat) :
    N.Holds (fun _ => True) (splitAt separator text limit) := by
  unfold ScriptSandbox.TextMethod.splitAt
  split
  · exact Holds.plain rfl
  · exact True.intro

/-- What a text was cut into, if no arguments are left and the quota allows it. -/
theorem splitParts (text : String) (separator : Value) (limit : Option Nat) (args : Arguments) :
    N.Holds (fun parts => N.fits parts.length ∧ ∀ x ∈ parts, N.good x) (do
      args.expectNoKeywords split.qualifiedName
      let parts ←
        match separator with
        | .null => pure (Text.words limit text)
        | separator =>
          ScriptSandbox.TextMethod.splitAt (← Arguments.strOf split.qualifiedName separator) text limit
      l.size.checkContainer parts.length
      pure (parts.map Value.str)) := by
  have checked : ∀ parts : List String,
      N.Holds (fun parts => N.fits parts.length ∧ ∀ x ∈ parts, N.good x) (do
        l.size.checkContainer parts.length
        pure (parts.map Value.str)) := fun parts =>
    (checkContainer _).bind fun _ hfits => Holds.ok ⟨by simpa using hfits, fun x hx => by
      obtain ⟨part, -, rfl⟩ := List.mem_map.1 hx
      exact good_str part⟩
  refine (expectNoKeywords _ _).bind fun _ _ => ?_
  split
  · exact checked _
  · exact (strOf _ _).bind fun _ _ => (splitAt _ _ _).bind fun found _ => checked found

theorem runSplit (text : String) (args : Arguments) :
    N.Holds (fun parts => N.fits parts.length ∧ ∀ x ∈ parts, N.good x)
      (runSplit l.size text args) := by
  unfold ScriptSandbox.TextMethod.runSplit
  refine (expect _ _ _ _).bind fun _ _ => ?_
  dsimp only
  split
  · exact splitParts _ _ _ _
  · refine Holds.bind (P := fun _ => True) ?_ fun limit _ => splitParts _ _ _ _
    exact (intOf _ _).map fun _ _ => True.intro

theorem strippable (func : String) (value : Value) :
    N.Holds (fun _ => True) (strippable func value) := by
  unfold ScriptSandbox.TextMethod.strippable
  split
  · exact True.intro
  · exact (strOf _ _).map fun _ _ => True.intro

theorem anyAffix (func : String) (stands : String → Bool) (candidates : List Value) :
    N.Holds (fun _ => True) (anyAffix func stands candidates) := by
  induction candidates with
  | nil => exact True.intro
  | cons candidate rest ih =>
    rw [ScriptSandbox.TextMethod.anyAffix]
    exact (strOf func candidate).bind fun _ _ => .ite True.intro ih

theorem runReplace (text old new : String) (limit : Option Nat) :
    N.Holds N.good (runReplace l.size text old new limit) :=
  (checkString _).bind fun _ _ => Holds.ok (good_str _)

theorem textsFrom (items : List Value) (position : Nat) (found : List String) :
    N.Holds (fun _ => True) (textsFrom position found items) := by
  induction items generalizing position found with
  | nil => exact True.intro
  | cons item rest ih =>
    unfold ScriptSandbox.TextMethod.textsFrom
    split
    · exact True.intro
    · rename_i h
      cases h
      exact ih _ _
    · exact Holds.plain rfl

theorem runJoin (separator : String) (items : Items) :
    N.Holds N.good (runJoin l.size separator items) :=
  (textsFrom _ 0 []).bind fun _ _ => (checkString _).bind fun _ _ => Holds.ok (good_str _)

theorem runZfill (text : String) (width : Int64) : N.Holds N.good (runZfill l.size text width) := by
  unfold ScriptSandbox.TextMethod.runZfill
  refine .ite (good_str _) ((checkString _).bind fun _ _ => ?_)
  split <;> exact Holds.ok (good_str _)

theorem run (m : TextMethod) (text : String) {args : List Value} (hs : N.Kept s)
    (h : ∀ x ∈ args, N.good x) : N.Holds N.good (m.run l.size s text args) := by
  unfold ScriptSandbox.TextMethod.run
  dsimp only
  split
  iterate 4 exact checked _
  iterate 2 exact N.good_data _ rfl
  iterate 3 exact good_str _
  iterate 3 exact (strippable _ _).bind fun _ _ => Holds.ok (good_str _)
  · refine (checkIterable _).bind fun _ _ => (iterate hs (h _ (by simp))).bind fun items _ => ?_
    exact runJoin text items
  iterate 2 exact (anyAffix _ _ _).map fun _ _ => N.good_data _ rfl
  · exact (strOf _ _).bind fun _ _ => (strOf _ _).bind fun _ _ => runReplace _ _ _ _
  · refine (strOf _ _).bind fun _ _ => (strOf _ _).bind fun _ _ => ?_
    exact (intOf _ _).bind fun _ _ => runReplace _ _ _ _
  · refine (strOf _ _).bind fun _ _ => ?_
    split <;> exact Holds.ok (good_int _)
  · exact (strOf _ _).bind fun _ _ => Holds.ok (good_int _)
  · exact (intOf _ _).bind fun _ _ => runZfill _ _
  · exact Holds.plain rfl

theorem call (m : TextMethod) (text : String) {args : Arguments} (h : N.GoodArgs args) :
    N.Sound N.good (m.call l.size text args) := by
  unfold ScriptSandbox.TextMethod.call
  split
  · refine (Sound.ofExcept (runSplit text args)).bind fun parts hparts => Sound.newList ?_
    exact ⟨by simpa using hparts.1, fun x hx => hparts.2 x (by simpa using hx)⟩
  · refine (Sound.ofExcept (expectNoKeywords _ _)).bind fun _ _ => ?_
    exact Sound.look fun s hs => run m text hs h.positional

end TextMethod

/-! ## All methods -/

theorem unknownMethod (receiver : Value) (name : String) (args : Arguments) :
    N.Sound N.good (Method.unknown receiver name args) :=
  (Sound.ofExcept (expectNoKeywords _ _)).bind fun _ _ => Sound.plain rfl

theorem callMethod (receiver : Value) (name : String) {args : Arguments} (h : N.GoodArgs args) :
    N.Sound N.good (Method.call l.size receiver name args) := by
  unfold Method.call
  split
  · split
    · exact ListMethod.call _ _ h
    · exact unknownMethod _ _ _
  · split
    · exact DictMethod.call _ h
    · exact unknownMethod _ _ _
  · split
    · exact SetMethod.call _ h
    · exact unknownMethod _ _ _
  · split
    · exact TextMethod.call _ _ h
    · exact unknownMethod _ _ _
  · exact Sound.plain rfl

end ScriptSandbox.Norm

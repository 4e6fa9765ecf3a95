import ScriptSandbox.Eval.Expression
import ScriptSandbox.Proofs.Norm.Items

/-!
# Norms: texts of values

Writing a value out fails only where the text outgrows its budget, which is the quota of strings, or
what is left of it for a piece of a longer text.
-/

namespace ScriptSandbox.Norm

variable {l : Limits} {N : Norm l} {s : Store}

/-- The error of a budget may come up. -/
def Budget (N : Norm l) (n : Nat) : Prop := N.errs (.limitExceeded .stringLength n)

/-- What `used` bytes leave of the quota, if there are pieces where some are used. -/
theorem budget_left {used : Nat} (h : used = 0 ∨ N.pieces) :
    N.Budget (l.size.maxStringLength - used) := by
  rcases h with rfl | h
  · exact N.errs_string
  · exact N.errs_piece h (Nat.sub_le _ _)

theorem repr {budget : Nat} (h : N.Budget budget) (value : Value) :
    N.Holds (fun _ => True) (s.repr budget value) := by
  unfold Store.repr
  split
  · exact True.intro
  · exact h

theorem text {budget : Nat} (h : N.Budget budget) (value : Value) :
    N.Holds (fun _ => True) (s.text budget value) := by
  unfold Store.text
  split
  · exact .ite h True.intro
  · exact repr h value

theorem convert {value : Value} (h : N.good value) (conversion : Option Char) :
    N.Holds N.good (Eval.convert l.size s value conversion) := by
  unfold Eval.convert
  split
  · exact h
  · exact (text N.errs_string value).map fun _ _ => good_str _
  · exact (repr N.errs_string value).map fun _ _ => good_str _
  · exact (repr N.errs_string value).map fun _ _ => good_str _
  · exact Holds.plain (ErrorKind.isPlain_structural (by simp) (by simp))

/-! ## Format specifications -/

theorem parse (spec : String) : N.Holds (fun _ => True) (FormatSpec.parse spec) := by
  unfold FormatSpec.parse
  dsimp only
  split
  · exact Holds.plain rfl
  · split
    · exact True.intro
    · exact .ite (Holds.plain rfl) (.ite True.intro (Holds.plain rfl))

theorem checkForString (spec : FormatSpec) : N.Holds (fun _ => True) spec.checkForString := by
  unfold FormatSpec.checkForString
  refine .ite (Holds.plain rfl) (.ite (Holds.plain rfl) ?_)
  split
  · exact Holds.plain rfl
  · exact True.intro

theorem renderInt (spec : FormatSpec) (n : Int64) : N.Holds (fun _ => True) (spec.renderInt n) := by
  unfold FormatSpec.renderInt
  exact .ite (Holds.plain rfl) True.intro

theorem render (spec : FormatSpec) (value : Value) :
    N.Holds (fun _ => True) (spec.render l.size s value) := by
  unfold FormatSpec.render
  split
  · exact .ite (Holds.plain rfl) True.intro
  · exact True.intro
  · exact (checkForString spec).bind fun _ _ => True.intro
  · exact (checkForString spec).bind fun _ _ => True.intro
  · exact Holds.plain rfl
  · split
    · exact Holds.plain rfl
    · exact renderInt spec _
    · exact .ite (renderInt spec _) True.intro
    · exact (text N.errs_string _).map fun _ _ => True.intro
    · exact (text N.errs_string _).map fun _ _ => True.intro
    · exact Holds.plain rfl

theorem format (value : Value) (spec : String) :
    N.Holds (fun _ => True) (FormatSpec.format l.size s value spec) := by
  unfold FormatSpec.format
  refine .ite (text N.errs_string value) ?_
  refine (parse spec).bind fun spec _ => ?_
  refine (checkString _).bind fun _ _ => (checkString _).bind fun _ _ => ?_
  exact render spec value

end ScriptSandbox.Norm

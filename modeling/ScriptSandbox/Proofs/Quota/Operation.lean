import ScriptSandbox.Eval.Expression
import ScriptSandbox.Proofs.Nearest
import ScriptSandbox.Proofs.Quota

/-!
# Raised quotas: operations on values

A text that fits its budget is the same under a larger one, and the operators, the parts of values and
the formats that check a quota do the same once the check has passed.
-/

namespace ScriptSandbox

/-! ## Texts -/

namespace Render

/-- What was written is written again. -/
def Keeps (x x' : Rendering) : Prop := ∀ text, x = .ok text → x' = .ok text

theorem keeps_items {write write' : Value → String → Rendering}
    (h : ∀ v out, Keeps (write v out) (write' v out)) :
    ∀ (xs : List Value) (out : String), Keeps (items write xs out) (items write' xs out)
  | [], _ => fun _ => id
  | [item], out => h item out
  | item :: next :: rest, out => by
    intro text
    simp only [items]
    cases hw : write item out with
    | error _ => exact nofun
    | ok mid =>
      rw [h item out mid hw]
      exact keeps_items h (next :: rest) (mid ++ ", ") text

theorem keeps_pairs {write write' : Value → String → Rendering}
    (h : ∀ v out, Keeps (write v out) (write' v out)) :
    ∀ (xs : List (Value × Value)) (out : String), Keeps (pairs write xs out) (pairs write' xs out)
  | [], _ => fun _ => id
  | (key, value) :: rest, out => by
    intro text
    simp only [pairs]
    cases hk : write key out with
    | error _ => exact nofun
    | ok mid =>
      rw [h key out mid hk]
      dsimp only
      cases hv : write value (mid ++ ": ") with
      | error _ => exact nofun
      | ok mid' =>
        rw [h value _ mid' hv]
        exact keeps_pairs h rest _ text

theorem keeps_map {x x' : Rendering} (h : Keeps x x') (f : String → String) :
    Keeps (x.map f) (x'.map f) := by
  intro text
  cases x with
  | error _ => exact nofun
  | ok mid =>
    rw [h mid rfl]
    exact id

theorem keeps_withinBudget {budget budget' : Nat} (hle : budget ≤ budget') {x x' : Rendering} :
    Keeps x x' → Keeps
      (match x with
      | .ok out => withinBudget budget out
      | .error out => .error out)
      (match x' with
      | .ok out => withinBudget budget' out
      | .error out => .error out) := by
  intro h text
  cases x with
  | error _ => exact nofun
  | ok mid =>
    rw [h mid rfl]
    dsimp only [withinBudget]
    split
    · exact nofun
    · rw [if_neg (by omega)]
      exact id

end Render

namespace Store

/-- A text within a budget is written alike within a larger one. -/
theorem render_le {s : Store} {budget budget' : Nat} (hle : budget ≤ budget') :
    ∀ (levels : Nat) (value : Value) (out : String),
    Render.Keeps (s.render budget levels value out) (s.render budget' levels value out) := by
  intro levels
  induction levels with
  | zero =>
    intro value out text
    simp only [render]
    split
    · exact nofun
    · rw [if_neg (by omega)]
      exact id
  | succ levels ih =>
    intro value out text
    simp only [render]
    split
    · exact nofun
    · rw [if_neg (by omega)]
      -- what has been written so far is within the smaller budget
      refine Render.keeps_withinBudget hle ?_ text
      cases value
      case list r => exact Render.keeps_map (Render.keeps_items ih _ _) _
      case tuple id items => exact Render.keeps_map (Render.keeps_items ih _ _) _
      case dict r => exact Render.keeps_map (Render.keeps_pairs ih _ _) _
      case set r =>
        dsimp only
        split
        · exact fun _ => id
        · exact Render.keeps_map (Render.keeps_items ih _ _) _
      all_goals exact fun _ => id

end Store

namespace UpToQuota

variable {l l' : SizeLimits} {s : Store}

theorem repr {budget budget' : Nat} (h : budget ≤ budget') (value : Value) :
    UpToQuota (s.repr budget value) (s.repr budget' value) := by
  unfold Store.repr
  have hkept := Store.render_le (s := s) h (maxRenderDepth + 1) value ""
  cases hr : s.render budget (maxRenderDepth + 1) value "" with
  | error _ => exact exhausted _ _
  | ok text =>
    rw [hkept text hr]
    exact refl _

theorem text {budget budget' : Nat} (h : budget ≤ budget') (value : Value) :
    UpToQuota (s.text budget value) (s.text budget' value) := by
  cases value
  case str text =>
    simp only [Store.text]
    split
    · exact exhausted _ _
    · rw [if_neg (by omega)]
      exact refl _
  all_goals exact repr h _

theorem convert (h : l.Below l') (value : Value) (conversion : Option Char) :
    UpToQuota (Eval.convert l s value conversion) (Eval.convert l' s value conversion) := by
  unfold Eval.convert
  split
  · exact refl _
  · exact (text h.string value).map _
  · exact (repr h.string value).map _
  · exact (repr h.string value).map _
  · exact refl _

theorem render (h : l.Below l') (spec : FormatSpec) (value : Value) :
    UpToQuota (spec.render l s value) (spec.render l' s value) := by
  unfold FormatSpec.render
  split
  iterate 5 exact refl _
  split
  iterate 3 exact refl _
  · exact (text h.string _).map _
  · exact (text h.string _).map _
  · exact refl _

theorem format (h : l.Below l') (value : Value) (spec : String) :
    UpToQuota (FormatSpec.format l s value spec) (FormatSpec.format l' s value spec) := by
  unfold FormatSpec.format
  split
  · exact text h.string value
  · refine (refl (FormatSpec.parse spec)).bind fun spec => ?_
    refine (checkString h _).bind fun _ => (checkString h _).bind fun _ => ?_
    exact render h spec value

/-! ## Operators -/

theorem checkPower (h : l.Below l') (base exponent : Binary64) :
    UpToQuota (Arithmetic.checkPower l base exponent) (Arithmetic.checkPower l' base exponent) := by
  unfold Arithmetic.checkPower
  split
  · exact exhausted _ _
  · rename_i hbase
    rw [if_neg fun hx => hbase (Arithmetic.exceeds_of_le h.powerBase hx)]
    split
    · exact exhausted _ _
    · rename_i hexponent
      rw [if_neg fun hx => hexponent (Arithmetic.exceeds_of_le h.power hx)]
      exact refl _

theorem onInts (h : l.Below l') (op : BinaryOp) (a b : Int64) :
    UpToQuota (Arithmetic.onInts l op a b) (Arithmetic.onInts l' op a b) := by
  cases op
  case pow => exact (checkPower h _ _).bind fun _ => refl _
  all_goals exact refl _

theorem onFloats (h : l.Below l') (op : BinaryOp) (x y : Binary64) :
    UpToQuota (Arithmetic.onFloats l op x y) (Arithmetic.onFloats l' op x y) := by
  cases op
  case pow => exact (checkPower h _ _).bind fun _ => refl _
  all_goals exact refl _

theorem onNumbers (h : l.Below l') (op : BinaryOp) (left right : Value) :
    UpToQuota (Operator.onNumbers l op left right) (Operator.onNumbers l' op left right) := by
  unfold Operator.onNumbers
  split
  · exact onInts h op _ _
  · split
    · exact refl _
    · exact onFloats h op _ _
  · exact refl _

theorem timesText (h : l.Below l') (left right : Value) (text : String) (other : Value) :
    UpToQuota (Operator.timesText l left right text other)
      (Operator.timesText l' left right text other) := by
  unfold Operator.timesText
  split
  · exact refl _
  · exact (checkString h _).bind fun _ => refl _

theorem timesItems (h : l.Below l') (left right : Value) (items : Array Value) (other : Value) :
    UpToQuota (Operator.timesItems l left right items other)
      (Operator.timesItems l' left right items other) := by
  unfold Operator.timesItems
  split
  · exact refl _
  · exact (checkContainer h _).bind fun _ => refl _

end UpToQuota

namespace RunsUpToQuota

variable {l l' : SizeLimits}

theorem multiply (h : l.Below l') (left right : Value) :
    RunsUpToQuota (Operator.multiply l left right) (Operator.multiply l' left right) := by
  unfold Operator.multiply
  split
  · exact ofExcept (.timesText h _ _ _ _)
  · split
    · exact refl _
    · exact refl _
    · exact ofExcept (.timesText h _ _ _ _)
  · exact (look fun s => .timesItems h _ _ _ _).bind fun _ => refl _
  · exact (ofExcept (.timesItems h _ _ _ _)).bind fun _ => refl _
  · exact (look fun s => .timesItems h _ _ _ _).bind fun _ => refl _
  · exact (ofExcept (.timesItems h _ _ _ _)).bind fun _ => refl _
  · exact ofExcept (.onNumbers h _ _ _)

theorem binary (h : l.Below l') (op : BinaryOp) (left right : Value) :
    RunsUpToQuota (Operator.binary l op left right) (Operator.binary l' op left right) := by
  unfold Operator.binary
  split
  · exact ofExcept (.onInts h _ _ _)
  · exact multiply h _ _
  · exact ofExcept ((UpToQuota.checkString h _).bind fun _ => .refl _)
  · exact (look fun s => (UpToQuota.checkContainer h _).bind fun _ => .refl _).bind fun _ => refl _
  · exact (ofExcept (.checkContainer h _)).bind fun _ => refl _
  · exact (look fun s => (UpToQuota.checkContainer h _).bind fun _ => .refl _).bind fun _ => refl _
  · refine (look fun s => ?_).bind fun _ => refl _
    split
    · exact .refl _
    · exact (UpToQuota.checkContainer h _).bind fun _ => .refl _
  · split
    · exact refl _
    · exact ofExcept (.onNumbers h _ _ _)
  · exact ofExcept (.onNumbers h _ _ _)

/-! ## Parts of values -/

theorem setItem (h : l.Below l') (container index value : Value) :
    RunsUpToQuota (Subscript.setItem l container index value)
      (Subscript.setItem l' container index value) := by
  cases container
  case dict r =>
    refine (refl (StoreM.ofExcept (Key.ofValue index))).bind fun k => ?_
    refine (refl _).bind fun _ => look fun s => ?_
    exact .checkContainer h _
  all_goals exact refl _

theorem setSlice (h : l.Below l') (container : Value) (bounds : SliceBounds) (value : Value) :
    RunsUpToQuota (Subscript.setSlice l container bounds value)
      (Subscript.setSlice l' container bounds value) := by
  cases container
  case list r =>
    refine (look fun s => ?_).bind fun _ => refl _
    refine (UpToQuota.checkIterable h value).bind fun _ => ?_
    refine (UpToQuota.refl (s.iterate value)).bind fun replacement => ?_
    unfold Subscript.assignSlice
    split
    · refine (UpToQuota.refl _).bind fun i => ?_
      exact (UpToQuota.checkContainer h _).bind fun _ => .refl _
    · exact .refl _
  all_goals exact refl _

end RunsUpToQuota

end ScriptSandbox

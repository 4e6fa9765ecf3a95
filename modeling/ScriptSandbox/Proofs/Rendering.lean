import Mathlib.Data.List.Basic
import ScriptSandbox.Value.Render

/-!
# Texts within a budget

A value has one whole text (`Store.reprText`), which no budget bounds: containers are written out down to
the last level and stand for an ellipsis below it, so the text is finite also where a container holds
itself. Writing within a budget looks at its length before and behind each value, but not in between and
not behind an ellipsis. It loses nothing by that: what it has written is always a start of the whole text,
and it is abandoned only when it has outgrown the budget (`Store.render_writes`). So it gives the whole
text if this fits and nothing otherwise, and a text that is cut instead is cut as if it were whole.
-/

namespace ScriptSandbox

/-! ## Starts of texts -/

namespace Text

/-- The longest start of a text with at most `budget` bytes; starts end between characters. -/
structure LongestStart (budget : Nat) (text start : String) : Prop where
  starts : ∃ rest, text = start ++ rest
  fits : start.utf8ByteSize ≤ budget
  longest : ∀ other rest, text = other ++ rest → other.utf8ByteSize ≤ budget →
    other.utf8ByteSize ≤ start.utf8ByteSize

variable {budget : Nat} {text start first second rest rest' : String}

/-- Each start of a text has its place there. -/
theorem exists_splits (h : text = first ++ rest) : ∃ p : text.Pos, p.Splits first rest := by
  have hsplits := String.splits_nextn_startPos text first.toList.length
  have hfirst : String.ofList (text.toList.take first.toList.length) = first := by simp [h]
  have hrest : String.ofList (text.toList.drop first.toList.length) = rest := by simp [h]
  rw [hfirst, hrest] at hsplits
  exact ⟨_, hsplits⟩

theorem cutToBytes_longest (budget : Nat) (text : String) :
    LongestStart budget text (Store.cutToBytes budget text) := by
  obtain ⟨hfits, hlongest⟩ := String.posLE_eq_iff.1 (rfl : text.posLE ⟨budget⟩ = _)
  have hsplits := (text.posLE ⟨budget⟩).splits
  refine ⟨⟨_, hsplits.eq_append⟩, ?_, fun other rest h hother => ?_⟩
  · rw [hsplits.offset_eq_rawEndPos] at hfits
    exact hfits
  · obtain ⟨q, hq⟩ := exists_splits h
    have hle := hlongest q (by rw [hq.offset_eq_rawEndPos]; exact hother)
    obtain ⟨between, hcut, -⟩ := (hq.le_iff_exists_eq_append hsplits).1 hle
    rw [Store.cutToBytes, hcut, String.utf8ByteSize_append]
    omega

/-- Of two starts of a text, the one with fewer bytes is a start of the other one. -/
theorem start_of_start (h : first ++ rest = second ++ rest')
    (hle : first.utf8ByteSize ≤ second.utf8ByteSize) : ∃ between, second = first ++ between := by
  obtain ⟨p, hp⟩ := exists_splits h
  obtain ⟨q, hq⟩ : ∃ q : (first ++ rest).Pos, q.Splits first rest := exists_splits rfl
  have hqp : q ≤ p := by
    rw [String.Pos.le_iff, hq.offset_eq_rawEndPos, hp.offset_eq_rawEndPos]
    exact hle
  obtain ⟨between, hbetween, -⟩ := (hq.le_iff_exists_eq_append hp).1 hqp
  exact ⟨between, hbetween⟩

/-- What is cut off behind the budget does not matter. -/
theorem LongestStart.append (h : LongestStart budget text start) (hlong : budget < text.utf8ByteSize)
    (rest : String) : LongestStart budget (text ++ rest) start := by
  obtain ⟨cut, hcut⟩ := h.starts
  refine ⟨⟨cut ++ rest, by rw [hcut, String.append_assoc]⟩, h.fits, fun other rest' hother hfits => ?_⟩
  obtain ⟨between, hbetween⟩ := start_of_start hother.symm (by omega)
  exact h.longest other between hbetween hfits

end Text

/-! ## Whole texts -/

/-- The text of a key and its value. -/
def Render.pairText (whole : Value → String) (entry : Value × Value) : String :=
  whole entry.1 ++ ": " ++ whole entry.2

namespace Store

/-- The text of a value whose containers may still nest `levels` deep, however long it is. -/
def wholeText (s : Store) : Nat → Value → String
  | 0, _ => "..."
  | levels + 1, value =>
    match value with
    | .list r => "[" ++ ", ".intercalate ((s.list r).toList.map (s.wholeText levels)) ++ "]"
    | .tuple _ items =>
      "(" ++ ", ".intercalate (items.toList.map (s.wholeText levels)) ++
        if items.size = 1 then ",)" else ")"
    | .dict r =>
      "\x7b" ++ ", ".intercalate ((s.dict r).toList.map (Render.pairText (s.wholeText levels))) ++
        "\x7d"
    | .set r =>
      if (s.set r).isEmpty then "set()"
      else "\x7b" ++ ", ".intercalate ((s.set r).toList.map (s.wholeText levels)) ++ "\x7d"
    | atom => Render.atom atom

/-- The whole text of a value: the value itself and what is nested up to the deepest level in it are
written out, and each value below that is an ellipsis. -/
def reprText (s : Store) (value : Value) : String := s.wholeText (maxRenderDepth + 1) value

/-- The whole text of a value, a string standing for itself. -/
def strText (s : Store) : Value → String
  | .str text => text
  | value => s.reprText value

end Store

/-! ## Writing -/

namespace Render

/-- Writing a text behind another one within a budget: it is there as a whole, or writing was abandoned
in it and the budget was outgrown by then. -/
def Writes (budget : Nat) (out text : String) : Rendering → Prop
  | .ok written => written = out ++ text
  | .error written => budget < written.utf8ByteSize ∧ ∃ rest, out ++ text = written ++ rest

variable {budget : Nat} {out text first second : String} {x : Rendering}
  {write : Value → String → Rendering} {whole : Value → String}

/-- A text that is put in front belongs to what is written. -/
theorem Writes.behind (h : Writes budget (out ++ first) second x) :
    Writes budget out (first ++ second) x := by
  cases x with
  | ok written =>
    show written = out ++ (first ++ second)
    rw [← String.append_assoc]
    exact h
  | error written =>
    obtain ⟨hlong, rest, hrest⟩ := h
    exact ⟨hlong, rest, by rw [← String.append_assoc, hrest]⟩

/-- What comes behind a text is written behind it. -/
theorem Writes.bind {f : String → Rendering} (h : Writes budget out first x)
    (hf : Writes budget (out ++ first) second (f (out ++ first))) :
    Writes budget out (first ++ second) (x.bind f) := by
  cases x with
  | ok written =>
    obtain rfl : written = out ++ first := h
    exact hf.behind
  | error written =>
    obtain ⟨hlong, rest, hrest⟩ := h
    exact ⟨hlong, rest ++ second, by rw [← String.append_assoc, hrest, String.append_assoc]⟩

theorem Writes.map (h : Writes budget out text x) (tail : String) :
    Writes budget out (text ++ tail) (x.map (· ++ tail)) := by
  cases x with
  | ok written =>
    obtain rfl : written = out ++ text := h
    exact String.append_assoc
  | error written =>
    obtain ⟨hlong, rest, hrest⟩ := h
    exact ⟨hlong, rest ++ tail, by rw [← String.append_assoc, hrest, String.append_assoc]⟩

theorem items_cons (write : Value → String → Rendering) (v next : Value) (rest : List Value)
    (out : String) : items write (v :: next :: rest) out =
      (write v out).bind fun out => items write (next :: rest) (out ++ ", ") := by
  simp only [items]
  cases write v out <;> rfl

theorem writes_items (hwrite : ∀ v out, Writes budget out (whole v) (write v out)) :
    ∀ (vs : List Value) (out : String),
      Writes budget out (", ".intercalate (vs.map whole)) (items write vs out)
  | [], _ => String.append_empty.symm
  | [v], out => by
    rw [List.map_singleton, String.intercalate_singleton]
    exact hwrite v out
  | v :: next :: rest, out => by
    rw [List.map_cons, List.map_cons, String.intercalate_cons_cons, String.append_assoc, items_cons]
    exact (hwrite v out).bind (writes_items hwrite (next :: rest) _).behind

/-- A key and its value with a colon between them. -/
def pair (write : Value → String → Rendering) (entry : Value × Value) (out : String) : Rendering :=
  (write entry.1 out).bind fun out => write entry.2 (out ++ ": ")

theorem pairs_singleton (write : Value → String → Rendering) (entry : Value × Value) (out : String) :
    pairs write [entry] out = pair write entry out := by
  simp only [pairs, pair]
  cases write entry.1 out with
  | error _ => rfl
  | ok out =>
    dsimp only [Except.bind]
    cases write entry.2 (out ++ ": ") <;> rfl

theorem pairs_cons (write : Value → String → Rendering) (entry next : Value × Value)
    (rest : List (Value × Value)) (out : String) : pairs write (entry :: next :: rest) out =
      (pair write entry out).bind fun out => pairs write (next :: rest) (out ++ ", ") := by
  rw [pairs, pair]
  cases write entry.1 out with
  | error _ => rfl
  | ok out =>
    dsimp only [Except.bind]
    cases write entry.2 (out ++ ": ") <;> rfl

theorem writes_pair (hwrite : ∀ v out, Writes budget out (whole v) (write v out))
    (entry : Value × Value) (out : String) :
    Writes budget out (pairText whole entry) (pair write entry out) := by
  rw [pairText, String.append_assoc]
  exact (hwrite entry.1 out).bind (hwrite entry.2 _).behind

theorem writes_pairs (hwrite : ∀ v out, Writes budget out (whole v) (write v out)) :
    ∀ (entries : List (Value × Value)) (out : String),
      Writes budget out (", ".intercalate (entries.map (pairText whole))) (pairs write entries out)
  | [], _ => String.append_empty.symm
  | [entry], out => by
    rw [List.map_singleton, String.intercalate_singleton, pairs_singleton]
    exact writes_pair hwrite entry out
  | entry :: next :: rest, out => by
    rw [List.map_cons, List.map_cons, String.intercalate_cons_cons, String.append_assoc, pairs_cons]
    exact (writes_pair hwrite entry out).bind (writes_pairs hwrite (next :: rest) _).behind

/-- A last look at the length. -/
theorem Writes.withinBudget (h : Writes budget out text x) :
    Writes budget out text (x.bind (Render.withinBudget budget)) := by
  cases x with
  | ok written =>
    obtain rfl : written = out ++ text := h
    show Writes budget out text (Render.withinBudget budget (out ++ text))
    unfold Render.withinBudget
    split
    · rename_i hlong
      exact ⟨hlong, "", String.append_empty.symm⟩
    · exact rfl
  | error written => exact h

end Render

namespace Store

variable {s : Store} {budget levels : Nat}

/-- The text of a value inside the looks at its length. -/
def writeValue (s : Store) (write : Value → String → Rendering) (value : Value) (out : String) :
    Rendering :=
  match value with
  | .list r => (Render.items write (s.list r).toList (out ++ "[")).map (· ++ "]")
  | .tuple _ items =>
    (Render.items write items.toList (out ++ "(")).map (· ++ if items.size = 1 then ",)" else ")")
  | .dict r => (Render.pairs write (s.dict r).toList (out ++ "\x7b")).map (· ++ "\x7d")
  | .set r =>
    if (s.set r).isEmpty then .ok (out ++ "set()")
    else (Render.items write (s.set r).toList (out ++ "\x7b")).map (· ++ "\x7d")
  | atom => .ok (out ++ Render.atom atom)

theorem render_succ (s : Store) (budget levels : Nat) (value : Value) (out : String) :
    s.render budget (levels + 1) value out =
      if budget < out.utf8ByteSize then .error out
      else (s.writeValue (s.render budget levels) value out).bind (Render.withinBudget budget) := by
  have hbody : s.render budget (levels + 1) value out =
      if budget < out.utf8ByteSize then .error out
      else match s.writeValue (s.render budget levels) value out with
        | .ok out => Render.withinBudget budget out
        | .error out => .error out := by
    cases value <;> rfl
  rw [hbody]
  cases s.writeValue (s.render budget levels) value out <;> rfl

open Render in
theorem writes_value {write : Value → String → Rendering}
    (hwrite : ∀ v out, Writes budget out (s.wholeText levels v) (write v out)) (value : Value)
    (out : String) :
    Writes budget out (s.wholeText (levels + 1) value) (s.writeValue write value out) := by
  cases value
  case list r => exact (writes_items hwrite _ _).behind.map "]"
  case tuple _ items => exact (writes_items hwrite _ _).behind.map _
  case dict r => exact (writes_pairs hwrite _ _).behind.map "\x7d"
  case set r =>
    unfold writeValue wholeText
    dsimp only
    split
    · exact rfl
    · exact (writes_items hwrite _ _).behind.map "\x7d"
  all_goals exact rfl

/-- Writing a value within a budget writes its whole text or is abandoned in it. -/
theorem render_writes (s : Store) (budget levels : Nat) (value : Value) (out : String) :
    Render.Writes budget out (s.wholeText levels value) (s.render budget levels value out) := by
  induction levels generalizing value out with
  | zero =>
    rw [render]
    split
    · rename_i hlong
      exact ⟨hlong, "...", rfl⟩
    · exact rfl
  | succ levels ih =>
    rw [render_succ]
    split
    · rename_i hlong
      exact ⟨hlong, _, rfl⟩
    · exact (writes_value ih value out).withinBudget

/-- What is written in the end has been held against the budget. -/
theorem utf8ByteSize_le_of_render {value : Value} {out written : String}
    (h : s.render budget (levels + 1) value out = .ok written) :
    written.utf8ByteSize ≤ budget := by
  rw [render_succ] at h
  by_cases hlong : budget < out.utf8ByteSize
  · rw [if_pos hlong] at h
    cases h
  · rw [if_neg hlong] at h
    cases hvalue : s.writeValue (s.render budget levels) value out with
    | error _ =>
      rw [hvalue] at h
      cases h
    | ok text =>
      rw [hvalue] at h
      change Render.withinBudget budget text = .ok written at h
      unfold Render.withinBudget at h
      by_cases htext : budget < text.utf8ByteSize
      · rw [if_pos htext] at h
        cases h
      · rw [if_neg htext] at h
        cases h
        exact Nat.not_lt.1 htext

/-- A value is written as a whole if its text fits the budget, and abandoned in its text if not. -/
theorem render_cases (s : Store) (budget : Nat) (value : Value) :
    ((s.reprText value).utf8ByteSize ≤ budget ∧
      s.render budget (maxRenderDepth + 1) value "" = .ok (s.reprText value)) ∨
    (budget < (s.reprText value).utf8ByteSize ∧
      ∃ written rest, s.render budget (maxRenderDepth + 1) value "" = .error written ∧
        budget < written.utf8ByteSize ∧ s.reprText value = written ++ rest) := by
  have hwrites := s.render_writes budget (maxRenderDepth + 1) value ""
  cases hrender : s.render budget (maxRenderDepth + 1) value "" with
  | ok written =>
    rw [hrender] at hwrites
    obtain rfl : written = s.reprText value := hwrites.trans String.empty_append
    exact .inl ⟨utf8ByteSize_le_of_render hrender, rfl⟩
  | error written =>
    rw [hrender] at hwrites
    obtain ⟨hlong, rest, hrest⟩ := hwrites
    rw [String.empty_append] at hrest
    refine .inr ⟨?_, written, rest, rfl, hlong, hrest⟩
    rw [reprText, hrest, String.utf8ByteSize_append]
    omega

theorem repr_eq (s : Store) (budget : Nat) (value : Value) :
    s.repr budget value =
      if (s.reprText value).utf8ByteSize ≤ budget then .ok (s.reprText value)
      else .error (.limitExceeded .stringLength budget) := by
  unfold repr
  rcases s.render_cases budget value with ⟨hfits, hrender⟩ | ⟨hlong, written, rest, hrender, -, -⟩
  · rw [hrender, if_pos hfits]
  · rw [hrender, if_neg (Nat.not_le.2 hlong)]

theorem text_eq (s : Store) (budget : Nat) (value : Value) :
    s.text budget value =
      if (s.strText value).utf8ByteSize ≤ budget then .ok (s.strText value)
      else .error (.limitExceeded .stringLength budget) := by
  cases value
  case str text =>
    show (if budget < text.utf8ByteSize then _ else _) = if text.utf8ByteSize ≤ budget then _ else _
    by_cases hfits : text.utf8ByteSize ≤ budget
    · rw [if_neg (Nat.not_lt.2 hfits), if_pos hfits]
      rfl
    · rw [if_pos (Nat.not_le.1 hfits), if_neg hfits]
  all_goals exact repr_eq s budget _

theorem shownRepr_of_fits {value : Value} (h : (s.reprText value).utf8ByteSize ≤ displayBudget) :
    s.shownRepr value = s.reprText value := by
  unfold shownRepr
  rcases s.render_cases displayBudget value with ⟨-, hrender⟩ | ⟨hlong, -⟩
  · rw [hrender]
  · exact absurd h (Nat.not_le.2 hlong)

/-- A text that does not fit is cut where the whole text would be cut. -/
theorem shownRepr_of_long {value : Value} (h : displayBudget < (s.reprText value).utf8ByteSize) :
    ∃ start, Text.LongestStart displayBudget (s.reprText value) start ∧
      s.shownRepr value = start ++ "..." := by
  unfold shownRepr
  rcases s.render_cases displayBudget value with ⟨hfits, -⟩ | ⟨-, written, rest, hrender, hlong, hwhole⟩
  · exact absurd hfits (Nat.not_le.2 h)
  · rw [hrender, hwhole]
    exact ⟨_, (Text.cutToBytes_longest _ _).append hlong rest, rfl⟩

/-- Within a budget a value has its whole text or none: texts are refused exactly where the whole text
is longer than the budget, with the error of the quota of strings. A text for messages is the whole one
or its longest start of 65536 bytes, with an ellipsis behind it. -/
theorem rendering_exact (s : Store) (value : Value) :
    (∀ budget, s.repr budget value =
      if (s.reprText value).utf8ByteSize ≤ budget then .ok (s.reprText value)
      else .error (.limitExceeded .stringLength budget)) ∧
    (∀ budget, s.text budget value =
      if (s.strText value).utf8ByteSize ≤ budget then .ok (s.strText value)
      else .error (.limitExceeded .stringLength budget)) ∧
    if (s.reprText value).utf8ByteSize ≤ 65536 then s.shownRepr value = s.reprText value
    else ∃ start, Text.LongestStart 65536 (s.reprText value) start ∧
      s.shownRepr value = start ++ "..." := by
  refine ⟨fun budget => repr_eq s budget value, fun budget => text_eq s budget value, ?_⟩
  split
  · rename_i hfits
    exact shownRepr_of_fits hfits
  · rename_i hlong
    exact shownRepr_of_long (Nat.not_le.1 hlong)

/-- A list that holds itself twice. -/
example :
    let s := (Store.empty.addList #[.list ⟨0⟩, .int 1, .list ⟨0⟩]).2
    s.wholeText 2 (.list ⟨0⟩) = "[[..., ..., ...], 1, [..., ..., ...]]" := by decide +kernel

end Store

end ScriptSandbox

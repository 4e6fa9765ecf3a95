import ScriptSandbox.Proofs.Norm
import ScriptSandbox.Value.Items

/-!
# Norms: arguments and items

Checks of arguments fail with errors that every norm allows, and taking an argument out leaves the
others good. What an iteration yields is good when the value it iterates is. Ranges are never written out
for that: their items are integers, which every norm allows.
-/

namespace ScriptSandbox.Norm

variable {l : Limits} {N : Norm l} {s : Store}

/-! ## Arguments -/

theorem expect (args : Arguments) (func : String) (atLeast : Nat) (atMost : Option Nat) :
    N.Holds (fun _ => True) (args.expect func atLeast atMost) := by
  unfold Arguments.expect
  exact .ite True.intro (Holds.plain rfl)

theorem expectNoKeywords (args : Arguments) (func : String) :
    N.Holds (fun _ => True) (args.expectNoKeywords func) := by
  unfold Arguments.expectNoKeywords
  split
  · exact True.intro
  · exact Holds.plain rfl

theorem expectPositional (args : Arguments) (func : String) (atLeast : Nat) (atMost : Option Nat) :
    N.Holds (fun _ => True) (args.expectPositional func atLeast atMost) :=
  (expectNoKeywords args func).bind fun _ _ => expect args func atLeast atMost

theorem intOf (func : String) (value : Value) :
    N.Holds (fun _ => True) (Arguments.intOf func value) := by
  unfold Arguments.intOf
  split
  · exact True.intro
  · exact Holds.plain rfl

theorem strOf (func : String) (value : Value) :
    N.Holds (fun _ => True) (Arguments.strOf func value) := by
  unfold Arguments.strOf
  split
  · exact True.intro
  · exact Holds.plain rfl

theorem GoodArgs.takeKeyword {args : Arguments} (h : N.GoodArgs args) (name : String) :
    (∀ v ∈ (args.takeKeyword name).1, N.good v) ∧ N.GoodArgs (args.takeKeyword name).2 := by
  refine ⟨fun v hv => ?_, h.positional, fun entry he => h.keywords entry (List.mem_of_mem_eraseP he),
    h.fits⟩
  obtain ⟨before, behind, hsplit, -⟩ := List.lookup_eq_some_iff.1 hv
  exact h.keywords (name, v) (by rw [hsplit]; simp)

theorem GoodArgs.takeAt {args : Arguments} (h : N.GoodArgs args) (position : Nat) (name : String) :
    (∀ v ∈ (args.takeAt position name).1, N.good v) ∧ N.GoodArgs (args.takeAt position name).2 := by
  unfold Arguments.takeAt
  split
  · rename_i value hvalue
    refine ⟨fun v hv => ?_, fun x hx => h.positional x (List.mem_of_mem_eraseIdx hx), h.keywords, ?_⟩
    · cases hv
      exact h.positional _ (List.mem_of_getElem? hvalue)
    · exact N.fits_mono (List.length_eraseIdx_le _ _) h.fits
  · exact h.takeKeyword name

/-! ## Items -/

variable (N) in
/-- All items of an iteration are good. -/
def GoodItems (items : Items) : Prop := ∀ x ∈ items.toArray, N.good x

theorem good_null : N.good .null := N.good_data _ rfl

theorem good_str (text : String) : N.good (.str text) := N.good_data _ rfl

theorem good_int (n : Int64) : N.good (.int n) := N.good_data _ rfl

theorem goodItems_range (r : Range) : N.GoodItems (.range r) := by
  intro x hx
  obtain ⟨i, rfl⟩ := Array.mem_ofFn.1 hx
  exact good_int _

theorem GoodItems.item {items : Items} (h : N.GoodItems items) (i : Nat) : N.good (items.item i) := by
  cases items with
  | values xs =>
    simp only [Items.item, Array.getD_eq_getD_getElem?]
    cases hx : xs[i]? with
    | none => exact good_null
    | some x => exact h x (Array.mem_of_getElem? hx)
  | range r => exact good_int _

theorem good_charTexts (text : String) :
    N.GoodItems (.values ((text.toList.map fun c => .str (String.singleton c)).toArray)) := by
  intro x hx
  simp only [Items.toArray, List.mem_toArray, List.mem_map] at hx
  obtain ⟨c, -, rfl⟩ := hx
  exact good_str _

theorem good_keys {d : Dict} (h : N.GoodDict d) : ∀ x ∈ d.keys, N.good x := by
  intro x hx
  obtain ⟨entry, he, rfl⟩ := List.mem_map.1 hx
  exact (h entry he).1

theorem good_values {d : Dict} (h : N.GoodDict d) : ∀ x ∈ d.values, N.good x := by
  intro x hx
  obtain ⟨entry, he, rfl⟩ := List.mem_map.1 hx
  exact (h entry he).2

theorem iterate {v : Value} (hs : N.Kept s) (hv : N.good v) : N.Holds N.GoodItems (s.iterate v) := by
  cases v with
  | range r => exact goodItems_range r
  | str text => exact good_charTexts text
  | list r => exact hs.list r
  | tuple _ items => exact N.good_items hv
  | dict r => exact fun x hx => good_keys (hs.dict r) x (by simpa [Items.toArray] using hx)
  | set r => exact fun x hx => hs.set r x (by simpa [Items.toArray] using hx)
  | _ => exact Holds.plain rfl

end ScriptSandbox.Norm

import ScriptSandbox.Proofs.Splitting

/-!
# Replacing

Occurrences are replaced from left to right, each behind the last one, until there is none left or as many
are replaced as are allowed (`Text.Replaced`). The characters between them are kept, so the bytes of the
result follow from those of the text and from the number of occurrences (`Replaced.exists_kept`).
Counting comes to this number, for the empty text as well, which occurs at every place
(`TextMethod.replaced_replacements`). So the size that `replace` holds against the quota is that of its result
(`TextMethod.replace_sized`).
-/

namespace ScriptSandbox

namespace Text

/-- A text in which the occurrences of another one are replaced from left to right, at most `limit` of
them when a limit is given; `hits` tells how many are. The empty text occurs before each character and at
the end. -/
inductive Replaced (old new : String) : Option Nat → String → Nat → String → Prop where
  | done {limit : Option Nat} {text : String} : limit = some 0 ∨ ¬ Occurs old text →
    Replaced old new limit text 0 text
  | next {limit : Option Nat} {text before after result : String} {hits : Nat} : limit ≠ some 0 →
    old ≠ "" → text = before ++ old ++ after → First old before after →
    Replaced old new (limit.map (· - 1)) after hits result →
    Replaced old new limit text (hits + 1) (before ++ new ++ result)
  | between {limit : Option Nat} {text after result : String} {c : Char} {hits : Nat} :
    limit ≠ some 0 → old = "" → text.toList = c :: after.toList →
    Replaced old new (limit.map (· - 1)) after hits result →
    Replaced old new limit text (hits + 1) (new ++ String.singleton c ++ result)
  | atEnd {limit : Option Nat} : limit ≠ some 0 → old = "" → Replaced old new limit "" 1 new

section Replacements

variable {old new text result full : String} {limit : Option Nat} {hits n k : Nat}
  {parts : List String}

namespace Replaced

/-- What is kept is in the text beside the occurrences and in the result beside what replaces them. -/
theorem exists_kept (h : Replaced old new limit text hits result) : ∃ kept,
    text.utf8ByteSize = kept + hits * old.utf8ByteSize ∧
      result.utf8ByteSize = kept + hits * new.utf8ByteSize := by
  induction h with
  | @done limit text => exact ⟨text.utf8ByteSize, by simp⟩
  | @next limit text before after result hits _ _ htext _ _ ih =>
    obtain ⟨kept, hafter, hresult⟩ := ih
    refine ⟨before.utf8ByteSize + kept, ?_, ?_⟩
    · rw [htext]
      simp only [String.utf8ByteSize_append, hafter, Nat.succ_mul]
      omega
    · simp only [String.utf8ByteSize_append, hresult, Nat.succ_mul]
      omega
  | @between limit text after result c hits _ hempty htext _ ih =>
    obtain ⟨kept, hafter, hresult⟩ := ih
    -- the empty text has no bytes, so all of the text is kept
    subst hempty
    obtain rfl : text = String.singleton c ++ after := String.toList_inj.1 (by simpa using htext)
    rw [String.utf8ByteSize_empty, Nat.mul_zero] at hafter ⊢
    refine ⟨c.utf8Size + kept, ?_, ?_⟩
    · rw [String.utf8ByteSize_append, String.utf8ByteSize_singleton, hafter]
      rfl
    · simp only [String.utf8ByteSize_append, String.utf8ByteSize_singleton, hresult, Nat.succ_mul]
      omega
  | atEnd _ hempty => exact ⟨0, by simp [hempty]⟩

/-- There is one way to replace occurrences from left to right. -/
theorem unique {hits' : Nat} {result' : String} (h : Replaced old new limit text hits result)
    (h' : Replaced old new limit text hits' result') : hits' = hits ∧ result' = result := by
  -- a text, what is searched for and the limit leave one rule that applies
  induction h generalizing hits' result' with
  | done hdone =>
    cases h' with
    | done => exact ⟨rfl, rfl⟩
    | next hlimit _ htext => exact absurd ⟨_, _, htext⟩ (hdone.resolve_left hlimit)
    | between hlimit hempty => exact absurd (hempty ▸ occurs_empty _) (hdone.resolve_left hlimit)
    | atEnd hlimit hempty => exact absurd (hempty ▸ occurs_empty _) (hdone.resolve_left hlimit)
  | next hlimit hne htext hfirst _ ih =>
    cases h' with
    | done hdone => exact absurd ⟨_, _, htext⟩ (hdone.resolve_left hlimit)
    | next _ _ htext' hfirst' hrest =>
      obtain ⟨rfl, rfl⟩ := hfirst.unique hfirst' (htext.symm.trans htext')
      obtain ⟨rfl, rfl⟩ := ih hrest
      exact ⟨rfl, rfl⟩
    | between _ hempty => exact absurd hempty hne
    | atEnd _ hempty => exact absurd hempty hne
  | between hlimit hempty htext _ ih =>
    cases h' with
    | done hdone => exact absurd (hempty ▸ occurs_empty _) (hdone.resolve_left hlimit)
    | next _ hne => exact absurd hempty hne
    | between _ _ htext' hrest =>
      obtain ⟨rfl, hafter⟩ := List.cons.inj (htext.symm.trans htext')
      obtain rfl := String.toList_inj.1 hafter
      obtain ⟨rfl, rfl⟩ := ih hrest
      exact ⟨rfl, rfl⟩
    | atEnd => exact absurd htext (by simp)
  | atEnd hlimit hempty =>
    cases h' with
    | done hdone => exact absurd (hempty ▸ occurs_empty _) (hdone.resolve_left hlimit)
    | next _ hne => exact absurd hempty hne
    | between _ _ htext => exact absurd htext (by simp)
    | atEnd => exact ⟨rfl, rfl⟩

/-- A limit cuts the replacements off, and one beyond the number of occurrences cuts nothing off. -/
theorem exists_limited (h : Replaced old new none text n full) (k : Nat) : ∃ result,
    Replaced old new (some k) text (min n k) result ∧
      Replaced old new (some (min n k)) text (min n k) result := by
  generalize hnone : none = limit at h
  -- on the replacements without a limit, each of which takes one off `k`
  induction h generalizing k with
  | done hdone =>
    subst hnone
    have hnot := hdone.resolve_left (by simp)
    rw [Nat.zero_min]
    exact ⟨_, .done (.inr hnot), .done (.inr hnot)⟩
  | @next limit text before after result hits hlimit hne htext hfirst _ ih =>
    subst hnone
    cases k with
    | zero => exact ⟨text, .done (.inl rfl), .done (.inl rfl)⟩
    | succ k =>
      obtain ⟨rest, hrest, hrest'⟩ := ih k rfl
      rw [Nat.succ_min_succ]
      exact ⟨_, .next (by simp) hne htext hfirst hrest, .next (by simp) hne htext hfirst hrest'⟩
  | @between limit text after result c hits hlimit hempty htext _ ih =>
    subst hnone
    cases k with
    | zero => exact ⟨text, .done (.inl rfl), .done (.inl rfl)⟩
    | succ k =>
      obtain ⟨rest, hrest, hrest'⟩ := ih k rfl
      rw [Nat.succ_min_succ]
      exact ⟨_, .between (by simp) hempty htext hrest, .between (by simp) hempty htext hrest'⟩
  | atEnd hlimit hempty =>
    cases k with
    | zero => exact ⟨"", .done (.inl rfl), .done (.inl rfl)⟩
    | succ k =>
      rw [Nat.min_eq_left (by omega)]
      exact ⟨new, .atEnd (by simp) hempty, .atEnd (by simp) hempty⟩

end Replaced

/-! ## The replacements that are made -/

/-- Other text between the parts of a text replaces the occurrences at which it is cut. -/
theorem Parts.replaced (h : Parts old limit text parts) (hne : old ≠ "") (new : String) :
    Replaced old new limit text (parts.length - 1) (String.intercalate new parts) := by
  induction h with
  | whole hwhole => simpa using Replaced.done hwhole
  | @cut limit text before after parts hlimit htext hfirst hparts ih =>
    have hpos := List.length_pos_iff.2 hparts.ne_nil
    have hlength : (before :: parts).length - 1 = parts.length - 1 + 1 := by
      rw [List.length_cons]
      omega
    rw [String.intercalate_cons_of_ne_nil hparts.ne_nil, hlength]
    exact .next hlimit hne htext hfirst ih

/-- The empty text is replaced before each character and at the end. -/
theorem interleaveFrom_replaced (new : String) (written : List Char) (limit : Option Nat)
    (text : List Char) : ∃ hits result,
      Replaced "" new limit (String.ofList text) hits result ∧
      interleaveFrom new.toList written limit text = written.reverse ++ result.toList ∧
      (limit = none → hits = text.length + 1) := by
  -- on the text that is left, with what has been written and the limit that remains
  induction text generalizing written limit with
  | nil =>
    by_cases hlimit : limit = some 0
    · subst hlimit
      exact ⟨0, "", .done (.inl rfl), by simp [interleaveFrom], nofun⟩
    · refine ⟨1, new, .atEnd hlimit rfl, ?_, fun _ => rfl⟩
      rw [interleaveFrom.eq_2 _ _ _ hlimit]
      simp
  | cons c rest ih =>
    by_cases hlimit : limit = some 0
    · subst hlimit
      exact ⟨0, String.ofList (c :: rest), .done (.inl rfl), by simp [interleaveFrom], nofun⟩
    · obtain ⟨hits, result, hrest, hwritten, hall⟩ :=
        ih (c :: (new.toList.reverse ++ written)) (limit.map (· - 1))
      refine ⟨hits + 1, new ++ String.singleton c ++ result,
        .between hlimit rfl (by simp) hrest, ?_, fun hnone => ?_⟩
      · rw [interleaveFrom.eq_3 _ _ _ _ _ hlimit, hwritten]
        simp
      · rw [hall (by simp [hnone]), List.length_cons]

/-- Replacing goes from left to right, and without a limit as often as there are occurrences. -/
theorem replace_replaced (old new : String) (limit : Option Nat) (text : String) : ∃ hits,
    Replaced old new limit text hits (replace old new limit text) ∧
      (limit = none → hits = count old text) := by
  by_cases hempty : old = ""
  · subst hempty
    obtain ⟨hits, result, hreplaced, hwritten, hall⟩ :=
      interleaveFrom_replaced new [] limit text.toList
    have hresult : replace "" new limit text = result := by
      rw [replace, dif_pos rfl, hwritten]
      simp
    rw [String.ofList_toList] at hreplaced
    rw [String.length_toList] at hall
    rw [hresult, count, dif_pos rfl]
    exact ⟨hits, hreplaced, hall⟩
  · have hparts := splitOn_parts hempty limit text
    have hreplaced := hparts.replaced hempty new
    rw [replace, dif_neg hempty]
    refine ⟨_, hreplaced, fun hnone => ?_⟩
    subst hnone
    rw [hparts.length_eq hempty, Nat.add_sub_cancel_left]

end Replacements

end Text

namespace TextMethod

variable {text old new : String} {count : Int64}

/-- Counting the occurrences first comes to the replacements that are made then. -/
theorem replaced_replacements (text old new : String) (limit : Option Nat) :
    Text.Replaced old new limit text (replacements text old limit)
      (Text.replace old new (limit.map fun _ => replacements text old limit) text) := by
  obtain ⟨hits, hall, hcount⟩ := Text.replace_replaced old new none text
  rw [hcount rfl] at hall
  cases limit with
  | none => exact hall
  | some k =>
    -- the count is lowered to the occurrences there are, which changes no replacement
    obtain ⟨result, hlimited, hmeasured⟩ := hall.exists_limited k
    obtain ⟨hits', hmade, -⟩ :=
      Text.replace_replaced old new (some (min (Text.count old text) k)) text
    obtain ⟨-, hresult⟩ := hmeasured.unique hmade
    show Text.Replaced old new (some k) text (min (Text.count old text) k)
      (Text.replace old new (some (min (Text.count old text) k)) text)
    rwa [hresult]

/-- The size that is measured is that of the result, and no more is taken off than there is. -/
theorem replacedBytes_eq {hits : Nat} {result : String} {limit : Option Nat}
    (h : Text.Replaced old new limit text hits result) :
    hits * old.utf8ByteSize ≤ text.utf8ByteSize ∧
      replacedBytes text old new hits = result.utf8ByteSize := by
  obtain ⟨kept, htext, hresult⟩ := h.exists_kept
  rw [replacedBytes, htext, hresult, Nat.add_sub_cancel]
  exact ⟨Nat.le_add_left _ _, rfl⟩

/-- Arguments that ask for replacements, and for how many; all are made where no number is given. -/
inductive AsksReplacements : Arguments → String → String → Int64 → Prop where
  | all (old new : String) : AsksReplacements (.ofList [.str old, .str new]) old new (-1)
  | most (old new : String) {value : Value} {count : Int64} : value.toInt? = some count →
    AsksReplacements (.ofList [.str old, .str new, value]) old new count

theorem call_replace (limits : SizeLimits) (s : Store) (text : String) {args : Arguments}
    (h : AsksReplacements args old new count) : Method.call limits (.str text) "replace" args s =
      StoreM.look (fun _ => runReplace limits text old new (limitOf count)) s := by
  cases h with
  | all => rfl
  | @most _ _ value _ hvalue =>
    have hcall : Method.call limits (.str text) "replace" (.ofList [.str old, .str new, value]) s =
        StoreM.look (fun _ => (Arguments.intOf "str.replace" value).bind fun count =>
          runReplace limits text old new (limitOf count)) s := rfl
    rw [hcall, Arguments.intOf, hvalue]
    rfl

/-- A call of `replace` gives the text with its occurrences replaced from left to right, all of them for a
negative count and at most so many otherwise, if that is within the quota of strings, and fails
otherwise. The size that is held against the quota before the text is built is that of the result; the
occurrences taken off it are in the text, so the difference is never below zero. -/
theorem replace_sized (limits : SizeLimits) (s : Store) (text old new : String) (count : Int64) :
    ∃ hits result,
      Text.Replaced old new (if count < 0 then none else some count.toInt.toNat) text hits result ∧
      (∀ hits' result', Text.Replaced old new (if count < 0 then none else some count.toInt.toNat)
        text hits' result' → hits' = hits ∧ result' = result) ∧
      replacements text old (limitOf count) = hits ∧
      hits * old.utf8ByteSize ≤ text.utf8ByteSize ∧
      replacedBytes text old new hits = result.utf8ByteSize ∧
      ∀ args, AsksReplacements args old new count →
        (result.utf8ByteSize ≤ limits.maxStringLength →
          Method.call limits (.str text) "replace" args s = .ok (.str result) s) ∧
        (limits.maxStringLength < result.utf8ByteSize →
          Method.call limits (.str text) "replace" args s =
            .error (.limitExceeded .stringLength limits.maxStringLength) s) := by
  have hreplaced := replaced_replacements text old new (limitOf count)
  obtain ⟨htaken, hbytes⟩ := replacedBytes_eq hreplaced
  refine ⟨_, _, hreplaced, fun _ _ => hreplaced.unique, rfl, htaken, hbytes, fun args hargs => ?_⟩
  rw [call_replace limits s text hargs, StoreM.look, runReplace, hbytes]
  constructor
  · intro hfits
    rw [SizeLimits.checkString_of_le hfits]
    rfl
  · intro hover
    rw [SizeLimits.checkString_of_lt hover]
    rfl

end TextMethod

end ScriptSandbox

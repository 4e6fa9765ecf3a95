import ScriptSandbox.Method
import ScriptSandbox.Proofs.Growth
import ScriptSandbox.Proofs.InPlace
import ScriptSandbox.Proofs.Occurrence

/-!
# Splitting and joining

A call of `split` gives a new list of the parts of a text, or fails where these are more than the quota
of elements allows (`call_split`), and a call of `join` puts a text between the texts of a list
(`call_join`). So joining what was split at a separator gives the text again, however few cuts were asked
for (`split_join`).
-/

namespace ScriptSandbox

namespace TextMethod

/-! ## Calls of `split` -/

/-- A separator as an argument; without one, blanks separate. -/
def separatorValue : Option String → Value
  | none => .null
  | some separator => .str separator

/-- Arguments that ask for a separator and for a number of cuts, by position or by name. All cuts are made
where no number is given. -/
inductive Asks : Arguments → Option String → Int64 → Prop where
  | nothing : Asks ⟨[], []⟩ none (-1)
  | separator (sep : Option String) : Asks ⟨[separatorValue sep], []⟩ sep (-1)
  | both (sep : Option String) (k : Int64) : Asks ⟨[separatorValue sep, .int k], []⟩ sep k
  | limited (sep : Option String) (k : Int64) :
    Asks ⟨[separatorValue sep], [("maxsplit", .int k)]⟩ sep k
  | namedSeparator (sep : Option String) : Asks ⟨[], [("sep", separatorValue sep)]⟩ sep (-1)
  | namedLimit (k : Int64) : Asks ⟨[], [("maxsplit", .int k)]⟩ none k
  | named (sep : Option String) (k : Int64) :
    Asks ⟨[], [("sep", separatorValue sep), ("maxsplit", .int k)]⟩ sep k
  | named' (sep : Option String) (k : Int64) :
    Asks ⟨[], [("maxsplit", .int k), ("sep", separatorValue sep)]⟩ sep k

/-- What blanks, or a separator, cut a text into. -/
def partsAt (text : String) (limit : Option Nat) : Option String → Except Error (List String)
  | none => .ok (Text.words limit text)
  | some separator => splitAt separator text limit

section Calls

variable {limits : SizeLimits} {s : Store} {text separator : String} {args : Arguments}
  {sep : Option String} {maxsplit : Int64} {parts : List String} {r : ListRef}

theorem limitOf_of_neg (h : maxsplit < 0) : limitOf maxsplit = none := if_pos h

theorem limitOf_of_nonneg (h : ¬ maxsplit < 0) : limitOf maxsplit = some maxsplit.toInt.toNat :=
  if_neg h

theorem runSplit_eq (h : Asks args sep maxsplit) : runSplit limits text args = (do
    let parts ← partsAt text (limitOf maxsplit) sep
    limits.checkContainer parts.length
    pure (parts.map .str)) := by
  cases sep <;> cases h <;> rfl

/-- Splitting gives a new list of the parts if they are within the quota. -/
theorem call_split (limits : SizeLimits) (s : Store) (h : Asks args sep maxsplit)
    (hparts : partsAt text (limitOf maxsplit) sep = .ok parts) :
    (parts.length ≤ limits.maxContainerSize →
      ∃ r s', Method.call limits (.str text) "split" args s = .ok (.list r) s' ∧ s.Grown s' ∧
        s.lists.size ≤ r.index ∧ s'.list r = (parts.map Value.str).toArray) ∧
    (limits.maxContainerSize < parts.length → Method.call limits (.str text) "split" args s =
      .error (.limitExceeded .containerSize limits.maxContainerSize) s) := by
  have hcall : Method.call limits (.str text) "split" args =
      (StoreM.ofExcept (runSplit limits text args) >>= fun parts => StoreM.newList parts.toArray) :=
    rfl
  rw [hcall, runSplit_eq h, hparts]
  constructor
  · intro hfits
    simp only [bind, Except.bind, SizeLimits.checkContainer_of_le hfits]
    exact ⟨(s.addList _).1, (s.addList _).2, rfl, .addList s _, Nat.le_refl _, Store.list_addList _⟩
  · intro hover
    simp only [bind, Except.bind, SizeLimits.checkContainer_of_lt hover]
    rfl

/-! ## Calls of `join` -/

theorem textsFrom_texts (position : Nat) (found parts : List String) :
    textsFrom position found (parts.map .str) = .ok (found.reverse ++ parts) := by
  induction parts generalizing position found with
  | nil => simp [textsFrom]
  | cons part parts ih => simp [textsFrom, ih]

/-- The bytes that are counted before a join are those of its result. -/
theorem utf8ByteSize_intercalate (separator : String) (parts : List String) :
    (String.intercalate separator parts).utf8ByteSize =
      parts.foldl (fun sum part => sum + part.utf8ByteSize)
        (separator.utf8ByteSize * (parts.length - 1)) := by
  have hsum (start : Nat) (parts : List String) :
      parts.foldl (fun sum part => sum + part.utf8ByteSize) start =
        start + (parts.map String.utf8ByteSize).sum := by
    induction parts generalizing start with
    | nil => simp
    | cons part parts ih => simp [ih, Nat.add_assoc]
  rw [hsum]
  induction parts with
  | nil => simp
  | cons part parts ih =>
    by_cases hnil : parts = []
    · simp [hnil]
    · have hpos := List.length_pos_iff.2 hnil
      obtain ⟨n, hn⟩ := Nat.exists_eq_succ_of_ne_zero (Nat.ne_of_gt hpos)
      rw [String.intercalate_cons_of_ne_nil hnil]
      simp only [String.utf8ByteSize_append, ih, hn, List.length_cons, List.map_cons, List.sum_cons]
      simp only [Nat.add_one_sub_one, Nat.mul_add_one]
      omega

/-- Joining the texts in a list gives one text if that is within the quota. -/
theorem call_join (hlist : s.list r = (parts.map Value.str).toArray)
    (hfits : (String.intercalate separator parts).utf8ByteSize ≤ limits.maxStringLength) :
    Method.call limits (.str separator) "join" (.ofList [.list r]) s =
      .ok (.str (String.intercalate separator parts)) s := by
  have hcall : Method.call limits (.str separator) "join" (.ofList [.list r]) s =
      StoreM.look (fun s => runJoin limits separator (.values (s.list r))) s := rfl
  have hitems : Items.toList (.values (s.list r)) = parts.map .str := by
    simp [Items.toList, Items.toArray, hlist]
  have hrun : runJoin limits separator (.values (s.list r)) =
      .ok (.str (String.intercalate separator parts)) := by
    rw [runJoin, hitems, textsFrom_texts]
    simp only [bind, Except.bind, List.reverse_nil, List.nil_append, ← utf8ByteSize_intercalate,
      SizeLimits.checkString_of_le hfits]
  rw [hcall, StoreM.look, hrun]

end Calls

/-- Joining with a separator what was split at it gives the text again, if the parts are within the quota
of elements and the text is within that of strings. There is one more part than cuts, of which there are
as many as occurrences, or as many as allowed if these are fewer; no text can be cut at more places than
there are occurrences. If all cuts are made, no part has the separator in it. -/
theorem split_join (limits : SizeLimits) (s : Store) (text separator : String) (hne : separator ≠ "")
    (maxsplit : Int64) :
    ∃ (parts : List String) (n : Nat),
      Method.call limits (.str text) "count" (.ofList [.str separator]) s =
        .ok (.int (Int64.ofNat n)) s ∧
      (∀ pieces, String.intercalate separator pieces = text → pieces.length ≤ 1 + n) ∧
      parts.length = 1 + (if maxsplit < 0 then n else min maxsplit.toInt.toNat n) ∧
      (maxsplit < 0 → ∀ part ∈ parts, ¬ Text.Occurs separator part) ∧
      ∀ args, Asks args (some separator) maxsplit →
        (parts.length ≤ limits.maxContainerSize →
          ∃ r s', Method.call limits (.str text) "split" args s = .ok (.list r) s' ∧ s.Grown s' ∧
            s.lists.size ≤ r.index ∧ s'.list r = (parts.map Value.str).toArray ∧
            (text.utf8ByteSize ≤ limits.maxStringLength →
              Method.call limits (.str separator) "join" (.ofList [.list r]) s' =
                .ok (.str text) s')) ∧
        (limits.maxContainerSize < parts.length → Method.call limits (.str text) "split" args s =
          .error (.limitExceeded .containerSize limits.maxContainerSize) s) := by
  have hsplit : partsAt text (limitOf maxsplit) (some separator) =
      .ok ((Text.splitOn separator hne (limitOf maxsplit) text).map String.Slice.copy) := dif_neg hne
  have hall := Text.splitOn_parts hne none text
  have hparts := Text.splitOn_parts hne (limitOf maxsplit) text
  generalize (Text.splitOn separator hne (limitOf maxsplit) text).map String.Slice.copy = parts
    at hsplit hparts
  refine ⟨parts, Text.count separator text, rfl, fun pieces hpieces => ?_, ?_, fun hneg => ?_,
    fun args hargs => ?_⟩
  · exact Nat.le_trans (hall.length_le hpieces) (Nat.le_of_eq (hall.length_eq hne))
  · by_cases hneg : maxsplit < 0
    · rw [limitOf_of_neg hneg] at hparts
      rw [if_pos hneg, hparts.length_eq hne]
    · rw [limitOf_of_nonneg hneg] at hparts
      rw [if_neg hneg, hall.length_of_limit hparts, hall.length_eq hne, Nat.add_sub_cancel_left]
  · rw [limitOf_of_neg hneg] at hparts
    exact hparts.not_occurs hne
  · obtain ⟨hsplits, hover⟩ := call_split limits s hargs hsplit
    refine ⟨fun hfits => ?_, hover⟩
    obtain ⟨r, s', hcall, hgrown, hnew, hlist⟩ := hsplits hfits
    refine ⟨r, s', hcall, hgrown, hnew, hlist, fun htext => ?_⟩
    rw [← hparts.intercalate] at htext
    rw [call_join hlist htext, hparts.intercalate]

/-- One cut of a text in which occurrences overlap: two parts are joined. -/
theorem overlapping_split : "aba" ≠ "" ∧
    ∃ r s', Method.call Limits.standard.size (.str "abababa") "split"
        (.ofList [.str "aba", .int 1]) Store.empty = .ok (.list r) s' ∧ (s'.list r).size = 2 ∧
      Method.call Limits.standard.size (.str "aba") "join" (.ofList [.list r]) s' =
        .ok (.str "abababa") s' := by
  obtain ⟨parts, n, -, hmost, hlength, -, hcall⟩ :=
    split_join Limits.standard.size Store.empty "abababa" "aba" (by decide) 1
  have htwo : parts.length = 2 := by
    have hthree := hmost ["", "b", ""] (by decide)
    have hone : (1 : Int64).toInt.toNat = 1 := by decide
    rw [if_neg (by decide), hone] at hlength
    simp only [List.length_cons, List.length_nil] at hthree
    omega
  obtain ⟨hsplit, -⟩ := hcall (.ofList [.str "aba", .int 1]) (.both (some "aba") 1)
  obtain ⟨r, s', hok, -, -, hlist, hjoin⟩ := hsplit (by rw [htwo]; decide)
  exact ⟨by decide, r, s', hok, by simp [hlist, htwo], hjoin (by decide)⟩

end TextMethod

end ScriptSandbox

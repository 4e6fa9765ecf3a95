import ScriptSandbox.Proofs.Numeral
import ScriptSandbox.Proofs.Replacement
import ScriptSandbox.Proofs.Signal
import ScriptSandbox.Proofs.Words

/-!
# The quota of strings

What a method of a text gives is a part of the text (`Text.Occurs.utf8ByteSize_le`) or is measured, before
it is built where it could be long, so no text among its results exceeds both the quota of strings and the
text itself (`TextMethod.call_gives`). Operators, f-strings and replacement fields measure every text that
they make (`Operator.binary_gives`, `Eval.visit_short`), so no such text exceeds the quota
(`texts_within_quota`).
-/

namespace ScriptSandbox

/-! ## Parts of texts -/

namespace Text

variable {part whole text separator : String} {limit : Option Nat} {parts : List String}

theorem Occurs.trans (h : Occurs part whole) (h' : Occurs whole text) : Occurs part text :=
  occurs_iff.2 ((occurs_iff.1 h).trans (occurs_iff.1 h'))

theorem Occurs.utf8ByteSize_le (h : Occurs part text) : part.utf8ByteSize ≤ text.utf8ByteSize := by
  obtain ⟨before, after, rfl⟩ := h
  simp only [String.utf8ByteSize_append]
  omega

theorem Parts.occurs (h : Parts separator limit text parts) : ∀ part ∈ parts, Occurs part text := by
  induction h with
  | whole => exact List.forall_mem_singleton.2 ⟨"", "", by simp⟩
  | @cut _ text before after _ _ htext _ _ ih =>
    have hafter : Occurs after text := ⟨before ++ separator, "", by simp [htext]⟩
    exact List.forall_mem_cons.2 ⟨⟨"", separator ++ after, by simp [htext, String.append_assoc]⟩,
      fun part hpart => (ih part hpart).trans hafter⟩

theorem occurs_words (limit : Option Nat) (text : String) : ∀ word ∈ words limit text, Occurs word text := by
  obtain ⟨stretches, -, hfrom⟩ := wordsFrom_eq text.toList
  have hword (r : Stretch) : Occurs (String.ofList (r.of text.toList)) text := by
    rw [occurs_iff, String.toList_ofList]
    exact (List.drop_suffix ..).isInfix.trans (List.take_prefix ..).isInfix
  have hrest (start : Nat) : Occurs (String.ofList (text.toList.drop start)) text := by
    rw [occurs_iff, String.toList_ofList]
    exact (List.drop_suffix ..).isInfix
  intro word hmem
  rw [words, hfrom, List.reverse_nil, List.nil_append] at hmem
  obtain ⟨chars, hchars, rfl⟩ := List.mem_map.1 hmem
  cases limit with
  | none =>
    obtain ⟨r, -, rfl⟩ := List.mem_map.1 hchars
    exact hword r
  | some k =>
    rcases List.mem_append.1 hchars with hchars | hchars
    · obtain ⟨r, -, rfl⟩ := List.mem_map.1 hchars
      exact hword r
    · obtain ⟨r, -, rfl⟩ := Option.map_eq_some_iff.1 (Option.mem_toList.1 hchars)
      exact hrest r.start

end Text

theorem TextMethod.occurs_stripEnds (m : TextMethod) (p : Char → Bool) (text : String) :
    Text.Occurs (stripEnds m p text) text := by
  have hstart : Text.Occurs (text.dropWhile p).copy text :=
    ⟨(text.takeWhile p).copy, "", by simp [String.takeWhile_append_dropWhile]⟩
  unfold stripEnds
  split
  · exact hstart
  · exact ⟨"", (text.takeEndWhile p).copy, by simp [String.dropEndWhile_append_takeEndWhile]⟩
  · refine Text.Occurs.trans ⟨"", ((text.dropWhile p).takeEndWhile p).copy, ?_⟩ hstart
    simp [String.Slice.dropEndWhile_append_takeEndWhile]

/-! ## Results -/

/-- Behind a check, what is checked is within the quota. -/
theorem Yields.checked {α : Type} {P : α → Prop} {limits : SizeLimits} {n : Nat}
    {next : Except Error α} (h : n ≤ limits.maxStringLength → Yields P next) :
    Yields P (limits.checkString n >>= fun _ => next) := by
  by_cases hfits : n ≤ limits.maxStringLength
  · rw [SizeLimits.checkString_of_le hfits]
    exact h hfits
  · rw [SizeLimits.checkString_of_lt (Nat.not_le.1 hfits)]
    exact error _

/-- A result of an operation on a text that is no container. -/
inductive Value.Brief (bound : Nat) : Value → Prop where
  | text {text : String} : text.utf8ByteSize ≤ bound → Value.Brief bound (.str text)
  | int (n : Int64) : Value.Brief bound (.int n)
  | bool (b : Bool) : Value.Brief bound (.bool b)

/-! ## Methods -/

namespace TextMethod

variable {limits : SizeLimits} {text : String} {bound : Nat}

theorem checked_yields (h : limits.maxStringLength ≤ bound) (chars : List Char) :
    Yields (Value.Brief bound) (checked limits chars) :=
  .checked fun hfits => .ok (.text (Nat.le_trans hfits h))

theorem runReplace_yields (h : limits.maxStringLength ≤ bound) (text old new : String)
    (limit : Option Nat) : Yields (Value.Brief bound) (runReplace limits text old new limit) := by
  refine .checked fun hfits => .ok (.text ?_)
  rw [(replacedBytes_eq (replaced_replacements text old new limit)).2] at hfits
  exact Nat.le_trans hfits h

theorem runJoin_yields (h : limits.maxStringLength ≤ bound) (separator : String) (items : Items) :
    Yields (Value.Brief bound) (runJoin limits separator items) := by
  refine .behind fun parts => .checked fun hfits => .ok (.text ?_)
  rw [← utf8ByteSize_intercalate] at hfits
  exact Nat.le_trans hfits h

theorem utf8ByteSize_zeros (n : Nat) : (Decimal.zeros n).utf8ByteSize = n := by
  have hascii : ∀ c ∈ List.replicate n '0', c.toNat < 128 :=
    List.forall_mem_replicate.2 (.inr (by decide))
  rw [Decimal.zeros, Text.utf8ByteSize_of_ascii hascii, List.length_replicate]

/-- The zeros between a sign and what stands behind it have one byte each. -/
theorem runZfill_yields (h : max limits.maxStringLength text.utf8ByteSize ≤ bound) (width : Int64) :
    Yields (Value.Brief bound) (runZfill limits text width) := by
  unfold runZfill
  dsimp only
  generalize width.toInt.toNat - text.length = missing
  split
  · exact .ok (.text (by omega))
  · refine .checked fun hfits => ?_
    have hfilled (sign digits : String) (htext : text = sign ++ digits) :
        (sign ++ Decimal.zeros missing ++ digits).utf8ByteSize ≤ bound := by
      rw [htext, String.utf8ByteSize_append] at hfits
      rw [String.utf8ByteSize_append, String.utf8ByteSize_append, utf8ByteSize_zeros]
      omega
    split
    · next digits hchars =>
      exact .ok (.text (hfilled "+" _ (String.toList_inj.1 (by simpa using hchars))))
    · next digits hchars =>
      exact .ok (.text (hfilled "-" _ (String.toList_inj.1 (by simpa using hchars))))
    · refine .ok (.text ?_)
      have hplain := hfilled "" text (by simp)
      rwa [String.empty_append, ← String.ofList_toList (s := text)] at hplain

theorem stripEnds_brief (h : text.utf8ByteSize ≤ bound) (m : TextMethod) (p : Char → Bool) :
    Value.Brief bound (.str (stripEnds m p text)) :=
  .text (Nat.le_trans (occurs_stripEnds m p text).utf8ByteSize_le h)

/-- A method that gives no container gives no text beyond the quota, but for parts of its own text. -/
theorem run_yields (m : TextMethod) (limits : SizeLimits) (s : Store) (text : String)
    (args : List Value) :
    Yields (Value.Brief (max limits.maxStringLength text.utf8ByteSize)) (m.run limits s text args) := by
  have hquota := Nat.le_max_left limits.maxStringLength text.utf8ByteSize
  have htext := Nat.le_max_right limits.maxStringLength text.utf8ByteSize
  unfold run
  dsimp only
  split
  iterate 4 exact checked_yields hquota _
  iterate 2 exact .ok (.bool _)
  iterate 3 exact .ok (stripEnds_brief htext _ _)
  iterate 3 exact .behind fun p => .ok (stripEnds_brief htext _ p)
  · exact .behind fun _ => .behind fun items => runJoin_yields hquota text items
  iterate 2 exact .map fun b => .bool b
  · exact .behind fun _ => .behind fun _ => runReplace_yields hquota _ _ _ _
  · exact .behind fun _ => .behind fun _ => .behind fun _ => runReplace_yields hquota _ _ _ _
  · refine .behind fun _ => ?_
    split <;> exact .ok (.int _)
  · exact .behind fun _ => .ok (.int _)
  · exact .behind fun width => runZfill_yields (Nat.le_refl _) width
  · exact .error _

theorem splitAt_yields (separator text : String) (limit : Option Nat) :
    Yields (fun parts => ∀ part ∈ parts, Text.Occurs part text) (splitAt separator text limit) := by
  unfold splitAt
  split
  · exact .error _
  · next hne => exact .ok (Text.splitOn_parts hne limit text).occurs

/-- Splitting gives parts of the text. -/
theorem runSplit_yields (limits : SizeLimits) (text : String) (args : Arguments) :
    Yields (fun vs : List Value => ∀ v ∈ vs, ∃ part, v = .str part ∧ Text.Occurs part text)
      (runSplit limits text args) := by
  have hmeasured {parts : List String} (h : ∀ part ∈ parts, Text.Occurs part text) :
      Yields (fun vs : List Value => ∀ v ∈ vs, ∃ part, v = .str part ∧ Text.Occurs part text) (do
        limits.checkContainer parts.length
        pure (parts.map Value.str)) := by
    refine .behind fun _ => .ok fun v hv => ?_
    obtain ⟨part, hpart, rfl⟩ := List.mem_map.1 hv
    exact ⟨part, rfl, h part hpart⟩
  refine .behind fun _ => ?_
  generalize args.takeAt 0 "sep" = taken
  obtain ⟨separator, rest⟩ := taken
  dsimp only
  generalize rest.takeAt 0 "maxsplit" = taken
  obtain ⟨given, rest⟩ := taken
  cases given <;> refine .behind fun limit => .behind fun _ => ?_
  all_goals
    split
    · exact hmeasured (Text.occurs_words _ text)
    · exact .behind fun _ => (splitAt_yields _ text _).bind fun _ => hmeasured

end TextMethod

/-- A text is in a value: the value is the text, or something that the value holds has the text in it. -/
inductive Store.HasText (s : Store) : Value → String → Prop where
  | text (text : String) : s.HasText (.str text) text
  | list {r : ListRef} {v : Value} {text : String} : v ∈ s.list r → s.HasText v text →
    s.HasText (.list r) text
  | tuple {id : Nat} {items : Array Value} {v : Value} {text : String} : v ∈ items → s.HasText v text →
    s.HasText (.tuple id items) text
  | key {r : DictRef} {entry : Value × Value} {text : String} : entry ∈ (s.dict r).toList →
    s.HasText entry.1 text → s.HasText (.dict r) text
  | value {r : DictRef} {entry : Value × Value} {text : String} : entry ∈ (s.dict r).toList →
    s.HasText entry.2 text → s.HasText (.dict r) text
  | element {r : SetRef} {v : Value} {text : String} : v ∈ (s.set r).toList → s.HasText v text →
    s.HasText (.set r) text

theorem Value.Brief.le_of_hasText {bound : Nat} {v : Value} {s : Store} {text : String}
    (h : v.Brief bound) (htext : s.HasText v text) : text.utf8ByteSize ≤ bound := by
  cases h with
  | text hfits =>
    cases htext
    exact hfits
  | int n => cases htext
  | bool b => cases htext

/-- What an operation on the store gives, if it gives something, is of a sort in the store behind it. -/
def StoreM.Gives {α : Type} (P : Store → α → Prop) (m : StoreM α) : Prop :=
  ∀ s a s', m s = .ok a s' → P s' a

namespace StoreM.Gives

variable {α β : Type} {P : Store → α → Prop} {Q : Store → β → Prop}

theorem throw (e : Error) : Gives P (MonadExcept.throw e) := nofun

theorem ofExcept {x : Except Error α} (h : Yields (fun a => ∀ s, P s a) x) : Gives P (StoreM.ofExcept x) := by
  intro s a s' hr
  cases x with
  | ok b =>
    cases hr
    exact h _ rfl s
  | error e => cases hr

theorem look {f : Store → Except Error α} (h : ∀ s, Yields (P s) (f s)) : Gives P (StoreM.look f) := by
  intro s a s' hr
  simp only [StoreM.look] at hr
  cases hf : f s with
  | ok b =>
    rw [hf] at hr
    cases hr
    exact h s _ hf
  | error e =>
    rw [hf] at hr
    cases hr

/-- Whatever comes first, what comes behind it gives the result. -/
theorem behind {m : StoreM α} {f : α → StoreM β} (h : ∀ a, Gives Q (f a)) : Gives Q (m >>= f) := by
  intro s b s' hr
  change EStateM.bind m f s = _ at hr
  unfold EStateM.bind at hr
  split at hr
  · exact h _ _ _ _ hr
  · cases hr

theorem known {R : α → Prop} {x : Except Error α} {f : α → StoreM β} (h : Yields R x)
    (hf : ∀ a, R a → Gives Q (f a)) : Gives Q (StoreM.ofExcept x >>= f) := by
  cases x with
  | ok a => exact hf a (h a rfl)
  | error e => exact throw e

theorem newList {P : Store → Value → Prop} {items : Array Value}
    (h : ∀ s r, s.list r = items → P s (.list r)) : Gives P (StoreM.newList items) := by
  intro s v s' hr
  cases hr
  exact h _ _ (Store.list_addList items)

end StoreM.Gives

/-- All texts in what a method of a text gives are within the quota or no longer than the text. -/
theorem TextMethod.call_gives (limits : SizeLimits) (text name : String) (args : Arguments) :
    StoreM.Gives (fun s v => ∀ t, s.HasText v t →
        t.utf8ByteSize ≤ max limits.maxStringLength text.utf8ByteSize)
      (Method.call limits (.str text) name args) := by
  simp only [Method.call]
  split
  · next m _ =>
    unfold call
    split
    · refine .known (runSplit_yields limits text args) fun parts hparts => .newList ?_
      intro s r hlist t htext
      cases htext with
      | list hv htext =>
        rw [hlist, List.mem_toArray] at hv
        obtain ⟨part, rfl, hpart⟩ := hparts _ hv
        cases htext
        exact Nat.le_trans hpart.utf8ByteSize_le (Nat.le_max_right _ _)
    · refine .behind fun _ => .look fun s v hv t htext => ?_
      exact (run_yields m limits s text args.positional v hv).le_of_hasText htext
  · exact .behind fun _ => .throw _

/-! ## Operators -/

/-- A value that is a text is one of at most `bound` bytes. -/
def Value.Short (bound : Nat) (v : Value) : Prop := ∀ text, v = .str text → text.utf8ByteSize ≤ bound

namespace Operator

variable {limits : SizeLimits}

/-- Numbers are no texts. -/
theorem short_of_numeric {x : Except Error Value} (h : Numeric x) (bound : Nat) :
    Yields (Value.Short bound) x := by
  rintro v hv text rfl
  cases h _ hv

theorem gives_of_yields {x : Except Error Value} {bound : Nat} (h : Yields (Value.Short bound) x) :
    StoreM.Gives (fun _ => Value.Short bound) (StoreM.ofExcept x) :=
  .ofExcept fun v hv _ => h v hv

theorem gives_newList (items : Array Value) (bound : Nat) :
    StoreM.Gives (fun _ => Value.Short bound) (StoreM.newList items) := by
  rintro s v s' ⟨⟩ text ⟨⟩

theorem gives_newTuple (items : Array Value) (bound : Nat) :
    StoreM.Gives (fun _ => Value.Short bound) (StoreM.newTuple items) := by
  rintro s v s' ⟨⟩ text ⟨⟩

theorem gives_newDict (d : Dict) (bound : Nat) :
    StoreM.Gives (fun _ => Value.Short bound) (StoreM.newDict d) := by
  rintro s v s' ⟨⟩ text ⟨⟩

theorem gives_newSet (items : KeySet) (bound : Nat) :
    StoreM.Gives (fun _ => Value.Short bound) (StoreM.newSet items) := by
  rintro s v s' ⟨⟩ text ⟨⟩

theorem utf8ByteSize_repeatedText (text : String) (count : Nat) :
    (repeatedText text count).utf8ByteSize = text.utf8ByteSize * count := by
  fun_induction repeatedText text count with
  | case1 => rfl
  | case2 count hne half hodd ih =>
    have hcount : count = count / 2 + count / 2 + 1 := by omega
    conv_rhs => rw [hcount]
    rw [String.utf8ByteSize_append, String.utf8ByteSize_append, ih, Nat.mul_add, Nat.mul_add, Nat.mul_one]
  | case3 count hne half heven ih =>
    have hcount : count = count / 2 + count / 2 := by omega
    conv_rhs => rw [hcount]
    rw [String.utf8ByteSize_append, ih, Nat.mul_add]

theorem timesText_yields (left right : Value) (text : String) (other : Value) :
    Yields (Value.Short limits.maxStringLength) (timesText limits left right text other) := by
  unfold timesText
  split
  · exact .error _
  · refine .checked fun hfits => .ok ?_
    rintro result ⟨⟩
    rwa [utf8ByteSize_repeatedText]

theorem joinTexts_yields (a b : String) :
    Yields (Value.Short limits.maxStringLength) (joinTexts limits a b) := by
  refine .checked fun hfits => .ok ?_
  rintro result ⟨⟩
  rwa [String.utf8ByteSize_append]

theorem multiply_gives (left right : Value) :
    StoreM.Gives (fun _ => Value.Short limits.maxStringLength) (multiply limits left right) := by
  unfold multiply
  split
  · exact gives_of_yields (timesText_yields _ _ _ _)
  · split
    · exact .throw _
    · exact .throw _
    · exact gives_of_yields (timesText_yields _ _ _ _)
  · exact .behind fun items => gives_newList items _
  · exact .behind fun items => gives_newTuple items _
  · exact .behind fun items => gives_newList items _
  · exact .behind fun items => gives_newTuple items _
  · exact gives_of_yields (short_of_numeric (numeric_onNumbers _ _ _) _)

/-- A text that an operator gives is within the quota. -/
theorem binary_gives (limits : SizeLimits) (op : BinaryOp) (left right : Value) :
    StoreM.Gives (fun _ => Value.Short limits.maxStringLength) (binary limits op left right) := by
  unfold binary
  split
  · exact gives_of_yields (short_of_numeric (numeric_onInts _ _ _) _)
  · exact multiply_gives _ _
  · exact gives_of_yields (joinTexts_yields _ _)
  · exact .behind fun items => gives_newList items _
  · exact .behind fun _ => gives_newTuple _ _
  · exact .behind fun d => gives_newDict d _
  · exact .behind fun items => gives_newSet items _
  · split
    · rintro s v s' ⟨⟩ text ⟨⟩
    · exact gives_of_yields (short_of_numeric (numeric_onNumbers _ _ _) _)
  · exact gives_of_yields (short_of_numeric (numeric_onNumbers _ _ _) _)

end Operator

/-! ## F-strings -/

namespace Eval

/-- A text within the quota. -/
def IsShortText (sb : Sandbox) (v : Value) : Prop :=
  ∃ text, v = .str text ∧ text.utf8ByteSize ≤ sb.limits.size.maxStringLength

variable {sb : Sandbox} {v : Visit}

/-- Behind a check, what is checked is within the quota. -/
theorem gives_checked {P : Value → Prop} {n : Nat} {next : Eval Value}
    (h : n ≤ sb.limits.size.maxStringLength → Gives P next) :
    Gives P ((sb.limits.size.checkString n : Except Error Unit) >>= fun _ => next) := by
  intro s a s' hr
  by_cases hfits : n ≤ sb.limits.size.maxStringLength
  · rw [SizeLimits.checkString_of_le hfits] at hr
    exact h hfits s a s' hr
  · rw [SizeLimits.checkString_of_lt (Nat.not_le.1 hfits)] at hr
    cases hr

theorem joinedStr_short {text : String} (htext : text.utf8ByteSize ≤ sb.limits.size.maxStringLength) :
    ∀ parts : List Expr, Gives (IsShortText sb) (joinedStr sb v text parts)
  | [] => .pure ⟨text, rfl, htext⟩
  | part :: rest => by
    refine .behind fun value => ?_
    split
    · exact .behind fun _ => gives_checked fun hfits => joinedStr_short hfits rest
    · exact .behind fun _ => gives_checked fun hfits => joinedStr_short hfits rest

theorem formattedValue_short (value : Expr) (conversion : Option Char) (spec : Option Expr) :
    Gives (IsShortText sb) (formattedValue sb v value conversion spec) :=
  .behind fun _ => .behind fun _ => .behind fun _ => .behind fun text =>
    gives_checked fun hfits => .pure ⟨text, rfl, hfits⟩

end Eval

/-- An f-string or a replacement field. -/
def ExprKind.isFormatted : ExprKind → Bool
  | .joinedStr _ | .formattedValue .. => true
  | _ => false

/-- The value of an f-string or of a replacement field is a text within the quota. -/
theorem Eval.visit_short (sb : Sandbox) (depth : Nat) {e : Expr} (he : e.kind.isFormatted = true) :
    Gives (IsShortText sb) ((visitWithin sb depth).expr e) := by
  cases depth with
  | zero => exact .throw _
  | succ depth =>
    refine .located _ (.behind fun _ => ?_)
    cases hkind : e.kind with
    | joinedStr parts => exact joinedStr_short (Nat.zero_le _) parts
    | formattedValue value conversion spec => exact formattedValue_short value conversion spec
    | _ =>
      rw [hkind] at he
      cases he

/-- Texts are bounded. Those in what a method of a text gives are within the quota of strings or no longer
than the text itself; one that an operator gives, and the value of every f-string and of every
replacement field, is within the quota. -/
theorem texts_within_quota :
    (∀ (limits : SizeLimits) (text name : String) (args : Arguments) (s s' : Store) (v : Value),
      Method.call limits (.str text) name args s = .ok v s' →
        ∀ t, s'.HasText v t → t.utf8ByteSize ≤ max limits.maxStringLength text.utf8ByteSize) ∧
    (∀ (limits : SizeLimits) (op : BinaryOp) (left right : Value) (s s' : Store) (text : String),
      Operator.binary limits op left right s = .ok (.str text) s' →
        text.utf8ByteSize ≤ limits.maxStringLength) ∧
    (∀ (sb : Sandbox) (depth : Nat) (e : Expr) (s s' : RunState) (v : Value),
      e.kind.isFormatted = true → (Eval.visitWithin sb depth).expr e s = .ok v s' →
        ∃ text, v = .str text ∧ text.utf8ByteSize ≤ sb.limits.size.maxStringLength) :=
  ⟨fun limits text name args s s' v h => TextMethod.call_gives limits text name args s v s' h,
    fun limits op left right s s' text h => Operator.binary_gives limits op left right s _ s' h text rfl,
    fun sb depth _ s s' v he h => Eval.visit_short sb depth he s v s' h⟩

/-- A sandbox with the preset that allows texts of five bytes. -/
def fiveBytes : Sandbox :=
  ⟨{ Limits.standard with size := { Limits.standard.size with maxStringLength := 5 } }, .standard, .bare,
    .stopped⟩

/-- An f-string with a replacement field, `f"ab{'cé'}"`. -/
def filledText : Expr :=
  ⟨.joinedStr [⟨.constant (.str "ab"), .dummy⟩,
    ⟨.formattedValue ⟨.constant (.str "cé"), .dummy⟩ none none, .dummy⟩], .dummy⟩

/-- Five bytes are filled by a method, by an operator and by an f-string. -/
theorem fiveBytes_filled :
    (Method.call fiveBytes.limits.size (.str "é") "zfill" (.ofList [.int 4]) .empty =
        .ok (.str "000é") .empty ∧
      "000é".utf8ByteSize ≤ max fiveBytes.limits.size.maxStringLength "é".utf8ByteSize) ∧
    (Operator.binary fiveBytes.limits.size .add (.str "ab") (.str "cé") .empty =
        .ok (.str "abcé") .empty ∧
      "abcé".utf8ByteSize ≤ fiveBytes.limits.size.maxStringLength) ∧
    (∃ s', (Eval.visitWithin fiveBytes 3).expr filledText (.start .empty) = .ok (.str "abcé") s') ∧
      "abcé".utf8ByteSize ≤ fiveBytes.limits.size.maxStringLength := by
  obtain ⟨hmethod, hoperator, hformatted⟩ := texts_within_quota
  have hzeros : Method.call fiveBytes.limits.size (.str "é") "zfill" (.ofList [.int 4]) .empty =
      .ok (.str "000é") .empty := rfl
  have hjoined : Operator.binary fiveBytes.limits.size .add (.str "ab") (.str "cé") .empty =
      .ok (.str "abcé") .empty := rfl
  have hfilled : ∃ s', (Eval.visitWithin fiveBytes 3).expr filledText (.start .empty) =
      .ok (.str "abcé") s' := ⟨_, rfl⟩
  obtain ⟨s', hfilled⟩ := hfilled
  obtain ⟨text, htext, hshort⟩ := hformatted fiveBytes 3 filledText _ _ _ rfl hfilled
  obtain rfl := Value.str.inj htext
  exact ⟨⟨hzeros, hmethod _ _ _ _ _ _ _ hzeros _ (.text _)⟩, ⟨hjoined, hoperator _ _ _ _ _ _ _ hjoined⟩,
    ⟨s', hfilled⟩, hshort⟩

end ScriptSandbox

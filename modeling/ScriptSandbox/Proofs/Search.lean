import ScriptSandbox.Method
import ScriptSandbox.Operator.Comparison
import ScriptSandbox.Proofs.Occurrence
import ScriptSandbox.Proofs.Slice

/-!
# Searching

Looking for a text in another one, searching for its place, counting it and looking at the start all come
down to its first occurrence (`Text.find?_eq_some`, `Text.find?_eq_none_iff`). A place counts characters, as
slices do, so the slice at the place is the text that is searched for, and at no place before it
(`TextMethod.search_coherent`).
-/

namespace ScriptSandbox

namespace Text

variable {needle text : String} {limit : Option Nat} {parts : List String} {i : Nat}

theorem contains_iff_occurs : contains text needle = true ↔ Occurs needle text :=
  contains_iff.trans occurs_iff.symm

/-- The place that is found is that of the first occurrence. -/
theorem find?_eq_some (h : find? needle text = some i) : ∃ before after,
    text = before ++ needle ++ after ∧ First needle before after ∧ before.length = i := by
  unfold find? at h
  split at h
  · next hempty =>
    obtain rfl := Option.some.inj h
    exact ⟨"", text, by simp [hempty], fun _ _ _ => Nat.zero_le _, rfl⟩
  · next hne =>
    obtain ⟨⟨before, after⟩, hcut, hlength⟩ := Option.map_eq_some_iff.1 h
    obtain ⟨hcopy, hfirst⟩ := cut?_eq_some hne hcut
    exact ⟨before.copy, after.copy, by simpa using hcopy, hfirst, hlength⟩

/-- No place is found where there is no occurrence. -/
theorem find?_eq_none_iff : find? needle text = none ↔ ¬ Occurs needle text := by
  unfold find?
  split
  · next hempty =>
    have hoccurs : Occurs needle text := hempty ▸ occurs_empty text
    simp [hoccurs]
  · rw [Option.map_eq_none_iff, cut?_eq_none_iff, occurs_iff, String.copy_toSlice]

theorem occurs_of_find (h : find? needle text = some i) : Occurs needle text := by
  obtain ⟨before, after, htext, -⟩ := find?_eq_some h
  exact ⟨before, after, htext⟩

theorem find?_lt (h : find? needle text = some i) : i < text.length + 1 := by
  obtain ⟨before, after, rfl, -, rfl⟩ := find?_eq_some h
  simp only [String.length_append]
  omega

/-- A text starts with what is found at its first place. -/
theorem startsWith_iff : text.startsWith needle = true ↔ find? needle text = some 0 := by
  rw [String.startsWith_string_iff]
  constructor
  · rintro ⟨rest, hrest⟩
    have htext : text = "" ++ needle ++ String.ofList rest :=
      String.toList_inj.1 (by simp [hrest])
    cases hfind : find? needle text with
    | none => exact absurd ⟨_, _, htext⟩ (find?_eq_none_iff.1 hfind)
    | some i =>
      obtain ⟨before, after, htext', hfirst, rfl⟩ := find?_eq_some hfind
      have hle := hfirst "" (String.ofList rest) (htext'.symm.trans htext)
      rw [Nat.le_zero.1 hle]
  · intro hfind
    obtain ⟨before, after, htext, -, hlength⟩ := find?_eq_some hfind
    obtain rfl : before = "" := by simpa using hlength
    exact ⟨after.toList, by simp [htext]⟩

/-! ## Counting -/

namespace Parts

/-- There is more than one part where there is an occurrence. -/
theorem one_lt_length_iff (h : Parts needle none text parts) :
    1 < parts.length ↔ Occurs needle text := by
  cases h with
  | whole hwhole => simpa using hwhole.resolve_left (by simp)
  | cut _ htext _ hparts => simpa [List.length_pos_iff.2 hparts.ne_nil] using ⟨_, _, htext⟩

/-- Each cut takes a character of the text at least. -/
theorem length_le_length (h : Parts needle limit text parts) (hne : needle ≠ "") :
    parts.length ≤ text.length + 1 := by
  have hpos : 0 < needle.length := Nat.pos_of_ne_zero (by simpa using hne)
  induction h with
  | whole => simp
  | cut _ htext _ _ ih =>
    rw [htext]
    simp only [List.length_cons, String.length_append]
    omega

end Parts

theorem one_le_count_iff : 1 ≤ count needle text ↔ Occurs needle text := by
  by_cases hne : needle = ""
  · simp [count, hne, occurs_empty text]
  · have hparts := splitOn_parts hne none text
    rw [← hparts.one_lt_length_iff, hparts.length_eq hne]
    omega

theorem count_le (needle text : String) : count needle text ≤ text.length + 1 := by
  by_cases hne : needle = ""
  · simp [count, hne]
  · have hparts := splitOn_parts hne none text
    have hle := hparts.length_le_length hne
    rw [hparts.length_eq hne] at hle
    omega

/-! ## Parts at a place -/

theorem part_append (before needle after : String) :
    part (before ++ needle ++ after) before.length (before.length + needle.length) = needle := by
  apply String.toList_inj.1
  have hlength : (before ++ needle).toList.length = before.length + needle.length := by
    rw [String.length_toList, String.length_append]
  rw [toList_part, String.toList_append, ← hlength, List.take_left, String.toList_append,
    ← String.length_toList, List.drop_left]

/-- What is the part at a place occurs there, or before it where the place is behind the end. -/
theorem exists_of_part (h : part text i (i + needle.length) = needle) :
    ∃ before after, text = before ++ needle ++ after ∧ before.length ≤ i := by
  have hlength : (String.ofList (text.toList.take i)).length ≤ i := by
    rw [String.length_ofList]
    exact List.length_take_le _ _
  refine ⟨_, String.ofList (text.toList.drop (i + needle.length)), ?_, hlength⟩
  have hneedle := congrArg String.toList h
  rw [toList_part] at hneedle
  apply String.toList_inj.1
  have hstart : text.toList.take i = (text.toList.take (i + needle.length)).take i := by
    rw [List.take_take, Nat.min_eq_left (Nat.le_add_right _ _)]
  rw [String.toList_append, String.toList_append, String.toList_ofList, String.toList_ofList,
    ← hneedle, hstart, List.take_append_drop, List.take_append_drop]

end Text

/-! ## Slices of texts -/

namespace Subscript

/-- A slice between two places that are not counted from the end is the part between them. -/
theorem getSlice_between (s : Store) {text : String} {i j : Int64}
    (hlength : text.length ≤ 0x7FFFFFFFFFFFFFFF) (hi : 0 ≤ i.toInt) (hj : 0 ≤ j.toInt) :
    getSlice (.str text) ⟨some i, some j, none⟩ s =
      .ok (.str (Text.part text i.toInt.toNat j.toInt.toNat)) s := by
  have hmin (k : Int64) : (min k.toInt (text.length : Int)).toNat =
      min k.toInt.toNat text.toList.length := by
    rw [String.length_toList]
    omega
  have hpart : pickText text ⟨min i.toInt text.length, min j.toInt text.length, 1⟩ =
      Text.part text i.toInt.toNat j.toInt.toNat := by
    apply String.toList_inj.1
    rw [toList_pickText_of_step_one rfl (by dsimp only; omega) (by dsimp only; omega), Text.toList_part,
      hmin, hmin, ← List.take_eq_take_min, List.drop_eq_drop_iff, List.length_take]
    omega
  have hcapped : SliceBounds.cappedLength text.length = text.length := Nat.min_eq_left hlength
  rw [getSlice_text, SliceBounds.indices_eq (Option.some_ne_none 0).symm, hcapped,
    SliceBounds.ends_between hi hj, ← hpart]

end Subscript

namespace TextMethod

/-- From a place on, a text has another one in it: the slice that starts there and is as long as that one
is equal to it. -/
def StandsAt (s : Store) (text needle : String) (i : Int64) : Prop :=
  ∃ stop : Int64, stop.toInt = i.toInt + needle.length ∧
    Subscript.getSlice (.str text) ⟨some i, some stop, none⟩ s = .ok (.str needle) s

/-! ## Calls -/

section Calls

variable (limits : SizeLimits) (s : Store) (text needle : String)

/-- Where nothing is found, the place is minus one. -/
theorem call_find : Method.call limits (.str text) "find" (.ofList [.str needle]) s =
    .ok (.int ((Text.find? needle text).elim (-1) Int64.ofNat)) s := by
  have hcall : Method.call limits (.str text) "find" (.ofList [.str needle]) s =
      StoreM.look (find.run limits · text [.str needle]) s := rfl
  have hrun : find.run limits s text [.str needle] =
      .ok (.int ((Text.find? needle text).elim (-1) Int64.ofNat)) := by
    have hneedle : Arguments.strOf find.qualifiedName (.str needle) = pure needle := rfl
    simp only [run, hneedle, pure_bind]
    cases Text.find? needle text <;> rfl
  rw [hcall, StoreM.look, hrun]

theorem call_startswith : Method.call limits (.str text) "startswith" (.ofList [.str needle]) s =
    .ok (.bool (text.startsWith needle)) s := by
  have hcall : Method.call limits (.str text) "startswith" (.ofList [.str needle]) s =
      StoreM.look (fun _ => Except.map Value.bool
        (if text.startsWith needle then .ok true else .ok false)) s := rfl
  rw [hcall]
  cases text.startsWith needle <;> rfl

end Calls

section Places

variable {s : Store} {text needle : String} {place : Nat} {i : Int64}

theorem toInt_place (hplaces : (text.length : Int) + 1 < Integer.bound) (h : place ≤ text.length + 1) :
    (Int64.ofNat place).toInt = place := by
  have hbound : Integer.bound = 2 ^ 63 := rfl
  exact Int64.toInt_ofNat_of_lt (by omega)

/-- The place as a word is minus one where there is no occurrence, and nowhere else. -/
theorem place_ne_iff (hplaces : (text.length : Int) + 1 < Integer.bound) :
    (Text.find? needle text).elim (-1) Int64.ofNat ≠ -1 ↔ Text.Occurs needle text := by
  cases hfind : Text.find? needle text with
  | none => simpa using Text.find?_eq_none_iff.1 hfind
  | some place =>
    have hplace := toInt_place hplaces (Nat.le_of_lt (Text.find?_lt hfind))
    have hminus : (-1 : Int64).toInt = -1 := rfl
    rw [Option.elim_some, Ne, ← Int64.toInt_inj, hplace, hminus]
    exact ⟨fun _ => Text.occurs_of_find hfind, fun _ => by omega⟩

theorem place_eq_zero_iff (hplaces : (text.length : Int) + 1 < Integer.bound) :
    (Text.find? needle text).elim (-1) Int64.ofNat = 0 ↔ Text.find? needle text = some 0 := by
  cases hfind : Text.find? needle text with
  | none => exact ⟨fun h => absurd h (by decide), nofun⟩
  | some place =>
    have hplace := toInt_place hplaces (Nat.le_of_lt (Text.find?_lt hfind))
    rw [Option.elim_some, ← Int64.toInt_inj, hplace, Int64.toInt_zero, Option.some.injEq]
    omega

/-- What is searched for stands at the place that is found. -/
theorem standsAt_of_find (hplaces : (text.length : Int) + 1 < Integer.bound)
    (h : Text.find? needle text = some place) : StandsAt s text needle (Int64.ofNat place) := by
  have hbound : Integer.bound = 2 ^ 63 := rfl
  obtain ⟨before, after, htext, -, rfl⟩ := Text.find?_eq_some h
  have hlength : text.length = before.length + needle.length + after.length := by
    rw [htext, String.length_append, String.length_append]
  have hstart := toInt_place hplaces (show before.length ≤ text.length + 1 by omega)
  have hstop := toInt_place hplaces (show before.length + needle.length ≤ text.length + 1 by omega)
  refine ⟨Int64.ofNat (before.length + needle.length), by rw [hstart, hstop]; rfl, ?_⟩
  rw [Subscript.getSlice_between s (by omega) (by omega) (by omega), hstart, hstop, Int.toNat_natCast,
    Int.toNat_natCast, htext, Text.part_append]

/-- Where it stands, it is found, there or before. -/
theorem find_of_standsAt (hplaces : (text.length : Int) + 1 < Integer.bound) (hi : 0 ≤ i.toInt)
    (h : StandsAt s text needle i) : ∃ place, Text.find? needle text = some place ∧ place ≤ i.toInt := by
  have hbound : Integer.bound = 2 ^ 63 := rfl
  obtain ⟨stop, hstop, hslice⟩ := h
  rw [Subscript.getSlice_between s (by omega) hi (by omega)] at hslice
  have hpart : Text.part text i.toInt.toNat (i.toInt.toNat + needle.length) = needle := by
    have hplace : stop.toInt.toNat = i.toInt.toNat + needle.length := by omega
    rw [← hplace]
    injection hslice with hvalue
    injection hvalue
  obtain ⟨before, after, htext, hle⟩ := Text.exists_of_part hpart
  cases hfind : Text.find? needle text with
  | none => exact absurd ⟨_, _, htext⟩ (Text.find?_eq_none_iff.1 hfind)
  | some place =>
    -- what stands at the place is an occurrence, so the first one is not behind it
    obtain ⟨before', after', htext', hfirst, rfl⟩ := Text.find?_eq_some hfind
    have hfirst := hfirst before after (htext'.symm.trans htext)
    exact ⟨_, rfl, by omega⟩

end Places

/-- Looking for a text in another one, searching for its place, counting it and looking at the start agree on
whether it is there. The place is the first one at which it stands, counted in characters. The places of a
text, one more than its characters, are taken to be words, as they are for every text that memory can
hold. -/
theorem search_coherent (limits : SizeLimits) (s : Store) (text needle : String)
    (hplaces : (text.length : Int) + 1 < Integer.bound) :
    ∃ i n : Int64,
      Method.call limits (.str text) "find" (.ofList [.str needle]) s = .ok (.int i) s ∧
      Method.call limits (.str text) "count" (.ofList [.str needle]) s = .ok (.int n) s ∧
      Operator.compare s .in (.str needle) (.str text) = .ok (decide (i ≠ -1)) ∧
      (1 ≤ n ↔ i ≠ -1) ∧
      Method.call limits (.str text) "startswith" (.ofList [.str needle]) s =
        .ok (.bool (decide (i = 0))) s ∧
      (i ≠ -1 → 0 ≤ i ∧ StandsAt s text needle i) ∧
      ∀ j, 0 ≤ j → StandsAt s text needle j → i ≠ -1 ∧ i ≤ j := by
  -- counting and looking for a place both ask whether the text occurs
  have honce : 1 ≤ Int64.ofNat (Text.count needle text) ↔ Text.Occurs needle text := by
    rw [Int64.le_iff_toInt_le, toInt_place hplaces (Text.count_le needle text), Int64.toInt_one,
      ← Text.one_le_count_iff]
    omega
  have hin : Operator.compare s .in (.str needle) (.str text) =
      .ok (Text.contains text needle) := rfl
  refine ⟨_, _, call_find limits s text needle, rfl, ?_, ?_, ?_, fun hfound => ?_, fun j hj hstands => ?_⟩
  · rw [hin, Except.ok.injEq, Bool.eq_iff_iff, decide_eq_true_iff, place_ne_iff hplaces]
    exact Text.contains_iff_occurs
  · rw [honce, place_ne_iff hplaces]
  · have hstart : text.startsWith needle =
        decide ((Text.find? needle text).elim (-1) Int64.ofNat = 0) := by
      rw [Bool.eq_iff_iff, decide_eq_true_iff, place_eq_zero_iff hplaces]
      exact Text.startsWith_iff
    rw [call_startswith, hstart]
  · cases hfind : Text.find? needle text with
    | none => exact absurd (by rw [hfind]; rfl) hfound
    | some place =>
      refine ⟨?_, standsAt_of_find hplaces hfind⟩
      rw [Option.elim_some, Int64.le_iff_toInt_le,
        toInt_place hplaces (Nat.le_of_lt (Text.find?_lt hfind)), Int64.toInt_zero]
      omega
  · rw [Int64.le_iff_toInt_le, Int64.toInt_zero] at hj
    obtain ⟨place, hfind, hle⟩ := find_of_standsAt hplaces hj hstands
    refine ⟨(place_ne_iff hplaces).2 (Text.occurs_of_find hfind), ?_⟩
    rwa [hfind, Option.elim_some, Int64.le_iff_toInt_le,
      toInt_place hplaces (Nat.le_of_lt (Text.find?_lt hfind))]

/-- A letter of two bytes is found behind another one, and not where that one stands. -/
theorem umlaut_found : ("äöäö".length : Int) + 1 < Integer.bound ∧
    Method.call Limits.standard.size (.str "äöäö") "find" (.ofList [.str "ö"]) .empty =
      .ok (.int 1) .empty ∧
    Operator.compare .empty .in (.str "ö") (.str "äöäö") = .ok true := by
  have hplaces : ("äöäö".length : Int) + 1 < Integer.bound := by decide
  obtain ⟨i, n, hfind, -, hin, -, -, hstands, hfirst⟩ :=
    search_coherent Limits.standard.size .empty "äöäö" "ö" hplaces
  have hone : StandsAt .empty "äöäö" "ö" 1 := ⟨2, by decide, by with_unfolding_all rfl⟩
  obtain ⟨hne, hle⟩ := hfirst 1 (by decide) hone
  obtain ⟨hge, stop, hstop, hslice⟩ := hstands hne
  obtain rfl : i = 1 := by
    rw [Int64.le_iff_toInt_le, Int64.toInt_one] at hle
    rw [Int64.le_iff_toInt_le, Int64.toInt_zero] at hge
    -- it stands at one, so only zero could come before
    by_contra hother
    obtain rfl : i = 0 := Int64.toInt_inj.1 (by
      rw [← Int64.toInt_inj, Int64.toInt_one] at hother
      rw [Int64.toInt_zero]
      omega)
    obtain rfl : stop = 1 := Int64.toInt_inj.1 hstop
    have hother : Subscript.getSlice (.str "äöäö") ⟨some 0, some 1, none⟩ .empty =
        .ok (.str "ä") .empty := by with_unfolding_all rfl
    rw [hother] at hslice
    injection hslice with hvalue
    injection hvalue with htext
    exact absurd htext (by decide)
  exact ⟨hplaces, hfind, hin⟩

end TextMethod

end ScriptSandbox

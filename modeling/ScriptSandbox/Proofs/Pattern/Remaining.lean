import ScriptSandbox.Proofs.InPlace
import ScriptSandbox.Proofs.Inexact
import ScriptSandbox.Proofs.Pattern.Capture

/-!
# The rest of a matched dict

A mapping pattern looks its entries up by key, but leaves them out of the rest by equality. The two
differ where a comparison does not see that two values have one key (`Value.Missed`), and where it
takes an integer for a double that is another number (`Value.Inexact`). Apart from such entries the
rest holds what has the key of none of the values that were looked up (`rest_of_mapping`).
-/

namespace ScriptSandbox

/-! ## Dicts of some of the entries -/

namespace Dict

variable {d : Dict}

/-- Pairs that have their own keys come behind the entries of a dict. -/
theorem insertAll_append {entries : List (Key × Value × Value)}
    (hkeys : ∀ e ∈ entries, Key.ofValue e.2.1 = .ok e.1)
    (hnew : (d.table.keyList ++ entries.map Prod.fst).Nodup) :
    ∃ d', d.insertAll (entries.map Prod.snd) = .ok d' ∧
      d'.table.toList = d.table.toList ++ entries := by
  induction entries generalizing d with
  | nil => exact ⟨d, rfl, (List.append_nil _).symm⟩
  | cons e rest ih =>
    obtain ⟨k, key, value⟩ := e
    have hk : Key.ofValue key = .ok k := hkeys (k, key, value) (by simp)
    have habsent : k ∉ d.table.keyList := fun hmem =>
      (List.nodup_append.1 hnew).2.2 k hmem k (by simp) rfl
    have hlist : (d.insertByKey k key value).table.toList = d.table.toList ++ [(k, key, value)] :=
      Table.toList_upsert_of_absent habsent _ _
    have hrest : ((d.insertByKey k key value).table.keyList ++ rest.map Prod.fst).Nodup := by
      rw [Table.keyList, hlist, List.map_append, List.append_assoc]
      exact hnew
    obtain ⟨d', hd', hall⟩ := ih (fun e he => hkeys e (by simp [he])) hrest
    refine ⟨d', ?_, ?_⟩
    · rw [List.map_cons, insertAll, insert, hk]
      exact hd'
    · rw [hall, hlist, List.append_assoc]
      rfl

/-- Some of the entries of a dict make a dict of their own. -/
theorem ofPairs_filter (hd : d.Made) (keep : Value × Value → Bool) :
    ∃ d', ofPairs (d.toList.filter keep) = .ok d' ∧ d'.toList = d.toList.filter keep := by
  have hsome : ((d.table.toList.filter (keep ∘ Prod.snd)).map Prod.fst).Sublist d.table.keyList :=
    List.filter_sublist.map _
  have hfiled : ∀ e ∈ d.table.toList.filter (keep ∘ Prod.snd), Key.ofValue e.2.1 = .ok e.1 :=
    fun e he => hd.filed (List.mem_filter.1 he).1
  obtain ⟨d', hd', hall⟩ := insertAll_append (d := empty) hfiled (d.table.nodup_keyList.sublist hsome)
  have hpairs : d.toList.filter keep = (d.table.toList.filter (keep ∘ Prod.snd)).map Prod.snd :=
    List.filter_map
  refine ⟨d', hpairs ▸ hd', ?_⟩
  rw [toList, hall, hpairs]
  rfl

end Dict

/-! ## Equality and keys -/

namespace Value

/-- Whether two values have one key. -/
def sharesKey (a b : Value) : Bool :=
  match Key.ofValue a, Key.ofValue b with
  | .ok k, .ok l => k = l
  | _, _ => false

theorem sharesKey_iff {a b : Value} :
    a.sharesKey b = true ↔ ∃ k, Key.ofValue a = .ok k ∧ Key.ofValue b = .ok k := by
  unfold sharesKey
  cases Key.ofValue a <;> cases Key.ofValue b <;> simp [eq_comm]

/-- So many levels do not show that two values have one key: somewhere in them, but not in a tuple
that is the same object in both, stands a double that is not a number, or there are more levels. -/
inductive Missed : Nat → Value → Value → Prop where
  | deep {a b : Value} : Missed 0 a b
  | nan {levels : Nat} {x y : Binary64} : x.isNaN = true →
    Missed (levels + 1) (.float x) (.float y)
  | item {levels i j : Nat} {xs ys : Array Value} {p : Value × Value} : i ≠ j →
    p ∈ xs.toList.zip ys.toList → Missed levels p.1 p.2 →
    Missed (levels + 1) (.tuple i xs) (.tuple j ys)

theorem missed_tuple {levels i j : Nat} {xs ys : Array Value} :
    Missed (levels + 1) (.tuple i xs) (.tuple j ys) ↔
      i ≠ j ∧ ∃ p ∈ xs.toList.zip ys.toList, Missed levels p.1 p.2 := by
  constructor
  · intro h
    cases h with
    | item hij hp h => exact ⟨hij, _, hp, h⟩
  · rintro ⟨hij, p, hp, h⟩
    exact .item hij hp h

end Value

namespace Store

variable {s : Store} {a b : Value}

theorem plainlyEqual_iff : s.plainlyEqual a b = true ↔ s.equal a b = .ok true := by
  unfold plainlyEqual
  cases s.equal a b <;> simp [Except.toOption]

theorem equalWithin_iff_of_flat_key {levels : Nat} {k : Key} (hflat : ∀ ks, k ≠ .tuple ks)
    (ha : Key.ofValue a = .ok k) (hb : Key.ofValue b = .ok k) :
    s.equalWithin (levels + 1) a b = .ok true ↔ ¬ Value.Missed (levels + 1) a b := by
  by_cases hnan : a.NoNaN
  · refine iff_of_true (equalWithin_of_flat_key hflat hnan ha hb levels) fun hmissed => ?_
    cases hmissed with
    | nan hx => exact Bool.false_ne_true ((hnan _ .refl).symm.trans hx)
    | item =>
      obtain ⟨ks, rfl, -⟩ := Key.ofValue_tuple.1 ha
      exact hflat ks rfl
  · -- only a double has a part that is a double, but for tuples
    obtain ⟨x, hx, hxnan⟩ : ∃ x, Value.Part (.float x) a ∧ x.isNaN = true := by
      simpa [Value.NoNaN] using hnan
    cases hx with
    | item =>
      obtain ⟨ks, rfl, -⟩ := Key.ofValue_tuple.1 ha
      exact absurd rfl (hflat ks)
    | refl =>
      have hfloat : Key.ofFloat x = .float x := by
        rcases Key.ofFloat_cases x with ⟨n, hn⟩ | h
        · have hint := Key.ofFloat_eq_int_iff.1 hn
          rw [(Binary64.equal_iff.1 (hint.equal hint)).1] at hxnan
          cases hxnan
        · exact h
      obtain rfl : Key.float x = k := Except.ok.inj ((congrArg _ hfloat.symm).trans ha)
      obtain rfl : b = .float x := Key.ofValue_eq_ok hb
      refine iff_of_false (fun h => ?_) fun h => h (.nan hxnan)
      rw [equalWithin_number rfl rfl] at h
      exact Bool.false_ne_true ((Binary64.equal_iff.1 (Except.ok.inj h)).1.symm.trans hxnan)

/-- Values that have one key are found equal unless this is missed. -/
theorem equalWithin_iff_of_key {levels : Nat} {k : Key} (ha : Key.ofValue a = .ok k)
    (hb : Key.ofValue b = .ok k) :
    s.equalWithin levels a b = .ok true ↔ ¬ Value.Missed levels a b := by
  induction levels generalizing a b k with
  | zero => exact iff_of_false nofun fun h => h .deep
  | succ levels ih =>
    -- only tuples are compared by items, one level further down
    by_cases hflat : ∀ ks, k ≠ .tuple ks
    · exact equalWithin_iff_of_flat_key hflat ha hb
    · simp only [not_forall, Classical.not_not] at hflat
      obtain ⟨ks, rfl⟩ := hflat
      obtain ⟨i, xs, rfl, hxs⟩ := Key.ofValue_eq_ok ha
      obtain ⟨j, ys, rfl, hys⟩ := Key.ofValue_eq_ok hb
      obtain ⟨hlength, hkeys⟩ := zip_of_keys hxs hys
      show (if i = j then _ else sequencesEqual _ xs ys) = _ ↔ _
      rw [Value.missed_tuple, not_and, not_exists]
      split
      · rename_i hij
        exact iff_of_true rfl fun hne => absurd hij hne
      · rename_i hij
        rw [sequencesEqual_eq_true_iff]
        have hitems : ∀ p ∈ xs.toList.zip ys.toList,
            s.equalWithin levels p.1 p.2 = .ok true ↔ ¬ Value.Missed levels p.1 p.2 := by
          intro p hp
          obtain ⟨k, hk, hl⟩ := hkeys p hp
          exact ih hk hl
        constructor
        · rintro ⟨-, h⟩ - p ⟨hp, hmissed⟩
          exact (hitems p hp).1 (h p hp) hmissed
        · exact fun h => ⟨by simpa using hlength, fun p hp => (hitems p hp).2 fun hmissed =>
            h hij p ⟨hp, hmissed⟩⟩

theorem plainlyEqual_iff_of_sharesKey (h : a.sharesKey b = true) :
    s.plainlyEqual a b = true ↔ ¬ Value.Missed (maxCompareDepth + 1) a b := by
  obtain ⟨k, ha, hb⟩ := Value.sharesKey_iff.1 h
  exact plainlyEqual_iff.trans (equalWithin_iff_of_key ha hb)

theorem sharesKey_iff_of_plainlyEqual {k l : Key} (ha : Key.ofValue a = .ok k)
    (hb : Key.ofValue b = .ok l) (hcoherent : a.Coherent b) (h : s.plainlyEqual a b = true) :
    a.sharesKey b = true ↔ ¬ a.Inexact b := by
  rw [← key_eq_iff hcoherent ha hb (plainlyEqual_iff.1 h), Value.sharesKey, ha, hb, decide_eq_true_iff]

end Store

/-! ## Entries that match -/

namespace Eval

variable {v : Visit} {r : DictRef} {patterns : List Pattern} {keys : List Expr}
  {values : List Value} {captures captures' : Captures} {s s' : RunState}

theorem bind_eq_ok_iff {α β : Type} {m : Eval α} {f : α → Eval β} {b : β} :
    (m >>= f) s = .ok b s' ↔ ∃ a s₁, m s = .ok a s₁ ∧ f a s₁ = .ok b s' := by
  rw [bind_apply]
  cases m s <;> simp

theorem look_apply {α : Type} (f : Store → Except Error α) (s : RunState) :
    look f s = match f s.store with
      | .ok a => .ok a s
      | .error e => .error e s := by
  rw [look_eq, bind_apply, get_apply]
  dsimp only
  cases f s.store <;> rfl

theorem look_eq_ok_iff {α : Type} {f : Store → Except Error α} {a : α} :
    look f s = .ok a s' ↔ f s.store = .ok a ∧ s' = s := by
  rw [look_apply]
  cases f s.store <;> simp [eq_comm]

theorem ofExcept_eq_ok_iff {α : Type} {x : Except Error α} {a : α} :
    (liftM x : Eval α) s = .ok a s' ↔ x = .ok a ∧ s' = s := by
  cases x with
  | error e => exact ⟨nofun, fun h => nomatch h.1⟩
  | ok b =>
    show EStateM.Result.ok b s = .ok a s' ↔ _
    simp [eq_comm]

theorem some_map_apply {α : Type} (m : Eval α) (s : RunState) :
    (some <$> m) s = match m s with
      | .ok a s' => .ok (some a) s'
      | .error e s' => .error e s' := by
  show EStateM.map some m s = _
  unfold EStateM.map
  cases m s <;> rfl

theorem some_map_eq_ok_iff {α : Type} {m : Eval α} {a : α} :
    (some <$> m) s = .ok (some a) s' ↔ m s = .ok a s' := by
  rw [some_map_apply]
  cases m s <;> simp

/-- Keys are evaluated, and patterns match the values under them in a dict, one after another; the
values of the keys are listed. -/
inductive Keyed (v : Visit) (r : DictRef) : List Pattern → List Expr → RunState → Captures →
    List Value → RunState → Captures → Prop where
  | done {patterns : List Pattern} {keys : List Expr} {s : RunState} {captures : Captures} :
    patterns = [] ∨ keys = [] → Keyed v r patterns keys s captures [] s captures
  | entry {pattern : Pattern} {patterns : List Pattern} {key : Expr} {keys : List Expr}
    {s s₁ s₂ s' : RunState} {captures captures₁ captures' : Captures} {value item : Value}
    {values : List Value} : v.expr key s = .ok value s₁ →
    (s₁.store.dict r).get? value = .ok (some item) →
    matchPattern v pattern item captures s₁ = .ok (some captures₁) s₂ →
    Keyed v r patterns keys s₂ captures₁ values s' captures' →
    Keyed v r (pattern :: patterns) (key :: keys) s captures (value :: values) s' captures'

theorem Keyed.hashable (h : Keyed v r patterns keys s captures values s' captures') :
    ∀ value ∈ values, ∃ k, Key.ofValue value = .ok k := by
  induction h with
  | done => exact nofun
  | entry _ hget _ _ ih =>
    obtain ⟨k, hk, -⟩ := map_eq_ok_iff.1 hget
    exact List.forall_mem_cons.2 ⟨⟨k, hk⟩, ih⟩

theorem matchEntries_cons_eq_ok_iff {pattern : Pattern} {key : Expr} {matched : List Value}
    {result : List Value × Captures} :
    matchEntries v r (pattern :: patterns) (key :: keys) matched captures s = .ok (some result) s' ↔
      ∃ value item s₁ captures₁ s₂, v.expr key s = .ok value s₁ ∧
        (s₁.store.dict r).get? value = .ok (some item) ∧
        matchPattern v pattern item captures s₁ = .ok (some captures₁) s₂ ∧
        matchEntries v r patterns keys (matched ++ [value]) captures₁ s₂ = .ok (some result) s' := by
  rw [matchEntries]
  simp only [bind_eq_ok_iff, look_eq_ok_iff]
  constructor
  · rintro ⟨value, s₁, hvalue, found, _, ⟨hfound, rfl⟩, h⟩
    cases found with
    | none => cases h
    | some item =>
      obtain ⟨answer, s₂, hanswer, h⟩ := bind_eq_ok_iff.1 h
      cases answer with
      | none => cases h
      | some captures₁ => exact ⟨value, item, _, captures₁, s₂, hvalue, hfound, hanswer, h⟩
  · rintro ⟨value, item, s₁, captures₁, s₂, hvalue, hfound, hanswer, h⟩
    exact ⟨value, s₁, hvalue, some item, s₁, ⟨hfound, rfl⟩,
      bind_eq_ok_iff.2 ⟨some captures₁, s₂, hanswer, h⟩⟩

theorem matchEntries_end {matched : List Value} (h : patterns = [] ∨ keys = []) :
    matchEntries v r patterns keys matched captures s = .ok (some (matched, captures)) s := by
  rw [matchEntries]
  · rfl
  · rintro pattern patterns key keys rfl rfl
    simp at h

theorem matchEntries_eq_ok_iff {matched all : List Value} :
    matchEntries v r patterns keys matched captures s = .ok (some (all, captures')) s' ↔
      ∃ values, all = matched ++ values ∧ Keyed v r patterns keys s captures values s' captures' := by
  -- on the entries of the pattern, with the values matched so far
  induction patterns generalizing keys matched captures s with
  | nil =>
    rw [matchEntries_end (.inl rfl)]
    constructor
    · rintro ⟨⟩
      exact ⟨[], (List.append_nil _).symm, .done (.inl rfl)⟩
    · rintro ⟨values, rfl, ⟨⟩⟩
      rw [List.append_nil]
  | cons pattern patterns ih =>
    cases keys with
    | nil =>
      rw [matchEntries_end (.inr rfl)]
      constructor
      · rintro ⟨⟩
        exact ⟨[], (List.append_nil _).symm, .done (.inr rfl)⟩
      · rintro ⟨values, rfl, ⟨⟩⟩
        rw [List.append_nil]
    | cons key keys =>
      simp only [matchEntries_cons_eq_ok_iff, ih]
      constructor
      · rintro ⟨value, item, s₁, captures₁, s₂, hvalue, hfound, hanswer, values, rfl, h⟩
        exact ⟨value :: values, List.append_assoc matched [value] values,
          .entry hvalue hfound hanswer h⟩
      · rintro ⟨values, rfl, h⟩
        cases h with
        | done h => simp at h
        | entry hvalue hfound hanswer h =>
          exact ⟨_, _, _, _, _, hvalue, hfound, hanswer, _, by simp, h⟩

/-- The rest is a new dict, of the entries whose keys equal none of the matched ones. -/
theorem remaining_apply (hd : (s.store.dict r).Made) (matched : List Value) :
    ∃ rest : Dict,
      remaining r matched s = .ok (.dict (s.store.addDict rest).1)
        { s with store := (s.store.addDict rest).2 } ∧
      rest.toList = (s.store.dict r).toList.filter fun (key, _) =>
        !matched.any fun other => s.store.plainlyEqual other key := by
  obtain ⟨rest, hrest, hlist⟩ := Dict.ofPairs_filter hd fun (key, _) =>
    !matched.any fun other => s.store.plainlyEqual other key
  refine ⟨rest, ?_, hlist⟩
  unfold remaining
  rw [bind_eq_ok_iff]
  exact ⟨rest, s, look_eq_ok_iff.2 ⟨hrest, rfl⟩, rfl⟩

theorem captureRemaining_eq_ok_iff {matched : List Value} {rest : String} :
    captureRemaining r matched (some rest) captures s = .ok captures' s' ↔
      ∃ value, remaining r matched s = .ok value s' ∧ rest ∉ captures.map Prod.fst ∧
        captures' = captures ++ [(rest, value)] := by
  unfold captureRemaining
  simp only [bind_eq_ok_iff, ofExcept_eq_ok_iff, capture_eq_ok_iff]
  exact ⟨fun ⟨value, _, hvalue, hcapture, hs⟩ => ⟨value, hs ▸ hvalue, hcapture⟩,
    fun ⟨value, hvalue, hcapture⟩ => ⟨value, s', hvalue, hcapture, rfl⟩⟩

/-- A mapping with a name for the rest matches a dict if its patterns do and the name is free. -/
theorem matchMapping_eq_ok_iff {rest : String} :
    matchPattern v (.mapping keys patterns (some rest)) (.dict r) captures s =
        .ok (some captures') s' ↔
      ∃ values s₁ captures₁ value, Keyed v r patterns keys s captures values s₁ captures₁ ∧
        remaining r values s₁ = .ok value s' ∧ rest ∉ captures₁.map Prod.fst ∧
        captures' = captures₁ ++ [(rest, value)] := by
  rw [matchPattern, bind_eq_ok_iff]
  constructor
  · rintro ⟨answer, s₁, hanswer, h⟩
    cases answer with
    | none => cases h
    | some result =>
      obtain ⟨values, captures₁⟩ := result
      obtain ⟨_, rfl, hkeyed⟩ := matchEntries_eq_ok_iff.1 hanswer
      obtain ⟨value, h⟩ := captureRemaining_eq_ok_iff.1 (some_map_eq_ok_iff.1 h)
      exact ⟨_, s₁, captures₁, value, hkeyed, h⟩
  · rintro ⟨values, s₁, captures₁, value, hkeyed, h⟩
    exact ⟨some (values, captures₁), s₁, matchEntries_eq_ok_iff.2 ⟨values, rfl, hkeyed⟩,
      some_map_eq_ok_iff.2 (captureRemaining_eq_ok_iff.2 ⟨value, h⟩)⟩

end Eval

/-! ## The rest -/

open Eval

/-- The entries of a dict whose keys equal none of the values. -/
def Dict.unequal (d : Dict) (s : Store) (values : List Value) : List (Value × Value) :=
  d.toList.filter fun (key, _) => !values.any fun other => s.plainlyEqual other key

/-- The entries of a dict that have the key of none of the values. -/
def Dict.unshared (d : Dict) (values : List Value) : List (Value × Value) :=
  d.toList.filter fun (key, _) => !values.any fun other => other.sharesKey key

/-- A key is left over although one of the values has it, or left out although none has. -/
inductive Store.Misplaced (s : Store) (values : List Value) (key : Value) : Prop where
  | kept : (∃ value ∈ values, value.sharesKey key = true) →
    (¬ ∃ value ∈ values, s.plainlyEqual value key = true) → Misplaced s values key
  | dropped : (∃ value ∈ values, s.plainlyEqual value key = true) →
    (¬ ∃ value ∈ values, value.sharesKey key = true) → Misplaced s values key

theorem Store.not_misplaced_iff {s : Store} {values : List Value} {key : Value} :
    ¬ s.Misplaced values key ↔ ((∃ value ∈ values, s.plainlyEqual value key = true) ↔
      ∃ value ∈ values, value.sharesKey key = true) := by
  constructor
  · intro h
    constructor
    · exact fun hequal => Classical.byContradiction fun hnone => h (.dropped hequal hnone)
    · exact fun hshares => Classical.byContradiction fun hnone => h (.kept hshares hnone)
  · intro hiff h
    cases h with
    | kept hshares hnone => exact hnone (hiff.2 hshares)
    | dropped hequal hnone => exact hnone (hiff.1 hequal)

theorem Dict.unequal_eq_unshared_iff {d : Dict} {s : Store} {values : List Value} :
    d.unequal s values = d.unshared values ↔ ∀ e ∈ d.toList, ¬ s.Misplaced values e.1 := by
  have hany : ∀ test : Value → Bool,
      (!values.any test) = true ↔ ¬ ∃ value ∈ values, test value = true := by simp
  simp only [Store.not_misplaced_iff]
  constructor
  · intro h e he
    have hmem : e ∈ d.unequal s values ↔ e ∈ d.unshared values := by rw [h]
    rw [unequal, unshared, List.mem_filter, List.mem_filter, hany, hany, and_congr_right_iff] at hmem
    exact not_iff_not.1 (hmem he)
  · intro h
    refine List.filter_congr fun e he => ?_
    rw [Bool.eq_iff_iff, hany, hany]
    exact not_congr (h e he)

/-- What a mapping leaves of a dict that it matches: a new dict of the entries whose keys equal none
of the keys that were looked up, which are as they were and in their order, and this dict is what its
name is bound to. They are the entries that have the key of none of the values, but for misplaced
ones: where two values have one key, equality has to miss it, and where they are equal without it, an
integer was rounded. -/
theorem rest_of_mapping (v : Visit) (r : DictRef) (patterns : List Pattern) (keys : List Expr)
    (rest : String) (captures : Captures) (s : RunState) :
    (∀ captures' s',
      matchPattern v (.mapping keys patterns (some rest)) (.dict r) captures s =
        .ok (some captures') s' →
      ∃ values s₁ captures₁, Keyed v r patterns keys s captures values s₁ captures₁ ∧
        rest ∉ captures₁.map Prod.fst) ∧
    ∀ values s₁ captures₁, Keyed v r patterns keys s captures values s₁ captures₁ →
      rest ∉ captures₁.map Prod.fst → (s₁.store.dict r).Made →
      ∃ d store,
        matchPattern v (.mapping keys patterns (some rest)) (.dict r) captures s =
          .ok (some (captures₁ ++ [(rest, .dict d)])) { s₁ with store } ∧
        s₁.store.Grown store ∧ s₁.store.dicts.size ≤ d.index ∧
        (store.dict d).toList = (s₁.store.dict r).unequal s₁.store values ∧
        ((store.dict d).toList = (s₁.store.dict r).unshared values ↔
          ∀ e ∈ (s₁.store.dict r).toList, ¬ s₁.store.Misplaced values e.1) ∧
        (∀ value ∈ values, ∀ e ∈ (s₁.store.dict r).toList,
          (value.sharesKey e.1 = true → (s₁.store.plainlyEqual value e.1 = true ↔
            ¬ Value.Missed (maxCompareDepth + 1) value e.1)) ∧
          (value.Coherent e.1 → s₁.store.plainlyEqual value e.1 = true →
            (value.sharesKey e.1 = true ↔ ¬ value.Inexact e.1))) ∧
        (s₁.Anchored →
          ((RunState.bindAll { s₁ with store } (captures₁ ++ [(rest, .dict d)])).scopes.scope
            s₁.scopes.current).lookup rest = some (.dict d)) := by
  refine ⟨fun captures' s' h => ?_, fun values s₁ captures₁ hkeyed hfree hmade => ?_⟩
  · obtain ⟨values, s₁, captures₁, value, hkeyed, -, hfree, -⟩ := matchMapping_eq_ok_iff.1 h
    exact ⟨values, s₁, captures₁, hkeyed, hfree⟩
  · obtain ⟨left, hleft, hlist⟩ := remaining_apply hmade values
    have hcontent : ((s₁.store.addDict left).2.dict (s₁.store.addDict left).1).toList =
        (s₁.store.dict r).unequal s₁.store values := by
      rw [Store.dict_addDict, hlist, Dict.unequal]
    refine ⟨(s₁.store.addDict left).1, (s₁.store.addDict left).2, ?_, .addDict .., Nat.le_refl _,
      hcontent, ?_, fun value hvalue e he => ?_, fun hanchored => ?_⟩
    · exact matchMapping_eq_ok_iff.2 ⟨values, s₁, captures₁, _, hkeyed, hleft, hfree, rfl⟩
    · rw [hcontent, Dict.unequal_eq_unshared_iff]
    · obtain ⟨k, hk⟩ := hkeyed.hashable value hvalue
      obtain ⟨l, hmem⟩ := Dict.mem_toList.1 he
      have hl := hmade.filed hmem
      exact ⟨Store.plainlyEqual_iff_of_sharesKey, Store.sharesKey_iff_of_plainlyEqual hk hl⟩
    · have hlookup := RunState.lookup_bindAll (s := { s₁ with store := (s₁.store.addDict left).2 })
        (captures₁ ++ [(rest, .dict (s₁.store.addDict left).1)]) hanchored rest
      rw [hlookup, List.reverse_append]
      simp

/-- The dict `{9007199254740993: "a", 9007199254740992.0: "b", 1: "c"}`. -/
def roundedKeys : Dict :=
  ((Dict.empty.insertByKey (.int 9007199254740993) (.int 9007199254740993) (.str "a")).insertByKey
    (.int 9007199254740992) (.float ⟨0x4340000000000000⟩) (.str "b")).insertByKey
    (.int 1) (.int 1) (.str "c")

theorem ofValue_power : Key.ofValue (.float ⟨0x4340000000000000⟩) = .ok (.int 9007199254740992) :=
  congrArg Except.ok (Key.ofFloat_eq_int_iff.2 ⟨rfl, rfl⟩)

theorem roundedKeys_made : roundedKeys.Made :=
  .insert _ (.insert _ (.insert _ .empty rfl) ofValue_power) rfl

theorem table_roundedKeys : roundedKeys.table.toList =
    [(.int 9007199254740993, .int 9007199254740993, .str "a"),
      (.int 9007199254740992, .float ⟨0x4340000000000000⟩, .str "b"), (.int 1, .int 1, .str "c")] := by
  have hkeys : ∀ e ∈ [(Key.int 9007199254740993, Value.int 9007199254740993, Value.str "a"),
      (.int 9007199254740992, .float ⟨0x4340000000000000⟩, .str "b"), (.int 1, .int 1, .str "c")],
      Key.ofValue e.2.1 = .ok e.1 := by
    simp only [List.forall_mem_cons]
    exact ⟨rfl, ofValue_power, rfl, nofun⟩
  obtain ⟨d, hd, hlist⟩ := Dict.insertAll_append (d := .empty) hkeys (by decide)
  obtain rfl : roundedKeys = d := by
    simp only [List.map_cons, List.map_nil, Dict.insertAll, Dict.insert, ofValue_power] at hd
    exact Except.ok.inj hd
  exact hlist

/-- The pattern `{9007199254740993: _, **rest}` takes the entry of the double for the one it looks up,
but leaves the entry of one. -/
theorem roundedKeys_rest :
    let s : RunState := .start { Store.empty with dicts := #[roundedKeys] }
    ∃ d store, matchPattern (visit unaided)
        (.mapping [Syntax.Build.int 9007199254740993] [Syntax.Build.wildcardPattern] (some "rest"))
        (.dict ⟨0⟩) [] s = .ok (some [("rest", .dict d)]) { s.stepped with store } ∧
      (store.dict d).toList = [(.int 1, .str "c")] ∧
      roundedKeys.unshared [.int 9007199254740993] =
        [(.float ⟨0x4340000000000000⟩, .str "b"), (.int 1, .str "c")] ∧
      s.store.Misplaced [.int 9007199254740993] (.float ⟨0x4340000000000000⟩) := by
  intro s
  have hentries : roundedKeys.toList = [(.int 9007199254740993, .str "a"),
      (.float ⟨0x4340000000000000⟩, .str "b"), (.int 1, .str "c")] := by
    rw [Dict.toList, table_roundedKeys]
    rfl
  have hpower : (Value.int 9007199254740993).sharesKey (.float ⟨0x4340000000000000⟩) = false := by
    rw [Value.sharesKey, ofValue_power]
    rfl
  have hkey : (visit unaided).expr (Syntax.Build.int 9007199254740993) s =
      .ok (.int 9007199254740993) s.stepped := by
    with_unfolding_all rfl
  have hfirst : roundedKeys.getByKey? (.int 9007199254740993) = some (.str "a") :=
    Dict.getByKey?_of_mem (by rw [table_roundedKeys]; exact List.mem_cons_self)
  have hfound : (s.stepped.store.dict ⟨0⟩).get? (.int 9007199254740993) = .ok (some (.str "a")) :=
    congrArg Except.ok hfirst
  have hkeyed : Keyed (visit unaided) ⟨0⟩ [Syntax.Build.wildcardPattern]
      [Syntax.Build.int 9007199254740993] s [] [.int 9007199254740993] s.stepped [] :=
    .entry hkey hfound rfl (.done (.inl rfl))
  obtain ⟨-, hrest⟩ := rest_of_mapping (visit unaided) ⟨0⟩ [Syntax.Build.wildcardPattern]
    [Syntax.Build.int 9007199254740993] "rest" [] s
  obtain ⟨d, store, hmatch, -, -, hleft, -⟩ := hrest _ _ _ hkeyed List.not_mem_nil roundedKeys_made
  refine ⟨d, store, hmatch, ?_, ?_, .dropped ⟨_, List.mem_singleton_self _, rfl⟩ ?_⟩
  · rw [hleft]
    show roundedKeys.toList.filter _ = _
    rw [hentries]
    rfl
  · rw [Dict.unshared, hentries]
    simp only [List.filter_cons, List.any_cons, hpower]
    rfl
  · rintro ⟨value, hvalue, hshares⟩
    rw [List.mem_singleton.1 hvalue, hpower] at hshares
    cases hshares

end ScriptSandbox

import Mathlib.Data.List.Zip
import ScriptSandbox.Proofs.Entries

/-!
# Equality from both sides

Values are equal from the left exactly if they are equal from the right. Values that are not equal
are different or nest too deeply to be compared, and which of the two comes first may hang on the
order of the operands: dicts are compared in the order of the left one's keys, and the first
difference ends the comparison. Nothing else tells the operands apart (`equal_both_ways`): where all
dicts that are met in pairs have their keys in one order, the outcome is the same from both sides.
-/

namespace ScriptSandbox

/-! ## Values without items -/

theorem Binary64.order_swap (x y : Binary64) : y.order x = (x.order y).map Ordering.swap := by
  unfold Binary64.order
  rw [Bool.or_comm]
  split
  · rfl
  · rw [Option.map_some, Int.compare_swap]

theorem Binary64.equal_comm (x y : Binary64) : x.equal y = y.equal x := by
  unfold Binary64.equal
  rw [Binary64.order_swap x y]
  rcases x.order y with _ | (_ | _ | _) <;> rfl

theorem Number.equal_comm (x y : Number) : x.equal y = y.equal x := by
  cases x <;> cases y <;> simp only [Number.equal, Binary64.equal_comm, Bool.beq_comm]

theorem Range.sameElements_comm (r r' : Range) : r.sameElements r' = r'.sameElements r := by
  have swapped : ∀ {r r' : Range}, r.sameElements r' = true → r'.sameElements r = true := by
    intro r r' h
    simp only [sameElements, Bool.and_eq_true, Bool.or_eq_true, beq_iff_eq] at h ⊢
    obtain ⟨hlength, h⟩ := h
    rw [← hlength]
    exact ⟨rfl, h.imp_right fun h => ⟨h.1.symm, h.2.imp_right Eq.symm⟩⟩
  exact Bool.eq_iff_iff.2 ⟨swapped, swapped⟩

theorem Value.same_comm (a b : Value) : a.same b = b.same a := by
  cases a <;> cases b <;> simp only [Value.same, Bool.beq_comm, Range.sameElements_comm]

/-- Sets are equal if one of them has all keys of the other and is no larger. -/
theorem KeySet.equal_iff {s t : KeySet} :
    s.equal t = true ↔ s.size = t.size ∧ s.table.keyList ⊆ t.table.keyList := by
  simp only [equal, isSubset, size, Bool.and_eq_true, beq_iff_eq, Table.allKeys_iff,
    Table.contains_iff]
  exact ⟨fun h => ⟨h.1, h.2.2⟩, fun h => ⟨h.1, decide_eq_true (Nat.le_of_eq h.1), h.2⟩⟩

theorem KeySet.equal_comm (s t : KeySet) : s.equal t = t.equal s := by
  have swapped : ∀ {s t : KeySet}, s.equal t = true → t.equal s = true := by
    intro s t h
    rw [equal_iff] at h ⊢
    exact ⟨h.1.symm, Table.keyList_subset h.2 (Nat.le_of_eq h.1.symm)⟩
  exact Bool.eq_iff_iff.2 ⟨swapped, swapped⟩

/-! ## Sequences and dicts -/

section Items

variable {equal : Value → Value → Except Error Bool} {xs ys : Array Value} {d other : Dict}

theorem sequencesEqual_eq_true_iff : sequencesEqual equal xs ys = .ok true ↔
    xs.size = ys.size ∧ ∀ p ∈ xs.toList.zip ys.toList, equal p.1 p.2 = .ok true := by
  rw [sequencesEqual_eq]
  split
  · rename_i hsize
    rw [allM_eq_true_iff]
    exact ⟨fun h => ⟨hsize, h⟩, fun h => h.2⟩
  · rename_i hsize
    exact ⟨nofun, fun h => absurd h.1 hsize⟩

/-- Sequences are compared like their items. -/
theorem sequencesEqual_swap
    (h : ∀ p ∈ xs.toList.zip ys.toList, equal p.1 p.2 = equal p.2 p.1) :
    sequencesEqual equal xs ys = sequencesEqual equal ys xs := by
  rw [sequencesEqual_eq, sequencesEqual_eq, allM_congr h, ← List.zip_swap xs.toList, allM_map]
  by_cases hsize : xs.size = ys.size
  · rw [if_pos hsize, if_pos hsize.symm]
    rfl
  · rw [if_neg hsize, if_neg (Ne.symm hsize)]

theorem sequencesEqual_true_swap
    (hequal : ∀ x y, equal x y = .ok true → equal y x = .ok true)
    (h : sequencesEqual equal xs ys = .ok true) : sequencesEqual equal ys xs = .ok true := by
  obtain ⟨hsize, hall⟩ := sequencesEqual_eq_true_iff.1 h
  refine sequencesEqual_eq_true_iff.2 ⟨hsize.symm, fun p hp => hequal _ _ (hall p.swap ?_)⟩
  rw [← List.zip_swap]
  exact List.mem_map_of_mem hp

theorem sequencesEqual_error {e : Error} (h : sequencesEqual equal xs ys = .error e) :
    ∃ x ∈ xs, ∃ y ∈ ys, equal x y = .error e := by
  rw [sequencesEqual_eq] at h
  split at h
  · obtain ⟨p, hp, herror⟩ := mem_of_allM_eq_error h
    obtain ⟨hx, hy⟩ := List.of_mem_zip hp
    exact ⟨p.1, Array.mem_toList_iff.1 hx, p.2, Array.mem_toList_iff.1 hy, herror⟩
  · cases h

theorem Dict.getByKey?_of_mem {k : Key} {key value : Value}
    (h : (k, key, value) ∈ d.table.toList) : d.getByKey? k = some value := by
  rw [getByKey?, Table.get?_eq_some_iff.2 h]
  rfl

/-- Whether two dicts have equal values under a key. -/
def Dict.agreeAt (equal : Value → Value → Except Error Bool) (d other : Dict) (k : Key) :
    Except Error Bool :=
  match d.getByKey? k, other.getByKey? k with
  | some mine, some theirs => equal mine theirs
  | _, _ => .ok false

/-- Dicts of one size are compared key by key, in the order of the left one's keys. -/
theorem Dict.equalBy_eq : d.equalBy equal other =
    if d.size = other.size then d.table.keyList.allM (d.agreeAt equal other) else .ok false := by
  unfold equalBy
  congr 1
  rw [Table.allPass_eq, Table.keyList, allM_map]
  refine allM_congr fun entry hentry => ?_
  have hmine : d.getByKey? entry.1 = some entry.2.2 := getByKey?_of_mem hentry
  simp only [agreeAt, hmine]
  cases other.getByKey? entry.1 <;> rfl

theorem Dict.equalBy_eq_true_iff : d.equalBy equal other = .ok true ↔
    d.size = other.size ∧ ∀ k ∈ d.table.keyList, d.agreeAt equal other k = .ok true := by
  rw [equalBy_eq]
  split
  · rename_i hsize
    rw [allM_eq_true_iff]
    exact ⟨fun h => ⟨hsize, h⟩, fun h => h.2⟩
  · rename_i hsize
    exact ⟨nofun, fun h => absurd h.1 hsize⟩

theorem Dict.agreeAt_eq_true_iff {k : Key} : d.agreeAt equal other k = .ok true ↔
    ∃ mine theirs, d.getByKey? k = some mine ∧ other.getByKey? k = some theirs ∧
      equal mine theirs = .ok true := by
  unfold agreeAt
  cases d.getByKey? k <;> cases other.getByKey? k <;> simp

theorem Dict.mem_keyList {k : Key} :
    k ∈ d.table.keyList ↔ ∃ value, d.getByKey? k = some value := by
  simp only [Table.mem_keyList, getByKey?, Option.map_eq_some_iff]
  exact ⟨fun ⟨entry, h⟩ => ⟨_, entry, h, rfl⟩, fun ⟨_, entry, h, _⟩ => ⟨entry, h⟩⟩

theorem Dict.equalBy_error {e : Error} (h : d.equalBy equal other = .error e) :
    ∃ k x y, d.getByKey? k = some x ∧ other.getByKey? k = some y ∧ equal x y = .error e := by
  rw [equalBy_eq] at h
  split at h
  · obtain ⟨k, -, hk⟩ := mem_of_allM_eq_error h
    unfold agreeAt at hk
    split at hk
    · exact ⟨k, _, _, ‹_›, ‹_›, hk⟩
    · cases hk
  · cases h

/-- Equal dicts have the same keys, so each may be walked. -/
theorem Dict.equalBy_true_swap
    (hequal : ∀ x y, equal x y = .ok true → equal y x = .ok true)
    (h : d.equalBy equal other = .ok true) : other.equalBy equal d = .ok true := by
  obtain ⟨hsize, hall⟩ := equalBy_eq_true_iff.1 h
  have hkeys : d.table.keyList ⊆ other.table.keyList := by
    intro k hk
    obtain ⟨_, theirs, -, htheirs, -⟩ := agreeAt_eq_true_iff.1 (hall k hk)
    exact mem_keyList.2 ⟨theirs, htheirs⟩
  refine equalBy_eq_true_iff.2 ⟨hsize.symm, fun k hk => ?_⟩
  have hback := Table.keyList_subset hkeys (Nat.le_of_eq hsize.symm) hk
  obtain ⟨mine, theirs, hmine, htheirs, heq⟩ := agreeAt_eq_true_iff.1 (hall k hback)
  exact agreeAt_eq_true_iff.2 ⟨theirs, mine, htheirs, hmine, hequal _ _ heq⟩

/-- Dicts whose keys stand in one order are compared like their values. -/
theorem Dict.equalBy_swap
    (horder : d.size = other.size → d.table.keyList = other.table.keyList)
    (h : ∀ k mine theirs, d.getByKey? k = some mine → other.getByKey? k = some theirs →
      equal mine theirs = equal theirs mine) : d.equalBy equal other = other.equalBy equal d := by
  rw [equalBy_eq, equalBy_eq]
  by_cases hsize : d.size = other.size
  · rw [if_pos hsize, if_pos hsize.symm, ← horder hsize]
    refine allM_congr fun k _ => ?_
    unfold agreeAt
    cases hmine : d.getByKey? k <;> cases htheirs : other.getByKey? k <;> try rfl
    exact h k _ _ hmine htheirs
  · rw [if_neg hsize, if_neg (Ne.symm hsize)]

end Items

/-! ## All values -/

/-- What is the same is equal without a look at what it holds. -/
theorem same_or_error {c : Prop} [Decidable c] {x : Except Error Bool} {e : Error}
    (h : (if c then .ok true else x) = .error e) : x = .error e := by
  split at h
  · cases h
  · exact h

theorem same_or_true_swap {c c' : Prop} [Decidable c] [Decidable c'] {x y : Except Error Bool}
    (hc : c ↔ c') (hxy : x = .ok true → y = .ok true) (h : (if c then .ok true else x) = .ok true) :
    (if c' then .ok true else y) = (.ok true : Except Error Bool) := by
  split at h
  · rw [if_pos (hc.1 ‹c›)]
  · rw [if_neg fun h' => ‹¬c› (hc.2 h'), hxy h]

namespace Store

variable (s : Store)

/-- Two lists, tuples or dicts are compared by what they hold. Other values are different or equal
whatever the depth, and from both sides. -/
theorem equalWithin_cases (a b : Value) :
    (∃ r r', a = .list r ∧ b = .list r') ∨
    (∃ i xs j ys, a = .tuple i xs ∧ b = .tuple j ys) ∨
    (∃ r r', a = .dict r ∧ b = .dict r') ∨
    ∃ truth, ∀ levels, s.equalWithin (levels + 1) a b = .ok truth ∧
      s.equalWithin (levels + 1) b a = .ok truth := by
  cases a <;> cases b
  all_goals first
    | exact .inl ⟨_, _, rfl, rfl⟩
    | exact .inr (.inl ⟨_, _, _, _, rfl, rfl⟩)
    | exact .inr (.inr (.inl ⟨_, _, rfl, rfl⟩))
    | exact .inr (.inr (.inr ⟨_, fun _ => ⟨rfl, rfl⟩⟩))
    | refine .inr (.inr (.inr ⟨_, fun _ => ⟨rfl, ?_⟩⟩))
      simp only [equalWithin, Value.toNumber?, Value.toInt?, Option.map_some, Bool.beq_comm,
        Number.equal_comm, Range.sameElements_comm, KeySet.equal_comm, Value.same_comm]

variable {s} {a b : Value}

/-- Values that cannot be compared nest too deeply. -/
theorem equalWithin_error {levels : Nat} {a b : Value} {e : Error}
    (h : s.equalWithin levels a b = .error e) : e = .comparisonTooDeep := by
  induction levels generalizing a b with
  | zero => exact (Except.error.inj h).symm
  | succ levels ih =>
    rcases s.equalWithin_cases a b with ⟨r, r', rfl, rfl⟩ | ⟨i, xs, j, ys, rfl, rfl⟩ |
      ⟨r, r', rfl, rfl⟩ | ⟨truth, hflat⟩
    · obtain ⟨x, -, y, -, hxy⟩ := sequencesEqual_error (same_or_error h)
      exact ih hxy
    · obtain ⟨x, -, y, -, hxy⟩ := sequencesEqual_error (same_or_error h)
      exact ih hxy
    · obtain ⟨k, x, y, -, -, hxy⟩ := Dict.equalBy_error (same_or_error h)
      exact ih hxy
    · rw [(hflat levels).1] at h
      cases h

/-- Values that are equal are so from both sides. -/
theorem equalWithin_true_swap {levels : Nat} {a b : Value}
    (h : s.equalWithin levels a b = .ok true) : s.equalWithin levels b a = .ok true := by
  induction levels generalizing a b with
  | zero => cases h
  | succ levels ih =>
    rcases s.equalWithin_cases a b with ⟨r, r', rfl, rfl⟩ | ⟨i, xs, j, ys, rfl, rfl⟩ |
      ⟨r, r', rfl, rfl⟩ | ⟨truth, hflat⟩
    · exact same_or_true_swap eq_comm (sequencesEqual_true_swap fun _ _ => ih) h
    · exact same_or_true_swap eq_comm (sequencesEqual_true_swap fun _ _ => ih) h
    · exact same_or_true_swap eq_comm (Dict.equalBy_true_swap fun _ _ => ih) h
    · rw [(hflat levels).1] at h
      rw [(hflat levels).2, h]

/-- Comparing `a` with `b` may come to comparing two other values: those at one position of two
lists or tuples, or those under one key of two dicts. -/
inductive ComesTo (s : Store) (a b : Value) : Value → Value → Prop where
  | refl : s.ComesTo a b a b
  | list {r r' : ListRef} {p : Value × Value} : s.ComesTo a b (.list r) (.list r') →
    p ∈ (s.list r).toList.zip (s.list r').toList → s.ComesTo a b p.1 p.2
  | tuple {i j : Nat} {xs ys : Array Value} {p : Value × Value} :
    s.ComesTo a b (.tuple i xs) (.tuple j ys) → p ∈ xs.toList.zip ys.toList →
    s.ComesTo a b p.1 p.2
  | dict {r r' : DictRef} {k : Key} {x y : Value} : s.ComesTo a b (.dict r) (.dict r') →
    (s.dict r).getByKey? k = some x → (s.dict r').getByKey? k = some y → s.ComesTo a b x y

/-- Two dicts have as many keys as one another, but not in one order. -/
def Reordered (s : Store) (r r' : DictRef) : Prop :=
  (s.dict r).size = (s.dict r').size ∧
    (s.dict r).table.keyList ≠ (s.dict r').table.keyList

/-- Where a comparison comes to no two dicts with their keys in different orders, its outcome is the
same from both sides. -/
theorem equalWithin_swap (h : ∀ r r', s.ComesTo a b (.dict r) (.dict r') → ¬ s.Reordered r r')
    {levels : Nat} {x y : Value} (hxy : s.ComesTo a b x y) :
    s.equalWithin levels x y = s.equalWithin levels y x := by
  induction levels generalizing x y with
  | zero => rfl
  | succ levels ih =>
    rcases s.equalWithin_cases x y with ⟨r, r', rfl, rfl⟩ | ⟨i, xs, j, ys, rfl, rfl⟩ |
      ⟨r, r', rfl, rfl⟩ | ⟨truth, hflat⟩
    · exact if_congr eq_comm rfl (sequencesEqual_swap fun p hp => ih (.list hxy hp))
    · exact if_congr eq_comm rfl (sequencesEqual_swap fun p hp => ih (.tuple hxy hp))
    · refine if_congr eq_comm rfl (Dict.equalBy_swap (fun hsize => ?_)
        fun k mine theirs hmine htheirs => ih (.dict hxy hmine htheirs))
      exact Classical.not_not.1 fun hne => h r r' hxy ⟨hsize, hne⟩
    · rw [(hflat levels).1, (hflat levels).2]

theorem unequal_cases (h : s.equal a b ≠ .ok true) :
    s.equal a b = .ok false ∨ s.equal a b = .error .comparisonTooDeep := by
  cases hab : s.equal a b with
  | error e => exact .inr (by rw [equalWithin_error hab])
  | ok truth =>
    cases truth with
    | false => exact .inl rfl
    | true => exact absurd hab h

end Store

/-- Two values are equal from both sides, or from neither; then each side finds them different or
nested too deeply, and both find the same unless they come to two dicts of one size whose keys stand
in different orders. -/
theorem equal_both_ways (s : Store) (a b : Value) :
    (s.equal a b = .ok true ∧ s.equal b a = .ok true) ∨
    ((s.equal a b = .ok false ∨ s.equal a b = .error .comparisonTooDeep) ∧
      (s.equal b a = .ok false ∨ s.equal b a = .error .comparisonTooDeep) ∧
      (s.equal a b = s.equal b a ∨
        ∃ r r', s.ComesTo a b (.dict r) (.dict r') ∧ s.Reordered r r')) := by
  by_cases htrue : s.equal a b = .ok true
  · exact .inl ⟨htrue, Store.equalWithin_true_swap htrue⟩
  · refine .inr ⟨Store.unequal_cases htrue, ?_, ?_⟩
    · exact Store.unequal_cases fun h => htrue (Store.equalWithin_true_swap h)
    · refine Classical.or_iff_not_imp_right.2 fun hordered => ?_
      exact Store.equalWithin_swap (fun r r' h hr => hordered ⟨r, r', h, hr⟩) .refl

/-! ### Dicts in different orders -/

/-- A dict of two entries. -/
def Dict.ofTwo (k k' : Int64) (v v' : Value) : Dict :=
  (empty.insertByKey (.int k) (.int k) v).insertByKey (.int k') (.int k') v'

section OfTwo

variable {k k' : Int64} (h : k ≠ k') (v v' : Value)

include h

theorem Dict.toList_ofTwo : (ofTwo k k' v v').table.toList =
    [(.int k, .int k, v), (.int k', .int k', v')] := by
  have hempty : empty.table.toList = [] := rfl
  have hfirst : (empty.insertByKey (.int k) (.int k) v).table.toList = [(.int k, .int k, v)] := by
    rw [insertByKey, Table.toList_upsert_of_absent (by simp [Table.keyList, hempty]), hempty]
    rfl
  rw [ofTwo, insertByKey, Table.toList_upsert_of_absent (by simp [Table.keyList, hfirst, h.symm]),
    hfirst]
  rfl

theorem Dict.size_ofTwo : (ofTwo k k' v v').size = 2 := by
  rw [size, ← Table.length_toList, toList_ofTwo h]
  rfl

theorem Dict.getByKey?_ofTwo : (ofTwo k k' v v').getByKey? (.int k) = some v ∧
    (ofTwo k k' v v').getByKey? (.int k') = some v' := by
  have hentries := toList_ofTwo h v v'
  have hfirst : (Key.int k, Value.int k, v) ∈ (ofTwo k k' v v').table.toList := by simp [hentries]
  have hsecond : (Key.int k', Value.int k', v') ∈ (ofTwo k k' v v').table.toList := by
    simp [hentries]
  exact ⟨getByKey?_of_mem hfirst, getByKey?_of_mem hsecond⟩

/-- The comparison with a dict whose keys stand the other way round starts at the first key. -/
theorem Dict.equalBy_ofTwo (equal : Value → Value → Except Error Bool) (w w' : Value) :
    (ofTwo k k' v v').equalBy equal (ofTwo k' k w' w) =
      [(v, w), (v', w')].allM fun p => equal p.1 p.2 := by
  obtain ⟨hmine, hmine'⟩ := getByKey?_ofTwo h v v'
  obtain ⟨htheirs', htheirs⟩ := getByKey?_ofTwo h.symm w' w
  rw [equalBy_eq, size_ofTwo h, size_ofTwo h.symm, if_pos rfl, Table.keyList, toList_ofTwo h]
  simp only [List.map_cons, List.map_nil, List.allM, agreeAt, hmine, hmine', htheirs, htheirs']

end OfTwo

/-- Two lists that hold themselves, and two dicts that have them under one key and different numbers
under another, in different orders. -/
def crossed : Store :=
  { Store.empty with
    lists := #[#[.list ⟨0⟩], #[.list ⟨1⟩]]
    dicts := #[.ofTwo 1 2 (.list ⟨0⟩) (.int 0), .ofTwo 2 1 (.int 1) (.list ⟨1⟩)] }

theorem crossed_lists_tooDeep (levels : Nat) :
    crossed.equalWithin levels (.list ⟨0⟩) (.list ⟨1⟩) = .error .comparisonTooDeep := by
  induction levels with
  | zero => rfl
  | succ levels ih =>
    show sequencesEqual (crossed.equalWithin levels) #[.list ⟨0⟩] #[.list ⟨1⟩] = _
    rw [sequencesEqual_eq]
    show [(Value.list ⟨0⟩, Value.list ⟨1⟩)].allM (fun p => crossed.equalWithin levels p.1 p.2) = _
    rw [List.allM, ih]
    rfl

/-- The side that comes to the lists first cannot compare the dicts; the other side finds them
different. -/
theorem crossed_not_symmetric :
    crossed.equal (.dict ⟨0⟩) (.dict ⟨1⟩) = .error .comparisonTooDeep ∧
      crossed.equal (.dict ⟨1⟩) (.dict ⟨0⟩) = .ok false := by
  constructor
  · show (Dict.ofTwo 1 2 (.list ⟨0⟩) (.int 0)).equalBy (crossed.equalWithin 100)
      (.ofTwo 2 1 (.int 1) (.list ⟨1⟩)) = _
    rw [Dict.equalBy_ofTwo (by decide), List.allM, crossed_lists_tooDeep]
    rfl
  · show (Dict.ofTwo 2 1 (.int 1) (.list ⟨1⟩)).equalBy (crossed.equalWithin 100)
      (.ofTwo 1 2 (.list ⟨0⟩) (.int 0)) = _
    rw [Dict.equalBy_ofTwo (by decide)]
    rfl

end ScriptSandbox

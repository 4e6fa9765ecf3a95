import Mathlib.Data.List.DropRight
import ScriptSandbox.Proofs.Keys

/-!
# Dicts by their history

What a dict holds can be read off the events it went through. A key is there when something was put
under it since it was removed last (`History.life`): it stands where the first of these puts came, with
the key value of that put, and has the value of the last one (`Records`). Each event keeps this
(`Records.step`), so it holds of all that is built by inserting, removing, clearing and merging; and
merging is associative, as the entries of a merged dict can be told from those of the two
(`toList_merged`).
-/

namespace ScriptSandbox.Dict

/-! ## Histories -/

/-- What happens to a dict. -/
inductive Event where
  /-- A value is stored under a key, which comes with a key value. -/
  | put (k : Key) (key value : Value)
  | drop (k : Key)
  | clear

namespace Event

def apply (d : Dict) : Event → Dict
  | put k key value => d.insertByKey k key value
  | drop k => d.eraseByKey k
  | clear => .empty

/-- Whether a key is gone behind an event. -/
def removes (k : Key) : Event → Bool
  | put .. => false
  | drop k' => k' = k
  | clear => true

/-- The key value and the value that an event puts under a key. -/
def put? (k : Key) : Event → Option (Value × Value)
  | put k' key value => if k' = k then some (key, value) else none
  | drop _ | clear => none

end Event

/-- Events, the first one first. -/
abbrev History := List Event

namespace History

variable (h : History) (k : Key)

/-- The events since a key was removed last. -/
def life : History := h.rtakeWhile fun e => !e.removes k

/-- What was put under a key since it was removed last. -/
def puts : List (Value × Value) := (life h k).filterMap (Event.put? k)

/-- The key value that came first since a key was absent. -/
def key? : Option Value := (puts h k).head?.map (·.1)

/-- The value that came last under a key. -/
def value? : Option Value := (puts h k).getLast?.map (·.2)

/-- The position of the event that first put something under a key since it was absent. -/
def birth : Nat := h.length - (life h k).length + (life h k).findIdx fun e => (e.put? k).isSome

variable {h k} {e : Event}

theorem life_concat : life (h ++ [e]) k = if e.removes k then [] else life h k ++ [e] := by
  rw [life, List.rtakeWhile_concat]
  cases e.removes k <;> rfl

theorem length_life_le : (life h k).length ≤ h.length :=
  (List.rtakeWhile_suffix _ _).length_le

theorem puts_concat : puts (h ++ [e]) k = if e.removes k then [] else puts h k ++ (e.put? k).toList := by
  rw [puts, life_concat]
  split
  · rfl
  · rw [List.filterMap_append, puts]
    cases hput : e.put? k <;> simp [hput]

theorem puts_of_not_put (hremoves : e.removes k = false) (hput : e.put? k = none) :
    puts (h ++ [e]) k = puts h k := by
  rw [puts_concat, hremoves, hput]
  simp

theorem puts_ne_nil_iff : puts h k ≠ [] ↔ ∃ e ∈ life h k, (e.put? k).isSome := by
  rw [puts, Ne, List.filterMap_eq_nil_iff]
  simp [Option.isSome_iff_ne_none]

theorem birth_lt (hputs : puts h k ≠ []) : birth h k < h.length := by
  have hfound : (life h k).findIdx (fun e => (e.put? k).isSome) < (life h k).length :=
    List.findIdx_lt_length.2 (puts_ne_nil_iff.1 hputs)
  have := length_life_le (h := h) (k := k)
  rw [birth]
  omega

/-- A key keeps its place until it is removed. -/
theorem birth_concat (hputs : puts h k ≠ []) (hremoves : e.removes k = false) :
    birth (h ++ [e]) k = birth h k := by
  have hfound : (life h k).findIdx (fun e => (e.put? k).isSome) < (life h k).length :=
    List.findIdx_lt_length.2 (puts_ne_nil_iff.1 hputs)
  rw [birth, life_concat, hremoves, if_neg Bool.false_ne_true, List.findIdx_append, if_pos hfound,
    List.length_append, List.length_append, Nat.add_sub_add_right, birth]

/-- A key that was absent comes behind all that happened before. -/
theorem length_le_birth (hputs : puts h k = []) (hremoves : e.removes k = false) :
    h.length ≤ birth (h ++ [e]) k := by
  have hlength : (life h k).findIdx (fun e => (e.put? k).isSome) = (life h k).length := by
    rw [List.findIdx_eq_length]
    intro e he
    have := mt puts_ne_nil_iff.2 (not_not.2 hputs)
    simpa using fun hsome => this ⟨e, he, hsome⟩
  have := length_life_le (h := h) (k := k)
  rw [birth, life_concat, hremoves, if_neg Bool.false_ne_true, List.findIdx_append, if_neg (by omega),
    List.length_append, List.length_append]
  simp only [List.length_singleton]
  omega

theorem key?_concat_put (k : Key) (key value : Value) :
    key? (h ++ [.put k key value]) k = some ((key? h k).getD key) := by
  rw [key?, puts_concat, key?]
  cases puts h k <;> simp [Event.removes, Event.put?]

theorem value?_concat_put (k : Key) (key value : Value) :
    value? (h ++ [.put k key value]) k = some value := by
  rw [value?, puts_concat]
  simp [Event.removes, Event.put?]

end History

open History

/-! ## What a history makes of a dict -/

variable {h : History} {d : Dict} {e : Event}

/-- A dict is what its history says: the keys stand in the order in which they were first put since they
were absent, each with the key value that came first and the value that came last. -/
structure Records (h : History) (d : Dict) : Prop where
  keys : ∀ k, (d.table.get? k).map Prod.fst = key? h k
  values : ∀ k, d.getByKey? k = value? h k
  ordered : d.table.toList.Pairwise fun e e' => birth h e.1 < birth h e'.1

namespace Records

theorem of_empty (hputs : ∀ k, puts h k = []) : Records h .empty := by
  have hnone (k : Key) : Dict.empty.table.get? k = none := Table.get?_eq_none_iff.2 List.not_mem_nil
  refine ⟨fun k => ?_, fun k => ?_, .nil⟩
  · rw [hnone, key?, hputs]
    rfl
  · rw [getByKey?, hnone, value?, hputs]
    rfl

theorem mem_keyList (hd : Records h d) {k : Key} : k ∈ d.table.keyList ↔ puts h k ≠ [] := by
  have hkey := hd.keys k
  rw [Table.mem_keyList, ← Option.isSome_iff_exists, ← Option.isSome_map, hkey, key?,
    Option.isSome_map]
  cases puts h k <;> simp

theorem puts_ne_nil (hd : Records h d) {entry : Key × Value × Value}
    (hentry : entry ∈ d.table.toList) : puts h entry.1 ≠ [] :=
  hd.mem_keyList.1 (List.mem_map_of_mem hentry)

/-- Entries that an event leaves keep their order. -/
theorem ordered_of_kept (hd : Records h d) {entries : List (Key × Value × Value)}
    (hsublist : entries.Sublist d.table.toList)
    (hkept : ∀ entry ∈ entries, e.removes entry.1 = false) :
    entries.Pairwise fun x y => birth (h ++ [e]) x.1 < birth (h ++ [e]) y.1 := by
  refine (hd.ordered.sublist hsublist).imp_of_mem fun hx hy hlt => ?_
  rw [birth_concat (hd.puts_ne_nil (hsublist.mem hx)) (hkept _ hx),
    birth_concat (hd.puts_ne_nil (hsublist.mem hy)) (hkept _ hy)]
  exact hlt

theorem put (hd : Records h d) (k : Key) (key value : Value) :
    Records (h ++ [.put k key value]) (d.insertByKey k key value) := by
  have hget (k' : Key) := Table.get?_upsert (t := d.table) (k := k) (key, value)
    (fun old => (old.1, value)) k'
  have hother {k' : Key} (hk : k' ≠ k) : puts (h ++ [.put k key value]) k' = puts h k' :=
    puts_of_not_put rfl (if_neg (Ne.symm hk))
  refine ⟨fun k' => ?_, fun k' => ?_, ?_⟩
  · rw [insertByKey, hget]
    by_cases hk : k' = k
    · subst hk
      rw [if_pos rfl, key?_concat_put, ← hd.keys]
      cases d.table.get? k' <;> rfl
    · rw [if_neg hk, key?, hother hk]
      exact hd.keys k'
  · rw [getByKey?, insertByKey, hget]
    by_cases hk : k' = k
    · subst hk
      rw [if_pos rfl, value?_concat_put]
      cases d.table.get? k' <;> rfl
    · rw [if_neg hk, value?, hother hk]
      exact hd.values k'
  · -- a key that is there keeps its place, and a new one is younger than all others
    have hkept := hd.ordered_of_kept (e := .put k key value) (.refl _) fun _ _ => rfl
    by_cases hk : k ∈ d.table.keyList
    · rw [insertByKey, Table.toList_upsert_of_present hk, List.pairwise_map]
      refine hkept.imp fun {x y} hlt => ?_
      split <;> split <;> exact hlt
    · rw [insertByKey, Table.toList_upsert_of_absent hk, List.pairwise_append]
      refine ⟨hkept, List.pairwise_singleton _ _, fun x hx y hy => ?_⟩
      rw [List.mem_singleton.1 hy, birth_concat (hd.puts_ne_nil hx) rfl]
      exact Nat.lt_of_lt_of_le (birth_lt (hd.puts_ne_nil hx))
        (length_le_birth (not_not.1 (mt hd.mem_keyList.2 hk)) rfl)

theorem drop (hd : Records h d) (k : Key) : Records (h ++ [.drop k]) (d.eraseByKey k) := by
  have hgone : puts (h ++ [.drop k]) k = [] := by simp [puts_concat, Event.removes]
  have hother {k' : Key} (hk : k' ≠ k) : puts (h ++ [.drop k]) k' = puts h k' :=
    puts_of_not_put (by simpa [Event.removes] using Ne.symm hk) rfl
  refine ⟨fun k' => ?_, fun k' => ?_, ?_⟩
  · rw [eraseByKey, Table.get?_erase]
    by_cases hk : k' = k
    · rw [if_pos hk, key?, hk, hgone]
      rfl
    · rw [if_neg hk, key?, hother hk]
      exact hd.keys k'
  · rw [getByKey?, eraseByKey, Table.get?_erase]
    by_cases hk : k' = k
    · rw [if_pos hk, value?, hk, hgone]
      rfl
    · rw [if_neg hk, value?, hother hk]
      exact hd.values k'
  · rw [eraseByKey, Table.toList_erase]
    refine hd.ordered_of_kept List.filter_sublist fun entry hentry => ?_
    have hk : entry.1 ≠ k := by simpa using (List.mem_filter.1 hentry).2
    exact decide_eq_false hk.symm

theorem clear (h : History) : Records (h ++ [.clear]) .empty :=
  of_empty fun k => by simp [puts_concat, Event.removes]

theorem step (hd : Records h d) (e : Event) : Records (h ++ [e]) (e.apply d) := by
  cases e with
  | put k key value => exact hd.put k key value
  | drop k => exact hd.drop k
  | clear => exact .clear h

theorem run (hd : Records h d) (events : History) :
    Records (h ++ events) (events.foldl Event.apply d) := by
  induction events generalizing h d with
  | nil => simpa using hd
  | cons e rest ih =>
    rw [List.append_cons]
    exact ih (hd.step e)

end Records

/-! ## Merging -/

section Merging

variable {entries : List (Key × Value × Value)} {k : Key} {key value : Value}

theorem get?_insertEntries_of_absent (hk : k ∉ entries.map Prod.fst) :
    (entries.foldl (fun d e => d.insertByKey e.1 e.2.1 e.2.2) d).table.get? k = d.table.get? k := by
  induction entries generalizing d with
  | nil => rfl
  | cons e rest ih =>
    rw [List.map_cons, List.mem_cons, not_or] at hk
    rw [List.foldl_cons, ih hk.2, insertByKey, Table.get?_upsert, if_neg hk.1]

theorem get?_insertEntries_of_mem (hkeys : (entries.map Prod.fst).Nodup)
    (hmem : (k, key, value) ∈ entries) :
    (entries.foldl (fun d e => d.insertByKey e.1 e.2.1 e.2.2) d).table.get? k =
      some (((d.table.get? k).map Prod.fst).getD key, value) := by
  induction entries generalizing d with
  | nil => cases hmem
  | cons e rest ih =>
    rw [List.map_cons, List.nodup_cons] at hkeys
    rw [List.foldl_cons]
    rcases List.mem_cons.1 hmem with rfl | hrest
    · rw [get?_insertEntries_of_absent hkeys.1, insertByKey, Table.get?_upsert, if_pos rfl]
      cases d.table.get? k <;> rfl
    · have hne : k ≠ e.1 := fun heq => hkeys.1 (heq ▸ List.mem_map_of_mem hrest)
      rw [ih hkeys.2 hrest, insertByKey, Table.get?_upsert, if_neg hne]

theorem keyList_insertByKey_of_present (hk : k ∈ d.table.keyList) :
    (d.insertByKey k key value).table.keyList = d.table.keyList := by
  rw [insertByKey, Table.keyList, Table.toList_upsert_of_present hk, List.map_map]
  refine List.map_congr_left fun e _ => ?_
  rw [Function.comp_apply]
  split <;> rfl

theorem keyList_insertByKey_of_absent (hk : k ∉ d.table.keyList) :
    (d.insertByKey k key value).table.keyList = d.table.keyList ++ [k] := by
  rw [insertByKey, Table.keyList, Table.toList_upsert_of_absent hk, List.map_append]
  rfl

/-- New keys come behind the old ones. -/
theorem keyList_insertEntries (hkeys : (entries.map Prod.fst).Nodup) :
    (entries.foldl (fun d e => d.insertByKey e.1 e.2.1 e.2.2) d).table.keyList =
      d.table.keyList ++ (entries.map Prod.fst).filter (· ∉ d.table.keyList) := by
  induction entries generalizing d with
  | nil => simp
  | cons e rest ih =>
    rw [List.map_cons, List.nodup_cons] at hkeys
    rw [List.foldl_cons, ih hkeys.2, List.map_cons]
    by_cases hk : e.1 ∈ d.table.keyList
    · rw [keyList_insertByKey_of_present hk, List.filter_cons_of_neg (by simpa using hk)]
    · have hrest : (rest.map Prod.fst).filter (· ∉ d.table.keyList ++ [e.1]) =
          (rest.map Prod.fst).filter (· ∉ d.table.keyList) := by
        refine List.filter_congr fun k hmem => ?_
        have hne : k ≠ e.1 := fun heq => hkeys.1 (heq ▸ hmem)
        simp [hne]
      rw [keyList_insertByKey_of_absent hk, hrest, List.append_assoc,
        List.filter_cons_of_pos (by simpa using hk), List.singleton_append]

/-- A key of the other dict has its value there, but the key value that it has here already. -/
theorem get?_merged (d other : Dict) (k : Key) :
    (d.merged other).table.get? k =
      match other.table.get? k with
      | none => d.table.get? k
      | some (key, value) => some (((d.table.get? k).map Prod.fst).getD key, value) := by
  cases hk : other.table.get? k with
  | none => exact get?_insertEntries_of_absent (Table.get?_eq_none_iff.1 hk)
  | some entry => exact get?_insertEntries_of_mem other.table.nodup_keyList (Table.get?_eq_some_iff.1 hk)

theorem keyList_merged (d other : Dict) : (d.merged other).table.keyList =
    d.table.keyList ++ other.table.keyList.filter (· ∉ d.table.keyList) :=
  keyList_insertEntries other.table.nodup_keyList

theorem getByKey?_merged (d other : Dict) (k : Key) :
    (d.merged other).getByKey? k = (other.getByKey? k).or (d.getByKey? k) := by
  rw [getByKey?, get?_merged, getByKey?]
  cases other.table.get? k <;> rfl

theorem key_merged (d other : Dict) (k : Key) :
    ((d.merged other).table.get? k).map Prod.fst =
      ((d.table.get? k).map Prod.fst).or ((other.table.get? k).map Prod.fst) := by
  rw [get?_merged]
  cases other.table.get? k <;> cases d.table.get? k <;> rfl

theorem merged_assoc (a b c : Dict) :
    ((a.merged b).merged c).table.toList = (a.merged (b.merged c)).table.toList := by
  refine Table.toList_ext ?_ fun k => ?_
  · simp only [keyList_merged, List.filter_append, List.filter_filter, List.append_assoc]
    congr 2
    refine List.filter_congr fun k _ => ?_
    by_cases ha : k ∈ a.table.keyList <;> simp [ha]
  · simp only [get?_merged]
    cases c.table.get? k <;> cases b.table.get? k <;> cases a.table.get? k <;> rfl

end Merging

/-! ## Dicts that are built -/

/-- How a dict is built from empty ones. -/
inductive Build where
  | empty
  | insert (b : Build) (key value : Value)
  | remove (b : Build) (key : Value)
  | clear (b : Build)
  | merged (b other : Build)

namespace Build

/-- The dict that is built; an operation that fails leaves it as it is. -/
def dict : Build → Dict
  | empty => .empty
  | insert b key value => (b.dict.insert key value).toOption.getD b.dict
  | remove b key => ((b.dict.remove key).toOption.map (·.2)).getD b.dict
  | clear _ => .empty
  | merged b other => b.dict.merged other.dict

/-- What happened to the dict. Merging puts the entries of the other dict one after another; of the
past of that dict nothing else remains. -/
def history : Build → History
  | empty => []
  | insert b key value =>
    b.history ++ ((Key.ofValue key).toOption.map (Event.put · key value)).toList
  | remove b key => b.history ++ ((Key.ofValue key).toOption.map Event.drop).toList
  | clear b => b.history ++ [.clear]
  | merged b other => b.history ++ other.dict.table.toList.map fun e => .put e.1 e.2.1 e.2.2

theorem dict_eq (b : Build) : b.dict = b.history.foldl Event.apply .empty := by
  induction b with
  | empty => rfl
  | insert b key value ih =>
    rw [dict, history, List.foldl_append, ← ih, Dict.insert]
    cases Key.ofValue key <;> rfl
  | remove b key ih =>
    rw [dict, history, List.foldl_append, ← ih, Dict.remove]
    cases Key.ofValue key <;> rfl
  | clear b ih =>
    rw [dict, history, List.foldl_append]
    rfl
  | merged b other ih =>
    rw [dict, history, List.foldl_append, ← ih, List.foldl_map]
    rfl

theorem made (b : Build) : b.dict.Made := by
  induction b with
  | empty => exact .empty
  | insert b key value ih =>
    rw [dict, Dict.insert]
    cases hk : Key.ofValue key with
    | error => exact ih
    | ok k => exact .insert value ih hk
  | remove b key ih =>
    rw [dict, Dict.remove]
    cases Key.ofValue key with
    | error => exact ih
    | ok k => exact .erase k ih
  | clear => exact .empty
  | merged b other ih ihother => exact ih.merged ihother

theorem records (b : Build) : Records b.history b.dict := by
  rw [dict_eq]
  exact (Records.of_empty (h := []) fun _ => rfl).run b.history

end Build

/-- However a dict is built, each entry stands under the key of its own key value, no two under one key,
and the entries are what the history says: in the order in which their keys were first put since they
were absent, each with the key value that came first and the value that came last, which a look-up
gives. Merged dicts have the values of the right one and the key values of the left one, and merging is
associative. -/
theorem dict_follows_history (b : Build) :
    (∀ entry ∈ b.dict.table.toList, Key.ofValue entry.2.1 = .ok entry.1) ∧
    b.dict.table.keyList.Nodup ∧
    Records b.history b.dict ∧
    (∀ key, b.dict.get? key = (Key.ofValue key).map b.history.value?) ∧
    ∀ c d : Build,
      ((b.merged c).merged d).dict.table.toList = (b.merged (c.merged d)).dict.table.toList ∧
      ∀ k, (b.merged c).dict.getByKey? k = (c.dict.getByKey? k).or (b.dict.getByKey? k) ∧
        ((b.merged c).dict.table.get? k).map Prod.fst =
          ((b.dict.table.get? k).map Prod.fst).or ((c.dict.table.get? k).map Prod.fst) := by
  refine ⟨fun entry => b.made.filed, b.dict.table.nodup_keyList, b.records, fun key => ?_,
    fun c d => ⟨merged_assoc _ _ _, fun k => ⟨getByKey?_merged _ _ k, key_merged _ _ k⟩⟩⟩
  have hvalues : b.dict.getByKey? = b.history.value? := funext b.records.values
  rw [get?, hvalues]

end ScriptSandbox.Dict

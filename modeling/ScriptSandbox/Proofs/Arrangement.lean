import Mathlib.Data.List.Nodup
import ScriptSandbox.Eval.Call

/-!
# Where arguments go

Positional arguments go to the positional parameters in order and then into the rest; a keyword
argument goes to the parameter of its name that callers can name, and else into the keyword rest.
Arguments can be arranged in this way exactly if there is a place for each, and no parameter gets two
of them (`ofArguments_ends`).
-/

namespace ScriptSandbox

open Eval

namespace Parameters

/-- The parameters that callers can name. -/
def named (params : Parameters) : List Param := params.args ++ params.kwonly

/-- No two parameters have one name. -/
def Distinct (params : Parameters) : Prop :=
  ((params.positional ++ params.kwonly).map Param.name).Nodup

/-- There are no more positional arguments than parameters for them, or there is a rest. -/
def Room (params : Parameters) (n : Nat) : Prop :=
  n ≤ params.positional.length ∨ params.vararg.isSome

/-- A keyword argument has a place: no parameter of its name is among the first `n`, which are filled
by position, and there is one, or a keyword rest. -/
structure Places (params : Parameters) (n : Nat) (name : String) : Prop where
  once : ∀ p ∈ params.args, p ∈ params.positional.take n → p.name ≠ name
  known : name ∈ params.named.map Param.name ∨ params.kwarg.isSome

namespace Distinct

variable {params : Parameters} {p q : Param}

theorem positional (h : params.Distinct) : (params.positional.map Param.name).Nodup := by
  rw [Distinct, List.map_append] at h
  exact h.of_append_left

theorem kwonly (h : params.Distinct) : (params.kwonly.map Param.name).Nodup := by
  rw [Distinct, List.map_append] at h
  exact h.of_append_right

theorem ne (h : params.Distinct) (hp : p ∈ params.positional) (hq : q ∈ params.kwonly) :
    p.name ≠ q.name := by
  rw [Distinct, List.map_append, List.nodup_append] at h
  exact h.2.2 _ (List.mem_map_of_mem hp) _ (List.mem_map_of_mem hq)

theorem eq (h : params.Distinct) (hp : p ∈ params.positional ++ params.kwonly)
    (hq : q ∈ params.positional ++ params.kwonly) (hname : p.name = q.name) : p = q :=
  List.inj_on_of_nodup_map h hp hq hname

/-- Among parameters of a call, a name stands for one. -/
theorem mem_map_iff (h : params.Distinct) {l : List Param}
    (hl : ∀ q ∈ l, q ∈ params.positional ++ params.kwonly)
    (hp : p ∈ params.positional ++ params.kwonly) : p.name ∈ l.map Param.name ↔ p ∈ l := by
  refine ⟨fun hname => ?_, List.mem_map_of_mem⟩
  obtain ⟨q, hq, hqname⟩ := List.mem_map.1 hname
  exact h.eq (hl q hq) hp hqname ▸ hq

end Distinct

/-- A name has one place in a list of parameters. -/
theorem index_eq {l : List Param} (h : (l.map Param.name).Nodup) {i j : Nat} {p q : Param}
    (hi : l[i]? = some p) (hj : l[j]? = some q) (hname : p.name = q.name) : i = j := by
  obtain ⟨hlt, -⟩ := List.getElem?_eq_some_iff.1 hi
  refine (List.getElem?_inj (by simpa using hlt) h).1 ?_
  rw [List.getElem?_map, List.getElem?_map, hi, hj, Option.map_some, Option.map_some, hname]

variable {params : Parameters} {p : Param} {i : Nat}

theorem mem_args_iff (h : params.Distinct) (hi : params.positional[i]? = some p) :
    p ∈ params.args ↔ params.posonly.length ≤ i := by
  constructor
  · intro hp
    obtain ⟨j, hj⟩ := List.mem_iff_getElem?.1 hp
    have hplace : params.positional[params.posonly.length + j]? = some p := by
      rw [positional, List.getElem?_append_right (Nat.le_add_right _ _), Nat.add_sub_cancel_left, hj]
    rw [index_eq h.positional hi hplace rfl]
    exact Nat.le_add_right _ _
  · intro hle
    rw [positional, List.getElem?_append_right hle] at hi
    exact List.mem_of_getElem? hi

theorem mem_take_iff (h : params.Distinct) (hi : params.positional[i]? = some p) (n : Nat) :
    p ∈ params.positional.take n ↔ i < n := by
  constructor
  · intro hp
    obtain ⟨j, hj⟩ := List.mem_iff_getElem?.1 hp
    rw [List.getElem?_take] at hj
    split at hj
    · rename_i hlt
      rw [index_eq h.positional hi hj rfl]
      exact hlt
    · cases hj
  · intro hlt
    refine List.mem_of_getElem? (i := i) ?_
    rw [List.getElem?_take, if_pos hlt, hi]

theorem mem_of_named (hp : p ∈ params.named) : p ∈ params.positional ++ params.kwonly :=
  (List.mem_append.1 hp).elim (fun h => List.mem_append_left _ (List.mem_append_right _ h))
    fun h => List.mem_append_right _ h

theorem exists_place (hp : p ∈ params.args) :
    ∃ i, params.positional[i]? = some p ∧ params.posonly.length ≤ i := by
  obtain ⟨j, hj⟩ := List.mem_iff_getElem?.1 hp
  refine ⟨params.posonly.length + j, ?_, Nat.le_add_right _ _⟩
  rw [positional, List.getElem?_append_right (Nat.le_add_right _ _), Nat.add_sub_cancel_left, hj]

theorem exists_place_of_name {name : String} (hname : name ∈ params.args.map Param.name) :
    ∃ i p, params.positional[i]? = some p ∧ params.posonly.length ≤ i ∧ p.name = name := by
  obtain ⟨p, hp, rfl⟩ := List.mem_map.1 hname
  obtain ⟨i, hi, hle⟩ := exists_place hp
  exact ⟨i, p, hi, hle, rfl⟩

end Parameters

/-! ## Slots -/

namespace Eval.Arrangement

variable {params : Parameters} {l : List Param} {xs : List Value} {first : Nat}
  {ks : List (String × Value)} {name : String} {value : Value} {i : Nat} {p : Param}

/-- Parameters with the arguments for them: those by position, and keyword arguments for the
parameters from the first one on that callers can name. -/
def slots (l : List Param) (xs : List Value) (first : Nat) (ks : List (String × Value)) : List Slot :=
  l.zipIdx.map fun (p, i) => ⟨p, xs[i]?.or (if first ≤ i then ks.lookup p.name else none)⟩

theorem getElem?_slots (i : Nat) : (slots l xs first ks)[i]? =
    l[i]?.map fun p => ⟨p, xs[i]?.or (if first ≤ i then ks.lookup p.name else none)⟩ := by
  rw [slots, List.getElem?_map, List.getElem?_zipIdx, Option.map_map]
  simp [Function.comp_def]

theorem indexOf?_slots (name : String) :
    indexOf? (slots l xs first ks) name = l.findIdx? (·.name == name) := by
  rw [indexOf?, slots, List.findIdx?_map]
  conv => rhs; rw [← List.zipIdx_map_fst 0 l, List.findIdx?_map]
  rfl

section Place

variable (xs : List Value) (first : Nat) (ks : List (String × Value))

/-- The place of a parameter that callers can name. -/
theorem place_some (h : (l.map Param.name).Nodup) (hi : l[i]? = some p) (hle : first ≤ i) :
    (indexOf? (slots l xs first ks) p.name).filter (first ≤ ·) = some i := by
  rw [indexOf?_slots]
  cases hfind : l.findIdx? (·.name == p.name) with
  | none =>
    have hmiss := List.findIdx?_eq_none_iff.1 hfind p (List.mem_of_getElem? hi)
    simp at hmiss
  | some j =>
    obtain ⟨hlt, hname, -⟩ := List.findIdx?_eq_some_iff_getElem.1 hfind
    rw [Parameters.index_eq h (List.getElem?_eq_getElem hlt) hi (by simpa using hname)]
    simpa using hle

/-- A name that callers cannot name has no place. -/
theorem place_none (hmiss : ∀ i p, l[i]? = some p → first ≤ i → p.name ≠ name) :
    (indexOf? (slots l xs first ks) name).filter (first ≤ ·) = none := by
  rw [indexOf?_slots]
  cases hfind : l.findIdx? (·.name == name) with
  | none => rfl
  | some j =>
    obtain ⟨hlt, hname, -⟩ := List.findIdx?_eq_some_iff_getElem.1 hfind
    have hout : ¬ first ≤ j := fun hle =>
      hmiss j l[j] (List.getElem?_eq_getElem hlt) hle (by simpa using hname)
    simpa using hout

end Place

/-- All parameters by keyword only can be named. -/
theorem filter_zero_le (place : Option Nat) : place.filter (0 ≤ ·) = place := by
  cases place <;> simp

theorem isSome_lookup_iff : (ks.lookup name).isSome ↔ name ∈ ks.map Prod.fst := by
  rw [List.lookup_isSome_iff, List.mem_map]
  refine exists_congr fun k => and_congr_right fun _ => ?_
  rw [beq_iff_eq, eq_comm]

theorem lookup_of_new (hnew : name ∉ ks.map Prod.fst) : ks.lookup name = none := by
  rwa [← isSome_lookup_iff, Option.isSome_iff_ne_none, ne_eq, not_not] at hnew

theorem lookup_of_mem (h : (ks.map Prod.fst).Nodup) (hmem : (name, value) ∈ ks) :
    ks.lookup name = some value := by
  cases hlookup : ks.lookup name with
  | none =>
    have hsome := isSome_lookup_iff.2 (List.mem_map_of_mem hmem)
    rw [hlookup] at hsome
    cases hsome
  | some other =>
    obtain ⟨before, after, hks, -⟩ := List.lookup_eq_some_iff.1 hlookup
    have hother : (name, other) ∈ ks := by simp [hks]
    exact congrArg (some ·.2) (List.inj_on_of_nodup_map h hother hmem rfl)

theorem lookup_concat_of_ne {other : String} (h : other ≠ name) :
    (ks ++ [(name, value)]).lookup other = ks.lookup other := by
  rw [List.lookup_append, List.lookup_cons, beq_false_of_ne h]
  exact Option.or_none

theorem lookup_concat_self (hnew : name ∉ ks.map Prod.fst) :
    (ks ++ [(name, value)]).lookup name = some value := by
  rw [List.lookup_append, lookup_of_new hnew, Option.none_or, List.lookup_cons, beq_self_eq_true]

theorem getElem?_slots_concat (h : ∀ p, l[i]? = some p → first ≤ i → p.name ≠ name) :
    (slots l xs first (ks ++ [(name, value)]))[i]? = (slots l xs first ks)[i]? := by
  rw [getElem?_slots, getElem?_slots]
  cases hi : l[i]? with
  | none => rfl
  | some p =>
    rw [Option.map_some, Option.map_some]
    split
    · rename_i hle
      rw [lookup_concat_of_ne (h p hi hle)]
    · rfl

theorem slots_concat (h : ∀ i p, l[i]? = some p → first ≤ i → p.name ≠ name) :
    slots l xs first (ks ++ [(name, value)]) = slots l xs first ks :=
  List.ext_getElem? fun i => getElem?_slots_concat (h i)

section Fill

variable (func : String) (hi : l[i]? = some p) (hle : first ≤ i)

include hi hle

/-- A slot that is filled by position is not filled by name. -/
theorem fill_taken (htaken : i < xs.length) :
    fill func p.name value (slots l xs first ks) i = .error (.repeatedArgument func p.name) := by
  rw [fill, getElem?_slots, hi, Option.map_some, if_pos hle, List.getElem?_eq_getElem htaken]
  rfl

/-- A free slot is filled as if the argument had been there from the start. -/
theorem fill_free (hl : (l.map Param.name).Nodup) (hnew : p.name ∉ ks.map Prod.fst)
    (hfree : xs.length ≤ i) :
    fill func p.name value (slots l xs first ks) i =
      .ok (slots l xs first (ks ++ [(p.name, value)])) := by
  have hnone : xs[i]? = none := List.getElem?_eq_none hfree
  have hslot : (slots l xs first ks)[i]? = some ⟨p, none⟩ := by
    rw [getElem?_slots, hi, Option.map_some, if_pos hle, hnone, Option.none_or, lookup_of_new hnew]
  rw [fill, hslot]
  refine congrArg Except.ok (List.ext_getElem? fun j => ?_)
  rw [List.getElem?_modify]
  by_cases hij : i = j
  · subst hij
    rw [hslot, getElem?_slots, hi, Option.map_some, if_pos hle, hnone, Option.none_or,
      lookup_concat_self hnew]
    simp
  · rw [getElem?_slots_concat fun q hj _ heq => hij (Parameters.index_eq hl hi hj heq.symm)]
    simp [hij]

end Fill

/-! ## All arguments -/

/-- Keyword arguments for no parameter that callers can name. -/
def unnamed (params : Parameters) (ks : List (String × Value)) : List (String × Value) :=
  ks.filter fun k => k.1 ∉ params.named.map Param.name

/-- Where positional arguments and some of the keyword arguments have gone. -/
def arranged (params : Parameters) (xs : List Value) (ks : List (String × Value)) : Arrangement where
  positional := slots params.positional xs params.posonly.length ks
  keywordOnly := slots params.kwonly [] 0 ks
  extra := xs.drop params.positional.length
  extraKeywords := if params.kwarg.isSome then unnamed params ks else []
  misnamed := if params.kwarg.isSome then [] else (unnamed params ks).map Prod.fst

theorem slots_unnamed (l : List Param) : slots l [] 0 [] = l.map fun p => ⟨p, none⟩ := by
  refine List.ext_getElem? fun i => ?_
  rw [getElem?_slots, List.getElem?_map]
  simp

theorem ofPositional_eq (params : Parameters) (xs : List Value) :
    ofPositional params xs = arranged params xs [] := by
  rw [arranged, slots_unnamed]
  simp [ofPositional, slots, unnamed]

theorem unnamed_concat (h : name ∉ params.named.map Param.name) :
    unnamed params (ks ++ [(name, value)]) = unnamed params ks ++ [(name, value)] := by
  rw [unnamed, List.filter_append, List.filter_cons_of_pos (by simpa using h)]
  rfl

theorem unnamed_concat_of_named (h : name ∈ params.named.map Param.name) :
    unnamed params (ks ++ [(name, value)]) = unnamed params ks := by
  rw [unnamed, List.filter_append, List.filter_cons_of_neg (by simpa using h)]
  exact List.append_nil _

section Add

variable (func : String) (value : Value)

theorem addKeyword_args (h : params.Distinct) (hi : params.positional[i]? = some p)
    (hle : params.posonly.length ≤ i) (hnew : p.name ∉ ks.map Prod.fst) :
    (arranged params xs ks).addKeyword func params p.name value =
      if i < xs.length then .error (.repeatedArgument func p.name)
      else .ok (arranged params xs (ks ++ [(p.name, value)])) := by
  have hplace : (indexOf? (arranged params xs ks).positional p.name).filter
      (params.posonly.length ≤ ·) = some i := place_some xs _ ks h.positional hi hle
  rw [addKeyword, hplace]
  dsimp only
  rw [show (arranged params xs ks).positional = slots params.positional xs params.posonly.length ks
    from rfl]
  rcases Nat.lt_or_ge i xs.length with htaken | hfree
  · rw [fill_taken func hi hle htaken, if_pos htaken]
    rfl
  · have hnamed : p.name ∈ params.named.map Param.name :=
      List.mem_map_of_mem (List.mem_append_left _ ((Parameters.mem_args_iff h hi).2 hle))
    have hkwonly : slots params.kwonly [] 0 (ks ++ [(p.name, value)]) = slots params.kwonly [] 0 ks :=
      slots_concat fun j q hj _ => (h.ne (List.mem_of_getElem? hi) (List.mem_of_getElem? hj)).symm
    rw [fill_free func hi hle h.positional hnew hfree, if_neg (Nat.not_lt.2 hfree)]
    refine congrArg Except.ok ?_
    rw [arranged, arranged, hkwonly, unnamed_concat_of_named hnamed]

theorem addKeyword_kwonly (h : params.Distinct) (hi : params.kwonly[i]? = some p)
    (hnew : p.name ∉ ks.map Prod.fst) :
    (arranged params xs ks).addKeyword func params p.name value =
      .ok (arranged params xs (ks ++ [(p.name, value)])) := by
  have hother : ∀ j q, params.positional[j]? = some q → params.posonly.length ≤ j → q.name ≠ p.name :=
    fun j q hj _ => h.ne (List.mem_of_getElem? hj) (List.mem_of_getElem? hi)
  have hnone : (indexOf? (arranged params xs ks).positional p.name).filter
      (params.posonly.length ≤ ·) = none := place_none xs _ ks hother
  have hplace : indexOf? (arranged params xs ks).keywordOnly p.name = some i :=
    (filter_zero_le _).symm.trans (place_some [] 0 ks h.kwonly hi (Nat.zero_le i))
  have hnamed : p.name ∈ params.named.map Param.name :=
    List.mem_map_of_mem (List.mem_append_right _ (List.mem_of_getElem? hi))
  have hfree : ([] : List Value).length ≤ i := Nat.zero_le i
  rw [addKeyword, hnone, hplace]
  dsimp only
  rw [show (arranged params xs ks).keywordOnly = slots params.kwonly [] 0 ks from rfl,
    fill_free func hi (Nat.zero_le i) h.kwonly hnew hfree]
  refine congrArg Except.ok ?_
  rw [arranged, arranged, slots_concat hother, unnamed_concat_of_named hnamed]

theorem addKeyword_unnamed (h : params.Distinct) (hname : name ∉ params.named.map Param.name) :
    (arranged params xs ks).addKeyword func params name value =
      if params.kwarg.isSome ∨ name ∈ params.posonly.map Param.name then
        .ok (arranged params xs (ks ++ [(name, value)]))
      else .error (.unexpectedKeyword func name) := by
  have hargs : ∀ j q, params.positional[j]? = some q → params.posonly.length ≤ j → q.name ≠ name := by
    rintro j q hj hle rfl
    exact hname (List.mem_map_of_mem (List.mem_append_left _ ((Parameters.mem_args_iff h hj).2 hle)))
  have hkwonly : ∀ j q, params.kwonly[j]? = some q → 0 ≤ j → q.name ≠ name := by
    rintro j q hj - rfl
    exact hname (List.mem_map_of_mem (List.mem_append_right _ (List.mem_of_getElem? hj)))
  -- the name has no place in either list, so both searches find nothing
  have hnone : (indexOf? (arranged params xs ks).positional name).filter
      (params.posonly.length ≤ ·) = none := place_none xs _ ks hargs
  have hnone' : indexOf? (arranged params xs ks).keywordOnly name = none :=
    (filter_zero_le _).symm.trans (place_none [] 0 ks hkwonly)
  have hrest : arranged params xs (ks ++ [(name, value)]) =
      if params.kwarg.isSome then
        { arranged params xs ks with
          extraKeywords := (arranged params xs ks).extraKeywords ++ [(name, value)] }
      else { arranged params xs ks with misnamed := (arranged params xs ks).misnamed ++ [name] } := by
    rw [arranged, slots_concat hargs, slots_concat hkwonly, unnamed_concat hname, arranged]
    split <;> simp
  rw [addKeyword, hnone, hnone', hrest]
  dsimp only
  by_cases hkwarg : params.kwarg.isSome
  · simp only [hkwarg, if_true, true_or]
  · by_cases hposonly : name ∈ params.posonly.map Param.name
    · have hany : params.posonly.any (·.name == name) = true := by simpa using hposonly
      simp [hkwarg, hany, hposonly]
    · have hany : params.posonly.any (·.name == name) = false := by simpa using hposonly
      simp [hkwarg, hany, hposonly]

end Add

/-- How keyword arguments of these names are added: none of them is for a parameter that is filled
already, and all arguments are arranged then; or one has no place. -/
def Adds (params : Parameters) (xs : List Value) (names : List String) (all : List (String × Value)) :
    Except Error Arrangement → Prop
  | .ok a => (∀ name ∈ names, ∀ p ∈ params.args, p ∈ params.positional.take xs.length → p.name ≠ name) ∧
      a = arranged params xs all
  | .error e => (∃ name ∈ names, ¬ params.Places xs.length name) ∧ ∃ m, e.kind = .typeMismatch m

theorem addKeyword_adds (xs : List Value) (func : String) (h : params.Distinct)
    (hnew : name ∉ ks.map Prod.fst) (value : Value) :
    Adds params xs [name] (ks ++ [(name, value)])
      ((arranged params xs ks).addKeyword func params name value) := by
  -- in the order in which places are tried: by position, by keyword only, in the rest
  by_cases hargs : name ∈ params.args.map Param.name
  · obtain ⟨i, p, hi, hle, rfl⟩ := Parameters.exists_place_of_name hargs
    rw [addKeyword_args func value h hi hle hnew]
    rcases Nat.lt_or_ge i xs.length with htaken | hfree
    · rw [if_pos htaken]
      refine ⟨⟨p.name, List.mem_singleton_self _, fun hplaces => ?_⟩, _, rfl⟩
      exact hplaces.once p ((Parameters.mem_args_iff h hi).2 hle)
        ((Parameters.mem_take_iff h hi _).2 htaken) rfl
    · rw [if_neg (Nat.not_lt.2 hfree)]
      refine ⟨List.forall_mem_singleton.2 fun q hq htake hname => ?_, rfl⟩
      obtain ⟨j, hj, -⟩ := Parameters.exists_place hq
      rw [Parameters.mem_take_iff h hj, Parameters.index_eq h.positional hj hi hname] at htake
      omega
  · have honce : ∀ other ∈ [name], ∀ p ∈ params.args,
        p ∈ params.positional.take xs.length → p.name ≠ other :=
      List.forall_mem_singleton.2 fun p hp _ hname => hargs (hname ▸ List.mem_map_of_mem hp)
    by_cases hkwonly : name ∈ params.kwonly.map Param.name
    · obtain ⟨p, hp, rfl⟩ := List.mem_map.1 hkwonly
      obtain ⟨i, hi⟩ := List.mem_iff_getElem?.1 hp
      rw [addKeyword_kwonly func value h hi hnew]
      exact ⟨honce, rfl⟩
    · have hunnamed : name ∉ params.named.map Param.name := by
        rw [Parameters.named, List.map_append, List.mem_append]
        exact not_or.2 ⟨hargs, hkwonly⟩
      rw [addKeyword_unnamed func value h hunnamed]
      by_cases hrest : params.kwarg.isSome ∨ name ∈ params.posonly.map Param.name
      · rw [if_pos hrest]
        exact ⟨honce, rfl⟩
      · rw [if_neg hrest]
        refine ⟨⟨name, List.mem_singleton_self _, fun hplaces => ?_⟩, _, rfl⟩
        exact hplaces.known.elim hunnamed fun hkwarg => hrest (.inl hkwarg)

/-- Adds keyword arguments one after another. -/
def addKeywords (func : String) (params : Parameters) (a : Arrangement) :
    List (String × Value) → Except Error Arrangement
  | [] => .ok a
  | (name, value) :: rest =>
    match a.addKeyword func params name value with
    | .ok a => addKeywords func params a rest
    | .error e => .error e

theorem foldlM_addKeyword (func : String) (params : Parameters) (a : Arrangement)
    (ks : List (String × Value)) :
    ks.foldlM (fun a (name, value) => a.addKeyword func params name value) a =
      addKeywords func params a ks := by
  induction ks generalizing a with
  | nil => rfl
  | cons k rest ih =>
    rw [List.foldlM_cons, addKeywords]
    dsimp only
    cases a.addKeyword func params k.1 k.2 with
    | ok a => exact ih a
    | error e => rfl

theorem addKeywords_adds (xs : List Value) (func : String) (h : params.Distinct)
    (ks rest : List (String × Value)) (hnew : ((ks ++ rest).map Prod.fst).Nodup) :
    Adds params xs (rest.map Prod.fst) (ks ++ rest)
      (addKeywords func params (arranged params xs ks) rest) := by
  -- on the keywords that are left, with those before them added already
  induction rest generalizing ks with
  | nil =>
    rw [List.append_nil]
    exact ⟨nofun, rfl⟩
  | cons k rest ih =>
    obtain ⟨name, value⟩ := k
    have hfirst : name ∉ ks.map Prod.fst := fun hmem => by
      rw [List.map_append, List.map_cons, List.nodup_append] at hnew
      exact hnew.2.2 name hmem name List.mem_cons_self rfl
    have hadd := addKeyword_adds xs func h hfirst value
    rw [addKeywords, List.map_cons]
    cases ha : (arranged params xs ks).addKeyword func params name value with
    | error e =>
      rw [ha] at hadd
      obtain ⟨⟨other, hother, hplaces⟩, he⟩ := hadd
      obtain rfl := List.mem_singleton.1 hother
      exact ⟨⟨other, List.mem_cons_self, hplaces⟩, he⟩
    | ok a =>
      rw [ha] at hadd
      obtain ⟨honce, rfl⟩ := hadd
      have hrest := ih (ks ++ [(name, value)]) (by rwa [List.append_assoc])
      rw [List.append_assoc] at hrest
      dsimp only
      cases hall : addKeywords func params (arranged params xs (ks ++ [(name, value)])) rest with
      | error e =>
        rw [hall] at hrest
        obtain ⟨⟨other, hother, hplaces⟩, he⟩ := hrest
        exact ⟨⟨other, List.mem_cons_of_mem _ hother, hplaces⟩, he⟩
      | ok a =>
        rw [hall] at hrest
        exact ⟨List.forall_mem_cons.2 ⟨honce name (List.mem_singleton_self _), hrest.1⟩, hrest.2⟩

theorem misnamed_eq_nil_iff : (arranged params xs ks).misnamed = [] ↔
    ∀ name ∈ ks.map Prod.fst, name ∈ params.named.map Param.name ∨ params.kwarg.isSome := by
  rw [arranged]
  by_cases hkwarg : params.kwarg.isSome
  · simp [hkwarg]
  · simp [hkwarg, unnamed]

theorem extra_eq_nil_iff : (arranged params xs ks).extra.isEmpty = true ↔
    xs.length ≤ params.positional.length := by
  rw [arranged, List.isEmpty_iff, List.drop_eq_nil_iff]

theorem ofArguments_of_room (func : String) {args : Arguments} (h : params.Room args.positional.length) :
    ofArguments func params args =
      match addKeywords func params (arranged params args.positional []) args.keywords with
      | .ok a => if a.misnamed.isEmpty then .ok a
          else .error (.positionalOnlyAsKeyword func a.misnamed)
      | .error e => .error e := by
  have hroom : (!(arranged params args.positional []).extra.isEmpty && params.vararg.isNone) = false := by
    rcases h with h | h
    · simp [extra_eq_nil_iff.2 h]
    · simp [Option.isNone_eq_false_iff.2 h]
  unfold ofArguments
  dsimp only
  rw [foldlM_addKeyword, ofPositional_eq, hroom]
  cases addKeywords func params (arranged params args.positional []) args.keywords <;> rfl

theorem ofArguments_of_no_room (func : String) {args : Arguments}
    (h : ¬ params.Room args.positional.length) :
    ofArguments func params args =
      .error (.tooManyPositional func params.positional.length args.positional.length) := by
  obtain ⟨hmany, hnone⟩ := not_or.1 h
  have hroom : (!(arranged params args.positional []).extra.isEmpty && params.vararg.isNone) = true := by
    have hextra : (arranged params args.positional []).extra.isEmpty = false := by
      rw [← Bool.not_eq_true, extra_eq_nil_iff]
      exact hmany
    simpa [hextra] using hnone
  unfold ofArguments
  dsimp only
  rw [ofPositional_eq, if_pos hroom]
  rfl

/-- The arguments of a call are arranged if there is room for the positional ones and a place for each
keyword argument; else the call is refused. -/
theorem ofArguments_ends (func : String) {args : Arguments} (h : params.Distinct)
    (hkeywords : (args.keywords.map Prod.fst).Nodup) :
    match ofArguments func params args with
    | .ok a => params.Room args.positional.length ∧
        (∀ name ∈ args.keywords.map Prod.fst, params.Places args.positional.length name) ∧
        a = arranged params args.positional args.keywords
    | .error e => ¬ (params.Room args.positional.length ∧
        ∀ name ∈ args.keywords.map Prod.fst, params.Places args.positional.length name) ∧
        ∃ m, e.kind = .typeMismatch m := by
  by_cases hroom : params.Room args.positional.length
  · rw [ofArguments_of_room func hroom]
    have hadds := addKeywords_adds args.positional func h [] args.keywords hkeywords
    rw [List.nil_append] at hadds
    cases hall : addKeywords func params (arranged params args.positional []) args.keywords with
    | error e =>
      rw [hall] at hadds
      obtain ⟨⟨name, hname, hplaces⟩, he⟩ := hadds
      exact ⟨fun hall => hplaces (hall.2 name hname), he⟩
    | ok a =>
      rw [hall] at hadds
      obtain ⟨honce, rfl⟩ := hadds
      dsimp only
      by_cases hknown : ∀ name ∈ args.keywords.map Prod.fst,
          name ∈ params.named.map Param.name ∨ params.kwarg.isSome
      · rw [if_pos (List.isEmpty_iff.2 (misnamed_eq_nil_iff.2 hknown))]
        exact ⟨hroom, fun name hname => ⟨honce name hname, hknown name hname⟩, rfl⟩
      · rw [if_neg fun hempty => hknown (misnamed_eq_nil_iff.1 (List.isEmpty_iff.1 hempty))]
        exact ⟨fun hall => hknown fun name hname => (hall.2 name hname).known, _, rfl⟩
  · rw [ofArguments_of_no_room func hroom]
    exact ⟨fun hall => hroom hall.1, _, rfl⟩

end Eval.Arrangement

end ScriptSandbox

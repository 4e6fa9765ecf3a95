import ScriptSandbox.Proofs.Node
import ScriptSandbox.Proofs.Pattern.Remaining
import ScriptSandbox.Proofs.Visit

/-!
# What patterns stand for

What a pattern says of a value, without the order of evaluation: `Settles` relates a pattern and a
value that it fits to the pattern without alternatives that is settled on and to what each name in
this pattern captures, parts of the value. The items that a star is for lie between those that the
patterns before it and behind it fit.

An alternative is settled on only if the alternatives before it may be skipped. With all skippable,
this says that a pattern fits a value (`Fits`); with those skippable that do not fit, it is the first
alternative that fits (`Settled`).
-/

namespace ScriptSandbox

open Eval

/-! ## Constants -/

/-- The value of a constant. -/
def Expr.constant? (e : Expr) : Option Value :=
  match e.kind with
  | .constant c => some (.ofConstant c)
  | _ => none

theorem Expr.constant?_eq_some_iff {e : Expr} {v : Value} :
    e.constant? = some v ↔ ∃ c, e.kind = .constant c ∧ .ofConstant c = v := by
  unfold Expr.constant?
  split
  · rename_i c hc
    simp [hc]
  · rename_i hne
    exact ⟨nofun, fun ⟨c, hc, _⟩ => absurd hc (hne c)⟩

theorem Eval.expr_constant (sb : Sandbox) {e : Expr} {value : Value} (he : e.constant? = some value)
    (s : RunState) :
    (∃ e', (visit sb).expr e s = .error e' s.stepped ∧ s.OutOfSteps sb 1 e'.kind) ∨
      (visit sb).expr e s = .ok value s.stepped := by
  obtain ⟨c, hc, rfl⟩ := Expr.constant?_eq_some_iff.1 he
  rcases expr_cases sb e s with h | h
  · exact .inl h
  · refine .inr (h.trans ?_)
    rw [hc]
    rfl

/-- All values and keys in a pattern are constants. -/
def Pattern.IsConstant (p : Pattern) : Prop := ∀ e ∈ p.exprs, e.constant?.isSome = true

theorem Pattern.IsConstant.of_mem {p : Pattern} : ∀ {ps : List Pattern}, p ∈ ps →
    (∀ e ∈ exprsIn ps, e.constant?.isSome = true) → p.IsConstant
  | q :: ps, hmem, h => by
    rw [exprsIn, List.forall_mem_append] at h
    rcases List.mem_cons.1 hmem with rfl | hmem
    · exact h.1
    · exact of_mem hmem h.2

/-! ## Names -/

mutual

/-- The names in a pattern that capture something, from left to right. -/
def Pattern.names : Pattern → List String
  | .value _ | .singleton _ => []
  | .sequence patterns | .or patterns => namesIn patterns
  | .mapping _ patterns rest => namesIn patterns ++ rest.toList
  | .star name | .as none name => name.toList
  | .as (some pattern) name => pattern.names ++ name.toList

def Pattern.namesIn : List Pattern → List String
  | [] => []
  | pattern :: rest => pattern.names ++ namesIn rest

end

theorem Pattern.namesIn_append (before after : List Pattern) :
    namesIn (before ++ after) = namesIn before ++ namesIn after := by
  induction before with
  | nil => rfl
  | cons p rest ih => rw [List.cons_append, namesIn, namesIn, ih, List.append_assoc]

/-- Patterns are made of the patterns in them. -/
@[elab_as_elim]
theorem Pattern.induction {P : Pattern → Prop} (value : ∀ e, P (.value e))
    (singleton : ∀ c, P (.singleton c)) (sequence : ∀ ps, (∀ p ∈ ps, P p) → P (.sequence ps))
    (mapping : ∀ keys ps rest, (∀ p ∈ ps, P p) → P (.mapping keys ps rest))
    (star : ∀ name, P (.star name)) (bare : ∀ name, P (.as none name))
    (as : ∀ p name, P p → P (.as (some p) name)) (or : ∀ ps, (∀ p ∈ ps, P p) → P (.or ps)) :
    ∀ p, P p
  | .value e => value e
  | .singleton c => singleton c
  | .sequence ps =>
    sequence ps fun p _ => Pattern.induction value singleton sequence mapping star bare as or p
  | .mapping keys ps rest =>
    mapping keys ps rest fun p _ =>
      Pattern.induction value singleton sequence mapping star bare as or p
  | .star name => star name
  | .as none name => bare name
  | .as (some p) name =>
    as p name (Pattern.induction value singleton sequence mapping star bare as or p)
  | .or ps => or ps fun p _ => Pattern.induction value singleton sequence mapping star bare as or p

/-! ## Captures -/

/-- What a name captures of a value: the value as a whole, items of it, or entries of it. -/
inductive Captured where
  | whole (value : Value)
  | items (items : List Value)
  | entries (entries : List (Value × Value))

/-- Names with what they capture. -/
abbrev Parts := List (String × Captured)

/-- What one name captures, if there is a name. -/
def Parts.of (name : Option String) (captured : Captured) : Parts := name.toList.map (·, captured)

theorem Parts.names_of (name : Option String) (captured : Captured) :
    (Parts.of name captured).map Prod.fst = name.toList := by
  cases name <;> rfl

/-- A value is what was captured; items and entries stand in a list or a dict that the first store
does not have and the second one has. -/
def Captured.Is (old new : Store) : Captured → Value → Prop
  | .whole x, v => v = x
  | .items xs, v => ∃ r, v = .list r ∧ old.lists.size ≤ r.index ∧ r.index < new.lists.size ∧
    (new.list r).toList = xs
  | .entries pairs, v => ∃ r, v = .dict r ∧ old.dicts.size ≤ r.index ∧ r.index < new.dicts.size ∧
    (new.dict r).toList = pairs

theorem Captured.Is.grown {old new new' : Store} {captured : Captured} {v : Value}
    (h : captured.Is old new v) (hnew : new.Grown new') : captured.Is old new' v := by
  cases captured with
  | whole x => exact h
  | items xs =>
    obtain ⟨r, rfl, hold, hr, hxs⟩ := h
    exact ⟨r, rfl, hold, Nat.lt_of_lt_of_le hr hnew.lists, hnew.list r hr ▸ hxs⟩
  | entries pairs =>
    obtain ⟨r, rfl, hold, hr, hpairs⟩ := h
    exact ⟨r, rfl, hold, Nat.lt_of_lt_of_le hr hnew.dicts, hnew.dict r hr ▸ hpairs⟩

/-! ## Patterns that are settled -/

mutual

/-- A pattern fits a value; the pattern with alternatives settled, and what its names capture. -/
inductive Settles (s : Store) (skips : Pattern → Value → Prop) :
    Pattern → Value → Pattern → Parts → Prop where
  | value {e : Expr} {constant x : Value} : e.constant? = some constant →
    s.equal x constant = .ok true → Settles s skips (.value e) x (.value e) []
  | singleton {c : Constant} {x : Value} : isSingleton c x = true →
    Settles s skips (.singleton c) x (.singleton c) []
  | sequence {x : Value} {items : Array Value} {patterns settled : List Pattern} {parts : Parts} :
    sequenceItems? s x = some items → SettleEach s skips patterns items.toList settled parts →
    Settles s skips (.sequence patterns) x (.sequence settled) parts
  | starred {x : Value} {items : Array Value} {leading trailing leading' trailing' : List Pattern}
    {xs middle ys : List Value} {name : Option String} {parts parts' : Parts} :
    sequenceItems? s x = some items → items.toList = xs ++ middle ++ ys →
    SettleEach s skips leading xs leading' parts → SettleEach s skips trailing ys trailing' parts' →
    Settles s skips (.sequence (leading ++ .star name :: trailing)) x
      (.sequence (leading' ++ .star name :: trailing'))
      (parts ++ parts' ++ .of name (.items middle))
  | mapping {r : DictRef} {keys keys' : List Expr} {patterns settled : List Pattern}
    {rest : Option String} {values : List Value} {parts : Parts} :
    SettleEntries s skips (s.dict r) keys patterns keys' values settled parts →
    Settles s skips (.mapping keys patterns rest) (.dict r) (.mapping keys' settled rest)
      (parts ++ .of rest (.entries ((s.dict r).unequal s values)))
  | bare {name : Option String} {x : Value} :
    Settles s skips (.as none name) x (.as none name) (.of name (.whole x))
  | as {pattern settled : Pattern} {name : Option String} {x : Value} {parts : Parts} :
    Settles s skips pattern x settled parts →
    Settles s skips (.as (some pattern) name) x (.as (some settled) name)
      (parts ++ .of name (.whole x))
  | or {before after : List Pattern} {pattern settled : Pattern} {x : Value} {parts : Parts} :
    (∀ p ∈ before, skips p x) → Settles s skips pattern x settled parts →
    Settles s skips (.or (before ++ pattern :: after)) x settled parts

/-- Patterns fit as many items, one by one. -/
inductive SettleEach (s : Store) (skips : Pattern → Value → Prop) :
    List Pattern → List Value → List Pattern → Parts → Prop where
  | nil : SettleEach s skips [] [] [] []
  | cons {pattern settled : Pattern} {patterns rest : List Pattern} {x : Value} {xs : List Value}
    {parts parts' : Parts} : Settles s skips pattern x settled parts →
    SettleEach s skips patterns xs rest parts' →
    SettleEach s skips (pattern :: patterns) (x :: xs) (settled :: rest) (parts ++ parts')

/-- Patterns fit the values under keys in a dict; the keys that have a pattern, and their values. -/
inductive SettleEntries (s : Store) (skips : Pattern → Value → Prop) :
    Dict → List Expr → List Pattern → List Expr → List Value → List Pattern → Parts → Prop where
  | done {d : Dict} {keys : List Expr} {patterns : List Pattern} : patterns = [] ∨ keys = [] →
    SettleEntries s skips d keys patterns [] [] [] []
  | entry {d : Dict} {key : Expr} {keys keys' : List Expr} {pattern settled : Pattern}
    {patterns rest : List Pattern} {value item : Value} {values : List Value}
    {parts parts' : Parts} : key.constant? = some value → d.get? value = .ok (some item) →
    Settles s skips pattern item settled parts →
    SettleEntries s skips d keys patterns keys' values rest parts' →
    SettleEntries s skips d (key :: keys) (pattern :: patterns) (key :: keys') (value :: values)
      (settled :: rest) (parts ++ parts')

end

/-- A pattern fits a value, whichever alternatives are taken. -/
def Fits (s : Store) (p : Pattern) (x : Value) : Prop :=
  ∃ settled parts, Settles s (fun _ _ => True) p x settled parts

/-- A pattern does not fit a value, whichever alternatives are taken. -/
def Unfit (s : Store) (p : Pattern) (x : Value) : Prop := ¬ Fits s p x

/-- A pattern is settled on the first alternatives that fit. -/
def Settled (s : Store) (p : Pattern) (x : Value) (settled : Pattern) (parts : Parts) : Prop :=
  Settles s (Unfit s) p x settled parts

variable {s : Store} {skips skips' : Pattern → Value → Prop}

/-! ### Fewer alternatives skipped -/

mutual

theorem Settles.mono (hskips : ∀ p x, skips p x → skips' p x) {p : Pattern} {x : Value}
    {q : Pattern} {parts : Parts} : Settles s skips p x q parts → Settles s skips' p x q parts
  | .value hconstant hequal => .value hconstant hequal
  | .singleton h => .singleton h
  | .sequence hitems h => .sequence hitems (h.mono hskips)
  | .starred hitems hparts h h' => .starred hitems hparts (h.mono hskips) (h'.mono hskips)
  | .mapping h => .mapping (h.mono hskips)
  | .bare => .bare
  | .as h => .as (h.mono hskips)
  | .or hbefore h => .or (fun p hp => hskips p _ (hbefore p hp)) (h.mono hskips)

theorem SettleEach.mono (hskips : ∀ p x, skips p x → skips' p x) {ps : List Pattern}
    {xs : List Value} {qs : List Pattern} {parts : Parts} :
    SettleEach s skips ps xs qs parts → SettleEach s skips' ps xs qs parts
  | .nil => .nil
  | .cons h hrest => .cons (h.mono hskips) (hrest.mono hskips)

theorem SettleEntries.mono (hskips : ∀ p x, skips p x → skips' p x) {d : Dict}
    {keys keys' : List Expr} {ps qs : List Pattern} {values : List Value} {parts : Parts} :
    SettleEntries s skips d keys ps keys' values qs parts →
      SettleEntries s skips' d keys ps keys' values qs parts
  | .done hend => .done hend
  | .entry hconstant hget h hrest => .entry hconstant hget (h.mono hskips) (hrest.mono hskips)

end

theorem Settled.fits {p q : Pattern} {x : Value} {parts : Parts} (h : Settled s p x q parts) :
    Fits s p x :=
  ⟨q, parts, h.mono fun _ _ _ => True.intro⟩

/-! ### Names of settled patterns -/

mutual

theorem Settles.names_perm {p : Pattern} {x : Value} {q : Pattern} {parts : Parts} :
    Settles s skips p x q parts → (parts.map Prod.fst).Perm q.names
  | .value _ _ | .singleton _ => .refl _
  | .sequence _ h => h.names_perm
  | .starred _ _ h h' => by
    simp only [List.map_append, Parts.names_of, Pattern.names, Pattern.namesIn_append,
      Pattern.namesIn]
    rw [List.append_assoc]
    exact h.names_perm.append (List.perm_append_comm.trans (h'.names_perm.append_left _))
  | .mapping h | .as h => by
    rw [List.map_append, Parts.names_of, Pattern.names]
    exact h.names_perm.append_right _
  | .bare => by
    rw [Parts.names_of, Pattern.names]
  | .or _ h => h.names_perm

theorem SettleEach.names_perm {ps : List Pattern} {xs : List Value} {qs : List Pattern}
    {parts : Parts} :
    SettleEach s skips ps xs qs parts → (parts.map Prod.fst).Perm (Pattern.namesIn qs)
  | .nil => .refl _
  | .cons h hrest => by
    rw [List.map_append]
    exact h.names_perm.append hrest.names_perm

theorem SettleEntries.names_perm {d : Dict} {keys keys' : List Expr} {ps qs : List Pattern}
    {values : List Value} {parts : Parts} : SettleEntries s skips d keys ps keys' values qs parts →
    (parts.map Prod.fst).Perm (Pattern.namesIn qs)
  | .done _ => .refl _
  | .entry _ _ h hrest => by
    rw [List.map_append]
    exact h.names_perm.append hrest.names_perm

end

theorem SettleEntries.constants {d : Dict} {keys keys' : List Expr} {ps qs : List Pattern}
    {values : List Value} {parts : Parts} : SettleEntries s skips d keys ps keys' values qs parts →
    ∀ value ∈ values, ∃ c, value = .ofConstant c
  | .done _ => nofun
  | .entry hconstant _ _ hrest => by
    obtain ⟨c, -, hc⟩ := Expr.constant?_eq_some_iff.1 hconstant
    exact List.forall_mem_cons.2 ⟨⟨c, hc.symm⟩, hrest.constants⟩

/-! ### Where the items are -/

theorem SettleEach.length_eq {ps : List Pattern} {xs : List Value} {qs : List Pattern}
    {parts : Parts} : SettleEach s skips ps xs qs parts → ps.length = xs.length
  | .nil => rfl
  | .cons _ hrest => congrArg Nat.succ hrest.length_eq

theorem SettleEach.not_isStar {ps : List Pattern} {xs : List Value} {qs : List Pattern}
    {parts : Parts} : SettleEach s skips ps xs qs parts → ∀ p ∈ ps, isStar p = false
  | .nil => nofun
  | .cons h hrest => by
    refine List.forall_mem_cons.2 ⟨?_, hrest.not_isStar⟩
    cases h <;> rfl

/-- The first star of patterns is at one place. -/
theorem first_star_unique {leading leading' trailing trailing' : List Pattern}
    {name name' : Option String} (hleading : ∀ p ∈ leading, isStar p = false)
    (hleading' : ∀ p ∈ leading', isStar p = false)
    (h : leading ++ .star name :: trailing = leading' ++ .star name' :: trailing') :
    leading = leading' ∧ name = name' ∧ trailing = trailing' := by
  have before : ∀ {leading trailing : List Pattern} {name : Option String},
      (∀ p ∈ leading, isStar p = false) →
      (leading ++ .star name :: trailing).takeWhile (!isStar ·) = leading := by
    intro leading trailing name hleading
    rw [List.takeWhile_append_of_pos fun p hp => by rw [hleading p hp]; rfl]
    simp [isStar]
  obtain rfl : leading = leading' := by rw [← before hleading, h, before hleading']
  have hrest := List.append_cancel_left h
  rw [List.cons.injEq, Pattern.star.injEq] at hrest
  exact ⟨rfl, hrest⟩

variable {q : Pattern} {x : Value} {ps : List Pattern} {items : Array Value} {parts : Parts}

theorem Settles.each_of_sequence (hps : ∀ p ∈ ps, isStar p = false)
    (hitems : sequenceItems? s x = some items) (h : Settles s skips (.sequence ps) x q parts) :
    ∃ qs, SettleEach s skips ps items.toList qs parts := by
  cases h with
  | sequence hitems' h =>
    rw [hitems] at hitems'
    cases hitems'
    exact ⟨_, h⟩
  | starred => exact absurd (hps _ (List.mem_append_right _ List.mem_cons_self)) nofun

section Starred

variable {leading trailing : List Pattern} {name : Option String}
  (hleading : ∀ p ∈ leading, isStar p = false) (hitems : sequenceItems? s x = some items)
  (h : Settles s skips (.sequence (leading ++ .star name :: trailing)) x q parts)

include hleading hitems h

theorem Settles.each_of_starred : ∃ xs middle ys, items.toList = xs ++ middle ++ ys ∧
    (∃ qs parts, SettleEach s skips leading xs qs parts) ∧
    ∃ qs parts, SettleEach s skips trailing ys qs parts := by
  generalize hps : leading ++ .star name :: trailing = ps at h
  cases h with
  | sequence _ h =>
    subst hps
    exact absurd (h.not_isStar _ (List.mem_append_right _ List.mem_cons_self)) nofun
  | starred hitems' hparts h h' =>
    obtain ⟨rfl, rfl, rfl⟩ := first_star_unique hleading h.not_isStar hps
    rw [hitems] at hitems'
    cases hitems'
    exact ⟨_, _, _, hparts, ⟨_, _, h⟩, _, _, h'⟩

theorem Settles.length_of_starred : leading.length + trailing.length ≤ items.size := by
  obtain ⟨xs, middle, ys, hparts, ⟨_, _, hxs⟩, _, _, hys⟩ := h.each_of_starred hleading hitems
  rw [← Array.length_toList, hparts, hxs.length_eq, hys.length_eq]
  simp only [List.length_append]
  omega

/-- Only one division of the items has as many as there are patterns before the star and behind it. -/
theorem Settles.parts_of_starred {xs middle ys : List Value}
    (hparts : items.toList = xs ++ middle ++ ys) (hxs : leading.length = xs.length)
    (hys : trailing.length = ys.length) :
    (∃ qs parts, SettleEach s skips leading xs qs parts) ∧
      ∃ qs parts, SettleEach s skips trailing ys qs parts := by
  obtain ⟨xs', middle', ys', hparts', ⟨_, _, hxs'⟩, _, _, hys'⟩ := h.each_of_starred hleading hitems
  rw [hparts] at hparts'
  obtain ⟨hfront, rfl⟩ := List.append_inj' hparts' (hys.symm.trans hys'.length_eq)
  obtain ⟨rfl, -⟩ := List.append_inj hfront (hxs.symm.trans hxs'.length_eq)
  exact ⟨⟨_, _, hxs'⟩, _, _, hys'⟩

end Starred

end ScriptSandbox

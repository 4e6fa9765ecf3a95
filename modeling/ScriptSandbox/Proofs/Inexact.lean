import ScriptSandbox.Proofs.Keys

/-!
# Equal values and their keys

Equal values share a key but for one case: integers are rounded before they are compared with
doubles, so a double is equal to integers that it is not, and of these only the one that it is has its
key. Two values that are equal have different keys exactly if at some place an integer stands in the
one and a double that is another number in the other (`key_eq_iff_of_equal`).
-/

namespace ScriptSandbox

/-- An integer and a double that is another number. -/
def Number.Inexact : Number → Number → Prop
  | .int n, .float x => ¬ x.IsInt n.toInt
  | .float x, .int n => ¬ x.IsInt n.toInt
  | _, _ => False

namespace Value

/-- Somewhere in two values an integer stands opposite a double that is another number. -/
inductive Inexact : Value → Value → Prop where
  | number {a b : Value} {x y : Number} : a.toNumber? = some x → b.toNumber? = some y →
    x.Inexact y → Inexact a b
  | tuple {i j : Nat} {xs ys : Array Value} {p : Value × Value} :
    p ∈ xs.toList.zip ys.toList → Inexact p.1 p.2 → Inexact (.tuple i xs) (.tuple j ys)

/-- Where tuples in two values have one number, they are one tuple. -/
def Coherent (a b : Value) : Prop :=
  ∀ id xs ys, Part (.tuple id xs) a → Part (.tuple id ys) b → xs = ys

theorem Coherent.item {i j : Nat} {xs ys : Array Value} (h : Coherent (.tuple i xs) (.tuple j ys))
    {a b : Value} (ha : a ∈ xs) (hb : b ∈ ys) : a.Coherent b :=
  fun id zs ws hzs hws => h id zs ws (.item ha hzs) (.item hb hws)

theorem inexact_number {a b : Value} {x y : Number} (ha : a.toNumber? = some x)
    (hb : b.toNumber? = some y) : a.Inexact b ↔ x.Inexact y := by
  refine ⟨fun h => ?_, .number ha hb⟩
  cases h with
  | number ha' hb' h =>
    rw [ha] at ha'
    rw [hb] at hb'
    cases ha'
    cases hb'
    exact h
  | tuple => cases ha

theorem inexact_tuple {i j : Nat} {xs ys : Array Value} :
    Inexact (.tuple i xs) (.tuple j ys) ↔ ∃ p ∈ xs.toList.zip ys.toList, Inexact p.1 p.2 := by
  constructor
  · intro h
    cases h with
    | number ha => cases ha
    | tuple hp h => exact ⟨_, hp, h⟩
  · rintro ⟨p, hp, h⟩
    exact .tuple hp h

theorem not_inexact_self (a : Value) : ¬ a.Inexact a := by
  suffices ∀ b, a.Inexact b → a ≠ b from fun h => this a h rfl
  intro b h
  induction h with
  | @number a b x y ha hb h =>
    rintro rfl
    rw [ha] at hb
    cases hb
    cases x <;> exact h
  | tuple hp _ ih =>
    rintro heq
    obtain ⟨-, rfl⟩ := Value.tuple.inj heq
    obtain ⟨i, hi, rfl⟩ := List.mem_iff_getElem.1 hp
    exact ih (by simp)

end Value

/-! ## Equal numbers -/

/-- Equal numbers share a key unless one was rounded to the other. -/
theorem Number.key_eq_iff {x y : Number} (h : x.equal y = true) :
    x.key = y.key ↔ ¬ x.Inexact y := by
  cases x with
  | int m =>
    cases y with
    | int n =>
      obtain rfl : m = n := beq_iff_eq.1 h
      exact iff_of_true rfl id
    | float y =>
      rw [Inexact, Classical.not_not, ← Key.ofFloat_eq_int_iff, eq_comm]
      rfl
  | float x =>
    cases y with
    | int n =>
      rw [Inexact, Classical.not_not, ← Key.ofFloat_eq_int_iff]
      rfl
    | float y =>
      refine iff_of_true ?_ id
      rcases Binary64.eq_of_equal h with rfl | ⟨hx, hy⟩
      · rfl
      · exact (Key.ofFloat_zero hx).trans (Key.ofFloat_zero hy).symm

/-! ## Equal values -/

namespace Store

variable {s : Store} {a b : Value} {k l : Key}

/-- Equal values with keys are both numbers, both tuples, or the same. -/
theorem equalWithin_true_cases {levels : Nat} (ha : Key.ofValue a = .ok k)
    (h : s.equalWithin (levels + 1) a b = .ok true) :
    (∃ x y, a.toNumber? = some x ∧ b.toNumber? = some y ∧ x.equal y = true) ∨
    (∃ i xs j ys, a = .tuple i xs ∧ b = .tuple j ys) ∨ a = b := by
  cases a with
  | null =>
    cases b with
    | null => exact .inr (.inr rfl)
    | _ => cases h
  | str t =>
    cases b with
    | str u => exact .inr (.inr (congrArg _ (beq_iff_eq.1 (Except.ok.inj h))))
    | _ => cases h
  | tuple i xs =>
    cases b with
    | tuple j ys => exact .inr (.inl ⟨i, xs, j, ys, rfl, rfl⟩)
    | _ => cases h
  | bool _ | int _ | float _ =>
    cases b with
    | bool _ | int _ | float _ => exact .inl ⟨_, _, rfl, rfl, Except.ok.inj h⟩
    | _ => cases h
  | _ => cases ha

/-- Tuples share a key if their items do. -/
theorem keys_eq_iff {xs ys : List Value} {ks ls : List Key}
    (hxs : List.Forall₂ (fun v k => Key.ofValue v = .ok k) xs ks)
    (hys : List.Forall₂ (fun v k => Key.ofValue v = .ok k) ys ls) (hlength : xs.length = ys.length)
    (h : ∀ p ∈ xs.zip ys, ∀ k l, Key.ofValue p.1 = .ok k → Key.ofValue p.2 = .ok l →
      (k = l ↔ ¬ p.1.Inexact p.2)) :
    ks = ls ↔ ∀ p ∈ xs.zip ys, ¬ p.1.Inexact p.2 := by
  induction hxs generalizing ys ls with
  | nil =>
    cases hys with
    | nil => simp
    | cons => cases hlength
  | cons hx _ ih =>
    cases hys with
    | nil => cases hlength
    | cons hy hrest =>
      rw [List.zip_cons_cons, List.forall_mem_cons] at h ⊢
      rw [List.cons.injEq, h.1 _ _ hx hy, ih hrest (Nat.succ.inj hlength) h.2]

theorem key_eq_iff {levels : Nat} (hcoherent : a.Coherent b) (ha : Key.ofValue a = .ok k)
    (hb : Key.ofValue b = .ok l) (h : s.equalWithin levels a b = .ok true) :
    k = l ↔ ¬ a.Inexact b := by
  induction levels generalizing a b k l with
  | zero => cases h
  | succ levels ih =>
    -- values with keys are equal as numbers, as tuples or as the same value
    rcases equalWithin_true_cases ha h with ⟨x, y, hx, hy, hxy⟩ | ⟨i, xs, j, ys, rfl, rfl⟩ | rfl
    · rw [Key.ofValue_number hx] at ha
      rw [Key.ofValue_number hy] at hb
      cases ha
      cases hb
      rw [Number.key_eq_iff hxy, Value.inexact_number hx hy]
    · obtain ⟨ks, rfl, hks⟩ := Key.ofValue_tuple.1 ha
      obtain ⟨ls, rfl, hls⟩ := Key.ofValue_tuple.1 hb
      by_cases hij : i = j
      · subst hij
        obtain rfl := hcoherent i xs ys .refl .refl
        rw [ha] at hb
        cases hb
        exact iff_of_true rfl (Value.not_inexact_self _)
      · replace h : sequencesEqual (s.equalWithin levels) xs ys = .ok true := by
          rw [← h]
          exact (if_neg hij).symm
        obtain ⟨hsize, hitems⟩ := sequencesEqual_eq_true_iff.1 h
        have hkeys := keys_eq_iff hks hls (by simpa using hsize) fun p hp k l hk hl => by
          obtain ⟨hxs, hys⟩ := List.of_mem_zip hp
          exact ih (hcoherent.item (Array.mem_toList_iff.1 hxs) (Array.mem_toList_iff.1 hys)) hk hl
            (hitems p hp)
        rw [Key.tuple.injEq, Value.inexact_tuple, hkeys]
        simp only [not_exists, not_and]
    · rw [ha] at hb
      cases hb
      exact iff_of_true rfl (Value.not_inexact_self _)

end Store

/-- No two entries of a table were stored with values that are equal, but for rounding. -/
theorem Table.pairwise_inexact {α : Type} {t : Table α} (stored : α → Value)
    (hfiled : ∀ e ∈ t.toList, Key.ofValue (stored e.2) = .ok e.1) (s : Store) :
    (t.toList.map fun e => stored e.2).Pairwise fun a b =>
      a.Coherent b → s.equal a b = .ok true → a.Inexact b := by
  have hkeys := t.nodup_keyList
  rw [keyList, List.Nodup, List.pairwise_map] at hkeys
  rw [List.pairwise_map]
  refine hkeys.imp_of_mem fun he he' hne hcoherent hequal => ?_
  have hiff := Store.key_eq_iff hcoherent (hfiled _ he) (hfiled _ he') hequal
  exact Classical.not_not.1 fun h => hne (hiff.2 h)

/-- Values that are equal share a key, unless somewhere in them an integer was rounded to a double
that is another number; then they have different keys, and a set of the one does not hold the other.
So two keys of a dict, or two elements of a set, are equal only with such a place in them. -/
theorem key_eq_iff_of_equal (s : Store) :
    (∀ a b k l, a.Coherent b → Key.ofValue a = .ok k → Key.ofValue b = .ok l →
      s.equal a b = .ok true → (k = l ↔ ¬ a.Inexact b) ∧
        ∃ t, KeySet.ofList [a] = .ok t ∧ (t.contains b = .ok true ↔ ¬ a.Inexact b)) ∧
    (∀ d : Dict, d.Made → d.keys.Pairwise fun a b =>
      a.Coherent b → s.equal a b = .ok true → a.Inexact b) ∧
    (∀ t : KeySet, t.Made → t.toList.Pairwise fun a b =>
      a.Coherent b → s.equal a b = .ok true → a.Inexact b) := by
  refine ⟨fun a b k l hcoherent ha hb hequal => ?_, fun d hd => ?_, fun t ht => ?_⟩
  · have hiff := Store.key_eq_iff hcoherent ha hb hequal
    refine ⟨hiff, _, KeySet.ofList_singleton ha, ?_⟩
    rw [← hiff, KeySet.contains_singleton ha, hb, Except.ok.injEq, eq_comm]
  · rw [Dict.keys, Dict.toList, List.map_map]
    exact Table.pairwise_inexact Prod.fst (fun e he => hd.filed he) s
  · exact Table.pairwise_inexact id (fun e he => ht.filed he) s

/-- The integer after two to the fifty-third is equal to this power as a double, but does not share
its key; one and the double one share theirs. -/
theorem afterPower_inexact :
    (Store.empty.equal (.int 9007199254740993) (.float ⟨0x4340000000000000⟩) = .ok true ∧
      ∃ t, KeySet.ofList [.int 9007199254740993] = .ok t ∧
        t.contains (.float ⟨0x4340000000000000⟩) ≠ .ok true) ∧
    Store.empty.equal (.int 1) (.float .one) = .ok true ∧
      ∃ t, KeySet.ofList [.int 1] = .ok t ∧ t.contains (.float .one) = .ok true := by
  have hcoherent : ∀ n x, (Value.int n).Coherent (.float x) := fun _ _ _ _ _ h => nomatch h
  have hpower :
      Store.empty.equal (.int 9007199254740993) (.float ⟨0x4340000000000000⟩) = .ok true := rfl
  have hone : Store.empty.equal (.int 1) (.float .one) = .ok true := rfl
  obtain ⟨hkeys, -⟩ := key_eq_iff_of_equal .empty
  obtain ⟨-, t, ht, hcontains⟩ := hkeys _ _ _ _ (hcoherent _ _) rfl rfl hpower
  obtain ⟨-, t', ht', hcontains'⟩ := hkeys _ _ _ _ (hcoherent _ _) rfl rfl hone
  refine ⟨⟨hpower, t, ht, fun h => hcontains.1 h (.number rfl rfl fun h => ?_)⟩, hone, t', ht',
    hcontains'.2 fun h => (Value.inexact_number rfl rfl).1 h ⟨rfl, rfl⟩⟩
  exact absurd h.2 (by decide)

end ScriptSandbox

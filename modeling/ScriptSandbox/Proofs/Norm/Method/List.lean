import ScriptSandbox.Method.List
import ScriptSandbox.Proofs.Norm.Comparison
import ScriptSandbox.Proofs.Norm.Items
import ScriptSandbox.Proofs.Norm.Store

/-!
# Norms: methods of lists

Room is checked for before a list grows, so every method that changes its list keeps the store.
-/

namespace ScriptSandbox.Norm.ListMethod

variable {l : Limits} {N : Norm l} {s : Store}

open ScriptSandbox.ListMethod

variable {r : ListRef} {value : Value}

theorem checkGrowth_then {α : Type} {P : α → Prop} {m : StoreM α} (extra : Nat)
    (h : ∀ s, N.Kept s → N.fits ((s.list r).size + extra) → N.SoundAt P m s) :
    N.Sound P (do checkGrowth l.size r extra; m) := fun s hs =>
  SoundAt.look hs (checkContainer _) fun _ hfits => h s hs hfits

theorem runAppend (h : N.good value) : N.Sound N.good (runAppend l.size r value) := by
  refine checkGrowth_then 1 fun s hs hfits => SoundAt.changed (hs.modifyList ⟨?_, fun x hx => ?_⟩)
    good_null
  · rw [Array.size_push]
    exact hfits
  · rcases Array.mem_push.1 hx with hx | rfl
    · exact hs.list r x hx
    · exact h

theorem runExtend (h : N.good value) : N.Sound N.good (runExtend l.size r value) := by
  refine (Sound.ofExcept (checkIterable value)).bind fun _ _ => ?_
  refine (Sound.look fun s hs => iterate hs h).bind fun items hitems => ?_
  refine checkGrowth_then _ fun s hs hfits => SoundAt.changed (hs.modifyList ⟨?_, fun x hx => ?_⟩)
    good_null
  · rw [Array.size_append]
    exact hfits
  · rcases Array.mem_append.1 hx with hx | hx
    · exact hs.list r x hx
    · exact hitems x hx

theorem runInsert (index : Int64) (h : N.good value) :
    N.Sound N.good (runInsert l.size r index value) := by
  refine checkGrowth_then 1 fun s hs hfits => SoundAt.changed (hs.modifyList ⟨?_, fun x hx => ?_⟩)
    good_null
  · refine N.fits_mono ?_ hfits
    unfold Array.insertIdxIfInBounds
    split
    · exact Nat.le_of_eq (Array.size_insertIdx _)
    · omega
  · unfold Array.insertIdxIfInBounds at hx
    split at hx
    · rcases Array.mem_insertIdx.1 hx with rfl | hx
      · exact h
      · exact hs.list r x hx
    · exact hs.list r x hx

theorem goodList_erase {items : Array Value} (h : N.GoodList items) (i : Nat) :
    N.GoodList (items.eraseIdxIfInBounds i) := by
  unfold Array.eraseIdxIfInBounds
  split
  · refine ⟨N.fits_mono ?_ h.1, fun x hx => h.2 x (Array.mem_of_mem_eraseIdx hx)⟩
    rw [Array.size_eraseIdx]
    omega
  · exact h

/-- Once its position is known, the item to take is taken out. -/
theorem takeItem (r : ListRef) (position : Option Nat) :
    N.Sound N.good (do
      match position with
      | none => throw (.outOfRange "pop")
      | some i =>
        let item := ((← get).list r)[i]?.getD .null
        modify (·.modifyList r (·.eraseIdxIfInBounds i))
        pure item) := by
  cases position with
  | none => exact Sound.plain rfl
  | some i =>
    refine Sound.get.bind fun s hs => ?_
    refine Sound.bind (Sound.change fun s hs => hs.modifyList (goodList_erase (hs.goodList r) i))
      fun _ _ => Sound.pure ?_
    cases hx : (s.list r)[i]? with
    | none => exact good_null
    | some x => exact hs.list r x (Array.mem_of_getElem? hx)

theorem runPop (func : String) (r : ListRef) (index : Option Value) :
    N.Sound N.good (runPop func r index) := by
  refine Sound.get.bind fun s _ => ?_
  dsimp only
  split
  · exact Sound.plain rfl
  cases index with
  | none => exact takeItem r (Subscript.position? (-1) (s.list r).size)
  | some index =>
    exact (Sound.ofExcept (intOf func index)).bind fun index _ =>
      takeItem r (Subscript.position? index (s.list r).size)

theorem runRemove (r : ListRef) (value : Value) : N.Sound N.good (runRemove r value) := by
  refine (Sound.look fun s _ => position? _ value).bind fun found _ => ?_
  split
  · exact Sound.plain rfl
  · rename_i i
    exact fun s hs => SoundAt.changed (hs.modifyList (goodList_erase (hs.goodList r) i)) good_null

theorem runIndex (r : ListRef) (value : Value) : N.Sound N.good (runIndex r value) := by
  refine (Sound.look fun s _ => position? _ value).bind fun found _ => ?_
  split
  · exact Sound.get.bind fun _ _ => Sound.plain rfl
  · exact Sound.pure (good_int _)

theorem countEqual (value : Value) : ∀ (items : List Value) (found : Nat),
    N.Holds (fun _ => True) (countEqual s value found items)
  | [], _ => True.intro
  | item :: rest, found => by
    have he := equal (N := N) (s := s) item value
    rw [ScriptSandbox.ListMethod.countEqual]
    split
    · exact countEqual value rest _
    · rename_i e h
      rw [h] at he
      exact he

theorem runSort (r : ListRef) (descending : Bool) : N.Sound N.good (runSort r descending) := by
  refine fun s hs => SoundAt.look hs (sort _ _) fun sorted h => ?_
  refine SoundAt.changed (hs.setList r ⟨?_, fun x hx => ?_⟩) good_null
  · rw [List.size_toArray, h.length_eq]
    exact hs.listFits r
  · exact hs.list r x (by simpa using h.mem_iff.1 (List.mem_toArray.1 hx))

theorem run (m : ListMethod) (r : ListRef) {args : List Value} (h : ∀ x ∈ args, N.good x) :
    N.Sound N.good (m.run l.size r args) := by
  unfold ScriptSandbox.ListMethod.run
  split
  · exact runAppend (h _ (by simp))
  · exact runExtend (h _ (by simp))
  · exact (Sound.ofExcept (intOf _ _)).bind fun _ _ => runInsert _ (h _ (by simp))
  · exact runPop _ r none
  · exact runPop _ r (some _)
  · exact runRemove r _
  · refine fun s hs => SoundAt.changed (hs.setList r ⟨N.fits_zero, fun x hx => ?_⟩) good_null
    exact absurd hx (Array.not_mem_empty x)
  · exact runIndex r _
  · exact (Sound.look fun s _ => countEqual _ _ 0).bind fun _ _ => Sound.pure (good_int _)
  · exact Sound.get.bind fun s hs => Sound.newList (hs.goodList r)
  · refine fun s hs => SoundAt.changed (hs.modifyList ⟨?_, fun x hx => ?_⟩) good_null
    · rw [Array.size_reverse]
      exact hs.listFits r
    · exact hs.list r x (Array.mem_reverse.1 hx)
  · exact Sound.plain rfl

theorem call (m : ListMethod) (r : ListRef) {args : Arguments} (h : N.GoodArgs args) :
    N.Sound N.good (m.call l.size r args) := by
  unfold ScriptSandbox.ListMethod.call
  split
  · refine (Sound.ofExcept (expectNoKeywords _ _)).bind fun _ _ => ?_
    split
    · exact Sound.get.bind fun _ _ => runSort r _
    · exact Sound.plain rfl
  · refine (Sound.ofExcept (expectNoKeywords _ _)).bind fun _ _ => ?_
    exact run m r h.positional

end ScriptSandbox.Norm.ListMethod

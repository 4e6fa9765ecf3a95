import ScriptSandbox.Builtin.Conversion
import ScriptSandbox.Proofs.Norm.Method.Table
import ScriptSandbox.Proofs.Norm.Render

/-!
# Norms: conversions of the preset

A function that makes a container reads its items within the quota first, and a dict is held against
it before it is stored.
-/

namespace ScriptSandbox.Norm.Builtin

open ScriptSandbox.Builtin

variable {l : Limits} {N : Norm l} {s : Store} {args : Arguments}

theorem good_bool (b : Bool) : N.good (.bool b) := N.good_data _ rfl

theorem good_float (x : Binary64) : N.good (.float x) := N.good_data _ rfl

theorem good_head? {values : List Value} (h : ∀ x ∈ values, N.good x) :
    ∀ v ∈ values.head?, N.good v := fun v hv => h v (List.mem_of_head? hv)

theorem good_headD {values : List Value} (h : ∀ x ∈ values, N.good x) :
    N.good (values.headD .null) := by
  cases values with
  | nil => exact good_null
  | cons v rest => exact h v (by simp)

/-! ## Conversions -/

theorem collect {source : Value} (hs : N.Kept s) (h : N.good source) :
    N.Holds N.GoodList (collect l.size s source) := by
  refine (checkIterable source).bind fun _ _ => (iterate hs h).bind fun items hitems => ?_
  exact (checkContainer _).bind fun _ hfits => Holds.ok ⟨hfits, hitems⟩

theorem cutToInt (x : Binary64) : N.Holds N.good (cutToInt x) := by
  unfold ScriptSandbox.Builtin.cutToInt
  refine .ite (Holds.plain rfl) (.ite (Holds.plain rfl) ?_)
  split
  · exact good_int _
  · exact Holds.plain rfl

theorem toInt (value : Value) : N.Holds N.good (toInt s value) := by
  unfold ScriptSandbox.Builtin.toInt
  split
  · exact cutToInt _
  · split
    · exact good_int _
    · exact Holds.plain rfl
  · split
    · exact good_int _
    · exact Holds.plain rfl

theorem toFloat (value : Value) : N.Holds N.good (toFloat s value) := by
  unfold ScriptSandbox.Builtin.toFloat
  split
  · split
    · exact good_float _
    · exact Holds.plain rfl
  · split
    · exact good_float _
    · exact Holds.plain rfl

theorem callInt (args : Arguments) : N.Holds N.good (callInt s args) := by
  refine (expectPositional _ _ _ _).bind fun _ _ => ?_
  split
  · exact good_int _
  · exact toInt _

theorem callFloat (args : Arguments) : N.Holds N.good (callFloat s args) := by
  refine (expectPositional _ _ _ _).bind fun _ _ => ?_
  split
  · exact good_float _
  · exact toFloat _

theorem callStr (args : Arguments) : N.Holds N.good (callStr l.size s args) := by
  refine (expectPositional _ _ _ _).bind fun _ _ => ?_
  split
  · exact good_str _
  · exact good_str _
  · exact (text N.errs_string _).map fun _ _ => good_str _

theorem callBool (args : Arguments) : N.Holds N.good (callBool s args) :=
  (expectPositional _ _ _ _).bind fun _ _ => Holds.ok (good_bool _)

theorem goodList_empty : N.GoodList #[] :=
  ⟨N.fits_zero, fun x hx => absurd hx (Array.not_mem_empty x)⟩

theorem collectOptional (func : String) (hs : N.Kept s) (h : N.GoodArgs args) :
    N.Holds N.GoodList (collectOptional func l.size s args) := by
  refine (expectPositional _ _ _ _).bind fun _ _ => ?_
  split
  · exact goodList_empty
  · rename_i source hsource
    exact collect hs (good_head? h.positional source hsource)

theorem callList (h : N.GoodArgs args) : N.Sound N.good (callList l.size args) :=
  (Sound.look fun _ hs => collectOptional _ hs h).bind fun _ hitems => Sound.newList hitems

theorem callTuple (h : N.GoodArgs args) : N.Sound N.good (callTuple l.size args) := by
  refine (Sound.ofExcept (expectPositional _ _ _ _)).bind fun _ _ => ?_
  split
  · rename_i hargs
    exact Sound.pure (h.positional _ (by rw [hargs]; simp))
  · exact (Sound.look fun _ hs => collectOptional _ hs h).bind fun _ hitems => Sound.newTuple hitems

theorem callSet (h : N.GoodArgs args) : N.Sound N.good (callSet l.size args) := by
  refine (Sound.look fun _ hs => collectOptional _ hs h).bind fun items hitems => ?_
  refine (Sound.ofExcept (goodSet_ofList fun x hx => hitems.2 x (by simpa using hx))).bind
    fun set hset => Sound.newSet ⟨N.fits_mono hset.2 ?_, hset.1⟩
  rw [Array.length_toList]
  exact hitems.1

theorem newDictOf {entries : List (Value × Value)} (h : ∀ p ∈ entries, N.good p.1 ∧ N.good p.2)
    {named : List (String × Value)} (hnamed : ∀ entry ∈ named, N.good entry.2) :
    N.Sound N.good (do
      let d ← Dict.ofPairs entries
      let d ← d.insertAll (named.map fun (name, value) => (.str name, value))
      l.size.checkContainer d.size
      StoreM.newDict d) := by
  refine (Sound.ofExcept (goodDict_ofPairs h)).bind fun d hd => ?_
  refine (Sound.ofExcept (hd.1.insertAll (good_namedPairs hnamed))).bind fun d hd => ?_
  exact (Sound.ofExcept (checkContainer _)).bind fun _ hfits => Sound.newDict ⟨hfits, hd.1⟩

theorem callDict (h : N.GoodArgs args) : N.Sound N.good (callDict l.size args) := by
  refine (Sound.ofExcept (expect _ _ _ _)).bind fun _ _ => ?_
  split
  · exact newDictOf (fun p (hp : p ∈ []) => absurd hp List.not_mem_nil) h.keywords
  · rename_i source hsource
    refine (Sound.look fun s hs => pairs hs ?_).bind fun entries hentries =>
      newDictOf hentries h.keywords
    exact good_head? h.positional source hsource

theorem callAbs (args : Arguments) : N.Holds N.good (callAbs args) := by
  refine (expectPositional _ _ _ _).bind fun _ _ => ?_
  split
  · exact good_float _
  · split
    · exact Holds.plain rfl
    · split
      · exact good_int _
      · exact Holds.plain rfl

theorem roundValue (value : Value) (places : Option Int64) :
    N.Holds N.good (roundValue value places) := by
  unfold ScriptSandbox.Builtin.roundValue
  split
  · exact cutToInt _
  · exact good_float _
  · split
    · exact Holds.plain rfl
    · exact good_int _
    · refine .ite ?_ (good_int _)
      split
      · exact good_int _
      · exact Holds.plain rfl

theorem callRound (args : Arguments) : N.Holds N.good (callRound args) := by
  refine (expect _ _ _ _).bind fun _ _ => ?_
  dsimp only
  refine (expectNoKeywords _ _).bind fun _ _ => ?_
  split
  · exact roundValue _ none
  · refine Holds.bind (P := fun _ => True) ?_ fun places _ => roundValue _ places
    exact (intOf _ _).map fun _ _ => True.intro

end ScriptSandbox.Norm.Builtin

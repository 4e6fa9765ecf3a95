import ScriptSandbox.Method.Dict
import ScriptSandbox.Method.Set
import ScriptSandbox.Proofs.Norm.Items
import ScriptSandbox.Proofs.Norm.Store

/-!
# Norms: methods of dicts and sets

An update holds its receiver against the quota only once it has grown, so in between the store is not
kept. That is no loss: a breach ends the run, and so does a key that cannot be stored.
-/

namespace ScriptSandbox.Norm

variable {l : Limits} {N : Norm l} {s : Store}

/-! ## Pairs in values -/

theorem pairAt (position : Nat) {item : Value} (hs : N.Kept s) (h : N.good item) :
    N.Holds (fun p => N.good p.1 ∧ N.good p.2) (s.pairAt position item) := by
  unfold Store.pairAt
  refine (iterate hs h).bind fun parts hparts => ?_
  split
  · rename_i key value hsize htake
    have h0 := hparts.item 0
    have h1 := hparts.item 1
    rw [Items.take, hsize] at htake
    simp only [Nat.min_self, List.range_succ, List.range_zero, List.nil_append,
      List.map_cons, List.map_nil, List.cons_append, List.cons.injEq, and_true] at htake
    rw [← htake.1, ← htake.2]
    exact ⟨h0, h1⟩
  · exact Holds.plain rfl

theorem pairsFrom (hs : N.Kept s) : ∀ {items : List Value} (position : Nat)
    {found : List (Value × Value)}, (∀ x ∈ items, N.good x) →
    (∀ p ∈ found, N.good p.1 ∧ N.good p.2) →
    N.Holds (fun pairs => ∀ p ∈ pairs, N.good p.1 ∧ N.good p.2) (s.pairsFrom position found items)
  | [], _, _, _, hfound => fun p hp => hfound p (List.mem_reverse.1 hp)
  | item :: rest, position, found, hitems, hfound => by
    have hpair := pairAt position hs (hitems item (by simp))
    rw [Store.pairsFrom]
    split
    · rename_i pair h
      rw [h] at hpair
      refine pairsFrom hs _ (fun x hx => hitems x (by simp [hx])) fun p hp => ?_
      rcases List.mem_cons.1 hp with rfl | hp
      · exact hpair
      · exact hfound p hp
    · rename_i e h
      rw [h] at hpair
      exact hpair

theorem pairs {source : Value} (hs : N.Kept s) (h : N.good source) :
    N.Holds (fun pairs => ∀ p ∈ pairs, N.good p.1 ∧ N.good p.2) (s.pairs source) := by
  unfold Store.pairs
  split
  · exact hs.dict _
  · refine pairsFrom hs 0 (fun x hx => ?_) (by simp)
    obtain ⟨i, -, rfl⟩ := List.mem_map.1 hx
    exact (goodItems_range _).item i
  · refine (iterate hs h).bind fun items hitems => pairsFrom hs 0 (fun x hx => ?_) (by simp)
    exact hitems x (by simpa [Items.toList] using hx)

/-! ## Dicts -/

namespace DictMethod

open ScriptSandbox.DictMethod

variable {r : DictRef}

/-- A dict changes by good pairs and stays as good as it was. -/
def Extends (N : Norm l) (f : Dict → Dict) (n : Nat) : Prop :=
  ∀ d, N.GoodDict d → N.GoodDict (f d) ∧ (f d).size ≤ d.size + n

theorem modifyDict_modifyDict (s : Store) (r : DictRef) (f g : Dict → Dict) :
    (s.modifyDict r f).modifyDict r g = s.modifyDict r (g ∘ f) := by
  have twice : (s.dicts.modify r.index f).modify r.index g = s.dicts.modify r.index (g ∘ f) := by
    apply Array.ext_getElem?
    intro i
    simp only [Array.getElem?_modify]
    split <;> simp [Option.map_map]
  simp only [Store.modifyDict, twice]

/-- Storing pairs changes the dict by them or ends the run. -/
theorem insertPairs_cases : ∀ {pairs : List (Value × Value)} (s : Store),
    (∀ p ∈ pairs, N.good p.1 ∧ N.good p.2) →
    (∃ f, Extends N f pairs.length ∧ insertPairs r pairs s = .ok () (s.modifyDict r f)) ∨
      ∃ w s', insertPairs r pairs s = .error (.unhashable w) s'
  | [], s, _ => by
    refine .inl ⟨id, fun d hd => ⟨hd, Nat.le_refl _⟩, ?_⟩
    have same : s.dicts.modify r.index id = s.dicts := by
      apply Array.ext_getElem?
      intro i
      simp [Array.getElem?_modify]
    simp only [Store.modifyDict, same]
    rfl
  | (key, value) :: rest, s, h => by
    have hkv := h (key, value) (by simp)
    cases hk : Key.ofValue key with
    | error e =>
      obtain ⟨w, rfl⟩ := key_error hk
      refine .inr ⟨w, s, ?_⟩
      rw [insertPairs, hk]
      rfl
    | ok k =>
      have step : insertPairs r ((key, value) :: rest) s =
          insertPairs r rest (s.modifyDict r (·.insertByKey k key value)) := by
        rw [insertPairs, hk]
        rfl
      rw [step]
      -- the other pairs go into the dict that has the first one
      rcases insertPairs_cases (s.modifyDict r (·.insertByKey k key value))
        (fun p (hp : p ∈ rest) => h p (by simp [hp])) with ⟨f, hf, hrun⟩ | hfail
      · refine .inl ⟨f ∘ (·.insertByKey k key value), fun d hd => ?_, ?_⟩
        · obtain ⟨hgood, hsize⟩ := hf (d.insertByKey k key value) (hd.insertByKey hkv.1 hkv.2 k)
          refine ⟨hgood, Nat.le_trans hsize ?_⟩
          have : (d.insertByKey k key value).size ≤ d.size + 1 := Dict.size_insertByKey_le
          simp only [List.length_cons]
          omega
        · rw [hrun, modifyDict_modifyDict]
      · exact .inr hfail

/-- What follows pairs that were stored is sound if it is so where they could be. -/
theorem insertPairs_then {α : Type} {P : α → Prop} {m : StoreM α} {pairs : List (Value × Value)}
    (hpairs : ∀ p ∈ pairs, N.good p.1 ∧ N.good p.2)
    (h : ∀ f, Extends N f pairs.length → N.SoundAt P m (s.modifyDict r f)) :
    N.SoundAt P (insertPairs r pairs >>= fun _ => m) s := by
  have bound : (insertPairs r pairs >>= fun _ => m) s =
      match insertPairs r pairs s with
      | .ok _ s' => m s'
      | .error e s' => .error e s' := by
    show EStateM.bind (insertPairs r pairs) (fun _ => m) s = _
    unfold EStateM.bind
    cases insertPairs r pairs s <;> rfl
  unfold SoundAt
  rw [bound]
  rcases insertPairs_cases (N := N) (r := r) s hpairs with ⟨f, hf, hrun⟩ | ⟨w, s', hrun⟩
  · rw [hrun]
    exact h f hf
  · rw [hrun]
    exact ⟨N.errs_plain _ rfl, fun he => by cases he⟩

theorem insertNamed {found : List (Value × Value)} (h : ∀ p ∈ found, N.good p.1 ∧ N.good p.2)
    {keywords : List (String × Value)} (hkeywords : ∀ entry ∈ keywords, N.good entry.2) :
    N.Sound N.good (do
      insertPairs r (found ++ keywords.map fun (name, value) => (.str name, value))
      StoreM.look fun s => l.size.checkContainer (s.dict r).size
      pure .null) := by
  intro s hs
  refine insertPairs_then (fun p hp => ?_) fun f hf => ?_
  · rcases List.mem_append.1 hp with hp | hp
    · exact h p hp
    · exact good_namedPairs hkeywords p hp
  · refine SoundAt.bind (SoundAt.check fun hfits => hs.modifyDict ?_ hfits) fun _ s' _ _ hs' =>
      Sound.pure good_null s' hs'
    exact (hf _ (hs.dict r)).1

theorem runUpdate {source : Option Value} {keywords : List (String × Value)}
    (hsource : ∀ v ∈ source, N.good v) (hkeywords : ∀ entry ∈ keywords, N.good entry.2) :
    N.Sound N.good (runUpdate l.size r source keywords) := by
  unfold ScriptSandbox.DictMethod.runUpdate
  cases source with
  | none => exact insertNamed (fun p (hp : p ∈ []) => absurd hp List.not_mem_nil) hkeywords
  | some source =>
    exact (Sound.look fun s hs => pairs hs (hsource source rfl)).bind fun found h =>
      insertNamed h hkeywords

theorem find? (key : Value) :
    N.Sound (fun found => ∀ v ∈ found, N.good v) (find? r key) :=
  Sound.look fun _ hs => GoodDict.get? (hs.dict r) key

theorem runPop (key : Value) {default : Option Value} (h : ∀ v ∈ default, N.good v) :
    N.Sound N.good (runPop r key default) := by
  refine (Sound.ofExcept (key_holds key)).bind fun k _ => Sound.get.bind fun s hs => ?_
  refine Sound.bind (Sound.change fun s hs => hs.setDict ⟨?_, (GoodDict.eraseByKey (hs.dict r) k)⟩)
    fun _ _ => ?_
  · exact N.fits_mono Dict.size_eraseByKey_le (hs.dictFits r)
  split
  · rename_i value hvalue
    refine Sound.pure ?_
    cases hfound : (s.dict r).getByKey? k with
    | none =>
      rw [hfound] at hvalue
      exact h value hvalue
    | some found =>
      rw [hfound] at hvalue
      cases hvalue
      exact GoodDict.getByKey? (hs.dict r) hfound
  · exact Sound.get.bind fun _ _ => Sound.plain rfl

theorem runSetdefault {key default : Value} (hkey : N.good key) (hdefault : N.good default) :
    N.Sound N.good (runSetdefault l.size r key default) := by
  refine (find? key).bind fun found hfound => ?_
  split
  · exact Sound.pure (hfound _ rfl)
  · refine fun s hs => SoundAt.look hs (checkContainer _) fun _ hfits => ?_
    refine insertPairs_then (by simpa using ⟨hkey, hdefault⟩) fun f hf => ⟨hdefault, ?_⟩
    have := hf _ (hs.dict r)
    exact hs.setDict ⟨N.fits_mono this.2 hfits, this.1⟩

theorem run (m : DictMethod) {args : Arguments} (h : N.GoodArgs args) :
    N.Sound N.good (m.run l.size r args) := by
  obtain ⟨positional, keywords⟩ := args
  have hpos : ∀ x ∈ positional, N.good x := h.positional
  unfold ScriptSandbox.DictMethod.run
  dsimp only
  split
  · refine (find? _).bind fun found hfound => Sound.pure ?_
    cases found with
    | none => exact good_null
    | some v => exact hfound v rfl
  · refine (find? _).bind fun found hfound => Sound.pure ?_
    cases found with
    | none => exact hpos _ (by simp)
    | some v => exact hfound v rfl
  · refine Sound.get.bind fun s hs => Sound.newList ⟨?_, fun x hx => ?_⟩
    · simpa [Dict.keys, Dict.length_toList] using hs.dictFits r
    · exact good_keys (hs.dict r) x (by simpa using hx)
  · refine Sound.get.bind fun s hs => Sound.newList ⟨?_, fun x hx => ?_⟩
    · simpa [Dict.values, Dict.length_toList] using hs.dictFits r
    · exact good_values (hs.dict r) x (by simpa using hx)
  · refine Sound.get.bind fun s hs => ?_
    refine Sound.bind (Sound.mapM (Q := N.good) fun entry he => ?_) fun entries hentries => ?_
    · have := hs.dict r entry he
      exact Sound.newTuple ⟨N.fits_two, by simpa using this⟩
    · refine Sound.newList ⟨?_, fun x hx => hentries.2 x (by simpa using hx)⟩
      simpa [hentries.1, Dict.length_toList] using hs.dictFits r
  · exact runUpdate (by simp) h.keywords
  · exact runUpdate (by simpa using hpos) h.keywords
  · exact runPop _ (by simp)
  · exact runPop _ (by simpa using hpos _ (by simp))
  · exact runSetdefault (hpos _ (by simp)) good_null
  · exact runSetdefault (hpos _ (by simp)) (hpos _ (by simp))
  · exact fun s hs => SoundAt.changed (hs.setDict ⟨N.fits_zero, goodDict_empty⟩) good_null
  · exact Sound.get.bind fun s hs => Sound.newDict (hs.fitDict r)
  · exact Sound.plain rfl

theorem call (m : DictMethod) {args : Arguments} (h : N.GoodArgs args) :
    N.Sound N.good (m.call l.size r args) := by
  unfold ScriptSandbox.DictMethod.call
  split
  · exact (Sound.ofExcept (expectNoKeywords _ _)).bind fun _ _ => run m h
  · exact run m h

end DictMethod

/-! ## Sets -/

namespace SetMethod

open ScriptSandbox.SetMethod

variable {r : SetRef}

theorem asSet {source : Value} (hs : N.Kept s) (h : N.good source) :
    N.Holds N.GoodSet (asSet l.size s source) := by
  unfold ScriptSandbox.SetMethod.asSet
  split
  · exact hs.set _
  · refine (checkIterable source).bind fun _ _ => (iterate hs h).bind fun items hitems => ?_
    refine (goodSet_ofList fun x hx => ?_).mono fun _ h => h.1
    exact hitems x (by simpa [Items.toList] using hx)

theorem asSets {sources : List Value} (hs : N.Kept s) (h : ∀ x ∈ sources, N.good x) :
    N.Holds (fun sets => ∀ t ∈ sets, N.GoodSet t)
      (sources.mapM (ScriptSandbox.SetMethod.asSet l.size s)) :=
  (Holds.mapM fun x hx => asSet hs (h x hx)).mono fun _ h => h.2

/-- Every step is held against the quota, and only the last one can breach it. -/
theorem addAll : ∀ {others : List KeySet}, (∀ t ∈ others, N.GoodSet t) →
    N.Sound (fun _ => True) (addAll l.size r others)
  | [], _ => Sound.pure True.intro
  | other :: rest, h => by
    intro s hs
    have merged := GoodSet.union (hs.set r) (h other (by simp))
    refine SoundAt.after_change ?_
    refine SoundAt.bind (SoundAt.check fun hfits => hs.modifySet merged hfits) fun _ s' _ _ hs' => ?_
    exact addAll (fun t ht => h t (by simp [ht])) s' hs'

theorem algebra {operation : KeySet → KeySet → KeySet} {sources : List Value}
    (hop : ∀ {a b : KeySet}, N.GoodSet a → N.GoodSet b → N.GoodSet (operation a b))
    (h : ∀ x ∈ sources, N.good x) : N.Sound N.good (algebra operation l.size r sources) := by
  have folded : ∀ {others : List KeySet} {start : KeySet}, N.GoodSet start →
      (∀ t ∈ others, N.GoodSet t) → N.GoodSet (others.foldl operation start) := by
    intro others
    induction others with
    | nil => exact fun hstart _ => hstart
    | cons other rest ih =>
      exact fun hstart hothers => ih (hop hstart (hothers other (by simp)))
        fun t ht => hothers t (by simp [ht])
  refine Sound.bind (P := N.FitSet) (Sound.look fun s hs => ?_) fun result hresult =>
    Sound.newSet hresult
  refine (asSets hs h).bind fun others hothers => ?_
  exact (checkContainer _).bind fun _ hfits => Holds.ok ⟨hfits, folded (hs.set r) hothers⟩

theorem kept_erase (hs : N.Kept s) (r : SetRef) (k : Key) :
    N.Kept (s.modifySet r (·.eraseByKey k)) :=
  hs.setSet ⟨N.fits_mono KeySet.size_eraseByKey_le (hs.setFits r), GoodSet.eraseByKey (hs.set r) k⟩

theorem erase (r : SetRef) (value : Value) : N.Sound (fun _ => True) (erase r value) := by
  refine (Sound.ofExcept (key_holds value)).bind fun k _ => Sound.get.bind fun s _ => ?_
  exact Sound.bind (Sound.change fun s hs => kept_erase hs r k) fun _ _ => Sound.pure True.intro

theorem runPop (r : SetRef) : N.Sound N.good (runPop r) := by
  refine Sound.get.bind fun s hs => ?_
  split
  · exact Sound.plain rfl
  · rename_i k oldest hfirst
    refine Sound.bind (Sound.change fun s hs => kept_erase hs r k) fun _ _ => Sound.pure ?_
    exact hs.set r oldest (KeySet.mem_toList.2 ⟨k, Table.mem_of_first? hfirst⟩)

theorem add {value : Value} (h : N.good value) (k : Key) :
    N.Sound N.good (do
      modify (·.modifySet r (·.insertByKey k value))
      StoreM.look fun s => l.size.checkContainer (s.set r).size
      pure .null) := by
  intro s hs
  refine SoundAt.after_change ?_
  refine SoundAt.bind (SoundAt.check fun hfits => ?_) fun _ s' _ _ hs' => Sound.pure good_null s' hs'
  exact hs.modifySet (GoodSet.insertByKey (hs.set r) h k) hfits

theorem run (m : SetMethod) {args : List Value} (h : ∀ x ∈ args, N.good x) :
    N.Sound N.good (m.run l.size r args) := by
  unfold ScriptSandbox.SetMethod.run
  split
  · exact (Sound.ofExcept (key_holds _)).bind fun k _ => add (h _ (by simp)) k
  · refine (Sound.look fun s hs => asSets hs h).bind fun others hothers => ?_
    exact (addAll hothers).bind fun _ _ => Sound.pure good_null
  · exact (erase r _).bind fun _ _ => Sound.pure good_null
  · refine (erase r _).bind fun present _ => ?_
    split
    · exact Sound.pure good_null
    · exact Sound.get.bind fun _ _ => Sound.plain rfl
  · exact runPop r
  · exact fun s hs => SoundAt.changed (hs.setSet ⟨N.fits_zero, goodSet_empty⟩) good_null
  · exact Sound.get.bind fun s hs => Sound.newSet (hs.fitSet r)
  · exact algebra (fun ha hb => ha.union hb) h
  · exact algebra (fun ha _ => ha.intersection) h
  · exact algebra (fun ha _ => ha.difference) h
  · exact Sound.plain rfl

theorem call (m : SetMethod) {args : Arguments} (h : N.GoodArgs args) :
    N.Sound N.good (m.call l.size r args) :=
  (Sound.ofExcept (expectNoKeywords _ _)).bind fun _ _ => run m h.positional

end SetMethod

end ScriptSandbox.Norm

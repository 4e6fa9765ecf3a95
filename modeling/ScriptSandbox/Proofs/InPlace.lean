import ScriptSandbox.Operator.Binary
import ScriptSandbox.Proofs.Failure
import ScriptSandbox.Proofs.Norm.Method.Table

/-!
# Changing a container, or making a new one

The methods `list.extend`, `dict.update` and `set.update` change a container by another one of its kind;
the operators `+` and `|` make a new container of the two. Both ways agree, also where both containers
are one: they fail for the same contents, by the quota of elements, and otherwise the changed container
has the content of the new one, entry by entry (`in_place_as_fresh`).
-/

namespace ScriptSandbox

/-! ## Contents behind a change -/

section Arrays

variable {α : Type} {xs : Array α} {i j : Nat} {f : α → α} {default : α}

theorem getD_modify_self (h : i < xs.size) :
    (xs.modify i f)[i]?.getD default = f (xs[i]?.getD default) := by
  simp [Array.getElem_modify, h]

theorem getD_modify_of_ne (h : i ≠ j) : (xs.modify i f)[j]?.getD default = xs[j]?.getD default := by
  rw [Array.getElem?_modify, if_neg h]

theorem getD_push_size (a : α) : (xs.push a)[xs.size]?.getD default = a := by simp

end Arrays

namespace Store

variable {s : Store}

theorem list_modifyList {r : ListRef} (h : r.index < s.lists.size) (f : Array Value → Array Value) :
    (s.modifyList r f).list r = f (s.list r) := getD_modify_self h

theorem list_modifyList_of_ne {r r' : ListRef} (h : r' ≠ r) (f : Array Value → Array Value) :
    (s.modifyList r f).list r' = s.list r' :=
  getD_modify_of_ne fun hindex => h (congrArg ListRef.mk hindex.symm)

theorem list_addList (items : Array Value) :
    (s.addList items).2.list (s.addList items).1 = items := getD_push_size items

theorem dict_modifyDict {r : DictRef} (h : r.index < s.dicts.size) (f : Dict → Dict) :
    (s.modifyDict r f).dict r = f (s.dict r) := getD_modify_self h

theorem dict_modifyDict_of_ne {r r' : DictRef} (h : r' ≠ r) (f : Dict → Dict) :
    (s.modifyDict r f).dict r' = s.dict r' :=
  getD_modify_of_ne fun hindex => h (congrArg DictRef.mk hindex.symm)

theorem dict_addDict (d : Dict) : (s.addDict d).2.dict (s.addDict d).1 = d := getD_push_size d

theorem set_modifySet {r : SetRef} (h : r.index < s.sets.size) (f : KeySet → KeySet) :
    (s.modifySet r f).set r = f (s.set r) := getD_modify_self h

theorem set_modifySet_of_ne {r r' : SetRef} (h : r' ≠ r) (f : KeySet → KeySet) :
    (s.modifySet r f).set r' = s.set r' :=
  getD_modify_of_ne fun hindex => h (congrArg SetRef.mk hindex.symm)

theorem set_addSet (t : KeySet) : (s.addSet t).2.set (s.addSet t).1 = t := getD_push_size t

end Store

/-! ## The two ways -/

/-- A method that changes a container and an operator that makes a new one agree on two containers:
where one of them fails, so does the other, and both for the quota of elements; otherwise the changed
container has the content of the new one, and the other container keeps its own. -/
def Agree {ρ γ : Type} (value : ρ → Value) (content : Store → ρ → γ) (method : String) (op : BinaryOp)
    (l : SizeLimits) (s : Store) (left right : ρ) : Prop :=
  match Method.call l (value left) method (.ofList [value right]) s,
      Operator.binary l op (value left) (value right) s with
  | .ok _ changed, .ok result fresh => ∃ new, result = value new ∧
      content changed left = content fresh new ∧
      (right ≠ left → content changed right = content s right)
  | .error e _, .error e' _ => e = .limitExceeded .containerSize l.maxContainerSize ∧ e' = e
  | _, _ => False

/-- The two ways agree if both check the same number of elements and leave the same content. -/
theorem agree_of_checked {ρ γ : Type} {value : ρ → Value} {content : Store → ρ → γ} {method : String}
    {op : BinaryOp} {l : SizeLimits} {s changed refused fresh : Store} {left right new : ρ} {n : Nat}
    (hcall : Method.call l (value left) method (.ofList [value right]) s =
      match l.checkContainer n with
      | .ok _ => .ok .null changed
      | .error e => .error e refused)
    (hbinary : Operator.binary l op (value left) (value right) s =
      match l.checkContainer n with
      | .ok _ => .ok (value new) fresh
      | .error e => .error e s)
    (hcontent : content changed left = content fresh new)
    (hother : right ≠ left → content changed right = content s right) :
    Agree value content method op l s left right := by
  rw [Agree, hcall, hbinary]
  rcases Nat.lt_or_ge l.maxContainerSize n with h | h
  · rw [SizeLimits.checkContainer_of_lt h]
    exact ⟨rfl, rfl⟩
  · rw [SizeLimits.checkContainer_of_le h]
    exact ⟨new, rfl, hcontent, hother⟩

/-- A new container is made of what is found in the store if it is within the quota. -/
theorem checked_new {γ : Type} (l : SizeLimits) (found : Store → γ) (size : γ → Nat)
    (new : γ → StoreM Value) (s : Store) :
    (StoreM.look (fun s => do
      let content := found s
      l.checkContainer (size content)
      pure content) >>= new) s = match l.checkContainer (size (found s)) with
        | .ok _ => new (found s) s
        | .error e => .error e s := by
  rw [Norm.SoundAt.look_bind]
  cases h : l.checkContainer (size (found s)) <;> simp only [h] <;> rfl

section Lists

variable {l : SizeLimits} {s : Store} {a b : ListRef}

theorem add_lists : Operator.binary l .add (.list a) (.list b) s =
    match l.checkContainer ((s.list a).size + (s.list b).size) with
    | .ok _ => .ok (.list (s.addList (s.list a ++ s.list b)).1) (s.addList (s.list a ++ s.list b)).2
    | .error e => .error e s := by
  have h := checked_new l (fun s => Operator.joinedItems (s.list a) (s.list b)) Array.size
    StoreM.newList s
  rw [Operator.joinedItems_eq, Array.size_append] at h
  exact h

theorem extend_list : Method.call l (.list a) "extend" (.ofList [.list b]) s =
    match l.checkContainer ((s.list a).size + (s.list b).size) with
    | .ok _ => .ok .null (s.modifyList a (· ++ s.list b))
    | .error e => .error e s := by
  show (ListMethod.checkGrowth l a (s.list b).size >>= fun _ => _) s = _
  rw [ListMethod.checkGrowth, Norm.SoundAt.look_bind]
  cases l.checkContainer ((s.list a).size + (s.list b).size) <;> rfl

theorem extend_agrees (ha : a.index < s.lists.size) :
    Agree .list Store.list "extend" .add l s a b := by
  refine agree_of_checked extend_list add_lists ?_ fun hne => Store.list_modifyList_of_ne hne _
  rw [Store.list_modifyList ha, Store.list_addList]

end Lists

section Dicts

variable {l : SizeLimits} {s : Store} {c d : DictRef}

theorem or_dicts : Operator.binary l .bitOr (.dict c) (.dict d) s =
    match l.checkContainer ((s.dict c).merged (s.dict d)).size with
    | .ok _ => .ok (.dict (s.addDict ((s.dict c).merged (s.dict d))).1)
        (s.addDict ((s.dict c).merged (s.dict d))).2
    | .error e => .error e s :=
  checked_new l (fun s => (s.dict c).merged (s.dict d)) Dict.size StoreM.newDict s

/-- Entries that stand under the keys of their key values are stored again one by one. -/
theorem insertPairs_filed {entries : List (Key × Value × Value)}
    (h : ∀ e ∈ entries, Key.ofValue e.2.1 = .ok e.1) (s : Store) :
    DictMethod.insertPairs c (entries.map (·.2)) s = .ok () (s.modifyDict c fun d =>
      entries.foldl (fun d e => d.insertByKey e.1 e.2.1 e.2.2) d) := by
  induction entries generalizing s with
  | nil =>
    rw [Store.modifyDict_self s rfl]
    rfl
  | cons e rest ih =>
    have hstep : DictMethod.insertPairs c ((e :: rest).map (·.2)) s =
        DictMethod.insertPairs c (rest.map (·.2)) (s.modifyDict c (·.insertByKey e.1 e.2.1 e.2.2)) := by
      rw [List.map_cons, DictMethod.insertPairs, h e (by simp)]
      rfl
    rw [hstep, ih fun e he => h e (by simp [he]), Norm.DictMethod.modifyDict_modifyDict]
    rfl

theorem update_dict (hd : (s.dict d).Made) :
    Method.call l (.dict c) "update" (.ofList [.dict d]) s =
      match l.checkContainer ((s.modifyDict c (·.merged (s.dict d))).dict c).size with
      | .ok _ => .ok .null (s.modifyDict c (·.merged (s.dict d)))
      | .error e => .error e (s.modifyDict c (·.merged (s.dict d))) := by
  have hpairs : DictMethod.insertPairs c ((s.dict d).toList ++ []) s =
      .ok () (s.modifyDict c (·.merged (s.dict d))) := by
    rw [List.append_nil]
    exact insertPairs_filed (fun e he => hd.filed he) s
  show (DictMethod.insertPairs c ((s.dict d).toList ++ []) >>= fun _ => _) s = _
  show EStateM.bind _ _ s = _
  rw [EStateM.bind, hpairs]
  dsimp only
  rw [Norm.SoundAt.look_bind]
  cases l.checkContainer ((s.modifyDict c (·.merged (s.dict d))).dict c).size <;> rfl

theorem update_dict_agrees (hc : c.index < s.dicts.size) (hd : (s.dict d).Made) :
    Agree .dict Store.dict "update" .bitOr l s c d := by
  have hcall := update_dict (l := l) (c := c) hd
  rw [Store.dict_modifyDict hc] at hcall
  refine agree_of_checked hcall or_dicts ?_ fun hne => Store.dict_modifyDict_of_ne hne _
  rw [Store.dict_modifyDict hc, Store.dict_addDict]

end Dicts

section Sets

variable {l : SizeLimits} {s : Store} {a b : SetRef}

theorem or_sets : Operator.binary l .bitOr (.set a) (.set b) s =
    match l.checkContainer ((s.set a).union (s.set b)).size with
    | .ok _ => .ok (.set (s.addSet ((s.set a).union (s.set b))).1)
        (s.addSet ((s.set a).union (s.set b))).2
    | .error e => .error e s :=
  checked_new l (fun s => (s.set a).union (s.set b)) KeySet.size StoreM.newSet s

theorem update_set : Method.call l (.set a) "update" (.ofList [.set b]) s =
    match l.checkContainer ((s.modifySet a (·.union (s.set b))).set a).size with
    | .ok _ => .ok .null (s.modifySet a (·.union (s.set b)))
    | .error e => .error e (s.modifySet a (·.union (s.set b))) := by
  show ((StoreM.look (fun s => l.checkContainer (s.set a).size) >>= fun _ => pure ()) >>=
    fun _ => pure Value.null) (s.modifySet a (·.union (s.set b))) = _
  rw [bind_assoc, Norm.SoundAt.look_bind]
  cases l.checkContainer ((s.modifySet a (·.union (s.set b))).set a).size <;> rfl

theorem update_set_agrees (ha : a.index < s.sets.size) :
    Agree .set Store.set "update" .bitOr l s a b := by
  have hcall := update_set (l := l) (s := s) (a := a) (b := b)
  rw [Store.set_modifySet ha] at hcall
  refine agree_of_checked hcall or_sets ?_ fun hne => Store.set_modifySet_of_ne hne _
  rw [Store.set_modifySet ha, Store.set_addSet]

/-- A union adds the elements of the other set one by one, each under its own key. -/
theorem insertAll_filed {entries : List (Key × Value)}
    (h : ∀ e ∈ entries, Key.ofValue e.2 = .ok e.1) (t : KeySet) :
    t.insertAll (entries.map (·.2)) =
      .ok (entries.foldl (fun t e => t.insertByKey e.1 e.2) t) := by
  induction entries generalizing t with
  | nil => rfl
  | cons e rest ih =>
    rw [List.map_cons, KeySet.insertAll, KeySet.insert, h e (by simp)]
    exact ih (fun e he => h e (by simp [he])) _

theorem insertAll_toList {t : KeySet} (ht : t.Made) (u : KeySet) :
    u.insertAll t.toList = .ok (u.union t) :=
  insertAll_filed (fun _ he => ht.filed he) u

end Sets

/-- Changing a container by another one of its kind agrees with making a new one of the two, for the
lists, dicts and sets of a store whose dicts and sets were made by storing, whatever the quota is. An
update of a set adds the elements one by one. -/
theorem in_place_as_fresh (l : SizeLimits) (s : Store) :
    (∀ a b : ListRef, a.index < s.lists.size → Agree .list Store.list "extend" .add l s a b) ∧
    (∀ c d : DictRef, c.index < s.dicts.size → (s.dict d).Made →
      Agree .dict Store.dict "update" .bitOr l s c d) ∧
    (∀ a b : SetRef, a.index < s.sets.size → (s.set b).Made →
      Agree .set Store.set "update" .bitOr l s a b ∧
      (s.set a).insertAll (s.set b).toList = .ok ((s.set a).union (s.set b))) :=
  ⟨fun _ _ ha => extend_agrees ha, fun _ _ hc hd => update_dict_agrees hc hd,
    fun a _ ha hb => ⟨update_set_agrees ha, insertAll_toList hb (s.set a)⟩⟩

/-! ### One key, two key values -/

/-- The dict `{1: key}`, the set `{1}` and the list `[1]`, each beside one with `True` for `1`. -/
def oneAndTrue : Store :=
  let dict (key : Value) : Dict := Dict.empty.insertByKey (.int 1) key key
  let set (key : Value) : KeySet := KeySet.empty.insertByKey (.int 1) key
  { Store.empty with
    lists := #[#[.int 1], #[.bool true]]
    dicts := #[dict (.int 1), dict (.bool true)]
    sets := #[set (.int 1), set (.bool true)] }

/-- A list extended by itself, and a dict and a set updated by one whose key is the same under another
value. -/
theorem oneAndTrue_agree (l : SizeLimits) : (oneAndTrue.dict ⟨1⟩).Made ∧ (oneAndTrue.set ⟨1⟩).Made ∧
    Agree .list Store.list "extend" .add l oneAndTrue ⟨0⟩ ⟨0⟩ ∧
    Agree .dict Store.dict "update" .bitOr l oneAndTrue ⟨0⟩ ⟨1⟩ ∧
    Agree .set Store.set "update" .bitOr l oneAndTrue ⟨0⟩ ⟨1⟩ := by
  have hdict : (oneAndTrue.dict ⟨1⟩).Made := .insert _ .empty rfl
  have hset : (oneAndTrue.set ⟨1⟩).Made := .insert .empty rfl
  obtain ⟨lists, dicts, sets⟩ := in_place_as_fresh l oneAndTrue
  exact ⟨hdict, hset, lists ⟨0⟩ ⟨0⟩ (by decide), dicts ⟨0⟩ ⟨1⟩ (by decide) hdict,
    (sets ⟨0⟩ ⟨1⟩ (by decide) hset).1⟩

end ScriptSandbox

import ScriptSandbox.Host
import ScriptSandbox.Proofs.Norm.Store

/-!
# Norms: what a host lends

The behaviour of a host's functions and objects is not known here, so what a norm needs of it is
gathered in `Norm.Lends`. Registered values are copied by the library itself, which makes containers
no larger than the registered ones (`Norm.toValue`).
-/

namespace ScriptSandbox

/-- The containers in a registered value have sizes of a sort. -/
inductive HostValue.Fits (fits : Nat → Prop) : HostValue → Prop where
  | null : Fits fits .null
  | bool (b : Bool) : Fits fits (.bool b)
  | int (n : Int64) : Fits fits (.int n)
  | float (x : Binary64) : Fits fits (.float x)
  | str (s : String) : Fits fits (.str s)
  | list {items : List HostValue} : fits items.length → (∀ x ∈ items, Fits fits x) →
    Fits fits (.list items)
  | tuple {items : List HostValue} : fits items.length → (∀ x ∈ items, Fits fits x) →
    Fits fits (.tuple items)
  | dict {entries : List (HostValue × HostValue)} : fits entries.length →
    (∀ entry ∈ entries, Fits fits entry.1) → (∀ entry ∈ entries, Fits fits entry.2) →
    Fits fits (.dict entries)
  | set {items : List HostValue} : fits items.length → (∀ x ∈ items, Fits fits x) →
    Fits fits (.set items)
  | object (o : ObjectHandle) : Fits fits (.object o)

namespace HostValue

mutual

/-- Where all sizes will do, a registered value will. -/
theorem fits_of_forall {fits : Nat → Prop} (h : ∀ n, fits n) : ∀ v : HostValue, v.Fits fits
  | null => .null
  | bool b => .bool b
  | int n => .int n
  | float x => .float x
  | str s => .str s
  | list items => .list (h _) (forall_fits h items)
  | tuple items => .tuple (h _) (forall_fits h items)
  | dict entries => .dict (h _) (fun entry he => (forall_fits_entries h entries entry he).1)
      fun entry he => (forall_fits_entries h entries entry he).2
  | set items => .set (h _) (forall_fits h items)
  | object o => .object o

theorem forall_fits {fits : Nat → Prop} (h : ∀ n, fits n) :
    ∀ items : List HostValue, ∀ x ∈ items, x.Fits fits
  | [] => by simp
  | item :: rest => List.forall_mem_cons.2 ⟨fits_of_forall h item, forall_fits h rest⟩

theorem forall_fits_entries {fits : Nat → Prop} (h : ∀ n, fits n) :
    ∀ entries : List (HostValue × HostValue), ∀ entry ∈ entries, entry.1.Fits fits ∧ entry.2.Fits fits
  | [] => by simp
  | (key, value) :: rest => List.forall_mem_cons.2
      ⟨⟨fits_of_forall h key, fits_of_forall h value⟩, forall_fits_entries h rest⟩

end

end HostValue

namespace Norm

variable {l : Limits} {N : Norm l} {s : Store}

variable (N) in
/-- A host that takes good values and gives good values, keeps the store, and reports only errors
that may come up, whatever the clock shows to it. -/
structure Lends (h : Host) : Prop where
  callFunction : ∀ (f : NativeFunction) {args : Arguments} (clock : Clock) (number : Nat),
    N.GoodArgs args → N.Sound N.good (h.callFunction f (.ofCall l clock number) args)
  readAttribute : ∀ (o : ObjectHandle) (attr : String),
    N.Sound (fun found => ∀ v ∈ found, N.good v) (h.attribute? o attr)
  item : ∀ (o : ObjectHandle) {index : Value}, N.good index →
    N.Sound (fun found => ∀ v ∈ found, N.good v) (h.item? o index)
  callObject : ∀ (o : ObjectHandle) {args : Arguments} (clock : Clock) (number : Nat),
    N.GoodArgs args → N.Sound N.good (h.callObject o (.ofCall l clock number) args)

/-- A host with no functions and only bare objects lends nothing that could matter. -/
theorem lends_bare : N.Lends .bare where
  callFunction _ _ _ _ _ := Sound.plain rfl
  readAttribute _ _ := Sound.pure fun _ h => by cases h
  item _ _ _ := Sound.plain rfl
  callObject _ _ _ _ _ := Sound.plain rfl

/-- Nothing is asked of a host under the norm under which everything may come up. -/
theorem lends_trivial (h : Host) : (trivial l).Lends h where
  callFunction _ _ _ _ _ := sound_trivial (fun _ => True.intro) _
  readAttribute _ _ := sound_trivial (fun _ _ _ => True.intro) _
  item _ _ _ := sound_trivial (fun _ _ _ => True.intro) _
  callObject _ _ _ _ _ := sound_trivial (fun _ => True.intro) _

mutual

theorem toValue : ∀ {v : HostValue}, v.Fits N.fits → N.Sound N.good v.toValue
  | .null, _ | .bool _, _ | .int _, _ | .float _, _ | .str _, _ | .object _, _ => by
    rw [HostValue.toValue]
    exact Sound.pure (N.good_data _ rfl)
  | .list items, .list hfits hitems => by
    rw [HostValue.toValue]
    refine (toValues hitems).bind fun values h => Sound.newList ?_
    exact ⟨by simpa [h.1] using hfits, by simpa using h.2⟩
  | .tuple items, .tuple hfits hitems => by
    rw [HostValue.toValue]
    refine (toValues hitems).bind fun values h => Sound.newTuple ?_
    exact ⟨by simpa [h.1] using hfits, by simpa using h.2⟩
  | .dict entries, .dict hfits hkeys hvalues => by
    rw [HostValue.toValue]
    refine (toDict hkeys hvalues goodDict_empty).bind fun d h => Sound.newDict ⟨?_, h.1⟩
    exact N.fits_mono (Nat.le_trans h.2 (by simp [Dict.empty, Dict.size, Table.empty])) hfits
  | .set items, .set hfits hitems => by
    rw [HostValue.toValue]
    refine (toValues hitems).bind fun values h => ?_
    refine (Sound.ofExcept (goodSet_ofList h.2)).bind fun set hset => Sound.newSet ⟨?_, hset.1⟩
    exact N.fits_mono (by rw [← h.1]; exact hset.2) hfits

theorem toValues : ∀ {items : List HostValue}, (∀ x ∈ items, x.Fits N.fits) →
    N.Sound (fun values => values.length = items.length ∧ ∀ v ∈ values, N.good v)
      (HostValue.toValues items)
  | [], _ => by
    rw [HostValue.toValues]
    exact Sound.pure ⟨rfl, by simp⟩
  | item :: rest, h => by
    rw [HostValue.toValues]
    refine (toValue (h item List.mem_cons_self)).bind fun value hvalue => ?_
    refine (toValues fun x hx => h x (List.mem_cons_of_mem _ hx)).bind fun values hvalues => ?_
    exact Sound.pure ⟨by simp [hvalues.1], by simpa using ⟨hvalue, hvalues.2⟩⟩

theorem toDict : ∀ {entries : List (HostValue × HostValue)} {d : Dict},
    (∀ entry ∈ entries, entry.1.Fits N.fits) → (∀ entry ∈ entries, entry.2.Fits N.fits) →
    N.GoodDict d →
    N.Sound (fun d' => N.GoodDict d' ∧ d'.size ≤ d.size + entries.length)
      (HostValue.toDict d entries)
  | [], d, _, _, hd => by
    rw [HostValue.toDict]
    exact Sound.pure ⟨hd, Nat.le_refl _⟩
  | (key, value) :: rest, d, hkeys, hvalues, hd => by
    rw [HostValue.toDict]
    refine (toValue (hkeys _ List.mem_cons_self)).bind fun k hk => ?_
    refine (toValue (hvalues _ List.mem_cons_self)).bind fun x hx => ?_
    refine (Sound.ofExcept (hd.insert hk hx)).bind fun d' hd' => ?_
    refine (toDict (fun entry he => hkeys entry (List.mem_cons_of_mem _ he))
      (fun entry he => hvalues entry (List.mem_cons_of_mem _ he)) hd'.1).mono fun d'' h => ⟨h.1, ?_⟩
    have := hd'.2
    have := h.2
    simp only [List.length_cons]
    omega

end

end Norm

end ScriptSandbox

import ScriptSandbox.Eval.Pattern
import ScriptSandbox.Proofs.Congruence
import ScriptSandbox.Proofs.Norm.Comparison

/-!
# Congruences: patterns

A pattern captures parts of its subject, which are good when the subject is, and new containers of
such parts, which are no larger than the container they were taken from.
-/

namespace ScriptSandbox

open Eval

namespace Congruence

variable {sb sb' : Sandbox} {C : Congruence sb sb'} {v v' : Visit}

/-! ## Captures -/

/-- All captures are good. -/
def GoodCaptures (C : Congruence sb sb') (captures : Captures) : Prop :=
  ∀ entry ∈ captures, C.good entry.2

theorem capture (name : String) {value : Value} {captures : Captures} (hvalue : C.good value)
    (h : C.GoodCaptures captures) : C.toNorm.Holds C.GoodCaptures (capture name value captures) := by
  unfold Eval.capture
  split
  · exact Norm.Holds.plain (ErrorKind.isPlain_structural (by simp) (by simp))
  · intro entry hentry
    rcases List.mem_append.1 hentry with he | he
    · exact h entry he
    · rw [List.mem_singleton.1 he]
      exact hvalue

theorem captureUnder (name : Option String) {value : Value} {captures : Captures}
    (hvalue : C.good value) (h : C.GoodCaptures captures) :
    C.toNorm.Holds C.GoodCaptures (captureUnder name value captures) := by
  cases name with
  | none => exact h
  | some name => exact capture name hvalue h

theorem captureStar (patterns : List Pattern) {middle : Array Value} {captures : Captures}
    (hfits : C.fits middle.size) (hmiddle : ∀ x ∈ middle, C.good x) (h : C.GoodCaptures captures) :
    C.rel C.GoodCaptures (captureStar patterns middle captures)
      (captureStar patterns middle captures) := by
  unfold Eval.captureStar
  split
  · exact C.pure h
  · exact C.bind (C.newList hfits hmiddle) fun value hvalue => C.ofExcept (capture _ hvalue h)

theorem remaining (r : DictRef) (matched : List Value) :
    C.rel C.good (remaining r matched) (remaining r matched) := by
  refine C.bind (P := fun d => C.toNorm.GoodDict d ∧ C.fits d.size) (C.look fun s hs => ?_)
    fun d hd => C.newDict hd.2 hd.1
  refine (Norm.goodDict_ofPairs fun p hp => hs.dict r p (List.mem_filter.1 hp).1).mono ?_
  refine fun d hd => ⟨hd.1, C.fits_mono (Nat.le_trans hd.2 ?_) (hs.dictFits r)⟩
  rw [← Dict.length_toList]
  exact List.length_filter_le _ _

theorem captureRemaining (r : DictRef) (matched : List Value) (rest : Option String)
    {captures : Captures} (h : C.GoodCaptures captures) :
    C.rel C.GoodCaptures (captureRemaining r matched rest captures)
      (captureRemaining r matched rest captures) := by
  cases rest with
  | none => exact C.pure h
  | some name =>
    exact C.bind (remaining r matched) fun value hvalue => C.ofExcept (capture name hvalue h)

/-! ## Sequences -/

theorem sequenceItems? {s : RunState} (hs : C.inv s) {subject : Value} (h : C.good subject)
    {items : Array Value} (hitems : sequenceItems? s.store subject = some items) :
    C.fits items.size ∧ ∀ x ∈ items, C.good x := by
  cases subject with
  | list r =>
    obtain rfl := Option.some.inj hitems
    exact ⟨(C.inv_kept hs).listFits r, (C.inv_kept hs).list r⟩
  | tuple id elems =>
    obtain rfl := Option.some.inj hitems
    exact ⟨C.fits_items h, C.good_items h⟩
  | _ => cases hitems

theorem alignItems (patterns : List Pattern) {items : Array Value} (hfits : C.fits items.size)
    (h : ∀ x ∈ items, C.good x) :
    C.toNorm.Holds (fun aligned => ∀ a ∈ aligned, (∀ x ∈ a.1, C.good x) ∧ C.fits a.2.size ∧
      ∀ x ∈ a.2, C.good x) (alignItems patterns items) := by
  have part : ∀ start stop, ∀ x ∈ items.extract start stop, C.good x := by
    intro start stop x hx
    obtain ⟨i, hi, rfl⟩ := Array.mem_iff_getElem.1 hx
    rw [Array.getElem_extract]
    exact h _ (Array.getElem_mem _)
  unfold Eval.alignItems
  split
  · exact Norm.Holds.plain rfl
  split
  · refine Norm.Holds.ok fun a ha => ?_
    split at ha
    · obtain rfl := Option.some.inj ha
      exact ⟨fun x hx => h x (by simpa using hx), C.fits_zero, fun x hx => absurd hx (by simp)⟩
    · cases ha
  · dsimp only
    split
    · exact Norm.Holds.ok fun a ha => by cases ha
    · refine Norm.Holds.ok fun a ha => ?_
      obtain rfl := Option.some.inj ha
      refine ⟨fun x hx => ?_, C.fits_mono ?_ hfits, part _ _⟩
      · simp only [Array.toList_append, List.mem_append, Array.mem_toList_iff] at hx
        rcases hx with (hx | hx) | hx
        · exact part _ _ x hx
        · obtain rfl : x = .null := by simpa using hx
          exact Norm.good_null
        · exact part _ _ x hx
      · simp only [Array.size_extract]
        omega

/-! ## Matching -/

/-- Where there is a match, its captures are good. -/
def GoodMatch (C : Congruence sb sb') (found : Option Captures) : Prop :=
  ∀ captures ∈ found, C.GoodCaptures captures

theorem goodMatch_none : C.GoodMatch none := fun _ h => by cases h

theorem goodMatch_some {captures : Captures} (h : C.GoodCaptures captures) :
    C.GoodMatch (some captures) := fun _ hc => Option.some.inj hc ▸ h

theorem allows_left {xs ys : List Expr} (h : C.AllowsExprs (xs ++ ys)) : C.AllowsExprs xs :=
  fun e he => h e (List.mem_append_left _ he)

theorem allows_right {xs ys : List Expr} (h : C.AllowsExprs (xs ++ ys)) : C.AllowsExprs ys :=
  fun e he => h e (List.mem_append_right _ he)

mutual

theorem matchPattern (hv : C.Visits v v') : ∀ (pattern : Pattern) {subject : Value}
    {captures : Captures}, C.AllowsExprs pattern.exprs → C.good subject → C.GoodCaptures captures →
    C.rel C.GoodMatch (matchPattern v pattern subject captures)
      (matchPattern v' pattern subject captures)
  | .value expr, subject, captures, h, _, hcaptures => by
    rw [Eval.matchPattern, Eval.matchPattern]
    refine C.bind (hv.expr expr (h expr (by simp [Pattern.exprs]))) fun value _ => ?_
    refine C.bind (C.look fun s _ => Norm.equal subject value) fun holds _ => ?_
    cases holds with
    | true => exact C.pure (goodMatch_some hcaptures)
    | false => exact C.pure goodMatch_none
  | .singleton constant, subject, captures, _, _, hcaptures => by
    rw [Eval.matchPattern, Eval.matchPattern]
    refine C.pure ?_
    split
    · exact goodMatch_some hcaptures
    · exact goodMatch_none
  | .sequence patterns, subject, captures, h, hsubject, hcaptures => by
    rw [Eval.matchPattern, Eval.matchPattern]
    refine C.bind C.get fun s hs => ?_
    split
    · exact C.pure goodMatch_none
    · rename_i items hitems
      have hitems := sequenceItems? hs hsubject hitems
      refine C.bind (C.ofExcept (alignItems patterns hitems.1 hitems.2)) fun aligned haligned => ?_
      split
      · exact C.pure goodMatch_none
      · rename_i aligned middle
        have ha := haligned (aligned, middle) rfl
        rw [Pattern.exprs] at h
        refine C.bind (matchEach hv patterns h ha.1 hcaptures) fun found hfound => ?_
        split
        · exact C.pure goodMatch_none
        · exact C.map (captureStar patterns ha.2.1 ha.2.2 (hfound _ rfl)) fun _ => goodMatch_some
  | .mapping keys patterns rest, subject, captures, h, _, hcaptures => by
    rw [Pattern.exprs] at h
    cases subject with
    | dict r =>
      rw [Eval.matchPattern, Eval.matchPattern]
      refine C.bind (matchEntries hv r patterns [] (allows_left h) (allows_right h) hcaptures) ?_
      intro found hfound
      split
      · exact C.pure goodMatch_none
      · exact C.map (captureRemaining r _ rest (hfound _ rfl)) fun _ => goodMatch_some
    | _ =>
      simp only [Eval.matchPattern]
      exact C.pure goodMatch_none
  | .star _, _, _, _, _, _ => by
    rw [Eval.matchPattern, Eval.matchPattern]
    exact C.plain rfl
  | .as (some pattern) name, subject, captures, h, hsubject, hcaptures => by
    rw [Eval.matchPattern, Eval.matchPattern]
    rw [Pattern.exprs] at h
    refine C.bind (matchPattern hv pattern h hsubject hcaptures) fun found hfound => ?_
    split
    · exact C.pure goodMatch_none
    · exact C.map (C.ofExcept (captureUnder name hsubject (hfound _ rfl))) fun _ => goodMatch_some
  | .as none name, subject, captures, _, hsubject, hcaptures => by
    rw [Eval.matchPattern, Eval.matchPattern]
    exact C.map (C.ofExcept (captureUnder name hsubject hcaptures)) fun _ => goodMatch_some
  | .or alternatives, subject, captures, h, hsubject, hcaptures => by
    rw [Eval.matchPattern, Eval.matchPattern]
    rw [Pattern.exprs] at h
    exact matchAny hv alternatives h hsubject hcaptures

theorem matchEach (hv : C.Visits v v') : ∀ (patterns : List Pattern) {items : List Value}
    {captures : Captures}, C.AllowsExprs (Pattern.exprsIn patterns) → (∀ x ∈ items, C.good x) →
    C.GoodCaptures captures →
    C.rel C.GoodMatch (matchEach v patterns items captures) (matchEach v' patterns items captures)
  | [], _, _, _, _, hcaptures => by
    simp only [Eval.matchEach]
    exact C.pure (goodMatch_some hcaptures)
  | pattern :: patterns, [], _, _, _, hcaptures => by
    simp only [Eval.matchEach]
    exact C.pure (goodMatch_some hcaptures)
  | pattern :: patterns, item :: items, captures, h, hitems, hcaptures => by
    rw [Pattern.exprsIn] at h
    have hrest : ∀ x ∈ items, C.good x := fun x hx => hitems x (List.mem_cons_of_mem _ hx)
    have hitem := hitems item List.mem_cons_self
    have step : C.rel C.GoodMatch
        (do
          match ← Eval.matchPattern v pattern item captures with
          | none => Pure.pure none
          | some captures => Eval.matchEach v patterns items captures)
        (do
          match ← Eval.matchPattern v' pattern item captures with
          | none => Pure.pure none
          | some captures => Eval.matchEach v' patterns items captures) := by
      refine C.bind (matchPattern hv pattern (allows_left h) hitem hcaptures) fun found hfound => ?_
      split
      · exact C.pure goodMatch_none
      · exact matchEach hv patterns (allows_right h) hrest (hfound _ rfl)
    cases pattern with
    | star name =>
      rw [Eval.matchEach, Eval.matchEach]
      exact matchEach hv patterns (allows_right h) hrest hcaptures
    | _ =>
      simp only [Eval.matchEach]
      exact step

theorem matchAny (hv : C.Visits v v') : ∀ (alternatives : List Pattern) {subject : Value}
    {captures : Captures}, C.AllowsExprs (Pattern.exprsIn alternatives) → C.good subject →
    C.GoodCaptures captures →
    C.rel C.GoodMatch (matchAny v alternatives subject captures)
      (matchAny v' alternatives subject captures)
  | [], _, _, _, _, _ => by
    rw [Eval.matchAny, Eval.matchAny]
    exact C.pure goodMatch_none
  | pattern :: rest, subject, captures, h, hsubject, hcaptures => by
    rw [Eval.matchAny, Eval.matchAny]
    rw [Pattern.exprsIn] at h
    refine C.bind (matchPattern hv pattern (allows_left h) hsubject hcaptures) fun found hfound => ?_
    split
    · exact matchAny hv rest (allows_right h) hsubject hcaptures
    · exact C.pure hfound

theorem matchEntries (hv : C.Visits v v') (r : DictRef) : ∀ (patterns : List Pattern)
    {keys : List Expr} (matched : List Value) {captures : Captures}, C.AllowsExprs keys →
    C.AllowsExprs (Pattern.exprsIn patterns) → C.GoodCaptures captures →
    C.rel (fun found => ∀ m ∈ found, C.GoodCaptures m.2)
      (matchEntries v r patterns keys matched captures)
      (matchEntries v' r patterns keys matched captures)
  | [], _, _, _, _, _, hcaptures => by
    simp only [Eval.matchEntries]
    exact C.pure fun m hm => Option.some.inj hm ▸ hcaptures
  | pattern :: patterns, [], _, _, _, _, hcaptures => by
    simp only [Eval.matchEntries]
    exact C.pure fun m hm => Option.some.inj hm ▸ hcaptures
  | pattern :: patterns, key :: keys, matched, captures, hkeys, h, hcaptures => by
    rw [Eval.matchEntries, Eval.matchEntries]
    rw [Pattern.exprsIn] at h
    refine C.bind (hv.expr key (hkeys key List.mem_cons_self)) fun key _ => ?_
    refine C.bind (C.look fun s hs => (hs.dict r).get? key) fun value hvalue => ?_
    split
    · exact C.pure fun m hm => by cases hm
    · refine C.bind (matchPattern hv pattern (allows_left h) (hvalue _ rfl) hcaptures) ?_
      intro found hfound
      split
      · exact C.pure fun m hm => by cases hm
      · exact matchEntries hv r patterns _ (fun e he => hkeys e (List.mem_cons_of_mem _ he))
          (allows_right h) (hfound _ rfl)

end

/-! ## Cases -/

theorem defineAll : ∀ {captures : Captures}, C.GoodCaptures captures →
    C.rel (fun _ => True) (defineAll captures) (defineAll captures)
  | [], _ => C.pure True.intro
  | (_, _) :: _, h =>
    C.bind (C.define (h _ List.mem_cons_self)) fun _ _ =>
      defineAll fun entry he => h entry (List.mem_cons_of_mem _ he)

theorem firstCase (hv : C.Visits v v') {subject : Value} (hsubject : C.good subject) :
    ∀ {cases : List MatchCase}, (∀ n ∈ cases.flatMap MatchCase.children, C.allows n) →
    C.rel C.GoodFlow (firstCase v subject cases) (firstCase v' subject cases)
  | [], _ => C.pure True.intro
  | ⟨pattern, guard, body⟩ :: rest, h => by
    have hrest : ∀ n ∈ rest.flatMap MatchCase.children, C.allows n := fun n hn =>
      h n (List.mem_append_right _ hn)
    have hcase : ∀ n ∈ MatchCase.children ⟨pattern, guard, body⟩, C.allows n := fun n hn =>
      h n (List.mem_append_left _ hn)
    have hpattern : C.AllowsExprs pattern.exprs := fun e he =>
      hcase _ (by simp [MatchCase.children, he])
    have hbody : C.AllowsBlock body := fun s hs => hcase _ (by simp [MatchCase.children, hs])
    refine C.bind (matchPattern hv pattern hpattern hsubject fun _ he => absurd he List.not_mem_nil)
      fun found hfound => ?_
    split
    · exact firstCase hv hsubject hrest
    refine C.bind (defineAll (hfound _ rfl)) fun _ _ => ?_
    cases guard with
    | none => exact C.block hv hbody
    | some guard =>
      refine C.bind (hv.expr guard (hcase _ (by simp [MatchCase.children]))) fun value _ => ?_
      refine C.bind (C.isTruthy value) fun holds _ => ?_
      cases holds with
      | true => exact C.block hv hbody
      | false => exact firstCase hv hsubject hrest

end Congruence

end ScriptSandbox

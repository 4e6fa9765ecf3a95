import ScriptSandbox.Proofs.Visit

/-!
# Attribute reads

A host is asked for an attribute only if the policy allows it: what its objects would give for any
other name makes no difference to any visit (`visit_answering`). A read that succeeds is of an
attribute that the policy allows, or of a script function's own (`attribute_ok`).
-/

namespace ScriptSandbox

open Eval

/-! ## What the host is asked for -/

/-- Two hosts that differ at most in attributes that the policy denies. -/
structure Host.Alike (p : AttributePolicy) (h h' : Host) : Prop where
  callFunction : h'.callFunction = h.callFunction
  callObject : h'.callObject = h.callObject
  item : h'.item? = h.item?
  granted : ∀ o attr, p.allows attr = true → Text.isDunder attr = false →
    h'.attribute? o attr = h.attribute? o attr

/-- The same sandbox with another host. -/
def Sandbox.answering (sb : Sandbox) (h' : Host) : Sandbox := { sb with host := h' }

theorem AttributePolicy.not_isDunder {p : AttributePolicy} {attr : String}
    (h : p.allows attr = true) : Text.isDunder attr = false := by
  simp only [allows, Bool.and_eq_true, Bool.not_eq_true'] at h
  exact h.1.1

namespace Host.Alike

variable {p : AttributePolicy} {h h' : Host} {sb : Sandbox}

theorem readGuarded (halike : Alike p h h') (receiver : Value) (attr : String) :
    Attribute.readGuarded h p receiver attr = Attribute.readGuarded h' p receiver attr := by
  unfold Attribute.readGuarded
  split
  · rename_i hallows
    unfold Attribute.readAllowed
    cases receiver with
    | object o => simp only [halike.granted o attr hallows (AttributePolicy.not_isDunder hallows)]
    | _ => rfl
  · rfl

theorem read (halike : Alike p h h') (receiver : Value) (attr : String) :
    Attribute.read h p receiver attr = Attribute.read h' p receiver attr := by
  unfold Attribute.read
  simp only [halike.readGuarded]

theorem getItem (halike : Alike p h h') (container index : Value) :
    Subscript.getItem h container index = Subscript.getItem h' container index := by
  unfold Subscript.getItem
  simp only [halike.item]

end Host.Alike

/-- Equal evaluations for hosts that are alike. -/
def blind {sb : Sandbox} {h' : Host} (halike : sb.host.Alike sb.limits.attributePolicy h') :
    Congruence sb (sb.answering h') :=
  { balance sb with
    rel := fun P m m' => Balances P m ∧ m = m'
    mono := fun hP h => ⟨h.1.mono hP, h.2⟩
    sure := fun hQ h => ⟨h.1.sure hQ, h.2⟩
    pure := fun ha => ⟨.pure ha, rfl⟩
    bind := fun {_ _ _ _ m _ f f'} h hf => by
      refine ⟨h.1.bind fun a ha => (hf a ha).1, ?_⟩
      obtain ⟨hbal, rfl⟩ := h
      funext s
      rw [bind_apply, bind_apply]
      cases hr : m s with
      | error e s' => rfl
      | ok a s' => exact congrFun (hf a (hbal.ok hr).1).2 s'
    get := ⟨(balance sb).get, rfl⟩
    throw := fun _ => ⟨.throw _, rfl⟩
    located := fun span h => ⟨h.1.located span, by rw [h.2]⟩
    attempt := fun h => ⟨h.1.attempt (fun _ ha => ha) fun _ => True.intro, by rw [h.2]⟩
    handling := fun _ h => ⟨h.1.whileHandling _, by rw [h.2]⟩
    define := fun hv => ⟨(balance sb).define hv, rfl⟩
    defineIn := fun hv => ⟨(balance sb).defineIn hv, rfl⟩
    inScope := fun kind parent _ h => ⟨h.1.inScope kind parent, by rw [h.2]⟩
    inCall := fun name span scope _ h => ⟨h.1.inCall sb name span scope, by rw [h.2]; rfl⟩
    lookupBinding := fun name hname => ⟨(balance sb).lookupBinding name hname, rfl⟩
    tickLoop := ⟨(balance sb).tickLoop, rfl⟩
    countRounds := fun n => ⟨(balance sb).countRounds n, by
      induction n with
      | zero => rfl
      | succ n ih => simp only [countRounds, ih]; rfl⟩
    checkContainer := fun n => ⟨(balance sb).checkContainer n, rfl⟩
    checkString := fun n => ⟨(balance sb).checkString n, rfl⟩
    newId := ⟨(balance sb).newId, rfl⟩
    newList := fun hn hx => ⟨(balance sb).newList hn hx, rfl⟩
    newDict := fun hn hx => ⟨(balance sb).newDict hn hx, rfl⟩
    newSet := fun hn hx => ⟨(balance sb).newSet hn hx, rfl⟩
    text := fun used _ hused hv => ⟨(balance sb).text used hused hv, rfl⟩
    convert := fun conversion hv => ⟨(balance sb).convert conversion hv, rfl⟩
    format := fun spec hv => ⟨(balance sb).format spec hv, rfl⟩
    binary := fun op _ _ ha hb => ⟨(balance sb).binary op ha hb, rfl⟩
    getItem := fun hc hi => ⟨(balance sb).getItem hc hi, by
      rw [halike.getItem]; rfl⟩
    getSlice := fun bounds hc => ⟨(balance sb).getSlice bounds hc, rfl⟩
    setItem := fun hc hi hv => ⟨(balance sb).setItem hc hi hv, rfl⟩
    setSlice := fun bounds hc hv => ⟨(balance sb).setSlice bounds hc hv, rfl⟩
    readAttribute := fun attr hr => ⟨(balance sb).readAttribute attr hr, by
      rw [halike.read]; rfl⟩
    callNative := fun hf hargs hprint => ⟨(balance sb).callNative hf hargs hprint, by
      simp only [Sandbox.answering, halike.callFunction]; rfl⟩
    callObject := fun hargs => ⟨(balance sb).callObject hargs, by
      simp only [Sandbox.answering, halike.callObject]; rfl⟩
    callMethod := fun hm hargs => ⟨(balance sb).callMethod hm hargs, rfl⟩ }

namespace blind

variable {sb : Sandbox} {h' : Host} (halike : sb.host.Alike sb.limits.attributePolicy h')

theorem visits : (blind halike).Visits (visit sb) (visit (sb.answering h')) :=
  Congruence.visits (Congruence.keepsLoops (C := blind halike) rfl True.intro)
    ⟨balance.keepsSteps sb, rfl⟩ rfl True.intro (sb.limits.maxSteps + 1)

theorem module (m : Module) : (blind halike).rel (fun _ => True) (module sb m)
    (Eval.module (sb.answering h') m) :=
  Congruence.moduleFrom (C := blind halike) ⟨balance.keepsSteps sb, rfl⟩ (visits halike) True.intro
    fun _ _ => True.intro

end blind

/-- What objects would give for attributes that the policy denies makes no difference to any visit. -/
theorem visit_answering {sb : Sandbox} {h' : Host}
    (halike : sb.host.Alike sb.limits.attributePolicy h') : visit (sb.answering h') = visit sb :=
  Visit.ext (fun e s => congrFun ((blind.visits halike).expr e True.intro).2.symm s)
    fun st s => congrFun ((blind.visits halike).stmt st True.intro).2.symm s

theorem run_answering {sb : Sandbox} {h' : Host}
    (halike : sb.host.Alike sb.limits.attributePolicy h') (m : Module) (store : Store) :
    run (sb.answering h') m store = run sb m store := by
  simp only [run, (blind.module halike m).2]

/-! ## Reads that succeed -/

theorem readGuarded_ok {h : Host} {p : AttributePolicy} {receiver v : Value} {attr : String}
    {s s' : Store} (hread : Attribute.readGuarded h p receiver attr s = .ok v s') :
    p.allows attr = true := by
  unfold Attribute.readGuarded at hread
  split at hread
  · assumption
  · cases hread

theorem ofFunction?_some {f : Closure} {attr : String} {v : Value}
    (h : Attribute.ofFunction? f attr = some v) : attr = "name" ∨ attr = "doc" := by
  unfold Attribute.ofFunction? at h
  split at h
  · exact .inl rfl
  · exact .inr rfl
  · cases h

/-- Without the policy's leave, only a script function's name and documentation can be read. -/
theorem read_ok {h : Host} {p : AttributePolicy} {receiver v : Value} {attr : String}
    {s s' : Store} (hread : Attribute.read h p receiver attr s = .ok v s') :
    p.allows attr = true ∨ (∃ f, receiver = .function f) ∧ (attr = "name" ∨ attr = "doc") := by
  cases receiver with
  | function f =>
    simp only [Attribute.read] at hread
    cases hvalue : Attribute.ofFunction? f attr with
    | some value => exact .inr ⟨⟨f, rfl⟩, ofFunction?_some hvalue⟩
    | none =>
      rw [hvalue] at hread
      exact .inl (readGuarded_ok hread)
  | _ => exact .inl (readGuarded_ok hread)

theorem attribute_ok {sb : Sandbox} {receiver : Expr} {attr : String} {span : Span} {v : Value}
    {s s' : RunState} (h : expr sb ⟨.attribute receiver attr, span⟩ s = .ok v s') :
    sb.limits.attributePolicy.allows attr = true ∨
      (∃ f s₁, expr sb receiver s.stepped = .ok (.function f) s₁) ∧ (attr = "name" ∨ attr = "doc") := by
  rcases expr_cases sb ⟨.attribute receiver attr, span⟩ s with ⟨e, he, -⟩ | heq
  · rw [he] at h
    cases h
  · rw [heq, located_ok] at h
    simp only [exprKind, bind_apply, liftM, monadLift, MonadLift.monadLift, onStore] at h
    cases hr : (visit sb).expr receiver s.stepped with
    | error e s₁ =>
      rw [hr] at h
      cases h
    | ok value s₁ =>
      rw [hr] at h
      dsimp only at h
      split at h
      · rename_i hread
        rcases read_ok hread with hallows | ⟨⟨f, rfl⟩, hattr⟩
        · exact .inl hallows
        · exact .inr ⟨⟨f, s₁, hr⟩, hattr⟩
      · cases h

end ScriptSandbox

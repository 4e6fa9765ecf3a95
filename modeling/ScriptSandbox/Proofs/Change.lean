import Mathlib.Logic.Relation
import ScriptSandbox.Proofs.Assignment

/-!
# What evaluations do to a state

Every evaluation is a sequence of a few sorts of changes: of the store, of the counters, of the
copies of registered values, of the errors being handled, and of the scopes, which are bound in, added
and made current (`RunState.Change`). So a relation between states that is reflexive, transitive and
kept by these changes holds between the state before any evaluation and the one behind it
(`Eval.Moves.of_change`).
-/

namespace ScriptSandbox

open Eval

/-- One change of a state. -/
inductive RunState.Change : RunState → RunState → Prop where
  | store (s : RunState) (store : Store) : Change s { s with store }
  | guard (s : RunState) (guard : Guard) : Change s { s with guard }
  | copies (s : RunState) (copies : List (String × Value)) : Change s { s with copies }
  | handling (s : RunState) (handling : List Error) : Change s { s with handling }
  | bind (s : RunState) (r : ScopeRef) (name : String) (value : Value) :
    Change s { s with scopes := s.scopes.defineIn r name value }
  | enter (s : RunState) (kind : ScopeKind) (parent : Option ScopeRef) :
    Change s { s with scopes := s.scopes.enter kind parent }
  | restore (s : RunState) (r : ScopeRef) : Change s { s with scopes := s.scopes.restore r }

/-- The second state comes from the first by changes. -/
def RunState.Evolves : RunState → RunState → Prop := Relation.ReflTransGen RunState.Change

namespace RunState

variable {s s' s'' : RunState}

theorem Change.evolves (h : s.Change s') : s.Evolves s' := .single h

/-- What changes keep, sequences of changes keep. -/
theorem Evolves.of_change {R : RunState → RunState → Prop} [Std.Refl R] [Trans R R R]
    (hR : ∀ {s s'}, s.Change s' → R s s') (h : s.Evolves s') : R s s' := by
  induction h with
  | refl => exact Std.Refl.refl s
  | tail _ hstep ih => exact Trans.trans ih (hR hstep)

instance : Std.Refl RunState.Evolves where
  refl _ := .refl

instance : Trans RunState.Evolves RunState.Evolves RunState.Evolves where
  trans := .trans

end RunState

namespace Eval

variable {α β : Type} {P : α → Prop} {m : Eval α}

namespace Moves

theorem of_change {R : RunState → RunState → Prop} [Std.Refl R] [Trans R R R]
    (hR : ∀ {s s'}, s.Change s' → R s s') (h : Moves RunState.Evolves m) : Moves R m :=
  fun s => (h s).of_change hR

theorem bind_of {R : RunState → RunState → Prop} [Trans R R R] {f : α → Eval β}
    (hm : Balances P m) (h : Moves R m) (hf : ∀ a, P a → Moves R (f a)) : Moves R (m >>= f) := by
  intro s
  have hs := h s
  rw [after_bind]
  cases hr : m s with
  | error e s' =>
    rw [after_error hr] at hs
    exact hs
  | ok a s' =>
    rw [after_ok hr] at hs
    exact Trans.trans hs (hf a (hm.ok hr).1 s')

theorem evolves_onStore (m : StoreM α) : Moves RunState.Evolves (Eval.onStore m) := fun s => by
  simp only [Eval.after, Eval.onStore]
  cases m s.store with
  | ok a store => exact (RunState.Change.store s store).evolves
  | error e store => exact (RunState.Change.store s store).evolves

theorem evolves_ofExcept (x : Except Error α) : Moves RunState.Evolves (liftM x : Eval α) :=
  evolves_onStore (StoreM.ofExcept x)

theorem evolves_onGuard (m : GuardM α) : Moves RunState.Evolves (Eval.onGuard m) := fun s => by
  simp only [Eval.after, Eval.onGuard]
  cases m s.guard with
  | ok a guard => exact (RunState.Change.guard s guard).evolves
  | error e guard => exact (RunState.Change.guard s guard).evolves

theorem evolves_modify {f : RunState → RunState} (h : ∀ s : RunState, s.Change (f s)) :
    Moves RunState.Evolves (modify f : Eval PUnit) := fun s => (h s).evolves

theorem attempt {R : RunState → RunState → Prop} (h : Moves R m) : Moves R (attemptCatchable m) :=
  fun s => by
    rw [after_attempt]
    exact h s

theorem ensuring {leave : RunState → RunState} (hleave : ∀ s : RunState, s.Change (leave s))
    (h : Moves RunState.Evolves m) : Moves RunState.Evolves (Eval.ensuring m leave) := fun s => by
  rw [after_ensuring]
  exact (h s).tail (hleave _)

theorem traced {R : RunState → RunState → Prop} (name : String) (span : Span) (h : Moves R m) :
    Moves R (Eval.traced name span m) := fun s => by
  rw [after_traced]
  exact h s

theorem inScope (kind : ScopeKind) (parent : Option ScopeRef) (h : Moves RunState.Evolves m) :
    Moves RunState.Evolves (Eval.inScope kind parent m) := by
  refine .bind .get fun s => .bind (evolves_modify fun s => .enter s kind parent) fun _ => ?_
  exact h.ensuring fun s' => .restore s' _

theorem handling (e : Error) (h : Moves RunState.Evolves m) :
    Moves RunState.Evolves (whileHandling e m) :=
  .bind (evolves_modify fun s => .handling s _) fun _ => h.ensuring fun s => .handling s _

theorem inCall (sb : Sandbox) (name : String) (span : Span) (scope : ScopeRef)
    (h : Moves RunState.Evolves m) : Moves RunState.Evolves (Eval.inCall sb name span scope m) :=
  .bind (evolves_onGuard _) fun _ =>
    traced name span ((h.inScope .function scope).ensuring fun s => .guard s _)

theorem lookupBinding (sb : Sandbox) (name : String) :
    Moves RunState.Evolves (Eval.lookupBinding sb name) := by
  refine .bind .get fun _ => ?_
  split
  · exact .pure _
  · split
    · exact .throw _
    · exact .pure _
    · refine .bind (evolves_onStore _) fun value => ?_
      exact .bind (evolves_modify fun s => .copies s _) fun _ => .pure _

theorem countRounds (sb : Sandbox) : ∀ n, Moves RunState.Evolves (Eval.countRounds sb n)
  | 0 => .pure _
  | n + 1 => .bind (evolves_onGuard _) fun _ => countRounds sb n

theorem callNative (sb : Sandbox) (f : CallContext → StoreM Value) :
    Moves RunState.Evolves (Eval.callNative sb f) := by
  refine .bind (evolves_onGuard _) fun _ => .bind (evolves_onStore _) fun _ => ?_
  exact .bind (evolves_ofExcept _) fun _ => .pure _

end Moves

/-- Changing a state step by step is kept by every construct. -/
def changes (sb : Sandbox) : Congruence sb sb :=
  { balance sb with
    rel := fun P m _ => Balances P m ∧ Moves RunState.Evolves m
    mono := fun hP h => ⟨h.1.mono hP, h.2⟩
    sure := fun hQ h => ⟨h.1.sure hQ, h.2⟩
    pure := fun ha => ⟨.pure ha, .pure _⟩
    bind := fun h hf => ⟨h.1.bind fun a ha => (hf a ha).1, .bind_of h.1 h.2 fun a ha => (hf a ha).2⟩
    get := ⟨(balance sb).get, .get⟩
    throw := fun _ => ⟨.throw _, .throw _⟩
    located := fun span h => ⟨h.1.located span, h.2.located span⟩
    attempt := fun h => ⟨h.1.attempt (fun _ ha => ha) fun _ => True.intro, h.2.attempt⟩
    handling := fun _ h => ⟨h.1.whileHandling _, h.2.handling _⟩
    define := fun hv => ⟨(balance sb).define hv, .evolves_modify fun s => .bind s _ _ _⟩
    defineIn := fun hv => ⟨(balance sb).defineIn hv, .evolves_modify fun s => .bind s _ _ _⟩
    inScope := fun kind parent _ h => ⟨h.1.inScope kind parent, h.2.inScope kind parent⟩
    inCall := fun name span scope _ h =>
      ⟨h.1.inCall sb name span scope, h.2.inCall sb name span scope⟩
    lookupBinding := fun name hname => ⟨(balance sb).lookupBinding name hname, .lookupBinding sb name⟩
    tickLoop := ⟨(balance sb).tickLoop, .evolves_onGuard _⟩
    countRounds := fun n => ⟨(balance sb).countRounds n, .countRounds sb n⟩
    checkContainer := fun n => ⟨(balance sb).checkContainer n, .evolves_ofExcept _⟩
    checkString := fun n => ⟨(balance sb).checkString n, .evolves_ofExcept _⟩
    newId := ⟨(balance sb).newId, .evolves_onStore _⟩
    newList := fun hn hx => ⟨(balance sb).newList hn hx, .evolves_onStore _⟩
    newDict := fun hn hx => ⟨(balance sb).newDict hn hx, .evolves_onStore _⟩
    newSet := fun hn hx => ⟨(balance sb).newSet hn hx, .evolves_onStore _⟩
    text := fun used _ hused hv => ⟨(balance sb).text used hused hv, .evolves_onStore _⟩
    convert := fun conversion hv => ⟨(balance sb).convert conversion hv, .evolves_onStore _⟩
    format := fun spec hv => ⟨(balance sb).format spec hv, .evolves_onStore _⟩
    binary := fun op _ _ ha hb => ⟨(balance sb).binary op ha hb, .evolves_onStore _⟩
    getItem := fun hc hi => ⟨(balance sb).getItem hc hi, .evolves_onStore _⟩
    getSlice := fun bounds hc => ⟨(balance sb).getSlice bounds hc, .evolves_onStore _⟩
    setItem := fun hc hi hv => ⟨(balance sb).setItem hc hi hv, .evolves_onStore _⟩
    setSlice := fun bounds hc hv => ⟨(balance sb).setSlice bounds hc hv, .evolves_onStore _⟩
    readAttribute := fun attr hr => ⟨(balance sb).readAttribute attr hr, .evolves_onStore _⟩
    callNative := fun hf hargs hprint => ⟨(balance sb).callNative hf hargs hprint, .callNative sb _⟩
    callObject := fun hargs => ⟨(balance sb).callObject hargs, .callNative sb _⟩
    callMethod := fun hm hargs => ⟨(balance sb).callMethod hm hargs, .evolves_onStore _⟩ }

/-- Every visit is a sequence of changes. -/
theorem visit_evolves (sb : Sandbox) (n : Node) : Moves RunState.Evolves ((visit sb).node n) := by
  have steps : (changes sb).KeepsSteps := ⟨balance.keepsSteps sb, .evolves_onGuard _⟩
  have hv : (changes sb).Visits (visit sb) (visit sb) :=
    Congruence.visits (Congruence.keepsLoops rfl True.intro) steps rfl True.intro _
  exact (hv.node n True.intro).2

end Eval

end ScriptSandbox

import ScriptSandbox.Eval
import ScriptSandbox.Proofs.Node

/-!
# What the syntax of a node says of its outcome

A block ends early only by a `return`, a `break` or a `continue` that stands in it outside of nested
functions, and by a `break` or a `continue` only if it stands outside of the loops of the block: a
loop uses up the signals of its rounds (`Stmt.Signals`). Parts of f-strings that are texts, replacement
fields or f-strings give texts (`Expr.isText`), and a call with one argument that is not starred gets
one (`SeveralArguments`). Ways of visiting nodes that respect this are lawful, and so are visits whose
parts are visited in such a way (`Visit.Lawful`).
-/

namespace ScriptSandbox

open Eval

/-! ## Signals -/

/-- What ends a block before its last statement. -/
inductive Signal where
  | «return»
  | «break»
  | «continue»
deriving DecidableEq

/-- The error of a signal where there is nothing to leave. -/
def Signal.stray : Signal → Error
  | .return => .returnOutsideFunction
  | .break | .continue => .loopControlOutsideLoop

namespace Signal

theorem stray_ne_raised (g : Signal) (v : Value) : g.stray.kind ≠ .raised v := by
  cases g <;> exact nofun

theorem stray_ne_limit (g : Signal) (quota : Quota) (max : Nat) :
    g.stray.kind ≠ .limitExceeded quota max := by
  cases g <;> exact nofun

/-- Loop control fails otherwise than a `return`. -/
theorem stray_ne_return (g : Signal) (h : g ≠ .return) : g.stray.kind ≠ Signal.return.stray.kind := by
  cases g with
  | «return» => exact absurd rfl h
  | «break» | «continue» =>
    simp [stray, Error.returnOutsideFunction, Error.loopControlOutsideLoop, Error.structural,
      Error.ofKind]

end Signal

/-- The signal that a statement has ended with. -/
def Flow.signal? : Flow → Option Signal
  | .normal => none
  | .returning _ => some .return
  | .breaking => some .break
  | .continuing => some .continue

namespace StmtKind

/-- The signal that a statement gives itself. -/
def signal? : StmtKind → Option Signal
  | .return _ => some .return
  | .break => some .break
  | .continue => some .continue
  | _ => none

/-- The statements whose signals are signals of the statement that they stand in. The `else` block of a
loop is outside of its rounds. -/
def branches : StmtKind → List Stmt
  | .if _ body orelse => body ++ orelse
  | .for _ _ _ orelse | .while _ _ orelse => orelse
  | .try body hs orelse finalbody => body ++ hs.flatMap (·.body) ++ orelse ++ finalbody
  | .match _ cases => cases.flatMap (·.body)
  | _ => []

/-- The statements in the rounds of a loop. -/
def rounds : StmtKind → List Stmt
  | .for _ _ body _ | .while _ body _ => body
  | _ => []

end StmtKind

/-- A statement contains one that gives a signal, not inside a nested function, and, unless the signal
is that of a `return`, not in the rounds of a loop inside the statement. -/
inductive Stmt.Signals : Stmt → Signal → Prop where
  | here {s : Stmt} {g : Signal} : s.kind.signal? = some g → Signals s g
  | branch {s st : Stmt} {g : Signal} : st ∈ s.kind.branches → Signals st g → Signals s g
  | round {s st : Stmt} : st ∈ s.kind.rounds → Signals st .return → Signals s .return

/-- A statement of a block contains one that gives a signal out of the block. -/
def BlockSignals (body : List Stmt) (g : Signal) : Prop := ∃ st ∈ body, st.Signals g

/-- An outcome whose signal, if any, is one of some. -/
def Flow.Within (signals : Signal → Prop) (flow : Flow) : Prop := ∀ g, flow.signal? = some g → signals g

namespace Flow.Within

variable {signals signals' : Signal → Prop} {flow : Flow}

theorem normal : Flow.Within signals .normal := fun _ h => by cases h

theorem mono (h : flow.Within signals) (hs : ∀ g, signals g → signals' g) : flow.Within signals' :=
  fun g hg => hs g (h g hg)

end Flow.Within

/-! ## Texts and arguments -/

/-- An expression whose value is a text wherever it has one. -/
def Expr.isText (e : Expr) : Bool :=
  match e.kind with
  | .constant (.str _) | .formattedValue .. | .joinedStr _ => true
  | _ => false

/-- Some part of an f-string behind the first is not a text, a replacement field or an f-string. -/
def BarePart (parts : List Expr) : Prop := ∃ part ∈ parts.tail, part.isText = false

/-- A value that is a text. -/
def Value.isStr : Value → Bool
  | .str _ => true
  | _ => false

theorem Value.exists_of_isStr {v : Value} (h : v.isStr = true) : ∃ text, v = .str text := by
  cases v with
  | str text => exact ⟨text, rfl⟩
  | _ => cases h

/-- A call may get several positional arguments. -/
def SeveralArguments (args : List Expr) : Prop :=
  2 ≤ args.length ∨ ∃ arg ∈ args, isStarred arg = true

/-! ## Results of evaluations -/

/-- What an evaluation gives, if it gives something, is of a sort. -/
def Eval.Gives {α : Type} (P : α → Prop) (m : Eval α) : Prop := ∀ s a s', m s = .ok a s' → P a

/-- Ways of visiting nodes with the outcomes that the syntax of the nodes allows. -/
structure Visit.Lawful (v : Visit) : Prop where
  stmt : ∀ st, Gives (Flow.Within st.Signals) (v.stmt st)
  text : ∀ e, e.isText = true → Gives (·.isStr = true) (v.expr e)

theorem Visit.Lawful.text_of {v : Visit} (hv : v.Lawful) (e : Expr) :
    Gives (fun value => e.isText = true → value.isStr = true) (v.expr e) :=
  fun s value s' hr he => hv.text e he s value s' hr

namespace Eval

variable {α β : Type} {P : α → Prop} {Q : β → Prop} {m : Eval α}

namespace Gives

theorem pure {a : α} (h : P a) : Gives P (Pure.pure a) := fun _ _ _ hr => by
  cases hr
  exact h

theorem throw (e : Error) : Gives P (MonadExcept.throw e) := fun _ _ _ hr => by cases hr

theorem mono {P' : α → Prop} (h : Gives P m) (hP : ∀ a, P a → P' a) : Gives P' m :=
  fun s a s' hr => hP a (h s a s' hr)

theorem bind {f : α → Eval β} (h : Gives P m) (hf : ∀ a, P a → Gives Q (f a)) :
    Gives Q (m >>= f) := by
  intro s b s'' hr
  change EStateM.bind m f s = _ at hr
  unfold EStateM.bind at hr
  cases hm : m s with
  | error e s' =>
    rw [hm] at hr
    cases hr
  | ok a s' =>
    rw [hm] at hr
    exact hf a (h s a s' hm) s' b s'' hr

/-- Whatever comes first, what comes behind it gives the result. -/
theorem behind {f : α → Eval β} (hf : ∀ a, Gives Q (f a)) : Gives Q (m >>= f) :=
  bind (P := fun _ => True) (fun _ _ _ _ => True.intro) fun a _ => hf a

theorem located (span : Span) (h : Gives P m) : Gives P (Eval.located span m) := by
  intro s a s' hr
  simp only [Eval.located] at hr
  cases hm : m s with
  | error e s' =>
    rw [hm] at hr
    cases hr
  | ok b t =>
    rw [hm] at hr
    cases hr
    exact h s a s' hm

theorem ensuring {change : RunState → RunState} (h : Gives P m) : Gives P (Eval.ensuring m change) := by
  intro s a s' hr
  simp only [Eval.ensuring] at hr
  cases hm : m s with
  | error e s' =>
    rw [hm] at hr
    cases hr
  | ok b t =>
    rw [hm] at hr
    cases hr
    exact h s a t hm

theorem attempt (h : Gives P m) : Gives (fun r => ∀ a, r = .ok a → P a) (Eval.attempt m) := by
  intro s r s' hr a ha
  subst ha
  simp only [Eval.attempt] at hr
  cases hm : m s with
  | error e t =>
    rw [hm] at hr
    cases hr
  | ok b t =>
    rw [hm] at hr
    cases hr
    exact h s a s' hm

theorem ofExcept {x : Except Error α} (h : ∀ a, x = .ok a → P a) : Gives P (Eval.ofExcept x) := by
  cases x with
  | ok a => exact pure (h a rfl)
  | error e => exact throw e

end Gives

/-! ## Statements -/

section Statements

variable {sb : Sandbox} {v : Visit} (hv : v.Lawful)

include hv

theorem block_gives : ∀ body, Gives (Flow.Within (BlockSignals body)) (block v body)
  | [] => .pure .normal
  | st :: rest => by
    refine .bind (hv.stmt st) fun flow hflow => ?_
    have here : flow.Within (BlockSignals (st :: rest)) :=
      hflow.mono fun g hg => ⟨st, List.mem_cons_self, hg⟩
    cases flow with
    | normal =>
      refine (block_gives rest).mono fun flow hflow => hflow.mono ?_
      exact fun g ⟨st, hst, hg⟩ => ⟨st, List.mem_cons_of_mem _ hst, hg⟩
    | _ => exact .pure here

variable {signals signals' : Signal → Prop}

/-- A block whose signals are signals of what it stands in. -/
theorem block_within {body : List Stmt} (h : ∀ g, BlockSignals body g → signals g) :
    Gives (Flow.Within signals) (block v body) := (block_gives hv body).mono fun _ hflow => hflow.mono h

omit hv in
/-- Of the signals of its rounds, a loop passes on only that of a `return`. -/
theorem afterRound_within {flow ended : Flow} (hflow : flow.Within signals)
    (h : afterRound flow = some ended) (hreturn : signals .return → signals' .return) :
    ended.Within signals' := by
  cases flow with
  | normal | continuing => cases h
  | breaking =>
    cases h
    exact .normal
  | returning value =>
    cases h
    intro g hg
    cases hg
    exact hreturn (hflow _ rfl)

omit hv in
theorem walkFrom_gives {α : Type} {P : α → Prop} {items : Items} {step : Value → Eval (Option α)}
    (h : ∀ x, Gives (fun r => ∀ a, r = some a → P a) (step x)) : ∀ left position,
    Gives (fun r => ∀ a, r = some a → P a) (walkFrom items step position left)
  | 0, _ => .pure nofun
  | left + 1, position => by
    refine .bind (h _) fun ended hended => ?_
    cases ended with
    | none => exact walkFrom_gives h left (position + 1)
    | some result => exact .pure hended

theorem forLoop_gives {target iter : Expr} {body orelse : List Stmt}
    (hbody : BlockSignals body .return → signals .return)
    (horelse : ∀ g, BlockSignals orelse g → signals g) :
    Gives (Flow.Within signals) (forLoop sb v target iter body orelse) := by
  refine .behind fun source => .behind fun items => .bind (P := fun r => ∀ flow, r = some flow →
    flow.Within signals) (walkFrom_gives (fun item => ?_) _ _) fun ended hended => ?_
  · refine .behind fun _ => .behind fun _ => ?_
    rw [map_eq_pure_bind]
    refine .bind (block_gives hv body) fun flow hflow => .pure fun ended h => ?_
    exact afterRound_within hflow h hbody
  · cases ended with
    | none => exact block_within hv horelse
    | some flow => exact .pure (hended flow rfl)

theorem whileRounds_gives {test : Expr} {body orelse : List Stmt}
    (hbody : BlockSignals body .return → signals .return)
    (horelse : ∀ g, BlockSignals orelse g → signals g) :
    ∀ n, Gives (Flow.Within signals) (whileRounds sb v test body orelse n)
  | 0 => .throw _
  | n + 1 => by
    refine .behind fun value => .behind fun truth => ?_
    cases truth with
    | false => exact block_within hv horelse
    | true =>
      refine .behind fun _ => .bind (block_gives hv body) fun flow hflow => ?_
      split
      · exact .pure (afterRound_within hflow ‹_› hbody)
      · exact whileRounds_gives hbody horelse n

theorem handlers_gives (e : Error) : ∀ {hs : List ExceptHandler},
    (∀ g, BlockSignals (hs.flatMap (·.body)) g → signals g) →
    Gives (Flow.Within signals) (handlers v e hs)
  | [], _ => .throw e
  | ⟨types, name, body, span⟩ :: rest, h => by
    have hrest : ∀ g, BlockSignals (rest.flatMap (·.body)) g → signals g := fun g ⟨st, hst, hg⟩ =>
      h g ⟨st, List.mem_append_right _ hst, hg⟩
    have hbody : ∀ g, BlockSignals body g → signals g := fun g ⟨st, hst, hg⟩ =>
      h g ⟨st, List.mem_append_left _ hst, hg⟩
    rw [handlers]
    split
    · exact .bind (P := fun _ => False) (.located span (.throw _)) fun _ => False.elim
    refine .behind fun found => ?_
    cases found with
    | true => exact .behind fun _ => .ensuring (block_within hv hbody)
    | false => exact handlers_gives e hrest

theorem tryStmt_gives {body : List Stmt} {hs : List ExceptHandler} {orelse finalbody : List Stmt}
    (h : ∀ g, BlockSignals (body ++ hs.flatMap (·.body) ++ orelse ++ finalbody) g → signals g) :
    Gives (Flow.Within signals) (tryStmt v body hs orelse finalbody) := by
  have part : ∀ {part : List Stmt},
      (∀ st ∈ part, st ∈ body ++ hs.flatMap (·.body) ++ orelse ++ finalbody) →
      ∀ g, BlockSignals part g → signals g := fun hpart g ⟨st, hst, hg⟩ =>
    h g ⟨st, hpart st hst, hg⟩
  have outcome : Gives (fun r => ∀ flow, r = .ok flow → flow.Within signals)
      (tryOutcome v body hs orelse) := by
    refine .bind (.attempt (block_within hv (part fun st hst => by simp [hst]))) fun r hr => ?_
    split
    · exact .attempt (block_within hv (part fun st hst => by simp [hst]))
    · rename_i flow _
      exact .pure fun flow' heq => Except.ok.inj heq ▸ hr flow rfl
    · split
      · refine .attempt (handlers_gives hv _ (part fun st hst => ?_))
        simp only [List.mem_append]
        exact .inl (.inl (.inr hst))
      · exact .pure nofun
  refine .bind outcome fun r hr => ?_
  split
  · exact .ofExcept hr
  · -- a signal of the last block replaces the outcome, an end without one keeps it
    refine .bind (block_within hv (part fun st hst => by simp [hst])) fun flow hflow => ?_
    split
    · exact .ofExcept hr
    · exact .pure hflow

theorem firstCase_gives (subject : Value) : ∀ {cases : List MatchCase},
    (∀ g, BlockSignals (cases.flatMap (·.body)) g → signals g) →
    Gives (Flow.Within signals) (firstCase v subject cases)
  | [], _ => .pure .normal
  | ⟨pattern, guard, body⟩ :: rest, h => by
    have hrest : ∀ g, BlockSignals (rest.flatMap (·.body)) g → signals g := fun g ⟨st, hst, hg⟩ =>
      h g ⟨st, List.mem_append_right _ hst, hg⟩
    have hbody : ∀ g, BlockSignals body g → signals g := fun g ⟨st, hst, hg⟩ =>
      h g ⟨st, List.mem_append_left _ hst, hg⟩
    refine .behind fun found => ?_
    cases found with
    | none => exact firstCase_gives subject hrest
    | some captures =>
      refine .behind fun _ => ?_
      cases guard with
      | none => exact block_within hv hbody
      | some guard =>
        refine .behind fun _ => .behind fun holds => ?_
        cases holds with
        | true => exact block_within hv hbody
        | false => exact firstCase_gives subject hrest

/-- A statement ends with no other signals than those that stand in it. -/
theorem stmtKind_gives (s : Stmt) : Gives (Flow.Within s.Signals) (stmtKind sb v s.kind) := by
  -- a branch passes all of its signals on, the rounds of a loop only `return`
  have branch : ∀ {body : List Stmt}, (∀ st ∈ body, st ∈ s.kind.branches) → ∀ g,
      BlockSignals body g → s.Signals g := fun hbody g ⟨st, hst, hg⟩ => .branch (hbody st hst) hg
  have round : BlockSignals s.kind.rounds .return → s.Signals .return := fun ⟨_, hst, hg⟩ =>
    .round hst hg
  have here : ∀ {flow : Flow}, (∀ g, flow.signal? = some g → s.kind.signal? = some g) →
      flow.Within s.Signals := fun h g hg => .here (h g hg)
  obtain ⟨kind, span⟩ := s
  cases kind with
  | expr | augAssign => exact .behind fun _ => .pure .normal
  | assign => exact .behind fun _ => .behind fun _ => .pure .normal
  | functionDef d => exact .behind fun _ => .behind fun _ => .pure .normal
  | «return» value =>
    cases value with
    | none => exact .pure (here fun _ h => h)
    | some value => exact .behind fun _ => .pure (here fun _ h => h)
  | «if» test body orelse =>
    refine .behind fun _ => .behind fun truth => ?_
    cases truth with
    | true => exact block_within hv (branch fun st hst => List.mem_append_left _ hst)
    | false => exact block_within hv (branch fun st hst => List.mem_append_right _ hst)
  | «for» => exact forLoop_gives hv round (branch fun _ hst => hst)
  | «while» => exact whileRounds_gives hv round (branch fun _ hst => hst) _
  | «break» | «continue» => exact .pure (here fun _ h => h)
  | pass => exact .pure .normal
  | «try» => exact tryStmt_gives hv (branch fun _ hst => hst)
  | raise value =>
    cases value with
    | none =>
      refine .behind fun _ => ?_
      split <;> exact .throw _
    | some value => exact .behind fun _ => .throw _
  | «match» subject cases => exact .behind fun value => firstCase_gives hv value (branch fun _ hst => hst)

end Statements

/-! ## Texts -/

theorem joinedStr_gives (sb : Sandbox) (v : Visit) : ∀ (parts : List Expr) (text : String),
    Gives (·.isStr = true) (joinedStr sb v text parts)
  | [], _ => .pure rfl
  | _ :: rest, _ => by
    refine .behind fun value => ?_
    split
    · exact .behind fun _ => .behind fun _ => joinedStr_gives sb v rest _
    · exact .behind fun _ => .behind fun _ => joinedStr_gives sb v rest _

/-- Texts, replacement fields and f-strings give texts. -/
theorem exprKind_gives (sb : Sandbox) (v : Visit) {e : Expr} (he : e.isText = true) (span : Span) :
    Gives (·.isStr = true) (exprKind sb v span e.kind) := by
  obtain ⟨kind, place⟩ := e
  cases kind with
  | constant c =>
    cases c with
    | str text => exact .pure rfl
    | _ => cases he
  | formattedValue value conversion spec =>
    exact .behind fun _ => .behind fun _ => .behind fun _ => .behind fun _ => .behind fun _ => .pure rfl
  | joinedStr parts => exact joinedStr_gives sb v parts ""
  | _ => cases he

/-! ## Arguments -/

/-- Without a starred one, the elements of a display or of a call are as many as their expressions. -/
theorem elements_gives (sb : Sandbox) (v : Visit) : ∀ (parts : List Expr) (items : Array Value),
    Gives (fun found => (∀ part ∈ parts, isStarred part = false) →
      found.size = items.size + parts.length) (elements sb v items parts)
  | [], items => by
    rw [elements]
    exact .pure fun _ => rfl
  | element :: rest, items => by
    obtain ⟨kind, span⟩ := element
    cases kind with
    | starred source =>
      rw [elements]
      refine .behind fun _ => .behind fun _ => .behind fun _ => .behind fun _ => ?_
      refine (elements_gives sb v rest _).mono fun _ _ hparts => ?_
      exact absurd (hparts _ List.mem_cons_self) nofun
    | _ =>
      simp only [elements]
      refine .behind fun value => .behind fun _ => ?_
      refine (elements_gives sb v rest _).mono fun found hfound hparts => ?_
      rw [hfound fun part hpart => hparts part (List.mem_cons_of_mem _ hpart), Array.size_push,
        List.length_cons]
      omega

/-- A call that gets more than one positional argument has several. -/
theorem severalArguments_of {args : List Expr} {found : Array Value}
    (h : (∀ arg ∈ args, isStarred arg = false) → found.size = (#[] : Array Value).size + args.length)
    (hmany : 2 ≤ found.size) : SeveralArguments args := by
  by_cases hstarred : ∃ arg ∈ args, isStarred arg = true
  · exact .inr hstarred
  · have hplain : ∀ arg ∈ args, isStarred arg = false := fun arg harg => by
      rw [← Bool.not_eq_true]
      exact fun h => hstarred ⟨arg, harg, h⟩
    have hcount := h hplain
    simp only [List.size_toArray, List.length_nil, Nat.zero_add] at hcount
    exact .inl (by omega)

end Eval

end ScriptSandbox

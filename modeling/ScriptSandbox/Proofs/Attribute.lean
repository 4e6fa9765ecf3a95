import ScriptSandbox.Proofs.Attribute.Read
import ScriptSandbox.Proofs.Attribute.Target
import ScriptSandbox.Syntax.Build

/-!
# The attribute gate

What scripts can do with attributes is what the policy allows: the host is asked for no other, no
other can be read but a script function's own, and no method comes up that was not allowed. Nothing
can be assigned to an attribute at all.

A method is a value, so it can be stored and called long after it was read. Still, every method that
a run comes by is one that the policy allows and that its receiver has, unless the host brings it
(`gated_throughout`): reading an attribute is the only way to make one.
-/

namespace ScriptSandbox

open Eval

/-! ## Methods in a run -/

/-- Every method in a value is one that the policy allows and that its receiver has, or one that is
lent. What a list, a dict or a set holds is in the store. -/
inductive Value.Gated (p : AttributePolicy) (lent : Value → String → Prop) : Value → Prop where
  | flat {v : Value} : v.isFlat = true → v.Gated p lent
  | function (f : Closure) : (Value.function f).Gated p lent
  | tuple {id : Nat} {items : Array Value} : (∀ x ∈ items, x.Gated p lent) →
    (Value.tuple id items).Gated p lent
  | method {id : Nat} {receiver : Value} {name : String} :
    (p.allows name = true ∧ Method.exists? receiver name = true) ∨ lent receiver name →
    receiver.Gated p lent → (Value.method id receiver name).Gated p lent

/-- All methods are gated, in values that are raised as well. -/
def Norm.gated (l : Limits) (lent : Value → String → Prop) : Norm l where
  good := Value.Gated l.attributePolicy lent
  fits _ := True
  errs k := ∀ v, k = .raised v → v.Gated l.attributePolicy lent
  good_data _ h := .flat (Value.isFlat_of_isData h)
  good_tuple _ _ _ := .tuple
  good_items h := by
    cases h with
    | flat h => cases h
    | tuple h => exact h
  fits_items _ := True.intro
  good_method _ _ _ hname hexists := .method (.inl ⟨hname, hexists⟩)
  fits_of_le _ := True.intro
  fits_mono _ _ := True.intro
  fits_two := True.intro
  errs_plain k hk v h := by
    subst h
    cases hk
  errs_raised h v hv := by
    cases hv
    exact h
  errs_container _ h := by cases h
  errs_string _ h := by cases h
  pieces := True
  errs_piece _ _ _ h := by cases h
  errs_powerBase _ h := by cases h
  errs_power _ h := by cases h
  errs_timeout _ h := by cases h

section Runs

variable {sb : Sandbox} {lent : Value → String → Prop}

/-- In every run, all methods are gated. -/
def Invariant.gated (hhost : (Norm.gated sb.limits lent).Lends sb.host) : Invariant sb where
  toNorm := .gated sb.limits lent
  allows _ := True
  code _ := True
  reads _ := True
  top _ := True
  counts _ := True
  fails _ _ := True
  allows_child _ _ := True.intro
  code_of _ _ := True.intro
  allows_code _ _ := True.intro
  fits_rest _ _ _ := True.intro
  fits_starred _ _ _ _ := True.intro
  good_function f := ⟨fun _ => ⟨True.intro, True.intro⟩, fun _ => .function f⟩
  reads_name _ := True.intro
  errs_stray {_ g} _ _ _ v h := absurd h (g.stray_ne_raised v)
  pieces_text _ _ := True.intro
  pieces_call _ _ _ _ := True.intro
  allows_top _ := True.intro
  errs_top {_ g} _ _ v h := absurd h (g.stray_ne_raised v)
  lends := hhost
  registered {_ v} _ := show v.Fits (Norm.gated sb.limits lent).fits from
    HostValue.fits_of_forall (fun _ => True.intro) v
  offered _ _ := .flat rfl
  counts_tick _ _ _ := True.intro
  counts_loop _ _ _ := True.intro
  counts_call _ _ _ := True.intro
  counts_native _ _ := True.intro
  counts_leave _ := True.intro
  fails_errs _ _ := True.intro
  fails_tick _ _ := True.intro
  fails_loop _ _ := True.intro
  fails_call _ := True.intro
  fails_lateTick _ _ := True.intro
  fails_lateLoop _ _ := True.intro
  fails_leave _ := True.intro

theorem gated_throughout (hhost : (Norm.gated sb.limits lent).Lends sb.host) (m : Module)
    {store : Store} (hstore : (Norm.gated sb.limits lent).Kept store) :
    (Norm.gated sb.limits lent).Throughout m store :=
  (Invariant.gated hhost).throughout (Invariant.holds_of _ (Norm.keptRun_start hstore) True.intro)
    fun _ _ => True.intro

end Runs

/-! ## The gate -/

/-- In every run, under every policy: what the host would give for an attribute that is denied, as all
names between double underscores are, makes no difference; a read that succeeds is of an attribute
that is allowed, or of the name or the documentation of a script function; every method is one that is
allowed and that its receiver has, or one that the host brings; and a visit that comes to an attribute
as a target ends there with its refusal, with nothing evaluated or changed any more. -/
theorem attribute_gate (sb : Sandbox) (m : Module) (store : Store) :
    (∀ h', sb.host.Alike sb.limits.attributePolicy h' →
      visit (sb.answering h') = visit sb ∧ run (sb.answering h') m store = run sb m store) ∧
    (∀ receiver attr span v s s', expr sb ⟨.attribute receiver attr, span⟩ s = .ok v s' →
      sb.limits.attributePolicy.allows attr = true ∨
        (∃ f s₁, expr sb receiver s.stepped = .ok (.function f) s₁) ∧
          (attr = "name" ∨ attr = "doc")) ∧
    (∀ lent, (Norm.gated sb.limits lent).Lends sb.host → (Norm.gated sb.limits lent).Kept store →
      (Norm.gated sb.limits lent).Throughout m store) ∧
    (∀ n receiver attr place s s', Aims sb n s ⟨.attribute receiver attr, place⟩ s' →
      ∃ e s'', (visit sb).node n s = .error e s'' ∧ e.kind = .attributeRejected attr ∧
        s'.Unwound s'') := by
  refine ⟨fun h' halike => ?_, fun receiver attr span v s s' hread => ?_,
    fun lent hhost hstore => ?_, fun n receiver attr place s s' haims => ?_⟩
  · exact ⟨visit_answering halike, run_answering halike m store⟩
  · exact attribute_ok hread
  · exact gated_throughout hhost m hstore
  · exact haims.refused

/-! ### A method that is read and a target that is refused -/

/-- A host whose objects keep a secret. -/
def secretive : Host :=
  { Host.bare with
    attribute? := fun _ attr => if attr = "_secret" then pure (some (.int 1)) else pure none }

/-- The usual quotas, policy and functions. -/
def plain : Sandbox := ⟨.standard, .standard, .bare, .stopped⟩

/-- The expression `[].append`. -/
def appendMethod : Expr := Syntax.Build.attr (Syntax.Build.list []) "append"

/-- The script `[].append`. -/
def appendRead : Module := ⟨[Syntax.Build.exprStmt appendMethod]⟩

/-- The statement `x, [].y = 1, 2`. -/
def refusedTarget : Stmt :=
  Syntax.Build.assignTo
    [Syntax.Build.tuple [Syntax.Build.name "x", Syntax.Build.attr (Syntax.Build.list []) "y"]]
    (Syntax.Build.tuple [Syntax.Build.int 1, Syntax.Build.int 2])

theorem bare_alike_secretive : Host.bare.Alike .standard secretive where
  callFunction := rfl
  callObject := rfl
  item := rfl
  granted o attr hallows _ := by
    have hne : attr ≠ "_secret" := by
      rintro rfl
      revert hallows
      decide
    funext s
    simp only [secretive, hne, if_false]
    rfl

theorem refusedTarget_aims : ∃ s', Aims plain (.stmt refusedTarget) (.start .empty)
    (Syntax.Build.attr (Syntax.Build.list []) "y") s' := by
  let pair := Syntax.Build.tuple [Syntax.Build.int 1, Syntax.Build.int 2]
  let targets := [Syntax.Build.name "x"] ++ Syntax.Build.attr (Syntax.Build.list []) "y" :: []
  let s₁ := (expr plain pair).after (RunState.start .empty).stepped
  have value : expr plain pair (RunState.start .empty).stepped =
      .ok (.tuple 0 #[.int 1, .int 2]) s₁ := rfl
  have unpacked : unpack plain targets (.tuple 0 #[.int 1, .int 2]) s₁ =
      .ok ([.int 1] ++ .int 2 :: [])
        ((unpack plain targets (.tuple 0 #[.int 1, .int 2])).after s₁) := rfl
  show ∃ s', Aims plain (.stmt ⟨.assign ([] ++ Syntax.Build.tuple targets :: []) pair, .dummy⟩)
    (.start .empty) (Syntax.Build.attr (Syntax.Build.list []) "y") s'
  exact ⟨_, .assign rfl value rfl (.element (.inl rfl) unpacked rfl rfl .here)⟩

/-- The secret makes no difference, the method that is read is gated, and `y` cannot be assigned to. -/
theorem appendRead_gated :
    run (plain.answering secretive) appendRead .empty = run plain appendRead .empty ∧
    (∃ v s', expr plain appendMethod (.start .empty) = .ok v s' ∧
      (AttributePolicy.standard.allows "append" = true ∨
        (∃ f s₁, expr plain (Syntax.Build.list []) (RunState.start .empty).stepped =
          .ok (.function f) s₁) ∧ ("append" = "name" ∨ "append" = "doc"))) ∧
    (∃ v s', module plain appendRead (.start .empty) = .ok v s' ∧
      v.Gated .standard fun _ _ => False) ∧
    (∃ e s'', (visit plain).node (.stmt refusedTarget) (.start .empty) = .error e s'' ∧
      e.kind = .attributeRejected "y") := by
  obtain ⟨answered, reads, throughout, refused⟩ := attribute_gate plain appendRead .empty
  have read : ∃ v s', expr plain appendMethod (.start .empty) = .ok v s' := ⟨_, _, rfl⟩
  have ended : ∃ v s', module plain appendRead (.start .empty) = .ok v s' := ⟨_, _, rfl⟩
  obtain ⟨v, s', hread⟩ := read
  obtain ⟨w, t', hended⟩ := ended
  obtain ⟨t, haims⟩ := refusedTarget_aims
  obtain ⟨e, s'', hnode, hkind, -⟩ := refused _ _ _ _ _ _ haims
  exact ⟨(answered secretive bare_alike_secretive).2,
    ⟨v, s', hread, reads _ _ _ _ _ _ hread⟩,
    ⟨w, t', hended, ((throughout _ Norm.lends_bare (Norm.kept_empty _)).ended w t' hended).1⟩,
    ⟨e, s'', hnode, hkind⟩⟩

end ScriptSandbox

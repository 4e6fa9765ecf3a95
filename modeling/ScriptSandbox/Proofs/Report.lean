import ScriptSandbox.Proofs.Profile
import ScriptSandbox.Syntax.Build

/-!
# The maximum that a limit error reports

The error of an exhausted quota carries the maximum that was exceeded. This is what the limits set for
the quota, with one exception: a text that is put together of pieces measures each piece against what
the pieces before it have left of the quota on strings, and reports that remainder. Two constructs do
so, `print` with several arguments, and an f-string with a bare part behind its first one, such as a
name outside of a replacement field. A script with neither gets the configured maximum, whatever fails
(`limit_error_reports`).
-/

namespace ScriptSandbox

open Eval

namespace Module

variable (m : Module)

/-- A node is in a script, at any depth. -/
def Has (n : Node) : Prop := ∃ st ∈ m.body, (Node.stmt st).Part n

/-- An f-string of the script has a bare part behind its first one. -/
def HasBarePart : Prop := ∃ parts span, m.Has (.expr ⟨.joinedStr parts, span⟩) ∧ BarePart parts

/-- A call in the script may have several positional arguments. -/
def HasSeveralArguments : Prop :=
  ∃ callee args named span, m.Has (.expr ⟨.call callee args named, span⟩) ∧ SeveralArguments args

/-- The script mentions a name under which `print` is offered. -/
def MentionsPrint (sb : Sandbox) : Prop := ∃ name span f, m.Has (.expr ⟨.name name, span⟩) ∧
  sb.bindings.resolve? name = some (.function f) ∧ f.id = .builtin .print

/-- The script may put a text together of pieces. -/
def JoinsPieces (sb : Sandbox) : Prop :=
  m.HasBarePart ∨ m.HasSeveralArguments ∧ m.MentionsPrint sb

end Module

/-! ## Reported maxima -/

/-- An error of a quota reports the maximum that is configured, or else what is left of the quota on
strings for a piece of a text. -/
def ErrorKind.Reports (l : Limits) (pieces : Prop) (k : ErrorKind) : Prop :=
  ∀ quota max, k = .limitExceeded quota max → max = l.configured quota ∨
    quota = .stringLength ∧ max < l.configured .stringLength ∧ pieces

namespace ErrorKind.Reports

variable {l : Limits} {pieces : Prop}

theorem of_isPlain {k : ErrorKind} (h : k.isPlain = true) : k.Reports l pieces := by
  rintro quota max rfl
  cases h

theorem raised (v : Value) : (ErrorKind.raised v).Reports l pieces := fun _ _ h => by cases h

theorem stray (g : Signal) : g.stray.kind.Reports l pieces := fun quota max h =>
  absurd h (g.stray_ne_limit quota max)

theorem quota (quota : Quota) : (limitExceeded quota (l.configured quota)).Reports l pieces := by
  intro quota' max h
  cases h
  exact .inl rfl

theorem piece {n : Nat} (hpieces : pieces) (hle : n ≤ l.size.maxStringLength) :
    (limitExceeded .stringLength n).Reports l pieces := by
  intro quota max h
  cases h
  rcases Nat.eq_or_lt_of_le hle with heq | hlt
  · exact .inl heq
  · exact .inr ⟨rfl, hlt, hpieces⟩

end ErrorKind.Reports

/-! ## Operations on values -/

/-- An operation that fails for a quota reports the maximum that is configured for it. -/
def StoreM.ReportsConfigured {α : Type} (l : Limits) (m : StoreM α) : Prop :=
  ∀ s e s' quota max, m s = .error e s' → e.kind = .limitExceeded quota max →
    max = l.configured quota

/-- Calls of builtin functions and methods, operators, changes of containers and the rendering of
values report what is configured. -/
structure Limits.ReportedByOperations (l : Limits) : Prop where
  builtin : ∀ (b : Builtin) (clock : Clock) (number : Nat) (args : Arguments),
    (b = .print → args.positional.length ≤ 1) →
    (b.call (.ofCall l clock number) args).ReportsConfigured l
  method : ∀ (receiver : Value) (name : String) (args : Arguments),
    (Method.call l.size receiver name args).ReportsConfigured l
  binary : ∀ (op : BinaryOp) (a b : Value), (Operator.binary l.size op a b).ReportsConfigured l
  setItem : ∀ container index v : Value,
    (Subscript.setItem l.size container index v).ReportsConfigured l
  setSlice : ∀ (container : Value) (bounds : SliceBounds) (v : Value),
    (Subscript.setSlice l.size container bounds v).ReportsConfigured l
  convert : ∀ (v : Value) (conversion : Option Char),
    (StoreM.look (Eval.convert l.size · v conversion)).ReportsConfigured l
  format : ∀ (v : Value) (spec : String),
    (StoreM.look (FormatSpec.format l.size · v spec)).ReportsConfigured l

/-- Every error of a quota reports what is configured. -/
def Norm.exact (l : Limits) : Norm l :=
  { Norm.trivial l with
    errs := ErrorKind.Reports l False
    errs_plain := fun _ => .of_isPlain
    errs_raised := fun _ => .raised _
    errs_container := .quota .containerSize
    errs_string := .quota .stringLength
    pieces := False
    errs_piece := .piece
    errs_powerBase := .quota .powerBase
    errs_power := .quota .power
    errs_timeout := .quota .timeout }

theorem StoreM.reportsConfigured {α : Type} {l : Limits} {P : α → Prop} {m : StoreM α}
    (h : (Norm.exact l).Sound P m) : m.ReportsConfigured l := by
  intro s e s' quota max he hkind
  have hs : (Norm.exact l).Kept s := Norm.kept_of_forall (fun _ => True.intro) (fun _ => True.intro) s
  have hm := h s hs
  unfold Norm.SoundAt at hm
  rw [he] at hm
  exact (hm.1 quota max hkind).resolve_right fun h => h.2.2

theorem Limits.reportedByOperations (l : Limits) : l.ReportedByOperations := by
  have good : ∀ v, (Norm.exact l).good v := fun _ => True.intro
  have args (args : Arguments) : (Norm.exact l).GoodArgs args :=
    ⟨fun _ _ => True.intro, fun _ _ => True.intro, True.intro⟩
  constructor
  · intro b clock number a hone
    exact StoreM.reportsConfigured (Norm.Builtin.call b (args a) fun hb hmany =>
      absurd (hone hb) (Nat.not_le.2 hmany))
  · exact fun receiver name a => StoreM.reportsConfigured (Norm.callMethod receiver name (args a))
  · exact fun op a b => StoreM.reportsConfigured (Norm.binary op (good a) (good b))
  · exact fun container i v => StoreM.reportsConfigured (Norm.setItem (good i) (good v))
  · exact fun container bounds v => StoreM.reportsConfigured (Norm.setSlice bounds (good v))
  · exact fun v conversion => StoreM.reportsConfigured (Norm.Sound.look fun _ _ =>
      Norm.convert (good v) conversion)
  · exact fun v spec => StoreM.reportsConfigured (Norm.Sound.look fun _ _ => Norm.format v spec)

/-! ## Runs -/

/-- Where a script joins no pieces, all errors report what is configured. -/
def Profile.reporting (sb : Sandbox) (m : Module) : Profile sb where
  node := m.Has
  native f := f.id = .builtin .print → m.MentionsPrint sb
  pieces := m.JoinsPieces sb
  errs := ErrorKind.Reports sb.limits (m.JoinsPieces sb)
  errs_plain _ := .of_isPlain
  errs_raised := .raised
  errs_quota := .quota
  errs_piece := .piece
  errs_stray _ _ _ _ := .stray _
  pieces_text hn hbare := .inl ⟨_, _, hn, hbare⟩
  pieces_call hn hargs hf hprint := .inr ⟨⟨_, _, _, _, hn, hargs⟩, hf hprint⟩
  offered hn hf hprint := ⟨_, _, _, hn, hf, hprint⟩

theorem Module.all_has {m : Module} {st : Stmt} (h : st ∈ m.body) : (Node.stmt st).All m.Has :=
  fun _ hn => ⟨st, h, hn⟩

/-- The error of an exhausted quota reports the maximum that the limits set for this quota, in whatever
construct, builtin function, method or rendering the quota was found exhausted. A run reports less only
for the quota on strings, and only if the script has an f-string with a bare part behind the first one,
or mentions `print` and has a call with several arguments. -/
theorem limit_error_reports (sb : Sandbox) (m : Module)
    (hhost : (Profile.reporting sb m).norm.Lends sb.host) {store : Store}
    (hstore : (Profile.reporting sb m).norm.Kept store) :
    sb.limits.ReportedByOperations ∧
    ∀ e quota max, (run sb m store).1 = .error e → e.kind = .limitExceeded quota max →
      max = sb.limits.configured quota ∨
        quota = .stringLength ∧ max < sb.limits.configured .stringLength ∧
          (m.HasBarePart ∨ m.HasSeveralArguments ∧ m.MentionsPrint sb) := by
  have top : ∀ st ∈ m.body, (Profile.reporting sb m).Top st := fun st hst =>
    ⟨Module.all_has hst, fun _ => .stray _⟩
  exact ⟨sb.limits.reportedByOperations, fun e quota max he hkind =>
    Profile.run_errs hhost top hstore he quota max hkind⟩

/-! ### A line of two words -/

/-- The preset, and texts of four bytes at most. -/
def fourBytes : Sandbox where
  limits := { Limits.standard with size := { Limits.standard.size with maxStringLength := 4 } }
  bindings := .standard
  host := .bare
  clock := .stopped

/-- The script `print("ab", "cd")`. -/
def twoWords : Module := ⟨[Syntax.Build.exprStmt (Syntax.Build.call (Syntax.Build.name "print")
  [Syntax.Build.string "ab", Syntax.Build.string "cd"])]⟩

/-- The second word is measured against the one byte that the first one and the separator leave. -/
theorem twoWords_reports : (Profile.reporting fourBytes twoWords).norm.Lends fourBytes.host ∧
    fourBytes.limits.configured .stringLength = 4 ∧
    ∃ e, (run fourBytes twoWords .empty).1 = .error e ∧ e.kind = .limitExceeded .stringLength 1 ∧
      (twoWords.HasBarePart ∨ twoWords.HasSeveralArguments ∧ twoWords.MentionsPrint fourBytes) := by
  have ended : ∃ e, (run fourBytes twoWords .empty).1 = .error e ∧
      e.kind = .limitExceeded .stringLength 1 := ⟨_, by with_unfolding_all rfl, rfl⟩
  obtain ⟨e, he, hkind⟩ := ended
  obtain ⟨-, reported⟩ :=
    limit_error_reports fourBytes twoWords Norm.lends_bare (Norm.kept_empty _)
  have less := (reported e .stringLength 1 he hkind).resolve_left (by decide)
  exact ⟨Norm.lends_bare, rfl, e, he, hkind, less.2.2⟩

-- The bare part of an f-string is measured against what the text before it leaves.
example : ∃ e, (run fourBytes ⟨[Syntax.Build.exprStmt (Syntax.Build.fstring
    [Syntax.Build.string "abc", Syntax.Build.int 12])]⟩ .empty).1 = .error e ∧
    e.kind = .limitExceeded .stringLength 1 := ⟨_, by rfl, rfl⟩

-- Where two seconds have passed before the first call, a budget of a second and a half is reported.
example : ∃ e, (run
      { limits := { Limits.standard with timeout := 1500000000 }
        bindings := .standard
        host := .bare
        clock := { Clock.stopped with elapsed := fun _ => 2000000000 } }
      ⟨[Syntax.Build.exprStmt (Syntax.Build.call (Syntax.Build.name "len")
        [Syntax.Build.string "ab"])]⟩ .empty).1 = .error e ∧
    e.kind = .limitExceeded .timeout 1500 := ⟨_, by with_unfolding_all rfl, rfl⟩

end ScriptSandbox

import ScriptSandbox.Proofs.RoundTrip.Exact
import ScriptSandbox.Proofs.RoundTrip.Expression
import ScriptSandbox.Syntax.Build

/-!
# Scripts as documents

A script is read back from its document (`ofJson?_toJson`): all kinds of nodes, nested however deep,
with their places, names, texts and constants, provided that its doubles are finite and are written as
numbers that read back as them. A reader with a limit on how deep documents nest reads it back if the
document keeps to that limit, and otherwise reads nothing. Patterns and statements are treated as
expressions are: a kind is read part by part (`stmtKind?_encode`).
-/

namespace ScriptSandbox

open Syntax

/-! ## Patterns -/

section Patterns

variable {float : Binary64 → Json}

theorem exprs_of_mem {p : Pattern} {e : Expr} (he : e ∈ p.exprs) : ∀ {ps : List Pattern}, p ∈ ps →
    e ∈ Pattern.exprsIn ps
  | [], h => nomatch h
  | _ :: _, h => by
    rw [Pattern.exprsIn]
    rcases List.mem_cons.1 h with rfl | h
    · exact List.mem_append_left _ he
    · exact List.mem_append_right _ (exprs_of_mem he h)

theorem singletons_of_mem {p : Pattern} {c : Constant} (hc : c ∈ p.singletons) :
    ∀ {ps : List Pattern}, p ∈ ps → c ∈ Pattern.singletonsIn ps
  | [], h => nomatch h
  | _ :: _, h => by
    rw [Pattern.singletonsIn]
    rcases List.mem_cons.1 h with rfl | h
    · exact List.mem_append_left _ hc
    · exact List.mem_append_right _ (singletons_of_mem hc h)

/-- Constants and expressions in a pattern are finite. -/
def Pattern.FiniteConstants (p : Pattern) : Prop :=
  (∀ c ∈ p.singletons, c.IsFinite) ∧ ∀ e ∈ p.exprs, (Node.expr e).All Node.FiniteConstants

theorem list_patterns {pattern : Nat → Json → Option Pattern} {bound : Nat} {ps : List Pattern}
    (h : ∀ p ∈ ps, Reads pattern bound (encodePattern float p) p) :
    Reads (list? pattern) bound (.array (encodePatterns float ps)) ps := by
  refine reads_list ?_
  induction ps with
  | nil => exact .nil
  | cons p rest ih => exact .cons (h p (by simp)) (ih fun p hp => h p (by simp [hp]))

theorem nullable_pattern {pattern : Nat → Json → Option Pattern} {bound : Nat} {p : Pattern}
    (h : Reads pattern bound (encodePattern float p) p) :
    Reads (nullable pattern) bound (encodePattern float p) (some p) := by
  intro levels hlevels
  rw [nullable, h levels hlevels]
  · exact ite_some_map ..
  · intro hnull
    cases p <;> cases hnull

theorem pattern?_encode (hfloat : WritesDoubles float) {fuel : Nat} {p : Pattern}
    (hfinite : p.FiniteConstants) : Reads (pattern? fuel) fuel (encodePattern float p) p := by
  induction fuel generalizing p with
  | zero =>
    cases p <;> exact .record_of_lt rfl fun levels hlevels => absurd hlevels (Nat.not_lt_zero _)
  | succ fuel ih =>
    obtain ⟨hsingletons, hexprs⟩ := hfinite
    have inner : ∀ ps : List Pattern, (∀ c ∈ Pattern.singletonsIn ps, c.IsFinite) →
        (∀ e ∈ Pattern.exprsIn ps, (Node.expr e).All Node.FiniteConstants) →
        Reads (list? (pattern? fuel)) fuel (.array (encodePatterns float ps)) ps :=
      fun ps hc he => list_patterns fun p hp =>
        ih ⟨fun c h => hc c (singletons_of_mem h hp), fun e h => he e (exprs_of_mem h hp)⟩
    cases p with
    | value e =>
      have he : ReadsExpr float (expr? fuel) fuel e :=
        expr?_encode hfloat (hexprs e (by simp [Pattern.exprs]))
      refine .record_of_lt rfl fun levels hlevels => ?_
      simp [pattern?, variant?, he levels (Nat.le_of_lt_succ hlevels)]
    | singleton c =>
      have hc := constant?_encode hfloat (hsingletons c (by simp [Pattern.singletons])) fuel
      refine .record_of_lt rfl fun levels hlevels => ?_
      simp [pattern?, variant?, hc levels (Nat.le_of_lt_succ hlevels)]
    | star name => exact .record rfl fun levels _ => by simp [pattern?, variant?]
    | sequence patterns | or patterns =>
      have hpatterns := inner patterns hsingletons hexprs
      refine .record_of_lt rfl fun levels hlevels => ?_
      have hread := hpatterns levels (Nat.le_of_lt_succ hlevels)
      simp only [pattern?, variant?, Option.bind_eq_bind, Option.bind_some, hread, ite_some_map]
      simp
    | mapping keys patterns rest =>
      simp only [Pattern.exprs, List.forall_mem_append] at hexprs
      have hkeys : Reads (list? (expr? fuel)) fuel (.array (encodeExprs float keys)) keys :=
        list_exprs fun e he => expr?_encode hfloat (hexprs.1 e he)
      have hpatterns := inner patterns hsingletons hexprs.2
      refine .kind_of_lt rfl rfl fun levels hlevels => ?_
      have hle : levels ≤ fuel := Nat.le_of_lt_succ hlevels
      simp [pattern?, Syntax.kind, tagged, variant?, parts?, Json.member?, ite_and, hkeys levels hle,
        hpatterns levels hle]
    | as pattern name =>
      have hpattern : Reads (nullable (pattern? fuel)) fuel (encodeOptionalPattern float pattern)
          pattern := by
        cases pattern with
        | none => exact .flat rfl fun levels => rfl
        | some p => exact nullable_pattern (ih ⟨hsingletons, hexprs⟩)
      refine .kind_of_lt rfl rfl fun levels hlevels => ?_
      simp [pattern?, Syntax.kind, tagged, variant?, parts?, Json.member?, optional_some (pattern? fuel),
        hpattern levels (Nat.le_of_lt_succ hlevels)]

end Patterns

/-! ## Statements -/

/-- Readers of expressions and of statements read a node back. -/
def ReadsNode (float : Binary64 → Json) (expr : Nat → Json → Option Expr)
    (stmt : Nat → Json → Option Stmt) (bound : Nat) : Node → Prop
  | .expr e => ReadsExpr float expr bound e
  | .stmt st => Reads stmt bound (encodeStmt float st) st

section Statements

variable {float : Binary64 → Json} {expr : Nat → Json → Option Expr}
  {pattern : Nat → Json → Option Pattern} {stmt : Nat → Json → Option Stmt} {bound : Nat}

theorem list_stmts {body : List Stmt} (h : ∀ st ∈ body, Reads stmt bound (encodeStmt float st) st) :
    Reads (list? stmt) bound (.array (encodeStmts float body)) body := by
  refine reads_list ?_
  induction body with
  | nil => exact .nil
  | cons st rest ih => exact .cons (h st (by simp)) (ih fun st hst => h st (by simp [hst]))

theorem list_handlers {hs : List ExceptHandler}
    (h : ∀ n ∈ hs.flatMap ExceptHandler.children, ReadsNode float expr stmt bound n) :
    Reads (list? (handler? expr stmt)) bound (.array (encodeHandlers float hs)) hs := by
  refine reads_list ?_
  induction hs with
  | nil => exact .nil
  | cons handler rest ih =>
    obtain ⟨types, name, body, span⟩ := handler
    simp only [List.flatMap_cons, ExceptHandler.children, List.forall_mem_append,
      List.forall_mem_map] at h
    obtain ⟨⟨htypes, hbody⟩, hrest⟩ := h
    refine .cons (.record rfl fun levels hlevels => ?_) (ih hrest)
    simp [handler?, fields?, parts?, Json.member?, ite_and, optional_some expr,
      nullable_expr htypes levels hlevels, list_stmts hbody levels hlevels,
      span?_encodeSpan span bound levels hlevels]

theorem list_cases {cs : List MatchCase}
    (hpatterns : ∀ c ∈ cs, Reads pattern bound (encodePattern float c.pattern) c.pattern)
    (h : ∀ n ∈ cs.flatMap MatchCase.children, ReadsNode float expr stmt bound n) :
    Reads (list? (matchCase? expr pattern stmt)) bound (.array (encodeCases float cs)) cs := by
  refine reads_list ?_
  induction cs with
  | nil => exact .nil
  | cons c rest ih =>
    obtain ⟨p, guard, body⟩ := c
    simp only [List.flatMap_cons, MatchCase.children, List.map_append, List.forall_mem_append,
      List.forall_mem_map] at h
    obtain ⟨⟨⟨-, hguard⟩, hbody⟩, hrest⟩ := h
    obtain ⟨hp, hpatterns⟩ := List.forall_mem_cons.1 hpatterns
    refine .cons (.record rfl fun levels hlevels => ?_) (ih hpatterns hrest)
    simp [matchCase?, fields?, parts?, Json.member?, ite_and, optional_some expr, hp levels hlevels,
      nullable_expr hguard levels hlevels, list_stmts hbody levels hlevels]

theorem functionDef?_encode {d : FunctionDef}
    (h : ∀ n ∈ (FunctionCode.definition d).children, ReadsNode float expr stmt bound n) :
    Reads (functionDef? expr stmt) bound (encodeFunctionDef float d) d := by
  obtain ⟨name, params, body, span⟩ := d
  simp only [FunctionCode.children, List.forall_mem_append, List.forall_mem_map] at h
  obtain ⟨hparams, hbody⟩ := h
  refine .record rfl fun levels hlevels => ?_
  simp [functionDef?, fields?, parts?, Json.member?, Json.toString?, ite_and,
    parameters?_encode hparams levels hlevels, list_stmts hbody levels hlevels,
    span?_encodeSpan span bound levels hlevels]

/-- The patterns in a statement. -/
def StmtKind.patterns : StmtKind → List Pattern
  | .match _ cases => cases.map (·.pattern)
  | _ => []

theorem stmtKind?_encode {kind : StmtKind}
    (hpatterns : ∀ p ∈ kind.patterns, Reads pattern bound (encodePattern float p) p)
    (h : ∀ n ∈ kind.children, ReadsNode float expr stmt bound n) :
    Reads (stmtKind? expr pattern stmt) bound (encodeStmtKind float kind) kind := by
  cases kind with
  | «break» | «continue» | pass => exact .flat rfl fun levels => rfl
  | expr value =>
    have hvalue : ReadsExpr float expr bound value := h (.expr value) (by simp [StmtKind.children])
    refine .record rfl fun levels hlevels => ?_
    unfold stmtKind? variant?
    simp only [Option.bind_eq_bind, Option.bind_some, hvalue levels hlevels]
    simp
  | assign targets value =>
    simp only [StmtKind.children, List.forall_mem_cons, List.forall_mem_map] at h
    obtain ⟨hvalue, htargets⟩ := h
    rw [ReadsNode] at hvalue
    refine .kind rfl rfl fun levels hlevels => ?_
    unfold stmtKind? Syntax.kind tagged variant?
    simp only [Option.bind_eq_bind, Option.bind_some]
    simp [parts?, Json.member?, ite_and, hvalue levels hlevels, list_exprs htargets levels hlevels]
  | augAssign target op value =>
    simp only [StmtKind.children, List.forall_mem_cons, ReadsNode] at h
    obtain ⟨htarget, hvalue, -⟩ := h
    refine .kind rfl rfl fun levels hlevels => ?_
    unfold stmtKind? Syntax.kind tagged variant?
    simp only [Option.bind_eq_bind, Option.bind_some]
    simp [parts?, Json.member?, ite_and, htarget levels hlevels, hvalue levels hlevels]
  | functionDef d =>
    have hd := functionDef?_encode h
    refine .record rfl fun levels hlevels => ?_
    unfold stmtKind? variant?
    simp only [Option.bind_eq_bind, Option.bind_some, hd levels hlevels]
    simp
  | «return» value | raise value =>
    simp only [StmtKind.children, List.forall_mem_map] at h
    have hvalue : Reads (nullable expr) bound _ _ := nullable_expr h
    refine .record rfl fun levels hlevels => ?_
    unfold stmtKind? variant?
    simp only [Option.bind_eq_bind, Option.bind_some, hvalue levels hlevels]
    simp
  | «if» test body orelse | «while» test body orelse =>
    simp only [StmtKind.children, List.cons_append, List.forall_mem_cons, List.forall_mem_append,
      List.forall_mem_map] at h
    obtain ⟨htest, hbody, horelse⟩ := h
    rw [ReadsNode] at htest
    refine .kind rfl rfl fun levels hlevels => ?_
    unfold stmtKind? Syntax.kind tagged variant?
    simp only [Option.bind_eq_bind, Option.bind_some]
    simp [parts?, Json.member?, ite_and, htest levels hlevels, list_stmts hbody levels hlevels,
      list_stmts horelse levels hlevels]
  | «for» target iter body orelse =>
    simp only [StmtKind.children, List.cons_append, List.forall_mem_cons, List.forall_mem_append,
      List.forall_mem_map] at h
    obtain ⟨htarget, hiter, hbody, horelse⟩ := h
    rw [ReadsNode] at htarget hiter
    refine .kind rfl rfl fun levels hlevels => ?_
    unfold stmtKind? Syntax.kind tagged variant?
    simp only [Option.bind_eq_bind, Option.bind_some]
    simp [parts?, Json.member?, ite_and, htarget levels hlevels, hiter levels hlevels,
      list_stmts hbody levels hlevels, list_stmts horelse levels hlevels]
  | «try» body handlers orelse finalbody =>
    simp only [StmtKind.children, List.forall_mem_append] at h
    obtain ⟨⟨⟨hbody, hhandlers⟩, horelse⟩, hfinal⟩ := h
    simp only [List.forall_mem_map] at hbody horelse hfinal
    refine .kind rfl rfl fun levels hlevels => ?_
    unfold stmtKind? Syntax.kind tagged variant?
    simp only [Option.bind_eq_bind, Option.bind_some]
    simp [parts?, Json.member?, ite_and, list_stmts hbody levels hlevels,
      list_handlers hhandlers levels hlevels, list_stmts horelse levels hlevels,
      list_stmts hfinal levels hlevels]
  | «match» subject cases =>
    obtain ⟨hsubject, hcases⟩ := List.forall_mem_cons.1 h
    rw [ReadsNode] at hsubject
    simp only [StmtKind.patterns, List.forall_mem_map] at hpatterns
    refine .kind rfl rfl fun levels hlevels => ?_
    unfold stmtKind? Syntax.kind tagged variant?
    simp only [Option.bind_eq_bind, Option.bind_some]
    simp [parts?, Json.member?, ite_and, hsubject levels hlevels,
      list_cases hpatterns hcases levels hlevels]

end Statements

theorem finite_kind_patterns {kind : StmtKind} {span : Span} {p : Pattern}
    (h : (Node.stmt ⟨kind, span⟩).All Node.FiniteConstants) (hp : p ∈ kind.patterns) :
    p.FiniteConstants := by
  cases kind with
  | «match» subject cases =>
    obtain ⟨c, hc, rfl⟩ := List.mem_map.1 hp
    refine ⟨fun k hk => h.self k (List.mem_flatMap.2 ⟨c, hc, hk⟩), fun e he => h.child ?_⟩
    refine List.mem_cons_of_mem _ (List.mem_flatMap.2 ⟨c, hc, ?_⟩)
    simp [MatchCase.children, he]
  | _ => cases hp

theorem stmt?_encode {float : Binary64 → Json} (hfloat : WritesDoubles float) {fuel : Nat} {st : Stmt}
    (hfinite : (Node.stmt st).All Node.FiniteConstants) :
    Reads (stmt? fuel) fuel (encodeStmt float st) st := by
  induction fuel generalizing st with
  | zero =>
    obtain ⟨kind, span⟩ := st
    exact .record_of_lt rfl fun levels hlevels => absurd hlevels (Nat.not_lt_zero _)
  | succ fuel ih =>
    obtain ⟨kind, span⟩ := st
    have hkind : Reads (stmtKind? (expr? fuel) (pattern? fuel) (stmt? fuel)) fuel
        (encodeStmtKind float kind) kind := by
      refine stmtKind?_encode (fun p hp => pattern?_encode hfloat (finite_kind_patterns hfinite hp))
        fun n hn => ?_
      cases n with
      | expr e => exact expr?_encode hfloat (hfinite.child hn)
      | stmt st => exact ih (hfinite.child hn)
    refine .record_of_lt rfl fun levels hlevels => ?_
    have hle : levels ≤ fuel := Nat.le_of_lt_succ hlevels
    simp [stmt?, fields?, parts?, Json.member?, ite_and, hkind levels hle,
      span?_encodeSpan span fuel levels hle]

section Scripts

variable {float : Binary64 → Json} (hfloat : WritesDoubles float) {m : Module} (hm : m.FiniteConstants)

include hfloat hm

/-- A reader with a limit reads the scripts back whose documents keep to the limit, and no other. -/
theorem ofJsonWithin?_toJson (levels : Nat) : Module.ofJsonWithin? levels (m.toJson float) =
    if (m.toJson float).depth ≤ levels then some m else none := by
  have hread :
      Reads (fun levels json => Module.ofJsonWithin? levels json) levels (m.toJson float) m := by
    refine .record_of_lt rfl fun left hleft => ?_
    have hbody : Reads (list? (stmt? (left + 1))) (left + 1)
        (.array (encodeStmts float m.body)) m.body :=
      list_stmts fun st hst => stmt?_encode hfloat (hm st hst)
    simp [Module.ofJsonWithin?, fields?, parts?, Json.member?, hbody left (Nat.le_succ left)]
  exact hread levels Nat.le.refl

end Scripts

/-- A script is read back from its document, however deep it nests, if its doubles are finite; a reader
with a limit reads it back if its document nests no deeper than that, and otherwise reads nothing. -/
theorem ofJson?_toJson (float : Binary64 → Json) (hfloat : WritesDoubles float) (m : Module)
    (hm : m.FiniteConstants) :
    Module.ofJson? (m.toJson float) = some m ∧
      ∀ levels, Module.ofJsonWithin? levels (m.toJson float) =
        if (m.toJson float).depth ≤ levels then some m else none := by
  refine ⟨?_, ofJsonWithin?_toJson hfloat hm⟩
  rw [Module.ofJson?, ofJsonWithin?_toJson hfloat hm]
  exact if_pos Nat.le.refl

/-! ### A script with a tenth in it -/

/-- One tenth, which no double is exactly. -/
def nearTenth : Binary64 := ⟨0x3FB999999999999A⟩

open Syntax.Build in
/-- The statement `match x: case None | [*_]: return 0.1`, at a place. -/
def tenthScript : Module := ⟨[⟨.match (name "x")
  [⟨.or [nullPattern, .sequence [.star Option.none]], Option.none, [returnStmt (float nearTenth)]⟩],
  ⟨2, 4⟩⟩]⟩

theorem Node.finiteConstants_singleton {n : Node} {c : Constant} (h : n.constants = [c])
    (hc : c.IsFinite) : n.FiniteConstants := by
  rw [FiniteConstants, h]
  exact List.forall_mem_singleton.2 hc

theorem tenthScript_finite : tenthScript.FiniteConstants := by
  have tenth : (Node.expr (Build.float nearTenth)).All Node.FiniteConstants :=
    Node.all_of_leaf (Node.finiteConstants_singleton rfl fun x hx => by cases hx; decide) rfl
  have subject : (Node.expr (Build.name "x")).All Node.FiniteConstants :=
    Node.all_of_leaf (fun _ hc => by cases hc) rfl
  have body : (Node.stmt (Build.returnStmt (Build.float nearTenth))).All Node.FiniteConstants :=
    Node.all_of_children (fun _ hc => by cases hc) (List.forall_mem_singleton.2 tenth)
  refine List.forall_mem_singleton.2 (Node.all_of_children ?_ ?_)
  · exact Node.finiteConstants_singleton rfl fun x hx => by cases hx
  · exact List.forall_mem_cons.2 ⟨subject, List.forall_mem_singleton.2 body⟩

/-- Written with all its digits, the tenth is read back, and the script with it. -/
theorem tenthScript_read_back : WritesDoubles (fun x => .number (.exact x)) ∧
    tenthScript.FiniteConstants ∧
    Module.ofJson? (tenthScript.toJson fun x => .number (.exact x)) = some tenthScript ∧
    Module.ofJsonWithin? Module.usualLevels (tenthScript.toJson fun x => .number (.exact x)) =
      some tenthScript := by
  have hfloat : WritesDoubles fun x => .number (.exact x) := fun x hx =>
    ⟨.exact x, rfl, JsonNumber.toBinary64?_exact hx⟩
  obtain ⟨hread, hwithin⟩ := ofJson?_toJson _ hfloat _ tenthScript_finite
  exact ⟨hfloat, tenthScript_finite, hread, (hwithin _).trans (if_pos (by decide))⟩

/-! ### Additions in a row -/

/-- The expression `1 + 1 + … + 1` with so many additions. -/
def additions : Nat → Expr
  | 0 => Build.int 1
  | n + 1 => Build.binOp (additions n) .add (Build.int 1)

/-- The script that consists of them. -/
def additionsScript (n : Nat) : Module := ⟨[Build.exprStmt (additions n)]⟩

theorem additions_finite (n : Nat) : (Node.expr (additions n)).All Node.FiniteConstants := by
  have one : (Node.expr (Build.int 1)).All Node.FiniteConstants :=
    Node.all_of_leaf (Node.finiteConstants_singleton rfl fun x hx => by cases hx) rfl
  induction n with
  | zero => exact one
  | succ n ih =>
    refine Node.all_of_children (fun _ hc => by cases hc) ?_
    exact List.forall_mem_cons.2 ⟨ih, List.forall_mem_singleton.2 one⟩

/-- Each addition nests the document by three levels. -/
theorem depth_additions (float : Binary64 → Json) (n : Nat) :
    (encodeExpr float (additions n)).depth = 3 * n + 3 := by
  have one : (encodeExpr float (Build.int 1)).depth = 3 := rfl
  induction n with
  | zero => exact one
  | succ n ih =>
    simp only [additions, Build.binOp, Build.expr, encodeExpr, encodeExprKind, encodeSpan, Syntax.kind,
      tagged, Json.depth, Json.depth_int, depthOfMembers, ih, one]
    omega

/-- A reader told no other limit reads forty additions in a row back, and no more. -/
theorem additions_read_back (float : Binary64 → Json) (hfloat : WritesDoubles float) (n : Nat) :
    Module.ofJsonWithin? Module.usualLevels ((additionsScript n).toJson float) =
      if n ≤ 40 then some (additionsScript n) else none := by
  have hfinite : (additionsScript n).FiniteConstants := List.forall_mem_singleton.2
    (Node.all_of_children (fun _ hc => by cases hc) (List.forall_mem_singleton.2 (additions_finite n)))
  have hdepth : ((additionsScript n).toJson float).depth = 3 * n + 7 := by
    simp only [additionsScript, Module.toJson, Build.exprStmt, Build.stmt, encodeStmts, encodeStmt,
      encodeStmtKind, encodeSpan, tagged, Json.depth, Json.depth_int, depthOfMembers, depthOfItems,
      depth_additions]
    omega
  rw [ofJsonWithin?_toJson hfloat hfinite, hdepth]
  exact if_congr (by rw [Module.usualLevels]; omega) rfl rfl

end ScriptSandbox

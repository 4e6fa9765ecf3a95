import ScriptSandbox.Proofs.Profile
import ScriptSandbox.Syntax.Decode

/-!
# Expressions as documents

An expression is read back from its document by a reader that may enter as many levels as the document
has, and by no other (`expr?_encode`). Its kind is read part by part, which takes a reader of the
expressions directly inside it and nothing else (`exprKind?_encode`). What a reader may enter gets less
from part to part (`Reads.record`, `reads_list`), as the documents do, so that the two never part.
-/

namespace ScriptSandbox

open Syntax

/-! ## Numbers and texts -/

namespace Json

@[simp] theorem toInt?_int (n : Int) : (Json.int n).toInt? = some n := by
  show JsonNumber.toInt? (.ofInt n) = some n
  unfold JsonNumber.toInt? JsonNumber.ofInt
  by_cases h : n < 0
  · have hneg : -(n.natAbs : Int) = n := by omega
    have hzero : (n.natAbs == 0) = false := beq_eq_false_iff_ne.2 (by omega)
    simp only [h, hneg, hzero, decide_true, Bool.not_true, Bool.and_false, Bool.or_false, if_true,
      Bool.false_eq_true, if_false]
  · have hpos : (n.natAbs : Int) = n := by omega
    simp only [h, hpos, decide_false, Bool.not_true, Bool.false_and, Bool.or_false, Bool.false_eq_true,
      if_false]

theorem toNat?_int {n bound : Nat} (h : n < bound) : (Json.int n).toNat? bound = some n := by
  rw [toNat?, toInt?_int]
  simp [h]

end Json

namespace Syntax

@[simp] theorem uint32?_int (n : UInt32) : uint32? (.int n.toNat) = some n := by
  rw [uint32?, Json.toNat?_int n.toNat_lt, Option.map_some, UInt32.ofNat_toNat]

@[simp] theorem int64?_int (n : Int64) : int64? (.int n.toInt) = some n := by
  simp [int64?, Integer.fit?]

@[simp] theorem char?_singleton (c : Char) : char? (.string (String.singleton c)) = some c := by
  simp [char?, Json.toString?]

end Syntax

/-! ## Levels -/

/-- A reader reads a value back from its document if it may enter all levels of the document, and reads
nothing otherwise. The bound is on the numbers of levels that are looked at. -/
def Reads {α : Type} (read : Nat → Json → Option α) (bound : Nat) (json : Json) (a : α) : Prop :=
  ∀ levels ≤ bound, read levels json = if json.depth ≤ levels then some a else none

section Depth

variable {levels : Nat} {json : Json}

@[simp] theorem Json.depth_null : Json.null.depth = 0 := rfl

@[simp] theorem Json.depth_bool (b : Bool) : (Json.bool b).depth = 0 := rfl

@[simp] theorem Json.depth_number (n : JsonNumber) : (Json.number n).depth = 0 := rfl

@[simp] theorem Json.depth_int (n : Int) : (Json.int n).depth = 0 := rfl

@[simp] theorem Json.depth_string (s : String) : (Json.string s).depth = 0 := rfl

@[simp] theorem Json.depth_array (items : List Json) :
    (Json.array items).depth = depthOfItems items + 1 := by
  rw [Json.depth]

@[simp] theorem Json.depth_object (members : List (String × Json)) :
    (Json.object members).depth = depthOfMembers members + 1 := by
  rw [Json.depth]

@[simp] theorem depthOfItems_nil : depthOfItems [] = 0 := rfl

@[simp] theorem depthOfItems_cons_le {rest : List Json} :
    depthOfItems (json :: rest) ≤ levels ↔ json.depth ≤ levels ∧ depthOfItems rest ≤ levels := by
  rw [depthOfItems, Nat.max_le]

@[simp] theorem depthOfMembers_nil : depthOfMembers [] = 0 := rfl

@[simp] theorem depthOfMembers_cons_le {name : String} {rest : List (String × Json)} :
    depthOfMembers ((name, json) :: rest) ≤ levels ↔
      json.depth ≤ levels ∧ depthOfMembers rest ≤ levels := by
  rw [depthOfMembers, Nat.max_le]

/-- What is read on condition is read on with on condition. -/
@[simp] theorem ite_some_bind {α β : Type} {p : Prop} [Decidable p] (a : α) (f : α → Option β) :
    (if p then some a else none).bind f = if p then f a else none := by
  split <;> rfl

@[simp] theorem ite_some_map {α β : Type} {p : Prop} [Decidable p] (a : α) (f : α → β) :
    (if p then some a else none).map f = if p then some (f a) else none := by
  split <;> rfl

end Depth

namespace Reads

variable {α : Type} {read : Nat → Json → Option α} {bound : Nat} {a : α}

/-- What has no levels is read with none left. -/
theorem flat {json : Json} (hdepth : json.depth = 0) (h : ∀ levels, read levels json = some a) :
    Reads read bound json a := fun levels _ => by rw [h, hdepth, if_pos (Nat.zero_le _)]

/-- To read a record takes a level, and then the levels of its members. -/
theorem record_of_lt {members : List (String × Json)} (hzero : read 0 (.object members) = none)
    (h : ∀ levels < bound, read (levels + 1) (.object members) =
      if depthOfMembers members ≤ levels then some a else none) :
    Reads read bound (.object members) a
  | 0, _ => by simp [hzero]
  | levels + 1, hlevels => by simp [h levels hlevels]

theorem record {members : List (String × Json)} (hzero : read 0 (.object members) = none)
    (h : ∀ levels ≤ bound, read (levels + 1) (.object members) =
      if depthOfMembers members ≤ levels then some a else none) :
    Reads read bound (.object members) a :=
  record_of_lt hzero fun levels hlevels => h levels (Nat.le_of_lt hlevels)

/-- To read a kind with named parts takes two levels, and then those of its parts. -/
theorem kind_of_lt {tag : String} {parts : List (String × Json)}
    (hzero : read 0 (Syntax.kind tag parts) = none)
    (hone : read 1 (Syntax.kind tag parts) = none)
    (h : ∀ levels < bound, read (levels + 2) (Syntax.kind tag parts) =
      if depthOfMembers parts ≤ levels then some a else none) :
    Reads read bound (Syntax.kind tag parts) a := by
  refine record_of_lt hzero fun levels hlevels => ?_
  rw [Syntax.kind, tagged] at hone h
  cases levels with
  | zero => simp [hone, depthOfMembers]
  | succ levels => simp [h levels (Nat.lt_of_succ_lt hlevels)]

theorem kind {tag : String} {parts : List (String × Json)}
    (hzero : read 0 (Syntax.kind tag parts) = none)
    (hone : read 1 (Syntax.kind tag parts) = none)
    (h : ∀ levels ≤ bound, read (levels + 2) (Syntax.kind tag parts) =
      if depthOfMembers parts ≤ levels then some a else none) :
    Reads read bound (Syntax.kind tag parts) a :=
  kind_of_lt hzero hone fun levels hlevels => h levels (Nat.le_of_lt hlevels)

end Reads

namespace Syntax

section Lists

variable {α : Type} {read : Nat → Json → Option α} {bound : Nat} {jsons : List Json} {as : List α}

theorem mapM_reads (h : List.Forall₂ (Reads read bound) jsons as) {levels : Nat}
    (hlevels : levels ≤ bound) :
    jsons.mapM (read levels) = if depthOfItems jsons ≤ levels then some as else none := by
  induction h with
  | nil => simp
  | cons hread _ ih =>
    rw [List.mapM_cons, hread levels hlevels, ih]
    simp [ite_and]

/-- To read a list takes a level, and then the levels of its items. -/
theorem reads_list (h : List.Forall₂ (Reads read bound) jsons as) :
    Reads (list? read) bound (.array jsons) as
  | 0, _ => by simp [list?]
  | levels + 1, hlevels => by simp [list?, mapM_reads h (Nat.le_of_lt hlevels)]

end Lists

/-! ## Parts of records -/

@[simp] theorem required_some {α : Type} (read : Json → Option α) (json : Json) :
    required read (some json) = read json := by
  rw [required]

@[simp] theorem defaulted_some {α : Type} (default : α) (read : Json → Option α) (json : Json) :
    defaulted default read (some json) = read json := by
  rw [defaulted]

@[simp] theorem optional_name (name : Option String) :
    optional Json.toString? (some (encodeOptionalName name)) = some name := by
  cases name <;> rfl

@[simp] theorem depth_optionalName (name : Option String) : (encodeOptionalName name).depth = 0 := by
  cases name <;> rfl

/-- A part that may be missing and is there is a value or null. -/
theorem optional_some {α : Type} (read : Nat → Json → Option α) (levels : Nat) (json : Json) :
    Syntax.optional (read levels) (some json) = nullable read levels json := by
  cases json <;> rfl

@[simp] theorem optional_null {α : Type} (read : Json → Option α) :
    Syntax.optional read (some .null) = some none := by
  rw [Syntax.optional]

@[simp] theorem optional_char (c : Char) :
    Syntax.optional char? (some (.string (String.singleton c))) = some (some c) := by
  rw [Syntax.optional, char?_singleton, Option.map_some]
  nofun

theorem span?_object (levels : Nat) (line col : Json) :
    span? (levels + 1) (.object [("line", line), ("col", col)]) =
      (uint32? line).bind fun line => (uint32? col).map (Span.mk line) := by
  unfold span?
  -- a bound of thirty-two bits is not to be computed
  generalize uint32? = read
  simp [fields?, parts?, Json.member?, Option.map_eq_bind]

theorem span?_encodeSpan (s : Span) (bound : Nat) : Reads span? bound (encodeSpan s) s := by
  refine .record rfl fun levels _ => ?_
  rw [span?_object, uint32?_int, uint32?_int]
  simp

/-! ## Operators and constants -/

@[simp] theorem named?_binaryOp (op : BinaryOp) (levels : Nat) :
    named? BinaryOp.tag BinaryOp.all levels (.string op.tag) = some op := by
  cases op <;> rfl

@[simp] theorem named?_unaryOp (op : UnaryOp) (levels : Nat) :
    named? UnaryOp.tag UnaryOp.all levels (.string op.tag) = some op := by
  cases op <;> rfl

@[simp] theorem named?_boolOp (op : BoolOp) (levels : Nat) :
    named? BoolOp.tag BoolOp.all levels (.string op.tag) = some op := by
  cases op <;> rfl

theorem named?_compareOps (ops : List CompareOp) (bound : Nat) :
    Reads (list? (named? CompareOp.tag CompareOp.all)) bound
      (.array (ops.map fun op => .string op.tag)) ops := by
  refine reads_list ?_
  induction ops with
  | nil => exact .nil
  | cons op rest ih => exact .cons (.flat rfl fun levels => by cases op <;> rfl) ih

end Syntax

/-- Finite doubles are written as numbers that read back as them. -/
def WritesDoubles (float : Binary64 → Json) : Prop :=
  ∀ x : Binary64, x.isFinite = true → ∃ n, float x = .number n ∧ n.toBinary64? = some x

/-- A constant that is finite if it is a double. -/
def Constant.IsFinite (c : Constant) : Prop := ∀ x, c = .float x → x.isFinite = true

theorem constant?_encode {float : Binary64 → Json} (hfloat : WritesDoubles float) {c : Constant}
    (h : c.IsFinite) (bound : Nat) : Reads constant? bound (encodeConstant float c) c := by
  cases c with
  | none => exact .flat rfl fun levels => rfl
  | float x =>
    obtain ⟨n, hn, hx⟩ := hfloat x (h x rfl)
    exact .record rfl fun levels _ => by simp [constant?, variant?, hn, hx]
  | bool b => exact .record rfl fun levels _ => by simp [constant?, variant?, Json.toBool?]
  | int n => exact .record rfl fun levels _ => by simp [constant?, variant?]
  | str s => exact .record rfl fun levels _ => by simp [constant?, variant?, Json.toString?]

/-! ## Expressions -/

section Expressions

variable {float : Binary64 → Json} {expr : Nat → Json → Option Expr} {bound : Nat}

/-- A reader reads an expression back. -/
def ReadsExpr (float : Binary64 → Json) (expr : Nat → Json → Option Expr) (bound : Nat) (e : Expr) :
    Prop :=
  Reads expr bound (encodeExpr float e) e

theorem nullable_expr {o : Option Expr} (h : ∀ e ∈ o.toList, ReadsExpr float expr bound e) :
    Reads (nullable expr) bound (encodeOptionalExpr float o) o := by
  cases o with
  | none => exact .flat rfl fun levels => rfl
  | some e =>
    obtain ⟨kind, span⟩ := e
    intro levels hlevels
    have he := h ⟨kind, span⟩ (by simp) levels hlevels
    simp only [encodeOptionalExpr, encodeExpr] at he ⊢
    rw [nullable, he]
    · exact ite_some_map ..
    · nofun

theorem list_exprs {es : List Expr} (h : ∀ e ∈ es, ReadsExpr float expr bound e) :
    Reads (list? expr) bound (.array (encodeExprs float es)) es := by
  refine reads_list ?_
  induction es with
  | nil => exact .nil
  | cons e rest ih => exact .cons (h e (by simp)) (ih fun e he => h e (by simp [he]))

theorem list_optional_exprs {os : List (Option Expr)}
    (h : ∀ e ∈ os.filterMap id, ReadsExpr float expr bound e) :
    Reads (list? (nullable expr)) bound (.array (encodeOptionalExprs float os)) os := by
  refine reads_list ?_
  induction os with
  | nil => exact .nil
  | cons o rest ih =>
    exact .cons (nullable_expr fun e he => h e (by cases o <;> simp_all))
      (ih fun e he => h e (by cases o <;> simp_all))

theorem list_keywords {ks : List Keyword} (h : ∀ k ∈ ks, ReadsExpr float expr bound k.value) :
    Reads (list? (keyword? expr)) bound (.array (encodeKeywords float ks)) ks := by
  refine reads_list ?_
  induction ks with
  | nil => exact .nil
  | cons k rest ih =>
    obtain ⟨hvalue, hrest⟩ := List.forall_mem_cons.1 h
    obtain ⟨arg, value⟩ := k
    refine .cons (.record rfl fun levels hlevels => ?_) (ih hrest)
    simp [keyword?, fields?, parts?, Json.member?, hvalue levels hlevels]

theorem list_comprehensions {cs : List Comprehension}
    (h : ∀ e ∈ cs.flatMap Comprehension.parts, ReadsExpr float expr bound e) :
    Reads (list? (comprehension? expr)) bound (.array (encodeComprehensions float cs)) cs := by
  refine reads_list ?_
  induction cs with
  | nil => exact .nil
  | cons c rest ih =>
    obtain ⟨target, iter, ifs⟩ := c
    simp only [List.flatMap_cons, Comprehension.parts, List.cons_append, List.forall_mem_cons,
      List.forall_mem_append] at h
    obtain ⟨htarget, hiter, hifs, hrest⟩ := h
    refine .cons (.record rfl fun levels hlevels => ?_) (ih hrest)
    simp [comprehension?, fields?, parts?, Json.member?, ite_and, htarget levels hlevels,
      hiter levels hlevels, list_exprs hifs levels hlevels]

theorem list_params {ps : List Param}
    (h : ∀ e ∈ ps.filterMap (·.default), ReadsExpr float expr bound e) :
    Reads (list? (param? expr)) bound (.array (encodeParams float ps)) ps := by
  refine reads_list ?_
  induction ps with
  | nil => exact .nil
  | cons p rest ih =>
    obtain ⟨name, default⟩ := p
    have hdefault : Reads (nullable expr) bound (encodeOptionalExpr float default) default :=
      nullable_expr fun e he => h e (by cases default <;> simp_all)
    refine .cons (.record rfl fun levels hlevels => ?_)
      (ih fun e he => h e (by cases default <;> simp_all))
    simp [param?, fields?, parts?, Json.member?, Json.toString?, optional_some expr,
      hdefault levels hlevels]

theorem parameters?_encode {p : Parameters} (h : ∀ e ∈ p.defaults, ReadsExpr float expr bound e) :
    Reads (parameters? expr) bound (encodeParameters float p) p := by
  obtain ⟨posonly, args, vararg, kwonly, kwarg⟩ := p
  simp only [Parameters.defaults, Parameters.positional, List.filterMap_append,
    List.forall_mem_append] at h
  obtain ⟨⟨hposonly, hargs⟩, hkwonly⟩ := h
  refine .record rfl fun levels hlevels => ?_
  simp [parameters?, fields?, parts?, Json.member?, ite_and, list_params hposonly levels hlevels,
    list_params hargs levels hlevels, list_params hkwonly levels hlevels]

section Kinds

variable {tag : String} {parts : Json} {kind : ExprKind}

/-- A kind that no reader of parts knows is a constant or a name. -/
theorem exprKind?_tagged (hconstant : tag ≠ "Constant") (hname : tag ≠ "Name") (levels : Nat) :
    exprKind? expr (levels + 1) (tagged tag parts) =
      (operation? expr tag levels parts).or
        ((access? expr tag levels parts).or (display? expr tag levels parts)) := by
  unfold exprKind? tagged variant?
  simp only [Option.bind_eq_bind, Option.bind_some]

/-- To read a kind takes a level, and then those of its parts. -/
theorem reads_kind {read : Nat → Json → Option ExprKind}
    (hread : ∀ levels, exprKind? expr (levels + 1) (tagged tag parts) = read levels parts)
    (h : Reads read bound parts kind) : Reads (exprKind? expr) bound (tagged tag parts) kind :=
  .record rfl fun levels hlevels => by
    rw [tagged] at hread
    simp [hread, h levels hlevels]

theorem exprKind?_operation (htag : tag ≠ "Constant" ∧ tag ≠ "Name")
    (hother : ∀ levels, access? expr tag levels parts = none ∧ display? expr tag levels parts = none)
    (h : Reads (operation? expr tag) bound parts kind) :
    Reads (exprKind? expr) bound (tagged tag parts) kind :=
  reads_kind (fun levels => by
    rw [exprKind?_tagged htag.1 htag.2, (hother levels).1, (hother levels).2, Option.or_none,
      Option.or_none]) h

theorem exprKind?_access (htag : tag ≠ "Constant" ∧ tag ≠ "Name")
    (hother : ∀ levels, operation? expr tag levels parts = none ∧ display? expr tag levels parts = none)
    (h : Reads (access? expr tag) bound parts kind) :
    Reads (exprKind? expr) bound (tagged tag parts) kind :=
  reads_kind (fun levels => by
    rw [exprKind?_tagged htag.1 htag.2, (hother levels).1, (hother levels).2, Option.none_or,
      Option.or_none]) h

theorem exprKind?_display (htag : tag ≠ "Constant" ∧ tag ≠ "Name")
    (hother : ∀ levels, operation? expr tag levels parts = none ∧ access? expr tag levels parts = none)
    (h : Reads (display? expr tag) bound parts kind) :
    Reads (exprKind? expr) bound (tagged tag parts) kind :=
  reads_kind (fun levels => by
    rw [exprKind?_tagged htag.1 htag.2, (hother levels).1, (hother levels).2, Option.none_or,
      Option.none_or]) h

end Kinds

theorem exprKind?_encode (hfloat : WritesDoubles float) {kind : ExprKind}
    (hconstant : ∀ c, kind = .constant c → c.IsFinite)
    (h : ∀ e ∈ kind.parts, ReadsExpr float expr bound e) :
    Reads (exprKind? expr) bound (encodeExprKind float kind) kind := by
  cases kind with
  | constant c =>
    have hc := constant?_encode hfloat (hconstant c rfl) bound
    exact .record rfl fun levels hlevels => by simp [exprKind?, variant?, hc levels hlevels]
  | name id => exact .record rfl fun levels _ => by simp [exprKind?, variant?, Json.toString?]
  | binOp | unaryOp | ifExp | namedExpr =>
    refine exprKind?_operation (by decide) (fun _ => ⟨rfl, rfl⟩) (.record rfl fun levels hlevels => ?_)
    have hparts := fun e he => h e he levels hlevels
    simp only [ExprKind.parts, List.forall_mem_cons] at hparts
    simp [operation?, parts?, Json.member?, Json.toString?, ite_and, hparts]
  | boolOp op values =>
    refine exprKind?_operation (by decide) (fun _ => ⟨rfl, rfl⟩) (.record rfl fun levels hlevels => ?_)
    have hvalues : ∀ e ∈ values, ReadsExpr float expr bound e := h
    simp [operation?, parts?, Json.member?, list_exprs hvalues levels hlevels]
  | joinedStr parts =>
    refine exprKind?_operation (by decide) (fun _ => ⟨rfl, rfl⟩) fun levels hlevels => ?_
    have hparts : ∀ e ∈ parts, ReadsExpr float expr bound e := h
    simp only [operation?, list_exprs hparts levels hlevels, ite_some_map]
  | compare left ops comparators =>
    obtain ⟨hleft, hcomparators⟩ := List.forall_mem_cons.1 h
    refine exprKind?_operation (by decide) (fun _ => ⟨rfl, rfl⟩) (.record rfl fun levels hlevels => ?_)
    simp [operation?, parts?, Json.member?, ite_and, hleft levels hlevels,
      named?_compareOps ops bound levels hlevels, list_exprs hcomparators levels hlevels]
  | formattedValue value conversion spec =>
    obtain ⟨hvalue, hspec⟩ := List.forall_mem_cons.1 h
    refine exprKind?_operation (by decide) (fun _ => ⟨rfl, rfl⟩) (.record rfl fun levels hlevels => ?_)
    cases conversion <;>
      simp [operation?, parts?, Json.member?, ite_and, hvalue levels hlevels, optional_some expr,
        nullable_expr hspec levels hlevels]
  | «attribute» | subscript =>
    refine exprKind?_access (by decide) (fun _ => ⟨rfl, rfl⟩) (.record rfl fun levels hlevels => ?_)
    have hparts := fun e he => h e he levels hlevels
    simp only [ExprKind.parts, List.forall_mem_cons] at hparts
    simp [access?, parts?, Json.member?, Json.toString?, ite_and, hparts]
  | call callee args keywords =>
    simp only [ExprKind.parts, List.cons_append, List.forall_mem_cons, List.forall_mem_append,
      List.forall_mem_map] at h
    obtain ⟨hcallee, hargs, hkeywords⟩ := h
    refine exprKind?_access (by decide) (fun _ => ⟨rfl, rfl⟩) (.record rfl fun levels hlevels => ?_)
    simp [access?, parts?, Json.member?, ite_and, hcallee levels hlevels,
      list_exprs hargs levels hlevels, list_keywords hkeywords levels hlevels]
  | slice lower upper step =>
    simp only [ExprKind.parts, List.forall_mem_append] at h
    obtain ⟨⟨hlower, hupper⟩, hstep⟩ := h
    refine exprKind?_access (by decide) (fun _ => ⟨rfl, rfl⟩) (.record rfl fun levels hlevels => ?_)
    simp [access?, parts?, Json.member?, ite_and, optional_some expr,
      nullable_expr hlower levels hlevels, nullable_expr hupper levels hlevels,
      nullable_expr hstep levels hlevels]
  | list elements | tuple elements | set elements =>
    refine exprKind?_display (by decide) (fun _ => ⟨rfl, rfl⟩) fun levels hlevels => ?_
    have helements : ∀ e ∈ elements, ReadsExpr float expr bound e := h
    simp only [display?, list_exprs helements levels hlevels, ite_some_map]
  | dict keys values =>
    obtain ⟨hkeys, hvalues⟩ := List.forall_mem_append.1 h
    refine exprKind?_display (by decide) (fun _ => ⟨rfl, rfl⟩) (.record rfl fun levels hlevels => ?_)
    simp [display?, parts?, Json.member?, ite_and, list_optional_exprs hkeys levels hlevels,
      list_exprs hvalues levels hlevels]
  | starred value =>
    refine exprKind?_display (by decide) (fun _ => ⟨rfl, rfl⟩) fun levels hlevels => ?_
    simp only [display?, h value (by simp [ExprKind.parts]) levels hlevels, ite_some_map]
  | listComp element | setComp element | generatorExp element =>
    obtain ⟨helement, hclauses⟩ := List.forall_mem_cons.1 h
    refine exprKind?_display (by decide) (fun _ => ⟨rfl, rfl⟩) (.record rfl fun levels hlevels => ?_)
    simp [display?, elementComp?, parts?, Json.member?, ite_and, helement levels hlevels,
      list_comprehensions hclauses levels hlevels]
  | dictComp key value =>
    simp only [ExprKind.parts, List.forall_mem_cons] at h
    obtain ⟨hkey, hvalue, hclauses⟩ := h
    refine exprKind?_display (by decide) (fun _ => ⟨rfl, rfl⟩) (.record rfl fun levels hlevels => ?_)
    simp [display?, parts?, Json.member?, ite_and, hkey levels hlevels, hvalue levels hlevels,
      list_comprehensions hclauses levels hlevels]
  | lambda params body =>
    simp only [ExprKind.parts, List.forall_mem_append, List.forall_mem_singleton] at h
    obtain ⟨hparams, hbody⟩ := h
    refine exprKind?_display (by decide) (fun _ => ⟨rfl, rfl⟩) (.record rfl fun levels hlevels => ?_)
    simp [display?, lambda?, fields?, parts?, Json.member?, ite_and, hbody levels hlevels,
      parameters?_encode hparams levels hlevels]

end Expressions

/-! ## Finite constants -/

mutual

/-- The constants that a pattern compares by identity, at any depth. -/
def Pattern.singletons : Pattern → List Constant
  | .singleton constant => [constant]
  | .value _ | .star _ | .as none _ => []
  | .sequence patterns | .or patterns | .mapping _ patterns _ => singletonsIn patterns
  | .as (some pattern) _ => pattern.singletons

/-- The constants that patterns compare by identity. -/
def Pattern.singletonsIn : List Pattern → List Constant
  | [] => []
  | pattern :: rest => pattern.singletons ++ singletonsIn rest

end

/-- The constants in a node that are not in nodes inside it. -/
def Node.constants : Node → List Constant
  | .expr ⟨.constant c, _⟩ => [c]
  | .stmt ⟨.match _ cases, _⟩ => cases.flatMap (·.pattern.singletons)
  | _ => []

/-- The constants in a node are finite. -/
def Node.FiniteConstants (n : Node) : Prop := ∀ c ∈ n.constants, c.IsFinite

/-- All constants of a script are finite. -/
def Module.FiniteConstants (m : Module) : Prop :=
  ∀ st ∈ m.body, (Node.stmt st).All Node.FiniteConstants

section Expressions

variable {float : Binary64 → Json} (hfloat : WritesDoubles float)

include hfloat

/-- An expression is read back, as long as there are levels for it. -/
theorem expr?_encode {fuel : Nat} {e : Expr} (hfinite : (Node.expr e).All Node.FiniteConstants) :
    ReadsExpr float (expr? fuel) fuel e := by
  induction fuel generalizing e with
  | zero =>
    obtain ⟨kind, span⟩ := e
    exact .record_of_lt rfl fun levels hlevels => absurd hlevels (Nat.not_lt_zero _)
  | succ fuel ih =>
    obtain ⟨kind, span⟩ := e
    have hkind : Reads (exprKind? (expr? fuel)) fuel (encodeExprKind float kind) kind := by
      refine exprKind?_encode hfloat (fun c hc => ?_) fun e he =>
        ih (hfinite.child (List.mem_map_of_mem he))
      subst hc
      exact hfinite.self c (by simp [Node.constants])
    -- the level of the node is taken, so that those left are within what the fuel bounds
    refine .record_of_lt rfl fun levels hlevels => ?_
    have hle : levels ≤ fuel := Nat.le_of_lt_succ hlevels
    simp [expr?, fields?, parts?, Json.member?, ite_and, hkind levels hle,
      span?_encodeSpan span fuel levels hle]

end Expressions

end ScriptSandbox

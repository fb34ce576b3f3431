import PgClickhouse.GroupedText
import PgClickhouse.SubPlanQuery

/-!
# Bodies of subplans

The body of a subplan is printed with the root of the subquery, but with the scan of the outer
statement.  The emitters ask the scan for the engine and for its range table indexes, which
then are those of another range table.

* `body_alike_iff` : when the body has the text it has in a statement of its own.
-/

namespace PgClickhouse.Context

open Deparse Aggregate SelfDelimiting

/-! ## The subquery -/

structure TargetEntry where
  expr : Expr
  resjunk : Bool

/-- WHERE or HAVING: clauses, or one condition. -/
inductive Quals
  | list (clauses : List Expr)
  | expr (condition : Expr)

/-- The tree of a subquery, with its planner information.  `relation` is the remote name of a
table and `fpinfo` what its options say. -/
structure Query where
  root : PlannerInfo
  fromlist : List FromEntry
  relation : Nat → Bytes
  fpinfo : Nat → CHFdwRelationInfo
  quals : Option Quals
  targetList : List TargetEntry
  groupClause : List Expr
  havingQual : Option Quals
  hasAggs : Bool
  unsupported : Bool
  contain_subplans : Bool

namespace Query

/-- The first entry of the select list that is not junk. -/
def out (query : Query) : Option TargetEntry :=
  query.targetList.find? fun tle => !tle.resjunk

/-- The scan of the subquery in a statement of its own.  A join has no engine. -/
def scanrel (query : Query) : ScanRel where
  relids := query.fromlist.map FromEntry.rtindex
  fpinfo :=
    match query.fromlist with
    | [entry] => query.fpinfo entry.relid
    | _ => ⟨.CH_DEFAULT, []⟩

end Query

/-- The comparison of an ANY subplan. -/
structure TestExpr where
  oprname : Bytes
  probe : Expr
  second_is_param : Bool

structure SubPlan where
  subLinkType : SubLinkType
  testexpr : Option TestExpr
  query : Query
  init_plans : Bool

/-! ## The gate -/

section

variable (walker : SubPlanPart → ExprTruthCtx → Bool) (root : PlannerInfo) (outer : ScanRel)

def notin_prove_nullability (probe : Expr) (query : Query) : NotInNullability :=
  match query.out with
  | none => ⟨true, true⟩
  | some out =>
    { PROBE_NULLABLE := !expr_never_null root outer probe
      OUTPUT_NULLABLE := !expr_never_null query.root query.scanrel out.expr }

def classify_notin_subplan (probe : Expr) (query : Query) : NotInShipForm :=
  if notin_prove_nullability root outer probe query = ⟨false, false⟩ then .PLAIN
  else if query.groupClause.isEmpty && query.havingQual.isNone && !query.hasAggs then .GUARDED
  else .NONE

/-- A NOT IN needs a form for its context. -/
def notin_shippable (subplan : SubPlan) (ctx : ExprTruthCtx) : Bool :=
  subplan.testexpr.all fun op =>
    let form := classify_notin_subplan root outer op.probe subplan.query
    if ctx = .NEGATED then form ≠ .NONE else form = .PLAIN

def testexpr_shippable (subplan : SubPlan) : Bool :=
  subplan.testexpr.any fun op =>
    chfdw_is_equal_op op.oprname == .EQ && op.second_is_param && walker .testexpr_lhs .EXACT

def body_shippable (query : Query) : Bool :=
  (List.range query.targetList.length).all (fun index => walker (.target index) .EXACT) &&
    walker .quals .TRUTH && (query.havingQual.isNone || walker .havingQual .TRUTH)

/-- `server` and `version` are those of the outer scan. -/
def is_shippable_subplan (server : Option Nat) (version : Option ch_server_version)
    (subplan : SubPlan) (ctx : ExprTruthCtx) : Bool :=
  let query := subplan.query
  [SubLinkType.EXPR, .EXISTS, .ANY].contains subplan.subLinkType &&
  server.any fun server =>
    !(query.unsupported || query.fromlist.isEmpty) &&
    !(subplan.init_plans || query.contain_subplans) &&
    !(subplan.subLinkType == .EXPR && (!query.hasAggs || !query.groupClause.isEmpty)) &&
    query.fromlist.all (from_shippable server) &&
    !(subplan.subLinkType == .ANY && !testexpr_shippable walker subplan) &&
    !(subplan.subLinkType == .EXPR &&
      (query.targetList.filter fun tle => !tle.resjunk).length != 1) &&
    walker .args .EXACT &&
    body_shippable walker query &&
    !(subplan.subLinkType == .ANY && ctx != .TRUTH && !notin_shippable root outer subplan ctx) &&
    version.any fun version => chfdw_version_ge version 25 8

end

/-! ## The text -/

/-- The FROM list, without the aliases. -/
def deparseSubPlanFrom (query : Query) : List Token :=
  separate .comma (query.fromlist.map fun entry =>
    [.lexeme (.word (query.relation entry.relid))])

section

variable (root : PlannerInfo) (scanrel : ScanRel)

def deparseSubPlanQuals : Quals → List Token
  | .list clauses => appendConditions root scanrel clauses
  | .expr condition => deparseExpr root scanrel Flags.condition condition

end

/-- EXISTS ignores the select list. -/
def deparseSubPlanTargetList (subplan : SubPlan) (scanrel : ScanRel) : List Token :=
  if subplan.subLinkType = .EXISTS then [.word "1"]
  else separate .comma ((subplan.query.targetList.filter fun tle => !tle.resjunk).map
    fun tle => deparseExpr subplan.query.root scanrel Flags.zero tle.expr)

/-- The condition of a null probe, behind the quals. -/
def nullProbe (query : Query) (scanrel : ScanRel) : List Token :=
  match query.out with
  | none => []
  | some out =>
      (if query.quals.isSome then .word "AND" else .word "WHERE") :: .lparen ::
        (deparseExpr query.root scanrel Flags.zero out.expr ++ [.word "IS NULL", .rparen])

/-- The body below the scan `scanrel`. -/
def deparseSubPlanQuery (subplan : SubPlan) (scanrel : ScanRel) (form : SubPlanBodyForm) :
    List Token :=
  let query := subplan.query
  .word "SELECT" ::
    ((if form = .NULL_PROBE then [.word "1"] else deparseSubPlanTargetList subplan scanrel) ++
      .word "FROM" :: (deparseSubPlanFrom query ++
        ((match query.quals with
          | none => []
          | some quals => .word "WHERE" :: deparseSubPlanQuals query.root scanrel quals) ++
        ((if form = .NULL_PROBE then nullProbe query scanrel else []) ++
        (appendGroupByClause query.root scanrel query.groupClause ++
          match query.havingQual with
          | none => []
          | some quals => .word "HAVING" :: deparseSubPlanQuals query.root scanrel quals)))))

/-! ## What the scan tells -/

/-- A list that the comparison takes as it is, in any scan. -/
def listed (truth_ctx : Bool) (op : Comparison) (useOr : Bool) : Expr → Bool
  | .Const node =>
      node.array.any fun
        | .empty => false
        | .elements hasnull =>
            (!hasnull || (truth_ctx && useOr && op == .eq)) &&
              ((useOr && op == .eq) || (!useOr && op == .ne))
  | _ => false

section

variable (root : PlannerInfo) (scanrel scanrel' : ScanRel)

/-- No element to compare with, or neither an element nor the probe that can be NULL. -/
def cheap_ok (arg1 arg2 : Expr) : Bool :=
  saop_array_nulls root scanrel arg2 == .EMPTY ||
    (saop_array_nulls root scanrel arg2 == .NULL_FREE && expr_never_null root scanrel arg1)

mutual

/-- What is printed of an expression reads the same in both scans: the sign column for the
aggregates that it changes, whether the arguments of an aggregate are states, and the proofs
that no NULL is compared. -/
def Expr.Alike (flags : Flags) : Expr → Prop
  | .Var _ => True
  | .Const _ => True
  | .Param _ => True
  | .RelabelType arg => arg.Alike (Pass.keep.flags flags)
  | .CoerceViaIOExpr _ arg => arg.Alike (Pass.exact.flags flags)
  | .concat left right =>
      left.Alike (Pass.exact.flags flags) ∧
        (spanUnit flags right = none → right.Alike (Pass.exact.flags flags))
  | .neg_ip left right =>
      left.Alike (Pass.exact.flags flags) ∧ right.Alike (Pass.exact.flags flags)
  | .timezone zone source =>
      source.Alike (Pass.exact.flags flags) ∧ zone.Alike (Pass.exact.flags flags)
  | .ScalarArrayOpExpr op useOr arg1 arg2 =>
      (listed flags.truth_ctx op useOr arg2 = false →
          cheap_ok root scanrel arg1 arg2 = cheap_ok root scanrel' arg1 arg2) ∧
        arg1.Alike (Pass.exact.flags flags) ∧
        arg2.Alike (flags.array (listed flags.truth_ctx op useOr arg2))
  | .Aggref node args aggfilter =>
      (PartialArray node ∨
          aggref_on_aggregate_function root scanrel args =
              aggref_on_aggregate_function root scanrel' args ∧
            (signed node.aggfnoid = true → scanrel.sign = scanrel'.sign)) ∧
        (node.aggstar = false → args.Alike (Pass.exact.flags flags)) ∧
        (node.aggfilter = true → aggfilter.Alike (Pass.truth.flags flags))
  | .node _ parts => parts.Alike flags

def Args.Alike (flags : Flags) : Args → Prop
  | .nil => True
  | .cons arg rest => arg.Alike flags ∧ rest.Alike flags

def Parts.Alike (flags : Flags) : Parts → Prop
  | .last _ => True
  | .lexeme _ rest => rest.Alike flags
  | .child pass arg rest => arg.Alike (pass.flags flags) ∧ rest.Alike flags
  | .unseen _ rest => rest.Alike flags

end

end

section

variable {root : PlannerInfo} {scanrel scanrel' : ScanRel} {truth_ctx : Bool}
  {op : Comparison} {useOr : Bool} {arg1 arg2 : Expr}

theorem listed_iff :
    saopForm root scanrel truth_ctx op useOr arg1 arg2 = .native ↔
      listed truth_ctx op useOr arg2 = true := by
  rw [saopForm_native_iff]
  constructor
  · rintro ⟨free, ok, operator⟩
    obtain ⟨node, hasnull, rfl, array⟩ := ok_in_expr_cases ok
    simp only [saop_array_nulls, array] at free
    cases hasnull <;> simp_all [listed]
  · intro native
    unfold listed at native
    split at native
    · rename_i node
      rcases array : node.array with _ | _ | hasnull
      · simp [array] at native
      · simp [array] at native
      · cases hasnull <;> simp_all [saop_array_nulls, is_ok_in_expr, and_assoc]
    · cases native

/-- The branch of a comparison depends on the scan only by the proofs of the cheap form. -/
theorem form_alike_iff :
    saopForm root scanrel truth_ctx op useOr arg1 arg2 =
        saopForm root scanrel' truth_ctx op useOr arg1 arg2 ↔
      (listed truth_ctx op useOr arg2 = false →
        cheap_ok root scanrel arg1 arg2 = cheap_ok root scanrel' arg1 arg2) := by
  by_cases native : listed truth_ctx op useOr arg2 = true
  · rw [listed_iff.mpr native, listed_iff.mpr native]
    exact iff_of_true rfl fun other => absurd (native.symm.trans other) nofun
  · have form (s : ScanRel) : saopForm root s truth_ctx op useOr arg1 arg2 =
        if cheap_ok root s arg1 arg2 then .cheap else .guarded :=
      saopForm_of_not_native fun same => native (listed_iff.mp same)
    rw [form, form, forall_prop_of_true (Bool.eq_false_iff.mpr native)]
    cases cheap_ok root scanrel arg1 arg2 <;> cases cheap_ok root scanrel' arg1 arg2 <;> decide

mutual

/-- With the same flags, that is all the text depends on. -/
theorem same_iff_alike (flags : Flags) : ∀ e : Expr,
    e.Same root scanrel scanrel' flags flags ↔ e.Alike root scanrel scanrel' flags
  | .Var _ => by rw [Expr.Same, Expr.Alike]
  | .Const node => by
      rw [Expr.Same, Expr.Alike]
      exact iff_of_true (.inr ⟨rfl, rfl⟩) trivial
  | .Param _ => by rw [Expr.Same, Expr.Alike]
  | .RelabelType arg => by
      rw [Expr.Same, Expr.Alike]
      exact same_iff_alike _ arg
  | .CoerceViaIOExpr none arg => by
      rw [Expr.Same, Expr.Alike]
      exact same_iff_alike _ arg
  | .CoerceViaIOExpr (some _) arg => by
      rw [Expr.Same, Expr.Alike, and_iff_left rfl]
      exact same_iff_alike _ arg
  | .concat left right => by
      rw [Expr.Same, Expr.Alike, same_iff_alike _ left, same_iff_alike _ right,
        eq_self_iff_true, true_and]
  | .neg_ip left right => by
      rw [Expr.Same, Expr.Alike, same_iff_alike _ left, same_iff_alike _ right]
  | .timezone zone source => by
      rw [Expr.Same, Expr.Alike, same_iff_alike _ zone, same_iff_alike _ source]
  | .ScalarArrayOpExpr op useOr arg1 arg2 => by
      rw [Expr.Same, Expr.Alike, form_alike_iff, same_iff_alike _ arg1, same_iff_alike _ arg2]
      have native : (saopForm root scanrel flags.truth_ctx op useOr arg1 arg2 == .native) =
          listed flags.truth_ctx op useOr arg2 := by
        rw [Bool.eq_iff_iff, beq_iff_eq, listed_iff]
      rw [native]
  | .Aggref node args aggfilter => by
      rw [Expr.Same, Expr.Alike, SameAggref, same_iff_alike_args _ args,
        same_iff_alike_args _ aggfilter]
  | .node _ parts => by
      rw [Expr.Same, Expr.Alike]
      exact same_iff_alike_parts flags parts

theorem same_iff_alike_args (flags : Flags) : ∀ args : Args,
    args.Same root scanrel scanrel' flags flags ↔ args.Alike root scanrel scanrel' flags
  | .nil => by rw [Args.Same, Args.Alike]
  | .cons arg rest => by
      rw [Args.Same, Args.Alike, same_iff_alike flags arg, same_iff_alike_args flags rest]

theorem same_iff_alike_parts (flags : Flags) : ∀ parts : Parts,
    parts.Same root scanrel scanrel' flags flags ↔ parts.Alike root scanrel scanrel' flags
  | .last _ => by rw [Parts.Same, Parts.Alike]
  | .lexeme _ rest => by
      rw [Parts.Same, Parts.Alike]
      exact same_iff_alike_parts flags rest
  | .child pass arg rest => by
      rw [Parts.Same, Parts.Alike, same_iff_alike _ arg, same_iff_alike_parts flags rest]
  | .unseen _ rest => by
      rw [Parts.Same, Parts.Alike]
      exact same_iff_alike_parts flags rest

end

end

/-! ## Clauses in two scans -/

section

variable (root : PlannerInfo) (scanrel scanrel' : ScanRel)

theorem tells_alike (flags : Flags) (e : Expr) :
    Tells (deparseExpr root scanrel flags e) (deparseExpr root scanrel' flags e)
      (e.Alike root scanrel scanrel' flags) :=
  (tells_deparseExpr root scanrel scanrel' (.inr rfl) e).congr (same_iff_alike flags e)

theorem tells_separate {α : Type} (separator : Token) {f g : α → List Token} (same : α → Prop)
    (texts : ∀ x, Tells (f x) (g x) (same x)) : ∀ l : List α,
    Tells (separate separator (l.map f)) (separate separator (l.map g)) (∀ x ∈ l, same x)
  | [] => (Tells.refl []).congr (iff_of_true trivial nofun)
  | [x] => (texts x).congr List.forall_mem_singleton.symm
  | x :: y :: l => by
      have rest := tells_separate separator same texts (y :: l)
      exact ((texts x).append (rest.cons separator)).congr List.forall_mem_cons.symm

theorem tells_deparseSortGroupClause (group : Expr) :
    Tells (deparseSortGroupClause root scanrel group) (deparseSortGroupClause root scanrel' group)
      (group.Alike root scanrel scanrel' (groupFlags group)) := by
  have text := tells_alike root scanrel scanrel' (groupFlags group) group
  cases group with
  | Var node => exact text
  | Const node =>
      rw [deparseExpr, deparseExpr] at text
      exact text
  | _ => exact (text.append_right [.rparen]).cons .lparen

theorem tells_appendGroupByClause (groupClause : List Expr) :
    Tells (appendGroupByClause root scanrel groupClause)
      (appendGroupByClause root scanrel' groupClause)
      (∀ group ∈ groupClause, group.Alike root scanrel scanrel' (groupFlags group)) := by
  unfold appendGroupByClause
  split
  · rename_i none_
    rw [List.isEmpty_iff.mp none_]
    exact (Tells.refl []).congr (iff_of_true trivial nofun)
  · exact (tells_separate .comma _ (tells_deparseSortGroupClause root scanrel scanrel')
      groupClause).cons _

def Quals.Alike : Quals → Prop
  | .list clauses => ∀ clause ∈ clauses, clause.Alike root scanrel scanrel' Flags.condition
  | .expr condition => condition.Alike root scanrel scanrel' Flags.condition

theorem tells_deparseSubPlanQuals (quals : Quals) :
    Tells (deparseSubPlanQuals root scanrel quals) (deparseSubPlanQuals root scanrel' quals)
      (quals.Alike root scanrel scanrel') := by
  cases quals with
  | list clauses =>
      refine tells_separate (.word "AND") _ (fun clause => ?_) clauses
      exact ((tells_alike root scanrel scanrel' Flags.condition clause).append_right
        [.rparen]).cons .lparen
  | expr condition => exact tells_alike root scanrel scanrel' Flags.condition condition

/-- A clause with its keyword, if there is one. -/
theorem tells_clause (keyword : Token) (quals : Option Quals) :
    Tells
      (match quals with
        | none => []
        | some quals => keyword :: deparseSubPlanQuals root scanrel quals)
      (match quals with
        | none => []
        | some quals => keyword :: deparseSubPlanQuals root scanrel' quals)
      (∀ qual ∈ quals, qual.Alike root scanrel scanrel') := by
  rcases quals with _ | quals
  · exact (Tells.refl []).congr (iff_of_true trivial nofun)
  · refine ((tells_deparseSubPlanQuals root scanrel scanrel' quals).cons keyword).congr ?_
    simp

end

/-! ## Bodies -/

/-- What is printed of a body reads the same in both scans. -/
structure SubPlan.Alike (subplan : SubPlan) (form : SubPlanBodyForm)
    (scanrel scanrel' : ScanRel) : Prop where
  targets : form = .QUERY → subplan.subLinkType ≠ .EXISTS →
    ∀ tle ∈ subplan.query.targetList, tle.resjunk = false →
      tle.expr.Alike subplan.query.root scanrel scanrel' Flags.zero
  quals : ∀ qual ∈ subplan.query.quals, qual.Alike subplan.query.root scanrel scanrel'
  probe : form = .NULL_PROBE → ∀ out ∈ subplan.query.out,
    out.expr.Alike subplan.query.root scanrel scanrel' Flags.zero
  groups : ∀ group ∈ subplan.query.groupClause,
    group.Alike subplan.query.root scanrel scanrel' (groupFlags group)
  having_ : ∀ qual ∈ subplan.query.havingQual, qual.Alike subplan.query.root scanrel scanrel'

section

variable (subplan : SubPlan) (scanrel scanrel' : ScanRel)

theorem tells_deparseSubPlanTargetList :
    Tells (deparseSubPlanTargetList subplan scanrel) (deparseSubPlanTargetList subplan scanrel')
      (subplan.subLinkType ≠ .EXISTS →
        ∀ tle ∈ subplan.query.targetList, tle.resjunk = false →
          tle.expr.Alike subplan.query.root scanrel scanrel' Flags.zero) := by
  unfold deparseSubPlanTargetList
  split
  · rename_i exists_
    exact (Tells.refl _).congr (iff_of_true trivial fun other => absurd exists_ other)
  · rename_i other
    refine (tells_separate .comma _ (fun tle : TargetEntry =>
      tells_alike subplan.query.root scanrel scanrel' Flags.zero tle.expr) _).congr ?_
    simp [other, List.mem_filter]

theorem tells_nullProbe :
    Tells (nullProbe subplan.query scanrel) (nullProbe subplan.query scanrel')
      (∀ out ∈ subplan.query.out,
        out.expr.Alike subplan.query.root scanrel scanrel' Flags.zero) := by
  unfold nullProbe
  rcases subplan.query.out with _ | out
  · exact (Tells.refl []).congr (iff_of_true trivial nofun)
  · have text := tells_alike subplan.query.root scanrel scanrel' Flags.zero out.expr
    refine (((text.append_right _).cons _).cons _).congr ?_
    simp

theorem tells_deparseSubPlanQuery (form : SubPlanBodyForm) :
    Tells (deparseSubPlanQuery subplan scanrel form) (deparseSubPlanQuery subplan scanrel' form)
      (subplan.Alike form scanrel scanrel') := by
  have targets : Tells
      (if form = .NULL_PROBE then [.word "1"] else deparseSubPlanTargetList subplan scanrel)
      (if form = .NULL_PROBE then [.word "1"] else deparseSubPlanTargetList subplan scanrel')
      (form = .QUERY → subplan.subLinkType ≠ .EXISTS →
        ∀ tle ∈ subplan.query.targetList, tle.resjunk = false →
          tle.expr.Alike subplan.query.root scanrel scanrel' Flags.zero) := by
    cases form with
    | NULL_PROBE =>
        rw [if_pos rfl, if_pos rfl]
        exact (Tells.refl _).congr (iff_of_true trivial nofun)
    | QUERY =>
        rw [if_neg nofun, if_neg nofun]
        refine (tells_deparseSubPlanTargetList subplan scanrel scanrel').congr ?_
        exact ⟨fun all _ => all, fun all => all rfl⟩
  have probe : Tells
      (if form = .NULL_PROBE then nullProbe subplan.query scanrel else [])
      (if form = .NULL_PROBE then nullProbe subplan.query scanrel' else [])
      (form = .NULL_PROBE → ∀ out ∈ subplan.query.out,
        out.expr.Alike subplan.query.root scanrel scanrel' Flags.zero) := by
    cases form with
    | QUERY =>
        rw [if_neg nofun, if_neg nofun]
        exact (Tells.refl _).congr (iff_of_true trivial nofun)
    | NULL_PROBE =>
        rw [if_pos rfl, if_pos rfl]
        refine (tells_nullProbe subplan scanrel scanrel').congr ?_
        exact ⟨fun all _ => all, fun all => all rfl⟩
  have quals := tells_clause subplan.query.root scanrel scanrel' (.word "WHERE")
    subplan.query.quals
  have groups := tells_appendGroupByClause subplan.query.root scanrel scanrel'
    subplan.query.groupClause
  have having_ := tells_clause subplan.query.root scanrel scanrel' (.word "HAVING")
    subplan.query.havingQual
  have from_ := Tells.refl (deparseSubPlanFrom subplan.query)
  have body := (targets.append ((from_.append
    (quals.append (probe.append (groups.append having_)))).cons (.word "FROM"))).cons
      (.word "SELECT")
  refine body.congr ⟨?_, ?_⟩
  · rintro ⟨targets, -, quals, probe, groups, having_⟩
    exact ⟨targets, quals, probe, groups, having_⟩
  · rintro ⟨targets, quals, probe, groups, having_⟩
    exact ⟨targets, trivial, quals, probe, groups, having_⟩

end

theorem sum_not_starred : false = true → AggFn.sum .int4 = .count ∧ false = false := by simp

/-- `(SELECT sum(a) FROM t)`. -/
def sumSubPlan : SubPlan where
  subLinkType := .EXPR
  testexpr := none
  query :=
    { root := oneTable
      fromlist := [⟨1, 1, true, false, 7⟩]
      relation := fun _ => ascii "t"
      fpinfo := fun _ => ⟨.CH_DEFAULT, []⟩
      quals := none
      targetList := [⟨.Aggref ⟨.sum .int4, .AGGSPLIT_SIMPLE, false, false, false,
        sum_not_starred⟩ (.cons (.Var ⟨1, 1, 0, []⟩) .nil) .nil, false⟩]
      groupClause := []
      havingQual := none
      hasAggs := true
      unsupported := false
      contain_subplans := false }
  init_plans := false

def collapsingScan : ScanRel := ⟨[1], ⟨.CH_COLLAPSING_MERGE_TREE, ascii "sign"⟩⟩

end PgClickhouse.Context

import PgClickhouse.NotInSubPlan

/-!
# Truth contexts

The walker keeps track of how the value of an expression is consumed: only whether it is true,
as the operand of one NOT in such a place, or exactly.  `deparseExpr` keeps a flag `truth_ctx`
of its own.  Here are both functions over boolean expressions, the text as an expression of
ClickHouse, and what the two systems make of a row.

A leaf is an expression that both systems evaluate alike.  A subplan other than ANY is a leaf.

Three kinds of accepted expressions have a text that does not say what they say: ClickHouse has
neither NULL arrays nor the elements of an array of arrays, a correlation Param in an operand
that is printed apart is lost, and so is a grouping that planning has left no trace of.
`Expr.broken` and `Expr.Met` tell them apart.
-/

namespace PgClickhouse.Truth

open Deparse

/-! ## Values -/

/-- A truth value, or a value of another type. -/
inductive Value (W : Type)
  | bool (b : Bool)
  | other (w : W)
  deriving Repr, DecidableEq

variable {W : Type}

/-- What a condition is; `none` is NULL. -/
def truth : Option (Value W) → Option Bool
  | some (.bool b) => some b
  | _ => none

def boolean : Option Bool → Option (Value W) :=
  Option.map Value.bool

/-- True, and neither false nor NULL. -/
def holds (value : Option (Value W)) : Bool :=
  Kleene.passes (truth value)

/-! ## Expressions -/

/-- An ANY subplan, besides its expressions: the comparison, its arguments, and the query.
`parParam` lists the nodes that are a correlation Param or contain one.  `out_agg` tells of an
aggregate in the output column, `hasAggs` and `hasHavingQual` that the query was written with
aggregates or HAVING; `junk_shippable` is what the walker says of the junk entries. -/
structure SubPlanInfo (W : Type) where
  plan_id : Nat
  op : Comparison
  second_is_param : Bool
  args : List (Deparse.Expr (Value W))
  parParam : List Nat
  init_plans : Bool
  contain_subplans : Bool
  rtable : List RangeTblEntry
  fromlist : List FromEntry
  groupClause : List (Deparse.Expr (Value W))
  out_agg : Bool
  hasAggs : Bool
  hasHavingQual : Bool
  junk_shippable : Bool
  sortClause : Bool
  limitOffset : Option Nat
  limitCount : Option Nat
  setOperations : Bool
  cteList : Bool
  windowClause : Bool
  distinctClause : Bool
  groupingSets : Bool
  hasTargetSRFs : Bool
  aggregate : out_agg = true → hasAggs = true

inductive NullTestType
  | IS_NULL
  | IS_NOT_NULL
  deriving Repr, DecidableEq

mutual

/-- A boolean expression, or one of another type.  `CaseOf` is `CASE arg WHEN value ..`, where
the planner has put the comparison of the value with the argument. -/
inductive Expr (W : Type)
  | leaf (e : Deparse.Expr (Value W))
  | RelabelType (arg : Expr W)
  | AND_EXPR (args : Args W)
  | OR_EXPR (args : Args W)
  | NOT_EXPR (arg : Expr W)
  | NullTest (nulltesttype : NullTestType) (arg : Expr W)
  | CaseExpr (whens : Whens W)
  | CaseOf (arg : Expr W) (whens : Whens W)
  | ScalarArrayOpExpr (op : Comparison) (useOr : Bool) (arg1 : Expr W) (arg2 : ArrayArg W)
  | SubPlan (plan : SubPlanInfo W) (probe out : Expr W) (quals havingQual : Args W)

inductive Args (W : Type)
  | nil
  | cons (arg : Expr W) (rest : Args W)

/-- The branches of a CASE. -/
inductive Whens (W : Type)
  | END
  | ELSE (defresult : Expr W)
  | WHEN (expr result : Expr W) (rest : Whens W)

/-- The array of a comparison.  `node` stands for a leaf and for a constructor of arrays from
arrays; it is `nested` if it has more than one dimension. -/
inductive ArrayArg (W : Type)
  | Const (constvalue : Option (ArrayType (Value W)))
  | ArrayExpr (elements : Args W)
  | node (index : Nat) (nested : Bool)

end

def Args.isEmpty : Args W → Bool
  | .nil => true
  | .cons .. => false

/-- The query groups its rows, as PostgreSQL remembers it. -/
def SubPlanInfo.aggregated (plan : SubPlanInfo W) (havingQual : Args W) : Bool :=
  plan.hasAggs || !plan.groupClause.isEmpty || plan.hasHavingQual || !havingQual.isEmpty

/-- The scope of the subquery. -/
def SubPlanInfo.scope (plan : SubPlanInfo W) : foreign_glob_cxt where
  rtable := plan.rtable
  relids := plan.fromlist.map FromEntry.rtindex

/-! ## PostgreSQL's evaluation -/

/-- The rows of the FROM list of a subquery, and what is evaluated above the grouping of some
rows. -/
structure SubQueryRows (W : Type) where
  scan : List (Env (Value W))
  group : List (Env (Value W)) → Env (Value W)

variable [DecidableEq W]

/-- Rows that pass WHERE, grouped or not. -/
def SubQueryRows.grouped (data : SubQueryRows W) (aggregated : Bool)
    (keys : List (Deparse.Expr (Value W))) (where_ : Env (Value W) → Bool) :
    List (Env (Value W)) :=
  let rows := data.scan.filter where_
  if aggregated then (groups (keys.map fun key env => key.eval env) rows).map data.group
  else rows

/-- Those that pass HAVING. -/
def SubQueryRows.rows (data : SubQueryRows W) (aggregated : Bool)
    (keys : List (Deparse.Expr (Value W))) (where_ having_ : Env (Value W) → Bool) :
    List (Env (Value W)) :=
  (data.grouped aggregated keys where_).filter having_

omit [DecidableEq W] in
/-- LIMIT and OFFSET. -/
def SubPlanInfo.limited (plan : SubPlanInfo W) (rows : List (Env (Value W))) :
    List (Env (Value W)) :=
  let rows := rows.drop (plan.limitOffset.getD 0)
  match plan.limitCount with
  | none => rows
  | some count => rows.take count

variable (data : SubPlanInfo W → SubQueryRows W)

mutual

@[grind =] def Expr.eval : Expr W → Env (Value W) → Option (Value W)
  | .leaf e, env => e.eval env
  | .RelabelType arg, env => arg.eval env
  | .AND_EXPR args, env => boolean (Kleene.all ((args.eval env).map truth))
  | .OR_EXPR args, env => boolean (Kleene.any ((args.eval env).map truth))
  | .NOT_EXPR arg, env => boolean (Kleene.not (truth (arg.eval env)))
  | .NullTest .IS_NULL arg, env => some (.bool (arg.eval env).isNone)
  | .NullTest .IS_NOT_NULL arg, env => some (.bool (arg.eval env).isSome)
  | .CaseExpr whens, env => whens.eval holds env
  | .CaseOf arg whens, env =>
      whens.eval (fun value => Kleene.passes (Comparison.eq.apply (arg.eval env) value)) env
  | .ScalarArrayOpExpr op useOr arg1 arg2, env =>
      match arg2.eval env with
      | none => none
      | some elements => boolean (ExecEvalScalarArrayOp op useOr (arg1.eval env) elements)
  | .SubPlan plan probe out quals havingQual, env =>
      let rows := (data plan).rows (plan.aggregated havingQual) plan.groupClause
        (fun row => (quals.eval row).all holds) (fun row => (havingQual.eval row).all holds)
      boolean (Kleene.any
        ((plan.limited rows).map fun row => plan.op.apply (probe.eval env) (out.eval row)))

def Args.eval : Args W → Env (Value W) → List (Option (Value W))
  | .nil, _ => []
  | .cons arg rest, env => arg.eval env :: rest.eval env

/-- The result of the first branch that is taken. -/
def Whens.eval (taken : Option (Value W) → Bool) : Whens W → Env (Value W) → Option (Value W)
  | .END, _ => none
  | .ELSE defresult, env => defresult.eval env
  | .WHEN expr result rest, env =>
      if taken (expr.eval env) then result.eval env else rest.eval taken env

def ArrayArg.eval : ArrayArg W → Env (Value W) → Option (List (Option (Value W)))
  | .Const constvalue, _ => constvalue.map fun array => array.elements
  | .ArrayExpr elements, env => some (elements.eval env)
  | .node index _, env => env.array index

end

/-! ## What is proved of NULLs -/

section

variable (pg : Postgres) (glob_cxt : foreign_glob_cxt)

omit [DecidableEq W] in
/-- Only leaves are looked into. -/
def expr_never_null : Expr W → Bool
  | .RelabelType arg => expr_never_null arg
  | .leaf e => Deparse.expr_never_null pg glob_cxt e
  | _ => false

omit [DecidableEq W] in
def args_never_null : Args W → Bool
  | .nil => true
  | .cons arg rest => expr_never_null pg glob_cxt arg && args_never_null rest

omit [DecidableEq W] in
def saop_array_nulls : ArrayArg W → SaopArrayNulls
  | .Const none => .UNKNOWN
  | .Const (some array) =>
      if Deparse.ArrayGetNItems array.dims = 0 then .EMPTY
      else if array.hasnull then .UNKNOWN else .NULL_FREE
  | .ArrayExpr elements =>
      if elements.isEmpty then .EMPTY
      else if args_never_null pg glob_cxt elements then .NULL_FREE else .UNKNOWN
  | .node .. => .UNKNOWN

omit [DecidableEq W] in
def is_ok_in_expr : ArrayArg W → Bool
  | .Const (some array) => 0 < array.dims.length
  | _ => false

omit [DecidableEq W] in
def notin_prove_nullability (plan : SubPlanInfo W) (probe out : Expr W) : NotInNullability where
  PROBE_NULLABLE := !expr_never_null pg glob_cxt probe
  OUTPUT_NULLABLE := !expr_never_null pg plan.scope out

omit [DecidableEq W] in
def classify_notin_subplan (plan : SubPlanInfo W) (probe out : Expr W) (havingQual : Args W) :
    NotInShipForm :=
  if notin_prove_nullability pg glob_cxt plan probe out = ⟨false, false⟩ then .PLAIN
  else if plan.groupClause.isEmpty && havingQual.isEmpty && !plan.hasAggs then
    .GUARDED
  else .NONE

end

/-! ## The walker -/

omit [DecidableEq W] in
/-- Structural features that are not deparsed. -/
def SubPlanInfo.has_unsupported (plan : SubPlanInfo W) : Bool :=
  plan.setOperations || plan.cteList || plan.windowClause || plan.distinctClause ||
    plan.sortClause || plan.limitOffset.isSome || plan.limitCount.isSome ||
    plan.groupingSets || plan.hasTargetSRFs || plan.fromlist.isEmpty

/-- The context of the operand of NOT. -/
def negated_ctx : ExprTruthCtx → ExprTruthCtx
  | .TRUTH => .NEGATED
  | _ => .EXACT

/-- The context of the arguments of AND and OR, and of the results of a CASE: only a NOT hands
on that a value is negated. -/
def kept_ctx : ExprTruthCtx → ExprTruthCtx
  | .TRUTH => .TRUTH
  | _ => .EXACT

section

/- `checks` is all that the walker asks of a leaf, and of another node whether its type is
shippable; `server` and `version` are those of the scan. -/
variable (pg : Postgres) (checks : Expr W → Bool) (server : Option Nat)
  (version : Option ch_server_version)

mutual

def foreign_expr_walker : Expr W → foreign_glob_cxt → Bool → ExprTruthCtx → Bool
  | .leaf e, _, _, _ => checks (.leaf e)
  | .RelabelType arg, glob_cxt, subquery_scope, ctx =>
      foreign_expr_walker arg glob_cxt subquery_scope (kept_ctx ctx) &&
        checks (.RelabelType arg)
  | .AND_EXPR args, glob_cxt, subquery_scope, ctx =>
      args_walker args glob_cxt subquery_scope (kept_ctx ctx) && checks (.AND_EXPR args)
  | .OR_EXPR args, glob_cxt, subquery_scope, ctx =>
      args_walker args glob_cxt subquery_scope (kept_ctx ctx) && checks (.OR_EXPR args)
  | .NOT_EXPR arg, glob_cxt, subquery_scope, ctx =>
      foreign_expr_walker arg glob_cxt subquery_scope (negated_ctx ctx) &&
        checks (.NOT_EXPR arg)
  | .NullTest nulltesttype arg, glob_cxt, subquery_scope, _ =>
      foreign_expr_walker arg glob_cxt subquery_scope .EXACT &&
        checks (.NullTest nulltesttype arg)
  | .CaseExpr whens, glob_cxt, subquery_scope, ctx =>
      whens_walker whens glob_cxt subquery_scope .TRUTH (kept_ctx ctx) &&
        checks (.CaseExpr whens)
  | .CaseOf arg whens, glob_cxt, subquery_scope, ctx =>
      -- the value stands below the operator that compares it
      foreign_expr_walker arg glob_cxt subquery_scope .EXACT &&
        whens_walker whens glob_cxt subquery_scope .EXACT (kept_ctx ctx) &&
        checks (.CaseOf arg whens)
  | .ScalarArrayOpExpr op useOr arg1 arg2, glob_cxt, subquery_scope, _ =>
      chfdw_is_equal_op op.oprname != .NONE &&
        foreign_expr_walker arg1 glob_cxt subquery_scope .EXACT &&
        array_walker arg2 glob_cxt subquery_scope &&
        checks (.ScalarArrayOpExpr op useOr arg1 arg2)
  | .SubPlan plan probe out quals havingQual, glob_cxt, subquery_scope, ctx =>
      !subquery_scope &&
      (server.any fun server =>
        !plan.has_unsupported &&
        !(plan.init_plans || plan.contain_subplans) &&
        plan.fromlist.all (from_shippable server)) &&
      chfdw_is_equal_op plan.op.oprname == .EQ && plan.second_is_param &&
      foreign_expr_walker probe glob_cxt subquery_scope .EXACT &&
      plan.args.all (fun arg => checks (.leaf arg)) &&
      plan.junk_shippable &&
      foreign_expr_walker out plan.scope true .EXACT &&
      args_walker quals plan.scope true .TRUTH &&
      args_walker havingQual plan.scope true .TRUTH &&
      (let form := classify_notin_subplan pg glob_cxt plan probe out havingQual
       match ctx with
        | .TRUTH => true
        | .NEGATED => form != .NONE
        | .EXACT => form == .PLAIN) &&
      (version.any fun version => chfdw_version_ge version 25 8) &&
      checks (.SubPlan plan probe out quals havingQual)

def args_walker : Args W → foreign_glob_cxt → Bool → ExprTruthCtx → Bool
  | .nil, _, _, _ => true
  | .cons arg rest, glob_cxt, subquery_scope, ctx =>
      foreign_expr_walker arg glob_cxt subquery_scope ctx &&
        args_walker rest glob_cxt subquery_scope ctx

/-- The conditions or values of a CASE, and its results. -/
def whens_walker : Whens W → foreign_glob_cxt → Bool → ExprTruthCtx → ExprTruthCtx → Bool
  | .END, _, _, _, _ => true
  | .ELSE defresult, glob_cxt, subquery_scope, _, ctx =>
      foreign_expr_walker defresult glob_cxt subquery_scope ctx
  | .WHEN expr result rest, glob_cxt, subquery_scope, expr_ctx, ctx =>
      foreign_expr_walker expr glob_cxt subquery_scope expr_ctx &&
        foreign_expr_walker result glob_cxt subquery_scope ctx &&
        whens_walker rest glob_cxt subquery_scope expr_ctx ctx

/-- A NULL array stays local. -/
def array_walker : ArrayArg W → foreign_glob_cxt → Bool → Bool
  | .Const constvalue, _, _ => constvalue.isSome
  | .ArrayExpr elements, glob_cxt, subquery_scope =>
      args_walker elements glob_cxt subquery_scope .EXACT
  | .node .., _, _ => true

end

end

/-! ## The text -/

mutual

/-- The text as ClickHouse reads it.  In the template of a comparison with the elements of an
array, node 0 and array 0 stand for the operands; if it is `captured`, a correlation Param of
theirs stands before the comparison. -/
inductive Text (W : Type)
  | sql (e : Deparse.Expr (Value W))
  | AND (args : Texts W)
  | OR (args : Texts W)
  | NOT (arg : Text W)
  | IS_NULL (arg : Text W)
  | IS_NOT_NULL (arg : Text W)
  | equal_one (arg : Text W)
  | CASE (whens : WhenTexts W)
  | CASE_OF (arg : Text W) (whens : WhenTexts W)
  | saop (template : SaopText (Value W)) (captured : Bool) (probe : Text W) (arr : ArrayText W)
  | IN (probe : Text W) (body : Body W)
  | NOT_IN (probe : Text W) (body : Body W)
  | NOT_EXISTS (body : Body W)

inductive Texts (W : Type)
  | nil
  | cons (text : Text W) (rest : Texts W)

inductive WhenTexts (W : Type)
  | END
  | ELSE (defresult : Text W)
  | WHEN (expr result : Text W) (rest : WhenTexts W)

inductive ArrayText (W : Type)
  | literal (array : ArrayType (Value W))
  | NULL
  | list (elements : Texts W)
  | sql (index : Nat) (nested : Bool)

/-- `SELECT .. FROM .. WHERE .. GROUP BY .. HAVING ..`, of the constant 1 or of a column. -/
inductive Body (W : Type)
  | constant (plan : SubPlanInfo W) (WHERE HAVING : Texts W)
  | column (plan : SubPlanInfo W) (out : Text W) (WHERE HAVING : Texts W)

end

def Texts.isEmpty : Texts W → Bool
  | .nil => true
  | .cons .. => false

/-- A row in which node 0 and array 0 are the operands. -/
def operands (env : Env (Value W)) (probe : Option (Value W))
    (elements : List (Option (Value W))) : Env (Value W) :=
  { env with
    node := fun _ => probe
    array := fun _ => some elements }

mutual

@[grind =] def Text.eval : Text W → Env (Value W) → Option (Value W)
  | .sql e, env => e.eval env
  | .AND args, env => boolean (Kleene.all ((args.eval env).map truth))
  | .OR args, env => boolean (Kleene.any ((args.eval env).map truth))
  | .NOT arg, env => boolean (Kleene.not (truth (arg.eval env)))
  | .IS_NULL arg, env => some (.bool (arg.eval env).isNone)
  | .IS_NOT_NULL arg, env => some (.bool (arg.eval env).isSome)
  | .equal_one arg, env => boolean (truth (arg.eval env))
  | .CASE whens, env => whens.eval holds env
  | .CASE_OF arg whens, env =>
      whens.eval (fun value => Kleene.passes (Comparison.eq.apply (arg.eval env) value)) env
  | .saop template _ probe arr, env =>
      match arr.eval env with
      | none => none
      | some elements => boolean (template.eval (operands env (probe.eval env) elements))
  | .IN probe body, env =>
      boolean ((probe.eval env).map fun x => body.outputs.contains (some x))
  | .NOT_IN probe body, env =>
      boolean ((probe.eval env).map fun x => !body.outputs.contains (some x))
  | .NOT_EXISTS body, _ => some (.bool body.outputs.isEmpty)

def Texts.eval : Texts W → Env (Value W) → List (Option (Value W))
  | .nil, _ => []
  | .cons text rest, env => text.eval env :: rest.eval env

def WhenTexts.eval (taken : Option (Value W) → Bool) :
    WhenTexts W → Env (Value W) → Option (Value W)
  | .END, _ => none
  | .ELSE defresult, env => defresult.eval env
  | .WHEN expr result rest, env =>
      if taken (expr.eval env) then result.eval env else rest.eval taken env

/-- There are no NULL arrays. -/
def ArrayText.eval : ArrayText W → Env (Value W) → Option (List (Option (Value W)))
  | .literal array, _ => some array.elements
  | .NULL, _ => none
  | .list elements, env => some (elements.eval env)
  | .sql index _, env => some ((env.array index).getD [])

/-- The output of a body, a value for each row.  ClickHouse sees the aggregates that are left
in the text. -/
def Body.outputs : Body W → List (Option (Value W))
  | .constant plan WHERE HAVING =>
      let aggregated := !plan.groupClause.isEmpty || !HAVING.isEmpty
      ((data plan).rows aggregated plan.groupClause (fun row => (WHERE.eval row).all holds)
        (fun row => (HAVING.eval row).all holds)).map fun _ => some (.bool true)
  | .column plan out WHERE HAVING =>
      let aggregated := plan.out_agg || !plan.groupClause.isEmpty || !HAVING.isEmpty
      ((data plan).rows aggregated plan.groupClause (fun row => (WHERE.eval row).all holds)
        (fun row => (HAVING.eval row).all holds)).map fun row => out.eval row

end

mutual

/-- What ClickHouse cannot read as an expression: a comparison whose operands have lost a
correlation Param, or one with the elements of an array of arrays. -/
def Text.broken : Text W → Bool
  | .sql _ => false
  | .AND args | .OR args => args.broken
  | .NOT arg | .IS_NULL arg | .IS_NOT_NULL arg | .equal_one arg => arg.broken
  | .CASE whens => whens.broken
  | .CASE_OF arg whens => arg.broken || whens.broken
  | .saop _ captured probe arr => captured || probe.broken || arr.broken
  | .IN probe body | .NOT_IN probe body => probe.broken || body.broken
  | .NOT_EXISTS body => body.broken

def Texts.broken : Texts W → Bool
  | .nil => false
  | .cons text rest => text.broken || rest.broken

def WhenTexts.broken : WhenTexts W → Bool
  | .END => false
  | .ELSE defresult => defresult.broken
  | .WHEN expr result rest => expr.broken || result.broken || rest.broken

def ArrayText.broken : ArrayText W → Bool
  | .literal array => 1 < array.dims.length
  | .NULL => false
  | .list elements => elements.broken
  | .sql _ nested => nested

def Body.broken : Body W → Bool
  | .constant _ WHERE HAVING => WHERE.broken || HAVING.broken
  | .column _ out WHERE HAVING => out.broken || WHERE.broken || HAVING.broken

end

attribute [simp] Text.broken Texts.broken WhenTexts.broken ArrayText.broken Body.broken

/-- What ClickHouse returns for a text, if it is an expression. -/
def Text.result (text : Text W) (env : Env (Value W)) : Option (Option (Value W)) :=
  if text.broken then none else some (text.eval data env)

/-! ## Correlation Params -/

mutual

/-- One of the nodes stands in the expression. -/
def mentions (params : List Nat) : Deparse.Expr (Value W) → Bool
  | .Const _ | .Var _ => false
  | .RelabelType arg => mentions params arg
  | .OpExpr _ args => mentionsAny params args
  | .node index => params.contains index

def mentionsAny (params : List Nat) : List (Deparse.Expr (Value W)) → Bool
  | [] => false
  | arg :: args => mentions params arg || mentionsAny params args

end

mutual

def Expr.correlated (params : List Nat) : Expr W → Bool
  | .leaf e => mentions params e
  | .RelabelType arg | .NOT_EXPR arg | .NullTest _ arg => arg.correlated params
  | .AND_EXPR args | .OR_EXPR args => args.correlated params
  | .CaseExpr whens => whens.correlated params
  | .CaseOf arg whens => arg.correlated params || whens.correlated params
  | .ScalarArrayOpExpr _ _ arg1 arg2 => arg1.correlated params || arg2.correlated params
  | .SubPlan plan probe _ _ _ => probe.correlated params || plan.args.any (mentions params)

def Args.correlated (params : List Nat) : Args W → Bool
  | .nil => false
  | .cons arg rest => arg.correlated params || rest.correlated params

def Whens.correlated (params : List Nat) : Whens W → Bool
  | .END => false
  | .ELSE defresult => defresult.correlated params
  | .WHEN expr result rest =>
      expr.correlated params || result.correlated params || rest.correlated params

def ArrayArg.correlated (params : List Nat) : ArrayArg W → Bool
  | .Const _ => false
  | .ArrayExpr elements => elements.correlated params
  | .node index _ => params.contains index

end

/-! ## Emission -/

section

variable (pg : Postgres)

/-- The native form, IN or NOT IN, of a comparison with the elements of an array. -/
def native_form (glob_cxt : foreign_glob_cxt) (truth_ctx : Bool) (op : Comparison)
    (useOr : Bool) (arg2 : ArrayArg W) : Bool :=
  let optype := chfdw_is_equal_op op.oprname
  let nulls := saop_array_nulls pg glob_cxt arg2
  (nulls = .NULL_FREE ∨ (truth_ctx ∧ useOr ∧ optype = .EQ)) ∧ is_ok_in_expr arg2 ∧
    ((useOr ∧ optype = .EQ) ∨ (¬ useOr ∧ optype = .NE))

/-- The form of a comparison with the elements of an array. -/
def deparseScalarArrayOpExpr (glob_cxt : foreign_glob_cxt) (truth_ctx : Bool) (op : Comparison)
    (useOr : Bool) (arg1 : Expr W) (arg2 : ArrayArg W) : SaopText (Value W) :=
  let probe : Deparse.Expr (Value W) := .node 0
  let arr : Deparse.ArrayArg (Value W) := .node 0
  let optype := chfdw_is_equal_op op.oprname
  let nulls := saop_array_nulls pg glob_cxt arg2
  if native_form pg glob_cxt truth_ctx op useOr arg2 then
    .condition (deparseAsIn ⟨op, useOr, probe, arr⟩ optype)
  else
    let cheap_ok := nulls = .EMPTY ∨ (nulls = .NULL_FREE ∧ expr_never_null pg glob_cxt arg1)
    if cheap_ok then .condition (cheapForm useOr optype probe arr)
    else deparseGuardedScalarArrayOp useOr optype probe arr

/-- Except in the native form the operands are printed apart, and a correlation Param of theirs
goes to the buffer of the outer query. -/
def captures (glob_cxt : foreign_glob_cxt) (params : List Nat) (truth_ctx : Bool)
    (op : Comparison) (useOr : Bool) (arg1 : Expr W) (arg2 : ArrayArg W) : Bool :=
  !native_form pg glob_cxt truth_ctx op useOr arg2 &&
    (arg1.correlated params || arg2.correlated params)

/-- `NOT IN` with a guard for each side that may be NULL. -/
def deparseGuardedNotIn (nulls : NotInNullability) (probe : Text W) (body nullProbe : Body W) :
    Text W :=
  let notIn : Text W :=
    if nulls.OUTPUT_NULLABLE then
      .AND (.cons (.NOT_IN probe body) (.cons (.NOT_EXISTS nullProbe) .nil))
    else .NOT_IN probe body
  if nulls.PROBE_NULLABLE then
    .CASE (.WHEN (.IS_NULL probe) (.NOT_EXISTS body) (.ELSE notIn))
  else notIn

def Texts.snoc : Texts W → Text W → Texts W
  | .nil, last => .cons last .nil
  | .cons text rest, last => .cons text (rest.snoc last)

/-- The scope of the body of a subplan: its own range table, but the scan of the statement. -/
def SubPlanInfo.bodyCxt (plan : SubPlanInfo W) (glob_cxt : foreign_glob_cxt) :
    foreign_glob_cxt where
  rtable := plan.rtable
  relids := glob_cxt.relids

/-- A column as a condition is compared with 1. -/
def whenText (expr : Expr W) (text : Text W) : Text W :=
  match expr with
  | .leaf (.Var _) => .equal_one text
  | _ => text

mutual

/-- `params` are the correlation Params of the subplan the text belongs to, `truth_ctx` is the
flag of the context. -/
@[grind =] def deparseExpr : Expr W → foreign_glob_cxt → List Nat → Bool → Text W
  | .leaf e, _, _, _ => .sql e
  | .RelabelType arg, glob_cxt, params, truth_ctx => deparseExpr arg glob_cxt params truth_ctx
  | .AND_EXPR args, glob_cxt, params, truth_ctx =>
      .AND (deparseArgs args glob_cxt params truth_ctx)
  | .OR_EXPR args, glob_cxt, params, truth_ctx =>
      .OR (deparseArgs args glob_cxt params truth_ctx)
  | .NOT_EXPR (.SubPlan plan probe out quals havingQual), glob_cxt, params, _ =>
      let inner := plan.bodyCxt glob_cxt
      let WHERE := deparseArgs quals inner plan.parParam true
      let HAVING := deparseArgs havingQual inner plan.parParam true
      let output := deparseExpr out inner plan.parParam false
      let body : Body W := .column plan output WHERE HAVING
      if classify_notin_subplan pg glob_cxt plan probe out havingQual = .GUARDED then
        deparseGuardedNotIn (notin_prove_nullability pg glob_cxt plan probe out)
          (deparseExpr probe glob_cxt params false) body
          (.constant plan (WHERE.snoc (.IS_NULL output)) HAVING)
      else .NOT (.IN (deparseExpr probe glob_cxt params false) body)
  | .NOT_EXPR arg, glob_cxt, params, _ => .NOT (deparseExpr arg glob_cxt params false)
  | .NullTest .IS_NULL arg, glob_cxt, params, _ =>
      .IS_NULL (deparseExpr arg glob_cxt params false)
  | .NullTest .IS_NOT_NULL arg, glob_cxt, params, _ =>
      .IS_NOT_NULL (deparseExpr arg glob_cxt params false)
  | .CaseExpr whens, glob_cxt, params, truth_ctx =>
      .CASE (deparseWhens whens glob_cxt params truth_ctx)
  | .CaseOf arg whens, glob_cxt, params, truth_ctx =>
      .CASE_OF (deparseExpr arg glob_cxt params false)
        (deparseValues whens glob_cxt params truth_ctx)
  | .ScalarArrayOpExpr op useOr arg1 arg2, glob_cxt, params, truth_ctx =>
      .saop (deparseScalarArrayOpExpr pg glob_cxt truth_ctx op useOr arg1 arg2)
        (captures pg glob_cxt params truth_ctx op useOr arg1 arg2)
        (deparseExpr arg1 glob_cxt params false) (deparseArray arg2 glob_cxt params)
  | .SubPlan plan probe out quals havingQual, glob_cxt, params, _ =>
      let inner := plan.bodyCxt glob_cxt
      .IN (deparseExpr probe glob_cxt params false)
        (.column plan (deparseExpr out inner plan.parParam false)
          (deparseArgs quals inner plan.parParam true)
          (deparseArgs havingQual inner plan.parParam true))

def deparseArgs : Args W → foreign_glob_cxt → List Nat → Bool → Texts W
  | .nil, _, _, _ => .nil
  | .cons arg rest, glob_cxt, params, truth_ctx =>
      .cons (deparseExpr arg glob_cxt params truth_ctx)
        (deparseArgs rest glob_cxt params truth_ctx)

/-- A condition is in a truth context, a result in that of the CASE. -/
def deparseWhens : Whens W → foreign_glob_cxt → List Nat → Bool → WhenTexts W
  | .END, _, _, _ => .END
  | .ELSE defresult, glob_cxt, params, truth_ctx =>
      .ELSE (deparseExpr defresult glob_cxt params truth_ctx)
  | .WHEN expr result rest, glob_cxt, params, truth_ctx =>
      .WHEN (whenText expr (deparseExpr expr glob_cxt params true))
        (deparseExpr result glob_cxt params truth_ctx)
        (deparseWhens rest glob_cxt params truth_ctx)

/-- Of the comparison with the argument of the CASE only the value is printed. -/
def deparseValues : Whens W → foreign_glob_cxt → List Nat → Bool → WhenTexts W
  | .END, _, _, _ => .END
  | .ELSE defresult, glob_cxt, params, truth_ctx =>
      .ELSE (deparseExpr defresult glob_cxt params truth_ctx)
  | .WHEN value result rest, glob_cxt, params, truth_ctx =>
      .WHEN (deparseExpr value glob_cxt params false)
        (deparseExpr result glob_cxt params truth_ctx)
        (deparseValues rest glob_cxt params truth_ctx)

def deparseArray : ArrayArg W → foreign_glob_cxt → List Nat → ArrayText W
  | .Const none, _, _ => .NULL
  | .Const (some array), _, _ => .literal array
  | .ArrayExpr elements, glob_cxt, params => .list (deparseArgs elements glob_cxt params false)
  | .node index nested, _, _ => .sql index nested

end

end

/-! ## Where the text says what the expression says -/

section

variable (pg : Postgres)

mutual

/-- An expression whose text is broken: it compares with the elements of an array of arrays, or
captures a correlation Param. -/
def Expr.broken : Expr W → foreign_glob_cxt → List Nat → Bool → Bool
  | .leaf _, _, _, _ => false
  | .RelabelType arg, glob_cxt, params, truth_ctx => arg.broken glob_cxt params truth_ctx
  | .AND_EXPR args, glob_cxt, params, truth_ctx
  | .OR_EXPR args, glob_cxt, params, truth_ctx => args.broken glob_cxt params truth_ctx
  | .NOT_EXPR arg, glob_cxt, params, _
  | .NullTest _ arg, glob_cxt, params, _ => arg.broken glob_cxt params false
  | .CaseExpr whens, glob_cxt, params, truth_ctx => whens.broken glob_cxt params true truth_ctx
  | .CaseOf arg whens, glob_cxt, params, truth_ctx =>
      arg.broken glob_cxt params false || whens.broken glob_cxt params false truth_ctx
  | .ScalarArrayOpExpr op useOr arg1 arg2, glob_cxt, params, truth_ctx =>
      captures pg glob_cxt params truth_ctx op useOr arg1 arg2 ||
        arg1.broken glob_cxt params false || arg2.broken glob_cxt params
  | .SubPlan plan probe out quals havingQual, glob_cxt, params, _ =>
      let inner := plan.bodyCxt glob_cxt
      probe.broken glob_cxt params false || (out.broken inner plan.parParam false ||
        quals.broken inner plan.parParam true || havingQual.broken inner plan.parParam true)

def Args.broken : Args W → foreign_glob_cxt → List Nat → Bool → Bool
  | .nil, _, _, _ => false
  | .cons arg rest, glob_cxt, params, truth_ctx =>
      arg.broken glob_cxt params truth_ctx || rest.broken glob_cxt params truth_ctx

/-- `expr_ctx` is the flag of the conditions or values. -/
def Whens.broken : Whens W → foreign_glob_cxt → List Nat → Bool → Bool → Bool
  | .END, _, _, _, _ => false
  | .ELSE defresult, glob_cxt, params, _, truth_ctx =>
      defresult.broken glob_cxt params truth_ctx
  | .WHEN expr result rest, glob_cxt, params, expr_ctx, truth_ctx =>
      expr.broken glob_cxt params expr_ctx || result.broken glob_cxt params truth_ctx ||
        rest.broken glob_cxt params expr_ctx truth_ctx

def ArrayArg.broken : ArrayArg W → foreign_glob_cxt → List Nat → Bool
  | .Const constvalue, _, _ => constvalue.any fun array => 1 < array.dims.length
  | .ArrayExpr elements, glob_cxt, params => elements.broken glob_cxt params false
  | .node _ nested, _, _ => nested

end

attribute [simp] Expr.broken Args.broken Whens.broken ArrayArg.broken

end

omit [DecidableEq W] in
/-- The text of a body says that the query groups its rows, if it does. -/
def SubPlanInfo.Kept (plan : SubPlanInfo W) (havingQual : Args W) : Prop :=
  plan.aggregated havingQual = true →
    plan.out_agg = true ∨ plan.groupClause ≠ [] ∨ havingQual.isEmpty = false

/-- The rows of a subquery below HAVING. -/
def queryGroups (plan : SubPlanInfo W) (quals havingQual : Args W) : List (Env (Value W)) :=
  (data plan).grouped (plan.aggregated havingQual) plan.groupClause
    fun row => (quals.eval data row).all holds

/-- Those that pass HAVING. -/
def queryRows (plan : SubPlanInfo W) (quals havingQual : Args W) : List (Env (Value W)) :=
  (queryGroups data plan quals havingQual).filter fun row => (havingQual.eval data row).all holds

mutual

/-- Wherever the expression is evaluated arrays are not NULL, and bodies keep the grouping. -/
def Expr.Met : Expr W → Env (Value W) → Prop
  | .leaf _, _ => True
  | .RelabelType arg, env | .NOT_EXPR arg, env | .NullTest _ arg, env => arg.Met env
  | .AND_EXPR args, env | .OR_EXPR args, env => args.Met env
  | .CaseExpr whens, env => whens.Met holds env
  | .CaseOf arg whens, env =>
      arg.Met env ∧
        whens.Met (fun value => Kleene.passes (Comparison.eq.apply (arg.eval data env) value)) env
  | .ScalarArrayOpExpr _ _ arg1 arg2, env => arg1.Met env ∧ arg2.Met env
  | .SubPlan plan probe out quals havingQual, env =>
      probe.Met env ∧ plan.Kept havingQual ∧
        (∀ row ∈ (data plan).scan, quals.Met row) ∧
        (∀ row ∈ queryGroups data plan quals havingQual, havingQual.Met row) ∧
        ∀ row ∈ queryRows data plan quals havingQual, out.Met row

def Args.Met : Args W → Env (Value W) → Prop
  | .nil, _ => True
  | .cons arg rest, env => arg.Met env ∧ rest.Met env

/-- Of the branches the first that is taken is evaluated. -/
def Whens.Met (taken : Option (Value W) → Bool) : Whens W → Env (Value W) → Prop
  | .END, _ => True
  | .ELSE defresult, env => defresult.Met env
  | .WHEN expr result rest, env =>
      expr.Met env ∧ if taken (expr.eval data env) then result.Met env else rest.Met taken env

def ArrayArg.Met : ArrayArg W → Env (Value W) → Prop
  | .Const _, _ => True
  | .ArrayExpr elements, env => elements.Met env
  | .node index _, env => env.array index ≠ none

end

end PgClickhouse.Truth

import Mathlib.Data.List.Basic
import PgClickhouse.FromClause

/-!
# Expressions that are never NULL

`deparse.c` leaves out a guard against NULL where it can prove that an operand never is
NULL: a constant, a column declared NOT NULL that no outer join has extended with NULLs,
or basic arithmetic over such operands.
-/

namespace PgClickhouse.Deparse

/-! ## Expressions -/

/-- The implementation functions of operators. -/
inductive OpFunc
  | F_INT2PL | F_INT4PL | F_INT8PL | F_INT24PL | F_INT42PL | F_INT28PL | F_INT82PL
  | F_INT48PL | F_INT84PL | F_FLOAT4PL | F_FLOAT8PL | F_FLOAT48PL | F_FLOAT84PL
  | F_NUMERIC_ADD
  | F_INT2MI | F_INT4MI | F_INT8MI | F_INT24MI | F_INT42MI | F_INT28MI | F_INT82MI
  | F_INT48MI | F_INT84MI | F_FLOAT4MI | F_FLOAT8MI | F_FLOAT48MI | F_FLOAT84MI
  | F_NUMERIC_SUB
  | F_INT2MUL | F_INT4MUL | F_INT8MUL | F_INT24MUL | F_INT42MUL | F_INT28MUL | F_INT82MUL
  | F_INT48MUL | F_INT84MUL | F_FLOAT4MUL | F_FLOAT8MUL | F_FLOAT48MUL | F_FLOAT84MUL
  | F_NUMERIC_MUL
  | F_INT2UM | F_INT4UM | F_INT8UM | F_FLOAT4UM | F_FLOAT8UM | F_NUMERIC_UMINUS
  | other (opfuncid : Nat)
  deriving Repr, DecidableEq

/-- Operator implementation funcs that cannot return NULL when no input is NULL. -/
def never_null_opfuncs : List OpFunc :=
  [.F_INT2PL, .F_INT4PL, .F_INT8PL, .F_INT24PL, .F_INT42PL, .F_INT28PL, .F_INT82PL,
    .F_INT48PL, .F_INT84PL, .F_FLOAT4PL, .F_FLOAT8PL, .F_FLOAT48PL, .F_FLOAT84PL,
    .F_NUMERIC_ADD,
    .F_INT2MI, .F_INT4MI, .F_INT8MI, .F_INT24MI, .F_INT42MI, .F_INT28MI, .F_INT82MI,
    .F_INT48MI, .F_INT84MI, .F_FLOAT4MI, .F_FLOAT8MI, .F_FLOAT48MI, .F_FLOAT84MI,
    .F_NUMERIC_SUB,
    .F_INT2MUL, .F_INT4MUL, .F_INT8MUL, .F_INT24MUL, .F_INT42MUL, .F_INT28MUL, .F_INT82MUL,
    .F_INT48MUL, .F_INT84MUL, .F_FLOAT4MUL, .F_FLOAT8MUL, .F_FLOAT48MUL, .F_FLOAT84MUL,
    .F_NUMERIC_MUL,
    .F_INT2UM, .F_INT4UM, .F_INT8UM, .F_FLOAT4UM, .F_FLOAT8UM, .F_NUMERIC_UMINUS]

/-- True if `opfuncid` is one of `never_null_opfuncs`. -/
def is_non_nullable_op (opfuncid : OpFunc) : Bool :=
  never_null_opfuncs.contains opfuncid

/-- A column reference. -/
structure Var where
  varno : Nat
  varattno : Int
  varlevelsup : Nat
  varnullingrels : List Nat
  deriving Repr, DecidableEq

/-- An expression, as far as the proofs of non-nullability look into it.  `node` stands
for every other node: parameters, function calls, CASE, aggregates. -/
inductive Expr (V : Type)
  | Const (constvalue : Option V)
  | Var (var : Var)
  | RelabelType (arg : Expr V)
  | OpExpr (opfuncid : OpFunc) (args : List (Expr V))
  | node (index : Nat)

/-- What an expression is evaluated in: the columns as the tables store them, the columns
that an outer join has replaced by NULL, the functions, and the values of other nodes. A
node can also be a one-dimensional array. -/
structure Env (V : Type) where
  stored : Var → Option V
  nulled : Var → Bool
  call : OpFunc → List (Option V) → Option V
  node : Nat → Option V
  array : Nat → Option (List (Option V))

namespace Expr

variable {V : Type}

mutual

/-- The value of an expression; `none` is NULL. -/
def eval (env : Env V) : Expr V → Option V
  | .Const constvalue => constvalue
  | .Var var => if env.nulled var then none else env.stored var
  | .RelabelType arg => arg.eval env
  | .OpExpr opfuncid args => env.call opfuncid (evalList env args)
  | .node index => env.node index

def evalList (env : Env V) : List (Expr V) → List (Option V)
  | [] => []
  | e :: es => e.eval env :: evalList env es

end

end Expr

/-! ## The proof of non-nullability -/

inductive RTEKind
  | RTE_RELATION
  | RTE_JOIN
  | other
  deriving Repr, DecidableEq

structure RangeTblEntry where
  rtekind : RTEKind
  relid : Nat
  jointype : JoinType
  deriving Repr, DecidableEq

/-- The PostgreSQL the extension is built for, and `attnotnull` of its system catalog. -/
structure Postgres where
  PG_VERSION_NUM : Nat
  attnotnull : Nat → Int → Option Bool

/-- The range table of `root`, and the relations of the scan. -/
structure foreign_glob_cxt where
  rtable : List RangeTblEntry
  relids : List Nat
  deriving Repr, DecidableEq

/-- Range table indexes start at 1. -/
def planner_rt_fetch (rti : Nat) (rtable : List RangeTblEntry) : Option RangeTblEntry :=
  if rti = 0 then none else rtable[rti - 1]?

variable {V : Type}

/-- True if an outer join may replace the column by NULL.  Before PostgreSQL 16 a column
does not say so, and any outer join of the query may. -/
def may_be_nulled (pg : Postgres) (var : Var) (glob_cxt : foreign_glob_cxt) : Bool :=
  if 160000 ≤ pg.PG_VERSION_NUM then !var.varnullingrels.isEmpty
  else glob_cxt.rtable.any fun rte => rte.rtekind == .RTE_JOIN && rte.jointype != .INNER

/-- The branch of `expr_never_null` for columns. -/
def var_never_null (pg : Postgres) (var : Var) (glob_cxt : foreign_glob_cxt) : Bool :=
  if var.varlevelsup ≠ 0 ∨ var.varattno ≤ 0 ∨ var.varno ∉ glob_cxt.relids then false
  else if may_be_nulled pg var glob_cxt then false
  else
    match planner_rt_fetch var.varno glob_cxt.rtable with
    | none => false
    | some rte =>
      if rte.rtekind ≠ .RTE_RELATION then false
      else (pg.attnotnull rte.relid var.varattno).getD false

mutual

/-- True if the expression provably cannot evaluate to NULL. -/
def expr_never_null (pg : Postgres) (glob_cxt : foreign_glob_cxt) : Expr V → Bool
  | .RelabelType arg => expr_never_null pg glob_cxt arg
  | .Const constvalue => constvalue.isSome
  | .Var var => var_never_null pg var glob_cxt
  | .OpExpr opfuncid args => is_non_nullable_op opfuncid && args_never_null pg glob_cxt args
  | .node _ => false

/-- The loop of `op_expr_never_null`. -/
def args_never_null (pg : Postgres) (glob_cxt : foreign_glob_cxt) : List (Expr V) → Bool
  | [] => true
  | arg :: args => expr_never_null pg glob_cxt arg && args_never_null pg glob_cxt args

end

/-! ## Soundness -/

/-- The data agree with the catalog and the query: columns of the scan that are declared
NOT NULL store no NULL, only outer joins replace columns by NULL, and basic arithmetic over
values yields a value. -/
structure Env.Consistent (pg : Postgres) (glob_cxt : foreign_glob_cxt) (env : Env V) : Prop where
  notnull : ∀ (var : Var) (rte : RangeTblEntry), var.varlevelsup = 0 → 0 < var.varattno →
    var.varno ∈ glob_cxt.relids →
    planner_rt_fetch var.varno glob_cxt.rtable = some rte → rte.rtekind = .RTE_RELATION →
    pg.attnotnull rte.relid var.varattno = some true → env.stored var ≠ none
  nulled : ∀ var : Var, var.varlevelsup = 0 → env.nulled var = true →
    may_be_nulled pg var glob_cxt = true
  arithmetic : ∀ opfuncid ∈ never_null_opfuncs, ∀ args : List (Option V),
    none ∉ args → env.call opfuncid args ≠ none

variable {pg : Postgres} {glob_cxt : foreign_glob_cxt} {env : Env V}

theorem var_value (consistent : env.Consistent pg glob_cxt) {var : Var}
    (proved : var_never_null pg var glob_cxt = true) : (Expr.Var var).eval env ≠ none := by
  unfold var_never_null at proved
  split at proved
  · cases proved
  rename_i user
  split at proved
  · cases proved
  rename_i kept
  split at proved
  · cases proved
  rename_i rte fetched
  split at proved
  · cases proved
  rename_i relation
  rw [not_or, not_or, not_not, Int.not_le] at user
  have declared : pg.attnotnull rte.relid var.varattno = some true := by
    cases found : pg.attnotnull rte.relid var.varattno <;> simp_all
  have seen : env.nulled var ≠ true := fun nulled => kept (consistent.nulled var user.1 nulled)
  rw [Expr.eval, if_neg seen]
  exact consistent.notnull var rte user.1 user.2.1 (not_not.mp user.2.2) fetched
    (not_not.mp relation) declared

mutual

theorem never_null_value (consistent : env.Consistent pg glob_cxt) :
    ∀ e : Expr V, expr_never_null pg glob_cxt e = true → e.eval env ≠ none
  | .RelabelType arg, proved => by
      rw [expr_never_null] at proved
      rw [Expr.eval]
      exact never_null_value consistent arg proved
  | .Const constvalue, proved => by
      rw [expr_never_null] at proved
      rw [Expr.eval]
      exact Option.isSome_iff_ne_none.mp proved
  | .Var var, proved => by
      rw [expr_never_null] at proved
      exact var_value consistent proved
  | .OpExpr opfuncid args, proved => by
      rw [expr_never_null, Bool.and_eq_true] at proved
      rw [Expr.eval]
      exact consistent.arithmetic opfuncid (List.contains_iff_mem.mp proved.1) _
        (never_null_values consistent args proved.2)
  | .node index, proved => by
      rw [expr_never_null] at proved
      cases proved

theorem never_null_values (consistent : env.Consistent pg glob_cxt) :
    ∀ args : List (Expr V), args_never_null pg glob_cxt args = true →
      none ∉ Expr.evalList env args
  | [], _ => List.not_mem_nil
  | arg :: args, proved => by
      rw [args_never_null, Bool.and_eq_true] at proved
      rw [Expr.evalList, List.mem_cons, not_or]
      exact ⟨(never_null_value consistent arg proved.1).symm,
        never_null_values consistent args proved.2⟩

end

end PgClickhouse.Deparse

import Mathlib.Logic.Function.Basic
import PgClickhouse.Basic
import PgClickhouse.RelOptInfo

/-!
# The text of an expression

`deparseExpr` appends the text of an expression to the buffer of its context.  Columns of
the scan are printed with the alias their context asks for; every other column and every
parameter is looked up in `params_list`, or added to it, and printed as a placeholder.  A
subplan is printed in a context of its own, in which a correlation parameter is printed by
the context of the outer query.

An emitter that does nothing but print texts, operands and the sign column of a collapsing
table is given by a template: what it captures in a buffer of its own first, and what it
then appends.
-/

namespace PgClickhouse.Emit

/-! ## Expressions -/

structure Var where
  varno : Nat
  varattno : Int
  varlevelsup : Nat
  vartype : Nat
  vartypmod : Int
  varcollid : Nat
  varnullingrels : List Nat
  deriving Repr, DecidableEq

inductive ParamKind
  | PARAM_EXTERN
  | PARAM_EXEC
  | PARAM_SUBLINK
  | PARAM_MULTIEXPR
  deriving Repr, DecidableEq

structure Param where
  paramkind : ParamKind
  paramid : Nat
  paramtype : Nat
  paramtypmod : Int
  paramcollid : Nat
  deriving Repr, DecidableEq

/-- An entry of `params_list`; `equal` is equality. -/
inductive ParamExpr
  | Var (node : Var)
  | Param (node : Param)
  deriving Repr, DecidableEq

/-- What an emitter appends: a text, an operand in place, an operand it captured, or
`ch_table_sign_field`. -/
inductive Piece
  | text (s : String)
  | operand (i : Nat)
  | captured (k : Nat)
  | sign
  deriving Repr, DecidableEq

/-- The operands an emitter captures, in order, and then what it appends.  What is captured
is used. -/
structure Template where
  captures : List Nat
  pieces : List Piece
  used : ∀ k < captures.length, Piece.captured k ∈ pieces

inductive SubLinkType
  | EXISTS
  | EXPR
  | ANY
  deriving Repr, DecidableEq

/-- What `notin_prove_nullability` says of a NOT over an ANY subplan. -/
structure NotInNullability where
  PROBE_NULLABLE : Bool
  OUTPUT_NULLABLE : Bool
  deriving Repr, DecidableEq

/-- The parts of a subplan that are no expressions.  `guarded` tells that a NOT over it is
shipped in the guarded form. -/
structure SubPlanInfo where
  plan_id : Nat
  subLinkType : SubLinkType
  parParam : List Nat
  fromlist : List Nat
  guarded : Bool
  nulls : NotInNullability
  deriving Repr, DecidableEq

/-- An expression.  `node` stands for every node whose emitter is a template; `unseen` are
operands it prints that do not stand below it: the clauses of a window.  Of a subplan there
are the correlation arguments, the first argument of `testexpr`, and the clauses of the
query. -/
inductive Expr
  | Var (node : Var)
  | Param (node : Param)
  | node (args unseen : List Expr) (template : Template)
  | NOT (arg : Expr)
  | SubPlan (info : SubPlanInfo) (args probe targetList quals groupClause havingQual : List Expr)

mutual

/-- `contain_subplans`. -/
def Expr.contain_subplans : Expr → Bool
  | .Var _ => false
  | .Param _ => false
  | .node args _ _ => containSubplansList args
  | .NOT arg => arg.contain_subplans
  | .SubPlan .. => true

def containSubplansList : List Expr → Bool
  | [] => false
  | e :: es => e.contain_subplans || containSubplansList es

end

/-! ## Text -/

/-- A range table entry: of the outer query, or of the query of a subplan. -/
inductive Rte
  | outer (varno : Nat)
  | inner (plan_id varno : Nat)
  deriving Repr, DecidableEq

/-- `r1`, `s1` and `q1_1`. -/
inductive Alias
  | rel (varno : Nat)
  | subquery (relno : Nat)
  | subplan (plan_id varno : Nat)
  deriving Repr, DecidableEq

/-- The name of a column, or `c1`. -/
inductive ColumnName
  | named (name : Bytes)
  | nth (colno : Nat)
  deriving Repr, DecidableEq

/-- A column of a range table entry, or the sign column of its table. -/
inductive ColumnId
  | column (rte : Rte) (attno : Int)
  | sign (rte : Rte)
  deriving Repr, DecidableEq

def ColumnId.rte : ColumnId → Rte
  | .column rte _ => rte
  | .sign rte => rte

/-- An entry of FROM: a table, or a subquery with what its columns stand for. -/
inductive FromSource
  | table (rte : Rte)
  | subquery (columns : List (Option ColumnId))
  deriving Repr, DecidableEq

structure FromEntry where
  qualifier : Option Alias
  source : FromSource
  deriving Repr, DecidableEq

/-- The FROM lists of the SELECTs around a piece of text, the outermost first. -/
abbrev Path := List (List FromEntry)

/-- The text in pieces.  A placeholder also tells for which node it was printed, a column
which column is meant, and both columns and FROM entries in which SELECTs they stand. -/
inductive Token
  | text (s : String)
  | placeholder (n : Nat) (type : Bytes) (node : ParamExpr)
  | column (path : Path) (qualifier : Option Alias) (name : ColumnName) (column : ColumnId)
  | entry (path : Path) (entry : FromEntry)
  deriving Repr, DecidableEq

/-- The names the system catalogs and the table options give: of types, and of remote
columns, those of the sign column, and of all columns of a remote table. -/
structure Catalog where
  deparse_type_name : Nat → Int → Bytes
  column_name : Rte → Int → Bytes
  ch_table_sign_field : Rte → Bytes
  columns : Rte → List Bytes

/-- Buffers are numbered; those from `next` on are unused. -/
structure State where
  params_list : List ParamExpr
  bufs : Nat → List Token
  next : Nat
  path : Path
  error : Bool

abbrev Action := State → State

def append (buf : Nat) (tokens : List Token) : Action := fun s =>
  { s with bufs := Function.update s.bufs buf (s.bufs buf ++ tokens) }

def appendText (buf : Nat) (s : String) : Action :=
  append buf [.text s]

/-- Print into a buffer of its own, and take its text. -/
def intoBuffer (act : Nat → Action) (s : State) : List Token × State :=
  let after := act s.next { s with next := s.next + 1 }
  (after.bufs s.next, after)

/-- Do something inside the parentheses of a SELECT. -/
def inSelect (FROM : List FromEntry) (act : Action) : Action := fun s =>
  { act { s with path := s.path ++ [FROM] } with path := s.path }

def perform (acts : List Action) : Action := fun s =>
  acts.foldl (fun s act => act s) s

/-! ## Contexts -/

/-- `scanrel` gives the relations of the scan and the columns of its subqueries.  In the
context of a subplan `correlation_arg` prints a correlation argument in the outer
context. -/
structure deparse_expr_cxt where
  buf : Nat
  scanrel : RelOptInfo Expr
  has_inlined_subplan : Bool
  subplan : Option SubPlanInfo
  correlation_arg : Nat → Option Action

/-- What prints an expression in a context. -/
abbrev Emitter := deparse_expr_cxt → Action

/-- The relations below a join that are deparsed as subqueries. -/
def lower_subquery_rels : RelOptInfo Expr → List Nat
  | .base .. => []
  | .join _ _ _ _ _ _ make_outerrel_subquery make_innerrel_subquery outerrel innerrel =>
      (if make_outerrel_subquery then outerrel.relids else lower_subquery_rels outerrel) ++
        if make_innerrel_subquery then innerrel.relids else lower_subquery_rels innerrel

def isVar (node : Var) : Expr → Bool
  | .Var var => var == node
  | _ => false

/-- `none` where the column is missing from the target of the subquery, which raises. -/
def get_relation_column_alias_ids (node : Var) (foreignrel : RelOptInfo Expr) :
    Option (Nat × Nat) :=
  (foreignrel.reltarget.findIdx? (isVar node)).map fun i => (foreignrel.relation_index, i + 1)

/-- `none` where the column does not come from a subquery. -/
def is_subquery_var (node : Var) : RelOptInfo Expr → Option (Option (Nat × Nat))
  | .base .. => none
  | .join i t r l j c make_outerrel_subquery make_innerrel_subquery outerrel innerrel =>
      if node.varno ∈ lower_subquery_rels
          (.join i t r l j c make_outerrel_subquery make_innerrel_subquery outerrel innerrel) then
        if node.varno ∈ outerrel.relids then
          if make_outerrel_subquery then some (get_relation_column_alias_ids node outerrel)
          else is_subquery_var node outerrel
        else
          if make_innerrel_subquery then some (get_relation_column_alias_ids node innerrel)
          else is_subquery_var node innerrel
      else none

section

variable (cat : Catalog)

/-! ## Placeholders -/

def INTERVALOID : Nat := 1186

def remote_param_type_name (paramtype : Nat) (paramtypmod : Int) : Bytes :=
  if paramtype = INTERVALOID then ascii "Tuple(Int32, Int32, Int64)"
  else cat.deparse_type_name paramtype paramtypmod

/-- The type of an entry of `params_list`, as it is sent. -/
def ParamExpr.remote_type : ParamExpr → Bytes
  | .Var node => remote_param_type_name cat node.vartype node.vartypmod
  | .Param node => remote_param_type_name cat node.paramtype node.paramtypmod

/-- Find the index of a node in `params_list`, or add it, and print `p` with that index and
the type. -/
def printRemoteParam (node : ParamExpr) : Emitter := fun context s =>
  match s.params_list.findIdx? (· = node) with
  | some i => append context.buf [.placeholder (i + 1) (node.remote_type cat) node] s
  | none =>
      append context.buf
        [.placeholder (s.params_list.length + 1) (node.remote_type cat) node]
        { s with params_list := s.params_list ++ [node] }

/-! ## Columns -/

def appendColumn (qualifier : Option Alias) (name : ColumnName) (column : ColumnId) : Emitter :=
  fun context s => append context.buf [.column s.path qualifier name column] s

/-- A system column raises. -/
def deparseColumnRef (qualifier : Option Alias) (rte : Rte) (varattno : Int) : Emitter :=
  fun context s =>
    appendColumn qualifier (.named (cat.column_name rte varattno)) (.column rte varattno) context
      { s with error := s.error || varattno ≤ 0 }

def deparseVar (node : Var) : Emitter := fun context =>
  -- qualify where several relations are involved or a subplan is inlined
  let qualify_col := 1 < context.scanrel.relids.length || context.has_inlined_subplan
  match context.subplan with
  | some subplan =>
      deparseColumnRef cat (some (.subplan subplan.plan_id node.varno))
        (.inner subplan.plan_id node.varno) node.varattno context
  | none =>
    match is_subquery_var node context.scanrel with
    | some (some (relno, colno)) =>
        appendColumn (some (.subquery relno)) (.nth colno)
          (.column (.outer node.varno) node.varattno) context
    | some none => fun s => { s with error := true }
    | none =>
      if node.varno ∈ context.scanrel.relids ∧ node.varlevelsup = 0 then
        deparseColumnRef cat (if qualify_col then some (.rel node.varno) else none)
          (.outer node.varno) node.varattno context
      else printRemoteParam cat (.Var node) context

/-- The sign column of the scan; only a table has an engine. -/
def appendSign : Emitter := fun context =>
  match context.scanrel with
  | .base relid .. =>
      appendColumn none (.named (cat.ch_table_sign_field (.outer relid))) (.sign (.outer relid))
        context
  | .join .. => id

/-- A correlation parameter is printed in the parent scope. -/
def deparseParam (node : Param) : Emitter := fun context =>
  match (if context.subplan.isSome ∧ node.paramkind = .PARAM_EXEC then
      context.correlation_arg node.paramid else none) with
  | some outer =>
      perform [appendText context.buf "(", outer, appendText context.buf ")"]
  | none => printRemoteParam cat (.Param node) context

/-! ## Templates -/

def deparseExprToString (emit : Emitter) (context : deparse_expr_cxt) :
    State → List Token × State :=
  intoBuffer fun capture => emit { context with buf := capture }

def captureAll (operands : List Emitter) (context : deparse_expr_cxt) :
    List Nat → State → List (List Token) × State
  | [], s => ([], s)
  | i :: rest, s =>
      let (captured, s) :=
        match operands[i]? with
        | some emit => deparseExprToString emit context s
        | none => ([], s)
      let (others, s) := captureAll operands context rest s
      (captured :: others, s)

def appendPiece (operands : List Emitter) (captured : List (List Token)) : Piece → Emitter
  | .text s, context => appendText context.buf s
  | .operand i, context => (operands[i]?.map fun emit => emit context).getD id
  | .captured k, context => append context.buf (captured[k]?.getD [])
  | .sign, context => appendSign cat context

def appendTemplate (operands : List Emitter) (template : Template) : Emitter :=
  fun context s =>
    let (captured, s) := captureAll operands context template.captures s
    perform (template.pieces.map fun piece => appendPiece cat operands captured piece context) s

/-! ## Subplans -/

/-- The emitters of the parts of a subplan. -/
structure SubPlanParts where
  args : List Emitter
  probe : List Emitter
  targetList : List Emitter
  quals : List Emitter
  groupClause : List Emitter
  havingQual : List Emitter

/-- Texts with something between them. -/
def separated (separator : Action) : List Action → List Action
  | [] => []
  | [act] => [act]
  | act :: acts => act :: separator :: separated separator acts

/-- Each condition in parentheses, connected by AND. -/
def appendConditions (exprs : List Emitter) : Emitter := fun context =>
  perform (separated (appendText context.buf " AND ") (exprs.map fun emit =>
    perform [appendText context.buf "(", emit context, appendText context.buf ")"]))

/-- A clause that is left out where there is nothing to say. -/
def appendClause (keyword : String) (exprs : List Emitter) (body : Emitter) : Emitter :=
  fun context =>
    if exprs.isEmpty then id else perform [appendText context.buf keyword, body context]

def appendList (exprs : List Emitter) : Emitter := fun context =>
  perform (separated (appendText context.buf ", ") (exprs.map fun emit => emit context))

def appendEntry (buf : Nat) (entry : FromEntry) : Action := fun s =>
  append buf [.entry s.path entry] s

/-- The FROM entries of a subplan: `q{plan}_{rtindex}`. -/
def subPlanEntries (info : SubPlanInfo) : List FromEntry :=
  info.fromlist.map fun rtindex =>
    { qualifier := some (.subplan info.plan_id rtindex)
      source := .table (.inner info.plan_id rtindex) }

def deparseSubPlanFrom (info : SubPlanInfo) : Emitter := fun context =>
  perform (separated (appendText context.buf ", ")
    ((subPlanEntries info).map (appendEntry context.buf)))

/-- Same buffer, and the planner state of the subquery. -/
def subcontext (info : SubPlanInfo) (args : List Emitter) (context : deparse_expr_cxt) :
    deparse_expr_cxt where
  buf := context.buf
  scanrel := context.scanrel
  has_inlined_subplan := false
  subplan := some info
  correlation_arg paramid :=
    (info.parParam.zip args).find? (fun pair => pair.1 == paramid) |>.map fun pair =>
      pair.2 context

inductive SubPlanBodyForm
  | QUERY
  | NULL_PROBE
  deriving Repr, DecidableEq

/-- EXISTS and the null probe select 1. -/
def appendTargetList (info : SubPlanInfo) (parts : SubPlanParts) (form : SubPlanBodyForm) :
    Emitter := fun context =>
  if form = .NULL_PROBE ∨ info.subLinkType = .EXISTS then appendText context.buf "1"
  else appendList parts.targetList context

/-- The null probe adds a condition on the output. -/
def appendNullProbe (parts : SubPlanParts) : Emitter := fun context =>
  perform [appendText context.buf (if parts.quals.isEmpty then " WHERE (" else " AND ("),
    ((parts.targetList.head?.map fun emit => emit context).getD id),
    appendText context.buf " IS NULL)"]

def deparseSubPlanQuery (info : SubPlanInfo) (parts : SubPlanParts) (form : SubPlanBodyForm) :
    Emitter := fun context =>
  let subctx := subcontext info parts.args context
  inSelect (subPlanEntries info) <| perform
    [appendText context.buf "SELECT ",
      appendTargetList info parts form subctx,
      appendText context.buf " FROM ",
      deparseSubPlanFrom info subctx,
      appendClause " WHERE " parts.quals (appendConditions parts.quals) subctx,
      if form = .NULL_PROBE then appendNullProbe parts subctx else id,
      appendClause " GROUP BY " parts.groupClause (appendList parts.groupClause) subctx,
      appendClause " HAVING " parts.havingQual (appendConditions parts.havingQual) subctx]

def deparseSubPlan (info : SubPlanInfo) (parts : SubPlanParts) : Emitter := fun context =>
  let body := deparseSubPlanQuery info parts .QUERY context
  match info.subLinkType with
  | .EXISTS =>
      perform [appendText context.buf "EXISTS (", body, appendText context.buf ")"]
  | .EXPR => perform [appendText context.buf "(", body, appendText context.buf ")"]
  | .ANY =>
      perform [appendText context.buf "(", perform (parts.probe.map fun emit => emit context),
        appendText context.buf " IN (", body, appendText context.buf "))"]

def deparseGuardedNotIn (info : SubPlanInfo) (parts : SubPlanParts) : Emitter := fun context =>
  let probe := perform (parts.probe.map fun emit => emit context)
  let body := deparseSubPlanQuery info parts .QUERY context
  let nullProbe := deparseSubPlanQuery info parts .NULL_PROBE context
  perform
    [if info.nulls.PROBE_NULLABLE then
        perform [appendText context.buf "(CASE WHEN (", probe,
          appendText context.buf ") IS NULL THEN NOT EXISTS (", body,
          appendText context.buf ") ELSE "]
      else id,
      perform [appendText context.buf "(", probe, appendText context.buf " NOT IN (", body,
        appendText context.buf ")"],
      if info.nulls.OUTPUT_NULLABLE then
        perform [appendText context.buf " AND NOT EXISTS (", nullProbe,
          appendText context.buf ")"]
      else id,
      appendText context.buf ")",
      if info.nulls.PROBE_NULLABLE then appendText context.buf " END)" else id]

/-! ## Expressions -/

/-- A key of GROUP BY is put in parentheses unless it is a column. -/
def deparseSortGroupClause : Expr → Emitter → Emitter
  | .Var _, emit => emit
  | _, emit => fun context =>
      perform [appendText context.buf "(", emit context, appendText context.buf ")"]

def deparseNot (arg : Emitter) : Emitter := fun context =>
  perform [appendText context.buf "(NOT ", arg context, appendText context.buf ")"]

mutual

def deparseExpr : Expr → Emitter
  | .Var node => deparseVar cat node
  | .Param node => deparseParam cat node
  | .node args unseen template =>
      appendTemplate cat (deparseExprs args ++ deparseExprs unseen) template
  | .NOT (.SubPlan info args probe targetList quals groupClause havingQual) =>
      let parts : SubPlanParts :=
        ⟨deparseExprs args, deparseExprs probe, deparseExprs targetList, deparseExprs quals,
          List.zipWith deparseSortGroupClause groupClause (deparseExprs groupClause),
          deparseExprs havingQual⟩
      if info.subLinkType = .ANY ∧ info.guarded then deparseGuardedNotIn info parts
      else deparseNot (deparseSubPlan info parts)
  | .NOT arg => deparseNot (deparseExpr arg)
  | .SubPlan info args probe targetList quals groupClause havingQual =>
      deparseSubPlan info
        ⟨deparseExprs args, deparseExprs probe, deparseExprs targetList, deparseExprs quals,
          List.zipWith deparseSortGroupClause groupClause (deparseExprs groupClause),
          deparseExprs havingQual⟩

def deparseExprs : List Expr → List Emitter
  | [] => []
  | e :: es => deparseExpr e :: deparseExprs es

end

end

end PgClickhouse.Emit

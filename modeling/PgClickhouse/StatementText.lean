import PgClickhouse.ExprText

/-!
# The text of a statement

`chfdw_deparse_select_stmt_for_rel` prints the select list, the FROM clause of the join
tree, the conditions, and for an upper relation GROUP BY and HAVING.  Everything is printed
with one `params_list`; the two inputs of a join are printed into buffers of their own.
-/

namespace PgClickhouse.Emit

variable (cat : Catalog)

/-! ## FROM -/

/-- What a column of a subquery stands for. -/
def targetColumn : Expr → Option ColumnId
  | .Var node => some (.column (.outer node.varno) node.varattno)
  | _ => none

/-- The FROM entry of a relation that is deparsed as a subquery. -/
def subqueryEntry (rel : RelOptInfo Expr) : FromEntry where
  qualifier := some (.subquery rel.relation_index)
  source := .subquery (rel.reltarget.map targetColumn)

def tableEntry (relid : Nat) (use_alias : Bool) : FromEntry where
  qualifier := if use_alias then some (.rel relid) else none
  source := .table (.outer relid)

/-- The entries of the FROM clause of a join tree. -/
def fromEntries : RelOptInfo Expr → Bool → List FromEntry
  | .base relid .., use_alias => [tableEntry relid use_alias]
  | .join _ _ _ _ _ _ make_outerrel_subquery make_innerrel_subquery outerrel innerrel, _ =>
      (if make_outerrel_subquery then [subqueryEntry outerrel] else fromEntries outerrel true) ++
        if make_innerrel_subquery then [subqueryEntry innerrel] else fromEntries innerrel true

/-- The context of a SELECT over `scanrel`. -/
def selectContext (buf : Nat) (scanrel : RelOptInfo Expr) (has_inlined_subplan : Bool) :
    deparse_expr_cxt where
  buf := buf
  scanrel := scanrel
  has_inlined_subplan := has_inlined_subplan
  subplan := none
  correlation_arg _ := none

/-- Whether the tables of a SELECT get an alias. -/
def useAlias (scanrel : RelOptInfo Expr) (has_inlined_subplan : Bool) : Bool :=
  1 < scanrel.relids.length || has_inlined_subplan

/-- A select list; `NULL` if there is nothing to select. -/
def selectList (emits : List Emitter) : Emitter := fun context =>
  if emits.isEmpty then appendText context.buf "NULL" else appendList emits context

/-- `SELECT .. FROM .. WHERE ..`, and what follows; `fromText` prints the join tree. -/
def deparseSelect (fromText : Bool → Nat → Action) (scanrel : RelOptInfo Expr)
    (has_inlined_subplan : Bool) (targets : List Emitter) (quals : List Expr)
    (rest : Emitter) (buf : Nat) : Action :=
  let context := selectContext buf scanrel has_inlined_subplan
  let use_alias := useAlias scanrel has_inlined_subplan
  inSelect (fromEntries scanrel use_alias) <| perform
    [appendText buf "SELECT ",
      selectList targets context,
      appendText buf " FROM ",
      fromText use_alias buf,
      appendClause " WHERE " (deparseExprs cat quals) (appendConditions (deparseExprs cat quals))
        context,
      rest context]

/-- The FROM entry of a relation: its join tree, or a SELECT of its target. -/
def deparseRangeTblRef (fromText : Bool → Nat → Action) (rel : RelOptInfo Expr)
    (make_subquery : Bool) (buf : Nat) : Action :=
  if make_subquery then
    perform
      [appendText buf "(",
        deparseSelect cat fromText rel (containSubplansList rel.remote_conds)
          (deparseExprs cat rel.reltarget) rel.remote_conds (fun _ => id) buf,
        appendText buf ")",
        appendEntry buf (subqueryEntry rel)]
  else fromText true buf

def joinText (jointype : JoinType) : String :=
  match jointype with
  | .SEMI => " LEFT SEMI JOIN "
  | .ANTI => " LEFT ANTI JOIN "
  | .INNER => " ALL INNER JOIN "
  | .LEFT => " ALL LEFT JOIN "
  | .RIGHT => " ALL RIGHT JOIN "
  | .FULL => " ALL FULL JOIN "

/-- What a join prints after its inputs. -/
def appendJoin (foreignrel : RelOptInfo Expr) (jointype : JoinType) (joinclauses : List Expr)
    (join_sql_o join_sql_i : List Token) (buf : Nat) : Action :=
  perform
    [appendText buf " ",
      append buf join_sql_o,
      appendText buf (joinText jointype),
      append buf join_sql_i,
      appendText buf " ON (",
      if joinclauses.isEmpty then appendText buf "TRUE"
      else appendConditions (deparseExprs cat joinclauses) (selectContext buf foreignrel false),
      appendText buf ")"]

/-- The inputs of a join are printed into `join_sql_o` and `join_sql_i` first. -/
def deparseFromExprForRel : RelOptInfo Expr → Bool → Nat → Action
  | .base relid .., use_alias, buf => appendEntry buf (tableEntry relid use_alias)
  | .join i t r l jointype joinclauses make_outerrel_subquery make_innerrel_subquery outerrel
      innerrel, _, buf => fun s =>
    let foreignrel := .join i t r l jointype joinclauses make_outerrel_subquery
      make_innerrel_subquery outerrel innerrel
    let (join_sql_o, s) := intoBuffer (deparseRangeTblRef cat (deparseFromExprForRel outerrel)
      outerrel make_outerrel_subquery) s
    let (join_sql_i, s) := intoBuffer (deparseRangeTblRef cat (deparseFromExprForRel innerrel)
      innerrel make_innerrel_subquery) s
    appendJoin cat foreignrel jointype joinclauses join_sql_o join_sql_i buf s

/-! ## Statements -/

/-- What is deparsed: a scan of a base relation or a join, or an upper relation over it.
For a base relation the columns that are fetched stand in `attrs_used`.  `remote_conds` is
the WHERE clause, of an upper relation the HAVING clause. -/
structure SelectStmt where
  scanrel : RelOptInfo Expr
  IS_UPPER_REL : Bool
  attrs_used : List Int
  tlist : List Expr
  remote_conds : List Expr
  groupClause : List Expr
  pathkeys : List Expr
  limitCount : List Expr
  limitOffset : List Expr

namespace SelectStmt

def quals (stmt : SelectStmt) : List Expr :=
  if stmt.IS_UPPER_REL then stmt.scanrel.remote_conds else stmt.remote_conds

/-- The scan over the conditions and the select list. -/
def has_inlined_subplan (stmt : SelectStmt) : Bool :=
  containSubplansList stmt.quals || containSubplansList stmt.remote_conds ||
    containSubplansList stmt.tlist

end SelectStmt

/-- The columns of a base relation are not qualified in the select list. -/
def deparseTargetList (relid : Nat) (attrs_used : List Int) : List Emitter :=
  attrs_used.map fun attno => deparseColumnRef cat none (.outer relid) attno

def deparseSelectSql (stmt : SelectStmt) : List Emitter :=
  if stmt.scanrel.IS_JOIN_REL || stmt.IS_UPPER_REL then deparseExprs cat stmt.tlist
  else deparseTargetList cat stmt.scanrel.relation_index stmt.attrs_used

/-- GROUP BY, HAVING, ORDER BY and LIMIT. -/
def deparseTail (stmt : SelectStmt) : Emitter := fun context => perform
  [if stmt.IS_UPPER_REL then
      let keys := List.zipWith deparseSortGroupClause stmt.groupClause
        (deparseExprs cat stmt.groupClause)
      let havingQual := deparseExprs cat stmt.remote_conds
      perform [appendClause " GROUP BY " keys (appendList keys) context,
        appendClause " HAVING " havingQual (appendConditions havingQual) context]
    else id,
    let pathkeys := deparseExprs cat stmt.pathkeys
    appendClause " ORDER BY " pathkeys (appendList pathkeys) context,
    let limitCount := deparseExprs cat stmt.limitCount
    appendClause " LIMIT " limitCount (appendList limitCount) context,
    let limitOffset := deparseExprs cat stmt.limitOffset
    appendClause " OFFSET " limitOffset (appendList limitOffset) context]

def chfdw_deparse_select_stmt_for_rel (stmt : SelectStmt) (buf : Nat) : Action :=
  deparseSelect cat (deparseFromExprForRel cat stmt.scanrel) stmt.scanrel
    stmt.has_inlined_subplan (deparseSelectSql cat stmt) stmt.quals (deparseTail cat stmt) buf

/-- Nothing printed yet; the statement goes to buffer 0. -/
def State.initial : State where
  params_list := []
  bufs _ := []
  next := 1
  path := []
  error := false

/-- The statement and what `clickhouseGetForeignPlan` keeps of it. -/
def clickhouseGetForeignPlan (stmt : SelectStmt) : State :=
  chfdw_deparse_select_stmt_for_rel cat stmt 0 .initial

def statementText (stmt : SelectStmt) : List Token :=
  (clickhouseGetForeignPlan cat stmt).bufs 0

end PgClickhouse.Emit

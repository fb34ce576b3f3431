import PgClickhouse.Keyed
import PgClickhouse.UpperExpr

/-!
# Planning the upper stages

After the scan or join come grouping with HAVING, window functions and the final sort.  The
hook `clickhouseGetForeignUpperPaths` is asked about each in turn, on the relation it made
for the stage before, and `chfdw_deparse_select_stmt_for_rel` assembles one statement for
the last stage it accepted.  LIMIT and partial aggregation are left out.
-/

namespace PgClickhouse

/-- The stages that follow the scan and that the hook takes part in, in the order in which
they are planned. -/
inductive UpperRelationKind
  | GROUP_AGG
  | WINDOW
  | ORDERED
  deriving Repr, DecidableEq

/-- Expressions with their sort group references, 0 for none. -/
abbrev PathTarget (V : Type) := List (UpperExpr V × Nat)

/-- A sort key.  `ec_members` are the expressions known to equal it. -/
structure PathKey (V : Type) where
  ec_members : List (UpperExpr V)
  ec_has_volatile : Bool
  asc : Bool
  nulls_first : Bool

/-- A query after the planner has prepared it: the scan, and what the later stages are to
compute. -/
structure PlannerInfo (V : Type) where
  scan : RelOptInfo (Expr V)
  scan_target : List (UpperExpr V)
  groupClause : List Nat
  groupingSets : Bool
  hasAggs : Bool
  hasHavingQual : Bool
  hasWindowFuncs : Bool
  hasDistinct : Bool
  hasTargetSRFs : Bool
  sortClause : List Nat
  havingQual : List (UpperExpr V)
  grouping_target : PathTarget V
  window_target : PathTarget V
  ordered_target : List (UpperExpr V)
  sort_pathkeys : List (PathKey V)

/-- A relation that is pushed down: the scan, or a stage over the relation it reads. -/
inductive StageRel (V : Type)
  | scan (rel : RelOptInfo (Expr V))
  | upper (stage : UpperRelationKind) (grouped_tlist : PathTarget V)
      (remote_conds local_conds : List (UpperExpr V)) (outerrel : StageRel V)

namespace StageRel

variable {V : Type}

def IS_UPPER_REL : StageRel V → Bool
  | .scan _ => false
  | .upper .. => true

/-- The planner leaves the relids of an upper relation empty. -/
def relids : StageRel V → List Nat
  | .scan rel => rel.relids
  | .upper .. => []

/-- The relation whose path is added for a stage.  That of the final sort is a path of the
relation it reads. -/
def foreignrel : StageRel V → StageRel V
  | .upper .ORDERED _ _ _ input_rel => input_rel
  | rel => rel

def has_local_conds : StageRel V → Bool
  | .scan rel => !rel.local_conds.isEmpty
  | .upper _ _ _ local_conds _ => !local_conds.isEmpty

end StageRel

section

variable {V : Type} [DecidableEq V]

def add_to_flat_tlist (tlist : PathTarget V) (expr : UpperExpr V) : PathTarget V :=
  if expr ∈ tlist.map Prod.fst then tlist else tlist ++ [(expr, 0)]

def get_sortgroupref_tle (ref : Nat) (tlist : PathTarget V) : Option (UpperExpr V) :=
  (Keyed.find Prod.snd ref tlist).map Prod.fst

/-- Whether the value of the whole expression would have to be sent as a parameter. -/
def is_foreign_param (outerrel : StageRel V) (expr : UpperExpr V) : Bool :=
  match expr.tag with
  | .var v => !outerrel.relids.contains v.varno
  | .param _ => true
  | _ => false

/-! ## The hook -/

section

variable (root : PlannerInfo V)
  (chfdw_is_foreign_expr : StageRel V → Bool → UpperExpr V → Bool)

namespace PlannerInfo

def isGroupRef (sgref : Nat) : Bool :=
  sgref != 0 && root.groupClause.contains sgref

/-- What an expression of the grouping target adds to the target list: itself, or the
aggregates in it if it is to be computed locally. -/
def groupExpr (grouped_rel outerrel : StageRel V) (tlist : PathTarget V)
    (entry : UpperExpr V × Nat) : Option (PathTarget V) :=
  let (expr, sgref) := entry
  if root.isGroupRef sgref then
    if !chfdw_is_foreign_expr grouped_rel true expr then none
    else if is_foreign_param outerrel expr then none
    else some (tlist ++ [(expr, sgref)])
  else if chfdw_is_foreign_expr grouped_rel true expr then some (add_to_flat_tlist tlist expr)
  else if !expr.pull_var_clause.all (chfdw_is_foreign_expr grouped_rel true) then none
  else some ((expr.pull_var_clause.filter UpperExpr.isAggref).foldl add_to_flat_tlist tlist)

/-- The aggregates of the conditions that stay local are fetched too. -/
def addLocalAggs (grouped_rel : StageRel V) (local_conds : List (UpperExpr V))
    (tlist : PathTarget V) : Option (PathTarget V) :=
  let aggs := (local_conds.flatMap UpperExpr.pull_var_clause).filter UpperExpr.isAggref
  if aggs.all (chfdw_is_foreign_expr grouped_rel true) then
    some (aggs.foldl add_to_flat_tlist tlist)
  else none

def foreign_grouping_ok (outerrel : StageRel V) : Option (StageRel V) :=
  if root.groupingSets then none
  else if outerrel.has_local_conds then none
  else
    let grouped_rel := .upper .GROUP_AGG [] [] [] outerrel
    let remote_conds := root.havingQual.filter (chfdw_is_foreign_expr grouped_rel false)
    let local_conds := root.havingQual.filter fun e => !chfdw_is_foreign_expr grouped_rel false e
    (root.grouping_target.foldlM
        (root.groupExpr chfdw_is_foreign_expr grouped_rel outerrel) []).bind fun tlist =>
      (addLocalAggs chfdw_is_foreign_expr grouped_rel local_conds tlist).map fun tlist =>
        .upper .GROUP_AGG tlist remote_conds local_conds outerrel

def add_foreign_grouping_paths (input_rel : StageRel V) : Option (StageRel V) :=
  if root.groupClause.isEmpty && !root.groupingSets && !root.hasAggs && !root.hasHavingQual then
    none
  else root.foreign_grouping_ok chfdw_is_foreign_expr input_rel

/-- `fdw.c`: `add_foreign_window_paths` with `foreign_window_ok`. -/
def foreign_window_ok (outerrel : StageRel V) : Option (StageRel V) :=
  if outerrel.has_local_conds then none
  else if root.window_target.all fun entry =>
      chfdw_is_foreign_expr (.upper .WINDOW [] [] [] outerrel) true entry.1 &&
        !is_foreign_param outerrel entry.1 then
    some (.upper .WINDOW root.window_target [] [] outerrel)
  else none

/-- The target of an upper relation. -/
def upper_target : UpperRelationKind → PathTarget V
  | .GROUP_AGG => root.grouping_target
  | .WINDOW => root.window_target
  | .ORDERED => []

/-- A sort expression of the target that is a member of the equivalence class. -/
def chfdw_find_em_expr_for_input_target (ec_members : List (UpperExpr V))
    (target : PathTarget V) : Option (UpperExpr V) :=
  (target.find? fun entry =>
    entry.2 != 0 && root.sortClause.contains entry.2 && ec_members.contains entry.1).map
      Prod.fst

/-- A member of the equivalence class whose columns all come from the relation. -/
def chfdw_find_em_expr_for_rel (ec_members : List (UpperExpr V)) (rel : RelOptInfo (Expr V)) :
    Option (UpperExpr V) :=
  ec_members.find? fun em => !em.relids.isEmpty && em.relids.all rel.relids.contains

/-- `get_useful_pathkeys_for_relation`: whether the scan can return its rows sorted. -/
def qp_is_pushdown_safe (rel : RelOptInfo (Expr V)) : Bool :=
  !root.sort_pathkeys.isEmpty && root.sort_pathkeys.all fun pathkey =>
    !pathkey.ec_has_volatile &&
      (chfdw_find_em_expr_for_rel pathkey.ec_members rel).any
        (chfdw_is_foreign_expr (.scan rel) true)

def add_foreign_ordered_paths (input_rel : StageRel V) : Option (StageRel V) :=
  if root.hasTargetSRFs then none
  else
    match input_rel with
    | .scan rel =>
        if root.qp_is_pushdown_safe chfdw_is_foreign_expr rel then
          some (.upper .ORDERED [] [] [] input_rel)
        else none
    | .upper stage .. =>
        if root.sort_pathkeys.all fun pathkey =>
            !pathkey.ec_has_volatile &&
              (root.chfdw_find_em_expr_for_input_target pathkey.ec_members
                (root.upper_target stage)).any (chfdw_is_foreign_expr input_rel true) then
          some (.upper .ORDERED [] [] [] input_rel)
        else none

/-- HAVING without aggregates or GROUP BY: the planner does not ask the hook. -/
def is_degenerate_grouping : Bool :=
  (root.hasHavingQual || root.groupingSets) && !root.hasAggs && root.groupClause.isEmpty

/-- The relation of a stage, if it is pushed down. -/
def clickhouseGetForeignUpperPaths (input_rel : StageRel V) :
    UpperRelationKind → Option (StageRel V)
  | .GROUP_AGG =>
      if root.is_degenerate_grouping then none
      else root.add_foreign_grouping_paths chfdw_is_foreign_expr input_rel
  | .WINDOW => root.foreign_window_ok chfdw_is_foreign_expr input_rel
  | .ORDERED => root.add_foreign_ordered_paths chfdw_is_foreign_expr input_rel

/-- The stages of a query.  The rows of DISTINCT come from no foreign relation, so a sort
after it is not offered. -/
def stages : List UpperRelationKind :=
  (if !root.groupClause.isEmpty || root.groupingSets || root.hasAggs || root.hasHavingQual then
    [UpperRelationKind.GROUP_AGG] else []) ++
  (if root.hasWindowFuncs then [UpperRelationKind.WINDOW] else []) ++
  (if root.sortClause.isEmpty || root.hasDistinct then [] else [UpperRelationKind.ORDERED])

/-- The relation of the last of some stages, if all of them are pushed down. -/
def pushdown (stages : List UpperRelationKind) : Option (StageRel V) :=
  stages.foldlM (root.clickhouseGetForeignUpperPaths chfdw_is_foreign_expr) (.scan root.scan)

end PlannerInfo

end

/-! ## The statement -/

structure SortKey (V : Type) where
  expr : UpperExpr V
  asc : Bool
  nulls_first : Bool

/-- A SELECT statement.  Without a list of targets it selects the columns of the scan.  In a
statement without table aliases the columns are those of relation `self`. -/
structure SelectStmt (V : Type) where
  targets : Option (List (UpperExpr V))
  scan : FromItem (Expr V)
  self : Nat
  quals : List (Expr V)
  group_by : List (UpperExpr V)
  having : List (UpperExpr V)
  order_by : List (SortKey V)

namespace PlannerInfo

variable (root : PlannerInfo V) (contain_subplans : Expr V → Bool)
  (contain_upper_subplans : UpperExpr V → Bool)

/-- One key of ORDER BY, from the expression found for it. -/
def sortKey (pathkey : PathKey V) (em_expr : UpperExpr V) : SortKey V :=
  ⟨em_expr, pathkey.asc, pathkey.nulls_first⟩

/-- The sort expression of a scan.  At a semi or anti join the outer side is preferred. -/
def scanSortExpr (rel : RelOptInfo (Expr V)) (ec_members : List (UpperExpr V)) :
    Option (UpperExpr V) :=
  match rel with
  | .join _ _ _ _ .SEMI _ _ _ outerrel _ | .join _ _ _ _ .ANTI _ _ _ outerrel _ =>
      (chfdw_find_em_expr_for_rel ec_members outerrel).or
        (chfdw_find_em_expr_for_rel ec_members rel)
  | _ => chfdw_find_em_expr_for_rel ec_members rel

/-- `deparse.c`: a relation, its target list and its HAVING conditions become a statement.
`deparseFromExpr` requires the relation below an upper relation to be a scan. -/
def chfdw_deparse_select_stmt_for_rel (pathkeys : List (PathKey V)) :
    StageRel V → Option (SelectStmt V)
  | .scan rel =>
      (pathkeys.mapM fun pathkey =>
          (scanSortExpr rel pathkey.ec_members).map (sortKey pathkey)).map fun order_by =>
        { targets := none
          scan := joinTree contain_subplans rel (usesAlias contain_subplans rel)
          self := rel.relation_index
          quals := rel.remote_conds
          group_by := []
          having := []
          order_by }
  | .upper _ _ _ _ (.upper ..) => none
  | .upper stage tlist remote_conds _ (.scan scanrel) =>
      let targets := tlist.map Prod.fst
      let use_alias := scanrel.relids.length > 1 || scanrel.remote_conds.any contain_subplans ||
        remote_conds.any contain_upper_subplans || targets.any contain_upper_subplans
      (root.groupClause.mapM fun ref => get_sortgroupref_tle ref tlist).bind fun group_by =>
        (pathkeys.mapM fun pathkey =>
            (root.chfdw_find_em_expr_for_input_target pathkey.ec_members
              (root.upper_target stage)).map (sortKey pathkey)).map fun order_by =>
          { targets := some targets
            scan := joinTree contain_subplans scanrel use_alias
            self := scanrel.relation_index
            quals := scanrel.remote_conds
            group_by
            having := remote_conds
            order_by }

/-- The sort keys of the path for a stage. -/
def pathkeys : StageRel V → List (PathKey V)
  | .upper .ORDERED .. => root.sort_pathkeys
  | _ => []

/-- `clickhouseGetForeignPlan`: the statement for the path of a stage. -/
def statement (rel : StageRel V) : Option (SelectStmt V) :=
  root.chfdw_deparse_select_stmt_for_rel contain_subplans contain_upper_subplans
    (root.pathkeys rel) rel.foreignrel

end PlannerInfo

end

end PgClickhouse

import Mathlib.Data.Finset.Empty
import PgClickhouse.UpperPlan

/-!
# The rows of the upper stages

What a statement returns when its clauses are evaluated in the order of SQL, and what the
stages of a query return when each is applied to the rows of the one before.
-/

namespace PgClickhouse

section

variable {V : Type} [DecidableEq V] (F : Functions V)

/-! ## Rows -/

namespace Columns

/-- A row of the scan carries the values of its columns. -/
def ofRow (row : Row V) : Columns V
  | .node (.var v) _ => some (row v.varno v.varattno)
  | _ => none

/-- The columns of a row. -/
def row (cols : Columns V) : Row V :=
  fun i a => (cols (.node (.var ⟨i, a⟩) [])).getD none

/-- A tuple carries the values of the expressions it was made from. -/
def ofTuple (exprs : List (UpperExpr V)) (tuple : List (Value V)) : Columns V :=
  fun e => (Keyed.find Prod.fst e (exprs.zip tuple)).map Prod.snd

/-- A group carries the values of its keys and of aggregates. -/
def ofGroup (keys : List (UpperExpr V)) (key : List (Value V)) (rows : Multiset (Columns V)) :
    Columns V :=
  fun e => (ofTuple keys key e).or
    (match e with
    | .node (.aggref aggfnoid) args =>
        some (F.aggregate aggfnoid (rows.map fun cols => args.map (UpperExpr.eval F cols)))
    | _ => none)

/-- A row with the values of window functions. -/
def withWindow (windowFuncs : Finset (UpperExpr V)) (cols : Columns V)
    (values : UpperExpr V → Value V) : Columns V :=
  fun e => if e ∈ windowFuncs then some (values e) else cols e

end Columns

/-- The groups of some rows; without keys, the one group of all rows. -/
def groups (keys : List (UpperExpr V)) (rows : Multiset (Columns V)) : Multiset (Columns V) :=
  if keys = [] then {Columns.ofGroup F [] [] rows}
  else
    (rows.map fun cols => keys.map (UpperExpr.eval F cols)).dedup.map fun key =>
      Columns.ofGroup F keys key
        (rows.filter fun cols => keys.map (UpperExpr.eval F cols) = key)

/-- Compute window functions over rows. -/
def Windowed (windowFuncs : Finset (UpperExpr V)) (rows out : Multiset (Columns V)) : Prop :=
  if windowFuncs = ∅ then out = rows
  else
    ∃ assigned : Multiset (Columns V × (UpperExpr V → Value V)),
      assigned.map Prod.fst = rows ∧ F.window windowFuncs assigned ∧
        out = assigned.map fun a => a.1.withWindow windowFuncs a.2

namespace SortKey

/-- The sort key is a pathkey's, with one of the expressions known to equal it. -/
def Of (pathkey : PathKey V) (key : SortKey V) : Prop :=
  key.expr ∈ pathkey.ec_members ∧ key.asc = pathkey.asc ∧ key.nulls_first = pathkey.nulls_first

def compare (key : SortKey V) (a b : Columns V) : Ordering :=
  match key.expr.eval F a, key.expr.eval F b with
  | some x, some y => if key.asc then F.compare x y else F.compare y x
  | none, none => .eq
  | none, some _ => if key.nulls_first then .lt else .gt
  | some _, none => if key.nulls_first then .gt else .lt

/-- `a` may come before `b`. -/
def Precedes (keys : List (SortKey V)) (a b : Columns V) : Prop :=
  keys.foldr (fun key rest => (key.compare F a b).then rest) .eq ≠ .gt

end SortKey

/-! ## Evaluating a statement -/

namespace SelectStmt

variable (stmt : SelectStmt V)

/-- The expressions of the select list and of ORDER BY. -/
def exprs : List (UpperExpr V) :=
  stmt.targets.getD [] ++ stmt.order_by.map SortKey.expr

/-- Whether the rows are grouped: by GROUP BY, or because an aggregate is used. -/
def isGrouped : Bool :=
  !stmt.group_by.isEmpty || (stmt.exprs ++ stmt.having).any UpperExpr.contain_agg_clause

/-- The rows before window functions: FROM, WHERE, GROUP BY and HAVING. -/
def grouped (scanned : Multiset (Row V)) : Multiset (Columns V) :=
  let rows := (scanned.filter (holds stmt.quals · = true)).map Columns.ofRow
  (if stmt.isGrouped then groups F stmt.group_by rows else rows).filter
    (UpperExpr.passes F · stmt.having = true)

/-- The rows of a statement, in a possible order, with all the values they carry. -/
def Rows (contents : Bytes → Bytes → Multiset (Tuple V)) (out : List (Columns V)) : Prop :=
  ∃ scanned, stmt.scan.Rows contents stmt.self scanned ∧
    Windowed F (UpperExpr.windowFuncs stmt.exprs) (stmt.grouped F scanned)
      (out : Multiset (Columns V)) ∧
    out.Pairwise (SortKey.Precedes F stmt.order_by)

/-- What of a row is received: the values of the select list. -/
def received (cols : Columns V) : Columns V :=
  match stmt.targets with
  | none => cols
  | some targets => Columns.ofTuple targets (targets.map (UpperExpr.eval F cols))

end SelectStmt

namespace StageRel

/-- The conditions that are checked locally on a row. -/
def passesLocal : StageRel V → Columns V → Bool
  | .scan rel, cols => holds rel.local_conds cols.row
  | .upper _ _ _ local_conds _, cols => UpperExpr.passes F cols local_conds

end StageRel

namespace PlannerInfo

variable (root : PlannerInfo V)

/-- What a stage returns of its rows; the scan, if there is none. -/
def stageTarget : Option UpperRelationKind → List (UpperExpr V)
  | none => root.scan_target
  | some .GROUP_AGG => root.grouping_target.map Prod.fst
  | some .WINDOW => root.window_target.map Prod.fst
  | some .ORDERED => root.ordered_target

/-- The foreign scan of a stage: the rows received that pass the local conditions, and of
those the target of the stage. -/
def ForeignScan (rel : StageRel V) (stage : Option UpperRelationKind) (stmt : SelectStmt V)
    (contents : Bytes → Bytes → Multiset (Tuple V)) (out : List (List (Value V))) : Prop :=
  ∃ rows, stmt.Rows F contents rows ∧
    out = ((rows.map (stmt.received F)).filter (rel.foreignrel.passesLocal F)).map fun cols =>
      (root.stageTarget stage).map (UpperExpr.eval F cols)

/-! ## Stage by stage -/

/-- The rows of the scan: those of its FROM clause that pass all its conditions. -/
def ScanRows (contain_subplans : Expr V → Bool)
    (contents : Bytes → Bytes → Multiset (Tuple V)) (rows : Multiset (Columns V)) : Prop :=
  ∃ scanned, (joinTree contain_subplans root.scan (usesAlias contain_subplans root.scan)).Rows
      contents root.scan.relation_index scanned ∧
    rows = (scanned.filter fun row =>
      holds root.scan.remote_conds row = true ∧ holds root.scan.local_conds row = true).map
        Columns.ofRow

/-- The expressions of GROUP BY. -/
def groupKeys : List (UpperExpr V) :=
  root.groupClause.filterMap fun ref => get_sortgroupref_tle ref root.grouping_target

/-- The rows of a stage.  The sort only orders them. -/
def StageRows (rows : Multiset (Columns V)) :
    UpperRelationKind → Multiset (Columns V) → Prop
  | .GROUP_AGG, out =>
      out = (groups F root.groupKeys rows).filter (UpperExpr.passes F · root.havingQual = true)
  | .WINDOW, out =>
      Windowed F (UpperExpr.windowFuncs (root.window_target.map Prod.fst)) rows out
  | .ORDERED, out => out = rows

/-- The stages one after the other. -/
def Staged : List UpperRelationKind → Multiset (Columns V) → Multiset (Columns V) → Prop
  | [], rows, out => out = rows
  | stage :: stages, rows, out => ∃ mid, root.StageRows F rows stage mid ∧ Staged stages mid out

/-- Sorted by the keys of the query, each through an expression known to equal it. -/
def Sorted (out : List (Columns V)) : Prop :=
  ∃ keys, List.Forall₂ SortKey.Of root.sort_pathkeys keys ∧
    out.Pairwise (SortKey.Precedes F keys)

/-- What the query returns after some stages. -/
def Result (contain_subplans : Expr V → Bool) (stages : List UpperRelationKind)
    (contents : Bytes → Bytes → Multiset (Tuple V)) (out : List (List (Value V))) : Prop :=
  ∃ scanned, root.ScanRows contain_subplans contents scanned ∧
    ∃ rows : List (Columns V), root.Staged F stages scanned (rows : Multiset (Columns V)) ∧
      (.ORDERED ∈ stages → root.Sorted F rows) ∧
      out = rows.map fun cols =>
        (root.stageTarget stages.getLast?).map (UpperExpr.eval F cols)

/-- The statement for `rel`, pushed down after `stages`, is assembled, and what it returns
is what the stages return. -/
def Assembled (contain_subplans : Expr V → Bool) (contain_upper_subplans : UpperExpr V → Bool)
    (stages : List UpperRelationKind) (rel : StageRel V) : Prop :=
  ∃ stmt, root.statement contain_subplans contain_upper_subplans rel = some stmt ∧
    ∀ contents out, root.ForeignScan F rel stages.getLast? stmt contents out →
      root.Result F contain_subplans stages contents out

/-- What the planner promises about a query. -/
structure WellFormed : Prop where
  /-- The keys of GROUP BY are in the grouping target. -/
  grouped : ∀ ref ∈ root.groupClause, ref ≠ 0 ∧ ref ∈ root.grouping_target.map Prod.snd
  /-- Outside aggregates, columns occur in keys of GROUP BY only. -/
  keyed : ∀ e ∈ root.grouping_target.map Prod.fst ++ root.havingQual,
    UpperExpr.Computed (fun x => x ∈ root.groupKeys ∨ x.isAggref = true) e
  /-- Aggregates are computed by the grouping. -/
  no_aggs : .GROUP_AGG ∉ root.stages →
    ∀ e ∈ root.window_target.map Prod.fst ++ root.sort_pathkeys.flatMap PathKey.ec_members,
      e.contain_agg_clause = false
  /-- Window functions are computed after the grouping, -/
  no_window_early : ∀ e ∈ root.grouping_target.map Prod.fst ++ root.havingQual,
    e.pull UpperExpr.isWindowFunc = []
  /-- and by the window stage. -/
  no_window : .WINDOW ∉ root.stages → ∀ e ∈ root.sort_pathkeys.flatMap PathKey.ec_members,
    e.pull UpperExpr.isWindowFunc = []
  /-- The target of the sort is computed from that of the stage before. -/
  ordered_window : .WINDOW ∈ root.stages → ∀ e ∈ root.ordered_target,
    UpperExpr.Computed (· ∈ root.window_target.map Prod.fst) e
  ordered_grouping : .GROUP_AGG ∈ root.stages → .WINDOW ∉ root.stages →
    ∀ e ∈ root.ordered_target, UpperExpr.Computed (· ∈ root.grouping_target.map Prod.fst) e

/-- A grouping has keys, or an aggregate is left in what it is to compute. -/
def Aggregates : Prop :=
  root.groupClause ≠ [] ∨
    (root.grouping_target.map Prod.fst ++ root.havingQual).any
      UpperExpr.contain_agg_clause = true

/-- The condition: the statement has to express one grouping or the window functions, not
both, and if a grouping has no keys then an aggregate is left to tell that it is one, or
HAVING, which is constant then, rejects its row. -/
def OneLevel (stages : List UpperRelationKind) : Prop :=
  ¬ (.GROUP_AGG ∈ stages ∧ .WINDOW ∈ stages) ∧
    (.GROUP_AGG ∈ stages →
      root.Aggregates ∨ UpperExpr.passes F (fun _ => none) root.havingQual = false)

end PlannerInfo

end

end PgClickhouse

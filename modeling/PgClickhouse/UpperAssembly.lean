import PgClickhouse.UpperValues

/-!
# One statement for several stages

The deparser looks one level down: an upper relation is read as a query over the scan below
it.  A window stage over a grouping is accepted and has no statement; a grouping without
keys is told from a plain select only by its aggregates.  In all other cases the clauses,
evaluated in the order of SQL, return what the stages return (`assembled_iff`).
-/

namespace PgClickhouse

section

variable {V : Type} [DecidableEq V] {F : Functions V}

open UpperExpr UpperRelationKind

/-! ## Rows of one statement -/

theorem windowFuncs_eq_empty {es : List (UpperExpr V)}
    (absent : ∀ e ∈ es, e.pull isWindowFunc = []) : windowFuncs es = ∅ := by
  rw [windowFuncs, List.flatMap_eq_nil_iff.mpr absent]
  rfl

theorem windowFuncs_append {es es' : List (UpperExpr V)} (sub : ∀ e ∈ es', e ∈ es) :
    windowFuncs (es ++ es') = windowFuncs es := by
  ext x
  simp only [windowFuncs, List.mem_toFinset, List.mem_flatMap, List.mem_append]
  refine ⟨fun h => ?_, fun h => ?_⟩
  · obtain ⟨e, mem | mem, part⟩ := h
    · exact ⟨e, mem, part⟩
    · exact ⟨e, sub e mem, part⟩
  · obtain ⟨e, mem, part⟩ := h
    exact ⟨e, .inl mem, part⟩

theorem windowed_empty {rows out : Multiset (Columns V)} :
    Windowed F ∅ rows out ↔ out = rows := by
  rw [Windowed, if_pos rfl]

/-- Without GROUP BY, HAVING and aggregates the rows are those of FROM and WHERE. -/
theorem grouped_of_plain {stmt : SelectStmt V} (no_keys : stmt.group_by = [])
    (no_having : stmt.having = []) (no_aggs : ∀ e ∈ stmt.exprs, e.contain_agg_clause = false)
    (scanned : Multiset (Row V)) :
    stmt.grouped F scanned =
      (scanned.filter (holds stmt.quals · = true)).map Columns.ofRow := by
  have plain : stmt.isGrouped = false := by
    simpa [SelectStmt.isGrouped, no_keys, no_having] using no_aggs
  rw [SelectStmt.grouped, if_neg (by simp [plain]), no_having]
  exact Multiset.filter_eq_self.mpr fun _ _ => rfl

/-- Whether the columns of the scan are qualified does not matter. -/
theorem rows_joinTree (contain_subplans : Expr V → Bool)
    (contents : Bytes → Bytes → Multiset (Tuple V)) (rel : RelOptInfo (Expr V))
    (use_alias use_alias' : Bool) (rows : Multiset (Row V)) :
    (joinTree contain_subplans rel use_alias).Rows contents rel.relation_index rows ↔
      (joinTree contain_subplans rel use_alias').Rows contents rel.relation_index rows := by
  cases rel with
  | base => cases use_alias <;> cases use_alias' <;> exact Iff.rfl
  | join => exact Iff.rfl

namespace PlannerInfo

variable {root : PlannerInfo V}

theorem em_of_input_target {ec_members : List (UpperExpr V)} {target : PathTarget V}
    {e : UpperExpr V}
    (found : root.chfdw_find_em_expr_for_input_target ec_members target = some e) :
    e ∈ ec_members ∧ e ∈ target.map Prod.fst := by
  obtain ⟨entry, first, rfl⟩ := Option.map_eq_some_iff.mp found
  have test := List.find?_some first
  simp only [Bool.and_eq_true, List.contains_iff_mem] at test
  exact ⟨test.2, List.mem_map_of_mem (List.mem_of_find?_eq_some first)⟩

variable {contain_subplans : Expr V → Bool} {contain_upper_subplans : UpperExpr V → Bool}
  {pathkeys : List (PathKey V)} {stmt : SelectStmt V}

/-- A statement reads a scan, with its conditions, and sorts by `pathkeys`. -/
structure Reads (contain_subplans : Expr V → Bool) (stmt : SelectStmt V)
    (rel : RelOptInfo (Expr V)) (pathkeys : List (PathKey V)) : Prop where
  scan : ∃ use_alias, stmt.scan = joinTree contain_subplans rel use_alias
  self : stmt.self = rel.relation_index
  quals : stmt.quals = rel.remote_conds
  keys : List.Forall₂ SortKey.Of pathkeys stmt.order_by

theorem Reads.scanned {rel : RelOptInfo (Expr V)} (reads : Reads contain_subplans stmt rel pathkeys)
    {contents : Bytes → Bytes → Multiset (Tuple V)} {scanned : Multiset (Row V)}
    (rows : stmt.scan.Rows contents stmt.self scanned) :
    (joinTree contain_subplans rel (usesAlias contain_subplans rel)).Rows contents
      rel.relation_index scanned := by
  obtain ⟨use_alias, same⟩ := reads.scan
  rw [same, reads.self] at rows
  exact (rows_joinTree contain_subplans contents rel _ _ scanned).mp rows

theorem of_deparse_scan {rel : RelOptInfo (Expr V)}
    (assembled : root.chfdw_deparse_select_stmt_for_rel contain_subplans contain_upper_subplans
      pathkeys (.scan rel) = some stmt) :
    Reads contain_subplans stmt rel pathkeys ∧ stmt.targets = none ∧ stmt.group_by = [] ∧
      stmt.having = [] ∧
      ∀ e ∈ stmt.order_by.map SortKey.expr, e ∈ pathkeys.flatMap PathKey.ec_members := by
  obtain ⟨order_by, keys, rfl⟩ := Option.map_eq_some_iff.mp assembled
  obtain ⟨keys, found⟩ := of_sortKeys keys fun _ _ => em_of_scan
  refine ⟨⟨⟨_, rfl⟩, rfl, rfl, keys⟩, rfl, rfl, rfl, fun e mem => ?_⟩
  obtain ⟨pathkey, mem, found⟩ := found e mem
  exact List.mem_flatMap.mpr ⟨pathkey, mem, em_of_scan found⟩

theorem of_deparse_upper {rel : RelOptInfo (Expr V)} {stage : UpperRelationKind}
    {tlist : PathTarget V} {remote_conds local_conds : List (UpperExpr V)}
    (assembled : root.chfdw_deparse_select_stmt_for_rel contain_subplans contain_upper_subplans
      pathkeys (.upper stage tlist remote_conds local_conds (.scan rel)) = some stmt) :
    Reads contain_subplans stmt rel pathkeys ∧ stmt.targets = some (tlist.map Prod.fst) ∧
      (root.groupClause.mapM fun ref => get_sortgroupref_tle ref tlist) = some stmt.group_by ∧
      stmt.having = remote_conds ∧
      ∀ e ∈ stmt.order_by.map SortKey.expr, e ∈ (root.upper_target stage).map Prod.fst := by
  obtain ⟨group_by, groups, assembled⟩ := Option.bind_eq_some_iff.mp assembled
  obtain ⟨order_by, keys, rfl⟩ := Option.map_eq_some_iff.mp assembled
  obtain ⟨keys, found⟩ := of_sortKeys keys fun _ _ found => (em_of_input_target found).1
  refine ⟨⟨⟨_, rfl⟩, rfl, rfl, keys⟩, rfl, groups, rfl, fun e mem => ?_⟩
  obtain ⟨pathkey, -, found⟩ := found e mem
  exact (em_of_input_target found).2

variable (F root) in
/-- The rows of the statement for `base`, pushed down after `stages`, come from those of the
stages: received, filtered and projected, they give the same values. -/
def Delivers (contain_subplans : Expr V → Bool) (stages : List UpperRelationKind)
    (base : StageRel V) (exprs : UpperExpr V → Prop) (pathkeys : List (PathKey V))
    (stmt : SelectStmt V) : Prop :=
  ∀ contents received, stmt.Rows F contents received →
    ∃ scanned, root.ScanRows contain_subplans contents scanned ∧
      ∃ rows : List (Columns V), root.Staged F stages scanned (rows : Multiset (Columns V)) ∧
        (∃ keys, List.Forall₂ SortKey.Of pathkeys keys ∧
          rows.Pairwise (SortKey.Precedes F keys)) ∧
        ∀ target : List (UpperExpr V), (∀ e ∈ target, exprs e) →
          ((received.map (stmt.received F)).filter (base.passesLocal F)).map
              (fun cols => target.map (eval F cols)) =
            rows.map fun cols => target.map (eval F cols)

/-- The rows of the scan below an upper relation, which has no local conditions. -/
theorem scanRows_of_no_local {contents : Bytes → Bytes → Multiset (Tuple V)}
    {scanned : Multiset (Row V)} (reads : Reads contain_subplans stmt root.scan pathkeys)
    (no_local : root.scan.local_conds = [])
    (rows : stmt.scan.Rows contents stmt.self scanned) :
    root.ScanRows contain_subplans contents
      ((scanned.filter (holds root.scan.remote_conds · = true)).map Columns.ofRow) := by
  refine ⟨scanned, reads.scanned rows, congrArg _ (Multiset.filter_congr fun row _ => ?_)⟩
  rw [no_local]
  exact (and_iff_left rfl).symm

/-- The scan alone. -/
theorem delivers_scan
    (assembled : root.chfdw_deparse_select_stmt_for_rel contain_subplans contain_upper_subplans
      pathkeys (.scan root.scan) = some stmt)
    (simple : ∀ e ∈ pathkeys.flatMap PathKey.ec_members,
      e.contain_agg_clause = false ∧ e.pull isWindowFunc = []) :
    root.Delivers F contain_subplans [] (.scan root.scan) (fun _ => True) pathkeys stmt := by
  obtain ⟨reads, targets, no_keys, no_having, members⟩ := of_deparse_scan assembled
  have exprs : ∀ e ∈ stmt.exprs, e ∈ pathkeys.flatMap PathKey.ec_members := by
    rw [SelectStmt.exprs, targets]
    exact members
  intro contents received rows
  obtain ⟨scanned, from_, windowed, sorted⟩ := rows
  rw [windowFuncs_eq_empty fun e mem => (simple e (exprs e mem)).2, windowed_empty,
    grouped_of_plain no_keys no_having fun e mem => (simple e (exprs e mem)).1,
    reads.quals] at windowed
  have same : received.map (stmt.received F) = received := by
    rw [List.map_congr_left (g := id), List.map_id]
    intro cols _
    rw [SelectStmt.received, targets]
    rfl
  refine ⟨_, ⟨scanned, reads.scanned from_, rfl⟩,
    received.filter fun cols => holds root.scan.local_conds cols.row, ?_,
    ⟨stmt.order_by, reads.keys, sorted.sublist List.filter_sublist⟩, fun target _ => ?_⟩
  · rw [Staged, coe_filter, windowed, Multiset.filter_map, Multiset.filter_filter]
    refine congrArg _ (Multiset.filter_congr fun row _ => ?_)
    rw [Function.comp_apply, Columns.row_ofRow, and_comm]
  · rw [same]
    rfl

/-- Window functions over the scan. -/
theorem delivers_window
    (assembled : root.chfdw_deparse_select_stmt_for_rel contain_subplans contain_upper_subplans
      pathkeys (.upper .WINDOW root.window_target [] [] (.scan root.scan)) = some stmt)
    (no_keys : root.groupClause = []) (no_local : root.scan.local_conds = [])
    (no_aggs : ∀ e ∈ root.window_target.map Prod.fst, e.contain_agg_clause = false) :
    root.Delivers F contain_subplans [.WINDOW]
      (.upper .WINDOW root.window_target [] [] (.scan root.scan))
      (Computed (· ∈ root.window_target.map Prod.fst)) pathkeys stmt := by
  obtain ⟨reads, targets, group_by, no_having, members⟩ := of_deparse_upper assembled
  rw [upper_target] at members
  rw [no_keys] at group_by
  have no_group_by : stmt.group_by = [] := (Option.some.inj group_by).symm
  have exprs : stmt.exprs =
      root.window_target.map Prod.fst ++ stmt.order_by.map SortKey.expr := by
    rw [SelectStmt.exprs, targets]
    rfl
  have plain_exprs : ∀ e ∈ stmt.exprs, e.contain_agg_clause = false := by
    intro e mem
    rw [exprs, List.mem_append] at mem
    rcases mem with mem | mem
    · exact no_aggs e mem
    · exact no_aggs e (members e mem)
  intro contents received rows
  obtain ⟨scanned, from_, windowed, sorted⟩ := rows
  rw [exprs, windowFuncs_append members, grouped_of_plain no_group_by no_having plain_exprs,
    reads.quals] at windowed
  have plain : ∀ cols ∈ received, cols.Plain (root.window_target.map Prod.fst) := by
    refine Columns.plain_of_windowed windowed fun cols mem => ?_
    obtain ⟨row, -, rfl⟩ := Multiset.mem_map.mp mem
    exact (Columns.plain_ofRow row).mono nofun
  refine ⟨_, scanRows_of_no_local reads no_local from_, received, ⟨_, windowed, rfl⟩,
    ⟨stmt.order_by, reads.keys, sorted⟩, fun target computed => ?_⟩
  · have kept : (received.map (stmt.received F)).filter
        ((StageRel.upper .WINDOW root.window_target [] [] (.scan root.scan)).passesLocal F) =
        received.map (stmt.received F) := List.filter_eq_self.mpr fun _ _ => rfl
    rw [kept, List.map_map]
    refine List.map_congr_left fun cols mem => ?_
    rw [Function.comp_apply, SelectStmt.received, targets]
    exact List.map_congr_left fun e he => eval_ofTuple (plain cols mem) (computed e he)

/-! ### Grouping -/

section

variable {tlist : PathTarget V} {remote_conds local_conds : List (UpperExpr V)}

omit [DecidableEq V] in
/-- Whether the rows are grouped can be seen from the query. -/
theorem isGrouped_iff (grouping : root.Grouping tlist remote_conds local_conds)
    (targets : stmt.targets = some (tlist.map Prod.fst))
    (group_by : (root.groupClause.mapM fun ref => get_sortgroupref_tle ref tlist) =
      some stmt.group_by)
    (having : stmt.having = remote_conds)
    (members : ∀ e ∈ stmt.order_by.map SortKey.expr, e ∈ root.grouping_target.map Prod.fst) :
    stmt.isGrouped = true ↔ root.Aggregates := by
  have length := (forall₂_of_mapM group_by).length_eq
  rw [SelectStmt.isGrouped, Bool.or_eq_true, Aggregates, SelectStmt.exprs, targets, having]
  refine or_congr ?_ ⟨fun h => ?_, fun h => ?_⟩
  · rw [Bool.not_eq_true', List.isEmpty_eq_false_iff, ← List.length_pos_iff,
      ← List.length_pos_iff, length]
  · obtain ⟨e, mem, agg⟩ := List.any_eq_true.mp h
    simp only [Option.getD_some, List.mem_append] at mem
    rcases mem with (mem | mem) | mem
    · exact contain_agg_clause_of_part (grouping.only e mem) agg
    · exact List.any_eq_true.mpr ⟨e, List.mem_append_left _ (members e mem), agg⟩
    · exact List.any_eq_true.mpr
        ⟨e, List.mem_append_right _ ((grouping.mem_havingQual e).mpr (.inl mem)), agg⟩
  · obtain ⟨e, mem, agg⟩ := List.any_eq_true.mp h
    have fetched : Fetched (tlist.map Prod.fst) e ∨ e ∈ remote_conds := by
      rcases List.mem_append.mp mem with mem | mem
      · exact .inl (grouping.fetched e (List.mem_append_left _ mem))
      · rcases (grouping.mem_havingQual e).mp mem with mem | mem
        · exact .inr mem
        · exact .inl (grouping.fetched e (List.mem_append_right _ mem))
    rw [Option.getD_some, List.any_append, List.any_append, Bool.or_eq_true, Bool.or_eq_true]
    rcases fetched with fetched | mem
    · exact .inl (.inl (any_agg_of_fetched fetched agg))
    · exact .inr (List.any_eq_true.mpr ⟨e, mem, agg⟩)

theorem windowFuncs_of_grouping (grouping : root.Grouping tlist remote_conds local_conds)
    (wf : root.WellFormed) (targets : stmt.targets = some (tlist.map Prod.fst))
    (members : ∀ e ∈ stmt.order_by.map SortKey.expr, e ∈ root.grouping_target.map Prod.fst) :
    windowFuncs stmt.exprs = ∅ := by
  refine windowFuncs_eq_empty fun e mem => ?_
  rw [SelectStmt.exprs, targets, Option.getD_some, List.mem_append] at mem
  rcases mem with mem | mem
  · rcases grouping.only e mem with mem | part
    · exact wf.no_window_early e mem
    · obtain ⟨t, mem, part, -⟩ := part
      exact pull_eq_nil_of_mem_pull (wf.no_window_early t mem) part
  · exact wf.no_window_early e (List.mem_append_left _ (members e mem))

omit [DecidableEq V] in
/-- Without keys and aggregates HAVING does not depend on the row. -/
theorem passes_of_not_aggregates (wf : root.WellFormed) (plain : ¬ root.Aggregates)
    {cols : Columns V} (columns : cols.Plain []) :
    passes F cols root.havingQual = passes F (fun _ => none) root.havingQual := by
  rw [Aggregates, not_or, not_not, Bool.not_eq_true, List.any_eq_false] at plain
  have no_keys : root.groupKeys = [] := by rw [groupKeys, plain.1, List.filterMap_nil]
  have same : ∀ e ∈ root.havingQual, e.truth F cols = e.truth F fun _ => none := by
    intro e mem
    have computed := computed_of_no_agg (wf.keyed e (List.mem_append_right _ mem))
      (Bool.not_eq_true _ ▸ plain.2 e (List.mem_append_right _ mem))
    rw [no_keys] at computed
    rw [truth, truth,
      eval_of_constant columns (computed.trans fun x mem => absurd mem List.not_mem_nil)]
  rw [Bool.eq_iff_iff, passes, passes, List.all_eq_true, List.all_eq_true]
  exact forall₂_congr fun e mem => by rw [same e mem]

/-- The rows of the statement that pass the local conditions are the groups that pass
HAVING. -/
theorem groups_of_grouped (wf : root.WellFormed)
    (grouping : root.Grouping tlist remote_conds local_conds)
    (isGrouped : stmt.isGrouped = true ↔ root.Aggregates) (keys : stmt.group_by = root.groupKeys)
    (having : stmt.having = remote_conds)
    (recognised : root.Aggregates ∨ passes F (fun _ => none) root.havingQual = false)
    (scanned : Multiset (Row V)) :
    (stmt.grouped F scanned).filter (passes F · local_conds = true) =
      (groups F root.groupKeys
        ((scanned.filter (holds stmt.quals · = true)).map Columns.ofRow)).filter
          (passes F · root.havingQual = true) := by
  have both : ∀ cols, (passes F cols local_conds = true ∧ passes F cols remote_conds = true) ↔
      passes F cols root.havingQual = true := by
    intro cols
    rw [← grouping.passes cols, Bool.and_eq_true, and_comm]
  rw [SelectStmt.grouped, having, Multiset.filter_filter]
  simp only [both]
  by_cases aggregates : root.Aggregates
  · rw [if_pos (isGrouped.mpr aggregates), keys]
  · have rejects : ∀ cols : Columns V, cols.Plain [] →
        ¬ passes F cols root.havingQual = true := by
      intro cols plain
      rw [passes_of_not_aggregates wf aggregates plain,
        recognised.resolve_left aggregates]
      exact Bool.false_ne_true
    have no_keys : root.groupKeys = [] := by
      rw [Aggregates, not_or, not_not] at aggregates
      rw [groupKeys, aggregates.1, List.filterMap_nil]
    rw [if_neg fun h => aggregates (isGrouped.mp h), no_keys]
    rw [Multiset.filter_eq_nil.mpr, Multiset.filter_eq_nil.mpr]
    · intro cols mem
      exact rejects cols (Columns.plain_of_mem_groups mem)
    · intro cols mem
      obtain ⟨row, -, rfl⟩ := Multiset.mem_map.mp mem
      exact rejects _ (Columns.plain_ofRow row)

theorem plain_of_mem_grouped {es : List (UpperExpr V)} {scanned : Multiset (Row V)}
    (has_keys : ∀ x ∈ stmt.group_by, x ∈ es) {cols : Columns V}
    (mem : cols ∈ stmt.grouped F scanned) : cols.Plain es := by
  rw [SelectStmt.grouped] at mem
  have mem := Multiset.mem_of_mem_filter mem
  split at mem
  · exact (Columns.plain_of_mem_groups mem).mono has_keys
  · obtain ⟨row, -, rfl⟩ := Multiset.mem_map.mp mem
    exact (Columns.plain_ofRow row).mono nofun

/-- Grouping over the scan. -/
theorem delivers_grouping (wf : root.WellFormed)
    (grouping : root.Grouping tlist remote_conds local_conds)
    (assembled : root.chfdw_deparse_select_stmt_for_rel contain_subplans contain_upper_subplans
      pathkeys (.upper .GROUP_AGG tlist remote_conds local_conds (.scan root.scan)) = some stmt)
    (no_local : root.scan.local_conds = [])
    (recognised : root.Aggregates ∨ passes F (fun _ => none) root.havingQual = false) :
    root.Delivers F contain_subplans [.GROUP_AGG]
      (.upper .GROUP_AGG tlist remote_conds local_conds (.scan root.scan))
      (Computed (· ∈ root.grouping_target.map Prod.fst)) pathkeys stmt := by
  obtain ⟨reads, targets, group_by, having, members⟩ := of_deparse_upper assembled
  rw [upper_target] at members
  have isGrouped := isGrouped_iff grouping targets group_by having members
  obtain ⟨keys, has_keys⟩ := grouping.keys wf group_by
  have computed := grouping.computed wf has_keys
  intro contents received rows
  obtain ⟨scanned, from_, windowed, sorted⟩ := rows
  rw [windowFuncs_of_grouping grouping wf targets members, windowed_empty] at windowed
  -- a received row gives what is computed from the select list its value
  have same : ∀ cols ∈ received, ∀ e, Computed (· ∈ tlist.map Prod.fst) e →
      e.eval F (stmt.received F cols) = e.eval F cols := by
    intro cols mem e computed
    have mem : cols ∈ stmt.grouped F scanned := windowed ▸ Multiset.mem_coe.mpr mem
    rw [SelectStmt.received, targets]
    exact eval_ofTuple (plain_of_mem_grouped (by rwa [keys]) mem) computed
  have passes_local : ∀ cols ∈ received,
      passes F (stmt.received F cols) local_conds = passes F cols local_conds := by
    intro cols mem
    rw [Bool.eq_iff_iff, passes, passes, List.all_eq_true, List.all_eq_true]
    refine forall₂_congr fun e he => ?_
    rw [truth, truth, same cols mem e (computed e (List.mem_append_right _ he))]
  refine ⟨_, scanRows_of_no_local reads no_local from_,
    received.filter (passes F · local_conds), ⟨_, ?_, rfl⟩,
    ⟨stmt.order_by, reads.keys, sorted.sublist List.filter_sublist⟩, fun target wanted => ?_⟩
  · rw [StageRows, coe_filter, windowed,
      groups_of_grouped wf grouping isGrouped keys having recognised,
      reads.quals]
  · rw [List.filter_map, List.map_map]
    have kept : received.filter ((StageRel.upper .GROUP_AGG tlist remote_conds local_conds
        (.scan root.scan)).passesLocal F ∘ stmt.received F) =
        received.filter (passes F · local_conds) := List.filter_congr passes_local
    rw [kept]
    refine List.map_congr_left fun cols mem => List.map_congr_left fun e he => ?_
    refine same cols (List.mem_of_mem_filter mem) e ((wanted e he).trans fun x hx => ?_)
    exact computed x (List.mem_append_left _ hx)

end

/-! ## All stages -/

variable {chfdw_is_foreign_expr : StageRel V → Bool → UpperExpr V → Bool}

/-- The sort expressions that are found for a relation. -/
def sortExpr (root : PlannerInfo V) : StageRel V → List (UpperExpr V) → Option (UpperExpr V)
  | .scan rel, ec_members => scanSortExpr rel ec_members
  | .upper stage .., ec_members =>
      root.chfdw_find_em_expr_for_input_target ec_members (root.upper_target stage)

theorem of_window_ok {input_rel rel : StageRel V}
    (ok : root.clickhouseGetForeignUpperPaths chfdw_is_foreign_expr input_rel .WINDOW = some rel) :
    input_rel.has_local_conds = false ∧
      rel = .upper .WINDOW root.window_target [] [] input_rel := by
  rw [clickhouseGetForeignUpperPaths, foreign_window_ok] at ok
  split at ok
  · cases ok
  next no_local =>
  simp only [Option.ite_none_right_eq_some] at ok
  exact ⟨Bool.eq_false_iff.mpr no_local, (Option.some.inj ok.2).symm⟩

theorem of_grouping_ok {input_rel rel : StageRel V}
    (ok : root.clickhouseGetForeignUpperPaths chfdw_is_foreign_expr input_rel .GROUP_AGG =
      some rel) :
    input_rel.has_local_conds = false ∧ ∃ tlist remote_conds local_conds,
      rel = .upper .GROUP_AGG tlist remote_conds local_conds input_rel ∧
        root.Grouping tlist remote_conds local_conds := by
  rw [clickhouseGetForeignUpperPaths] at ok
  split at ok
  · cases ok
  rw [add_foreign_grouping_paths] at ok
  split at ok
  · cases ok
  exact of_foreign_grouping_ok ok

omit [DecidableEq V] in
theorem isSome_scanSortExpr {rel : RelOptInfo (Expr V)} {ec_members : List (UpperExpr V)}
    (found : (chfdw_find_em_expr_for_rel ec_members rel).isSome = true) :
    (scanSortExpr rel ec_members).isSome = true := by
  unfold scanSortExpr
  split <;> simp [found]

theorem of_ordered_ok {input_rel rel : StageRel V}
    (ok : root.clickhouseGetForeignUpperPaths chfdw_is_foreign_expr input_rel .ORDERED =
      some rel) :
    rel = .upper .ORDERED [] [] [] input_rel ∧
      ∀ pathkey ∈ root.sort_pathkeys,
        (root.sortExpr input_rel pathkey.ec_members).isSome = true := by
  rw [clickhouseGetForeignUpperPaths] at ok
  unfold add_foreign_ordered_paths at ok
  split at ok
  · cases ok
  split at ok
  next scanrel =>
    simp only [Option.ite_none_right_eq_some, qp_is_pushdown_safe, Bool.and_eq_true,
      List.all_eq_true, Option.any_eq_true] at ok
    obtain ⟨⟨-, found⟩, ok⟩ := ok
    refine ⟨(Option.some.inj ok).symm, fun pathkey mem => ?_⟩
    obtain ⟨e, found, -⟩ := (found pathkey mem).2
    exact isSome_scanSortExpr (by rw [found]; rfl)
  next =>
    simp only [Option.ite_none_right_eq_some, Bool.and_eq_true, List.all_eq_true,
      Option.any_eq_true] at ok
    obtain ⟨found, ok⟩ := ok
    refine ⟨(Option.some.inj ok).symm, fun pathkey mem => ?_⟩
    obtain ⟨e, found, -⟩ := (found pathkey mem).2
    rw [sortExpr, found]
    rfl

theorem staged_sorted {stages : List UpperRelationKind} {rows out : Multiset (Columns V)} :
    root.Staged F (stages ++ [.ORDERED]) rows out ↔ root.Staged F stages rows out := by
  induction stages generalizing rows with
  | nil => exact ⟨fun h => by obtain ⟨_, rfl, rfl⟩ := h; rfl, fun h => ⟨_, rfl, h⟩⟩
  | cons stage stages ih => exact exists_congr fun mid => and_congr_right fun _ => ih

/-- A stage before the sort. -/
theorem assembled_of_delivers {stages : List UpperRelationKind} {base : StageRel V}
    {exprs : UpperExpr V → Prop}
    (assembled : root.statement contain_subplans contain_upper_subplans base = some stmt)
    (unsorted : base.foreignrel = base ∧ .ORDERED ∉ stages)
    (delivers : root.Delivers F contain_subplans stages base exprs [] stmt)
    (target : ∀ e ∈ root.stageTarget stages.getLast?, exprs e) :
    root.Assembled F contain_subplans contain_upper_subplans stages base := by
  refine ⟨stmt, assembled, fun contents out scan => ?_⟩
  obtain ⟨received, rows, rfl⟩ := scan
  obtain ⟨scanned, from_, rows, staged, -, same⟩ := delivers contents received rows
  rw [unsorted.1, same _ target]
  exact ⟨scanned, from_, rows, staged, fun sorted => absurd sorted unsorted.2, rfl⟩

/-- The sort after it. -/
theorem assembled_sorted_of_delivers {stages : List UpperRelationKind} {base : StageRel V}
    {exprs : UpperExpr V → Prop}
    (assembled : root.chfdw_deparse_select_stmt_for_rel contain_subplans contain_upper_subplans
      root.sort_pathkeys base = some stmt)
    (delivers : root.Delivers F contain_subplans stages base exprs root.sort_pathkeys stmt)
    (target : ∀ e ∈ root.ordered_target, exprs e) :
    root.Assembled F contain_subplans contain_upper_subplans (stages ++ [.ORDERED])
      (.upper .ORDERED [] [] [] base) := by
  refine ⟨stmt, assembled, fun contents out scan => ?_⟩
  obtain ⟨received, rows, rfl⟩ := scan
  obtain ⟨scanned, from_, rows, staged, sorted, same⟩ := delivers contents received rows
  have last : (stages ++ [ORDERED]).getLast? = some .ORDERED :=
    List.getLast?_concat
  refine ⟨scanned, from_, rows, staged_sorted.mpr staged, fun _ => sorted, ?_⟩
  rw [last]
  exact same _ target

theorem exists_stmt_scan (root : PlannerInfo V) (contain_subplans : Expr V → Bool)
    (contain_upper_subplans : UpperExpr V → Bool) (rel : RelOptInfo (Expr V))
    (pathkeys : List (PathKey V))
    (found : ∀ pathkey ∈ pathkeys, (scanSortExpr rel pathkey.ec_members).isSome = true) :
    ∃ stmt, root.chfdw_deparse_select_stmt_for_rel contain_subplans contain_upper_subplans
      pathkeys (.scan rel) = some stmt := by
  obtain ⟨order_by, keys⟩ := exists_mapM (l := pathkeys)
    (f := fun pathkey => (scanSortExpr rel pathkey.ec_members).map (sortKey pathkey))
    fun pathkey mem => by rw [Option.isSome_map, found pathkey mem]
  exact ⟨_, by rw [chfdw_deparse_select_stmt_for_rel, keys]; rfl⟩

theorem exists_stmt_upper (contain_subplans : Expr V → Bool)
    (contain_upper_subplans : UpperExpr V → Bool) (rel : RelOptInfo (Expr V))
    (stage : UpperRelationKind) (remote_conds local_conds : List (UpperExpr V))
    {tlist : PathTarget V} {pathkeys : List (PathKey V)}
    (refs : ∀ ref ∈ root.groupClause, (get_sortgroupref_tle ref tlist).isSome = true)
    (found : ∀ pathkey ∈ pathkeys, (root.chfdw_find_em_expr_for_input_target
      pathkey.ec_members (root.upper_target stage)).isSome = true) :
    ∃ stmt, root.chfdw_deparse_select_stmt_for_rel contain_subplans contain_upper_subplans
      pathkeys (.upper stage tlist remote_conds local_conds (.scan rel)) = some stmt := by
  obtain ⟨group_by, groups⟩ := exists_mapM refs
  obtain ⟨order_by, keys⟩ := exists_mapM (l := pathkeys)
    (f := fun pathkey => (root.chfdw_find_em_expr_for_input_target pathkey.ec_members
      (root.upper_target stage)).map (sortKey pathkey))
    fun pathkey mem => by rw [Option.isSome_map, found pathkey mem]
  exact ⟨_, by rw [chfdw_deparse_select_stmt_for_rel, groups, keys]; rfl⟩

omit [DecidableEq V] in
theorem Grouping.found {tlist : PathTarget V} {remote_conds local_conds : List (UpperExpr V)}
    (grouping : root.Grouping tlist remote_conds local_conds) (wf : root.WellFormed) :
    ∀ ref ∈ root.groupClause, (get_sortgroupref_tle ref tlist).isSome = true := by
  intro ref mem
  obtain ⟨used, member⟩ := wf.grouped ref mem
  obtain ⟨entry, member, same⟩ := List.mem_map.mp member
  rw [get_sortgroupref_tle, Option.isSome_map, grouping.refs ref mem used,
    Option.isSome_iff_ne_none]
  exact fun none => Keyed.find_eq_none.mp none entry member same

/-- Every FROM clause over empty tables may return no rows. -/
theorem rows_empty (tree : FromItem (Expr V)) (self : Nat) :
    tree.Rows (fun _ _ => 0) self 0 := by
  induction tree generalizing self with
  | table => rfl
  | subquery _ _ _ subquery_alias _ ih => exact ⟨0, ih subquery_alias, rfl⟩
  | join jointype outer inner joinclauses ih_o ih_i =>
    refine ⟨0, 0, ih_o self, ih_i self, ?_⟩
    cases jointype with
    | SEMI => exact .zero
    | _ => rfl

/-- A grouping that is not recognised returns no row for empty tables, where the query has
one. -/
theorem recognised_of_assembled {tlist : PathTarget V} {stages : List UpperRelationKind}
    {rel : StageRel V} {remote_conds local_conds : List (UpperExpr V)} (wf : root.WellFormed)
    (grouping : root.Grouping tlist remote_conds local_conds)
    (base : rel.foreignrel = .upper .GROUP_AGG tlist remote_conds local_conds (.scan root.scan))
    (staged : stages = [.GROUP_AGG] ∨ stages = [GROUP_AGG] ++ [ORDERED])
    (assembled : root.Assembled F contain_subplans contain_upper_subplans stages rel) :
    root.Aggregates ∨ passes F (fun _ => none) root.havingQual = false := by
  by_contra unrecognised
  rw [not_or, Bool.not_eq_false] at unrecognised
  obtain ⟨plain, having⟩ := unrecognised
  obtain ⟨stmt, assembled, returns⟩ := assembled
  rw [statement, base] at assembled
  obtain ⟨reads, targets, group_by, remote, members⟩ := of_deparse_upper assembled
  have isGrouped := isGrouped_iff grouping targets group_by remote members
  have empty : stmt.Rows F (fun _ _ => 0) [] := by
    refine ⟨0, rows_empty _ _, ?_, .nil⟩
    rw [windowFuncs_of_grouping grouping wf targets members, windowed_empty, SelectStmt.grouped,
      if_neg fun h => plain (isGrouped.mp h)]
    rfl
  obtain ⟨scanned, -, rows, staged', -, out⟩ := returns _ [] ⟨[], empty, rfl⟩
  have none : rows = [] := List.map_eq_nil_iff.mp out.symm
  have group : root.Staged F [.GROUP_AGG] scanned 0 := by
    rw [none] at staged'
    rcases staged with rfl | rfl
    · exact staged'
    · exact staged_sorted.mp staged'
  obtain ⟨mid, group, same⟩ := group
  have no_keys : root.groupKeys = [] := by
    rw [Aggregates, not_or, not_not] at plain
    rw [groupKeys, plain.1, List.filterMap_nil]
  rw [StageRows, no_keys, ← same] at group
  have one : Columns.ofGroup F [] [] scanned ∈ groups F [] scanned := Multiset.mem_singleton_self _
  refine Multiset.filter_eq_nil.mp group.symm _ one ?_
  rw [passes_of_not_aggregates wf plain (Columns.plain_of_mem_groups one), having]

omit [DecidableEq V] in
/-- The stages that can have been planned. -/
theorem stages_of_prefix {stages : List UpperRelationKind} (planned : stages <+: root.stages) :
    stages = [] ∨
    (stages = [] ++ [ORDERED] ∧ .GROUP_AGG ∉ root.stages ∧ .WINDOW ∉ root.stages) ∨
    stages = [.GROUP_AGG] ∨ (stages = [GROUP_AGG] ++ [ORDERED] ∧ .WINDOW ∉ root.stages) ∨
    (stages = [.WINDOW] ∧ .GROUP_AGG ∉ root.stages) ∨
    (stages = [WINDOW] ++ [ORDERED] ∧ .GROUP_AGG ∉ root.stages) ∨
    stages = [.GROUP_AGG, .WINDOW] ∨ stages = [GROUP_AGG, WINDOW] ++ [ORDERED] := by
  revert planned
  rw [PlannerInfo.stages]
  split <;> split <;> split <;> simp [List.prefix_cons_iff] <;> grind

omit [DecidableEq V] in
theorem groupClause_of_not_mem_stages (absent : .GROUP_AGG ∉ root.stages) :
    root.groupClause = [] := by
  rw [PlannerInfo.stages] at absent
  by_contra keys
  simp [keys] at absent

theorem pushdown_append (stages : List UpperRelationKind) {stage : UpperRelationKind}
    {rel : StageRel V} (ok : root.pushdown chfdw_is_foreign_expr (stages ++ [stage]) = some rel) :
    ∃ input_rel, root.pushdown chfdw_is_foreign_expr stages = some input_rel ∧
      root.clickhouseGetForeignUpperPaths chfdw_is_foreign_expr input_rel stage = some rel := by
  rw [pushdown, List.foldlM_append] at ok
  obtain ⟨input_rel, first, last⟩ := Option.bind_eq_some_iff.mp ok
  rw [List.foldlM_cons] at last
  obtain ⟨rel', last, same⟩ := Option.bind_eq_some_iff.mp last
  cases same
  exact ⟨input_rel, first, last⟩

/-- A scan that is pushed down, alone or sorted. -/
theorem assembled_scan (wf : root.WellFormed) {rel : StageRel V} :
    (root.pushdown chfdw_is_foreign_expr [] = some rel →
      root.Assembled F contain_subplans contain_upper_subplans [] rel) ∧
    (.GROUP_AGG ∉ root.stages → .WINDOW ∉ root.stages →
      root.pushdown chfdw_is_foreign_expr ([] ++ [.ORDERED]) = some rel →
      root.Assembled F contain_subplans contain_upper_subplans ([] ++ [.ORDERED]) rel) := by
  refine ⟨fun ok => ?_, fun no_groups no_window ok => ?_⟩
  · cases ok
    obtain ⟨stmt, assembled⟩ := exists_stmt_scan root contain_subplans
      contain_upper_subplans root.scan [] nofun
    exact assembled_of_delivers assembled ⟨rfl, List.not_mem_nil⟩
      (delivers_scan assembled nofun) fun _ _ => trivial
  · obtain ⟨input_rel, first, last⟩ := pushdown_append _ ok
    cases first
    obtain ⟨rfl, found⟩ := of_ordered_ok last
    obtain ⟨stmt, assembled⟩ := exists_stmt_scan root contain_subplans
      contain_upper_subplans root.scan root.sort_pathkeys found
    refine assembled_sorted_of_delivers assembled (delivers_scan assembled fun e mem => ?_)
      fun _ _ => trivial
    exact ⟨wf.no_aggs no_groups e (List.mem_append_right _ mem), wf.no_window no_window e mem⟩

omit [DecidableEq V] in
theorem no_local_of_scan {rel : RelOptInfo (Expr V)}
    (none : (StageRel.scan rel).has_local_conds = false) : rel.local_conds = [] := by
  simpa [StageRel.has_local_conds] using none

theorem of_pushdown_window {rel : StageRel V}
    (ok : root.pushdown chfdw_is_foreign_expr [.WINDOW] = some rel) :
    root.scan.local_conds = [] ∧
      rel = .upper .WINDOW root.window_target [] [] (.scan root.scan) := by
  obtain ⟨input_rel, first, last⟩ := pushdown_append [] ok
  cases first
  obtain ⟨no_local, rfl⟩ := of_window_ok last
  exact ⟨no_local_of_scan no_local, rfl⟩

theorem of_pushdown_grouping {rel : StageRel V}
    (ok : root.pushdown chfdw_is_foreign_expr [.GROUP_AGG] = some rel) :
    root.scan.local_conds = [] ∧ ∃ tlist remote_conds local_conds,
      rel = .upper .GROUP_AGG tlist remote_conds local_conds (.scan root.scan) ∧
        root.Grouping tlist remote_conds local_conds := by
  obtain ⟨input_rel, first, last⟩ := pushdown_append [] ok
  cases first
  obtain ⟨no_local, tlist, remote_conds, local_conds, rfl, grouping⟩ := of_grouping_ok last
  exact ⟨no_local_of_scan no_local, tlist, remote_conds, local_conds, rfl, grouping⟩

/-- Window functions over the scan, alone or sorted. -/
theorem assembled_window (wf : root.WellFormed) (no_groups : .GROUP_AGG ∉ root.stages)
    {rel : StageRel V} :
    (root.pushdown chfdw_is_foreign_expr [.WINDOW] = some rel →
      root.Assembled F contain_subplans contain_upper_subplans [.WINDOW] rel) ∧
    (.WINDOW ∈ root.stages →
      root.pushdown chfdw_is_foreign_expr ([WINDOW] ++ [ORDERED]) = some rel →
      root.Assembled F contain_subplans contain_upper_subplans ([WINDOW] ++ [ORDERED]) rel) := by
  have no_keys := groupClause_of_not_mem_stages no_groups
  have refs : ∀ ref ∈ root.groupClause,
      (get_sortgroupref_tle ref root.window_target).isSome = true := by
    rw [no_keys]
    exact nofun
  have no_aggs : ∀ e ∈ root.window_target.map Prod.fst, e.contain_agg_clause = false :=
    fun e mem => wf.no_aggs no_groups e (List.mem_append_left _ mem)
  refine ⟨fun ok => ?_, fun window ok => ?_⟩
  · obtain ⟨no_local, rfl⟩ := of_pushdown_window ok
    obtain ⟨stmt, assembled⟩ := exists_stmt_upper contain_subplans contain_upper_subplans
      root.scan .WINDOW [] [] refs (List.forall_mem_nil _)
    exact assembled_of_delivers assembled ⟨rfl, by simp⟩
      (delivers_window assembled no_keys no_local no_aggs) fun e mem => .part mem
  · obtain ⟨input_rel, first, last⟩ := pushdown_append _ ok
    obtain ⟨no_local, rfl⟩ := of_pushdown_window first
    obtain ⟨rfl, found⟩ := of_ordered_ok last
    obtain ⟨stmt, assembled⟩ := exists_stmt_upper contain_subplans contain_upper_subplans
      root.scan .WINDOW [] [] refs found
    exact assembled_sorted_of_delivers assembled
      (delivers_window assembled no_keys no_local no_aggs) (wf.ordered_window window)

/-- A grouping of the scan, alone or sorted. -/
theorem assembled_grouping_iff (wf : root.WellFormed) {rel : StageRel V} :
    (root.pushdown chfdw_is_foreign_expr [.GROUP_AGG] = some rel →
      (root.Assembled F contain_subplans contain_upper_subplans [.GROUP_AGG] rel ↔
        root.Aggregates ∨ passes F (fun _ => none) root.havingQual = false)) ∧
    (.GROUP_AGG ∈ root.stages → .WINDOW ∉ root.stages →
      root.pushdown chfdw_is_foreign_expr ([GROUP_AGG] ++ [ORDERED]) = some rel →
      (root.Assembled F contain_subplans contain_upper_subplans ([GROUP_AGG] ++ [ORDERED]) rel ↔
        root.Aggregates ∨ passes F (fun _ => none) root.havingQual = false)) := by
  refine ⟨fun ok => ?_, fun groups no_window ok => ?_⟩
  · obtain ⟨no_local, tlist, remote_conds, local_conds, rfl, grouping⟩ := of_pushdown_grouping ok
    refine ⟨recognised_of_assembled wf grouping rfl (.inl rfl), fun recognised => ?_⟩
    obtain ⟨stmt, assembled⟩ := exists_stmt_upper contain_subplans contain_upper_subplans
      root.scan .GROUP_AGG remote_conds local_conds (grouping.found wf) (List.forall_mem_nil _)
    exact assembled_of_delivers assembled ⟨rfl, by simp⟩
      (delivers_grouping wf grouping assembled no_local recognised) fun e mem => .part mem
  · obtain ⟨input_rel, first, last⟩ := pushdown_append _ ok
    obtain ⟨no_local, tlist, remote_conds, local_conds, rfl, grouping⟩ :=
      of_pushdown_grouping first
    obtain ⟨rfl, found⟩ := of_ordered_ok last
    refine ⟨recognised_of_assembled wf grouping rfl (.inr rfl), fun recognised => ?_⟩
    obtain ⟨stmt, assembled⟩ := exists_stmt_upper contain_subplans contain_upper_subplans
      root.scan .GROUP_AGG remote_conds local_conds (grouping.found wf) found
    exact assembled_sorted_of_delivers assembled
      (delivers_grouping wf grouping assembled no_local recognised)
      (wf.ordered_grouping groups no_window)

/-- A statement has no place for a grouping below the window functions. -/
theorem not_assembled_window_over_grouping {rel : StageRel V} :
    (root.pushdown chfdw_is_foreign_expr [.GROUP_AGG, .WINDOW] = some rel →
      ¬ root.Assembled F contain_subplans contain_upper_subplans [.GROUP_AGG, .WINDOW] rel) ∧
    (root.pushdown chfdw_is_foreign_expr ([GROUP_AGG, WINDOW] ++ [ORDERED]) = some rel →
      ¬ root.Assembled F contain_subplans contain_upper_subplans
        ([GROUP_AGG, WINDOW] ++ [ORDERED]) rel) := by
  refine ⟨fun ok assembled => ?_, fun ok assembled => ?_⟩
  · obtain ⟨stmt, assembled, -⟩ := assembled
    obtain ⟨grouped, first, last⟩ := pushdown_append [.GROUP_AGG] ok
    obtain ⟨-, tlist, remote_conds, local_conds, rfl, -⟩ := of_pushdown_grouping first
    obtain ⟨-, rfl⟩ := of_window_ok last
    cases assembled
  · obtain ⟨stmt, assembled, -⟩ := assembled
    obtain ⟨windowed, before, sorted⟩ := pushdown_append _ ok
    obtain ⟨grouped, first, last⟩ := pushdown_append [.GROUP_AGG] before
    obtain ⟨-, tlist, remote_conds, local_conds, rfl, -⟩ := of_pushdown_grouping first
    obtain ⟨-, rfl⟩ := of_window_ok last
    obtain ⟨rfl, -⟩ := of_ordered_ok sorted
    cases assembled

end PlannerInfo

end

/-- Aggregates count rows; nothing else matters. -/
def countOnly : Functions Nat where
  func _ _ := none
  param _ := none
  aggregate _ rows := some (.other rows.card)
  window _ _ := True
  compare _ _ := .eq

/-- A scan of one table, to be completed by upper stages. -/
def scanOnly : PlannerInfo Nat where
  scan := .base 1 [] [116] [] [] []
  scan_target := []
  groupClause := []
  groupingSets := false
  hasAggs := false
  hasHavingQual := false
  hasWindowFuncs := false
  hasDistinct := false
  hasTargetSRFs := false
  sortClause := []
  havingQual := []
  grouping_target := []
  window_target := []
  ordered_target := []
  sort_pathkeys := []

/-- `SELECT c, count(*) FROM t GROUP BY c` -/
def groupedCounts : PlannerInfo Nat :=
  { scanOnly with
    groupClause := [1]
    hasAggs := true
    grouping_target := [(.node (.var ⟨1, 1⟩) [], 1), (.node (.aggref 1) [], 0)] }

/-- `SELECT count(*), rank() OVER (ORDER BY count(*)) FROM t` -/
def rankedCounts : PlannerInfo Nat :=
  { scanOnly with
    hasAggs := true
    hasWindowFuncs := true
    grouping_target := [(.node (.aggref 1) [], 0)]
    window_target := [(.node (.aggref 1) [], 0), (.node (.windowfunc 2 1) [], 0)] }

theorem wellFormed_groupedCounts : groupedCounts.WellFormed where
  grouped := by decide
  keyed := by
    intro e mem
    refine .part ?_
    revert e
    decide
  no_aggs := fun absent => absurd (by decide) absent
  no_window_early := by decide
  no_window := fun _ => nofun
  ordered_window := fun _ => nofun
  ordered_grouping := fun _ _ => nofun

theorem wellFormed_rankedCounts : rankedCounts.WellFormed where
  grouped := nofun
  keyed := by
    intro e mem
    refine .part ?_
    revert e
    decide
  no_aggs := fun absent => absurd (by decide) absent
  no_window_early := by decide
  no_window := fun _ => nofun
  ordered_window := fun _ => nofun
  ordered_grouping := fun _ _ => nofun

end PgClickhouse

import PgClickhouse.JoinQuals
import PgClickhouse.UpperPlan

/-!
# Keys and targets of semi and anti joins

ClickHouse wants an equality between the two sides in the ON clause of a semi or anti join,
and the columns of the inner side are not visible above it.  `foreign_join_ok` looks for the
shape of the equality in a list of clauses from three places, and the target, the local
conditions and the sort expressions are chosen by rules of their own.

Main facts:

* `order_final` : a final sort with LIMIT reads columns of the outer side
* `keyed_and_visible_iff` : when there is a key and all columns that are read are visible
-/

namespace PgClickhouse

/-- The conditions of the ON clause. -/
def RelOptInfo.joinclauses {ε : Type} : RelOptInfo ε → List ε
  | .base .. => []
  | .join _ _ _ _ _ joinclauses .. => joinclauses

variable {V : Type} [DecidableEq V]

/-- A semi or anti join that is pushed down, and the sort above it.  The planner hands over
conditions on the relations they are evaluated on; `target` is what the final sort and LIMIT
find computed. -/
structure SemiJoin (V : Type) [DecidableEq V] where
  shippable : Expr V → Bool
  relation_index : Nat
  reltarget : List (Expr V)
  placeholder : Bool
  jointype : JoinType
  semi : jointype = .SEMI ∨ jointype = .ANTI
  outerrel : RelOptInfo (Expr V)
  innerrel : RelOptInfo (Expr V)
  apart : ∀ i ∈ outerrel.relids, i ∉ innerrel.relids
  outer_conds : On outerrel.relids outerrel.remote_conds
  inner_conds : On innerrel.relids innerrel.remote_conds
  restrictlist : List (RestrictInfo V)
  clauses : ∀ rinfo ∈ restrictlist, ∀ i ∈ rinfo.clause.relids,
    i ∈ outerrel.relids ++ innerrel.relids
  computed : On (outerrel.relids ++ innerrel.relids) reltarget
  rel : RelOptInfo (Expr V)
  accepted : foreign_join_ok shippable relation_index reltarget placeholder jointype outerrel
    innerrel restrictlist = some rel
  root : PlannerInfo V
  chfdw_is_foreign_expr : StageRel V → Bool → UpperExpr V → Bool
  target : PathTarget V
  target_computed : ∀ entry ∈ target, ∀ i ∈ entry.1.relids, ∃ e ∈ reltarget, i ∈ e.relids

namespace SemiJoin

variable (q : SemiJoin V)

/-- The equality of a column of each side. -/
def Crosses (e : Expr V) : Prop :=
  ∃ a b, e = .eq a b ∧
    ((a.varno ∈ q.outerrel.relids ∧ b.varno ∈ q.innerrel.relids) ∨
      (a.varno ∈ q.innerrel.relids ∧ b.varno ∈ q.outerrel.relids))

/-- What `foreign_join_ok` puts into the ON clause. -/
def pulled : List (Expr V) :=
  (pull_conds q.jointype (ownClauses q.jointype q.restrictlist)
    ((otherClauses q.jointype q.restrictlist).filter q.shippable) q.outerrel.remote_conds
    q.innerrel.remote_conds).2

/-- `chfdw_build_tlist_to_deparse` fetches the columns of these expressions. -/
def fetched : List (Expr V) :=
  q.rel.reltarget ++ q.rel.local_conds

/-- The sort expressions of the statement, if the sort is done remotely: those of the path
with a sort, or with LIMIT those of the final path. -/
def sortExprs (has_final_sort : Bool) : List (UpperExpr V) :=
  if q.root.qp_is_pushdown_safe q.chfdw_is_foreign_expr q.rel then
    q.root.sort_pathkeys.filterMap fun pathkey =>
      if has_final_sort then
        q.root.chfdw_find_em_expr_for_input_target pathkey.ec_members q.target
      else PlannerInfo.scanSortExpr q.rel pathkey.ec_members
  else []

/-- The ON clause has an equality between the sides. -/
def Keyed : Prop :=
  ∃ e ∈ q.rel.joinclauses, q.Crosses e

/-- The statement selects columns of the outer side, and sorts by them. -/
def Visible : Prop :=
  (∀ e ∈ q.fetched, ∀ i ∈ e.relids, i ∈ q.outerrel.relids) ∧
    ∀ has_final_sort, ∀ e ∈ q.sortExprs has_final_sort, ∀ i ∈ e.relids, i ∈ q.outerrel.relids

/-- A clause of the join itself is a key that can be shipped, the PlaceHolderVars of the target
and the clauses that are checked locally read the outer side alone, and a remote sort has an
expression of the outer side. -/
structure Holds : Prop where
  key : ∃ rinfo ∈ q.restrictlist, q.shippable rinfo.clause = true ∧ q.Crosses rinfo.clause
  placeholders : ∀ e ∈ q.reltarget, ∀ i ∈ e.placed, i ∈ q.outerrel.relids
  local_clauses : ∀ e ∈ otherClauses q.jointype q.restrictlist, q.shippable e = false →
    ∀ i ∈ e.relids, i ∈ q.outerrel.relids
  sort : q.root.qp_is_pushdown_safe q.chfdw_is_foreign_expr q.rel = true →
    ∀ pathkey ∈ q.root.sort_pathkeys, ∃ em ∈ pathkey.ec_members,
      em.relids ≠ [] ∧ ∀ i ∈ em.relids, i ∈ q.outerrel.relids

/-! ## The accepted join -/

theorem of_accepted : q.rel = .join q.relation_index q.reltarget q.rel.remote_conds
    ((otherClauses q.jointype q.restrictlist).filter fun e => !q.shippable e) q.jointype
    q.pulled false false q.outerrel q.innerrel := by
  obtain ⟨-, rel⟩ := of_foreign_join_ok q.accepted
  have not_full : (q.jointype == .FULL) = false := by
    rcases q.semi with semi | anti
    · rw [semi]
      rfl
    · rw [anti]
      rfl
  rw [not_full, Bool.false_and, Bool.false_and] at rel
  have remote := congrArg RelOptInfo.remote_conds rel
  rw [RelOptInfo.remote_conds_join] at remote
  rw [remote]
  exact rel

/-- The clauses of an anti join itself are shipped. -/
theorem own_shippable : ∀ e ∈ ownClauses q.jointype q.restrictlist, q.shippable e = true := by
  have ok := q.accepted
  unfold foreign_join_ok at ok
  split at ok
  · cases ok
  split at ok
  · cases ok
  split at ok
  · cases ok
  split at ok
  · cases ok
  next all => simpa using all

theorem mem_pulled {e : Expr V} : e ∈ q.pulled ↔
    e ∈ ownClauses q.jointype q.restrictlist ∨ e ∈ q.innerrel.remote_conds ∨
      (e ∈ (otherClauses q.jointype q.restrictlist).filter q.shippable ++
        q.outerrel.remote_conds ∧ is_simple_join_clause e = true) := by
  have pulled : q.pulled = ownClauses q.jointype q.restrictlist ++ q.innerrel.remote_conds ++
      ((otherClauses q.jointype q.restrictlist).filter q.shippable ++
        q.outerrel.remote_conds).filter is_simple_join_clause := by
    rw [SemiJoin.pulled]
    rcases q.semi with semi | anti
    · rw [semi]
      rfl
    · rw [anti]
      rfl
  rw [pulled, List.mem_append, List.mem_append, List.mem_filter, or_assoc]

theorem mem_clauses {e : Expr V} : (∃ rinfo ∈ q.restrictlist, rinfo.clause = e) ↔
    e ∈ ownClauses q.jointype q.restrictlist ∨ e ∈ otherClauses q.jointype q.restrictlist := by
  simp only [ownClauses, otherClauses, List.mem_map, List.mem_filter]
  constructor
  · rintro ⟨rinfo, listed, rfl⟩
    cases own : IS_OUTER_JOIN q.jointype && !rinfo.is_pushed_down with
    | true => exact .inl ⟨rinfo, ⟨listed, own⟩, rfl⟩
    | false => exact .inr ⟨rinfo, ⟨listed, by rw [own]; rfl⟩, rfl⟩
  · rintro (⟨rinfo, ⟨listed, -⟩, rfl⟩ | ⟨rinfo, ⟨listed, -⟩, rfl⟩)
    · exact ⟨rinfo, listed, rfl⟩
    · exact ⟨rinfo, listed, rfl⟩

/-! ## The key -/

/-- Conditions of one side relate no columns of different sides. -/
theorem not_crosses_of_outer {e : Expr V} (member : e ∈ q.outerrel.remote_conds) :
    ¬ q.Crosses e := by
  rintro ⟨a, b, rfl, ⟨-, inner⟩ | ⟨inner, -⟩⟩
  · exact q.apart _ (q.outer_conds _ member b.varno (by simp)) inner
  · exact q.apart _ (q.outer_conds _ member a.varno (by simp)) inner

theorem not_crosses_of_inner {e : Expr V} (member : e ∈ q.innerrel.remote_conds) :
    ¬ q.Crosses e := by
  rintro ⟨a, b, rfl, ⟨outer, -⟩ | ⟨-, outer⟩⟩
  · exact q.apart _ outer (q.inner_conds _ member a.varno (by simp))
  · exact q.apart _ outer (q.inner_conds _ member b.varno (by simp))

theorem keyed_iff : q.Keyed ↔
    ∃ rinfo ∈ q.restrictlist, q.shippable rinfo.clause = true ∧ q.Crosses rinfo.clause := by
  have on : q.rel.joinclauses = q.pulled := by
    rw [q.of_accepted]
    rfl
  rw [Keyed, on]
  constructor
  · rintro ⟨e, member, crosses⟩
    rcases q.mem_pulled.mp member with own | inner | ⟨other, -⟩
    · obtain ⟨rinfo, listed, rfl⟩ := q.mem_clauses.mpr (.inl own)
      exact ⟨rinfo, listed, q.own_shippable _ own, crosses⟩
    · exact absurd crosses (q.not_crosses_of_inner inner)
    · rcases List.mem_append.mp other with other | outer
      · obtain ⟨other, shipped⟩ := List.mem_filter.mp other
        obtain ⟨rinfo, listed, rfl⟩ := q.mem_clauses.mpr (.inr other)
        exact ⟨rinfo, listed, shipped, crosses⟩
      · exact absurd crosses (q.not_crosses_of_outer outer)
  · rintro ⟨rinfo, listed, shipped, crosses⟩
    refine ⟨rinfo.clause, q.mem_pulled.mpr ?_, crosses⟩
    rcases q.mem_clauses.mp ⟨rinfo, listed, rfl⟩ with own | other
    · exact .inl own
    · refine .inr (.inr ⟨List.mem_append_left _ (List.mem_filter.mpr ⟨other, shipped⟩), ?_⟩)
      obtain ⟨a, b, equality, -⟩ := crosses
      rw [equality]
      rfl

/-! ## The columns -/

/-- The target reads the outer side alone, its PlaceHolderVars apart. -/
theorem target_visible {e : Expr V} (member : e ∈ q.reltarget) :
    ∀ i ∈ e.vars, i ∈ q.outerrel.relids := by
  intro i reads
  have ok := (of_foreign_join_ok q.accepted).1.target q.semi
  rw [semijoin_target_ok, List.all_eq_true] at ok
  have each := ok e member
  rw [List.all_eq_true] at each
  have visible := each i reads
  rcases List.mem_append.mp (q.computed e member i (List.mem_append_left _ reads)) with
    outer | inner
  · exact outer
  · by_contra hidden
    simp [inner, hidden] at visible

/-- A final sort with LIMIT reads columns of the target. -/
theorem order_final (placeholders : ∀ e ∈ q.reltarget, ∀ i ∈ e.placed, i ∈ q.outerrel.relids)
    {e : UpperExpr V} (member : e ∈ q.sortExprs true) :
    ∀ i ∈ e.relids, i ∈ q.outerrel.relids := by
  rw [sortExprs] at member
  split at member
  · obtain ⟨pathkey, -, found⟩ := List.mem_filterMap.mp member
    rw [if_pos rfl, PlannerInfo.chfdw_find_em_expr_for_input_target] at found
    obtain ⟨entry, chosen, rfl⟩ := Option.map_eq_some_iff.mp found
    intro i reads
    obtain ⟨target, listed, reads⟩ :=
      q.target_computed entry (List.mem_of_find?_eq_some chosen) i reads
    rcases List.mem_append.mp reads with bare | within
    · exact q.target_visible listed i bare
    · exact placeholders target listed i within
  · cases member

theorem fetched_visible_iff : (∀ e ∈ q.fetched, ∀ i ∈ e.relids, i ∈ q.outerrel.relids) ↔
    (∀ e ∈ q.reltarget, ∀ i ∈ e.placed, i ∈ q.outerrel.relids) ∧
      ∀ e ∈ otherClauses q.jointype q.restrictlist, q.shippable e = false →
        ∀ i ∈ e.relids, i ∈ q.outerrel.relids := by
  have fetched : q.fetched = q.reltarget ++
      (otherClauses q.jointype q.restrictlist).filter fun e => !q.shippable e := by
    rw [SemiJoin.fetched, q.of_accepted]
    rfl
  rw [fetched]
  constructor
  · refine fun visible => ⟨fun e member i within => ?_, fun e member kept => ?_⟩
    · exact visible e (List.mem_append_left _ member) i (List.mem_append_right _ within)
    · refine visible e (List.mem_append_right _ (List.mem_filter.mpr ⟨member, ?_⟩))
      rw [kept]
      rfl
  · rintro ⟨placeholders, visible⟩ e member
    rcases List.mem_append.mp member with target | kept
    · intro i reads
      rcases List.mem_append.mp reads with bare | within
      · exact q.target_visible target i bare
      · exact placeholders e target i within
    · obtain ⟨other, kept⟩ := List.mem_filter.mp kept
      exact visible e other (by simpa using kept)

/-- The sort expression of a semi or anti join. -/
theorem scanSortExpr_eq (ec_members : List (UpperExpr V)) :
    PlannerInfo.scanSortExpr q.rel ec_members =
      (PlannerInfo.chfdw_find_em_expr_for_rel ec_members q.outerrel).or
        (PlannerInfo.chfdw_find_em_expr_for_rel ec_members q.rel) := by
  rw [q.of_accepted]
  rcases q.semi with semi | anti
  · rw [semi]
    rfl
  · rw [anti]
    rfl

omit [DecidableEq V] in
/-- A member of a class whose columns come from a relation. -/
theorem find_em_spec {ec_members : List (UpperExpr V)} {rel : RelOptInfo (Expr V)}
    {em : UpperExpr V} (found : PlannerInfo.chfdw_find_em_expr_for_rel ec_members rel = some em) :
    em ∈ ec_members ∧ em.relids ≠ [] ∧ ∀ i ∈ em.relids, i ∈ rel.relids := by
  rw [PlannerInfo.chfdw_find_em_expr_for_rel] at found
  have test := List.find?_some found
  rw [Bool.and_eq_true, List.all_eq_true] at test
  refine ⟨List.mem_of_find?_eq_some found, by simpa using test.1, fun i reads => ?_⟩
  simpa using test.2 i reads

omit [DecidableEq V] in
theorem find_em_isSome {ec_members : List (UpperExpr V)} {rel : RelOptInfo (Expr V)}
    {em : UpperExpr V} (member : em ∈ ec_members) (some_columns : em.relids ≠ [])
    (inside : ∀ i ∈ em.relids, i ∈ rel.relids) :
    ∃ found, PlannerInfo.chfdw_find_em_expr_for_rel ec_members rel = some found := by
  rw [← Option.isSome_iff_exists, PlannerInfo.chfdw_find_em_expr_for_rel, List.find?_isSome]
  refine ⟨em, member, ?_⟩
  rw [Bool.and_eq_true, List.all_eq_true]
  exact ⟨by simpa using some_columns, fun i reads => by simpa using inside i reads⟩

theorem order_scan_iff : (∀ e ∈ q.sortExprs false, ∀ i ∈ e.relids, i ∈ q.outerrel.relids) ↔
    (q.root.qp_is_pushdown_safe q.chfdw_is_foreign_expr q.rel = true →
      ∀ pathkey ∈ q.root.sort_pathkeys, ∃ em ∈ pathkey.ec_members,
        em.relids ≠ [] ∧ ∀ i ∈ em.relids, i ∈ q.outerrel.relids) := by
  by_cases safe : q.root.qp_is_pushdown_safe q.chfdw_is_foreign_expr q.rel = true
  · have found : ∀ pathkey ∈ q.root.sort_pathkeys, ∃ em,
        PlannerInfo.chfdw_find_em_expr_for_rel pathkey.ec_members q.rel = some em := by
      intro pathkey listed
      rw [PlannerInfo.qp_is_pushdown_safe, Bool.and_eq_true, List.all_eq_true] at safe
      have each := safe.2 pathkey listed
      rw [Bool.and_eq_true, Option.any_eq_true] at each
      obtain ⟨em, found, -⟩ := each.2
      exact ⟨em, found⟩
    simp only [sortExprs, if_pos safe, Bool.false_eq_true, if_false, List.mem_filterMap,
      q.scanSortExpr_eq]
    constructor
    · intro visible _ pathkey listed
      cases outer : PlannerInfo.chfdw_find_em_expr_for_rel pathkey.ec_members q.outerrel with
      | some em => exact ⟨em, find_em_spec outer⟩
      | none =>
          obtain ⟨em, found⟩ := found pathkey listed
          have sorted := visible em ⟨pathkey, listed, by rw [outer, found]; rfl⟩
          obtain ⟨member, some_columns, -⟩ := find_em_spec found
          exact ⟨em, member, some_columns, sorted⟩
    · rintro each e ⟨pathkey, listed, chosen⟩
      obtain ⟨em, member, some_columns, inside⟩ := each safe pathkey listed
      obtain ⟨outer, found⟩ := find_em_isSome member some_columns inside
      rw [found, Option.some_or] at chosen
      cases chosen
      exact (find_em_spec found).2.2
  · simp [sortExprs, safe]

/-! ## Results -/

/-- There is a key, and all columns that are read are visible, exactly when `Holds`. -/
theorem keyed_and_visible_iff : q.Keyed ∧ q.Visible ↔ q.Holds := by
  constructor
  · rintro ⟨keyed, fetched, order⟩
    obtain ⟨placeholders, local_clauses⟩ := q.fetched_visible_iff.mp fetched
    exact ⟨q.keyed_iff.mp keyed, placeholders, local_clauses, q.order_scan_iff.mp (order false)⟩
  · rintro ⟨key, placeholders, local_clauses, sort⟩
    refine ⟨q.keyed_iff.mpr key, q.fetched_visible_iff.mpr ⟨placeholders, local_clauses⟩,
      fun final => ?_⟩
    cases final with
    | false => exact q.order_scan_iff.mpr sort
    | true => exact fun e member => q.order_final placeholders member

/-- A table of range table entry `relid`. -/
def plainTable (relid : Nat) (remote_conds : List (Expr Nat)) : RelOptInfo (Expr Nat) :=
  .base relid (ascii "db") (ascii "t") [.var ⟨relid, 1⟩] remote_conds []

/-- `EXISTS (SELECT 1 FROM i WHERE i.a = i.b)`, of which nothing refers to the outer table. -/
def uncorrelated : SemiJoin Nat where
  shippable _ := true
  relation_index := 3
  reltarget := [.var ⟨1, 1⟩]
  placeholder := false
  jointype := .SEMI
  semi := .inl rfl
  outerrel := plainTable 1 []
  innerrel := plainTable 2 [.eq ⟨2, 1⟩ ⟨2, 2⟩]
  apart := by simp [plainTable, RelOptInfo.relids]
  outer_conds := by simp [On, plainTable, RelOptInfo.remote_conds]
  inner_conds := by simp [On, plainTable, RelOptInfo.remote_conds, RelOptInfo.relids]
  restrictlist := []
  clauses := by simp
  computed := by simp [On, plainTable, RelOptInfo.relids]
  rel := .join 3 [.var ⟨1, 1⟩] [] [] .SEMI [.eq ⟨2, 1⟩ ⟨2, 2⟩] false false (plainTable 1 [])
    (plainTable 2 [.eq ⟨2, 1⟩ ⟨2, 2⟩])
  accepted := rfl
  root := {
    scan := plainTable 1 []
    scan_target := []
    groupClause := []
    groupingSets := false
    hasAggs := false
    hasHavingQual := false
    hasWindowFuncs := false
    hasDistinct := false
    hasTargetSRFs := false
    sortClause := []
    havingQual := []
    grouping_target := []
    window_target := []
    ordered_target := []
    sort_pathkeys := [] }
  chfdw_is_foreign_expr _ _ _ := true
  target := []
  target_computed := by simp

/-- The equality of two inner columns stands in for the key. -/
theorem not_keyed_uncorrelated :
    ¬ uncorrelated.Keyed ∧ uncorrelated.rel.joinclauses = [.eq ⟨2, 1⟩ ⟨2, 2⟩] := by
  refine ⟨fun keyed => ?_, rfl⟩
  obtain ⟨rinfo, listed, -⟩ := uncorrelated.keyed_iff.mp keyed
  cases listed

end SemiJoin

end PgClickhouse

import PgClickhouse.Occurrences
import PgClickhouse.AliasScope

/-!
# Columns of subqueries

An input of a FULL join that has conditions is deparsed as a subquery.  A clause above it
names a column of it by its number in the target of that input, which
`get_relation_column_alias_ids` looks up with `equal`.  Since PostgreSQL 16 a Var carries the
outer joins that may have nulled it, so the same column is another Var above the join than
in the target below it, and the lookup raises.

Main facts:

* `is_subquery_var_of_wraps` : a column of a wrapped input is looked up in its target
* `is_subquery_var_above` : above the join the lookup raises, with the marks of PostgreSQL 16
* `columnsFound_iff` : every lookup of a statement finds its column exactly if the marks of
  the references are those of the targets
-/

namespace PgClickhouse.Emit

/-! ## Wrapped inputs -/

/-- `wrapped` is deparsed as a subquery in the FROM clause of a SELECT over the relation. -/
inductive Wraps : RelOptInfo Expr → RelOptInfo Expr → Prop
  | outer {i t r l jointype joinclauses make_innerrel_subquery outerrel innerrel} :
    Wraps (.join i t r l jointype joinclauses true make_innerrel_subquery outerrel innerrel)
      outerrel
  | inner {i t r l jointype joinclauses make_outerrel_subquery outerrel innerrel} :
    Wraps (.join i t r l jointype joinclauses make_outerrel_subquery true outerrel innerrel)
      innerrel
  | below_outer {i t r l jointype joinclauses make_innerrel_subquery outerrel innerrel wrapped} :
    Wraps outerrel wrapped →
    Wraps (.join i t r l jointype joinclauses false make_innerrel_subquery outerrel innerrel)
      wrapped
  | below_inner {i t r l jointype joinclauses make_outerrel_subquery outerrel innerrel wrapped} :
    Wraps innerrel wrapped →
    Wraps (.join i t r l jointype joinclauses make_outerrel_subquery false outerrel innerrel)
      wrapped

theorem Wraps.relids_subset {rel wrapped : RelOptInfo Expr} (wraps : Wraps rel wrapped) :
    wrapped.relids ⊆ rel.relids := by
  induction wraps with
  | outer => exact List.subset_append_left _ _
  | inner => exact List.subset_append_right _ _
  | below_outer _ ih => exact fun _ member => List.mem_append_left _ (ih member)
  | below_inner _ ih => exact fun _ member => List.mem_append_right _ (ih member)

theorem Wraps.relids_subset_lower {rel wrapped : RelOptInfo Expr} (wraps : Wraps rel wrapped) :
    wrapped.relids ⊆ lower_subquery_rels rel := by
  induction wraps with
  | outer => exact fun _ member => List.mem_append_left _ member
  | inner => exact fun _ member => List.mem_append_right _ member
  | below_outer _ ih => exact fun _ member => List.mem_append_left _ (ih member)
  | below_inner _ ih => exact fun _ member => List.mem_append_right _ (ih member)

/-- The lookup goes down to the input the column comes from. -/
theorem is_subquery_var_of_wraps {node : Var} {rel wrapped : RelOptInfo Expr}
    (wraps : Wraps rel wrapped) (distinct : rel.relids.Nodup)
    (column : node.varno ∈ wrapped.relids) :
    is_subquery_var node rel = some (get_relation_column_alias_ids node wrapped) := by
  have lower := wraps.relids_subset_lower column
  induction wraps with
  | outer =>
      unfold is_subquery_var
      rw [if_pos lower, if_pos column, if_pos rfl]
  | inner =>
      have other := List.disjoint_right.mp (List.disjoint_of_nodup_append distinct) column
      unfold is_subquery_var
      rw [if_pos lower, if_neg other, if_pos rfl]
  | below_outer wraps ih =>
      unfold is_subquery_var
      rw [if_pos lower, if_pos (wraps.relids_subset column), if_neg Bool.false_ne_true]
      exact ih (List.nodup_append.mp distinct).1 column (wraps.relids_subset_lower column)
  | below_inner wraps ih =>
      have other := List.disjoint_right.mp (List.disjoint_of_nodup_append distinct)
        (wraps.relids_subset column)
      unfold is_subquery_var
      rw [if_pos lower, if_neg other, if_neg Bool.false_ne_true]
      exact ih (List.nodup_append.mp distinct).2.1 column (wraps.relids_subset_lower column)

/-! ## The lookup in a target -/

theorem isVar_iff {node : Var} {e : Expr} : isVar node e ↔ e = .Var node := by
  cases e <;> simp [isVar]

theorem alias_ids_of_mem {node : Var} {rel : RelOptInfo Expr}
    (member : Expr.Var node ∈ rel.reltarget) :
    ∃ i, rel.reltarget[i]? = some (.Var node) ∧
      get_relation_column_alias_ids node rel = some (rel.relation_index, i + 1) := by
  cases found : rel.reltarget.findIdx? (isVar node) with
  | none =>
      have other := List.findIdx?_eq_none_iff.mp found _ member
      rw [isVar_iff.mpr rfl] at other
      cases other
  | some i =>
      obtain ⟨below, matched, -⟩ := List.findIdx?_eq_some_iff_getElem.mp found
      refine ⟨i, ?_, ?_⟩
      · rw [List.getElem?_eq_getElem below, isVar_iff.mp matched]
      · rw [get_relation_column_alias_ids, found]
        rfl

theorem alias_ids_eq_none_iff {node : Var} {rel : RelOptInfo Expr} :
    get_relation_column_alias_ids node rel = none ↔ Expr.Var node ∉ rel.reltarget := by
  constructor
  · intro raises member
    obtain ⟨i, -, ids⟩ := alias_ids_of_mem member
    rw [raises] at ids
    cases ids
  · intro absent
    rw [get_relation_column_alias_ids, Option.map_eq_none_iff, List.findIdx?_eq_none_iff]
    intro e member
    refine Bool.eq_false_iff.mpr fun matched => absent ?_
    rw [← isVar_iff.mp matched]
    exact member

/-- The same column, perhaps with another nulling set. -/
def Var.SameColumn (a b : Var) : Prop :=
  { a with varnullingrels := b.varnullingrels } = b

instance (a b : Var) : Decidable (a.SameColumn b) := by
  unfold Var.SameColumn
  infer_instance

theorem Var.SameColumn.eq {a b : Var} (same : a.SameColumn b)
    (marks : a.varnullingrels = b.varnullingrels) : a = b := by
  calc a = { a with varnullingrels := a.varnullingrels } := rfl
    _ = { a with varnullingrels := b.varnullingrels } :=
        congrArg (fun marks => { a with varnullingrels := marks }) marks
    _ = b := same

/-! ## Nulling sets -/

/-- Only FULL joins have subqueries for inputs, as `foreign_join_ok` leaves it. -/
def SubqueriesUnderFull : RelOptInfo Expr → Prop
  | .base .. => True
  | .join _ _ _ _ jointype _ make_outerrel_subquery make_innerrel_subquery outerrel innerrel =>
      (make_outerrel_subquery ∨ make_innerrel_subquery → jointype = .FULL) ∧
        SubqueriesUnderFull outerrel ∧ SubqueriesUnderFull innerrel

/-- The outer joins that may null a column of `varno` in the rows of a relation.  A join is
known by `relation_index`; no column of the inner side of a semi or anti join is referred to
above it. -/
def nullingrels (varno : Nat) : RelOptInfo Expr → List Nat
  | .base .. => []
  | .join i _ _ _ jointype _ _ _ outerrel innerrel =>
      if varno ∈ outerrel.relids then
        (if jointype = .RIGHT ∨ jointype = .FULL then [i] else []) ++ nullingrels varno outerrel
      else
        (if jointype = .LEFT ∨ jointype = .FULL then [i] else []) ++ nullingrels varno innerrel

/-- A Var of the rows of a relation, with the marks of PostgreSQL 16. -/
def Var.MarkedBy (node : Var) (rel : RelOptInfo Expr) : Prop :=
  ∀ join, join ∈ node.varnullingrels ↔ join ∈ nullingrels node.varno rel

theorem nullingrels_subset (varno : Nat) (rel : RelOptInfo Expr) :
    nullingrels varno rel ⊆ relationIndexes rel := by
  induction rel with
  | base => exact List.nil_subset _
  | join i t r l jointype joinclauses make_outer make_inner outerrel innerrel outer inner =>
      intro join member
      rw [nullingrels] at member
      rw [relationIndexes, List.mem_cons, List.mem_append]
      split at member <;> rcases List.mem_append.mp member with own | deeper
      · split at own
        · exact Or.inl (List.mem_singleton.mp own)
        · cases own
      · exact Or.inr (Or.inl (outer deeper))
      · split at own
        · exact Or.inl (List.mem_singleton.mp own)
        · cases own
      · exact Or.inr (Or.inr (inner deeper))

theorem relids_sublist (rel : RelOptInfo Expr) :
    rel.relids.Sublist (relationIndexes rel) := by
  induction rel with
  | base => exact List.Sublist.refl _
  | join _ _ _ _ _ _ _ _ _ _ outer inner => exact (outer.append inner).cons _

/-- The join around a wrapped input nulls its columns, and is no part of the input. -/
theorem exists_nulling {rel wrapped : RelOptInfo Expr} (wraps : Wraps rel wrapped)
    (full : SubqueriesUnderFull rel) (distinct : (relationIndexes rel).Nodup) {varno : Nat}
    (column : varno ∈ wrapped.relids) :
    ∃ join ∈ nullingrels varno rel, join ∉ relationIndexes wrapped := by
  induction wraps with
  | @outer i =>
      rw [relationIndexes, List.nodup_cons] at distinct
      refine ⟨i, ?_, fun member => distinct.1 (List.mem_append_left _ member)⟩
      rw [nullingrels, if_pos column, if_pos (Or.inr (full.1 (Or.inl rfl)))]
      exact List.mem_cons_self
  | @inner i =>
      rw [relationIndexes, List.nodup_cons] at distinct
      have other := List.disjoint_right.mp (List.disjoint_of_nodup_append
        (distinct.2.sublist ((relids_sublist _).append (relids_sublist _)))) column
      refine ⟨i, ?_, fun member => distinct.1 (List.mem_append_right _ member)⟩
      rw [nullingrels, if_neg other, if_pos (Or.inr (full.1 (Or.inr rfl)))]
      exact List.mem_cons_self
  | below_outer wraps ih =>
      rw [relationIndexes, List.nodup_cons] at distinct
      obtain ⟨join, member, outside⟩ := ih full.2.1 (List.nodup_append.mp distinct.2).1 column
      refine ⟨join, ?_, outside⟩
      rw [nullingrels, if_pos (wraps.relids_subset column)]
      exact List.mem_append_right _ member
  | below_inner wraps ih =>
      rw [relationIndexes, List.nodup_cons] at distinct
      have other := List.disjoint_right.mp (List.disjoint_of_nodup_append
        (distinct.2.sublist ((relids_sublist _).append (relids_sublist _))))
        (wraps.relids_subset column)
      obtain ⟨join, member, outside⟩ := ih full.2.2 (List.nodup_append.mp distinct.2).2.1 column
      refine ⟨join, ?_, outside⟩
      rw [nullingrels, if_neg other]
      exact List.mem_append_right _ member

/-- Where both the reference and the target carry the marks of PostgreSQL 16, a reference in
the select list or the conditions of a SELECT never finds its column. -/
theorem is_subquery_var_above {node : Var} {rel wrapped : RelOptInfo Expr}
    (wraps : Wraps rel wrapped) (full : SubqueriesUnderFull rel)
    (distinct : (relationIndexes rel).Nodup) (column : node.varno ∈ wrapped.relids)
    (reference : node.MarkedBy rel)
    (target : ∀ var, Expr.Var var ∈ wrapped.reltarget → var.MarkedBy wrapped) :
    is_subquery_var node rel = some none := by
  rw [is_subquery_var_of_wraps wraps (distinct.sublist (relids_sublist rel)) column,
    Option.some_inj, alias_ids_eq_none_iff]
  intro member
  obtain ⟨join, nulls, outside⟩ := exists_nulling wraps full distinct column
  have marked := (target node member join).mp ((reference join).mpr nulls)
  exact outside (nullingrels_subset _ _ marked)

/-! ## Statements -/

/-- A clause of the SELECT over `scanrel`, or the ON clause of the join `scanrel`, refers to
a column of `wrapped`. -/
structure SelectStmt.Refers (stmt : SelectStmt) (scanrel wrapped : RelOptInfo Expr)
    (node : Var) : Prop where
  wraps : Wraps scanrel wrapped
  column : node.varno ∈ wrapped.relids
  clause : ∃ printout ∈ stmt.printouts, printout.scanrel = scanrel ∧
    ∃ o ∈ printout.printed, o.leaf = .Var node ∧ o.subplan = none

/-- What the planner promises of a statement: relations have different numbers, and the
target of an input has each column once that is referred to above. -/
structure SelectStmt.Exports (stmt : SelectStmt) : Prop where
  relations : (relationIndexes stmt.scanrel).Nodup
  columns : ∀ scanrel wrapped node, stmt.Refers scanrel wrapped node →
    ∃! var : Var, Expr.Var var ∈ wrapped.reltarget ∧ var.SameColumn node

/-- Every reference is printed as the number of its subquery and the position of its column
in the target of that subquery. -/
def SelectStmt.ColumnsFound (stmt : SelectStmt) : Prop :=
  ∀ scanrel wrapped node, stmt.Refers scanrel wrapped node →
    ∃ i var, wrapped.reltarget[i]? = some (.Var var) ∧ var.SameColumn node ∧
      is_subquery_var node scanrel = some (some (wrapped.relation_index, i + 1))

/-- A reference carries the marks its column has in the target of the subquery. -/
def SelectStmt.MarksAgree (stmt : SelectStmt) : Prop :=
  ∀ scanrel wrapped node, stmt.Refers scanrel wrapped node →
    ∀ var, Expr.Var var ∈ wrapped.reltarget → var.SameColumn node →
      var.varnullingrels = node.varnullingrels

theorem sublist_selectPrintouts {printouts : Bool → Path → List Printout}
    {rel : RelOptInfo Expr} {has_inlined_subplan : Bool} {printed : List Occurrence} {path : Path}
    (below : ∀ use_alias path, ∀ printout ∈ printouts use_alias path,
      (relationIndexes printout.scanrel).Sublist (relationIndexes rel)) :
    ∀ printout ∈ selectPrintouts printouts rel has_inlined_subplan printed path,
      (relationIndexes printout.scanrel).Sublist (relationIndexes rel) := by
  intro printout member
  rcases List.mem_cons.mp member with rfl | member
  · exact List.Sublist.refl _
  · exact below _ _ printout member

theorem sublist_rangeTblRefPrintouts {printouts : Bool → Path → List Printout}
    {rel : RelOptInfo Expr} {make_subquery : Bool} {path : Path}
    (below : ∀ use_alias path, ∀ printout ∈ printouts use_alias path,
      (relationIndexes printout.scanrel).Sublist (relationIndexes rel)) :
    ∀ printout ∈ rangeTblRefPrintouts printouts rel make_subquery path,
      (relationIndexes printout.scanrel).Sublist (relationIndexes rel) := by
  intro printout member
  unfold rangeTblRefPrintouts at member
  split at member
  · rcases List.mem_cons.mp member with rfl | member
    · exact List.Sublist.refl _
    · exact sublist_selectPrintouts below printout member
  · exact below _ _ printout member

theorem sublist_fromPrintouts (rel : RelOptInfo Expr) :
    ∀ use_alias path, ∀ printout ∈ fromPrintouts rel use_alias path,
      (relationIndexes printout.scanrel).Sublist (relationIndexes rel) := by
  induction rel with
  | base =>
      intro use_alias path printout member
      rw [List.mem_singleton.mp member]
      exact List.Sublist.refl _
  | join i t r l jointype joinclauses make_outer make_inner outerrel innerrel outer inner =>
      intro use_alias path printout member
      rcases List.mem_cons.mp member with rfl | member
      · exact List.Sublist.refl _
      rcases List.mem_append.mp member with member | member
      · exact ((sublist_rangeTblRefPrintouts outer printout member).trans
          (List.sublist_append_left _ _)).cons _
      · exact ((sublist_rangeTblRefPrintouts inner printout member).trans
          (List.sublist_append_right _ _)).cons _

theorem SelectStmt.Refers.lookup {stmt : SelectStmt} {scanrel wrapped : RelOptInfo Expr}
    {node : Var} (refers : stmt.Refers scanrel wrapped node) (exports : stmt.Exports) :
    is_subquery_var node scanrel = some (get_relation_column_alias_ids node wrapped) := by
  obtain ⟨printout, listed, rfl, -⟩ := refers.clause
  have sublist := sublist_selectPrintouts (sublist_fromPrintouts stmt.scanrel) printout listed
  exact is_subquery_var_of_wraps refers.wraps
    ((exports.relations.sublist sublist).sublist (relids_sublist _)) refers.column

/-- Every lookup of a statement finds its column exactly if the marks agree. -/
theorem columnsFound_iff (stmt : SelectStmt) (exports : stmt.Exports) :
    stmt.ColumnsFound ↔ stmt.MarksAgree := by
  constructor
  · intro found scanrel wrapped node refers var member same
    obtain ⟨i, -, -, -, ids⟩ := found scanrel wrapped node refers
    have target : Expr.Var node ∈ wrapped.reltarget := by
      by_contra absent
      rw [refers.lookup exports, alias_ids_eq_none_iff.mpr absent] at ids
      cases ids
    have unique := (exports.columns scanrel wrapped node refers).unique ⟨member, same⟩
      ⟨target, rfl⟩
    rw [unique]
  · intro agree scanrel wrapped node refers
    obtain ⟨var, ⟨member, same⟩, -⟩ := exports.columns scanrel wrapped node refers
    have equal := same.eq (agree scanrel wrapped node refers var member same)
    rw [equal] at member
    obtain ⟨i, entry, ids⟩ := alias_ids_of_mem member
    refine ⟨i, node, entry, rfl, ?_⟩
    rw [refers.lookup exports, ids]

section

/-- The column `id` of `a` (1) or `b` (2). -/
def idVar (varno : Nat) (varnullingrels : List Nat) : Var :=
  ⟨varno, 1, 0, 23, -1, 0, varnullingrels⟩

def idColumn (varno : Nat) (varnullingrels : List Nat) : Expr :=
  .Var (idVar varno varnullingrels)

def Template.captureless (pieces : List Piece) : Template :=
  ⟨[], pieces, fun k below => absurd below (Nat.not_lt_zero k)⟩

/-- `SELECT a.id, b.id FROM (SELECT * FROM a WHERE …) a FULL JOIN b ON a.id = b.id`, where
the columns above the join carry `marks`. -/
def fullJoin (marks : List Nat) : SelectStmt where
  scanrel := .join 4 [idColumn 1 marks, idColumn 2 marks] [] [] .FULL
    [.node [idColumn 1 [], idColumn 2 []] []
      (.captureless [.text "(", .operand 0, .text " = ", .operand 1, .text ")"])]
    true false
    (.base 1 (ascii "d") (ascii "a") [idColumn 1 []]
      [.node [idColumn 1 []] [] (.captureless [.text "(", .operand 0, .text " > 0)"])] [])
    (.base 2 (ascii "d") (ascii "b") [idColumn 2 []] [] [])
  IS_UPPER_REL := false
  attrs_used := []
  tlist := [idColumn 1 marks, idColumn 2 marks]
  remote_conds := []
  groupClause := []
  pathkeys := []
  limitCount := []
  limitOffset := []

/-- All references are to `a.id`, and some are from above the join. -/
theorem fullJoin_refers {marks : List Nat} {scanrel wrapped : RelOptInfo Expr} {node : Var}
    (refers : (fullJoin marks).Refers scanrel wrapped node) :
    wrapped.reltarget = [idColumn 1 []] ∧ (node = idVar 1 [] ∨ node = idVar 1 marks) := by
  obtain ⟨printout, listed, rfl, o, member, leaf, -⟩ := refers.clause
  have wraps := refers.wraps
  have column := refers.column
  simp only [SelectStmt.printouts, selectPrintouts, fullJoin, fromPrintouts,
    rangeTblRefPrintouts, entryPrintout, List.mem_cons, List.mem_append, List.not_mem_nil,
    or_false, if_true, if_false, Bool.false_eq_true] at listed
  rcases listed with rfl | rfl | (rfl | rfl | rfl) | rfl
  · cases wraps with
    | below_inner wraps => cases wraps
    | outer =>
      change o ∈ [⟨.Var (idVar 1 marks), none, []⟩, ⟨.Var (idVar 2 marks), none, []⟩] at member
      rcases List.mem_pair.mp member with rfl | rfl <;> cases leaf
      · exact ⟨rfl, Or.inr rfl⟩
      · cases List.mem_singleton.mp column
  · cases wraps with
    | below_inner wraps => cases wraps
    | outer =>
      change o ∈ [⟨.Var (idVar 1 []), none, []⟩, ⟨.Var (idVar 2 []), none, []⟩] at member
      rcases List.mem_pair.mp member with rfl | rfl <;> cases leaf
      · exact ⟨rfl, Or.inl rfl⟩
      · cases List.mem_singleton.mp column
  all_goals cases wraps

theorem fullJoin_exports (marks : List Nat) : (fullJoin marks).Exports where
  relations := (by decide : [4, 1, 2].Nodup)
  columns scanrel wrapped node refers := by
    obtain ⟨target, column⟩ := fullJoin_refers refers
    have same : (idVar 1 []).SameColumn node := by
      rcases column with rfl | rfl <;> rfl
    rw [target]
    refine ⟨idVar 1 [], ⟨List.mem_singleton_self _, same⟩, fun var of => ?_⟩
    cases List.mem_singleton.mp of.1
    rfl

/-- Before PostgreSQL 16 there are no marks. -/
theorem columnsFound_fullJoin : (fullJoin []).ColumnsFound := by
  refine (columnsFound_iff (fullJoin []) (fullJoin_exports [])).mpr ?_
  intro scanrel wrapped node refers var member _
  obtain ⟨target, column⟩ := fullJoin_refers refers
  rw [target] at member
  cases List.mem_singleton.mp member
  rcases column with rfl | rfl <;> rfl

/-- Since PostgreSQL 16 `a.id` in the select list carries the join, and the target of the
subquery does not. -/
theorem not_columnsFound_fullJoin :
    (fullJoin [4]).Exports ∧ SubqueriesUnderFull (fullJoin [4]).scanrel ∧
      (idVar 1 [4]).MarkedBy (fullJoin [4]).scanrel ∧ ¬ (fullJoin [4]).ColumnsFound := by
  refine ⟨fullJoin_exports [4], ?_, fun join => Iff.rfl, fun found => ?_⟩
  · exact ⟨fun _ => rfl, trivial, trivial⟩
  · obtain ⟨i, var, -, -, ids⟩ := found (fullJoin [4]).scanrel _ (idVar 1 [4])
      ⟨.outer, by decide, _, List.mem_cons_self, rfl, ⟨.Var (idVar 1 [4]), none, []⟩,
        by decide, rfl, rfl⟩
    cases ids

end

end PgClickhouse.Emit

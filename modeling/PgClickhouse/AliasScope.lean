import Mathlib.Data.List.Induction
import PgClickhouse.Placement
import PgClickhouse.Placeholders

/-!
# Scope of aliases

A column is printed with the alias of its table, of the subquery it comes from, or of its
table in the body of a subplan; in a SELECT over one table without a subplan it is printed
bare, and so is the sign column of a collapsing table.  Each alias is defined once around
the column and means its relation.  A bare column is safe where no table of a body around
it has a column of that name, which the scan for subplans does not ensure.

Main facts:

* `column_resolves` : an alias is defined once, by the entry that has the column
* `entries_around` : the FROM lists around a column are those printed there
* `aliasScope_iff` : the aliases of a statement are in scope exactly if no bare column is
  captured
-/

namespace PgClickhouse.Emit

variable {cat : Catalog}

/-! ## Resolution -/

/-- The remote name of a column. -/
def Catalog.name (cat : Catalog) : ColumnId → Bytes
  | .column rte attno => cat.column_name rte attno
  | .sign rte => cat.ch_table_sign_field rte

namespace FromEntry

/-- Under which name an entry has which column. -/
def Defines (cat : Catalog) (entry : FromEntry) (name : ColumnName) (column : ColumnId) : Prop :=
  match entry.source, name with
  | .table rte, .named name => column.rte = rte ∧ name = cat.name column
  | .subquery columns, .nth colno => 0 < colno ∧ columns[colno - 1]? = some (some column)
  | _, _ => False

/-- The names of all columns of an entry. -/
def columns (cat : Catalog) (entry : FromEntry) : List Bytes :=
  match entry.source with
  | .table rte => cat.columns rte
  | .subquery columns => (List.range columns.length).map fun i => ascii "c" ++ decimal (i + 1)

end FromEntry

/-- An alias is defined by exactly one entry of the SELECTs around it, which has the
column. -/
def Qualified (cat : Catalog) (path : Path) (qualifier : Alias) (name : ColumnName)
    (column : ColumnId) : Prop :=
  (path.flatten.map FromEntry.qualifier).count (some qualifier) = 1 ∧
    ∃ entry ∈ path.flatten, entry.qualifier = some qualifier ∧ entry.Defines cat name column

/-- A bare column belongs to an entry of one SELECT, and no SELECT further in has a column
of that name. -/
def Uncaptured (cat : Catalog) (path : Path) (name : ColumnName) (column : ColumnId) : Prop :=
  ∃ above home inner, path = above ++ home :: inner ∧
    (∃ entry ∈ home, entry.Defines cat name column) ∧
    ∀ FROM ∈ inner, ∀ entry ∈ FROM, ∀ bare, name = .named bare → bare ∉ entry.columns cat

/-- What the columns of a text promise: the SELECTs they stand in have exactly the FROM
entries that are printed for them, and names mean what they were printed for. -/
structure AliasScope (cat : Catalog) (text : List Token) : Prop where
  entries : ∀ path qualifier name column, Token.column path qualifier name column ∈ text →
    ∀ above FROM, above ++ [FROM] <+: path →
      ∀ entry, entry ∈ FROM ↔ Token.entry (above ++ [FROM]) entry ∈ text
  qualified : ∀ path qualifier name column,
    Token.column path (some qualifier) name column ∈ text →
      Qualified cat path qualifier name column
  bare : ∀ path name column, Token.column path none name column ∈ text →
    Uncaptured cat path name column

/-! ## Where columns come from -/

theorem is_subquery_var_of_not_mem {node : Var} {rel : RelOptInfo Expr}
    (other : node.varno ∉ lower_subquery_rels rel) : is_subquery_var node rel = none := by
  cases rel with
  | base => rfl
  | join => exact if_neg other

/-- The column numbers of a subquery are those of its target. -/
theorem of_alias_ids {node : Var} {rel : RelOptInfo Expr} {relno colno : Nat}
    (ids : get_relation_column_alias_ids node rel = some (relno, colno)) :
    (subqueryEntry rel).qualifier = some (.subquery relno) ∧
      (subqueryEntry rel).Defines cat (.nth colno)
        (.column (.outer node.varno) node.varattno) := by
  obtain ⟨i, found, same⟩ := Option.map_eq_some_iff.mp ids
  cases same
  obtain ⟨below, matched, -⟩ := List.findIdx?_eq_some_iff_getElem.mp found
  refine ⟨rfl, Nat.succ_pos i, ?_⟩
  rw [Nat.add_sub_cancel, List.getElem?_map, List.getElem?_eq_getElem below, Option.map_some]
  cases target : rel.reltarget[i] with
  | Var node' =>
      rw [target] at matched
      cases eq_of_beq matched
      rfl
  | Param | node | NOT | SubPlan =>
      rw [target] at matched
      cases matched

/-- What a lookup says about the entries of FROM: one of them has the column. -/
def ResolvesIn (cat : Catalog) (node : Var) (relids : List Nat) (use_alias : Bool)
    (FROM : List FromEntry) : Option (Option (Nat × Nat)) → Prop
  | some (some (relno, colno)) =>
      ∃ entry ∈ FROM, entry.qualifier = some (.subquery relno) ∧
        entry.Defines cat (.nth colno) (.column (.outer node.varno) node.varattno)
  | some none => True
  | none => node.varno ∈ relids → tableEntry node.varno use_alias ∈ FROM

theorem ResolvesIn.mono {node : Var} {relids relids' : List Nat} {use_alias : Bool}
    {FROM : List FromEntry} {found : Option (Option (Nat × Nat))}
    (resolves : ResolvesIn cat node relids use_alias FROM found)
    (member : node.varno ∈ relids' → node.varno ∈ relids) :
    ResolvesIn cat node relids' use_alias FROM found := by
  rcases found with _ | _ | ids
  · exact fun of => resolves (member of)
  · trivial
  · exact resolves

/-- The entries of an input of a join. -/
def inputEntries (rel : RelOptInfo Expr) (make_subquery : Bool) : List FromEntry :=
  if make_subquery then [subqueryEntry rel] else fromEntries rel true

/-- The lookup in one input of a join. -/
def inputLookup (node : Var) (rel : RelOptInfo Expr) (make_subquery : Bool) :
    Option (Option (Nat × Nat)) :=
  if make_subquery then some (get_relation_column_alias_ids node rel)
  else is_subquery_var node rel

theorem resolves_input {node : Var} {rel : RelOptInfo Expr} {make_subquery : Bool}
    {FROM : List FromEntry} (entries : inputEntries rel make_subquery ⊆ FROM)
    (resolves : ResolvesIn cat node rel.relids true (fromEntries rel true)
      (is_subquery_var node rel)) :
    ResolvesIn cat node rel.relids true FROM (inputLookup node rel make_subquery) := by
  cases make_subquery with
  | true =>
      rw [inputLookup, if_pos rfl]
      cases ids : get_relation_column_alias_ids node rel with
      | none => trivial
      | some ids' =>
          obtain ⟨qualifier, defines⟩ := of_alias_ids ids
          exact ⟨subqueryEntry rel, entries (List.mem_singleton_self _), qualifier, defines⟩
  | false =>
      rw [inputLookup, if_neg Bool.false_ne_true]
      generalize is_subquery_var node rel = found at resolves
      rcases found with _ | _ | ids
      · exact fun member => entries (resolves member)
      · trivial
      · obtain ⟨entry, member, resolves⟩ := resolves
        exact ⟨entry, entries member, resolves⟩

/-- A column of an input that comes from no subquery. -/
theorem inputLookup_eq_none {node : Var} {rel : RelOptInfo Expr} {make_subquery : Bool}
    (member : node.varno ∈ rel.relids)
    (other : node.varno ∉ if make_subquery then rel.relids else lower_subquery_rels rel) :
    inputLookup node rel make_subquery = none := by
  cases make_subquery with
  | true => exact absurd member other
  | false => exact is_subquery_var_of_not_mem other

/-- The lookup finds the entry of FROM that has the column. -/
theorem resolves_from (cat : Catalog) (node : Var) (rel : RelOptInfo Expr) (use_alias : Bool) :
    ResolvesIn cat node rel.relids (rel.IS_JOIN_REL || use_alias) (fromEntries rel use_alias)
      (is_subquery_var node rel) := by
  induction rel generalizing use_alias with
  | base relid dbname relname reltarget remote_conds local_conds =>
      intro member
      have same : node.varno = relid := List.mem_singleton.mp member
      rw [same]
      exact List.mem_singleton_self _
  | join i t r l jointype joinclauses make_outerrel_subquery make_innerrel_subquery outerrel
      innerrel outer inner =>
      have outerEntries : inputEntries outerrel make_outerrel_subquery ⊆
          fromEntries (.join i t r l jointype joinclauses make_outerrel_subquery
            make_innerrel_subquery outerrel innerrel) use_alias :=
        List.subset_append_left _ _
      have innerEntries : inputEntries innerrel make_innerrel_subquery ⊆
          fromEntries (.join i t r l jointype joinclauses make_outerrel_subquery
            make_innerrel_subquery outerrel innerrel) use_alias :=
        List.subset_append_right _ _
      have outerResolves := outer true
      have innerResolves := inner true
      rw [Bool.or_true] at outerResolves innerResolves
      have fromOuter := resolves_input outerEntries outerResolves
      have fromInner := resolves_input innerEntries innerResolves
      rw [is_subquery_var]
      split
      · rename_i lower
        split
        · rename_i side
          exact fromOuter.mono fun _ => side
        · rename_i side
          exact fromInner.mono fun member => (List.mem_append.mp member).resolve_left side
      · rename_i lower
        rw [lower_subquery_rels, List.mem_append, not_or] at lower
        intro member
        rcases List.mem_append.mp member with member | member
        · rw [inputLookup_eq_none member lower.1] at fromOuter
          exact fromOuter member
        · rw [inputLookup_eq_none member lower.2] at fromInner
          exact fromInner member

/-! ## Aliases -/

def aliases (entries : List FromEntry) : List Alias :=
  entries.filterMap FromEntry.qualifier

/-- The numbers of the relations of a join tree. -/
def relationIndexes : RelOptInfo Expr → List Nat
  | .base relid .. => [relid]
  | .join relation_index _ _ _ _ _ _ _ outerrel innerrel =>
      relation_index :: (relationIndexes outerrel ++ relationIndexes innerrel)

/-- The aliases in the SELECTs of the subqueries of a join tree. -/
def hiddenAliases : RelOptInfo Expr → List Alias
  | .base .. => []
  | .join _ _ _ _ _ _ make_outerrel_subquery make_innerrel_subquery outerrel innerrel =>
      ((if make_outerrel_subquery then aliases (fromEntries outerrel true) else []) ++
        hiddenAliases outerrel) ++
      ((if make_innerrel_subquery then aliases (fromEntries innerrel true) else []) ++
        hiddenAliases innerrel)

/-- The aliases of a join tree and of the SELECTs inside it. -/
def allAliases (rel : RelOptInfo Expr) : List Alias :=
  aliases (fromEntries rel true) ++ hiddenAliases rel

/-- Those of an input of a join. -/
def inputAliases (rel : RelOptInfo Expr) (make_subquery : Bool) : List Alias :=
  if make_subquery then .subquery rel.relation_index :: allAliases rel else allAliases rel

theorem aliases_inputEntries (rel : RelOptInfo Expr) (make_subquery : Bool) :
    aliases (inputEntries rel make_subquery) ++
        ((if make_subquery then aliases (fromEntries rel true) else []) ++ hiddenAliases rel) =
      inputAliases rel make_subquery := by
  cases make_subquery with
  | true => rfl
  | false => rfl

theorem allAliases_join (i : Nat) (t r l : List Expr) (jointype : JoinType)
    (joinclauses : List Expr) (make_outerrel_subquery make_innerrel_subquery : Bool)
    (outerrel innerrel : RelOptInfo Expr) :
    (allAliases (.join i t r l jointype joinclauses make_outerrel_subquery
      make_innerrel_subquery outerrel innerrel)).Perm
        (inputAliases outerrel make_outerrel_subquery ++
          inputAliases innerrel make_innerrel_subquery) := by
  rw [← aliases_inputEntries, ← aliases_inputEntries, allAliases, hiddenAliases]
  have split : aliases (fromEntries (.join i t r l jointype joinclauses make_outerrel_subquery
      make_innerrel_subquery outerrel innerrel) true) =
      aliases (inputEntries outerrel make_outerrel_subquery) ++
        aliases (inputEntries innerrel make_innerrel_subquery) :=
    List.filterMap_append
  have swap (a b c d : List Alias) : ((a ++ b) ++ (c ++ d)).Perm ((a ++ c) ++ (b ++ d)) := by
    rw [List.append_assoc, List.append_assoc]
    exact (List.perm_append_comm_assoc b c d).append_left a
  rw [split]
  exact swap _ _ _ _

theorem relationIndexes_eq_cons (rel : RelOptInfo Expr) :
    relationIndexes rel = rel.relation_index :: (relationIndexes rel).tail := by
  cases rel with
  | base => rfl
  | join => rfl

/-- An alias names a relation of the tree, a subquery one below its root. -/
theorem of_mem_allAliases {a : Alias} {rel : RelOptInfo Expr}
    (member : a ∈ allAliases rel) :
    (∃ n ∈ relationIndexes rel, a = .rel n) ∨
      ∃ n ∈ (relationIndexes rel).tail, a = .subquery n := by
  induction rel with
  | base relid dbname relname reltarget remote_conds local_conds =>
      rw [allAliases, hiddenAliases, List.append_nil] at member
      exact .inl ⟨relid, List.mem_singleton_self _, List.mem_singleton.mp member⟩
  | join i t r l jointype joinclauses make_outerrel_subquery make_innerrel_subquery outerrel
      innerrel outer inner =>
      have input {rel : RelOptInfo Expr} {make_subquery : Bool}
          (ih : a ∈ allAliases rel → (∃ n ∈ relationIndexes rel, a = .rel n) ∨
            ∃ n ∈ (relationIndexes rel).tail, a = .subquery n)
          (member : a ∈ inputAliases rel make_subquery) :
          ∃ n ∈ relationIndexes rel, a = .rel n ∨ a = .subquery n := by
        have below (member : a ∈ allAliases rel) :
            ∃ n ∈ relationIndexes rel, a = .rel n ∨ a = .subquery n := by
          rcases ih member with ⟨n, of, same⟩ | ⟨n, of, same⟩
          · exact ⟨n, of, .inl same⟩
          · exact ⟨n, List.mem_of_mem_tail of, .inr same⟩
        cases make_subquery with
        | false => exact below member
        | true =>
            rcases List.mem_cons.mp member with same | member
            · refine ⟨rel.relation_index, ?_, .inr same⟩
              rw [relationIndexes_eq_cons]
              exact List.mem_cons_self
            · exact below member
      have member := (allAliases_join i t r l jointype joinclauses make_outerrel_subquery
        make_innerrel_subquery outerrel innerrel).mem_iff.mp member
      have found : ∃ n ∈ relationIndexes outerrel ++ relationIndexes innerrel,
          a = .rel n ∨ a = .subquery n := by
        rcases List.mem_append.mp member with member | member
        · obtain ⟨n, of, same⟩ := input outer member
          exact ⟨n, List.mem_append_left _ of, same⟩
        · obtain ⟨n, of, same⟩ := input inner member
          exact ⟨n, List.mem_append_right _ of, same⟩
      obtain ⟨n, of, same | same⟩ := found
      · exact .inl ⟨n, List.mem_cons_of_mem _ of, same⟩
      · exact .inr ⟨n, of, same⟩

/-- The number of the relation an alias names. -/
def Alias.relation : Alias → Nat
  | .rel relid => relid
  | .subquery relno => relno
  | .subplan _ varno => varno

theorem relation_of_mem_inputAliases {a : Alias} {rel : RelOptInfo Expr}
    {make_subquery : Bool} (member : a ∈ inputAliases rel make_subquery) :
    a.relation ∈ relationIndexes rel := by
  have below (member : a ∈ allAliases rel) : a.relation ∈ relationIndexes rel := by
    rcases of_mem_allAliases member with ⟨n, of, rfl⟩ | ⟨n, of, rfl⟩
    · exact of
    · exact List.mem_of_mem_tail of
  cases make_subquery with
  | false => exact below member
  | true =>
      rcases List.mem_cons.mp member with rfl | member
      · rw [relationIndexes_eq_cons]
        exact List.mem_cons_self
      · exact below member

/-- Where relations have different numbers, so have aliases. -/
theorem nodup_allAliases {rel : RelOptInfo Expr} (distinct : (relationIndexes rel).Nodup) :
    (allAliases rel).Nodup := by
  induction rel with
  | base relid dbname relname reltarget remote_conds local_conds => exact List.nodup_singleton _
  | join i t r l jointype joinclauses make_outerrel_subquery make_innerrel_subquery outerrel
      innerrel outer inner =>
      have input {rel : RelOptInfo Expr} (make_subquery : Bool)
          (distinct : (relationIndexes rel).Nodup) (ih : (allAliases rel).Nodup) :
          (inputAliases rel make_subquery).Nodup := by
        cases make_subquery with
        | false => exact ih
        | true =>
            refine List.nodup_cons.mpr ⟨fun member => ?_, ih⟩
            rcases of_mem_allAliases member with ⟨n, -, same⟩ | ⟨n, of, same⟩
            · cases same
            · cases same
              rw [relationIndexes_eq_cons] at distinct
              exact (List.nodup_cons.mp distinct).1 of
      have below := (List.nodup_cons.mp distinct).2
      obtain ⟨outerDistinct, innerDistinct, apart⟩ := List.nodup_append.mp below
      refine (allAliases_join i t r l jointype joinclauses make_outerrel_subquery
        make_innerrel_subquery outerrel innerrel).nodup_iff.mpr (List.nodup_append.mpr
          ⟨input _ outerDistinct (outer outerDistinct),
            input _ innerDistinct (inner innerDistinct), ?_⟩)
      intro a left b right same
      exact apart _ (relation_of_mem_inputAliases left) _ (relation_of_mem_inputAliases right)
        (congrArg Alias.relation same)

theorem aliases_append (a b : List FromEntry) : aliases (a ++ b) = aliases a ++ aliases b :=
  List.filterMap_append

/-- A single table may be printed without an alias. -/
theorem aliases_sublist (rel : RelOptInfo Expr) (use_alias : Bool) :
    (aliases (fromEntries rel use_alias)).Sublist (aliases (fromEntries rel true)) := by
  cases rel with
  | base relid dbname relname reltarget remote_conds local_conds =>
      cases use_alias with
      | true => exact List.Sublist.refl _
      | false => exact List.nil_sublist _
  | join => exact List.Sublist.refl _

/-! ## What is printed where -/

/-- All expressions that are printed of a join tree. -/
def treeExprs : RelOptInfo Expr → List Expr
  | .base _ _ _ reltarget remote_conds _ => reltarget ++ remote_conds
  | .join _ reltarget remote_conds _ _ joinclauses _ _ outerrel innerrel =>
      reltarget ++ remote_conds ++ joinclauses ++ (treeExprs outerrel ++ treeExprs innerrel)

theorem planned_reltarget {rel : RelOptInfo Expr} {plan_ids : List Nat}
    (planned : PlannedList plan_ids (treeExprs rel)) :
    PlannedList plan_ids rel.reltarget ∧ PlannedList plan_ids rel.remote_conds := by
  cases rel with
  | base => exact plannedList_append.mp planned
  | join => exact plannedList_append.mp (plannedList_append.mp (plannedList_append.mp planned).1).1

/-- What the planner promises of a statement: relations have different numbers, and its
expressions are those of a planned query. -/
structure SelectStmt.Planned (stmt : SelectStmt) : Prop where
  relations : (relationIndexes stmt.scanrel).Nodup
  tree : PlannedList [] (treeExprs stmt.scanrel)
  tlist : PlannedList [] stmt.tlist
  remote_conds : PlannedList [] stmt.remote_conds
  groupClause : PlannedList [] stmt.groupClause
  pathkeys : PlannedList [] stmt.pathkeys
  limitCount : PlannedList [] stmt.limitCount
  limitOffset : PlannedList [] stmt.limitOffset

/-- A leaf of an expression, or a column in the select list of a table. -/
def Occurrence.Listed (scanrel : RelOptInfo Expr) (o : Occurrence) : Prop :=
  o.Placed [] ∨ scanrel.IS_JOIN_REL = false ∧
    ∃ attno, o = ⟨.fetched scanrel.relation_index attno, none, []⟩

/-- A printout in the SELECT whose FROM list is `FROM`: an entry of that list, or leaves over
tables of that list. -/
def Printout.Of (FROM : List FromEntry) (printout : Printout) : Prop :=
  (∃ entry ∈ FROM, printout.printed = [⟨.entry entry, none, []⟩]) ∨
    fromEntries printout.scanrel
        (useAlias printout.scanrel printout.has_inlined_subplan) ⊆ FROM ∧
      Closed printout.printed ∧ ∀ o ∈ printout.printed, o.Listed printout.scanrel

structure Printout.Sound (printout : Printout) : Prop where
  inside : ∃ above FROM, printout.path = above ++ [FROM] ∧ printout.Of FROM
  distinct : (aliases printout.path.flatten).Nodup
  outer : ∀ plan_id varno, .subplan plan_id varno ∉ aliases printout.path.flatten

/-- The FROM clause of a join tree is printed inside a SELECT that lists its entries, with
aliases that its subqueries do not use. -/
structure Inside (path : Path) (rel : RelOptInfo Expr) (use_alias : Bool) : Prop where
  lists : ∃ above FROM, path = above ++ [FROM] ∧ fromEntries rel use_alias ⊆ FROM
  distinct : (aliases path.flatten ++ hiddenAliases rel).Nodup
  outer : ∀ plan_id varno, .subplan plan_id varno ∉ aliases path.flatten

theorem subplan_not_mem_allAliases (plan_id varno : Nat) (rel : RelOptInfo Expr) :
    .subplan plan_id varno ∉ allAliases rel := by
  intro member
  rcases of_mem_allAliases member with ⟨n, -, same⟩ | ⟨n, -, same⟩
  · cases same
  · cases same

/-- A SELECT over a join tree. -/
theorem inside_select {path : Path} {rel : RelOptInfo Expr}
    (distinct : (aliases path.flatten ++ allAliases rel).Nodup)
    (outer : ∀ plan_id varno, .subplan plan_id varno ∉ aliases path.flatten)
    (has_inlined_subplan : Bool) :
    Inside (path ++ [selectFrom rel has_inlined_subplan]) rel
      (useAlias rel has_inlined_subplan) := by
  have flatten : aliases (path ++ [selectFrom rel has_inlined_subplan]).flatten =
      aliases path.flatten ++
        aliases (fromEntries rel (useAlias rel has_inlined_subplan)) := by
    rw [List.flatten_append, aliases_append, List.flatten_singleton, selectFrom]
  have sublist := aliases_sublist rel (useAlias rel has_inlined_subplan)
  refine ⟨⟨path, _, rfl, List.Subset.refl _⟩, ?_, ?_⟩
  · rw [flatten, List.append_assoc]
    exact distinct.sublist ((List.Sublist.refl _).append (sublist.append (List.Sublist.refl _)))
  · intro plan_id varno member
    rw [flatten] at member
    rcases List.mem_append.mp member with member | member
    · exact outer plan_id varno member
    · exact subplan_not_mem_allAliases plan_id varno rel
        (List.mem_append_left _ (sublist.subset member))

theorem sound_entry {path : Path} {above : Path} {FROM : List FromEntry}
    (split : path = above ++ [FROM]) {entry : FromEntry} (member : entry ∈ FROM)
    (rel : RelOptInfo Expr) (distinct : (aliases path.flatten).Nodup)
    (outer : ∀ plan_id varno, .subplan plan_id varno ∉ aliases path.flatten) :
    (entryPrintout path rel entry).Sound :=
  ⟨⟨above, FROM, split, .inl ⟨entry, member, rfl⟩⟩, distinct, outer⟩

/-- The SELECT and its FROM clause. -/
theorem sound_selectPrintouts {printouts : Bool → Path → List Printout} {rel : RelOptInfo Expr}
    (from_ : ∀ use_alias path, Inside path rel use_alias →
      ∀ printout ∈ printouts use_alias path, printout.Sound) {path : Path}
    (distinct : (aliases path.flatten ++ allAliases rel).Nodup)
    (outer : ∀ plan_id varno, .subplan plan_id varno ∉ aliases path.flatten)
    (has_inlined_subplan : Bool) {printed : List Occurrence} (closed : Closed printed)
    (listed : ∀ o ∈ printed, o.Listed rel) :
    ∀ printout ∈ selectPrintouts printouts rel has_inlined_subplan printed path,
      printout.Sound := by
  have inside := inside_select distinct outer has_inlined_subplan
  intro printout member
  rcases List.mem_cons.mp member with rfl | member
  · exact ⟨⟨path, _, rfl, .inr ⟨List.Subset.refl _, closed, listed⟩⟩,
      (List.nodup_append.mp inside.distinct).1, inside.outer⟩
  · exact from_ _ _ inside printout member

theorem listed_clausesPrinted {exprs : List Expr} (planned : PlannedList [] exprs)
    (rel : RelOptInfo Expr) : ∀ o ∈ clausesPrinted exprs, o.Listed rel :=
  fun o member => .inl (placed_clausesPrinted planned o member)

/-- An input of a join, in place or as a subquery. -/
theorem sound_rangeTblRef {rel : RelOptInfo Expr} {make_subquery : Bool} {path above : Path}
    {FROM : List FromEntry}
    (from_ : ∀ use_alias path, Inside path rel use_alias →
      ∀ printout ∈ fromPrintouts rel use_alias path, printout.Sound)
    (planned : PlannedList [] (treeExprs rel)) (split : path = above ++ [FROM])
    (entries : inputEntries rel make_subquery ⊆ FROM)
    (distinct : (aliases path.flatten ++
      ((if make_subquery then aliases (fromEntries rel true) else []) ++
        hiddenAliases rel)).Nodup)
    (outer : ∀ plan_id varno, .subplan plan_id varno ∉ aliases path.flatten) :
    ∀ printout ∈ rangeTblRefPrintouts (fromPrintouts rel) rel make_subquery path,
      printout.Sound := by
  cases make_subquery with
  | false => exact from_ true path ⟨⟨above, FROM, split, entries⟩, distinct, outer⟩
  | true =>
      intro printout member
      rcases List.mem_cons.mp member with rfl | member
      · exact sound_entry split (entries (List.mem_singleton_self _)) rel
          (List.nodup_append.mp distinct).1 outer
      · obtain ⟨target, conds⟩ := planned_reltarget planned
        refine sound_selectPrintouts from_ distinct outer _
          ((closed_clausesPrinted _).append (closed_clausesPrinted _)) ?_ printout member
        intro o of
        rcases List.mem_append.mp of with of | of
        · exact listed_clausesPrinted target rel o of
        · exact listed_clausesPrinted conds rel o of

theorem sound_fromPrintouts (rel : RelOptInfo Expr) (planned : PlannedList [] (treeExprs rel)) :
    ∀ use_alias path, Inside path rel use_alias →
      ∀ printout ∈ fromPrintouts rel use_alias path, printout.Sound := by
  induction rel with
  | base relid dbname relname reltarget remote_conds local_conds =>
      intro use_alias path inside printout member
      obtain ⟨above, FROM, split, entries⟩ := inside.lists
      cases List.mem_singleton.mp member
      exact sound_entry split (entries (List.mem_singleton_self _)) _
        (List.nodup_append.mp inside.distinct).1 inside.outer
  | join i t r l jointype joinclauses make_outerrel_subquery make_innerrel_subquery outerrel
      innerrel outer inner =>
      intro use_alias path inside printout member
      obtain ⟨above, FROM, split, entries⟩ := inside.lists
      obtain ⟨ownPlanned, inputsPlanned⟩ := plannedList_append.mp planned
      obtain ⟨outerPlanned, innerPlanned⟩ := plannedList_append.mp inputsPlanned
      have distinct := inside.distinct
      rw [hiddenAliases] at distinct
      rcases List.mem_cons.mp member with rfl | member
      · refine ⟨⟨above, FROM, split, .inr ⟨entries, closed_clausesPrinted _, ?_⟩⟩,
          (List.nodup_append.mp distinct).1, inside.outer⟩
        exact listed_clausesPrinted (plannedList_append.mp ownPlanned).2 _
      rcases List.mem_append.mp member with member | member
      · exact sound_rangeTblRef (outer outerPlanned) outerPlanned split
          (List.Subset.trans (List.subset_append_left _ _) entries)
          (distinct.sublist ((List.Sublist.refl _).append (List.sublist_append_left _ _)))
          inside.outer printout member
      · exact sound_rangeTblRef (inner innerPlanned) innerPlanned split
          (List.Subset.trans (List.subset_append_right _ _) entries)
          (distinct.sublist ((List.Sublist.refl _).append (List.sublist_append_right _ _)))
          inside.outer printout member

theorem closed_printed_stmt (stmt : SelectStmt) : Closed stmt.printed := by
  have select : Closed stmt.selectListPrinted := by
    rw [SelectStmt.selectListPrinted]
    split
    · exact closed_clausesPrinted _
    · refine Closed.of_no_bodies fun o member => ?_
      obtain ⟨attno, -, rfl⟩ := List.mem_map.mp member
      rfl
  have grouping : Closed (if stmt.IS_UPPER_REL then
      clausesPrinted stmt.groupClause ++ clausesPrinted stmt.remote_conds else []) := by
    split
    · exact (closed_clausesPrinted _).append (closed_clausesPrinted _)
    · exact Closed.of_no_bodies fun o member => absurd member List.not_mem_nil
  exact (select.append (closed_clausesPrinted _)).append
    (((grouping.append (closed_clausesPrinted _)).append (closed_clausesPrinted _)).append
      (closed_clausesPrinted _))

theorem listed_stmt {stmt : SelectStmt} (planned : stmt.Planned) :
    ∀ o ∈ stmt.printed, o.Listed stmt.scanrel := by
  have quals : PlannedList [] stmt.quals := by
    rw [SelectStmt.quals]
    split
    · exact (planned_reltarget planned.tree).2
    · exact planned.remote_conds
  intro o member
  simp only [SelectStmt.printed, SelectStmt.tailPrinted, List.mem_append] at member
  rcases member with (select | where_) | (((grouping | order) | limit) | offset)
  · rw [SelectStmt.selectListPrinted] at select
    split at select
    · exact listed_clausesPrinted planned.tlist _ o select
    · rename_i table
      obtain ⟨attno, -, rfl⟩ := List.mem_map.mp select
      rw [Bool.not_eq_true, Bool.or_eq_false_iff] at table
      exact .inr ⟨table.1, attno, rfl⟩
  · exact listed_clausesPrinted quals _ o where_
  · split at grouping
    · rcases List.mem_append.mp grouping with grouping | having
      · exact listed_clausesPrinted planned.groupClause _ o grouping
      · exact listed_clausesPrinted planned.remote_conds _ o having
    · exact absurd grouping List.not_mem_nil
  · exact listed_clausesPrinted planned.pathkeys _ o order
  · exact listed_clausesPrinted planned.limitCount _ o limit
  · exact listed_clausesPrinted planned.limitOffset _ o offset

theorem sound_statement {stmt : SelectStmt} (planned : stmt.Planned) :
    ∀ printout ∈ stmt.printouts, printout.Sound := by
  have distinct : (aliases ([] : Path).flatten ++ allAliases stmt.scanrel).Nodup :=
    nodup_allAliases planned.relations
  exact sound_selectPrintouts (sound_fromPrintouts stmt.scanrel planned.tree) distinct
    (fun _ _ => List.not_mem_nil) _ (closed_printed_stmt stmt) (listed_stmt planned)

/-! ## FROM lists are printed -/

/-- The FROM lists around a place are printed. -/
def Complete (N : Set Sighting) (path : Path) : Prop :=
  ∀ above FROM, above ++ [FROM] <+: path → ∀ entry ∈ FROM,
    Sighting.entry (above ++ [FROM]) entry ∈ N

theorem Complete.snoc {N : Set Sighting} {path : Path} {FROM : List FromEntry}
    (complete : Complete N path)
    (entries : ∀ entry ∈ FROM, Sighting.entry (path ++ [FROM]) entry ∈ N) :
    Complete N (path ++ [FROM]) := by
  intro above FROM' initial entry member
  rcases List.prefix_concat_iff.mp initial with same | initial
  · obtain ⟨rfl, last⟩ := List.append_inj' same rfl
    cases last
    exact entries entry member
  · exact complete above FROM' initial entry member

/-- Each entry of a FROM clause is printed. -/
theorem entry_mem_printoutSights {entry : FromEntry} {rel : RelOptInfo Expr} {use_alias : Bool}
    (member : entry ∈ fromEntries rel use_alias) (path : Path) :
    Sighting.entry path entry ∈ printoutSights cat (fromPrintouts rel use_alias path) := by
  induction rel generalizing use_alias with
  | base relid dbname relname reltarget remote_conds local_conds =>
      rw [fromPrintouts, printoutSights_cons, printoutSights_entry, List.mem_singleton.mp member]
      exact .inl rfl
  | join i t r l jointype joinclauses make_outerrel_subquery make_innerrel_subquery outerrel
      innerrel outer inner =>
      have input {rel : RelOptInfo Expr} {make_subquery : Bool}
          (ih : ∀ {use_alias}, entry ∈ fromEntries rel use_alias →
            Sighting.entry path entry ∈ printoutSights cat (fromPrintouts rel use_alias path))
          (member : entry ∈ inputEntries rel make_subquery) :
          Sighting.entry path entry ∈
            printoutSights cat
              (rangeTblRefPrintouts (fromPrintouts rel) rel make_subquery path) := by
        cases make_subquery with
        | false => exact ih member
        | true =>
            rw [rangeTblRefPrintouts, if_pos rfl, printoutSights_cons, printoutSights_entry,
              List.mem_singleton.mp member]
            exact .inl rfl
      rw [fromPrintouts, printoutSights_cons, printoutSights_append]
      rcases List.mem_append.mp member with member | member
      · exact .inr (.inl (input outer member))
      · exact .inr (.inr (input inner member))

theorem complete_selectPrintouts {N : Set Sighting} {rel : RelOptInfo Expr}
    (from_ : ∀ use_alias path,
      printoutSights cat (fromPrintouts rel use_alias path) ⊆ N → Complete N path →
        ∀ printout ∈ fromPrintouts rel use_alias path, Complete N printout.path)
    {has_inlined_subplan : Bool} {printed : List Occurrence} {path : Path}
    (subset : printoutSights cat
      (selectPrintouts (fromPrintouts rel) rel has_inlined_subplan printed path) ⊆ N)
    (complete : Complete N path) :
    ∀ printout ∈ selectPrintouts (fromPrintouts rel) rel has_inlined_subplan printed path,
      Complete N printout.path := by
  rw [selectPrintouts, printoutSights_cons, Set.union_subset_iff] at subset
  have own : Complete N (path ++ [selectFrom rel has_inlined_subplan]) :=
    complete.snoc fun entry member => subset.2 (entry_mem_printoutSights member _)
  intro printout member
  rcases List.mem_cons.mp member with rfl | member
  · exact own
  · exact from_ _ _ subset.2 own printout member

theorem complete_fromPrintouts {N : Set Sighting} (rel : RelOptInfo Expr) :
    ∀ use_alias path, printoutSights cat (fromPrintouts rel use_alias path) ⊆ N →
      Complete N path → ∀ printout ∈ fromPrintouts rel use_alias path,
        Complete N printout.path := by
  induction rel with
  | base relid dbname relname reltarget remote_conds local_conds =>
      intro use_alias path _ complete printout member
      cases List.mem_singleton.mp member
      exact complete
  | join i t r l jointype joinclauses make_outerrel_subquery make_innerrel_subquery outerrel
      innerrel outer inner =>
      intro use_alias path subset complete printout member
      have input {rel : RelOptInfo Expr} {make_subquery : Bool}
          (ih : ∀ use_alias path, printoutSights cat (fromPrintouts rel use_alias path) ⊆ N →
            Complete N path → ∀ printout ∈ fromPrintouts rel use_alias path,
              Complete N printout.path)
          (subset : printoutSights cat
            (rangeTblRefPrintouts (fromPrintouts rel) rel make_subquery path) ⊆ N)
          (member : printout ∈ rangeTblRefPrintouts (fromPrintouts rel) rel make_subquery path) :
          Complete N printout.path := by
        cases make_subquery with
        | false => exact ih true path subset complete printout member
        | true =>
            rw [rangeTblRefPrintouts, if_pos rfl, printoutSights_cons,
              Set.union_subset_iff] at subset
            rcases List.mem_cons.mp member with rfl | member
            · exact complete
            · exact complete_selectPrintouts ih subset.2 complete printout member
      rw [fromPrintouts, printoutSights_cons, printoutSights_append, Set.union_subset_iff,
        Set.union_subset_iff] at subset
      rcases List.mem_cons.mp member with rfl | member
      · exact complete
      rcases List.mem_append.mp member with member | member
      · exact input outer subset.2.1 member
      · exact input inner subset.2.2 member

theorem complete_statement (cat : Catalog) (stmt : SelectStmt) :
    ∀ printout ∈ stmt.printouts, Complete (printoutSights cat stmt.printouts) printout.path :=
  complete_selectPrintouts (complete_fromPrintouts stmt.scanrel) (Set.Subset.refl _)
    fun _ _ initial => absurd (List.prefix_nil.mp initial)
      (List.append_ne_nil_of_right_ne_nil _ (List.cons_ne_nil _ _))

/-- Also those of the bodies around a leaf. -/
theorem complete_bodies {N : Set Sighting} {printout : Printout}
    (subset : printout.sights cat ⊆ N) (closed : Closed printout.printed)
    (complete : Complete N printout.path) {o : Occurrence} (member : o ∈ printout.printed) :
    Complete N (printout.path ++ o.bodies.map subPlanEntries) := by
  have upTo (above below : List SubPlanInfo) (split : o.bodies = above ++ below) :
      Complete N (printout.path ++ above.map subPlanEntries) := by
    induction above using List.reverseRecOn generalizing below with
    | nil => simpa using complete
    | append_singleton above info ih =>
        rw [List.append_assoc] at split
        have outer := ih ([info] ++ below) split
        rw [List.map_append, ← List.append_assoc]
        refine outer.snoc fun entry of => subset ?_
        obtain ⟨subplan, listed⟩ := closed o member above info below split entry of
        refine ⟨_, listed, ?_⟩
        simp [Occurrence.sighting]
  exact upTo o.bodies [] (List.append_nil _).symm

/-! ## Resolution of columns -/

/-- The name of a column that is printed without an alias. -/
def Occurrence.bareName (cat : Catalog) (scanrel : RelOptInfo Expr) (has_inlined_subplan : Bool)
    (o : Occurrence) : Option Bytes :=
  match o.leaf with
  | .fetched relid attno => some (cat.column_name (.outer relid) attno)
  | .sign =>
    match scanrel with
    | .base relid .. => some (cat.ch_table_sign_field (.outer relid))
    | .join .. => none
  | .Var node =>
    if o.subplan = none ∧ useAlias scanrel has_inlined_subplan = false ∧
        node.varno ∈ scanrel.relids ∧ node.varlevelsup = 0 then
      some (cat.column_name (.outer node.varno) node.varattno)
    else none
  | .Param _ => none
  | .entry _ => none

theorem count_qualifier (entries : List FromEntry) (a : Alias) :
    (entries.map FromEntry.qualifier).count (some a) = (aliases entries).count a := by
  induction entries with
  | nil => rfl
  | cons entry entries ih =>
      rw [List.map_cons, List.count_cons, ih, aliases, aliases, List.filterMap_cons]
      cases entry.qualifier with
      | none => rfl
      | some b => simp [List.count_cons]

theorem aliases_subPlanEntries (info : SubPlanInfo) :
    aliases (subPlanEntries info) = info.fromlist.map (Alias.subplan info.plan_id) := by
  rw [aliases, subPlanEntries, List.filterMap_map]
  exact congrFun List.filterMap_eq_map _

/-- The aliases of bodies of different subplans differ. -/
theorem nodup_bodies {bodies : List SubPlanInfo}
    (distinct : (bodies.map SubPlanInfo.plan_id).Nodup)
    (tables : ∀ info ∈ bodies, info.fromlist.Nodup) :
    (aliases (bodies.map subPlanEntries).flatten).Nodup ∧
      ∀ a ∈ aliases (bodies.map subPlanEntries).flatten, ∃ info ∈ bodies, ∃ rtindex,
        a = .subplan info.plan_id rtindex := by
  induction bodies with
  | nil => exact ⟨List.nodup_nil, fun _ member => absurd member List.not_mem_nil⟩
  | cons info bodies ih =>
      obtain ⟨new, distinct⟩ := List.nodup_cons.mp distinct
      obtain ⟨nodup, named⟩ := ih distinct fun info member =>
        tables info (List.mem_cons_of_mem _ member)
      rw [List.map_cons, List.flatten_cons, aliases_append, aliases_subPlanEntries]
      constructor
      · refine List.nodup_append.mpr ⟨(tables info List.mem_cons_self).map fun m n same => ?_,
          nodup, ?_⟩
        · exact (Alias.subplan.inj same).2
        · intro a own b other same
          obtain ⟨rtindex, -, rfl⟩ := List.mem_map.mp own
          obtain ⟨info', member, rtindex', rfl⟩ := named b other
          exact new ((Alias.subplan.inj same).1 ▸ List.mem_map_of_mem member)
      · intro a member
        rcases List.mem_append.mp member with own | other
        · obtain ⟨rtindex, -, rfl⟩ := List.mem_map.mp own
          exact ⟨info, List.mem_cons_self, rtindex, rfl⟩
        · obtain ⟨info', member, same⟩ := named a other
          exact ⟨info', List.mem_cons_of_mem _ member, same⟩

section

variable {printout : Printout} {o : Occurrence}

/-- An alias that some entry around a leaf has is defined by no other. -/
theorem qualified_of_entry (sound : printout.Sound) (placed : o.Placed []) {entry : FromEntry}
    (member : entry ∈ (printout.path ++ o.bodies.map subPlanEntries).flatten) {a : Alias}
    (qualifier : entry.qualifier = some a) {name : ColumnName} {column : ColumnId}
    (defines : entry.Defines cat name column) :
    Qualified cat (printout.path ++ o.bodies.map subPlanEntries) a name column := by
  refine ⟨?_, entry, member, qualifier, defines⟩
  rw [count_qualifier]
  refine List.count_eq_one_of_mem ?_ (List.mem_filterMap.mpr ⟨entry, member, qualifier⟩)
  obtain ⟨nodup, named⟩ := nodup_bodies placed.distinct placed.tables
  rw [List.flatten_append, aliases_append]
  refine List.nodup_append.mpr ⟨sound.distinct, nodup, ?_⟩
  intro a left b right same
  obtain ⟨info, -, rtindex, rfl⟩ := named b right
  exact sound.outer _ _ (same ▸ left)

/-- The FROM list of the SELECT a printout stands in. -/
theorem mem_path_flatten {above : Path} {FROM : List FromEntry}
    (split : printout.path = above ++ [FROM]) {entry : FromEntry} (member : entry ∈ FROM) :
    entry ∈ (printout.path ++ o.bodies.map subPlanEntries).flatten := by
  rw [List.flatten_append]
  refine List.mem_append_left _ (List.mem_flatten_of_mem (l := FROM) ?_ member)
  rw [split]
  exact List.mem_append_right _ (List.mem_singleton_self _)

theorem relids_of_not_useAlias {rel : RelOptInfo Expr} {has_inlined_subplan : Bool}
    (bare : useAlias rel has_inlined_subplan = false) : rel.IS_JOIN_REL = false := by
  cases rel with
  | base => rfl
  | join i t r l jointype joinclauses outer_subquery inner_subquery outerrel innerrel =>
      have outer := outerrel.relids_length_pos
      have inner := innerrel.relids_length_pos
      have many : 1 < (outerrel.relids ++ innerrel.relids).length := by
        rw [List.length_append]
        omega
      have qualified : useAlias (.join i t r l jointype joinclauses outer_subquery inner_subquery
          outerrel innerrel) has_inlined_subplan = true := by
        rw [useAlias, RelOptInfo.relids, decide_eq_true many, Bool.true_or]
      rw [qualified] at bare
      cases bare

/-- A bare column of a table in the FROM list of its SELECT. -/
structure Bare (cat : Catalog) (printout : Printout) (o : Occurrence) (name : ColumnName)
    (column : ColumnId) (bare : Bytes) : Prop where
  named : name = .named bare
  table : ∃ relid, column.rte = .outer relid
  home : ∃ above FROM, printout.path = above ++ [FROM] ∧
    ∃ entry ∈ FROM, entry.Defines cat name column
  bareName : o.bareName cat printout.scanrel printout.has_inlined_subplan = some bare

/-- A bare column of the table a SELECT is over. -/
theorem bare_of_table {above : Path} {FROM : List FromEntry}
    (split : printout.path = above ++ [FROM])
    (entries : fromEntries printout.scanrel
      (useAlias printout.scanrel printout.has_inlined_subplan) ⊆ FROM)
    {relid : Nat} {use_alias : Bool}
    (entry : tableEntry relid use_alias ∈ fromEntries printout.scanrel
      (useAlias printout.scanrel printout.has_inlined_subplan)) (column : ColumnId)
    (table : column.rte = .outer relid)
    (bareName : o.bareName cat printout.scanrel printout.has_inlined_subplan =
      some (cat.name column)) :
    Bare cat printout o (.named (cat.name column)) column (cat.name column) :=
  ⟨rfl, ⟨relid, table⟩, ⟨above, FROM, split, _, entries entry, table, rfl⟩, bareName⟩

theorem tableEntry_base {rel : RelOptInfo Expr} (base : rel.IS_JOIN_REL = false)
    (use_alias : Bool) : tableEntry rel.relation_index use_alias ∈ fromEntries rel use_alias := by
  cases rel with
  | base => exact List.mem_singleton_self _
  | join => cases base

/-- A column is printed with an alias of the entry it comes from, or bare in the FROM list
of its SELECT. -/
def Resolves (cat : Catalog) (printout : Printout) (o : Occurrence) (qualifier : Option Alias)
    (name : ColumnName) (column : ColumnId) : Prop :=
  match qualifier with
  | some a => Qualified cat (printout.path ++ o.bodies.map subPlanEntries) a name column
  | none => ∃ bare, Bare cat printout o name column bare

/-- The sign column is that of the table. -/
theorem sign_resolves {above : Path} {FROM : List FromEntry}
    (split : printout.path = above ++ [FROM])
    (entries : fromEntries printout.scanrel
      (useAlias printout.scanrel printout.has_inlined_subplan) ⊆ FROM)
    (leaf : o.leaf = .sign) {path : Path} {qualifier : Option Alias} {name : ColumnName}
    {column : ColumnId}
    (shows : o.sighting cat printout.scanrel printout.has_inlined_subplan printout.path =
      some (.column path qualifier name column)) :
    path = printout.path ++ o.bodies.map subPlanEntries ∧
      Resolves cat printout o qualifier name column := by
  cases scan : printout.scanrel with
  | join => simp [Occurrence.sighting, leaf, scan] at shows
  | base relid dbname relname reltarget remote_conds local_conds =>
      simp only [Occurrence.sighting, leaf, scan, Option.some.injEq,
        Sighting.column.injEq] at shows
      obtain ⟨rfl, rfl, rfl, rfl⟩ := shows
      have base : printout.scanrel.IS_JOIN_REL = false := by rw [scan]; rfl
      have entry := tableEntry_base base
        (useAlias printout.scanrel printout.has_inlined_subplan)
      have index : printout.scanrel.relation_index = relid := by rw [scan]; rfl
      rw [index] at entry
      refine ⟨rfl, _, bare_of_table split entries entry (.sign (.outer relid)) rfl ?_⟩
      simp [Occurrence.bareName, leaf, scan, Catalog.name]

/-- A column of a subplan is one of a table of its body. -/
theorem inner_resolves (sound : printout.Sound) (placed : o.Placed []) {node : Var}
    {info : SubPlanInfo} (leaf : o.leaf = .Var node) (inner : o.subplan = some info) {path : Path}
    {qualifier : Option Alias} {name : ColumnName} {column : ColumnId}
    (shows : o.sighting cat printout.scanrel printout.has_inlined_subplan printout.path =
      some (.column path qualifier name column)) :
    path = printout.path ++ o.bodies.map subPlanEntries ∧
      Resolves cat printout o qualifier name column := by
  simp only [Occurrence.sighting, leaf, inner, Option.some.injEq, Sighting.column.injEq] at shows
  obtain ⟨rfl, rfl, rfl, rfl⟩ := shows
  obtain ⟨body, table⟩ := placed.column node info leaf inner
  have entry : (⟨some (.subplan info.plan_id node.varno),
      .table (.inner info.plan_id node.varno)⟩ : FromEntry) ∈
        (printout.path ++ o.bodies.map subPlanEntries).flatten := by
    rw [List.flatten_append]
    refine List.mem_append_right _ (List.mem_flatten_of_mem (List.mem_map_of_mem body) ?_)
    exact List.mem_map_of_mem table
  exact ⟨rfl, qualified_of_entry sound placed entry rfl ⟨rfl, rfl⟩⟩

/-- A column of the SELECT is one of a subquery, or of a table with or without an alias. -/
theorem outer_resolves (sound : printout.Sound) (placed : o.Placed []) {above : Path}
    {FROM : List FromEntry} (split : printout.path = above ++ [FROM])
    (entries : fromEntries printout.scanrel
      (useAlias printout.scanrel printout.has_inlined_subplan) ⊆ FROM)
    {node : Var} (leaf : o.leaf = .Var node) (outer : o.subplan = none) {path : Path}
    {qualifier : Option Alias} {name : ColumnName} {column : ColumnId}
    (shows : o.sighting cat printout.scanrel printout.has_inlined_subplan printout.path =
      some (.column path qualifier name column)) :
    path = printout.path ++ o.bodies.map subPlanEntries ∧
      Resolves cat printout o qualifier name column := by
  have resolves := resolves_from cat node printout.scanrel
    (useAlias printout.scanrel printout.has_inlined_subplan)
  cases subquery : is_subquery_var node printout.scanrel with
  | some ids =>
      cases ids with
      | none => simp [Occurrence.sighting, leaf, outer, subquery] at shows
      | some ids =>
          simp only [Occurrence.sighting, leaf, outer, subquery, Option.some.injEq,
            Sighting.column.injEq] at shows
          obtain ⟨rfl, rfl, rfl, rfl⟩ := shows
          rw [subquery] at resolves
          obtain ⟨entry, member, qualifier, defines⟩ := resolves
          exact ⟨rfl, qualified_of_entry sound placed
            (mem_path_flatten split (entries member)) qualifier defines⟩
  | none =>
      rw [subquery] at resolves
      by_cases scanned : node.varno ∈ printout.scanrel.relids ∧ node.varlevelsup = 0
      · simp only [Occurrence.sighting, leaf, outer, subquery, if_pos scanned,
          Option.some.injEq, Sighting.column.injEq] at shows
        obtain ⟨rfl, rfl, rfl, rfl⟩ := shows
        have entry := resolves scanned.1
        cases qualify : useAlias printout.scanrel printout.has_inlined_subplan with
        | true =>
            rw [qualify, Bool.or_true] at entry
            have listed : tableEntry node.varno true ∈
                (printout.path ++ o.bodies.map subPlanEntries).flatten :=
              mem_path_flatten split (entries (by rwa [qualify]))
            exact ⟨rfl, qualified_of_entry sound placed listed rfl ⟨rfl, rfl⟩⟩
        | false =>
            refine ⟨rfl, _, bare_of_table split entries entry
              (.column (.outer node.varno) node.varattno) rfl ?_⟩
            simp only [Occurrence.bareName, leaf, outer, qualify]
            exact if_pos ⟨trivial, trivial, scanned⟩
      · simp [Occurrence.sighting, leaf, outer, subquery, scanned] at shows

theorem column_resolves (sound : printout.Sound) (member : o ∈ printout.printed) {path : Path}
    {qualifier : Option Alias} {name : ColumnName} {column : ColumnId}
    (shows : o.sighting cat printout.scanrel printout.has_inlined_subplan printout.path =
      some (.column path qualifier name column)) :
    path = printout.path ++ o.bodies.map subPlanEntries ∧
      Resolves cat printout o qualifier name column := by
  obtain ⟨above, FROM, split, ⟨entry, -, only⟩ | ⟨entries, -, listed⟩⟩ := sound.inside
  · rw [only] at member
    rw [List.mem_singleton.mp member] at shows
    cases shows
  have listed := listed o member
  cases leaf : o.leaf with
  | entry entry => simp [Occurrence.sighting, leaf] at shows
  | Param node => simp [Occurrence.sighting, leaf] at shows
  | sign => exact sign_resolves split entries leaf shows
  | fetched relid attno =>
      simp only [Occurrence.sighting, leaf, Option.some.injEq, Sighting.column.injEq] at shows
      obtain ⟨rfl, rfl, rfl, rfl⟩ := shows
      rcases listed with placed | ⟨base, attno', rfl⟩
      · exact absurd leaf (placed.no_fetched relid attno)
      · cases leaf
        exact ⟨rfl, _, bare_of_table split entries (tableEntry_base base _)
          (.column (.outer printout.scanrel.relation_index) attno) rfl rfl⟩
  | Var node =>
      have placed : o.Placed [] := by
        rcases listed with placed | ⟨-, attno, rfl⟩
        · exact placed
        · cases leaf
      cases inner : o.subplan with
      | some info => exact inner_resolves sound placed leaf inner shows
      | none => exact outer_resolves sound placed split entries leaf inner shows

/-- A bare column shows as such. -/
theorem sighting_of_bareName {scanrel : RelOptInfo Expr} {has_inlined_subplan : Bool}
    {bare : Bytes} (bareName : o.bareName cat scanrel has_inlined_subplan = some bare)
    (path : Path) :
    ∃ column, (∃ relid, column.rte = .outer relid) ∧
      o.sighting cat scanrel has_inlined_subplan path =
        some (.column (path ++ o.bodies.map subPlanEntries) none (.named bare) column) := by
  cases leaf : o.leaf with
  | entry entry => simp [Occurrence.bareName, leaf] at bareName
  | Param node => simp [Occurrence.bareName, leaf] at bareName
  | fetched relid attno =>
      simp only [Occurrence.bareName, leaf, Option.some.injEq] at bareName
      exact ⟨.column (.outer relid) attno, ⟨relid, rfl⟩,
        by simp [Occurrence.sighting, leaf, bareName]⟩
  | sign =>
      cases scanrel with
      | join => simp [Occurrence.bareName, leaf] at bareName
      | base relid dbname relname reltarget remote_conds local_conds =>
          simp only [Occurrence.bareName, leaf, Option.some.injEq] at bareName
          exact ⟨.sign (.outer relid), ⟨relid, rfl⟩,
            by simp [Occurrence.sighting, leaf, bareName]⟩
  | Var node =>
      simp only [Occurrence.bareName, leaf, Option.ite_none_right_eq_some,
        Option.some.injEq] at bareName
      obtain ⟨⟨outer, qualify, scanned⟩, rfl⟩ := bareName
      refine ⟨.column (.outer node.varno) node.varattno, ⟨node.varno, rfl⟩, ?_⟩
      have base := relids_of_not_useAlias qualify
      have subquery : is_subquery_var node scanrel = none := by
        cases scanrel with
        | base => rfl
        | join => cases base
      simp [Occurrence.sighting, leaf, outer, subquery, scanned, qualify]

/-- An entry is printed in the FROM list it belongs to. -/
theorem entry_resolves (sound : printout.Sound) (member : o ∈ printout.printed) {path : Path}
    {entry : FromEntry}
    (shows : o.sighting cat printout.scanrel printout.has_inlined_subplan printout.path =
      some (.entry path entry)) :
    ∃ above FROM, path = above ++ [FROM] ∧ entry ∈ FROM := by
  have leaf : o.leaf = .entry entry ∧ path = printout.path ++ o.bodies.map subPlanEntries := by
    unfold Occurrence.sighting at shows
    grind
  obtain ⟨leaf, rfl⟩ := leaf
  obtain ⟨above, FROM, split, ⟨entry', of, only⟩ | ⟨entries, -, listed⟩⟩ := sound.inside
  · rw [only] at member
    obtain rfl := List.mem_singleton.mp member
    cases leaf
    exact ⟨above, FROM, by rw [split]; exact List.append_nil _, of⟩
  · rcases listed o member with placed | ⟨-, attno, rfl⟩
    · obtain ⟨outer, info, bodies, of⟩ := placed.entry entry leaf
      refine ⟨printout.path ++ outer.map subPlanEntries, subPlanEntries info, ?_, of⟩
      rw [bodies, List.map_append, List.append_assoc]
      rfl
    · cases leaf

theorem Printout.Sound.closed (sound : printout.Sound) : Closed printout.printed := by
  obtain ⟨above, FROM, -, ⟨entry, -, only⟩ | ⟨-, closed, -⟩⟩ := sound.inside
  · rw [only]
    exact Closed.of_no_bodies fun o member => by rw [List.mem_singleton.mp member]
  · exact closed

end

/-! ## Statements -/

/-- Where a column is printed without an alias in the body of a subplan, no table of the body
has a column of that name. -/
def SelectStmt.BareColumnsSafe (cat : Catalog) (stmt : SelectStmt) : Prop :=
  ∀ printout ∈ stmt.printouts, ∀ o ∈ printout.printed, ∀ bare,
    o.bareName cat printout.scanrel printout.has_inlined_subplan = some bare →
      ∀ info ∈ o.bodies, ∀ rtindex ∈ info.fromlist,
        bare ∉ cat.columns (.inner info.plan_id rtindex)

theorem column_mem_sightings {tokens : List Token} {path : Path} {qualifier : Option Alias}
    {name : ColumnName} {column : ColumnId} :
    Sighting.column path qualifier name column ∈ sightings tokens ↔
      Token.column path qualifier name column ∈ tokens := by
  constructor
  · rintro ⟨token, member, same⟩
    cases token with
    | column =>
        obtain ⟨rfl, rfl, rfl, rfl⟩ := Sighting.column.inj (Option.some.inj same)
        exact member
    | text | placeholder | entry => simp [Token.sighting] at same
  · intro member
    exact ⟨_, member, rfl⟩

theorem entry_mem_sightings {tokens : List Token} {path : Path} {entry : FromEntry} :
    Sighting.entry path entry ∈ sightings tokens ↔ Token.entry path entry ∈ tokens := by
  constructor
  · rintro ⟨token, member, same⟩
    cases token with
    | entry =>
        obtain ⟨rfl, rfl⟩ := Sighting.entry.inj (Option.some.inj same)
        exact member
    | text | placeholder | column => simp [Token.sighting] at same
  · intro member
    exact ⟨_, member, rfl⟩

/-- The FROM lists of bodies hold tables of subplans. -/
theorem not_defines_body {bodies : List SubPlanInfo} {FROM : List FromEntry}
    (member : FROM ∈ bodies.map subPlanEntries) {entry : FromEntry} (of : entry ∈ FROM)
    {bare : Bytes} {column : ColumnId} {relid : Nat} (table : column.rte = .outer relid) :
    ¬ entry.Defines cat (.named bare) column := by
  obtain ⟨info, -, rfl⟩ := List.mem_map.mp member
  obtain ⟨rtindex, -, rfl⟩ := List.mem_map.mp of
  rintro ⟨inner, -⟩
  rw [table] at inner
  cases inner

/-- The body a bare column stands in is further in than its table. -/
theorem mem_inner_of_uncaptured {path : Path} {bodies : List SubPlanInfo} {above inner : Path}
    {home : List FromEntry}
    (split : path ++ bodies.map subPlanEntries = above ++ home :: inner)
    (outer : home ∉ bodies.map subPlanEntries) {info : SubPlanInfo} (member : info ∈ bodies) :
    subPlanEntries info ∈ inner := by
  have body : subPlanEntries info ∈ bodies.map subPlanEntries := List.mem_map_of_mem member
  rcases List.append_eq_append_iff.mp split with ⟨rest, -, tail⟩ | ⟨rest, -, tail⟩
  · exact absurd (tail ▸ List.mem_append_right _ List.mem_cons_self) outer
  · cases rest with
    | nil =>
        rw [List.nil_append] at tail
        exact absurd (tail ▸ List.mem_cons_self) outer
    | cons head rest =>
        obtain ⟨-, rfl⟩ := List.cons.inj tail
        exact List.mem_append_right _ body

/-- A bare column that is not captured is safe. -/
theorem bareColumnsSafe_of_aliasScope {stmt : SelectStmt}
    (scope : AliasScope cat (statementText cat stmt)) : stmt.BareColumnsSafe cat := by
  intro printout of o listed bare bareName info body rtindex table
  obtain ⟨column, ⟨relid, outer⟩, shows⟩ := sighting_of_bareName bareName printout.path
  have sighted : Sighting.column _ none (.named bare) column ∈
      printoutSights cat stmt.printouts := ⟨printout, of, o, listed, shows⟩
  rw [← sightings_statementText] at sighted
  have member := column_mem_sightings.mp sighted
  obtain ⟨above, home, inner, split, ⟨entry, own, defines⟩, free⟩ := scope.bare _ _ _ member
  have notBody : home ∉ o.bodies.map subPlanEntries := fun body =>
    not_defines_body body own outer defines
  exact free _ (mem_inner_of_uncaptured split notBody body) _ (List.mem_map_of_mem table)
    bare rfl

/-- Each column of a text was printed for an occurrence. -/
theorem column_shown {stmt : SelectStmt} (planned : stmt.Planned) {path : Path}
    {qualifier : Option Alias} {name : ColumnName} {column : ColumnId}
    (member : Token.column path qualifier name column ∈ statementText cat stmt) :
    ∃ printout ∈ stmt.printouts, ∃ o ∈ printout.printed,
      path = printout.path ++ o.bodies.map subPlanEntries ∧
        Resolves cat printout o qualifier name column := by
  have sighted := column_mem_sightings.mpr member
  rw [sightings_statementText] at sighted
  obtain ⟨printout, of, o, listed, shows⟩ := sighted
  exact ⟨printout, of, o, listed,
    column_resolves (sound_statement planned printout of) listed shows⟩

/-- The FROM lists around a column are those printed there. -/
theorem entries_around {stmt : SelectStmt} (planned : stmt.Planned) {printout : Printout}
    (of : printout ∈ stmt.printouts) {o : Occurrence} (listed : o ∈ printout.printed)
    {above : Path} {FROM : List FromEntry}
    (initial : above ++ [FROM] <+: printout.path ++ o.bodies.map subPlanEntries)
    (entry : FromEntry) :
    entry ∈ FROM ↔ Token.entry (above ++ [FROM]) entry ∈ statementText cat stmt := by
  have sound := sound_statement planned
  have subset : printout.sights cat ⊆ printoutSights cat stmt.printouts :=
    fun x sighted => ⟨printout, of, sighted⟩
  have complete := complete_bodies subset (sound printout of).closed
    (complete_statement cat stmt printout of) listed
  rw [← entry_mem_sightings, sightings_statementText]
  constructor
  · exact complete above FROM initial entry
  · rintro ⟨printout, of, o, listed, shows⟩
    obtain ⟨above', FROM', split, own⟩ := entry_resolves (sound printout of) listed shows
    obtain ⟨-, same⟩ := List.append_inj' split rfl
    cases same
    exact own

/-- The aliases of a statement are in scope, except that a bare column may be captured. -/
theorem aliasScope_iff (cat : Catalog) (stmt : SelectStmt) (planned : stmt.Planned) :
    AliasScope cat (statementText cat stmt) ↔ stmt.BareColumnsSafe cat := by
  refine ⟨bareColumnsSafe_of_aliasScope, fun safe => ⟨?_, ?_, ?_⟩⟩
  · intro path qualifier name column member above FROM initial entry
    obtain ⟨printout, of, o, listed, rfl, -⟩ := column_shown planned member
    exact entries_around planned of listed initial entry
  · intro path qualifier name column member
    obtain ⟨printout, of, o, listed, rfl, resolves⟩ := column_shown planned member
    exact resolves
  · intro path name column member
    obtain ⟨printout, of, o, listed, rfl, bare, resolves⟩ := column_shown planned member
    obtain ⟨above, home, split, defined⟩ := resolves.home
    refine ⟨above, home, o.bodies.map subPlanEntries, ?_, defined, ?_⟩
    · rw [split, List.append_assoc]
      rfl
    · intro FROM body entry own bare' named
      obtain ⟨info, inside, rfl⟩ := List.mem_map.mp body
      obtain ⟨rtindex, table, rfl⟩ := List.mem_map.mp own
      cases resolves.named.symm.trans named
      exact safe printout of o listed bare resolves.bareName info inside rtindex table

section

/-- A table `t` with a column `a`, and a table `u` with columns `x` and `a`. -/
def exampleCatalog : Catalog where
  deparse_type_name _ _ := ascii "Int32"
  column_name rte attno :=
    match rte, attno with
    | .inner _ _, 1 => ascii "x"
    | _, _ => ascii "a"
  ch_table_sign_field _ := []
  columns
    | .outer _ => [ascii "a"]
    | .inner _ _ => [ascii "x", ascii "a"]

/-- `(SELECT count(*) FROM u WHERE u.x = t.a)`. -/
def correlatedCount : Expr :=
  let column (varno : Nat) : Expr := .Var ⟨varno, 1, 0, 23, -1, 0, []⟩
  .SubPlan ⟨1, .EXPR, [0], [1], false, ⟨false, false⟩⟩ [column 1] []
    [.node [] [] ⟨[], [.text "count(*)"], fun k below => absurd below (Nat.not_lt_zero k)⟩]
    [.node [column 1, .Param ⟨.PARAM_EXEC, 0, 23, -1, 0⟩] []
      ⟨[], [.text "(", .operand 0, .text " = ", .operand 1, .text ")"],
        fun k below => absurd below (Nat.not_lt_zero k)⟩] [] []

/-- `SELECT a FROM t WHERE … ORDER BY …`. -/
def selectA (quals pathkeys : List Expr) : SelectStmt where
  scanrel := .base 1 (ascii "d") (ascii "t") [] [] []
  IS_UPPER_REL := false
  attrs_used := [1]
  tlist := []
  remote_conds := quals
  groupClause := []
  pathkeys := pathkeys
  limitCount := []
  limitOffset := []

/-- `SELECT a FROM d.t r1 WHERE ((SELECT count(*) FROM u q1_1 WHERE (q1_1.x = r1.a)))`. -/
theorem aliasScope_where :
    AliasScope exampleCatalog
      (statementText exampleCatalog (selectA [correlatedCount] [])) := by
  have planned : (selectA [correlatedCount] []).Planned := by
    constructor <;>
      simp [selectA, correlatedCount, treeExprs, relationIndexes, PlannedList, Expr.Planned,
        InBodyList, Expr.InBody]
  refine (aliasScope_iff exampleCatalog _ planned).mpr ?_
  have qualified : ∀ printout ∈ (selectA [correlatedCount] []).printouts,
      ∀ o ∈ printout.printed,
        o.bareName exampleCatalog printout.scanrel printout.has_inlined_subplan = none ∨
          o.bodies = [] := by
    decide
  intro printout of o listed bare bareName info body
  rcases qualified printout of o listed with none | outside
  · rw [none] at bareName
    cases bareName
  · rw [outside] at body
    exact absurd body List.not_mem_nil

/-- `SELECT a FROM d.t ORDER BY (SELECT count(*) FROM u q1_1 WHERE (q1_1.x = a))`, where `a`
is the column of `u`. -/
theorem not_aliasScope_order :
    (selectA [] [correlatedCount]).Planned ∧
      ¬ AliasScope exampleCatalog
        (statementText exampleCatalog (selectA [] [correlatedCount])) := by
  refine ⟨?_, fun scope => ?_⟩
  · constructor <;>
      simp [selectA, correlatedCount, treeExprs, relationIndexes, PlannedList, Expr.Planned,
        InBodyList, Expr.InBody]
  · have safe := bareColumnsSafe_of_aliasScope scope
    let info : SubPlanInfo := ⟨1, .EXPR, [0], [1], false, ⟨false, false⟩⟩
    exact safe _ List.mem_cons_self ⟨.Var ⟨1, 1, 0, 23, -1, 0, []⟩, none, [info]⟩ (by decide)
      (ascii "a") (by decide) info (by decide) 1 (by decide) (by decide)

end

end PgClickhouse.Emit

import PgClickhouse.RelOptInfo

/-!
# The FROM text of a join tree

`deparseFromExprForRel` writes a join as its outer relation, the join keywords, its inner
relation and the ON clause.  The comment above its format strings announces
`((outer relation) <join type> (inner relation) ON (joinclauses))`, but no parenthesis is
emitted, so only joins that lean to the left are read back as they were.

* `read_deparseFromExprForRel_iff`: the text of a join tree is read back as that tree
  exactly when no join has another join as its inner input without a subquery around it.
-/

namespace PgClickhouse

variable {ε : Type}

/-! ## The deparser -/

/-- `deparse.c`: each condition in parentheses, connected with AND. -/
def appendConditions : List ε → List (Token ε)
  | [] => []
  | [e] => [.lparen, .expr e, .rparen]
  | e :: exprs => .lparen :: .expr e :: .rparen :: .AND :: appendConditions exprs

/-- The select list of a subquery. -/
def deparseSubqueryTargetList : List ε → List (Token ε)
  | [] => [.NULL]
  | [e] => [.expr e]
  | e :: exprs => .expr e :: .comma :: deparseSubqueryTargetList exprs

/-- The column aliases of a subquery, up to the closing parenthesis. -/
def columnAliases : List Nat → List (Token ε)
  | [] => [.rparen]
  | [n] => [.column_alias n, .rparen]
  | n :: ns => .column_alias n :: .comma :: columnAliases ns

def chfdw_get_jointype_name : JoinType → List (Token ε)
  | .INNER => [.INNER]
  | .LEFT => [.LEFT]
  | .RIGHT => [.RIGHT]
  | .FULL => [.FULL]
  | .SEMI => [.LEFT, .SEMI]
  | .ANTI => [.LEFT, .ANTI]

/-- The two format strings of a join: `ALL` is not written before SEMI and ANTI. -/
def joinKeywords (jointype : JoinType) : List (Token ε) :=
  if jointype = .SEMI ∨ jointype = .ANTI then
    chfdw_get_jointype_name jointype ++ [Token.JOIN]
  else Token.ALL :: chfdw_get_jointype_name jointype ++ [Token.JOIN]

/-- The ON clause. -/
def onText (joinclauses : List ε) : List (Token ε) :=
  .ON :: .lparen :: (if joinclauses = [] then [.TRUE] else appendConditions joinclauses) ++
    [.rparen]

/-- `deparseFromExpr` appends WHERE only where there are conditions. -/
def whereText (quals : List ε) : List (Token ε) :=
  if quals = [] then [] else .WHERE :: appendConditions quals

section

variable (contain_subplans : ε → Bool)

/-- Whether the statement over `rel` qualifies its columns: several relations, or an
inlined subplan in the conditions. -/
def usesAlias (rel : RelOptInfo ε) : Bool :=
  rel.relids.length > 1 || rel.remote_conds.any contain_subplans

/-- The FROM entry of a relation whose own FROM text is `fromText`. -/
def deparseRangeTblRef (fromText : Bool → List (Token ε)) (rel : RelOptInfo ε)
    (make_subquery : Bool) : List (Token ε) :=
  if make_subquery then
    .lparen :: .SELECT :: deparseSubqueryTargetList rel.reltarget ++
      .FROM :: fromText (usesAlias contain_subplans rel) ++
      whereText rel.remote_conds ++ .rparen :: .subquery_alias rel.relation_index ::
      if rel.reltarget = [] then []
      else .lparen :: columnAliases (List.range' 1 rel.reltarget.length)
  else fromText true

/-- `deparse.c`, for a SELECT, where no relation is to be left out. -/
def deparseFromExprForRel : RelOptInfo ε → Bool → List (Token ε)
  | .base relid dbname relname _ _ _, use_alias =>
      .relation dbname relname :: if use_alias then [.rel_alias relid] else []
  | .join _ _ _ _ jointype joinclauses make_outerrel_subquery make_innerrel_subquery
      outerrel innerrel, _ =>
      deparseRangeTblRef contain_subplans (deparseFromExprForRel outerrel) outerrel
          make_outerrel_subquery ++
        joinKeywords jointype ++
        deparseRangeTblRef contain_subplans (deparseFromExprForRel innerrel) innerrel
          make_innerrel_subquery ++
        onText joinclauses

/-! ## The tree it stands for -/

/-- The FROM entry meant for a relation whose own join tree is `tree`. -/
def rangeTblItem (tree : Bool → FromItem ε) (rel : RelOptInfo ε) (make_subquery : Bool) :
    FromItem ε :=
  if make_subquery then
    .subquery rel.reltarget (tree (usesAlias contain_subplans rel)) rel.remote_conds
      rel.relation_index (List.range' 1 rel.reltarget.length)
  else tree true

/-- The join tree of a relation: its join types, its ON conditions and its inputs. -/
def joinTree : RelOptInfo ε → Bool → FromItem ε
  | .base relid dbname relname _ _ _, use_alias =>
      .table dbname relname (if use_alias then some relid else none)
  | .join _ _ _ _ jointype joinclauses make_outerrel_subquery make_innerrel_subquery
      outerrel innerrel, _ =>
      .join jointype
        (rangeTblItem contain_subplans (joinTree outerrel) outerrel make_outerrel_subquery)
        (rangeTblItem contain_subplans (joinTree innerrel) innerrel make_innerrel_subquery)
        joinclauses

end

/-- No join has another join as its inner input without a subquery around it. -/
def LeftLeaning : RelOptInfo ε → Prop
  | .base .. => True
  | .join _ _ _ _ _ _ _ make_innerrel_subquery outerrel innerrel =>
      (innerrel.IS_JOIN_REL = true → make_innerrel_subquery = true) ∧
        LeftLeaning outerrel ∧ LeftLeaning innerrel

/-! ## Reading the parts back -/

open FromClause

theorem conditions_appendConditions {es : List ε} (some_cond : es ≠ [])
    (ts : List (Token ε)) :
    conditions (appendConditions es ++ .rparen :: ts) = some (es, .rparen :: ts) := by
  induction es with
  | nil => exact absurd rfl some_cond
  | cons e es ih =>
    cases es with
    | nil => rfl
    | cons e' es =>
      have rest := ih (List.cons_ne_nil _ _)
      simp only [appendConditions, List.cons_append] at rest ⊢
      rw [conditions, rest]
      rfl

theorem targets_deparseSubqueryTargetList (es : List ε) (ts : List (Token ε)) :
    targets (deparseSubqueryTargetList es ++ .FROM :: ts) = some (es, .FROM :: ts) := by
  induction es with
  | nil => rfl
  | cons e es ih =>
    cases es with
    | nil => rfl
    | cons e' es =>
      simp only [deparseSubqueryTargetList, List.cons_append] at ih ⊢
      rw [targets, ih]
      rfl

theorem columnNames_columnAliases {ns : List Nat} (some_name : ns ≠ [])
    (ts : List (Token ε)) : columnNames (columnAliases ns ++ ts) = some (ns, ts) := by
  induction ns with
  | nil => exact absurd rfl some_name
  | cons n ns ih =>
    cases ns with
    | nil => rfl
    | cons n' ns =>
      have rest := ih (List.cons_ne_nil _ _)
      simp only [columnAliases, List.cons_append] at rest ⊢
      rw [columnNames, rest]
      rfl

theorem onClause_onText (joinclauses : List ε) (ts : List (Token ε)) :
    onClause (onText joinclauses ++ ts) = some (joinclauses, ts) := by
  cases joinclauses with
  | nil => rfl
  | cons e es =>
    have inside := conditions_appendConditions (List.cons_ne_nil e es) ts
    have text : onText (e :: es) ++ ts =
        .ON :: .lparen :: (appendConditions (e :: es) ++ .rparen :: ts) := by
      simp [onText]
    obtain ⟨after, head⟩ : ∃ after, appendConditions (e :: es) = .lparen :: after := by
      cases es <;> exact ⟨_, rfl⟩
    rw [head] at text inside
    rw [text]
    show (conditions (.lparen :: after ++ .rparen :: ts)).bind _ = _
    rw [inside]
    rfl

theorem whereClause_whereText (quals : List ε) (ts : List (Token ε)) :
    whereClause (whereText quals ++ .rparen :: ts) = some (quals, .rparen :: ts) := by
  cases quals with
  | nil => rfl
  | cons e es => exact conditions_appendConditions (List.cons_ne_nil e es) ts

theorem joinKind_joinKeywords (jointype : JoinType) (ts : List (Token ε)) :
    joinKind (joinKeywords jointype ++ ts) = some (jointype, ts) := by
  cases jointype <;> rfl

/-- What may come after an element: nothing that would still belong to it. -/
def Follows (ts : List (Token ε)) : Prop :=
  ts.head? ≠ some .lparen ∧ ∀ n, ts.head? ≠ some (.rel_alias n)

theorem follows_joinKeywords (jointype : JoinType) (ts : List (Token ε)) :
    Follows (joinKeywords jointype ++ ts) := by
  cases jointype <;> exact ⟨nofun, nofun⟩

theorem follows_onText (joinclauses : List ε) (ts : List (Token ε)) :
    Follows (onText joinclauses ++ ts) :=
  ⟨nofun, nofun⟩

theorem follows_whereText (quals : List ε) (ts : List (Token ε)) :
    Follows (whereText quals ++ .rparen :: ts) := by
  cases quals <;> exact ⟨nofun, nofun⟩

theorem joinKind_whereText (quals : List ε) (ts : List (Token ε)) :
    joinKind (whereText quals ++ .rparen :: ts) = none := by
  cases quals <;> rfl

theorem joins_of_joinKind_none {fuel : Nat} {outer : FromItem ε} {ts : List (Token ε)}
    (fueled : 0 < fuel) (stop : joinKind ts = none) :
    joins fuel outer ts = some (outer, ts) := by
  obtain ⟨fuel, rfl⟩ := Nat.exists_eq_succ_of_ne_zero (Nat.ne_of_gt fueled)
  rw [joins, stop]

/-! ## Reading a tree back -/

section

variable (contain_subplans : ε → Bool)

/-- The number of joins in a text that no subquery encloses and that come one after
another, which is the fuel `joins` has used up after them. -/
def spine : RelOptInfo ε → Nat
  | .base .. => 0
  | .join _ _ _ _ _ _ make_outerrel_subquery _ outerrel _ =>
      (if make_outerrel_subquery then 0 else spine outerrel) + 1

theorem element_base {fuel : Nat} (relid : Nat) (dbname relname : Bytes)
    (reltarget remote_conds local_conds : List ε) (use_alias : Bool) {ts : List (Token ε)}
    (follows : Follows ts) :
    element (fuel + 1) (deparseFromExprForRel contain_subplans
        (.base relid dbname relname reltarget remote_conds local_conds) use_alias ++ ts) =
      some (joinTree contain_subplans
        (.base relid dbname relname reltarget remote_conds local_conds) use_alias, ts) := by
  cases use_alias with
  | true => rfl
  | false =>
    cases ts with
    | nil => rfl
    | cons t ts =>
      obtain ⟨-, no_alias⟩ := follows
      cases t <;> first | rfl | exact absurd rfl (no_alias _)

/-- A subquery is read back if its FROM text is. -/
theorem element_subquery {fuel : Nat} {rel : RelOptInfo ε}
    {fromText : Bool → List (Token ε)} {tree : Bool → FromItem ε} {ts : List (Token ε)}
    (follows : Follows ts)
    (inside : ∀ rest, Follows rest → joinKind rest = none →
      clause fuel (fromText (usesAlias contain_subplans rel) ++ rest) =
        some (tree (usesAlias contain_subplans rel), rest)) :
    element (fuel + 1) (deparseRangeTblRef contain_subplans fromText rel true ++ ts) =
      some (rangeTblItem contain_subplans tree rel true, ts) := by
  have named : subqueryAlias
      (.subquery_alias rel.relation_index ::
        ((if rel.reltarget = [] then []
          else .lparen :: columnAliases (List.range' 1 rel.reltarget.length)) ++ ts)) =
      some ((rel.relation_index, List.range' 1 rel.reltarget.length), ts) := by
    by_cases none : rel.reltarget = []
    · rw [if_pos none, none]
      cases ts with
      | nil => rfl
      | cons t ts =>
        obtain ⟨no_paren, -⟩ := follows
        cases t <;> first | rfl | exact absurd rfl no_paren
    · rw [if_neg none]
      have names : List.range' 1 rel.reltarget.length ≠ [] := by
        simpa [List.range'_eq_nil_iff] using none
      rw [List.cons_append, subqueryAlias, columnNames_columnAliases names]
      rfl
  have body := inside (whereText rel.remote_conds ++ .rparen ::
    .subquery_alias rel.relation_index ::
      ((if rel.reltarget = [] then []
        else .lparen :: columnAliases (List.range' 1 rel.reltarget.length)) ++ ts))
    (follows_whereText _ _) (joinKind_whereText _ _)
  simp only [deparseRangeTblRef, if_true, List.append_assoc, List.cons_append]
  rw [element, targets_deparseSubqueryTargetList]
  rw [clause, Option.bind_eq_some_iff] at body
  obtain ⟨⟨first, rest⟩, read_first, read_joins⟩ := body
  simp only [Option.bind_some, read_first, read_joins, whereClause_whereText, named,
    Option.map_some]
  rfl

theorem spine_lt_length (rel : RelOptInfo ε) (use_alias : Bool) :
    spine rel < (deparseFromExprForRel contain_subplans rel use_alias).length := by
  induction rel generalizing use_alias with
  | base => simp [spine, deparseFromExprForRel]
  | join _ _ _ _ jointype joinclauses make_outer _ outerrel innerrel outer _ =>
    have keywords : 1 ≤ (joinKeywords jointype : List (Token ε)).length := by
      cases jointype <;> simp [joinKeywords, chfdw_get_jointype_name]
    simp only [spine, deparseFromExprForRel, List.length_append]
    cases make_outer with
    | true =>
      have : 1 ≤ (deparseRangeTblRef contain_subplans
          (deparseFromExprForRel contain_subplans outerrel) outerrel true).length := by
        simp [deparseRangeTblRef]
      simp only [if_true]
      omega
    | false =>
      have := outer true
      simp only [deparseRangeTblRef, Bool.false_eq_true, if_false]
      omega

/-- The FROM text of `rel` is read up to its last join, in the order of its joins. -/
def ReadsBack (rel : RelOptInfo ε) : Prop :=
  ∀ (fuel : Nat) (use_alias : Bool) (ts : List (Token ε)), Follows ts →
    (deparseFromExprForRel contain_subplans rel use_alias).length < fuel →
    clause fuel (deparseFromExprForRel contain_subplans rel use_alias ++ ts) =
      joins (fuel - spine rel) (joinTree contain_subplans rel use_alias) ts

variable {contain_subplans}

theorem ReadsBack.subquery {rel : RelOptInfo ε} (reads : ReadsBack contain_subplans rel)
    {fuel : Nat} {ts : List (Token ε)} (follows : Follows ts)
    (fueled : (deparseRangeTblRef contain_subplans
      (deparseFromExprForRel contain_subplans rel) rel true).length < fuel) :
    element fuel (deparseRangeTblRef contain_subplans
        (deparseFromExprForRel contain_subplans rel) rel true ++ ts) =
      some (rangeTblItem contain_subplans (joinTree contain_subplans rel) rel true, ts) := by
  obtain ⟨fuel, rfl⟩ := Nat.exists_eq_succ_of_ne_zero (Nat.ne_zero_of_lt fueled)
  apply element_subquery contain_subplans follows
  intro rest follows stop
  have short := spine_lt_length contain_subplans rel (usesAlias contain_subplans rel)
  simp only [deparseRangeTblRef, if_true, List.length_cons, List.length_append] at fueled
  rw [reads _ _ _ follows (by omega)]
  exact joins_of_joinKind_none (by omega) stop

/-- The outer input of a join is what was read before its keywords. -/
theorem ReadsBack.outer {rel : RelOptInfo ε} (reads : ReadsBack contain_subplans rel)
    {make_subquery : Bool} {fuel : Nat} {ts : List (Token ε)} (follows : Follows ts)
    (fueled : (deparseRangeTblRef contain_subplans
      (deparseFromExprForRel contain_subplans rel) rel make_subquery).length < fuel) :
    clause fuel (deparseRangeTblRef contain_subplans
        (deparseFromExprForRel contain_subplans rel) rel make_subquery ++ ts) =
      joins (fuel - if make_subquery then 0 else spine rel)
        (rangeTblItem contain_subplans (joinTree contain_subplans rel) rel make_subquery)
        ts := by
  cases make_subquery with
  | true =>
    rw [clause, reads.subquery follows fueled]
    rfl
  | false => exact reads _ _ _ follows fueled

/-- The inner input of a join has to be one element. -/
theorem ReadsBack.inner {rel : RelOptInfo ε} (reads : ReadsBack contain_subplans rel)
    {make_subquery : Bool} (wrapped : rel.IS_JOIN_REL = true → make_subquery = true)
    {fuel : Nat} {ts : List (Token ε)} (follows : Follows ts)
    (fueled : (deparseRangeTblRef contain_subplans
      (deparseFromExprForRel contain_subplans rel) rel make_subquery).length < fuel) :
    element fuel (deparseRangeTblRef contain_subplans
        (deparseFromExprForRel contain_subplans rel) rel make_subquery ++ ts) =
      some (rangeTblItem contain_subplans (joinTree contain_subplans rel) rel
        make_subquery, ts) := by
  cases make_subquery with
  | true => exact reads.subquery follows fueled
  | false =>
    cases rel with
    | join => exact absurd (wrapped rfl) Bool.false_ne_true
    | base relid dbname relname reltarget remote_conds local_conds =>
      obtain ⟨fuel, rfl⟩ := Nat.exists_eq_succ_of_ne_zero (Nat.ne_zero_of_lt fueled)
      exact element_base contain_subplans relid dbname relname reltarget remote_conds
        local_conds _ follows

/-- By induction on the tree, one join after the other. -/
theorem readsBack_of_leftLeaning {rel : RelOptInfo ε} (leans : LeftLeaning rel) :
    ReadsBack contain_subplans rel := by
  induction rel with
  | base relid dbname relname reltarget remote_conds local_conds =>
    intro fuel use_alias ts follows fueled
    obtain ⟨fuel, rfl⟩ := Nat.exists_eq_succ_of_ne_zero (Nat.ne_zero_of_lt fueled)
    rw [clause, element_base contain_subplans _ _ _ _ _ _ _ follows]
    rfl
  | join _ _ _ _ jointype joinclauses make_outer make_inner outerrel innerrel outer inner =>
    obtain ⟨wrapped, leans_outer, leans_inner⟩ := leans
    intro fuel use_alias ts follows fueled
    have keywords : 2 ≤ (joinKeywords jointype : List (Token ε)).length := by
      cases jointype <;> simp [joinKeywords, chfdw_get_jointype_name]
    have short : (if make_outer then 0 else spine outerrel) <
        (deparseRangeTblRef contain_subplans
          (deparseFromExprForRel contain_subplans outerrel) outerrel make_outer).length := by
      cases make_outer with
      | true => simp [deparseRangeTblRef]
      | false => exact spine_lt_length contain_subplans outerrel true
    simp only [deparseFromExprForRel, List.length_append, List.append_assoc] at fueled ⊢
    rw [ReadsBack.outer (outer leans_outer) (follows_joinKeywords _ _) (by omega)]
    obtain ⟨left, step⟩ : ∃ left,
        fuel - (if make_outer then 0 else spine outerrel) = left + 1 :=
      Nat.exists_eq_succ_of_ne_zero (by omega)
    have read_inner := @ReadsBack.inner ε contain_subplans _ (inner leans_inner) _ wrapped
      left _ (follows_onText joinclauses ts) (by omega)
    rw [step, joins, joinKind_joinKeywords]
    simp only [read_inner, Option.bind_some, onClause_onText, spine]
    congr 1
    omega

end

/-! ## What can be read at all -/

/-- A join is never read as the inner input of another. -/
theorem leftNested_of_read (fuel : Nat) :
    (∀ {ts rest : List (Token ε)} {item : FromItem ε},
      element fuel ts = some (item, rest) → item.isJoin = false ∧ item.LeftNested) ∧
    (∀ {ts rest : List (Token ε)} {outer item : FromItem ε}, outer.LeftNested →
      joins fuel outer ts = some (item, rest) → item.LeftNested) := by
  induction fuel with
  | zero => exact ⟨fun h => by simp [element] at h, fun _ h => by simp [joins] at h⟩
  | succ fuel ih =>
    obtain ⟨ih_element, ih_joins⟩ := ih
    refine ⟨?_, ?_⟩
    · intro ts rest item read
      unfold element at read
      simp only at read
      split at read
      · obtain ⟨rfl, -⟩ := Prod.mk.inj (Option.some.inj read)
        exact ⟨rfl, trivial⟩
      · obtain ⟨rfl, -⟩ := Prod.mk.inj (Option.some.inj read)
        exact ⟨rfl, trivial⟩
      · obtain ⟨⟨es, after⟩, -, read⟩ := Option.bind_eq_some_iff.mp read
        split at read
        · obtain ⟨⟨first, after⟩, read_first, read⟩ := Option.bind_eq_some_iff.mp read
          obtain ⟨⟨scan, after⟩, read_scan, read⟩ := Option.bind_eq_some_iff.mp read
          have scan_nested := ih_joins (ih_element read_first).2 read_scan
          obtain ⟨⟨quals, after⟩, -, read⟩ := Option.bind_eq_some_iff.mp read
          split at read
          · obtain ⟨⟨⟨n, ns⟩, after⟩, -, made⟩ := Option.map_eq_some_iff.mp read
            obtain ⟨rfl, -⟩ := Prod.mk.inj made
            exact ⟨rfl, scan_nested⟩
          · cases read
        · cases read
      · cases read
    · intro ts rest outer item nested read
      rw [joins] at read
      cases kind : joinKind ts with
      | none =>
        simp only [kind, Option.some.injEq, Prod.mk.injEq] at read
        exact read.1 ▸ nested
      | some found =>
        simp only [kind, Option.bind_eq_some_iff] at read
        obtain ⟨⟨inner, after⟩, read_inner, ⟨joinclauses, left⟩, -, more⟩ := read
        obtain ⟨not_join, inner_nested⟩ := ih_element read_inner
        have here : (FromItem.join found.1 outer inner joinclauses).LeftNested :=
          ⟨not_join, nested, inner_nested⟩
        exact ih_joins here more

theorem isJoin_joinTree (contain_subplans : ε → Bool) (rel : RelOptInfo ε)
    (use_alias : Bool) :
    (joinTree contain_subplans rel use_alias).isJoin = rel.IS_JOIN_REL := by
  cases rel <;> rfl

/-- The grammar's condition on the tree that is meant, in terms of the relation. -/
theorem leftNested_joinTree_iff (contain_subplans : ε → Bool) (rel : RelOptInfo ε)
    (use_alias : Bool) :
    (joinTree contain_subplans rel use_alias).LeftNested ↔ LeftLeaning rel := by
  induction rel generalizing use_alias with
  | base => exact Iff.rfl
  | join _ _ _ _ jointype joinclauses make_outer make_inner outerrel innerrel outer inner =>
    have entry : ∀ (rel : RelOptInfo ε) (make_subquery : Bool),
        (∀ use_alias, (joinTree contain_subplans rel use_alias).LeftNested ↔
          LeftLeaning rel) →
        ((rangeTblItem contain_subplans (joinTree contain_subplans rel) rel
          make_subquery).LeftNested ↔ LeftLeaning rel) := by
      intro rel make_subquery same
      cases make_subquery with
      | true => exact same _
      | false => exact same true
    have inner_join : (rangeTblItem contain_subplans (joinTree contain_subplans innerrel)
        innerrel make_inner).isJoin = false ↔
          (innerrel.IS_JOIN_REL = true → make_inner = true) := by
      cases make_inner with
      | true => simp [rangeTblItem, FromItem.isJoin]
      | false => simp [rangeTblItem, isJoin_joinTree]
    simp only [joinTree, FromItem.LeftNested, LeftLeaning]
    rw [inner_join, entry outerrel make_outer outer, entry innerrel make_inner inner]

/-- The text of a join tree is read back as that tree, with its join types and its ON
conditions, exactly when no join is the inner input of another without a subquery. -/
theorem read_deparseFromExprForRel_iff (contain_subplans : ε → Bool) (rel : RelOptInfo ε)
    (use_alias : Bool) :
    read (deparseFromExprForRel contain_subplans rel use_alias) =
      some (joinTree contain_subplans rel use_alias) ↔ LeftLeaning rel := by
  constructor
  · intro reads
    rw [← leftNested_joinTree_iff contain_subplans rel use_alias]
    unfold FromClause.read at reads
    split at reads
    · next item found =>
      obtain ⟨⟨first, after⟩, read_first, read_joins⟩ := Option.bind_eq_some_iff.mp found
      have nested := (leftNested_of_read _).2 ((leftNested_of_read _).1 read_first).2
        read_joins
      exact Option.some.inj reads ▸ nested
    · cases reads
  · intro leans
    have short := spine_lt_length contain_subplans rel use_alias
    have back : ReadsBack contain_subplans rel := readsBack_of_leftLeaning leans
    have reads := back ((deparseFromExprForRel contain_subplans rel use_alias).length + 1)
      use_alias [] ⟨nofun, nofun⟩ (Nat.lt_succ_self _)
    rw [List.append_nil, joins_of_joinKind_none (by omega) rfl] at reads
    rw [FromClause.read, reads]

/-- `r1 LEFT JOIN (r2 JOIN r3)`: the text has both join keywords before the first ON. -/
theorem read_inner_join :
    ¬ ∀ (contain_subplans : Nat → Bool) (rel : RelOptInfo Nat) (use_alias : Bool),
      read (deparseFromExprForRel contain_subplans rel use_alias) =
        some (joinTree contain_subplans rel use_alias) := by
  intro claim
  have same := claim (fun _ => false)
    (.join 5 [] [] [] .LEFT [1] false false (.base 1 [100] [97] [] [] [])
      (.join 4 [] [] [] .INNER [2] false false (.base 2 [100] [98] [] [] [])
        (.base 3 [100] [99] [] [] []))) true
  exact absurd same (by decide)

end PgClickhouse

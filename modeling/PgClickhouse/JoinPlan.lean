import PgClickhouse.JoinText
import PgClickhouse.Joins
import PgClickhouse.Kleene

/-!
# Where the conditions of a join go

`foreign_join_ok` decides whether a join is pushed down, and where the conditions of the
join and of its inputs are put: into its ON clause (`joinclauses`), into the WHERE clause
(`remote_conds`) or into subqueries around its inputs.

The first half is that decision.  The second half says what the statement emitted for the
join returns on given tables, and what the query it was planned for does.  A subquery
exports the columns of its select list; the deparser fails on a column that is not among
them, so a statement that is emitted reads no other, and a row keeps all its columns here.
-/

namespace PgClickhouse

/-! ## Rows and expressions -/

/-- A value: a truth value or a value of some other type. -/
inductive Datum (V : Type)
  | bool (b : Bool)
  | other (v : V)
  deriving Repr, DecidableEq

/-- The columns of one relation, by attribute number. -/
abbrev Tuple (V : Type) := Nat → Option (Datum V)

/-- The columns of all relations, by range table index; those of a relation that is absent
are NULL. -/
abbrev Row (V : Type) := Nat → Tuple V

structure Var where
  varno : Nat
  varattno : Nat
  deriving Repr, DecidableEq

/-- An expression whose form does not matter: the relations whose columns it refers to, outside
its PlaceHolderVars and within them, and its value, which depends on their columns only. -/
structure Reading (V : Type) where
  vars : List Nat
  placed : List Nat
  eval : Row V → Option (Datum V)
  congr : ∀ r s, (∀ i ∈ vars ++ placed, r i = s i) → eval r = eval s

/-- An expression: a column, the equality of two columns, or anything else. -/
inductive Expr (V : Type)
  | var (v : Var)
  | eq (a b : Var)
  | other (e : Reading V)

section

variable {V : Type} [DecidableEq V]

namespace Row

/-- The row of one relation. -/
def single (relid : Nat) (tuple : Tuple V) : Row V :=
  fun i => if i = relid then tuple else fun _ => none

/-- The row of a join. -/
def merge (r s : Row V) : Row V :=
  fun i a => (r i a).or (s i a)

/-- All columns of relations outside `relids` are NULL. -/
def Within (relids : List Nat) (r : Row V) : Prop :=
  ∀ i, i ∉ relids → r i = fun _ => none

end Row

namespace Expr

/-- The relations of the columns that `pull_var_clause` finds in an expression if it does not
look into PlaceHolderVars. -/
def vars : Expr V → List Nat
  | .var v => [v.varno]
  | .eq a b => [a.varno, b.varno]
  | .other e => e.vars

/-- The relations of the columns within its PlaceHolderVars. -/
def placed : Expr V → List Nat
  | .other e => e.placed
  | _ => []

/-- The relations an expression refers to. -/
def relids (e : Expr V) : List Nat := e.vars ++ e.placed

@[simp] theorem relids_var (v : Var) : (var v : Expr V).relids = [v.varno] := rfl

@[simp] theorem relids_eq (a b : Var) : (eq a b : Expr V).relids = [a.varno, b.varno] := rfl

@[simp] theorem relids_other (e : Reading V) :
    (other e : Expr V).relids = e.vars ++ e.placed := rfl

def eval (row : Row V) : Expr V → Option (Datum V)
  | .var v => row v.varno v.varattno
  | .eq a b =>
      match row a.varno a.varattno, row b.varno b.varattno with
      | some x, some y => some (.bool (x = y))
      | _, _ => none
  | .other e => e.eval row

/-- The value of a condition. -/
def truth (row : Row V) (e : Expr V) : Option Bool :=
  match e.eval row with
  | some (.bool b) => some b
  | _ => none

end Expr

/-- Whether a row passes the conditions, which are connected by AND. -/
def holds (conds : List (Expr V)) (row : Row V) : Bool :=
  Kleene.passes (Kleene.all (conds.map (Expr.truth row)))

/-! ## The decision -/

def is_simple_join_clause : Expr V → Bool
  | .eq _ _ => true
  | _ => false

/-- `fdw.c`: the conditions that stay and those moved to the end of `to_`. -/
def extract_join_equals (conds to_ : List (Expr V)) : List (Expr V) × List (Expr V) :=
  (conds.filter fun e => !is_simple_join_clause e, to_ ++ conds.filter is_simple_join_clause)

/-- A clause of a join.  `is_pushed_down` says that it filters the rows of an outer join
and does not belong to the join itself. -/
structure RestrictInfo (V : Type) where
  clause : Expr V
  is_pushed_down : Bool

def IS_OUTER_JOIN : JoinType → Bool
  | .LEFT | .FULL | .RIGHT | .ANTI => true
  | .INNER | .SEMI => false

/-- The target of a semi or anti join refers to no relation of the inner side, its
PlaceHolderVars apart. -/
def semijoin_target_ok (reltarget : List (Expr V)) (outerrel innerrel : RelOptInfo (Expr V)) :
    Bool :=
  reltarget.all fun e => e.vars.all fun varno =>
    !(innerrel.relids.contains varno && !outerrel.relids.contains varno)

/-- A join of type SEMI or ANTI. -/
def isSemiOrAnti : RelOptInfo (Expr V) → Bool
  | .join _ _ _ _ .SEMI .. | .join _ _ _ _ .ANTI .. => true
  | _ => false

/-- The clauses of `restrictlist` that belong to the join, for an outer join. -/
def ownClauses (jointype : JoinType) (restrictlist : List (RestrictInfo V)) :
    List (Expr V) :=
  (restrictlist.filter fun rinfo => IS_OUTER_JOIN jointype && !rinfo.is_pushed_down).map
    RestrictInfo.clause

/-- The others. -/
def otherClauses (jointype : JoinType) (restrictlist : List (RestrictInfo V)) :
    List (Expr V) :=
  (restrictlist.filter fun rinfo => !(IS_OUTER_JOIN jointype && !rinfo.is_pushed_down)).map
    RestrictInfo.clause

/-- The conditions of the inputs are pulled up where that avoids a subquery: the new
`remote_conds` and `joinclauses` of the join. -/
def pull_conds (jointype : JoinType) (joinclauses remote_conds outer_conds inner_conds :
    List (Expr V)) : List (Expr V) × List (Expr V) :=
  match jointype with
  | .INNER => extract_join_equals (remote_conds ++ inner_conds ++ outer_conds) joinclauses
  | .LEFT => (remote_conds ++ outer_conds, joinclauses ++ inner_conds)
  | .RIGHT => (remote_conds ++ inner_conds, joinclauses ++ outer_conds)
  | .FULL => (remote_conds, joinclauses)
  | .SEMI | .ANTI =>
      extract_join_equals (remote_conds ++ outer_conds) (joinclauses ++ inner_conds)

/-- `fdw.c`.  `shippable` stands for `chfdw_is_foreign_expr`, and `placeholder` says that some
entry of `placeholder_list` has to be evaluated below the join, at some of its relations only. -/
def foreign_join_ok (shippable : Expr V → Bool) (relation_index : Nat)
    (reltarget : List (Expr V)) (placeholder : Bool) (jointype : JoinType)
    (outerrel innerrel : RelOptInfo (Expr V)) (restrictlist : List (RestrictInfo V)) :
    Option (RelOptInfo (Expr V)) :=
  if (jointype = .SEMI ∨ jointype = .ANTI) ∧
      semijoin_target_ok reltarget outerrel innerrel = false then none
  else if isSemiOrAnti outerrel ∨ isSemiOrAnti innerrel then none
  else if outerrel.local_conds ≠ [] ∨ innerrel.local_conds ≠ [] then none
  else if (ownClauses jointype restrictlist).all shippable = false then none
  else if placeholder then none
  else
    let pulled := pull_conds jointype (ownClauses jointype restrictlist)
      ((otherClauses jointype restrictlist).filter shippable)
      outerrel.remote_conds innerrel.remote_conds
    if jointype = .ANTI ∧ (outerrel.IS_JOIN_REL ∨ innerrel.IS_JOIN_REL) then none
    else if (jointype = .SEMI ∨ jointype = .ANTI) ∧
        pulled.2.any is_simple_join_clause = false then none
    else
      some (.join relation_index reltarget pulled.1
        ((otherClauses jointype restrictlist).filter fun e => !shippable e)
        jointype pulled.2
        (jointype == .FULL && !outerrel.remote_conds.isEmpty)
        (jointype == .FULL && !innerrel.remote_conds.isEmpty) outerrel innerrel)

/-! ## What a statement returns -/

/-- The rows of a join in ClickHouse.  A semi join is free in the match it takes. -/
def JoinRows (jointype : JoinType) (joinclauses : List (Expr V))
    (L R out : Multiset (Row V)) : Prop :=
  let on := fun r s => holds joinclauses (Row.merge r s)
  match jointype with
  | .INNER => out = Joins.inner on Row.merge L R
  | .LEFT => out = Joins.left on Row.merge id L R
  | .RIGHT => out = Joins.right on Row.merge id L R
  | .FULL => out = Joins.full on Row.merge id id L R
  | .SEMI => Joins.Semi on Row.merge L R out
  | .ANTI => out = Joins.anti on L R

/-- The rows of a FROM item on the given tables.  In a statement without table aliases the
columns are those of relation `self`. -/
def FromItem.Rows (contents : Bytes → Bytes → Multiset (Tuple V)) :
    Nat → FromItem (Expr V) → Multiset (Row V) → Prop
  | self, .table dbname relname rel_alias, out =>
      out = (contents dbname relname).map (Row.single (rel_alias.getD self))
  | _, .subquery _ scan quals subquery_alias _, out =>
      ∃ rows, scan.Rows contents subquery_alias rows ∧ out = rows.filter (holds quals · = true)
  | self, .join jointype outer inner joinclauses, out =>
      ∃ L R, outer.Rows contents self L ∧ inner.Rows contents self R ∧
        JoinRows jointype joinclauses L R out

/-- What the scan of a relation returns: the statement's rows that pass the conditions kept
local, as the values of the target expressions. -/
def Emitted (contain_subplans : Expr V → Bool)
    (contents : Bytes → Bytes → Multiset (Tuple V)) (rel : RelOptInfo (Expr V))
    (out : Multiset (List (Option (Datum V)))) : Prop :=
  ∃ rows, (joinTree contain_subplans rel (usesAlias contain_subplans rel)).Rows contents
      rel.relation_index rows ∧
    out = ((rows.filter (holds rel.remote_conds · = true)).filter
      (holds rel.local_conds · = true)).map fun row => rel.reltarget.map (Expr.eval row)

/-! ## What the query asks for -/

/-- A join tree as the planner hands it over, with the clauses of each join and the
conditions on each base relation. -/
inductive JoinQuery (V : Type)
  | base (relid : Nat) (dbname relname : Bytes)
      (reltarget remote_conds local_conds : List (Expr V))
  | join (relation_index : Nat) (reltarget : List (Expr V)) (placeholder : Bool)
      (jointype : JoinType) (restrictlist : List (RestrictInfo V))
      (outer inner : JoinQuery V)

namespace JoinQuery

def relids : JoinQuery V → List Nat
  | .base relid .. => [relid]
  | .join _ _ _ _ _ outer inner => outer.relids ++ inner.relids

def reltarget : JoinQuery V → List (Expr V)
  | .base _ _ _ reltarget _ _ => reltarget
  | .join _ reltarget .. => reltarget

/-- The joins of the tree are pushed down one after the other. -/
def plan (shippable : Expr V → Bool) : JoinQuery V → Option (RelOptInfo (Expr V))
  | .base relid dbname relname reltarget remote_conds local_conds =>
      some (.base relid dbname relname reltarget remote_conds local_conds)
  | .join relation_index reltarget placeholder jointype restrictlist outer inner =>
      (outer.plan shippable).bind fun outerrel =>
        (inner.plan shippable).bind fun innerrel =>
          foreign_join_ok shippable relation_index reltarget placeholder jointype
            outerrel innerrel restrictlist

/-- What the planner promises: a condition refers to relations it is evaluated on, the two
sides of a join have no relation in common, and the inner side of a semi join is not visible
above it, not in a PlaceHolderVar either. -/
def WellFormed : JoinQuery V → Prop
  | .base relid _ _ _ remote_conds local_conds =>
      ∀ e ∈ remote_conds ++ local_conds, ∀ i ∈ e.relids, i = relid
  | .join _ reltarget _ jointype restrictlist outer inner =>
      outer.WellFormed ∧ inner.WellFormed ∧ (∀ i ∈ outer.relids, i ∉ inner.relids) ∧
        (∀ rinfo ∈ restrictlist, ∀ i ∈ rinfo.clause.relids, i ∈ outer.relids ++ inner.relids) ∧
        (jointype = .SEMI → ∀ e ∈ reltarget, ∀ i ∈ e.placed, i ∉ inner.relids)

/-- The clauses rows are joined by. -/
def joinquals (jointype : JoinType) (restrictlist : List (RestrictInfo V)) : List (Expr V) :=
  if IS_OUTER_JOIN jointype then ownClauses jointype restrictlist
  else otherClauses jointype restrictlist

/-- The clauses that filter the rows of an outer join. -/
def otherquals (jointype : JoinType) (restrictlist : List (RestrictInfo V)) : List (Expr V) :=
  if IS_OUTER_JOIN jointype then otherClauses jointype restrictlist else []

/-- Join two inputs by `on`. -/
def joined (jointype : JoinType) (on : Row V → Row V → Bool) (L R : Multiset (Row V)) :
    Multiset (Row V) :=
  match jointype with
  | .INNER => Joins.inner on Row.merge L R
  | .LEFT => Joins.left on Row.merge id L R
  | .RIGHT => Joins.right on Row.merge id L R
  | .FULL => Joins.full on Row.merge id id L R
  | .SEMI => Joins.semi on L R
  | .ANTI => Joins.anti on L R

/-- Filter each base relation by its own conditions and join with the clauses of each
join. -/
def rows (contents : Bytes → Bytes → Multiset (Tuple V)) : JoinQuery V → Multiset (Row V)
  | .base relid dbname relname _ remote_conds local_conds =>
      ((contents dbname relname).map (Row.single relid)).filter
        (holds (remote_conds ++ local_conds) · = true)
  | .join _ _ _ jointype restrictlist outer inner =>
      (joined jointype
        (fun r s => holds (joinquals jointype restrictlist) (Row.merge r s))
        (outer.rows contents) (inner.rows contents)).filter
          (holds (otherquals jointype restrictlist) · = true)

/-- The clauses of a join that are checked after a semi or anti join, were it not for
`extract_join_equals`: the pushed-down ones and, at the end, the conditions of the outer
input. -/
def filters (shippable : Expr V → Bool) (jointype : JoinType)
    (restrictlist : List (RestrictInfo V)) (outer_conds : List (Expr V)) : List (Expr V) :=
  (otherClauses jointype restrictlist).filter shippable ++ outer_conds

/-- When moving conditions at a semi or anti join changes nothing.

At a semi join: an outer row with a match for all clauses has no match for the column
equalities alone.

At an anti join: an outer row that passes what is checked after the join satisfies the
equalities that were moved into the ON clause, or has a match for that ON clause. -/
def Placed (shippable : Expr V → Bool) (contents : Bytes → Bytes → Multiset (Tuple V)) :
    JoinQuery V → Prop
  | .join _ _ _ .SEMI restrictlist outer inner =>
      let clauses := otherClauses .SEMI restrictlist
      ∀ r ∈ outer.rows contents,
        (∃ s ∈ inner.rows contents, holds clauses (Row.merge r s) = true) →
        ∀ s ∈ inner.rows contents,
          holds ((clauses.filter shippable).filter is_simple_join_clause)
            (Row.merge r s) = true →
          holds clauses (Row.merge r s) = true
  | .join _ _ _ .ANTI restrictlist (.base relid dbname relname _ remote_conds _) inner =>
      let conds := filters shippable .ANTI restrictlist remote_conds
      ∀ r ∈ (contents dbname relname).map (Row.single relid),
        holds (conds.filter fun e => !is_simple_join_clause e) r = true →
        holds ((otherClauses .ANTI restrictlist).filter fun e => !shippable e) r = true →
        holds (conds.filter is_simple_join_clause) r = true ∨
          ∃ s ∈ inner.rows contents,
            holds (ownClauses .ANTI restrictlist ++ conds.filter is_simple_join_clause)
              (Row.merge r s) = true
  | _ => True

/-- The values of the target expressions. -/
def result (contents : Bytes → Bytes → Multiset (Tuple V)) (q : JoinQuery V) :
    Multiset (List (Option (Datum V))) :=
  (q.rows contents).map fun row => q.reltarget.map (Expr.eval row)

end JoinQuery

end

end PgClickhouse

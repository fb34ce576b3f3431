import PgClickhouse.FromClause

/-!
# Relations of the planner

A scan is planned over a tree of joins of foreign tables.  A node carries what
`foreign_join_ok` and `clickhouseGetForeignRelSize` left in its `fdw_private` for the
deparser: the conditions, the join type, and which inputs are to be deparsed as subqueries.
-/

namespace PgClickhouse

/-- A base relation or a join of two, with expressions of type `ε`. -/
inductive RelOptInfo (ε : Type)
  | base (relid : Nat) (dbname relname : Bytes) (reltarget remote_conds local_conds : List ε)
  | join (relation_index : Nat) (reltarget remote_conds local_conds : List ε)
      (jointype : JoinType) (joinclauses : List ε)
      (make_outerrel_subquery make_innerrel_subquery : Bool)
      (outerrel innerrel : RelOptInfo ε)
  deriving Repr, DecidableEq

namespace RelOptInfo

variable {ε : Type}

def IS_JOIN_REL : RelOptInfo ε → Bool
  | .join .. => true
  | .base .. => false

def relids : RelOptInfo ε → List Nat
  | .base relid .. => [relid]
  | .join _ _ _ _ _ _ _ _ outerrel innerrel => outerrel.relids ++ innerrel.relids

/-- A base relation's index is its `relid`. -/
def relation_index : RelOptInfo ε → Nat
  | .base relid .. => relid
  | .join relation_index .. => relation_index

def reltarget : RelOptInfo ε → List ε
  | .base _ _ _ reltarget _ _ => reltarget
  | .join _ reltarget .. => reltarget

def remote_conds : RelOptInfo ε → List ε
  | .base _ _ _ _ remote_conds _ => remote_conds
  | .join _ _ remote_conds .. => remote_conds

/-- The conditions that are checked after the rows are fetched. -/
def local_conds : RelOptInfo ε → List ε
  | .base _ _ _ _ _ local_conds => local_conds
  | .join _ _ _ local_conds .. => local_conds

section

variable (relation_index : Nat) (targets remote local_ : List ε) (jointype : JoinType)
  (joinclauses : List ε) (make_outer make_inner : Bool) (outerrel innerrel : RelOptInfo ε)

@[simp] theorem reltarget_join :
    (join relation_index targets remote local_ jointype joinclauses make_outer make_inner
      outerrel innerrel).reltarget = targets := rfl

@[simp] theorem remote_conds_join :
    (join relation_index targets remote local_ jointype joinclauses make_outer make_inner
      outerrel innerrel).remote_conds = remote := rfl

@[simp] theorem local_conds_join :
    (join relation_index targets remote local_ jointype joinclauses make_outer make_inner
      outerrel innerrel).local_conds = local_ := rfl

end

theorem relids_length_pos (rel : RelOptInfo ε) : 0 < rel.relids.length := by
  induction rel with
  | base => exact Nat.one_pos
  | join _ _ _ _ _ _ _ _ outerrel innerrel outer _ =>
    rw [relids, List.length_append]
    omega

end RelOptInfo

end PgClickhouse

import PgClickhouse.KeptRows
import PgClickhouse.UpperAssembly

/-!
# Planning the limit

After the sort comes LIMIT.  `add_foreign_final_paths` takes it into the statement if nothing
is left to check locally; the sort is then printed from the target of the relation below.
The option WITH TIES is not looked at, and a limit that is NULL is printed as it is.

Main facts:

* `no_local_conds` : nothing is checked locally on the rows of an accepted path
* `sorted_final` : the statement sorts by the keys of the query
* `limitPreserved_iff` : the rows of the statement are those PostgreSQL's Limit node returns
  over the same rows exactly if neither number is NULL and no tie is cut
-/

namespace PgClickhouse

open KeptRows

inductive LimitOption
  | COUNT
  | WITH_TIES
  deriving Repr, DecidableEq

/-- A query with its limit, of expressions of type `ε`.  `scan_reltarget` is the target of
the scan with its sort references. -/
structure FinalQuery (V ε : Type) where
  root : PlannerInfo V
  CMD_SELECT : Bool
  limit_needed : Bool
  limitOption : LimitOption
  limitCount : Option ε
  limitOffset : Option ε
  scan_reltarget : PathTarget V
  final_target : List (UpperExpr V)

/-- The path for the final stage, over the relation below the sort. -/
structure FinalPath (V : Type) where
  input_rel : StageRel V
  has_final_sort : Bool

/-- A statement with its LIMIT and OFFSET. -/
structure LimitStmt (V ε : Type) where
  select : SelectStmt V
  limitCount : Option ε
  limitOffset : Option ε

namespace FinalQuery

section

variable {V ε : Type} [DecidableEq V] (query : FinalQuery V ε)
  (chfdw_is_foreign_expr : StageRel V → Bool → UpperExpr V → Bool)
  (is_foreign_limit : StageRel V → ε → Bool)

/-- An ordered relation is replaced by its input.  A number that is absent is safe to ship. -/
def add_foreign_final_paths (input_rel : StageRel V) : Option (FinalPath V) :=
  if !query.CMD_SELECT then none
  else if !query.limit_needed then none
  else if query.root.hasTargetSRFs then none
  else
    let (input_rel, has_final_sort) :=
      match input_rel with
      | .upper .ORDERED _ _ _ outerrel => (outerrel, true)
      | rel => (rel, false)
    if input_rel.has_local_conds then none
    else if !query.limitOffset.all (is_foreign_limit input_rel) ||
        !query.limitCount.all (is_foreign_limit input_rel) then none
    else some ⟨input_rel, has_final_sort⟩

/-- The path for the final stage, where all stages before it are pushed down.  The rows of
DISTINCT come from no foreign relation. -/
def final_path : Option (FinalPath V) :=
  if query.root.hasDistinct then none
  else
    (query.root.pushdown chfdw_is_foreign_expr query.root.stages).bind
      (query.add_foreign_final_paths is_foreign_limit)

/-- `chfdw_deparse_select_stmt_for_rel` with `has_final_sort`: the keys of the sort are looked
up in the target of the relation, also for a scan. -/
def finalSelect (contain_subplans : Expr V → Bool) (contain_upper_subplans : UpperExpr V → Bool)
    (pathkeys : List (PathKey V)) : StageRel V → Option (SelectStmt V)
  | .scan rel =>
      (query.root.chfdw_deparse_select_stmt_for_rel contain_subplans contain_upper_subplans []
        (.scan rel)).bind fun select =>
          (pathkeys.mapM fun pathkey : PathKey V =>
              (query.root.chfdw_find_em_expr_for_input_target pathkey.ec_members
                query.scan_reltarget).map (PlannerInfo.sortKey pathkey)).map fun order_by =>
            { select with order_by }
  | rel =>
      query.root.chfdw_deparse_select_stmt_for_rel contain_subplans contain_upper_subplans
        pathkeys rel

/-- The statement with `has_limit`; the limit is printed as the query has it. -/
def finalStatement (contain_subplans : Expr V → Bool)
    (contain_upper_subplans : UpperExpr V → Bool) (path : FinalPath V) : Option (LimitStmt V ε) :=
  (query.finalSelect contain_subplans contain_upper_subplans
    (if path.has_final_sort then query.root.sort_pathkeys else []) path.input_rel).map
      fun select => ⟨select, query.limitCount, query.limitOffset⟩

end

end FinalQuery

/-! ## Applying a limit -/

section

variable {α : Type} (tie : α → α → Bool)

/-- `recompute_limits`: NULL is no bound, and a negative number raises, which is `none`. -/
def recompute_limit : Option (Option Int) → Option (Option Nat)
  | none => some none
  | some none => some none
  | some (some n) => if n < 0 then none else some (some n.toNat)

/-- PostgreSQL's Limit node.  A number may be absent or NULL. -/
def LimitNode (option : LimitOption) (count offset : Option (Option Int)) (rows : List α) :
    Option (List α) :=
  (recompute_limit offset).bind fun offset =>
    (recompute_limit count).map fun count =>
      kept (offset.getD 0) count rows ++
        match option with
        | .COUNT => []
        | .WITH_TIES => tied tie (offset.getD 0) count rows

/-- ClickHouse takes no NULL. -/
def limitNumber : Option (Option Int) → Option (Option Nat)
  | none => some none
  | some none => none
  | some (some n) => some (some n.toNat)

/-- For PostgreSQL a negative number is an error. -/
def Negative (number : Option (Option Int)) : Prop :=
  ∃ n < 0, number = some (some n)

instance : DecidablePred Negative
  | none => isFalse nofun
  | some none => isFalse nofun
  | some (some n) =>
      decidable_of_iff (n < 0) ⟨fun below => ⟨n, below, rfl⟩, fun ⟨_, below, same⟩ => by
        cases same
        exact below⟩

/-- What ClickHouse makes of a count and an offset of which one is negative; `none` is an
error. -/
abbrev NegativeLimit (α : Type) :=
  (count offset : Option (Option Int)) → List α → Option (List α)

/-- `LIMIT count OFFSET offset`. -/
def LimitClause (negative : NegativeLimit α) (count offset : Option (Option Int))
    (rows : List α) : Option (List α) :=
  if Negative count ∨ Negative offset then negative count offset rows
  else
    (limitNumber offset).bind fun offset =>
      (limitNumber count).map fun count => kept (offset.getD 0) count rows

/-- The number a clause gives, if it gives one. -/
def given (number : Option (Option Int)) : Option Nat :=
  (number.bind id).map Int.toNat

/-- The condition: the numbers are not NULL, and no tie is cut; a negative number is an error for
ClickHouse too. -/
def LimitFits (negative : NegativeLimit α) (option : LimitOption)
    (count offset : Option (Option Int)) (rows : List α) : Prop :=
  if Negative count ∨ Negative offset then negative count offset rows = none
  else
    count ≠ some none ∧ offset ≠ some none ∧
      ¬(option = .WITH_TIES ∧
        CutsTie tie ((given offset).getD 0) (given count) rows)

theorem recompute_limit_eq {number : Option (Option Int)} (natural : ¬Negative number) :
    recompute_limit number = some (given number) := by
  unfold recompute_limit given
  rcases number with _ | _ | n
  · rfl
  · rfl
  · exact if_neg fun negative => natural ⟨n, negative, rfl⟩

theorem limitNumber_eq {number : Option (Option Int)} (value : number ≠ some none) :
    limitNumber number = some (given number) := by
  rcases number with _ | _ | n
  · rfl
  · exact absurd rfl value
  · rfl

end

section

variable {α β : Type} {tie : α → α → Bool} {negative : NegativeLimit α} {option : LimitOption}
  {count offset : Option (Option Int)} {rows : List α}

/-- The Limit node returns rows. -/
theorem limitNode_eq (countOk : ¬Negative count) (offsetOk : ¬Negative offset) :
    LimitNode tie option count offset rows =
      some (kept ((given offset).getD 0) (given count) rows ++
        match option with
        | .COUNT => []
        | .WITH_TIES => tied tie ((given offset).getD 0) (given count) rows) := by
  unfold LimitNode
  rw [recompute_limit_eq offsetOk, recompute_limit_eq countOk]
  rfl

theorem limitClause_eq (countOk : ¬Negative count) (offsetOk : ¬Negative offset)
    (counted : count ≠ some none) (skipped : offset ≠ some none) :
    LimitClause negative count offset rows =
      some (kept ((given offset).getD 0) (given count) rows) := by
  unfold LimitClause
  rw [if_neg (not_or.mpr ⟨countOk, offsetOk⟩), limitNumber_eq counted, limitNumber_eq skipped]
  rfl

theorem limitClause_null (countOk : ¬Negative count) (offsetOk : ¬Negative offset)
    (null : count = some none ∨ offset = some none) :
    LimitClause negative count offset rows = none := by
  unfold LimitClause
  rw [if_neg (not_or.mpr ⟨countOk, offsetOk⟩)]
  rcases null with rfl | rfl
  · exact Option.bind_eq_none_iff.mpr fun _ _ => rfl
  · rfl

theorem limitNode_negative (below : Negative count ∨ Negative offset) :
    LimitNode tie option count offset rows = none := by
  have raised : ∀ number, Negative number → recompute_limit number = none := by
    rintro _ ⟨n, below, rfl⟩
    exact if_pos below
  unfold LimitNode
  rcases below with below | below
  · rw [raised _ below]
    exact Option.bind_eq_none_iff.mpr fun _ _ => rfl
  · rw [raised _ below]
    rfl

/-- After the rows are projected. -/
theorem limitClause_eq_limitNode_iff (f : α → β) :
    (LimitClause negative count offset rows).map (List.map f) =
        (LimitNode tie option count offset rows).map (List.map f) ↔
      LimitFits tie negative option count offset rows := by
  unfold LimitFits
  by_cases below : Negative count ∨ Negative offset
  · rw [if_pos below, limitNode_negative below, LimitClause, if_pos below, Option.map_none,
      Option.map_eq_none_iff]
  rw [if_neg below]
  rw [not_or] at below
  rw [limitNode_eq below.1 below.2]
  by_cases null : count = some none ∨ offset = some none
  · rw [limitClause_null below.1 below.2 null]
    refine iff_of_false nofun fun fits => ?_
    rcases null with null | null
    · exact fits.1 null
    · exact fits.2.1 null
  rw [not_or] at null
  rw [limitClause_eq below.1 below.2 null.1 null.2]
  rw [Option.map_some, Option.map_some, Option.some_inj, List.map_append,
    List.self_eq_append_right, List.map_eq_nil_iff, ← and_assoc, and_iff_right null]
  cases option with
  | COUNT => exact iff_of_true rfl fun ties => nomatch ties.1
  | WITH_TIES =>
      refine tied_eq_nil_iff.trans (not_congr ?_)
      exact (and_iff_right rfl).symm

end

/-! ## The limit of a statement -/

section

variable {V ε : Type} [DecidableEq V] (F : Functions V)

/-- Two rows tie if they are equal in all sort keys. -/
def ties (keys : List (SortKey V)) (a b : Columns V) : Bool :=
  keys.all fun key => key.compare F a b == .eq

namespace FinalQuery

variable (query : FinalQuery V ε) (value : ε → Option Int)
  (negative : NegativeLimit (Columns V)) (path : FinalPath V) (stmt : LimitStmt V ε)
  (rows : List (Columns V))

/-- The row of the final target. -/
def project (cols : Columns V) : List (Value V) :=
  query.final_target.map (UpperExpr.eval F (stmt.select.received F cols))

/-- Whether a row passes the conditions that are left to check. -/
def passes (cols : Columns V) : Bool :=
  path.input_rel.passesLocal F (stmt.select.received F cols)

/-- The foreign scan of the statement with its limit; `rows` are those without. -/
def remoteRows : Option (List (List (Value V))) :=
  (LimitClause negative (stmt.limitCount.map value) (stmt.limitOffset.map value) rows).map
    fun rows => (rows.filter (passes F path stmt)).map (query.project F stmt)

/-- The Limit node over the foreign scan of the statement without its limit. -/
def limitRows : Option (List (List (Value V))) :=
  (LimitNode (ties F stmt.select.order_by) query.limitOption (query.limitCount.map value)
    (query.limitOffset.map value) (rows.filter (passes F path stmt))).map
      (List.map (query.project F stmt))

/-- The rows come in the order of the query, and the statement returns of them what the Limit
node does. -/
structure LimitPreserved : Prop where
  sorted : query.root.sortClause ≠ [] → query.root.Sorted F rows
  same : query.remoteRows F value negative path stmt rows =
    query.limitRows F value path stmt rows

variable {F query value negative path stmt rows}
variable {chfdw_is_foreign_expr : StageRel V → Bool → UpperExpr V → Bool}
  {is_foreign_limit : StageRel V → ε → Bool}
  {contain_subplans : Expr V → Bool} {contain_upper_subplans : UpperExpr V → Bool}

theorem of_final_path
    (accepted : query.final_path chfdw_is_foreign_expr is_foreign_limit = some path) :
    query.root.hasDistinct = false ∧ path.input_rel.has_local_conds = false ∧
      ∃ rel, query.root.pushdown chfdw_is_foreign_expr query.root.stages = some rel ∧
        (∀ tlist remote_conds local_conds input_rel,
          rel = .upper .ORDERED tlist remote_conds local_conds input_rel →
            path = ⟨input_rel, true⟩) := by
  unfold final_path at accepted
  split at accepted
  · cases accepted
  rename_i distinct
  obtain ⟨rel, pushed, accepted⟩ := Option.bind_eq_some_iff.mp accepted
  unfold add_foreign_final_paths at accepted
  simp only [Option.ite_none_left_eq_some] at accepted
  obtain ⟨-, -, -, local_, -, accepted⟩ := accepted
  refine ⟨Bool.eq_false_iff.mpr distinct, ?_, rel, pushed, ?_⟩
  · rw [← Option.some.inj accepted]
    exact Bool.eq_false_iff.mpr local_
  · rintro tlist remote_conds local_conds input_rel rfl
    exact (Option.some.inj accepted).symm

theorem passesLocal_of_no_local {rel : StageRel V} (none : rel.has_local_conds = false)
    (cols : Columns V) : rel.passesLocal F cols = true := by
  cases rel with
  | scan rel =>
      change holds rel.local_conds cols.row = true
      rw [PlannerInfo.no_local_of_scan none]
      rfl
  | upper stage tlist remote_conds local_conds outerrel =>
      have empty : local_conds = [] := by
        simpa [StageRel.has_local_conds] using none
      rw [empty]
      rfl

/-- Nothing is left to check on the rows of an accepted path. -/
theorem no_local_conds
    (accepted : query.final_path chfdw_is_foreign_expr is_foreign_limit = some path)
    (stmt : LimitStmt V ε) (rows : List (Columns V)) :
    rows.filter (passes F path stmt) = rows :=
  List.filter_eq_self.mpr fun _ _ => passesLocal_of_no_local (of_final_path accepted).2.1 _

/-- A statement with the final sort sorts by the keys of the query. -/
theorem keys_of_finalSelect {pathkeys : List (PathKey V)} {rel : StageRel V} {select : SelectStmt V}
    (emitted : query.finalSelect contain_subplans contain_upper_subplans pathkeys rel =
      some select) : List.Forall₂ SortKey.Of pathkeys select.order_by := by
  unfold finalSelect at emitted
  cases rel with
  | scan rel =>
      obtain ⟨plain, -, emitted⟩ := Option.bind_eq_some_iff.mp emitted
      obtain ⟨order_by, keys, rfl⟩ := Option.map_eq_some_iff.mp emitted
      exact (of_sortKeys keys fun _ _ found => (PlannerInfo.em_of_input_target found).1).1
  | upper stage tlist remote_conds local_conds outerrel =>
      cases outerrel with
      | upper => cases emitted
      | scan rel => exact (PlannerInfo.of_deparse_upper emitted).1.keys

/-- The statement returns its rows in the order of the query. -/
theorem sorted_final {contents : Bytes → Bytes → Multiset (Tuple V)}
    (accepted : query.final_path chfdw_is_foreign_expr is_foreign_limit = some path)
    (emitted : query.finalStatement contain_subplans contain_upper_subplans path = some stmt)
    (returned : stmt.select.Rows F contents rows) (orders : query.root.sortClause ≠ []) :
    query.root.Sorted F rows := by
  obtain ⟨distinct, -, rel, pushed, path_of⟩ := of_final_path accepted
  obtain ⟨before, stages⟩ : ∃ before, query.root.stages = before ++ [.ORDERED] := by
    unfold PlannerInfo.stages
    have sorts : (query.root.sortClause.isEmpty || query.root.hasDistinct) = false := by
      rw [distinct, Bool.or_false]
      exact List.isEmpty_eq_false_iff.mpr orders
    rw [sorts]
    exact ⟨_, rfl⟩
  rw [stages] at pushed
  obtain ⟨input_rel, -, last⟩ := PlannerInfo.pushdown_append before pushed
  obtain ⟨rfl, -⟩ := PlannerInfo.of_ordered_ok last
  have path_eq := path_of _ _ _ _ rfl
  subst path_eq
  unfold finalStatement at emitted
  obtain ⟨select, selected, rfl⟩ := Option.map_eq_some_iff.mp emitted
  obtain ⟨-, -, -, ordered⟩ := returned
  exact ⟨select.order_by, keys_of_finalSelect selected, ordered⟩

/-- The rows of an accepted statement are those of the Limit node exactly if no number is
NULL and no tie is cut, or a negative number is an error for ClickHouse too. -/
theorem limitPreserved_iff {contents : Bytes → Bytes → Multiset (Tuple V)}
    (accepted : query.final_path chfdw_is_foreign_expr is_foreign_limit = some path)
    (emitted : query.finalStatement contain_subplans contain_upper_subplans path = some stmt)
    (returned : stmt.select.Rows F contents rows) :
    query.LimitPreserved F value negative path stmt rows ↔
      LimitFits (ties F stmt.select.order_by) negative query.limitOption
        (query.limitCount.map value) (query.limitOffset.map value) rows := by
  have clauses : stmt.limitCount = query.limitCount ∧ stmt.limitOffset = query.limitOffset := by
    unfold finalStatement at emitted
    obtain ⟨select, -, rfl⟩ := Option.map_eq_some_iff.mp emitted
    exact ⟨rfl, rfl⟩
  have same : query.remoteRows F value negative path stmt rows =
        query.limitRows F value path stmt rows ↔
      LimitFits (ties F stmt.select.order_by) negative query.limitOption
        (query.limitCount.map value) (query.limitOffset.map value) rows := by
    unfold remoteRows limitRows
    rw [no_local_conds accepted, clauses.1, clauses.2]
    simp only [no_local_conds accepted]
    exact limitClause_eq_limitNode_iff _
  refine ⟨fun preserved => same.mp preserved.same, fun fits => ⟨?_, same.mpr fits⟩⟩
  exact sorted_final accepted emitted returned

end FinalQuery

end

/-- Values are numbers. -/
def numbersOnly : Functions Nat :=
  { countOnly with
    compare := fun
      | .other a, .other b => compare a b
      | _, _ => .eq }

/-- `SELECT c FROM t ORDER BY c OFFSET offset FETCH FIRST 1 ROW WITH TIES` -/
def firstWithTies (offset : Option (Option Int)) : FinalQuery Nat (Option Int) where
  root :=
    { scanOnly with
      scan_target := [.node (.var ⟨1, 1⟩) []]
      sortClause := [1]
      sort_pathkeys := [⟨[.node (.var ⟨1, 1⟩) []], false, true, false⟩] }
  CMD_SELECT := true
  limit_needed := true
  limitOption := .WITH_TIES
  limitCount := some (some 1)
  limitOffset := offset
  scan_reltarget := [(.node (.var ⟨1, 1⟩) [], 1)]
  final_target := [.node (.var ⟨1, 1⟩) []]

/-- The path and the statement of `firstWithTies`, and the rows of a table that holds two
numbers. -/
def firstPath : FinalPath Nat := ⟨.scan scanOnly.scan, true⟩

def firstStmt (offset : Option (Option Int)) : LimitStmt Nat (Option Int) where
  select :=
    { targets := none
      scan := .table [] [116] none
      self := 1
      quals := []
      group_by := []
      having := []
      order_by := [⟨.node (.var ⟨1, 1⟩) [], true, false⟩] }
  limitCount := some (some 1)
  limitOffset := offset

def numberRow (n : Nat) : Columns Nat :=
  Columns.ofRow (Row.single 1 fun _ => some (.other n))

theorem firstWithTies_accepted (offset : Option (Option Int)) :
    (firstWithTies offset).final_path (fun _ _ _ => true) (fun _ _ => true) = some firstPath := by
  cases offset <;> rfl

theorem firstWithTies_emitted (offset : Option (Option Int)) :
    (firstWithTies offset).finalStatement (fun _ => false) (fun _ => false) firstPath =
      some (firstStmt offset) := rfl

theorem compare_numberRow (a b : Nat) :
    SortKey.compare numbersOnly ⟨.node (.var ⟨1, 1⟩) [], true, false⟩
      (numberRow a) (numberRow b) = compare a b := rfl

/-- A table with two numbers. -/
def twoNumbers (a b : Nat) : Bytes → Bytes → Multiset (Tuple Nat) :=
  fun _ _ => {fun _ => some (.other a), fun _ => some (.other b)}

theorem firstStmt_rows (offset : Option (Option Int)) {a b : Nat} (sorted : a ≤ b) :
    (firstStmt offset).select.Rows numbersOnly (twoNumbers a b) [numberRow a, numberRow b] := by
  refine ⟨_, rfl, ?_, List.pairwise_pair.mpr ?_⟩
  · have exprs : (firstStmt offset).select.exprs = [.node (.var ⟨1, 1⟩) []] := rfl
    rw [exprs, windowFuncs_eq_empty (by decide), windowed_empty]
    have no_keys : (firstStmt offset).select.group_by = [] := rfl
    rw [grouped_of_plain no_keys rfl (exprs ▸ by decide)]
    rfl
  · unfold SortKey.Precedes
    simp only [firstStmt, List.foldr_cons, List.foldr_nil, compare_numberRow, Ordering.then_eq]
    exact Nat.not_lt.mpr sorted ∘ Nat.compare_eq_gt.mp

/-- Negative numbers are errors. -/
def refused : NegativeLimit (Columns Nat) := fun _ _ _ => none

/-- The first of two different numbers, with the numbers that tie with it. -/
theorem limitPreserved_first :
    (firstWithTies none).LimitPreserved numbersOnly id refused firstPath (firstStmt none)
      [numberRow 1, numberRow 2] := by
  refine (FinalQuery.limitPreserved_iff (firstWithTies_accepted none) (firstWithTies_emitted none)
    (firstStmt_rows none (by decide))).mpr ⟨by decide, by decide, ?_⟩
  rintro ⟨-, n, a, b, one, -, first, second, same⟩
  cases one
  cases first
  cases second
  revert same
  decide

/-- A row that ties with the first is cut off, and `OFFSET NULL` fails. -/
theorem not_limitPreserved_first :
    (∀ offset, (firstWithTies offset).final_path (fun _ _ _ => true) (fun _ _ => true) =
        some firstPath ∧
      (firstWithTies offset).finalStatement (fun _ => false) (fun _ => false) firstPath =
        some (firstStmt offset)) ∧
    (∃ rows, (firstStmt none).select.Rows numbersOnly (twoNumbers 1 1) rows ∧
      ¬(firstWithTies none).LimitPreserved numbersOnly id refused firstPath (firstStmt none)
        rows) ∧
    ∃ rows, (firstStmt (some none)).select.Rows numbersOnly (twoNumbers 1 2) rows ∧
      ¬(firstWithTies (some none)).LimitPreserved numbersOnly id refused firstPath
        (firstStmt (some none)) rows := by
  refine ⟨fun offset => ⟨firstWithTies_accepted offset, firstWithTies_emitted offset⟩,
    ⟨_, firstStmt_rows none (le_refl 1), fun preserved => ?_⟩,
    ⟨_, firstStmt_rows (some none) (by decide), fun preserved => ?_⟩⟩
  · have cut : (firstWithTies none).remoteRows numbersOnly id refused firstPath (firstStmt none)
        [numberRow 1, numberRow 1] = some [[some (.other 1)]] := rfl
    have both : (firstWithTies none).limitRows numbersOnly id firstPath (firstStmt none)
        [numberRow 1, numberRow 1] = some [[some (.other 1)], [some (.other 1)]] := rfl
    have same := preserved.same
    rw [cut, both] at same
    cases same
  · have same := preserved.same
    cases same

end PgClickhouse

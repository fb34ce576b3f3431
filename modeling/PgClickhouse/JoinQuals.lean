import PgClickhouse.JoinPlan

/-!
# Join conditions and the rows they leave

Conditions are pulled up through inner, left and right joins and fenced off by subqueries
at full joins, and the rows stay the same.  At a semi join the clauses that are not column
equalities are checked after one arbitrary match has been taken, and at an anti join the
column equalities of the outer side are moved into the ON clause, where failing them keeps
a row.  `JoinQuery.Placed` says on which tables that makes no difference.
-/

namespace PgClickhouse

section

variable {V : Type}

/-! ## Rows of a join -/

theorem merge_of_right_null {r s : Row V} {i : Nat} (null : s i = fun _ => none) :
    Row.merge r s i = r i := by
  funext a
  rw [Row.merge, null, Option.or_none]

theorem merge_of_left_null {r s : Row V} {i : Nat} (null : r i = fun _ => none) :
    Row.merge r s i = s i := by
  funext a
  rw [Row.merge, null, Option.none_or]

theorem Row.Within.merge {R S : List Nat} {r s : Row V} (hr : r.Within R) (hs : s.Within S) :
    (Row.merge r s).Within (R ++ S) := by
  intro i hi
  rw [List.mem_append, not_or] at hi
  rw [merge_of_right_null (hs i hi.2), hr i hi.1]

theorem Row.Within.mono {R S : List Nat} {r : Row V} (hr : r.Within R)
    (more : ∀ i ∈ R, i ∈ S) : r.Within S :=
  fun i hi => hr i fun h => hi (more i h)

/-- Two sides of a join: the relations of each, and that they differ. -/
structure Sides (R S : List Nat) (r s : Row V) : Prop where
  left : r.Within R
  right : s.Within S
  apart : ∀ i ∈ R, i ∉ S

/-- Conditions on the relations in `relids`. -/
def On (relids : List Nat) (conds : List (Expr V)) : Prop :=
  ∀ e ∈ conds, ∀ i ∈ e.relids, i ∈ relids

theorem On.append {relids : List Nat} {conds conds' : List (Expr V)} (h : On relids conds)
    (h' : On relids conds') : On relids (conds ++ conds') := by
  intro e he
  rcases List.mem_append.mp he with he | he
  · exact h e he
  · exact h' e he

theorem On.mono {relids relids' : List Nat} {conds : List (Expr V)} (h : On relids conds)
    (more : ∀ i ∈ relids, i ∈ relids') : On relids' conds :=
  fun e he i hi => more i (h e he i hi)

theorem On.filter {relids : List Nat} {conds : List (Expr V)} (h : On relids conds)
    (test : Expr V → Bool) : On relids (conds.filter test) :=
  fun e he => h e (List.mem_of_mem_filter he)

/-! ## What `foreign_join_ok` says -/

/-- The parts of a join that was accepted. -/
structure Accepted (shippable : Expr V → Bool) (reltarget : List (Expr V))
    (jointype : JoinType) (outerrel innerrel : RelOptInfo (Expr V))
    (restrictlist : List (RestrictInfo V)) : Prop where
  target : jointype = .SEMI ∨ jointype = .ANTI →
    semijoin_target_ok reltarget outerrel innerrel = true
  outer_type : isSemiOrAnti outerrel = false
  inner_type : isSemiOrAnti innerrel = false
  outer_local : outerrel.local_conds = []
  inner_local : innerrel.local_conds = []
  bases : jointype = .ANTI → outerrel.IS_JOIN_REL = false ∧ innerrel.IS_JOIN_REL = false

theorem of_foreign_join_ok {shippable : Expr V → Bool} {relation_index : Nat}
    {reltarget : List (Expr V)} {placeholder : Bool} {jointype : JoinType}
    {outerrel innerrel rel : RelOptInfo (Expr V)} {restrictlist : List (RestrictInfo V)}
    (ok : foreign_join_ok shippable relation_index reltarget placeholder jointype
      outerrel innerrel restrictlist = some rel) :
    Accepted shippable reltarget jointype outerrel innerrel restrictlist ∧
      rel = .join relation_index reltarget
        (pull_conds jointype (ownClauses jointype restrictlist)
          ((otherClauses jointype restrictlist).filter shippable)
          outerrel.remote_conds innerrel.remote_conds).1
        ((otherClauses jointype restrictlist).filter fun e => !shippable e) jointype
        (pull_conds jointype (ownClauses jointype restrictlist)
          ((otherClauses jointype restrictlist).filter shippable)
          outerrel.remote_conds innerrel.remote_conds).2
        (jointype == .FULL && !outerrel.remote_conds.isEmpty)
        (jointype == .FULL && !innerrel.remote_conds.isEmpty) outerrel innerrel := by
  unfold foreign_join_ok at ok
  split at ok
  · cases ok
  next target =>
  split at ok
  · cases ok
  next types =>
  split at ok
  · cases ok
  next locals =>
  split at ok
  · cases ok
  split at ok
  · cases ok
  simp only at ok
  split at ok
  · cases ok
  next bases =>
  split at ok
  · cases ok
  refine ⟨⟨?_, ?_, ?_, ?_, ?_, ?_⟩, (Option.some.inj ok).symm⟩
  · intro type
    by_contra bad
    exact target ⟨type, by simpa using bad⟩
  · simpa using (not_or.mp types).1
  · simpa using (not_or.mp types).2
  · simpa using (not_or.mp locals).1
  · simpa using (not_or.mp locals).2
  · intro type
    simpa [type] using bases

/-- The rows of a join stay within the relations of the two sides. -/
theorem within_joined {R S : List Nat} {L M : Multiset (Row V)}
    (hL : ∀ r ∈ L, r.Within R) (hM : ∀ s ∈ M, s.Within S) (jointype : JoinType)
    (on : Row V → Row V → Bool) :
    ∀ row ∈ JoinQuery.joined jointype on L M, row.Within (R ++ S) := by
  have left : ∀ r ∈ L, r.Within (R ++ S) := fun r hr =>
    (hL r hr).mono fun i => List.mem_append_left S
  have right : ∀ s ∈ M, s.Within (R ++ S) := fun s hs =>
    (hM s hs).mono fun i => List.mem_append_right R
  have pair : ∀ r ∈ L, ∀ s ∈ M, (Row.merge r s).Within (R ++ S) := fun r hr s hs =>
    (hL r hr).merge (hM s hs)
  intro row mem
  cases jointype with
  | INNER =>
    obtain ⟨r, hr, s, hs, rfl⟩ := Joins.mem_inner mem
    exact pair r hr s hs
  | LEFT =>
    rcases Joins.mem_left mem with ⟨r, hr, s, hs, rfl⟩ | ⟨r, hr, rfl⟩
    · exact pair r hr s hs
    · exact left r hr
  | RIGHT =>
    rcases Joins.mem_left mem with ⟨s, hs, r, hr, rfl⟩ | ⟨s, hs, rfl⟩
    · exact pair r hr s hs
    · exact right s hs
  | FULL =>
    rcases Multiset.mem_add.mp mem with mem | mem
    · rcases Joins.mem_left mem with ⟨r, hr, s, hs, rfl⟩ | ⟨r, hr, rfl⟩
      · exact pair r hr s hs
      · exact left r hr
    · obtain ⟨s, hs, rfl⟩ := Multiset.mem_map.mp mem
      exact right s (Multiset.mem_of_mem_filter hs)
  | SEMI => exact left row (Multiset.mem_of_mem_filter mem)
  | ANTI => exact left row (Multiset.mem_of_mem_filter mem)

theorem on_clauses {relids : List Nat} {restrictlist : List (RestrictInfo V)}
    (on : ∀ rinfo ∈ restrictlist, ∀ i ∈ rinfo.clause.relids, i ∈ relids)
    (jointype : JoinType) :
    On relids (ownClauses jointype restrictlist) ∧
      On relids (otherClauses jointype restrictlist) := by
  refine ⟨?_, ?_⟩ <;>
  · intro e he
    obtain ⟨rinfo, mem, rfl⟩ := List.mem_map.mp he
    exact on rinfo (List.mem_of_mem_filter mem)

theorem On.pull_conds {R S : List Nat} {others C_o C_i : List (Expr V)}
    (on : On (R ++ S) others) (on_o : On R C_o) (on_i : On S C_i) (own : List (Expr V))
    (jointype : JoinType) :
    On (R ++ S) (pull_conds jointype own others C_o C_i).1 := by
  have left : On (R ++ S) C_o := on_o.mono fun i => List.mem_append_left S
  have right : On (R ++ S) C_i := on_i.mono fun i => List.mem_append_right R
  cases jointype with
  | INNER => exact ((on.append right).append left).filter _
  | LEFT => exact on.append left
  | RIGHT => exact on.append right
  | FULL => exact on
  | SEMI => exact (on.append left).filter _
  | ANTI => exact (on.append left).filter _

end

section

variable {V : Type} [DecidableEq V]

/-! ## Conditions -/

theorem holds_eq_all (conds : List (Expr V)) (row : Row V) :
    holds conds row = conds.all fun e => Kleene.passes (e.truth row) := by
  rw [holds, Kleene.passes_all, List.all_map]
  rfl

@[simp] theorem holds_nil (row : Row V) : holds [] row = true := rfl

@[simp] theorem holds_append (conds conds' : List (Expr V)) (row : Row V) :
    holds (conds ++ conds') row = (holds conds row && holds conds' row) := by
  simp only [holds_eq_all, List.all_append]

theorem holds_filter_and (test : Expr V → Bool) (conds : List (Expr V)) (row : Row V) :
    (holds (conds.filter test) row && holds (conds.filter fun e => !test e) row) =
      holds conds row := by
  simp only [holds_eq_all, Kleene.all_split]

theorem Expr.eval_congr {e : Expr V} {r s : Row V} (same : ∀ i ∈ e.relids, r i = s i) :
    e.eval r = e.eval s := by
  cases e with
  | var v => rw [eval, eval, same v.varno (by simp)]
  | eq a b =>
    rw [eval, eval, same a.varno (by simp), same b.varno (by simp)]
  | other e => exact e.congr r s same

theorem holds_congr {conds : List (Expr V)} {r s : Row V}
    (same : ∀ e ∈ conds, ∀ i ∈ e.relids, r i = s i) : holds conds r = holds conds s := by
  rw [holds_eq_all, holds_eq_all, Bool.eq_iff_iff, List.all_eq_true, List.all_eq_true]
  refine forall₂_congr fun e he => ?_
  rw [Expr.truth, Expr.truth, Expr.eval_congr (same e he)]

theorem Sides.holds_left {R S : List Nat} {r s : Row V} (sides : Sides R S r s)
    {conds : List (Expr V)} (on : On R conds) :
    holds conds (Row.merge r s) = holds conds r :=
  holds_congr fun e he i hi =>
    merge_of_right_null (sides.right i (sides.apart i (on e he i hi)))

theorem Sides.holds_right {R S : List Nat} {r s : Row V} (sides : Sides R S r s)
    {conds : List (Expr V)} (on : On S conds) :
    holds conds (Row.merge r s) = holds conds s :=
  holds_congr fun e he i hi =>
    merge_of_left_null (sides.left i fun h => sides.apart i h (on e he i hi))

/-! ## Trees without semi and anti joins -/

section

variable (contain_subplans : Expr V → Bool)
  (contents : Bytes → Bytes → Multiset (Tuple V))

/-- The FROM text of `rel` stands for the rows `raw`, and nothing else. -/
def Yields (rel : RelOptInfo (Expr V)) (raw : Multiset (Row V)) : Prop :=
  ∀ self use_alias out, (use_alias = false → self = rel.relation_index) →
    ((joinTree contain_subplans rel use_alias).Rows contents self out ↔ out = raw)

/-- The statement for `rel` returns `rows`: those of `raw` that pass its conditions. -/
structure Scans (rel : RelOptInfo (Expr V)) (raw rows : Multiset (Row V)) : Prop where
  yields : Yields contain_subplans contents rel raw
  within : ∀ row ∈ raw, row.Within rel.relids
  remote : On rel.relids rel.remote_conds
  filtered : (raw.filter (holds rel.remote_conds · = true)).filter
    (holds rel.local_conds · = true) = rows

variable {contain_subplans contents}

theorem Scans.remote_filtered {rel : RelOptInfo (Expr V)} {raw rows : Multiset (Row V)}
    (scans : Scans contain_subplans contents rel raw rows) (none : rel.local_conds = []) :
    raw.filter (holds rel.remote_conds · = true) = rows := by
  have filtered := scans.filtered
  rw [none] at filtered
  simpa using filtered

/-- An input of a join, with or without a subquery around it. -/
theorem Scans.input {rel : RelOptInfo (Expr V)} {raw rows : Multiset (Row V)}
    (scans : Scans contain_subplans contents rel raw rows) (make_subquery : Bool)
    (self : Nat) (out : Multiset (Row V)) :
    (rangeTblItem contain_subplans (joinTree contain_subplans rel) rel make_subquery).Rows
        contents self out ↔
      out = if make_subquery then raw.filter (holds rel.remote_conds · = true) else raw := by
  cases make_subquery with
  | false => exact scans.yields self true out nofun
  | true =>
    have inside := fun rows => scans.yields rel.relation_index
      (usesAlias contain_subplans rel) rows fun _ => rfl
    simp only [rangeTblItem, if_true, FromItem.Rows, inside, exists_eq_left]

/-- A join yields what its inputs yield, joined by its ON clause. -/
theorem yields_join {outerrel innerrel : RelOptInfo (Expr V)}
    {raw_o raw_i rows_o rows_i raw : Multiset (Row V)}
    (outer : Scans contain_subplans contents outerrel raw_o rows_o)
    (inner : Scans contain_subplans contents innerrel raw_i rows_i)
    {relation_index : Nat} {reltarget remote_conds local_conds joinclauses : List (Expr V)}
    {jointype : JoinType} {make_outer make_inner : Bool}
    (joins : ∀ out, JoinRows jointype joinclauses
        (if make_outer then raw_o.filter (holds outerrel.remote_conds · = true) else raw_o)
        (if make_inner then raw_i.filter (holds innerrel.remote_conds · = true) else raw_i)
        out ↔ out = raw) :
    Yields contain_subplans contents
      (.join relation_index reltarget remote_conds local_conds jointype joinclauses
        make_outer make_inner outerrel innerrel) raw := by
  intro self use_alias out _
  simp only [joinTree, FromItem.Rows, outer.input, inner.input, ← joins out]
  refine ⟨fun parts => ?_, fun h => ⟨_, _, rfl, rfl, h⟩⟩
  obtain ⟨L, R, rfl, rfl, h⟩ := parts
  exact h

theorem scans_base (relid : Nat) (dbname relname : Bytes)
    {reltarget remote_conds local_conds : List (Expr V)}
    (own : On [relid] remote_conds) :
    Scans contain_subplans contents
      (.base relid dbname relname reltarget remote_conds local_conds)
      ((contents dbname relname).map (Row.single relid))
      ((JoinQuery.base relid dbname relname reltarget remote_conds local_conds).rows
        contents) := by
  refine ⟨?_, ?_, own, ?_⟩
  · intro self use_alias out same
    cases use_alias with
    | true => exact Iff.rfl
    | false =>
      rw [same rfl]
      exact Iff.rfl
  · intro row mem i hi
    obtain ⟨tuple, -, rfl⟩ := Multiset.mem_map.mp mem
    have : i ≠ relid := by simpa [RelOptInfo.relids] using hi
    simp [Row.single, this]
  · rw [Multiset.filter_filter]
    simp only [RelOptInfo.remote_conds, RelOptInfo.local_conds, JoinQuery.rows,
      holds_append, Bool.and_eq_true, and_comm]

/-! ### The rows of each join type -/

section

variable {R S : List Nat} {raw_o raw_i : Multiset (Row V)} {C_o C_i : List (Expr V)}

theorem inner_rows (sides : ∀ r ∈ raw_o, ∀ s ∈ raw_i, Sides R S r s) (on_o : On R C_o)
    (on_i : On S C_i) (clauses : List (Expr V)) (shippable : Expr V → Bool) :
    ((Joins.inner (fun r s => holds
            (extract_join_equals (clauses.filter shippable ++ C_i ++ C_o) []).2 (Row.merge r s))
          Row.merge raw_o raw_i).filter
        (holds (extract_join_equals (clauses.filter shippable ++ C_i ++ C_o) []).1 · = true)).filter
      (holds (clauses.filter fun e => !shippable e) · = true) =
    Joins.inner (fun r s => holds clauses (Row.merge r s)) Row.merge
      (raw_o.filter (holds C_o · = true)) (raw_i.filter (holds C_i · = true)) := by
  rw [Joins.filter_inner, Joins.filter_inner, Joins.inner_filter]
  refine Joins.inner_congr fun r hr s hs => ?_
  have split := holds_filter_and is_simple_join_clause
    (clauses.filter shippable ++ C_i ++ C_o) (Row.merge r s)
  rw [holds_append, holds_append, (sides r hr s hs).holds_left on_o,
    (sides r hr s hs).holds_right on_i] at split
  simp only [extract_join_equals, List.nil_append]
  rw [split, ← holds_filter_and shippable clauses]
  cases holds C_o r <;> cases holds C_i s <;> simp

theorem filter_holds_nil (rows : Multiset (Row V)) :
    rows.filter (holds [] · = true) = rows :=
  Multiset.filter_eq_self.mpr fun _ _ => rfl

/-- The clauses checked after a join, some remotely and some locally. -/
theorem filter_shippable (rows : Multiset (Row V)) (conds clauses : List (Expr V))
    (shippable : Expr V → Bool) :
    (rows.filter (holds (clauses.filter shippable ++ conds) · = true)).filter
        (holds (clauses.filter fun e => !shippable e) · = true) =
      (rows.filter (holds conds · = true)).filter (holds clauses · = true) := by
  rw [Multiset.filter_filter, Multiset.filter_filter]
  refine Multiset.filter_congr fun row _ => ?_
  rw [← holds_filter_and shippable clauses, holds_append]
  simp only [Bool.and_eq_true]
  exact ⟨fun ⟨l, r, c⟩ => ⟨⟨r, l⟩, c⟩, fun ⟨⟨r, l⟩, c⟩ => ⟨l, r, c⟩⟩

theorem left_rows (sides : ∀ r ∈ raw_o, ∀ s ∈ raw_i, Sides R S r s) (on_o : On R C_o)
    (on_i : On S C_i) (own : List (Expr V)) :
    (Joins.left (fun r s => holds (own ++ C_i) (Row.merge r s)) Row.merge id
        raw_o raw_i).filter (holds C_o · = true) =
      Joins.left (fun r s => holds own (Row.merge r s)) Row.merge id
        (raw_o.filter (holds C_o · = true)) (raw_i.filter (holds C_i · = true)) := by
  have alone : ∀ r ∈ raw_o, holds C_o (id r) = holds C_o r := fun _ _ => rfl
  rw [Joins.left_filter (fun r hr s hs => (sides r hr s hs).holds_left on_o) alone]
  congr 1
  refine Joins.left_congr fun r hr s hs => ?_
  rw [holds_append, (sides r hr s hs).holds_right on_i, Bool.and_comm]

theorem right_rows (sides : ∀ r ∈ raw_o, ∀ s ∈ raw_i, Sides R S r s) (on_o : On R C_o)
    (on_i : On S C_i) (own : List (Expr V)) :
    (Joins.right (fun r s => holds (own ++ C_o) (Row.merge r s)) Row.merge id
        raw_o raw_i).filter (holds C_i · = true) =
      Joins.right (fun r s => holds own (Row.merge r s)) Row.merge id
        (raw_o.filter (holds C_o · = true)) (raw_i.filter (holds C_i · = true)) := by
  have alone : ∀ s ∈ raw_i, holds C_i (id s) = holds C_i s := fun _ _ => rfl
  rw [Joins.right, Joins.right,
    Joins.left_filter (fun s hs r hr => (sides r hr s hs).holds_right on_i) alone]
  congr 1
  refine Joins.left_congr fun s hs r hr => ?_
  rw [holds_append, (sides r hr s hs).holds_left on_o, Bool.and_comm]

end

/-- The step: an inner or outer join of two relations whose statements are right. -/
theorem Scans.join {outerrel innerrel : RelOptInfo (Expr V)}
    {raw_o raw_i rows_o rows_i : Multiset (Row V)}
    (outer : Scans contain_subplans contents outerrel raw_o rows_o)
    (inner : Scans contain_subplans contents innerrel raw_i rows_i)
    (outer_local : outerrel.local_conds = []) (inner_local : innerrel.local_conds = [])
    (apart : ∀ i ∈ outerrel.relids, i ∉ innerrel.relids)
    {restrictlist : List (RestrictInfo V)}
    (on : ∀ rinfo ∈ restrictlist, ∀ i ∈ rinfo.clause.relids,
      i ∈ outerrel.relids ++ innerrel.relids)
    {jointype : JoinType} (plain : jointype ≠ .SEMI ∧ jointype ≠ .ANTI)
    (shippable : Expr V → Bool) (relation_index : Nat) (reltarget : List (Expr V)) :
    ∃ raw, Scans contain_subplans contents
      (.join relation_index reltarget
        (pull_conds jointype (ownClauses jointype restrictlist)
          ((otherClauses jointype restrictlist).filter shippable)
          outerrel.remote_conds innerrel.remote_conds).1
        ((otherClauses jointype restrictlist).filter fun e => !shippable e) jointype
        (pull_conds jointype (ownClauses jointype restrictlist)
          ((otherClauses jointype restrictlist).filter shippable)
          outerrel.remote_conds innerrel.remote_conds).2
        (jointype == .FULL && !outerrel.remote_conds.isEmpty)
        (jointype == .FULL && !innerrel.remote_conds.isEmpty) outerrel innerrel)
      raw
      ((JoinQuery.joined jointype
        (fun r s => holds (JoinQuery.joinquals jointype restrictlist) (Row.merge r s))
        rows_o rows_i).filter
          (holds (JoinQuery.otherquals jointype restrictlist) · = true)) := by
  have sides : ∀ r ∈ raw_o, ∀ s ∈ raw_i, Sides outerrel.relids innerrel.relids r s :=
    fun r hr s hs => ⟨outer.within r hr, inner.within s hs, apart⟩
  have remote := ((on_clauses on jointype).2.filter shippable).pull_conds outer.remote
    inner.remote (ownClauses jointype restrictlist) jointype
  have rows_outer := outer.remote_filtered outer_local
  have rows_inner := inner.remote_filtered inner_local
  refine ⟨JoinQuery.joined jointype (fun r s => holds (pull_conds jointype
      (ownClauses jointype restrictlist)
      ((otherClauses jointype restrictlist).filter shippable)
      outerrel.remote_conds innerrel.remote_conds).2 (Row.merge r s))
    (if jointype == .FULL && !outerrel.remote_conds.isEmpty then
      raw_o.filter (holds outerrel.remote_conds · = true) else raw_o)
    (if jointype == .FULL && !innerrel.remote_conds.isEmpty then
      raw_i.filter (holds innerrel.remote_conds · = true) else raw_i),
    yields_join outer inner fun out => ?_, within_joined ?_ ?_ _ _, remote, ?_⟩
  · obtain ⟨not_semi, not_anti⟩ := plain
    cases jointype with
    | SEMI => exact absurd rfl not_semi
    | ANTI => exact absurd rfl not_anti
    | _ => exact Iff.rfl
  · intro r hr
    split at hr
    · exact outer.within r (Multiset.mem_of_mem_filter hr)
    · exact outer.within r hr
  · intro s hs
    split at hs
    · exact inner.within s (Multiset.mem_of_mem_filter hs)
    · exact inner.within s hs
  · obtain ⟨not_semi, not_anti⟩ := plain
    cases jointype with
    | SEMI => exact absurd rfl not_semi
    | ANTI => exact absurd rfl not_anti
    | INNER =>
      rw [← rows_outer, ← rows_inner]
      have no_own : ownClauses .INNER restrictlist = [] := by
        simp [ownClauses, IS_OUTER_JOIN]
      rw [no_own]
      exact (inner_rows sides outer.remote inner.remote (otherClauses .INNER restrictlist)
        shippable).trans (filter_holds_nil _).symm
    | LEFT =>
      rw [← rows_outer, ← rows_inner]
      refine (filter_shippable _ outerrel.remote_conds _ _).trans ?_
      exact congrArg (Multiset.filter _) (left_rows sides outer.remote inner.remote _)
    | RIGHT =>
      rw [← rows_outer, ← rows_inner]
      refine (filter_shippable _ innerrel.remote_conds _ _).trans ?_
      exact congrArg (Multiset.filter _) (right_rows sides outer.remote inner.remote _)
    | FULL =>
      have wrapped : ∀ (rows : Multiset (Row V)) (conds : List (Expr V)),
          (if JoinType.FULL == .FULL && !conds.isEmpty then
            rows.filter (holds conds · = true) else rows) =
            rows.filter (holds conds · = true) := by
        intro rows conds
        cases conds with
        | nil => exact (filter_holds_nil rows).symm
        | cons e conds => rfl
      rw [wrapped, wrapped, rows_outer, rows_inner]
      have checked := filter_shippable (JoinQuery.joined .FULL
        (fun r s => holds (ownClauses .FULL restrictlist) (Row.merge r s)) rows_o rows_i)
        [] (otherClauses .FULL restrictlist) shippable
      rw [List.append_nil, filter_holds_nil] at checked
      exact checked

/-- By induction on the tree, whose inputs are never semi or anti joins. -/
theorem scans_of_plan {shippable : Expr V → Bool} {q : JoinQuery V}
    (wf : q.WellFormed) {rel : RelOptInfo (Expr V)} (planned : q.plan shippable = some rel)
    (plain : isSemiOrAnti rel = false) :
    (rel.relids = q.relids ∧ rel.reltarget = q.reltarget) ∧
      ∃ raw, Scans contain_subplans contents rel raw (q.rows contents) := by
  induction q generalizing rel with
  | base relid dbname relname reltarget remote_conds local_conds =>
    obtain rfl := Option.some.inj planned
    refine ⟨⟨rfl, rfl⟩, _, scans_base relid dbname relname fun e he i hi => ?_⟩
    exact List.mem_singleton.mpr (wf e (List.mem_append_left _ he) i hi)
  | join relation_index reltarget placeholder jointype restrictlist outer inner ih_o ih_i =>
    obtain ⟨wf_o, wf_i, apart, on, -⟩ := wf
    obtain ⟨outerrel, plan_o, planned⟩ := Option.bind_eq_some_iff.mp planned
    obtain ⟨innerrel, plan_i, ok⟩ := Option.bind_eq_some_iff.mp planned
    obtain ⟨accepted, rfl⟩ := of_foreign_join_ok ok
    obtain ⟨⟨relids_o, -⟩, raw_o, scans_o⟩ := ih_o wf_o plan_o accepted.outer_type
    obtain ⟨⟨relids_i, -⟩, raw_i, scans_i⟩ := ih_i wf_i plan_i accepted.inner_type
    have types : jointype ≠ .SEMI ∧ jointype ≠ .ANTI := by
      constructor
      · intro semi
        subst semi
        cases plain
      · intro anti
        subst anti
        cases plain
    refine ⟨⟨by rw [RelOptInfo.relids, relids_o, relids_i, JoinQuery.relids], rfl⟩, ?_⟩
    exact scans_o.join scans_i accepted.outer_local accepted.inner_local
      (relids_o ▸ relids_i ▸ apart) (relids_o ▸ relids_i ▸ on) types shippable
      relation_index reltarget

/-! ## Semi joins -/

/-- A statement over inner and outer joins has one result. -/
theorem emitted_iff {rel : RelOptInfo (Expr V)} {raw rows : Multiset (Row V)}
    (scans : Scans contain_subplans contents rel raw rows)
    (out : Multiset (List (Option (Datum V)))) :
    Emitted contain_subplans contents rel out ↔
      out = rows.map fun row => rel.reltarget.map (Expr.eval row) := by
  have yields := fun rows => scans.yields rel.relation_index
    (usesAlias contain_subplans rel) rows fun _ => rfl
  simp only [Emitted, yields, exists_eq_left, scans.filtered]

/-- The target of a semi or anti join is the same whatever the inner side holds. -/
theorem target_merge {reltarget : List (Expr V)} {outerrel innerrel : RelOptInfo (Expr V)}
    (target : semijoin_target_ok reltarget outerrel innerrel = true)
    (unseen : ∀ e ∈ reltarget, ∀ i ∈ e.placed, i ∉ innerrel.relids) {r s : Row V}
    (sides : Sides outerrel.relids innerrel.relids r s) :
    (reltarget.map (Expr.eval (Row.merge r s))) = reltarget.map (Expr.eval r) := by
  refine List.map_congr_left fun e he => Expr.eval_congr fun i hi => ?_
  rcases List.mem_append.mp hi with hi | hi
  case inr => exact merge_of_right_null (sides.right i (unseen e he i hi))
  have ok := List.all_eq_true.mp (List.all_eq_true.mp target e he) i hi
  refine merge_of_right_null (sides.right i fun inside => ?_)
  simp only [List.contains_eq_mem, inside, decide_true, Bool.true_and, Bool.not_not,
    decide_eq_true_eq] at ok
  exact sides.apart i ok inside

/-- What the statement of a join with bare inputs returns. -/
theorem emitted_join_iff {outerrel innerrel : RelOptInfo (Expr V)}
    {raw_o raw_i rows_o rows_i : Multiset (Row V)}
    (outer : Scans contain_subplans contents outerrel raw_o rows_o)
    (inner : Scans contain_subplans contents innerrel raw_i rows_i)
    {relation_index : Nat} {reltarget remote_conds local_conds joinclauses : List (Expr V)}
    {jointype : JoinType} (out : Multiset (List (Option (Datum V)))) :
    Emitted contain_subplans contents (.join relation_index reltarget remote_conds
        local_conds jointype joinclauses false false outerrel innerrel) out ↔
      ∃ rows, JoinRows jointype joinclauses raw_o raw_i rows ∧
        out = (rows.filter (holds (remote_conds ++ local_conds) · = true)).map
          fun row => reltarget.map (Expr.eval row) := by
  have tree : ∀ self use_alias rows,
      (joinTree contain_subplans (.join relation_index reltarget remote_conds local_conds
        jointype joinclauses false false outerrel innerrel) use_alias).Rows contents self
        rows ↔ JoinRows jointype joinclauses raw_o raw_i rows := by
    intro self use_alias rows
    simp only [joinTree, FromItem.Rows, outer.input, inner.input, Bool.false_eq_true,
      if_false]
    refine ⟨fun parts => ?_, fun h => ⟨_, _, rfl, rfl, h⟩⟩
    obtain ⟨L, R, rfl, rfl, h⟩ := parts
    exact h
  have checked : ∀ rows : Multiset (Row V),
      (rows.filter (holds remote_conds · = true)).filter (holds local_conds · = true) =
        rows.filter (holds (remote_conds ++ local_conds) · = true) := by
    intro rows
    rw [Multiset.filter_filter]
    exact Multiset.filter_congr fun row _ => by simp [and_comm]
  refine exists_congr fun rows => and_congr (tree _ _ rows) ?_
  exact Eq.congr_right (congrArg (Multiset.map _) (checked rows))

section

variable {R S : List Nat} {raw_o raw_i : Multiset (Row V)} {C_o C_i : List (Expr V)}

/-- The conditions of a semi or anti join on a pair of rows, by where they come from. -/
theorem extracted_holds {r s : Row V} (sides : Sides R S r s) (on_o : On R C_o)
    (on_i : On S C_i) (own clauses : List (Expr V)) :
    holds (extract_join_equals (clauses ++ C_o) (own ++ C_i)).2 (Row.merge r s) =
        ((holds own (Row.merge r s) && holds C_i s) &&
          (holds (clauses.filter is_simple_join_clause) (Row.merge r s) &&
            holds (C_o.filter is_simple_join_clause) r)) ∧
      holds (extract_join_equals (clauses ++ C_o) (own ++ C_i)).1 (Row.merge r s) =
        (holds (clauses.filter fun e => !is_simple_join_clause e) (Row.merge r s) &&
          holds (C_o.filter fun e => !is_simple_join_clause e) r) := by
  simp only [extract_join_equals, List.filter_append, holds_append, sides.holds_right on_i,
    sides.holds_left (on_o.filter _), and_self]

/-- Clauses checked in the ON clause of a semi join, in its WHERE clause or locally. -/
theorem clauses_holds (clauses : List (Expr V)) (shippable : Expr V → Bool) (row : Row V) :
    holds clauses row =
      ((holds ((clauses.filter shippable).filter is_simple_join_clause) row &&
        holds ((clauses.filter shippable).filter fun e => !is_simple_join_clause e) row) &&
        holds (clauses.filter fun e => !shippable e) row) := by
  rw [holds_filter_and, holds_filter_and]

theorem semi_rows_iff (sides : ∀ r ∈ raw_o, ∀ s ∈ raw_i, Sides R S r s) (on_o : On R C_o)
    (on_i : On S C_i) (clauses : List (Expr V)) (shippable : Expr V → Bool) {δ : Type}
    {g : Row V → δ} (image : ∀ r ∈ raw_o, ∀ s ∈ raw_i, g (Row.merge r s) = g r) :
    (∀ rows, Joins.Semi (fun r s => holds (extract_join_equals
          (clauses.filter shippable ++ C_o) ([] ++ C_i)).2 (Row.merge r s)) Row.merge
          raw_o raw_i rows →
        (rows.filter (holds ((extract_join_equals (clauses.filter shippable ++ C_o)
          ([] ++ C_i)).1 ++ clauses.filter fun e => !shippable e) · = true)).map g =
        (Joins.semi (fun r s => holds clauses (Row.merge r s))
          (raw_o.filter (holds C_o · = true)) (raw_i.filter (holds C_i · = true))).map g) ↔
      ∀ r ∈ raw_o.filter (holds C_o · = true),
        (∃ s ∈ raw_i.filter (holds C_i · = true), holds clauses (Row.merge r s) = true) →
        ∀ s ∈ raw_i.filter (holds C_i · = true),
          holds ((clauses.filter shippable).filter is_simple_join_clause)
            (Row.merge r s) = true →
          holds clauses (Row.merge r s) = true := by
  -- on an outer row that passes its own conditions, ON and WHERE only check the clauses
  have pair : ∀ r ∈ raw_o, ∀ s ∈ raw_i, holds C_o r = true →
      (holds (extract_join_equals (clauses.filter shippable ++ C_o) ([] ++ C_i)).2
          (Row.merge r s) =
        (holds C_i s && holds ((clauses.filter shippable).filter is_simple_join_clause)
          (Row.merge r s))) ∧
      holds ((extract_join_equals (clauses.filter shippable ++ C_o) ([] ++ C_i)).1 ++
          clauses.filter fun e => !shippable e) (Row.merge r s) =
        (holds ((clauses.filter shippable).filter fun e => !is_simple_join_clause e)
          (Row.merge r s) && holds (clauses.filter fun e => !shippable e) (Row.merge r s)) := by
    intro r hr s hs passes
    obtain ⟨on_eq, where_eq⟩ := extracted_holds (sides r hr s hs) on_o on_i []
      (clauses.filter shippable)
    have outer := holds_filter_and is_simple_join_clause C_o r
    rw [passes, Bool.and_eq_true] at outer
    rw [on_eq, holds_append, where_eq, outer.1, outer.2]
    simp
  have semi := @Joins.semi_filter_iff _ _ _
    (fun r s => holds (extract_join_equals (clauses.filter shippable ++ C_o)
      ([] ++ C_i)).2 (Row.merge r s)) Row.merge
    (holds ((extract_join_equals (clauses.filter shippable ++ C_o)
      ([] ++ C_i)).1 ++ clauses.filter fun e => !shippable e))
    (fun r => holds C_o r && !decide (Joins.Unmatched
      (fun r s => holds clauses (Row.merge r s)) (raw_i.filter (holds C_i · = true)) r))
    δ g g raw_o raw_i ?_ image
  · have same_rows : (Joins.semi (fun r s => holds (extract_join_equals
          (clauses.filter shippable ++ C_o) ([] ++ C_i)).2 (Row.merge r s)) raw_o raw_i).filter
          (fun r => (holds C_o r && !decide (Joins.Unmatched (fun r s => holds clauses
            (Row.merge r s)) (raw_i.filter (holds C_i · = true)) r)) = true) =
        Joins.semi (fun r s => holds clauses (Row.merge r s))
          (raw_o.filter (holds C_o · = true)) (raw_i.filter (holds C_i · = true)) := by
      rw [Joins.semi, Joins.semi, Multiset.filter_filter, Multiset.filter_filter]
      refine Multiset.filter_congr fun r hr => ?_
      simp only [Bool.and_eq_true, Bool.not_eq_true', decide_eq_false_iff_not]
      refine ⟨fun ⟨⟨passes, matched⟩, _⟩ => ⟨matched, passes⟩, fun ⟨matched, passes⟩ =>
        ⟨⟨passes, matched⟩, fun none => matched fun s hs => ?_⟩⟩
      obtain ⟨hs, inner_passes⟩ := Multiset.mem_filter.mp hs
      have off := (pair r hr s hs passes).1.symm.trans (none s hs)
      rw [inner_passes, Bool.true_and] at off
      show holds clauses (Row.merge r s) = false
      rw [clauses_holds clauses shippable, off]
      rfl
    rw [← same_rows, semi]
    constructor
    · intro every r hr ⟨s', hs', match_⟩ s hs simple
      obtain ⟨hr, passes⟩ := Multiset.mem_filter.mp hr
      obtain ⟨hs, inner_passes⟩ := Multiset.mem_filter.mp hs
      obtain ⟨on_eq, where_eq⟩ := pair r hr s hs passes
      have matched : ¬ Joins.Unmatched (fun r s => holds clauses (Row.merge r s))
          (raw_i.filter (holds C_i · = true)) r :=
        Joins.not_unmatched_iff.mpr ⟨s', hs', match_⟩
      have stays := every r hr (by simp [passes, matched]) s hs
        (on_eq.trans (by rw [inner_passes, simple]; rfl))
      rw [where_eq] at stays
      rw [clauses_holds clauses shippable, simple, Bool.true_and]
      exact stays
    · intro every r hr kept s hs on
      simp only [Bool.and_eq_true, Bool.not_eq_true', decide_eq_false_iff_not] at kept
      obtain ⟨passes, matched⟩ := kept
      obtain ⟨on_eq, where_eq⟩ := pair r hr s hs passes
      rw [on_eq, Bool.and_eq_true] at on
      obtain ⟨inner_passes, simple⟩ := on
      have some_match : ∃ s ∈ raw_i.filter (holds C_i · = true),
          holds clauses (Row.merge r s) = true := Joins.not_unmatched_iff.mp matched
      have all := every r (Multiset.mem_filter.mpr ⟨hr, passes⟩) some_match s
        (Multiset.mem_filter.mpr ⟨hs, inner_passes⟩) simple
      rw [clauses_holds clauses shippable, simple, Bool.true_and] at all
      rw [where_eq]
      exact all
  · intro r hr s hs on stays
    obtain ⟨on_eq, where_eq⟩ := extracted_holds (sides r hr s hs) on_o on_i []
      (clauses.filter shippable)
    have outer := holds_filter_and is_simple_join_clause C_o r
    have own := clauses_holds clauses shippable (Row.merge r s)
    rw [on_eq, holds_nil, Bool.true_and] at on
    rw [holds_append, where_eq] at stays
    simp only [Bool.and_eq_true] at on stays
    obtain ⟨inner_passes, own_simple, outer_simple⟩ := on
    obtain ⟨⟨own_rest, outer_rest⟩, own_local⟩ := stays
    rw [outer_simple, outer_rest] at outer
    rw [own_simple, own_rest, own_local] at own
    have matched : ¬ Joins.Unmatched (fun r s => holds clauses (Row.merge r s))
        (raw_i.filter (holds C_i · = true)) r :=
      Joins.not_unmatched_iff.mpr ⟨s, Multiset.mem_filter.mpr ⟨hs, inner_passes⟩, own⟩
    simp [← outer, matched]

/-- Equalities of two columns that hold of a row still hold when it is merged. -/
theorem holds_simple_merge {conds : List (Expr V)}
    (simple : ∀ e ∈ conds, is_simple_join_clause e = true) {r : Row V} (s : Row V)
    (passes : holds conds r = true) : holds conds (Row.merge r s) = true := by
  rw [holds_eq_all, List.all_eq_true] at passes ⊢
  intro e he
  have here := passes e he
  have form := simple e he
  cases e with
  | var v => cases form
  | other e => cases form
  | eq a b =>
    simp only [Expr.truth, Expr.eval, Row.merge] at here ⊢
    cases ha : r a.varno a.varattno with
    | none => simp [ha, Kleene.passes] at here
    | some x =>
      cases hb : r b.varno b.varattno with
      | none => simp [ha, hb, Kleene.passes] at here
      | some y => simpa [ha, hb] using here

theorem anti_rows_iff (sides : ∀ r ∈ raw_o, ∀ s ∈ raw_i, Sides R S r s)
    (on_i : On S C_i) (own clauses : List (Expr V)) (shippable : Expr V → Bool) {δ : Type}
    (g : Row V → δ) :
    ((Joins.anti (fun r s => holds (extract_join_equals (clauses.filter shippable ++ C_o)
          (own ++ C_i)).2 (Row.merge r s)) raw_o raw_i).filter
        (holds ((extract_join_equals (clauses.filter shippable ++ C_o) (own ++ C_i)).1 ++
          clauses.filter fun e => !shippable e) · = true)).map g =
      (((Joins.anti (fun r s => holds own (Row.merge r s))
        (raw_o.filter (holds C_o · = true)) (raw_i.filter (holds C_i · = true))).filter
          (holds clauses · = true)).map g) ↔
    ∀ r ∈ raw_o,
      holds ((clauses.filter shippable ++ C_o).filter fun e => !is_simple_join_clause e) r =
        true →
      holds (clauses.filter fun e => !shippable e) r = true →
      holds ((clauses.filter shippable ++ C_o).filter is_simple_join_clause) r = true ∨
        ∃ s ∈ raw_i.filter (holds C_i · = true),
          holds (own ++ (clauses.filter shippable ++ C_o).filter is_simple_join_clause)
            (Row.merge r s) = true := by
  have filters : ∀ r : Row V, holds clauses r = true ∧ holds C_o r = true ↔
      (holds ((clauses.filter shippable ++ C_o).filter is_simple_join_clause) r = true ∧
        holds ((clauses.filter shippable ++ C_o).filter fun e => !is_simple_join_clause e) r =
          true) ∧ holds (clauses.filter fun e => !shippable e) r = true := by
    intro r
    have both := holds_filter_and is_simple_join_clause (clauses.filter shippable ++ C_o) r
    rw [holds_append] at both
    rw [← Bool.and_eq_true (holds (List.filter is_simple_join_clause _) r), both,
      ← holds_filter_and shippable clauses, Bool.and_eq_true, Bool.and_eq_true]
    exact ⟨fun ⟨⟨l, m⟩, c⟩ => ⟨⟨l, c⟩, m⟩, fun ⟨⟨l, c⟩, m⟩ => ⟨⟨l, m⟩, c⟩⟩
  have on_eq : ∀ r ∈ raw_o, ∀ s ∈ raw_i,
      holds (extract_join_equals (clauses.filter shippable ++ C_o) (own ++ C_i)).2
          (Row.merge r s) =
        ((holds own (Row.merge r s) && holds C_i s) &&
          holds ((clauses.filter shippable ++ C_o).filter is_simple_join_clause)
            (Row.merge r s)) := by
    intro r hr s hs
    rw [extract_join_equals, holds_append, holds_append, (sides r hr s hs).holds_right on_i]
  rw [Joins.anti, Joins.anti, Multiset.filter_filter, Multiset.filter_filter,
    Multiset.filter_filter, eq_comm, Joins.map_filter_eq_iff]
  · refine forall₂_congr fun r hr => ?_
    rw [holds_append, Bool.and_eq_true]
    constructor
    · intro back rest local_
      by_cases alone : Joins.Unmatched (fun r s => holds (extract_join_equals
          (clauses.filter shippable ++ C_o) (own ++ C_i)).2 (Row.merge r s)) raw_i r
      · obtain ⟨⟨passes, -⟩, outer⟩ := back ⟨⟨rest, local_⟩, alone⟩
        exact .inl ((filters r).mp ⟨passes, outer⟩).1.1
      · obtain ⟨s, hs, on⟩ := Joins.not_unmatched_iff.mp alone
        rw [on_eq r hr s hs, Bool.and_eq_true, Bool.and_eq_true] at on
        obtain ⟨⟨own_passes, inner_passes⟩, simple⟩ := on
        refine .inr ⟨s, Multiset.mem_filter.mpr ⟨hs, inner_passes⟩, ?_⟩
        rw [holds_append, own_passes, simple]
        rfl
    · intro every ⟨⟨rest, local_⟩, alone⟩
      have simple : holds ((clauses.filter shippable ++ C_o).filter is_simple_join_clause) r =
          true := by
        rcases every rest local_ with simple | ⟨s, hs, both⟩
        · exact simple
        · obtain ⟨hs, inner_passes⟩ := Multiset.mem_filter.mp hs
          rw [holds_append, Bool.and_eq_true] at both
          have off := (on_eq r hr s hs).symm.trans (alone s hs)
          rw [both.1, both.2, inner_passes] at off
          cases off
      obtain ⟨passes, outer⟩ := (filters r).mpr ⟨⟨simple, rest⟩, local_⟩
      refine ⟨⟨passes, fun s hs => ?_⟩, outer⟩
      obtain ⟨hs, inner_passes⟩ := Multiset.mem_filter.mp hs
      have off := (on_eq r hr s hs).symm.trans (alone s hs)
      have still := holds_simple_merge (fun e he => (List.mem_filter.mp he).2) s simple
      rw [inner_passes, still, Bool.and_true, Bool.and_true] at off
      exact off
  · intro r hr ⟨⟨passes, alone⟩, outer⟩
    obtain ⟨⟨simple, rest⟩, local_⟩ := (filters r).mp ⟨passes, outer⟩
    refine ⟨?_, fun s hs => ?_⟩
    · rw [holds_append, Bool.and_eq_true]
      exact ⟨rest, local_⟩
    · show holds (extract_join_equals (clauses.filter shippable ++ C_o) (own ++ C_i)).2
        (Row.merge r s) = false
      rw [on_eq r hr s hs]
      cases inner_passes : holds C_i s with
      | false => simp
      | true =>
        have off : holds own (Row.merge r s) = false :=
          alone s (Multiset.mem_filter.mpr ⟨hs, inner_passes⟩)
        rw [off]
        rfl

end

/-! ## The statement and the query -/

theorem exists_eq_iff {α β : Type} {P : α → Prop} (some_ : ∃ a, P a) (f : α → β) (x : β) :
    (∀ out, (∃ a, P a ∧ out = f a) ↔ out = x) ↔ ∀ a, P a → f a = x := by
  constructor
  · intro unique a h
    exact (unique _).mp ⟨a, h, rfl⟩
  · intro same out
    refine ⟨fun ⟨a, h, eq⟩ => eq.trans (same a h), fun eq => ?_⟩
    obtain ⟨a, h⟩ := some_
    exact ⟨a, h, eq.trans (same a h).symm⟩

theorem exists_joinRows (jointype : JoinType) (joinclauses : List (Expr V))
    (L R : Multiset (Row V)) : ∃ rows, JoinRows jointype joinclauses L R rows := by
  cases jointype with
  | SEMI => exact Joins.exists_semi L R
  | _ => exact ⟨_, rfl⟩

/-- The statement of a semi join. -/
theorem emitted_semi_iff {outerrel innerrel : RelOptInfo (Expr V)}
    {raw_o raw_i rows_o rows_i : Multiset (Row V)}
    (outer : Scans contain_subplans contents outerrel raw_o rows_o)
    (inner : Scans contain_subplans contents innerrel raw_i rows_i)
    {shippable : Expr V → Bool} {relation_index : Nat} {reltarget : List (Expr V)}
    {placeholder : Bool} {restrictlist : List (RestrictInfo V)} {rel : RelOptInfo (Expr V)}
    (ok : foreign_join_ok shippable relation_index reltarget placeholder .SEMI
      outerrel innerrel restrictlist = some rel)
    (apart : ∀ i ∈ outerrel.relids, i ∉ innerrel.relids)
    (unseen : ∀ e ∈ reltarget, ∀ i ∈ e.placed, i ∉ innerrel.relids) :
    (∀ out, Emitted contain_subplans contents rel out ↔
        out = (Joins.semi (fun r s => holds (otherClauses .SEMI restrictlist) (Row.merge r s))
          rows_o rows_i).map fun row => reltarget.map (Expr.eval row)) ↔
      ∀ r ∈ rows_o,
        (∃ s ∈ rows_i, holds (otherClauses .SEMI restrictlist) (Row.merge r s) = true) →
        ∀ s ∈ rows_i,
          holds (((otherClauses .SEMI restrictlist).filter shippable).filter
            is_simple_join_clause) (Row.merge r s) = true →
          holds (otherClauses .SEMI restrictlist) (Row.merge r s) = true := by
  obtain ⟨accepted, rfl⟩ := of_foreign_join_ok ok
  have sides : ∀ r ∈ raw_o, ∀ s ∈ raw_i, Sides outerrel.relids innerrel.relids r s :=
    fun r hr s hs => ⟨outer.within r hr, inner.within s hs, apart⟩
  have no_own : ownClauses .SEMI restrictlist = [] := by simp [ownClauses, IS_OUTER_JOIN]
  have rows := semi_rows_iff (g := fun row => reltarget.map (Expr.eval row)) sides
    outer.remote inner.remote (otherClauses .SEMI restrictlist) shippable
    fun r hr s hs => target_merge (accepted.target (.inl rfl)) unseen (sides r hr s hs)
  rw [outer.remote_filtered accepted.outer_local, inner.remote_filtered accepted.inner_local,
    ← no_own] at rows
  refine Iff.trans ?_ rows
  refine (forall_congr' fun out => iff_congr (emitted_join_iff outer inner out)
    Iff.rfl).trans ?_
  exact exists_eq_iff (exists_joinRows .SEMI _ raw_o raw_i) _ _

/-- The statement of an anti join. -/
theorem emitted_anti_iff {innerrel : RelOptInfo (Expr V)} {raw_i rows_i : Multiset (Row V)}
    (inner : Scans contain_subplans contents innerrel raw_i rows_i)
    {relid : Nat} {dbname relname : Bytes} {targets remote_conds local_conds : List (Expr V)}
    (own : On [relid] remote_conds) {shippable : Expr V → Bool} {relation_index : Nat}
    {reltarget : List (Expr V)} {placeholder : Bool} {restrictlist : List (RestrictInfo V)}
    {rel : RelOptInfo (Expr V)}
    (ok : foreign_join_ok shippable relation_index reltarget placeholder .ANTI
      (.base relid dbname relname targets remote_conds local_conds) innerrel restrictlist =
        some rel)
    (apart : relid ∉ innerrel.relids) :
    (∀ out, Emitted contain_subplans contents rel out ↔
        out = ((Joins.anti
          (fun r s => holds (ownClauses .ANTI restrictlist) (Row.merge r s))
          ((JoinQuery.base relid dbname relname targets remote_conds local_conds).rows contents)
          rows_i).filter (holds (otherClauses .ANTI restrictlist) · = true)).map
            fun row => reltarget.map (Expr.eval row)) ↔
      ∀ r ∈ (contents dbname relname).map (Row.single relid),
        holds (((otherClauses .ANTI restrictlist).filter shippable ++ remote_conds).filter
          fun e => !is_simple_join_clause e) r = true →
        holds ((otherClauses .ANTI restrictlist).filter fun e => !shippable e) r = true →
        holds (((otherClauses .ANTI restrictlist).filter shippable ++ remote_conds).filter
            is_simple_join_clause) r = true ∨
          ∃ s ∈ rows_i, holds (ownClauses .ANTI restrictlist ++
            ((otherClauses .ANTI restrictlist).filter shippable ++ remote_conds).filter
              is_simple_join_clause) (Row.merge r s) = true := by
  obtain ⟨accepted, rfl⟩ := of_foreign_join_ok ok
  have outer := @scans_base V _ contain_subplans contents relid dbname relname targets
    remote_conds local_conds own
  have outer_rows := outer.remote_filtered accepted.outer_local
  have rows := @anti_rows_iff V _ _ _ _ raw_i remote_conds _
    (fun r hr s hs => ⟨outer.within r hr, inner.within s hs, fun i hi => by
      rwa [List.mem_singleton.mp hi]⟩) inner.remote
    (ownClauses .ANTI restrictlist) (otherClauses .ANTI restrictlist) shippable _
    fun row => reltarget.map (Expr.eval row)
  rw [inner.remote_filtered accepted.inner_local] at rows
  refine Iff.trans ?_ rows
  refine (forall_congr' fun out => iff_congr (emitted_join_iff outer inner out)
    Iff.rfl).trans ?_
  refine (exists_eq_iff (exists_joinRows .ANTI _ _ raw_i) _ _).trans ?_
  refine forall_eq.trans (Eq.congr_right ?_)
  rw [← outer_rows]
  rfl

theorem placed_of_plain {shippable : Expr V → Bool} {q : JoinQuery V}
    {rel : RelOptInfo (Expr V)} (planned : q.plan shippable = some rel)
    (plain : isSemiOrAnti rel = false) : q.Placed shippable contents := by
  cases q with
  | base => trivial
  | join relation_index reltarget placeholder jointype restrictlist outer inner =>
    obtain ⟨outerrel, -, planned⟩ := Option.bind_eq_some_iff.mp planned
    obtain ⟨innerrel, -, ok⟩ := Option.bind_eq_some_iff.mp planned
    obtain ⟨-, rfl⟩ := of_foreign_join_ok ok
    cases jointype with
    | SEMI => cases plain
    | ANTI => cases plain
    | _ => trivial

/-- What the statement returns is what the query asks for, exactly when no condition was
moved where it makes a difference. -/
theorem emitted_iff_placed {shippable : Expr V → Bool} {q : JoinQuery V}
    (wf : q.WellFormed) {rel : RelOptInfo (Expr V)} (planned : q.plan shippable = some rel) :
    (∀ out, Emitted contain_subplans contents rel out ↔ out = q.result contents) ↔
      q.Placed shippable contents := by
  cases plain : isSemiOrAnti rel with
  | false =>
    obtain ⟨⟨-, target⟩, raw, scans⟩ :=
      @scans_of_plan V _ contain_subplans contents shippable q wf rel planned plain
    refine iff_of_true (fun out => ?_) (placed_of_plain planned plain)
    rw [emitted_iff scans, target]
    rfl
  | true =>
    cases q with
    | base relid dbname relname reltarget remote_conds local_conds =>
      obtain rfl := Option.some.inj planned
      cases plain
    | join relation_index reltarget placeholder jointype restrictlist outer inner =>
      obtain ⟨wf_o, wf_i, apart, on, unseen⟩ := wf
      obtain ⟨outerrel, plan_o, planned⟩ := Option.bind_eq_some_iff.mp planned
      obtain ⟨innerrel, plan_i, ok⟩ := Option.bind_eq_some_iff.mp planned
      obtain ⟨accepted, shape⟩ := of_foreign_join_ok ok
      obtain ⟨⟨relids_o, -⟩, raw_o, scans_o⟩ := @scans_of_plan V _ contain_subplans contents
        shippable outer wf_o outerrel plan_o accepted.outer_type
      obtain ⟨⟨relids_i, -⟩, raw_i, scans_i⟩ := @scans_of_plan V _ contain_subplans contents
        shippable inner wf_i innerrel plan_i accepted.inner_type
      rw [shape] at plain
      cases jointype with
      | INNER => cases plain
      | LEFT => cases plain
      | RIGHT => cases plain
      | FULL => cases plain
      | SEMI =>
        refine Iff.trans ?_ (emitted_semi_iff scans_o scans_i ok
          (relids_o ▸ relids_i ▸ apart) (relids_i ▸ unseen rfl))
        refine forall_congr' fun out => iff_congr Iff.rfl (Eq.congr_right ?_)
        exact congrArg (Multiset.map _) (filter_holds_nil _)
      | ANTI =>
        cases outer with
        | join =>
          obtain ⟨outerrel', -, planned⟩ := Option.bind_eq_some_iff.mp plan_o
          obtain ⟨innerrel', -, ok'⟩ := Option.bind_eq_some_iff.mp planned
          obtain ⟨-, rfl⟩ := of_foreign_join_ok ok'
          cases (accepted.bases rfl).1
        | base relid dbname relname targets remote_conds local_conds =>
          obtain rfl := Option.some.inj plan_o
          exact emitted_anti_iff scans_i scans_o.remote ok
            (relids_i ▸ apart relid (List.mem_singleton.mpr rfl))

end

end

/-! ## Conditions that are moved too far -/

/-- A row of two columns. -/
def sampleTuple (x y : Nat) : Tuple Nat
  | 1 => some (.other x)
  | 2 => some (.other y)
  | _ => none

/-- Table `a` has the row (1, 5), every other table the rows (1, 3) and (1, 9). -/
def sampleTables : Bytes → Bytes → Multiset (Tuple Nat)
  | _, [97] => {sampleTuple 1 5}
  | _, _ => {sampleTuple 1 3, sampleTuple 1 9}

/-- `r1.c2 < r2.c2` -/
def sampleLess : Expr Nat :=
  .other
    { vars := [1, 2]
      placed := []
      eval := fun row =>
        match row 1 2, row 2 2 with
        | some (.other x), some (.other y) => some (.bool (x < y))
        | _, _ => none
      congr := fun r s same => by simp only [same 1 (by simp), same 2 (by simp)] }

/-- A semi join of `a` and `b` on the first column and on `r1.c2 < r2.c2`. -/
def semiSample : JoinQuery Nat :=
  .join 3 [.var ⟨1, 1⟩] false .SEMI [⟨.eq ⟨1, 1⟩ ⟨2, 1⟩, false⟩, ⟨sampleLess, false⟩]
    (.base 1 [] [97] [] [] []) (.base 2 [] [98] [] [] [])

/-- An anti join of `a` and `b` on the first column, where `a` is to be filtered by
`r1.c1 = r1.c2`. -/
def antiSample : JoinQuery Nat :=
  .join 3 [.var ⟨1, 1⟩] false .ANTI [⟨.eq ⟨1, 1⟩ ⟨2, 1⟩, false⟩]
    (.base 1 [] [97] [] [.eq ⟨1, 1⟩ ⟨1, 2⟩] []) (.base 2 [] [98] [] [] [])

/-- A left join with a condition on each table and one on the joined rows. -/
def leftSample : JoinQuery Nat :=
  .join 3 [.var ⟨1, 1⟩, .var ⟨2, 2⟩] false .LEFT
    [⟨.eq ⟨1, 1⟩ ⟨2, 1⟩, false⟩, ⟨sampleLess, true⟩]
    (.base 1 [] [97] [] [.eq ⟨1, 1⟩ ⟨1, 1⟩] []) (.base 2 [] [98] [] [.eq ⟨2, 1⟩ ⟨2, 1⟩] [])

theorem emitted_iff_placed_left :
    ∃ rel, leftSample.plan (fun _ => true) = some rel ∧
      ∀ out, Emitted (fun _ => false) sampleTables rel out ↔
        out = leftSample.result sampleTables := by
  have wf : leftSample.WellFormed := by
    simp [leftSample, JoinQuery.WellFormed, JoinQuery.relids, sampleLess]
  obtain ⟨rel, planned⟩ : ∃ rel, leftSample.plan (fun _ => true) = some rel := ⟨_, rfl⟩
  exact ⟨rel, planned, (emitted_iff_placed wf planned).mpr trivial⟩

/-- The semi join pairs the row of `a` with (1, 3) and then drops it; the anti join keeps
the row of `a` that fails its own condition. -/
theorem conditions_misplaced :
    (∃ rel, semiSample.plan (fun _ => true) = some rel ∧
      ¬ ∀ out, Emitted (fun _ => false) sampleTables rel out ↔
        out = semiSample.result sampleTables) ∧
    (∃ rel, antiSample.plan (fun _ => true) = some rel ∧
      ¬ ∀ out, Emitted (fun _ => false) sampleTables rel out ↔
        out = antiSample.result sampleTables) := by
  have tables : ∀ relid dbname relname, Scans (fun _ => false) sampleTables
      (.base relid dbname relname [] [] [])
      ((sampleTables dbname relname).map (Row.single relid))
      ((JoinQuery.base relid dbname relname [] [] []).rows sampleTables) :=
    fun relid dbname relname => scans_base relid dbname relname nofun
  have passes : ∀ {relid : Nat} {relname : Bytes} {tuple : Tuple Nat},
      tuple ∈ sampleTables [] relname → Row.single relid tuple ∈
        (JoinQuery.base relid [] relname [] [] []).rows sampleTables := fun mem =>
    Multiset.mem_filter.mpr ⟨Multiset.mem_map_of_mem _ mem, rfl⟩
  have row : sampleTuple 1 5 ∈ sampleTables [] [97] := Multiset.mem_singleton_self _
  refine ⟨?_, ?_⟩
  · obtain ⟨rel, planned⟩ : ∃ rel, semiSample.plan (fun _ => true) = some rel := ⟨_, rfl⟩
    refine ⟨rel, planned, fun claim => ?_⟩
    have ok : foreign_join_ok (fun _ => true) 3 [.var ⟨1, 1⟩] false .SEMI
        (.base 1 [] [97] [] [] []) (.base 2 [] [98] [] [] [])
        [⟨.eq ⟨1, 1⟩ ⟨2, 1⟩, false⟩, ⟨sampleLess, false⟩] = some rel := planned
    have every := (emitted_semi_iff (tables 1 [] [97]) (tables 2 [] [98]) ok
      (by decide) (by simp [Expr.placed])).mp fun out => (claim out).trans
        (Eq.congr_right (congrArg (Multiset.map _) (filter_holds_nil _)))
    have lower : sampleTuple 1 3 ∈ sampleTables [] [98] :=
      Multiset.mem_cons_self _ {sampleTuple 1 9}
    have higher : sampleTuple 1 9 ∈ sampleTables [] [98] :=
      Multiset.mem_cons_of_mem (Multiset.mem_singleton_self _)
    have dropped := every _ (passes row) ⟨_, passes higher, rfl⟩ _ (passes lower) rfl
    cases dropped
  · obtain ⟨rel, planned⟩ : ∃ rel, antiSample.plan (fun _ => true) = some rel := ⟨_, rfl⟩
    refine ⟨rel, planned, fun claim => ?_⟩
    have ok : foreign_join_ok (fun _ => true) 3 [.var ⟨1, 1⟩] false .ANTI
        (.base 1 [] [97] [] [.eq ⟨1, 1⟩ ⟨1, 2⟩] []) (.base 2 [] [98] [] [] [])
        [⟨.eq ⟨1, 1⟩ ⟨2, 1⟩, false⟩] = some rel := planned
    have every := (emitted_anti_iff (tables 2 [] [98]) (by simp [On]) ok
      (by decide)).mp claim
    rcases every _ (Multiset.mem_map_of_mem _ row) rfl rfl with kept | ⟨s, -, kept⟩
    · cases kept
    · rw [holds_append, Bool.and_eq_true] at kept
      cases kept.2

end PgClickhouse

import PgClickhouse.UpperRows

/-!
# The target list of a grouping

`foreign_grouping_ok` fetches an expression of the grouping target as it is, or the
aggregates in it if the expression itself is computed locally.  So everything the target
and the local HAVING conditions need is fetched, and nothing that is not part of them.
-/

namespace PgClickhouse

section

variable {V : Type}

theorem find_append_ref {ref : Nat} {tlist : PathTarget V} {entry : UpperExpr V × Nat} :
    Keyed.find Prod.snd ref (tlist ++ [entry]) =
      (Keyed.find Prod.snd ref tlist).or (Keyed.find Prod.snd ref [entry]) :=
  List.find?_append

theorem find_singleton_of_ne {ref : Nat} {entry : UpperExpr V × Nat} (other : entry.2 ≠ ref) :
    Keyed.find Prod.snd ref [entry] = none :=
  Keyed.find_cons_of_ne other

/-- `e` can be computed from the expressions in `es`, as far as aggregates go. -/
def Fetched (es : List (UpperExpr V)) (e : UpperExpr V) : Prop :=
  e ∈ es ∨ ∀ x ∈ e.pull_var_clause, x.isAggref = true → x ∈ es

theorem Fetched.mono {es es' : List (UpperExpr V)} {e : UpperExpr V} (fetched : Fetched es e)
    (more : ∀ x ∈ es, x ∈ es') : Fetched es' e := by
  rcases fetched with mem | aggs
  · exact .inl (more e mem)
  · exact .inr fun x hx agg => more x (aggs x hx agg)

/-- `x` is one of `es` or an aggregate in one of them. -/
def PartOf (es : List (UpperExpr V)) (x : UpperExpr V) : Prop :=
  x ∈ es ∨ ∃ e ∈ es, x ∈ e.pull_var_clause ∧ x.isAggref = true

theorem PartOf.mono {es es' : List (UpperExpr V)} {x : UpperExpr V} (part : PartOf es x)
    (more : ∀ e ∈ es, e ∈ es') : PartOf es' x := by
  rcases part with mem | h
  · exact .inl (more x mem)
  · obtain ⟨e, mem, part⟩ := h
    exact .inr ⟨e, more e mem, part⟩

/-- What entries of the grouping target make of a target list. -/
structure PlannerInfo.Collected (root : PlannerInfo V) (entries tlist tlist' : PathTarget V) :
    Prop where
  refs : ∀ ref ∈ root.groupClause, ref ≠ 0 →
    Keyed.find Prod.snd ref tlist' =
      (Keyed.find Prod.snd ref tlist).or (Keyed.find Prod.snd ref entries)
  keeps : ∀ e ∈ tlist.map Prod.fst, e ∈ tlist'.map Prod.fst
  fetched : ∀ e ∈ entries.map Prod.fst, Fetched (tlist'.map Prod.fst) e
  only : ∀ x ∈ tlist'.map Prod.fst,
    x ∈ tlist.map Prod.fst ∨ PartOf (entries.map Prod.fst) x

theorem PlannerInfo.Collected.append {root : PlannerInfo V}
    {entries entries' tlist tlist' tlist'' : PathTarget V}
    (first : root.Collected entries tlist tlist')
    (rest : root.Collected entries' tlist' tlist'') :
    root.Collected (entries ++ entries') tlist tlist'' where
  refs := by
    intro ref mem used
    have split : Keyed.find Prod.snd ref (entries ++ entries') =
        (Keyed.find Prod.snd ref entries).or (Keyed.find Prod.snd ref entries') :=
      List.find?_append
    rw [rest.refs ref mem used, first.refs ref mem used, split, Option.or_assoc]
  keeps := fun e mem => rest.keeps e (first.keeps e mem)
  fetched := by
    intro e mem
    rw [List.map_append, List.mem_append] at mem
    rcases mem with mem | mem
    · exact (first.fetched e mem).mono rest.keeps
    · exact rest.fetched e mem
  only := by
    intro x mem
    rw [List.map_append]
    rcases rest.only x mem with mem | part
    · rcases first.only x mem with mem | part
      · exact .inl mem
      · exact .inr (part.mono fun e he => List.mem_append_left _ he)
    · exact .inr (part.mono fun e he => List.mem_append_right _ he)

end

section

variable {V : Type} [DecidableEq V]

theorem mem_add_to_flat_tlist {tlist : PathTarget V} {e x : UpperExpr V} :
    x ∈ (add_to_flat_tlist tlist e).map Prod.fst ↔ x ∈ tlist.map Prod.fst ∨ x = e := by
  rw [add_to_flat_tlist]
  split
  next mem =>
    refine ⟨.inl, fun h => ?_⟩
    rcases h with h | rfl
    · exact h
    · exact mem
  next => rw [List.map_append, List.mem_append, List.map_singleton, List.mem_singleton]

theorem mem_foldl_add_to_flat_tlist {es : List (UpperExpr V)} {tlist : PathTarget V}
    {x : UpperExpr V} :
    x ∈ (es.foldl add_to_flat_tlist tlist).map Prod.fst ↔ x ∈ tlist.map Prod.fst ∨ x ∈ es := by
  induction es generalizing tlist with
  | nil => simp
  | cons e es ih => rw [List.foldl_cons, ih, mem_add_to_flat_tlist, List.mem_cons, or_assoc]

/-- Entries without a sort group reference are not found by one. -/
theorem find_foldl_add_to_flat_tlist {ref : Nat} (used : ref ≠ 0) (es : List (UpperExpr V))
    (tlist : PathTarget V) :
    Keyed.find Prod.snd ref (es.foldl add_to_flat_tlist tlist) =
      Keyed.find Prod.snd ref tlist := by
  induction es generalizing tlist with
  | nil => rfl
  | cons e es ih =>
    rw [List.foldl_cons, ih, add_to_flat_tlist]
    split
    · rfl
    · rw [find_append_ref, find_singleton_of_ne (Ne.symm used), Option.or_none]

namespace PlannerInfo

variable {root : PlannerInfo V} {chfdw_is_foreign_expr : StageRel V → Bool → UpperExpr V → Bool}

/-- One entry. -/
theorem collected_of_groupExpr {grouped_rel outerrel : StageRel V} {tlist tlist' : PathTarget V}
    {entry : UpperExpr V × Nat}
    (ok : root.groupExpr chfdw_is_foreign_expr grouped_rel outerrel tlist entry = some tlist') :
    root.Collected [entry] tlist tlist' := by
  obtain ⟨expr, sgref⟩ := entry
  have skipped : root.isGroupRef sgref = false → ∀ ref ∈ root.groupClause, ref ≠ 0 →
      Keyed.find Prod.snd ref [(expr, sgref)] = none := by
    intro plain ref mem used
    refine find_singleton_of_ne fun same => ?_
    subst same
    simp [isGroupRef, used, mem] at plain
  simp only [groupExpr] at ok
  split at ok
  next =>
    split at ok
    · cases ok
    split at ok
    · cases ok
    cases ok
    refine ⟨fun _ _ _ => find_append_ref, fun e mem => ?_, fun e mem => .inl ?_, fun x mem => ?_⟩
    · simp [mem]
    · have same : e = expr := by simpa using mem
      simp [same]
    · rw [List.map_append, List.mem_append] at mem
      exact mem.imp_right .inl
  next plain =>
    have refs := skipped (Bool.eq_false_iff.mpr plain)
    split at ok
    next =>
      cases ok
      refine ⟨fun ref mem used => ?_, fun e mem => mem_add_to_flat_tlist.mpr (.inl mem),
        fun e mem => .inl (mem_add_to_flat_tlist.mpr (.inr ?_)), fun x mem => ?_⟩
      · rw [refs ref mem used, Option.or_none]
        exact find_foldl_add_to_flat_tlist used [expr] tlist
      · simpa using mem
      · exact (mem_add_to_flat_tlist.mp mem).imp_right fun h => .inl (by simp [h])
    next =>
      split at ok
      · cases ok
      cases ok
      refine ⟨fun ref mem used => ?_, fun e mem => mem_foldl_add_to_flat_tlist.mpr (.inl mem),
        fun e mem => .inr fun x hx agg => mem_foldl_add_to_flat_tlist.mpr (.inr ?_),
        fun x mem => ?_⟩
      · rw [refs ref mem used, Option.or_none, find_foldl_add_to_flat_tlist used]
      · have same : e = expr := by simpa using mem
        exact List.mem_filter.mpr ⟨same ▸ hx, agg⟩
      · refine (mem_foldl_add_to_flat_tlist.mp mem).imp_right fun h => .inr ⟨expr, by simp, ?_⟩
        exact List.mem_filter.mp h

/-- All entries. -/
theorem collected_of_foldlM {grouped_rel outerrel : StageRel V}
    {entries tlist tlist' : PathTarget V}
    (ok : entries.foldlM (root.groupExpr chfdw_is_foreign_expr grouped_rel outerrel) tlist =
      some tlist') : root.Collected entries tlist tlist' := by
  induction entries generalizing tlist with
  | nil =>
    cases ok
    exact ⟨fun _ _ _ => (Option.or_none).symm, fun _ mem => mem, nofun, fun _ mem => .inl mem⟩
  | cons entry entries ih =>
    rw [List.foldlM_cons] at ok
    obtain ⟨mid, one, rest⟩ := Option.bind_eq_some_iff.mp ok
    exact (collected_of_groupExpr one).append (ih rest)

/-- What a grouping that is pushed down fetches, and which conditions are remote. -/
structure Grouping (root : PlannerInfo V) (tlist : PathTarget V)
    (remote_conds local_conds : List (UpperExpr V)) : Prop where
  refs : ∀ ref ∈ root.groupClause, ref ≠ 0 →
    Keyed.find Prod.snd ref tlist = Keyed.find Prod.snd ref root.grouping_target
  fetched : ∀ e ∈ root.grouping_target.map Prod.fst ++ local_conds,
    Fetched (tlist.map Prod.fst) e
  only : ∀ x ∈ tlist.map Prod.fst,
    PartOf (root.grouping_target.map Prod.fst ++ root.havingQual) x
  split : ∃ test, remote_conds = root.havingQual.filter test ∧
    local_conds = root.havingQual.filter fun e => !test e

theorem of_foreign_grouping_ok {outerrel rel : StageRel V}
    (ok : root.foreign_grouping_ok chfdw_is_foreign_expr outerrel = some rel) :
    outerrel.has_local_conds = false ∧ ∃ tlist remote_conds local_conds,
      rel = .upper .GROUP_AGG tlist remote_conds local_conds outerrel ∧
        root.Grouping tlist remote_conds local_conds := by
  rw [foreign_grouping_ok] at ok
  split at ok
  · cases ok
  split at ok
  · cases ok
  next no_local =>
  obtain ⟨first, loop, ok⟩ := Option.bind_eq_some_iff.mp ok
  obtain ⟨tlist, aggs, rfl⟩ := Option.map_eq_some_iff.mp ok
  refine ⟨Bool.eq_false_iff.mpr no_local, tlist, _, _, rfl, ?_⟩
  have collected := collected_of_foldlM loop
  simp only [addLocalAggs, Option.ite_none_right_eq_some] at aggs
  obtain ⟨-, aggs⟩ := aggs
  cases aggs
  refine ⟨fun ref mem used => ?_, fun e mem => ?_, fun x mem => ?_, _, rfl, rfl⟩
  · rw [find_foldl_add_to_flat_tlist used, collected.refs ref mem used, Keyed.find_nil,
      Option.none_or]
  · rcases List.mem_append.mp mem with mem | mem
    · exact (collected.fetched e mem).mono fun x hx => mem_foldl_add_to_flat_tlist.mpr (.inl hx)
    · refine .inr fun x hx agg => mem_foldl_add_to_flat_tlist.mpr (.inr ?_)
      exact List.mem_filter.mpr ⟨List.mem_flatMap.mpr ⟨e, mem, hx⟩, agg⟩
  · rcases mem_foldl_add_to_flat_tlist.mp mem with mem | mem
    · rcases collected.only x mem with none | part
      · exact absurd none List.not_mem_nil
      · exact part.mono fun e he => List.mem_append_left _ he
    · obtain ⟨mem, agg⟩ := List.mem_filter.mp mem
      obtain ⟨e, he, part⟩ := List.mem_flatMap.mp mem
      exact .inr ⟨e, List.mem_append_right _ (List.mem_of_mem_filter he), part, agg⟩

end PlannerInfo

end

end PgClickhouse

import PgClickhouse.GroupedTlist

/-!
# Values above the scan

What a row carries and what it lets compute: values that agree on the parts of an
expression agree on it, so what is received of a row is as good as the row.
-/

namespace PgClickhouse

/-! ## Values -/

namespace Columns

section

variable {V : Type}

@[simp] theorem row_ofRow (row : Row V) : (ofRow row).row = row := rfl

/-- The row carries no values of scalar nodes but those in `es`. -/
def Plain (es : List (UpperExpr V)) (cols : Columns V) : Prop :=
  ∀ x, x.isScalar = true → x ∉ es → cols x = none

theorem Plain.mono {es es' : List (UpperExpr V)} {cols : Columns V} (plain : Plain es cols)
    (more : ∀ x ∈ es, x ∈ es') : Plain es' cols :=
  fun x scalar other => plain x scalar fun mem => other (more x mem)

theorem plain_ofRow (row : Row V) : Plain [] (ofRow row) := by
  intro x scalar _
  obtain ⟨tag, args⟩ := x
  cases tag with
  | var v => cases scalar
  | _ => rfl

end

section

variable {V : Type} [DecidableEq V] {F : Functions V}

theorem ofTuple_map (es : List (UpperExpr V)) (f : UpperExpr V → Value V) (e : UpperExpr V) :
    ofTuple es (es.map f) e = if e ∈ es then some (f e) else none := by
  induction es with
  | nil => rfl
  | cons x es ih =>
    rw [ofTuple] at ih ⊢
    rw [List.map_cons, List.zip_cons_cons]
    by_cases same : x = e
    · rw [Keyed.find_cons_of_eq same, if_pos (same ▸ List.mem_cons_self)]
      rw [same]
      rfl
    · rw [Keyed.find_cons_of_ne same, ih]
      simp [Ne.symm same]

theorem plain_ofTuple (es : List (UpperExpr V)) (f : UpperExpr V → Value V) :
    Plain es (ofTuple es (es.map f)) := by
  intro x _ other
  rw [ofTuple_map, if_neg other]

theorem ofTuple_eq_none {es : List (UpperExpr V)} {tuple : List (Value V)} {x : UpperExpr V}
    (other : x ∉ es) : ofTuple es tuple x = none := by
  rw [ofTuple, Option.map_eq_none_iff, Keyed.find_eq_none]
  intro entry mem same
  exact other (same ▸ (List.of_mem_zip mem).1)

theorem plain_ofGroup (keys : List (UpperExpr V)) (key : List (Value V))
    (rows : Multiset (Columns V)) : Plain keys (ofGroup F keys key rows) := by
  intro x scalar other
  obtain ⟨tag, args⟩ := x
  cases tag with
  | aggref aggfnoid => cases scalar
  | _ => simp only [ofGroup, ofTuple_eq_none other, Option.none_or]

theorem plain_of_mem_groups {keys : List (UpperExpr V)} {rows : Multiset (Columns V)}
    {cols : Columns V} (mem : cols ∈ groups F keys rows) : Plain keys cols := by
  rw [groups] at mem
  split at mem
  next none =>
    rw [Multiset.mem_singleton.mp mem, none]
    exact plain_ofGroup [] [] rows
  next =>
    obtain ⟨key, -, rfl⟩ := Multiset.mem_map.mp mem
    exact plain_ofGroup keys key _

/-- Window functions are no scalar nodes. -/
theorem plain_of_windowed {es wanted : List (UpperExpr V)} {rows out : Multiset (Columns V)}
    (windowed : Windowed F (UpperExpr.windowFuncs wanted) rows out)
    (plain : ∀ cols ∈ rows, Plain es cols) : ∀ cols ∈ out, Plain es cols := by
  intro cols mem
  rw [Windowed] at windowed
  split at windowed
  next => exact plain cols (windowed ▸ mem)
  next =>
    obtain ⟨assigned, rfl, -, rfl⟩ := windowed
    obtain ⟨a, ha, rfl⟩ := Multiset.mem_map.mp mem
    intro x scalar other
    rw [withWindow, if_neg]
    · exact plain a.1 (Multiset.mem_map_of_mem _ ha) x scalar other
    · intro func
      have func := UpperExpr.isWindowFunc_of_mem_windowFuncs func
      obtain ⟨tag, args⟩ := x
      cases tag <;> simp_all [UpperExpr.isScalar, UpperExpr.isWindowFunc, UpperExpr.tag]

end

end Columns

section

variable {V : Type} {F : Functions V}

open UpperExpr

/-- Without keys and aggregates an expression is constant. -/
theorem eval_of_constant {cols : Columns V} (plain : cols.Plain []) {e : UpperExpr V}
    (computed : Computed (fun _ => False) e) :
    e.eval F cols = e.eval F fun _ => none :=
  computed.eval_eq nofun (fun x scalar _ => plain x scalar List.not_mem_nil) fun _ _ _ => rfl

theorem contain_agg_clause_of_part {es : List (UpperExpr V)} {x : UpperExpr V}
    (part : PartOf es x) (agg : x.contain_agg_clause = true) :
    es.any contain_agg_clause = true := by
  rw [List.any_eq_true]
  rcases part with mem | h
  · exact ⟨x, mem, agg⟩
  · obtain ⟨e, mem, part, isAgg⟩ := h
    exact ⟨e, mem, List.any_eq_true.mpr ⟨x, part, isAgg⟩⟩

/-- An aggregate that is wanted is also fetched, alone or as part of an expression. -/
theorem any_agg_of_fetched {es : List (UpperExpr V)} {e : UpperExpr V}
    (fetched : Fetched es e) (agg : e.contain_agg_clause = true) :
    es.any contain_agg_clause = true := by
  rw [List.any_eq_true]
  rcases fetched with mem | aggs
  · exact ⟨e, mem, agg⟩
  · obtain ⟨x, part, isAgg⟩ := List.any_eq_true.mp agg
    refine ⟨x, aggs x part isAgg, List.any_eq_true.mpr ⟨x, ?_, isAgg⟩⟩
    obtain ⟨tag, args⟩ := x
    simp [pull_var_clause, pull, isAgg]

/-- An expression over keys and aggregates is computed from what is fetched. -/
theorem computed_of_fetched {keys es : List (UpperExpr V)} {e : UpperExpr V}
    (keyed : Computed (fun x => x ∈ keys ∨ x.isAggref = true) e)
    (has_keys : ∀ x ∈ keys, x ∈ es) (fetched : Fetched es e) : Computed (· ∈ es) e := by
  rcases fetched with mem | aggs
  · exact .part mem
  induction keyed with
  | @part x h =>
    rcases h with key | agg
    · exact .part (has_keys x key)
    · refine .part (aggs x ?_ agg)
      obtain ⟨tag, args⟩ := x
      simp [pull_var_clause, pull, agg]
  | const value args => exact .const value args
  | param paramid args => exact .param paramid args
  | func funcid args _ ih =>
    refine .func funcid args fun a ha => ih a ha fun x hx => aggs x ?_
    exact mem_pullList.mpr ⟨a, ha, hx⟩

/-- Without aggregates only keys are left. -/
theorem computed_of_no_agg {keys : List (UpperExpr V)} {e : UpperExpr V}
    (keyed : Computed (fun x => x ∈ keys ∨ x.isAggref = true) e)
    (no_agg : e.contain_agg_clause = false) : Computed (· ∈ keys) e := by
  refine computed_of_fetched keyed (fun _ mem => mem) (.inr fun x mem agg => ?_)
  have : e.contain_agg_clause = true := List.any_eq_true.mpr ⟨x, mem, agg⟩
  rw [no_agg] at this
  cases this

/-! ## Clauses -/

theorem forall₂_of_mapM {α β : Type} {f : α → Option β} {l : List α} {l' : List β}
    (ok : l.mapM f = some l') : List.Forall₂ (fun a b => f a = some b) l l' := by
  induction l generalizing l' with
  | nil =>
    cases ok
    exact .nil
  | cons a l ih =>
    rw [List.mapM_cons] at ok
    obtain ⟨b, hb, ok⟩ := Option.bind_eq_some_iff.mp ok
    obtain ⟨bs, hbs, ok⟩ := Option.bind_eq_some_iff.mp ok
    cases ok
    exact .cons hb (ih hbs)

theorem exists_mapM {α β : Type} {f : α → Option β} {l : List α}
    (defined : ∀ a ∈ l, (f a).isSome = true) : ∃ l', l.mapM f = some l' := by
  induction l with
  | nil => exact ⟨[], rfl⟩
  | cons a l ih =>
    obtain ⟨b, hb⟩ := Option.isSome_iff_exists.mp (defined a List.mem_cons_self)
    obtain ⟨bs, hbs⟩ := ih fun x hx => defined x (List.mem_cons_of_mem a hx)
    exact ⟨b :: bs, by rw [List.mapM_cons, hb, hbs]; rfl⟩

theorem filterMap_of_forall₂ {α β : Type} {f : α → Option β} {l : List α} {l' : List β}
    (pairs : List.Forall₂ (fun a b => f a = some b) l l') : l.filterMap f = l' := by
  induction pairs with
  | nil => rfl
  | cons h _ ih => rw [List.filterMap_cons_some h, ih]

theorem coe_filter {α : Type} (test : α → Bool) (l : List α) :
    ((l.filter test : List α) : Multiset α) = (l : Multiset α).filter (test · = true) := by
  simp [Multiset.filter_coe]

/-- The keys of ORDER BY, when each is found by `find`. -/
theorem of_sortKeys {find : PathKey V → Option (UpperExpr V)} {pathkeys : List (PathKey V)}
    {order_by : List (SortKey V)}
    (ok : (pathkeys.mapM fun pathkey =>
      (find pathkey).map (PlannerInfo.sortKey pathkey)) = some order_by)
    (member : ∀ pathkey e, find pathkey = some e → e ∈ pathkey.ec_members) :
    List.Forall₂ SortKey.Of pathkeys order_by ∧
      ∀ e ∈ order_by.map SortKey.expr, ∃ pathkey ∈ pathkeys, find pathkey = some e := by
  have pairs := forall₂_of_mapM ok
  clear ok
  induction pairs with
  | nil => exact ⟨.nil, nofun⟩
  | @cons pathkey key pathkeys keys h _ ih =>
    obtain ⟨e, found, rfl⟩ := Option.map_eq_some_iff.mp h
    refine ⟨.cons ⟨member pathkey e found, rfl, rfl⟩ ih.1, fun x mem => ?_⟩
    rcases List.mem_cons.mp mem with rfl | mem
    · exact ⟨pathkey, List.mem_cons_self, found⟩
    · obtain ⟨pathkey', mem', found'⟩ := ih.2 x mem
      exact ⟨pathkey', List.mem_cons_of_mem _ mem', found'⟩

theorem PlannerInfo.em_of_scan {rel : RelOptInfo (Expr V)} {ec_members : List (UpperExpr V)}
    {e : UpperExpr V} (found : scanSortExpr rel ec_members = some e) : e ∈ ec_members := by
  unfold scanSortExpr at found
  split at found
  · rcases Option.or_eq_some_iff.mp found with found | ⟨-, found⟩
    · exact List.mem_of_find?_eq_some found
    · exact List.mem_of_find?_eq_some found
  · rcases Option.or_eq_some_iff.mp found with found | ⟨-, found⟩
    · exact List.mem_of_find?_eq_some found
    · exact List.mem_of_find?_eq_some found
  · exact List.mem_of_find?_eq_some found

theorem PlannerInfo.Grouping.mem_havingQual {root : PlannerInfo V} {tlist : PathTarget V}
    {remote_conds local_conds : List (UpperExpr V)}
    (grouping : root.Grouping tlist remote_conds local_conds) (e : UpperExpr V) :
    e ∈ root.havingQual ↔ e ∈ remote_conds ∨ e ∈ local_conds := by
  obtain ⟨test, rfl, rfl⟩ := grouping.split
  rw [List.mem_filter, List.mem_filter]
  cases test e <;> simp

theorem PlannerInfo.Grouping.passes {root : PlannerInfo V} {tlist : PathTarget V}
    {remote_conds local_conds : List (UpperExpr V)}
    (grouping : root.Grouping tlist remote_conds local_conds) (cols : Columns V) :
    (passes F cols remote_conds && passes F cols local_conds) =
      passes F cols root.havingQual := by
  obtain ⟨test, rfl, rfl⟩ := grouping.split
  exact Kleene.all_split test _ _

/-- The statement groups by the keys of the query, and fetches them. -/
theorem PlannerInfo.Grouping.keys {root : PlannerInfo V} {tlist : PathTarget V}
    {remote_conds local_conds group_by : List (UpperExpr V)}
    (grouping : root.Grouping tlist remote_conds local_conds) (wf : root.WellFormed)
    (found : (root.groupClause.mapM fun ref => get_sortgroupref_tle ref tlist) = some group_by) :
    group_by = root.groupKeys ∧ ∀ x ∈ root.groupKeys, x ∈ tlist.map Prod.fst := by
  have pairs := filterMap_of_forall₂ (forall₂_of_mapM found)
  have same : group_by = root.groupKeys := by
    rw [← pairs, PlannerInfo.groupKeys]
    refine List.filterMap_congr fun ref mem => ?_
    rw [get_sortgroupref_tle, get_sortgroupref_tle, grouping.refs ref mem (wf.grouped ref mem).1]
  refine ⟨same, fun x mem => ?_⟩
  rw [← same, ← pairs] at mem
  obtain ⟨ref, -, found⟩ := List.mem_filterMap.mp mem
  obtain ⟨entry, first, rfl⟩ := Option.map_eq_some_iff.mp found
  exact List.mem_map_of_mem (Keyed.mem_of_find first)

/-- The target and the local conditions are computed from what is fetched. -/
theorem PlannerInfo.Grouping.computed {root : PlannerInfo V} {tlist : PathTarget V}
    {remote_conds local_conds : List (UpperExpr V)}
    (grouping : root.Grouping tlist remote_conds local_conds) (wf : root.WellFormed)
    (has_keys : ∀ x ∈ root.groupKeys, x ∈ tlist.map Prod.fst) :
    ∀ e ∈ root.grouping_target.map Prod.fst ++ local_conds,
      Computed (· ∈ tlist.map Prod.fst) e := by
  intro e mem
  refine computed_of_fetched (wf.keyed e ?_) has_keys (grouping.fetched e mem)
  rcases List.mem_append.mp mem with mem | mem
  · exact List.mem_append_left _ mem
  · exact List.mem_append_right _ ((grouping.mem_havingQual e).mpr (.inr mem))

end

section

variable {V : Type} [DecidableEq V] {F : Functions V}

open UpperExpr

/-- What is computed from the select list has the same value on the row received. -/
theorem eval_ofTuple {es : List (UpperExpr V)} {cols : Columns V} (plain : cols.Plain es)
    {e : UpperExpr V} (computed : Computed (· ∈ es) e) :
    e.eval F (Columns.ofTuple es (es.map (eval F cols))) = e.eval F cols := by
  refine computed.eval_eq (fun x mem => eval_of_some ?_) (Columns.plain_ofTuple es _) plain
  rw [Columns.ofTuple_map, if_pos mem]

end

end PgClickhouse

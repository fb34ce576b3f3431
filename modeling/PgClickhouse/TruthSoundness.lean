import PgClickhouse.TruthContext

/-!
# What truth contexts preserve

The text of an expression that the walker accepts in a truth context is true for the same rows
as the expression; if it is accepted in an exact context, the text without the flag has the same
three-valued result.  Both hold unless the text is broken, an array is NULL, or a body loses the
grouping of its query.

* `template_faithful` : one comparison with the elements of an array
* `broken_expr` : which texts are broken
* `renders_expr` : an expression in the context the walker was in
* `truth_contexts_sound` : both contexts of a whole expression
-/

namespace PgClickhouse.Truth

open Deparse

variable {W : Type}

/-! ## Truth values -/

@[simp] theorem truth_boolean (b : Option Bool) : truth (boolean b : Option (Value W)) = b := by
  cases b <;> rfl

@[simp] theorem holds_boolean (b : Option Bool) :
    holds (boolean b : Option (Value W)) = Kleene.passes b := by
  rw [holds, truth_boolean]

theorem holds_all (values : List (Option (Value W))) :
    holds (boolean (Kleene.all (values.map truth)) : Option (Value W)) = values.all holds := by
  rw [holds_boolean, Kleene.passes_all, List.all_map]
  rfl

theorem holds_any (values : List (Option (Value W))) :
    holds (boolean (Kleene.any (values.map truth)) : Option (Value W)) = values.any holds := by
  rw [holds_boolean, Kleene.passes_any, List.any_map]
  rfl

theorem holds_iff {value : Option (Value W)} : holds value = true ↔ value = some (.bool true) := by
  rcases value with _ | b | w
  · exact iff_of_false Bool.false_ne_true (Option.some_ne_none _).symm
  · rw [holds, truth, Kleene.passes, beq_iff_eq, Option.some_inj, Option.some_inj,
      Value.bool.injEq]
  · refine iff_of_false Bool.false_ne_true fun same => ?_
    cases same

theorem passes_congr {a b : Option Bool} (same : a = some true ↔ b = some true) :
    Kleene.passes a = Kleene.passes b := by
  rw [Bool.eq_iff_iff, Kleene.passes, Kleene.passes, beq_iff_eq, beq_iff_eq]
  exact same

/-! ## Texts in a context -/

/-- In a truth context the text with the flag holds like the value; in an exact context the text
without it is the value. -/
structure Renders (ctx : ExprTruthCtx) (text : Bool → Option (Value W))
    (value : Option (Value W)) : Prop where
  truth : ctx = .TRUTH → holds (text true) = holds value
  exact : ctx = .EXACT → text false = value

/-- The same of each of several texts. -/
structure RendersAll (ctx : ExprTruthCtx) (texts : Bool → List (Option (Value W)))
    (values : List (Option (Value W))) : Prop where
  truth : ctx = .TRUTH → (texts true).map holds = values.map holds
  exact : ctx = .EXACT → texts false = values

theorem renders_of_eq {ctx : ExprTruthCtx} {text : Bool → Option (Value W)}
    {value : Option (Value W)} (same : ∀ flag, text flag = value) : Renders ctx text value :=
  ⟨fun _ => by rw [same], fun _ => same false⟩

theorem kept_truth {ctx : ExprTruthCtx} (truth : ctx = .TRUTH) : kept_ctx ctx = .TRUTH := by
  rw [truth]
  rfl

theorem kept_exact {ctx : ExprTruthCtx} (exact : ctx = .EXACT) : kept_ctx ctx = .EXACT := by
  rw [exact]
  rfl

theorem Renders.of_kept {ctx : ExprTruthCtx} {text : Bool → Option (Value W)}
    {value : Option (Value W)} (kept : Renders (kept_ctx ctx) text value) :
    Renders ctx text value :=
  ⟨fun truth => kept.truth (kept_truth truth), fun exact => kept.exact (kept_exact exact)⟩

theorem all_of_map {values values' : List (Option (Value W))}
    (same : values.map holds = values'.map holds) : values.all holds = values'.all holds := by
  have all (l : List (Option (Value W))) : l.all holds = (l.map holds).all id := by
    rw [List.all_map]
    rfl
  rw [all, all, same]

theorem RendersAll.all {ctx : ExprTruthCtx} {texts : Bool → List (Option (Value W))}
    {values : List (Option (Value W))} (args : RendersAll (kept_ctx ctx) texts values) :
    Renders ctx (fun flag => boolean (Kleene.all ((texts flag).map Truth.truth)))
      (boolean (Kleene.all (values.map Truth.truth)) : Option (Value W)) where
  truth truth := by
    rw [holds_all, holds_all]
    exact all_of_map (args.truth (kept_truth truth))
  exact exact := by rw [args.exact (kept_exact exact)]

theorem RendersAll.any {ctx : ExprTruthCtx} {texts : Bool → List (Option (Value W))}
    {values : List (Option (Value W))} (args : RendersAll (kept_ctx ctx) texts values) :
    Renders ctx (fun flag => boolean (Kleene.any ((texts flag).map Truth.truth)))
      (boolean (Kleene.any (values.map Truth.truth)) : Option (Value W)) where
  truth truth := by
    have same := args.truth (kept_truth truth)
    rw [holds_any, holds_any]
    have any (l : List (Option (Value W))) : l.any holds = (l.map holds).any id := by
      rw [List.any_map]
      rfl
    rw [any, any, same]
  exact exact := by rw [args.exact (kept_exact exact)]

variable [DecidableEq W]

/-! ## Rows -/

/-- A row of a subquery agrees with the catalog on all tables of the range table. -/
def InnerRow (pg : Postgres) (plan : SubPlanInfo W) (env : Env (Value W)) : Prop :=
  ∀ relids, env.Consistent pg ⟨plan.rtable, relids⟩

/-- So do all rows of a subquery, and what is evaluated above the grouping of such rows. -/
structure RowsAgree (pg : Postgres) (plan : SubPlanInfo W) (data : SubQueryRows W) : Prop where
  scan : ∀ env ∈ data.scan, InnerRow pg plan env
  group : ∀ rows, (∀ env ∈ rows, InnerRow pg plan env) → InnerRow pg plan (data.group rows)

section

variable {pg : Postgres} {plan : SubPlanInfo W} {data : SubQueryRows W} {aggregated : Bool}
  {keys : List (Deparse.Expr (Value W))} {where_ where' having_ having' : Env (Value W) → Bool}

/-- The rows below HAVING. -/
theorem inner_of_mem (agree : RowsAgree pg plan data) {env : Env (Value W)}
    (mem : env ∈ data.grouped aggregated keys where_) : InnerRow pg plan env := by
  rw [SubQueryRows.grouped] at mem
  split at mem
  · obtain ⟨group, grouping, rfl⟩ := List.mem_map.mp mem
    refine agree.group group fun row inside => agree.scan row ?_
    exact List.mem_of_mem_filter (mem_groups grouping inside)
  · exact agree.scan env (List.mem_of_mem_filter mem)

/-- Conditions that are the same on the rows they are asked of select the same rows. -/
theorem rows_congr (same_where : ∀ env ∈ data.scan, where_ env = where' env)
    (same_having : ∀ env ∈ data.grouped aggregated keys where', having_ env = having' env) :
    data.rows aggregated keys where_ having_ = data.rows aggregated keys where' having' := by
  have scanned : data.scan.filter where_ = data.scan.filter where' :=
    List.filter_congr same_where
  rw [SubQueryRows.rows, SubQueryRows.grouped, scanned]
  exact List.filter_congr same_having

end

/-! ## NULLs -/

section

variable {pg : Postgres} {glob_cxt : foreign_glob_cxt} {env : Env (Value W)}
  {data : SubPlanInfo W → SubQueryRows W}

theorem never_null_value (consistent : env.Consistent pg glob_cxt) :
    ∀ e : Expr W, expr_never_null pg glob_cxt e = true → e.eval data env ≠ none
  | .RelabelType arg, proved => by
      rw [expr_never_null] at proved
      rw [Expr.eval]
      exact never_null_value consistent arg proved
  | .leaf e, proved => by
      rw [expr_never_null] at proved
      rw [Expr.eval]
      exact Deparse.never_null_value consistent e proved
  | .AND_EXPR _, proved | .OR_EXPR _, proved | .NOT_EXPR _, proved | .NullTest .., proved
  | .CaseExpr _, proved | .CaseOf .., proved | .ScalarArrayOpExpr .., proved
  | .SubPlan .., proved => by
      rw [expr_never_null.eq_def] at proved
      cases proved

theorem never_null_values (consistent : env.Consistent pg glob_cxt) :
    ∀ args : Args W, args_never_null pg glob_cxt args = true → none ∉ args.eval data env
  | .nil, _ => by
      rw [Args.eval]
      exact List.not_mem_nil
  | .cons arg rest, proved => by
      rw [args_never_null, Bool.and_eq_true] at proved
      rw [Args.eval, List.mem_cons, not_or]
      exact ⟨(never_null_value consistent arg proved.1).symm,
        never_null_values consistent rest proved.2⟩

variable {arr : ArrayArg W} {elements : List (Option (Value W))}

theorem empty_of_saop_array_nulls (value : arr.eval data env = some elements)
    (known : saop_array_nulls pg glob_cxt arr = .EMPTY) : elements = [] := by
  rcases arr with (_ | array) | exprs | ⟨index, nested⟩
  · rw [ArrayArg.eval] at value
    cases value
  · rw [ArrayArg.eval] at value
    obtain rfl := Option.some.inj value
    rw [saop_array_nulls] at known
    split at known
    · rename_i none_stored
      exact List.eq_nil_of_length_eq_zero (array.sized.trans none_stored)
    · split at known <;> cases known
  · rw [ArrayArg.eval] at value
    obtain rfl := Option.some.inj value
    rw [saop_array_nulls] at known
    cases exprs with
    | nil => rw [Args.eval]
    | cons arg rest =>
        rw [Args.isEmpty, if_neg (by decide)] at known
        split at known <;> cases known
  · rw [saop_array_nulls] at known
    cases known

theorem null_free_of_saop_array_nulls (consistent : env.Consistent pg glob_cxt)
    (value : arr.eval data env = some elements)
    (known : saop_array_nulls pg glob_cxt arr = .NULL_FREE) :
    elements ≠ [] ∧ none ∉ elements := by
  rcases arr with (_ | array) | exprs | ⟨index, nested⟩
  · rw [ArrayArg.eval] at value
    cases value
  · rw [ArrayArg.eval, Option.map_some] at value
    obtain rfl := Option.some.inj value
    rw [saop_array_nulls] at known
    split at known
    · cases known
    rename_i some_stored
    split at known
    · cases known
    rename_i no_bitmap
    refine ⟨fun empty => some_stored ?_, array.no_bitmap (Bool.not_eq_true _ ▸ no_bitmap)⟩
    rw [← array.sized, empty, List.length_nil]
  · rw [ArrayArg.eval] at value
    obtain rfl := Option.some.inj value
    rw [saop_array_nulls] at known
    cases exprs with
    | nil =>
        rw [Args.isEmpty, if_pos rfl] at known
        cases known
    | cons arg rest =>
        rw [Args.isEmpty, if_neg (by decide)] at known
        split at known
        · rename_i proved
          refine ⟨by rw [Args.eval]; exact List.cons_ne_nil _ _, ?_⟩
          exact never_null_values consistent _ proved
        · cases known
  · rw [saop_array_nulls] at known
    cases known

/-! ## Comparisons with the elements of an array -/

/-- Whatever form is chosen, over the operands it has PostgreSQL's three-valued result, and in
a truth context it is true exactly where PostgreSQL's result is. -/
theorem template_faithful (consistent : env.Consistent pg glob_cxt)
    (truth_ctx : Bool) (op : Comparison) (useOr : Bool) (arg1 : Expr W)
    (value : arr.eval data env = some elements) :
    let text := (deparseScalarArrayOpExpr pg glob_cxt truth_ctx op useOr arg1 arr).eval
      (operands env (arg1.eval data env) elements)
    let result := ExecEvalScalarArrayOp op useOr (arg1.eval data env) elements
    (truth_ctx = false → text = result) ∧ (text = some true ↔ result = some true) := by
  have exact {text result : Option Bool} (eval : text = result) :
      (truth_ctx = false → text = result) ∧ (text = some true ↔ result = some true) :=
    ⟨fun _ => eval, by rw [eval]⟩
  have operand : (Deparse.ArrayArg.node 0).eval (operands env (arg1.eval data env) elements) =
      some elements := rfl
  unfold deparseScalarArrayOpExpr
  simp only
  split_ifs with native cheap
  · rw [native_form, decide_eq_true_eq] at native
    obtain ⟨chosen, -, family⟩ := native
    have matching : op = .eq ↔ useOr = true := by
      cases op <;> cases useOr <;> simp_all
    rw [SaopText.eval_condition]
    by_cases free : saop_array_nulls pg glob_cxt arr = .NULL_FREE
    · obtain ⟨some_stored, null_free⟩ := null_free_of_saop_array_nulls consistent value free
      refine exact ?_
      exact native_eval operand matching some_stored null_free
    · obtain ⟨truth, any, -⟩ := chosen.resolve_left free
      refine ⟨fun exact_ctx => ?_, ?_⟩
      · rw [truth] at exact_ctx
        cases exact_ctx
      · exact native_eval_true operand (matching.mpr any) any
  · rw [SaopText.eval_condition]
    refine exact (cheap_eval operand ?_)
    rcases cheap with empty | ⟨free, proved⟩
    · exact Or.inl (empty_of_saop_array_nulls value empty)
    · exact Or.inr ⟨(null_free_of_saop_array_nulls consistent value free).2,
        never_null_value consistent arg1 proved⟩
  · exact exact (guarded_eval operand)

end

/-! ## Subplans -/

section

variable {pg : Postgres} {glob_cxt : foreign_glob_cxt} {plan : SubPlanInfo W}
  {data : SubPlanInfo W → SubQueryRows W} {out : Expr W} {quals havingQual : Args W}
  {output : Text W} {WHERE HAVING : Texts W}

/-- The values of the output column. -/
def queryOutputs (data : SubPlanInfo W → SubQueryRows W) (plan : SubPlanInfo W) (out : Expr W)
    (quals havingQual : Args W) : List (Option (Value W)) :=
  (plan.limited (queryRows data plan quals havingQual)).map (out.eval data)

theorem eval_subPlan (probe : Expr W) (env : Env (Value W)) :
    (Expr.SubPlan plan probe out quals havingQual).eval data env =
      boolean (Kleene.any ((queryOutputs data plan out quals havingQual).map
        (plan.op.apply (probe.eval data env)))) := by
  rw [Expr.eval, queryOutputs, List.map_map]
  rfl

omit [DecidableEq W] in
theorem of_supported (supported : plan.has_unsupported = false) :
    plan.limitOffset = none ∧ plan.limitCount = none := by
  rw [SubPlanInfo.has_unsupported] at supported
  simp only [Bool.or_eq_false_iff, Option.isSome_eq_false_iff, Option.isNone_iff_eq_none]
    at supported
  obtain ⟨⟨⟨⟨⟨-, no_offset⟩, no_count⟩, -⟩, -⟩, -⟩ := supported
  exact ⟨no_offset, no_count⟩

omit [DecidableEq W] in
/-- What ClickHouse sees of the grouping. -/
theorem body_aggregated (kept : plan.Kept havingQual) :
    (plan.out_agg || !plan.groupClause.isEmpty || !havingQual.isEmpty) =
      plan.aggregated havingQual := by
  rw [Bool.eq_iff_iff]
  constructor
  · intro seen
    rw [Bool.or_eq_true, Bool.or_eq_true] at seen
    rw [SubPlanInfo.aggregated, Bool.or_eq_true, Bool.or_eq_true, Bool.or_eq_true]
    rcases seen with (listed | keys) | having
    · exact .inl (.inl (.inl (plan.aggregate listed)))
    · exact .inl (.inl (.inr keys))
    · exact .inr having
  · intro aggregated
    rcases kept aggregated with listed | keys | having
    · rw [listed, Bool.true_or, Bool.true_or]
    · rw [List.isEmpty_eq_false_iff.mpr keys, Bool.not_false, Bool.or_true, Bool.true_or]
    · rw [having, Bool.not_false, Bool.or_true]

/-- The parts of a body are rendered on the rows they are evaluated on. -/
structure RendersBody (data : SubPlanInfo W → SubQueryRows W)
    (plan : SubPlanInfo W) (out : Expr W) (quals havingQual : Args W) (output : Text W)
    (WHERE HAVING : Texts W) : Prop where
  where_ : ∀ env ∈ (data plan).scan,
    (WHERE.eval data env).all holds = (quals.eval data env).all holds
  having_ : ∀ env ∈ queryGroups data plan quals havingQual,
    (HAVING.eval data env).all holds = (havingQual.eval data env).all holds
  column : ∀ env ∈ queryRows data plan quals havingQual,
    output.eval data env = out.eval data env
  none_ : HAVING.isEmpty = havingQual.isEmpty

/-- The body of an accepted subplan that keeps the grouping has the values of the subquery. -/
theorem outputs_column (supported : plan.has_unsupported = false) (kept : plan.Kept havingQual)
    (body : RendersBody data plan out quals havingQual output WHERE HAVING) :
    (Body.column plan output WHERE HAVING).outputs data =
      queryOutputs data plan out quals havingQual := by
  obtain ⟨no_offset, no_count⟩ := of_supported supported
  rw [Body.outputs, queryOutputs, SubPlanInfo.limited, no_offset, no_count, body.none_,
    body_aggregated kept, rows_congr body.where_ body.having_]
  exact List.map_congr_left fun env mem => body.column env mem

theorem holds_snoc (last : Text W) (env : Env (Value W)) : ∀ texts : Texts W,
    ((texts.snoc last).eval data env).all holds =
      ((texts.eval data env).all holds && holds (last.eval data env))
  | .nil => by simp [Texts.snoc, Texts.eval]
  | .cons text rest => by
      simp [Texts.snoc, Texts.eval, holds_snoc last env rest, Bool.and_assoc]

omit [DecidableEq W] in
theorem of_classify_plain {probe : Expr W}
    (form : classify_notin_subplan pg glob_cxt plan probe out havingQual = .PLAIN) :
    notin_prove_nullability pg glob_cxt plan probe out = ⟨false, false⟩ := by
  rw [classify_notin_subplan] at form
  split at form
  · assumption
  · split at form <;> cases form

omit [DecidableEq W] in
theorem of_classify_guarded {probe : Expr W}
    (form : classify_notin_subplan pg glob_cxt plan probe out havingQual = .GUARDED) :
    plan.groupClause = [] ∧ havingQual.isEmpty = true ∧ plan.hasAggs = false := by
  rw [classify_notin_subplan] at form
  split at form
  · cases form
  split at form
  · rename_i plain
    rw [Bool.and_eq_true, Bool.and_eq_true, Bool.not_eq_true', List.isEmpty_iff] at plain
    exact ⟨plain.1.1, plain.1.2, plain.2⟩
  · cases form

omit [DecidableEq W] in
/-- A guarded body that keeps the grouping has none. -/
theorem not_aggregated (kept : plan.Kept havingQual) (ungrouped : plan.groupClause = [])
    (no_having : havingQual.isEmpty = true) (no_aggs : plan.hasAggs = false) :
    plan.aggregated havingQual = false := by
  by_contra aggregated
  rw [Bool.not_eq_false] at aggregated
  rcases kept aggregated with listed | keys | having
  · cases no_aggs.symm.trans (plan.aggregate listed)
  · exact keys ungrouped
  · cases no_having.symm.trans having

/-- The null probe of an ungrouped body finds a row exactly if an output is NULL. -/
theorem outputs_constant (supported : plan.has_unsupported = false)
    (kept : plan.Kept havingQual)
    (body : RendersBody data plan out quals havingQual output WHERE HAVING)
    (ungrouped : plan.groupClause = []) (no_having : havingQual.isEmpty = true)
    (no_aggs : plan.hasAggs = false) :
    ((Body.constant plan (WHERE.snoc (.IS_NULL output)) HAVING).outputs data).isEmpty = true ↔
      none ∉ queryOutputs data plan out quals havingQual := by
  obtain ⟨no_offset, no_count⟩ := of_supported supported
  have single := not_aggregated kept ungrouped no_having no_aggs
  have groups : queryGroups data plan quals havingQual =
      (data plan).scan.filter fun row => (quals.eval data row).all holds := by
    rw [queryGroups, SubQueryRows.grouped, single]
    rfl
  have rows : queryRows data plan quals havingQual = queryGroups data plan quals havingQual := by
    have all (row : Env (Value W)) : (havingQual.eval data row).all holds = true := by
      cases havingQual with
      | nil => rw [Args.eval, List.all_nil]
      | cons => cases no_having
    simp only [queryRows, all, List.filter_true]
  have outputs : queryOutputs data plan out quals havingQual =
      (queryGroups data plan quals havingQual).map (out.eval data) := by
    rw [queryOutputs, SubPlanInfo.limited, no_offset, no_count, rows, Option.getD_none,
      List.drop_zero]
  have all (row : Env (Value W)) : (HAVING.eval data row).all holds = true := by
    have none_ := body.none_.trans no_having
    cases HAVING with
    | nil => rw [Texts.eval, List.all_nil]
    | cons => cases none_
  have column := body.column
  rw [rows, groups] at column
  rw [groups] at outputs
  rw [Body.outputs, SubQueryRows.rows, SubQueryRows.grouped, body.none_, no_having, ungrouped,
    outputs, List.isEmpty_iff]
  simp only [List.isEmpty_nil, Bool.not_true, Bool.or_self, Bool.false_eq_true, if_false, all,
    List.filter_true, List.map_eq_nil_iff, List.filter_eq_nil_iff, List.mem_map, holds_snoc]
  constructor
  · rintro nothing ⟨row, passing, null⟩
    obtain ⟨scanned, passes⟩ := List.mem_filter.mp passing
    refine nothing row scanned ?_
    rw [body.where_ row scanned, passes, Text.eval, column row passing, null]
    rfl
  · intro nothing row scanned both
    rw [body.where_ row scanned, Bool.and_eq_true] at both
    have passing : row ∈ (data plan).scan.filter fun row => (quals.eval data row).all holds :=
      List.mem_filter.mpr ⟨scanned, both.1⟩
    refine nothing ⟨row, passing, ?_⟩
    have null := both.2
    rw [Text.eval, column row passing] at null
    rcases value : out.eval data row with _ | value'
    · rfl
    · rw [value] at null
      cases null

end

/-! ## IN and NOT IN -/

section

variable {data : SubPlanInfo W → SubQueryRows W} {env : Env (Value W)} {probe : Text W}
  {body nullProbe : Body W} {value : Option (Value W)} {outs : List (Option (Value W))}

/-- IN is true for the same probes. -/
theorem holds_IN (scalar : probe.eval data env = value) (outputs : body.outputs data = outs) :
    holds ((Text.IN probe body).eval data env) =
      holds (boolean (Kleene.any (outs.map (Comparison.eq.apply value))) :
        Option (Value W)) := by
  rw [Text.eval, holds_boolean, holds_boolean]
  refine passes_congr ?_
  rw [scalar, outputs, any_eq_true_iff]
  cases value with
  | none => simp
  | some x => simp

/-- Without NULLs IN has PostgreSQL's answer. -/
theorem eval_IN (scalar : probe.eval data env = value) (outputs : body.outputs data = outs)
    (some_probe : value ≠ none) (values : none ∉ outs) :
    (Text.IN probe body).eval data env =
      boolean (Kleene.any (outs.map (Comparison.eq.apply value))) := by
  obtain ⟨x, rfl⟩ := Option.ne_none_iff_exists'.mp some_probe
  rw [Text.eval, scalar, outputs, any_eq_of_values x values]
  rfl

/-- The guarded NOT IN is true for the same probes as PostgreSQL's. -/
theorem holds_guarded {nulls : NotInNullability} (scalar : probe.eval data env = value)
    (outputs : body.outputs data = outs)
    (no_null : (nullProbe.outputs data).isEmpty = true ↔ none ∉ outs)
    (some_probe : nulls.PROBE_NULLABLE = false → value ≠ none)
    (values : nulls.OUTPUT_NULLABLE = false → none ∉ outs) :
    holds ((deparseGuardedNotIn nulls probe body nullProbe).eval data env) =
      holds (boolean (Kleene.not (Kleene.any (outs.map (Comparison.eq.apply value)))) :
        Option (Value W)) := by
  rw [holds_boolean, holds]
  refine passes_congr ?_
  rw [not_any_eq_true_iff]
  -- for a probe that is not NULL
  have notIn (x : Value W) (found : value = some x) :
      truth ((if nulls.OUTPUT_NULLABLE then
          .AND (.cons (.NOT_IN probe body) (.cons (.NOT_EXISTS nullProbe) .nil))
        else .NOT_IN probe body : Text W).eval data env) = some true ↔
      some x ∉ outs ∧ none ∉ outs := by
    have alone : truth ((Text.NOT_IN probe body).eval data env) = some true ↔ some x ∉ outs := by
      rw [Text.eval, truth_boolean, scalar, outputs, found]
      simp
    split
    · rw [Text.eval, truth_boolean, Texts.eval, Texts.eval, Texts.eval, List.map_cons,
        List.map_cons, List.map_nil, Kleene.all, List.foldr_cons, List.foldr_cons, List.foldr_nil,
        Kleene.and_eq_true, Kleene.and_eq_true, alone, Text.eval, truth, Option.some_inj, no_null]
      simp
    · rename_i proved
      rw [alone, and_iff_left (values (Bool.eq_false_iff.mpr proved))]
  rw [deparseGuardedNotIn]
  rcases given : value with _ | x
  · have nullable : nulls.PROBE_NULLABLE = true := by
      cases proved : nulls.PROBE_NULLABLE with
      | true => rfl
      | false => exact absurd given (some_probe proved)
    rw [if_pos nullable, Text.eval, WhenTexts.eval, Text.eval, scalar, given, if_pos (by rfl),
      Text.eval, outputs, truth, Option.some_inj, List.isEmpty_iff]
    simp
  · have answer : outs = [] ∨ (∃ y, some x = some y ∧ some y ∉ outs ∧ none ∉ outs) ↔
        some x ∉ outs ∧ none ∉ outs := by
      constructor
      · rintro (rfl | ⟨y, same, found⟩)
        · exact ⟨List.not_mem_nil, List.not_mem_nil⟩
        · rwa [same]
      · exact fun found => Or.inr ⟨x, rfl, found⟩
    rw [answer, ← notIn x given]
    split
    · rw [Text.eval, WhenTexts.eval, Text.eval, scalar, given,
        if_neg (by exact Bool.false_ne_true), WhenTexts.eval]
    · rfl

end

/-! ## The walker's contexts -/

section

variable {pg : Postgres} {checks : Expr W → Bool} {server : Option Nat}
  {version : Option ch_server_version} {wcxt : foreign_glob_cxt} {subquery_scope : Bool}
  {ctx : ExprTruthCtx}

omit [DecidableEq W] in
/-- What the gate asks of an ANY subplan. -/
structure Accepted (pg : Postgres) (checks : Expr W → Bool) (server : Option Nat)
    (version : Option ch_server_version) (wcxt : foreign_glob_cxt) (ctx : ExprTruthCtx)
    (plan : SubPlanInfo W) (probe out : Expr W) (quals havingQual : Args W) : Prop where
  supported : plan.has_unsupported = false
  equality : plan.op = .eq
  lhs : foreign_expr_walker pg checks server version probe wcxt false .EXACT = true
  target : foreign_expr_walker pg checks server version out plan.scope true .EXACT = true
  where_ : args_walker pg checks server version quals plan.scope true .TRUTH = true
  having_ : args_walker pg checks server version havingQual plan.scope true .TRUTH = true
  negated : ctx = .NEGATED →
    classify_notin_subplan pg wcxt plan probe out havingQual ≠ .NONE
  exact : ctx = .EXACT → classify_notin_subplan pg wcxt plan probe out havingQual = .PLAIN

omit [DecidableEq W] in
theorem of_walker {plan : SubPlanInfo W} {probe out : Expr W} {quals havingQual : Args W}
    (accepted : foreign_expr_walker pg checks server version
      (.SubPlan plan probe out quals havingQual) wcxt subquery_scope ctx = true) :
    subquery_scope = false ∧
      Accepted pg checks server version wcxt ctx plan probe out quals havingQual := by
  rw [foreign_expr_walker] at accepted
  simp only [Bool.and_eq_true, Bool.not_eq_true', Option.any_eq_true, beq_iff_eq] at accepted
  obtain ⟨⟨⟨⟨⟨⟨⟨⟨⟨⟨⟨⟨rfl, -, -, ⟨supported, -⟩, -⟩, operator⟩, -⟩, lhs⟩, -⟩, -⟩, target⟩, where_⟩,
    having_⟩, form⟩, -⟩, -⟩ := accepted
  refine ⟨rfl, supported, ?_, lhs, target, where_, having_, fun negated => ?_, fun exact => ?_⟩
  · cases op : plan.op with
    | eq => rfl
    | ne =>
        rw [op, chfdw_is_equal_op_ne] at operator
        cases operator
  · rw [negated] at form
    simpa using form
  · rw [exact] at form
    simpa using form

omit [DecidableEq W] in
/-- Only a subplan takes note that it is negated. -/
theorem walker_negated {e : Expr W}
    (other : ∀ plan probe out quals havingQual, e ≠ .SubPlan plan probe out quals havingQual)
    (accepted : foreign_expr_walker pg checks server version e wcxt subquery_scope .NEGATED =
      true) :
    foreign_expr_walker pg checks server version e wcxt subquery_scope .EXACT = true := by
  cases e with
  | SubPlan plan probe out quals havingQual => exact absurd rfl (other plan probe out quals _)
  | _ =>
      rw [foreign_expr_walker] at accepted ⊢
      exact accepted

end

/-! ## Broken texts -/

section

variable {pg : Postgres}

omit [DecidableEq W] in
theorem broken_whenText (expr : Expr W) (text : Text W) :
    (whenText expr text).broken = text.broken := by
  unfold whenText
  split
  · rw [Text.broken]
  · rfl

omit [DecidableEq W] in
theorem broken_snoc (last : Text W) : ∀ texts : Texts W,
    (texts.snoc last).broken = (texts.broken || last.broken)
  | .nil => by rw [Texts.snoc, Texts.broken, Texts.broken, Texts.broken, Bool.or_comm]
  | .cons text rest => by
      rw [Texts.snoc, Texts.broken, Texts.broken, broken_snoc last rest, Bool.or_assoc]

omit [DecidableEq W] in
/-- The null probe of a body has the parts of the body. -/
theorem broken_constant (plan : SubPlanInfo W) (out : Text W) (WHERE HAVING : Texts W) :
    (Body.constant plan (WHERE.snoc (.IS_NULL out)) HAVING).broken =
      (Body.column plan out WHERE HAVING).broken := by
  rw [Body.broken, Body.broken, broken_snoc, Text.broken, Bool.or_comm WHERE.broken]

omit [DecidableEq W] in
/-- Every form of a guarded NOT IN prints its probe and its body. -/
theorem broken_guarded (nulls : NotInNullability) (probe : Text W) {body nullProbe : Body W}
    (same : nullProbe.broken = body.broken) :
    (deparseGuardedNotIn nulls probe body nullProbe).broken = (probe.broken || body.broken) := by
  rw [deparseGuardedNotIn]
  split_ifs <;> simp [same, Bool.or_comm]

omit [DecidableEq W] in
/-- NOT over anything but a subplan. -/
theorem deparse_not {arg : Expr W}
    (other : ∀ plan probe out quals havingQual, arg ≠ .SubPlan plan probe out quals havingQual)
    (dcxt : foreign_glob_cxt) (params : List Nat) (flag : Bool) :
    deparseExpr pg (.NOT_EXPR arg) dcxt params flag =
      .NOT (deparseExpr pg arg dcxt params false) := by
  cases arg with
  | SubPlan plan probe out quals havingQual => exact absurd rfl (other plan probe out quals _)
  | _ => conv_lhs => rw [deparseExpr.eq_def]

section

variable {dcxt : foreign_glob_cxt} {params : List Nat} {flag : Bool}

omit [DecidableEq W] in
theorem broken_not {arg : Expr W}
    (other : ∀ plan probe out quals havingQual, arg ≠ .SubPlan plan probe out quals havingQual)
    (inner : (deparseExpr pg arg dcxt params false).broken = arg.broken pg dcxt params false) :
    (deparseExpr pg (.NOT_EXPR arg) dcxt params flag).broken =
      (Expr.NOT_EXPR arg).broken pg dcxt params flag := by
  rw [deparse_not other, Text.broken, Expr.broken, inner]

variable {plan : SubPlanInfo W} {probe out : Expr W} {quals havingQual : Args W}

omit [DecidableEq W] in
/-- A subplan, negated or not, prints its probe and its body. -/
theorem broken_subPlan
    (lhs : (deparseExpr pg probe dcxt params false).broken = probe.broken pg dcxt params false)
    (target : (deparseExpr pg out (plan.bodyCxt dcxt) plan.parParam false).broken =
      out.broken pg (plan.bodyCxt dcxt) plan.parParam false)
    (where_ : (deparseArgs pg quals (plan.bodyCxt dcxt) plan.parParam true).broken =
      quals.broken pg (plan.bodyCxt dcxt) plan.parParam true)
    (having_ : (deparseArgs pg havingQual (plan.bodyCxt dcxt) plan.parParam true).broken =
      havingQual.broken pg (plan.bodyCxt dcxt) plan.parParam true) :
    (deparseExpr pg (.SubPlan plan probe out quals havingQual) dcxt params flag).broken =
        (Expr.SubPlan plan probe out quals havingQual).broken pg dcxt params flag ∧
      (deparseExpr pg (.NOT_EXPR (.SubPlan plan probe out quals havingQual)) dcxt params
        flag).broken =
        (Expr.NOT_EXPR (.SubPlan plan probe out quals havingQual)).broken pg dcxt params
          flag := by
  have body : (Body.column plan (deparseExpr pg out (plan.bodyCxt dcxt) plan.parParam false)
      (deparseArgs pg quals (plan.bodyCxt dcxt) plan.parParam true)
      (deparseArgs pg havingQual (plan.bodyCxt dcxt) plan.parParam true)).broken =
      (out.broken pg (plan.bodyCxt dcxt) plan.parParam false ||
        quals.broken pg (plan.bodyCxt dcxt) plan.parParam true ||
        havingQual.broken pg (plan.bodyCxt dcxt) plan.parParam true) := by
    rw [Body.broken, target, where_, having_]
  constructor
  · rw [deparseExpr, Text.broken, Expr.broken, lhs, body]
  · rw [deparseExpr, Expr.broken, Expr.broken]
    split_ifs
    · rw [broken_guarded _ _ (broken_constant plan _ _ _), lhs, body]
    · rw [Text.broken, Text.broken, lhs, body]

end

set_option linter.unusedSectionVars false

mutual

/-- The text of an expression is broken exactly where the expression says so. -/
theorem broken_expr : ∀ (e : Expr W) (dcxt : foreign_glob_cxt) (params : List Nat)
    (flag : Bool), (deparseExpr pg e dcxt params flag).broken = e.broken pg dcxt params flag
  | .leaf e, _, _, _ => by rw [deparseExpr, Text.broken, Expr.broken]
  | .RelabelType arg, _, _, _ => by rw [deparseExpr, Expr.broken, broken_expr arg]
  | .AND_EXPR args, _, _, _ => by rw [deparseExpr, Text.broken, Expr.broken, broken_args args]
  | .OR_EXPR args, _, _, _ => by rw [deparseExpr, Text.broken, Expr.broken, broken_args args]
  | .NOT_EXPR (.SubPlan plan probe out quals havingQual), _, _, _ =>
      (broken_subPlan (broken_expr probe _ _ _) (broken_expr out _ _ _) (broken_args quals _ _ _)
        (broken_args havingQual _ _ _)).2
  | .NOT_EXPR (.leaf e), _, _, _ =>
      broken_not (fun _ _ _ _ _ => nofun) (broken_expr (.leaf e) _ _ _)
  | .NOT_EXPR (.RelabelType arg), _, _, _ =>
      broken_not (fun _ _ _ _ _ => nofun) (broken_expr (.RelabelType arg) _ _ _)
  | .NOT_EXPR (.AND_EXPR args), _, _, _ =>
      broken_not (fun _ _ _ _ _ => nofun) (broken_expr (.AND_EXPR args) _ _ _)
  | .NOT_EXPR (.OR_EXPR args), _, _, _ =>
      broken_not (fun _ _ _ _ _ => nofun) (broken_expr (.OR_EXPR args) _ _ _)
  | .NOT_EXPR (.NOT_EXPR arg), _, _, _ =>
      broken_not (fun _ _ _ _ _ => nofun) (broken_expr (.NOT_EXPR arg) _ _ _)
  | .NOT_EXPR (.NullTest test arg), _, _, _ =>
      broken_not (fun _ _ _ _ _ => nofun) (broken_expr (.NullTest test arg) _ _ _)
  | .NOT_EXPR (.CaseExpr whens), _, _, _ =>
      broken_not (fun _ _ _ _ _ => nofun) (broken_expr (.CaseExpr whens) _ _ _)
  | .NOT_EXPR (.CaseOf arg whens), _, _, _ =>
      broken_not (fun _ _ _ _ _ => nofun) (broken_expr (.CaseOf arg whens) _ _ _)
  | .NOT_EXPR (.ScalarArrayOpExpr op useOr arg1 arg2), _, _, _ =>
      broken_not (fun _ _ _ _ _ => nofun)
        (broken_expr (.ScalarArrayOpExpr op useOr arg1 arg2) _ _ _)
  | .NullTest .IS_NULL arg, _, _, _ => by
      rw [deparseExpr, Text.broken, Expr.broken, broken_expr arg]
  | .NullTest .IS_NOT_NULL arg, _, _, _ => by
      rw [deparseExpr, Text.broken, Expr.broken, broken_expr arg]
  | .CaseExpr whens, _, _, _ => by
      rw [deparseExpr, Text.broken, Expr.broken, broken_whens whens]
  | .CaseOf arg whens, _, _, _ => by
      rw [deparseExpr, Text.broken, Expr.broken, broken_expr arg, broken_values whens]
  | .ScalarArrayOpExpr op useOr arg1 arg2, _, _, _ => by
      rw [deparseExpr, Text.broken, Expr.broken, broken_expr arg1, broken_array arg2]
  | .SubPlan plan probe out quals havingQual, _, _, _ =>
      (broken_subPlan (broken_expr probe _ _ _) (broken_expr out _ _ _) (broken_args quals _ _ _)
        (broken_args havingQual _ _ _)).1

theorem broken_args : ∀ (args : Args W) (dcxt : foreign_glob_cxt) (params : List Nat)
    (flag : Bool), (deparseArgs pg args dcxt params flag).broken = args.broken pg dcxt params flag
  | .nil, _, _, _ => by rw [deparseArgs, Texts.broken, Args.broken]
  | .cons arg rest, _, _, _ => by
      rw [deparseArgs, Texts.broken, Args.broken, broken_expr arg, broken_args rest]

theorem broken_whens : ∀ (whens : Whens W) (dcxt : foreign_glob_cxt) (params : List Nat)
    (flag : Bool),
    (deparseWhens pg whens dcxt params flag).broken = whens.broken pg dcxt params true flag
  | .END, _, _, _ => by rw [deparseWhens, WhenTexts.broken, Whens.broken]
  | .ELSE defresult, _, _, _ => by
      rw [deparseWhens, WhenTexts.broken, Whens.broken, broken_expr defresult]
  | .WHEN expr result rest, _, _, _ => by
      rw [deparseWhens, WhenTexts.broken, Whens.broken, broken_whenText, broken_expr expr,
        broken_expr result, broken_whens rest]

theorem broken_values : ∀ (whens : Whens W) (dcxt : foreign_glob_cxt) (params : List Nat)
    (flag : Bool),
    (deparseValues pg whens dcxt params flag).broken = whens.broken pg dcxt params false flag
  | .END, _, _, _ => by rw [deparseValues, WhenTexts.broken, Whens.broken]
  | .ELSE defresult, _, _, _ => by
      rw [deparseValues, WhenTexts.broken, Whens.broken, broken_expr defresult]
  | .WHEN value result rest, _, _, _ => by
      rw [deparseValues, WhenTexts.broken, Whens.broken, broken_expr value, broken_expr result,
        broken_values rest]

theorem broken_array : ∀ (arr : ArrayArg W) (dcxt : foreign_glob_cxt) (params : List Nat),
    (deparseArray pg arr dcxt params).broken = arr.broken pg dcxt params
  | .Const none, _, _ => by
      rw [deparseArray, ArrayText.broken, ArrayArg.broken]
      rfl
  | .Const (some array), _, _ => by
      rw [deparseArray, ArrayText.broken, ArrayArg.broken]
      rfl
  | .ArrayExpr elements, _, _ => by
      rw [deparseArray, ArrayText.broken, ArrayArg.broken, broken_args elements]
  | .node index nested, _, _ => by rw [deparseArray, ArrayText.broken, ArrayArg.broken]

end

variable {data : SubPlanInfo W → SubQueryRows W} {env : Env (Value W)} {e : Expr W}
  {dcxt : foreign_glob_cxt} {params : List Nat} {flag : Bool}

theorem result_of_whole (whole : e.broken pg dcxt params flag = false) :
    (deparseExpr pg e dcxt params flag).result data env =
      some ((deparseExpr pg e dcxt params flag).eval data env) := by
  rw [Text.result, broken_expr, whole]
  rfl

/-- A broken text has no value. -/
theorem whole_of_result {value : Option (Value W)}
    (result : (deparseExpr pg e dcxt params flag).result data env = some value) :
    e.broken pg dcxt params flag = false := by
  rw [Text.result, broken_expr] at result
  split at result
  · cases result
  · rename_i whole
    exact Bool.eq_false_iff.mpr whole

end

/-! ## The induction -/

section

variable {pg : Postgres} {checks : Expr W → Bool} {server : Option Nat}
  {version : Option ch_server_version} {data : SubPlanInfo W → SubQueryRows W}

omit [DecidableEq W] in
theorem isEmpty_deparseArgs (pg : Postgres) (args : Args W) (glob_cxt : foreign_glob_cxt)
    (params : List Nat) (truth_ctx : Bool) :
    (deparseArgs pg args glob_cxt params truth_ctx).isEmpty = args.isEmpty := by
  cases args with
  | nil => rw [deparseArgs, Texts.isEmpty, Args.isEmpty]
  | cons => rw [deparseArgs, Texts.isEmpty, Args.isEmpty]

/-- A column is true if it equals 1. -/
theorem holds_whenText (expr : Expr W) (text : Text W) (env : Env (Value W)) :
    holds ((whenText expr text).eval data env) = holds (text.eval data env) := by
  unfold whenText
  split
  · rw [Text.eval, holds_boolean]
    rfl
  · rfl

/-- An expression in two contexts that agree outside of subqueries. -/
structure Scopes (pg : Postgres) (wcxt dcxt : foreign_glob_cxt) (subquery_scope : Bool)
    (env : Env (Value W)) : Prop where
  outer : subquery_scope = false → wcxt = dcxt
  row : env.Consistent pg dcxt

omit [DecidableEq W] in
/-- The scope of a body on its rows. -/
theorem inner_scopes (plan : SubPlanInfo W) (dcxt : foreign_glob_cxt) {env : Env (Value W)}
    (inner : InnerRow pg plan env) : Scopes pg plan.scope (plan.bodyCxt dcxt) true env :=
  ⟨nofun, inner dcxt.relids⟩

variable {wcxt dcxt : foreign_glob_cxt} {params : List Nat} {subquery_scope : Bool}
  {ctx : ExprTruthCtx} {env : Env (Value W)} {plan : SubPlanInfo W} {probe out : Expr W}
  {quals havingQual : Args W}

/-- The body of a subplan whose parts are rendered on its rows. -/
theorem renders_body (agree : RowsAgree pg plan (data plan))
    (met : (∀ row ∈ (data plan).scan, quals.Met data row) ∧
      (∀ row ∈ queryGroups data plan quals havingQual, havingQual.Met data row) ∧
      ∀ row ∈ queryRows data plan quals havingQual, out.Met data row)
    (where_ : ∀ env, InnerRow pg plan env → quals.Met data env → RendersAll .TRUTH
      (fun flag => (deparseArgs pg quals (plan.bodyCxt dcxt) plan.parParam flag).eval data env)
      (quals.eval data env))
    (having_ : ∀ env, InnerRow pg plan env → havingQual.Met data env → RendersAll .TRUTH
      (fun flag =>
        (deparseArgs pg havingQual (plan.bodyCxt dcxt) plan.parParam flag).eval data env)
      (havingQual.eval data env))
    (column : ∀ env, InnerRow pg plan env → out.Met data env → Renders .EXACT
      (fun flag => (deparseExpr pg out (plan.bodyCxt dcxt) plan.parParam flag).eval data env)
      (out.eval data env)) :
    RendersBody data plan out quals havingQual
      (deparseExpr pg out (plan.bodyCxt dcxt) plan.parParam false)
      (deparseArgs pg quals (plan.bodyCxt dcxt) plan.parParam true)
      (deparseArgs pg havingQual (plan.bodyCxt dcxt) plan.parParam true) where
  where_ env scanned :=
    all_of_map ((where_ env (agree.scan env scanned) (met.1 env scanned)).truth rfl)
  having_ env mem :=
    all_of_map ((having_ env (inner_of_mem agree mem) (met.2.1 env mem)).truth rfl)
  column env mem :=
    (column env (inner_of_mem agree (List.mem_of_mem_filter mem)) (met.2.2 env mem)).exact rfl
  none_ := isEmpty_deparseArgs pg havingQual _ _ true

/-- An output column that is not reported nullable has no NULL. -/
theorem output_value (agree : RowsAgree pg plan (data plan))
    (supported : plan.has_unsupported = false)
    (proved : expr_never_null pg plan.scope out = true) :
    none ∉ queryOutputs data plan out quals havingQual := by
  obtain ⟨no_offset, no_count⟩ := of_supported supported
  rw [queryOutputs, SubPlanInfo.limited, no_offset, no_count, List.mem_map]
  rintro ⟨row, mem, null⟩
  have inner := inner_of_mem agree (List.mem_of_mem_filter (List.mem_of_mem_drop mem))
  exact never_null_value (inner plan.scope.relids) out proved null

/-- Two sides that are not reported nullable. -/
theorem values_of_plain (quals : Args W) (agree : RowsAgree pg plan (data plan))
    (supported : plan.has_unsupported = false) (row : env.Consistent pg dcxt)
    (form : classify_notin_subplan pg dcxt plan probe out havingQual = .PLAIN) :
    probe.eval data env ≠ none ∧ none ∉ queryOutputs data plan out quals havingQual := by
  have proved := of_classify_plain form
  rw [notin_prove_nullability, NotInNullability.mk.injEq, Bool.not_eq_false', Bool.not_eq_false']
    at proved
  exact ⟨never_null_value row probe proved.1, output_value agree supported proved.2⟩

/-- `x IN (SELECT ..)`. -/
theorem renders_subPlan (agree : RowsAgree pg plan (data plan)) (row : env.Consistent pg dcxt)
    (accepted : Accepted pg checks server version dcxt ctx plan probe out quals havingQual)
    (kept : plan.Kept havingQual)
    (scalar : (deparseExpr pg probe dcxt params false).eval data env = probe.eval data env)
    (body : RendersBody data plan out quals havingQual
      (deparseExpr pg out (plan.bodyCxt dcxt) plan.parParam false)
      (deparseArgs pg quals (plan.bodyCxt dcxt) plan.parParam true)
      (deparseArgs pg havingQual (plan.bodyCxt dcxt) plan.parParam true)) :
    Renders ctx
      (fun flag => (deparseExpr pg (.SubPlan plan probe out quals havingQual) dcxt params
        flag).eval data env)
      ((Expr.SubPlan plan probe out quals havingQual).eval data env) := by
  have outputs := outputs_column accepted.supported kept body
  simp only [deparseExpr]
  rw [eval_subPlan, accepted.equality]
  refine ⟨fun _ => holds_IN scalar outputs, fun exact => ?_⟩
  obtain ⟨some_probe, values⟩ := values_of_plain quals agree accepted.supported row
    (accepted.exact exact)
  exact eval_IN scalar outputs some_probe values

/-- `x NOT IN (SELECT ..)`. -/
theorem renders_not_subPlan (agree : RowsAgree pg plan (data plan)) (row : env.Consistent pg dcxt)
    (accepted : Accepted pg checks server version dcxt (negated_ctx ctx) plan probe out quals
      havingQual)
    (kept : plan.Kept havingQual)
    (scalar : (deparseExpr pg probe dcxt params false).eval data env = probe.eval data env)
    (body : RendersBody data plan out quals havingQual
      (deparseExpr pg out (plan.bodyCxt dcxt) plan.parParam false)
      (deparseArgs pg quals (plan.bodyCxt dcxt) plan.parParam true)
      (deparseArgs pg havingQual (plan.bodyCxt dcxt) plan.parParam true)) :
    Renders ctx
      (fun flag => (deparseExpr pg (.NOT_EXPR (.SubPlan plan probe out quals havingQual)) dcxt
        params flag).eval data env)
      ((Expr.NOT_EXPR (.SubPlan plan probe out quals havingQual)).eval data env) := by
  have outputs := outputs_column accepted.supported kept body
  simp only [deparseExpr]
  rw [Expr.eval, eval_subPlan, truth_boolean, accepted.equality]
  cases form : classify_notin_subplan pg dcxt plan probe out havingQual with
  | PLAIN =>
      obtain ⟨some_probe, values⟩ := values_of_plain quals agree accepted.supported row
        form
      refine renders_of_eq fun _ => ?_
      rw [if_neg (by decide), Text.eval, eval_IN scalar outputs some_probe values, truth_boolean]
  | GUARDED =>
      obtain ⟨ungrouped, no_having, no_aggs⟩ := of_classify_guarded form
      have no_null :=
        outputs_constant accepted.supported kept body ungrouped no_having no_aggs
      refine ⟨fun _ => ?_, fun exact => ?_⟩
      · rw [if_pos rfl]
        refine holds_guarded scalar outputs no_null (fun proved => ?_) fun proved => ?_
        · rw [notin_prove_nullability] at proved
          exact never_null_value row probe (by simpa using proved)
        · rw [notin_prove_nullability] at proved
          exact output_value agree accepted.supported (by simpa using proved)
      · have plain := accepted.exact (by rw [exact]; rfl)
        rw [form] at plain
        cases plain
  | NONE =>
      have refused : negated_ctx ctx = .NEGATED ∨ negated_ctx ctx = .EXACT := by
        cases ctx <;> simp [negated_ctx]
      rcases refused with negated | exact
      · exact absurd form (accepted.negated negated)
      · have plain := accepted.exact exact
        rw [form] at plain
        cases plain

/-- NOT over anything else needs the exact value. -/
theorem renders_not {arg : Expr W}
    (other : ∀ plan probe out quals havingQual, arg ≠ .SubPlan plan probe out quals havingQual)
    (inner : foreign_expr_walker pg checks server version arg wcxt subquery_scope .EXACT = true →
      Renders .EXACT (fun flag => (deparseExpr pg arg dcxt params flag).eval data env)
        (arg.eval data env))
    (accepted : foreign_expr_walker pg checks server version (.NOT_EXPR arg) wcxt
      subquery_scope ctx = true) :
    Renders ctx (fun flag => (deparseExpr pg (.NOT_EXPR arg) dcxt params flag).eval data env)
      ((Expr.NOT_EXPR arg).eval data env) := by
  rw [foreign_expr_walker, Bool.and_eq_true] at accepted
  have exact : foreign_expr_walker pg checks server version arg wcxt subquery_scope .EXACT =
      true := by
    cases ctx with
    | TRUTH => exact walker_negated other accepted.1
    | _ => exact accepted.1
  refine renders_of_eq fun flag => ?_
  rw [deparse_not other, Text.eval, Expr.eval, (inner exact).exact rfl]

omit [DecidableEq W] in
/-- The first branch that is taken. -/
theorem renders_branch {taken : Bool} {first rest : Bool → Option (Value W)}
    {first' rest' : Option (Value W)} {metFirst metRest : Prop}
    (met : if taken then metFirst else metRest)
    (results : metFirst → Renders ctx first first') (others : metRest → Renders ctx rest rest') :
    Renders ctx (fun flag => if taken then first flag else rest flag)
      (if taken then first' else rest') := by
  cases taken with
  | true => exact results met
  | false => exact others met

set_option linter.unusedSectionVars false

variable (agree : ∀ plan, RowsAgree pg plan (data plan))

include agree

mutual

/-- The text of an expression in the context the walker was in. -/
theorem renders_expr {wcxt dcxt : foreign_glob_cxt} (params : List Nat) {subquery_scope : Bool}
    {ctx : ExprTruthCtx} {env : Env (Value W)} (scopes : Scopes pg wcxt dcxt subquery_scope env) :
    ∀ e : Expr W, e.Met data env →
    foreign_expr_walker pg checks server version e wcxt subquery_scope ctx = true →
    Renders ctx (fun flag => (deparseExpr pg e dcxt params flag).eval data env) (e.eval data env)
  | .leaf e, _, _ => by
      refine renders_of_eq fun flag => ?_
      rw [deparseExpr, Text.eval, Expr.eval]
  | .RelabelType arg, met, accepted => by
      rw [Expr.Met] at met
      rw [foreign_expr_walker, Bool.and_eq_true] at accepted
      simp only [deparseExpr]
      rw [Expr.eval]
      exact (renders_expr params scopes arg met accepted.1).of_kept
  | .AND_EXPR args, met, accepted => by
      rw [Expr.Met] at met
      rw [foreign_expr_walker, Bool.and_eq_true] at accepted
      simp only [deparseExpr, Text.eval]
      rw [Expr.eval]
      exact (renders_args params scopes args met accepted.1).all
  | .OR_EXPR args, met, accepted => by
      rw [Expr.Met] at met
      rw [foreign_expr_walker, Bool.and_eq_true] at accepted
      simp only [deparseExpr, Text.eval]
      rw [Expr.eval]
      exact (renders_args params scopes args met accepted.1).any
  | .NOT_EXPR (.SubPlan plan probe out quals havingQual), met, accepted => by
      rw [Expr.Met] at met
      rw [foreign_expr_walker, Bool.and_eq_true] at accepted
      obtain ⟨rfl, gate⟩ := of_walker accepted.1
      obtain rfl := scopes.outer rfl
      refine renders_not_subPlan (agree plan) scopes.row gate met.2.1
        ((renders_expr params scopes probe met.1 gate.lhs).exact rfl)
        (renders_body (agree plan) met.2.2 ?_ ?_ ?_)
      · exact fun env inner met =>
          renders_args plan.parParam (inner_scopes plan wcxt inner) quals met gate.where_
      · exact fun env inner met =>
          renders_args plan.parParam (inner_scopes plan wcxt inner) havingQual met gate.having_
      · exact fun env inner met =>
          renders_expr plan.parParam (inner_scopes plan wcxt inner) out met gate.target
  | .NOT_EXPR (.leaf e), met, accepted => by
      rw [Expr.Met] at met
      exact renders_not (fun _ _ _ _ _ => nofun) (renders_expr params scopes (.leaf e) met) accepted
  | .NOT_EXPR (.RelabelType arg), met, accepted => by
      rw [Expr.Met] at met
      exact renders_not (fun _ _ _ _ _ => nofun) (renders_expr params scopes (.RelabelType arg) met)
        accepted
  | .NOT_EXPR (.AND_EXPR args), met, accepted => by
      rw [Expr.Met] at met
      exact renders_not (fun _ _ _ _ _ => nofun) (renders_expr params scopes (.AND_EXPR args) met)
        accepted
  | .NOT_EXPR (.OR_EXPR args), met, accepted => by
      rw [Expr.Met] at met
      exact renders_not (fun _ _ _ _ _ => nofun) (renders_expr params scopes (.OR_EXPR args) met)
        accepted
  | .NOT_EXPR (.NOT_EXPR arg), met, accepted => by
      rw [Expr.Met] at met
      exact renders_not (fun _ _ _ _ _ => nofun) (renders_expr params scopes (.NOT_EXPR arg) met)
        accepted
  | .NOT_EXPR (.NullTest test arg), met, accepted => by
      rw [Expr.Met] at met
      exact renders_not (fun _ _ _ _ _ => nofun)
        (renders_expr params scopes (.NullTest test arg) met)
        accepted
  | .NOT_EXPR (.CaseExpr whens), met, accepted => by
      rw [Expr.Met] at met
      exact renders_not (fun _ _ _ _ _ => nofun) (renders_expr params scopes (.CaseExpr whens) met)
        accepted
  | .NOT_EXPR (.CaseOf arg whens), met, accepted => by
      rw [Expr.Met] at met
      exact renders_not (fun _ _ _ _ _ => nofun)
        (renders_expr params scopes (.CaseOf arg whens) met)
        accepted
  | .NOT_EXPR (.ScalarArrayOpExpr op useOr arg1 arg2), met, accepted => by
      rw [Expr.Met] at met
      exact renders_not (fun _ _ _ _ _ => nofun)
        (renders_expr params scopes (.ScalarArrayOpExpr op useOr arg1 arg2) met) accepted
  | .NullTest test arg, met, accepted => by
      rw [Expr.Met] at met
      rw [foreign_expr_walker, Bool.and_eq_true] at accepted
      have exact := (renders_expr params scopes arg met accepted.1).exact rfl
      refine renders_of_eq fun flag => ?_
      cases test with
      | IS_NULL => rw [deparseExpr, Text.eval, Expr.eval, exact]
      | IS_NOT_NULL => rw [deparseExpr, Text.eval, Expr.eval, exact]
  | .CaseExpr whens, met, accepted => by
      rw [Expr.Met] at met
      rw [foreign_expr_walker, Bool.and_eq_true] at accepted
      simp only [deparseExpr, Text.eval]
      rw [Expr.eval]
      exact (renders_whens params scopes whens met accepted.1).of_kept
  | .CaseOf arg whens, met, accepted => by
      rw [Expr.Met] at met
      rw [foreign_expr_walker, Bool.and_eq_true, Bool.and_eq_true] at accepted
      simp only [deparseExpr, Text.eval]
      rw [Expr.eval, (renders_expr params scopes arg met.1 accepted.1.1).exact rfl]
      exact (renders_values params scopes _ whens met.2 accepted.1.2).of_kept
  | .ScalarArrayOpExpr op useOr arg1 arg2, met, accepted => by
      rw [Expr.Met] at met
      rw [foreign_expr_walker, Bool.and_eq_true, Bool.and_eq_true, Bool.and_eq_true] at accepted
      have scalar := (renders_expr params scopes arg1 met.1 accepted.1.1.2).exact rfl
      obtain ⟨elements, value, text⟩ := eval_array params scopes arg2 met.2 accepted.1.2
      simp only [deparseExpr, Text.eval, text, scalar]
      rw [Expr.eval, value]
      have faithful (flag : Bool) := template_faithful scopes.row flag op useOr arg1 value
      refine ⟨fun _ => ?_, fun _ => ?_⟩
      · rw [holds_boolean, holds_boolean]
        exact passes_congr (faithful true).2
      · exact congrArg boolean ((faithful false).1 rfl)
  | .SubPlan plan probe out quals havingQual, met, accepted => by
      rw [Expr.Met] at met
      obtain ⟨rfl, gate⟩ := of_walker accepted
      obtain rfl := scopes.outer rfl
      refine renders_subPlan (agree plan) scopes.row gate met.2.1
        ((renders_expr params scopes probe met.1 gate.lhs).exact rfl)
        (renders_body (agree plan) met.2.2 ?_ ?_ ?_)
      · exact fun env inner met =>
          renders_args plan.parParam (inner_scopes plan wcxt inner) quals met gate.where_
      · exact fun env inner met =>
          renders_args plan.parParam (inner_scopes plan wcxt inner) havingQual met gate.having_
      · exact fun env inner met =>
          renders_expr plan.parParam (inner_scopes plan wcxt inner) out met gate.target

theorem renders_args {wcxt dcxt : foreign_glob_cxt} (params : List Nat) {subquery_scope : Bool}
    {ctx : ExprTruthCtx} {env : Env (Value W)} (scopes : Scopes pg wcxt dcxt subquery_scope env) :
    ∀ args : Args W, args.Met data env →
    args_walker pg checks server version args wcxt subquery_scope ctx = true →
    RendersAll ctx (fun flag => (deparseArgs pg args dcxt params flag).eval data env)
      (args.eval data env)
  | .nil, _, _ => by
      simp only [deparseArgs, Texts.eval]
      rw [Args.eval]
      exact ⟨fun _ => rfl, fun _ => rfl⟩
  | .cons arg rest, met, accepted => by
      rw [Args.Met] at met
      rw [args_walker, Bool.and_eq_true] at accepted
      have first := renders_expr params scopes arg met.1 accepted.1
      have others := renders_args params scopes rest met.2 accepted.2
      simp only [deparseArgs, Texts.eval]
      rw [Args.eval]
      refine ⟨fun truth => ?_, fun exact => ?_⟩
      · rw [List.map_cons, List.map_cons, first.truth truth, others.truth truth]
      · rw [first.exact exact, others.exact exact]

/-- Conditions hold alike, and then the results are those of the CASE. -/
theorem renders_whens {wcxt dcxt : foreign_glob_cxt} (params : List Nat) {subquery_scope : Bool}
    {ctx : ExprTruthCtx} {env : Env (Value W)} (scopes : Scopes pg wcxt dcxt subquery_scope env) :
    ∀ whens : Whens W, whens.Met data holds env →
    whens_walker pg checks server version whens wcxt subquery_scope .TRUTH ctx = true →
    Renders ctx (fun flag => (deparseWhens pg whens dcxt params flag).eval data holds env)
      (whens.eval data holds env)
  | .END, _, _ => by
      simp only [deparseWhens, WhenTexts.eval]
      rw [Whens.eval]
      exact renders_of_eq fun _ => rfl
  | .ELSE defresult, met, accepted => by
      rw [Whens.Met] at met
      rw [whens_walker] at accepted
      simp only [deparseWhens, WhenTexts.eval]
      rw [Whens.eval]
      exact renders_expr params scopes defresult met accepted
  | .WHEN expr result rest, met, accepted => by
      rw [Whens.Met] at met
      rw [whens_walker, Bool.and_eq_true, Bool.and_eq_true] at accepted
      have condition := (renders_expr params scopes expr met.1 accepted.1.1).truth rfl
      simp only [deparseWhens, WhenTexts.eval, holds_whenText, condition]
      rw [Whens.eval]
      exact renders_branch met.2 (fun met => renders_expr params scopes result met accepted.1.2)
        fun met => renders_whens params scopes rest met accepted.2

/-- The values are those of the CASE, and then so are the results. -/
theorem renders_values {wcxt dcxt : foreign_glob_cxt} (params : List Nat) {subquery_scope : Bool}
    {ctx : ExprTruthCtx} {env : Env (Value W)} (scopes : Scopes pg wcxt dcxt subquery_scope env)
    (taken : Option (Value W) → Bool) : ∀ whens : Whens W, whens.Met data taken env →
    whens_walker pg checks server version whens wcxt subquery_scope .EXACT ctx = true →
    Renders ctx (fun flag => (deparseValues pg whens dcxt params flag).eval data taken env)
      (whens.eval data taken env)
  | .END, _, _ => by
      simp only [deparseValues, WhenTexts.eval]
      rw [Whens.eval]
      exact renders_of_eq fun _ => rfl
  | .ELSE defresult, met, accepted => by
      rw [Whens.Met] at met
      rw [whens_walker] at accepted
      simp only [deparseValues, WhenTexts.eval]
      rw [Whens.eval]
      exact renders_expr params scopes defresult met accepted
  | .WHEN value result rest, met, accepted => by
      rw [Whens.Met] at met
      rw [whens_walker, Bool.and_eq_true, Bool.and_eq_true] at accepted
      have compared := (renders_expr params scopes value met.1 accepted.1.1).exact rfl
      simp only [deparseValues, WhenTexts.eval, compared]
      rw [Whens.eval]
      exact renders_branch met.2 (fun met => renders_expr params scopes result met accepted.1.2)
        fun met => renders_values params scopes taken rest met accepted.2

theorem eval_array {wcxt dcxt : foreign_glob_cxt} (params : List Nat) {subquery_scope : Bool}
    {env : Env (Value W)} (scopes : Scopes pg wcxt dcxt subquery_scope env) :
    ∀ arr : ArrayArg W, arr.Met data env →
    array_walker pg checks server version arr wcxt subquery_scope = true →
    ∃ elements, arr.eval data env = some elements ∧
      (deparseArray pg arr dcxt params).eval data env = some elements
  | .Const none, _, accepted => by
      rw [array_walker] at accepted
      cases accepted
  | .Const (some array), _, _ => by
      rw [deparseArray, ArrayText.eval, ArrayArg.eval]
      exact ⟨_, rfl, rfl⟩
  | .ArrayExpr elements, met, accepted => by
      rw [ArrayArg.Met] at met
      rw [array_walker] at accepted
      rw [deparseArray, ArrayText.eval, ArrayArg.eval,
        (renders_args params scopes elements met accepted).exact rfl]
      exact ⟨_, rfl, rfl⟩
  | .node index nested, met, _ => by
      rw [ArrayArg.Met] at met
      obtain ⟨elements, value⟩ := Option.ne_none_iff_exists'.mp met
      rw [deparseArray, ArrayText.eval, ArrayArg.eval, value]
      exact ⟨elements, rfl, rfl⟩

end

/-- The text is an expression, and TRUE in ClickHouse exactly where PostgreSQL's value is. -/
def TrueAlike (data : SubPlanInfo W → SubQueryRows W) (env : Env (Value W)) (text : Text W)
    (e : Expr W) : Prop :=
  ∃ value, text.result data env = some value ∧
    (value = some (.bool true) ↔ e.eval data env = some (.bool true))

/-- The text is an expression with PostgreSQL's value. -/
def ValuedAlike (data : SubPlanInfo W → SubQueryRows W) (env : Env (Value W)) (text : Text W)
    (e : Expr W) : Prop :=
  text.result data env = some (e.eval data env)

end

/-! ### A NULL among the outputs -/

/-- A row whose columns all store `key`. -/
def rowOf (key : Option (Value Nat)) : Env (Value Nat) where
  stored _ := key
  nulled _ := false
  call _ args := if none ∈ args then none else some (.other 0)
  node _ := none
  array _ := some []

theorem rowOf_consistent (key : Option (Value Nat)) (glob_cxt : foreign_glob_cxt) :
    (rowOf key).Consistent nullableColumns glob_cxt where
  notnull := fun _ _ _ _ _ _ _ declared => nomatch declared
  nulled := fun _ _ nulled => nomatch nulled
  arithmetic := fun _ _ args values => by simp [rowOf, values]

/-- A table with one row, which stores a NULL key. -/
def nullKeys : SubPlanInfo Nat → SubQueryRows Nat :=
  fun _ => ⟨[rowOf none], fun _ => rowOf none⟩

theorem nullKeys_agree (plan : SubPlanInfo Nat) :
    RowsAgree nullableColumns plan (nullKeys plan) := by
  refine ⟨fun env mem relids => ?_, fun _ _ relids => rowOf_consistent none _⟩
  rw [List.mem_singleton.mp mem]
  exact rowOf_consistent none _

/-- `SELECT k FROM t`. -/
def keys : SubPlanInfo Nat where
  plan_id := 1
  op := .eq
  second_is_param := true
  args := []
  parParam := []
  init_plans := false
  contain_subplans := false
  rtable := oneTable.rtable
  fromlist := [aTable]
  groupClause := []
  out_agg := false
  hasAggs := false
  hasHavingQual := false
  junk_shippable := true
  sortClause := false
  limitOffset := none
  limitCount := none
  setOperations := false
  cteList := false
  windowClause := false
  distinctClause := false
  groupingSets := false
  hasTargetSRFs := false
  aggregate := nofun

/-- `k IS NOT NULL AND k NOT IN (SELECT k FROM t)`. -/
def notInKeys : Expr Nat :=
  .AND_EXPR (.cons (.NullTest .IS_NOT_NULL (.leaf (.Var firstColumn)))
    (.cons (.NOT_EXPR (.SubPlan keys (.leaf (.Var firstColumn)) (.leaf (.Var firstColumn))
      .nil .nil)) .nil))

theorem notInKeys_met (env : Env (Value Nat)) : notInKeys.Met nullKeys env := by
  simp only [notInKeys, Expr.Met, Args.Met]
  exact ⟨trivial, ⟨trivial, nofun, fun _ _ => trivial, fun _ _ => trivial, fun _ _ => trivial⟩,
    trivial⟩

/-- `'{{1,1},{1,1}}'`. -/
def ones : ArrayType (Value Nat) where
  dims := [2, 2]
  hasnull := false
  elements := List.replicate 4 (some (.other 1))
  sized := rfl
  no_bitmap _ := by decide

/-- `k = ALL ('{{1,1},{1,1}}')`. -/
def allOnes : Expr Nat :=
  .ScalarArrayOpExpr .eq false (.leaf (.Var firstColumn)) (.Const (some ones))

end PgClickhouse.Truth

import Mathlib.Data.List.Nodup
import PgClickhouse.Occurrences

/-!
# Where leaves are printed

What the planner and `is_shippable_subplan` promise of the subplans of an expression, and
what follows for each leaf: in which bodies it stands, and that each of these has its FROM
list printed.
-/

namespace PgClickhouse.Emit

/-! ## Expressions of a planned statement -/

mutual

/-- In the body of a subplan stand columns of its own tables and parameters; a body with
subplans is not shippable. -/
def Expr.InBody (fromlist : List Nat) : Expr → Prop
  | .Var node => node.varno ∈ fromlist
  | .Param _ => True
  | .node args unseen _ => InBodyList fromlist args ∧ InBodyList fromlist unseen
  | .NOT arg => arg.InBody fromlist
  | .SubPlan .. => False

def InBodyList (fromlist : List Nat) : List Expr → Prop
  | [] => True
  | e :: es => e.InBody fromlist ∧ InBodyList fromlist es

end

mutual

/-- A `plan_id` tells subplans apart, also one in a correlation argument from those it is an
argument of, `plan_ids`. -/
def Expr.Planned (plan_ids : List Nat) : Expr → Prop
  | .Var _ => True
  | .Param _ => True
  | .node args unseen _ => PlannedList plan_ids args ∧ PlannedList plan_ids unseen
  | .NOT arg => arg.Planned plan_ids
  | .SubPlan info args probe targetList quals groupClause havingQual =>
      info.plan_id ∉ plan_ids ∧ info.fromlist.Nodup ∧
        PlannedList (info.plan_id :: plan_ids) args ∧ PlannedList plan_ids probe ∧
        InBodyList info.fromlist targetList ∧ InBodyList info.fromlist quals ∧
        InBodyList info.fromlist groupClause ∧ InBodyList info.fromlist havingQual

def PlannedList (plan_ids : List Nat) : List Expr → Prop
  | [] => True
  | e :: es => e.Planned plan_ids ∧ PlannedList plan_ids es

end

theorem plannedList_append {plan_ids : List Nat} {a b : List Expr} :
    PlannedList plan_ids (a ++ b) ↔ PlannedList plan_ids a ∧ PlannedList plan_ids b := by
  induction a with
  | nil => simp [PlannedList]
  | cons e es ih => rw [List.cons_append, PlannedList, PlannedList, ih, and_assoc]

/-! ## Listings -/

theorem mem_printedBy {exprs : List Printed} {around : Around} {o : Occurrence} :
    o ∈ printedBy exprs around ↔ ∃ printed ∈ exprs, o ∈ printed around :=
  List.mem_flatMap

theorem mem_of_mem_operandPrinted {operands : List Printed} {i : Nat} {around : Around}
    {o : Occurrence} (member : o ∈ operandPrinted operands i around) :
    ∃ printed ∈ operands, o ∈ printed around := by
  rw [operandPrinted] at member
  cases operand : operands[i]? with
  | none => simp [operand] at member
  | some printed =>
      rw [operand] at member
      exact ⟨printed, List.mem_of_getElem? operand, member⟩

/-- A template prints its operands and the sign column. -/
theorem mem_of_mem_template {operands : List Printed} {template : Template} {around : Around}
    {o : Occurrence} (member : o ∈ template.printed operands around) :
    (∃ printed ∈ operands, o ∈ printed around) ∨ o = ⟨.sign, around.subplan, []⟩ := by
  rcases List.mem_append.mp member with captured | appended
  · obtain ⟨i, -, member⟩ := List.mem_flatMap.mp captured
    exact .inl (mem_of_mem_operandPrinted member)
  · obtain ⟨piece, -, member⟩ := List.mem_flatMap.mp appended
    cases piece with
    | text text => cases member
    | operand i => exact .inl (mem_of_mem_operandPrinted member)
    | captured k => cases member
    | sign => exact .inr (List.mem_singleton.mp member)

theorem mem_of_mem_paramPrinted {node : Param} {around : Around} {o : Occurrence}
    (member : o ∈ paramPrinted node around) :
    o = ⟨.Param node, around.subplan, []⟩ ∨
      ∃ printed, around.correlation_arg node.paramid = some printed ∧ o ∈ printed := by
  rw [paramPrinted] at member
  split at member
  · rename_i printed arg
    split at arg
    · exact .inr ⟨printed, arg, member⟩
    · cases arg
  · exact .inl (List.mem_singleton.mp member)

/-- What a correlation argument prints in the body of a subplan. -/
theorem of_correlation_arg {info : SubPlanInfo} {args : List Printed} {around : Around}
    {paramid : Nat} {listed : List Occurrence}
    (arg : (around.sub info args).correlation_arg paramid = some listed) :
    ∃ printed ∈ args, listed = printed around := by
  obtain ⟨pair, found, rfl⟩ := Option.map_eq_some_iff.mp arg
  exact ⟨pair.2, (List.of_mem_zip (List.mem_of_find?_eq_some found)).2, rfl⟩

/-! ## FROM lists -/

/-- Around each leaf the FROM lists of the bodies it stands in are printed too. -/
def Closed (printed : List Occurrence) : Prop :=
  ∀ o ∈ printed, ∀ above info below, o.bodies = above ++ info :: below →
    ∀ entry ∈ subPlanEntries info, ∃ subplan, ⟨.entry entry, subplan, above ++ [info]⟩ ∈ printed

theorem Closed.of_no_bodies {printed : List Occurrence} (none : ∀ o ∈ printed, o.bodies = []) :
    Closed printed := by
  intro o member above info below split
  rw [none o member] at split
  exact absurd split.symm (List.append_ne_nil_of_right_ne_nil _ (List.cons_ne_nil _ _))

theorem Closed.append {a b : List Occurrence} (left : Closed a) (right : Closed b) :
    Closed (a ++ b) := by
  intro o member above info below split entry of
  rcases List.mem_append.mp member with member | member
  · obtain ⟨subplan, listed⟩ := left o member above info below split entry of
    exact ⟨subplan, List.mem_append_left _ listed⟩
  · obtain ⟨subplan, listed⟩ := right o member above info below split entry of
    exact ⟨subplan, List.mem_append_right _ listed⟩

theorem Closed.flatMap {α : Type} {items : List α} {printed : α → List Occurrence}
    (each : ∀ i ∈ items, Closed (printed i)) : Closed (items.flatMap printed) := by
  intro o member above info below split entry of
  obtain ⟨i, item, member⟩ := List.mem_flatMap.mp member
  obtain ⟨subplan, listed⟩ := each i item o member above info below split entry of
  exact ⟨subplan, List.mem_flatMap.mpr ⟨i, item, listed⟩⟩

theorem Closed.operand {operands : List Printed} {around : Around}
    (each : ∀ printed ∈ operands, Closed (printed around)) (i : Nat) :
    Closed (operandPrinted operands i around) := by
  rw [operandPrinted]
  cases operand : operands[i]? with
  | none => exact Closed.of_no_bodies fun o member => absurd member List.not_mem_nil
  | some printed => exact each printed (List.mem_of_getElem? operand)

theorem Closed.template {operands : List Printed} {around : Around}
    (each : ∀ printed ∈ operands, Closed (printed around)) (template : Template) :
    Closed (template.printed operands around) := by
  refine Closed.append (Closed.flatMap fun i _ => Closed.operand each i)
    (Closed.flatMap fun piece _ => ?_)
  cases piece with
  | text text => exact Closed.of_no_bodies fun o member => absurd member List.not_mem_nil
  | operand i => exact Closed.operand each i
  | captured k => exact Closed.of_no_bodies fun o member => absurd member List.not_mem_nil
  | sign => exact Closed.of_no_bodies fun o member => by rw [List.mem_singleton.mp member]

/-- The body prints its own FROM list. -/
theorem Closed.within {info : SubPlanInfo} {printed : List Occurrence} (closed : Closed printed)
    (entries : ∀ entry ∈ subPlanEntries info, ⟨.entry entry, some info, []⟩ ∈ printed) :
    Closed (printed.map (Occurrence.within info)) := by
  intro o member above info' below split entry of
  obtain ⟨o, of_printed, rfl⟩ := List.mem_map.mp member
  cases above with
  | nil =>
      obtain ⟨rfl, -⟩ := List.cons.inj split
      exact ⟨some info, List.mem_map_of_mem (entries entry of)⟩
  | cons head above =>
      obtain ⟨rfl, tail⟩ := List.cons.inj split
      obtain ⟨subplan, listed⟩ := closed o of_printed above info' below tail entry of
      exact ⟨subplan, List.mem_map_of_mem listed⟩

theorem Closed.printedBy {exprs : List Printed} {around : Around}
    (each : ∀ printed ∈ exprs, Closed (printed around)) : Closed (printedBy exprs around) :=
  Closed.flatMap each

structure PartsPrinted.Closed (parts : PartsPrinted) (around inner : Around) : Prop where
  probe : ∀ printed ∈ parts.probe, Emit.Closed (printed around)
  targetList : ∀ printed ∈ parts.targetList, Emit.Closed (printed inner)
  quals : ∀ printed ∈ parts.quals, Emit.Closed (printed inner)
  groupClause : ∀ printed ∈ parts.groupClause, Emit.Closed (printed inner)
  havingQual : ∀ printed ∈ parts.havingQual, Emit.Closed (printed inner)

theorem closed_subPlanPrinted {info : SubPlanInfo} {parts : PartsPrinted} {around : Around}
    (closed : parts.Closed around (around.sub info parts.args)) :
    Closed (subPlanPrinted info parts around) := by
  have entries : Closed ((subPlanEntries info).map fun entry => ⟨.entry entry, some info, []⟩) := by
    refine Closed.of_no_bodies fun o member => ?_
    obtain ⟨entry, -, rfl⟩ := List.mem_map.mp member
    rfl
  refine Closed.append ?_ (Closed.within ?_ ?_)
  · split
    · exact Closed.printedBy closed.probe
    · exact Closed.of_no_bodies fun o member => absurd member List.not_mem_nil
  · refine Closed.append (Closed.append (Closed.append (Closed.append ?_ entries)
      (Closed.printedBy closed.quals)) (Closed.printedBy closed.groupClause))
      (Closed.printedBy closed.havingQual)
    split
    · exact Closed.of_no_bodies fun o member => absurd member List.not_mem_nil
    · exact Closed.printedBy closed.targetList
  · intro entry of
    simp only [List.mem_append]
    exact .inl (.inl (.inl (.inr (List.mem_map_of_mem of))))

/-- Correlation arguments that print FROM lists with what they print. -/
def Around.Closed (around : Around) : Prop :=
  ∀ paramid printed, around.correlation_arg paramid = some printed → Emit.Closed printed

mutual

theorem closed_printed : ∀ (e : Expr) (around : Around), around.Closed →
    Closed (e.printed around)
  | .Var node, around, _ => by
      rw [Expr.printed]
      exact Closed.of_no_bodies fun o member => by rw [List.mem_singleton.mp member]
  | .Param node, around, args => by
      rw [Expr.printed, paramPrinted]
      split
      · rename_i printed arg
        split at arg
        · exact args node.paramid printed arg
        · cases arg
      · exact Closed.of_no_bodies fun o member => by rw [List.mem_singleton.mp member]
  | .node operands unseen template, around, args => by
      rw [Expr.printed]
      refine Closed.template (fun printed member => ?_) template
      rcases List.mem_append.mp member with member | member
      · exact closed_printedList operands around args printed member
      · exact closed_printedList unseen around args printed member
  | .NOT arg, around, args => by
      rw [Expr.printed]
      exact closed_printed arg around args
  | .SubPlan info operands probe targetList quals groupClause havingQual, around, args => by
      rw [Expr.printed]
      have inner : (around.sub info (printedList operands)).Closed := by
        intro paramid listed arg
        obtain ⟨printed, member, rfl⟩ := of_correlation_arg arg
        exact closed_printedList operands around args printed member
      exact closed_subPlanPrinted
        ⟨closed_printedList probe around args, closed_printedList targetList _ inner,
          closed_printedList quals _ inner, closed_printedList groupClause _ inner,
          closed_printedList havingQual _ inner⟩

theorem closed_printedList : ∀ (exprs : List Expr) (around : Around), around.Closed →
    ∀ printed ∈ printedList exprs, Closed (printed around)
  | [], around, _, printed, member => by
      rw [printedList] at member
      exact absurd member List.not_mem_nil
  | e :: exprs, around, args, printed, member => by
      rw [printedList] at member
      rcases List.mem_cons.mp member with rfl | member
      · exact closed_printed e around args
      · exact closed_printedList exprs around args printed member

end

theorem closed_clausesPrinted (exprs : List Expr) : Closed (clausesPrinted exprs) :=
  Closed.printedBy (closed_printedList exprs .outer fun _ _ arg =>
    absurd arg (Option.some_ne_none _).symm)

/-! ## Bodies -/

/-- A leaf in the bodies of different subplans, none of them of `plan_ids`.  A column of a
subplan stands in its body, and an entry of FROM in that of the subplan it belongs to. -/
structure Occurrence.Placed (plan_ids : List Nat) (o : Occurrence) : Prop where
  distinct : (o.bodies.map SubPlanInfo.plan_id).Nodup
  new : ∀ info ∈ o.bodies, info.plan_id ∉ plan_ids
  tables : ∀ info ∈ o.bodies, info.fromlist.Nodup
  column : ∀ node info, o.leaf = .Var node → o.subplan = some info →
    info ∈ o.bodies ∧ node.varno ∈ info.fromlist
  entry : ∀ entry, o.leaf = .entry entry →
    ∃ above info, o.bodies = above ++ [info] ∧ entry ∈ subPlanEntries info
  no_fetched : ∀ relid attno, o.leaf ≠ .fetched relid attno

/-- A leaf that is no entry of FROM and stands in no body. -/
theorem Occurrence.Placed.here {plan_ids : List Nat} {leaf : Leaf}
    (no_entry : ∀ entry, leaf ≠ .entry entry)
    (no_fetched : ∀ relid attno, leaf ≠ .fetched relid attno) :
    Occurrence.Placed plan_ids ⟨leaf, none, []⟩ where
  distinct := List.nodup_nil
  new _ member := absurd member List.not_mem_nil
  tables _ member := absurd member List.not_mem_nil
  column _ _ _ inner := absurd inner.symm (Option.some_ne_none _)
  entry entry same := absurd same (no_entry entry)
  no_fetched := no_fetched

/-- What a correlation argument prints, inside the body of its subplan. -/
theorem Occurrence.Placed.within {plan_ids : List Nat} {info : SubPlanInfo} {o : Occurrence}
    (placed : o.Placed (info.plan_id :: plan_ids)) (new : info.plan_id ∉ plan_ids)
    (tables : info.fromlist.Nodup) : (o.within info).Placed plan_ids where
  distinct := by
    refine List.nodup_cons.mpr ⟨fun member => ?_, placed.distinct⟩
    obtain ⟨info', member, same⟩ := List.mem_map.mp member
    exact placed.new info' member (same ▸ List.mem_cons_self)
  new info' member := by
    rcases List.mem_cons.mp member with rfl | member
    · exact new
    · exact fun old => placed.new info' member (List.mem_cons_of_mem _ old)
  tables info' member := by
    rcases List.mem_cons.mp member with rfl | member
    · exact tables
    · exact placed.tables info' member
  column node info' leaf inner := by
    obtain ⟨member, table⟩ := placed.column node info' leaf inner
    exact ⟨List.mem_cons_of_mem _ member, table⟩
  entry entry leaf := by
    obtain ⟨above, info', bodies, of⟩ := placed.entry entry leaf
    exact ⟨info :: above, info', congrArg (info :: ·) bodies, of⟩
  no_fetched := placed.no_fetched

/-- What is printed directly in the body of a subplan. -/
theorem placed_in_body {plan_ids : List Nat} {info : SubPlanInfo}
    (new : info.plan_id ∉ plan_ids) (tables : info.fromlist.Nodup) {leaf : Leaf}
    (column : ∀ node, leaf = .Var node → node.varno ∈ info.fromlist)
    (entry : ∀ entry, leaf = .entry entry → entry ∈ subPlanEntries info)
    (no_fetched : ∀ relid attno, leaf ≠ .fetched relid attno) :
    Occurrence.Placed plan_ids ⟨leaf, some info, [info]⟩ where
  distinct := List.nodup_singleton _
  new info' member := by
    cases List.mem_singleton.mp member
    exact new
  tables info' member := by
    cases List.mem_singleton.mp member
    exact tables
  column node info' leaf inner := by
    cases Option.some.inj inner
    exact ⟨List.mem_singleton_self info, column node leaf⟩
  entry from_ leaf := ⟨[], info, rfl, entry from_ leaf⟩
  no_fetched := no_fetched

section

variable {plan_ids : List Nat} {info : SubPlanInfo} {inner : Around}

mutual

/-- What the body of a subplan prints, given what its correlation arguments print. -/
theorem placed_body (new : info.plan_id ∉ plan_ids) (tables : info.fromlist.Nodup)
    (subplan : inner.subplan = some info)
    (args : ∀ paramid printed, inner.correlation_arg paramid = some printed →
      ∀ o ∈ printed, o.Placed (info.plan_id :: plan_ids)) :
    ∀ e : Expr, e.InBody info.fromlist → ∀ o ∈ e.printed inner,
      (o.within info).Placed plan_ids
  | .Var node, inBody, o, member => by
      rw [Expr.printed] at member
      rw [List.mem_singleton.mp member, subplan]
      refine placed_in_body new tables (fun node' same => ?_) nofun nofun
      cases same
      exact inBody
  | .Param node, _, o, member => by
      rw [Expr.printed] at member
      rcases mem_of_mem_paramPrinted member with rfl | ⟨printed, arg, member⟩
      · rw [subplan]
        exact placed_in_body new tables nofun nofun nofun
      · exact (args node.paramid printed arg o member).within new tables
  | .node operands unseen template, inBody, o, member => by
      rw [Expr.printed] at member
      rcases mem_of_mem_template member with ⟨printed, operand, member⟩ | rfl
      · rcases List.mem_append.mp operand with operand | operand
        · exact placed_bodyList new tables subplan args operands inBody.1 printed operand o member
        · exact placed_bodyList new tables subplan args unseen inBody.2 printed operand o member
      · rw [subplan]
        exact placed_in_body new tables nofun nofun nofun
  | .NOT arg, inBody, o, member => by
      rw [Expr.printed] at member
      exact placed_body new tables subplan args arg inBody o member
  | .SubPlan .., inBody, _, _ => absurd inBody id

theorem placed_bodyList (new : info.plan_id ∉ plan_ids) (tables : info.fromlist.Nodup)
    (subplan : inner.subplan = some info)
    (args : ∀ paramid printed, inner.correlation_arg paramid = some printed →
      ∀ o ∈ printed, o.Placed (info.plan_id :: plan_ids)) :
    ∀ exprs : List Expr, InBodyList info.fromlist exprs → ∀ printed ∈ printedList exprs,
      ∀ o ∈ printed inner, (o.within info).Placed plan_ids
  | [], _, printed, member, _, _ => by
      rw [printedList] at member
      exact absurd member List.not_mem_nil
  | e :: exprs, inBody, printed, member, o, of => by
      rw [printedList] at member
      rcases List.mem_cons.mp member with rfl | member
      · exact placed_body new tables subplan args e inBody.1 o of
      · exact placed_bodyList new tables subplan args exprs inBody.2 printed member o of

end

end

mutual

theorem placed_printed : ∀ (e : Expr) (plan_ids : List Nat), e.Planned plan_ids →
    ∀ o ∈ e.printed .outer, o.Placed plan_ids
  | .Var node, plan_ids, _, o, member => by
      rw [Expr.printed] at member
      rw [List.mem_singleton.mp member]
      exact Occurrence.Placed.here nofun nofun
  | .Param node, plan_ids, _, o, member => by
      rw [Expr.printed] at member
      rcases mem_of_mem_paramPrinted member with rfl | ⟨printed, arg, -⟩
      · exact Occurrence.Placed.here nofun nofun
      · exact absurd arg.symm (Option.some_ne_none _)
  | .node operands unseen template, plan_ids, planned, o, member => by
      rw [Expr.printed] at member
      rcases mem_of_mem_template member with ⟨printed, operand, member⟩ | rfl
      · rcases List.mem_append.mp operand with operand | operand
        · exact placed_printedList operands plan_ids planned.1 printed operand o member
        · exact placed_printedList unseen plan_ids planned.2 printed operand o member
      · exact Occurrence.Placed.here nofun nofun
  | .NOT arg, plan_ids, planned, o, member => by
      rw [Expr.printed] at member
      exact placed_printed arg plan_ids planned o member
  | .SubPlan info operands probe targetList quals groupClause havingQual, plan_ids, planned, o,
      member => by
      rw [Expr.printed] at member
      obtain ⟨new, tables, argsPlanned, probePlanned, target, where_, group, having⟩ := planned
      have args : ∀ paramid printed,
          (Around.sub info (printedList operands) .outer).correlation_arg paramid = some printed →
            ∀ o ∈ printed, o.Placed (info.plan_id :: plan_ids) := by
        intro paramid listed arg o member
        obtain ⟨printed, operand, rfl⟩ := of_correlation_arg arg
        exact placed_printedList operands _ argsPlanned printed operand o member
      have part (exprs : List Expr) (inBody : InBodyList info.fromlist exprs) (o : Occurrence)
          (member : o ∈ printedBy (printedList exprs) (Around.sub info (printedList operands)
            .outer)) : (o.within info).Placed plan_ids := by
        obtain ⟨printed, operand, member⟩ := mem_printedBy.mp member
        exact placed_bodyList new tables rfl args exprs inBody printed operand o member
      rcases List.mem_append.mp member with member | member
      · split at member
        · obtain ⟨printed, operand, member⟩ := mem_printedBy.mp member
          exact placed_printedList probe plan_ids probePlanned printed operand o member
        · exact absurd member List.not_mem_nil
      · obtain ⟨o, printed, rfl⟩ := List.mem_map.mp member
        simp only [List.mem_append] at printed
        rcases printed with (((printed | printed) | printed) | printed) | printed
        · split at printed
          · exact absurd printed List.not_mem_nil
          · exact part targetList target o printed
        · obtain ⟨entry, of, rfl⟩ := List.mem_map.mp printed
          refine placed_in_body new tables nofun (fun entry' same => ?_) nofun
          cases same
          exact of
        · exact part quals where_ o printed
        · exact part groupClause group o printed
        · exact part havingQual having o printed

theorem placed_printedList : ∀ (exprs : List Expr) (plan_ids : List Nat),
    PlannedList plan_ids exprs → ∀ printed ∈ printedList exprs, ∀ o ∈ printed .outer,
      o.Placed plan_ids
  | [], _, _, printed, member, _, _ => by
      rw [printedList] at member
      exact absurd member List.not_mem_nil
  | e :: exprs, plan_ids, planned, printed, member, o, of => by
      rw [printedList] at member
      rcases List.mem_cons.mp member with rfl | member
      · exact placed_printed e plan_ids planned.1 o of
      · exact placed_printedList exprs plan_ids planned.2 printed member o of

end

theorem placed_clausesPrinted {exprs : List Expr} {plan_ids : List Nat}
    (planned : PlannedList plan_ids exprs) : ∀ o ∈ clausesPrinted exprs, o.Placed plan_ids := by
  intro o member
  obtain ⟨printed, operand, member⟩ := mem_printedBy.mp member
  exact placed_printedList exprs plan_ids planned printed operand o member

end PgClickhouse.Emit

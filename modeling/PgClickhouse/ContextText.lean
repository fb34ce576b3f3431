import PgClickhouse.DeparseContext
import PgClickhouse.SelfDelimiting

/-!
# Texts in two contexts

The text of an expression in two contexts is the same exactly if at each node the decision is
the same (`tells_deparseExpr`).  The texts of a node with different decisions go apart within
the node, so none of them can be taken for another inside a longer text.
-/

namespace PgClickhouse.Context

open Deparse Aggregate SelfDelimiting

theorem not_opening_word (name : Bytes) : ¬(Token.lexeme (.word name)).Opening := by
  rintro (same | same | same) <;> cases same

theorem not_opening_closing (closing : Closing) : ¬closing.token.Opening := by
  cases closing <;> rintro (same | same | same) <;> cases same

/-! ## Aggregates -/

/-- The aggregates that the sign rewriting changes. -/
def signed : AggFn → Bool
  | .count => true
  | .sum _ => true
  | .avg _ => true
  | .stat .. => false
  | .direct _ => false

/-- The sign column of a scan of a CollapsingMergeTree. -/
def ScanRel.sign (scanrel : ScanRel) : Option Bytes :=
  if scanrel.fpinfo.ch_table_engine = .CH_COLLAPSING_MERGE_TREE then
    some scanrel.fpinfo.ch_table_sign_field
  else none

/-- A partial aggregate that is emitted as an array of its transition state. -/
def PartialArray (agg : Aggref) : Prop :=
  agg.aggsplit = .AGGSPLIT_INITIAL_SERIAL ∧
    (agg_partial_kind agg = .AGG_PARTIAL_AVG_INT ∨ agg_partial_kind agg = .AGG_PARTIAL_STAT_FLOAT)

section

variable {agg : Aggref} {merge merge' : Bool} {fpinfo fpinfo' : CHFdwRelationInfo}
  {args args' aggfilter aggfilter' : List Token} {P Q : Prop}

/-- What tells of a lexeme of an aggregate. -/
def SameFill (fpinfo fpinfo' : CHFdwRelationInfo) (P Q : Prop) : Lexeme → Prop
  | .arg => P
  | .aggfilter => Q
  | .sign => fpinfo.ch_table_sign_field = fpinfo'.ch_table_sign_field
  | _ => True

/-- Filling the same lexemes. -/
theorem tells_fillAggref (A : Tells args args' P) (B : Tells aggfilter aggfilter' Q)
    (l : List Lexeme) :
    Tells (l.flatMap (fillAggref fpinfo args aggfilter))
      (l.flatMap (fillAggref fpinfo' args' aggfilter'))
      ((.arg ∈ l → P) ∧ (.aggfilter ∈ l → Q) ∧
        (.sign ∈ l → fpinfo.ch_table_sign_field = fpinfo'.ch_table_sign_field)) := by
  refine (Tells.flatMap (SameFill fpinfo fpinfo' P Q) l fun x _ => ?_).congr
    ⟨fun all => ?_, fun all x mem => ?_⟩
  · cases x with
    | arg => exact A
    | aggfilter => exact B
    | sign =>
        by_cases fields : fpinfo.ch_table_sign_field = fpinfo'.ch_table_sign_field
        · unfold fillAggref
          rw [fields]
          exact (Tells.refl _).congr (iff_of_true trivial fields)
        · refine Tells.of_apart (Apart.of_head_ne fun heads => fields ?_) fields
          exact Lexeme.word.inj (Token.lexeme.inj heads)
    | _ => exact Tells.refl _
  · exact ⟨all _, all _, all _⟩
  · cases x with
    | arg => exact all.1 mem
    | aggfilter => exact all.2.1 mem
    | sign => exact all.2.2 mem
    | _ => trivial

theorem arg_mem_iff :
    .arg ∈ deparseSimpleAggref agg merge fpinfo ↔ agg.aggstar = false := by
  obtain ⟨aggfnoid, aggsplit, aggdistinct, aggfilter, aggstar, star⟩ := agg
  unfold deparseSimpleAggref appendFunctionName
  by_cases engine : fpinfo.ch_table_engine = .CH_COLLAPSING_MERGE_TREE
  · cases aggstar with
    | true =>
        obtain ⟨rfl, rfl⟩ := star rfl
        cases aggfilter <;> simp [engine]
    | false => cases aggfnoid <;> simp [engine]
  · cases aggstar with
    | true =>
        obtain ⟨rfl, rfl⟩ := star rfl
        cases aggfilter <;> simp [engine, AggFn.proname]
    | false => simp [engine]

theorem aggfilter_mem_iff :
    .aggfilter ∈ deparseSimpleAggref agg merge fpinfo ↔ agg.aggfilter = true := by
  obtain ⟨aggfnoid, aggsplit, aggdistinct, aggfilter, aggstar, star⟩ := agg
  unfold deparseSimpleAggref appendFunctionName
  by_cases engine : fpinfo.ch_table_engine = .CH_COLLAPSING_MERGE_TREE
  · cases aggfnoid <;> cases aggfilter <;> cases aggstar <;> simp [engine]
  · cases aggfilter <;> cases aggstar <;> simp [engine]

theorem sign_mem_iff :
    .sign ∈ deparseSimpleAggref agg merge fpinfo ↔
      fpinfo.ch_table_engine = .CH_COLLAPSING_MERGE_TREE ∧ signed agg.aggfnoid = true := by
  obtain ⟨aggfnoid, aggsplit, aggdistinct, aggfilter, aggstar, star⟩ := agg
  unfold deparseSimpleAggref appendFunctionName
  by_cases engine : fpinfo.ch_table_engine = .CH_COLLAPSING_MERGE_TREE
  · cases aggstar with
    | true =>
        obtain ⟨rfl, rfl⟩ := star rfl
        simp [engine, signed]
    | false => cases aggfnoid <;> simp [engine, signed]
  · cases aggstar with
    | true =>
        obtain ⟨rfl, rfl⟩ := star rfl
        cases aggfilter <;> simp [engine, AggFn.proname]
    | false => cases aggdistinct <;> cases aggfilter <;> simp [engine]

theorem mem_deparsePartialStatArray (agg : Aggref) (kind : AggPartialKind) :
    .arg ∈ deparsePartialStatArray agg kind ∧
      (.aggfilter ∈ deparsePartialStatArray agg kind ↔ agg.aggfilter = true) ∧
      .sign ∉ deparsePartialStatArray agg kind := by
  unfold deparsePartialStatArray component
  by_cases avg : kind = .AGG_PARTIAL_AVG_INT <;> cases filter : agg.aggfilter <;>
    simp [avg]

theorem appendFunctionName_eq {aggfnoid : AggFn}
    (same : signed aggfnoid = true → (fpinfo.ch_table_engine = .CH_COLLAPSING_MERGE_TREE ↔
      fpinfo'.ch_table_engine = .CH_COLLAPSING_MERGE_TREE)) :
    appendFunctionName aggfnoid fpinfo = appendFunctionName aggfnoid fpinfo' := by
  unfold appendFunctionName
  cases aggfnoid with
  | stat proname type => simp [AggFn.proname]
  | direct proname => simp [AggFn.proname]
  | _ => simp only [same rfl]

theorem deparseSimpleAggref_congr
    (same : appendFunctionName agg.aggfnoid fpinfo = appendFunctionName agg.aggfnoid fpinfo') :
    deparseSimpleAggref agg merge fpinfo = deparseSimpleAggref agg merge fpinfo' := by
  unfold deparseSimpleAggref
  rw [same]

theorem append_merge_ne {name rest : Bytes} (differ : merge ≠ merge') :
    name ++ (if merge then ascii "Merge" else []) ++ rest ≠
      name ++ (if merge' then ascii "Merge" else []) ++ rest := by
  intro same
  have same := List.append_cancel_left (List.append_cancel_right same)
  revert same differ
  cases merge <;> cases merge' <;> decide

/-- Whether the function ends in `If`. -/
def If (agg : Aggref) (fpinfo : CHFdwRelationInfo) : Bool :=
  agg.aggfilter ||
    ((appendFunctionName agg.aggfnoid fpinfo).1 = some .CF_SIGN_COUNT && !agg.aggstar)

theorem deparseSimpleAggref_head (agg : Aggref) (merge : Bool) (fpinfo : CHFdwRelationInfo) :
    ∃ rest, deparseSimpleAggref agg merge fpinfo =
      .word ((appendFunctionName agg.aggfnoid fpinfo).2 ++
        (if merge then ascii "Merge" else []) ++
        (if If agg fpinfo then ascii "If" else [])) :: .lparen :: rest :=
  ⟨_, rfl⟩

/-- Two aggregates with different names. -/
theorem apart_of_name
    (differ : (appendFunctionName agg.aggfnoid fpinfo).2 ++
        (if merge then ascii "Merge" else []) ++ (if If agg fpinfo then ascii "If" else []) ≠
      (appendFunctionName agg.aggfnoid fpinfo').2 ++
        (if merge' then ascii "Merge" else []) ++ (if If agg fpinfo' then ascii "If" else [])) :
    Apart ((deparseSimpleAggref agg merge fpinfo).flatMap (fillAggref fpinfo args aggfilter))
      ((deparseSimpleAggref agg merge' fpinfo').flatMap (fillAggref fpinfo' args' aggfilter')) := by
  obtain ⟨rest, head⟩ := deparseSimpleAggref_head agg merge fpinfo
  obtain ⟨rest', head'⟩ := deparseSimpleAggref_head agg merge' fpinfo'
  rw [head, head', List.flatMap_cons, List.flatMap_cons]
  exact Apart.of_head_ne fun heads => differ (Lexeme.word.inj (Token.lexeme.inj heads))

theorem apart_of_merge (differ : merge ≠ merge')
    (same : appendFunctionName agg.aggfnoid fpinfo = appendFunctionName agg.aggfnoid fpinfo') :
    Apart ((deparseSimpleAggref agg merge fpinfo).flatMap (fillAggref fpinfo args aggfilter))
      ((deparseSimpleAggref agg merge' fpinfo').flatMap (fillAggref fpinfo' args' aggfilter')) := by
  refine apart_of_name ?_
  unfold If
  rw [same]
  exact append_merge_ne differ

/-- The first letters differ. -/
theorem append_ne_of_head? {name name' : Bytes} (some_ : name ≠ []) (some' : name' ≠ [])
    (differ : name.head? ≠ name'.head?) (s t u v : Bytes) : name ++ s ++ u ≠ name' ++ t ++ v := by
  intro same
  have heads := congrArg List.head? same
  rw [List.append_assoc, List.append_assoc, List.head?_append_of_ne_nil _ some_,
    List.head?_append_of_ne_nil _ some'] at heads
  exact differ heads

/-- The lexemes of a sum; behind its argument comes the sign, if at all. -/
theorem deparseSimpleAggref_sum {type : ArgType} (sum : agg.aggfnoid = .sum type)
    (merge : Bool) (fpinfo : CHFdwRelationInfo) (args aggfilter : List Token) :
    ∃ next rest, deparseSimpleAggref agg merge fpinfo =
        .word (ascii "sum" ++ (if merge then ascii "Merge" else []) ++
          (if agg.aggfilter then ascii "If" else [])) :: .lparen ::
            ((if agg.aggdistinct then [.DISTINCT] else []) ++ .arg :: next :: rest) ∧
      (next = .star ↔ fpinfo.ch_table_engine = .CH_COLLAPSING_MERGE_TREE) ∧
      fillAggref fpinfo args aggfilter next = [.lexeme next] := by
  have starless : agg.aggstar = false := by
    rw [← Bool.not_eq_true]
    intro starred
    have counts := (agg.star starred).1
    rw [sum] at counts
    cases counts
  unfold deparseSimpleAggref appendFunctionName
  simp only [sum, starless]
  by_cases engine : fpinfo.ch_table_engine = .CH_COLLAPSING_MERGE_TREE
  · exact ⟨.star, _, by simp [engine]; rfl, iff_of_true rfl engine, rfl⟩
  · cases filter : agg.aggfilter with
    | false => exact ⟨.rparen, [], by simp [engine, AggFn.proname], iff_of_false nofun engine, rfl⟩
    | true =>
        exact ⟨.comma, _, by simp [engine, AggFn.proname]; rfl, iff_of_false nofun engine, rfl⟩

/-- With the sign rewriting an aggregate has another text. -/
theorem apart_of_engine (rewritten : signed agg.aggfnoid = true)
    (collapsing : fpinfo.ch_table_engine = .CH_COLLAPSING_MERGE_TREE)
    (plain : fpinfo'.ch_table_engine ≠ .CH_COLLAPSING_MERGE_TREE) (A : Tells args args' P) :
    Apart ((deparseSimpleAggref agg merge fpinfo).flatMap (fillAggref fpinfo args aggfilter))
      ((deparseSimpleAggref agg merge' fpinfo').flatMap (fillAggref fpinfo' args' aggfilter')) := by
  cases function : agg.aggfnoid with
  | stat => rw [function] at rewritten; cases rewritten
  | direct => rw [function] at rewritten; cases rewritten
  | count =>
      refine apart_of_name ?_
      simp only [appendFunctionName, function, collapsing, plain, if_true, if_false, AggFn.proname]
      exact append_ne_of_head? (by decide) (by decide) (by decide) _ _ _ _
  | avg type =>
      refine apart_of_name ?_
      simp only [appendFunctionName, function, collapsing, plain, if_true, if_false, AggFn.proname]
      exact append_ne_of_head? (by decide) (by decide) (by decide) _ _ _ _
  | sum type =>
      obtain ⟨next, rest, shape, star, filled⟩ :=
        deparseSimpleAggref_sum function merge fpinfo args aggfilter
      obtain ⟨next', rest', shape', star', filled'⟩ :=
        deparseSimpleAggref_sum function merge' fpinfo' args' aggfilter'
      by_cases same : merge = merge'
      · subst same
        have D : ∀ l : List Lexeme, l = [] ∨ l = [.DISTINCT] →
            l.flatMap (fillAggref fpinfo args aggfilter) =
              l.flatMap (fillAggref fpinfo' args' aggfilter') := by
          rintro l (rfl | rfl) <;> rfl
        rw [shape, shape']
        simp only [List.flatMap_cons, List.flatMap_append, filled, filled', List.singleton_append]
        rw [D _ (by cases agg.aggdistinct <;> simp)]
        simp only [fillAggref, List.singleton_append]
        refine Apart.cons _ (Apart.cons _ ?_)
        refine (Tells.refl _).append_apart (A.append_apart ?_)
        refine Apart.of_head_ne fun heads => plain (star'.mp ?_)
        rw [← Token.lexeme.inj heads]
        exact star.mpr collapsing
      · refine apart_of_name ?_
        simp only [If, appendFunctionName, function, collapsing, plain, if_true, if_false,
          AggFn.proname]
        exact append_merge_ne same

theorem PartialArray.starless (partial_ : PartialArray agg) : agg.aggstar = false := by
  rw [← Bool.not_eq_true]
  intro starred
  obtain ⟨counts, distinct⟩ := agg.star starred
  have direct : agg_partial_kind agg = .AGG_PARTIAL_DIRECT := by
    unfold agg_partial_kind
    rw [counts, distinct]
    rfl
  rw [PartialArray, direct] at partial_
  rcases partial_.2 with kind | kind <;> cases kind

/-- Whether an aggregate has the same text around its arguments. -/
def SameAggref (agg : Aggref) (merge merge' : Bool) (scanrel scanrel' : ScanRel) : Prop :=
  PartialArray agg ∨
    merge = merge' ∧ (signed agg.aggfnoid = true → scanrel.sign = scanrel'.sign)

theorem sign_eq_iff {scanrel scanrel' : ScanRel} :
    scanrel.sign = scanrel'.sign ↔
      (scanrel.fpinfo.ch_table_engine = .CH_COLLAPSING_MERGE_TREE ↔
        scanrel'.fpinfo.ch_table_engine = .CH_COLLAPSING_MERGE_TREE) ∧
      (scanrel.fpinfo.ch_table_engine = .CH_COLLAPSING_MERGE_TREE →
        scanrel.fpinfo.ch_table_sign_field = scanrel'.fpinfo.ch_table_sign_field) := by
  unfold ScanRel.sign
  by_cases engine : scanrel.fpinfo.ch_table_engine = .CH_COLLAPSING_MERGE_TREE <;>
    by_cases engine' : scanrel'.fpinfo.ch_table_engine = .CH_COLLAPSING_MERGE_TREE <;>
    simp [engine, engine']

theorem tells_deparseAggref (scanrel scanrel' : ScanRel) (A : Tells args args' P)
    (B : Tells aggfilter aggfilter' Q) :
    Tells ((deparseAggref agg merge scanrel.fpinfo).flatMap
        (fillAggref scanrel.fpinfo args aggfilter))
      ((deparseAggref agg merge' scanrel'.fpinfo).flatMap
        (fillAggref scanrel'.fpinfo args' aggfilter'))
      (SameAggref agg merge merge' scanrel scanrel' ∧
        (agg.aggstar = false → P) ∧ (agg.aggfilter = true → Q)) := by
  by_cases partial_ : PartialArray agg
  · have text (merge : Bool) (fpinfo : CHFdwRelationInfo) : deparseAggref agg merge fpinfo =
        deparsePartialStatArray agg (agg_partial_kind agg) := if_pos partial_
    rw [text, text]
    obtain ⟨arg, filter, sign⟩ := mem_deparsePartialStatArray agg (agg_partial_kind agg)
    refine (tells_fillAggref A B _).congr ?_
    rw [filter, SameAggref, eq_true partial_, true_or, true_and, eq_true arg,
      eq_true partial_.starless, eq_false sign]
    simp
  have text (merge : Bool) (fpinfo : CHFdwRelationInfo) : deparseAggref agg merge fpinfo =
      deparseSimpleAggref agg merge fpinfo := if_neg partial_
  rw [text, text]
  by_cases engines : signed agg.aggfnoid = true →
      (scanrel.fpinfo.ch_table_engine = .CH_COLLAPSING_MERGE_TREE ↔
        scanrel'.fpinfo.ch_table_engine = .CH_COLLAPSING_MERGE_TREE)
  · have same := appendFunctionName_eq engines
    by_cases merges : merge = merge'
    · subst merges
      rw [← deparseSimpleAggref_congr same]
      refine (tells_fillAggref A B _).congr ?_
      rw [arg_mem_iff, aggfilter_mem_iff, sign_mem_iff, SameAggref, or_iff_right partial_,
        sign_eq_iff]
      constructor
      · rintro ⟨arg, filter, sign⟩
        exact ⟨⟨rfl, fun rewritten => ⟨engines rewritten, fun engine => sign ⟨engine, rewritten⟩⟩⟩,
          arg, filter⟩
      · rintro ⟨⟨-, sign⟩, arg, filter⟩
        exact ⟨arg, filter, fun both => (sign both.2).2 both.1⟩
    · exact Tells.of_apart (apart_of_merge merges same)
        fun all => merges (all.1.resolve_left partial_).1
  · have differ : ¬SameAggref agg merge merge' scanrel scanrel' := fun all =>
      engines fun rewritten => (sign_eq_iff.mp ((all.resolve_left partial_).2 rewritten)).1
    refine Tells.of_apart ?_ fun all => differ all.1
    rw [Classical.not_imp] at engines
    by_cases engine : scanrel.fpinfo.ch_table_engine = .CH_COLLAPSING_MERGE_TREE
    · have engine' := fun other => engines.2 (iff_of_true engine other)
      exact apart_of_engine engines.1 engine engine' A
    · have engine' := of_not_not fun other => engines.2 (iff_of_false engine other)
      exact (apart_of_engine engines.1 engine' engine A.symm).symm

end
/-! ## Comparisons with the elements of an array -/

section

variable {root : PlannerInfo} {scanrel scanrel' : ScanRel} {truth_ctx truth_ctx' : Bool}
  {op : Comparison} {useOr : Bool} {arg1 arg2 : Expr}

/-- A constant with elements. -/
theorem ok_in_expr_cases (ok : is_ok_in_expr arg2 = true) :
    ∃ node hasnull, arg2 = .Const node ∧ node.array = some (.elements hasnull) := by
  unfold is_ok_in_expr at ok
  split at ok
  · rename_i node
    rcases array : node.array with _ | _ | hasnull
    · rw [array] at ok
      cases ok
    · rw [array] at ok
      cases ok
    · exact ⟨node, hasnull, rfl, array⟩
  · cases ok

/-- Of a constant it is known in every context whether it has NULL elements. -/
theorem saop_array_nulls_of_ok (ok : is_ok_in_expr arg2 = true) (scanrel' : ScanRel) :
    saop_array_nulls root scanrel arg2 = saop_array_nulls root scanrel' arg2 := by
  obtain ⟨node, hasnull, rfl, array⟩ := ok_in_expr_cases ok
  simp only [saop_array_nulls, array]

theorem saop_array_nulls_ne_empty (ok : is_ok_in_expr arg2 = true) :
    saop_array_nulls root scanrel arg2 ≠ .EMPTY := by
  obtain ⟨node, hasnull, rfl, array⟩ := ok_in_expr_cases ok
  simp only [saop_array_nulls, array]
  cases hasnull <;> exact nofun

theorem saopForm_native_iff :
    saopForm root scanrel truth_ctx op useOr arg1 arg2 = .native ↔
      (saop_array_nulls root scanrel arg2 = .NULL_FREE ∨
        truth_ctx = true ∧ useOr = true ∧ op = .eq) ∧
      is_ok_in_expr arg2 = true ∧ (useOr = true ∧ op = .eq ∨ useOr = false ∧ op = .ne) := by
  unfold saopForm
  simp only
  split
  · rename_i native
    refine iff_of_true rfl ?_
    simpa [and_assoc] using native
  · rename_i other
    refine iff_of_false (by split <;> exact nofun) fun native => other ?_
    simpa [and_assoc] using native

/-- The native form does not depend on the scan. -/
theorem native_of_native
    (native : saopForm root scanrel truth_ctx op useOr arg1 arg2 = .native) :
    saopForm root scanrel' truth_ctx op useOr arg1 arg2 = .native := by
  rw [saopForm_native_iff] at native ⊢
  rw [← saop_array_nulls_of_ok native.2.1 scanrel']
  exact native

/-- Outside of a truth context the alternative to the native form is the guarded one. -/
theorem guarded_of_native
    (native : saopForm root scanrel truth_ctx op useOr arg1 arg2 = .native)
    (other : saopForm root scanrel truth_ctx' op useOr arg1 arg2 ≠ .native) :
    saopForm root scanrel truth_ctx' op useOr arg1 arg2 = .guarded := by
  rw [saopForm_native_iff] at native
  have nullable : saop_array_nulls root scanrel arg2 ≠ .NULL_FREE := fun free =>
    other (saopForm_native_iff.mpr ⟨.inl free, native.2⟩)
  have some_ : saop_array_nulls root scanrel arg2 ≠ .EMPTY :=
    saop_array_nulls_ne_empty native.2.1
  unfold saopForm at other ⊢
  simp only at other ⊢
  split at other
  · exact absurd rfl other
  · rename_i form
    rw [if_neg form, if_neg]
    simp [nullable, some_]

theorem fill_native (op : Comparison) (useOr : Bool) (text1 text2 : List Token) : ∃ rest,
    (saopTemplate op useOr .native).flatMap (Slot.fill text1 text2) =
      .lparen :: (text1 ++ rest) :=
  ⟨_, rfl⟩

theorem fill_cheap (op : Comparison) (useOr : Bool) (text1 text2 : List Token) : ∃ name rest,
    (saopTemplate op useOr .cheap).flatMap (Slot.fill text1 text2) =
      .lparen :: .lexeme (.word name) :: rest := by
  cases op <;> cases useOr <;> exact ⟨_, _, rfl⟩

theorem fill_guarded (op : Comparison) (useOr : Bool) (text1 text2 : List Token) : ∃ rest,
    (saopTemplate op useOr .guarded).flatMap (Slot.fill text1 text2) =
      .lparen :: .CASE :: .WHEN :: (text1 ++ rest) := by
  unfold saopTemplate
  simp only [List.cons_append, List.nil_append, List.append_assoc, List.flatMap_cons, Slot.fill]
  exact ⟨_, rfl⟩

theorem arg_mem_saopTemplate (op : Comparison) (useOr : Bool) (form : SaopForm) :
    .arg1 ∈ saopTemplate op useOr form ∧ .arg2 ∈ saopTemplate op useOr form := by
  unfold saopTemplate call
  cases form with
  | native => simp
  | cheap => cases op <;> cases useOr <;> simp
  | guarded => simp

end

/-! ## Expressions -/

/-- The same text of a constant. -/
def SameConst (node : Const) (flags flags' : Flags) : Prop :=
  node.constisnull = true ∨
    (if flags.array_as_tuple then node.tuple else node.literal) =
        (if flags'.array_as_tuple then node.tuple else node.literal) ∧
      (if flags.showtype then some node.typename else node.cast) =
        (if flags'.showtype then some node.typename else node.cast)

section

variable (root : PlannerInfo) (scanrel scanrel' : ScanRel)

mutual

/-- At each node that is printed the decision is the same. -/
def Expr.Same (flags flags' : Flags) : Expr → Prop
  | .Var _ => True
  | .Const node => SameConst node flags flags'
  | .Param _ => True
  | .RelabelType arg => arg.Same (Pass.keep.flags flags) (Pass.keep.flags flags')
  | .CoerceViaIOExpr none arg => arg.Same (Pass.exact.flags flags) (Pass.exact.flags flags')
  | .CoerceViaIOExpr (some _) arg =>
      arg.Same (Pass.exact.flags flags) (Pass.exact.flags flags') ∧
        flags.nullable = flags'.nullable
  | .concat left right =>
      left.Same (Pass.exact.flags flags) (Pass.exact.flags flags') ∧
        spanUnit flags right = spanUnit flags' right ∧
        (spanUnit flags right = none →
          right.Same (Pass.exact.flags flags) (Pass.exact.flags flags'))
  | .neg_ip left right =>
      left.Same (Pass.exact.flags flags) (Pass.exact.flags flags') ∧
        right.Same (Pass.exact.flags flags) (Pass.exact.flags flags')
  | .timezone zone source =>
      source.Same (Pass.exact.flags flags) (Pass.exact.flags flags') ∧
        zone.Same (Pass.exact.flags flags) (Pass.exact.flags flags')
  | .ScalarArrayOpExpr op useOr arg1 arg2 =>
      let form := saopForm root scanrel flags.truth_ctx op useOr arg1 arg2
      form = saopForm root scanrel' flags'.truth_ctx op useOr arg1 arg2 ∧
        arg1.Same (Pass.exact.flags flags) (Pass.exact.flags flags') ∧
        arg2.Same (flags.array (form == .native)) (flags'.array (form == .native))
  | .Aggref node args aggfilter =>
      SameAggref node (aggref_on_aggregate_function root scanrel args)
          (aggref_on_aggregate_function root scanrel' args) scanrel scanrel' ∧
        (node.aggstar = false →
          args.Same (Pass.exact.flags flags) (Pass.exact.flags flags')) ∧
        (node.aggfilter = true →
          aggfilter.Same (Pass.truth.flags flags) (Pass.truth.flags flags'))
  | .node _ parts => parts.Same flags flags'

def Args.Same (flags flags' : Flags) : Args → Prop
  | .nil => True
  | .cons arg rest => arg.Same flags flags' ∧ rest.Same flags flags'

def Parts.Same (flags flags' : Flags) : Parts → Prop
  | .last _ => True
  | .lexeme _ rest => rest.Same flags flags'
  | .child pass arg rest =>
      arg.Same (pass.flags flags) (pass.flags flags') ∧ rest.Same flags flags'
  | .unseen _ rest => rest.Same flags flags'

end

end

/-! ### Constants -/

/-- The text of a constant that is not NULL. -/
def constText (text : Bytes) : Option Bytes → List Token
  | none => [.literal text]
  | some typename =>
      [.word "cast", .lparen, .literal text, .word "as", .lexeme (.word typename), .rparen]

theorem deparseConst_of_not_null {node : Const} (value : node.constisnull = false)
    (array_as_tuple showtype : Bool) :
    deparseConst node array_as_tuple showtype =
      constText (if array_as_tuple then node.tuple else node.literal)
        (if showtype then some node.typename else node.cast) := by
  unfold deparseConst
  rw [value, if_neg Bool.false_ne_true]
  simp only
  split
  · rename_i typed
    rw [typed]
    rfl
  · rename_i typed
    rw [typed]
    rfl

theorem constText_head (text : Bytes) (cast : Option Bytes) :
    ∃ t rest, constText text cast = t :: rest ∧ ¬t.Opening := by
  rcases cast with _ | typename
  · exact ⟨_, _, rfl, by rintro (same | same | same) <;> cases same⟩
  · exact ⟨_, _, rfl, not_opening_word _⟩

theorem deparseConst_head (node : Const) (array_as_tuple showtype : Bool) :
    ∃ t rest, deparseConst node array_as_tuple showtype = t :: rest ∧ ¬t.Opening := by
  cases value : node.constisnull with
  | true => exact ⟨_, [], if_pos value, not_opening_word _⟩
  | false =>
      rw [deparseConst_of_not_null value]
      exact constText_head _ _

/-- A token that is a name of `a`. -/
theorem tells_singleton {α : Type} {token : α → Token} (injective : Function.Injective token)
    (a b : α) : Tells [token a] [token b] (a = b) := by
  by_cases same : a = b
  · rw [same]
    exact (Tells.refl _).congr (iff_of_true trivial rfl)
  · exact Tells.of_apart (Apart.of_head_ne fun heads => same (injective heads)) same

theorem tells_constText (text text' : Bytes) (cast cast' : Option Bytes) :
    Tells (constText text cast) (constText text' cast') (text = text' ∧ cast = cast') := by
  have literal : Tells [Token.literal text] [Token.literal text'] (text = text') :=
    tells_singleton (fun _ _ same => Token.literal.inj same) text text'
  rcases cast with _ | typename <;> rcases cast' with _ | typename'
  · exact literal.congr ⟨fun same => ⟨same, rfl⟩, And.left⟩
  · exact Tells.of_apart (Apart.of_head_ne nofun) fun same => nomatch same.2
  · exact Tells.of_apart (Apart.of_head_ne nofun) fun same => nomatch same.2
  · have injective : Function.Injective fun name => Token.lexeme (.word name) :=
      fun _ _ same => Lexeme.word.inj (Token.lexeme.inj same)
    have name : Tells [Token.lexeme (.word typename)] [Token.lexeme (.word typename')]
        (typename = typename') := tells_singleton injective typename typename'
    have all := (Tells.refl [Token.word "cast", .lparen]).append
      (literal.append ((Tells.refl [Token.word "as"]).append (name.append_right [.rparen])))
    exact all.congr (by simp)

theorem tells_deparseConst (node : Const) (flags flags' : Flags) :
    Tells (deparseConst node flags.array_as_tuple flags.showtype)
      (deparseConst node flags'.array_as_tuple flags'.showtype) (SameConst node flags flags') := by
  unfold SameConst
  cases value : node.constisnull with
  | true =>
      have text (array_as_tuple showtype : Bool) :
          deparseConst node array_as_tuple showtype = [.word "NULL"] := if_pos value
      rw [text, text]
      exact (Tells.refl _).congr (iff_of_true trivial (.inl rfl))
  | false =>
      rw [deparseConst_of_not_null value, deparseConst_of_not_null value]
      exact (tells_constText _ _ _ _).congr (by simp)

/-! ### Beginnings -/

theorem opening_case : Token.CASE.Opening := .inr (.inl rfl)

theorem opening_when : Token.WHEN.Opening := .inr (.inr rfl)

section

variable {root : PlannerInfo} {scanrel : ScanRel}

theorem deparsePartialStatArray_head (agg : Aggref) (kind : AggPartialKind) :
    ∃ rest, deparsePartialStatArray agg kind = .lbracket :: rest := by
  unfold deparsePartialStatArray
  simp only
  split
  · exact ⟨_, rfl⟩
  · exact ⟨_, rfl⟩

/-- The text of an aggregate begins with a name or a bracket. -/
theorem deparseAggref_head (agg : Aggref) (merge : Bool) (fpinfo : CHFdwRelationInfo)
    (args aggfilter : List Token) :
    ∃ t rest, (deparseAggref agg merge fpinfo).flatMap (fillAggref fpinfo args aggfilter) =
      t :: rest ∧ ¬t.Opening := by
  by_cases partial_ : PartialArray agg
  · have text : deparseAggref agg merge fpinfo =
        deparsePartialStatArray agg (agg_partial_kind agg) := if_pos partial_
    obtain ⟨rest, head⟩ := deparsePartialStatArray_head agg (agg_partial_kind agg)
    rw [text, head, List.flatMap_cons]
    exact ⟨_, _, rfl, by rintro (same | same | same) <;> cases same⟩
  · have text : deparseAggref agg merge fpinfo = deparseSimpleAggref agg merge fpinfo :=
      if_neg partial_
    obtain ⟨rest, head⟩ := deparseSimpleAggref_head agg merge fpinfo
    rw [text, head, List.flatMap_cons]
    exact ⟨_, _, rfl, not_opening_word _⟩

theorem saopForm_of_not_native {truth_ctx : Bool} {op : Comparison} {useOr : Bool}
    {arg1 arg2 : Expr} (other : saopForm root scanrel truth_ctx op useOr arg1 arg2 ≠ .native) :
    saopForm root scanrel truth_ctx op useOr arg1 arg2 =
      if saop_array_nulls root scanrel arg2 == .EMPTY ||
          (saop_array_nulls root scanrel arg2 == .NULL_FREE &&
            expr_never_null root scanrel arg1) then .cheap
      else .guarded := by
  unfold saopForm at other ⊢
  simp only at other ⊢
  split at other
  · exact absurd rfl other
  · rename_i form
    rw [if_neg form]

/-- The forms of a comparison in one scan. -/
theorem form_cases (truth_ctx truth_ctx' : Bool) (op : Comparison) (useOr : Bool)
    (arg1 arg2 : Expr) :
    saopForm root scanrel truth_ctx op useOr arg1 arg2 =
        saopForm root scanrel truth_ctx' op useOr arg1 arg2 ∨
      (saopForm root scanrel truth_ctx op useOr arg1 arg2 = .native ∧
        saopForm root scanrel truth_ctx' op useOr arg1 arg2 = .guarded) ∨
      (saopForm root scanrel truth_ctx op useOr arg1 arg2 = .guarded ∧
        saopForm root scanrel truth_ctx' op useOr arg1 arg2 = .native) := by
  by_cases native : saopForm root scanrel truth_ctx op useOr arg1 arg2 = .native
  · by_cases native' : saopForm root scanrel truth_ctx' op useOr arg1 arg2 = .native
    · exact .inl (native.trans native'.symm)
    · exact .inr (.inl ⟨native, guarded_of_native native native'⟩)
  · by_cases native' : saopForm root scanrel truth_ctx' op useOr arg1 arg2 = .native
    · exact .inr (.inr ⟨guarded_of_native native' native, native'⟩)
    · rw [saopForm_of_not_native native, saopForm_of_not_native native']
      exact .inl rfl

/-- The forms of a comparison with the same flags. -/
theorem form_cases_scan (scanrel' : ScanRel) (truth_ctx : Bool) (op : Comparison) (useOr : Bool)
    (arg1 arg2 : Expr) :
    saopForm root scanrel truth_ctx op useOr arg1 arg2 =
        saopForm root scanrel' truth_ctx op useOr arg1 arg2 ∨
      (saopForm root scanrel truth_ctx op useOr arg1 arg2 = .cheap ∧
        saopForm root scanrel' truth_ctx op useOr arg1 arg2 = .guarded) ∨
      (saopForm root scanrel truth_ctx op useOr arg1 arg2 = .guarded ∧
        saopForm root scanrel' truth_ctx op useOr arg1 arg2 = .cheap) := by
  have both (s s' : ScanRel) (native : saopForm root s truth_ctx op useOr arg1 arg2 = .native) :
      saopForm root s' truth_ctx op useOr arg1 arg2 = .native := native_of_native native
  cases form : saopForm root scanrel truth_ctx op useOr arg1 arg2 <;>
    cases form' : saopForm root scanrel' truth_ctx op useOr arg1 arg2
  all_goals first
    | exact .inl rfl
    | exact .inr (.inl ⟨rfl, rfl⟩)
    | exact .inr (.inr ⟨rfl, rfl⟩)
    | cases form.symm.trans (both _ _ form')
    | cases form'.symm.trans (both _ _ form)

end

section

variable (root : PlannerInfo) (scanrel : ScanRel)

/-- Texts of a comparison whose first arguments are unshifted. -/
theorem unshifted_saop {form form' : SaopForm} (forms : form = form' ∨
      (form = .native ∧ form' = .guarded) ∨ (form = .guarded ∧ form' = .native))
    (op : Comparison) (useOr : Bool) {text1 text2 text1' text2' : List Token}
    (first : Unshifted Token.Opening text1 text1') :
    Unshifted Token.Opening ((saopTemplate op useOr form).flatMap (Slot.fill text1 text2))
      ((saopTemplate op useOr form').flatMap (Slot.fill text1' text2')) := by
  obtain ⟨n, native⟩ := fill_native op useOr text1 text2
  obtain ⟨n', native'⟩ := fill_native op useOr text1' text2'
  obtain ⟨g, guarded⟩ := fill_guarded op useOr text1 text2
  obtain ⟨g', guarded'⟩ := fill_guarded op useOr text1' text2'
  rcases forms with rfl | ⟨rfl, rfl⟩ | ⟨rfl, rfl⟩
  · cases form with
    | native =>
        rw [native, native']
        exact (first.append _ _).cons .lparen
    | cheap =>
        obtain ⟨name', c', cheap'⟩ := fill_cheap op useOr text1' text2'
        obtain ⟨name, c, cheap⟩ := fill_cheap op useOr text1 text2
        rw [cheap, cheap']
        exact (Unshifted.of_head (not_opening_word name')).cons .lparen
    | guarded =>
        rw [guarded, guarded']
        exact (((first.append _ _).cons .WHEN).cons .CASE).cons .lparen
  · rw [native, guarded']
    have absent : Token.lparen ∉ [Token.CASE, .WHEN] := by decide
    exact Unshifted.behind absent (first.append _ _)
  · rw [guarded, native']
    exact (((first.append _ _).longer opening_when).longer opening_case).cons .lparen

mutual

/-- In one scan the text of an expression does not begin behind opening tokens like another
text of the expression. -/
theorem unshifted_expr (flags flags' : Flags) : ∀ e : Expr,
    Unshifted Token.Opening (deparseExpr root scanrel flags e) (deparseExpr root scanrel flags' e)
  | .Var node => by
      rw [deparseExpr, deparseExpr]
      exact Unshifted.of_head (by rintro (same | same | same) <;> cases same)
  | .Const node => by
      obtain ⟨t, rest, head, closed⟩ :=
        deparseConst_head node flags'.array_as_tuple flags'.showtype
      rw [deparseExpr, deparseExpr, head]
      exact Unshifted.of_head closed
  | .Param id => by
      rw [deparseExpr, deparseExpr]
      exact Unshifted.of_head (by rintro (same | same | same) <;> cases same)
  | .RelabelType arg => by
      rw [deparseExpr, deparseExpr]
      exact unshifted_expr _ _ arg
  | .CoerceViaIOExpr none arg => by
      rw [deparseExpr, deparseExpr]
      exact unshifted_expr _ _ arg
  | .CoerceViaIOExpr (some typename) arg => by
      rw [deparseExpr, deparseExpr]
      exact Unshifted.of_head (not_opening_word _)
  | .concat left right => by
      rw [deparseExpr, deparseExpr]
      exact ((unshifted_expr _ _ left).cons .lparen).append _ _
  | .neg_ip left right => by
      rw [deparseExpr, deparseExpr]
      exact (Unshifted.of_head (not_opening_word _)).cons .lparen
  | .timezone zone source => by
      rw [deparseExpr, deparseExpr]
      exact Unshifted.of_head (not_opening_word _)
  | .ScalarArrayOpExpr op useOr arg1 arg2 => by
      rw [deparseExpr, deparseExpr]
      exact unshifted_saop (form_cases _ _ op useOr arg1 arg2) op useOr (unshifted_expr _ _ arg1)
  | .Aggref node args aggfilter => by
      rw [deparseExpr, deparseExpr]
      obtain ⟨t, rest, head, closed⟩ := deparseAggref_head node
        (aggref_on_aggregate_function root scanrel args) scanrel.fpinfo
        (deparseArgs root scanrel (Pass.exact.flags flags') args)
        (deparseArgs root scanrel (Pass.truth.flags flags') aggfilter)
      rw [head]
      exact Unshifted.of_head closed
  | .node tag parts => by
      rw [deparseExpr, deparseExpr]
      exact unshifted_parts flags flags' parts

theorem unshifted_parts (flags flags' : Flags) : ∀ parts : Parts,
    Unshifted Token.Opening (deparseParts root scanrel flags parts)
      (deparseParts root scanrel flags' parts)
  | .last closing => by
      rw [deparseParts, deparseParts]
      exact Unshifted.of_head (not_opening_closing closing)
  | .lexeme token rest => by
      rw [deparseParts, deparseParts]
      exact (unshifted_parts flags flags' rest).cons token
  | .child pass arg rest => by
      rw [deparseParts, deparseParts]
      exact (unshifted_expr _ _ arg).append _ _
  | .unseen arg rest => by
      rw [deparseParts, deparseParts]
      exact unshifted_parts flags flags' rest

end

end

/-! ### Texts -/

section

variable {text1 text1' text2 text2' : List Token} {P Q : Prop}

/-- What tells of a slot for one of two arguments. -/
def SameSlot (P Q : Prop) : Slot → Prop
  | .token _ => True
  | .arg1 => P
  | .arg2 => Q

/-- The same form of a comparison. -/
theorem tells_saopTemplate (op : Comparison) (useOr : Bool) (form : SaopForm)
    (first : Tells text1 text1' P) (second : Tells text2 text2' Q) :
    Tells ((saopTemplate op useOr form).flatMap (Slot.fill text1 text2))
      ((saopTemplate op useOr form).flatMap (Slot.fill text1' text2')) (P ∧ Q) := by
  refine (Tells.flatMap (SameSlot P Q) _ fun slot _ => ?_).congr
    ⟨fun all => ?_, fun all slot _ => ?_⟩
  · cases slot with
    | token t => exact Tells.refl _
    | arg1 => exact first
    | arg2 => exact second
  · obtain ⟨arg1, arg2⟩ := arg_mem_saopTemplate op useOr form
    exact ⟨all _ arg1, all _ arg2⟩
  · cases slot with
    | token t => trivial
    | arg1 => exact all.1
    | arg2 => exact all.2

/-- The native form and the guarded one. -/
theorem apart_native_guarded (op : Comparison) (useOr : Bool)
    (first : Unshifted Token.Opening text1' text1) :
    Apart ((saopTemplate op useOr .native).flatMap (Slot.fill text1 text2))
      ((saopTemplate op useOr .guarded).flatMap (Slot.fill text1' text2')) := by
  obtain ⟨n, native⟩ := fill_native op useOr text1 text2
  obtain ⟨g', guarded'⟩ := fill_guarded op useOr text1' text2'
  have opens : ∀ t ∈ [Token.CASE, .WHEN], t.Opening := by decide
  rw [native, guarded']
  exact Apart.cons _ ((first.append g' n).apart (List.cons_ne_nil _ _) opens).symm

theorem apart_cheap_guarded (op : Comparison) (useOr : Bool) :
    Apart ((saopTemplate op useOr .cheap).flatMap (Slot.fill text1 text2))
      ((saopTemplate op useOr .guarded).flatMap (Slot.fill text1' text2')) := by
  obtain ⟨name, c, cheap⟩ := fill_cheap op useOr text1 text2
  obtain ⟨g', guarded'⟩ := fill_guarded op useOr text1' text2'
  rw [cheap, guarded']
  exact Apart.cons _ (Apart.of_head_ne nofun)

end

section

variable (root : PlannerInfo) (scanrel scanrel' : ScanRel)

theorem tells_saop {flags flags' : Flags} (one : scanrel = scanrel' ∨ flags = flags')
    (op : Comparison) (useOr : Bool) (arg1 arg2 : Expr) {P : Prop} (Q : SaopForm → Prop)
    (first : Tells (deparseExpr root scanrel (Pass.exact.flags flags) arg1)
      (deparseExpr root scanrel' (Pass.exact.flags flags') arg1) P)
    (second : ∀ form : SaopForm,
      Tells (deparseExpr root scanrel (flags.array (form == .native)) arg2)
        (deparseExpr root scanrel' (flags'.array (form == .native)) arg2) (Q form)) :
    Tells (deparseExpr root scanrel flags (.ScalarArrayOpExpr op useOr arg1 arg2))
      (deparseExpr root scanrel' flags' (.ScalarArrayOpExpr op useOr arg1 arg2))
      (saopForm root scanrel flags.truth_ctx op useOr arg1 arg2 =
          saopForm root scanrel' flags'.truth_ctx op useOr arg1 arg2 ∧
        P ∧ Q (saopForm root scanrel flags.truth_ctx op useOr arg1 arg2)) := by
  rw [deparseExpr, deparseExpr]
  by_cases same : saopForm root scanrel flags.truth_ctx op useOr arg1 arg2 =
      saopForm root scanrel' flags'.truth_ctx op useOr arg1 arg2
  · rw [← same]
    refine (tells_saopTemplate op useOr _ first (second _)).congr ?_
    exact ⟨fun both => ⟨rfl, both⟩, And.right⟩
  · refine Tells.of_apart ?_ fun all => same all.1
    rcases one with rfl | rfl
    · rcases form_cases flags.truth_ctx flags'.truth_ctx op useOr arg1 arg2 with
        forms | ⟨form, form'⟩ | ⟨form, form'⟩
      · exact absurd forms same
      · rw [form, form']
        exact apart_native_guarded op useOr (unshifted_expr root scanrel _ _ arg1)
      · rw [form, form']
        exact (apart_native_guarded op useOr (unshifted_expr root scanrel _ _ arg1)).symm
    · rcases form_cases_scan scanrel' flags.truth_ctx op useOr arg1 arg2 with
        forms | ⟨form, form'⟩ | ⟨form, form'⟩
      · exact absurd forms same
      · rw [form, form']
        exact apart_cheap_guarded op useOr
      · rw [form, form']
        exact (apart_cheap_guarded op useOr).symm

variable {scanrel scanrel'} in
theorem one_of_pass {flags flags' : Flags} (one : scanrel = scanrel' ∨ flags = flags')
    (pass : Pass) : scanrel = scanrel' ∨ pass.flags flags = pass.flags flags' :=
  one.imp_right fun same => by rw [same]

/-- The end of a cast. -/
theorem tells_cast (typename : Bytes) (nullable nullable' : Bool) :
    Tells
      (if nullable then
          [Token.word "Nullable", .lparen, .lexeme (.word typename), .rparen, .rparen]
        else [.lexeme (.word typename), .rparen])
      (if nullable' then
          [Token.word "Nullable", .lparen, .lexeme (.word typename), .rparen, .rparen]
        else [.lexeme (.word typename), .rparen])
      (nullable = nullable') := by
  have apart : Apart
      [Token.word "Nullable", .lparen, .lexeme (.word typename), .rparen, .rparen]
      [.lexeme (.word typename), .rparen] := by
    by_cases same : typename = ascii "Nullable"
    · rw [same]
      refine Apart.cons _ (Apart.of_head_ne fun heads => ?_)
      cases heads
    · refine Apart.of_head_ne fun heads => same ?_
      exact (Lexeme.word.inj (Token.lexeme.inj heads)).symm
  cases nullable <;> cases nullable'
  · exact (Tells.refl _).congr (iff_of_true trivial rfl)
  · exact Tells.of_apart apart.symm Bool.false_ne_true
  · exact Tells.of_apart apart Bool.false_ne_true.symm
  · exact (Tells.refl _).congr (iff_of_true trivial rfl)

/-- The end of `||`. -/
theorem tells_span {flags flags' : Flags} {right : Expr} {text text' : List Token} {P : Prop}
    (second : Tells text text' P) :
    Tells
      (match spanUnit flags right with
        | some unit => [.rparen, unit]
        | none => [.word "||"] ++ text ++ [.rparen])
      (match spanUnit flags' right with
        | some unit => [.rparen, unit]
        | none => [.word "||"] ++ text' ++ [.rparen])
      (spanUnit flags right = spanUnit flags' right ∧ (spanUnit flags right = none → P)) := by
  rcases unit : spanUnit flags right with _ | u <;> rcases unit' : spanUnit flags' right with _ | u'
  · refine (((Tells.refl _).append second).append_right _).congr ?_
    simp
  · exact Tells.of_apart (Apart.of_head_ne nofun) fun same => nomatch same.1
  · exact Tells.of_apart (Apart.of_head_ne nofun) fun same => nomatch same.1
  · have same : u = u' := by
      unfold spanUnit at unit unit'
      split at unit
      · split at unit'
        · exact Option.some.inj (unit.symm.trans unit')
        · cases unit'
      · cases unit
    rw [same]
    exact (Tells.refl _).congr (iff_of_true trivial ⟨rfl, nofun⟩)

mutual

/-- The text of an expression in two scans or with two sets of flags. -/
theorem tells_deparseExpr {flags flags' : Flags} (one : scanrel = scanrel' ∨ flags = flags') :
    ∀ e : Expr, Tells (deparseExpr root scanrel flags e) (deparseExpr root scanrel' flags' e)
      (e.Same root scanrel scanrel' flags flags')
  | .Var node => by
      rw [deparseExpr, deparseExpr, Expr.Same]
      exact Tells.refl _
  | .Const node => by
      rw [deparseExpr, deparseExpr, Expr.Same]
      exact tells_deparseConst node flags flags'
  | .Param id => by
      rw [deparseExpr, deparseExpr, Expr.Same]
      exact Tells.refl _
  | .RelabelType arg => by
      rw [deparseExpr, deparseExpr, Expr.Same]
      exact tells_deparseExpr (one_of_pass one _) arg
  | .CoerceViaIOExpr none arg => by
      rw [deparseExpr, deparseExpr, Expr.Same]
      exact tells_deparseExpr (one_of_pass one _) arg
  | .CoerceViaIOExpr (some typename) arg => by
      rw [deparseExpr, deparseExpr, Expr.Same]
      have text := tells_deparseExpr (one_of_pass one .exact) arg
      refine ((((Tells.refl _).append text).append_right [.word "AS"]).append
        (tells_cast typename flags.nullable flags'.nullable)).congr ?_
      rw [true_and]
  | .concat left right => by
      rw [deparseExpr, deparseExpr, Expr.Same]
      have first := tells_deparseExpr (one_of_pass one .exact) left
      have second := tells_deparseExpr (one_of_pass one .exact) right
      refine (((Tells.refl _).append first).append (tells_span second)).congr ?_
      rw [true_and]
  | .neg_ip left right => by
      rw [deparseExpr, deparseExpr, Expr.Same]
      have first := tells_deparseExpr (one_of_pass one .exact) left
      have second := tells_deparseExpr (one_of_pass one .exact) right
      refine (((((Tells.refl _).append first).append_right [.comma]).append second).append_right
        [.rparen, .rparen]).congr ?_
      rw [true_and]
  | .timezone zone source => by
      rw [deparseExpr, deparseExpr, Expr.Same]
      have first := tells_deparseExpr (one_of_pass one .exact) source
      have second := tells_deparseExpr (one_of_pass one .exact) zone
      refine (((((Tells.refl _).append first).append_right [.comma]).append second).append_right
        _).congr ?_
      rw [true_and]
  | .ScalarArrayOpExpr op useOr arg1 arg2 => by
      rw [Expr.Same]
      refine tells_saop root scanrel scanrel' one op useOr arg1 arg2
        (fun form => arg2.Same root scanrel scanrel' (flags.array (form == .native))
          (flags'.array (form == .native)))
        (tells_deparseExpr (one_of_pass one .exact) arg1) fun form => ?_
      exact tells_deparseExpr (one.imp_right fun same => by rw [same]) arg2
  | .Aggref node args aggfilter => by
      rw [deparseExpr, deparseExpr, Expr.Same]
      exact tells_deparseAggref scanrel scanrel'
        (tells_deparseArgs (one_of_pass one _) args)
        (tells_deparseArgs (one_of_pass one _) aggfilter)
  | .node tag parts => by
      rw [deparseExpr, deparseExpr, Expr.Same]
      exact tells_deparseParts one parts

theorem tells_deparseArgs {flags flags' : Flags} (one : scanrel = scanrel' ∨ flags = flags') :
    ∀ args : Args, Tells (deparseArgs root scanrel flags args)
      (deparseArgs root scanrel' flags' args) (args.Same root scanrel scanrel' flags flags')
  | .nil => by
      rw [deparseArgs, deparseArgs, Args.Same]
      exact Tells.refl _
  | .cons arg .nil => by
      rw [deparseArgs, deparseArgs, Args.Same, Args.Same]
      exact (tells_deparseExpr one arg).congr (iff_of_eq (and_true _)).symm
  | .cons arg (.cons next rest) => by
      rw [deparseArgs, deparseArgs, Args.Same]
      exact (tells_deparseExpr one arg).append
        ((tells_deparseArgs one (.cons next rest)).cons .comma)

theorem tells_deparseParts {flags flags' : Flags} (one : scanrel = scanrel' ∨ flags = flags') :
    ∀ parts : Parts, Tells (deparseParts root scanrel flags parts)
      (deparseParts root scanrel' flags' parts) (parts.Same root scanrel scanrel' flags flags')
  | .last closing => by
      rw [deparseParts, deparseParts, Parts.Same]
      exact Tells.refl _
  | .lexeme token rest => by
      rw [deparseParts, deparseParts, Parts.Same]
      exact (tells_deparseParts one rest).cons token
  | .child pass arg rest => by
      rw [deparseParts, deparseParts, Parts.Same]
      exact (tells_deparseExpr (one_of_pass one _) arg).append
        (tells_deparseParts one rest)
  | .unseen arg rest => by
      rw [deparseParts, deparseParts, Parts.Same]
      exact tells_deparseParts one rest

end

end

end PgClickhouse.Context

import Mathlib.Data.Nat.Cast.Order.Ring
import PgClickhouse.AggregateText

/-!
# Values of emitted aggregates

What each form of an emitted aggregate evaluates to, in terms of the values it counts.
-/

namespace PgClickhouse.Aggregate

variable {Row : Type} (operands : Operands Row) (rows : Multiset Row)

/-! ## Conditions -/

@[simp]
theorem holds_and (a b : Column Row) (row : Row) :
    (a.and b).holds row = (a.holds row && b.holds row) := by
  simp only [Column.holds, Column.and]
  cases a.value row with
  | none => cases b.value row with
    | none => rfl
    | some y => by_cases zero : y = 0 <;> simp [and3, zero]
  | some x => cases b.value row with
    | none => by_cases zero : x = 0 <;> simp [and3, zero]
    | some y => by_cases zero : x = 0 <;> simp [and3, truth, zero]

@[simp]
theorem holds_isNotNull (a : Column Row) (row : Row) :
    a.isNotNull.holds row = (a.value row).isSome := by
  simp only [Column.holds, Column.isNotNull]
  cases (a.value row).isSome with
  | false => rfl
  | true => rfl

/-- `(f) > 0`, the condition of FILTER. -/
def filterCondition (operands : Operands Row) : Column Row :=
  .map₂ (fun x y => truth (y < x)) operands.aggfilter (.constant (0 : ℕ))

@[simp]
theorem holds_filterCondition (row : Row) :
    (filterCondition operands).holds row = operands.aggfilter.holds row := by
  simp only [Column.holds, filterCondition, Column.map₂, Column.constant]
  cases value : operands.aggfilter.value row with
  | none => rfl
  | some q => rcases operands.boolean row q value with rfl | rfl <;> simp [truth]

/-! ## Counted values -/

/-- What an aggregate counts of a row: its argument, and 1 for a star. -/
def Aggref.counted (agg : Aggref) (operands : Operands Row) (row : Row) : Option ℚ :=
  if agg.aggfilter && !operands.aggfilter.holds row then none
  else if agg.aggstar then some 1
  else operands.arg.value row

/-- The values an aggregate counts, with DISTINCT each once. -/
def Aggref.values (agg : Aggref) (f : Row → Option ℚ) (rows : Multiset Row) : Multiset ℚ :=
  if agg.aggdistinct then (rows.filterMap f).dedup else rows.filterMap f

theorem filterMap_passes (column : Column Row) (f : Row → Option ℚ) :
    (column.passes rows).filterMap f =
      rows.filterMap fun row => if column.holds row then f row else none := by
  rw [Column.passes, Multiset.filterMap_filter]

def sumValue (nullable : Bool) (values : Multiset ℚ) : Value :=
  if values = 0 then (if nullable then .null else .num 0) else .num values.sum

def avgValue (nullable : Bool) (values : Multiset ℚ) : Value :=
  if values = 0 then (if nullable then .null else .nan) else .num (values.sum / values.card)

def divideValue : Value → Value → Value :=
  Value.map₂ fun x y => if y = 0 then .nan else .num (x / y)

section

variable (agg : Aggref)

/-- The counted values times the sign. -/
def Aggref.signedValues : Multiset ℚ :=
  agg.values (fun row => (agg.counted operands row).map (· * operands.sign row)) rows

/-- The signs of the counted rows. -/
def Aggref.signs : Multiset ℚ :=
  agg.values (fun row => (agg.counted operands row).map fun _ => operands.sign row) rows

/-- The signs of the counted rows, of which none is left out. -/
def Aggref.allSigns : Multiset ℚ :=
  rows.filterMap fun row => (agg.counted operands row).map fun _ => operands.sign row

end

/-! ## Calls -/

section

variable (direct : Bytes → Option Direct) (column : Column Row) (distinct : Bool)

theorem aggregate_count :
    aggregate direct (ascii "count") column distinct rows =
      some (.num (column.values distinct rows).card) := by
  rw [aggregate, if_pos rfl]

theorem aggregate_sum :
    aggregate direct (ascii "sum") column distinct rows =
      some (sumValue column.nullable (column.values distinct rows)) := by
  rw [aggregate, if_neg (by decide), if_pos rfl]
  rfl

theorem aggregate_avg :
    aggregate direct (ascii "avg") column distinct rows =
      some (avgValue column.nullable (column.values distinct rows)) := by
  rw [aggregate, if_neg (by decide), if_neg (by decide), if_pos rfl]
  rfl

end

/-- `f(a)`. -/
theorem value_call {name : Bytes} (plain : splitIf name = (name, false))
    (toInt64 : name ≠ ascii "toInt64") (toFloat64 : name ≠ ascii "toFloat64") (distinct : Bool)
    {a : Remote} {column : Column Row} (of : a.column operands = some column) :
    (Remote.call name distinct [a]).value operands rows =
      aggregate operands.direct name column distinct rows := by
  have other : ¬ (name = ascii "toInt64" ∨ name = ascii "toFloat64") := by tauto
  have call : (Remote.call name distinct [a]).value operands rows =
      aggregateCall operands name distinct [a] rows := by
    rw [Remote.value, if_neg other]
  rw [call]
  cases a with
  | star => cases of
  | _ => simp only [aggregateCall, plain, of, Option.bind_eq_bind, Option.bind_some]

/-- `fIf(a, c)`. -/
theorem value_callIf {name full : Bytes} (suffixed : splitIf full = (name, true))
    (distinct : Bool) {a c : Remote} {column condition : Column Row}
    (number : ∀ n, c ≠ .number n) (of : a.column operands = some column)
    (conditional : c.column operands = some condition) :
    (Remote.call full distinct [a, c]).value operands rows =
      aggregate operands.direct name column distinct (condition.passes rows) := by
  have call : (Remote.call full distinct [a, c]).value operands rows =
      aggregateCall operands full distinct [a, c] rows := by
    cases c with
    | number n => exact absurd rfl (number n)
    | _ => rfl
  rw [call]
  simp only [aggregateCall, suffixed, of, conditional, Option.bind_eq_bind, Option.bind_some]

/-! ## Forms -/

section

variable (agg : Aggref)

/-- The rows that pass FILTER. -/
def Aggref.passing : Multiset Row :=
  if agg.aggfilter then (filterCondition operands).passes rows else rows

/-- The counted values as those of a column over the rows that pass. -/
theorem counted_filterMap (column : Column Row) {f : ℚ → Row → ℚ} (unstarred : agg.aggstar = false)
    (of : ∀ row, column.value row = (operands.arg.value row).map fun x => f x row) :
    (agg.passing operands rows).filterMap column.value =
      rows.filterMap fun row => (agg.counted operands row).map fun x => f x row := by
  rw [Aggref.passing]
  cases filter : agg.aggfilter with
  | false =>
      rw [if_neg Bool.false_ne_true]
      refine congrArg (rows.filterMap ·) (funext fun row => ?_)
      simp [Aggref.counted, filter, unstarred, of]
  | true =>
      rw [if_pos rfl, filterMap_passes]
      refine congrArg (rows.filterMap ·) (funext fun row => ?_)
      rw [Aggref.counted, of, holds_filterCondition]
      cases passes : operands.aggfilter.holds row with
      | false => simp [filter]
      | true => simp [filter, unstarred]

theorem counted_values (column : Column Row) {f : ℚ → Row → ℚ} (unstarred : agg.aggstar = false)
    (of : ∀ row, column.value row = (operands.arg.value row).map fun x => f x row) :
    column.values agg.aggdistinct (agg.passing operands rows) =
      agg.values (fun row => (agg.counted operands row).map fun x => f x row) rows := by
  rw [Column.values, Aggref.values, counted_filterMap operands rows agg column unstarred of]

/-- The sign column over the rows whose argument is counted. -/
theorem counted_signs {condition : Column Row} (unstarred : agg.aggstar = false)
    (holds : ∀ row, condition.holds row = ((!agg.aggfilter || operands.aggfilter.holds row) &&
      (operands.arg.value row).isSome)) :
    (condition.passes rows).filterMap (fun row => some (operands.sign row)) =
      agg.allSigns operands rows := by
  rw [filterMap_passes, Aggref.allSigns]
  refine congrArg (rows.filterMap ·) (funext fun row => ?_)
  rw [holds, Aggref.counted, unstarred]
  cases agg.aggfilter <;> cases operands.aggfilter.holds row <;>
    cases operands.arg.value row <;> simp

@[simp]
theorem sumValue_false (values : Multiset ℚ) : sumValue false values = .num values.sum := by
  rw [sumValue]
  split
  · rename_i empty
    rw [empty, Multiset.sum_zero]
    rfl
  · rfl

theorem value_binary_divide {a b : Remote} {x y : Value}
    (left : a.value operands rows = some x) (right : b.value operands rows = some y) :
    (Remote.binary .divide a b).value operands rows = some (divideValue x y) := by
  rw [Remote.value, left, right]
  rfl

theorem value_binary_minus {a b : Remote} {x y : ℚ}
    (left : a.value operands rows = some (.num x)) (right : b.value operands rows = some (.num y)) :
    (Remote.binary .minus a b).value operands rows = some (.num (x - y)) := by
  rw [Remote.value, left, right]
  rfl

theorem remoteResult_call {tokens : List Lexeme} {name : Bytes} {distinct : Bool}
    {args : List Remote} {x : Value} (text : read tokens = some (.call name distinct args))
    (value : (Remote.call name distinct args).value operands rows = some x) :
    remoteResult operands rows tokens = some (.scalar x) := by
  rw [remoteResult, text]
  simp only [Option.bind_eq_bind, Option.bind_some, value]
  rfl

theorem remoteResult_divide {tokens : List Lexeme} {a b : Remote} {x y : Value}
    (text : read tokens = some (.binary .divide a b))
    (numerator : a.value operands rows = some x) (denominator : b.value operands rows = some y) :
    remoteResult operands rows tokens = some (.scalar (divideValue x y)) := by
  rw [remoteResult, text]
  simp only [Option.bind_eq_bind, Option.bind_some,
    value_binary_divide operands rows numerator denominator]
  rfl

section

variable (distinct : Bool) {a c : Remote} {column condition : Column Row}

theorem value_sum (of : a.column operands = some column) :
    (Remote.call (ascii "sum") distinct [a]).value operands rows =
      some (sumValue column.nullable (column.values distinct rows)) := by
  rw [value_call operands rows (by decide) (by decide) (by decide) distinct of, aggregate_sum]

theorem value_avg (of : a.column operands = some column) :
    (Remote.call (ascii "avg") distinct [a]).value operands rows =
      some (avgValue column.nullable (column.values distinct rows)) := by
  rw [value_call operands rows (by decide) (by decide) (by decide) distinct of, aggregate_avg]

theorem value_count (of : a.column operands = some column) :
    (Remote.call (ascii "count") distinct [a]).value operands rows =
      some (.num (column.values distinct rows).card) := by
  rw [value_call operands rows (by decide) (by decide) (by decide) distinct of, aggregate_count]

variable (number : ∀ n, c ≠ .number n) (of : a.column operands = some column)
  (conditional : c.column operands = some condition)

include number of conditional

theorem value_sumIf :
    (Remote.call (ascii "sumIf") distinct [a, c]).value operands rows =
      some (sumValue column.nullable (column.values distinct (condition.passes rows))) := by
  have suffixed : splitIf (ascii "sumIf") = (ascii "sum", true) := by decide
  rw [value_callIf operands rows suffixed distinct number of conditional, aggregate_sum]

theorem value_avgIf :
    (Remote.call (ascii "avgIf") distinct [a, c]).value operands rows =
      some (avgValue column.nullable (column.values distinct (condition.passes rows))) := by
  have suffixed : splitIf (ascii "avgIf") = (ascii "avg", true) := by decide
  rw [value_callIf operands rows suffixed distinct number of conditional, aggregate_avg]

theorem value_countIf :
    (Remote.call (ascii "countIf") distinct [a, c]).value operands rows =
      some (.num (column.values distinct (condition.passes rows)).card) := by
  have suffixed : splitIf (ascii "countIf") = (ascii "count", true) := by decide
  rw [value_callIf operands rows suffixed distinct number of conditional, aggregate_count]

end

/-- `(f) > 0` and `(x) IS NOT NULL`, as they are read. -/
def filterTerm : Remote := .binary .greater .aggfilter (.number 0)

def notNullTerm : Remote := .isNotNull .arg

theorem sign_ne_none (operands : Operands Row) :
    false = false → ∀ row, some (operands.sign row) ≠ none :=
  fun _ _ => Option.some_ne_none _

def signColumn (operands : Operands Row) : Column Row :=
  ⟨false, fun row => some (operands.sign row), sign_ne_none operands⟩

theorem column_sign : Remote.sign.column operands = some (signColumn operands) :=
  rfl

theorem column_filterTerm : filterTerm.column operands = some (filterCondition operands) :=
  rfl

theorem column_notNullTerm : notNullTerm.column operands = some operands.arg.isNotNull :=
  rfl

theorem column_both : (Remote.binary .and filterTerm notNullTerm).column operands =
    some ((filterCondition operands).and operands.arg.isNotNull) :=
  rfl

/-- The argument times the sign column. -/
def productColumn (operands : Operands Row) : Column Row :=
  .map₂ (· * ·) operands.arg (signColumn operands)

theorem column_product :
    (Remote.binary .times .arg .sign).column operands = some (productColumn operands) :=
  rfl

theorem productColumn_nullable : (productColumn operands).nullable = operands.arg.nullable :=
  Bool.or_false _

theorem productColumn_value (row : Row) : (productColumn operands).value row =
    (operands.arg.value row).map fun x => x * operands.sign row :=
  Option.map_eq_bind.symm ▸ rfl

/-- The summed signs of the rows whose argument is counted. -/
theorem signs_eq (unstarred : agg.aggstar = false) (condition : Column Row)
    (holds : ∀ row, condition.holds row = ((!agg.aggfilter || operands.aggfilter.holds row) &&
      (operands.arg.value row).isSome)) :
    (signColumn operands).values agg.aggdistinct (condition.passes rows) =
      agg.signs operands rows := by
  have all := counted_signs operands rows agg unstarred holds
  rw [Aggref.allSigns] at all
  rw [Column.values, Aggref.signs, Aggref.values, signColumn, all]

/-- `count` where the signs are summed. -/
theorem remoteResult_sign_count (fpinfo : CHFdwRelationInfo)
    (collapsing : fpinfo.ch_table_engine = .CH_COLLAPSING_MERGE_TREE)
    (count : agg.aggfnoid = .count) :
    remoteResult operands rows (deparseSimpleAggref agg false fpinfo) =
      if agg.aggstar && agg.aggfilter then none
      else some (.scalar (.num (agg.signs operands rows).sum)) := by
  obtain ⟨engine, field⟩ := fpinfo
  obtain ⟨aggfnoid, split, distinct, aggfilter, star, starred⟩ := agg
  cases collapsing
  cases count
  cases star with
  | true =>
      obtain rfl : distinct = false := (starred rfl).2
      cases aggfilter with
      | true => rfl
      | false =>
          have value := value_sum operands rows false (column_sign operands)
          rw [signColumn, sumValue_false] at value
          rw [remoteResult_call operands rows rfl value]
          simp [Column.values, Aggref.signs, Aggref.values, Aggref.counted]
  | false =>
      cases aggfilter with
      | false =>
          have value := value_sumIf operands rows distinct (by nofun) (column_sign operands)
            (column_notNullTerm operands)
          have signs := signs_eq operands rows ⟨.count, split, distinct, false, false, starred⟩ rfl
            operands.arg.isNotNull (by simp)
          rw [signColumn, sumValue_false, ← signColumn, signs] at value
          exact remoteResult_call operands rows (by cases distinct <;> rfl) value
      | true =>
          have value := value_sumIf operands rows distinct
            (by nofun) (column_sign operands) (column_both operands)
          have signs := signs_eq operands rows ⟨.count, split, distinct, true, false, starred⟩ rfl
            ((filterCondition operands).and operands.arg.isNotNull) (by simp)
          rw [signColumn, sumValue_false, ← signColumn, signs] at value
          exact remoteResult_call operands rows (by cases distinct <;> rfl) value

/-- The sum of the products, with and without FILTER. -/
theorem value_products (unstarred : agg.aggstar = false) :
    (if agg.aggfilter then
        Remote.call (ascii "sumIf") agg.aggdistinct [.binary .times .arg .sign, filterTerm]
      else Remote.call (ascii "sum") agg.aggdistinct [.binary .times .arg .sign]).value operands
        rows =
      some (sumValue operands.arg.nullable (agg.signedValues operands rows)) := by
  have values := counted_values operands rows agg (productColumn operands)
    (f := fun x row => x * operands.sign row) unstarred (productColumn_value operands)
  rw [Aggref.signedValues, ← values, ← productColumn_nullable, Aggref.passing]
  cases agg.aggfilter with
  | false => exact value_sum operands rows _ (column_product operands)
  | true =>
      exact value_sumIf operands rows _ (by nofun) (column_product operands)
        (column_filterTerm operands)

/-- The denominator of an average. -/
theorem value_denominator (unstarred : agg.aggstar = false) :
    (Remote.call (ascii "sumIf") false [.sign,
        if agg.aggfilter then .binary .and .aggfilter notNullTerm else notNullTerm]).value operands
        rows = some (.num (agg.allSigns operands rows).sum) := by
  have summed (condition : Column Row)
      (holds : ∀ row, condition.holds row = ((!agg.aggfilter || operands.aggfilter.holds row) &&
        (operands.arg.value row).isSome)) :
      some (sumValue (signColumn operands).nullable
        ((signColumn operands).values false (condition.passes rows))) =
        some (.num (agg.allSigns operands rows).sum) := by
    rw [← counted_signs operands rows agg unstarred holds, signColumn, sumValue_false]
    rfl
  cases filter : agg.aggfilter with
  | false =>
      rw [← summed operands.arg.isNotNull (by simp [filter])]
      exact value_sumIf operands rows _ (by nofun) (column_sign operands)
        (column_notNullTerm operands)
  | true =>
      rw [← summed (operands.aggfilter.and operands.arg.isNotNull) (by simp [filter])]
      exact value_sumIf operands rows _ (by nofun) (column_sign operands) rfl

theorem remoteResult_sign_sum (fpinfo : CHFdwRelationInfo)
    (collapsing : fpinfo.ch_table_engine = .CH_COLLAPSING_MERGE_TREE) {type : ArgType}
    (sum : agg.aggfnoid = .sum type) (unstarred : agg.aggstar = false) :
    remoteResult operands rows (deparseSimpleAggref agg false fpinfo) =
      some (.scalar (sumValue operands.arg.nullable (agg.signedValues operands rows))) := by
  have value := value_products operands rows agg unstarred
  obtain ⟨engine, field⟩ := fpinfo
  obtain ⟨aggfnoid, split, distinct, aggfilter, star, starred⟩ := agg
  cases collapsing
  cases sum
  cases unstarred
  cases aggfilter with
  | false => exact remoteResult_call operands rows (by cases distinct <;> rfl) value
  | true => exact remoteResult_call operands rows (by cases distinct <;> rfl) value

theorem remoteResult_sign_avg (fpinfo : CHFdwRelationInfo)
    (collapsing : fpinfo.ch_table_engine = .CH_COLLAPSING_MERGE_TREE) {type : ArgType}
    (avg : agg.aggfnoid = .avg type) (unstarred : agg.aggstar = false) :
    remoteResult operands rows (deparseSimpleAggref agg false fpinfo) =
      some (.scalar (divideValue (sumValue operands.arg.nullable (agg.signedValues operands rows))
        (.num (agg.allSigns operands rows).sum))) := by
  have numerator := value_products operands rows agg unstarred
  have denominator := value_denominator operands rows agg unstarred
  obtain ⟨engine, field⟩ := fpinfo
  obtain ⟨aggfnoid, split, distinct, aggfilter, star, starred⟩ := agg
  cases collapsing
  cases avg
  cases unstarred
  cases aggfilter with
  | false =>
      exact remoteResult_divide operands rows (by cases distinct <;> rfl) numerator denominator
  | true =>
      exact remoteResult_divide operands rows (by cases distinct <;> rfl) numerator denominator

/-- The argument itself. -/
theorem argument_values (unstarred : agg.aggstar = false) :
    operands.arg.values agg.aggdistinct (agg.passing operands rows) =
      agg.values (agg.counted operands) rows := by
  have values := counted_values operands rows agg operands.arg (f := fun x _ => x) unstarred
    fun row => by simp
  simpa using values

/-- Other engines have no rewriting. -/
theorem deparse_other (merge : Bool) {fpinfo : CHFdwRelationInfo}
    (other : fpinfo.ch_table_engine ≠ .CH_COLLAPSING_MERGE_TREE) :
    deparseSimpleAggref agg merge fpinfo = deparseSimpleAggref agg merge ⟨.CH_DEFAULT, []⟩ := by
  have name : appendFunctionName agg.aggfnoid fpinfo =
      appendFunctionName agg.aggfnoid ⟨.CH_DEFAULT, []⟩ :=
    (if_neg other).trans (if_neg (by nofun)).symm
  rw [deparseSimpleAggref, name, deparseSimpleAggref]

theorem value_countStar :
    (Remote.call (ascii "count") false [.star]).value operands rows = some (.num rows.card) := by
  have plain : splitIf (ascii "count") = (ascii "count", false) := by decide
  rw [Remote.value, if_neg (by decide)]
  simp only [aggregateCall, plain, if_true]

theorem value_countIf_condition {c : Remote} {condition : Column Row}
    (conditional : c.column operands = some condition) :
    (Remote.call (ascii "countIf") false [c]).value operands rows =
      some (.num (condition.passes rows).card) := by
  have suffixed : splitIf (ascii "countIf") = (ascii "count", true) := by decide
  rw [Remote.value, if_neg (by decide)]
  cases c with
  | star => cases conditional
  | _ =>
      simp only [aggregateCall, suffixed, conditional, Option.bind_eq_bind, Option.bind_some,
        if_true]

/-- The number of rows that pass FILTER. -/
theorem card_passing (starred : agg.aggstar = true) (plain : agg.aggdistinct = false) :
    (agg.values (agg.counted operands) rows).card = (agg.passing operands rows).card := by
  have passing : (agg.passing operands rows).filterMap (fun _ => some (1 : ℚ)) =
      rows.filterMap (agg.counted operands) := by
    rw [Aggref.passing]
    cases filter : agg.aggfilter with
    | false =>
        refine congrArg (rows.filterMap ·) (funext fun row => ?_)
        simp [Aggref.counted, filter, starred]
    | true =>
        rw [if_pos rfl, filterMap_passes]
        refine congrArg (rows.filterMap ·) (funext fun row => ?_)
        rw [Aggref.counted, holds_filterCondition, filter, starred]
        cases operands.aggfilter.holds row <;> rfl
  have ones : (agg.passing operands rows).filterMap (fun _ => some (1 : ℚ)) =
      (agg.passing operands rows).map fun _ => 1 :=
    congrFun (Multiset.filterMap_eq_map _) _
  rw [Aggref.values, plain, if_neg Bool.false_ne_true, ← passing, ones, Multiset.card_map]

theorem remoteResult_count {fpinfo : CHFdwRelationInfo}
    (other : fpinfo.ch_table_engine ≠ .CH_COLLAPSING_MERGE_TREE)
    (count : agg.aggfnoid = .count) :
    remoteResult operands rows (deparseSimpleAggref agg false fpinfo) =
      some (.scalar (.num (agg.values (agg.counted operands) rows).card)) := by
  have values := argument_values operands rows agg
  have card := card_passing operands rows agg
  rw [deparse_other agg false other]
  obtain ⟨aggfnoid, split, distinct, aggfilter, star, starred⟩ := agg
  cases count
  cases star with
  | true =>
      obtain rfl : distinct = false := (starred rfl).2
      rw [card rfl rfl]
      cases aggfilter with
      | true =>
          exact remoteResult_call operands rows rfl
            (value_countIf_condition operands rows (column_filterTerm operands))
      | false => exact remoteResult_call operands rows rfl (value_countStar operands rows)
  | false =>
      rw [← values rfl]
      cases aggfilter with
      | true =>
          exact remoteResult_call operands rows (by cases distinct <;> rfl)
            (value_countIf operands rows distinct (by nofun) rfl (column_filterTerm operands))
      | false =>
          exact remoteResult_call operands rows (by cases distinct <;> rfl)
            (value_count operands rows distinct rfl)

theorem remoteResult_sum {fpinfo : CHFdwRelationInfo}
    (other : fpinfo.ch_table_engine ≠ .CH_COLLAPSING_MERGE_TREE) {type : ArgType}
    (sum : agg.aggfnoid = .sum type) (unstarred : agg.aggstar = false) :
    remoteResult operands rows (deparseSimpleAggref agg false fpinfo) =
      some (.scalar (sumValue operands.arg.nullable
        (agg.values (agg.counted operands) rows))) := by
  rw [deparse_other agg false other, ← argument_values operands rows agg unstarred]
  obtain ⟨aggfnoid, split, distinct, aggfilter, star, starred⟩ := agg
  cases sum
  cases unstarred
  cases aggfilter with
  | true =>
      exact remoteResult_call operands rows (by cases distinct <;> rfl)
        (value_sumIf operands rows distinct (by nofun) rfl (column_filterTerm operands))
  | false =>
      exact remoteResult_call operands rows (by cases distinct <;> rfl)
        (value_sum operands rows distinct rfl)

theorem remoteResult_avg {fpinfo : CHFdwRelationInfo}
    (other : fpinfo.ch_table_engine ≠ .CH_COLLAPSING_MERGE_TREE) {type : ArgType}
    (avg : agg.aggfnoid = .avg type) (unstarred : agg.aggstar = false) :
    remoteResult operands rows (deparseSimpleAggref agg false fpinfo) =
      some (.scalar (avgValue operands.arg.nullable
        (agg.values (agg.counted operands) rows))) := by
  rw [deparse_other agg false other, ← argument_values operands rows agg unstarred]
  obtain ⟨aggfnoid, split, distinct, aggfilter, star, starred⟩ := agg
  cases avg
  cases unstarred
  cases aggfilter with
  | true =>
      exact remoteResult_call operands rows (by cases distinct <;> rfl)
        (value_avgIf operands rows distinct (by nofun) rfl (column_filterTerm operands))
  | false =>
      exact remoteResult_call operands rows (by cases distinct <;> rfl)
        (value_avg operands rows distinct rfl)

/-! ## States -/

/-- A component of a state, as it is read. -/
def componentTerm (name : Bytes) (e : Remote) : Remote :=
  if agg.aggfilter then .call (name ++ ascii "If") false [e, filterTerm] else .call name false [e]

theorem value_component_count {e : Remote} {column : Column Row}
    (of : e.column operands = some column) :
    (componentTerm agg (ascii "count") e).value operands rows =
      some (.num (column.values false (agg.passing operands rows)).card) := by
  rw [componentTerm, Aggref.passing]
  cases agg.aggfilter with
  | false => exact value_count operands rows false of
  | true => exact value_countIf operands rows false (by nofun) of (column_filterTerm operands)

theorem value_component_sum {e : Remote} {column : Column Row}
    (of : e.column operands = some column) :
    (componentTerm agg (ascii "sum") e).value operands rows =
      some (sumValue column.nullable (column.values false (agg.passing operands rows))) := by
  rw [componentTerm, Aggref.passing]
  cases agg.aggfilter with
  | false => exact value_sum operands rows false of
  | true => exact value_sumIf operands rows false (by nofun) of (column_filterTerm operands)

def toFloat64Term : Remote := .call (ascii "toFloat64") false [.arg]

def squareTerm : Remote := .call (ascii "pow") false [toFloat64Term, .number 2]

/-- The square of the argument. -/
def squareColumn (operands : Operands Row) : Column Row where
  nullable := operands.arg.nullable
  value row := (operands.arg.value row).map (· ^ 2)
  sound strict row := by simpa using operands.arg.sound strict row

theorem column_square : squareTerm.column operands = some (squareColumn operands) :=
  rfl

/-- The third component, `if(count > 0, sum(x²) - sum(x)² / count, 0)`. -/
def deviationTerm : Remote :=
  let count := componentTerm agg (ascii "count") .arg
  .call (ascii "if") false [.binary .greater count (.number 0),
    .binary .minus (componentTerm agg (ascii "sum") squareTerm)
      (.binary .divide
        (.call (ascii "pow") false [componentTerm agg (ascii "sum") toFloat64Term, .number 2])
        count),
    .number 0]

theorem read_partial_int :
    read (deparsePartialStatArray agg .AGG_PARTIAL_AVG_INT) =
      some (.array [.call (ascii "toInt64") false [componentTerm agg (ascii "count") .arg],
        .call (ascii "toInt64") false [componentTerm agg (ascii "sum") .arg]]) := by
  obtain ⟨aggfnoid, split, distinct, aggfilter, star, starred⟩ := agg
  cases aggfilter with
  | false => rfl
  | true => rfl

theorem read_partial_float :
    read (deparsePartialStatArray agg .AGG_PARTIAL_STAT_FLOAT) =
      some (.array [.call (ascii "toFloat64") false [componentTerm agg (ascii "count") .arg],
        componentTerm agg (ascii "sum") toFloat64Term, deviationTerm agg]) := by
  obtain ⟨aggfnoid, split, distinct, aggfilter, star, starred⟩ := agg
  cases aggfilter with
  | false => rfl
  | true => rfl

/-- The counted values of the argument. -/
def Aggref.counts : Multiset ℚ :=
  rows.filterMap (agg.counted operands)

theorem counts_eq (unstarred : agg.aggstar = false) :
    operands.arg.values false (agg.passing operands rows) = agg.counts operands rows := by
  have counted := counted_filterMap operands rows agg operands.arg (f := fun x _ => x) unstarred
    fun row => by simp
  simp only [Option.map_id_fun', id_eq] at counted
  exact counted

theorem squares_eq (unstarred : agg.aggstar = false) :
    (squareColumn operands).values false (agg.passing operands rows) =
      (agg.counts operands rows).map (· ^ 2) := by
  have squares : (agg.passing operands rows).filterMap (squareColumn operands).value =
      ((agg.passing operands rows).filterMap operands.arg.value).map (· ^ 2) := by
    rw [Multiset.map_filterMap]
    rfl
  rw [← counts_eq operands rows agg unstarred]
  exact squares

theorem value_cast {name : Bytes} (cast : name = ascii "toInt64" ∨ name = ascii "toFloat64")
    {e : Remote} {x : Value} (value : e.value operands rows = some x) :
    (Remote.call name false [e]).value operands rows = some x := by
  rw [Remote.value, if_pos cast, value]

theorem remoteResult_array {tokens : List Lexeme} {elems : List Remote} {values : List Value}
    (text : read tokens = some (.array elems))
    (value : elems.mapM (fun e => e.value operands rows) = some values) :
    remoteResult operands rows tokens = some (.array values) := by
  rw [remoteResult, text]
  simp only [Option.bind_eq_bind, Option.bind_some, value]
  rfl

theorem remoteResult_partial_int (unstarred : agg.aggstar = false) :
    remoteResult operands rows (deparsePartialStatArray agg .AGG_PARTIAL_AVG_INT) =
      some (.array [.num (agg.counts operands rows).card,
        sumValue operands.arg.nullable (agg.counts operands rows)]) := by
  have count := value_component_count operands rows agg (e := .arg) rfl
  have sum := value_component_sum operands rows agg (e := .arg) rfl
  rw [counts_eq operands rows agg unstarred] at count sum
  refine remoteResult_array operands rows (read_partial_int agg) ?_
  simp only [List.mapM_cons, List.mapM_nil, value_cast operands rows (.inl rfl) count,
    value_cast operands rows (.inl rfl) sum]
  rfl

/-- The sum of squared deviations. -/
def deviation (values : Multiset ℚ) : ℚ :=
  (values.map (· ^ 2)).sum - values.sum ^ 2 / values.card

theorem value_deviation (unstarred : agg.aggstar = false) :
    (deviationTerm agg).value operands rows =
      some (.num (if agg.counts operands rows = 0 then 0
        else deviation (agg.counts operands rows))) := by
  have count := value_component_count operands rows agg (e := .arg) rfl
  have sum := value_component_sum operands rows agg (e := toFloat64Term) rfl
  have squares := value_component_sum operands rows agg (column_square operands)
  rw [counts_eq operands rows agg unstarred] at count sum
  rw [squares_eq operands rows agg unstarred] at squares
  generalize agg.counts operands rows = values at count sum squares
  have compared : (Remote.binary .greater (componentTerm agg (ascii "count") .arg)
      (.number 0)).value operands rows = some (.num (truth (0 < (values.card : ℚ)))) := by
    simp only [Remote.value, count, Option.bind_eq_bind, Option.bind_some, Nat.cast_zero]
    rfl
  rw [deviationTerm, Remote.value, if_pos rfl]
  simp only [compared, Option.bind_eq_bind, Option.bind_some]
  by_cases empty : values = 0
  · rw [empty, if_pos rfl, if_neg (by simp [truth])]
    simp [Remote.value]
  · have some_values : 0 < (values.card : ℚ) := by
      rw [Nat.cast_pos, Multiset.card_pos]
      exact empty
    have nonzero : (values.card : ℚ) ≠ 0 := some_values.ne'
    have squares_empty : values.map (· ^ 2) ≠ 0 := by
      rwa [Ne, Multiset.map_eq_zero]
    have power : (Remote.call (ascii "pow") false
        [componentTerm agg (ascii "sum") toFloat64Term, .number 2]).value operands rows =
          some (.num (values.sum ^ 2)) := by
      rw [Remote.value, if_pos rfl, sum]
      simp [sumValue, empty]
    have quotient := value_binary_divide operands rows power count
    rw [divideValue, Value.map₂, if_neg nonzero] at quotient
    rw [sumValue, if_neg squares_empty] at squares
    rw [if_neg empty, if_pos (by simp [truth, some_values])]
    exact value_binary_minus operands rows squares quotient

theorem remoteResult_partial_float (unstarred : agg.aggstar = false) :
    remoteResult operands rows (deparsePartialStatArray agg .AGG_PARTIAL_STAT_FLOAT) =
      some (.array [.num (agg.counts operands rows).card,
        sumValue operands.arg.nullable (agg.counts operands rows),
        .num (if agg.counts operands rows = 0 then 0
          else deviation (agg.counts operands rows))]) := by
  have count := value_component_count operands rows agg (e := .arg) rfl
  have sum := value_component_sum operands rows agg (e := toFloat64Term) rfl
  have third := value_deviation operands rows agg unstarred
  rw [counts_eq operands rows agg unstarred] at count sum
  refine remoteResult_array operands rows (read_partial_float agg) ?_
  simp only [List.mapM_cons, List.mapM_nil, value_cast operands rows (.inr rfl) count, sum, third]
  rfl

end

/-! ## Emptiness -/

section

variable (agg : Aggref) {rows : Multiset Row} {f : Row → Option ℚ}

/-- No value is counted where every row is left out. -/
theorem values_eq_zero_iff : agg.values f rows = 0 ↔ ∀ row ∈ rows, f row = none := by
  have filterMap : rows.filterMap f = 0 ↔ ∀ row ∈ rows, f row = none := by
    constructor
    · intro empty row member
      cases counted : f row with
      | none => rfl
      | some x =>
          have listed : x ∈ rows.filterMap f :=
            (Multiset.mem_filterMap _ _).mpr ⟨row, member, counted⟩
          rw [empty] at listed
          exact absurd listed (Multiset.notMem_zero x)
    · intro left_out
      refine Multiset.eq_zero_of_forall_notMem fun x listed => ?_
      obtain ⟨row, member, counted⟩ := (Multiset.mem_filterMap _ _).mp listed
      rw [left_out row member] at counted
      cases counted
  rw [Aggref.values, ← filterMap]
  split
  · exact Multiset.dedup_eq_zero
  · exact Iff.rfl

end

end PgClickhouse.Aggregate

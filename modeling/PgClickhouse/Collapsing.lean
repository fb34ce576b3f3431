import Mathlib.Algebra.BigOperators.Ring.Finset
import Mathlib.Data.Multiset.Bind
import Mathlib.Tactic.Linarith
import Mathlib.Tactic.Ring
import PgClickhouse.AggregateValues

/-!
# Aggregates over collapsing tables

The rows of a CollapsingMergeTree table carry a sign, and a row with sign -1 cancels an equal
row with sign 1.  Aggregates over a scan of such a table are rewritten with its sign column,
so that they give over the raw rows what they should give over the rows that are left.

Main facts:

* `sum_of_collapses` : signed sums over the raw rows are sums over the rows left
* `collapsing_faithful_iff` : of the rewritten aggregates only plain counts give the right result
  for all rows
-/

namespace PgClickhouse.Aggregate

/-! ## Raw rows -/

inductive Sign
  | plus
  | minus
  deriving Repr, DecidableEq

def Sign.value : Sign → ℚ
  | .plus => 1
  | .minus => -1

section

variable {T : Type}

def withSign (sign : Sign) (raw : Multiset (T × Sign)) : Multiset T :=
  raw.filterMap fun p => if p.2 = sign then some p.1 else none

/-- Each row with sign -1 cancels an equal row with sign 1, and `rows` are left. -/
def Collapses (raw : Multiset (T × Sign)) (rows : Multiset T) : Prop :=
  withSign .plus raw = rows + withSign .minus raw

theorem sum_of_signs (g : T → ℚ) (raw : Multiset (T × Sign)) :
    (raw.map fun p => p.2.value * g p.1).sum =
      ((withSign .plus raw).map g).sum - ((withSign .minus raw).map g).sum := by
  induction raw using Multiset.induction_on with
  | empty => simp [withSign]
  | cons p raw ih =>
      obtain ⟨t, sign⟩ := p
      rw [Multiset.map_cons, Multiset.sum_cons, ih]
      cases sign with
      | plus =>
          simp [withSign, Sign.value]
          ring
      | minus =>
          simp [withSign, Sign.value]
          ring

/-- Signed sums over the raw rows are sums over the rows that are left. -/
theorem sum_of_collapses {raw : Multiset (T × Sign)} {rows : Multiset T}
    (collapses : Collapses raw rows) (g : T → ℚ) :
    (raw.map fun p => p.2.value * g p.1).sum = (rows.map g).sum := by
  rw [sum_of_signs, collapses, Multiset.map_add, Multiset.sum_add]
  ring

end

/-! ## Aggregates that are pushed down -/

/-- Where an aggregate is evaluated: over a scan of the table, over a join, or in the body of
a subplan of a scan `outer`, where a sign column that is not the table's is found elsewhere. -/
inductive Place (Row : Type)
  | scan
  | join
  | subplan (outer : CHFdwRelationInfo) (elsewhere : Row → ℚ)

/-- An aggregate over a collapsing table.  A row of the table gives the rows of `feed`: itself
if it passes WHERE and belongs to the group, or the rows it is joined to. -/
structure Query (T Row : Type) where
  agg : Aggref
  shippable : agg.shippable = true
  function : agg.aggfnoid = .count ∨ ∃ type, agg.aggfnoid = .sum type ∨ agg.aggfnoid = .avg type
  feed : T → Multiset Row
  arg : Column Row
  aggfilter : Column Row
  boolean : ∀ row q, aggfilter.value row = some q → q = 0 ∨ q = 1
  table : CHFdwRelationInfo
  collapsing : table.ch_table_engine = .CH_COLLAPSING_MERGE_TREE
  place : Place Row

/-- A column of a row, whatever its sign. -/
def Column.unsigned {Row : Type} (column : Column Row) : Column (Row × Sign) :=
  ⟨column.nullable, fun p => column.value p.1, fun strict p => column.sound strict p.1⟩

/-- What PostgreSQL computes of the values an aggregate counts: its result, or for a partial
aggregate its transition state. -/
def Aggref.localResult (agg : Aggref) (values : Multiset ℚ) : Result :=
  match agg.aggfnoid with
  | .count => .scalar (.num values.card)
  | .sum _ => .scalar (if values = 0 then .null else .num values.sum)
  | _ =>
    let mean := values.sum / values.card
    if agg.aggsplit = .AGGSPLIT_INITIAL_SERIAL then
      if agg_partial_kind agg = .AGG_PARTIAL_AVG_INT then
        .array [.num values.card, .num values.sum]
      else
        .array [.num values.card, .num values.sum, .num (values.map fun x => (x - mean) ^ 2).sum]
    else .scalar (if values = 0 then .null else .num mean)

namespace Query

variable {T Row : Type} (q : Query T Row)

/-- The scan the rewriting looks at; a join has no engine. -/
def scanrel : CHFdwRelationInfo :=
  match q.place with
  | .scan => q.table
  | .join => ⟨.CH_DEFAULT, []⟩
  | .subplan outer _ => outer

/-- What the sign column that is printed stands for. -/
def sign (p : Row × Sign) : ℚ :=
  match q.place with
  | .subplan outer elsewhere =>
      if outer.ch_table_sign_field = q.table.ch_table_sign_field then p.2.value
      else elsewhere p.1
  | .scan => p.2.value
  | .join => p.2.value

def operands : Operands (Row × Sign) where
  arg := q.arg.unsigned
  aggfilter := q.aggfilter.unsigned
  boolean p := q.boolean p.1
  sign := q.sign
  direct _ := none

/-- What the aggregate counts of a row. -/
def counted (row : Row) : Option ℚ :=
  if q.agg.aggfilter && !q.aggfilter.holds row then none
  else if q.agg.aggstar then some 1
  else q.arg.value row

def scanned (raw : Multiset (T × Sign)) : Multiset (Row × Sign) :=
  raw.bind fun p => (q.feed p.1).map fun row => (row, p.2)

/-- What ClickHouse returns over the raw rows. -/
def remote (raw : Multiset (T × Sign)) : Option Result :=
  remoteResult q.operands (q.scanned raw) (deparseAggref q.agg false q.scanrel)

/-- What PostgreSQL would compute over the rows that are left. -/
def expected (rows : Multiset T) : Result :=
  q.agg.localResult (q.agg.values q.counted (rows.bind q.feed))

def Faithful : Prop :=
  ∀ raw rows, Collapses raw rows → q.remote raw = some (q.expected rows)

/-! ## When they are right -/

/-- No row is counted. -/
def Silent : Prop :=
  ∀ t, ∀ row ∈ q.feed t, q.counted row = none

/-- The rewriting uses the sign column of the table. -/
def OwnSign : Prop :=
  q.scanrel.ch_table_engine = .CH_COLLAPSING_MERGE_TREE ∧
    q.scanrel.ch_table_sign_field = q.table.ch_table_sign_field

/-- A partial average is emitted as an array. -/
def StateArray : Prop :=
  q.agg.aggsplit = .AGGSPLIT_INITIAL_SERIAL ∧
    (agg_partial_kind q.agg = .AGG_PARTIAL_AVG_INT ∨
      agg_partial_kind q.agg = .AGG_PARTIAL_STAT_FLOAT)

/-- A `count` without DISTINCT that is rewritten with the table's sign column is right, where
its text is one; any aggregate is right that counts no row, if ClickHouse returns for no
value what PostgreSQL does. -/
structure Holds : Prop where
  text : ¬ (q.scanrel.ch_table_engine = .CH_COLLAPSING_MERGE_TREE ∧ q.agg.aggstar = true ∧
    q.agg.aggfilter = true)
  right : (q.agg.aggfnoid = .count ∧ q.agg.aggdistinct = false ∧ q.OwnSign) ∨
    q.Silent ∧ (q.agg.aggfnoid = .count ∨
      (q.StateArray ∧ q.arg.nullable = false) ∨ (¬ q.StateArray ∧ q.arg.nullable = true))

/-! ## What is computed -/

theorem counted_operands (p : Row × Sign) : q.agg.counted q.operands p = q.counted p.1 :=
  rfl

theorem mem_scanned {t : T} {sign : Sign} {raw : Multiset (T × Sign)} {row : Row}
    (member : (t, sign) ∈ raw) (feed : row ∈ q.feed t) : (row, sign) ∈ q.scanned raw :=
  Multiset.mem_bind.mpr ⟨(t, sign), member, Multiset.mem_map_of_mem _ feed⟩

/-- No row of the scan is counted. -/
def Uncounted (raw : Multiset (T × Sign)) : Prop :=
  ∀ p ∈ q.scanned raw, q.counted p.1 = none

/-- Whatever is made of the counted values, there are none where no row is counted. -/
theorem values_eq_zero {f : Row × Sign → ℚ → ℚ} {raw : Multiset (T × Sign)} :
    q.agg.values (fun p => (q.agg.counted q.operands p).map (f p)) (q.scanned raw) = 0 ↔
      q.Uncounted raw := by
  rw [values_eq_zero_iff]
  refine forall₂_congr fun p _ => ?_
  rw [counted_operands, Option.map_eq_none_iff]

theorem kind_count (count : q.agg.aggfnoid = .count) :
    agg_partial_kind q.agg = .AGG_PARTIAL_NONE ∨ agg_partial_kind q.agg = .AGG_PARTIAL_DIRECT := by
  rw [agg_partial_kind, count]
  cases q.agg.aggdistinct with
  | true => exact .inl rfl
  | false => exact .inr rfl

theorem kind_sum {type : ArgType} (sum : q.agg.aggfnoid = .sum type) :
    agg_partial_kind q.agg = .AGG_PARTIAL_NONE ∨ agg_partial_kind q.agg = .AGG_PARTIAL_DIRECT := by
  rw [agg_partial_kind, sum]
  cases q.agg.aggdistinct with
  | true => exact .inl rfl
  | false => cases type <;> simp [AggFn.form]

theorem not_stateArray
    (kind : agg_partial_kind q.agg = .AGG_PARTIAL_NONE ∨
      agg_partial_kind q.agg = .AGG_PARTIAL_DIRECT) : ¬ q.StateArray := by
  rintro ⟨-, int | float⟩
  · rw [int] at kind
    simp at kind
  · rw [float] at kind
    simp at kind

theorem unstarred_of_ne_count (other : q.agg.aggfnoid ≠ .count) : q.agg.aggstar = false := by
  cases star : q.agg.aggstar with
  | false => rfl
  | true => exact absurd (q.agg.star star).1 other

theorem deparse_simple (simple : ¬ q.StateArray) :
    deparseAggref q.agg false q.scanrel = deparseSimpleAggref q.agg false q.scanrel :=
  if_neg simple

theorem deparse_array (array : q.StateArray) :
    deparseAggref q.agg false q.scanrel =
      deparsePartialStatArray q.agg (agg_partial_kind q.agg) :=
  if_pos array

theorem signedValues_eq_zero {raw : Multiset (T × Sign)} :
    q.agg.signedValues q.operands (q.scanned raw) = 0 ↔ q.Uncounted raw :=
  q.values_eq_zero

theorem plainValues_eq_zero {raw : Multiset (T × Sign)} :
    q.agg.values (q.agg.counted q.operands) (q.scanned raw) = 0 ↔ q.Uncounted raw := by
  rw [values_eq_zero_iff]
  rfl

theorem counts_eq_zero {raw : Multiset (T × Sign)} :
    q.agg.counts q.operands (q.scanned raw) = 0 ↔ q.Uncounted raw := by
  have plain : (⟨q.agg.aggfnoid, q.agg.aggsplit, false, q.agg.aggfilter, q.agg.aggstar,
      fun star => ⟨(q.agg.star star).1, rfl⟩⟩ : Aggref).values (q.agg.counted q.operands)
        (q.scanned raw) = q.agg.counts q.operands (q.scanned raw) := rfl
  rw [← plain, values_eq_zero_iff]
  rfl

theorem remote_array (array : q.StateArray) (raw : Multiset (T × Sign)) :
    let counts := q.agg.counts q.operands (q.scanned raw)
    q.remote raw = some (.array
      (if agg_partial_kind q.agg = .AGG_PARTIAL_AVG_INT then
        [.num counts.card, sumValue q.arg.nullable counts]
      else [.num counts.card, sumValue q.arg.nullable counts,
        .num (if counts = 0 then 0 else deviation counts)])) := by
  have other : q.agg.aggfnoid ≠ .count := fun count => q.not_stateArray (q.kind_count count) array
  have unstarred := q.unstarred_of_ne_count other
  simp only [remote, q.deparse_array array]
  obtain ⟨-, int | float⟩ := array
  · rw [int, if_pos rfl]
    exact remoteResult_partial_int q.operands _ q.agg unstarred
  · rw [float, if_neg (by nofun)]
    exact remoteResult_partial_float q.operands _ q.agg unstarred

/-- A sum or an average is NULL only where no row is counted and the argument is Nullable. -/
theorem remote_scalar (simple : ¬ q.StateArray) (other : q.agg.aggfnoid ≠ .count)
    (raw : Multiset (T × Sign)) :
    ∃ v, q.remote raw = some (.scalar v) ∧
      (v = .null ↔ q.Uncounted raw ∧ q.arg.nullable = true) := by
  have unstarred := q.unstarred_of_ne_count other
  simp only [remote, q.deparse_simple simple]
  have sum_null (values : Multiset ℚ) (empty : values = 0 ↔ q.Uncounted raw) :
      sumValue q.arg.nullable values = .null ↔ q.Uncounted raw ∧ q.arg.nullable = true := by
    rw [sumValue, ← empty]
    by_cases zero : values = 0
    · cases q.arg.nullable <;> simp [zero]
    · simp [zero]
  have avg_null (values : Multiset ℚ) (empty : values = 0 ↔ q.Uncounted raw) :
      avgValue q.arg.nullable values = .null ↔ q.Uncounted raw ∧ q.arg.nullable = true := by
    rw [avgValue, ← empty]
    by_cases zero : values = 0
    · cases q.arg.nullable <;> simp [zero]
    · simp [zero]
  have divide_null (a : Value) (y : ℚ) : divideValue a (.num y) = .null ↔ a = .null := by
    cases a with
    | null => simp [divideValue, Value.map₂]
    | nan => simp [divideValue, Value.map₂]
    | num x => by_cases zero : y = 0 <;> simp [divideValue, Value.map₂, zero]
  rcases q.function with count | ⟨type, sum | avg⟩
  · exact absurd count other
  · by_cases collapsing : q.scanrel.ch_table_engine = .CH_COLLAPSING_MERGE_TREE
    · exact ⟨_, remoteResult_sign_sum q.operands _ q.agg q.scanrel collapsing sum unstarred,
        sum_null _ q.signedValues_eq_zero⟩
    · exact ⟨_, remoteResult_sum q.operands _ q.agg collapsing sum unstarred,
        sum_null _ q.plainValues_eq_zero⟩
  · by_cases collapsing : q.scanrel.ch_table_engine = .CH_COLLAPSING_MERGE_TREE
    · exact ⟨_, remoteResult_sign_avg q.operands _ q.agg q.scanrel collapsing avg unstarred,
        (divide_null _ _).trans (sum_null _ q.signedValues_eq_zero)⟩
    · exact ⟨_, remoteResult_avg q.operands _ q.agg collapsing avg unstarred,
        avg_null _ q.plainValues_eq_zero⟩

theorem remote_sign_count (count : q.agg.aggfnoid = .count)
    (collapsing : q.scanrel.ch_table_engine = .CH_COLLAPSING_MERGE_TREE)
    (raw : Multiset (T × Sign)) :
    q.remote raw = if q.agg.aggstar && q.agg.aggfilter then none
      else some (.scalar (.num (q.agg.signs q.operands (q.scanned raw)).sum)) := by
  rw [remote, q.deparse_simple (q.not_stateArray (q.kind_count count))]
  exact remoteResult_sign_count q.operands _ q.agg q.scanrel collapsing count

theorem remote_count (count : q.agg.aggfnoid = .count)
    (other : q.scanrel.ch_table_engine ≠ .CH_COLLAPSING_MERGE_TREE)
    (raw : Multiset (T × Sign)) :
    q.remote raw = some (.scalar
      (.num (q.agg.values (q.agg.counted q.operands) (q.scanned raw)).card)) := by
  rw [remote, q.deparse_simple (q.not_stateArray (q.kind_count count))]
  exact remoteResult_count q.operands _ q.agg other count

/-! ## What is expected -/

theorem kind_avg {type : ArgType} (avg : q.agg.aggfnoid = .avg type) :
    agg_partial_kind q.agg = .AGG_PARTIAL_NONE ∨ agg_partial_kind q.agg = .AGG_PARTIAL_AVG_INT ∨
      agg_partial_kind q.agg = .AGG_PARTIAL_STAT_FLOAT := by
  rw [agg_partial_kind, avg]
  cases q.agg.aggdistinct with
  | true => exact .inl rfl
  | false => cases type <;> simp [AggFn.form]

theorem expected_count (count : q.agg.aggfnoid = .count) (rows : Multiset T) :
    q.expected rows =
      .scalar (.num (q.agg.values q.counted (rows.bind q.feed)).card) := by
  rw [expected, Aggref.localResult, count]

/-- Without values PostgreSQL has NULL for a sum and for an average. -/
theorem expected_scalar (simple : ¬ q.StateArray) (other : q.agg.aggfnoid ≠ .count)
    {rows : Multiset T} (empty : q.agg.values q.counted (rows.bind q.feed) = 0) :
    q.expected rows = .scalar .null := by
  rw [expected, Aggref.localResult, empty]
  rcases q.function with count | ⟨type, sum | avg⟩
  · exact absurd count other
  · rw [sum]
    rfl
  · have split : q.agg.aggsplit ≠ .AGGSPLIT_INITIAL_SERIAL := by
      intro initial
      have shippable := q.shippable
      rcases q.kind_avg avg with none | array
      · simp [Aggref.shippable, initial, none] at shippable
      · exact simple ⟨initial, array⟩
    simp [avg, split]

theorem expected_array (array : q.StateArray) (rows : Multiset T) :
    let values := q.agg.values q.counted (rows.bind q.feed)
    q.expected rows = .array
      (if agg_partial_kind q.agg = .AGG_PARTIAL_AVG_INT then
        [.num values.card, .num values.sum]
      else [.num values.card, .num values.sum,
        .num (values.map fun x => (x - values.sum / values.card) ^ 2).sum]) := by
  simp only [expected, Aggref.localResult]
  rcases q.function with count | ⟨type, sum | avg⟩
  · exact absurd array (q.not_stateArray (q.kind_count count))
  · exact absurd array (q.not_stateArray (q.kind_sum sum))
  · rw [avg]
    simp only [array.1, if_true]
    split
    · rfl
    · rfl

/-! ## Enough -/

theorem sign_of_own (own : q.OwnSign) (p : Row × Sign) : q.sign p = p.2.value := by
  obtain ⟨collapsing, field⟩ := own
  rw [scanrel] at collapsing field
  rw [sign]
  cases place : q.place with
  | scan => rfl
  | join => rfl
  | subplan outer elsewhere =>
      rw [place] at field
      exact if_pos field

/-- The summed signs of the counted rows are the number of values that are left. -/
theorem signs_of_collapses (own : q.OwnSign) (plain : q.agg.aggdistinct = false)
    {raw : Multiset (T × Sign)} {rows : Multiset T} (collapses : Collapses raw rows) :
    (q.agg.signs q.operands (q.scanned raw)).sum =
      (q.agg.values q.counted (rows.bind q.feed)).card := by
  let count (t : T) : ℚ := ((q.feed t).filterMap q.counted).card
  have of_row (p : T × Sign) :
      (((q.feed p.1).map fun row => (row, p.2)).filterMap fun x =>
        (q.agg.counted q.operands x).map fun _ => q.operands.sign x).sum =
          p.2.value * count p.1 := by
    have signs : (((q.feed p.1).map fun row => (row, p.2)).filterMap fun x =>
        (q.agg.counted q.operands x).map fun _ => q.operands.sign x) =
          ((q.feed p.1).filterMap q.counted).map fun _ => p.2.value := by
      rw [Multiset.filterMap_map, Multiset.map_filterMap]
      refine congrArg ((q.feed p.1).filterMap ·) (funext fun row => ?_)
      have sign : q.operands.sign (row, p.2) = p.2.value := q.sign_of_own own (row, p.2)
      simp only [Function.comp_apply, counted_operands, sign]
    rw [signs, Multiset.map_const', Multiset.sum_replicate, nsmul_eq_mul, mul_comm]
  have left : (q.agg.signs q.operands (q.scanned raw)).sum =
      (raw.map fun p => p.2.value * count p.1).sum := by
    rw [Aggref.signs, Aggref.values, plain, if_neg Bool.false_ne_true, scanned,
      Multiset.filterMap_bind, Multiset.sum_bind]
    exact congrArg (fun f => (raw.map f).sum) (funext of_row)
  have right : ((q.agg.values q.counted (rows.bind q.feed)).card : ℚ) = (rows.map count).sum := by
    rw [Aggref.values, plain, if_neg Bool.false_ne_true, Multiset.filterMap_bind,
      Multiset.card_bind, Nat.cast_multiset_sum, Multiset.map_map]
    rfl
  rw [left, right]
  exact sum_of_collapses collapses count

/-- Without counted values the two agree, if ClickHouse returns for none what PostgreSQL does. -/
theorem faithful_of_silent (silent : q.Silent)
    (text : ¬ (q.scanrel.ch_table_engine = .CH_COLLAPSING_MERGE_TREE ∧ q.agg.aggstar = true ∧
      q.agg.aggfilter = true))
    (empty : q.agg.aggfnoid = .count ∨ (q.StateArray ∧ q.arg.nullable = false) ∨
      (¬ q.StateArray ∧ q.arg.nullable = true)) : q.Faithful := by
  intro raw rows _
  have uncounted : q.Uncounted raw := by
    intro p member
    obtain ⟨⟨t, sign⟩, -, fed⟩ := Multiset.mem_bind.mp member
    obtain ⟨row, from_t, rfl⟩ := Multiset.mem_map.mp fed
    exact silent t row from_t
  have left : q.agg.values q.counted (rows.bind q.feed) = 0 := by
    rw [values_eq_zero_iff]
    intro row member
    obtain ⟨t, -, member⟩ := Multiset.mem_bind.mp member
    exact silent t row member
  by_cases count : q.agg.aggfnoid = .count
  · rw [q.expected_count count, left]
    by_cases collapsing : q.scanrel.ch_table_engine = .CH_COLLAPSING_MERGE_TREE
    · have no_filter : (q.agg.aggstar && q.agg.aggfilter) = false := by
        by_contra both
        rw [Bool.not_eq_false, Bool.and_eq_true] at both
        exact text ⟨collapsing, both⟩
      have signs : q.agg.signs q.operands (q.scanned raw) = 0 := q.values_eq_zero.mpr uncounted
      rw [q.remote_sign_count count collapsing, no_filter, signs]
      rfl
    · rw [q.remote_count count collapsing, q.plainValues_eq_zero.mpr uncounted]
  · rcases empty with is_count | ⟨array, strict⟩ | ⟨simple, nullable⟩
    · exact absurd is_count count
    · rw [q.expected_array array, q.remote_array array, left, q.counts_eq_zero.mpr uncounted,
        strict]
      rfl
    · obtain ⟨v, remote, null⟩ := q.remote_scalar simple count raw
      rw [remote, q.expected_scalar simple count left, null.mpr ⟨uncounted, nullable⟩]

/-! ## Needed -/

theorem collapses_cancelled (t : T) : Collapses {(t, .plus), (t, .minus)} 0 :=
  rfl

theorem collapses_single (t : T) : Collapses {(t, .plus)} {t} :=
  rfl

theorem collapses_again (t : T) : Collapses {(t, .plus), (t, .plus), (t, .minus)} {t} :=
  rfl

theorem collapses_zero : Collapses (0 : Multiset (T × Sign)) 0 :=
  rfl

variable {q}

theorem values_zero (q : Query T Row) : q.agg.values q.counted 0 = 0 := by
  rw [values_eq_zero_iff]
  intro row member
  exact absurd member (Multiset.notMem_zero row)

theorem expected_none (q : Query T Row) :
    q.agg.values q.counted ((0 : Multiset T).bind q.feed) = 0 := by
  rw [Multiset.zero_bind, q.values_zero]

/-- Over no rows at all. -/
theorem empty_of_faithful (faithful : q.Faithful) (other : q.agg.aggfnoid ≠ .count) :
    (q.StateArray ∧ q.arg.nullable = false) ∨ (¬ q.StateArray ∧ q.arg.nullable = true) := by
  have agree := faithful 0 0 collapses_zero
  have uncounted : q.Uncounted 0 := by
    intro p member
    exact absurd member (Multiset.notMem_zero p)
  have left := q.expected_none
  by_cases array : q.StateArray
  · refine .inl ⟨array, ?_⟩
    rw [q.expected_array array, q.remote_array array, left, q.counts_eq_zero.mpr uncounted] at agree
    cases nullable : q.arg.nullable with
    | false => rfl
    | true => split at agree <;> simp [sumValue, nullable] at agree
  · refine .inr ⟨array, ?_⟩
    obtain ⟨v, remote, null⟩ := q.remote_scalar array other 0
    rw [remote, q.expected_scalar array other left] at agree
    have is_null : v = .null := by simpa using agree
    exact (null.mp is_null).2

/-- Sums and averages are never NULL where all counted rows are cancelled. -/
theorem silent_of_faithful (faithful : q.Faithful) (other : q.agg.aggfnoid ≠ .count) :
    q.Silent := by
  intro t row member
  have agree := faithful _ _ (collapses_cancelled t)
  have left := q.expected_none
  have scanned : (row, Sign.plus) ∈ q.scanned {(t, .plus), (t, .minus)} :=
    q.mem_scanned (Multiset.mem_cons_self _ _) member
  suffices uncounted : q.Uncounted {(t, .plus), (t, .minus)} by
    exact uncounted _ scanned
  by_cases array : q.StateArray
  · rw [q.expected_array array, q.remote_array array, left] at agree
    have card : ((q.agg.counts q.operands (q.scanned {(t, .plus), (t, .minus)})).card : ℚ) = 0 := by
      split at agree
      · simp_all
      · simp_all
    rw [Nat.cast_eq_zero, Multiset.card_eq_zero] at card
    exact q.counts_eq_zero.mp card
  · obtain ⟨v, remote, null⟩ := q.remote_scalar array other {(t, .plus), (t, .minus)}
    rw [remote, q.expected_scalar array other left] at agree
    have is_null : v = .null := by simpa using agree
    exact (null.mp is_null).1

theorem text_of_faithful (faithful : q.Faithful) :
    ¬ (q.scanrel.ch_table_engine = .CH_COLLAPSING_MERGE_TREE ∧ q.agg.aggstar = true ∧
      q.agg.aggfilter = true) := by
  rintro ⟨collapsing, star, filter⟩
  have agree := faithful 0 0 collapses_zero
  rw [q.remote_sign_count (q.agg.star star).1 collapsing, star, filter] at agree
  cases agree

section

variable {t : T} {row : Row} {x : ℚ} (fed : row ∈ q.feed t) (counts : q.counted row = some x)

include fed counts

theorem expected_ne_zero : q.agg.values q.counted (({t} : Multiset T).bind q.feed) ≠ 0 := by
  intro empty
  rw [Multiset.singleton_bind, values_eq_zero_iff] at empty
  rw [empty row fed] at counts
  cases counts

theorem not_uncounted {raw : Multiset (T × Sign)} {sign : Sign} (member : (t, sign) ∈ raw) :
    ¬ q.Uncounted raw := by
  intro uncounted
  have left_out : q.counted row = none := uncounted _ (q.mem_scanned member fed)
  rw [left_out] at counts
  cases counts

/-- A count of the raw rows counts the cancelled ones. -/
theorem collapsing_of_faithful (faithful : q.Faithful) (count : q.agg.aggfnoid = .count) :
    q.scanrel.ch_table_engine = .CH_COLLAPSING_MERGE_TREE := by
  by_contra other
  have agree := faithful _ _ (collapses_cancelled t)
  have left := q.expected_none
  rw [q.remote_count count other, q.expected_count count, left] at agree
  have card : (q.agg.values (q.agg.counted q.operands)
      (q.scanned {(t, .plus), (t, .minus)})).card = 0 := by
    simpa using agree
  rw [Multiset.card_eq_zero] at card
  exact not_uncounted fed counts (Multiset.mem_cons_self _ _) (q.plainValues_eq_zero.mp card)

/-- Signed sums over raw rows that collapse to `rows`. -/
theorem signs_of_faithful (faithful : q.Faithful) (count : q.agg.aggfnoid = .count)
    {raw : Multiset (T × Sign)} {rows : Multiset T} (collapses : Collapses raw rows) :
    (q.agg.signs q.operands (q.scanned raw)).sum =
      (q.agg.values q.counted (rows.bind q.feed)).card := by
  have agree := faithful raw rows collapses
  rw [q.remote_sign_count count (collapsing_of_faithful fed counts faithful count),
    q.expected_count count] at agree
  split at agree
  · cases agree
  · simpa using agree

/-- Numbers of another column do not cancel. -/
theorem own_of_faithful (faithful : q.Faithful) (count : q.agg.aggfnoid = .count) :
    q.OwnSign := by
  refine ⟨collapsing_of_faithful fed counts faithful count, ?_⟩
  by_contra other
  obtain ⟨number, sign⟩ : ∃ number : Row → ℚ, ∀ p, q.sign p = number p.1 := by
    rw [scanrel] at other
    unfold sign
    cases place : q.place with
    | scan =>
        rw [place] at other
        exact absurd rfl other
    | join =>
        have collapsing := collapsing_of_faithful fed counts faithful count
        rw [scanrel, place] at collapsing
        cases collapsing
    | subplan outer elsewhere =>
        rw [place] at other
        exact ⟨elsewhere, fun p => if_neg other⟩
  let numbers : Multiset ℚ :=
    (q.feed t).filterMap fun row => (q.counted row).map fun _ => number row
  have of_sign (sign' : Sign) : ((q.feed t).map fun row => (row, sign')).filterMap (fun p =>
      (q.agg.counted q.operands p).map fun _ => q.operands.sign p) = numbers := by
    rw [Multiset.filterMap_map]
    refine congrArg ((q.feed t).filterMap ·) (funext fun row => ?_)
    have sign_row : q.operands.sign (row, sign') = number row := sign (row, sign')
    simp only [Function.comp_apply, counted_operands, sign_row]
  have single := signs_of_faithful fed counts faithful count (collapses_single t)
  have cancelled := signs_of_faithful fed counts faithful count (collapses_cancelled t)
  rw [Aggref.signs, Aggref.values, scanned, Multiset.singleton_bind, of_sign] at single
  rw [Aggref.signs, Aggref.values, scanned, Multiset.insert_eq_cons, Multiset.cons_bind,
    Multiset.singleton_bind, Multiset.filterMap_add, of_sign, of_sign, q.expected_none,
    Multiset.card_zero, Nat.cast_zero] at cancelled
  have twice : (numbers + numbers).dedup = numbers.dedup := by
    rw [Multiset.dedup_ext]
    simp
  have card : ((q.agg.values q.counted (({t} : Multiset T).bind q.feed)).card : ℚ) = 0 := by
    rw [← single]
    cases distinct : q.agg.aggdistinct with
    | false =>
        rw [distinct, if_neg Bool.false_ne_true, Multiset.sum_add] at cancelled
        rw [if_neg Bool.false_ne_true]
        linarith
    | true =>
        rw [distinct, if_pos rfl, twice] at cancelled
        rw [if_pos rfl]
        exact cancelled
  rw [Nat.cast_eq_zero, Multiset.card_eq_zero] at card
  exact expected_ne_zero fed counts card

/-- The signs 1 and -1, each once, add up to nothing. -/
theorem plain_of_faithful (faithful : q.Faithful) (count : q.agg.aggfnoid = .count) :
    q.agg.aggdistinct = false := by
  cases distinct : q.agg.aggdistinct with
  | false => rfl
  | true =>
      have own := own_of_faithful fed counts faithful count
      have again := signs_of_faithful fed counts faithful count (collapses_again t)
      have signs : q.agg.signs q.operands (q.scanned {(t, .plus), (t, .plus), (t, .minus)}) =
          ({1, -1} : Multiset ℚ).dedup := by
        rw [Aggref.signs, Aggref.values, distinct, if_pos rfl, Multiset.dedup_ext]
        intro y
        rw [Multiset.mem_filterMap]
        constructor
        · rintro ⟨p, -, signed⟩
          obtain ⟨-, -, rfl⟩ := Option.map_eq_some_iff.mp signed
          have sign : q.operands.sign p = p.2.value := q.sign_of_own own p
          rw [sign]
          cases p.2 with
          | plus => simp [Sign.value]
          | minus => simp [Sign.value]
        · intro one
          have counted (sign : Sign) : (q.agg.counted q.operands (row, sign)).map (fun _ =>
              q.operands.sign (row, sign)) = some sign.value := by
            have signed : q.operands.sign (row, sign) = sign.value := q.sign_of_own own (row, sign)
            rw [signed, counted_operands, counts]
            rfl
          have either : y = 1 ∨ y = -1 := by simpa using one
          rcases either with rfl | rfl
          · exact ⟨(row, .plus), q.mem_scanned (by simp) fed, counted .plus⟩
          · exact ⟨(row, .minus), q.mem_scanned (by simp) fed, counted .minus⟩
      have each : ({1, -1} : Multiset ℚ).dedup = {1, -1} := by
        rw [Multiset.dedup_eq_self]
        simp
        norm_num
      rw [signs, each] at again
      have card : ((q.agg.values q.counted (({t} : Multiset T).bind q.feed)).card : ℚ) = 0 := by
        rw [← again]
        simp
      rw [Nat.cast_eq_zero, Multiset.card_eq_zero] at card
      exact absurd card (expected_ne_zero fed counts)

end

/-! ## Results -/

/-- A rewritten aggregate has the right result for all rows exactly when `Holds`. -/
theorem collapsing_faithful_iff (q : Query T Row) : q.Faithful ↔ q.Holds := by
  constructor
  · intro faithful
    have text := text_of_faithful faithful
    by_cases count : q.agg.aggfnoid = .count
    · by_cases silent : q.Silent
      · exact ⟨text, .inr ⟨silent, .inl count⟩⟩
      · obtain ⟨t, row, fed, x, counts⟩ : ∃ t, ∃ row ∈ q.feed t, ∃ x, q.counted row = some x := by
          simp only [Silent] at silent
          push Not at silent
          obtain ⟨t, row, fed, counts⟩ := silent
          exact ⟨t, row, fed, Option.ne_none_iff_exists'.mp counts⟩
        exact ⟨text, .inl ⟨count, plain_of_faithful fed counts faithful count,
          own_of_faithful fed counts faithful count⟩⟩
    · exact ⟨text, .inr ⟨silent_of_faithful faithful count,
        .inr (empty_of_faithful faithful count)⟩⟩
  · rintro ⟨text, ⟨count, plain, own⟩ | ⟨silent, empty⟩⟩
    · intro raw rows collapses
      have no_filter : (q.agg.aggstar && q.agg.aggfilter) = false := by
        by_contra both
        rw [Bool.not_eq_false, Bool.and_eq_true] at both
        exact text ⟨own.1, both⟩
      rw [q.remote_sign_count count own.1, no_filter, q.expected_count count,
        q.signs_of_collapses own plain collapses]
      rfl
    · exact q.faithful_of_silent silent text empty

/-- `sum(x)`, and `count(*) FILTER (WHERE true)`, over a collapsing table of one column. -/
def overScan (agg : Aggref) (shippable : agg.shippable = true)
    (function : agg.aggfnoid = .count ∨ ∃ type, agg.aggfnoid = .sum type ∨
      agg.aggfnoid = .avg type) : Query ℚ ℚ where
  agg := agg
  shippable := shippable
  function := function
  feed x := {x}
  arg := ⟨false, some, fun _ _ => Option.some_ne_none _⟩
  aggfilter := .constant 1
  boolean _ _ one := .inr (Option.some.inj one).symm
  table := ⟨.CH_COLLAPSING_MERGE_TREE, ascii "sign"⟩
  collapsing := rfl
  place := .scan

def sumAggref : Aggref :=
  ⟨.sum .int4, .AGGSPLIT_SIMPLE, false, false, false, by nofun⟩

def countStarFilter : Aggref :=
  ⟨.count, .AGGSPLIT_SIMPLE, false, true, true, fun _ => ⟨rfl, rfl⟩⟩

/-- Over rows that all cancel, `sum(x * sign)` is 0 where the sum of no rows is NULL; and
`sumIf(sign((true) > 0))` is no call of `sumIf`. -/
theorem not_faithful_overScan :
    (¬ (overScan sumAggref rfl (.inr ⟨.int4, .inl rfl⟩)).Faithful ∧
      Collapses {(5, .plus), (5, .minus)} (0 : Multiset ℚ) ∧
      (overScan sumAggref rfl (.inr ⟨.int4, .inl rfl⟩)).remote {(5, .plus), (5, .minus)} =
        some (.scalar (.num 0)) ∧
      (overScan sumAggref rfl (.inr ⟨.int4, .inl rfl⟩)).expected 0 = .scalar .null) ∧
    ¬ (overScan countStarFilter rfl (.inl rfl)).Faithful ∧
      (overScan countStarFilter rfl (.inl rfl)).remote {(5, .plus)} = none ∧
      (overScan countStarFilter rfl (.inl rfl)).expected {5} = .scalar (.num 1) := by
  have collapses : Collapses {(5, .plus), (5, .minus)} (0 : Multiset ℚ) := rfl
  have remote : (overScan sumAggref rfl (.inr ⟨.int4, .inl rfl⟩)).remote
      {(5, .plus), (5, .minus)} = some (.scalar (.num 0)) := by
    decide +kernel
  have expected : (overScan sumAggref rfl (.inr ⟨.int4, .inl rfl⟩)).expected 0 =
      .scalar .null := rfl
  have none : (overScan countStarFilter rfl (.inl rfl)).remote {(5, .plus)} = none := rfl
  have one : (overScan countStarFilter rfl (.inl rfl)).expected {5} = .scalar (.num 1) := by
    decide +kernel
  refine ⟨⟨fun faithful => ?_, collapses, remote, expected⟩, fun faithful => ?_, none, one⟩
  · have agree := faithful _ _ collapses
    rw [remote, expected] at agree
    cases agree
  · have agree := faithful _ _ (collapses_single 5)
    rw [none] at agree
    cases agree

end Query

end PgClickhouse.Aggregate

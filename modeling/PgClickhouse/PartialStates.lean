import PgClickhouse.AggregateValues
import PgClickhouse.SquaredDeviations

/-!
# Partial aggregation

Each partition's state is computed by ClickHouse, and PostgreSQL combines the states with the
combine function of the aggregate.

Main facts:

* `combine_state` : combining states of two parts gives the state of both
* `partitions_faithful_iff` : when the combined states are the state of all rows
-/

namespace PgClickhouse.Aggregate

/-! ## Functions whose transition value is the result -/

/-- What PostgreSQL has of such a function: NULL where nothing is counted. -/
def ofOption : Option ℚ → Value
  | some q => .num q
  | none => .null

def sumDirect : Direct where
  op := (· + ·)
  comm := add_comm
  assoc := add_assoc
  default := 0
  default_op := add_zero 0

theorem fold_sumDirect (values : Multiset ℚ) :
    sumDirect.fold values = if values = 0 then none else some values.sum := by
  induction values using Multiset.induction_on with
  | empty => rfl
  | cons x values ih =>
      rw [if_neg (Multiset.cons_ne_zero), Multiset.sum_cons]
      rw [Direct.fold] at ih ⊢
      rw [Multiset.map_cons, Multiset.fold_cons_left, ih]
      by_cases empty : values = 0
      · simp [empty]
      · simp [empty, sumDirect]

theorem fold_add (direct : Direct) (left right : Multiset ℚ) :
    direct.fold (left + right) =
      Option.merge direct.op (direct.fold left) (direct.fold right) := by
  have start : Option.merge direct.op none none = none := rfl
  rw [Direct.fold, Multiset.map_add, ← start, Multiset.fold_add]
  rfl

theorem fold_eq_none_iff (direct : Direct) (values : Multiset ℚ) :
    direct.fold values = none ↔ values = 0 := by
  induction values using Multiset.induction_on with
  | empty => simp [Direct.fold]
  | cons x values ih =>
      rw [Direct.fold, Multiset.map_cons, Multiset.fold_cons_left]
      simp

/-- What ClickHouse returns for such a function. -/
def directValue (direct : Direct) (nullable : Bool) (values : Multiset ℚ) : Value :=
  match direct.fold values with
  | some q => .num q
  | none => if nullable then .null else .num direct.default

theorem directValue_eq (direct : Direct) (nullable : Bool) (values : Multiset ℚ) :
    directValue direct nullable values =
      ofOption (if nullable then direct.fold values
        else some ((direct.fold values).getD direct.default)) := by
  rw [directValue]
  cases direct.fold values with
  | some q => cases nullable <;> rfl
  | none => cases nullable <;> rfl

theorem sumValue_eq (nullable : Bool) (values : Multiset ℚ) :
    sumValue nullable values = directValue sumDirect nullable values := by
  rw [sumValue, directValue, fold_sumDirect]
  by_cases empty : values = 0
  · rw [if_pos empty, if_pos empty]
    rfl
  · rw [if_neg empty, if_neg empty]

/-- The name of a function of its own, with no suffix that is read apart. -/
structure Ordinary (name : Bytes) : Prop where
  plain : splitIf name = (name, false)
  count : name ≠ ascii "count"
  sum : name ≠ ascii "sum"
  avg : name ≠ ascii "avg"
  toInt64 : name ≠ ascii "toInt64"
  toFloat64 : name ≠ ascii "toFloat64"

theorem splitIf_append (name : Bytes) : splitIf (name ++ ascii "If") = (name, true) := by
  have length : (name ++ ascii "If").length - 2 = name.length := by
    rw [List.length_append]
    exact Nat.add_sub_cancel _ _
  rw [splitIf, length, List.drop_left, List.take_left, if_pos rfl]

section

variable {Row : Type} (operands : Operands Row) (rows : Multiset Row)

theorem aggregate_direct {name : Bytes} (ordinary : Ordinary name) {direct : Direct}
    (known : operands.direct name = some direct) (column : Column Row) (distinct : Bool) :
    aggregate operands.direct name column distinct rows =
      some (directValue direct column.nullable (column.values distinct rows)) := by
  rw [aggregate, if_neg ordinary.count, if_neg ordinary.sum, if_neg ordinary.avg, known]
  rfl

/-- The text is that of any call. -/
theorem read_direct (agg : Aggref) (fpinfo : CHFdwRelationInfo) {name : Bytes}
    (function : agg.aggfnoid = .direct name) (plain : agg.aggdistinct = false)
    (unstarred : agg.aggstar = false) :
    read (deparseSimpleAggref agg false fpinfo) =
      some (if agg.aggfilter then .call (name ++ ascii "If") false [.arg, filterTerm]
        else .call name false [.arg]) := by
  have name_eq : appendFunctionName (.direct name) fpinfo = (none, name) := by
    rw [appendFunctionName]
    split
    · rfl
    · rfl
  obtain ⟨aggfnoid, split, distinct, aggfilter, star, starred⟩ := agg
  cases function
  cases plain
  cases unstarred
  rw [deparseSimpleAggref, name_eq]
  cases aggfilter with
  | false =>
      have bare : name ++ [] ++ [] = name := by
        rw [List.append_nil, List.append_nil]
      calc
        _ = some (Remote.call (name ++ [] ++ []) false [.arg]) := rfl
        _ = some (.call name false [.arg]) := by rw [bare]
  | true =>
      have suffixed : name ++ [] ++ ascii "If" = name ++ ascii "If" := by
        rw [List.append_nil]
      calc
        _ = some (Remote.call (name ++ [] ++ ascii "If") false [.arg, filterTerm]) := rfl
        _ = some (.call (name ++ ascii "If") false [.arg, filterTerm]) := by rw [suffixed]

theorem remoteResult_direct (agg : Aggref) (fpinfo : CHFdwRelationInfo) {name : Bytes}
    (function : agg.aggfnoid = .direct name) (ordinary : Ordinary name) {direct : Direct}
    (known : operands.direct name = some direct) (plain : agg.aggdistinct = false)
    (unstarred : agg.aggstar = false) :
    remoteResult operands rows (deparseSimpleAggref agg false fpinfo) =
      some (.scalar (directValue direct operands.arg.nullable (agg.counts operands rows))) := by
  have text := read_direct agg fpinfo function plain unstarred
  have passing (of_filter : Multiset Row) (condition : agg.passing operands rows = of_filter) :
      operands.arg.values false of_filter = agg.counts operands rows := by
    rw [← condition]
    exact counts_eq operands rows agg unstarred
  rw [Aggref.passing] at passing
  cases filter : agg.aggfilter with
  | false =>
      rw [filter, if_neg Bool.false_ne_true] at text passing
      have value := value_call operands rows ordinary.plain ordinary.toInt64 ordinary.toFloat64
        false (a := .arg) rfl
      rw [aggregate_direct operands rows ordinary known, passing _ rfl] at value
      exact remoteResult_call operands rows text value
  | true =>
      rw [filter, if_pos rfl] at text passing
      have value := value_callIf operands rows (splitIf_append name) false (a := .arg)
        (c := filterTerm) (by intro n same; cases same) rfl (column_filterTerm operands)
      rw [aggregate_direct operands _ ordinary known, passing _ rfl] at value
      exact remoteResult_call operands rows text value

end

/-! ## Combining states -/

/-- A strict combine function: a NULL state is left out. -/
def strict (op : ℚ → ℚ → ℚ) : Value → Value → Value
  | .null, next => next
  | state, .null => state
  | .num a, .num b => .num (op a b)
  | _, _ => .nan

/-- Both arrays have two elements, none of them NULL. -/
def int4_avg_combine : List Value → List Value → Option (List Value)
  | [.num count₁, .num sum₁], [.num count₂, .num sum₂] =>
      some [.num (count₁ + count₂), .num (sum₁ + sum₂)]
  | _, _ => none

/-- Both arrays have three elements, none of them NULL. -/
def float8_combine : List Value → List Value → Option (List Value)
  | [.num n₁, .num sx₁, .num sxx₁], [.num n₂, .num sx₂, .num sxx₂] =>
      if n₁ = 0 then some [.num n₂, .num sx₂, .num sxx₂]
      else if n₂ = 0 then some [.num n₁, .num sx₁, .num sxx₁]
      else
        let tmp := sx₁ / n₁ - sx₂ / n₂
        some [.num (n₁ + n₂), .num (sx₁ + sx₂),
          .num (sxx₁ + sxx₂ + n₁ * n₂ * tmp * tmp / (n₁ + n₂))]
  | _, _ => none

/-- A partial aggregate that is pushed down.  Where the function itself is emitted, the table
is not a collapsing one. -/
structure Partial (Row : Type) where
  agg : Aggref
  initial : agg.aggsplit = .AGGSPLIT_INITIAL_SERIAL
  shippable : agg.shippable = true
  fpinfo : CHFdwRelationInfo
  plain : agg_partial_kind agg = .AGG_PARTIAL_DIRECT →
    fpinfo.ch_table_engine ≠ .CH_COLLAPSING_MERGE_TREE
  operands : Operands Row
  known : ∀ name, agg.aggfnoid = .direct name →
    Ordinary name ∧ (operands.direct name).isSome = true

namespace Partial

variable {Row : Type} (q : Partial Row)

/-- What ClickHouse computes for a partition. -/
def remote (rows : Multiset Row) : Option Result :=
  remoteResult q.operands rows (deparseAggref q.agg false q.fpinfo)

/-- The function of a state that is a result. -/
def direct : Direct :=
  match q.agg.aggfnoid with
  | .direct name => (q.operands.direct name).getD sumDirect
  | _ => sumDirect

/-- PostgreSQL's combine function. -/
def combine (state next : Result) : Option Result :=
  match agg_partial_kind q.agg, state, next with
  | .AGG_PARTIAL_DIRECT, .scalar a, .scalar b => some (.scalar (strict q.direct.op a b))
  | .AGG_PARTIAL_AVG_INT, .array a, .array b => (int4_avg_combine a b).map .array
  | .AGG_PARTIAL_STAT_FLOAT, .array a, .array b => (float8_combine a b).map .array
  | _, _, _ => none

/-- PostgreSQL's state of the values it counts. -/
def stateOf (values : Multiset ℚ) : Result :=
  match agg_partial_kind q.agg with
  | .AGG_PARTIAL_AVG_INT => .array [.num values.card, .num values.sum]
  | .AGG_PARTIAL_STAT_FLOAT =>
      .array [.num values.card, .num values.sum, .num (squaredDeviations values)]
  | _ =>
      if q.agg.aggfnoid = .count then .scalar (.num values.card)
      else .scalar (ofOption (q.direct.fold values))

/-- The values an aggregate counts of some rows. -/
def counts (rows : Multiset Row) : Multiset ℚ :=
  q.agg.counts q.operands rows

def state (rows : Multiset Row) : Result :=
  q.stateOf (q.counts rows)

/-- The states of the partitions, combined from the initial state on. -/
def combined (partitions : List (Multiset Row)) : Option Result := do
  let states ← partitions.mapM q.remote
  states.foldlM q.combine (q.stateOf 0)

/-- A state array has as many elements as the combine function asks for, none NULL. -/
def Sized (result : Result) : Prop :=
  ∀ elems, result = .array elems →
    elems.length = (if agg_partial_kind q.agg = .AGG_PARTIAL_AVG_INT then 2 else 3) ∧
      .null ∉ elems

def Faithful (partitions : List (Multiset Row)) : Prop :=
  (∀ rows ∈ partitions, ∃ result, q.remote rows = some result ∧ q.Sized result) ∧
    q.combined partitions = some (q.state partitions.sum)

/-- Every partition has a value that is counted. -/
def AllCount (partitions : List (Multiset Row)) : Prop :=
  ∀ rows ∈ partitions, q.counts rows ≠ 0

/-- A state array is right if the argument is not Nullable, and another state if it is; each
is right if every partition counts a value.  What ClickHouse returns for no value of an
argument that is not Nullable may also leave the combined result alone. -/
def Holds (partitions : List (Multiset Row)) : Prop :=
  q.AllCount partitions ∨
    match agg_partial_kind q.agg with
    | .AGG_PARTIAL_DIRECT =>
        q.agg.aggfnoid = .count ∨ q.operands.arg.nullable = true ∨
          ∃ total, q.direct.fold (q.counts partitions.sum) = some total ∧
            q.direct.op total q.direct.default = total
    | _ => q.operands.arg.nullable = false

/-! ## Kinds -/

theorem kind_cases : agg_partial_kind q.agg = .AGG_PARTIAL_DIRECT ∨
    agg_partial_kind q.agg = .AGG_PARTIAL_AVG_INT ∨
    agg_partial_kind q.agg = .AGG_PARTIAL_STAT_FLOAT := by
  have shippable := q.shippable
  rw [Aggref.shippable, q.initial] at shippable
  cases kind : agg_partial_kind q.agg with
  | AGG_PARTIAL_NONE => simp [kind] at shippable
  | AGG_PARTIAL_DIRECT => exact .inl rfl
  | AGG_PARTIAL_AVG_INT => exact .inr (.inl rfl)
  | AGG_PARTIAL_STAT_FLOAT => exact .inr (.inr rfl)

theorem not_distinct : q.agg.aggdistinct = false := by
  cases distinct : q.agg.aggdistinct with
  | false => rfl
  | true =>
      have kind : agg_partial_kind q.agg = .AGG_PARTIAL_NONE := by
        rw [agg_partial_kind, distinct]
        rfl
      rcases q.kind_cases with direct | int | float
      · rw [kind] at direct
        cases direct
      · rw [kind] at int
        cases int
      · rw [kind] at float
        cases float

/-- `count`, `sum` and the functions of their own have their result as state. -/
theorem direct_iff : agg_partial_kind q.agg = .AGG_PARTIAL_DIRECT ↔
    q.agg.aggfnoid = .count ∨ (∃ type, q.agg.aggfnoid = .sum type) ∨
      ∃ name, q.agg.aggfnoid = .direct name := by
  have kind := q.kind_cases
  rw [agg_partial_kind, q.not_distinct] at kind ⊢
  cases function : q.agg.aggfnoid with
  | count => simp [AggFn.form]
  | direct name => simp [AggFn.form]
  | sum type =>
      rw [function] at kind
      cases type <;> simp [AggFn.form] at kind ⊢
  | avg type => cases type <;> simp [AggFn.form]
  | stat name type => cases type <;> simp [AggFn.form]

theorem unstarred_of_ne_count (other : q.agg.aggfnoid ≠ .count) : q.agg.aggstar = false := by
  cases star : q.agg.aggstar with
  | false => rfl
  | true => exact absurd (q.agg.star star).1 other

theorem unstarred_of_array (array : agg_partial_kind q.agg ≠ .AGG_PARTIAL_DIRECT) :
    q.agg.aggstar = false := by
  apply q.unstarred_of_ne_count
  intro count
  exact array (q.direct_iff.mpr (.inl count))

/-! ## States of partitions -/

theorem counts_add (left right : Multiset Row) :
    q.counts (left + right) = q.counts left + q.counts right :=
  Multiset.filterMap_add _ left right

theorem values_eq_counts (rows : Multiset Row) :
    q.agg.values (q.agg.counted q.operands) rows = q.counts rows := by
  rw [Aggref.values, q.not_distinct, if_neg Bool.false_ne_true]
  rfl

theorem deparse_direct (direct : agg_partial_kind q.agg = .AGG_PARTIAL_DIRECT) :
    deparseAggref q.agg false q.fpinfo = deparseSimpleAggref q.agg false q.fpinfo := by
  apply if_neg
  rw [direct]
  rintro ⟨-, int | float⟩
  · cases int
  · cases float

theorem remote_count (count : q.agg.aggfnoid = .count) (rows : Multiset Row) :
    q.remote rows = some (.scalar (.num (q.counts rows).card)) := by
  have direct := q.direct_iff.mpr (.inl count)
  rw [remote, q.deparse_direct direct, ← q.values_eq_counts]
  exact remoteResult_count q.operands rows q.agg (q.plain direct) count

theorem remote_direct (direct : agg_partial_kind q.agg = .AGG_PARTIAL_DIRECT)
    (other : q.agg.aggfnoid ≠ .count) (rows : Multiset Row) :
    q.remote rows =
      some (.scalar (directValue q.direct q.operands.arg.nullable (q.counts rows))) := by
  have unstarred := q.unstarred_of_ne_count other
  rw [remote, q.deparse_direct direct, Partial.direct]
  rcases q.direct_iff.mp direct with count | ⟨type, sum⟩ | ⟨name, own⟩
  · exact absurd count other
  · rw [sum, ← sumValue_eq, ← q.values_eq_counts]
    exact remoteResult_sum q.operands rows q.agg (q.plain direct) sum unstarred
  · obtain ⟨ordinary, isSome⟩ := q.known name own
    obtain ⟨function, known⟩ := Option.isSome_iff_exists.mp isSome
    rw [own]
    simp only [known, Option.getD_some]
    exact remoteResult_direct q.operands rows q.agg q.fpinfo own ordinary known q.not_distinct
      unstarred

theorem remote_int (int : agg_partial_kind q.agg = .AGG_PARTIAL_AVG_INT) (rows : Multiset Row) :
    q.remote rows = some (.array [.num (q.counts rows).card,
      sumValue q.operands.arg.nullable (q.counts rows)]) := by
  have array : deparseAggref q.agg false q.fpinfo =
      deparsePartialStatArray q.agg (agg_partial_kind q.agg) := if_pos ⟨q.initial, .inl int⟩
  have unstarred := q.unstarred_of_array (by simp [int])
  rw [remote, array, int]
  exact remoteResult_partial_int q.operands rows q.agg unstarred

theorem remote_float (float : agg_partial_kind q.agg = .AGG_PARTIAL_STAT_FLOAT)
    (rows : Multiset Row) :
    q.remote rows = some (.array [.num (q.counts rows).card,
      sumValue q.operands.arg.nullable (q.counts rows),
      .num (squaredDeviations (q.counts rows))]) := by
  have array : deparseAggref q.agg false q.fpinfo =
      deparsePartialStatArray q.agg (agg_partial_kind q.agg) := if_pos ⟨q.initial, .inr float⟩
  have unstarred := q.unstarred_of_array (by simp [float])
  have third : squaredDeviations (q.counts rows) =
      if q.counts rows = 0 then 0 else deviation (q.counts rows) := by
    by_cases empty : q.counts rows = 0
    · rw [if_pos empty, empty, squaredDeviations_zero]
    · rw [if_neg empty, squaredDeviations_eq empty, deviation]
  rw [remote, array, float, third]
  exact remoteResult_partial_float q.operands rows q.agg unstarred

/-! ## One step of combining -/

theorem strict_ofOption (op : ℚ → ℚ → ℚ) (a b : Option ℚ) :
    strict op (ofOption a) (ofOption b) = ofOption (Option.merge op a b) := by
  cases a with
  | none => cases b <;> rfl
  | some x => cases b <;> rfl

/-- Combining the states of two parts gives the state of both. -/
theorem combine_state (left right : Multiset ℚ) :
    q.combine (q.stateOf left) (q.stateOf right) = some (q.stateOf (left + right)) := by
  rcases q.kind_cases with direct | int | float
  · by_cases count : q.agg.aggfnoid = .count
    · have op : q.direct.op = (· + ·) := by
        rw [Partial.direct, count]
        rfl
      simp only [combine, stateOf, direct, count, if_true, strict, op, Multiset.card_add,
        Nat.cast_add]
    · simp only [combine, stateOf, direct, if_neg count, strict_ofOption, fold_add]
  · simp only [combine, stateOf, int, int4_avg_combine, Option.map_some, Multiset.card_add,
      Multiset.sum_add, Nat.cast_add]
  · simp only [combine, stateOf, float, float8_combine]
    by_cases no_left : left = 0
    · simp [no_left]
    · have nonzero_left : (left.card : ℚ) ≠ 0 := card_cast_ne_zero no_left
      rw [if_neg nonzero_left]
      by_cases no_right : right = 0
      · simp [no_right]
      · have nonzero_right : (right.card : ℚ) ≠ 0 := card_cast_ne_zero no_right
        rw [if_neg nonzero_right, squaredDeviations_add no_left no_right, Option.map_some,
          Multiset.card_add, Multiset.sum_add, Nat.cast_add, mul_assoc, pow_two]

/-! ## All partitions -/

variable {q}

/-- Partitions that return the states of some values combine to the state of all of them. -/
theorem combined_eq {values : Multiset Row → Multiset ℚ} {partitions : List (Multiset Row)}
    (remote : ∀ rows ∈ partitions, q.remote rows = some (q.stateOf (values rows))) :
    q.combined partitions = some (q.stateOf (partitions.map values).sum) := by
  have states : partitions.mapM q.remote =
      some (partitions.map fun rows => q.stateOf (values rows)) := by
    induction partitions with
    | nil => rfl
    | cons rows partitions ih =>
        rw [List.mapM_cons, remote rows List.mem_cons_self,
          ih fun rows member => remote rows (List.mem_cons_of_mem _ member)]
        rfl
  have folded (base : Multiset ℚ) :
      (partitions.map fun rows => q.stateOf (values rows)).foldlM q.combine (q.stateOf base) =
        some (q.stateOf (base + (partitions.map values).sum)) := by
    clear remote states
    induction partitions generalizing base with
    | nil => simp
    | cons rows partitions ih =>
        rw [List.map_cons, List.foldlM_cons, q.combine_state, List.map_cons, List.sum_cons,
          ← add_assoc]
        exact ih _
  rw [combined, states]
  have start := folded 0
  rwa [zero_add] at start

theorem counts_sum (partitions : List (Multiset Row)) :
    (partitions.map q.counts).sum = q.counts partitions.sum := by
  induction partitions with
  | nil => rfl
  | cons rows partitions ih =>
      rw [List.map_cons, List.sum_cons, List.sum_cons, q.counts_add, ih]

theorem sized_stateOf (values : Multiset ℚ) : q.Sized (q.stateOf values) := by
  intro elems array
  rcases q.kind_cases with direct | int | float
  · simp only [stateOf, direct] at array
    split at array
    · cases array
    · cases array
  · simp only [stateOf, int] at array
    cases array
    simp [int]
  · simp only [stateOf, float] at array
    cases array
    simp [float]

/-- Where each partition returns its state. -/
theorem faithful_of_states {partitions : List (Multiset Row)}
    (remote : ∀ rows ∈ partitions, q.remote rows = some (q.state rows)) :
    q.Faithful partitions := by
  refine ⟨fun rows member => ⟨_, remote rows member, sized_stateOf _⟩, ?_⟩
  rw [combined_eq remote, counts_sum]
  rfl

/-- A partition returns its state if it counts a value. -/
theorem remote_of_counts {rows : Multiset Row} (some_values : q.counts rows ≠ 0) :
    q.remote rows = some (q.state rows) := by
  have sum : sumValue q.operands.arg.nullable (q.counts rows) = .num (q.counts rows).sum :=
    if_neg some_values
  rcases q.kind_cases with direct | int | float
  · by_cases count : q.agg.aggfnoid = .count
    · rw [q.remote_count count]
      simp only [state, stateOf, direct, if_pos count]
    · rw [q.remote_direct direct count, directValue]
      simp only [state, stateOf, direct, if_neg count]
      cases folded : q.direct.fold (q.counts rows) with
      | some total => rfl
      | none => exact absurd ((fold_eq_none_iff _ _).mp folded) some_values
  · rw [q.remote_int int, sum]
    simp only [state, stateOf, int]
  · rw [q.remote_float float, sum]
    simp only [state, stateOf, float]

/-- The values of a partition; where there are none, ClickHouse returns the state of its
default. -/
def lent (q : Partial Row) (rows : Multiset Row) : Multiset ℚ :=
  if q.counts rows = 0 then {q.direct.default} else q.counts rows

theorem remote_lent (direct : agg_partial_kind q.agg = .AGG_PARTIAL_DIRECT)
    (other : q.agg.aggfnoid ≠ .count) (strict : q.operands.arg.nullable = false)
    (rows : Multiset Row) : q.remote rows = some (q.stateOf (q.lent rows)) := by
  rw [lent]
  by_cases empty : q.counts rows = 0
  · rw [q.remote_direct direct other, directValue, (fold_eq_none_iff _ _).mpr empty, strict,
      if_pos empty]
    simp only [stateOf, direct, if_neg other]
    rfl
  · rw [if_neg empty]
    exact remote_of_counts empty

theorem fold_default (direct : Direct) (n : ℕ) :
    direct.fold (Multiset.replicate (n + 1) direct.default) = some direct.default := by
  induction n with
  | zero => rfl
  | succ n ih =>
      rw [Multiset.replicate_succ, ← Multiset.singleton_add, fold_add, ih]
      exact congrArg some direct.default_op

/-- The defaults that are lent, beside the values. -/
theorem lent_sum (partitions : List (Multiset Row)) :
    (partitions.map q.lent).sum = q.counts partitions.sum +
      Multiset.replicate (partitions.countP fun rows => q.counts rows = 0) q.direct.default := by
  induction partitions with
  | nil => rfl
  | cons rows partitions ih =>
      rw [List.map_cons, List.sum_cons, ih, List.sum_cons, q.counts_add, List.countP_cons, lent]
      by_cases empty : q.counts rows = 0
      · simp only [empty, if_true, decide_true, zero_add]
        rw [Multiset.replicate_succ, ← Multiset.singleton_add]
        exact add_left_comm _ _ _
      · simp only [empty, if_false, decide_false, add_zero, Bool.false_eq_true]
        exact (add_assoc _ _ _).symm

/-! ## Results -/

theorem faithful_of_holds {partitions : List (Multiset Row)} (holds : q.Holds partitions) :
    q.Faithful partitions := by
  rcases holds with all | holds
  · exact faithful_of_states fun rows member => remote_of_counts (all rows member)
  · rcases q.kind_cases with direct | int | float
    · simp only [direct] at holds
      by_cases count : q.agg.aggfnoid = .count
      · refine faithful_of_states fun rows _ => ?_
        rw [q.remote_count count]
        simp only [state, stateOf, direct, if_pos count]
      · rcases holds with is_count | nullable | ⟨total, folded, neutral⟩
        · exact absurd is_count count
        · refine faithful_of_states fun rows _ => ?_
          rw [q.remote_direct direct count, directValue_eq, if_pos nullable]
          simp only [state, stateOf, direct, if_neg count]
        · cases nullable : q.operands.arg.nullable with
          | true =>
              refine faithful_of_states fun rows _ => ?_
              rw [q.remote_direct direct count, directValue_eq, if_pos nullable]
              simp only [state, stateOf, direct, if_neg count]
          | false =>
              have remote (rows : Multiset Row) := q.remote_lent direct count nullable rows
              refine ⟨fun rows _ => ⟨_, remote rows, sized_stateOf _⟩, ?_⟩
              rw [combined_eq fun rows _ => remote rows, lent_sum]
              simp only [state, stateOf, direct, if_neg count, fold_add, folded]
              cases partitions.countP fun rows => q.counts rows = 0 with
              | zero => rfl
              | succ n =>
                  rw [fold_default]
                  simp only [Option.merge_some_some, neutral]
    · simp only [int] at holds
      refine faithful_of_states fun rows _ => ?_
      rw [q.remote_int int, holds, sumValue_false]
      simp only [state, stateOf, int]
    · simp only [float] at holds
      refine faithful_of_states fun rows _ => ?_
      rw [q.remote_float float, holds, sumValue_false]
      simp only [state, stateOf, float]

theorem holds_of_faithful {partitions : List (Multiset Row)} (faithful : q.Faithful partitions) :
    q.Holds partitions := by
  by_cases all : q.AllCount partitions
  · exact .inl all
  · refine .inr ?_
    obtain ⟨rows, member, empty⟩ : ∃ rows ∈ partitions, q.counts rows = 0 := by
      simp only [AllCount] at all
      push Not at all
      exact all
    obtain ⟨⟨result, remote, sized⟩, combined⟩ :=
      And.intro (faithful.1 rows member) faithful.2
    rcases q.kind_cases with direct | int | float
    · simp only [direct]
      by_cases count : q.agg.aggfnoid = .count
      · exact .inl count
      · cases nullable : q.operands.arg.nullable with
        | true => exact .inr (.inl rfl)
        | false =>
            refine .inr (.inr ?_)
            have idle : 0 < partitions.countP fun rows => q.counts rows = 0 := by
              rw [List.countP_pos_iff]
              exact ⟨rows, member, decide_eq_true empty⟩
            obtain ⟨n, idle⟩ := Nat.exists_eq_add_one.mpr idle
            rw [combined_eq fun rows _ => q.remote_lent direct count nullable rows, lent_sum, idle]
              at combined
            simp only [state, stateOf, direct, if_neg count, fold_add, fold_default] at combined
            cases folded : q.direct.fold (q.counts partitions.sum) with
            | none =>
                rw [folded] at combined
                cases combined
            | some total =>
                rw [folded] at combined
                refine ⟨total, rfl, ?_⟩
                simpa [ofOption] using combined
    · simp only [int]
      cases nullable : q.operands.arg.nullable with
      | false => rfl
      | true =>
          rw [q.remote_int int, empty, nullable] at remote
          cases remote
          exact absurd (by simp [sumValue]) (sized _ rfl).2
    · simp only [float]
      cases nullable : q.operands.arg.nullable with
      | false => rfl
      | true =>
          rw [q.remote_float float, empty, nullable] at remote
          cases remote
          exact absurd (by simp [sumValue]) (sized _ rfl).2

/-- The combined states are the state of all rows, and each array is one PostgreSQL takes,
exactly when `Holds`. -/
theorem partitions_faithful_iff (q : Partial Row) (partitions : List (Multiset Row)) :
    q.Faithful partitions ↔ q.Holds partitions :=
  ⟨holds_of_faithful, faithful_of_holds⟩

/-- `avg(x)` of a Nullable column of integers. -/
def avgNullable : Partial (Option ℚ) where
  agg := ⟨.avg .int4, .AGGSPLIT_INITIAL_SERIAL, false, false, false, by nofun⟩
  initial := rfl
  shippable := rfl
  fpinfo := ⟨.CH_DEFAULT, []⟩
  plain := by nofun
  operands := {
    arg := ⟨true, id, by nofun⟩
    aggfilter := .constant 1
    boolean := fun _ _ one => .inr (Option.some.inj one).symm
    sign := fun _ => 1
    direct := fun _ => none }
  known := by nofun

/-- A partition whose arguments are all NULL returns an array with a NULL, which cannot be
combined with the other partition's. -/
theorem not_faithful_avgNullable :
    ¬ avgNullable.Faithful [{some 5}, {none}] ∧
      avgNullable.remote {none} = some (.array [.num 0, .null]) ∧
      avgNullable.combined [{some 5}, {none}] = none ∧
      avgNullable.state ({some 5} + {none}) = .array [.num 1, .num 5] := by
  have remote : avgNullable.remote {none} = some (.array [.num 0, .null]) := by
    decide +kernel
  have combined : avgNullable.combined [{some 5}, {none}] = none := by
    decide +kernel
  have state : avgNullable.state ({some 5} + {none}) = .array [.num 1, .num 5] := by
    decide +kernel
  refine ⟨fun faithful => ?_, remote, combined, state⟩
  rw [Faithful, combined] at faithful
  cases faithful.2

end Partial

end PgClickhouse.Aggregate

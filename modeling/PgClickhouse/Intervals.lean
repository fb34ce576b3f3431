import Mathlib.Data.Int.DivMod
import Mathlib.Data.Rat.Defs
import Mathlib.Tactic.FieldSimp
import Mathlib.Tactic.Linarith
import Mathlib.Tactic.NormNum
import Mathlib.Tactic.Ring

/-!
# Intervals

ClickHouse has no interval of several units.  An interval that is added to a time or taken from
it becomes one term for each unit; anywhere else it becomes a number of seconds.

* `interval_terms_exact`: the terms are the interval, in PostgreSQL's order, and positive.
* `interval_seconds_iff`: the number of seconds is the length of the interval just when its days
  fit into an `int` as seconds and its time is whole seconds.
-/

namespace PgClickhouse.Intervals

/-- PostgreSQL's `Interval`. -/
structure Interval where
  time : Int64
  day : Int32
  month : Int32
  deriving Repr, DecidableEq

def USECS_PER_SEC : Int64 := 1000000

/-! ## Terms -/

inductive TimeUnit
  | MONTH
  | DAY
  | SECOND
  | MICROSECOND
  deriving Repr, DecidableEq

/-- ` + INTERVAL <amount> <unit>`, or the same with a minus. -/
structure Term where
  plus : Bool
  amount : Int64
  unit : TimeUnit
  deriving Repr, DecidableEq

def TimeUnit.text : TimeUnit → String
  | .MONTH => "MONTH"
  | .DAY => "DAY"
  | .SECOND => "SECOND"
  | .MICROSECOND => "MICROSECOND"

def Term.text (t : Term) : String :=
  " " ++ (if t.plus then "+" else "-") ++ " INTERVAL " ++ toString t.amount ++ " " ++ t.unit.text

def appendIntervalTerm (plus : Bool) (amount : Int64) (unit : TimeUnit) : List Term :=
  if amount = 0 then []
  else if amount < 0 then [⟨!plus, -amount, unit⟩]
  else [⟨plus, amount, unit⟩]

def intervalTerms (plus : Bool) (span : Interval) : List Term :=
  appendIntervalTerm plus span.month.toInt64 .MONTH ++
    appendIntervalTerm plus span.day.toInt64 .DAY ++
    appendIntervalTerm plus (span.time / USECS_PER_SEC) .SECOND ++
    appendIntervalTerm plus (span.time % USECS_PER_SEC) .MICROSECOND

/-- The operand on the right: a constant, a parameter that may be a correlation argument, or
anything else. -/
inductive Operand
  | Const (span : Interval)
  | Param (correlation_arg : Bool)
  | other
  deriving Repr, DecidableEq

/-- A piece of the text: text, an operand, or a term. -/
inductive Piece
  | text (s : String)
  | first
  | second (interval_op : Bool)
  | term (t : Term)
  deriving DecidableEq

/-- A piece, with the operands deparsed. -/
def Piece.print (first : String) (second : Bool → String) : Piece → String
  | .text s => s
  | .first => first
  | .second interval_op => second interval_op
  | .term t => t.text

def Operand.split : Operand → Bool
  | .Param correlation_arg => !correlation_arg
  | _ => false

def Operand.widen : Operand → Bool
  | .Const span => span.time % USECS_PER_SEC != 0
  | second => second.split

/-- The operand on the left, widened to microseconds or not. -/
def operand (widen : Bool) : List Piece :=
  if widen then [.text "(toDateTime64(", .first, .text ", 6)"] else [.text "(", .first]

/-- A part of a parameter that is a tuple of months, days and microseconds. -/
def splitTerm (plus : Bool) (unit : String) (n : Nat) : List Piece :=
  [.text (" " ++ (if plus then "+" else "-") ++ " toInterval" ++ unit ++ "(tupleElement("),
    .second false, .text (", " ++ toString n ++ "))")]

def deparseIntervalOp (second : Operand) (plus : Bool) : List Piece :=
  operand second.widen ++
    (match second with
      | .Const span => (intervalTerms plus span).map Piece.term
      | .Param false => splitTerm plus "Month" 1 ++ splitTerm plus "Day" 2 ++
          splitTerm plus "Microsecond" 3
      | _ => [.text (if plus then " + " else " - "), .second true]) ++
    [.text ")"]

/-! ## What the terms amount to -/

/-- An amount that is added or taken away. -/
def signed (plus : Bool) (amount : Int) : Int := if plus then amount else -amount

def Term.signed (t : Term) : Int := Intervals.signed t.plus t.amount.toInt

theorem signed_zero (plus : Bool) : signed plus 0 = 0 := by cases plus <;> rfl

theorem signed_not (plus : Bool) (amount : Int) :
    signed (!plus) (-amount) = signed plus amount := by
  cases plus
  · rfl
  · exact Int.neg_neg amount

/-- A term is dropped for nothing, and else is positive and has the amount and the unit. -/
theorem appendIntervalTerm_cases (plus : Bool) {amount : Int64} (unit : TimeUnit)
    (above : -2 ^ 63 < amount.toInt) :
    (amount.toInt = 0 ∧ appendIntervalTerm plus amount unit = []) ∨
      ∃ t, appendIntervalTerm plus amount unit = [t] ∧ t.unit = unit ∧ 0 < t.amount.toInt ∧
        amount.toInt ≠ 0 ∧ t.signed = signed plus amount.toInt := by
  have zero : (0 : Int64).toInt = 0 := rfl
  unfold appendIntervalTerm
  by_cases none : amount = 0
  · left
    rw [if_pos none, none]
    exact ⟨rfl, rfl⟩
  right
  have some : amount.toInt ≠ 0 := fun h => none (Int64.toInt_inj.mp (h.trans zero.symm))
  rw [if_neg none]
  by_cases negative : amount < 0
  · have below : amount.toInt < 0 := Int64.lt_iff_toInt_lt.mp negative
    have negated : (-amount).toInt = -amount.toInt := by
      rw [Int64.toInt_neg]
      exact Int.bmod_eq_of_le (by omega) (by omega)
    refine ⟨⟨!plus, -amount, unit⟩, if_pos negative, rfl, ?_, some, ?_⟩
    · change 0 < (-amount).toInt
      omega
    · rw [Term.signed, negated, signed_not]
  · have notBelow : ¬amount.toInt < 0 := fun h => negative (Int64.lt_iff_toInt_lt.mpr h)
    refine ⟨⟨plus, amount, unit⟩, if_neg negative, rfl, ?_, some, rfl⟩
    change 0 < amount.toInt
    omega

/-- The sum of terms of which each unit has a weight. -/
def weighed (weight : TimeUnit → Int) (terms : List Term) : Int :=
  (terms.map fun t => weight t.unit * t.signed).sum

theorem weighed_append (weight : TimeUnit → Int) (terms more : List Term) :
    weighed weight (terms ++ more) = weighed weight terms + weighed weight more := by
  rw [weighed, List.map_append, List.sum_append]
  rfl

theorem weighed_term (weight : TimeUnit → Int) (plus : Bool) {amount : Int64} (unit : TimeUnit)
    (above : -2 ^ 63 < amount.toInt) :
    weighed weight (appendIntervalTerm plus amount unit) =
      weight unit * signed plus amount.toInt := by
  rcases appendIntervalTerm_cases plus unit above with
    ⟨nothing, written⟩ | ⟨t, written, unit_eq, -, -, value⟩
  · rw [written, nothing, signed_zero, Int.mul_zero]
    rfl
  · rw [written, weighed, List.map_singleton, List.sum_singleton, unit_eq, value]

/-- How a time moves by months, days and microseconds. -/
structure Clock (T : Type) where
  addMonths : Int → T → T
  addDays : Int → T → T
  addMicroseconds : Int → T → T
  addMonths_zero : ∀ t, addMonths 0 t = t
  addDays_zero : ∀ t, addDays 0 t = t
  addMicroseconds_zero : ∀ t, addMicroseconds 0 t = t
  addMicroseconds_add : ∀ n m t, addMicroseconds n (addMicroseconds m t) = addMicroseconds (m + n) t

/-- A count of microseconds in which every month has 30 days. -/
def evenMonths : Clock Int where
  addMonths n t := t + 2592000000000 * n
  addDays n t := t + 86400000000 * n
  addMicroseconds n t := t + n
  addMonths_zero t := by omega
  addDays_zero t := by omega
  addMicroseconds_zero t := by omega
  addMicroseconds_add n m t := by omega

variable {T : Type} (clock : Clock T)

/-- A second is a million microseconds. -/
def Clock.add (amount : Int) : TimeUnit → T → T
  | .MONTH => clock.addMonths amount
  | .DAY => clock.addDays amount
  | .SECOND => clock.addMicroseconds (1000000 * amount)
  | .MICROSECOND => clock.addMicroseconds amount

/-- The terms behind an operand, from left to right. -/
def Clock.run (terms : List Term) (t : T) : T :=
  terms.foldl (fun t term => clock.add term.signed term.unit t) t

/-- `timestamp_pl_interval`, or for a subtraction the same with the interval negated. -/
def Clock.pgAdd (plus : Bool) (span : Interval) (t : T) : T :=
  clock.addMicroseconds (signed plus span.time.toInt)
    (clock.addDays (signed plus span.day.toInt) (clock.addMonths (signed plus span.month.toInt) t))

theorem Clock.add_zero (unit : TimeUnit) (t : T) : clock.add 0 unit t = t := by
  cases unit with
  | MONTH => exact clock.addMonths_zero t
  | DAY => exact clock.addDays_zero t
  | SECOND => exact clock.addMicroseconds_zero t
  | MICROSECOND => exact clock.addMicroseconds_zero t

theorem Clock.run_append (terms more : List Term) (t : T) :
    clock.run (terms ++ more) t = clock.run more (clock.run terms t) :=
  List.foldl_append

theorem Clock.run_term (plus : Bool) {amount : Int64} (unit : TimeUnit)
    (above : -2 ^ 63 < amount.toInt) (t : T) :
    clock.run (appendIntervalTerm plus amount unit) t =
      clock.add (signed plus amount.toInt) unit t := by
  rcases appendIntervalTerm_cases plus unit above with
    ⟨nothing, written⟩ | ⟨term, written, unit_eq, -, -, value⟩
  · rw [written, nothing, signed_zero, clock.add_zero]
    rfl
  · rw [written, Clock.run, List.foldl_cons, List.foldl_nil, unit_eq, value]

/-! ## The parts of an interval -/

theorem seconds_toInt (time : Int64) :
    (time / USECS_PER_SEC).toInt = time.toInt.tdiv 1000000 :=
  Int64.toInt_div_of_ne_right time USECS_PER_SEC (by decide)

theorem microseconds_toInt (time : Int64) :
    (time % USECS_PER_SEC).toInt = time.toInt.tmod 1000000 :=
  Int64.toInt_mod time USECS_PER_SEC

/-- What a division that truncates leaves of a time. -/
theorem time_parts (time : Int64) :
    1000000 * time.toInt.tdiv 1000000 + time.toInt.tmod 1000000 = time.toInt ∧
      -1000000 < time.toInt.tmod 1000000 ∧ time.toInt.tmod 1000000 < 1000000 ∧
      -2 ^ 63 ≤ time.toInt ∧ time.toInt < 2 ^ 63 :=
  ⟨Int.mul_tdiv_add_tmod _ _, Int.lt_tmod_of_pos _ (by decide), Int.tmod_lt_of_pos _ (by decide),
    time.le_toInt, time.toInt_lt⟩

/-- No part is the least number of its type, so that each can be negated. -/
theorem parts_above (span : Interval) :
    -2 ^ 63 < span.month.toInt64.toInt ∧ -2 ^ 63 < span.day.toInt64.toInt ∧
      -2 ^ 63 < (span.time / USECS_PER_SEC).toInt ∧
      -2 ^ 63 < (span.time % USECS_PER_SEC).toInt := by
  have month := span.month.le_toInt
  have day := span.day.le_toInt
  have time := time_parts span.time
  rw [Int32.toInt_toInt64, Int32.toInt_toInt64, seconds_toInt, microseconds_toInt]
  omega

/-- The seconds and the microseconds are the time. -/
theorem signed_time (plus : Bool) (time : Int) :
    1000000 * signed plus (time.tdiv 1000000) + signed plus (time.tmod 1000000) =
      signed plus time := by
  have parts := Int.mul_tdiv_add_tmod time 1000000
  cases plus
  · change 1000000 * -(time.tdiv 1000000) + -(time.tmod 1000000) = -time
    omega
  · exact parts

theorem weighed_terms (weight : TimeUnit → Int) (plus : Bool) (span : Interval) :
    weighed weight (intervalTerms plus span) =
      weight .MONTH * signed plus span.month.toInt + weight .DAY * signed plus span.day.toInt +
        weight .SECOND * signed plus (span.time.toInt.tdiv 1000000) +
        weight .MICROSECOND * signed plus (span.time.toInt.tmod 1000000) := by
  obtain ⟨month, day, second, microsecond⟩ := parts_above span
  rw [intervalTerms, weighed_append, weighed_append, weighed_append,
    weighed_term weight plus _ month, weighed_term weight plus _ day,
        weighed_term weight plus _ second,
    weighed_term weight plus _ microsecond, Int32.toInt_toInt64, Int32.toInt_toInt64, seconds_toInt,
    microseconds_toInt]

theorem run_terms (plus : Bool) (span : Interval) (t : T) :
    clock.run (intervalTerms plus span) t = clock.pgAdd plus span t := by
  obtain ⟨month, day, second, microsecond⟩ := parts_above span
  rw [intervalTerms, clock.run_append, clock.run_append, clock.run_append,
    clock.run_term plus _ month, clock.run_term plus _ day, clock.run_term plus _ second,
    clock.run_term plus _ microsecond, Int32.toInt_toInt64, Int32.toInt_toInt64, seconds_toInt,
    microseconds_toInt, Clock.pgAdd, ← signed_time plus span.time.toInt]
  exact clock.addMicroseconds_add _ _ _

/-- The units of a term that may have been dropped. -/
theorem units_term (plus : Bool) {amount : Int64} (unit : TimeUnit)
    (above : -2 ^ 63 < amount.toInt) :
    ((appendIntervalTerm plus amount unit).map Term.unit).Sublist [unit] := by
  rcases appendIntervalTerm_cases plus unit above with ⟨-, written⟩ | ⟨t, written, unit_eq, -⟩
  · rw [written]
    exact List.nil_sublist _
  · rw [written, List.map_singleton, unit_eq]

theorem units_terms (plus : Bool) (span : Interval) :
    ((intervalTerms plus span).map Term.unit).Sublist [.MONTH, .DAY, .SECOND, .MICROSECOND] := by
  obtain ⟨month, day, second, microsecond⟩ := parts_above span
  rw [intervalTerms, List.map_append, List.map_append, List.map_append]
  exact (((units_term plus _ month).append (units_term plus _ day)).append
    (units_term plus _ second)).append (units_term plus _ microsecond)

theorem positive_term (plus : Bool) {amount : Int64} (unit : TimeUnit)
    (above : -2 ^ 63 < amount.toInt) :
    ∀ t ∈ appendIntervalTerm plus amount unit, 0 < t.amount.toInt := by
  rcases appendIntervalTerm_cases plus unit above with ⟨-, written⟩ | ⟨t, written, -, positive, -⟩
  · rw [written]
    exact nofun
  · rw [written]
    intro term found
    rw [List.mem_singleton.mp found]
    exact positive

theorem positive_terms (plus : Bool) (span : Interval) :
    ∀ t ∈ intervalTerms plus span, 0 < t.amount.toInt := by
  obtain ⟨month, day, second, microsecond⟩ := parts_above span
  intro t found
  rw [intervalTerms, List.mem_append, List.mem_append, List.mem_append] at found
  rcases found with ((found | found) | found) | found
  · exact positive_term plus _ month t found
  · exact positive_term plus _ day t found
  · exact positive_term plus _ second t found
  · exact positive_term plus _ microsecond t found

/-- A term of microseconds is written just when there are any. -/
theorem microsecond_mem_iff (plus : Bool) (span : Interval) :
    TimeUnit.MICROSECOND ∈ (intervalTerms plus span).map Term.unit ↔
      span.time % USECS_PER_SEC ≠ 0 := by
  obtain ⟨month, day, second, microsecond⟩ := parts_above span
  have others : TimeUnit.MICROSECOND ∉
      (appendIntervalTerm plus span.month.toInt64 .MONTH ++
        appendIntervalTerm plus span.day.toInt64 .DAY ++
        appendIntervalTerm plus (span.time / USECS_PER_SEC) .SECOND).map Term.unit := by
    rw [List.map_append, List.map_append]
    intro found
    have among := (((units_term plus _ month).append (units_term plus _ day)).append
      (units_term plus _ second)).subset found
    exact absurd among (by decide)
  rw [intervalTerms, List.map_append, List.mem_append, or_iff_right others]
  rcases appendIntervalTerm_cases plus .MICROSECOND microsecond with
    ⟨nothing, written⟩ | ⟨t, written, unit_eq, -, something, -⟩
  · rw [written]
    exact ⟨nofun, fun h => absurd (Int64.toInt_inj.mp nothing) h⟩
  · rw [written, List.map_singleton, unit_eq]
    refine ⟨fun _ h => something (congrArg Int64.toInt h), fun _ => List.mem_singleton_self _⟩

/-- For an interval that is added or taken away: the terms add up to it, unit by unit, come in
PostgreSQL's order and are positive, so that they move a time from left to right as the interval
does, and the operand is widened where a term is of microseconds. -/
theorem interval_terms_exact (plus : Bool) (span : Interval) :
    ∃ terms : List Term,
      deparseIntervalOp (.Const span) plus =
        operand (decide (TimeUnit.MICROSECOND ∈ terms.map Term.unit)) ++ terms.map Piece.term ++
          [.text ")"] ∧
      weighed (fun unit => if unit = .MONTH then 1 else 0) terms = signed plus span.month.toInt ∧
      weighed (fun unit => if unit = .DAY then 1 else 0) terms = signed plus span.day.toInt ∧
      weighed (fun unit => if unit = .SECOND then 1000000 else
        if unit = .MICROSECOND then 1 else 0) terms = signed plus span.time.toInt ∧
      (terms.map Term.unit).Sublist [.MONTH, .DAY, .SECOND, .MICROSECOND] ∧
      (∀ t ∈ terms, 0 < t.amount.toInt) ∧
      ∀ (T : Type) (clock : Clock T) (t : T), clock.run terms t = clock.pgAdd plus span t := by
  refine ⟨intervalTerms plus span, ?_, ?_, ?_, ?_, units_terms plus span, positive_terms plus span,
    fun T clock t => run_terms clock plus span t⟩
  · have widened : (Operand.Const span).widen =
        decide (TimeUnit.MICROSECOND ∈ (intervalTerms plus span).map Term.unit) := by
      rw [decide_eq_decide.mpr (microsecond_mem_iff plus span), decide_not]
      rfl
    rw [deparseIntervalOp, widened]
  · rw [weighed_terms]
    simp
  · rw [weighed_terms]
    simp
  · rw [weighed_terms, ← signed_time plus span.time.toInt]
    simp

example : String.join ((deparseIntervalOp (.Const ⟨-1500000, 2, -1⟩) false).map
    (Piece.print "ts" fun _ => "")) =
      "(toDateTime64(ts, 6) + INTERVAL 1 MONTH - INTERVAL 2 DAY + INTERVAL 1 SECOND" ++
        " + INTERVAL 500000 MICROSECOND)" := by
  decide +kernel

example : evenMonths.run (intervalTerms false ⟨-1500000, 2, -1⟩) 0 =
    evenMonths.pgAdd false ⟨-1500000, 2, -1⟩ 0 := by
  decide +kernel

/-! ## Seconds -/

/-- A message of `ereport`. -/
abbrev Error := String

/-- The number `deparseConst` prints for an interval. -/
def deparseConst (ival : Interval) : Except Error Int64 :=
  if ival.month ≠ 0 then .error "cannot convert interval with months into clickhouse"
  else
    -- the product is an `int` before it is added to an `int64`
    .ok ((86400 * ival.day).toInt64 + ival.time / 1000000)

/-- The length of an interval without months, in seconds. -/
def Interval.seconds (ival : Interval) : ℚ := 86400 * ival.day.toInt + ival.time.toInt / 1000000

theorem deparseConst_toInt (ival : Interval) :
    ((86400 * ival.day).toInt64 + ival.time / 1000000).toInt =
      (86400 * ival.day.toInt).bmod (2 ^ 32) + ival.time.toInt.tdiv 1000000 := by
  have low := @Int.le_bmod (86400 * ival.day.toInt) (2 ^ 32) (by decide)
  have high := @Int.bmod_lt (86400 * ival.day.toInt) (2 ^ 32) (by decide)
  have time := time_parts ival.time
  have product : (86400 * ival.day).toInt = (86400 * ival.day.toInt).bmod (2 ^ 32) :=
    Int32.toInt_mul 86400 ival.day
  have quotient : (ival.time / 1000000).toInt = ival.time.toInt.tdiv 1000000 :=
    seconds_toInt ival.time
  rw [Int64.toInt_add, Int32.toInt_toInt64, product, quotient]
  exact Int.bmod_eq_of_le (by omega) (by omega)

/-- The product stays within an `int` for days in these bounds. -/
theorem product_kept_iff (day : Int) :
    (86400 * day).bmod (2 ^ 32) = 86400 * day ↔ -24855 ≤ day ∧ day ≤ 24855 := by
  have low := @Int.le_bmod (86400 * day) (2 ^ 32) (by decide)
  have high := @Int.bmod_lt (86400 * day) (2 ^ 32) (by decide)
  constructor
  · intro kept
    omega
  · intro bounds
    exact Int.bmod_eq_of_le (by omega) (by omega)

theorem seconds_eq_iff (ival : Interval) (sec : Int) :
    (sec : ℚ) = ival.seconds ↔
      sec * 1000000 = 86400000000 * ival.day.toInt + ival.time.toInt := by
  rw [Interval.seconds]
  constructor
  · intro exact
    have scaled : (sec : ℚ) * 1000000 = 86400000000 * ival.day.toInt + ival.time.toInt := by
      rw [exact]
      ring
    exact_mod_cast scaled
  · intro scaled
    have cast : (sec : ℚ) * 1000000 = 86400000000 * ival.day.toInt + ival.time.toInt := by
      exact_mod_cast scaled
    field_simp
    linarith

/-- An interval without months becomes its length in seconds, or an error, just when it has at
most 24855 days in either direction and its time is a whole number of seconds. -/
theorem interval_seconds_iff (ival : Interval) (months : ival.month = 0) :
    (∀ sec, deparseConst ival = .ok sec → (sec.toInt : ℚ) = ival.seconds) ↔
      -24855 ≤ ival.day.toInt ∧ ival.day.toInt ≤ 24855 ∧ (1000000 : ℤ) ∣ ival.time.toInt := by
  have emitted : deparseConst ival = .ok ((86400 * ival.day).toInt64 + ival.time / 1000000) :=
    if_neg (not_not_intro months)
  have time := time_parts ival.time
  have kept := product_kept_iff ival.day.toInt
  constructor
  · intro exact
    have scaled := (seconds_eq_iff ival _).mp (exact _ emitted)
    rw [deparseConst_toInt] at scaled
    omega
  · rintro ⟨low, high, whole⟩ sec printed
    rw [emitted] at printed
    cases printed
    rw [seconds_eq_iff, deparseConst_toInt, kept.mpr ⟨low, high⟩]
    omega

/-- A day and an hour before. -/
theorem interval_seconds_iff_hours :
    deparseConst ⟨-3600000000, -1, 0⟩ = .ok (-90000) ∧
      ((-90000 : Int64).toInt : ℚ) = Interval.seconds ⟨-3600000000, -1, 0⟩ :=
  ⟨rfl, (interval_seconds_iff ⟨-3600000000, -1, 0⟩ rfl).mpr (by decide) _ rfl⟩

/-- 24856 days wrap around, and half a second is lost. -/
theorem not_interval_seconds :
    ¬(∀ ival : Interval, ival.month = 0 →
        ∀ sec, deparseConst ival = .ok sec → (sec.toInt : ℚ) = ival.seconds) ∧
      deparseConst ⟨0, 24856, 0⟩ = .ok (-2147408896) ∧ deparseConst ⟨500000, 0, 0⟩ = .ok 0 := by
  refine ⟨fun exact => ?_, rfl, rfl⟩
  have scaled := (seconds_eq_iff ⟨500000, 0, 0⟩ 0).mp (exact ⟨500000, 0, 0⟩ rfl 0 rfl)
  exact absurd scaled (by decide)

end PgClickhouse.Intervals

import Mathlib.Data.Rat.Cast.Order
import PgClickhouse.Calendar
import PgClickhouse.DateTimes

/-!
# Fields of dates and times

`date_part` and `extract` are printed as a ClickHouse function for each field, which reads the
source in the session's time zone, or in that of an inner `timezone()`.  PostgreSQL's seconds
and epoch have the fraction; ClickHouse's functions are whole numbers.
-/

namespace PgClickhouse.DatePart

open Calendar TimeZones DateTimes

/-- The fields that are printed. -/
inductive DatePartField
  | day | doy | dow | year | month | hour | minute | second | quarter | isoyear | week | epoch
  deriving Repr, DecidableEq

def DatePartField.all : List (String × DatePartField) :=
  [("day", .day), ("doy", .doy), ("dow", .dow), ("year", .year), ("month", .month),
    ("hour", .hour), ("minute", .minute), ("second", .second), ("quarter", .quarter),
    ("isoyear", .isoyear), ("week", .week), ("epoch", .epoch)]

/-- The field of a unit, in any case; `none` raises an error. -/
def field (unit : String) : Option DatePartField :=
  (DatePartField.all.find? fun known => known.1.toList == unit.toList.map Char.toLower).map Prod.snd

inductive ChFunction
  | toDayOfMonth | toDayOfYear | toDayOfWeek | toYear | toMonth | toHour | toMinute | toSecond
  | toQuarter | toISOYear | toISOWeek | toUnixTimestamp
  deriving Repr, DecidableEq

def DatePartField.function : DatePartField → ChFunction
  | .day => .toDayOfMonth
  | .doy => .toDayOfYear
  | .dow => .toDayOfWeek
  | .year => .toYear
  | .month => .toMonth
  | .hour => .toHour
  | .minute => .toMinute
  | .second => .toSecond
  | .quarter => .toQuarter
  | .isoyear => .toISOYear
  | .week => .toISOWeek
  | .epoch => .toUnixTimestamp

/-! ## Printing -/

/-- A call with its source, the mode of the week and the zone. -/
structure Call (Z C : Type) where
  function : ChFunction
  arg : Printed Z C
  mode : Option Nat
  zone : Option (ZoneArg Z)

variable {Z C : Type} {type : TypeName}

/-- The call of a field that is not the epoch. -/
def fieldCall (parttype : DatePartField) (source : DateTimes.Expr Z C type type) : Call Z C :=
  let mode := if parttype = .dow then some 2 else none
  match unwrapTimeZone source with
  | some (zone, source) =>
      ⟨parttype.function, deparseExpr source, mode,
        appendTimeZoneArg .TIMESTAMPTZOID (some zone)⟩
  | none => ⟨parttype.function, deparseExpr source, mode, appendTimeZoneArg type none⟩

/-- The branch `CF_DATE_PART`. -/
def deparseDatePart (unit : String) (source : DateTimes.Expr Z C type type) : Option (Call Z C) :=
  (field unit).map fun parttype =>
    if parttype = .epoch then ⟨.toUnixTimestamp, epochArg source, none, none⟩
    else fieldCall parttype source

/-! ## PostgreSQL's fields -/

/-- Years before the first have negative numbers without a zero. -/
def historical (y : ℤ) : ℤ := if 0 < y then y else y - 1

/-- A field of a day; `none` for the fields of the time. -/
def dayField : DatePartField → ℤ → Option ℤ
  | .day, d => some (dayOfMonth d)
  | .doy, d => some (dayOfYear d)
  | .dow, d => some ((d + 4) % 7)
  | .year, d => some (historical (yearOf d))
  | .month, d => some (monthOf d)
  | .quarter, d => some (quarterOf d)
  | .isoyear, d => some (historical (weekYear d))
  | .week, d => some (weekNumber d)
  | .hour, _ | .minute, _ | .second, _ | .epoch, _ => none

/-- A field of the time of a day, which is in microseconds. -/
def timeField : DatePartField → ℤ → Option ℚ
  | .hour, t => some (t / 3600000000 : ℤ)
  | .minute, t => some (t / 60000000 % 60 : ℤ)
  | .second, t => some ((t % 60000000 : ℤ) / 1000000)
  | _, _ => none

/-- The wall clock of a value. -/
def wallOf (world : World Z C) : TypeName → ℤ → ℤ
  | .DATEOID, d => midnight d
  | .TIMESTAMPOID, w => w
  | .TIMESTAMPTZOID, i => world.sessionWall i

/-- `extract` of a value.  A date has no time. -/
def extract (world : World Z C) (type : TypeName) (parttype : DatePartField) (v : ℤ) : Option ℚ :=
  if parttype = .epoch then some ((micros type v : ℚ) / 1000000)
  else
    match dayField parttype (wallOf world type v / DAY) with
    | some n => some (n : ℚ)
    | none =>
        if type = .DATEOID then none else timeField parttype (wallOf world type v % DAY)

/-! ## ClickHouse's functions -/

/-- A function of the day.  Weeks start on Monday; in mode 2 the days of the week are counted
from Sunday, which is 0.  The first ISO week has at least four days of the year, and an ISO
year has the weeks whose Thursday is in it. -/
def dayFunction : ChFunction → (mode : Option Nat) → ℤ → Option ℤ
  | .toDayOfMonth, _, d => some (dayOfMonth d)
  | .toDayOfYear, _, d => some (dayOfYear d)
  | .toDayOfWeek, mode, d =>
      some (if mode = some 2 then (weekday d + 1) % 7 else weekday d + 1)
  | .toYear, _, d => some (yearOf d)
  | .toMonth, _, d => some (monthOf d)
  | .toQuarter, _, d => some (quarterOf d)
  | .toISOYear, _, d => some (yearOf (monday d + 3))
  | .toISOWeek, _, d => some (1 + (monday d - fourDays (yearOf (monday d + 3))) / 7)
  | .toHour, _, _ | .toMinute, _, _ | .toSecond, _, _ | .toUnixTimestamp, _, _ => none

def timeFunction : ChFunction → ℤ → Option ℤ
  | .toHour, t => some (t / 3600000000)
  | .toMinute, t => some (t / 60000000 % 60)
  | .toSecond, t => some (t / 1000000 % 60)
  | _, _ => none

/-- A call on a value, read in a zone if it is an instant. -/
def Call.onValue (call : Call Z C) (world : World Z C) (beyond : ℤ → UInt32) :
    DateTimes.Value → Option ℤ
  | .instant i =>
      match call.function, call.zone with
      | .toUnixTimestamp, none => some (toUnixTimestamp beyond i).toNat
      | .toUnixTimestamp, some _ => none
      | _, none => none
      | function, some zone =>
          let wall := (world.zone zone).wall i
          (dayFunction function call.mode (wall / DAY)).or (timeFunction function (wall % DAY))
  | .date d => if call.zone.isNone then dayFunction call.function call.mode d else none
  | .text _ => none

/-- The value of a call; `none` is an error. -/
def Call.remote (call : Call Z C) (world : World Z C) (beyond : ℤ → UInt32) : Option ℤ :=
  (world.remote call.arg).bind (call.onValue world beyond)

/-! ## Where they agree -/

/-- A value of the call for each value of PostgreSQL. -/
def Agree (remote : Option ℤ) (wanted : Option ℚ) : Prop :=
  ∀ q, wanted = some q → ∃ n, remote = some n ∧ (n : ℚ) = q

theorem agree_some (n : ℤ) (q : ℚ) : Agree (some n) (some q) ↔ (n : ℚ) = q := by
  constructor
  · intro agree
    obtain ⟨m, same, equal⟩ := agree q rfl
    rw [Option.some.inj same]
    exact equal
  · intro equal r same
    exact ⟨n, rfl, equal.trans (Option.some.inj same)⟩

/-- What a field of a day needs: years after the first. -/
def DayExact : DatePartField → (d : ℤ) → Prop
  | .year, d => 0 < yearOf d
  | .isoyear, d => 0 < weekYear d
  | _, _ => True

/-- What a field needs: years after the first, whole seconds, and for the epoch also that it
has 32 bits and that midnight of a date is the same second after its way through the session's
zone. -/
def Exact (world : World Z C) (beyond : ℤ → UInt32) (type : TypeName) (parttype : DatePartField)
    (v : ℤ) : Prop :=
  match parttype with
  | .second => type ≠ .DATEOID → wallOf world type v % 1000000 = 0
  | .epoch =>
      (micros type v % 1000000 = 0 ∧ 0 ≤ micros type v ∧ micros type v / 1000000 < 4294967296) ∧
        (type = .DATEOID →
          toUnixTimestamp beyond
              (world.sessionWall ((world.clickhouse .session).instant (midnight v))) =
            toUnixTimestamp beyond (midnight v))
  | parttype => DayExact parttype (wallOf world type v / DAY)

theorem historical_iff (y : ℤ) : y = historical y ↔ 0 < y := by
  unfold historical
  split <;> omega

/-- The mode that is printed counts the days of the week from Sunday, and the two counts of
weeks are the same. -/
theorem dayFunction_agrees {parttype : DatePartField} {d n : ℤ}
    (wanted : dayField parttype d = some n) :
    ∃ m, dayFunction parttype.function (if parttype = .dow then some 2 else none) d = some m ∧
      (m = n ↔ DayExact parttype d) := by
  cases parttype with
  | hour | minute | second | epoch => cases wanted
  | dow =>
      cases wanted
      refine ⟨_, rfl, iff_of_true ?_ trivial⟩
      simp only [weekday, if_true]
      omega
  | week =>
      cases wanted
      exact ⟨_, rfl, iff_of_true (weeks_of_monday d) trivial⟩
  | year =>
      cases wanted
      exact ⟨_, rfl, historical_iff (yearOf d)⟩
  | isoyear =>
      cases wanted
      refine ⟨_, rfl, ?_⟩
      rw [yearOf_thursday]
      exact historical_iff (weekYear d)
  | day | doy | month | quarter =>
      cases wanted
      exact ⟨_, rfl, iff_of_true rfl trivial⟩

section Value

variable {world : World Z C} {source : DateTimes.Expr Z C type type}

/-- The call reads a date, or the wall clock of the source. -/
theorem fieldCall_reads (right : world.RightSource source) (parttype : DatePartField) :
    type = .DATEOID ∧
        world.remote (fieldCall parttype source).arg = some (.date (world.eval source)) ∧
        (fieldCall parttype source).zone = none ∨
      type ≠ .DATEOID ∧ ∃ i zone,
        world.remote (fieldCall parttype source).arg = some (.instant i) ∧
        (fieldCall parttype source).zone = some zone ∧
        (world.zone zone).wall i = wallOf world type (world.eval source) := by
  unfold fieldCall
  rcases right with ⟨plain, right⟩ | ⟨zone, inner, unwrapped, right, same⟩
  · rw [plain]
    cases type with
    | DATEOID => exact Or.inl ⟨rfl, remote_date right, rfl⟩
    | TIMESTAMPOID =>
        apply Or.inr
        obtain ⟨value, printed, denotes⟩ := right
        generalize world.eval source = v at denotes
        cases denotes with
        | timestamp i => exact ⟨by decide, i, .session, printed, rfl, rfl⟩
    | TIMESTAMPTZOID =>
        apply Or.inr
        obtain ⟨value, printed, denotes⟩ := right
        generalize world.eval source = v at denotes
        cases denotes with
        | timestamptz => exact ⟨by decide, v, .session, printed, rfl, rfl⟩
  · apply Or.inr
    obtain rfl : type = .TIMESTAMPOID := by
      cases source <;> first | rfl | cases unwrapped
    rw [unwrapped, same]
    obtain ⟨value, printed, denotes⟩ := right
    generalize world.eval inner = v at denotes
    cases denotes with
    | timestamptz => exact ⟨by decide, v, .expr zone, printed, rfl, rfl⟩

theorem fieldCall_function (parttype : DatePartField) (source : DateTimes.Expr Z C type type) :
    (fieldCall parttype source).function = parttype.function ∧
      (fieldCall parttype source).mode = if parttype = .dow then some 2 else none := by
  unfold fieldCall
  cases unwrapTimeZone source with
  | none => exact ⟨rfl, rfl⟩
  | some unwrapped => exact ⟨rfl, rfl⟩

theorem fieldCall_date (right : world.RightSource source) (date : type = .DATEOID)
    (parttype : DatePartField) (beyond : ℤ → UInt32) :
    (fieldCall parttype source).remote world beyond =
      dayFunction parttype.function (if parttype = .dow then some 2 else none)
        (world.eval source) := by
  obtain ⟨function, mode⟩ := fieldCall_function parttype source
  rcases fieldCall_reads right parttype with ⟨_, value, zone⟩ | ⟨notDate, _⟩
  · unfold Call.remote
    rw [value, Option.bind_some, Call.onValue, zone, function, mode]
    rfl
  · exact absurd date notDate

theorem fieldCall_wall (right : world.RightSource source) (notDate : type ≠ .DATEOID)
    {parttype : DatePartField} (notEpoch : parttype ≠ .epoch) (beyond : ℤ → UInt32) :
    (fieldCall parttype source).remote world beyond =
      (dayFunction parttype.function (if parttype = .dow then some 2 else none)
        (wallOf world type (world.eval source) / DAY)).or
        (timeFunction parttype.function (wallOf world type (world.eval source) % DAY)) := by
  obtain ⟨function, mode⟩ := fieldCall_function parttype source
  rcases fieldCall_reads right parttype with ⟨date, _⟩ | ⟨_, i, zone, value, read, wall⟩
  · exact absurd date notDate
  · unfold Call.remote
    rw [value, Option.bind_some, Call.onValue, read, function, mode, ← wall]
    cases parttype with
    | epoch => exact absurd rfl notEpoch
    | _ => rfl

end Value

/-- Seconds are right without a fraction. -/
theorem second_iff (w : ℤ) :
    ((w % DAY / 1000000 % 60 : ℤ) : ℚ) = ((w % DAY % 60000000 : ℤ) : ℚ) / 1000000 ↔
      w % 1000000 = 0 := by
  rw [eq_div_iff (by norm_num)]
  have inIntegers : ((w % DAY / 1000000 % 60 : ℤ) : ℚ) * 1000000 =
      ((w % DAY % 60000000 : ℤ) : ℚ) ↔ w % DAY / 1000000 % 60 * 1000000 = w % DAY % 60000000 := by
    exact_mod_cast Iff.rfl
  rw [inIntegers]
  unfold DAY
  omega

/-- Numbers of 32 bits are only some epochs. -/
theorem bounds_of_seconds {seconds : UInt32} {i : ℤ}
    (same : (seconds.toNat : ℚ) = (i : ℚ) / 1000000) :
    i % 1000000 = 0 ∧ 0 ≤ i ∧ i / 1000000 < 4294967296 := by
  rw [eq_div_iff (by norm_num)] at same
  have inIntegers : (seconds.toNat : ℤ) * 1000000 = i := by
    exact_mod_cast same
  have bounded := seconds.toNat_lt
  omega

/-- The epoch is right for whole seconds of 32 bits. -/
theorem epoch_iff (beyond : ℤ → UInt32) (i : ℤ) :
    ((toUnixTimestamp beyond i).toNat : ℚ) = (i : ℚ) / 1000000 ↔
      i % 1000000 = 0 ∧ 0 ≤ i ∧ i / 1000000 < 4294967296 :=
  ⟨bounds_of_seconds, fun bounds => toUnixTimestamp_whole beyond bounds.1 bounds.2⟩

section Fields

variable (world : World Z C) (beyond : ℤ → UInt32) (source : DateTimes.Expr Z C type type)

/-- The epoch of what `toUnixTimestamp` reads. -/
theorem remote_epoch {i : ℤ} (value : world.remote (epochArg source) = some (.instant i)) :
    (⟨.toUnixTimestamp, epochArg source, none, none⟩ : Call Z C).remote world beyond =
      some (toUnixTimestamp beyond i).toNat := by
  unfold Call.remote
  rw [value]
  rfl

theorem epoch_agrees_date {source : DateTimes.Expr Z C .DATEOID .DATEOID}
    (right : world.Right source) :
    Agree ((⟨.toUnixTimestamp, epochArg source, none, none⟩ : Call Z C).remote world beyond)
        (extract world .DATEOID .epoch (world.eval source)) ↔
      Exact world beyond .DATEOID .epoch (world.eval source) := by
  rw [remote_epoch world beyond source (remote_epochArg_date right)]
  generalize world.eval source = d
  have whole := epoch_iff beyond (midnight d)
  refine (agree_some _ _).trans ?_
  rw [Int.cast_natCast]
  constructor
  · intro same
    have bounds := bounds_of_seconds same
    refine ⟨bounds, fun _ => UInt32.toNat_inj.mp ?_⟩
    have equal := same.trans (whole.mpr bounds).symm
    exact_mod_cast equal
  · intro holds
    obtain ⟨bounds, detour⟩ := holds
    rw [detour rfl]
    exact whole.mpr bounds

theorem epoch_agrees (right : world.RightSource source) :
    Agree ((⟨.toUnixTimestamp, epochArg source, none, none⟩ : Call Z C).remote world beyond)
        (extract world type .epoch (world.eval source)) ↔
      Exact world beyond type .epoch (world.eval source) := by
  by_cases date : type = .DATEOID
  · subst date
    rcases right with ⟨_, right⟩ | ⟨zone, inner, unwrapped, _⟩
    · exact epoch_agrees_date world beyond right
    · cases source <;> cases unwrapped
  · have value := remote_epochArg right fun isDate => absurd isDate date
    rw [remote_epoch world beyond source value]
    refine (agree_some _ _).trans ?_
    rw [Int.cast_natCast, epoch_iff]
    exact ⟨fun bounds => ⟨bounds, fun isDate => absurd isDate date⟩, fun holds => holds.1⟩

theorem date_agrees {source : DateTimes.Expr Z C .DATEOID .DATEOID}
    (right : world.RightSource source) {parttype : DatePartField} (notEpoch : parttype ≠ .epoch) :
    Agree ((fieldCall parttype source).remote world beyond)
        (extract world .DATEOID parttype (world.eval source)) ↔
      Exact world beyond .DATEOID parttype (world.eval source) := by
  have day : wallOf world .DATEOID (world.eval source) / DAY = world.eval source :=
    midnight_div (world.eval source)
  unfold extract
  rw [if_neg notEpoch, fieldCall_date right rfl, day, if_pos rfl]
  cases wanted : dayField parttype (world.eval source) with
  | some n =>
      obtain ⟨m, value, same⟩ := dayFunction_agrees wanted
      have exact' : Exact world beyond .DATEOID parttype (world.eval source) ↔
          DayExact parttype (world.eval source) := by
        cases parttype with
        | hour | minute | second | epoch => cases wanted
        | _ =>
            unfold Exact
            rw [day]
      rw [value, agree_some, exact', ← same]
      exact Int.cast_inj
  | none =>
      have vacuous : Agree (dayFunction parttype.function
          (if parttype = .dow then some 2 else none) (world.eval source)) none := by
        intro q impossible
        cases impossible
      refine iff_of_true vacuous ?_
      cases parttype with
      | hour | minute => trivial
      | second => exact fun notDate => absurd rfl notDate
      | epoch => exact absurd rfl notEpoch
      | _ => cases wanted

theorem wall_agrees (right : world.RightSource source) (notDate : type ≠ .DATEOID)
    {parttype : DatePartField} (notEpoch : parttype ≠ .epoch) :
    Agree ((fieldCall parttype source).remote world beyond)
        (extract world type parttype (world.eval source)) ↔
      Exact world beyond type parttype (world.eval source) := by
  unfold extract
  rw [if_neg notEpoch, fieldCall_wall right notDate notEpoch, if_neg notDate]
  cases wanted : dayField parttype (wallOf world type (world.eval source) / DAY) with
  | some n =>
      obtain ⟨m, value, same⟩ := dayFunction_agrees wanted
      have exact' : Exact world beyond type parttype (world.eval source) ↔
          DayExact parttype (wallOf world type (world.eval source) / DAY) := by
        cases parttype with
        | hour | minute | second | epoch => cases wanted
        | _ => exact Iff.rfl
      rw [value, Option.some_or, agree_some, exact', ← same]
      exact Int.cast_inj
  | none =>
      cases parttype with
      | epoch => exact absurd rfl notEpoch
      | hour | minute => exact iff_of_true ((agree_some _ _).mpr rfl) trivial
      | second =>
          have exact' : Exact world beyond type .second (world.eval source) ↔
              wallOf world type (world.eval source) % 1000000 = 0 :=
            ⟨fun holds => holds notDate, fun holds _ => holds⟩
          rw [exact', ← second_iff]
          exact agree_some _ _
      | _ => cases wanted

end Fields

/-- For every source that is carried right and every unit that is printed: wherever PostgreSQL
has a value, the call has the same, exactly if the field needs nothing that is missing. -/
theorem date_part_iff (world : World Z C) (beyond : ℤ → UInt32)
    (source : DateTimes.Expr Z C type type) (right : world.RightSource source) {unit : String}
    {parttype : DatePartField} (accepted : field unit = some parttype) :
    ∃ call, deparseDatePart unit source = some call ∧
      (Agree (call.remote world beyond) (extract world type parttype (world.eval source)) ↔
        Exact world beyond type parttype (world.eval source)) := by
  unfold deparseDatePart
  rw [accepted, Option.map_some]
  refine ⟨_, rfl, ?_⟩
  by_cases epoch : parttype = .epoch
  · subst epoch
    exact epoch_agrees world beyond source right
  · rw [if_neg epoch]
    by_cases date : type = .DATEOID
    · subst date
      exact date_agrees world beyond right epoch
    · exact wall_agrees world beyond source right date epoch

/-! ## Half a second -/

/-- A column of instants. -/
def instants : DateTimes.Expr Unit Unit .TIMESTAMPTZOID .TIMESTAMPTZOID := .Var .TIMESTAMPTZOID ()

theorem date_part_iff_second :
    ∃ call, deparseDatePart "second" instants = some call ∧
      (Agree (call.remote (springWorld 500000) fun _ => 0)
          (extract (springWorld 500000) .TIMESTAMPTZOID .second
            ((springWorld 500000).eval instants)) ↔
        Exact (springWorld 500000) (fun _ => 0) .TIMESTAMPTZOID .second
          ((springWorld 500000).eval instants)) :=
  date_part_iff (springWorld 500000) (fun _ => 0) instants
    (rightSource_of_right rfl (right_var .TIMESTAMPTZOID ())) (by decide)

/-- `extract(second ...)` of half a second is printed as `toSecond`. -/
theorem fraction_dropped :
    ∃ call, deparseDatePart "second" instants = some call ∧
      call.remote (springWorld 500000) (fun _ => 0) = some 0 ∧
      extract (springWorld 500000) .TIMESTAMPTZOID .second
        ((springWorld 500000).eval instants) = some (1 / 2) ∧
      ¬ Agree (call.remote (springWorld 500000) fun _ => 0)
          (extract (springWorld 500000) .TIMESTAMPTZOID .second
            ((springWorld 500000).eval instants)) := by
  have wanted : extract (springWorld 500000) .TIMESTAMPTZOID .second
      ((springWorld 500000).eval instants) = some (1 / 2) := by
    show some (((500000 : ℤ) : ℚ) / 1000000) = some (1 / 2)
    norm_num
  have printed : deparseDatePart "second" instants = some (fieldCall .second instants) := by
    have known : field "second" = some .second := by decide
    rw [deparseDatePart, known]
    rfl
  refine ⟨_, printed, rfl, wanted, ?_⟩
  rw [wanted]
  intro agree
  have same := (agree_some 0 (1 / 2)).mp agree
  norm_num at same

end PgClickhouse.DatePart

import Mathlib.Algebra.Order.Field.Rat
import Mathlib.Tactic.FieldSimp
import Mathlib.Tactic.NormNum
import PgClickhouse.TimeZones

/-!
# Dates and times

ClickHouse has instants and dates.  A `timestamptz` is carried as its instant, and a
`timestamp` as an instant whose wall clock in the session's time zone it is.  Casts and
`timezone()` are printed as conversions between instants, dates and the texts of wall clocks.
-/

namespace PgClickhouse.DateTimes

open TimeZones

inductive TypeName
  | DATEOID
  | TIMESTAMPOID
  | TIMESTAMPTZOID
  deriving Repr, DecidableEq

/-- Expressions with their type, and their type without implicit coercions.  `Z` are the
expressions of zones, `C` the columns.  An implicit coercion is put only around an argument
that has no function of its own type, so an explicit cast is never of one. -/
inductive Expr (Z C : Type) : TypeName → TypeName → Type
  | Var (type : TypeName) (column : C) : Expr Z C type type
  | F_DATE_TIMESTAMP (stripped : TypeName) (arg : Expr Z C .TIMESTAMPOID stripped) :
      Expr Z C .DATEOID .DATEOID
  | F_DATE_TIMESTAMPTZ (stripped : TypeName) (arg : Expr Z C .TIMESTAMPTZOID stripped) :
      Expr Z C .DATEOID .DATEOID
  | F_TIMESTAMP_DATE (arg : Expr Z C .DATEOID .DATEOID) : Expr Z C .TIMESTAMPOID .TIMESTAMPOID
  | F_TIMESTAMPTZ_DATE (arg : Expr Z C .DATEOID .DATEOID) :
      Expr Z C .TIMESTAMPTZOID .TIMESTAMPTZOID
  | F_TIMESTAMPTZ_TIMESTAMP (arg : Expr Z C .TIMESTAMPOID .TIMESTAMPOID) :
      Expr Z C .TIMESTAMPTZOID .TIMESTAMPTZOID
  | F_TIMESTAMP_TIMESTAMPTZ (arg : Expr Z C .TIMESTAMPTZOID .TIMESTAMPTZOID) :
      Expr Z C .TIMESTAMPOID .TIMESTAMPOID
  | F_TIMEZONE_TEXT_TIMESTAMPTZ (stripped : TypeName) (zone : Z)
      (arg : Expr Z C .TIMESTAMPTZOID stripped) : Expr Z C .TIMESTAMPOID .TIMESTAMPOID
  | F_TIMEZONE_TEXT_TIMESTAMP (stripped : TypeName) (zone : Z)
      (arg : Expr Z C .TIMESTAMPOID stripped) : Expr Z C .TIMESTAMPTZOID .TIMESTAMPTZOID
  | implicit_TIMESTAMP_DATE (arg : Expr Z C .DATEOID .DATEOID) :
      Expr Z C .TIMESTAMPOID .DATEOID
  | implicit_TIMESTAMPTZ_DATE (arg : Expr Z C .DATEOID .DATEOID) :
      Expr Z C .TIMESTAMPTZOID .DATEOID
  | implicit_TIMESTAMPTZ_TIMESTAMP (arg : Expr Z C .TIMESTAMPOID .TIMESTAMPOID) :
      Expr Z C .TIMESTAMPTZOID .TIMESTAMPOID

/-- The zone that is printed: the session's, UTC, or that of an expression. -/
inductive ZoneArg (Z : Type)
  | session
  | UTC
  | expr (zone : Z)

/-- What is printed.  A column has its type on the server. -/
inductive Printed (Z C : Type)
  | column (type : TypeName) (column : C)
  | toDate32 (arg : Printed Z C) (zone : Option (ZoneArg Z))
  | toDateTime64 (arg : Printed Z C) (scale : Nat) (zone : ZoneArg Z)
  | toString (arg : Printed Z C) (zone : ZoneArg Z)
  | cast (arg : Printed Z C) (type : TypeName)

variable {Z C : Type}

/-! ## Printing -/

def appendTimeZoneArg (stripped : TypeName) (zone : Option Z) : Option (ZoneArg Z) :=
  match zone with
  | some zone => some (.expr zone)
  | none => if stripped = .DATEOID then none else some .session

def appendWallClock (arg : Printed Z C) (stripped : TypeName) (zone : Option Z) : Printed Z C :=
  .toString (if stripped = .DATEOID then .toDateTime64 arg 0 .session else arg)
    (zone.elim .session .expr)

/-- A call of `timezone` with a `timestamptz` that is not coerced. -/
def unwrapTimeZone : {type stripped : TypeName} → Expr Z C type stripped →
    Option (Z × Expr Z C .TIMESTAMPTZOID .TIMESTAMPTZOID)
  | _, _, .F_TIMEZONE_TEXT_TIMESTAMPTZ .TIMESTAMPTZOID zone source => some (zone, source)
  | _, _, _ => none

/-- The pattern of `unwrapTimeZone` stands where it is called. -/
def deparseExpr : {type stripped : TypeName} → Expr Z C type stripped → Printed Z C
  | _, _, .Var type column => .column type column
  | _, _, .F_DATE_TIMESTAMP _ (.F_TIMEZONE_TEXT_TIMESTAMPTZ .TIMESTAMPTZOID zone source) =>
      .toDate32 (deparseExpr source) (appendTimeZoneArg .TIMESTAMPTZOID (some zone))
  | _, _, .F_DATE_TIMESTAMP stripped source =>
      .toDate32 (deparseExpr source) (appendTimeZoneArg stripped none)
  | _, _, .F_DATE_TIMESTAMPTZ stripped source =>
      .toDate32 (deparseExpr source) (appendTimeZoneArg stripped none)
  | _, _, .F_TIMESTAMP_DATE arg => .toDateTime64 (deparseExpr arg) 6 .session
  | _, _, .F_TIMESTAMPTZ_DATE arg => .toDateTime64 (deparseExpr arg) 6 .session
  | _, _, .F_TIMESTAMPTZ_TIMESTAMP arg => .cast (deparseExpr arg) .TIMESTAMPTZOID
  | _, _, .F_TIMESTAMP_TIMESTAMPTZ arg => .cast (deparseExpr arg) .TIMESTAMPOID
  | _, _, .F_TIMEZONE_TEXT_TIMESTAMPTZ stripped zone source =>
      .toDateTime64 (appendWallClock (deparseExpr source) stripped (some zone)) 6 .session
  | _, _, .F_TIMEZONE_TEXT_TIMESTAMP _ zone
      (.F_TIMEZONE_TEXT_TIMESTAMPTZ .TIMESTAMPTZOID wall_zone source) =>
      .toDateTime64 (appendWallClock (deparseExpr source) .TIMESTAMPTZOID (some wall_zone)) 6
        (.expr zone)
  | _, _, .F_TIMEZONE_TEXT_TIMESTAMP stripped zone source =>
      .toDateTime64 (appendWallClock (deparseExpr source) stripped none) 6 (.expr zone)
  | _, _, .implicit_TIMESTAMP_DATE arg => deparseExpr arg
  | _, _, .implicit_TIMESTAMPTZ_DATE arg => deparseExpr arg
  | _, _, .implicit_TIMESTAMPTZ_TIMESTAMP arg => deparseExpr arg

/-- The argument of `toUnixTimestamp` for the epoch of a source. -/
def epochArg {type : TypeName} (source : Expr Z C type type) : Printed Z C :=
  match unwrapTimeZone source with
  | some (zone, source) =>
      .toDateTime64 (appendWallClock (deparseExpr source) .TIMESTAMPTZOID (some zone)) 6 .UTC
  | none =>
      if type = .TIMESTAMPTZOID then deparseExpr source
      else .toDateTime64 (appendWallClock (deparseExpr source) type none) 6 .UTC

/-! ## Values -/

/-- The microseconds of a day. -/
def DAY : ℤ := 86400000000

def midnight (d : ℤ) : ℤ := d * DAY

/-- The zones of a session and of the expressions of a row, which instants the two sides
choose in them, and the columns of the row. -/
structure World (Z C : Type) where
  zone : ZoneArg Z → Zone
  postgres : (arg : ZoneArg Z) → Choice (zone arg)
  clickhouse : (arg : ZoneArg Z) → Choice (zone arg)
  utc : ∀ i, (zone .UTC).wall i = i
  column : C → ℤ

namespace World

variable (world : World Z C)

/-- The wall clock of an instant in the session. -/
def sessionWall (i : ℤ) : ℤ := (world.zone .session).wall i

/-- PostgreSQL's values: days, wall clocks and instants. -/
def eval : {type stripped : TypeName} → Expr Z C type stripped → ℤ
  | _, _, .Var .TIMESTAMPOID column => world.sessionWall (world.column column)
  | _, _, .Var _ column => world.column column
  | _, _, .F_DATE_TIMESTAMP _ arg => eval arg / DAY
  | _, _, .F_DATE_TIMESTAMPTZ _ arg => world.sessionWall (eval arg) / DAY
  | _, _, .F_TIMESTAMP_DATE arg => midnight (eval arg)
  | _, _, .F_TIMESTAMPTZ_DATE arg => (world.postgres .session).instant (midnight (eval arg))
  | _, _, .F_TIMESTAMPTZ_TIMESTAMP arg => (world.postgres .session).instant (eval arg)
  | _, _, .F_TIMESTAMP_TIMESTAMPTZ arg => world.sessionWall (eval arg)
  | _, _, .F_TIMEZONE_TEXT_TIMESTAMPTZ _ zone arg => (world.zone (.expr zone)).wall (eval arg)
  | _, _, .F_TIMEZONE_TEXT_TIMESTAMP _ zone arg =>
      (world.postgres (.expr zone)).instant (eval arg)
  | _, _, .implicit_TIMESTAMP_DATE arg => midnight (eval arg)
  | _, _, .implicit_TIMESTAMPTZ_DATE arg =>
      (world.postgres .session).instant (midnight (eval arg))
  | _, _, .implicit_TIMESTAMPTZ_TIMESTAMP arg => (world.postgres .session).instant (eval arg)

end World

/-- ClickHouse's values: a `Date32`, a `DateTime64`, the text of a wall clock. -/
inductive Value
  | date (d : ℤ)
  | instant (i : ℤ)
  | text (w : ℤ)
  deriving Repr, DecidableEq

namespace World

variable (world : World Z C)

def toDate32 (zone : Option (ZoneArg Z)) : Value → Option Value
  | .date d => if zone.isNone then some (.date d) else none
  | .instant i => zone.map fun zone => .date ((world.zone zone).wall i / DAY)
  | .text _ => none

/-- A wall clock is read with its microseconds. -/
def toDateTime64 (scale : Nat) (zone : ZoneArg Z) : Value → Option Value
  | .date d => some (.instant ((world.clickhouse zone).instant (midnight d)))
  | .instant _ => none
  | .text w => if scale = 6 then some (.instant ((world.clickhouse zone).instant w)) else none

def toString (zone : ZoneArg Z) : Value → Option Value
  | .instant i => some (.text ((world.zone zone).wall i))
  | _ => none

/-- From one `DateTime64` to another the instant stays. -/
def cast : TypeName → Value → Option Value
  | .TIMESTAMPOID, .instant i | .TIMESTAMPTZOID, .instant i => some (.instant i)
  | _, _ => none

/-- `none` is an error, or a conversion that is not printed. -/
def remote : Printed Z C → Option Value
  | .column .DATEOID column => some (.date (world.column column))
  | .column _ column => some (.instant (world.column column))
  | .toDate32 arg zone => (remote arg).bind (world.toDate32 zone)
  | .toDateTime64 arg scale zone => (remote arg).bind (world.toDateTime64 scale zone)
  | .toString arg zone => (remote arg).bind (world.toString zone)
  | .cast arg type => (remote arg).bind (World.cast type)

/-- How the decoder reads a value of a type.  A date that is coerced is printed as a date,
and stands for its midnight. -/
inductive Denotes : (type stripped : TypeName) → ℤ → Value → Prop
  | date (d : ℤ) : Denotes .DATEOID .DATEOID d (.date d)
  | timestamp (i : ℤ) : Denotes .TIMESTAMPOID .TIMESTAMPOID (world.sessionWall i) (.instant i)
  | timestamptz (i : ℤ) : Denotes .TIMESTAMPTZOID .TIMESTAMPTZOID i (.instant i)
  | coercedDate (d : ℤ) (there : (world.zone .session).Exists (midnight d)) :
      Denotes .TIMESTAMPOID .DATEOID (midnight d) (.date d)
  | coercedDateTz (d : ℤ) (once : (world.zone .session).Once (midnight d)) :
      Denotes .TIMESTAMPTZOID .DATEOID ((world.postgres .session).instant (midnight d)) (.date d)
  | coercedTimestamp (i : ℤ) : Denotes .TIMESTAMPTZOID .TIMESTAMPOID i (.instant i)

/-- What a step reads as an instant is there once in the zone, and a wall clock that is
carried is there in the session.  `unwrapped` says that the call above reads the source in
the zone itself. -/
def Safe : {type stripped : TypeName} → Expr Z C type stripped → (unwrapped : Bool) → Prop
  | _, _, .Var _ _, _ => True
  | _, _, .F_DATE_TIMESTAMP _ arg, _ => Safe arg true
  | _, _, .F_DATE_TIMESTAMPTZ _ arg, _ => Safe arg false
  | _, _, .F_TIMESTAMP_DATE arg, _ =>
      Safe arg false ∧ (world.zone .session).Exists (midnight (world.eval arg))
  | _, _, .F_TIMESTAMPTZ_DATE arg, _ =>
      Safe arg false ∧ (world.zone .session).Once (midnight (world.eval arg))
  | _, _, .F_TIMESTAMPTZ_TIMESTAMP arg, _ =>
      Safe arg false ∧ (world.zone .session).Once (world.eval arg)
  | _, _, .F_TIMESTAMP_TIMESTAMPTZ arg, _ => Safe arg false
  | _, _, .F_TIMEZONE_TEXT_TIMESTAMPTZ stripped zone arg, unwrapped =>
      Safe arg false ∧ (unwrapped = true ∧ stripped = .TIMESTAMPTZOID ∨
        (world.zone .session).Exists ((world.zone (.expr zone)).wall (world.eval arg)))
  | _, _, .F_TIMEZONE_TEXT_TIMESTAMP _ zone arg, _ =>
      Safe arg true ∧ (world.zone (.expr zone)).Once (world.eval arg)
  | _, _, .implicit_TIMESTAMP_DATE arg, _ =>
      Safe arg false ∧ (world.zone .session).Exists (midnight (world.eval arg))
  | _, _, .implicit_TIMESTAMPTZ_DATE arg, _ =>
      Safe arg false ∧ (world.zone .session).Once (midnight (world.eval arg))
  | _, _, .implicit_TIMESTAMPTZ_TIMESTAMP arg, _ =>
      Safe arg false ∧ (world.zone .session).Once (world.eval arg)

end World

/-! ## The steps -/

theorem deparseExpr_date {stripped : TypeName} (arg : Expr Z C .TIMESTAMPOID stripped) :
    deparseExpr (.F_DATE_TIMESTAMP stripped arg) =
      match unwrapTimeZone arg with
      | some (zone, source) =>
          .toDate32 (deparseExpr source) (appendTimeZoneArg .TIMESTAMPTZOID (some zone))
      | none => .toDate32 (deparseExpr arg) (appendTimeZoneArg stripped none) := by
  cases arg with
  | F_TIMEZONE_TEXT_TIMESTAMPTZ stripped zone source => cases stripped <;> rfl
  | _ => rfl

theorem deparseExpr_timezone {stripped : TypeName} (zone : Z)
    (arg : Expr Z C .TIMESTAMPOID stripped) :
    deparseExpr (.F_TIMEZONE_TEXT_TIMESTAMP stripped zone arg) =
      match unwrapTimeZone arg with
      | some (wall_zone, source) =>
          .toDateTime64 (appendWallClock (deparseExpr source) .TIMESTAMPTZOID (some wall_zone)) 6
            (.expr zone)
      | none => .toDateTime64 (appendWallClock (deparseExpr arg) stripped none) 6 (.expr zone) := by
  cases arg with
  | F_TIMEZONE_TEXT_TIMESTAMPTZ stripped zone source => cases stripped <;> rfl
  | _ => rfl

section Steps

variable (world : World Z C) {printed : Printed Z C} {stripped : TypeName}

theorem remote_wallClock {i : ℤ} (value : world.remote printed = some (.instant i))
    (datetime : stripped ≠ .DATEOID) (zone : Option Z) :
    world.remote (appendWallClock printed stripped zone) =
      some (.text ((world.zone (zone.elim .session .expr)).wall i)) := by
  unfold appendWallClock
  rw [if_neg datetime]
  exact congrArg (fun read => read.bind (world.toString (zone.elim .session .expr))) value

theorem remote_wallClock_date {d : ℤ} (value : world.remote printed = some (.date d))
    (zone : Option Z) :
    world.remote (appendWallClock printed .DATEOID zone) =
      some (.text ((world.zone (zone.elim .session .expr)).wall
        ((world.clickhouse .session).instant (midnight d)))) := by
  have instant : world.remote (.toDateTime64 printed 0 .session) =
      some (.instant ((world.clickhouse .session).instant (midnight d))) :=
    congrArg (fun read => read.bind (world.toDateTime64 0 .session)) value
  unfold appendWallClock
  rw [if_pos rfl]
  exact congrArg (fun read => read.bind (world.toString (zone.elim .session .expr))) instant

/-- The text of a wall clock is read in a zone. -/
theorem remote_toDateTime64 {w : ℤ} (value : world.remote printed = some (.text w))
    (zone : ZoneArg Z) :
    world.remote (.toDateTime64 printed 6 zone) =
      some (.instant ((world.clickhouse zone).instant w)) :=
  congrArg (fun read => read.bind (world.toDateTime64 6 zone)) value

theorem remote_toDateTime64_date {d : ℤ} (value : world.remote printed = some (.date d))
    (zone : ZoneArg Z) :
    world.remote (.toDateTime64 printed 6 zone) =
      some (.instant ((world.clickhouse zone).instant (midnight d))) :=
  congrArg (fun read => read.bind (world.toDateTime64 6 zone)) value

theorem remote_toDate32 {i : ℤ} (value : world.remote printed = some (.instant i))
    (zone : ZoneArg Z) :
    world.remote (.toDate32 printed (some zone)) =
      some (.date ((world.zone zone).wall i / DAY)) :=
  congrArg (fun read => read.bind (world.toDate32 (some zone))) value

theorem remote_toDate32_date {d : ℤ} (value : world.remote printed = some (.date d)) :
    world.remote (.toDate32 printed none) = some (.date d) :=
  congrArg (fun read => read.bind (world.toDate32 none)) value

theorem remote_cast {i : ℤ} (value : world.remote printed = some (.instant i))
    {type : TypeName} (datetime : type ≠ .DATEOID) :
    world.remote (.cast printed type) = some (.instant i) := by
  cases type with
  | DATEOID => exact absurd rfl datetime
  | TIMESTAMPOID => exact congrArg (fun read => read.bind (World.cast .TIMESTAMPOID)) value
  | TIMESTAMPTZOID => exact congrArg (fun read => read.bind (World.cast .TIMESTAMPTZOID)) value

end Steps

theorem midnight_div (d : ℤ) : midnight d / DAY = d := by
  unfold midnight DAY
  omega

/-- What is printed for an expression denotes its value. -/
def World.Right (world : World Z C) {type stripped : TypeName} (e : Expr Z C type stripped) :
    Prop :=
  ∃ value, world.remote (deparseExpr e) = some value ∧
    world.Denotes type stripped (world.eval e) value

section Right

variable {world : World Z C} {stripped : TypeName}

theorem right_timestamptz_arg {arg : Expr Z C .TIMESTAMPTZOID stripped} (right : world.Right arg)
    (zone : Z) :
    world.remote (appendWallClock (deparseExpr arg) stripped (some zone)) =
      some (.text ((world.zone (.expr zone)).wall (world.eval arg))) := by
  obtain ⟨value, printed, denotes⟩ := right
  generalize world.eval arg = v at denotes
  cases denotes with
  | timestamptz | coercedTimestamp =>
      exact remote_wallClock world printed (by decide) (some zone)
  | coercedDateTz d once =>
      rw [remote_wallClock_date world printed (some zone),
        once.agree (world.clickhouse .session) (world.postgres .session)]
      rfl

/-- The wall clock of a `timestamp` is read back in the session. -/
theorem right_timestamp_arg {arg : Expr Z C .TIMESTAMPOID stripped} (right : world.Right arg) :
    world.remote (appendWallClock (deparseExpr arg) stripped none) =
      some (.text (world.eval arg)) := by
  obtain ⟨value, printed, denotes⟩ := right
  generalize world.eval arg = v at denotes
  cases denotes with
  | timestamp i => exact remote_wallClock world printed (by decide) none
  | coercedDate d there =>
      rw [remote_wallClock_date world printed none]
      exact congrArg (fun w => some (Value.text w))
        ((world.clickhouse .session).wall_instant _ there)

theorem right_timezone_of_timestamptz {arg : Expr Z C .TIMESTAMPTZOID stripped}
    (right : world.Right arg) {zone : Z}
    (there : (world.zone .session).Exists ((world.zone (.expr zone)).wall (world.eval arg))) :
    world.Right (.F_TIMEZONE_TEXT_TIMESTAMPTZ stripped zone arg) := by
  refine ⟨_, remote_toDateTime64 world (right_timestamptz_arg right zone) .session, ?_⟩
  have back := (world.clickhouse .session).wall_instant _ there
  show world.Denotes _ _ ((world.zone (.expr zone)).wall (world.eval arg)) _
  generalize (world.clickhouse .session).instant
    ((world.zone (.expr zone)).wall (world.eval arg)) = i at back
  rw [← back]
  exact .timestamp i

theorem right_date {arg : Expr Z C .TIMESTAMPOID stripped}
    (source : unwrapTimeZone arg = none) (right : world.Right arg) :
    world.Right (.F_DATE_TIMESTAMP stripped arg) := by
  obtain ⟨value, printed, denotes⟩ := right
  unfold World.Right
  rw [deparseExpr_date, source]
  show ∃ value, _ ∧ world.Denotes _ _ (world.eval arg / DAY) value
  generalize world.eval arg = v at denotes
  cases denotes with
  | timestamp i => exact ⟨_, remote_toDate32 world printed .session, .date _⟩
  | coercedDate d there =>
      rw [midnight_div]
      exact ⟨.date d, remote_toDate32_date world printed, .date d⟩

theorem right_date_tz {arg : Expr Z C .TIMESTAMPTZOID stripped} (right : world.Right arg) :
    world.Right (.F_DATE_TIMESTAMPTZ stripped arg) := by
  obtain ⟨value, printed, denotes⟩ := right
  show ∃ value, _ ∧ world.Denotes _ _ (world.sessionWall (world.eval arg) / DAY) value
  generalize world.eval arg = v at denotes
  cases denotes with
  | timestamptz | coercedTimestamp => exact ⟨_, remote_toDate32 world printed .session, .date _⟩
  | coercedDateTz d once =>
      unfold World.sessionWall
      rw [(world.postgres .session).wall_instant _ once.exists, midnight_div]
      exact ⟨.date d, remote_toDate32_date world printed, .date d⟩

/-- A source is right, or the call above reads it in the zone itself. -/
def World.RightSource (world : World Z C) {type : TypeName} (e : Expr Z C type stripped) : Prop :=
  unwrapTimeZone e = none ∧ world.Right e ∨
    ∃ zone source, unwrapTimeZone e = some (zone, source) ∧ world.Right source ∧
      world.eval e = (world.zone (.expr zone)).wall (world.eval source)

/-- Expressions without a call that is unwrapped. -/
theorem rightSource_of_right {type : TypeName} {e : Expr Z C type stripped}
    (plain : unwrapTimeZone e = none) (right : world.Right e) : world.RightSource e :=
  Or.inl ⟨plain, right⟩

theorem right_date_source {arg : Expr Z C .TIMESTAMPOID stripped}
    (right : world.RightSource arg) : world.Right (.F_DATE_TIMESTAMP stripped arg) := by
  rcases right with ⟨plain, right⟩ | ⟨zone, source, unwrapped, right, same⟩
  · exact right_date plain right
  · obtain ⟨value, printed, denotes⟩ := right
    unfold World.Right
    rw [deparseExpr_date, unwrapped]
    show ∃ value, _ ∧ world.Denotes _ _ (world.eval arg / DAY) value
    rw [same]
    generalize world.eval source = v at denotes
    cases denotes with
    | timestamptz i => exact ⟨_, remote_toDate32 world printed (.expr zone), .date _⟩

theorem right_timezone_of_timestamp {arg : Expr Z C .TIMESTAMPOID stripped}
    (right : world.RightSource arg) {zone : Z}
    (once : (world.zone (.expr zone)).Once (world.eval arg)) :
    world.Right (.F_TIMEZONE_TEXT_TIMESTAMP stripped zone arg) := by
  have agree := once.agree (world.postgres (.expr zone)) (world.clickhouse (.expr zone))
  unfold World.Right
  rw [deparseExpr_timezone]
  show ∃ value, _ ∧
    world.Denotes _ _ ((world.postgres (.expr zone)).instant (world.eval arg)) value
  rw [agree]
  rcases right with ⟨plain, right⟩ | ⟨wall_zone, source, unwrapped, right, same⟩
  · rw [plain]
    exact ⟨_, remote_toDateTime64 world (right_timestamp_arg right) (.expr zone), .timestamptz _⟩
  · rw [unwrapped, same]
    exact ⟨_, remote_toDateTime64 world (right_timestamptz_arg right wall_zone) (.expr zone),
      .timestamptz _⟩

theorem right_var (type : TypeName) (column : C) :
    world.Right (.Var type column : Expr Z C type type) := by
  cases type with
  | DATEOID => exact ⟨_, rfl, .date _⟩
  | TIMESTAMPOID => exact ⟨_, rfl, .timestamp _⟩
  | TIMESTAMPTZOID => exact ⟨_, rfl, .timestamptz _⟩

section Casts

variable {date : Expr Z C .DATEOID .DATEOID} {timestamp : Expr Z C .TIMESTAMPOID .TIMESTAMPOID}
  {timestamptz : Expr Z C .TIMESTAMPTZOID .TIMESTAMPTZOID}

/-- A date that is printed. -/
theorem remote_date (right : world.Right date) :
    world.remote (deparseExpr date) = some (.date (world.eval date)) := by
  obtain ⟨value, printed, denotes⟩ := right
  generalize world.eval date = v at denotes
  cases denotes with
  | date d => exact printed

/-- A `timestamp` is carried by the instant that it is cast to, if there is no other. -/
theorem remote_timestamp (right : world.Right timestamp)
    (once : (world.zone .session).Once (world.eval timestamp)) :
    world.remote (deparseExpr timestamp) =
      some (.instant ((world.postgres .session).instant (world.eval timestamp))) := by
  obtain ⟨value, printed, denotes⟩ := right
  generalize world.eval timestamp = v at denotes once
  cases denotes with
  | timestamp i =>
      rw [once.instant (world.postgres .session) rfl]
      exact printed

theorem right_timestamp_date (right : world.Right date)
    (there : (world.zone .session).Exists (midnight (world.eval date))) :
    world.Right (.F_TIMESTAMP_DATE date) := by
  have back := (world.clickhouse .session).wall_instant _ there
  refine ⟨_, remote_toDateTime64_date world (remote_date right) .session, ?_⟩
  show world.Denotes _ _ (midnight (world.eval date)) _
  generalize (world.clickhouse .session).instant (midnight (world.eval date)) = i at back
  rw [← back]
  exact .timestamp i

theorem right_timestamptz_date (right : world.Right date)
    (once : (world.zone .session).Once (midnight (world.eval date))) :
    world.Right (.F_TIMESTAMPTZ_DATE date) := by
  have agree := once.agree (world.postgres .session) (world.clickhouse .session)
  refine ⟨_, remote_toDateTime64_date world (remote_date right) .session, ?_⟩
  show world.Denotes _ _ ((world.postgres .session).instant (midnight (world.eval date))) _
  rw [agree]
  exact .timestamptz _

theorem right_timestamptz_timestamp (right : world.Right timestamp)
    (once : (world.zone .session).Once (world.eval timestamp)) :
    world.Right (.F_TIMESTAMPTZ_TIMESTAMP timestamp) := by
  have datetime : TypeName.TIMESTAMPTZOID ≠ .DATEOID := by decide
  exact ⟨_, remote_cast world (remote_timestamp right once) datetime, .timestamptz _⟩

theorem right_timestamp_timestamptz (right : world.Right timestamptz) :
    world.Right (.F_TIMESTAMP_TIMESTAMPTZ timestamptz) := by
  obtain ⟨value, printed, denotes⟩ := right
  have datetime : TypeName.TIMESTAMPOID ≠ .DATEOID := by decide
  show ∃ value, _ ∧ world.Denotes _ _ (world.sessionWall (world.eval timestamptz)) value
  generalize world.eval timestamptz = v at denotes
  cases denotes with
  | timestamptz => exact ⟨.instant v, remote_cast world printed datetime, .timestamp v⟩

end Casts

end Right

/-- What the walk over an expression shows. -/
theorem right_of_safe (world : World Z C) {type stripped : TypeName}
    (e : Expr Z C type stripped) :
    (world.Safe e false → world.Right e) ∧ (world.Safe e true → world.RightSource e) := by
  induction e with
  | Var type column => exact ⟨fun _ => right_var type column,
      fun _ => rightSource_of_right rfl (right_var type column)⟩
  | F_DATE_TIMESTAMP stripped arg ih =>
      have right (safe : world.Safe arg true) := right_date_source (ih.2 safe)
      exact ⟨right, fun safe => rightSource_of_right rfl (right safe)⟩
  | F_DATE_TIMESTAMPTZ stripped arg ih =>
      have right (safe : world.Safe arg false) := right_date_tz (ih.1 safe)
      exact ⟨right, fun safe => rightSource_of_right rfl (right safe)⟩
  | F_TIMESTAMP_DATE arg ih =>
      have right (safe : world.Safe (.F_TIMESTAMP_DATE arg) false) :=
        right_timestamp_date (ih.1 safe.1) safe.2
      exact ⟨right, fun safe => rightSource_of_right rfl (right safe)⟩
  | F_TIMESTAMPTZ_DATE arg ih =>
      have right (safe : world.Safe (.F_TIMESTAMPTZ_DATE arg) false) :=
        right_timestamptz_date (ih.1 safe.1) safe.2
      exact ⟨right, fun safe => rightSource_of_right rfl (right safe)⟩
  | F_TIMESTAMPTZ_TIMESTAMP arg ih =>
      have right (safe : world.Safe (.F_TIMESTAMPTZ_TIMESTAMP arg) false) :=
        right_timestamptz_timestamp (ih.1 safe.1) safe.2
      exact ⟨right, fun safe => rightSource_of_right rfl (right safe)⟩
  | F_TIMESTAMP_TIMESTAMPTZ arg ih =>
      have right (safe : world.Safe arg false) := right_timestamp_timestamptz (ih.1 safe)
      exact ⟨right, fun safe => rightSource_of_right rfl (right safe)⟩
  | F_TIMEZONE_TEXT_TIMESTAMPTZ stripped zone arg ih =>
      constructor
      · intro safe
        obtain ⟨inner, ⟨kept, _⟩ | there⟩ := safe
        · exact absurd kept Bool.false_ne_true
        · exact right_timezone_of_timestamptz (ih.1 inner) there
      · intro safe
        cases stripped with
        | TIMESTAMPTZOID => exact Or.inr ⟨zone, arg, rfl, ih.1 safe.1, rfl⟩
        | DATEOID | TIMESTAMPOID =>
            obtain ⟨inner, ⟨_, other⟩ | there⟩ := safe
            · cases other
            · exact rightSource_of_right rfl (right_timezone_of_timestamptz (ih.1 inner) there)
  | F_TIMEZONE_TEXT_TIMESTAMP stripped zone arg ih =>
      have right (safe : world.Safe (.F_TIMEZONE_TEXT_TIMESTAMP stripped zone arg) false) :=
        right_timezone_of_timestamp (ih.2 safe.1) safe.2
      exact ⟨right, fun safe => rightSource_of_right rfl (right safe)⟩
  | implicit_TIMESTAMP_DATE arg ih =>
      have right (safe : world.Safe (.implicit_TIMESTAMP_DATE arg) false) :
          world.Right (.implicit_TIMESTAMP_DATE arg) :=
        ⟨_, remote_date (ih.1 safe.1), .coercedDate _ safe.2⟩
      exact ⟨right, fun safe => rightSource_of_right rfl (right safe)⟩
  | implicit_TIMESTAMPTZ_DATE arg ih =>
      have right (safe : world.Safe (.implicit_TIMESTAMPTZ_DATE arg) false) :
          world.Right (.implicit_TIMESTAMPTZ_DATE arg) :=
        ⟨_, remote_date (ih.1 safe.1), .coercedDateTz _ safe.2⟩
      exact ⟨right, fun safe => rightSource_of_right rfl (right safe)⟩
  | implicit_TIMESTAMPTZ_TIMESTAMP arg ih =>
      have right (safe : world.Safe (.implicit_TIMESTAMPTZ_TIMESTAMP arg) false) :
          world.Right (.implicit_TIMESTAMPTZ_TIMESTAMP arg) :=
        ⟨_, remote_timestamp (ih.1 safe.1) safe.2, .coercedTimestamp _⟩
      exact ⟨right, fun safe => rightSource_of_right rfl (right safe)⟩

/-! ## The epoch -/

/-- The microseconds of a value, a date being its midnight and a `timestamp` being in UTC. -/
def micros : TypeName → ℤ → ℤ
  | .DATEOID, d => midnight d
  | .TIMESTAMPOID, v | .TIMESTAMPTZOID, v => v

/-- Whole seconds in 32 bits; `beyond` is what the server has for other instants. -/
def toUnixTimestamp (beyond : ℤ → UInt32) (i : ℤ) : UInt32 :=
  if 0 ≤ i ∧ i / 1000000 < 4294967296 then (i / 1000000).toNat.toUInt32 else beyond i

section Epoch

variable {world : World Z C}

theorem utc_instant (w : ℤ) : (world.clickhouse .UTC).instant w = w := by
  have back := (world.clickhouse .UTC).wall_instant w ⟨w, world.utc w⟩
  rw [world.utc] at back
  exact back

/-- A date takes the way over the session's midnight. -/
theorem remote_epochArg_date {source : Expr Z C .DATEOID .DATEOID} (right : world.Right source) :
    world.remote (epochArg source) = some (.instant
      (world.sessionWall
        ((world.clickhouse .session).instant (midnight (world.eval source))))) := by
  have plain : unwrapTimeZone source = none := by
    cases source <;> rfl
  have text := remote_toDateTime64 world
    (remote_wallClock_date world (remote_date right) none) .UTC
  rw [utc_instant] at text
  unfold epochArg
  rw [plain]
  exact text

/-- The argument has the instant, or the wall clock as that of UTC. -/
theorem remote_epochArg {type : TypeName} {source : Expr Z C type type}
    (right : world.RightSource source)
    (there : type = .DATEOID → (world.zone .session).Exists (midnight (world.eval source))) :
    world.remote (epochArg source) = some (.instant (micros type (world.eval source))) := by
  unfold epochArg
  rcases right with ⟨plain, right⟩ | ⟨zone, inner, unwrapped, right, same⟩
  · rw [plain]
    cases type with
    | TIMESTAMPTZOID =>
        obtain ⟨value, printed, denotes⟩ := right
        generalize world.eval source = v at denotes
        cases denotes with
        | timestamptz => exact printed
    | TIMESTAMPOID =>
        have text := remote_toDateTime64 world (right_timestamp_arg right) .UTC
        rw [utc_instant] at text
        exact text
    | DATEOID =>
        have reached := remote_epochArg_date right
        unfold World.sessionWall epochArg at reached
        rw [(world.clickhouse .session).wall_instant _ (there rfl), plain] at reached
        exact reached
  · have text := remote_toDateTime64 world (right_timestamptz_arg right zone) .UTC
    rw [utc_instant] at text
    have timestamp : micros type (world.eval source) = world.eval source := by
      cases type with
      | DATEOID => cases source <;> cases unwrapped
      | TIMESTAMPOID | TIMESTAMPTZOID => rfl
    rw [unwrapped, timestamp, same]
    exact text

theorem toUnixTimestamp_whole (beyond : ℤ → UInt32) {i : ℤ} (whole : i % 1000000 = 0)
    (bounds : 0 ≤ i ∧ i / 1000000 < 4294967296) :
    ((toUnixTimestamp beyond i).toNat : ℚ) = (i : ℚ) / 1000000 := by
  obtain ⟨seconds, rfl⟩ : ∃ seconds : ℤ, i = seconds * 1000000 := ⟨i / 1000000, by omega⟩
  have quotient : seconds * 1000000 / 1000000 = seconds := by omega
  obtain ⟨n, rfl⟩ := Int.eq_ofNat_of_zero_le (by omega : 0 ≤ seconds)
  have small : n < 4294967296 := by omega
  unfold toUnixTimestamp
  rw [if_pos bounds, quotient, Int.toNat_natCast, Nat.toUInt32_eq, UInt32.toNat_ofNat_of_lt' small]
  push_cast
  field_simp

end Epoch

/-- Where no wall clock is skipped or repeated that a step depends on, the printed expression
denotes PostgreSQL's value, and so does the printed epoch for whole seconds of 32 bits. -/
theorem date_times_denote (world : World Z C) :
    (∀ {type stripped : TypeName} (e : Expr Z C type stripped), world.Safe e false →
      ∃ value, world.remote (deparseExpr e) = some value ∧
        world.Denotes type stripped (world.eval e) value) ∧
    ∀ {type : TypeName} (source : Expr Z C type type) (beyond : ℤ → UInt32),
      world.Safe source true →
      (type = .DATEOID → (world.zone .session).Exists (midnight (world.eval source))) →
      micros type (world.eval source) % 1000000 = 0 →
      0 ≤ micros type (world.eval source) →
      micros type (world.eval source) / 1000000 < 4294967296 →
      ∃ i, world.remote (epochArg source) = some (.instant i) ∧
        ((toUnixTimestamp beyond i).toNat : ℚ) =
          (micros type (world.eval source) : ℚ) / 1000000 := by
  refine ⟨?_, ?_⟩
  · intro type stripped e safe
    exact (right_of_safe world e).1 safe
  · intro type source beyond safe there whole positive small
    exact ⟨_, remote_epochArg ((right_of_safe world source).2 safe) there,
      toUnixTimestamp_whole beyond whole ⟨positive, small⟩⟩

theorem wall_of_denotes {world : World Z C} {v i : ℤ}
    (denotes : world.Denotes .TIMESTAMPOID .TIMESTAMPOID v (.instant i)) :
    world.sessionWall i = v := by
  cases denotes with
  | timestamp => rfl

/-! ## A spring night -/

/-- The session's clocks go from midnight to one at the instant 0. -/
def springZone : Zone := ⟨fun i => if i < 0 then i else i + 3600000000⟩

def springChoice : Choice springZone where
  instant := fun w => if w < 0 then w else w - 3600000000
  wall_instant := by
    intro w there
    obtain ⟨i, rfl⟩ := there
    unfold springZone
    simp only
    split_ifs <;> omega

def utcChoice : Choice ⟨id⟩ := ⟨id, fun _ _ => rfl⟩

/-- One column, and the zone UTC. -/
def springWorld (column : ℤ) : World Unit Unit where
  zone
    | .session => springZone
    | .UTC | .expr _ => ⟨id⟩
  postgres
    | .session => springChoice
    | .UTC | .expr _ => utcChoice
  clickhouse
    | .session => springChoice
    | .UTC | .expr _ => utcChoice
  utc := fun _ => rfl
  column := fun _ => column

/-- `timezone('UTC', t)`. -/
def inUTC : Expr Unit Unit .TIMESTAMPOID .TIMESTAMPOID :=
  .F_TIMEZONE_TEXT_TIMESTAMPTZ .TIMESTAMPTZOID () (.Var .TIMESTAMPTZOID ())

theorem date_times_denote_spring :
    (∃ value, (springWorld 7200000000).remote (deparseExpr inUTC) = some value ∧
      (springWorld 7200000000).Denotes .TIMESTAMPOID .TIMESTAMPOID 7200000000 value) ∧
    ∃ i, (springWorld 7200000000).remote (epochArg inUTC) = some (.instant i) ∧
      ((toUnixTimestamp (fun _ => 0) i).toNat : ℚ) = 7200 := by
  have there : springZone.Exists 7200000000 := ⟨3600000000, rfl⟩
  have results := date_times_denote (springWorld 7200000000)
  refine ⟨results.1 inUTC ⟨trivial, Or.inr there⟩, ?_⟩
  obtain ⟨i, value, same⟩ := results.2 inUTC (fun _ => 0) ⟨trivial, Or.inl ⟨rfl, rfl⟩⟩
    (fun date => absurd date (by decide)) rfl (by decide) (by decide)
  refine ⟨i, value, same.trans ?_⟩
  show ((7200000000 : ℤ) : ℚ) / 1000000 = 7200
  norm_num

/-- Half past midnight in UTC is not there in the session. -/
theorem skipped_wall_clock :
    (springWorld 1800000000).eval inUTC = 1800000000 ∧
      (springWorld 1800000000).remote (deparseExpr inUTC) = some (.instant (-1800000000)) ∧
      (springWorld 1800000000).sessionWall (-1800000000) = -1800000000 ∧
      ¬ (springWorld 1800000000).Denotes .TIMESTAMPOID .TIMESTAMPOID 1800000000
          (.instant (-1800000000)) := by
  refine ⟨rfl, rfl, rfl, ?_⟩
  intro denotes
  exact absurd (wall_of_denotes denotes) (by decide)

end PgClickhouse.DateTimes

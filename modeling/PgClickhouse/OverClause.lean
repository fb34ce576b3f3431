import Mathlib.Data.List.Basic
import PgClickhouse.Frames
import PgClickhouse.Sorting

/-!
# The OVER clause

`deparseWindowFunc` rebuilds the clause of a window function from the bits of its window, and
`foreign_window_ok` has only walked the target list.  The target list holds the keys of the
windows but not the offsets of their frames.  ClickHouse reads the clause and selects frames
as PostgreSQL does; it has no `EXCLUDE`, and it does not accept every frame.
-/

namespace PgClickhouse.OverClause

open Frames Sorting

abbrev Oid := Nat

/-! ## Expressions and the walker -/

/-- Of the nodes other than window functions only the arguments are told. -/
inductive Expr (N : Type)
  | WindowFunc (winfnoid : Oid) (winref : Nat) (aggfilter : Bool) (args : List (Expr N))
  | node (tag : N) (args : List (Expr N))

variable {N : Type}

/-- What the walker asks about functions and about other nodes. -/
structure Walker (N : Type) where
  chfdw_is_shippable : Oid → Bool
  checks : N → Bool
  is_foreign_param : Expr N → Bool

mutual

/-- In an upper relation. -/
def foreign_expr_walker (walker : Walker N) : Expr N → Bool
  | .WindowFunc winfnoid _ aggfilter args =>
      walker.chfdw_is_shippable winfnoid && !aggfilter && walkList walker args
  | .node tag args => walker.checks tag && walkList walker args

def walkList (walker : Walker N) : List (Expr N) → Bool
  | [] => true
  | e :: es => foreign_expr_walker walker e && walkList walker es

end

mutual

def Expr.subterms : Expr N → List (Expr N)
  | .WindowFunc winfnoid winref aggfilter args =>
      .WindowFunc winfnoid winref aggfilter args :: subtermsList args
  | .node tag args => .node tag args :: subtermsList args

def subtermsList : List (Expr N) → List (Expr N)
  | [] => []
  | e :: es => e.subterms ++ subtermsList es

end

theorem walkList_iff (walker : Walker N) (es : List (Expr N)) :
    walkList walker es = true ↔ ∀ e ∈ es, foreign_expr_walker walker e = true := by
  induction es with
  | nil => simp [walkList]
  | cons e es ih => rw [walkList, Bool.and_eq_true, ih, List.forall_mem_cons]

mutual

/-- What is inside of an accepted expression is accepted. -/
theorem walker_subterms (walker : Walker N) : ∀ {e s : Expr N},
    foreign_expr_walker walker e = true → s ∈ e.subterms → foreign_expr_walker walker s = true
  | .WindowFunc winfnoid winref aggfilter args, s, accepted, inside => by
      rcases List.mem_cons.mp inside with rfl | inside
      · exact accepted
      · rw [foreign_expr_walker, Bool.and_eq_true] at accepted
        exact walkList_subterms walker accepted.2 inside
  | .node tag args, s, accepted, inside => by
      rcases List.mem_cons.mp inside with rfl | inside
      · exact accepted
      · rw [foreign_expr_walker, Bool.and_eq_true] at accepted
        exact walkList_subterms walker accepted.2 inside

theorem walkList_subterms (walker : Walker N) : ∀ {es : List (Expr N)} {s : Expr N},
    walkList walker es = true → s ∈ subtermsList es → foreign_expr_walker walker s = true
  | e :: es, s, accepted, inside => by
      rw [walkList, Bool.and_eq_true] at accepted
      rcases List.mem_append.mp inside with inside | inside
      · exact walker_subterms walker accepted.1 inside
      · exact walkList_subterms walker accepted.2 inside

end

/-! ## Windows -/

structure SortGroupClause where
  tleSortGroupRef : Nat
  eqop : Oid
  sortop : Oid
  nulls_first : Bool
  deriving Repr, DecidableEq

structure TargetEntry (N : Type) where
  expr : Expr N
  ressortgroupref : Nat

structure WindowClause (N : Type) where
  partitionClause : List SortGroupClause
  orderClause : List SortGroupClause
  frameOptions : Nat
  startOffset : Option (Expr N)
  endOffset : Option (Expr N)

def FRAMEOPTION_NONDEFAULT := 0x00001
def FRAMEOPTION_RANGE := 0x00002
def FRAMEOPTION_ROWS := 0x00004
def FRAMEOPTION_GROUPS := 0x00008
def FRAMEOPTION_BETWEEN := 0x00010
def FRAMEOPTION_START_UNBOUNDED_PRECEDING := 0x00020
def FRAMEOPTION_END_UNBOUNDED_FOLLOWING := 0x00100
def FRAMEOPTION_START_CURRENT_ROW := 0x00200
def FRAMEOPTION_END_CURRENT_ROW := 0x00400
def FRAMEOPTION_START_OFFSET_PRECEDING := 0x00800
def FRAMEOPTION_END_OFFSET_PRECEDING := 0x01000
def FRAMEOPTION_START_OFFSET_FOLLOWING := 0x02000
def FRAMEOPTION_END_OFFSET_FOLLOWING := 0x04000
def FRAMEOPTION_EXCLUDE_CURRENT_ROW := 0x08000
def FRAMEOPTION_EXCLUDE_GROUP := 0x10000
def FRAMEOPTION_EXCLUDE_TIES := 0x20000

def FRAMEOPTION_DEFAULTS :=
  FRAMEOPTION_RANGE ||| FRAMEOPTION_START_UNBOUNDED_PRECEDING ||| FRAMEOPTION_END_CURRENT_ROW

/-- The pairs of bounds that the grammar accepts. -/
def allowed {O : Type} : (start finish : Bound O) → Bool
  | .CURRENT_ROW, .PRECEDING _ | .FOLLOWING _, .PRECEDING _ | .FOLLOWING _, .CURRENT_ROW => false
  | _, _ => true

/-- A frame clause that the grammar accepts, written with `BETWEEN` or with one bound. -/
structure FrameClause (N : Type) where
  frame : Frame (Expr N)
  between : Bool
  oneBound : between = false → frame.finish = .CURRENT_ROW
  bounds : allowed frame.start frame.finish = true

section Options

def modeOption : Mode → Nat
  | .RANGE => FRAMEOPTION_RANGE
  | .ROWS => FRAMEOPTION_ROWS
  | .GROUPS => FRAMEOPTION_GROUPS

def startOption : Bound (Expr N) → Nat
  | .UNBOUNDED => FRAMEOPTION_START_UNBOUNDED_PRECEDING
  | .CURRENT_ROW => FRAMEOPTION_START_CURRENT_ROW
  | .PRECEDING _ => FRAMEOPTION_START_OFFSET_PRECEDING
  | .FOLLOWING _ => FRAMEOPTION_START_OFFSET_FOLLOWING

def endOption : Bound (Expr N) → Nat
  | .UNBOUNDED => FRAMEOPTION_END_UNBOUNDED_FOLLOWING
  | .CURRENT_ROW => FRAMEOPTION_END_CURRENT_ROW
  | .PRECEDING _ => FRAMEOPTION_END_OFFSET_PRECEDING
  | .FOLLOWING _ => FRAMEOPTION_END_OFFSET_FOLLOWING

def exclusionOption : Exclusion → Nat
  | .NO_OTHERS => 0
  | .CURRENT_ROW => FRAMEOPTION_EXCLUDE_CURRENT_ROW
  | .GROUP => FRAMEOPTION_EXCLUDE_GROUP
  | .TIES => FRAMEOPTION_EXCLUDE_TIES

def betweenOption (between : Bool) : Nat := if between then FRAMEOPTION_BETWEEN else 0

/-- The bits the parser sets. -/
def frameOptions : Option (FrameClause N) → Nat
  | none => FRAMEOPTION_DEFAULTS
  | some clause =>
      FRAMEOPTION_NONDEFAULT ||| modeOption clause.frame.mode ||| betweenOption clause.between |||
        startOption clause.frame.start ||| endOption clause.frame.finish |||
        exclusionOption clause.frame.exclusion

def Bound.offset {O : Type} : Bound O → Option O
  | .UNBOUNDED | .CURRENT_ROW => none
  | .PRECEDING offset | .FOLLOWING offset => some offset

end Options

/-- A window as it is written. -/
structure Window (N : Type) where
  partitionClause : List SortGroupClause
  orderClause : List SortGroupClause
  frameClause : Option (FrameClause N)

/-- The frame of a window. -/
def Window.frame (window : Window N) : Frame (Expr N) :=
  match window.frameClause with
  | none => .default
  | some clause => clause.frame

/-- The window as the parser delivers it. -/
def Window.clause (window : Window N) : WindowClause N where
  partitionClause := window.partitionClause
  orderClause := window.orderClause
  frameOptions := frameOptions window.frameClause
  startOffset := window.frameClause.bind fun clause => Bound.offset clause.frame.start
  endOffset := window.frameClause.bind fun clause => Bound.offset clause.frame.finish

/-! ## Emission -/

structure OrderItem (N : Type) where
  expr : Expr N
  asc : Bool
  nulls_first : Bool

/-- A bound as it is printed, with its side. -/
inductive PrintedBound (N : Type)
  | UNBOUNDED_PRECEDING
  | UNBOUNDED_FOLLOWING
  | CURRENT_ROW
  | PRECEDING (offset : Option (Expr N))
  | FOLLOWING (offset : Option (Expr N))

/-- `units` and the bounds are `none` where nothing is printed; `finish` is `none` also
without `BETWEEN`. -/
structure PrintedFrame (N : Type) where
  units : Option Mode
  between : Bool
  start : Option (PrintedBound N)
  finish : Option (PrintedBound N)

/-- A call with its OVER clause. -/
structure Call (N : Type) where
  funcname : Oid
  args : List (Expr N)
  partitionBy : List (Expr N)
  orderBy : List (OrderItem N)
  frame : Option (PrintedFrame N)

def F_ROW_NUMBER : Oid := 3100
def F_RANK_ : Oid := 3101
def F_DENSE_RANK_ : Oid := 3102
def F_PERCENT_RANK_ : Oid := 3103
def F_CUME_DIST_ : Oid := 3104
def F_NTILE : Oid := 3105

/-- The functions without a frame clause. -/
def ranking : List Oid :=
  [F_ROW_NUMBER, F_RANK_, F_DENSE_RANK_, F_NTILE, F_CUME_DIST_, F_PERCENT_RANK_]

def has (frameOptions option : Nat) : Bool := frameOptions &&& option != 0

def printedStart (wc : WindowClause N) : Option (PrintedBound N) :=
  if has wc.frameOptions FRAMEOPTION_START_UNBOUNDED_PRECEDING then some .UNBOUNDED_PRECEDING
  else if has wc.frameOptions FRAMEOPTION_START_CURRENT_ROW then some .CURRENT_ROW
  else if has wc.frameOptions FRAMEOPTION_START_OFFSET_PRECEDING then
    some (.PRECEDING wc.startOffset)
  else if has wc.frameOptions FRAMEOPTION_START_OFFSET_FOLLOWING then
    some (.FOLLOWING wc.startOffset)
  else none

def printedEnd (wc : WindowClause N) : Option (PrintedBound N) :=
  if has wc.frameOptions FRAMEOPTION_END_UNBOUNDED_FOLLOWING then some .UNBOUNDED_FOLLOWING
  else if has wc.frameOptions FRAMEOPTION_END_CURRENT_ROW then some .CURRENT_ROW
  else if has wc.frameOptions FRAMEOPTION_END_OFFSET_PRECEDING then
    some (.PRECEDING wc.endOffset)
  else if has wc.frameOptions FRAMEOPTION_END_OFFSET_FOLLOWING then
    some (.FOLLOWING wc.endOffset)
  else none

def printedUnits (wc : WindowClause N) : Option Mode :=
  if has wc.frameOptions FRAMEOPTION_ROWS then some .ROWS
  else if has wc.frameOptions FRAMEOPTION_RANGE then some .RANGE
  else if has wc.frameOptions FRAMEOPTION_GROUPS then some .GROUPS
  else none

/-- The frame clause of a function. -/
def printedFrame (winfnoid : Oid) (wc : WindowClause N) : Option (PrintedFrame N) :=
  if winfnoid ∉ ranking ∧ wc.frameOptions ≠ FRAMEOPTION_DEFAULTS ||| FRAMEOPTION_NONDEFAULT ∧
      has wc.frameOptions FRAMEOPTION_NONDEFAULT = true then
    some (if has wc.frameOptions FRAMEOPTION_BETWEEN then
      ⟨printedUnits wc, true, printedStart wc, printedEnd wc⟩
    else ⟨printedUnits wc, false, printedStart wc, none⟩)
  else none

def get_sortgroupref_tle (tleSortGroupRef : Nat) (targetList : List (TargetEntry N)) :
    Option (TargetEntry N) :=
  targetList.find? fun tle => tle.ressortgroupref == tleSortGroupRef

/-- `gt_opr` is the `>` of the type of an expression. -/
def orderItem (gt_opr : Expr N → Oid) (sgc : SortGroupClause) (tle : TargetEntry N) : OrderItem N :=
  ⟨tle.expr, sgc.sortop != gt_opr tle.expr, sgc.nulls_first⟩

/-- `none` where PostgreSQL raises an error. -/
def deparseWindowFunc (gt_opr : Expr N → Oid) (targetList : List (TargetEntry N))
    (windowClause : List (WindowClause N)) (winfnoid : Oid) (winref : Nat)
    (args : List (Expr N)) : Option (Call N) := do
  let wc ← windowClause[winref - 1]?
  let partitionBy ← wc.partitionClause.mapM fun sgc =>
    (get_sortgroupref_tle sgc.tleSortGroupRef targetList).map TargetEntry.expr
  let orderBy ← wc.orderClause.mapM fun sgc =>
    (get_sortgroupref_tle sgc.tleSortGroupRef targetList).map (orderItem gt_opr sgc)
  pure ⟨winfnoid, args, partitionBy, orderBy, printedFrame winfnoid wc⟩

def PrintedBound.offset : PrintedBound N → Option (Expr N)
  | .PRECEDING offset | .FOLLOWING offset => offset
  | _ => none

/-- The offsets that are printed. -/
def PrintedFrame.offsets (frame : PrintedFrame N) : List (Expr N) :=
  (frame.start.bind PrintedBound.offset).toList ++ (frame.finish.bind PrintedBound.offset).toList

/-- All expressions that are printed. -/
def Call.exprs (call : Call N) : List (Expr N) :=
  call.args ++ call.partitionBy ++ call.orderBy.map OrderItem.expr ++
    call.frame.elim [] PrintedFrame.offsets

/-! ## Reading the clause -/

def PrintedBound.readStart : PrintedBound N → Option (Bound (Expr N))
  | .UNBOUNDED_PRECEDING => some .UNBOUNDED
  | .UNBOUNDED_FOLLOWING => none
  | .CURRENT_ROW => some .CURRENT_ROW
  | .PRECEDING offset => offset.map .PRECEDING
  | .FOLLOWING offset => offset.map .FOLLOWING

def PrintedBound.readEnd : PrintedBound N → Option (Bound (Expr N))
  | .UNBOUNDED_PRECEDING => none
  | .UNBOUNDED_FOLLOWING => some .UNBOUNDED
  | .CURRENT_ROW => some .CURRENT_ROW
  | .PRECEDING offset => offset.map .PRECEDING
  | .FOLLOWING offset => offset.map .FOLLOWING

/-- The frame ClickHouse reads; `none` is a syntax error. -/
def PrintedFrame.read (frame : PrintedFrame N) : Option (Frame (Expr N)) := do
  let mode ← frame.units
  let start ← (← frame.start).readStart
  let finish ← if frame.between then (← frame.finish).readEnd else some .CURRENT_ROW
  pure ⟨mode, start, finish, .NO_OTHERS⟩

def Call.readFrame (call : Call N) : Option (Frame (Expr N)) :=
  call.frame.elim (some .default) PrintedFrame.read

/-! ## The bits -/

theorem has_or (a b option : Nat) : has (a ||| b) option = (has a option || has b option) := by
  unfold has
  rw [Nat.and_or_distrib_right, Bool.eq_iff_iff]
  simp only [bne_iff_ne, ne_eq, Nat.or_eq_zero_iff, Bool.or_eq_true]
  omega

/-- A bit of another group of options is not set. -/
theorem has_outside {options group option : Nat} (inside : options &&& group = options)
    (outside : group &&& option = 0) : has options option = false := by
  unfold has
  rw [← inside, Nat.and_assoc, outside, Nat.and_zero]
  rfl

theorem outside_of_disjoint {group group' option : Nat} (inside : option &&& group' = option)
    (disjoint : group &&& group' = 0) : group &&& option = 0 := by
  rw [← inside, Nat.and_comm option, ← Nat.and_assoc, disjoint, Nat.zero_and]

def MODES := FRAMEOPTION_RANGE ||| FRAMEOPTION_ROWS ||| FRAMEOPTION_GROUPS

def STARTS :=
  FRAMEOPTION_START_UNBOUNDED_PRECEDING ||| FRAMEOPTION_START_CURRENT_ROW |||
    FRAMEOPTION_START_OFFSET_PRECEDING ||| FRAMEOPTION_START_OFFSET_FOLLOWING

def ENDS :=
  FRAMEOPTION_END_UNBOUNDED_FOLLOWING ||| FRAMEOPTION_END_CURRENT_ROW |||
    FRAMEOPTION_END_OFFSET_PRECEDING ||| FRAMEOPTION_END_OFFSET_FOLLOWING

def EXCLUSIONS :=
  FRAMEOPTION_EXCLUDE_CURRENT_ROW ||| FRAMEOPTION_EXCLUDE_GROUP ||| FRAMEOPTION_EXCLUDE_TIES

theorem nondefault_inside :
    FRAMEOPTION_NONDEFAULT &&& FRAMEOPTION_NONDEFAULT = FRAMEOPTION_NONDEFAULT := rfl

theorem modeOption_inside (mode : Mode) : modeOption mode &&& MODES = modeOption mode := by
  cases mode <;> rfl

theorem betweenOption_inside (between : Bool) :
    betweenOption between &&& FRAMEOPTION_BETWEEN = betweenOption between := by
  cases between <;> rfl

theorem startOption_inside (start : Bound (Expr N)) :
    startOption start &&& STARTS = startOption start := by
  cases start <;> simp only [startOption] <;> rfl

theorem endOption_inside (finish : Bound (Expr N)) :
    endOption finish &&& ENDS = endOption finish := by
  cases finish <;> simp only [endOption] <;> rfl

theorem exclusionOption_inside (exclusion : Exclusion) :
    exclusionOption exclusion &&& EXCLUSIONS = exclusionOption exclusion := by
  cases exclusion <;> rfl

section Clause

variable (clause : FrameClause N) {option : Nat}

theorem has_clause (option : Nat) :
    has (frameOptions (some clause)) option =
      (has FRAMEOPTION_NONDEFAULT option || has (modeOption clause.frame.mode) option ||
        has (betweenOption clause.between) option || has (startOption clause.frame.start) option ||
        has (endOption clause.frame.finish) option ||
        has (exclusionOption clause.frame.exclusion) option) := by
  simp only [frameOptions, has_or]

theorem has_nondefault : has (frameOptions (some clause)) FRAMEOPTION_NONDEFAULT = true := by
  have set : has FRAMEOPTION_NONDEFAULT FRAMEOPTION_NONDEFAULT = true := rfl
  rw [has_clause, set]
  simp only [Bool.true_or]

theorem has_mode (inside : option &&& MODES = option) :
    has (frameOptions (some clause)) option = has (modeOption clause.frame.mode) option := by
  rw [has_clause, has_outside nondefault_inside (outside_of_disjoint inside rfl),
    has_outside (betweenOption_inside _) (outside_of_disjoint inside rfl),
    has_outside (startOption_inside _) (outside_of_disjoint inside rfl),
    has_outside (endOption_inside _) (outside_of_disjoint inside rfl),
    has_outside (exclusionOption_inside _) (outside_of_disjoint inside rfl)]
  simp only [Bool.false_or, Bool.or_false]

theorem has_between : has (frameOptions (some clause)) FRAMEOPTION_BETWEEN = clause.between := by
  have inside : FRAMEOPTION_BETWEEN &&& FRAMEOPTION_BETWEEN = FRAMEOPTION_BETWEEN := rfl
  rw [has_clause, has_outside nondefault_inside (outside_of_disjoint inside rfl),
    has_outside (modeOption_inside _) (outside_of_disjoint inside rfl),
    has_outside (startOption_inside _) (outside_of_disjoint inside rfl),
    has_outside (endOption_inside _) (outside_of_disjoint inside rfl),
    has_outside (exclusionOption_inside _) (outside_of_disjoint inside rfl)]
  cases clause.between <;> rfl

theorem has_start (inside : option &&& STARTS = option) :
    has (frameOptions (some clause)) option = has (startOption clause.frame.start) option := by
  rw [has_clause, has_outside nondefault_inside (outside_of_disjoint inside rfl),
    has_outside (modeOption_inside _) (outside_of_disjoint inside rfl),
    has_outside (betweenOption_inside _) (outside_of_disjoint inside rfl),
    has_outside (endOption_inside _) (outside_of_disjoint inside rfl),
    has_outside (exclusionOption_inside _) (outside_of_disjoint inside rfl)]
  simp only [Bool.false_or, Bool.or_false]

theorem has_end (inside : option &&& ENDS = option) :
    has (frameOptions (some clause)) option = has (endOption clause.frame.finish) option := by
  rw [has_clause, has_outside nondefault_inside (outside_of_disjoint inside rfl),
    has_outside (modeOption_inside _) (outside_of_disjoint inside rfl),
    has_outside (betweenOption_inside _) (outside_of_disjoint inside rfl),
    has_outside (startOption_inside _) (outside_of_disjoint inside rfl),
    has_outside (exclusionOption_inside _) (outside_of_disjoint inside rfl)]
  simp only [Bool.false_or, Bool.or_false]

theorem has_exclusion (inside : option &&& EXCLUSIONS = option) :
    has (frameOptions (some clause)) option =
      has (exclusionOption clause.frame.exclusion) option := by
  rw [has_clause, has_outside nondefault_inside (outside_of_disjoint inside rfl),
    has_outside (modeOption_inside _) (outside_of_disjoint inside rfl),
    has_outside (betweenOption_inside _) (outside_of_disjoint inside rfl),
    has_outside (startOption_inside _) (outside_of_disjoint inside rfl),
    has_outside (endOption_inside _) (outside_of_disjoint inside rfl)]
  simp only [Bool.false_or]

/-- Only the default frame, spelled out, has the bits of the default. -/
theorem frame_of_default
    (bits : frameOptions (some clause) = FRAMEOPTION_DEFAULTS ||| FRAMEOPTION_NONDEFAULT) :
    clause.frame = .default := by
  have mode := has_mode clause (rfl : FRAMEOPTION_RANGE &&& MODES = _)
  have start := has_start clause (rfl : FRAMEOPTION_START_UNBOUNDED_PRECEDING &&& STARTS = _)
  have finish := has_end clause (rfl : FRAMEOPTION_END_CURRENT_ROW &&& ENDS = _)
  have current := has_exclusion clause (rfl : FRAMEOPTION_EXCLUDE_CURRENT_ROW &&& EXCLUSIONS = _)
  have group := has_exclusion clause (rfl : FRAMEOPTION_EXCLUDE_GROUP &&& EXCLUSIONS = _)
  have ties := has_exclusion clause (rfl : FRAMEOPTION_EXCLUDE_TIES &&& EXCLUSIONS = _)
  rw [bits] at mode start finish current group ties
  obtain ⟨⟨m, s, f, e⟩, between, oneBound, bounds⟩ := clause
  simp only at mode start finish current group ties
  obtain rfl : m = .RANGE := by
    cases m with
    | RANGE => rfl
    | ROWS | GROUPS => exact absurd mode (by decide)
  obtain rfl : s = .UNBOUNDED := by
    cases s with
    | UNBOUNDED => rfl
    | CURRENT_ROW | PRECEDING | FOLLOWING =>
        simp only [startOption] at start
        exact absurd start (by decide)
  obtain rfl : f = .CURRENT_ROW := by
    cases f with
    | CURRENT_ROW => rfl
    | UNBOUNDED | PRECEDING | FOLLOWING =>
        simp only [endOption] at finish
        exact absurd finish (by decide)
  obtain rfl : e = .NO_OTHERS := by
    cases e with
    | NO_OTHERS => rfl
    | CURRENT_ROW => exact absurd current (by decide)
    | GROUP => exact absurd group (by decide)
    | TIES => exact absurd ties (by decide)
  rfl

variable {window : Window N} {clause} (written : window.frameClause = some clause)
include written

theorem frameOptions_clause : window.clause.frameOptions = frameOptions (some clause) := by
  rw [Window.clause, written]

theorem printedUnits_clause : printedUnits window.clause = some clause.frame.mode := by
  unfold printedUnits
  rw [frameOptions_clause written, has_mode clause rfl, has_mode clause rfl, has_mode clause rfl]
  cases clause.frame.mode <;> rfl

theorem printedStart_clause :
    (printedStart window.clause).bind PrintedBound.readStart = some clause.frame.start := by
  have offset : window.clause.startOffset = Bound.offset clause.frame.start := by
    rw [Window.clause, written]
    rfl
  unfold printedStart
  rw [frameOptions_clause written, has_start clause rfl, has_start clause rfl,
    has_start clause rfl, has_start clause rfl, offset]
  cases clause.frame.start <;>
    simp [startOption, has, FRAMEOPTION_START_UNBOUNDED_PRECEDING, FRAMEOPTION_START_CURRENT_ROW,
      FRAMEOPTION_START_OFFSET_PRECEDING, FRAMEOPTION_START_OFFSET_FOLLOWING, Bound.offset,
      PrintedBound.readStart]

theorem printedEnd_clause :
    (printedEnd window.clause).bind PrintedBound.readEnd = some clause.frame.finish := by
  have offset : window.clause.endOffset = Bound.offset clause.frame.finish := by
    rw [Window.clause, written]
    rfl
  unfold printedEnd
  rw [frameOptions_clause written, has_end clause rfl, has_end clause rfl, has_end clause rfl,
    has_end clause rfl, offset]
  cases clause.frame.finish <;>
    simp [endOption, has, FRAMEOPTION_END_UNBOUNDED_FOLLOWING, FRAMEOPTION_END_CURRENT_ROW,
      FRAMEOPTION_END_OFFSET_PRECEDING, FRAMEOPTION_END_OFFSET_FOLLOWING, Bound.offset,
      PrintedBound.readEnd]

end Clause

theorem offset_of_readStart {printed : PrintedBound N} {start : Bound (Expr N)}
    (read : printed.readStart = some start) : printed.offset = Bound.offset start := by
  cases printed with
  | UNBOUNDED_PRECEDING | CURRENT_ROW =>
      cases read
      rfl
  | UNBOUNDED_FOLLOWING => cases read
  | PRECEDING offset | FOLLOWING offset =>
      obtain ⟨here, rfl, rfl⟩ := Option.map_eq_some_iff.mp read
      rfl

theorem offset_of_readEnd {printed : PrintedBound N} {finish : Bound (Expr N)}
    (read : printed.readEnd = some finish) : printed.offset = Bound.offset finish := by
  cases printed with
  | UNBOUNDED_FOLLOWING | CURRENT_ROW =>
      cases read
      rfl
  | UNBOUNDED_PRECEDING => cases read
  | PRECEDING offset | FOLLOWING offset =>
      obtain ⟨here, rfl, rfl⟩ := Option.map_eq_some_iff.mp read
      rfl

/-- A function that may have a frame clause gets the bounds of its window, with their offsets,
and nothing is excluded. -/
theorem printedFrame_spec (window : Window N) {winfnoid : Oid} (framed : winfnoid ∉ ranking) :
    printedFrame winfnoid window.clause = none ∧ window.frame = .default ∨
      ∃ printed, printedFrame winfnoid window.clause = some printed ∧
        printed.read = some window.frame.whole ∧
        printed.offsets = (Bound.offset window.frame.start).toList ++
          (Bound.offset window.frame.finish).toList := by
  cases written : window.frameClause with
  | none =>
      left
      have bits : window.clause.frameOptions = FRAMEOPTION_DEFAULTS := by
        rw [Window.clause, written]
        rfl
      have unset : has FRAMEOPTION_DEFAULTS FRAMEOPTION_NONDEFAULT = false := rfl
      unfold printedFrame Window.frame
      rw [if_neg (by rw [bits, unset]; simp), written]
      exact ⟨rfl, rfl⟩
  | some clause =>
      have here : window.frame = clause.frame := by
        rw [Window.frame, written]
      have units := printedUnits_clause written
      have start := printedStart_clause written
      have finish := printedEnd_clause written
      unfold printedFrame
      rw [here, frameOptions_clause written, has_nondefault, has_between]
      by_cases default :
          frameOptions (some clause) = FRAMEOPTION_DEFAULTS ||| FRAMEOPTION_NONDEFAULT
      · left
        exact ⟨if_neg (by simp [default]), frame_of_default clause default⟩
      · right
        rw [if_pos ⟨framed, default, rfl⟩]
        obtain ⟨printed, hasStart, readStart⟩ := Option.bind_eq_some_iff.mp start
        obtain ⟨printed', hasEnd, readEnd⟩ := Option.bind_eq_some_iff.mp finish
        have startOffset := offset_of_readStart readStart
        have endOffset := offset_of_readEnd readEnd
        refine ⟨_, rfl, ?_⟩
        cases between : clause.between with
        | true =>
            simp [PrintedFrame.read, PrintedFrame.offsets, units, hasStart, readStart, hasEnd,
              readEnd, startOffset, endOffset, Frame.whole]
        | false =>
            have oneBound := clause.oneBound between
            simp [PrintedFrame.read, PrintedFrame.offsets, units, hasStart, readStart, startOffset,
              oneBound, Frame.whole, Bound.offset]

theorem printedFrame_ranking {winfnoid : Oid} (unframed : winfnoid ∈ ranking)
    (wc : WindowClause N) : printedFrame winfnoid wc = none := by
  unfold printedFrame
  rw [if_neg]
  intro printed
  exact printed.1 unframed

/-! ## A query that is pushed down -/

/-- The planner puts every key of a window into the target of the windows. -/
structure PlannedQuery (N : Type) where
  targetList : List (TargetEntry N)
  windows : List (Window N)
  window_target : List (Expr N)
  kept : ∀ tle ∈ targetList, tle.ressortgroupref ≠ 0 → tle.expr ∈ window_target
  keyed : ∀ window ∈ windows, ∀ sgc ∈ window.partitionClause ++ window.orderClause,
    sgc.tleSortGroupRef ≠ 0 ∧ ∃ tle ∈ targetList, tle.ressortgroupref = sgc.tleSortGroupRef

/-- `local_conds` says that a condition is left to check here. -/
def foreign_window_ok (walker : Walker N) (local_conds : Bool) (query : PlannedQuery N) : Bool :=
  !local_conds && query.window_target.all fun expr =>
    foreign_expr_walker walker expr && !walker.is_foreign_param expr

/-- The keys of a window with their expressions. -/
def keys (targetList : List (TargetEntry N)) (sgcs : List SortGroupClause) :
    List (SortGroupClause × TargetEntry N) :=
  sgcs.filterMap fun sgc =>
    (get_sortgroupref_tle sgc.tleSortGroupRef targetList).map fun tle => (sgc, tle)

theorem mapM_keys {A : Type} (f : SortGroupClause → TargetEntry N → A)
    {targetList : List (TargetEntry N)} {sgcs : List SortGroupClause}
    (found : ∀ sgc ∈ sgcs, ∃ tle ∈ targetList, tle.ressortgroupref = sgc.tleSortGroupRef) :
    (sgcs.mapM fun sgc => (get_sortgroupref_tle sgc.tleSortGroupRef targetList).map (f sgc)) =
      some ((keys targetList sgcs).map fun key => f key.1 key.2) := by
  induction sgcs with
  | nil => rfl
  | cons sgc sgcs ih =>
      obtain ⟨tle, member, ref⟩ := found sgc List.mem_cons_self
      have isSome : (get_sortgroupref_tle sgc.tleSortGroupRef targetList).isSome = true :=
        List.find?_isSome.mpr ⟨tle, member, beq_iff_eq.mpr ref⟩
      obtain ⟨first, here⟩ := Option.isSome_iff_exists.mp isSome
      have later := ih fun sgc member => found sgc (List.mem_cons_of_mem _ member)
      have expanded : keys targetList (sgc :: sgcs) = (sgc, first) :: keys targetList sgcs := by
        apply List.filterMap_cons_some
        rw [here]
        rfl
      rw [List.mapM_cons, later, here, expanded]
      rfl

theorem mem_keys {targetList : List (TargetEntry N)} {sgcs : List SortGroupClause}
    {key : SortGroupClause × TargetEntry N} (member : key ∈ keys targetList sgcs) :
    key.1 ∈ sgcs ∧ key.2 ∈ targetList ∧ key.2.ressortgroupref = key.1.tleSortGroupRef := by
  obtain ⟨sgc, here, found⟩ := List.mem_filterMap.mp member
  obtain ⟨tle, first, rfl⟩ := Option.map_eq_some_iff.mp found
  have ref := List.find?_some first
  exact ⟨here, List.mem_of_find?_eq_some first, beq_iff_eq.mp ref⟩

/-! ## The two selections -/

/-- The values of the keys, and how the two sides compare them.  `none` is NULL; `sorts` is the
order of a sort operator, `gt_opr` the operator `>` of the type of an expression. -/
structure Values (N Row V : Type) where
  value : Expr N → Row → Option V
  gt_opr : Expr N → Oid
  equals : Oid → Expr N → V → V → Bool
  sorts : Oid → Expr N → V → V → Ordering
  remoteEquals : Expr N → Option V → Option V → Bool
  remoteSorts : (asc nulls_first : Bool) → Expr N → Option V → Option V → Ordering

section Selections

variable {Row V : Type} (values : Values N Row V)

/-- Two NULLs are in one partition. -/
def keyEquals (key : SortGroupClause × TargetEntry N) : Option V → Option V → Bool
  | none, none => true
  | some x, some y => values.equals key.1.eqop key.2.expr x y
  | _, _ => false

def keySorts (key : SortGroupClause × TargetEntry N) : Option V → Option V → Ordering :=
  placed key.1.nulls_first (values.sorts key.1.sortop key.2.expr)

def samePartition (partitionKeys : List (SortGroupClause × TargetEntry N)) (a b : Row) : Bool :=
  partitionKeys.all fun key =>
    keyEquals values key (values.value key.2.expr a) (values.value key.2.expr b)

def order (orderKeys : List (SortGroupClause × TargetEntry N)) : Row → Row → Ordering :=
  lexicographic (orderKeys.map fun key =>
    compareBy (values.value key.2.expr) (keySorts values key))

def Call.samePartition (call : Call N) (a b : Row) : Bool :=
  call.partitionBy.all fun expr =>
    values.remoteEquals expr (values.value expr a) (values.value expr b)

def Call.order (call : Call N) : Row → Row → Ordering :=
  lexicographic (call.orderBy.map fun item =>
    compareBy (values.value item.expr) (values.remoteSorts item.asc item.nulls_first item.expr))

/-- The frame of a row in ClickHouse, if it accepts the frame. -/
def Call.select (call : Call N) (accepts : Frame (Expr N) → Bool)
    (offsets : Offsets Row (Expr N)) (arranged : List Row) (i : Nat) : Option (List Nat) := do
  let frame ← call.readFrame
  if accepts frame then some (frame.select offsets (call.order values) arranged i) else none

/-- The partition of a row, in the order of its window. -/
structure Arranged (same : Row → Row → Bool) (cmp : Row → Row → Ordering) (rows : List Row)
    (r : Row) (arranged : List Row) : Prop where
  perm : arranged.Perm (rows.filter (same r))
  sorted : Sorted cmp arranged

end Selections

/-- These look at the partition and not at a frame: `lag` and `lead`. -/
def offsetFunctions : List Oid := [3106, 3107, 3108, 3109, 3110, 3111]

def looksAtFrame (winfnoid : Oid) : Prop := winfnoid ∉ ranking ∧ winfnoid ∉ offsetFunctions

section Main

variable {Row V : Type} (values : Values N Row V) (query : PlannedQuery N) (window : Window N)
  (rows : List Row)

/-- Each key of a window is compared alike on the two sides: the partition keys by their
equality, the order keys by their sort operators, of which only `>` is printed as `DESC`. -/
structure KeysAgree : Prop where
  partition : ∀ key ∈ keys query.targetList window.partitionClause, ∀ a ∈ rows, ∀ b ∈ rows,
    keyEquals values key (values.value key.2.expr a) (values.value key.2.expr b) =
      values.remoteEquals key.2.expr (values.value key.2.expr a) (values.value key.2.expr b)
  order : ∀ key ∈ keys query.targetList window.orderClause, ∀ a ∈ rows, ∀ b ∈ rows,
    keySorts values key (values.value key.2.expr a) (values.value key.2.expr b) =
      values.remoteSorts (key.1.sortop != values.gt_opr key.2.expr) key.1.nulls_first key.2.expr
        (values.value key.2.expr a) (values.value key.2.expr b)

/-- Every row gets its frame: however its partition is arranged for PostgreSQL, it is so
arranged for ClickHouse, and the frames select the same rows. -/
def SelectsAlike (call : Call N) (accepts : Frame (Expr N) → Bool)
    (offsets : Offsets Row (Expr N)) : Prop :=
  ∀ r ∈ rows, ∀ arranged,
    Arranged (samePartition values (keys query.targetList window.partitionClause))
        (order values (keys query.targetList window.orderClause)) rows r arranged →
      Arranged (call.samePartition values) (call.order values) rows r arranged ∧
        ∀ i < arranged.length, call.select values accepts offsets arranged i =
          some (window.frame.select offsets
            (order values (keys query.targetList window.orderClause)) arranged i)

/-- ClickHouse accepts the bounds, and no row that is excluded is between them. -/
def NothingExcluded (accepts : Frame (Expr N) → Bool) (offsets : Offsets Row (Expr N)) : Prop :=
  ∀ r ∈ rows, ∀ arranged,
    Arranged (samePartition values (keys query.targetList window.partitionClause))
        (order values (keys query.targetList window.orderClause)) rows r arranged →
      ∀ i < arranged.length, accepts window.frame.whole = true ∧
        ∀ j < arranged.length,
          inBounds offsets (order values (keys query.targetList window.orderClause)) arranged
              window.frame i j = true →
            excluded (order values (keys query.targetList window.orderClause)) arranged
              window.frame.exclusion i j = false

variable {values query window rows}

/-- The call that is printed in a planned query. -/
def printedCall (values : Values N Row V) (query : PlannedQuery N) (window : Window N)
    (winfnoid : Oid) (args : List (Expr N)) : Call N where
  funcname := winfnoid
  args := args
  partitionBy := (keys query.targetList window.partitionClause).map fun key => key.2.expr
  orderBy := (keys query.targetList window.orderClause).map fun key =>
    orderItem values.gt_opr key.1 key.2
  frame := printedFrame winfnoid window.clause

theorem deparseWindowFunc_planned (values : Values N Row V) (query : PlannedQuery N)
    {winref : Nat} (here : query.windows[winref - 1]? = some window) (winfnoid : Oid)
    (args : List (Expr N)) :
    deparseWindowFunc values.gt_opr query.targetList (query.windows.map Window.clause) winfnoid
      winref args = some (printedCall values query window winfnoid args) := by
  have keyed := query.keyed window (List.mem_of_getElem? here)
  have partition := mapM_keys (fun _ => TargetEntry.expr) fun sgc member =>
    (keyed sgc (List.mem_append_left window.orderClause member)).2
  have ordered := mapM_keys (orderItem values.gt_opr) fun sgc member =>
    (keyed sgc (List.mem_append_right window.partitionClause member)).2
  have clause : (query.windows.map Window.clause)[winref - 1]? = some window.clause := by
    rw [List.getElem?_map, here]
    rfl
  unfold deparseWindowFunc
  rw [clause]
  simp only [Option.bind_eq_bind, Option.bind_some, Window.clause]
  rw [partition, ordered]
  rfl

section Agreement

variable (agree : KeysAgree values query window rows) (winfnoid : Oid) (args : List (Expr N))
include agree

theorem samePartition_agree {a b : Row} (left : a ∈ rows) (right : b ∈ rows) :
    samePartition values (keys query.targetList window.partitionClause) a b =
      (printedCall values query window winfnoid args).samePartition values a b := by
  unfold samePartition Call.samePartition printedCall
  simp only
  rw [List.all_map, Bool.eq_iff_iff, List.all_eq_true, List.all_eq_true]
  apply forall₂_congr
  intro key member
  rw [agree.partition key member a left b right]
  rfl

theorem order_agree {a b : Row} (left : a ∈ rows) (right : b ∈ rows) :
    order values (keys query.targetList window.orderClause) a b =
      (printedCall values query window winfnoid args).order values a b := by
  have keysAgree := agree.order
  unfold order Call.order printedCall
  simp only
  generalize keys query.targetList window.orderClause = orderKeys at keysAgree
  induction orderKeys with
  | nil => rfl
  | cons key orderKeys ih =>
      have first := keysAgree key List.mem_cons_self a left b right
      have later := ih fun key member => keysAgree key (List.mem_cons_of_mem _ member)
      simp only [List.map_cons, lexicographic, compareLex, later, compareBy, first, orderItem]

/-- A partition is arranged here as it is there. -/
theorem arranged_agree {r : Row} (member : r ∈ rows) {arranged : List Row}
    (here : Arranged (samePartition values (keys query.targetList window.partitionClause))
      (order values (keys query.targetList window.orderClause)) rows r arranged) :
    (∀ a ∈ arranged, a ∈ rows) ∧
      Arranged ((printedCall values query window winfnoid args).samePartition values)
        ((printedCall values query window winfnoid args).order values) rows r arranged := by
  have inside : ∀ a ∈ arranged, a ∈ rows := by
    intro a has
    exact List.mem_of_mem_filter (here.perm.subset has)
  refine ⟨inside, ?_, ?_⟩
  · have same : rows.filter
        (samePartition values (keys query.targetList window.partitionClause) r) =
        rows.filter ((printedCall values query window winfnoid args).samePartition values r) := by
      apply List.filter_congr
      intro a has
      exact samePartition_agree agree winfnoid args member has
    rw [← same]
    exact here.perm
  · apply List.Pairwise.imp_of_mem ?_ here.sorted
    intro a b left right inOrder
    rw [← order_agree agree winfnoid args (inside a left) (inside b right)]
    exact inOrder

end Agreement

/-- The frames of the printed call are those of the window, up to the exclusion. -/
theorem selectsAlike_iff (agree : KeysAgree values query window rows) {winfnoid : Oid}
    (framed : winfnoid ∉ ranking) (args : List (Expr N)) (accepts : Frame (Expr N) → Bool)
    (offsets : Offsets Row (Expr N)) :
    SelectsAlike values query window rows (printedCall values query window winfnoid args) accepts
        offsets ↔
      NothingExcluded values query window rows accepts offsets := by
  have read : (printedCall values query window winfnoid args).readFrame =
      some window.frame.whole := by
    unfold Call.readFrame printedCall
    rcases printedFrame_spec window framed with ⟨unprinted, default⟩ | ⟨printed, here, read, _⟩
    · rw [unprinted, default]
      rfl
    · rw [here]
      exact read
  have selected (arranged : List Row) (i : Nat) :
      (printedCall values query window winfnoid args).select values accepts offsets arranged i =
        if accepts window.frame.whole then
          some (window.frame.whole.select offsets
            ((printedCall values query window winfnoid args).order values) arranged i)
        else none := by
    unfold Call.select
    rw [read]
    rfl
  unfold SelectsAlike NothingExcluded
  apply forall₂_congr
  intro r member
  apply forall₂_congr
  intro arranged here
  obtain ⟨inside, there⟩ := arranged_agree agree winfnoid args member here
  rw [and_iff_right there]
  apply forall₂_congr
  intro i _
  have same := Frame.select_congr offsets
    (fun a left b right => order_agree agree winfnoid args (inside a left) (inside b right))
    window.frame.whole i
  rw [selected, ← same, ← Frame.select_whole_iff]
  cases accepts window.frame.whole with
  | true => simp
  | false => simp

theorem walker_key {walker : Walker N} {local_conds : Bool}
    (ok : foreign_window_ok walker local_conds query = true)
    (member : window ∈ query.windows) {sgcs : List SortGroupClause}
    (among : sgcs ⊆ window.partitionClause ++ window.orderClause)
    {key : SortGroupClause × TargetEntry N} (isKey : key ∈ keys query.targetList sgcs) :
    foreign_expr_walker walker key.2.expr = true := by
  obtain ⟨sgc, tle, ref⟩ := mem_keys isKey
  have nonzero := (query.keyed window member key.1 (among sgc)).1
  rw [← ref] at nonzero
  have kept := query.kept key.2 tle nonzero
  unfold foreign_window_ok at ok
  rw [Bool.and_eq_true, List.all_eq_true] at ok
  have accepted := ok.2 key.2.expr kept
  rw [Bool.and_eq_true] at accepted
  exact accepted.1

end Main

/-! ## A sum without its row -/

/-- `sum(x) OVER (ORDER BY x ROWS BETWEEN 1 PRECEDING AND 1 FOLLOWING EXCLUDE CURRENT ROW)`;
the column is node 0 and the constant node 1. -/
def neighbours : Window Nat where
  partitionClause := []
  orderClause := [⟨1, 96, 97, false⟩]
  frameClause := some
    { frame := ⟨.ROWS, .PRECEDING (.node 1 []), .FOLLOWING (.node 1 []), .CURRENT_ROW⟩
      between := true
      oneBound := by
        intro single
        cases single
      bounds := rfl }

def sumOfNeighbours : Expr Nat := .WindowFunc 2108 1 false [.node 0 []]

def neighbourQuery : PlannedQuery Nat where
  targetList := [⟨sumOfNeighbours, 0⟩, ⟨.node 0 [], 1⟩]
  windows := [neighbours]
  window_target := [sumOfNeighbours, .node 0 []]
  kept := by simp
  keyed := by simp [neighbours]

def everything : Walker Nat := ⟨fun _ => true, fun _ => true, fun _ => false⟩

def integers : Values Nat Nat Nat where
  value := fun _ row => some row
  gt_opr := fun _ => 521
  equals := fun _ _ x y => x == y
  sorts := fun sortop _ => directed (sortop == 97) compare
  remoteEquals := fun _ x y => x == y
  remoteSorts := fun asc nulls_first _ => placed nulls_first (directed asc compare)

def ones : Offsets Nat (Expr Nat) := ⟨fun _ => 1, fun _ _ _ => true, fun _ _ _ => true⟩

def withoutGroups (frame : Frame (Expr Nat)) : Bool := frame.mode != .GROUPS

theorem neighbours_agree : KeysAgree integers neighbourQuery neighbours [1, 2, 3] where
  partition := by simp [neighbours, keys]
  order := by
    intro key member a _ b _
    obtain rfl := List.mem_singleton.mp member
    rfl

end PgClickhouse.OverClause

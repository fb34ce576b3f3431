import Mathlib.Data.List.Basic

/-!
# Window frames

A frame selects rows of a sorted partition for one of them, its current row: those between
two bounds that are not excluded.  Bounds count rows, or groups of peers, or are offsets of
the value that sorts the rows.  Rows are told by their positions.
-/

namespace Frames

inductive Mode
  | ROWS
  | RANGE
  | GROUPS
  deriving Repr, DecidableEq

/-- `UNBOUNDED` is the end of the partition on the side of the bound. -/
inductive Bound (O : Type)
  | UNBOUNDED
  | CURRENT_ROW
  | PRECEDING (offset : O)
  | FOLLOWING (offset : O)
  deriving Repr, DecidableEq

inductive Exclusion
  | NO_OTHERS
  | CURRENT_ROW
  | GROUP
  | TIES
  deriving Repr, DecidableEq

structure Frame (O : Type) where
  mode : Mode
  start : Bound O
  finish : Bound O
  exclusion : Exclusion
  deriving Repr, DecidableEq

/-- Without a frame clause. -/
def Frame.default {O : Type} : Frame O := ⟨.RANGE, .UNBOUNDED, .CURRENT_ROW, .NO_OTHERS⟩

/-- The same bounds with nothing excluded. -/
def Frame.whole {O : Type} (frame : Frame O) : Frame O := { frame with exclusion := .NO_OTHERS }

/-- What an offset counts, and for `RANGE` whether a row is not before, or not behind, the
current row moved by the offset. -/
structure Offsets (Row O : Type) where
  count : O → Nat
  notBefore : (bound : Bound O) → (row current : Row) → Bool
  notBehind : (bound : Bound O) → (row current : Row) → Bool

section Selection

variable {Row O : Type} (offsets : Offsets Row O) (cmp : Row → Row → Ordering)
  (rows : List Row)

/-- The order of the rows at two positions. -/
def compareAt (i j : Nat) : Ordering :=
  match rows[i]?, rows[j]? with
  | some a, some b => cmp a b
  | _, _ => .eq

/-- How many groups of peers are complete before a row. -/
def group (i : Nat) : Nat :=
  (List.range i).countP fun k => compareAt cmp rows k (k + 1) != .eq

/-- What a bound counts in `ROWS` and `GROUPS`. -/
def place (mode : Mode) (i : Nat) : Nat :=
  match mode with
  | .ROWS | .RANGE => i
  | .GROUPS => group cmp rows i

/-- Row `j` is not before the start of the frame of row `i`. -/
def starts (mode : Mode) (bound : Bound O) (i j : Nat) : Bool :=
  match mode, bound with
  | _, .UNBOUNDED => true
  | .ROWS, .CURRENT_ROW => decide (i ≤ j)
  | .RANGE, .CURRENT_ROW | .GROUPS, .CURRENT_ROW => compareAt cmp rows j i != .lt
  | .RANGE, bound => (rows[j]?).any fun row => (rows[i]?).any (offsets.notBefore bound row)
  | _, .PRECEDING offset =>
      decide (place cmp rows mode i ≤ place cmp rows mode j + offsets.count offset)
  | _, .FOLLOWING offset =>
      decide (place cmp rows mode i + offsets.count offset ≤ place cmp rows mode j)

/-- Row `j` is not behind the end of the frame of row `i`. -/
def finishes (mode : Mode) (bound : Bound O) (i j : Nat) : Bool :=
  match mode, bound with
  | _, .UNBOUNDED => true
  | .ROWS, .CURRENT_ROW => decide (j ≤ i)
  | .RANGE, .CURRENT_ROW | .GROUPS, .CURRENT_ROW => compareAt cmp rows j i != .gt
  | .RANGE, bound => (rows[j]?).any fun row => (rows[i]?).any (offsets.notBehind bound row)
  | _, .PRECEDING offset =>
      decide (place cmp rows mode j + offsets.count offset ≤ place cmp rows mode i)
  | _, .FOLLOWING offset =>
      decide (place cmp rows mode j ≤ place cmp rows mode i + offsets.count offset)

def inBounds (frame : Frame O) (i j : Nat) : Bool :=
  starts offsets cmp rows frame.mode frame.start i j &&
    finishes offsets cmp rows frame.mode frame.finish i j

/-- Row `j` is excluded from the frame of row `i`. -/
def excluded (exclusion : Exclusion) (i j : Nat) : Bool :=
  match exclusion with
  | .NO_OTHERS => false
  | .CURRENT_ROW => decide (j = i)
  | .GROUP => compareAt cmp rows j i == .eq
  | .TIES => compareAt cmp rows j i == .eq && decide (j ≠ i)

/-- The positions of the rows in the frame of row `i`. -/
def Frame.select (frame : Frame O) (i : Nat) : List Nat :=
  (List.range rows.length).filter fun j =>
    inBounds offsets cmp rows frame i j && !excluded cmp rows frame.exclusion i j

/-- Leaving out the exclusion changes nothing exactly if no row in the bounds is excluded. -/
theorem Frame.select_whole_iff (frame : Frame O) (i : Nat) :
    frame.whole.select offsets cmp rows i = frame.select offsets cmp rows i ↔
      ∀ j < rows.length, inBounds offsets cmp rows frame i j = true →
        excluded cmp rows frame.exclusion i j = false := by
  have bounds (j : Nat) : inBounds offsets cmp rows frame.whole i j =
      inBounds offsets cmp rows frame i j := rfl
  constructor
  · intro same j inside bounded
    have selected : j ∈ frame.whole.select offsets cmp rows i := by
      apply List.mem_filter.mpr
      refine ⟨List.mem_range.mpr inside, ?_⟩
      rw [bounds, bounded]
      rfl
    rw [same] at selected
    have kept := (List.mem_filter.mp selected).2
    rw [bounded, Bool.true_and, Bool.not_eq_true'] at kept
    exact kept
  · intro harmless
    apply List.filter_congr
    intro j inside
    rw [bounds]
    cases bounded : inBounds offsets cmp rows frame i j with
    | false => rfl
    | true =>
        rw [harmless j (List.mem_range.mp inside) bounded]
        rfl

end Selection

/-- Frames depend on the order of the rows in the partition alone. -/
theorem Frame.select_congr {Row O : Type} (offsets : Offsets Row O)
    {cmp cmp' : Row → Row → Ordering} {rows : List Row}
    (agree : ∀ a ∈ rows, ∀ b ∈ rows, cmp a b = cmp' a b) (frame : Frame O) (i : Nat) :
    frame.select offsets cmp rows i = frame.select offsets cmp' rows i := by
  have compared : compareAt cmp rows = compareAt cmp' rows := by
    funext j k
    unfold compareAt
    split
    · rename_i a b left right
      exact agree a (List.mem_of_getElem? left) b (List.mem_of_getElem? right)
    · rfl
  have grouped : group cmp rows = group cmp' rows := by
    unfold group
    rw [compared]
  have counted : place cmp rows = place cmp' rows := by
    funext mode j
    unfold place
    rw [grouped]
  unfold Frame.select inBounds starts finishes excluded
  rw [compared, counted]

end Frames

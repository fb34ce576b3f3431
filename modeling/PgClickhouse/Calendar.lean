import Mathlib.Data.Int.Basic
import Mathlib.Tactic.Common

/-!
# The calendar

Days are counted from 1 January 1970, and dates are those of the Gregorian calendar, also
before it was in use.  A week starts on Monday and is the first of a year if it has at least
four days of it; so it is the one with 4 January, and its year is that of its Thursday.
-/

namespace Calendar

/-! ## Years -/

def leap (y : ℤ) : Bool := y % 4 == 0 && (y % 100 != 0 || y % 400 == 0)

def yearLength (y : ℤ) : ℤ := if leap y then 366 else 365

/-- The number of 1 January. -/
def newYear (y : ℤ) : ℤ := 365 * (y - 1970) + (y - 1) / 4 - (y - 1) / 100 + (y - 1) / 400 - 477

theorem newYear_succ (y : ℤ) : newYear (y + 1) = newYear y + yearLength y := by
  unfold newYear yearLength leap
  cases fourth : y % 4 == 0 <;> cases hundredth : y % 100 != 0 <;>
    cases fourHundredth : y % 400 == 0 <;> simp at * <;> omega

theorem yearLength_bounds (y : ℤ) : 365 ≤ yearLength y ∧ yearLength y ≤ 366 := by
  unfold yearLength
  cases leap y <;> decide

/-- The mean length of a year gives the year or one next to it. -/
def guess (d : ℤ) : ℤ := (d + 719162) * 400 / 146097 + 1

def yearOf (d : ℤ) : ℤ :=
  if d < newYear (guess d) then guess d - 1
  else if d < newYear (guess d + 1) then guess d
  else guess d + 1

theorem yearOf_spec (d : ℤ) : newYear (yearOf d) ≤ d ∧ d < newYear (yearOf d + 1) := by
  have before : newYear (guess d - 1) ≤ d := by
    unfold newYear guess
    omega
  have behind : d < newYear (guess d + 2) := by
    unfold newYear guess
    omega
  unfold yearOf
  split
  · rename_i early
    have same : guess d - 1 + 1 = guess d := by omega
    rw [same]
    exact ⟨before, early⟩
  · rename_i notEarly
    split
    · rename_i notLate
      exact ⟨Int.not_lt.mp notEarly, notLate⟩
    · rename_i late
      have same : guess d + 1 + 1 = guess d + 2 := by omega
      rw [same]
      exact ⟨Int.not_lt.mp late, behind⟩

theorem newYear_le {x y : ℤ} (upTo : x ≤ y) : newYear x ≤ newYear y := by
  unfold newYear
  omega

/-- A day is in one year. -/
theorem yearOf_eq {d y : ℤ} (started : newYear y ≤ d) (later : d < newYear (y + 1)) :
    yearOf d = y := by
  obtain ⟨started', later'⟩ := yearOf_spec d
  rcases Int.lt_trichotomy (yearOf d) y with less | same | more
  · have ended := newYear_le (Int.add_one_le_of_lt less)
    omega
  · exact same
  · have ended := newYear_le (Int.add_one_le_of_lt more)
    omega

/-! ## Months -/

def monthLengths (y : ℤ) : List ℤ :=
  [31, if leap y then 29 else 28, 31, 30, 31, 30, 31, 31, 30, 31, 30, 31]

/-- The month in which a day of the year lies, and the day of the month, both from 0. -/
def inMonth : (lengths : List ℤ) → (day : ℤ) → ℤ × ℤ
  | [], day => (0, day)
  | length :: lengths, day =>
      if day < length then (0, day)
      else ((inMonth lengths (day - length)).1 + 1, (inMonth lengths (day - length)).2)

/-- From 1. -/
def dayOfYear (d : ℤ) : ℤ := d - newYear (yearOf d) + 1

def monthOf (d : ℤ) : ℤ := (inMonth (monthLengths (yearOf d)) (dayOfYear d - 1)).1 + 1

def dayOfMonth (d : ℤ) : ℤ := (inMonth (monthLengths (yearOf d)) (dayOfYear d - 1)).2 + 1

def quarterOf (d : ℤ) : ℤ := (monthOf d - 1) / 3 + 1

example : (yearOf 19782, monthOf 19782, dayOfMonth 19782) = (2024, 2, 29) := by decide

/-! ## Weeks -/

/-- From Monday, which is 0. -/
def weekday (d : ℤ) : ℤ := (d + 3) % 7

def monday (d : ℤ) : ℤ := d - weekday d

/-- The Monday of the week with 4 January. -/
def fourthOfJanuary (y : ℤ) : ℤ := monday (newYear y + 3)

/-- The Monday of the first week with at least four days of the year. -/
def fourDays (y : ℤ) : ℤ :=
  if weekday (newYear y) ≤ 3 then newYear y - weekday (newYear y)
  else newYear y - weekday (newYear y) + 7

theorem fourDays_eq (y : ℤ) : fourDays y = fourthOfJanuary y := by
  unfold fourDays fourthOfJanuary monday weekday
  split <;> omega

/-- The year whose weeks have the day. -/
def weekYear (d : ℤ) : ℤ :=
  if d < fourthOfJanuary (yearOf d) then yearOf d - 1
  else if fourthOfJanuary (yearOf d + 1) ≤ d then yearOf d + 1
  else yearOf d

/-- The week with 4 January is the first. -/
def weekNumber (d : ℤ) : ℤ := (d - fourthOfJanuary (weekYear d)) / 7 + 1

/-- The year of the Thursday of a week is the year of the week. -/
theorem yearOf_thursday (d : ℤ) : yearOf (monday d + 3) = weekYear d := by
  obtain ⟨started, later⟩ := yearOf_spec d
  have next := newYear_succ (yearOf d + 1)
  have previous := newYear_succ (yearOf d - 1)
  rw [Int.sub_add_cancel] at previous
  have nextBounds := yearLength_bounds (yearOf d + 1)
  have previousBounds := yearLength_bounds (yearOf d - 1)
  unfold weekYear
  split
  · rename_i early
    unfold fourthOfJanuary monday weekday at early
    apply yearOf_eq
    · unfold monday weekday
      omega
    · rw [Int.sub_add_cancel]
      unfold monday weekday
      omega
  · rename_i notEarly
    unfold fourthOfJanuary monday weekday at notEarly
    split
    · rename_i late
      unfold fourthOfJanuary monday weekday at late
      apply yearOf_eq
      · unfold monday weekday
        omega
      · unfold monday weekday
        omega
    · rename_i notLate
      unfold fourthOfJanuary monday weekday at notLate
      apply yearOf_eq
      · unfold monday weekday
        omega
      · unfold monday weekday
        omega

/-- Counting from the Monday of the day's week counts the same weeks. -/
theorem weeks_of_monday (d : ℤ) :
    1 + (monday d - fourDays (yearOf (monday d + 3))) / 7 = weekNumber d := by
  rw [fourDays_eq, yearOf_thursday]
  unfold weekNumber fourthOfJanuary monday weekday
  omega

end Calendar

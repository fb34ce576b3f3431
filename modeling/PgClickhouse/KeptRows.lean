import Mathlib.Data.List.Basic
import Mathlib.Data.List.TakeDrop

/-!
# Rows that a limit keeps

Of a list of rows, those after an offset up to a count, and the rows after them that tie with
the last one.  Nothing here names a program.

* `tied_eq_nil_iff`: no row ties exactly if the next row does not
-/

namespace KeptRows

variable {α : Type}

/-- The rows after `offset`, up to `count` of them. -/
def kept (offset : Nat) (count : Option Nat) (rows : List α) : List α :=
  match count with
  | none => rows.drop offset
  | some n => (rows.drop offset).take n

/-- The rows after those that tie with the last of them. -/
def tied (tie : α → α → Bool) (offset : Nat) (count : Option Nat) (rows : List α) : List α :=
  match count with
  | none => []
  | some n =>
      match ((rows.drop offset).take n).getLast? with
      | none => []
      | some last => (rows.drop (offset + n)).takeWhile (tie last)

/-- The next row ties with the last one that is kept. -/
def CutsTie (tie : α → α → Bool) (offset : Nat) (count : Option Nat) (rows : List α) : Prop :=
  ∃ n a b, count = some n ∧ 0 < n ∧ rows[offset + n - 1]? = some a ∧
    rows[offset + n]? = some b ∧ tie a b

/-- The last row that is kept is at the end of the window if there are rows after it. -/
theorem getLast?_take_drop {offset n : Nat} {rows : List α} (more : offset + n < rows.length) :
    ((rows.drop offset).take n).getLast? =
      if n = 0 then none else rows[offset + n - 1]? := by
  rw [List.getLast?_eq_getElem?, List.length_take, List.length_drop,
    Nat.min_eq_left (by omega)]
  split
  · rename_i zero
    rw [zero]
    rfl
  · rw [List.getElem?_take_of_lt (by omega), List.getElem?_drop]
    congr 1
    omega

theorem tied_eq_nil_iff {tie : α → α → Bool} {offset : Nat} {count : Option Nat}
    {rows : List α} : tied tie offset count rows = [] ↔ ¬CutsTie tie offset count rows := by
  cases count with
  | none => exact iff_of_true rfl fun ⟨_, _, _, given, _⟩ => nomatch given
  | some n =>
      unfold tied CutsTie
      simp only
      by_cases more : offset + n < rows.length
      · rw [getLast?_take_drop more]
        by_cases zero : n = 0
        · rw [if_pos zero]
          refine iff_of_true rfl fun ⟨m, _, _, given, positive, _⟩ => ?_
          cases given
          omega
        · rw [if_neg zero, List.getElem?_eq_getElem (by omega : offset + n - 1 < rows.length)]
          simp only
          rw [List.drop_eq_getElem_cons more, List.takeWhile_cons]
          split
          · rename_i ties
            refine iff_of_false (List.cons_ne_nil _ _) (not_not_intro ?_)
            exact ⟨n, _, _, rfl, Nat.pos_of_ne_zero zero,
              List.getElem?_eq_getElem (by omega : offset + n - 1 < rows.length),
              List.getElem?_eq_getElem more, ties⟩
          · rename_i differs
            refine iff_of_true rfl fun ⟨m, a, b, given, _, last, next, ties⟩ => differs ?_
            cases given
            rw [List.getElem?_eq_getElem (by omega)] at last
            rw [List.getElem?_eq_getElem more] at next
            cases last
            cases next
            exact ties
      · have nothing : rows.drop (offset + n) = [] := List.drop_eq_nil_of_le (by omega)
        rw [nothing]
        refine iff_of_true ?_ fun ⟨m, _, b, given, _, _, next, _⟩ => ?_
        · split <;> rfl
        · cases given
          rw [List.getElem?_eq_none (by omega)] at next
          cases next

end KeptRows

import Mathlib.Data.List.Basic

/-!
# Windows of a list

The elements of a list between two positions, which may lie outside of it: before the first
element or behind the last.
-/

namespace Windows

variable {α : Type} {xs : List α}

/-- The elements from position `a` on and before position `b`, counted from zero. -/
def window (a b : Int) (xs : List α) : List α := (xs.take b.toNat).drop a.toNat

theorem length_window (a b : Int) (xs : List α) :
    (window a b xs).length = min b.toNat xs.length - a.toNat := by
  rw [window, List.length_drop, List.length_take]

/-- A window that starts at the first element or before it. -/
theorem window_of_nonpos {a : Int} (b : Int) (start : a ≤ 0) : window a b xs = xs.take b.toNat := by
  have first : a.toNat = 0 := by omega
  rw [window, first, List.drop_zero]

/-- A window that ends behind the last element. -/
theorem window_of_length_le (a : Int) {b : Int} (stop : (xs.length : Int) ≤ b) :
    window a b xs = xs.drop a.toNat := by
  rw [window, List.take_of_length_le (by omega)]

theorem window_eq_nil_iff (a b : Int) :
    window a b xs = [] ↔ xs.length = 0 ∨ b ≤ 0 ∨ (xs.length : Int) ≤ a ∨ b ≤ a := by
  rw [← List.length_eq_zero_iff, length_window]
  omega

theorem take_toNat_eq_nil_iff (b : Int) : xs.take b.toNat = [] ↔ xs.length = 0 ∨ b ≤ 0 := by
  rw [← List.length_eq_zero_iff, List.length_take]
  omega

/-- A prefix is a suffix when both are the whole list, or both are empty, or the list begins as
it ends. -/
theorem take_eq_drop_iff (p q : Nat) :
    xs.take p = xs.drop q ↔
      (xs.length ≤ p ∧ q = 0) ∨ (p = 0 ∧ xs.length ≤ q) ∨ xs.length = 0 ∨
        (p + q = xs.length ∧ xs.take p = xs.drop (xs.length - p)) := by
  constructor
  · intro same
    have lengths := congrArg List.length same
    rw [List.length_take, List.length_drop] at lengths
    by_cases inside : p + q = xs.length
    · have start : xs.length - p = q := by omega
      exact .inr (.inr (.inr ⟨inside, by rw [start]; exact same⟩))
    · omega
  · rintro (⟨whole, zero⟩ | ⟨zero, behind⟩ | empty | ⟨inside, same⟩)
    · rw [zero, List.drop_zero, List.take_of_length_le whole]
    · rw [zero, List.take_zero, List.drop_of_length_le behind]
    · rw [List.length_eq_zero_iff.mp empty, List.take_nil, List.drop_nil]
    · have start : xs.length - p = q := by omega
      rwa [start] at same

end Windows

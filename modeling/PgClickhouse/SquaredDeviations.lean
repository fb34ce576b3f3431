import Mathlib.Algebra.BigOperators.Ring.Multiset
import Mathlib.Tactic.FieldSimp
import Mathlib.Tactic.Ring

/-!
# Sums of squared deviations

The sum of squared deviations from the mean over a field, by the sum of the squares and by the
sums of two parts.

Main facts:

* `squaredDeviations_eq` : from the sum of the squares and the sum
* `squaredDeviations_add` : the merge of Youngs and Cramer
-/

namespace PgClickhouse

variable {K : Type*} [Field K]

/-- The sum of the squared deviations from the mean. -/
def squaredDeviations (values : Multiset K) : K :=
  (values.map fun x => (x - values.sum / values.card) ^ 2).sum

@[simp]
theorem squaredDeviations_zero : squaredDeviations (0 : Multiset K) = 0 :=
  rfl

/-- Squared differences from any number. -/
theorem sum_squared_sub (values : Multiset K) (m : K) :
    (values.map fun x => (x - m) ^ 2).sum =
      (values.map (· ^ 2)).sum - 2 * m * values.sum + values.card * m ^ 2 := by
  induction values using Multiset.induction_on with
  | empty => simp
  | cons x values ih =>
      simp only [Multiset.map_cons, Multiset.sum_cons, Multiset.card_cons, Nat.cast_succ, ih]
      ring

variable [CharZero K]

theorem card_cast_ne_zero {values : Multiset K} (some_values : values ≠ 0) :
    (values.card : K) ≠ 0 := by
  rw [Nat.cast_ne_zero, Ne, Multiset.card_eq_zero]
  exact some_values

theorem squaredDeviations_eq {values : Multiset K} (some_values : values ≠ 0) :
    squaredDeviations values = (values.map (· ^ 2)).sum - values.sum ^ 2 / values.card := by
  have nonzero := card_cast_ne_zero some_values
  rw [squaredDeviations, sum_squared_sub]
  field_simp
  ring

/-- The squared deviations of two parts, and of their means. -/
theorem squaredDeviations_add {left right : Multiset K} (some_left : left ≠ 0)
    (some_right : right ≠ 0) :
    squaredDeviations (left + right) =
      squaredDeviations left + squaredDeviations right +
        left.card * right.card *
          (left.sum / left.card - right.sum / right.card) ^ 2 / (left.card + right.card) := by
  have some_values : left + right ≠ 0 := by
    intro empty
    have cards := congrArg Multiset.card empty
    rw [Multiset.card_add, Multiset.card_zero] at cards
    apply some_left
    rw [← Multiset.card_eq_zero]
    omega
  have nonzero_left := card_cast_ne_zero some_left
  have nonzero_right := card_cast_ne_zero some_right
  have nonzero : (left.card : K) + right.card ≠ 0 := by
    have cast := card_cast_ne_zero some_values
    rwa [Multiset.card_add, Nat.cast_add] at cast
  rw [squaredDeviations_eq some_values, squaredDeviations_eq some_left,
    squaredDeviations_eq some_right, Multiset.map_add, Multiset.sum_add, Multiset.sum_add,
    Multiset.card_add, Nat.cast_add]
  field_simp
  ring

end PgClickhouse

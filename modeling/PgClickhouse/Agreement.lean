import Mathlib.Order.Lattice
import Mathlib.Order.BoundedOrder.Basic

/-!
# Values that several sources agree on

What sources say about one name: nothing, a value, or different values.  Putting two
statements together is the supremum in a flat order, with the conflict on top, so it does
not matter how often a source is asked, nor in which order.
-/

/-- What is known of a value. -/
inductive Agreement (α : Type*)
  | silent
  | value (a : α)
  | conflict
  deriving Repr, DecidableEq

namespace Agreement

variable {α : Type*} [DecidableEq α]

/-- Two statements together. -/
def join : Agreement α → Agreement α → Agreement α
  | silent, y => y
  | x, silent => x
  | value a, value b => if a = b then value a else conflict
  | _, _ => conflict

instance : Max (Agreement α) := ⟨join⟩

theorem join_comm (x y : Agreement α) : x ⊔ y = y ⊔ x := by
  show join x y = join y x
  cases x with
  | silent => cases y <;> rfl
  | conflict => cases y <;> rfl
  | value a =>
      cases y with
      | silent => rfl
      | conflict => rfl
      | value b =>
          show (if a = b then value a else conflict) = if b = a then value b else conflict
          by_cases same : a = b
          · rw [if_pos same, if_pos same.symm, same]
          · rw [if_neg same, if_neg (Ne.symm same)]

theorem conflict_join (x : Agreement α) : conflict ⊔ x = conflict := by
  show join conflict x = conflict
  cases x <;> rfl

theorem join_value (a b : α) : value a ⊔ value b = if a = b then value a else conflict := rfl

theorem join_self (x : Agreement α) : x ⊔ x = x := by
  cases x with
  | silent => rfl
  | conflict => rfl
  | value a => rw [join_value, if_pos rfl]

theorem join_assoc (x y z : Agreement α) : x ⊔ y ⊔ z = x ⊔ (y ⊔ z) := by
  cases x with
  | silent => rfl
  | conflict => rw [conflict_join, conflict_join, conflict_join]
  | value a =>
      cases y with
      | silent => rfl
      | conflict => rw [conflict_join, join_comm _ conflict, conflict_join, conflict_join]
      | value b =>
          cases z with
          | silent => rw [join_comm _ silent, join_comm _ silent]; rfl
          | conflict => rw [join_comm _ conflict, join_comm _ conflict, conflict_join,
              conflict_join, join_comm, conflict_join]
          | value c =>
              rw [join_value, join_value]
              by_cases first : a = b
              · by_cases second : b = c
                · rw [if_pos first, if_pos second, join_value, join_value, if_pos first,
                    if_pos (first.trans second)]
                · rw [if_pos first, if_neg second, join_value, if_neg (first ▸ second), join_comm,
                    conflict_join]
              · by_cases second : b = c
                · rw [if_neg first, if_pos second, conflict_join, join_value, if_neg first]
                · rw [if_neg first, if_neg second, conflict_join, join_comm, conflict_join]

instance : SemilatticeSup (Agreement α) := .mk' join_comm join_assoc join_self

instance : OrderBot (Agreement α) where
  bot := silent
  bot_le _ := rfl

/-- The value, if there is one. -/
def agreed : Agreement α → Option α
  | value a => some a
  | _ => none

/-! ## Sources in any order -/

section Sources

variable {σ β : Type*} [SemilatticeSup β] (said : σ → β)

theorem foldl_sup_le_iff {bound start : β} (sources : List σ) :
    sources.foldl (fun known source => known ⊔ said source) start ≤ bound ↔
      start ≤ bound ∧ ∀ source ∈ sources, said source ≤ bound := by
  induction sources generalizing start with
  | nil => simp
  | cons source sources ih =>
      rw [List.foldl_cons, ih, sup_le_iff, List.forall_mem_cons, and_assoc]

/-- Only which sources are asked counts. -/
theorem foldl_sup_eq {sources others : List σ} (same : ∀ source, source ∈ sources ↔ source ∈ others)
    (start : β) :
    sources.foldl (fun known source => known ⊔ said source) start =
      others.foldl (fun known source => known ⊔ said source) start := by
  apply eq_of_forall_ge_iff
  intro bound
  rw [foldl_sup_le_iff, foldl_sup_le_iff]
  simp only [same]

end Sources

end Agreement

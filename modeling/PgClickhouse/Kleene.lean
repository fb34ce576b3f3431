import Mathlib.Tactic.Common

/-!
# Three-valued logic

The truth values of SQL: true, false and unknown, which is `none`.
-/

namespace Kleene

/-- Conjunction: false if either side is, else unknown if either side is. -/
def and : Option Bool → Option Bool → Option Bool
  | some false, _ => some false
  | _, some false => some false
  | some true, some true => some true
  | _, _ => none

/-- Disjunction: true if either side is, else unknown if either side is. -/
def or : Option Bool → Option Bool → Option Bool
  | some true, _ => some true
  | _, some true => some true
  | some false, some false => some false
  | _, _ => none

/-- Negation; what is unknown stays unknown. -/
def not : Option Bool → Option Bool :=
  Option.map Bool.not

/-- A list of conditions connected by AND. -/
def all (values : List (Option Bool)) : Option Bool :=
  values.foldr and (some true)

/-- A list of conditions connected by OR. -/
def any (values : List (Option Bool)) : Option Bool :=
  values.foldr or (some false)

/-- What a condition does to a row: it lets the row through if it is true. -/
def passes (value : Option Bool) : Bool :=
  value == some true

@[simp] theorem and_eq_true {a b : Option Bool} :
    and a b = some true ↔ a = some true ∧ b = some true := by
  rcases a with _ | _ | _ <;> rcases b with _ | _ | _ <;> simp [and]

@[simp] theorem passes_and (a b : Option Bool) :
    passes (and a b) = (passes a && passes b) := by
  rcases a with _ | _ | _ <;> rcases b with _ | _ | _ <;> rfl

theorem passes_all (values : List (Option Bool)) :
    passes (all values) = values.all passes := by
  induction values with
  | nil => rfl
  | cons value values ih =>
    rw [all, List.foldr_cons, ← all, passes_and, ih, List.all_cons]

@[simp] theorem passes_or (a b : Option Bool) :
    passes (or a b) = (passes a || passes b) := by
  rcases a with _ | _ | _ <;> rcases b with _ | _ | _ <;> rfl

theorem passes_any (values : List (Option Bool)) :
    passes (any values) = values.any passes := by
  induction values with
  | nil => rfl
  | cons value values ih =>
    rw [any, List.foldr_cons, ← any, passes_or, ih, List.any_cons]

theorem any_eq (values : List (Option Bool)) :
    any values =
      if some true ∈ values then some true else if none ∈ values then none else some false := by
  induction values with
  | nil => rfl
  | cons value values ih =>
    rw [any, List.foldr_cons, ← any, ih]
    rcases value with _ | _ | _ <;> simp <;> split_ifs <;> rfl

theorem all_eq (values : List (Option Bool)) :
    all values =
      if some false ∈ values then some false else if none ∈ values then none else some true := by
  induction values with
  | nil => rfl
  | cons value values ih =>
    rw [all, List.foldr_cons, ← all, ih]
    rcases value with _ | _ | _ <;> simp <;> split_ifs <;> rfl

/-- Conditions may be split in two lists by any test. -/
theorem all_split {α : Type} (test passes : α → Bool) (conds : List α) :
    ((conds.filter test).all passes && (conds.filter fun e => !test e).all passes) =
      conds.all passes := by
  induction conds with
  | nil => rfl
  | cons e conds ih =>
    rw [List.all_cons, ← ih]
    cases h : test e <;> simp [h, Bool.and_assoc, Bool.and_left_comm]

end Kleene

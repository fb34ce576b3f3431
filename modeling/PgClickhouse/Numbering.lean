import Mathlib.Data.List.Basic

/-!
# Numbering values up to an equivalence

A table is a list to whose end a value is added when nothing in it is the same.  A value's number
is the first place of the table that is the same as the value.  Numbers do not change while
the table grows, and two values have one number exactly when they are the same.
-/

namespace Numbering

variable {α : Type} (same : α → α → Bool)

def number (table : List α) (a : α) : Option Nat :=
  table.findIdx? fun entry => same entry a

variable {same} {table : List α} {a b : α} {i j : Nat}

theorem number_append (numbered : number same table a = some i) (more : List α) :
    number same (table ++ more) a = some i := by
  unfold number at numbered ⊢
  rw [List.findIdx?_append, numbered]
  rfl

theorem number_spec (numbered : number same table a = some i) :
    ∃ entry, table[i]? = some entry ∧ same entry a = true := by
  obtain ⟨bound, found, _⟩ := List.findIdx?_eq_some_iff_getElem.mp numbered
  exact ⟨table[i], List.getElem?_eq_getElem bound, found⟩

/-- Data is kept beside a table. -/
theorem find?_zip {β : Type} (found : α → Bool) (table : List α) (data : List β)
    (long : data.length = table.length) :
    ((table.zip data).find? fun entry => found entry.1).map Prod.snd =
      (table.findIdx? found).bind fun i => data[i]? := by
  induction table generalizing data with
  | nil => rfl
  | cons entry table ih =>
      cases data with
      | nil => exact absurd long (Nat.zero_ne_add_one _)
      | cons datum data =>
          rw [List.zip_cons_cons, List.find?_cons, List.findIdx?_cons]
          cases here : found entry with
          | true => rfl
          | false =>
              simp only [Bool.false_eq_true, if_false]
              rw [ih data (Nat.succ.inj long), Option.bind_map]
              rfl

section Equivalence

variable (equivalence : Equivalence fun a b => same a b = true)
include equivalence

theorem number_congr (alike : same a b = true) : number same table a = number same table b := by
  have agree : (fun entry => same entry a) = fun entry => same entry b := by
    funext entry
    apply Bool.eq_iff_iff.mpr
    exact ⟨fun left => equivalence.trans left alike,
      fun right => equivalence.trans right (equivalence.symm alike)⟩
  unfold number
  rw [agree]

theorem number_eq_iff (left : number same table a = some i) (right : number same table b = some j) :
    i = j ↔ same a b = true := by
  constructor
  · rintro rfl
    obtain ⟨entry, here, first⟩ := number_spec left
    obtain ⟨entry', there, second⟩ := number_spec right
    obtain rfl : entry = entry' := Option.some.inj (here.symm.trans there)
    exact equivalence.trans (equivalence.symm first) second
  · intro alike
    rw [number_congr equivalence alike, right] at left
    exact (Option.some.inj left).symm

/-- A value that is new is given the next number. -/
theorem number_new (unknown : number same table a = none) :
    number same (table ++ [a]) a = some table.length := by
  unfold number at unknown ⊢
  rw [List.findIdx?_append, unknown, List.findIdx?_singleton, equivalence.refl a]
  simp

end Equivalence

end Numbering

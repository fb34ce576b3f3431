import Mathlib.Computability.RegularExpressions
import Mathlib.Data.List.Forall2

/-!
# Patterns over leaves

A pattern is a regular expression over leaves, and a leaf accepts some characters.  A text is
read by a pattern when it is accepted leaf by leaf.

* `found_and_iff`: a search with a stricter acceptance is a search for a part in which no leaf
  stands for a character that it must not.
-/

namespace LeafPattern

variable {α β : Type*} {accepts accepts' : α → β → Prop}

/-- `part` is read, leaf by leaf. -/
def Reads (accepts : α → β → Prop) (p : RegularExpression α) (part : List β) : Prop :=
  ∃ leaves ∈ p.matches', List.Forall₂ accepts leaves part

/-- Some part of the text is read. -/
def Found (accepts : α → β → Prop) (p : RegularExpression α) (text : List β) : Prop :=
  ∃ part, part <:+: text ∧ Reads accepts p part

theorem Reads.mono (weaker : ∀ a b, accepts a b → accepts' a b) {p : RegularExpression α}
    {part : List β} (reads : Reads accepts p part) : Reads accepts' p part := by
  obtain ⟨leaves, matched, each⟩ := reads
  exact ⟨leaves, matched, each.imp weaker⟩

theorem Found.mono (weaker : ∀ a b, accepts a b → accepts' a b) {p : RegularExpression α}
    {text : List β} (found : Found accepts p text) : Found accepts' p text := by
  obtain ⟨part, inside, reads⟩ := found
  exact ⟨part, inside, reads.mono weaker⟩

theorem reads_one (part : List β) : Reads accepts 1 part ↔ part = [] := by
  constructor
  · rintro ⟨leaves, matched, each⟩
    obtain rfl : leaves = [] := matched
    exact List.forall₂_nil_left_iff.mp each
  · rintro rfl
    exact ⟨[], rfl, .nil⟩

theorem reads_char (a : α) (part : List β) :
    Reads accepts (.char a) part ↔ ∃ b, part = [b] ∧ accepts a b := by
  constructor
  · rintro ⟨leaves, matched, each⟩
    obtain rfl : leaves = [a] := matched
    rw [List.forall₂_cons_left_iff] at each
    obtain ⟨b, rest, accepted, none, rfl⟩ := each
    rw [List.forall₂_nil_left_iff.mp none]
    exact ⟨b, rfl, accepted⟩
  · rintro ⟨b, rfl, accepted⟩
    exact ⟨[a], rfl, .cons accepted .nil⟩

theorem reads_mul (p q : RegularExpression α) (part : List β) :
    Reads accepts (p * q) part ↔
      ∃ front back, part = front ++ back ∧ Reads accepts p front ∧ Reads accepts q back := by
  constructor
  · rintro ⟨leaves, matched, each⟩
    rw [RegularExpression.matches'_mul] at matched
    obtain ⟨left, first, right, second, rfl⟩ := Language.mem_mul.mp matched
    have front := List.forall₂_take left.length each
    have back := List.forall₂_drop left.length each
    rw [List.take_left] at front
    rw [List.drop_left] at back
    exact ⟨_, _, (List.take_append_drop left.length part).symm, ⟨left, first, front⟩,
      ⟨right, second, back⟩⟩
  · rintro ⟨front, back, rfl, ⟨left, first, each⟩, right, second, others⟩
    refine ⟨left ++ right, ?_, List.rel_append each others⟩
    rw [RegularExpression.matches'_mul]
    exact Language.append_mem_mul first second

/-- A stricter search finds a part in which no leaf stands for a character it must not. -/
theorem found_and_iff {spares : α → β → Prop} (p : RegularExpression α) (text : List β) :
    Found (fun a b => accepts a b ∧ spares a b) p text ↔
      ∃ leaves ∈ p.matches', ∃ part, part <:+: text ∧ List.Forall₂ accepts leaves part ∧
        ∀ pair ∈ leaves.zip part, spares pair.1 pair.2 := by
  constructor
  · rintro ⟨part, inside, leaves, matched, each⟩
    refine ⟨leaves, matched, part, inside, each.imp fun _ _ both => both.1, ?_⟩
    rintro ⟨a, b⟩ member
    exact (List.forall₂_zip each member).2
  · rintro ⟨leaves, matched, part, inside, each, spared⟩
    obtain ⟨length, pairs⟩ := List.forall₂_iff_zip.mp each
    exact ⟨part, inside, leaves, matched,
      List.forall₂_iff_zip.mpr ⟨length, fun member => ⟨pairs member, spared _ member⟩⟩⟩

end LeafPattern

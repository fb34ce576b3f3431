import Mathlib.Data.Multiset.Bind
import Mathlib.Data.Multiset.Filter

/-!
# Joins of multisets

The join types of SQL over rows of arbitrary types.  A join is given by its condition
`p`, by `c`, which combines two rows, and by what becomes of a row without a match.
Nothing here names a program.

* `inner_filter`, `left_filter`: conditions on the inputs may be checked
  in the join condition, and, on the side that is kept, after the join.
* `Semi`: the semi join that pairs a row with an arbitrary match, as a relation.
-/

namespace Joins

variable {α β γ : Type*} (p : α → β → Bool) (c : α → β → γ)

/-- The pairs that satisfy the condition. -/
def inner (L : Multiset α) (R : Multiset β) : Multiset γ :=
  L.bind fun a => (R.filter fun b => p a b = true).map (c a)

/-- No row of `R` matches `a`. -/
def Unmatched (R : Multiset β) (a : α) : Prop :=
  ∀ b ∈ R, p a b = false

instance (R : Multiset β) : DecidablePred (Unmatched p R) := fun _ =>
  inferInstanceAs (Decidable (∀ b ∈ R, _))

def left (nl : α → γ) (L : Multiset α) (R : Multiset β) : Multiset γ :=
  inner p c L R + (L.filter (Unmatched p R)).map nl

/-- A right join is a left join of the other side. -/
def right (nr : β → γ) (L : Multiset α) (R : Multiset β) : Multiset γ :=
  left (fun b a => p a b) (fun b a => c a b) nr R L

def full (nl : α → γ) (nr : β → γ) (L : Multiset α) (R : Multiset β) : Multiset γ :=
  inner p c L R + (L.filter (Unmatched p R)).map nl +
    (R.filter (Unmatched (fun b a => p a b) L)).map nr

/-- The rows of `L` without a match. -/
def anti (L : Multiset α) (R : Multiset β) : Multiset α :=
  L.filter (Unmatched p R)

/-- The rows of `L` with a match. -/
def semi (L : Multiset α) (R : Multiset β) : Multiset α :=
  L.filter fun a => ¬ Unmatched p R a

/-- Each row of `L` with a match, combined with one match of the engine's choice. -/
def Semi (L : Multiset α) (R : Multiset β) (out : Multiset γ) : Prop :=
  Multiset.Rel (fun a m => ∃ b ∈ R, p a b = true ∧ m = c a b) (semi p L R) out

variable {p c}

theorem inner_congr {q : α → β → Bool} {L : Multiset α} {R : Multiset β}
    (same : ∀ a ∈ L, ∀ b ∈ R, p a b = q a b) : inner p c L R = inner q c L R := by
  refine Multiset.bind_congr fun a ha => ?_
  rw [Multiset.filter_congr fun b hb => by rw [same a ha b hb]]

theorem mem_inner {L : Multiset α} {R : Multiset β} {m : γ} (mem : m ∈ inner p c L R) :
    ∃ a ∈ L, ∃ b ∈ R, c a b = m := by
  obtain ⟨a, ha, mem⟩ := Multiset.mem_bind.mp mem
  obtain ⟨b, hb, rfl⟩ := Multiset.mem_map.mp mem
  exact ⟨a, ha, b, Multiset.mem_of_mem_filter hb, rfl⟩

theorem mem_left {nl : α → γ} {L : Multiset α} {R : Multiset β} {m : γ}
    (mem : m ∈ left p c nl L R) : (∃ a ∈ L, ∃ b ∈ R, c a b = m) ∨ ∃ a ∈ L, nl a = m := by
  rcases Multiset.mem_add.mp mem with mem | mem
  · exact .inl (mem_inner mem)
  · obtain ⟨a, ha, rfl⟩ := Multiset.mem_map.mp mem
    exact .inr ⟨a, Multiset.mem_of_mem_filter ha, rfl⟩

theorem not_unmatched_iff {R : Multiset β} {a : α} :
    ¬ Unmatched p R a ↔ ∃ b ∈ R, p a b = true := by
  simp [Unmatched]

theorem unmatched_congr {q : α → β → Bool} {R : Multiset β} {a : α}
    (same : ∀ b ∈ R, p a b = q a b) : Unmatched p R a ↔ Unmatched q R a := by
  refine forall₂_congr fun b hb => ?_
  rw [same b hb]

theorem left_congr {q : α → β → Bool} {nl : α → γ} {L : Multiset α} {R : Multiset β}
    (same : ∀ a ∈ L, ∀ b ∈ R, p a b = q a b) : left p c nl L R = left q c nl L R := by
  rw [left, left, inner_congr same]
  congr 2
  exact Multiset.filter_congr fun a ha => unmatched_congr (same a ha)

theorem unmatched_filter {g : β → Bool} {R : Multiset β} {a : α} :
    Unmatched p (R.filter (g · = true)) a ↔ Unmatched (fun a b => g b && p a b) R a := by
  simp only [Unmatched, Multiset.mem_filter, Bool.and_eq_false_imp]
  exact ⟨fun h b hb gb => h b ⟨hb, gb⟩, fun h b hb => h b hb.1 hb.2⟩

theorem filter_inner (h : γ → Bool) (L : Multiset α) (R : Multiset β) :
    (inner p c L R).filter (h · = true) = inner (fun a b => p a b && h (c a b)) c L R := by
  rw [inner, Multiset.filter_bind]
  refine Multiset.bind_congr fun a _ => ?_
  rw [Multiset.filter_map, Multiset.filter_filter]
  congr 1
  refine Multiset.filter_congr fun b _ => ?_
  simp [and_comm]

/-- Conditions on the inputs belong to the condition of an inner join. -/
theorem inner_filter (f : α → Bool) (g : β → Bool) (L : Multiset α) (R : Multiset β) :
    inner p c (L.filter (f · = true)) (R.filter (g · = true)) =
      inner (fun a b => f a && (g b && p a b)) c L R := by
  rw [inner, Multiset.bind_filter]
  refine Multiset.bind_congr fun a _ => ?_
  rw [Multiset.filter_filter]
  by_cases h : f a = true
  · rw [if_pos h]
    congr 1
    refine Multiset.filter_congr fun b _ => ?_
    simp [h, and_comm]
  · simp [h]

/-- In a left join, conditions on the right input belong to the join condition and
conditions on the left input may be checked after the join. -/
theorem left_filter {nl : α → γ} {f : α → Bool} {g : β → Bool} {h : γ → Bool}
    {L : Multiset α} {R : Multiset β} (pairs : ∀ a ∈ L, ∀ b ∈ R, h (c a b) = f a)
    (alone : ∀ a ∈ L, h (nl a) = f a) :
    left p c nl (L.filter (f · = true)) (R.filter (g · = true)) =
      (left (fun a b => g b && p a b) c nl L R).filter (h · = true) := by
  rw [left, left, Multiset.filter_add, inner_filter, filter_inner, Multiset.filter_map]
  congr 1
  · refine inner_congr fun a ha b hb => ?_
    rw [pairs a ha b hb]
    simp [Bool.and_comm]
  · congr 1
    rw [Multiset.filter_filter, Multiset.filter_filter]
    refine Multiset.filter_congr fun a ha => ?_
    simp only [Function.comp, alone a ha, unmatched_filter]
    exact and_comm

/-- Two filters of one multiset, one of them weaker, agree under a map only if they agree. -/
theorem map_filter_eq_iff {P Q : α → Prop} [DecidablePred P] [DecidablePred Q]
    {L : Multiset α} (stronger : ∀ a ∈ L, P a → Q a) (k : α → β) :
    (L.filter P).map k = (L.filter Q).map k ↔ ∀ a ∈ L, Q a → P a := by
  constructor
  · intro same a ha qa
    have both : L.filter P = (L.filter Q).filter P := by
      rw [Multiset.filter_filter]
      exact Multiset.filter_congr fun a ha => ⟨fun pa => ⟨pa, stronger a ha pa⟩, And.left⟩
    have card : Multiset.card (L.filter Q) ≤ Multiset.card (L.filter P) := by
      rw [← Multiset.card_map k (L.filter Q), ← same, Multiset.card_map]
    have le : L.filter P ≤ L.filter Q := both ▸ Multiset.filter_le P (L.filter Q)
    have mem : a ∈ L.filter P :=
      Multiset.eq_of_le_of_card_le le card ▸ Multiset.mem_filter.mpr ⟨ha, qa⟩
    exact (Multiset.mem_filter.mp mem).2
  · intro back
    rw [Multiset.filter_congr fun a ha => ⟨stronger a ha, back a ha⟩]

theorem rel_filter_map {r : α → γ → Prop} {F : γ → Bool} {S : α → Bool} {δ : Type*}
    {g : γ → δ} {k : α → δ} {L : Multiset α} {out : Multiset γ} (rel : Multiset.Rel r L out)
    (same : ∀ a ∈ L, ∀ m, r a m → F m = S a ∧ g m = k a) :
    (out.filter (F · = true)).map g = (L.filter (S · = true)).map k := by
  induction rel with
  | zero => rfl
  | @cons a m L out h _ ih =>
    obtain ⟨pass, image⟩ := same a (Multiset.mem_cons_self a L) m h
    have rest := ih fun a ha => same a (Multiset.mem_cons_of_mem ha)
    rw [Multiset.filter_cons, Multiset.filter_cons, Multiset.map_add, Multiset.map_add,
      rest, pass]
    split <;> simp [image]

/-- Conditions checked after a semi join say whether a row of the left side stays, whatever
match it was paired with, exactly when they hold of every match of a row that should. -/
theorem semi_filter_iff {F : γ → Bool} {S : α → Bool} {δ : Type*} {g : γ → δ} {k : α → δ}
    {L : Multiset α} {R : Multiset β}
    (sound : ∀ a ∈ L, ∀ b ∈ R, p a b = true → F (c a b) = true → S a = true)
    (image : ∀ a ∈ L, ∀ b ∈ R, g (c a b) = k a) :
    (∀ out, Semi p c L R out →
      (out.filter (F · = true)).map g = ((semi p L R).filter (S · = true)).map k) ↔
    ∀ a ∈ L, S a = true → ∀ b ∈ R, p a b = true → F (c a b) = true := by
  constructor
  · intro all a ha sa b hb match_
    have chosen : ∃ choice : α → β, choice a = b ∧
        ∀ a' ∈ semi p L R, choice a' ∈ R ∧ p a' (choice a') = true := by
      classical
      have some_match : ∀ a' ∈ semi p L R, ∃ b ∈ R, p a' b = true := by
        intro a' ha'
        exact not_unmatched_iff.mp (Multiset.mem_filter.mp ha').2
      refine ⟨fun a' => if a' = a then b else
        if h : a' ∈ semi p L R then (some_match a' h).choose else b, if_pos rfl, ?_⟩
      intro a' ha'
      by_cases same : a' = a
      · subst same
        simpa using ⟨hb, match_⟩
      · simp only [if_neg same, dif_pos ha']
        exact (some_match a' ha').choose_spec
    obtain ⟨choice, choice_a, choice_spec⟩ := chosen
    have paired : Semi p c L R ((semi p L R).map fun a' => c a' (choice a')) := by
      refine Multiset.rel_map_right.mpr (Multiset.rel_refl_of_refl_on fun a' ha' => ?_)
      exact ⟨choice a', (choice_spec a' ha').1, (choice_spec a' ha').2, rfl⟩
    have in_left : ∀ a' ∈ semi p L R, a' ∈ L := fun a' => Multiset.mem_of_mem_filter
    have result : ((semi p L R).filter fun a' => F (c a' (choice a')) = true).map k =
        ((semi p L R).filter (S · = true)).map k := by
      rw [← all _ paired, Multiset.filter_map, Multiset.map_map]
      refine Multiset.map_congr rfl fun a' ha' => ?_
      have mem := Multiset.mem_of_mem_filter ha'
      exact (image a' (in_left a' mem) _ (choice_spec a' mem).1).symm
    have a_semi : a ∈ semi p L R :=
      Multiset.mem_filter.mpr ⟨ha, not_unmatched_iff.mpr ⟨b, hb, match_⟩⟩
    have kept := (map_filter_eq_iff (fun a' mem => sound a' (in_left a' mem) _
      (choice_spec a' mem).1 (choice_spec a' mem).2) k).mp result a a_semi sa
    rwa [choice_a] at kept
  · intro every out paired
    refine rel_filter_map paired ?_
    rintro a ha m ⟨b, hb, match_, rfl⟩
    have a_left : a ∈ L := Multiset.mem_of_mem_filter ha
    refine ⟨?_, image a a_left b hb⟩
    rw [Bool.eq_iff_iff]
    exact ⟨sound a a_left b hb match_, fun sa => every a a_left sa b hb match_⟩

theorem exists_semi (L : Multiset α) (R : Multiset β) : ∃ out, Semi p c L R out := by
  have step : ∀ S : Multiset α, (∀ a ∈ S, ∃ b ∈ R, p a b = true) → ∃ out,
      Multiset.Rel (fun a m => ∃ b ∈ R, p a b = true ∧ m = c a b) S out := by
    intro S
    induction S using Multiset.induction with
    | empty => exact fun _ => ⟨0, .zero⟩
    | cons a S ih =>
      intro matched
      obtain ⟨b, hb, match_⟩ := matched a (Multiset.mem_cons_self a S)
      obtain ⟨out, rest⟩ := ih fun a ha => matched a (Multiset.mem_cons_of_mem ha)
      exact ⟨c a b ::ₘ out, .cons ⟨b, hb, match_, rfl⟩ rest⟩
  refine step _ fun a ha => ?_
  exact not_unmatched_iff.mp (Multiset.mem_filter.mp ha).2

end Joins

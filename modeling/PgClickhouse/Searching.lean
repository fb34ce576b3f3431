import Mathlib.Data.List.Infix

/-!
# Searching a text

The first place where a pattern stands in a list, and lists made of characters of several
units each, whose first unit says how many they are.
-/

namespace Searching

variable {α : Type*}

/-! ## The first occurrence -/

theorem prefix_drop_of_append {pattern text more : List α} {j : Nat}
    (within : j + pattern.length ≤ text.length) :
    pattern <+: (text ++ more).drop j ↔ pattern <+: text.drop j := by
  rw [List.drop_append_of_le_length (by omega)]
  refine ⟨fun stands => ?_, fun stands => stands.trans (List.prefix_append _ _)⟩
  exact List.prefix_of_prefix_length_le stands (List.prefix_append _ _)
    (by rw [List.length_drop]; omega)

section Find

variable [DecidableEq α] (pattern : List α)

/-- How many items stand in front of the first occurrence. -/
def find : List α → Option Nat
  | [] => if pattern = [] then some 0 else none
  | a :: rest =>
      if pattern.isPrefixOf (a :: rest) then some 0 else (find rest).map (· + 1)

variable {pattern}

theorem find_eq_some {text : List α} {i : Nat} (found : find pattern text = some i) :
    pattern <+: text.drop i ∧ ∀ j < i, ¬ pattern <+: text.drop j := by
  induction text generalizing i with
  | nil =>
      unfold find at found
      split at found
      · rename_i empty
        cases found
        exact ⟨⟨[], by rw [empty]; rfl⟩, fun j before => absurd before (Nat.not_lt_zero j)⟩
      · cases found
  | cons a rest ih =>
      unfold find at found
      split at found
      · rename_i here
        cases found
        refine ⟨List.isPrefixOf_iff_prefix.mp here, ?_⟩
        exact fun j before => absurd before (Nat.not_lt_zero j)
      · rename_i notHere
        obtain ⟨k, later, rfl⟩ := Option.map_eq_some_iff.mp found
        obtain ⟨stands, first⟩ := ih later
        refine ⟨stands, ?_⟩
        intro j before
        cases j with
        | zero => exact fun here => notHere (List.isPrefixOf_iff_prefix.mpr here)
        | succ j => exact first j (by omega)

theorem find_eq_none_iff {text : List α} : find pattern text = none ↔ ¬ pattern <:+: text := by
  induction text with
  | nil =>
      rw [List.infix_nil]
      unfold find
      split <;> simp [*]
  | cons a rest ih =>
      rw [List.infix_cons_iff, not_or, ← ih, ← List.isPrefixOf_iff_prefix, find.eq_2]
      split <;> simp [*]

theorem find_eq_some_iff {text : List α} {i : Nat} :
    find pattern text = some i ↔
      pattern <+: text.drop i ∧ ∀ j < i, ¬ pattern <+: text.drop j := by
  refine ⟨find_eq_some, fun ⟨stands, first⟩ => ?_⟩
  match found : find pattern text with
  | none =>
      have absent := find_eq_none_iff.mp found
      exact absurd (stands.isInfix.trans (List.drop_suffix i text).isInfix) absent
  | some k =>
      obtain ⟨standsAt, firstAt⟩ := find_eq_some found
      have notBefore : ¬ k < i := fun before => first k before standsAt
      have notAfter : ¬ i < k := fun after => firstAt i after stands
      rw [show k = i by omega]

/-- What comes behind the first occurrence does not matter. -/
theorem find_append {text : List α} {i : Nat} (found : find pattern text = some i)
    (within : i + pattern.length ≤ text.length) (more : List α) :
    find pattern (text ++ more) = some i := by
  obtain ⟨stands, first⟩ := find_eq_some found
  refine find_eq_some_iff.mpr ⟨(prefix_drop_of_append within).mpr stands, ?_⟩
  intro j before
  rw [prefix_drop_of_append (by omega)]
  exact first j before

/-- The pattern at the end of a text is its first occurrence if there is no other. -/
theorem find_last_iff {text : List α} :
    find pattern (text ++ pattern) = some text.length ↔
      ¬ ∃ before after, after ≠ [] ∧ text ++ pattern = before ++ pattern ++ after := by
  rw [find_eq_some_iff, List.drop_left]
  constructor
  · rintro ⟨-, first⟩ ⟨before, after, more, cut⟩
    have length := congrArg List.length cut
    have positive := List.length_pos_of_ne_nil more
    simp only [List.length_append] at length
    refine first before.length (by omega) ?_
    rw [cut, List.append_assoc, List.drop_left]
    exact List.prefix_append _ _
  · intro only
    refine ⟨List.prefix_rfl, ?_⟩
    intro j before ⟨after, stands⟩
    refine only ⟨(text ++ pattern).take j, after, ?_, ?_⟩
    · intro none
      have length := congrArg List.length stands
      rw [none] at length
      simp only [List.append_nil, List.length_drop, List.length_append] at length
      omega
    · rw [List.append_assoc, stands, List.take_append_drop]

end Find

/-! ## Characters of several units -/

section Characters

variable (width : α → Nat)

/-- The places where a walk over the characters of a list stops. -/
inductive Boundary : List α → Nat → Prop
  | start (text : List α) : Boundary text 0
  | next {a : α} {rest : List α} {i : Nat} :
      Boundary ((a :: rest).drop (width a)) i → Boundary (a :: rest) (width a + i)

variable {width}

/-- The next stop. -/
theorem Boundary.step {text : List α} {i : Nat} (boundary : Boundary width text i) {a : α}
    {rest : List α} (next : text.drop i = a :: rest) : Boundary width text (i + width a) := by
  induction boundary with
  | start text =>
      rw [List.drop_zero] at next
      subst text
      rw [Nat.zero_add]
      exact .next (.start _)
  | next later ih =>
      rw [← List.drop_drop] at next
      rw [Nat.add_assoc]
      exact .next (ih next)

variable {κ : Type*} {encode : κ → List α}

/-- The first unit of a character says how many units it has. -/
def Announces (width : α → Nat) (encode : κ → List α) : Prop :=
  ∀ c, ∃ a rest, encode c = a :: rest ∧ width a = (encode c).length

/-- Walking over a text stops between its characters. -/
theorem Boundary.between (announces : Announces width encode) {text : List κ} {i : Nat}
    (boundary : Boundary width (text.flatMap encode) i)
    (within : i ≤ (text.flatMap encode).length) :
    ∃ kept, kept <+: text ∧ (text.flatMap encode).take i = kept.flatMap encode := by
  induction text generalizing i with
  | nil => exact ⟨[], List.prefix_rfl, by simp⟩
  | cons c text ih =>
      obtain ⟨a, rest, spelled, announced⟩ := announces c
      rw [List.flatMap_cons] at boundary within ⊢
      generalize units : encode c ++ text.flatMap encode = whole at boundary
      cases boundary with
      | start => exact ⟨[], List.nil_prefix, by simp⟩
      | next later =>
          rename_i a' rest' j
          have first : a' = a := by
            rw [spelled] at units
            exact (List.cons.inj units).1.symm
          rw [← units, first, announced] at later ⊢
          rw [List.drop_left] at later
          have enough : j ≤ (text.flatMap encode).length := by
            rw [first, announced, List.length_append] at within
            omega
          obtain ⟨kept, front, taken⟩ := ih later enough
          refine ⟨c :: kept, List.cons_prefix_cons.mpr ⟨rfl, front⟩, ?_⟩
          rw [List.take_length_add_append, taken, List.flatMap_cons]

/-- A unit that is a character by itself, and in no other, stands between characters. -/
theorem front_of_single {u : α} (single : ∀ c, u ∈ encode c → encode c = [u])
    {text : List κ} {front back : List α} (cut : text.flatMap encode = front ++ u :: back) :
    ∃ kept, kept <+: text ∧ front = kept.flatMap encode := by
  induction text generalizing front with
  | nil => simp at cut
  | cons c text ih =>
      rw [List.flatMap_cons] at cut
      rcases List.append_eq_append_iff.mp cut with ⟨more, longer, later⟩ | ⟨more, longer, later⟩
      · obtain ⟨kept, before, rfl⟩ := ih later
        refine ⟨c :: kept, List.cons_prefix_cons.mpr ⟨rfl, before⟩, ?_⟩
        rw [longer, List.flatMap_cons]
      · cases more with
        | nil =>
            have next : text.flatMap encode = [] ++ u :: back := later.symm
            obtain ⟨kept, before, empty⟩ := ih next
            refine ⟨c :: kept, List.cons_prefix_cons.mpr ⟨rfl, before⟩, ?_⟩
            rw [List.flatMap_cons, ← empty, longer, List.append_nil, List.append_nil]
        | cons v more =>
            obtain ⟨rfl, -⟩ := List.cons.inj later
            have alone := single c (by rw [longer]; simp)
            rw [longer] at alone
            have empty : front = [] := by
              have length := congrArg List.length alone
              simp only [List.length_append, List.length_cons, List.length_nil] at length
              exact List.eq_nil_of_length_eq_zero (by omega)
            exact ⟨[], List.nil_prefix, empty⟩

end Characters

end Searching

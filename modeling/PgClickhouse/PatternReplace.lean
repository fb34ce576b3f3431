import Mathlib.Data.List.Basic

/-!
# Replacing matches of a pattern

Patterns of counted and repeated leaves with one group at their start, matched as a backtracking
matcher does, and the replacement of all matches in a text from left to right.
-/

namespace PatternReplace

variable {L α β : Type}

/-- A leaf some number of times, a leaf once or more, or the end of the text. -/
inductive Node (L : Type)
  | repeated (leaf : L) (n : Nat)
  | plus (leaf : L)
  | finish
  deriving Repr, DecidableEq

/-- A pattern: its group and what follows it. -/
structure Pattern (L : Type) where
  group : List (Node L)
  rest : List (Node L)
  deriving Repr, DecidableEq

variable (accepts : L → α → Bool)

/-- The lengths of the prefixes that a sequence of nodes matches, the preferred one first. -/
def lengths : List (Node L) → List α → List Nat
  | [], _ => [0]
  | .repeated leaf n :: nodes, s =>
      if n ≤ s.length ∧ (s.take n).all (accepts leaf) then (lengths nodes (s.drop n)).map (n + ·)
      else []
  | .plus leaf :: nodes, s =>
      (List.range (s.takeWhile (accepts leaf)).length).reverse.flatMap fun k =>
        (lengths nodes (s.drop (k + 1))).map (k + 1 + ·)
  | .finish :: nodes, s => if s.isEmpty then lengths nodes s else []

/-- The lengths of the group and of the whole match at the start of a text. -/
def matchAt (p : Pattern L) (s : List α) : Option (Nat × Nat) :=
  ((lengths accepts p.group s).flatMap fun g =>
    (lengths accepts p.rest (s.drop g)).map fun r => (g, g + r)).head?

/-- Replace the matches; a replacement is a function of the group and of the whole match.  `skip`
characters of a match are still to be passed. -/
@[grind =] def replaceFrom (p : Pattern L) (replacement : List α → List α → List α) :
    Nat → List α → List α
  | skip + 1, _ :: rest => replaceFrom p replacement skip rest
  | _ + 1, [] => []
  | 0, [] =>
      match matchAt accepts p [] with
      | some _ => replacement [] []
      | none => []
  | 0, c :: rest =>
      match matchAt accepts p (c :: rest) with
      | some (g, k + 1) =>
          replacement ((c :: rest).take g) ((c :: rest).take (k + 1)) ++
            replaceFrom p replacement k rest
      | some (_, 0) => replacement [] [] ++ c :: replaceFrom p replacement 0 rest
      | none => c :: replaceFrom p replacement 0 rest

def replaceAll (p : Pattern L) (replacement : List α → List α → List α) (s : List α) : List α :=
  replaceFrom accepts p replacement 0 s

variable {accepts} {p : Pattern L} {replacement : List α → List α → List α}

theorem replaceFrom_skip {k : Nat} {s : List α} (inside : k ≤ s.length) :
    replaceFrom accepts p replacement k s = replaceAll accepts p replacement (s.drop k) := by
  induction k generalizing s with
  | zero => rfl
  | succ k ih =>
      cases s with
      | nil => exact absurd inside (by simp)
      | cons c rest =>
          rw [replaceFrom, List.drop_succ_cons]
          exact ih (Nat.le_of_succ_le_succ inside)

/-- A match that is not empty is replaced and passed. -/
theorem replaceAll_match {c : α} {rest : List α} {g k : Nat}
    (found : matchAt accepts p (c :: rest) = some (g, k + 1)) (inside : k ≤ rest.length) :
    replaceAll accepts p replacement (c :: rest) =
      replacement ((c :: rest).take g) ((c :: rest).take (k + 1)) ++
        replaceAll accepts p replacement (rest.drop k) := by
  rw [replaceAll, replaceFrom, found]
  exact congrArg _ (replaceFrom_skip inside)

theorem replaceAll_none {c : α} {rest : List α} (none : matchAt accepts p (c :: rest) = none) :
    replaceAll accepts p replacement (c :: rest) =
      c :: replaceAll accepts p replacement rest := by
  rw [replaceAll, replaceFrom, none]
  rfl

/-- Where no match begins in a prefix, the prefix stays. -/
theorem replaceAll_append {text s : List α}
    (none : ∀ c ∈ text, ∀ rest, matchAt accepts p (c :: rest) = none) :
    replaceAll accepts p replacement (text ++ s) =
      text ++ replaceAll accepts p replacement s := by
  induction text with
  | nil => rfl
  | cons c text ih =>
      rw [List.cons_append, replaceAll_none (none c List.mem_cons_self _), List.cons_append,
        ih fun d mem => none d (List.mem_cons_of_mem c mem)]

/-! ## Patterns -/

/-- A group of a counted leaf alone. -/
theorem matchAt_repeated (leaf : L) (n : Nat) (s : List α) :
    matchAt accepts ⟨[.repeated leaf n], []⟩ s =
      if n ≤ s.length ∧ (s.take n).all (accepts leaf) then some (n, n) else none := by
  unfold matchAt
  simp only [lengths]
  split
  · simp
  · rfl

/-- A group that starts with a leaf that the text does not start with. -/
theorem matchAt_plus_none {leaf : L} {c : α} (other : accepts leaf c = false)
    (group nodes : List (Node L)) (rest : List α) :
    matchAt accepts ⟨.plus leaf :: group, nodes⟩ (c :: rest) = none := by
  unfold matchAt
  simp only [lengths]
  rw [List.takeWhile_cons_of_neg (by rw [other]; decide)]
  rfl

end PatternReplace

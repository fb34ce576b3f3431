import Mathlib.Algebra.Order.BigOperators.Group.List
import Mathlib.Algebra.Order.Group.Nat
import Mathlib.Algebra.GroupWithZero.Nat

/-!
# Templates with escapes

A template is text in which an escape character and the character behind it may stand for
something: a part of a match, or the escape character itself.  A language says which ones do;
every other sequence stands for its own two characters.
-/

namespace EscapeTemplate

variable {α M : Type} [DecidableEq α]

/-- What a character behind an escape stands for, if it does not stand for itself. -/
abbrev Language (α M : Type) := α → Option (M → List α)

variable (esc : α)

/-- The expansion of a template, from left to right. -/
def expand (lang : Language α M) (m : M) : List α → List α
  | [] => []
  | [a] => [a]
  | a :: c :: rest =>
      if a = esc then
        match lang c with
        | some part => part m ++ expand lang m rest
        | none => a :: expand lang m (c :: rest)
      else a :: expand lang m (c :: rest)

/-- The characters behind the escapes, in their order. -/
def escapes : List α → List α
  | [] => []
  | [_] => []
  | a :: c :: rest => if a = esc then c :: escapes rest else escapes (c :: rest)

/-- The characters that belong to no escape. -/
def plain : List α → List α
  | [] => []
  | [a] => [a]
  | a :: c :: rest => if a = esc then plain rest else a :: plain (c :: rest)

/-- What an escape sequence expands to. -/
def stands (lang : Language α M) (m : M) (c : α) : List α :=
  match lang c with
  | some part => part m
  | none => [esc, c]

variable {esc} {lang : Language α M} (m : M)

theorem expand_plain {a : α} (other : a ≠ esc) (rest : List α) :
    expand esc lang m (a :: rest) = a :: expand esc lang m rest := by
  cases rest with
  | nil => rfl
  | cons c rest => rw [expand, if_neg other]

/-- Where the doubled escape is defined, an escape sequence is read as two characters. -/
theorem expand_escape (doubled : lang esc ≠ none) (c : α) (rest : List α) :
    expand esc lang m (esc :: c :: rest) =
      stands esc lang m c ++ expand esc lang m rest := by
  rw [expand, if_pos rfl, stands]
  cases meaning : lang c with
  | some part => rfl
  | none =>
      have other : c ≠ esc := by
        rintro rfl
        exact doubled meaning
      change esc :: expand esc lang m (c :: rest) = _
      rw [expand_plain m other]
      rfl

/-- Two languages that agree on the escapes of a template expand it alike. -/
theorem expand_congr {lang' : Language α M} (doubled : lang esc ≠ none)
    (doubled' : lang' esc ≠ none) {text : List α}
    (alike : ∀ c ∈ escapes esc text, stands esc lang m c = stands esc lang' m c) :
    expand esc lang m text = expand esc lang' m text := by
  induction text using escapes.induct esc with
  | case1 => rfl
  | case2 a => rfl
  | case3 c rest ih =>
      rw [escapes, if_pos rfl] at alike
      have head := alike c List.mem_cons_self
      rw [expand_escape m doubled, expand_escape m doubled', head,
        ih fun d found => alike d (List.mem_cons_of_mem c found)]
  | case4 a c rest other ih =>
      rw [escapes, if_neg other] at alike
      rw [expand_plain m other, expand_plain m other, ih alike]

/-- A character occurs in an expansion as often as outside the escapes and in what they stand
for. -/
theorem count_expand (doubled : lang esc ≠ none) (x : α) (text : List α) :
    (expand esc lang m text).count x =
      (plain esc text).count x +
        ((escapes esc text).map fun c => (stands esc lang m c).count x).sum := by
  induction text using escapes.induct esc with
  | case1 => rfl
  | case2 a => rfl
  | case3 c rest ih =>
      rw [expand_escape m doubled, escapes, plain, if_pos rfl, if_pos rfl, List.count_append,
        List.map_cons, List.sum_cons, ih]
      omega
  | case4 a c rest other ih =>
      rw [expand_plain m other, escapes, plain, if_neg other, if_neg other, List.count_cons,
        List.count_cons, ih]
      omega

/-- Where no escape stands for more of a character in one language than in another and the
expansions are equal, no escape stands for less of it either. -/
theorem count_stands_eq {lang' : Language α M} (doubled : lang esc ≠ none)
    (doubled' : lang' esc ≠ none) {x : α} {text : List α}
    (le : ∀ c, (stands esc lang m c).count x ≤ (stands esc lang' m c).count x)
    (same : expand esc lang m text = expand esc lang' m text) :
    ∀ c ∈ escapes esc text, (stands esc lang m c).count x = (stands esc lang' m c).count x := by
  intro c found
  by_contra differ
  have less : (stands esc lang m c).count x < (stands esc lang' m c).count x := by
    have := le c
    omega
  have sums := List.sum_lt_sum (fun c => (stands esc lang m c).count x)
    (fun c => (stands esc lang' m c).count x) (fun d _ => le d) ⟨c, found, less⟩
  have left := count_expand m doubled x text
  have right := count_expand m doubled' x text
  rw [same] at left
  omega

end EscapeTemplate

import PgClickhouse.Calls

/-!
# Positions in arrays

`array_position` becomes `indexOf`, on a slice if it has a start.

* `array_position_exact`: the value is the least position from the start on that holds the
  element, as far as ClickHouse's equality is PostgreSQL's; it is not for a NaN.
-/

namespace PgClickhouse.ArrayPosition

open Calls (Assumed Prints notDistinct)

variable {α : Type}

/-- An argument: an integer constant, NULL without a value, or anything else. -/
inductive Argument
  | Const (constvalue : Option Int)
  | other
  deriving Repr, DecidableEq

/-- The case `CF_ARRAY_POSITION` of `chfdw_is_shippable`. -/
def shippable (args : List Argument) : Bool :=
  if args.length = 2 then true
  else if args.length ≠ 3 then false
  else match (args[2]? : Option Argument) with
    | some (.Const (some start)) => decide (0 < start)
    | _ => false

/-- The case `CF_ARRAY_POSITION` of `deparseFuncExpr`. -/
def deparseArrayPosition (args : List Argument) : List Calls.Piece :=
  let start := args.length = 3
  [Calls.Piece.text "(", .text "nullIf(indexOf("] ++
    (if start then [Calls.Piece.text "arraySlice(", .arg 0, .text ", ", .arg 2, .text "), "]
      else [Calls.Piece.arg 0, .text ", "]) ++
    [Calls.Piece.arg 1, .text "), 0)"] ++
    (if start then [Calls.Piece.text " + (", .arg 2, .text " - 1)"] else []) ++
    [Calls.Piece.text ")"]

/-- The position of an element in an array, NULL instead of zero. -/
def found (array : Calls.Expr) : Calls.Expr :=
  .call₂ .nullIf (.call₂ .indexOf array (.arg 1)) (.number 0)

def positionExpr (start : Bool) : Calls.Expr :=
  .paren (if start then
    .plus (found (.call₂ .arraySlice (.arg 0) (.arg 2))) (.paren (.minus (.arg 2) (.number 1)))
  else found (.arg 0))

/-- What is shipped is a call without a start, or with a constant start of at least one. -/
theorem shippable_cases {third : Option Argument}
    (shipped : shippable ([.other, .other] ++ third.toList) = true) :
    third = none ∨ ∃ start, third = some (.Const (some start)) ∧ 0 < start := by
  cases third with
  | none => exact .inl rfl
  | some arg =>
      cases arg with
      | other => cases shipped
      | Const constvalue =>
          cases constvalue with
          | none => cases shipped
          | some start => exact .inr ⟨start, rfl, of_decide_eq_true shipped⟩

/-! ## Positions -/

section

variable (equal : α → α → Bool)

/-- A position, counted from one, that holds an element not distinct from `x`. -/
def Holds (xs : List (Option α)) (x : Option α) (p : Int) : Prop :=
  1 ≤ p ∧ ∃ y, xs[(p - 1).toNat]? = some y ∧ notDistinct equal x y = true

/-- The answer of `array_position`: the least position from `start` on that holds `x`, or NULL. -/
def Answers (xs : List (Option α)) (x : Option α) (start : Int) : Option Int → Prop
  | some p => start ≤ p ∧ Holds equal xs x p ∧ ∀ q, start ≤ q → q < p → ¬Holds equal xs x q
  | none => ∀ q, start ≤ q → ¬Holds equal xs x q

variable {equal}

/-- The answer depends on what is found in the array. -/
theorem answers_congr {equal' : α → α → Bool} {xs : List (Option α)} {x : Option α}
    (same : ∀ y ∈ xs, notDistinct equal x y = notDistinct equal' x y) {start : Int}
    {answer : Option Int} (answers : Answers equal xs x start answer) :
    Answers equal' xs x start answer := by
  have holds (p : Int) : Holds equal xs x p ↔ Holds equal' xs x p :=
    and_congr_right fun _ => exists_congr fun y => and_congr_right fun here => by
      rw [same y (List.mem_of_getElem? here)]
  cases answer with
  | none => exact fun q from_start => mt (holds q).mpr (answers q from_start)
  | some p =>
      obtain ⟨from_start, here, before⟩ := answers
      exact ⟨from_start, (holds p).mp here, fun q from_start earlier =>
        mt (holds q).mpr (before q from_start earlier)⟩

end

theorem indexOf_cases {β : Type} (searched : β → Bool) (xs : List β) :
    (Calls.indexOf searched xs = 0 ∧ ∀ y ∈ xs, searched y = false) ∨
      ∃ j : Nat, Calls.indexOf searched xs = j + 1 ∧ (∃ y, xs[j]? = some y ∧ searched y = true) ∧
        ∀ i < j, ∀ y, xs[i]? = some y → searched y = false := by
  unfold Calls.indexOf
  cases index : xs.findIdx? searched with
  | none => exact .inl ⟨rfl, List.findIdx?_eq_none_iff.mp index⟩
  | some j =>
      obtain ⟨inside, here, before⟩ := List.findIdx?_eq_some_iff_getElem.mp index
      refine .inr ⟨j, rfl, ⟨xs[j], List.getElem?_eq_getElem inside, here⟩, ?_⟩
      intro i earlier y value
      obtain ⟨within, rfl⟩ := List.getElem?_eq_some_iff.mp value
      exact Bool.eq_false_iff.mpr (before i earlier)

/-- A search in the rest of an array, moved by what is before it, is a search from there on. -/
theorem answers_drop (equal : α → α → Bool) (xs : List (Option α)) (x : Option α) {start : Int}
    (positive : 1 ≤ start) :
    Answers equal xs x start
      (if Calls.indexOf (notDistinct equal x) (xs.drop (start - 1).toNat) = 0 then none
        else some (Calls.indexOf (notDistinct equal x) (xs.drop (start - 1).toNat) +
          (start - 1))) := by
  have place (q : Int) (from_start : start ≤ q) :
      xs[(q - 1).toNat]? = (xs.drop (start - 1).toNat)[(q - start).toNat]? := by
    rw [List.getElem?_drop]
    congr 1
    omega
  rcases indexOf_cases (notDistinct equal x) (xs.drop (start - 1).toNat) with
    ⟨zero, absent⟩ | ⟨j, index, ⟨y, here, found⟩, before⟩
  · rw [if_pos zero]
    rintro q from_start ⟨-, y, held, found⟩
    rw [place q from_start] at held
    exact Bool.false_ne_true ((absent y (List.mem_of_getElem? held)).symm.trans found)
  · rw [if_neg (by omega), index]
    have moved : ((j : Int) + 1 + (start - 1) - start).toNat = j := by omega
    refine ⟨by omega, ⟨by omega, y, ?_, found⟩, ?_⟩
    · rw [place _ (by omega), moved, here]
    · rintro q from_start earlier ⟨-, y, held, found⟩
      rw [place q from_start] at held
      exact Bool.false_ne_true ((before _ (by omega) y held).symm.trans found)

/-! ## Values -/

def positionArgs (xs : List (Option α)) (x : Option α) (start : Int) : Nat → Calls.Value α
  | 0 => .array xs
  | 1 => .ofItem x
  | _ => .number start

def ofPosition : Option Int → Calls.Value α
  | some p => .number p
  | none => .null

variable [DecidableEq α] (assumed : Assumed α)

omit [DecidableEq α] in
/-- What is equal to no element is not found. -/
theorem indexOf_absent {searched : Option α → Bool} {xs : List (Option α)}
    (absent : ∀ y ∈ xs, searched y = false) : Calls.indexOf searched xs = 0 := by
  rcases indexOf_cases searched xs with ⟨zero, -⟩ | ⟨j, -, ⟨y, here, found⟩, -⟩
  · exact zero
  · rw [absent y (List.mem_of_getElem? here)] at found
    cases found

theorem eval_found (args : Nat → Calls.Value α) {array : Calls.Expr} {xs : List (Option α)}
    {x : Option α}
    (value : array.eval assumed args = some (.array xs)) (searched : args 1 = .ofItem x) :
    (found array).eval assumed args =
      some (if Calls.indexOf (notDistinct assumed.equal x) xs = 0 then .null
        else .number (Calls.indexOf (notDistinct assumed.equal x) xs)) := by
  have index : (Calls.Expr.call₂ .indexOf array (.arg 1)).eval assumed args =
      some (.number (Calls.indexOf (notDistinct assumed.equal x) xs)) := by
    rw [Calls.Expr.eval, value, Calls.Expr.eval, searched]
    cases x <;> rfl
  rw [found, Calls.Expr.eval, index]
  rfl

/-- The position that is found in the rest of an array from `start` on. -/
def foundFrom (xs : List (Option α)) (x : Option α) (start : Int) : Option Int :=
  let index := Calls.indexOf (notDistinct assumed.equal x) (xs.drop (start - 1).toNat)
  if index = 0 then none else some (index + (start - 1))

theorem eval_position (xs : List (Option α)) (x : Option α) {start : Int} (positive : 1 ≤ start) :
    (positionExpr true).eval assumed (positionArgs xs x start) =
      some (ofPosition (foundFrom assumed xs x start)) := by
  have slice :
      (Calls.Expr.call₂ .arraySlice (.arg 0) (.arg 2)).eval assumed (positionArgs xs x start) =
        some (.array (xs.drop (start - 1).toNat)) := by
    have rest : Calls.arraySlice xs start none = xs.drop (start - 1).toNat := by
      unfold Calls.arraySlice
      rw [if_pos (by omega)]
      exact Windows.window_of_length_le _ (Int.le_refl _)
    rw [← rest]
    rfl
  have value := eval_found assumed (positionArgs xs x start) slice (rfl : _ = Calls.Value.ofItem x)
  change ((found _).eval assumed (positionArgs xs x start) >>= fun left =>
    Calls.Value.arith (· + ·) left (.number (start - 1))) = _
  rw [value, foundFrom]
  by_cases none : Calls.indexOf (notDistinct assumed.equal x) (xs.drop (start - 1).toNat) = 0
  · rw [if_pos none, if_pos none]
    rfl
  · rw [if_neg none, if_neg none]
    rfl

theorem eval_position_whole (xs : List (Option α)) (x : Option α) :
    (positionExpr false).eval assumed (positionArgs xs x 1) =
      some (ofPosition (foundFrom assumed xs x 1)) := by
  have array : (Calls.Expr.arg 0).eval assumed (positionArgs xs x 1) = some (.array xs) := rfl
  have value := eval_found assumed (positionArgs xs x 1) array (rfl : _ = Calls.Value.ofItem x)
  change (found (.arg 0)).eval assumed (positionArgs xs x 1) = _
  rw [value]
  change _ = some (ofPosition (if Calls.indexOf (notDistinct assumed.equal x) xs = 0 then none
    else some (Calls.indexOf (notDistinct assumed.equal x) xs + 0)))
  by_cases none : Calls.indexOf (notDistinct assumed.equal x) xs = 0
  · rw [if_pos none, if_pos none]
    rfl
  · rw [if_neg none, if_neg none, Int.add_zero]
    rfl

omit [DecidableEq α] in
theorem foundFrom_spec (equal : α → α → Bool) (xs : List (Option α)) (x : Option α) {start : Int}
    (positive : 1 ≤ start) :
    ((∀ y ∈ xs, notDistinct assumed.equal x y = notDistinct equal x y) →
        Answers equal xs x start (foundFrom assumed xs x start)) ∧
      ((∀ y ∈ xs, notDistinct assumed.equal x y = false) →
        foundFrom assumed xs x start = none) := by
  refine ⟨fun same => answers_congr same (answers_drop assumed.equal xs x positive), ?_⟩
  intro absent
  exact if_pos (indexOf_absent fun y member => absent y (List.mem_of_mem_drop member))

/-- A pushed-down `array_position` has PostgreSQL's answer if the two equalities find the same
elements of the array.  What is equal to no element in ClickHouse, as NaN, is not found. -/
theorem array_position_exact {third : Option Argument}
    (shipped : shippable ([.other, .other] ++ third.toList) = true) (equal : α → α → Bool)
    (xs : List (Option α)) (x : Option α) :
    ∃ start answer, (third = none ∧ start = 1 ∨ third = some (.Const (some start))) ∧
      Prints (deparseArrayPosition ([.other, .other] ++ third.toList)) (positionExpr third.isSome) ∧
      (positionExpr third.isSome).eval assumed (positionArgs xs x start) =
        some (ofPosition answer) ∧
      ((∀ y ∈ xs, notDistinct assumed.equal x y = notDistinct equal x y) →
        Answers equal xs x start answer) ∧
      ((∀ y ∈ xs, notDistinct assumed.equal x y = false) → answer = none) := by
  rcases shippable_cases shipped with rfl | ⟨start, rfl, positive⟩
  · exact ⟨1, _, .inl ⟨rfl, rfl⟩, rfl, eval_position_whole assumed xs x,
      foundFrom_spec assumed equal xs x (Int.le_refl 1)⟩
  · exact ⟨start, _, .inr rfl, rfl, eval_position assumed xs x (by omega),
      foundFrom_spec assumed equal xs x (by omega)⟩

/-- Small numbers, with the zero of their type. -/
def numbers : Assumed Nat := ⟨some 0, (· == ·), fun _ => false, [[]], Calls.one_part⟩

/-- The second NULL of an array, searched from the third position on. -/
theorem array_position_exact_null :
    ∃ answer, (positionExpr true).eval numbers (positionArgs [none, some 5, some 6, none] none 3) =
        some (ofPosition answer) ∧
      Answers (· == ·) [none, some 5, some 6, none] none 3 answer := by
  have shipped :
      shippable ([.other, .other] ++ (some (Argument.Const (some 3))).toList) = true := by
    decide
  obtain ⟨start, answer, bound, -, value, answers, -⟩ :=
    array_position_exact numbers shipped (· == ·) [none, some 5, some 6, none] none
  rcases bound with ⟨without, -⟩ | bound
  · cases without
  · cases bound
    exact ⟨answer, value, answers fun _ _ => rfl⟩

inductive Float8
  | nan
  | number (i : Int)
  deriving Repr, DecidableEq

/-- ClickHouse takes a NaN for equal to no number. -/
def floats : Assumed Float8 :=
  ⟨some (.number 0), fun x y => x == y && x != .nan, fun _ => false, [[]], Calls.one_part⟩

/-- `array_position(ARRAY['NaN'::float8], 'NaN')` is 1, and NULL where it is pushed down. -/
theorem nan_not_found :
    shippable [.other, .other] = true ∧
      Answers (· == ·) [some Float8.nan] (some .nan) 1 (some 1) ∧
      (positionExpr false).eval floats (positionArgs [some .nan] (some .nan) 1) = some .null ∧
      ¬ Answers (· == ·) [some Float8.nan] (some .nan) 1 none := by
  have first : Holds (· == ·) [some Float8.nan] (some .nan) 1 := ⟨by decide, some .nan, rfl, rfl⟩
  refine ⟨rfl, ⟨Int.le_refl 1, first, fun q low high => absurd high (by omega)⟩, by decide, ?_⟩
  exact fun absent => absent 1 (Int.le_refl 1) first

end PgClickhouse.ArrayPosition

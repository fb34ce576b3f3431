import PgClickhouse.Calls

/-!
# Subscripts and slices of arrays

`a[i]` is written as it is, and a slice as `arraySlice`.  PostgreSQL counts from one and has
nothing outside of an array; ClickHouse counts what is not positive from the right.

* `subscripts_iff`: the bounds for which the emitted text has PostgreSQL's value.
-/

namespace PgClickhouse.Subscripts

open Calls (Assumed Prints)
open Windows (window)

/-! ## Emitter -/

/-- A `SubscriptingRef`, with its subexpressions by number; the array is expression 0. -/
structure SubscriptingRef where
  refexprIsVar : Bool
  refcontainertypeIsArray : Bool
  refassgnexpr : Option Nat
  refupperindexpr : List (Option Nat)
  reflowerindexpr : List (Option Nat)
  deriving Repr, DecidableEq

/-- The case of `foreign_expr_walker`, with the result for the subexpressions. -/
def accepted (walker : Nat → Bool) (node : SubscriptingRef) : Bool :=
  node.refassgnexpr.isNone && node.refcontainertypeIsArray &&
    node.refupperindexpr.all (fun e => e.all walker) &&
    node.reflowerindexpr.all (fun e => e.all walker) && walker 0

/-- A lower bound, one if it is missing. -/
def deparseLower : Option Nat → Calls.Piece
  | some lower => .arg lower
  | none => .text "1"

def deparseSubscriptingRef (node : SubscriptingRef) : List Calls.Piece :=
  match node.reflowerindexpr with
  | lower :: _ =>
      let upper := node.refupperindexpr.headD none
      [.text "arraySlice(", .arg 0, .text ", ", deparseLower lower] ++
        (match upper with
          | some upper => [.text ", (", .arg upper, .text ") - (", deparseLower lower,
              .text ") + 1"]
          | none => []) ++
        [.text ")"]
  | [] =>
      [.text "("] ++
        (if node.refexprIsVar then [.arg 0] else [.text "(", .arg 0, .text ")"]) ++
        node.refupperindexpr.flatMap (fun index =>
          [.text "["] ++ index.toList.map Calls.Piece.arg ++ [.text "]"]) ++
        [.text ")"]

/-! ## Forms -/

variable {α : Type}

/-- A subscript of an array: an element, or a slice of which a bound may be missing. -/
inductive Form
  | element (i : Int)
  | slice (lower upper : Option Int)
  deriving Repr, DecidableEq

/-- The node of a form.  Expression 1 is the position or the lower bound, 2 the upper bound. -/
def Form.node (refexprIsVar : Bool) : Form → SubscriptingRef
  | .element _ => ⟨refexprIsVar, true, none, [some 1], []⟩
  | .slice lower upper =>
      ⟨refexprIsVar, true, none, [upper.map fun _ => 2], [lower.map fun _ => 1]⟩

def Form.args (xs : List (Option α)) (form : Form) : Nat → Calls.Value α
  | 0 => .array xs
  | 1 => match form with
      | .element i => .number i
      | .slice lower _ => .number (lower.getD 1)
  | _ => match form with
      | .element _ => .null
      | .slice _ upper => .number (upper.getD 1)

/-- A lower bound in an expression. -/
def lowerExpr : Option Int → Calls.Expr
  | some _ => .arg 1
  | none => .number 1

/-- The expression that is printed for a form. -/
def Form.expr (refexprIsVar : Bool) : Form → Calls.Expr
  | .element _ => .paren (.index (if refexprIsVar then .arg 0 else .paren (.arg 0)) (.arg 1))
  | .slice lower none => .call₂ .arraySlice (.arg 0) (lowerExpr lower)
  | .slice lower (some _) => .call₃ .arraySlice (.arg 0) (lowerExpr lower)
      (.plus (.minus (.paren (.arg 2)) (.paren (lowerExpr lower))) (.number 1))

theorem accepted_node (walker : Nat → Bool) (all : ∀ n, walker n = true) (refexprIsVar : Bool)
    (form : Form) : accepted walker (form.node refexprIsVar) = true := by
  cases form with
  | element i => simp [accepted, Form.node, all]
  | slice lower upper =>
      cases lower <;> cases upper <;> simp [accepted, Form.node, all]

theorem deparse_expr (refexprIsVar : Bool) (form : Form) :
    Prints (deparseSubscriptingRef (form.node refexprIsVar)) (form.expr refexprIsVar) := by
  cases form with
  | element i => cases refexprIsVar <;> rfl
  | slice lower upper => cases lower <;> cases upper <;> rfl

/-! ## PostgreSQL -/

/-- The element at a position, NULL outside of the array. -/
def pgElement (xs : List (Option α)) (i : Int) : Option α :=
  if 1 ≤ i ∧ i ≤ xs.length then xs[(i - 1).toNat]?.getD none else none

/-- The intersection of the array and the bounds; a bound that is missing is the array's. -/
def pgSlice (xs : List (Option α)) (lower upper : Option Int) : List (Option α) :=
  window (lower.getD 1 - 1) (upper.getD xs.length) xs

def Form.pg (xs : List (Option α)) : Form → Calls.Value α
  | .element i => .ofItem (pgElement xs i)
  | .slice lower upper => .array (pgSlice xs lower upper)

/-! ## Where they agree -/

/-- A position within the array; or a position from the end that holds a NULL; or any other if
the default of the elements is NULL. -/
def elementAgrees (default : Option α) (xs : List (Option α)) (i : Int) : Prop :=
  (1 ≤ i ∧ i ≤ xs.length) ∨
    (-xs.length ≤ i ∧ i ≤ -1 ∧ xs[((xs.length : Int) + i).toNat]? = some none) ∨
    ((i < -xs.length ∨ i = 0 ∨ xs.length < i) ∧ default = none)

/-- Bounds of a slice, by what is counted from the right: nothing, the length, the offset with an
upper bound before the array, and the offset with an upper bound in it or behind it. -/
def sliceAgrees (xs : List (Option α)) : Option Int → Option Int → Prop
  | none, none => True
  | some l, none => 1 ≤ l ∨ xs.length ≤ -l
  | none, some u => 0 ≤ u ∨ xs.length ≤ -u
  | some l, some u =>
      if 1 ≤ l then l - 1 ≤ u ∨ xs.length ≤ 2 * (l - 1) - u
      else if u ≤ 0 then
        l = 0 ∨ xs.length = 0 ∨ (l - 1 ≤ u ∧ (u = l - 1 ∨ xs.length < -u)) ∨
          (u < l - 1 ∧ (u ≤ 2 * l - 1 ∨ xs.length < l - u))
      else
        (xs.length ≤ -l ∧ xs.length ≤ u) ∨
          (u = -l ∧ xs.take u.toNat = xs.drop (xs.length - u.toNat))

def Form.agrees (default : Option α) (xs : List (Option α)) : Form → Prop
  | .element i => elementAgrees default xs i
  | .slice lower upper => sliceAgrees xs lower upper

variable {xs : List (Option α)}

theorem element_iff (default : Option α) (i : Int) :
    Calls.element default xs i = pgElement xs i ↔ elementAgrees default xs i := by
  unfold Calls.element pgElement elementAgrees
  by_cases inside : 1 ≤ i ∧ i ≤ xs.length
  · rw [if_pos (by omega), if_pos inside]
    have found : (i - 1).toNat < xs.length := by omega
    rw [List.getElem?_eq_getElem found]
    exact ⟨fun _ => .inl inside, fun _ => rfl⟩
  rw [if_neg inside]
  by_cases fromEnd : -xs.length ≤ i ∧ i ≤ -1
  · rw [if_neg (by omega), if_pos (by omega)]
    have found : ((xs.length : Int) + i).toNat < xs.length := by omega
    rw [List.getElem?_eq_getElem found]
    constructor
    · intro same
      exact .inr (.inl ⟨fromEnd.1, fromEnd.2, congrArg some same⟩)
    · intro agrees
      rcases agrees with within | ⟨-, -, same⟩ | ⟨outside, -⟩
      · exact absurd within inside
      · exact Option.some_inj.mp same
      · omega
  · have outside : i < -xs.length ∨ i = 0 ∨ xs.length < i := by omega
    have value : (if 0 < i then xs[(i - 1).toNat]?.getD default
        else if 0 < -i ∧ -i ≤ xs.length then xs[((xs.length : Int) + i).toNat]?.getD default
        else default) = default := by
      by_cases positive : 0 < i
      · rw [if_pos positive, List.getElem?_eq_none (by omega)]
        rfl
      · rw [if_neg positive, if_neg (by omega)]
    rw [value]
    constructor
    · intro same
      exact .inr (.inr ⟨outside, same⟩)
    · intro agrees
      rcases agrees with within | ⟨above, below, -⟩ | ⟨-, same⟩
      · exact absurd within inside
      · exact absurd ⟨above, below⟩ fromEnd
      · exact same

/-- Without an upper bound. -/
theorem open_slice_iff (l : Int) :
    Calls.arraySlice xs l none = window (l - 1) xs.length xs ↔ 1 ≤ l ∨ (xs.length : Int) ≤ -l := by
  unfold Calls.arraySlice
  by_cases left : 1 ≤ l
  · rw [if_pos (by omega)]
    exact ⟨fun _ => .inl left, fun _ => rfl⟩
  · rw [if_neg (by omega)]
    dsimp only
    rw [Windows.window_of_length_le _ (Int.le_refl _),
      Windows.window_of_length_le _ (Int.le_refl _)]
    have all : (l - 1).toNat = 0 := by omega
    rw [all, List.drop_zero, or_iff_right left]
    constructor
    · intro same
      have lengths := congrArg List.length same
      rw [List.length_drop] at lengths
      omega
    · intro whole
      have start : ((xs.length : Int) + l).toNat = 0 := by omega
      rw [start, List.drop_zero]

/-- From the left, with a length that may be negative. -/
theorem left_slice_iff {l : Int} (u : Int) (left : 1 ≤ l) :
    Calls.arraySlice xs l (some (u - l + 1)) = window (l - 1) u xs ↔
      l - 1 ≤ u ∨ (xs.length : Int) ≤ 2 * (l - 1) - u := by
  unfold Calls.arraySlice
  rw [if_pos (by omega)]
  by_cases ordered : l - 1 ≤ u
  · have stop : l - 1 + (u - l + 1) = u := by omega
    dsimp only
    rw [if_neg (by omega), stop]
    exact ⟨fun _ => .inl ordered, fun _ => rfl⟩
  · have nothing : window (l - 1) u xs = [] := (Windows.window_eq_nil_iff _ _).mpr (by omega)
    dsimp only
    rw [if_pos (by omega), nothing, Windows.window_eq_nil_iff]
    omega

/-- From the right, where PostgreSQL has the first elements. -/
theorem right_slice_iff {l : Int} (u : Int) (right : ¬1 ≤ l) :
    Calls.arraySlice xs l (some (u - l + 1)) = window (l - 1) u xs ↔
      if u ≤ 0 then
        l = 0 ∨ xs.length = 0 ∨ (l - 1 ≤ u ∧ (u = l - 1 ∨ (xs.length : Int) < -u)) ∨
          (u < l - 1 ∧ (u ≤ 2 * l - 1 ∨ (xs.length : Int) < l - u))
      else
        ((xs.length : Int) ≤ -l ∧ (xs.length : Int) ≤ u) ∨
          (u = -l ∧ xs.take u.toNat = xs.drop (xs.length - u.toNat)) := by
  unfold Calls.arraySlice
  rw [if_neg (by omega), Windows.window_of_nonpos u (by omega : l - 1 ≤ 0)]
  dsimp only
  by_cases empty : u ≤ 0
  · have nothing : xs.take u.toNat = [] := (Windows.take_toNat_eq_nil_iff u).mpr (.inr empty)
    rw [if_pos empty, nothing, Windows.window_eq_nil_iff]
    by_cases short : u - l + 1 < 0
    · rw [if_pos short]
      omega
    · rw [if_neg short]
      omega
  · rw [if_neg empty, if_neg (by omega), Windows.window_of_length_le _ (by omega), eq_comm,
      Windows.take_eq_drop_iff]
    constructor
    · rintro (⟨long, zero⟩ | ⟨zero, -⟩ | none | ⟨inside, same⟩)
      · omega
      · omega
      · omega
      · by_cases shorter : -l < xs.length
        · exact .inr ⟨by omega, same⟩
        · omega
    · rintro (⟨whole, long⟩ | ⟨equal, same⟩)
      · omega
      · by_cases shorter : -l < xs.length
        · exact .inr (.inr (.inr ⟨by omega, same⟩))
        · omega

theorem slice_iff (lower upper : Option Int) :
    Calls.arraySlice xs (lower.getD 1) (upper.map fun u => u - lower.getD 1 + 1) =
      pgSlice xs lower upper ↔ sliceAgrees xs lower upper := by
  cases upper with
  | none =>
      refine Iff.trans (open_slice_iff (lower.getD 1)) ?_
      cases lower with
      | none => exact ⟨fun _ => trivial, fun _ => .inl (Int.le_refl 1)⟩
      | some l => exact Iff.rfl
  | some u =>
      cases lower with
      | none =>
          refine Iff.trans (left_slice_iff u (Int.le_refl 1)) ?_
          change (1 - 1 ≤ u ∨ (xs.length : Int) ≤ 2 * (1 - 1) - u) ↔
            0 ≤ u ∨ (xs.length : Int) ≤ -u
          omega
      | some l =>
          unfold sliceAgrees
          dsimp only
          by_cases left : 1 ≤ l
          · rw [if_pos left]
            exact left_slice_iff u left
          · rw [if_neg left]
            exact right_slice_iff u left

/-! ## Values -/

variable [DecidableEq α] (assumed : Assumed α)

/-- The value of the expression of a form. -/
theorem eval_expr (refexprIsVar : Bool) (form : Form) :
    (form.expr refexprIsVar).eval assumed (form.args xs) =
      some (match form with
        | .element i => .ofItem (Calls.element assumed.default xs i)
        | .slice lower upper => .array (Calls.arraySlice xs (lower.getD 1)
            (upper.map fun u => u - lower.getD 1 + 1))) := by
  cases form with
  | element i => cases refexprIsVar <;> rfl
  | slice lower upper => cases lower <;> cases upper <;> rfl

/-- Every subscript and slice is pushed down, and the text has PostgreSQL's value just when its
bounds are among those where the two systems agree. -/
theorem subscripts_iff (refexprIsVar : Bool) (form : Form) (xs : List (Option α)) :
    accepted (fun _ => true) (form.node refexprIsVar) = true ∧
    Prints (deparseSubscriptingRef (form.node refexprIsVar)) (form.expr refexprIsVar) ∧
    ((form.expr refexprIsVar).eval assumed (form.args xs) = some (form.pg xs) ↔
      form.agrees assumed.default xs) := by
  refine ⟨accepted_node _ (fun _ => rfl) refexprIsVar form, deparse_expr refexprIsVar form, ?_⟩
  rw [eval_expr, Option.some_inj]
  cases form with
  | element i => exact Iff.trans Calls.Value.ofItem_inj (element_iff assumed.default i)
  | slice lower upper =>
      refine Iff.trans ?_ (slice_iff lower upper)
      exact ⟨fun same => Calls.Value.array.inj same, fun same => congrArg Calls.Value.array same⟩

/-- Arrays of two numbers without NULL, with the zero of their type. -/
def numbers : Assumed Nat := ⟨some 0, (· == ·), fun _ => false, [[]], Calls.one_part⟩

/-- The position before the first of two elements is the last of them. -/
theorem not_subscripts :
    ¬(∀ (form : Form) (xs : List (Option Nat)),
        accepted (fun _ => true) (form.node true) = true →
        (form.expr true).eval numbers (form.args xs) = some (form.pg xs)) ∧
      ((Form.element (-1)).expr true).eval numbers ((Form.element (-1)).args [some 1, some 2]) =
        some (.item 2) ∧
      (Form.element (-1)).pg [some 1, some 2] = .null := by
  refine ⟨fun equal => ?_, rfl, rfl⟩
  have same := equal (.element (-1)) [some 1, some 2] rfl
  exact absurd same (by decide)

end PgClickhouse.Subscripts

import Mathlib.Algebra.Ring.Nat
import Mathlib.Data.List.Count
import Mathlib.Data.List.Dedup
import PgClickhouse.Basic
import PgClickhouse.Kleene
import PgClickhouse.Nullability

/-!
# Comparisons with the elements of an array

`x = ANY (array)` and its kin are emitted as a native IN or NOT IN list, as a comparison
of `countEqual` with `length`, or as a CASE that checks for NULLs when the query runs.
The native and the short forms see a NULL element as an ordinary value, so each of them
is chosen only where no NULL can make a difference.

Main facts:

* `ExecEvalScalarArrayOp_eq` : PostgreSQL's loop connects the comparisons by OR or AND
* `deparseScalarArrayOpExpr_faithful` : the text has PostgreSQL's three-valued result, and
  in a truth context is true for the same rows
-/

namespace PgClickhouse.Deparse

variable {V : Type} [DecidableEq V]

/-! ## Arrays -/

/-- `ArrayGetNItems`. -/
def ArrayGetNItems (dims : List Nat) : Nat :=
  if dims = [] then 0 else dims.prod

/-- An array value.  One without a null bitmap has no NULL element. -/
structure ArrayType (V : Type) where
  dims : List Nat
  hasnull : Bool
  elements : List (Option V)
  sized : elements.length = ArrayGetNItems dims
  no_bitmap : hasnull = false → none ∉ elements

/-- The right operand of a comparison with ANY or ALL.  `node` stands for every array that
is neither a constant nor an ARRAY constructor. -/
inductive ArrayArg (V : Type)
  | Const (constvalue : Option (ArrayType V))
  | ArrayExpr (elements : List (Expr V)) (multidims : Bool)
  | node (index : Nat)

/-- The elements of a one-dimensional array.  An empty array has no dimension. -/
def ArrayType.values (array : ArrayType V) : Option (List (Option V)) :=
  if array.dims.length ≤ 1 then some array.elements else none

/-- The one-dimensional array an expression evaluates to. -/
def ArrayArg.eval (env : Env V) : ArrayArg V → Option (List (Option V))
  | .Const constvalue => constvalue.bind ArrayType.values
  | .ArrayExpr elements multidims =>
      if multidims then none else some (Expr.evalList env elements)
  | .node index => env.array index

/-- What is known at plan time about NULL elements of an array. -/
inductive SaopArrayNulls
  | EMPTY
  | NULL_FREE
  | UNKNOWN
  deriving Repr, DecidableEq

def saop_array_nulls (pg : Postgres) (glob_cxt : foreign_glob_cxt) :
    ArrayArg V → SaopArrayNulls
  | .Const none => .UNKNOWN
  | .Const (some array) =>
      if ArrayGetNItems array.dims = 0 then .EMPTY
      else if array.hasnull then .UNKNOWN else .NULL_FREE
  | .ArrayExpr elements multidims =>
      if multidims then .UNKNOWN
      else if elements.isEmpty then .EMPTY
      else if args_never_null pg glob_cxt elements then .NULL_FREE else .UNKNOWN
  | .node _ => .UNKNOWN

/-- True for an array constant with a dimension.  A NULL constant has no dimensions to
read; the walker keeps it local. -/
def is_ok_in_expr : ArrayArg V → Bool
  | .Const (some array) => 0 < array.dims.length
  | _ => false

/-! ## PostgreSQL's evaluation -/

inductive CHEqualOp
  | NONE
  | EQ
  | NE
  deriving Repr, DecidableEq

def chfdw_is_equal_op (oprname : Bytes) : CHEqualOp :=
  if oprname = ascii "=" then .EQ
  else if oprname.take 2 = ascii "<>" then .NE
  else .NONE

/-- The operators that can be pushed down with ANY and ALL. -/
inductive Comparison
  | eq
  | ne
  deriving Repr, DecidableEq

def Comparison.oprname : Comparison → Bytes
  | .eq => ascii "="
  | .ne => ascii "<>"

/-- The operator function; it is strict. -/
@[grind =] def Comparison.apply (op : Comparison) : Option V → Option V → Option Bool
  | some x, some y => some (match op with | .eq => x == y | .ne => x != y)
  | _, _ => none

structure ScalarArrayOpExpr (V : Type) where
  op : Comparison
  useOr : Bool
  arg1 : Expr V
  arg2 : ArrayArg V

/-- The loop over the elements; `resultnull` is set once a comparison was NULL. -/
def saopLoop (useOr : Bool) : List (Option Bool) → Bool → Option Bool
  | [], resultnull => if resultnull then none else some (!useOr)
  | none :: rest, _ => saopLoop useOr rest true
  | some thisresult :: rest, resultnull =>
      if thisresult = useOr then some useOr else saopLoop useOr rest resultnull

/-- An empty array answers before the scalar is looked at. -/
def ExecEvalScalarArrayOp (op : Comparison) (useOr : Bool) (scalar : Option V)
    (elements : List (Option V)) : Option Bool :=
  if elements = [] then some (!useOr)
  else if scalar = none then none
  else saopLoop useOr (elements.map (op.apply scalar)) false

/-! ## The text and its evaluation by ClickHouse -/

/-- An argument of a ClickHouse function: the text of an expression, or `NULL`. -/
inductive Operand (V : Type)
  | sql (e : Expr V)
  | NULL

/-- Numbers computed from the array. -/
inductive Count (V : Type)
  | number (n : Nat)
  | length (arr : ArrayArg V)
  | countEqual (arr : ArrayArg V) (x : Operand V)
  | minus (a b : Count V)

inductive Condition (V : Type)
  | IN (probe : Operand V) (list : ArrayArg V)
  | NOT_IN (probe : Operand V) (list : ArrayArg V)
  | has (arr : ArrayArg V) (x : Operand V)
  | less (a b : Count V)
  | equal (a b : Count V)
  | greater (a b : Count V)
  | IS_NULL (x : Operand V)
  | notEmpty (arr : ArrayArg V)
  | AND (a b : Condition V)

/-- The text of a comparison: a condition, or a CASE with its branches. -/
inductive SaopText (V : Type)
  | condition (c : Condition V)
  | CASE (whens : List (Condition V × Option Bool)) (otherwise : Option Bool)

section Semantics

variable (env : Env V)

omit [DecidableEq V] in
@[grind =] def Operand.eval : Operand V → Option V
  | .sql e => e.eval env
  | .NULL => none

/-- The elements ClickHouse sees; it has no NULL arrays. -/
def ArrayArg.elements (arr : ArrayArg V) : List (Option V) :=
  (arr.eval env).getD []

/-- `countEqual` counts a NULL as equal to a NULL. -/
def Count.eval : Count V → Int
  | .number n => n
  | .length arr => (arr.elements env).length
  | .countEqual arr x => (arr.elements env).count (x.eval env)
  | .minus a b => a.eval - b.eval

/-- IN and NOT IN give NULL for a NULL probe, and for every other probe look for an equal
element; `has` also finds a NULL. -/
@[grind =] def Condition.eval : Condition V → Option Bool
  | .IN probe list =>
      (probe.eval env).map fun x => (list.elements env).contains (some x)
  | .NOT_IN probe list =>
      (probe.eval env).map fun x => !(list.elements env).contains (some x)
  | .has arr x => some ((arr.elements env).contains (x.eval env))
  | .less a b => some (a.eval env < b.eval env)
  | .equal a b => some (a.eval env = b.eval env)
  | .greater a b => some (a.eval env > b.eval env)
  | .IS_NULL x => some (x.eval env).isNone
  | .notEmpty arr => some !(arr.elements env).isEmpty
  | .AND a b => Kleene.and a.eval b.eval

/-- The first branch whose condition is true. -/
def SaopText.eval : SaopText V → Option Bool
  | .condition c => c.eval env
  | .CASE [] otherwise => otherwise
  | .CASE ((c, result) :: whens) otherwise =>
      if c.eval env = some true then result else SaopText.eval (.CASE whens otherwise)

end Semantics

@[simp] theorem SaopText.eval_condition (env : Env V) (c : Condition V) :
    (SaopText.condition c).eval env = c.eval env := by
  rw [SaopText.eval]

/-! ## Emission -/

/-- `CASE WHEN probe IS NULL AND notEmpty(arr) THEN NULL WHEN .. THEN match_result
WHEN countEqual(arr, NULL) > 0 THEN NULL ELSE no_match_result END`. -/
def deparseGuardedScalarArrayOp (useOr : Bool) (optype : CHEqualOp) (probe : Expr V)
    (arr : ArrayArg V) : SaopText V :=
  let exhaustive_op : CHEqualOp := if useOr then .NE else .EQ
  let match_result := if useOr then true else false
  let no_match_result := if useOr then false else true
  .CASE
    [(.AND (.IS_NULL (.sql probe)) (.notEmpty arr), none),
      (if optype ≠ exhaustive_op then .greater (.countEqual arr (.sql probe)) (.number 0)
        else
          .greater
            (.minus (.minus (.length arr) (.countEqual arr (.sql probe)))
              (.countEqual arr .NULL))
            (.number 0),
        some match_result),
      (.greater (.countEqual arr .NULL) (.number 0), none)]
    (some no_match_result)

def deparseAsIn (node : ScalarArrayOpExpr V) (optype : CHEqualOp) : Condition V :=
  if optype = .EQ then .IN (.sql node.arg1) node.arg2 else .NOT_IN (.sql node.arg1) node.arg2

/-- The forms without a guard, one for each of `= ANY`, `<> ANY`, `= ALL` and `<> ALL`. -/
def cheapForm (useOr : Bool) (optype : CHEqualOp) (arg1 : Expr V) (arg2 : ArrayArg V) :
    Condition V :=
  if useOr ∧ optype = .EQ then .has arg2 (.sql arg1)
  -- an array element differs if there are fewer matches than elements
  else if useOr then .less (.countEqual arg2 (.sql arg1)) (.length arg2)
  else if optype = .EQ then .equal (.countEqual arg2 (.sql arg1)) (.length arg2)
  else .equal (.countEqual arg2 (.sql arg1)) (.number 0)

def deparseScalarArrayOpExpr (pg : Postgres) (glob_cxt : foreign_glob_cxt)
    (truth_ctx : Bool) (node : ScalarArrayOpExpr V) : Except String (SaopText V) :=
  let arg1 := node.arg1
  let arg2 := node.arg2
  let optype := chfdw_is_equal_op node.op.oprname
  if optype = .NONE then
    .error "pg_clickhouse supports only equal and not equal operations on ANY/ALL functions"
  else
    let nulls := saop_array_nulls pg glob_cxt arg2
    if (nulls = .NULL_FREE ∨ (truth_ctx ∧ node.useOr ∧ optype = .EQ)) ∧ is_ok_in_expr arg2 ∧
        ((node.useOr ∧ optype = .EQ) ∨ (¬ node.useOr ∧ optype = .NE)) then
      .ok (.condition (deparseAsIn node optype))
    else
      let cheap_ok := nulls = .EMPTY ∨ (nulls = .NULL_FREE ∧ expr_never_null pg glob_cxt arg1)
      if cheap_ok then .ok (.condition (cheapForm node.useOr optype arg1 arg2))
      else .ok (deparseGuardedScalarArrayOp node.useOr optype arg1 arg2)

/-! ## PostgreSQL's answer -/

theorem saopLoop_eq (useOr : Bool) (results : List (Option Bool)) (resultnull : Bool) :
    saopLoop useOr results resultnull =
      if some useOr ∈ results then some useOr
      else if resultnull = true ∨ none ∈ results then none else some (!useOr) := by
  induction results generalizing resultnull with
  | nil => simp [saopLoop]
  | cons result rest ih =>
      rcases result with _ | thisresult
      · rw [saopLoop, ih]
        simp
      · rw [saopLoop, ih]
        by_cases decides : thisresult = useOr
        · simp [decides]
        · simp [decides, Ne.symm decides]

/-- Comparisons connected by OR or by AND. -/
def connect (useOr : Bool) : List (Option Bool) → Option Bool :=
  if useOr then Kleene.any else Kleene.all

theorem connect_eq (useOr : Bool) (results : List (Option Bool)) :
    connect useOr results =
      if some useOr ∈ results then some useOr
      else if none ∈ results then none else some (!useOr) := by
  cases useOr
  · exact Kleene.all_eq results
  · exact Kleene.any_eq results

/-- ANY is the disjunction and ALL the conjunction of the comparisons. -/
theorem ExecEvalScalarArrayOp_eq (op : Comparison) (useOr : Bool) (scalar : Option V)
    (elements : List (Option V)) :
    ExecEvalScalarArrayOp op useOr scalar elements =
      connect useOr (elements.map (op.apply scalar)) := by
  rw [connect_eq, ExecEvalScalarArrayOp, saopLoop_eq]
  cases elements with
  | nil => simp
  | cons element elements =>
      cases scalar with
      | none =>
          have unknown (x : Option V) : op.apply none x = none := by cases op <;> rfl
          simp [unknown]
      | some x => simp

/-- The comparison with a NULL element is NULL. -/
theorem none_mem_results (op : Comparison) (x : V) (elements : List (Option V)) :
    none ∈ elements.map (op.apply (some x)) ↔ none ∈ elements := by
  rw [List.mem_map]
  constructor
  · intro ⟨element, member, unknown⟩
    cases element with
    | none => exact member
    | some y => cases op <;> cases unknown
  · intro member
    exact ⟨none, member, by cases op <;> rfl⟩

/-- `= ANY` and `<> ALL` are decided by an element equal to the probe. -/
theorem decided_by_match {op : Comparison} {useOr : Bool} (matching : op = .eq ↔ useOr = true)
    (x : V) (elements : List (Option V)) :
    some useOr ∈ elements.map (op.apply (some x)) ↔ some x ∈ elements := by
  rw [List.mem_map]
  constructor
  · intro ⟨element, member, decides⟩
    cases element with
    | none => cases op <;> cases decides
    | some y => cases op <;> cases useOr <;> simp_all [Comparison.apply]
  · intro member
    refine ⟨some x, member, ?_⟩
    cases op <;> cases useOr <;> simp_all [Comparison.apply]

/-- `<> ANY` and `= ALL` are decided by an element that differs from the probe. -/
theorem decided_by_difference {op : Comparison} {useOr : Bool}
    (differing : op = .ne ↔ useOr = true) (x : V) (elements : List (Option V)) :
    some useOr ∈ elements.map (op.apply (some x)) ↔ ∃ y, some y ∈ elements ∧ y ≠ x := by
  rw [List.mem_map]
  constructor
  · intro ⟨element, member, decides⟩
    cases element with
    | none => cases op <;> cases decides
    | some y =>
        refine ⟨y, member, fun same => ?_⟩
        subst same
        cases op <;> cases useOr <;> simp_all [Comparison.apply]
  · intro ⟨y, member, differs⟩
    refine ⟨some y, member, ?_⟩
    have differs := differs.symm
    cases op <;> cases useOr <;> simp_all [Comparison.apply]

/-! ## Counting -/

/-- A value other than `x`. -/
def differsFrom (x : V) : Option V → Bool
  | some y => y != x
  | none => false

theorem length_eq_counts (x : V) (elements : List (Option V)) :
    elements.length =
      elements.count (some x) + elements.count none +
        elements.countP (differsFrom x) := by
  induction elements with
  | nil => rfl
  | cons element elements ih =>
      rw [List.length_cons, ih, List.count_cons, List.count_cons, List.countP_cons]
      cases element with
      | none => simp [differsFrom]; omega
      | some y => by_cases same : y = x <;> simp [differsFrom, same] <;> omega

/-- The elements that are neither NULL nor equal to the probe remain when the others are
subtracted. -/
theorem exists_differing_iff (x : V) (elements : List (Option V)) :
    (∃ y, some y ∈ elements ∧ y ≠ x) ↔
      elements.count (some x) + elements.count none < elements.length := by
  have counts := length_eq_counts x elements
  have positive : (∃ y, some y ∈ elements ∧ y ≠ x) ↔
      0 < elements.countP (differsFrom x) := by
    rw [List.countP_pos_iff]
    constructor
    · intro ⟨y, member, differs⟩
      exact ⟨some y, member, bne_iff_ne.mpr differs⟩
    · intro ⟨element, member, differs⟩
      cases element with
      | none => cases differs
      | some y => exact ⟨y, member, bne_iff_ne.mp differs⟩
  rw [positive]
  omega

/-! ## What is known of the array -/

variable {pg : Postgres} {glob_cxt : foreign_glob_cxt} {env : Env V}

omit [DecidableEq V] in
theorem evalList_eq_map (env : Env V) (es : List (Expr V)) :
    Expr.evalList env es = es.map (Expr.eval env) := by
  induction es with
  | nil => rfl
  | cons e es ih => rw [Expr.evalList, ih, List.map_cons]

omit [DecidableEq V] in
theorem elements_of_const {constvalue : Option (ArrayType V)} {elements : List (Option V)}
    (value : (ArrayArg.Const constvalue).eval env = some elements) :
    ∃ array, constvalue = some array ∧ array.elements = elements := by
  cases constvalue with
  | none => cases value
  | some array =>
      rw [ArrayArg.eval, Option.bind_some, ArrayType.values] at value
      split at value
      · exact ⟨array, rfl, Option.some.inj value⟩
      · cases value

omit [DecidableEq V] in
theorem empty_of_saop_array_nulls {arr : ArrayArg V} {elements : List (Option V)}
    (value : arr.eval env = some elements)
    (known : saop_array_nulls pg glob_cxt arr = .EMPTY) : elements = [] := by
  cases arr with
  | Const constvalue =>
      obtain ⟨array, rfl, rfl⟩ := elements_of_const value
      rw [saop_array_nulls] at known
      split at known
      · rename_i none_stored
        exact List.eq_nil_of_length_eq_zero (array.sized.trans none_stored)
      · split at known <;> cases known
  | ArrayExpr exprs multidims =>
      rw [saop_array_nulls] at known
      split at known
      · cases known
      rename_i flat
      rw [ArrayArg.eval, if_neg flat] at value
      split at known
      · rename_i no_exprs
        rw [List.isEmpty_iff.mp no_exprs] at value
        exact (Option.some.inj value).symm
      · split at known <;> cases known
  | node index => cases known

omit [DecidableEq V] in
theorem null_free_of_saop_array_nulls (consistent : env.Consistent pg glob_cxt)
    {arr : ArrayArg V} {elements : List (Option V)} (value : arr.eval env = some elements)
    (known : saop_array_nulls pg glob_cxt arr = .NULL_FREE) :
    elements ≠ [] ∧ none ∉ elements := by
  cases arr with
  | Const constvalue =>
      obtain ⟨array, rfl, rfl⟩ := elements_of_const value
      rw [saop_array_nulls] at known
      split at known
      · cases known
      rename_i some_stored
      split at known
      · cases known
      rename_i no_bitmap
      refine ⟨fun empty => some_stored ?_, array.no_bitmap (Bool.not_eq_true _ ▸ no_bitmap)⟩
      rw [← array.sized, empty, List.length_nil]
  | ArrayExpr exprs multidims =>
      rw [saop_array_nulls] at known
      split at known
      · cases known
      rename_i flat
      rw [ArrayArg.eval, if_neg flat] at value
      split at known
      · cases known
      rename_i some_exprs
      split at known
      · rename_i proved
        rw [← Option.some.inj value]
        refine ⟨fun empty => some_exprs ?_, never_null_values consistent exprs proved⟩
        rw [evalList_eq_map, List.map_eq_nil_iff] at empty
        exact List.isEmpty_iff.mpr empty
      · cases known
  | node index => cases known

/-! ## The forms -/

variable {op : Comparison} {useOr : Bool} {optype : CHEqualOp} {probe : Expr V}
  {arr : ArrayArg V} {elements : List (Option V)}

@[simp] theorem chfdw_is_equal_op_eq : chfdw_is_equal_op Comparison.eq.oprname = .EQ := by
  decide

@[simp] theorem chfdw_is_equal_op_ne : chfdw_is_equal_op Comparison.ne.oprname = .NE := by
  decide

omit [DecidableEq V] in
theorem elements_eq (value : arr.eval env = some elements) : arr.elements env = elements := by
  rw [ArrayArg.elements, value, Option.getD_some]

theorem differing_of_not_matching (other : ¬ (op = .eq ↔ useOr = true)) :
    op = .ne ↔ useOr = true := by
  cases op <;> cases useOr <;> simp_all

/-- The answer of `= ANY` and `<> ALL` for a probe that is not NULL. -/
theorem answer_of_matching (matching : op = .eq ↔ useOr = true) (x : V) :
    ExecEvalScalarArrayOp op useOr (some x) elements =
      if some x ∈ elements then some useOr else if none ∈ elements then none
      else some (!useOr) := by
  rw [ExecEvalScalarArrayOp_eq, connect_eq]
  simp only [none_mem_results, decided_by_match matching]

/-- The answer of `<> ANY` and `= ALL` for a probe that is not NULL. -/
theorem answer_of_differing (differing : op = .ne ↔ useOr = true) (x : V) :
    ExecEvalScalarArrayOp op useOr (some x) elements =
      if elements.count (some x) + elements.count none < elements.length then some useOr
      else if none ∈ elements then none else some (!useOr) := by
  rw [ExecEvalScalarArrayOp_eq, connect_eq]
  simp only [none_mem_results, decided_by_difference differing, exists_differing_iff]

theorem answer_of_none (some_stored : elements ≠ []) :
    ExecEvalScalarArrayOp op useOr none elements = none := by
  rw [ExecEvalScalarArrayOp, if_neg some_stored, if_pos rfl]

theorem answer_of_empty (scalar : Option V) :
    ExecEvalScalarArrayOp op useOr scalar [] = some (!useOr) :=
  if_pos rfl

/-- The branches of the CASE. -/
theorem guarded_branches (value : arr.eval env = some elements) :
    (deparseGuardedScalarArrayOp useOr (chfdw_is_equal_op op.oprname) probe arr).eval env =
      if probe.eval env = none ∧ elements ≠ [] then none
      else if (if op = .eq ↔ useOr = true then 0 < elements.count (probe.eval env)
          else elements.count (probe.eval env) + elements.count none < elements.length) then
        some useOr
      else if 0 < elements.count none then none else some (!useOr) := by
  have seen := elements_eq value
  have remain (same nulls length : Nat) :
      (nulls : Int) < (length : Int) - same ↔ same + nulls < length := by omega
  cases op <;> cases useOr <;>
    simp [deparseGuardedScalarArrayOp, SaopText.eval, Condition.eval, Count.eval, Operand.eval,
      seen, remain]

/-- The CASE has PostgreSQL's answer for every probe and every array. -/
theorem guarded_eval (value : arr.eval env = some elements) :
    (deparseGuardedScalarArrayOp useOr (chfdw_is_equal_op op.oprname) probe arr).eval env =
      ExecEvalScalarArrayOp op useOr (probe.eval env) elements := by
  rw [guarded_branches value]
  by_cases empty : elements = []
  · subst empty
    rw [answer_of_empty, if_neg (by simp)]
    simp
  cases scalar : probe.eval env with
  | none => rw [answer_of_none empty, if_pos ⟨rfl, empty⟩]
  | some x =>
      rw [if_neg (by simp)]
      by_cases matching : op = .eq ↔ useOr = true
      · simp only [answer_of_matching matching, if_pos matching, List.count_pos_iff]
      · simp only [answer_of_differing (differing_of_not_matching matching), if_neg matching,
          List.count_pos_iff]

/-- A list without NULLs answers as PostgreSQL does, also for a NULL probe. -/
theorem native_eval {node : ScalarArrayOpExpr V} (value : node.arg2.eval env = some elements)
    (matching : node.op = .eq ↔ node.useOr = true) (some_stored : elements ≠ [])
    (null_free : none ∉ elements) :
    (deparseAsIn node (chfdw_is_equal_op node.op.oprname)).eval env =
      ExecEvalScalarArrayOp node.op node.useOr (node.arg1.eval env) elements := by
  have seen := elements_eq value
  obtain ⟨op, useOr, arg1, arg2⟩ := node
  simp only at matching value seen ⊢
  cases scalar : arg1.eval env with
  | none =>
      rw [answer_of_none some_stored]
      cases op <;> simp [deparseAsIn, Condition.eval, Operand.eval, scalar]
  | some x =>
      rw [answer_of_matching matching, if_neg null_free]
      by_cases found : some x ∈ elements <;> cases op <;> cases useOr <;>
        simp_all [deparseAsIn, Condition.eval, Operand.eval]

/-- In a list with NULLs, IN still is true for the same probes. -/
theorem native_eval_true {node : ScalarArrayOpExpr V}
    (value : node.arg2.eval env = some elements) (op_eq : node.op = .eq)
    (any : node.useOr = true) :
    (deparseAsIn node (chfdw_is_equal_op node.op.oprname)).eval env = some true ↔
      ExecEvalScalarArrayOp node.op node.useOr (node.arg1.eval env) elements = some true := by
  have seen := elements_eq value
  obtain ⟨op, useOr, arg1, arg2⟩ := node
  subst op_eq any
  cases scalar : arg1.eval env with
  | none =>
      by_cases empty : elements = []
      · rw [empty, answer_of_empty]
        simp [deparseAsIn, Condition.eval, Operand.eval, scalar]
      · rw [answer_of_none empty]
        simp [deparseAsIn, Condition.eval, Operand.eval, scalar]
  | some x =>
      rw [answer_of_matching (by simp)]
      by_cases found : some x ∈ elements <;> by_cases unknown : none ∈ elements <;>
        simp_all [deparseAsIn, Condition.eval, Operand.eval]

/-- Without NULLs, and for an empty array, the form without a guard answers as PostgreSQL
does. -/
theorem cheap_eval (value : arr.eval env = some elements)
    (no_nulls : elements = [] ∨ none ∉ elements ∧ probe.eval env ≠ none) :
    (cheapForm useOr (chfdw_is_equal_op op.oprname) probe arr).eval env =
      ExecEvalScalarArrayOp op useOr (probe.eval env) elements := by
  have seen := elements_eq value
  rcases no_nulls with rfl | ⟨null_free, some_probe⟩
  · rw [answer_of_empty]
    cases op <;> cases useOr <;> simp [cheapForm, Condition.eval, Count.eval, seen]
  obtain ⟨x, scalar⟩ := Option.ne_none_iff_exists'.mp some_probe
  have no_null_counted : elements.count none = 0 := List.count_eq_zero.mpr null_free
  have le : elements.count (some x) ≤ elements.length := List.count_le_length
  rw [scalar]
  by_cases matching : op = .eq ↔ useOr = true
  · rw [answer_of_matching matching, if_neg null_free]
    by_cases found : some x ∈ elements <;> cases op <;> cases useOr <;>
      simp_all [cheapForm, Condition.eval, Count.eval, Operand.eval, List.count_eq_zero]
  · rw [answer_of_differing (differing_of_not_matching matching), if_neg null_free,
      no_null_counted, Nat.add_zero]
    by_cases differs : elements.count (some x) < elements.length
    · have unequal : (elements.count (some x) : Int) ≠ elements.length := by omega
      cases op <;> cases useOr <;>
        simp_all [cheapForm, Condition.eval, Count.eval, Operand.eval]
    · have equal : elements.count (some x) = elements.length := by omega
      cases op <;> cases useOr <;>
        simp_all [cheapForm, Condition.eval, Count.eval, Operand.eval]

/-! ## The text -/

/-- Whatever form is chosen, its text has PostgreSQL's three-valued result, and in a truth
context it is true exactly where PostgreSQL's result is. -/
theorem deparseScalarArrayOpExpr_faithful (consistent : env.Consistent pg glob_cxt)
    (truth_ctx : Bool) (node : ScalarArrayOpExpr V)
    (value : node.arg2.eval env = some elements) :
    ∃ text, deparseScalarArrayOpExpr pg glob_cxt truth_ctx node = .ok text ∧
      (truth_ctx = false →
        text.eval env =
          ExecEvalScalarArrayOp node.op node.useOr (node.arg1.eval env) elements) ∧
      (text.eval env = some true ↔
        ExecEvalScalarArrayOp node.op node.useOr (node.arg1.eval env) elements = some true) := by
  have exact {text : SaopText V}
      (eval : text.eval env =
        ExecEvalScalarArrayOp node.op node.useOr (node.arg1.eval env) elements) :
      (truth_ctx = false → text.eval env =
        ExecEvalScalarArrayOp node.op node.useOr (node.arg1.eval env) elements) ∧
      (text.eval env = some true ↔
        ExecEvalScalarArrayOp node.op node.useOr (node.arg1.eval env) elements = some true) :=
    ⟨fun _ => eval, by rw [eval]⟩
  unfold deparseScalarArrayOpExpr
  rw [if_neg (by cases node.op <;> decide)]
  simp only
  split_ifs with native cheap
  · obtain ⟨chosen, -, family⟩ := native
    have matching : node.op = .eq ↔ node.useOr = true := by
      cases op : node.op <;> cases any : node.useOr <;> simp_all
    refine ⟨_, rfl, ?_⟩
    by_cases free : saop_array_nulls pg glob_cxt node.arg2 = .NULL_FREE
    · obtain ⟨some_stored, null_free⟩ := null_free_of_saop_array_nulls consistent value free
      apply exact
      rw [SaopText.eval_condition]
      exact native_eval value matching some_stored null_free
    · obtain ⟨truth, any, -⟩ := chosen.resolve_left free
      rw [SaopText.eval_condition]
      refine ⟨fun exact_ctx => ?_, native_eval_true value (matching.mpr any) any⟩
      rw [truth] at exact_ctx
      cases exact_ctx
  · refine ⟨_, rfl, exact ?_⟩
    rw [SaopText.eval_condition]
    apply cheap_eval value
    rcases cheap with empty | ⟨free, proved⟩
    · exact Or.inl (empty_of_saop_array_nulls value empty)
    · exact Or.inr ⟨(null_free_of_saop_array_nulls consistent value free).2,
        never_null_value consistent _ proved⟩
  · exact ⟨_, rfl, exact (guarded_eval value)⟩

/-- A row whose columns all store 3, in a query over one table without NOT NULL columns. -/
def rowOfThrees : Env Nat where
  stored _ := some 3
  nulled _ := false
  call _ args := if none ∈ args then none else some (args.filterMap id).sum
  node _ := none
  array _ := none

def oneTable : foreign_glob_cxt where
  rtable := [{ rtekind := .RTE_RELATION, relid := 16384, jointype := .INNER }]
  relids := [1]

def nullableColumns : Postgres where
  PG_VERSION_NUM := 170000
  attnotnull _ _ := some false

theorem rowOfThrees_consistent : rowOfThrees.Consistent nullableColumns oneTable where
  notnull _ _ _ _ _ _ _ declared := by cases declared
  nulled _ _ nulled := by cases nulled
  arithmetic _ _ args values := by simp [rowOfThrees, values]

/-- `a <> ALL ('{1,NULL}')`. -/
def notAmongOneAndNull : ScalarArrayOpExpr Nat where
  op := .ne
  useOr := false
  arg1 := .Var { varno := 1, varattno := 1, varlevelsup := 0, varnullingrels := [] }
  arg2 := .Const (some
    { dims := [2], hasnull := true, elements := [some 1, none], sized := rfl,
      no_bitmap := nofun })

/-- 3 is not among 1 and NULL: that is unknown, and the text says so. -/
theorem deparseScalarArrayOpExpr_faithful_null_element :
    ∃ text,
      deparseScalarArrayOpExpr nullableColumns oneTable false notAmongOneAndNull = .ok text ∧
      text.eval rowOfThrees = none := by
  have value : notAmongOneAndNull.arg2.eval rowOfThrees = some [some 1, none] := rfl
  obtain ⟨text, emitted, exact, -⟩ :=
    deparseScalarArrayOpExpr_faithful rowOfThrees_consistent false notAmongOneAndNull value
  exact ⟨text, emitted, (exact rfl).trans (by decide)⟩

end PgClickhouse.Deparse

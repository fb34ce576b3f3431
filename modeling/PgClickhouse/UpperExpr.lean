import Mathlib.Data.Finset.Dedup
import PgClickhouse.JoinPlan

/-!
# Expressions above the scan

The expressions of a select list, of GROUP BY, HAVING and ORDER BY, with aggregates and
window functions.  The rows of a stage carry the values of some expressions: a scan those of
columns, a grouping those of its keys and aggregates, the answer to a statement those of its
select list.  Every other expression is computed from them (`UpperExpr.eval`).
-/

namespace PgClickhouse

/-- The kind of an expression node, with what it holds besides its arguments. -/
inductive NodeTag (V : Type)
  | var (v : Var)
  | const (value : Option (Datum V))
  | param (paramid : Nat)
  | func (funcid : Nat)
  | aggref (aggfnoid : Nat)
  | windowfunc (winfnoid winref : Nat)
  deriving Repr, DecidableEq

inductive UpperExpr (V : Type)
  | node (tag : NodeTag V) (args : List (UpperExpr V))
  deriving Repr

/-- A value of SQL. -/
abbrev Value (V : Type) := Option (Datum V)

/-- What the functions, aggregates and window functions compute, on both servers. -/
structure Functions (V : Type) where
  func : Nat → List (Value V) → Value V
  param : Nat → Value V
  /-- The value of an aggregate over the arguments of the rows of a group. -/
  aggregate : Nat → Multiset (List (Value V)) → Value V
  /-- Whether a set of window functions can have these values on these rows.  Several
  assignments are possible where the order of a window has ties. -/
  window : Finset (UpperExpr V) →
    Multiset ((UpperExpr V → Option (Value V)) × (UpperExpr V → Value V)) → Prop
  compare : Datum V → Datum V → Ordering

namespace UpperExpr

variable {V : Type}

def tag : UpperExpr V → NodeTag V
  | .node tag _ => tag

def isAggref (e : UpperExpr V) : Bool :=
  match e.tag with
  | .aggref _ => true
  | _ => false

def isVar (e : UpperExpr V) : Bool :=
  match e.tag with
  | .var _ => true
  | _ => false

def isWindowFunc (e : UpperExpr V) : Bool :=
  match e.tag with
  | .windowfunc .. => true
  | _ => false

/-- Constants, parameters and function calls: what can be computed on either side. -/
def isScalar (e : UpperExpr V) : Bool :=
  match e.tag with
  | .const _ | .param _ | .func _ => true
  | _ => false

theorem induct {P : UpperExpr V → Prop}
    (node : ∀ tag args, (∀ a ∈ args, P a) → P (.node tag args)) : ∀ e, P e :=
  fun e => UpperExpr.rec (motive_1 := P) (motive_2 := fun args => ∀ a ∈ args, P a)
    node (by simp) (fun _ _ head tail => by simpa using ⟨head, tail⟩) e

section

variable [DecidableEq V]

mutual

def decEq : (a b : UpperExpr V) → Decidable (a = b)
  | .node tag args, .node tag' args' =>
      if same : tag = tag' then
        match decEqList args args' with
        | isTrue h => isTrue (by rw [same, h])
        | isFalse h => isFalse fun eq => h (UpperExpr.node.inj eq).2
      else isFalse fun eq => same (UpperExpr.node.inj eq).1

def decEqList : (as bs : List (UpperExpr V)) → Decidable (as = bs)
  | [], [] => isTrue rfl
  | [], _ :: _ => isFalse nofun
  | _ :: _, [] => isFalse nofun
  | a :: as, b :: bs =>
      match decEq a b, decEqList as bs with
      | isTrue h, isTrue h' => isTrue (by rw [h, h'])
      | isFalse h, _ => isFalse fun eq => h (List.cons.inj eq).1
      | _, isFalse h => isFalse fun eq => h (List.cons.inj eq).2

end

instance : DecidableEq (UpperExpr V) := decEq

end

/-! ## Parts of an expression -/

section

variable (test : UpperExpr V → Bool)

mutual

/-- The outermost subexpressions that satisfy a test, from left to right. -/
def pull : UpperExpr V → List (UpperExpr V)
  | .node tag args => if test (.node tag args) then [.node tag args] else pullList args

def pullList : List (UpperExpr V) → List (UpperExpr V)
  | [] => []
  | a :: as => pull a ++ pullList as

end

variable {test}

theorem mem_pullList {args : List (UpperExpr V)} {x : UpperExpr V} :
    x ∈ pullList test args ↔ ∃ a ∈ args, x ∈ pull test a := by
  induction args with
  | nil => simp [pullList]
  | cons a as ih => simp [pullList, ih]

theorem test_of_mem_pull {e x : UpperExpr V} (mem : x ∈ pull test e) : test x = true := by
  induction e using induct with
  | node tag args ih =>
    rw [pull] at mem
    split at mem
    next pass => exact (List.mem_singleton.mp mem) ▸ pass
    next =>
      obtain ⟨a, ha, mem⟩ := mem_pullList.mp mem
      exact ih a ha mem

/-- What does not occur in an expression does not occur in its parts. -/
theorem pull_eq_nil_of_mem_pull {test' : UpperExpr V → Bool} {e x : UpperExpr V}
    (absent : pull test' e = []) (mem : x ∈ pull test e) : pull test' x = [] := by
  induction e using induct with
  | node tag args ih =>
    rw [pull] at mem
    split at mem
    next => exact (List.mem_singleton.mp mem) ▸ absent
    next =>
      obtain ⟨a, ha, mem⟩ := mem_pullList.mp mem
      refine ih a ha ?_ mem
      rw [pull] at absent
      split at absent
      · cases absent
      · refine List.eq_nil_iff_forall_not_mem.mpr fun y hy => ?_
        have : y ∈ pullList test' args := mem_pullList.mpr ⟨a, ha, hy⟩
        simp [absent] at this

end

/-- The columns and aggregates of an expression, aggregates as a whole. -/
def pull_var_clause (e : UpperExpr V) : List (UpperExpr V) :=
  e.pull fun x => x.isVar || x.isAggref

def contain_agg_clause (e : UpperExpr V) : Bool :=
  e.pull_var_clause.any isAggref

def windowFuncs [DecidableEq V] (es : List (UpperExpr V)) : Finset (UpperExpr V) :=
  (es.flatMap (pull isWindowFunc)).toFinset

theorem isWindowFunc_of_mem_windowFuncs [DecidableEq V] {es : List (UpperExpr V)}
    {x : UpperExpr V} (mem : x ∈ windowFuncs es) : x.isWindowFunc = true := by
  obtain ⟨e, -, mem⟩ := List.mem_flatMap.mp (List.mem_toFinset.mp mem)
  exact test_of_mem_pull mem

/-- The relations whose columns an expression refers to. -/
def relids (e : UpperExpr V) : List Nat :=
  (e.pull isVar).filterMap fun x =>
    match x.tag with
    | .var v => some v.varno
    | _ => none

end UpperExpr

/-! ## Values -/

/-- The values that a row carries, by the expressions they are the values of. -/
abbrev Columns (V : Type) := UpperExpr V → Option (Value V)

namespace UpperExpr

variable {V : Type} (F : Functions V) (cols : Columns V)

mutual

def eval : UpperExpr V → Value V
  | .node tag args =>
      (cols (.node tag args)).getD
        (match tag with
        | .const value => value
        | .param paramid => F.param paramid
        | .func funcid => F.func funcid (evalList args)
        | .var _ | .aggref _ | .windowfunc .. => none)

def evalList : List (UpperExpr V) → List (Value V)
  | [] => []
  | a :: as => eval a :: evalList as

end

@[simp] theorem evalList_eq_map (args : List (UpperExpr V)) :
    evalList F cols args = args.map (eval F cols) := by
  induction args with
  | nil => rfl
  | cons a as ih => rw [evalList, ih, List.map_cons]

/-- The value of a condition. -/
def truth (e : UpperExpr V) : Option Bool :=
  match e.eval F cols with
  | some (.bool b) => some b
  | _ => none

/-- Whether a row passes the conditions, which are connected by AND. -/
def passes (conds : List (UpperExpr V)) : Bool :=
  conds.all fun e => Kleene.passes (e.truth F cols)

/-- An expression is computed from parts that satisfy `P`. -/
inductive Computed (P : UpperExpr V → Prop) : UpperExpr V → Prop
  | part {e : UpperExpr V} : P e → Computed P e
  | const (value : Value V) (args : List (UpperExpr V)) : Computed P (.node (.const value) args)
  | param (paramid : Nat) (args : List (UpperExpr V)) :
      Computed P (.node (.param paramid) args)
  | func (funcid : Nat) (args : List (UpperExpr V)) :
      (∀ a ∈ args, Computed P a) → Computed P (.node (.func funcid) args)

variable {F cols} {P Q : UpperExpr V → Prop}

theorem Computed.trans {e : UpperExpr V} (computed : Computed P e)
    (parts : ∀ x, P x → Computed Q x) : Computed Q e := by
  induction computed with
  | part h => exact parts _ h
  | const value args => exact .const value args
  | param paramid args => exact .param paramid args
  | func funcid args _ ih => exact .func funcid args ih

theorem eval_of_some {e : UpperExpr V} {value : Value V} (carried : cols e = some value) :
    e.eval F cols = value := by
  cases e with
  | node tag args => simp only [eval.eq_def, carried, Option.getD_some]

/-- Two rows give an expression the same value if they do so for the parts it is computed
from, and neither carries values of other scalar nodes. -/
theorem Computed.eval_eq {cols' : Columns V} {e : UpperExpr V} (computed : Computed P e)
    (same : ∀ x, P x → x.eval F cols = x.eval F cols')
    (none_left : ∀ x, x.isScalar = true → ¬ P x → cols x = none)
    (none_right : ∀ x, x.isScalar = true → ¬ P x → cols' x = none) :
    e.eval F cols = e.eval F cols' := by
  induction computed with
  | part h => exact same _ h
  | const value args =>
    by_cases h : P (.node (.const value) args)
    · exact same _ h
    · rw [eval, eval, none_left _ rfl h, none_right _ rfl h]
  | param paramid args =>
    by_cases h : P (.node (.param paramid) args)
    · exact same _ h
    · rw [eval, eval, none_left _ rfl h, none_right _ rfl h]
  | func funcid args _ ih =>
    by_cases h : P (.node (.func funcid) args)
    · exact same _ h
    · rw [eval, eval, none_left _ rfl h, none_right _ rfl h]
      simp only [evalList_eq_map, List.map_congr_left ih]

end UpperExpr

end PgClickhouse

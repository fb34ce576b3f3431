import Mathlib.Data.List.Basic
import PgClickhouse.Numbering

/-!
# Placeholders of window functions

`EXPLAIN` cannot print a pushed-down `WindowFunc`, so the target lists of the foreign scan get
calls in its place (`fdw.c`).  The planner then looks up the expressions of the outer list
among the columns of the scan by `equal`, so a placeholder has to say which window function it
stands for: a counter is put in a field that nothing reads.

A placeholder calls the function of its `WindowFunc`, an aggregate or a window function, and
the parser makes a `FuncExpr` of neither.  So placeholders do not meet calls of the query.
-/

namespace PgClickhouse.WindowPlaceholders

open Numbering

abbrev Oid := Nat

/-- How a call is displayed; `equal` does not compare it. -/
inductive CoercionForm
  | COERCE_EXPLICIT_CALL
  | COERCE_EXPLICIT_CAST
  | COERCE_IMPLICIT_CAST
  | COERCE_SQL_SYNTAX
  deriving Repr, DecidableEq

/-- The fields of a window function beside its subtrees and its location. -/
structure WindowFunc where
  winfnoid : Oid
  wintype : Oid
  wincollid : Oid
  inputcollid : Oid
  winref : Nat
  winstar : Bool
  winagg : Bool
  deriving Repr, DecidableEq

/-- The fields of a call that `equal` compares, beside its arguments. -/
structure FuncExpr where
  funcid : Oid
  funcresulttype : Oid
  funcretset : Bool
  funcvariadic : Bool
  funccollid : Oid
  inputcollid : Oid
  deriving Repr, DecidableEq

/-- A tree of nodes.  Of the nodes that are not named here `equal` compares `compared` and not
`ignored`, and the mutator descends to `children`. -/
inductive Node (T L : Type)
  | NULL
  | WindowFunc (wf : WindowFunc) (args : List (Node T L)) (aggfilter : Node T L)
      (runCondition : List (Node T L)) (location : Int)
  | FuncExpr (fields : FuncExpr) (funcformat : CoercionForm) (args : List (Node T L))
      (location : Int)
  | node (compared : T) (ignored : L) (children : List (Node T L))

structure TargetEntry (T L : Type) where
  expr : Node T L
  resno : Nat
  resname : Option String
  ressortgroupref : Nat
  resjunk : Bool

variable {T L : Type}

mutual

/-- The planner's comparison of trees. -/
def equal [DecidableEq T] : Node T L → Node T L → Bool
  | .NULL, .NULL => true
  | .WindowFunc a args aggfilter runCondition _, .WindowFunc b args' aggfilter' runCondition' _ =>
      decide (a = b) && equalList args args' && equal aggfilter aggfilter' &&
        equalList runCondition runCondition'
  | .FuncExpr a _ args _, .FuncExpr b _ args' _ => decide (a = b) && equalList args args'
  | .node a _ children, .node b _ children' => decide (a = b) && equalList children children'
  | _, _ => false

def equalList [DecidableEq T] : List (Node T L) → List (Node T L) → Bool
  | [], [] => true
  | a :: as, b :: bs => equal a b && equalList as bs
  | _, _ => false

end

/-! ## The mutator -/

/-- A list cannot grow until the counter overflows. -/
structure WindowFuncSubstState (T L : Type) where
  originals : List (Node T L)
  placeholders : List (Node T L)
  counter : Nat

/-- The call that is put in the place of a window function. -/
def placeholder (wf : WindowFunc) (args : List (Node T L)) (counter : Nat) : Node T L :=
  .FuncExpr
    { funcid := wf.winfnoid
      funcresulttype := wf.wintype
      funcretset := false
      funcvariadic := false
      funccollid := wf.wincollid
      inputcollid := counter }
    .COERCE_EXPLICIT_CALL args (-1)

section

variable [DecidableEq T]

/-- The mutator at a window function. -/
def replace_windowfunc (wf : WindowFunc) (args : List (Node T L)) (aggfilter : Node T L)
    (runCondition : List (Node T L)) (location : Int) (state : WindowFuncSubstState T L) :
    Node T L × WindowFuncSubstState T L :=
  let node := Node.WindowFunc wf args aggfilter runCondition location
  match (state.originals.zip state.placeholders).find? fun (lo, _) => equal lo node with
  | some (_, lp) => (lp, state)
  | none =>
      let ph := placeholder wf args (state.counter + 1)
      (ph, ⟨state.originals ++ [node], state.placeholders ++ [ph], state.counter + 1⟩)

mutual

/-- `expression_tree_mutator` keeps the fields of a node and mutates its children. -/
def replace_windowfuncs_mutator :
    Node T L → WindowFuncSubstState T L → Node T L × WindowFuncSubstState T L
  | .NULL, state => (.NULL, state)
  | .WindowFunc wf args aggfilter runCondition location, state =>
      replace_windowfunc wf args aggfilter runCondition location state
  | .FuncExpr fields funcformat args location, state =>
      let (args, state) := mutate_list args state
      (.FuncExpr fields funcformat args location, state)
  | .node compared ignored children, state =>
      let (children, state) := mutate_list children state
      (.node compared ignored children, state)

def mutate_list : List (Node T L) → WindowFuncSubstState T L →
    List (Node T L) × WindowFuncSubstState T L
  | [], state => ([], state)
  | node :: nodes, state =>
      let (node, state) := replace_windowfuncs_mutator node state
      let (nodes, state) := mutate_list nodes state
      (node :: nodes, state)

end

/-- The mutator at a target list. -/
def mutate_targets : List (TargetEntry T L) → WindowFuncSubstState T L →
    List (TargetEntry T L) × WindowFuncSubstState T L
  | [], state => ([], state)
  | tle :: targets, state =>
      let (expr, state) := replace_windowfuncs_mutator tle.expr state
      let (targets, state) := mutate_targets targets state
      ({ tle with expr } :: targets, state)

/-- `clickhouseGetForeignPlan`: both lists, with one state. -/
def replace_windowfuncs (fdw_scan_tlist tlist : List (TargetEntry T L)) :
    List (TargetEntry T L) × List (TargetEntry T L) :=
  let (fdw_scan_tlist, state) := mutate_targets fdw_scan_tlist ⟨[], [], 0⟩
  (fdw_scan_tlist, (mutate_targets tlist state).1)

/-- `setrefs.c` looks up an expression among the columns of the scan. -/
def tlist_member (node : Node T L) (targetlist : List (TargetEntry T L)) : Option Nat :=
  targetlist.findIdx? fun tle => equal node tle.expr

end

/-! ## What a mutator can reach -/

mutual

/-- The subtrees outside of window functions, which the mutator visits. -/
def Node.visited : Node T L → List (Node T L)
  | .NULL => [.NULL]
  | .WindowFunc wf args aggfilter runCondition location =>
      [.WindowFunc wf args aggfilter runCondition location]
  | .FuncExpr fields funcformat args location =>
      .FuncExpr fields funcformat args location :: visitedList args
  | .node compared ignored children => .node compared ignored children :: visitedList children

def visitedList : List (Node T L) → List (Node T L)
  | [] => []
  | node :: nodes => node.visited ++ visitedList nodes

end

mutual

/-- A tree with other nodes for its window functions, and nothing else changed. -/
def Node.substitute (replacement : Node T L → Node T L) : Node T L → Node T L
  | .NULL => .NULL
  | .WindowFunc wf args aggfilter runCondition location =>
      replacement (.WindowFunc wf args aggfilter runCondition location)
  | .FuncExpr fields funcformat args location =>
      .FuncExpr fields funcformat (substituteList replacement args) location
  | .node compared ignored children =>
      .node compared ignored (substituteList replacement children)

def substituteList (replacement : Node T L → Node T L) : List (Node T L) → List (Node T L)
  | [] => []
  | node :: nodes => node.substitute replacement :: substituteList replacement nodes

end

def TargetEntry.substitute (replacement : Node T L → Node T L) (tle : TargetEntry T L) :
    TargetEntry T L :=
  { tle with expr := tle.expr.substitute replacement }

def visitedTargets (targets : List (TargetEntry T L)) : List (Node T L) :=
  targets.flatMap fun tle => tle.expr.visited

inductive IsWindowFunc : Node T L → Prop
  | WindowFunc {wf args aggfilter runCondition location} :
      IsWindowFunc (.WindowFunc wf args aggfilter runCondition location)

mutual

theorem Node.substitute_congr {f g : Node T L → Node T L} :
    ∀ node : Node T L, (∀ v ∈ node.visited, IsWindowFunc v → f v = g v) →
      node.substitute f = node.substitute g
  | .NULL, _ => rfl
  | .WindowFunc wf args aggfilter runCondition location, agree =>
      agree _ (List.mem_singleton_self _) .WindowFunc
  | .FuncExpr fields funcformat args location, agree => by
      rw [Node.substitute, Node.substitute, substituteList_congr args]
      intro v visited
      exact agree v (List.mem_cons_of_mem _ visited)
  | .node compared ignored children, agree => by
      rw [Node.substitute, Node.substitute, substituteList_congr children]
      intro v visited
      exact agree v (List.mem_cons_of_mem _ visited)

theorem substituteList_congr {f g : Node T L → Node T L} :
    ∀ nodes : List (Node T L), (∀ v ∈ visitedList nodes, IsWindowFunc v → f v = g v) →
      substituteList f nodes = substituteList g nodes
  | [], _ => rfl
  | node :: nodes, agree => by
      rw [substituteList, substituteList, Node.substitute_congr node,
        substituteList_congr nodes]
      · intro v visited
        exact agree v (List.mem_append_right _ visited)
      · intro v visited
        exact agree v (List.mem_append_left _ visited)

end

/-- A call is of a plain function, and a window function is not. -/
def Node.parsed (plain : Oid → Bool) : Node T L → Bool
  | .WindowFunc wf .. => !plain wf.winfnoid
  | .FuncExpr fields .. => plain fields.funcid
  | .NULL | .node .. => true

/-! ## The comparison -/

mutual

/-- A tree without what `equal` ignores. -/
def Node.compared : Node T L → Node T Unit
  | .NULL => .NULL
  | .WindowFunc wf args aggfilter runCondition _ =>
      .WindowFunc wf (comparedList args) aggfilter.compared (comparedList runCondition) 0
  | .FuncExpr fields _ args _ => .FuncExpr fields .COERCE_EXPLICIT_CALL (comparedList args) 0
  | .node fields _ children => .node fields () (comparedList children)

def comparedList : List (Node T L) → List (Node T Unit)
  | [] => []
  | node :: nodes => node.compared :: comparedList nodes

end

section

variable [DecidableEq T]

mutual

theorem equal_iff_compared : ∀ a b : Node T L, equal a b = true ↔ a.compared = b.compared
  | .NULL, b => by cases b <;> simp [equal, Node.compared]
  | .WindowFunc wf args aggfilter runCondition location, b => by
      cases b with
      | WindowFunc wf' args' aggfilter' runCondition' location' =>
          simp only [equal, Node.compared, Bool.and_eq_true, decide_eq_true_eq,
            equalList_iff_compared args args', equal_iff_compared aggfilter aggfilter',
            equalList_iff_compared runCondition runCondition', Node.WindowFunc.injEq, and_true,
            and_assoc]
      | NULL | FuncExpr | node => simp [equal, Node.compared]
  | .FuncExpr fields funcformat args location, b => by
      cases b with
      | FuncExpr fields' funcformat' args' location' =>
          simp only [equal, Node.compared, Bool.and_eq_true, decide_eq_true_eq,
            equalList_iff_compared args args', Node.FuncExpr.injEq, and_true, true_and]
      | NULL | WindowFunc | node => simp [equal, Node.compared]
  | .node fields ignored children, b => by
      cases b with
      | node fields' ignored' children' =>
          simp only [equal, Node.compared, Bool.and_eq_true, decide_eq_true_eq,
            equalList_iff_compared children children', Node.node.injEq, true_and]
      | NULL | WindowFunc | FuncExpr => simp [equal, Node.compared]

theorem equalList_iff_compared :
    ∀ as bs : List (Node T L), equalList as bs = true ↔ comparedList as = comparedList bs
  | [], bs => by cases bs <;> simp [equalList, comparedList]
  | a :: as, [] => by simp [equalList, comparedList]
  | a :: as, b :: bs => by
      simp only [equalList, comparedList, Bool.and_eq_true, equal_iff_compared a b,
        equalList_iff_compared as bs, List.cons.injEq]

end

theorem equal_equivalence : Equivalence fun a b : Node T L => equal a b = true where
  refl a := (equal_iff_compared a a).mpr rfl
  symm := by
    intro a b alike
    rw [equal_iff_compared] at alike ⊢
    exact alike.symm
  trans := by
    intro a b c left right
    rw [equal_iff_compared] at left right ⊢
    exact left.trans right

theorem equal_comm (a b : Node T L) : equal a b = equal b a :=
  Bool.eq_iff_iff.mpr ⟨equal_equivalence.symm, equal_equivalence.symm⟩

/-! ## The state -/

/-- The placeholder of an original with a number. -/
def placeholderOf : Node T L → Nat → Node T L
  | .WindowFunc wf args _ _ _, counter => placeholder wf args counter
  | node, _ => node

/-- What stands for a window function is known from the originals. -/
def standsFor (originals : List (Node T L)) (node : Node T L) : Node T L :=
  match number equal originals node with
  | some i => originals[i]?.elim .NULL fun original => placeholderOf original (i + 1)
  | none => .NULL

/-- The invariant of the state. -/
structure WindowFuncSubstState.Numbered (state : WindowFuncSubstState T L) : Prop where
  counted : state.counter = state.originals.length
  made : state.placeholders =
    state.originals.mapIdx fun i original => placeholderOf original (i + 1)

theorem standsFor_append {originals : List (Node T L)} {node : Node T L} {i : Nat}
    (numbered : number equal originals node = some i) (more : List (Node T L)) :
    standsFor (originals ++ more) node = standsFor originals node := by
  obtain ⟨original, here, _⟩ := number_spec numbered
  unfold standsFor
  rw [number_append numbered, numbered]
  simp only
  rw [List.getElem?_append_left (List.getElem?_eq_some_iff.mp here).1]

/-- The state has changed from `before` to `after` while these subtrees were visited. -/
structure Visits (before : WindowFuncSubstState T L) (visited : List (Node T L))
    (after : WindowFuncSubstState T L) : Prop where
  numbered : after.Numbered
  grown : ∃ more, after.originals = before.originals ++ more
  known : ∀ node ∈ visited, IsWindowFunc node →
    ∃ i, number equal after.originals node = some i

variable {before between after : WindowFuncSubstState T L} {first second : List (Node T L)}

theorem Visits.append (left : Visits before first between) (right : Visits between second after) :
    Visits before (first ++ second) after := by
  obtain ⟨more, grown⟩ := left.grown
  obtain ⟨more', grown'⟩ := right.grown
  refine ⟨right.numbered, ⟨more ++ more', by rw [grown', grown, List.append_assoc]⟩, ?_⟩
  intro node visited window
  rcases List.mem_append.mp visited with visited | visited
  · obtain ⟨i, numbered⟩ := left.known node visited window
    exact ⟨i, grown' ▸ number_append numbered more'⟩
  · exact right.known node visited window

/-- What stands for a visited window function stays. -/
theorem Visits.stands (left : Visits before first between) (right : Visits between second after)
    {node : Node T L} (visited : node ∈ first) (window : IsWindowFunc node) :
    standsFor between.originals node = standsFor after.originals node := by
  obtain ⟨more, grown⟩ := right.grown
  obtain ⟨i, numbered⟩ := left.known node visited window
  rw [grown, standsFor_append numbered]

theorem Visits.rfl_of_plain (numbered : before.Numbered) {node : Node T L}
    (plain : ¬ IsWindowFunc node) : Visits before [node] before := by
  refine ⟨numbered, ⟨[], (List.append_nil _).symm⟩, ?_⟩
  intro other visited window
  rw [List.mem_singleton.mp visited] at window
  exact absurd window plain

/-- The mutator at a window function returns what stands for it. -/
theorem replace_windowfunc_spec (numbered : before.Numbered) (wf : WindowFunc)
    (args : List (Node T L)) (aggfilter : Node T L) (runCondition : List (Node T L))
    (location : Int) :
    ∃ after, replace_windowfunc wf args aggfilter runCondition location before =
        (standsFor after.originals (.WindowFunc wf args aggfilter runCondition location), after) ∧
      Visits before [.WindowFunc wf args aggfilter runCondition location] after := by
  obtain ⟨counted, made⟩ := numbered
  have long : before.placeholders.length = before.originals.length := by
    rw [made, List.length_mapIdx]
  generalize here : Node.WindowFunc wf args aggfilter runCondition location = node
  have search := find?_zip (fun original => equal original node) before.originals
    before.placeholders long
  change _ = (number equal before.originals node).bind _ at search
  unfold replace_windowfunc
  simp only [here]
  cases known : number equal before.originals node with
  | some i =>
      obtain ⟨original, there, _⟩ := number_spec known
      have placed : before.placeholders[i]? = some (placeholderOf original (i + 1)) := by
        rw [made, List.getElem?_mapIdx, there]
        rfl
      rw [known, Option.bind_some, placed, Option.map_eq_some_iff] at search
      obtain ⟨⟨lo, lp⟩, found, rfl⟩ := search
      refine ⟨before, ?_, ⟨counted, made⟩, ⟨[], (List.append_nil _).symm⟩, ?_⟩
      · rw [found]
        simp only [standsFor, known, there, Option.elim_some]
      · intro other visited _
        rw [List.mem_singleton.mp visited]
        exact ⟨i, known⟩
  | none =>
      rw [known, Option.bind_none, Option.map_eq_none_iff] at search
      rw [search]
      have added := number_new equal_equivalence known
      refine ⟨_, Prod.ext ?_ rfl, ⟨?_, ?_⟩, ⟨[node], rfl⟩, ?_⟩
      · simp only [standsFor, added]
        rw [List.getElem?_concat_length, Option.elim_some, ← here, counted]
        rfl
      · rw [List.length_append, List.length_singleton, counted]
      · rw [made, List.mapIdx_concat, ← here, counted]
        rfl
      · intro other visited _
        rw [List.mem_singleton.mp visited]
        exact ⟨_, added⟩

/-! ## Runs over trees and lists -/

mutual

theorem replace_windowfuncs_mutator_spec :
    ∀ (node : Node T L) {before : WindowFuncSubstState T L}, before.Numbered →
      ∃ after, replace_windowfuncs_mutator node before =
          (node.substitute (standsFor after.originals), after) ∧
        Visits before node.visited after
  | .NULL, before, numbered => by
      refine ⟨before, rfl, Visits.rfl_of_plain numbered ?_⟩
      intro window
      cases window
  | .WindowFunc wf args aggfilter runCondition location, before, numbered =>
      replace_windowfunc_spec numbered wf args aggfilter runCondition location
  | .FuncExpr fields funcformat args location, before, numbered => by
      obtain ⟨after, run, visits⟩ := mutate_list_spec args numbered
      have plain : ¬ IsWindowFunc (Node.FuncExpr fields funcformat args location) := by
        intro window
        cases window
      refine ⟨after, ?_, (Visits.rfl_of_plain numbered plain).append visits⟩
      rw [replace_windowfuncs_mutator, run]
      rfl
  | .node compared ignored children, before, numbered => by
      obtain ⟨after, run, visits⟩ := mutate_list_spec children numbered
      have plain : ¬ IsWindowFunc (Node.node compared ignored children) := by
        intro window
        cases window
      refine ⟨after, ?_, (Visits.rfl_of_plain numbered plain).append visits⟩
      rw [replace_windowfuncs_mutator, run]
      rfl

theorem mutate_list_spec :
    ∀ (nodes : List (Node T L)) {before : WindowFuncSubstState T L}, before.Numbered →
      ∃ after, mutate_list nodes before =
          (substituteList (standsFor after.originals) nodes, after) ∧
        Visits before (visitedList nodes) after
  | [], before, numbered => by
      refine ⟨before, rfl, numbered, ⟨[], (List.append_nil _).symm⟩, ?_⟩
      intro v visited
      cases visited
  | node :: nodes, before, numbered => by
      obtain ⟨between, run, visits⟩ := replace_windowfuncs_mutator_spec node numbered
      obtain ⟨after, run', visits'⟩ := mutate_list_spec nodes visits.numbered
      refine ⟨after, ?_, visits.append visits'⟩
      have same := Node.substitute_congr node fun v => visits.stands visits'
      rw [mutate_list, run]
      simp only
      rw [run', same, substituteList]

end

theorem mutate_targets_spec (targets : List (TargetEntry T L)) (numbered : before.Numbered) :
    ∃ after, mutate_targets targets before =
        (targets.map (TargetEntry.substitute (standsFor after.originals)), after) ∧
      Visits before (visitedTargets targets) after := by
  induction targets generalizing before with
  | nil =>
      refine ⟨before, rfl, numbered, ⟨[], (List.append_nil _).symm⟩, ?_⟩
      intro v visited
      cases visited
  | cons tle targets ih =>
      obtain ⟨between, run, visits⟩ := replace_windowfuncs_mutator_spec tle.expr numbered
      obtain ⟨after, run', visits'⟩ := ih visits.numbered
      refine ⟨after, ?_, visits.append visits'⟩
      have same := Node.substitute_congr tle.expr fun v => visits.stands visits'
      rw [mutate_targets, run]
      simp only
      rw [run', same, List.map_cons, TargetEntry.substitute]

/-! ## Comparing what was replaced -/

variable {originals : List (Node T L)}

/-- The placeholder of a window function has its number. -/
theorem standsFor_windowFunc {wf : WindowFunc} {args runCondition : List (Node T L)}
    {aggfilter : Node T L} {location : Int} {i : Nat}
    (numbered : number equal originals (.WindowFunc wf args aggfilter runCondition location) =
      some i) :
    ∃ args', standsFor originals (.WindowFunc wf args aggfilter runCondition location) =
      placeholder wf args' (i + 1) ∧ equalList args' args = true := by
  obtain ⟨original, here, alike⟩ := number_spec numbered
  unfold standsFor
  simp only [numbered, here, Option.elim_some]
  cases original with
  | WindowFunc wf' args' aggfilter' runCondition' location' =>
      simp only [equal, Bool.and_eq_true, decide_eq_true_eq] at alike
      obtain ⟨⟨⟨rfl, same⟩, _⟩, _⟩ := alike
      exact ⟨args', rfl, same⟩
  | NULL | FuncExpr | node => simp [equal] at alike

theorem equal_standsFor {v w : Node T L} (isWindow : IsWindowFunc v) (isWindow' : IsWindowFunc w)
    {i j : Nat} (numbered : number equal originals v = some i)
    (numbered' : number equal originals w = some j) :
    equal (standsFor originals v) (standsFor originals w) = equal v w := by
  have oneNumber := number_eq_iff equal_equivalence numbered numbered'
  cases alike : equal v w with
  | true =>
      obtain rfl := oneNumber.mpr alike
      have one : standsFor originals v = standsFor originals w := by
        unfold standsFor
        rw [numbered, numbered']
      rw [one]
      exact equal_equivalence.refl _
  | false =>
      have apart : i ≠ j := by
        intro one
        exact Bool.false_ne_true (alike.symm.trans (oneNumber.mp one))
      cases isWindow with
      | WindowFunc =>
          cases isWindow' with
          | WindowFunc =>
              obtain ⟨_, stands, _⟩ := standsFor_windowFunc numbered
              obtain ⟨_, stands', _⟩ := standsFor_windowFunc numbered'
              rw [stands, stands']
              simp [placeholder, equal, apart]

/-- What is compared afterwards is numbered, and its calls are told from placeholders. -/
structure Comparable (originals : List (Node T L)) (plain : Oid → Bool)
    (visited : List (Node T L)) : Prop where
  known : ∀ node ∈ visited, IsWindowFunc node → ∃ i, number equal originals node = some i
  parsed : ∀ node ∈ visited, node.parsed plain = true

theorem Comparable.mono {plain : Oid → Bool} {visited fewer : List (Node T L)}
    (comparable : Comparable originals plain visited) (subset : fewer ⊆ visited) :
    Comparable originals plain fewer :=
  ⟨fun node here => comparable.known node (subset here),
    fun node here => comparable.parsed node (subset here)⟩

theorem standsFor_ne_other {plain : Oid → Bool} {wf : WindowFunc}
    {args runCondition : List (Node T L)} {aggfilter : Node T L} {location : Int}
    (comparable : Comparable originals plain
      [.WindowFunc wf args aggfilter runCondition location])
    (other : Node T L) (notWindow : ¬ IsWindowFunc other) (parsed : other.parsed plain = true) :
    equal (standsFor originals (.WindowFunc wf args aggfilter runCondition location))
      (other.substitute (standsFor originals)) = false := by
  obtain ⟨i, numbered⟩ := comparable.known _ (List.mem_singleton_self _) .WindowFunc
  have called := comparable.parsed _ (List.mem_singleton_self _)
  obtain ⟨args', stands, _⟩ := standsFor_windowFunc numbered
  rw [stands]
  cases other with
  | WindowFunc wf' args' aggfilter' runCondition' location' =>
      exact absurd .WindowFunc notWindow
  | FuncExpr fields funcformat args location =>
      have apart : wf.winfnoid ≠ fields.funcid := by
        intro one
        simp only [Node.parsed, ← one] at parsed
        simp [Node.parsed, parsed] at called
      simp only [Node.substitute, placeholder, equal, Bool.and_eq_false_iff,
        decide_eq_false_iff_not]
      left
      intro one
      exact apart (congrArg FuncExpr.funcid one)
  | NULL | node => rfl

mutual

/-- Replacing neither joins nor separates what the mutator visits. -/
theorem equal_substitute {plain : Oid → Bool} :
    ∀ a b : Node T L, Comparable originals plain a.visited →
      Comparable originals plain b.visited →
      equal (a.substitute (standsFor originals)) (b.substitute (standsFor originals)) =
        equal a b
  | .WindowFunc wf args aggfilter runCondition location, b, left, right => by
      cases b with
      | WindowFunc wf' args' aggfilter' runCondition' location' =>
          obtain ⟨i, numbered⟩ := left.known _ (List.mem_singleton_self _) .WindowFunc
          obtain ⟨j, numbered'⟩ := right.known _ (List.mem_singleton_self _) .WindowFunc
          exact equal_standsFor .WindowFunc .WindowFunc numbered numbered'
      | NULL | FuncExpr | node =>
          apply standsFor_ne_other left
          · intro window
            cases window
          · exact right.parsed _ List.mem_cons_self
  | .NULL, b, left, right => by
      cases b with
      | WindowFunc wf args aggfilter runCondition location =>
          rw [equal_comm, equal_comm .NULL]
          apply standsFor_ne_other right
          · intro window
            cases window
          · exact left.parsed _ List.mem_cons_self
      | NULL | FuncExpr | node => rfl
  | .FuncExpr fields funcformat args location, b, left, right => by
      cases b with
      | WindowFunc wf args' aggfilter runCondition location' =>
          rw [equal_comm, equal_comm (.FuncExpr fields funcformat args location)]
          apply standsFor_ne_other right
          · intro window
            cases window
          · exact left.parsed _ List.mem_cons_self
      | FuncExpr fields' funcformat' args' location' =>
          have same := equalList_substitute args args' (left.mono (List.subset_cons_self _ _))
            (right.mono (List.subset_cons_self _ _))
          simp only [Node.substitute, equal, same]
      | NULL | node => rfl
  | .node compared ignored children, b, left, right => by
      cases b with
      | WindowFunc wf args' aggfilter runCondition location' =>
          rw [equal_comm, equal_comm (.node compared ignored children)]
          apply standsFor_ne_other right
          · intro window
            cases window
          · exact left.parsed _ List.mem_cons_self
      | node compared' ignored' children' =>
          have same := equalList_substitute children children'
            (left.mono (List.subset_cons_self _ _)) (right.mono (List.subset_cons_self _ _))
          simp only [Node.substitute, equal, same]
      | NULL | FuncExpr => rfl

theorem equalList_substitute {plain : Oid → Bool} :
    ∀ as bs : List (Node T L), Comparable originals plain (visitedList as) →
      Comparable originals plain (visitedList bs) →
      equalList (substituteList (standsFor originals) as)
        (substituteList (standsFor originals) bs) = equalList as bs
  | [], [], _, _ | [], _ :: _, _, _ | _ :: _, [], _, _ => rfl
  | a :: as, b :: bs, left, right => by
      simp only [substituteList, equalList]
      rw [equal_substitute a b (left.mono (List.subset_append_left _ _))
          (right.mono (List.subset_append_left _ _)),
        equalList_substitute as bs (left.mono (List.subset_append_right _ _))
          (right.mono (List.subset_append_right _ _))]

end

end

mutual

theorem Node.visited_subset : ∀ {node part : Node T L}, part ∈ node.visited →
    part.visited ⊆ node.visited
  | .NULL, part, here => by
      rw [List.mem_singleton.mp here]
      exact List.Subset.refl _
  | .WindowFunc wf args aggfilter runCondition location, part, here => by
      rw [List.mem_singleton.mp here]
      exact List.Subset.refl _
  | .FuncExpr fields funcformat args location, part, here => by
      rcases List.mem_cons.mp here with rfl | here
      · exact List.Subset.refl _
      · exact List.subset_cons_of_subset _ (visitedList_subset here)
  | .node compared ignored children, part, here => by
      rcases List.mem_cons.mp here with rfl | here
      · exact List.Subset.refl _
      · exact List.subset_cons_of_subset _ (visitedList_subset here)

theorem visitedList_subset : ∀ {nodes : List (Node T L)} {part : Node T L},
    part ∈ visitedList nodes → part.visited ⊆ visitedList nodes
  | node :: nodes, part, here => by
      rcases List.mem_append.mp here with here | here
      · exact List.subset_append_of_subset_left _ (Node.visited_subset here)
      · exact List.subset_append_of_subset_right _ (visitedList_subset here)

end

theorem visitedTargets_subset {targets : List (TargetEntry T L)} {part : Node T L}
    (here : part ∈ visitedTargets targets) : part.visited ⊆ visitedTargets targets := by
  obtain ⟨tle, member, here⟩ := List.mem_flatMap.mp here
  intro node visited
  exact List.mem_flatMap.mpr ⟨tle, member, Node.visited_subset here visited⟩

section

variable [DecidableEq T]

/-- A column is found by what was replaced as it would be found before. -/
theorem tlist_member_substitute {originals : List (Node T L)} {plain : Oid → Bool}
    {e : Node T L} (wanted : Comparable originals plain e.visited)
    (targetlist : List (TargetEntry T L))
    (columns : Comparable originals plain (visitedTargets targetlist)) :
    tlist_member (e.substitute (standsFor originals))
        (targetlist.map (TargetEntry.substitute (standsFor originals))) =
      tlist_member e targetlist := by
  unfold tlist_member
  rw [List.findIdx?_map]
  induction targetlist with
  | nil => rfl
  | cons tle targetlist ih =>
      have same := equal_substitute e tle.expr wanted
        (columns.mono (List.subset_append_left _ _))
      have later := ih (columns.mono (List.subset_append_right _ _))
      rw [List.findIdx?_cons, List.findIdx?_cons, later]
      simp only [Function.comp_apply, TargetEntry.substitute, same]

/-- Equal window functions get equal placeholders and others do not, nothing else changes,
and the outer list finds the columns of its expressions. -/
theorem window_placeholders (fdw_scan_tlist tlist : List (TargetEntry T L)) :
    ∃ replacement : Node T L → Node T L,
      replace_windowfuncs fdw_scan_tlist tlist =
        (fdw_scan_tlist.map (TargetEntry.substitute replacement),
          tlist.map (TargetEntry.substitute replacement)) ∧
      (∀ wf args aggfilter runCondition location,
        .WindowFunc wf args aggfilter runCondition location ∈
            visitedTargets fdw_scan_tlist ++ visitedTargets tlist →
        ∃ args' counter,
          replacement (.WindowFunc wf args aggfilter runCondition location) =
            placeholder wf args' counter ∧ equalList args' args = true) ∧
      (∀ v ∈ visitedTargets fdw_scan_tlist ++ visitedTargets tlist,
        ∀ w ∈ visitedTargets fdw_scan_tlist ++ visitedTargets tlist,
        IsWindowFunc v → IsWindowFunc w →
          equal (replacement v) (replacement w) = equal v w) ∧
      ∀ plain : Oid → Bool,
        (∀ node ∈ visitedTargets fdw_scan_tlist ++ visitedTargets tlist,
          node.parsed plain = true) →
        ∀ e ∈ visitedTargets tlist,
          tlist_member (e.substitute replacement)
              (fdw_scan_tlist.map (TargetEntry.substitute replacement)) =
            tlist_member e fdw_scan_tlist := by
  have empty : WindowFuncSubstState.Numbered (⟨[], [], 0⟩ : WindowFuncSubstState T L) :=
    ⟨rfl, rfl⟩
  obtain ⟨between, scanRun, scanVisits⟩ := mutate_targets_spec fdw_scan_tlist empty
  obtain ⟨after, outerRun, outerVisits⟩ := mutate_targets_spec tlist scanVisits.numbered
  have visits := scanVisits.append outerVisits
  have scanSame : fdw_scan_tlist.map (TargetEntry.substitute (standsFor between.originals)) =
      fdw_scan_tlist.map (TargetEntry.substitute (standsFor after.originals)) := by
    apply List.map_congr_left
    intro tle member
    unfold TargetEntry.substitute
    rw [Node.substitute_congr tle.expr]
    intro v visited
    exact scanVisits.stands outerVisits (List.mem_flatMap.mpr ⟨tle, member, visited⟩)
  refine ⟨standsFor after.originals, ?_, ?_, ?_, ?_⟩
  · unfold replace_windowfuncs
    simp only [scanRun, outerRun, scanSame]
  · intro wf args aggfilter runCondition location visited
    obtain ⟨i, numbered⟩ := visits.known _ visited .WindowFunc
    obtain ⟨args', stands, same⟩ := standsFor_windowFunc numbered
    exact ⟨args', i + 1, stands, same⟩
  · intro v visited w visited' isWindow isWindow'
    obtain ⟨i, numbered⟩ := visits.known v visited isWindow
    obtain ⟨j, numbered'⟩ := visits.known w visited' isWindow'
    exact equal_standsFor isWindow isWindow' numbered numbered'
  · intro plain parsed e wanted
    have comparable : Comparable after.originals plain
        (visitedTargets fdw_scan_tlist ++ visitedTargets tlist) := ⟨visits.known, parsed⟩
    have outer := comparable.mono (List.subset_append_right _ _)
    exact tlist_member_substitute (outer.mono (visitedTargets_subset wanted)) fdw_scan_tlist
      (comparable.mono (List.subset_append_left _ _))

/-- Two windows over which one function is called. -/
theorem window_placeholders_two_windows :
    let rank (winref : Nat) (location : Int) : Node Nat Unit :=
      .WindowFunc ⟨3101, 20, 0, 0, winref, false, false⟩ [] .NULL [] location
    let scan : List (TargetEntry Nat Unit) :=
      [⟨rank 1 7, 1, none, 0, false⟩, ⟨rank 2 40, 2, none, 0, false⟩]
    let outer : List (TargetEntry Nat Unit) :=
      [⟨.node 551 () [rank 2 80, .node 1 () []], 1, some "n", 0, false⟩]
    ∃ replacement : Node Nat Unit → Node Nat Unit,
      equal (replacement (rank 1 7)) (replacement (rank 2 80)) = false ∧
      tlist_member (replacement (rank 2 80)) (replace_windowfuncs scan outer).1 = some 1 := by
  intro rank scan outer
  obtain ⟨replacement, replaced, _, told, found⟩ := window_placeholders scan outer
  refine ⟨replacement, ?_, ?_⟩
  · exact told (rank 1 7) (by simp [scan, visitedTargets, Node.visited, rank])
      (rank 2 80) (by simp [outer, visitedTargets, visitedList, Node.visited, rank])
      .WindowFunc .WindowFunc
  · rw [replaced]
    exact found (fun _ => false) (by decide) (rank 2 80)
      (by simp [outer, visitedTargets, visitedList, Node.visited, rank])

end

end PgClickhouse.WindowPlaceholders

import Mathlib.Algebra.Order.Group.Unbundled.Basic
import Mathlib.Algebra.Order.Ring.Unbundled.Rat
import Mathlib.Order.WithBot
import Mathlib.Order.WithBotTop
import PgClickhouse.Basic
import PgClickhouse.Sorting

/-!
# The order of the remote rows

A foreign path claims that its rows come sorted by some pathkeys.  `appendOrderByClause`
turns each into an expression with a direction and a place for the NULLs, and leaves the
rest to ClickHouse: it compares strings by their bytes, the values of other types by what it
stores of them, and puts NaN next to the NULLs.  PostgreSQL compares what it reads by the
collation and the operator family of the pathkey, and NaN is above all other numbers.
-/

namespace PgClickhouse.SortOrder

open Sorting

/-! ## Values -/

/-- The numbers that are not NaN, with the infinities; dates and times are numbers too. -/
abbrev Ordinary := WithBot (WithTop ℚ)

/-- A float that is `none` is NaN. -/
abbrev Number := Option Ordinary

/-- `W` is what ClickHouse stores of the values of other types: the number of an Enum's label,
the halves of a UUID. -/
inductive Datum (W : Type)
  | number (x : Number)
  | text (s : Bytes)
  | other (w : W)

def negate : Ordinary → Ordinary
  | ⊥ => ⊤
  | (⊤ : WithTop ℚ) => ⊥
  | ((q : ℚ) : WithTop ℚ) => ((-q : ℚ) : WithTop ℚ)

theorem negate_lt_iff (x y : Ordinary) : negate x < negate y ↔ y < x := by
  have finite_lt (q : ℚ) : (((q : WithTop ℚ) : Ordinary)) < ⊤ :=
    WithBot.coe_lt_coe.mpr (WithTop.coe_lt_top q)
  cases x using WithBot.recBotCoe with
  | bot =>
      have lowest : negate ⊥ = ⊤ := rfl
      rw [lowest]
      simp
  | coe x =>
      cases x using WithTop.recTopCoe with
      | top =>
          have highest : negate (⊤ : WithTop ℚ) = ⊥ := rfl
          rw [highest]
          cases y using WithBot.recBotCoe with
          | bot => simp [negate]
          | coe y =>
              cases y using WithTop.recTopCoe with
              | top => simp [negate]
              | coe q => exact iff_of_true (WithBot.bot_lt_coe _) (finite_lt q)
      | coe p =>
          have negated : negate (p : WithTop ℚ) = ((-p : ℚ) : WithTop ℚ) := rfl
          rw [negated]
          cases y using WithBot.recBotCoe with
          | bot => exact iff_of_true (finite_lt (-p)) (WithBot.bot_lt_coe _)
          | coe y =>
              cases y using WithTop.recTopCoe with
              | top => simp [negate]
              | coe q =>
                  show (((-p : ℚ) : WithTop ℚ) : Ordinary) < ((-q : ℚ) : WithTop ℚ) ↔
                    ((q : WithTop ℚ) : Ordinary) < (p : WithTop ℚ)
                  rw [WithBot.coe_lt_coe, WithTop.coe_lt_coe, WithBot.coe_lt_coe,
                    WithTop.coe_lt_coe, neg_lt_neg_iff]

theorem compare_negate (x y : Ordinary) : compare (negate x) (negate y) = compare y x := by
  rcases lt_trichotomy y x with less | rfl | more
  · rw [compare_lt_iff_lt.mpr less, compare_lt_iff_lt.mpr ((negate_lt_iff x y).mpr less)]
  · rw [compare_eq_iff_eq.mpr rfl, compare_eq_iff_eq.mpr rfl]
  · rw [compare_gt_iff_gt.mpr more, compare_gt_iff_gt.mpr ((negate_lt_iff y x).mpr more)]

/-! ## Expressions -/

/-- A sort expression: a call of the operator `<#>`, the negative inner product, or any
other expression. -/
inductive Expr (E : Type)
  | vector_neg_ip (left right : E)
  | other (expr : E)

/-- What is printed for one. -/
inductive Printed (E : Type)
  | dotProduct (left right : E)
  | expr (expr : E)

/-- What the expressions are on a row, here as there; `none` is NULL. -/
structure Values (E W Row : Type) where
  value : E → Row → Option (Datum W)
  dotProduct : E → E → Row → Option Number

section Eval

variable {E W Row : Type} (values : Values E W Row)

def Expr.eval : Expr E → Row → Option (Datum W)
  | .vector_neg_ip left right, row =>
      (values.dotProduct left right row).map fun x => .number (x.map negate)
  | .other e, row => values.value e row

def Printed.eval : Printed E → Row → Option (Datum W)
  | .dotProduct left right, row => (values.dotProduct left right row).map .number
  | .expr e, row => values.value e row

end Eval

/-! ## Pathkeys and ORDER BY -/

/-- How an operator family compares the values of a type, texts under a collation.  Values
that differ may be equal. -/
structure FamilyOrder (α : Type) where
  cmp : α → α → Ordering
  trans : Std.TransCmp cmp

structure EquivalenceClass (E : Type) where
  ec_members : List (Expr E)
  ec_has_volatile : Bool

/-- `order` is that of the operator family and the collation for texts, `others` that of the
operator family for the values that PostgreSQL reads of other types. -/
structure PathKey (E W : Type) where
  pk_eclass : EquivalenceClass E
  order : FamilyOrder Bytes
  others : FamilyOrder W
  asc : Bool
  pk_nulls_first : Bool

structure OrderByItem (E : Type) where
  expr : Printed E
  asc : Bool
  nulls_first : Bool

section Emission

variable {E W : Type} (find : EquivalenceClass E → Option (Expr E))

/-- What a path may claim, in `get_useful_pathkeys_for_relation` and in
`add_foreign_ordered_paths`. -/
def query_pathkeys_ok (chfdw_is_foreign_expr : Expr E → Bool)
    (query_pathkeys : List (PathKey E W)) : Bool :=
  query_pathkeys.all fun pathkey =>
    !pathkey.pk_eclass.ec_has_volatile && (find pathkey.pk_eclass).any chfdw_is_foreign_expr

/-- One key of ORDER BY. -/
def orderByItem (pathkey : PathKey E W) : Expr E → OrderByItem E
  | .vector_neg_ip left right =>
      -- sorted as the product, in the other direction
      ⟨.dotProduct left right, !pathkey.asc, pathkey.pk_nulls_first⟩
  | .other e => ⟨.expr e, pathkey.asc, pathkey.pk_nulls_first⟩

/-- `find` is the search for a member of the class that the relation can compute. -/
def appendOrderByClause (pathkeys : List (PathKey E W)) : Option (List (OrderByItem E)) :=
  pathkeys.mapM fun pathkey => (find pathkey.pk_eclass).map (orderByItem pathkey)

/-- The pathkeys with the members that are found. -/
def members (pathkeys : List (PathKey E W)) : List (PathKey E W × Expr E) :=
  pathkeys.filterMap fun pathkey => (find pathkey.pk_eclass).map fun em_expr => (pathkey, em_expr)

variable {find}

theorem clause_of_members {pathkeys : List (PathKey E W)} {clause : List (OrderByItem E)}
    (emitted : appendOrderByClause find pathkeys = some clause) :
    clause = (members find pathkeys).map fun key => orderByItem key.1 key.2 := by
  unfold appendOrderByClause at emitted
  induction pathkeys generalizing clause with
  | nil =>
      cases emitted
      rfl
  | cons pathkey rest ih =>
      rw [List.mapM_cons] at emitted
      cases found : find pathkey.pk_eclass with
      | none => simp [found] at emitted
      | some em_expr =>
          rw [found] at emitted
          simp only [Option.map_some, Option.bind_eq_bind, Option.bind_some] at emitted
          obtain ⟨items, others, same⟩ := Option.bind_eq_some_iff.mp emitted
          cases same
          rw [ih others, members, members, List.filterMap_cons_some (by rw [found]; rfl)]
          rfl

end Emission

/-! ## The two orders -/

/-- A column has numbers, texts or values of another type; between them either side may
decide. -/
def byKind {W : Type} (asc : Bool) (numbers : Number → Number → Ordering)
    (texts : Bytes → Bytes → Ordering) (others : W → W → Ordering) : Datum W → Datum W → Ordering
  | .number x, .number y => numbers x y
  | .text s, .text t => texts s t
  | .other v, .other w => others v w
  | .number _, .text _ | .number _, .other _ | .text _, .other _ => if asc then .lt else .gt
  | .text _, .number _ | .other _, .number _ | .other _, .text _ => if asc then .gt else .lt

instance byKind_trans {W : Type} (asc : Bool) (numbers : Number → Number → Ordering)
    (texts : Bytes → Bytes → Ordering) (others : W → W → Ordering) [Std.TransCmp numbers]
    [Std.TransCmp texts] [Std.TransCmp others] :
    Std.TransCmp (byKind asc numbers texts others) where
  eq_swap {a b} := by
    match a, b with
    | .number x, .number y =>
        show numbers x y = (numbers y x).swap
        exact Std.OrientedCmp.eq_swap
    | .text s, .text t =>
        show texts s t = (texts t s).swap
        exact Std.OrientedCmp.eq_swap
    | .other v, .other w =>
        show others v w = (others w v).swap
        exact Std.OrientedCmp.eq_swap
    | .number _, .text _ | .number _, .other _ | .text _, .other _ | .text _, .number _
    | .other _, .number _ | .other _, .text _ => cases asc <;> rfl
  isLE_trans {a b c} before after := by
    match a, b, c with
    | .number x, .number y, .number z =>
        show (numbers x z).isLE = true
        exact Std.TransCmp.isLE_trans before after
    | .text s, .text t, .text u =>
        show (texts s u).isLE = true
        exact Std.TransCmp.isLE_trans before after
    | .other u, .other v, .other w =>
        show (others u w).isLE = true
        exact Std.TransCmp.isLE_trans before after
    | .number _, .number _, .text _ | .number _, .number _, .other _ | .text _, .text _, .number _
    | .text _, .text _, .other _ | .other _, .other _, .number _ | .other _, .other _, .text _ =>
        exact after
    | .number _, .text _, .text _ | .number _, .other _, .other _ | .text _, .number _, .number _
    | .text _, .other _, .other _ | .other _, .number _, .number _ | .other _, .text _, .text _ =>
        exact before
    | .number _, .text _, c | .number _, .other _, c | .text _, .number _, c | .text _, .other _, c
    | .other _, .number _, c | .other _, .text _, c =>
        cases c <;> cases asc <;> simp [byKind] at *

section Orders

variable {E W Row : Type} [Ord W] [Std.TransOrd W] [Std.LawfulEqOrd W] (values : Values E W Row)

/-- PostgreSQL: NaN is above all numbers, texts and other values have the order of the
pathkey. -/
def PathKey.compare (pathkey : PathKey E W) : Option (Datum W) → Option (Datum W) → Ordering :=
  placed pathkey.pk_nulls_first
    (byKind pathkey.asc (directed pathkey.asc (placed false Ord.compare))
      (directed pathkey.asc pathkey.order.cmp) (directed pathkey.asc pathkey.others.cmp))

/-- ClickHouse: NaN stands next to the NULLs, texts are their bytes, other values what is
stored of them. -/
def remoteCompare (asc nulls_first : Bool) : Option (Datum W) → Option (Datum W) → Ordering :=
  placed nulls_first
    (byKind asc (placed nulls_first (directed asc Ord.compare)) (directed asc Ord.compare)
      (directed asc Ord.compare))

omit [Ord W] [Std.TransOrd W] [Std.LawfulEqOrd W] in
instance (pathkey : PathKey E W) : Std.TransCmp pathkey.compare := by
  have trans := pathkey.order.trans
  have others := pathkey.others.trans
  unfold PathKey.compare
  infer_instance

instance (asc nulls_first : Bool) : Std.TransCmp (remoteCompare (W := W) asc nulls_first) := by
  unfold remoteCompare
  infer_instance

/-- The order a path claims. -/
def localOrder (keys : List (PathKey E W × Expr E)) : Row → Row → Ordering :=
  lexicographic (keys.map fun key => compareBy (key.2.eval values) key.1.compare)

/-- The order of the clause. -/
def remoteOrder (clause : List (OrderByItem E)) : Row → Row → Ordering :=
  lexicographic (clause.map fun item =>
    compareBy (item.expr.eval values) (remoteCompare item.asc item.nulls_first))

instance localOrder_trans (keys : List (PathKey E W × Expr E)) :
    Std.TransCmp (localOrder values keys) := by
  refine lexicographic_trans ?_
  intro cmp mem
  obtain ⟨key, -, rfl⟩ := List.mem_map.mp mem
  infer_instance

instance remoteOrder_trans (clause : List (OrderByItem E)) :
    Std.TransCmp (remoteOrder values clause) := by
  refine lexicographic_trans ?_
  intro cmp mem
  obtain ⟨item, -, rfl⟩ := List.mem_map.mp mem
  infer_instance

/-! ## Where they agree -/

/-- The two orders of a pathkey agree on these two values. -/
def PathKey.Agrees (pathkey : PathKey E W) : Option (Datum W) → Option (Datum W) → Prop
  | some (.number none), some (.number (some _)) | some (.number (some _)), some (.number none) =>
      pathkey.asc ≠ pathkey.pk_nulls_first
  | some (.text s), some (.text t) => pathkey.order.cmp s t = Ord.compare s t
  | some (.other v), some (.other w) => pathkey.others.cmp v w = Ord.compare v w
  | _, _ => True

/-- Values that differ and are equal for the pathkey, with the order ClickHouse gives them. -/
inductive PathKey.Splits (pathkey : PathKey E W) :
    Option (Datum W) → Option (Datum W) → Ordering → Prop
  | text {s t : Bytes} (tie : pathkey.order.cmp s t = .eq) (differ : s ≠ t) :
      Splits pathkey (some (.text s)) (some (.text t)) (directed pathkey.asc Ord.compare s t)
  | other {v w : W} (tie : pathkey.others.cmp v w = .eq) (differ : v ≠ w) :
      Splits pathkey (some (.other v)) (some (.other w)) (directed pathkey.asc Ord.compare v w)

/-- The claimed order keeps no two rows apart that the clause ties, and puts none the other
way round: at each pathkey the two orders agree, up to the first that tells the rows apart;
or values that are equal for the pathkey differ, and the pathkeys behind it do not want these
rows the other way round. -/
def Alike : List (PathKey E W × Expr E) → Row → Row → Prop
  | [], _, _ => True
  | (pathkey, em_expr) :: keys, a, b =>
      pathkey.Agrees (em_expr.eval values a) (em_expr.eval values b) ∧
          (pathkey.compare (em_expr.eval values a) (em_expr.eval values b) = .eq →
            Alike keys a b) ∨
        ∃ order, pathkey.Splits (em_expr.eval values a) (em_expr.eval values b) order ∧
          localOrder values keys a b ≠ order.swap

omit [Std.TransOrd W] [Std.LawfulEqOrd W] in
/-- In the other direction the product has the order of its negation. -/
theorem remoteCompare_item (pathkey : PathKey E W) (em_expr : Expr E) (a b : Row) :
    remoteCompare (orderByItem pathkey em_expr).asc (orderByItem pathkey em_expr).nulls_first
        ((orderByItem pathkey em_expr).expr.eval values a)
        ((orderByItem pathkey em_expr).expr.eval values b) =
      remoteCompare pathkey.asc pathkey.pk_nulls_first (em_expr.eval values a)
        (em_expr.eval values b) := by
  cases em_expr with
  | other e => rfl
  | vector_neg_ip left right =>
      simp only [orderByItem, Printed.eval, Expr.eval]
      cases values.dotProduct left right a with
      | none => cases values.dotProduct left right b <;> rfl
      | some x =>
          cases values.dotProduct left right b with
          | none => rfl
          | some y =>
              cases x with
              | none => cases y <;> rfl
              | some x =>
                  cases y with
                  | none => rfl
                  | some y =>
                      show directed (!pathkey.asc) Ord.compare x y =
                        directed pathkey.asc Ord.compare (negate x) (negate y)
                      unfold directed
                      cases pathkey.asc with
                      | false => exact (compare_negate y x).symm
                      | true => exact (compare_negate x y).symm

omit [Std.TransOrd W] [Std.LawfulEqOrd W] in
theorem agrees_number (pathkey : PathKey E W) (x y : Number) :
    pathkey.Agrees (some (.number x)) (some (.number y)) ↔
      remoteCompare pathkey.asc pathkey.pk_nulls_first (some (.number x))
          (some (.number y) : Option (Datum W)) =
        pathkey.compare (some (.number x)) (some (.number y)) := by
  obtain ⟨pk_eclass, order, others, asc, nulls_first⟩ := pathkey
  cases x <;> cases y <;> cases asc <;> cases nulls_first <;>
    simp [PathKey.Agrees, PathKey.compare, remoteCompare, placed, byKind, directed]

/-- In either direction two comparators agree on the same values. -/
theorem directed_congr_iff {α : Type} (asc : Bool) {cmp cmp' : α → α → Ordering}
    [Std.OrientedCmp cmp] [Std.OrientedCmp cmp'] (a b : α) :
    directed asc cmp a b = directed asc cmp' a b ↔ cmp' a b = cmp a b := by
  cases asc with
  | true => exact eq_comm
  | false =>
      have swap : cmp b a = (cmp a b).swap := Std.OrientedCmp.eq_swap
      have swap' : cmp' b a = (cmp' a b).swap := Std.OrientedCmp.eq_swap
      show cmp b a = cmp' b a ↔ cmp' a b = cmp a b
      rw [swap, swap']
      cases cmp a b <;> cases cmp' a b <;> decide

omit [Std.LawfulEqOrd W] in
/-- The values on which the two orders of a pathkey agree. -/
theorem agrees_iff (pathkey : PathKey E W) (x y : Option (Datum W)) :
    pathkey.Agrees x y ↔
      remoteCompare pathkey.asc pathkey.pk_nulls_first x y = pathkey.compare x y := by
  have texts := pathkey.order.trans
  have others := pathkey.others.trans
  match x, y with
  | none, none | none, some _ | some (.text _), none | some (.number _), none
  | some (.other _), none | some (.number _), some (.text _) | some (.text _), some (.number _)
  | some (.number _), some (.other _) | some (.other _), some (.number _)
  | some (.text _), some (.other _) | some (.other _), some (.text _) =>
      simp [PathKey.Agrees, PathKey.compare, remoteCompare, placed, byKind]
  | some (.number x), some (.number y) => exact agrees_number pathkey x y
  | some (.text s), some (.text t) => exact (directed_congr_iff pathkey.asc s t).symm
  | some (.other v), some (.other w) => exact (directed_congr_iff pathkey.asc v w).symm

theorem directed_eq_iff {α : Type} (asc : Bool) {cmp : α → α → Ordering} [Std.OrientedCmp cmp]
    (a b : α) : directed asc cmp a b = .eq ↔ cmp a b = .eq := by
  have swapped : cmp b a = (cmp a b).swap := Std.OrientedCmp.eq_swap
  cases asc with
  | true => exact Iff.rfl
  | false =>
      show cmp b a = .eq ↔ cmp a b = .eq
      rw [swapped]
      cases cmp a b <;> decide

/-- Equal values are equal for every order, so where two orders differ on a tie of one, the
values differ. -/
theorem ne_of_tie {α : Type} {cmp cmp' : α → α → Ordering} [Std.ReflCmp cmp] [Std.ReflCmp cmp']
    {a b : α} (differ : ¬cmp a b = cmp' a b) : a ≠ b := by
  rintro rfl
  exact differ (Std.ReflCmp.compare_self.trans Std.ReflCmp.compare_self.symm)

omit [Std.TransOrd W] [Std.LawfulEqOrd W] in
/-- ClickHouse gives split values this order. -/
theorem PathKey.Splits.remote {pathkey : PathKey E W} {x y : Option (Datum W)} {order : Ordering}
    (splits : pathkey.Splits x y order) :
    remoteCompare pathkey.asc pathkey.pk_nulls_first x y = order := by
  cases splits <;> rfl

/-- Where the two orders of a pathkey differ and PostgreSQL has a tie, ClickHouse splits equal
values. -/
theorem split_iff (pathkey : PathKey E W) (x y : Option (Datum W)) :
    remoteCompare pathkey.asc pathkey.pk_nulls_first x y ≠ pathkey.compare x y ∧
        pathkey.compare x y = .eq ↔
      ∃ order, pathkey.Splits x y order := by
  have apart (asc : Bool) (x : Ordinary) :
      directed asc (placed false Ord.compare) none (some x) ≠ .eq ∧
        directed asc (placed false Ord.compare) (some x) none ≠ .eq := by
    cases asc <;> exact ⟨nofun, nofun⟩
  have texts := pathkey.order.trans
  have others := pathkey.others.trans
  rw [ne_eq, ← agrees_iff]
  constructor
  · rintro ⟨differ, tie⟩
    unfold PathKey.Agrees at differ
    split at differ
    · exact absurd tie (apart pathkey.asc _).1
    · exact absurd tie (apart pathkey.asc _).2
    · exact ⟨_, .text ((directed_eq_iff pathkey.asc _ _).mp tie) (ne_of_tie differ)⟩
    · exact ⟨_, .other ((directed_eq_iff pathkey.asc _ _).mp tie) (ne_of_tie differ)⟩
    · exact absurd trivial differ
  · rintro ⟨order, splits⟩
    cases splits with
    | text tie differ =>
        refine ⟨fun agrees => differ ?_, (directed_eq_iff pathkey.asc _ _).mpr tie⟩
        exact Std.LawfulEqCmp.eq_of_compare (agrees.symm.trans tie)
    | other tie differ =>
        refine ⟨fun agrees => differ ?_, (directed_eq_iff pathkey.asc _ _).mpr tie⟩
        exact Std.LawfulEqOrd.eq_of_compare (agrees.symm.trans tie)

/-- A tie of the clause is one of the pathkey. -/
theorem tie_of_remote (pathkey : PathKey E W) {x y : Option (Datum W)}
    (tie : remoteCompare pathkey.asc pathkey.pk_nulls_first x y = .eq) :
    pathkey.compare x y = .eq := by
  have apart (first : Bool) (cmp : Ordinary → Ordinary → Ordering) (x : Ordinary) :
      placed first cmp none (some x) ≠ .eq ∧ placed first cmp (some x) none ≠ .eq := by
    cases first <;> exact ⟨nofun, nofun⟩
  by_cases agrees : pathkey.Agrees x y
  · rw [← (agrees_iff pathkey x y).mp agrees, tie]
  · unfold PathKey.Agrees at agrees
    split at agrees
    · rename_i x
      exact absurd tie (apart _ (directed pathkey.asc Ord.compare) x).1
    · rename_i x
      exact absurd tie (apart _ (directed pathkey.asc Ord.compare) x).2
    · rename_i s t
      have bytes : Ord.compare s t = .eq := (directed_eq_iff pathkey.asc s t).mp tie
      obtain rfl : s = t := Std.LawfulEqCmp.eq_of_compare bytes
      exact Std.ReflCmp.compare_self
    · rename_i v w
      have stored : Ord.compare v w = .eq := (directed_eq_iff pathkey.asc v w).mp tie
      obtain rfl : v = w := Std.LawfulEqOrd.eq_of_compare stored
      exact Std.ReflCmp.compare_self
    · exact absurd trivial agrees

/-- Two rows are alike exactly if the clause may stand for the pathkeys on them. -/
theorem alike_iff (keys : List (PathKey E W × Expr E)) (a b : Row) :
    Alike values keys a b ↔
      Compatible (remoteOrder values (keys.map fun key => orderByItem key.1 key.2) a b)
        (localOrder values keys a b) := by
  induction keys with
  | nil => exact iff_of_true trivial (Compatible.refl _)
  | cons key keys ih =>
      obtain ⟨pathkey, em_expr⟩ := key
      generalize clause : keys.map (fun key => orderByItem key.1 key.2) = rest at ih
      have remote : remoteOrder values
          (((pathkey, em_expr) :: keys).map fun key => orderByItem key.1 key.2) a b =
          (remoteCompare pathkey.asc pathkey.pk_nulls_first (em_expr.eval values a)
            (em_expr.eval values b)).then (remoteOrder values rest a b) := by
        rw [← remoteCompare_item values, ← clause]
        rfl
      have claimed : localOrder values ((pathkey, em_expr) :: keys) a b =
          (pathkey.compare (em_expr.eval values a) (em_expr.eval values b)).then
            (localOrder values keys a b) := rfl
      have split := split_iff pathkey (em_expr.eval values a) (em_expr.eval values b)
      rw [Alike, remote, claimed, compatible_then_iff (tie_of_remote pathkey), ← ih,
        ← agrees_iff]
      apply or_congr Iff.rfl
      constructor
      · rintro ⟨order, splits, later⟩
        obtain ⟨disagree, tied⟩ := split.mpr ⟨order, splits⟩
        refine ⟨?_, tied, ?_⟩
        · exact disagree
        · rw [splits.remote]
          exact later
      · rintro ⟨disagree, tied, later⟩
        obtain ⟨order, splits⟩ := split.mp ⟨disagree, tied⟩
        rw [splits.remote] at later
        exact ⟨order, splits, later⟩

variable (find : EquivalenceClass E → Option (Expr E))

/-- For all pathkeys for which the clause can be printed, and any rows: whatever order they
may arrive in, they come as the path claims exactly if every two of them are alike. -/
theorem remote_order_iff (pathkeys : List (PathKey E W)) (clause : List (OrderByItem E))
    (emitted : appendOrderByClause find pathkeys = some clause) (rows : List Row) :
    (∀ arrived, arrived.Perm rows → Sorted (remoteOrder values clause) arrived →
        Sorted (localOrder values (members find pathkeys)) arrived) ↔
      ∀ a ∈ rows, ∀ b ∈ rows, Alike values (members find pathkeys) a b := by
  rw [sorted_iff_compatible, clause_of_members emitted]
  apply forall₂_congr
  intro a _
  apply forall₂_congr
  intro b _
  exact (alike_iff values _ a b).symm

end Orders

/-! ## A column with NaN -/

/-- Rows of one column. -/
def oneColumn : Values Unit Nat (Option (Datum Nat)) := ⟨fun _ row => row, fun _ _ _ => none⟩

def firstMember (ec : EquivalenceClass Unit) : Option (Expr Unit) := ec.ec_members.head?

/-- `ORDER BY x NULLS FIRST` on the column. -/
def nullsFirst : PathKey Unit Nat :=
  ⟨⟨[.other ()], false⟩, ⟨Ord.compare, inferInstance⟩, ⟨Ord.compare, inferInstance⟩, true, true⟩

theorem remote_order_iff_closed :
    (∀ arrived, arrived.Perm [some (.number (some (1 : ℚ))), none] →
        Sorted (remoteOrder oneColumn [⟨.expr (), true, true⟩]) arrived →
        Sorted (localOrder oneColumn (members firstMember [nullsFirst])) arrived) ↔
      ∀ a ∈ [some (.number (some (1 : ℚ))), none],
        ∀ b ∈ [some (.number (some (1 : ℚ))), none],
          Alike oneColumn (members firstMember [nullsFirst]) a b :=
  remote_order_iff oneColumn firstMember [nullsFirst] [⟨.expr (), true, true⟩] rfl _

/-- With `NULLS FIRST`, NaN comes in front of the numbers, though it is above them. -/
theorem nan_in_front :
    query_pathkeys_ok firstMember (fun _ => true) [nullsFirst] = true ∧
      appendOrderByClause firstMember [nullsFirst] = some [⟨.expr (), true, true⟩] ∧
      Sorted (remoteOrder oneColumn [⟨.expr (), true, true⟩])
        [some (.number none), some (.number (some (1 : ℚ)))] ∧
      ¬ Sorted (localOrder oneColumn (members firstMember [nullsFirst]))
        [some (.number none), some (.number (some (1 : ℚ)))] := by
  refine ⟨rfl, rfl, ?_, ?_⟩
  · exact List.pairwise_pair.mpr rfl
  · intro sorted
    have inOrder := List.pairwise_pair.mp sorted
    exact absurd inOrder (by decide)

end PgClickhouse.SortOrder

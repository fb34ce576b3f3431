import Mathlib.Data.List.Sort

/-!
# Sorting by several keys

Comparators of rows: in a direction, with a value at one end, and key after key.  A list
that one comparator has sorted is sorted for another, whatever it does with ties, exactly
if no two of its items are put in opposite orders and no tie is one the other tells apart.
-/

namespace Sorting

variable {α : Type*}

/-! ## Comparators -/

/-- The comparator itself, or the opposite order. -/
def directed (asc : Bool) (cmp : α → α → Ordering) (a b : α) : Ordering :=
  if asc then cmp a b else cmp b a

/-- `none` stands in front of everything or behind it. -/
def placed (first : Bool) (cmp : α → α → Ordering) : Option α → Option α → Ordering
  | none, none => .eq
  | none, some _ => if first then .lt else .gt
  | some _, none => if first then .gt else .lt
  | some a, some b => cmp a b

/-- Compare what is read from the items. -/
def compareBy {β : Type*} (f : α → β) (cmp : β → β → Ordering) (a b : α) : Ordering :=
  cmp (f a) (f b)

/-- The first comparator that tells the items apart. -/
def lexicographic : List (α → α → Ordering) → α → α → Ordering
  | [] => fun _ _ => .eq
  | cmp :: rest => compareLex cmp (lexicographic rest)

instance directed_trans (asc : Bool) (cmp : α → α → Ordering) [Std.TransCmp cmp] :
    Std.TransCmp (directed asc cmp) := by
  cases asc with
  | false => exact inferInstanceAs (Std.TransCmp fun a b => cmp b a)
  | true => exact inferInstanceAs (Std.TransCmp cmp)

instance placed_trans (first : Bool) (cmp : α → α → Ordering) [Std.TransCmp cmp] :
    Std.TransCmp (placed first cmp) where
  eq_swap {a b} := by
    cases a with
    | none => cases b <;> cases first <;> rfl
    | some a =>
        cases b with
        | none => cases first <;> rfl
        | some b =>
            show cmp a b = (cmp b a).swap
            exact Std.OrientedCmp.eq_swap
  isLE_trans {a b c} before after := by
    cases a with
    | none => cases b <;> cases c <;> cases first <;> simp [placed] at *
    | some a =>
        cases b with
        | none => cases c <;> cases first <;> simp [placed] at *
        | some b =>
            cases c with
            | none => exact after
            | some c =>
                show (cmp a c).isLE = true
                exact Std.TransCmp.isLE_trans before after

instance compareBy_trans {β : Type*} (f : α → β) (cmp : β → β → Ordering) [Std.TransCmp cmp] :
    Std.TransCmp (compareBy f cmp) where
  eq_swap {a b} := by
    show cmp (f a) (f b) = (cmp (f b) (f a)).swap
    exact Std.OrientedCmp.eq_swap
  isLE_trans {a b c} before after := by
    show (cmp (f a) (f c)).isLE = true
    exact Std.TransCmp.isLE_trans before after

theorem lexicographic_trans {cmps : List (α → α → Ordering)}
    (each : ∀ cmp ∈ cmps, Std.TransCmp cmp) : Std.TransCmp (lexicographic cmps) := by
  induction cmps with
  | nil =>
      have swapped : Std.OrientedCmp (lexicographic ([] : List (α → α → Ordering))) :=
        { eq_swap := rfl }
      exact { isLE_trans := fun _ _ => rfl }
  | cons cmp rest ih =>
      have one := each cmp List.mem_cons_self
      have others := ih fun other mem => each other (List.mem_cons_of_mem _ mem)
      exact inferInstanceAs (Std.TransCmp (compareLex cmp (lexicographic rest)))

/-! ## One order instead of another -/

/-- What sorting may return. -/
def Sorted (cmp : α → α → Ordering) (l : List α) : Prop :=
  l.Pairwise fun a b => (cmp a b).isLE = true

/-- Items in this order for a comparator may stand like that for another. -/
def Compatible (order needed : Ordering) : Prop :=
  (order.isLE → needed.isLE) ∧ (order.isGE → needed.isGE)

theorem Compatible.refl (order : Ordering) : Compatible order order := ⟨id, id⟩

/-- What is sorted is sorted for the other comparator, in every order in which ties may
come, exactly if this holds of every two items. -/
theorem sorted_iff_compatible {cmp needed : α → α → Ordering} [Std.TransCmp cmp]
    [Std.TransCmp needed] (items : List α) :
    (∀ l, l.Perm items → Sorted cmp l → Sorted needed l) ↔
      ∀ a ∈ items, ∀ b ∈ items, Compatible (cmp a b) (needed a b) := by
  have opposite (order : α → α → Ordering) [Std.TransCmp order] (a b : α) :
      (order a b).isGE = (order b a).isLE := by
    have swapped : order b a = (order a b).swap := Std.OrientedCmp.eq_swap
    rw [swapped]
    cases order a b <;> rfl
  constructor
  · intro every
    -- of two items the first may come first
    have inOrder : ∀ a ∈ items, ∀ b ∈ items, (cmp a b).isLE → (needed a b).isLE := by
      classical
      intro a memA b memB before
      by_cases same : a = b
      · have self : needed b b = .eq := Std.ReflCmp.compare_self
        rw [same, self]
        rfl
      · let r : α → α → Prop := fun a b => (cmp a b).isLE = true
        have total : Std.Total r := by
          refine ⟨fun a b => ?_⟩
          have swapped : cmp b a = (cmp a b).swap := Std.OrientedCmp.eq_swap
          change (cmp a b).isLE = true ∨ (cmp b a).isLE = true
          rw [swapped]
          cases cmp a b <;> decide
        have trans : IsTrans α r := ⟨fun _ _ _ => Std.TransCmp.isLE_trans⟩
        have others : List.Perm (a :: b :: (items.erase a).erase b) items := by
          have left : b ∈ items.erase a := (List.mem_erase_of_ne fun eq => same eq.symm).mpr memB
          exact ((List.perm_cons_erase left).symm.cons a).trans (List.perm_cons_erase memA).symm
        generalize (items.erase a).erase b = rest at others
        have sorted := every _ ((List.perm_insertionSort r (a :: b :: rest)).trans others)
          (List.pairwise_insertionSort r (a :: b :: rest))
        have pair : List.Sublist [a, b] (a :: b :: rest) :=
          ((List.nil_sublist rest).cons_cons b).cons_cons a
        exact List.pairwise_iff_forall_sublist.mp sorted
          (List.pair_sublist_insertionSort before pair)
    intro a memA b memB
    refine ⟨inOrder a memA b memB, ?_⟩
    rw [opposite cmp, opposite needed]
    exact inOrder b memB a memA
  · intro compatible l perm sorted
    refine List.Pairwise.imp_of_mem ?_ sorted
    intro a b memA memB before
    exact (compatible a (perm.subset memA) b (perm.subset memB)).1 before

/-- Two orders key after key: the first keys put the items in the same order, or the next
ones decide; where only the sorted order tells them apart, the needed one must not put them
in the opposite order later. -/
theorem compatible_then_iff {order needed restOrder restNeeded : Ordering}
    (tie : order = .eq → needed = .eq) :
    Compatible (order.then restOrder) (needed.then restNeeded) ↔
      order = needed ∧ (needed = .eq → Compatible restOrder restNeeded) ∨
        order ≠ needed ∧ needed = .eq ∧ restNeeded ≠ order.swap := by
  cases order <;> cases needed <;> cases restOrder <;> cases restNeeded <;>
    simp_all [Compatible, Ordering.then, Ordering.swap]

end Sorting

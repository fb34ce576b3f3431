import Mathlib.Data.List.Nodup
import Mathlib.Data.List.Basic

/-!
# Lists keyed by a projection

A list whose elements carry a key (`key : α → κ`) is read as a finite map: `find`
returns the first element of a key.  `insertWith` adds one element, combining it
with the element of the same key if there is one, and `mergeWith` folds a whole
list in.  Nothing here names a program.

* `find_insertWith` and `find_mergeWith`: what a key holds after one insertion and
  after a whole merge, as a fold over the elements of that key.
* `nodup_mergeWith`: a merge never repeats a key.
* `find_upsertAll`: when the combination keeps the newer element, a merge holds the
  last element of the key, or what was there before.
-/

namespace Keyed

variable {α κ : Type*} [DecidableEq κ]

/-- The first element of `l` whose key is `k`. -/
def find (key : α → κ) (k : κ) (l : List α) : Option α :=
  l.find? (fun x => decide (key x = k))

/-- The last element of `l` whose key is `k`. -/
def findLast (key : α → κ) (k : κ) (l : List α) : Option α :=
  (l.filter (fun x => decide (key x = k))).getLast?

/-- Add `x`: the first element with its key becomes `f y x`; without one, `x` goes
to the end. -/
def insertWith (key : α → κ) (f : α → α → α) (x : α) : List α → List α
  | [] => [x]
  | y :: l => if key y = key x then f y x :: l else y :: insertWith key f x l

/-- Add every element of `xs` to `base`, in order. -/
def mergeWith (key : α → κ) (f : α → α → α) (base xs : List α) : List α :=
  xs.foldl (fun l x => insertWith key f x l) base

/-- Add every element of `xs` to `base`, newer elements replacing older ones. -/
def upsertAll (key : α → κ) (base xs : List α) : List α :=
  mergeWith key (fun _ x => x) base xs

variable {key : α → κ} {f : α → α → α}

@[simp] theorem find_nil (k : κ) : find key k [] = none := rfl

theorem find_cons_of_eq {k : κ} {x : α} {l : List α} (h : key x = k) :
    find key k (x :: l) = some x := by
  simp [find, h]

theorem find_cons_of_ne {k : κ} {x : α} {l : List α} (h : key x ≠ k) :
    find key k (x :: l) = find key k l := by
  simp [find, h]

theorem key_of_find {k : κ} {x : α} {l : List α} (found : find key k l = some x) :
    key x = k := by
  simpa using List.find?_some found

theorem mem_of_find {k : κ} {x : α} {l : List α} (found : find key k l = some x) : x ∈ l :=
  List.mem_of_find?_eq_some found

theorem find_eq_none {k : κ} {l : List α} : find key k l = none ↔ ∀ x ∈ l, key x ≠ k := by
  simp [find]

/-- Elements that are named by their places are found there. -/
theorem find_mapIdx {β : Type*} {names : ℕ → κ} (l : List β) (g : ℕ → β → α)
    (named : ∀ i x, i < l.length → key (g i x) = names i) (distinct : Function.Injective names)
    (n : ℕ) : find key (names n) (l.mapIdx g) = l[n]?.map (g n) := by
  induction l generalizing g names n with
  | nil => rfl
  | cons x l ih =>
      rw [List.mapIdx_cons]
      cases n with
      | zero =>
          rw [find_cons_of_eq (named 0 x (Nat.zero_lt_succ _))]
          rfl
      | succ n =>
          have other : key (g 0 x) ≠ names (n + 1) := by
            rw [named 0 x (Nat.zero_lt_succ _)]
            exact fun same => Nat.succ_ne_zero n (distinct same).symm
          rw [find_cons_of_ne other]
          exact @ih (fun i => names (i + 1)) (fun i => g (i + 1))
            (fun i y below => named (i + 1) y (Nat.succ_lt_succ below))
            (fun i j same => Nat.succ.inj (distinct same)) n

/-- With distinct keys, an element is found under its own key. -/
theorem find_of_mem {x : α} {l : List α} (distinct : (l.map key).Nodup) (member : x ∈ l) :
    find key (key x) l = some x := by
  induction l with
  | nil => cases member
  | cons y l ih =>
      simp only [List.map_cons, List.nodup_cons] at distinct
      rcases List.mem_cons.mp member with rfl | later
      · exact find_cons_of_eq rfl
      · have differ : key y ≠ key x := by
          intro same
          exact distinct.1 (same ▸ List.mem_map_of_mem later)
        rw [find_cons_of_ne differ]
        exact ih distinct.2 later

theorem find_filter {p : α → Bool} {k : κ} {l : List α} (distinct : (l.map key).Nodup) :
    find key k (l.filter p) = (find key k l).filter p := by
  induction l with
  | nil => rfl
  | cons y l ih =>
      simp only [List.map_cons, List.nodup_cons] at distinct
      by_cases same : key y = k
      · subst same
        have absent : find key (key y) l = none := by
          rw [find_eq_none]
          intro x member same
          exact distinct.1 (same ▸ List.mem_map_of_mem member)
        rw [find_cons_of_eq rfl]
        cases hp : p y with
        | true => simp [Option.filter, hp, find_cons_of_eq]
        | false =>
            rw [List.filter_cons_of_neg (by simp [hp]), ih distinct.2, absent]
            simp [Option.filter, hp]
      · rw [find_cons_of_ne same, ← ih distinct.2, List.filter_cons]
        split
        · exact find_cons_of_ne same
        · rfl

theorem find_map {g : α → α} (keeps : ∀ x, key (g x) = key x) (k : κ) (l : List α) :
    find key k (l.map g) = (find key k l).map g := by
  induction l with
  | nil => rfl
  | cons y l ih =>
      rw [List.map_cons]
      rcases eq_or_ne (key y) k with same | differ
      · rw [find_cons_of_eq same, find_cons_of_eq ((keeps y).trans same)]
        rfl
      · rw [find_cons_of_ne differ, find_cons_of_ne (keeps y ▸ differ), ih]

/-- With distinct keys, a key has at most one element. -/
theorem filter_key_of_nodup {k : κ} {l : List α} (distinct : (l.map key).Nodup) :
    l.filter (fun x => decide (key x = k)) = (find key k l).toList := by
  induction l with
  | nil => rfl
  | cons y l ih =>
      simp only [List.map_cons, List.nodup_cons] at distinct
      by_cases same : key y = k
      · have none_later : l.filter (fun x => decide (key x = k)) = [] := by
          rw [List.filter_eq_nil_iff]
          intro x member
          have differ : key x ≠ k := by
            intro h
            exact distinct.1 (same.trans h.symm ▸ List.mem_map_of_mem member)
          simp [differ]
        simp [same, none_later, find_cons_of_eq same]
      · rw [find_cons_of_ne same, ← ih distinct.2]
        simp [same]

/-! ## One insertion -/

/-- What a key holds after one insertion. -/
theorem find_insertWith (keeps : ∀ y x, key y = key x → key (f y x) = key x)
    (k : κ) (x : α) (l : List α) :
    find key k (insertWith key f x l) =
      if key x = k then some ((find key k l).elim x (fun y => f y x)) else find key k l := by
  induction l with
  | nil =>
      by_cases hk : key x = k
      · simp [insertWith, find, hk]
      · simp [insertWith, find, hk]
  | cons y l ih =>
      by_cases hyx : key y = key x
      · rw [insertWith, if_pos hyx]
        by_cases hk : key x = k
        · rw [if_pos hk, find_cons_of_eq ((keeps y x hyx).trans hk),
            find_cons_of_eq (hyx.trans hk)]
          rfl
        · rw [if_neg hk, find_cons_of_ne (fun h => hk ((keeps y x hyx).symm.trans h)),
            find_cons_of_ne (fun h => hk (hyx.symm.trans h))]
      · rw [insertWith, if_neg hyx]
        by_cases hyk : key y = k
        · have hk : key x ≠ k := fun h => hyx (hyk.trans h.symm)
          rw [if_neg hk, find_cons_of_eq hyk, find_cons_of_eq hyk]
        · rw [find_cons_of_ne hyk, find_cons_of_ne hyk, ih]

/-- The keys after an insertion: the old ones, and `x`'s at the end if it is new. -/
theorem map_key_insertWith (keeps : ∀ y x, key y = key x → key (f y x) = key x)
    (x : α) (l : List α) :
    (insertWith key f x l).map key =
      if key x ∈ l.map key then l.map key else l.map key ++ [key x] := by
  induction l with
  | nil => simp [insertWith]
  | cons y l ih =>
      by_cases hyx : key y = key x
      · simp [insertWith, hyx, keeps y x hyx]
      · rw [insertWith, if_neg hyx, List.map_cons, ih, List.map_cons]
        by_cases member : key x ∈ l.map key
        · rw [if_pos member, if_pos (List.mem_cons_of_mem _ member)]
        · rw [if_neg member, if_neg (by simp [Ne.symm hyx, member])]
          rfl

theorem nodup_insertWith (keeps : ∀ y x, key y = key x → key (f y x) = key x)
    {x : α} {l : List α} (distinct : (l.map key).Nodup) :
    ((insertWith key f x l).map key).Nodup := by
  rw [map_key_insertWith keeps]
  split
  · exact distinct
  · rename_i fresh
    exact List.nodup_append.mpr ⟨distinct, by simp, by
      intro a ha b hb
      rw [List.mem_singleton] at hb
      exact fun same => fresh (hb ▸ same ▸ ha)⟩

/-! ## Whole merges -/

/-- What a key holds after a merge: the elements of that key, folded in order onto
what the base held. -/
theorem find_mergeWith (keeps : ∀ y x, key y = key x → key (f y x) = key x)
    (k : κ) (base xs : List α) :
    find key k (mergeWith key f base xs) =
      (xs.filter (fun x => decide (key x = k))).foldl
        (fun held x => some (held.elim x (fun y => f y x))) (find key k base) := by
  induction xs generalizing base with
  | nil => rfl
  | cons x xs ih =>
      have unfolded : mergeWith key f base (x :: xs) =
          mergeWith key f (insertWith key f x base) xs := rfl
      rw [unfolded, ih, find_insertWith keeps]
      by_cases hk : key x = k
      · simp [hk]
      · simp [hk]

theorem nodup_mergeWith (keeps : ∀ y x, key y = key x → key (f y x) = key x)
    {base : List α} (xs : List α) (distinct : (base.map key).Nodup) :
    ((mergeWith key f base xs).map key).Nodup := by
  induction xs generalizing base with
  | nil => exact distinct
  | cons x xs ih => exact ih (nodup_insertWith keeps distinct)

theorem nodup_upsertAll {base : List α} (xs : List α) (distinct : (base.map key).Nodup) :
    ((upsertAll key base xs).map key).Nodup :=
  nodup_mergeWith (fun _ _ _ => rfl) xs distinct

/-- Merging a list of distinct keys combines at most once for each key. -/
theorem find_mergeWith_of_nodup (keeps : ∀ y x, key y = key x → key (f y x) = key x)
    (k : κ) {base xs : List α} (distinct : (xs.map key).Nodup) :
    find key k (mergeWith key f base xs) =
      (find key k xs).elim (find key k base)
        (fun x => some ((find key k base).elim x (fun y => f y x))) := by
  rw [find_mergeWith keeps, filter_key_of_nodup distinct]
  cases find key k xs <;> rfl

theorem mem_insertWith_newest {x y : α} {l : List α}
    (member : y ∈ insertWith key (fun _ x => x) x l) : y ∈ l ∨ y = x := by
  induction l with
  | nil => exact .inr (List.mem_singleton.mp member)
  | cons z l ih =>
      rw [insertWith] at member
      split at member
      · rcases List.mem_cons.mp member with rfl | member
        · exact .inr rfl
        · exact .inl (List.mem_cons_of_mem _ member)
      · rcases List.mem_cons.mp member with rfl | member
        · exact .inl List.mem_cons_self
        · rcases ih member with old | new
          · exact .inl (List.mem_cons_of_mem _ old)
          · exact .inr new

/-- A merge that keeps newer elements invents none. -/
theorem mem_of_mem_upsertAll {x : α} {base xs : List α} (member : x ∈ upsertAll key base xs) :
    x ∈ base ∨ x ∈ xs := by
  induction xs generalizing base with
  | nil => exact .inl member
  | cons y xs ih =>
      rcases ih member with old | new
      · rcases mem_insertWith_newest old with old | rfl
        · exact .inl old
        · exact .inr List.mem_cons_self
      · exact .inr (List.mem_cons_of_mem _ new)

theorem foldl_newest (held : Option α) (xs : List α) :
    xs.foldl (fun held x => some (held.elim x (fun _ => x))) held = xs.getLast?.or held := by
  induction xs generalizing held with
  | nil => rfl
  | cons x xs ih =>
      rw [List.foldl_cons, ih]
      cases xs with
      | nil => cases held <;> rfl
      | cons y ys => simp [List.getLast?_cons]

/-- A merge that keeps newer elements holds the last element of the key, or what the
base held. -/
theorem find_upsertAll (k : κ) (base xs : List α) :
    find key k (upsertAll key base xs) = (findLast key k xs).or (find key k base) := by
  rw [upsertAll, find_mergeWith (fun _ _ _ => rfl), foldl_newest]
  rfl

theorem findLast_append (k : κ) (xs ys : List α) :
    findLast key k (xs ++ ys) = (findLast key k ys).or (findLast key k xs) := by
  rw [findLast, List.filter_append, List.getLast?_append]
  rfl

theorem mem_of_findLast {k : κ} {x : α} {l : List α} (found : findLast key k l = some x) :
    x ∈ l ∧ key x = k := by
  simpa using List.mem_filter.mp (List.mem_of_getLast? found)

/-- With distinct keys the last element of a key is the first one. -/
theorem findLast_eq_find {k : κ} {l : List α} (distinct : (l.map key).Nodup) :
    findLast key k l = find key k l := by
  rw [findLast, filter_key_of_nodup distinct]
  cases find key k l <;> rfl

end Keyed

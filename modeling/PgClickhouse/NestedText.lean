import Mathlib.Algebra.Group.Nat.Defs
import Mathlib.Data.List.Basic
import Mathlib.Tactic.Common

/-!
# Nested lists in brackets

A reader of values and of lists of them in brackets, with commas between them, over any
reader of the values.  Nothing here names a program.

* `Reads`: the reader gives a value back from its text exactly when the value is a good one.
* `Reads.list`: a list of such texts in brackets is read so too, good when all in it are.
-/

namespace NestedText

/-- A value or a list of nested values. -/
inductive Nested (α : Type*)
  | leaf (a : α)
  | node (items : List (Nested α))

/-- The first `n` pieces of `k` elements of a list. -/
@[grind =] def chunks {α : Type*} (k : Nat) : Nat → List α → List (List α)
  | 0, _ => []
  | n + 1, elems => elems.take k :: chunks k n (elems.drop k)

/-- The nested lists with these dimensions whose elements are, in order, `elems`. -/
def nest {α : Type*} : List Nat → List α → Nested α
  | [], elem :: _ => .leaf elem
  | [], [] => .node []
  | n :: dims, elems => .node ((chunks dims.prod n elems).map (nest dims))

theorem chunks_flatten {α : Type*} (k n : Nat) {elems : List α} (enough : n * k ≤ elems.length) :
    (chunks k n elems).flatten = elems.take (n * k) := by
  induction n generalizing elems with
  | zero => simp [chunks]
  | succ n ih =>
      rw [Nat.succ_mul] at enough ⊢
      have left : n * k ≤ (elems.drop k).length := by
        rw [List.length_drop]
        omega
      rw [chunks, List.flatten_cons, ih left, Nat.add_comm, List.take_add]

theorem length_of_mem_chunks {α : Type*} {k n : Nat} {elems chunk : List α}
    (enough : n * k ≤ elems.length) (member : chunk ∈ chunks k n elems) : chunk.length = k := by
  induction n generalizing elems with
  | zero => cases member
  | succ n ih =>
      rw [Nat.succ_mul] at enough
      rcases List.mem_cons.mp member with rfl | member
      · rw [List.length_take]
        omega
      · refine ih ?_ member
        rw [List.length_drop]
        omega

@[simp] theorem length_chunks {α : Type*} (k n : Nat) (elems : List α) :
    (chunks k n elems).length = n := by
  induction n generalizing elems with
  | zero => rfl
  | succ n ih => rw [chunks, List.length_cons, ih]

theorem chunks_map {α β : Type*} (f : α → β) (k n : Nat) (elems : List α) :
    chunks k n (elems.map f) = (chunks k n elems).map (List.map f) := by
  induction n generalizing elems with
  | zero => rfl
  | succ n ih => rw [chunks, chunks, ← List.map_take, ← List.map_drop, ih, List.map_cons]

theorem chunks_take {α : Type*} (k n : Nat) (elems : List α) :
    chunks k n (elems.take (n * k)) = chunks k n elems := by
  induction n generalizing elems with
  | zero => rfl
  | succ n ih =>
      have head : (elems.take ((n + 1) * k)).take k = elems.take k := by
        rw [List.take_take, Nat.min_eq_left (Nat.le_mul_of_pos_left k (Nat.succ_pos n))]
      have tail : (elems.take ((n + 1) * k)).drop k = (elems.drop k).take (n * k) := by
        rw [List.drop_take, Nat.succ_mul, Nat.add_sub_cancel]
      rw [chunks, chunks, head, tail, ih]

/-! ## Readers -/

section

variable {β γ : Type*} (item : List UInt8 → Option (β × List UInt8))

/-- Values with commas between them, up to a closing bracket. -/
@[grind =] def readItems : Nat → List UInt8 → Option (List β × List UInt8)
  | 0, _ => none
  | fuel + 1, text =>
      (item text).bind fun (value, rest) =>
        match rest with
        | [] => none
        | c :: rest =>
            if c = 44 then (readItems fuel rest).map fun (values, rest) => (value :: values, rest)
            else if c = 93 then some ([value], rest)
            else none

/-- A value or a list, nested at most as deep as the first argument says. -/
def readValue : Nat → List UInt8 → Option (Nested β × List UInt8)
  | 0, _ => none
  | _ + 1, [] => none
  | fuel + 1, c :: text =>
      if c = 91 then
        if text.head? = some 93 then some (.node [], text.tail)
        else (readItems (readValue fuel) fuel text).map fun (items, rest) => (.node items, rest)
      else (item (c :: text)).map fun (value, rest) => (.leaf value, rest)

/-- Read the whole of a text. -/
def readAll (text : List UInt8) : Option (Nested β) :=
  match readValue item (text.length + 1) text with
  | some (value, []) => some value
  | _ => none

end

/-- Texts with commas between them. -/
@[grind =] def separated : List (List UInt8) → List UInt8
  | [] => []
  | [text] => text
  | text :: next :: texts => text ++ 44 :: separated (next :: texts)

theorem length_le_of_mem_separated {texts : List (List UInt8)} {text : List UInt8}
    (member : text ∈ texts) : text.length ≤ (separated texts).length := by
  fun_induction separated texts with
  | case1 => cases member
  | case2 => exact (List.mem_singleton.mp member) ▸ Nat.le_refl _
  | case3 first next texts ih =>
      rw [List.length_append, List.length_cons]
      rcases List.mem_cons.mp member with rfl | member
      · omega
      · have := ih member
        omega

theorem length_le_separated (texts : List (List UInt8)) :
    texts.length ≤ (separated texts).length + 1 := by
  fun_induction separated texts with
  | case1 => exact Nat.zero_le _
  | case2 text => exact Nat.succ_le_succ (Nat.zero_le _)
  | case3 first next texts ih =>
      simp only [List.length_append, List.length_cons] at ih ⊢
      omega

/-- A value ends here. -/
def Ends (rest : List UInt8) : Prop := ∀ c ∈ rest.head?, c = 44 ∨ c = 93

/-- From the text before anything that ends a value the reader gives `value` and nothing but
the text is read, exactly when the value is good. -/
structure Reads {β : Type*} (item : List UInt8 → Option (β × List UInt8)) (text : List UInt8)
    (value : β) (good : Prop) : Prop where
  starts : ∃ c tail, text = c :: tail ∧ c ≠ 93
  of_good : good → ∀ rest, Ends rest → item (text ++ rest) = some (value, rest)
  good_of : ∀ rest rest', Ends rest → item (text ++ rest) = some (value, rest') → good

theorem ends_nil : Ends [] := nofun

theorem ends_comma (rest : List UInt8) : Ends (44 :: rest) := by
  rintro c same
  cases same
  exact .inl rfl

theorem ends_close (rest : List UInt8) : Ends (93 :: rest) := by
  rintro c same
  cases same
  exact .inr rfl

section

variable {α β : Type*} {item : List UInt8 → Option (β × List UInt8)}
  {text : α → List UInt8} {value : α → β} {good : α → Prop}

theorem readItems_of_good {xs : List α} {fuel : Nat} (ne : xs ≠ []) (enough : xs.length ≤ fuel)
    (reads : ∀ x ∈ xs, Reads item (text x) (value x) (good x)) (all : ∀ x ∈ xs, good x)
    (rest : List UInt8) :
    readItems item fuel (separated (xs.map text) ++ 93 :: rest) = some (xs.map value, rest) := by
  induction xs generalizing fuel with
  | nil => exact absurd rfl ne
  | cons x xs ih =>
      rcases fuel with _ | fuel
      · exact absurd enough (Nat.not_succ_le_zero _)
      have first := (reads x List.mem_cons_self).of_good (all x List.mem_cons_self)
      rcases xs with _ | ⟨y, xs⟩
      · change readItems item (fuel + 1) (text x ++ 93 :: rest) = _
        rw [readItems, first _ (ends_close rest)]
        rfl
      · have later := @ih fuel (List.cons_ne_nil _ _) (Nat.le_of_succ_le_succ enough)
          (fun z member => reads z (List.mem_cons_of_mem x member))
          (fun z member => all z (List.mem_cons_of_mem x member))
        have split : separated ((x :: y :: xs).map text) ++ 93 :: rest =
            text x ++ 44 :: (separated ((y :: xs).map text) ++ 93 :: rest) := by
          simp [separated]
        rw [split, readItems, first _ (ends_comma _), Option.bind_some]
        simp only [if_true]
        rw [later]
        rfl

theorem good_of_readItems {xs : List α} {fuel : Nat}
    (reads : ∀ x ∈ xs, Reads item (text x) (value x) (good x)) {rest rest' : List UInt8}
    (read : readItems item fuel (separated (xs.map text) ++ 93 :: rest) =
      some (xs.map value, rest')) : ∀ x ∈ xs, good x := by
  induction xs generalizing fuel with
  | nil => nofun
  | cons x xs ih =>
      rcases fuel with _ | fuel
      · cases read
      have entry := reads x List.mem_cons_self
      rw [readItems] at read
      obtain ⟨⟨v, left⟩, first, behind⟩ := Option.bind_eq_some_iff.mp read
      have same : v = value x := by
        rcases left with _ | ⟨c, left⟩
        · cases behind
        · simp only at behind
          split at behind
          · obtain ⟨more, -, equal⟩ := Option.map_eq_some_iff.mp behind
            exact (List.cons.inj (Prod.mk.inj equal).1).1
          · split at behind
            · exact (List.cons.inj (Prod.mk.inj (Option.some.inj behind)).1).1
            · cases behind
      subst same
      rcases xs with _ | ⟨y, xs⟩
      · rw [List.forall_mem_singleton]
        exact entry.good_of _ _ (ends_close rest) first
      · have split : separated ((x :: y :: xs).map text) ++ 93 :: rest =
            text x ++ 44 :: (separated ((y :: xs).map text) ++ 93 :: rest) := by
          simp [separated]
        rw [split] at first
        have head := entry.good_of _ _ (ends_comma _) first
        rw [entry.of_good head _ (ends_comma _)] at first
        cases first
        simp only [if_true] at behind
        obtain ⟨⟨more, left⟩, later, equal⟩ := Option.map_eq_some_iff.mp behind
        obtain ⟨rfl, rfl⟩ : more = (y :: xs).map value ∧ left = rest' := by
          simpa using equal
        rw [List.forall_mem_cons]
        exact ⟨head, ih (fun z member => reads z (List.mem_cons_of_mem x member)) later⟩

/-- A list of texts in brackets. -/
theorem Reads.list {xs : List α} {fuel : Nat} {value : α → Nested β}
    (reads : ∀ x ∈ xs, Reads (readValue item fuel) (text x) (value x) (good x))
    (enough : xs.length ≤ fuel) :
    Reads (readValue item (fuel + 1)) (91 :: (separated (xs.map text) ++ [93]))
      (.node (xs.map value)) (∀ x ∈ xs, good x) := by
  rcases xs with _ | ⟨x, xs⟩
  · exact ⟨⟨91, [93], rfl, by decide⟩, fun _ rest _ => rfl, fun _ _ _ _ => nofun⟩
  have opened : ∀ rest, readValue item (fuel + 1)
      (91 :: (separated ((x :: xs).map text) ++ [93]) ++ rest) =
        (readItems (readValue item fuel) fuel
          (separated ((x :: xs).map text) ++ 93 :: rest)).map
            fun (items, rest) => (.node items, rest) := by
    intro rest
    obtain ⟨c, tail, starts, unclosed⟩ := (reads x List.mem_cons_self).starts
    have head : (separated ((x :: xs).map text) ++ 93 :: rest).head? ≠ some 93 := by
      rcases xs with _ | ⟨y, xs⟩ <;> simp [separated, starts, unclosed]
    have split : 91 :: (separated ((x :: xs).map text) ++ [93]) ++ rest =
        91 :: (separated ((x :: xs).map text) ++ 93 :: rest) := by simp
    rw [split, readValue, if_pos rfl, if_neg head]
  refine ⟨⟨91, _, rfl, by decide⟩, fun all rest _ => ?_, fun rest rest' _ read => ?_⟩
  · rw [opened, readItems_of_good (List.cons_ne_nil _ _) enough reads all]
    rfl
  · rw [opened] at read
    obtain ⟨⟨items, left⟩, read, equal⟩ := Option.map_eq_some_iff.mp read
    cases equal
    exact good_of_readItems reads read

/-- A text that is not in brackets. -/
theorem Reads.leaf {value : β} {good : Prop} {text : List UInt8} {fuel : Nat}
    (reads : Reads item text value good) (unopened : text.head? ≠ some 91) :
    Reads (readValue item (fuel + 1)) text (.leaf value) good := by
  obtain ⟨c, tail, starts, unclosed⟩ := reads.starts
  have bare : ∀ rest, readValue item (fuel + 1) (text ++ rest) =
      (item (text ++ rest)).map fun (value, rest) => (.leaf value, rest) := by
    intro rest
    rw [starts] at unopened ⊢
    rw [List.cons_append, readValue, if_neg fun same => unopened (congrArg some same)]
  refine ⟨⟨c, tail, starts, unclosed⟩, fun all rest ends => ?_, fun rest rest' ends read => ?_⟩
  · rw [bare, reads.of_good all rest ends]
    rfl
  · rw [bare] at read
    obtain ⟨⟨v, left⟩, read, equal⟩ := Option.map_eq_some_iff.mp read
    cases equal
    exact reads.good_of rest _ ends read

theorem Reads.congr {good' : Prop} {text : List UInt8} {value : β} {good : Prop}
    (reads : Reads item text value good) (same : good ↔ good') : Reads item text value good' :=
  ⟨reads.starts, fun all => reads.of_good (same.mpr all),
    fun rest rest' ends read => same.mp (reads.good_of rest rest' ends read)⟩

/-- The whole of a text. -/
theorem Reads.readAll_iff {value : Nested β} {good : Prop} {text : List UInt8}
    (reads : Reads (readValue item (text.length + 1)) text value good) :
    readAll item text = some value ↔ good := by
  constructor
  · intro read
    unfold readAll at read
    split at read
    · rename_i v whole
      cases read
      refine reads.good_of [] [] ends_nil ?_
      rw [List.append_nil]
      exact whole
    · cases read
  · intro all
    have whole := reads.of_good all [] ends_nil
    rw [List.append_nil] at whole
    rw [readAll, whole]

end

end NestedText

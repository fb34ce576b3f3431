import Mathlib.Data.List.Nodup

/-!
# Singly linked lists in a memory

The cells of a linked list are at addresses, and `next` reads the link of a cell: the null
pointer is `none`, and a cell that is not there cannot be read.  Nothing here names a
program.

* `Chain.unique`: the cells of a list are determined by where it starts.
* `Chain.congr`: a list depends on the links of its own cells only.
-/

namespace Chains

variable {α : Type*}

/-- From `p` the links lead through the cells of the list to the null pointer. -/
inductive Chain (next : α → Option (Option α)) : Option α → List α → Prop
  | nil : Chain next none []
  | cons {a : α} {p : Option α} {cells : List α} :
    next a = some p → Chain next p cells → Chain next (some a) (a :: cells)

variable {next next' : α → Option (Option α)} {p : Option α} {cells cells' : List α}

theorem Chain.unique (first : Chain next p cells) (second : Chain next p cells') :
    cells = cells' := by
  induction first generalizing cells' with
  | nil =>
      cases second
      rfl
  | cons link _ ih =>
      cases second with
      | cons link' rest' =>
          rw [link, Option.some.injEq] at link'
          subst link'
          rw [ih rest']

theorem Chain.congr (chain : Chain next p cells)
    (same : ∀ a ∈ cells, next' a = next a) : Chain next' p cells := by
  induction chain with
  | nil => exact .nil
  | @cons a _ _ link _ ih =>
      refine .cons ?_ (ih fun b member => same b (List.mem_cons_of_mem a member))
      rw [same a List.mem_cons_self, link]

/-- Every cell of a list is there. -/
theorem Chain.readable (chain : Chain next p cells) {a : α} (member : a ∈ cells) :
    ∃ q, next a = some q := by
  induction chain with
  | nil => cases member
  | cons link _ ih =>
      rcases List.mem_cons.mp member with rfl | later
      · exact ⟨_, link⟩
      · exact ih later

theorem Chain.start (chain : Chain next p cells) : p = cells.head? := by
  cases chain <;> rfl

end Chains

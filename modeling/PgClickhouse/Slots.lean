import PgClickhouse.Keyed
import Mathlib.Data.List.Perm.Basic

/-!
# Tables with entries that are entered before they are written

A hash table finds the entry of a key or makes one, whose contents are unknown until it is
written.  Written entries may own memory, which is live until it is freed.  Nothing here names a
program.

* `enter`, `write`, `remove`: what is done to a table, and `read`, what it holds for a key.
* `owners`: the addresses the written entries own.
* `free_owned`: memory an entry owns can be freed, and what is left is owned by the others.
-/

namespace Slots

variable {κ ε ν : Type*} [DecidableEq κ]

/-- An entry of a table, `none` before it is written. -/
abbrev Slot (κ ε : Type*) := κ × Option ε

/-- The slot of a key. -/
def find (key : κ) (slots : List (Slot κ ε)) : Option (Slot κ ε) := Keyed.find Prod.fst key slots

/-- Make an entry, unless there is one. -/
def enter (key : κ) (slots : List (Slot κ ε)) : List (Slot κ ε) :=
  if (find key slots).isSome then slots else slots ++ [(key, none)]

def remove (key : κ) (slots : List (Slot κ ε)) : List (Slot κ ε) :=
  slots.filter fun slot => slot.1 ≠ key

/-- Write the entry of a key. -/
def write (key : κ) (entry : ε) (slots : List (Slot κ ε)) : List (Slot κ ε) :=
  slots.map fun slot => if slot.1 = key then (key, some entry) else slot

/-- What a table holds for a key. -/
def read (f : ε → ν) (slots : List (Slot κ ε)) (key : κ) : Option ν :=
  (find key slots).bind fun slot => slot.2.map f

/-- The addresses that written entries own. -/
def owners (own : ε → Option ℕ) (slots : List (Slot κ ε)) : List ℕ :=
  slots.filterMap fun slot => slot.2.bind own

/-- Free an address; there is no result if it is not live. -/
def free (a : ℕ) (live : List ℕ) : Option (List ℕ) :=
  if a ∈ live then some (live.erase a) else none

/-- An allocator: an address that is not in use. -/
abbrev Alloc := ∀ live : List ℕ, { a : ℕ // a ∉ live }

/-- Addresses are numbered. -/
def numbered : Alloc := fun live =>
  ⟨live.foldr (fun a next => max (a + 1) next) 0, by
    have below (a : ℕ) (member : a ∈ live) :
        a < live.foldr (fun a next => max (a + 1) next) 0 := by
      induction live with
      | nil => cases member
      | cons first live ih =>
          rw [List.foldr_cons]
          rcases List.mem_cons.mp member with rfl | later
          · omega
          · have := ih later
            omega
    exact fun member => Nat.lt_irrefl _ (below _ member)⟩

variable {key : κ} {slots : List (Slot κ ε)} {slot : Slot κ ε} {entry : ε} {f : ε → ν}
  {own : ε → Option ℕ} {live rest : List ℕ} {a : ℕ}

theorem free_owned (owned : (a :: rest).Perm live) :
    ∃ left, free a live = some left ∧ rest.Perm left := by
  have there : a ∈ live := owned.subset List.mem_cons_self
  refine ⟨live.erase a, if_pos there, ?_⟩
  have erased := owned.erase a
  rwa [List.erase_cons_head] at erased

theorem free_new (a : ℕ) (live : List ℕ) : free a (a :: live) = some live := by
  rw [free, if_pos List.mem_cons_self, List.erase_cons_head]

/-! ## Keys -/

theorem key_of_find (found : find key slots = some slot) : slot.1 = key :=
  Keyed.key_of_find found

theorem mem_of_find (found : find key slots = some slot) : slot ∈ slots :=
  Keyed.mem_of_find found

theorem find_filter {p : Slot κ ε → Bool} (distinct : (slots.map Prod.fst).Nodup) :
    find key (slots.filter p) = (find key slots).filter p :=
  Keyed.find_filter distinct

theorem enter_found (found : find key slots = some slot) : enter key slots = slots :=
  if_pos (Option.isSome_iff_exists.mpr ⟨slot, found⟩)

theorem enter_absent (absent : find key slots = none) :
    enter key slots = slots ++ [(key, none)] :=
  if_neg (by simp [absent])

variable (key) in
theorem keys_enter (distinct : (slots.map Prod.fst).Nodup) :
    ((enter key slots).map Prod.fst).Nodup := by
  cases found : find key slots with
  | some slot => rwa [enter_found found]
  | none =>
      rw [enter_absent found, List.map_append, List.nodup_append]
      have absent : ∀ slot ∈ slots, slot.1 ≠ key := Keyed.find_eq_none.mp found
      refine ⟨distinct, List.nodup_singleton _, ?_⟩
      intro k member k' singleton same
      obtain ⟨slot, there, rfl⟩ := List.mem_map.mp member
      exact absent slot there (same.trans (List.mem_singleton.mp singleton))

theorem keys_write : (write key entry slots).map Prod.fst = slots.map Prod.fst := by
  rw [write, List.map_map]
  apply List.map_congr_left
  intro slot _
  rw [Function.comp_apply]
  split
  · rename_i same
    exact same.symm
  · rfl

variable (key slots) in
/-- A key is there once it is entered. -/
theorem find_enter (k : κ) :
    find k (enter key slots) =
      if k = key then some ((find key slots).getD (key, none)) else find k slots := by
  cases found : find key slots with
  | some slot =>
      rw [enter_found found]
      split
      · rename_i same
        rw [same, found]
        rfl
      · rfl
  | none =>
      have entered (k : κ) : find k (slots ++ [(key, none)]) =
          (find k slots).or (find k [(key, none)]) := List.find?_append
      rw [enter_absent found, entered]
      split
      · rename_i same
        have here : find key [(key, (none : Option ε))] = some (key, none) :=
          Keyed.find_cons_of_eq rfl
        rw [same, found, here]
        rfl
      · rename_i differ
        have elsewhere : find k [(key, (none : Option ε))] = none :=
          Keyed.find_cons_of_ne (Ne.symm differ)
        rw [elsewhere, Option.or_none]

/-- Entering a key and removing it leaves the others. -/
theorem remove_enter (absent : find key slots = none) : remove key (enter key slots) = slots := by
  have others : ∀ slot ∈ slots, slot.1 ≠ key := Keyed.find_eq_none.mp absent
  rw [enter_absent absent, remove, List.filter_append,
    List.filter_eq_self.mpr fun slot member => decide_eq_true (others slot member)]
  simp

/-- The entry of a key, and the others. -/
theorem perm_remove (distinct : (slots.map Prod.fst).Nodup) (found : find key slots = some slot) :
    slots.Perm (slot :: remove key slots) := by
  have only : slots.filter (fun slot => decide (slot.1 = key)) = (find key slots).toList :=
    Keyed.filter_key_of_nodup distinct
  rw [found, Option.toList_some] at only
  have parts := (List.filter_append_perm (fun slot : Slot κ ε => decide (slot.1 = key)) slots).symm
  rw [only] at parts
  refine parts.trans (List.Perm.of_eq ?_)
  rw [List.singleton_append, remove]
  simp

variable (entry) in
theorem perm_write (distinct : (slots.map Prod.fst).Nodup) (found : find key slots = some slot) :
    (write key entry slots).Perm ((key, some entry) :: remove key slots) := by
  have mapped := (perm_remove distinct found).map
    fun slot : Slot κ ε => if slot.1 = key then (key, some entry) else slot
  rw [List.map_cons, if_pos (key_of_find found)] at mapped
  refine mapped.trans (List.Perm.of_eq ?_)
  congr 1
  have others : ∀ slot ∈ remove key slots,
      (if slot.1 = key then (key, some entry) else slot) = slot := by
    intro slot member
    exact if_neg (of_decide_eq_true (List.mem_filter.mp member).2)
  rw [List.map_congr_left others, List.map_id']

/-- The last contents written to an entry stay. -/
theorem write_write (entry entry' : ε) :
    write key entry' (write key entry slots) = write key entry' slots := by
  rw [write, write, write, List.map_map]
  apply List.map_congr_left
  intro slot _
  rw [Function.comp_apply]
  split
  · exact if_pos rfl
  · rfl

theorem find_write (found : find key slots = some slot) :
    find key (write key entry slots) = some (key, some entry) := by
  have keeps (slot : Slot κ ε) : (if slot.1 = key then (key, some entry) else slot).1 = slot.1 := by
    split
    · rename_i same
      exact same.symm
    · rfl
  have mapped : find key (write key entry slots) = (find key slots).map _ :=
    Keyed.find_map keeps key slots
  rw [mapped, found, Option.map_some, if_pos (key_of_find found)]

/-- Writing an entry leaves the others. -/
theorem find_write_of_ne {k : κ} (differ : k ≠ key) :
    find k (write key entry slots) = find k slots := by
  have keeps (slot : Slot κ ε) : (if slot.1 = key then (key, some entry) else slot).1 = slot.1 := by
    split
    · rename_i same
      exact same.symm
    · rfl
  have mapped : find k (write key entry slots) = (find k slots).map _ :=
    Keyed.find_map keeps k slots
  rw [mapped]
  cases found : find k slots with
  | none => rfl
  | some slot =>
      have other : slot.1 ≠ key := (key_of_find found).symm ▸ differ
      rw [Option.map_some, if_neg other]

/-- Removing an entry leaves the others. -/
theorem find_remove_of_ne {k : κ} (differ : k ≠ key) :
    find k (remove key slots) = find k slots := by
  change List.find? _ (List.filter _ slots) = List.find? _ slots
  rw [List.find?_filter]
  congr 1
  funext slot
  rw [decide_eq_decide, decide_eq_true_iff, decide_eq_true_iff, and_iff_right_iff_imp]
  intro here
  rw [here]
  exact differ

variable (key) in
theorem written_enter (written : ∀ slot ∈ slots, slot.2.isSome) :
    ∀ slot ∈ enter key slots, slot.1 ≠ key → slot.2.isSome := by
  intro slot member differ
  unfold enter at member
  split at member
  · exact written slot member
  · rcases List.mem_append.mp member with old | new
    · exact written slot old
    · rw [List.mem_singleton.mp new] at differ
      exact absurd rfl differ

/-! ## What is held -/

/-- An entry that is not written yet holds nothing. -/
theorem read_enter : read f (enter key slots) = read f slots := by
  funext k
  rw [read, find_enter]
  split
  · rename_i same
    rw [same, read]
    cases find key slots with
    | some slot => rfl
    | none => rfl
  · rfl

theorem read_remove (distinct : (slots.map Prod.fst).Nodup) :
    read f (remove key slots) = Function.update (read f slots) key none := by
  funext k
  rw [read, remove, find_filter distinct, Function.update_apply]
  split
  · rename_i same
    rw [same]
    cases found : find key slots with
    | none => rfl
    | some slot =>
        rw [Option.filter_some_neg (by simp [key_of_find found])]
        rfl
  · rename_i differ
    rw [read]
    cases found : find k slots with
    | none => rfl
    | some slot =>
        rw [Option.filter_some_pos (by simpa [key_of_find found] using differ)]

theorem read_write (found : find key slots = some slot) :
    read f (write key entry slots) = Function.update (read f slots) key (some (f entry)) := by
  funext k
  have keeps (slot : Slot κ ε) : (if slot.1 = key then (key, some entry) else slot).1 = slot.1 := by
    split
    · rename_i same
      exact same.symm
    · rfl
  have mapped : find k (write key entry slots) = (find k slots).map _ :=
    Keyed.find_map keeps k slots
  rw [read, mapped, Function.update_apply]
  split
  · rename_i same
    rw [same, found, Option.map_some, if_pos (key_of_find found)]
    rfl
  · rename_i differ
    rw [read]
    cases other : find k slots with
    | none => rfl
    | some slot =>
        rw [Option.map_some, if_neg (by rw [key_of_find other]; exact differ)]

/-! ## What is owned -/

omit [DecidableEq κ] in
variable (own) in
theorem owners_perm {slots' : List (Slot κ ε)} (perm : slots.Perm slots') :
    (owners own slots).Perm (owners own slots') :=
  perm.filterMap _

/-- An entry that is not written yet owns nothing. -/
theorem owners_enter : owners own (enter key slots) = owners own slots := by
  cases found : find key slots with
  | some slot => rw [enter_found found]
  | none =>
      rw [enter_absent found, owners, List.filterMap_append]
      exact List.append_nil _

omit [DecidableEq κ] in
theorem owners_append (slots slots' : List (Slot κ ε)) :
    owners own (slots ++ slots') = owners own slots ++ owners own slots' :=
  List.filterMap_append

omit [DecidableEq κ] in
theorem owners_cons_perm (slot : Slot κ ε) :
    (owners own slots ++ (owners own [slot] ++ rest)).Perm
        (owners own (slot :: slots) ++ rest) := by
  rw [← List.append_assoc]
  change (owners own slots ++ owners own [slot] ++ rest).Perm (owners own ([slot] ++ slots) ++ rest)
  rw [owners_append]
  exact List.perm_append_comm.append_right rest

end Slots

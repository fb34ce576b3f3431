import Mathlib.Data.List.Basic
import PgClickhouse.Basic

/-!
# Pairs packed in one block

`kv_list.c` packs the names and values of settings one behind the other, each with its
terminator, in a block whose size is computed beforehand.  An iterator walks over the block
by the lengths of the strings alone.  Writing and reading outside the block is not defined
here, so a result is one that stayed within it.
-/

namespace PgClickhouse.KvList

/-- The bytes of a string, without its terminator. -/
abbrev CString := { s : Bytes // 0 ∉ s }

/-! ## Packing -/

/-- `data` is the memory that is allocated behind the length. -/
structure packed_list where
  length : Nat
  data : Bytes
  deriving Repr, DecidableEq

/-- The first loop. -/
def kv_size (list : List (CString × CString)) : Nat :=
  list.foldl (fun size elem => size + (2 + elem.1.val.length + elem.2.val.length)) 0

/-- `memcpy` to an offset of a block. -/
def memcpy (data : Bytes) (offset : Nat) (bytes : Bytes) : Option Bytes :=
  if offset + bytes.length ≤ data.length then
    some (data.take offset ++ bytes ++ data.drop (offset + bytes.length))
  else none

/-- One turn of the second loop: the name and the value with their terminators. -/
def write_pair (state : Bytes × Nat) (elem : CString × CString) : Option (Bytes × Nat) := do
  let (data, ck_size) := state
  let data ← memcpy data ck_size (elem.1.val ++ [0])
  let ck_size := ck_size + (elem.1.val.length + 1)
  let data ← memcpy data ck_size (elem.2.val ++ [0])
  pure (data, ck_size + (elem.2.val.length + 1))

/-- `memory` is what the allocated bytes hold before.  With the list comes `ck_size`. -/
def new_kv_list_from_pg_list (memory : Nat → UInt8) (list : List (CString × CString)) :
    Option (packed_list × Nat) := do
  let data := (List.range (kv_size list)).map memory
  let (data, ck_size) ← list.foldlM write_pair (data, 0)
  pure (⟨list.length, data⟩, ck_size)

/-! ## Iterating -/

/-- The pointers are offsets of the data; `none` is the null pointer. -/
structure kv_iter where
  togo : Nat
  next : Option Nat
  name : Option Nat
  value : Option Nat
  deriving Repr, DecidableEq

/-- The list may be the null pointer. -/
def new_kv_iter : Option packed_list → kv_iter
  | none => ⟨0, none, none, none⟩
  | some ns => ⟨ns.length, some 0, none, none⟩

/-- `strlen` of what begins at an offset, if there is a terminator in the block. -/
def strlen (data : Bytes) (offset : Nat) : Option Nat := (data.drop offset).idxOf? 0

def kv_iter_next (data : Bytes) (iter : kv_iter) : Option (Bool × kv_iter) :=
  if iter.togo = 0 then some (false, iter)
  else do
    let name ← iter.next
    let value := name + (← strlen data name) + 1
    let next := value + (← strlen data value) + 1
    pure (true, ⟨iter.togo - 1, some next, some name, some value⟩)

/-- The string a pointer points to. -/
def string (data : Bytes) (pointer : Option Nat) : Option Bytes := do
  let offset ← pointer
  pure ((data.drop offset).take (← strlen data offset))

/-- The loop of a caller: the pairs, and the iterator when it stops.  `rounds` bounds the
loop and counts how often the iterator is asked. -/
def iterate (data : Bytes) : (rounds : Nat) → kv_iter → Option (kv_list × kv_iter)
  | 0, _ => none
  | rounds + 1, iter => do
      match ← kv_iter_next data iter with
      | (false, stopped) => pure ([], stopped)
      | (true, iter) =>
          let name ← string data iter.name
          let value ← string data iter.value
          let (pairs, stopped) ← iterate data rounds iter
          pure ((name, value) :: pairs, stopped)

/-! ## The layout -/

/-- A pair in the block. -/
def packed (elem : CString × CString) : Bytes := elem.1.val ++ 0 :: (elem.2.val ++ [0])

theorem kv_size_eq (list : List (CString × CString)) :
    kv_size list = (list.flatMap packed).length := by
  have sized (start : Nat) : list.foldl
      (fun size elem => size + (2 + elem.1.val.length + elem.2.val.length)) start =
        start + (list.flatMap packed).length := by
    induction list generalizing start with
    | nil => rfl
    | cons elem list ih =>
        rw [List.foldl_cons, ih, List.flatMap_cons, List.length_append, packed]
        simp only [List.length_append, List.length_cons, List.length_nil]
        omega
  rw [kv_size, sized, Nat.zero_add]

theorem memcpy_behind (front bytes rest : Bytes) (old : Bytes) (same : old.length = bytes.length) :
    memcpy (front ++ (old ++ rest)) front.length bytes = some (front ++ bytes ++ rest) := by
  have room : front.length + bytes.length ≤ (front ++ (old ++ rest)).length := by
    simp only [List.length_append]
    omega
  rw [memcpy, if_pos room, List.take_left, ← same, ← List.length_append, ← List.append_assoc,
    List.drop_left]

/-- One pair is written over as many bytes behind what is there. -/
theorem write_pair_behind (front old rest : Bytes) (elem : CString × CString)
    (same : old.length = (packed elem).length) :
    write_pair (front ++ (old ++ rest), front.length) elem =
      some (front ++ packed elem ++ rest, (front ++ packed elem).length) := by
  obtain ⟨name, value⟩ := elem
  have long : old.length = name.val.length + 1 + (value.val.length + 1) := by
    rw [same, packed]
    simp only [List.length_append, List.length_cons, List.length_nil]
    omega
  obtain ⟨first, second, rfl, firstLong, secondLong⟩ :
      ∃ first second, old = first ++ second ∧ first.length = (name.val ++ [0]).length ∧
        second.length = (value.val ++ [0]).length := by
    refine ⟨old.take (name.val.length + 1), old.drop (name.val.length + 1),
      (List.take_append_drop _ _).symm, ?_, ?_⟩
    · rw [List.length_take, List.length_append, List.length_singleton]
      omega
    · rw [List.length_drop, List.length_append, List.length_singleton]
      omega
  have nameWritten := memcpy_behind front (name.val ++ [0]) (second ++ rest) first firstLong
  have valueWritten := memcpy_behind (front ++ (name.val ++ [0])) (value.val ++ [0]) rest second
    secondLong
  have offset : (front ++ (name.val ++ [0])).length = front.length + (name.val.length + 1) := by
    simp only [List.length_append, List.length_singleton]
  rw [offset, List.append_assoc] at valueWritten
  unfold write_pair
  simp only [Option.bind_eq_bind]
  rw [List.append_assoc first, nameWritten]
  simp only [Option.bind_some]
  rw [List.append_assoc front, valueWritten]
  simp [packed, Nat.add_assoc]
  omega

/-- The second loop writes over the block from the front. -/
theorem foldlM_write_pair (list : List (CString × CString)) (front old : Bytes)
    (same : old.length = (list.flatMap packed).length) :
    list.foldlM write_pair (front ++ old, front.length) =
      some (front ++ list.flatMap packed, (front ++ list.flatMap packed).length) := by
  induction list generalizing front old with
  | nil =>
      have empty : old = [] := List.eq_nil_of_length_eq_zero same
      rw [empty, List.flatMap_nil, List.append_nil]
      rfl
  | cons elem list ih =>
      rw [List.flatMap_cons, List.length_append] at same
      obtain ⟨mine, later, rfl, mineLong, laterLong⟩ :
          ∃ mine later, old = mine ++ later ∧ mine.length = (packed elem).length ∧
            later.length = (list.flatMap packed).length := by
        refine ⟨old.take (packed elem).length, old.drop (packed elem).length,
          (List.take_append_drop _ _).symm, ?_, ?_⟩
        · rw [List.length_take]
          omega
        · rw [List.length_drop]
          omega
      rw [List.foldlM_cons, write_pair_behind front mine later elem mineLong]
      have rest := ih (front ++ packed elem) later laterLong
      simp only [Option.bind_eq_bind, Option.bind_some]
      rw [rest, List.flatMap_cons, List.append_assoc]

/-! ## Walking over the block -/

/-- A string is as long as it is written. -/
theorem strlen_at (front rest : Bytes) (s : CString) :
    strlen (front ++ (s.val ++ 0 :: rest)) front.length = some s.val.length := by
  obtain ⟨bytes, nonzero⟩ := s
  unfold strlen
  rw [List.drop_left]
  induction bytes with
  | nil => rfl
  | cons b bytes ih =>
      rw [List.mem_cons, not_or] at nonzero
      have other : (b == 0) = false := beq_false_of_ne (Ne.symm nonzero.1)
      rw [List.cons_append, List.idxOf?_cons, other, ih nonzero.2]
      rfl

theorem string_at (front rest : Bytes) (s : CString) :
    string (front ++ (s.val ++ 0 :: rest)) (some front.length) = some s.val := by
  unfold string
  simp only [Option.bind_eq_bind, Option.bind_some]
  rw [strlen_at, Option.bind_some, List.drop_left, List.take_left]
  rfl

/-- The iterator stands in front of a pair. -/
theorem kv_iter_next_at (front rest : Bytes) (elem : CString × CString) (togo : Nat)
    (before value : Option Nat) :
    ∃ after, kv_iter_next (front ++ (packed elem ++ rest))
        ⟨togo + 1, some front.length, before, value⟩ = some (true, after) ∧
      after.togo = togo ∧ after.next = some (front ++ packed elem).length ∧
      string (front ++ (packed elem ++ rest)) after.name = some elem.1.val ∧
      string (front ++ (packed elem ++ rest)) after.value = some elem.2.val := by
  obtain ⟨name, valueText⟩ := elem
  have asName : front ++ (packed (name, valueText) ++ rest) =
      front ++ (name.val ++ 0 :: (valueText.val ++ 0 :: rest)) := by simp [packed]
  have asValue : front ++ (packed (name, valueText) ++ rest) =
      (front ++ (name.val ++ [0])) ++ (valueText.val ++ 0 :: rest) := by simp [packed]
  have offset : (front ++ (name.val ++ [0])).length = front.length + name.val.length + 1 := by
    simp only [List.length_append, List.length_singleton]
    omega
  have nameLong := strlen_at front (valueText.val ++ 0 :: rest) name
  have valueLong := strlen_at (front ++ (name.val ++ [0])) rest valueText
  rw [← asName] at nameLong
  rw [← asValue, offset] at valueLong
  refine ⟨⟨togo, some (front.length + name.val.length + 1 + valueText.val.length + 1),
    some front.length, some (front.length + name.val.length + 1)⟩, ?_, rfl, ?_, ?_, ?_⟩
  · unfold kv_iter_next
    rw [if_neg (Nat.succ_ne_zero togo)]
    simp only [Option.bind_eq_bind, Option.bind_some, nameLong, valueLong]
    rfl
  · have behind : front.length + name.val.length + 1 + valueText.val.length + 1 =
        (front ++ packed (name, valueText)).length := by
      simp only [packed, List.length_append, List.length_cons, List.length_nil]
      omega
    rw [behind]
  · rw [asName]
    exact string_at front _ name
  · rw [asValue, ← offset]
    exact string_at (front ++ (name.val ++ [0])) rest valueText

/-- The loop of a caller returns the pairs that are left, and the iterator stops behind
the last. -/
theorem iterate_at (list : List (CString × CString)) (front : Bytes) (iter : kv_iter)
    (togo : iter.togo = list.length) (next : list ≠ [] → iter.next = some front.length)
    (rounds : Nat) (enough : list.length < rounds) :
    ∃ stopped, iterate (front ++ list.flatMap packed) rounds iter =
        some (list.map fun elem => (elem.1.val, elem.2.val), stopped) ∧ stopped.togo = 0 := by
  induction list generalizing front iter rounds with
  | nil =>
      obtain ⟨rounds, rfl⟩ := Nat.exists_eq_succ_of_ne_zero (Nat.ne_of_gt enough)
      have asked : kv_iter_next (front ++ ([] : List (CString × CString)).flatMap packed) iter =
          some (false, iter) := if_pos togo
      refine ⟨iter, ?_, togo⟩
      rw [iterate, asked]
      rfl
  | cons elem list ih =>
      obtain ⟨rounds, rfl⟩ := Nat.exists_eq_succ_of_ne_zero (Nat.ne_of_gt (by omega : rounds > 0))
      obtain ⟨_, _, before, value⟩ := iter
      obtain rfl : _ = list.length + 1 := togo
      obtain rfl : _ = some front.length := next (List.cons_ne_nil elem list)
      obtain ⟨after, asked, fewer, further, named, valued⟩ :=
        kv_iter_next_at front (list.flatMap packed) elem list.length before value
      obtain ⟨stopped, rest, ended⟩ := ih (front ++ packed elem) after fewer (fun _ => further)
        rounds (Nat.lt_of_succ_lt_succ enough)
      refine ⟨stopped, ?_, ended⟩
      rw [List.append_assoc] at rest
      rw [List.flatMap_cons, iterate, asked]
      simp only [Option.bind_eq_bind, Option.bind_some, named, valued, rest]
      rfl

/-- The block is as large as computed, and a caller's loop reads the pairs back from inside
it; asked once more, the iterator says again that there is nothing left. -/
theorem kv_list_round_trip (memory : Nat → UInt8) (list : List (CString × CString)) :
    (∃ kv, new_kv_list_from_pg_list memory list = some (kv, kv_size list) ∧
      kv.length = list.length ∧ kv.data.length = kv_size list ∧
      ∀ more, ∃ stopped,
        iterate kv.data (list.length + 1 + more) (new_kv_iter (some kv)) =
          some (list.map fun elem => (elem.1.val, elem.2.val), stopped) ∧
        kv_iter_next kv.data stopped = some (false, stopped)) ∧
    ∀ data, iterate data 1 (new_kv_iter none) = some ([], new_kv_iter none) := by
  refine ⟨⟨⟨list.length, list.flatMap packed⟩, ?_, rfl, (kv_size_eq list).symm, ?_⟩,
    fun _ => rfl⟩
  · have allocated : ((List.range (kv_size list)).map memory).length =
        (list.flatMap packed).length := by
      rw [List.length_map, List.length_range, kv_size_eq]
    have written := foldlM_write_pair list [] _ allocated
    simp only [List.nil_append, List.length_nil] at written
    unfold new_kv_list_from_pg_list
    simp only [Option.bind_eq_bind, written, Option.bind_some, ← kv_size_eq]
    rfl
  · intro more
    obtain ⟨stopped, walked, ended⟩ := iterate_at list [] (new_kv_iter (some ⟨_, _⟩)) rfl
      (fun _ => rfl) (list.length + 1 + more) (by omega)
    exact ⟨stopped, walked, if_pos ended⟩

end PgClickhouse.KvList

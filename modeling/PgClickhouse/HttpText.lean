import Mathlib.Data.List.Basic
import Mathlib.Data.List.TakeWhile
import Mathlib.Order.Basic
import Mathlib.Order.Nat
import Mathlib.Tactic.Common

/-!
# Text that travels in a URL query and in a header field

A client appends `name=value` parts to the query of a URL, percent-encoding all but the
first `=` of a part; a server splits the query at `&`, each piece at its first `=`, and
decodes both sides.  A header field is a line whose value the receiver reads without the
blanks around it.  Nothing here names a program.

* `params_append`: the server reads back exactly the part that was appended, split at its
  first `=`.
* `trim_take_eq_iff`: the values that a header field of limited length delivers unchanged.
-/

namespace HttpText

/-! ## Percent encoding -/

/-- The bytes a URL holds as they are: letters, digits and `-._~`. -/
def unreserved (b : UInt8) : Bool :=
  (48 ≤ b && b ≤ 57) || (65 ≤ b && b ≤ 90) || (97 ≤ b && b ≤ 122) ||
    b == 45 || b == 46 || b == 95 || b == 126

/-- The hexadecimal digit of a number below 16. -/
def hexDigit (n : Nat) : UInt8 :=
  if n < 10 then (48 + n).toUInt8 else (87 + n).toUInt8

/-- The number of a hexadecimal digit of either case. -/
def hexValue (b : UInt8) : Option Nat :=
  if 48 ≤ b ∧ b ≤ 57 then some (b.toNat - 48)
  else if 97 ≤ b ∧ b ≤ 102 then some (b.toNat - 87)
  else if 65 ≤ b ∧ b ≤ 70 then some (b.toNat - 55)
  else none

def encodeByte (b : UInt8) : List UInt8 :=
  if unreserved b then [b]
  else if b = 32 then [43]
  else [37, hexDigit (b.toNat / 16), hexDigit (b.toNat % 16)]

/-- Encode a part.  While `keep` holds, the next `=` is kept as it is. -/
def encodePart : Bool → List UInt8 → List UInt8
  | _, [] => []
  | keep, b :: part =>
      if keep && b == 61 then 61 :: encodePart false part
      else encodeByte b ++ encodePart keep part

/-- The byte that the two hexadecimal digits at the front of a text stand for. -/
def hexPair : List UInt8 → Option UInt8
  | h :: l :: _ => do
      let high ← hexValue h
      let low ← hexValue l
      pure (16 * high + low).toUInt8
  | _ => none

/-- Decode a text after `skip` more bytes. -/
def decodeFrom : Nat → List UInt8 → List UInt8
  | _, [] => []
  | skip + 1, _ :: text => decodeFrom skip text
  | 0, b :: text =>
      if b = 43 then 32 :: decodeFrom 0 text
      else if b = 37 then
        match hexPair text with
        | some value => value :: decodeFrom 2 text
        | none => b :: decodeFrom 0 text
      else b :: decodeFrom 0 text

/-- Decode a name or a value. -/
def decode (text : List UInt8) : List UInt8 := decodeFrom 0 text

theorem hexValue_hexDigit {n : Nat} (h : n < 16) : hexValue (hexDigit n) = some n := by
  have every : ∀ k : Fin 16, hexValue (hexDigit k) = some k.val := by decide
  exact every ⟨n, h⟩

theorem decode_cons_of_plain {b : UInt8} (text : List UInt8) (plus : b ≠ 43) (percent : b ≠ 37) :
    decode (b :: text) = b :: decode text := by
  rw [decode, decodeFrom, if_neg plus, if_neg percent]
  rfl

theorem decode_encodeByte (b : UInt8) (text : List UInt8) :
    decode (encodeByte b ++ text) = b :: decode text := by
  unfold encodeByte
  split
  · rename_i plain
    refine decode_cons_of_plain text ?_ ?_
    · rintro rfl
      cases plain
    · rintro rfl
      cases plain
  · split
    · rename_i blank
      rw [blank]
      rfl
    · have high : b.toNat / 16 < 16 := by
        have bound := b.toNat_lt
        omega
      have low : b.toNat % 16 < 16 := Nat.mod_lt _ (by decide)
      have digits : hexPair (hexDigit (b.toNat / 16) :: hexDigit (b.toNat % 16) :: text) =
          some b := by
        simp only [hexPair, hexValue_hexDigit high, hexValue_hexDigit low, bind, Option.bind,
          pure, Nat.div_add_mod, Nat.toUInt8, UInt8.ofNat_toNat]
      simp only [List.cons_append, List.nil_append, decode, decodeFrom, digits, reduceIte,
        show (37 : UInt8) ≠ 43 by decide]

/-- An encoded part contains no separator. -/
theorem not_mem_encodeByte (b : UInt8) : (38 : UInt8) ∉ encodeByte b := by
  have digits : ∀ n : Fin 16, hexDigit n ≠ 38 := by decide
  have high : b.toNat / 16 < 16 := by
    have bound := b.toNat_lt
    omega
  have low : b.toNat % 16 < 16 := Nat.mod_lt _ (by decide)
  unfold encodeByte
  split
  · rename_i plain
    simp only [List.mem_singleton]
    rintro rfl
    cases plain
  · split
    · decide
    · simp only [List.mem_cons, List.not_mem_nil, or_false, not_or]
      exact ⟨by decide, (digits ⟨_, high⟩).symm, (digits ⟨_, low⟩).symm⟩

theorem not_mem_encodePart (keep : Bool) (part : List UInt8) :
    (38 : UInt8) ∉ encodePart keep part := by
  induction part generalizing keep with
  | nil => exact List.not_mem_nil
  | cons b part ih =>
      rw [encodePart]
      split
      · simp only [List.mem_cons, not_or]
        exact ⟨by decide, ih false⟩
      · simp only [List.mem_append, not_or]
        exact ⟨not_mem_encodeByte b, ih keep⟩

theorem encodeByte_ne_nil (b : UInt8) : encodeByte b ≠ [] := by
  unfold encodeByte
  split
  · exact List.cons_ne_nil _ _
  · split
    · exact List.cons_ne_nil _ _
    · exact List.cons_ne_nil _ _

theorem encodePart_ne_nil {part : List UInt8} (keep : Bool) (nonempty : part ≠ []) :
    encodePart keep part ≠ [] := by
  cases part with
  | nil => exact absurd rfl nonempty
  | cons b part =>
      rw [encodePart]
      split
      · exact List.cons_ne_nil _ _
      · exact List.append_ne_nil_of_left_ne_nil (encodeByte_ne_nil b) _

/-- What follows the first `=` is encoded throughout. -/
theorem decode_encodePart_false (part : List UInt8) : decode (encodePart false part) = part := by
  induction part with
  | nil => rfl
  | cons b part ih =>
      rw [encodePart]
      simp only [Bool.false_and, Bool.false_eq_true, if_false]
      rw [decode_encodeByte, ih]

/-! ## Query strings -/

/-- A part split at its first `=`; without one the value is empty. -/
def pairAt (part : List UInt8) : List UInt8 × List UInt8 :=
  (part.takeWhile (· ≠ 61), (part.dropWhile (· ≠ 61)).drop 1)

/-- Append a part to a query. -/
def append (query part : List UInt8) : List UInt8 :=
  if query = [] ∨ query.getLast? = some 38 then query ++ encodePart true part
  else query ++ 38 :: encodePart true part

/-- The names and values a server reads from a query, skipping empty pieces. -/
def params (query : List UInt8) : List (List UInt8 × List UInt8) :=
  ((query.splitOn 38).filter (· ≠ [])).map fun piece =>
    (decode (pairAt piece).1, decode (pairAt piece).2)

theorem pairAt_cons_self (part : List UInt8) : pairAt (61 :: part) = ([], part) := by
  simp [pairAt]

theorem pairAt_append_of_not_mem {front : List UInt8} (absent : (61 : UInt8) ∉ front)
    (part : List UInt8) :
    pairAt (front ++ part) = (front ++ (pairAt part).1, (pairAt part).2) := by
  induction front with
  | nil => rfl
  | cons b front ih =>
      simp only [List.mem_cons, not_or] at absent
      have differ : b ≠ 61 := Ne.symm absent.1
      have rest := ih absent.2
      simp only [pairAt, Prod.mk.injEq] at rest ⊢
      simp only [List.cons_append, List.takeWhile_cons, List.dropWhile_cons, ne_eq, differ,
        not_false_eq_true, decide_true, if_true]
      exact ⟨congrArg _ rest.1, rest.2⟩

/-- A part is its two sides, with `=` between them unless it has none. -/
theorem pairAt_spec (part : List UInt8) :
    (61 : UInt8) ∉ (pairAt part).1 ∧
      (part = (pairAt part).1 ++ 61 :: (pairAt part).2 ∨
        part = (pairAt part).1 ∧ (pairAt part).2 = []) := by
  induction part with
  | nil => exact ⟨List.not_mem_nil, .inr ⟨rfl, rfl⟩⟩
  | cons b part ih =>
      rcases eq_or_ne b 61 with rfl | differ
      · rw [pairAt_cons_self]
        exact ⟨List.not_mem_nil, .inl rfl⟩
      · have split := @pairAt_append_of_not_mem [b] (by simpa using Ne.symm differ) part
        rw [List.singleton_append] at split
        rw [split]
        refine ⟨?_, ?_⟩
        · simp only [List.cons_append, List.nil_append, List.mem_cons, not_or]
          exact ⟨Ne.symm differ, ih.1⟩
        · rcases ih.2 with whole | ⟨whole, empty⟩
          · exact .inl (congrArg (b :: ·) whole)
          · exact .inr ⟨congrArg (b :: ·) whole, empty⟩

theorem not_mem_equals_encodeByte {b : UInt8} : (61 : UInt8) ∉ encodeByte b := by
  have digits : ∀ n : Fin 16, hexDigit n ≠ 61 := by decide
  have high : b.toNat / 16 < 16 := by
    have bound := b.toNat_lt
    omega
  have low : b.toNat % 16 < 16 := Nat.mod_lt _ (by decide)
  unfold encodeByte
  split
  · rename_i plain
    simp only [List.mem_singleton]
    rintro rfl
    cases plain
  · split
    · decide
    · simp only [List.mem_cons, List.not_mem_nil, or_false, not_or]
      exact ⟨by decide, (digits ⟨_, high⟩).symm, (digits ⟨_, low⟩).symm⟩

/-- Splitting an encoded part and decoding both sides undoes the encoding. -/
theorem decode_pairAt_encodePart (part : List UInt8) :
    (decode (pairAt (encodePart true part)).1, decode (pairAt (encodePart true part)).2) =
      pairAt part := by
  induction part with
  | nil => rfl
  | cons b part ih =>
      rw [encodePart]
      simp only [Bool.true_and, beq_iff_eq]
      split
      · rename_i equals
        subst equals
        rw [pairAt_cons_self, pairAt_cons_self, decode_encodePart_false]
        rfl
      · rename_i differ
        have split := @pairAt_append_of_not_mem [b] (by simpa using Ne.symm differ) part
        rw [List.singleton_append] at split
        rw [pairAt_append_of_not_mem not_mem_equals_encodeByte, split, decode_encodeByte, ← ih]
        rfl

/-- The pieces of a query to which a part is appended. -/
theorem pieces_append (query : List UInt8) {part : List UInt8} (nonempty : part ≠ []) :
    ((append query part).splitOn 38).filter (· ≠ []) =
      (query.splitOn 38).filter (· ≠ []) ++ [encodePart true part] := by
  have single : (encodePart true part).splitOn 38 = [encodePart true part] :=
    List.splitOn_eq_singleton (not_mem_encodePart true part)
  have kept : [encodePart true part].filter (· ≠ []) = [encodePart true part] := by
    simp [encodePart_ne_nil true nonempty]
  unfold append
  split
  · rename_i joins
    rcases joins with rfl | last
    · rw [List.nil_append, single, kept]
      rfl
    · obtain ⟨front, rfl⟩ := List.getLast?_eq_some_iff.mp last
      rw [List.append_assoc, List.singleton_append, List.splitOn_append_cons_self,
        List.splitOn_append_cons_self, single, List.filter_append, List.filter_append, kept]
      simp
  · rw [List.splitOn_append_cons_self, single, List.filter_append, kept]

/-- The server reads back the part that was appended. -/
theorem params_append (query : List UInt8) {part : List UInt8} (nonempty : part ≠ []) :
    params (append query part) = params query ++ [pairAt part] := by
  rw [params, pieces_append query nonempty, List.map_append, List.map_singleton,
    decode_pairAt_encodePart]
  rfl

/-! ## Header fields -/

def blank (b : UInt8) : Bool := b == 32 || b == 9

/-- A carriage return or a line feed ends a line. -/
def endsLine (b : UInt8) : Bool := b == 13 || b == 10

/-- A text without the blanks at its ends. -/
def trim (text : List UInt8) : List UInt8 :=
  ((text.dropWhile blank).reverse.dropWhile blank).reverse

/-- The value a receiver reads from a header line. -/
def fieldValue (line : List UInt8) : List UInt8 :=
  trim (((line.dropWhile (· ≠ 58)).drop 1).takeWhile fun b => !endsLine b)

/-- A value that a header field delivers as it is. -/
def Deliverable (value : List UInt8) : Prop :=
  (∀ b ∈ value, endsLine b = false) ∧ (∀ b ∈ value.head?, blank b = false) ∧
    ∀ b ∈ value.getLast?, blank b = false

theorem trim_length_le (text : List UInt8) : (trim text).length ≤ text.length := by
  have front := (List.dropWhile_suffix blank (l := text)).length_le
  have back := (List.dropWhile_suffix blank (l := (text.dropWhile blank).reverse)).length_le
  rw [List.length_reverse] at back
  rw [trim, List.length_reverse]
  exact back.trans front

/-- A text that does not start with a blank. -/
theorem dropWhile_blank_of_head {text : List UInt8} (head : ∀ b ∈ text.head?, blank b = false) :
    text.dropWhile blank = text := by
  cases text with
  | nil => rfl
  | cons b text => rw [List.dropWhile_cons, head b rfl, if_neg Bool.false_ne_true]

theorem head_of_dropWhile_blank {text : List UInt8}
    (long : text.length ≤ (text.dropWhile blank).length) :
    ∀ b ∈ text.head?, blank b = false := by
  cases text with
  | nil => exact nofun
  | cons b text =>
      rintro _ ⟨⟩
      cases isBlank : blank b with
      | false => rfl
      | true =>
          rw [List.dropWhile_cons, if_pos isBlank] at long
          have shorter := (List.dropWhile_suffix blank (l := text)).length_le
          rw [List.length_cons] at long
          omega

/-- A text is its own trimming when it has no blank at either end. -/
theorem trim_eq_self_iff {text : List UInt8} :
    trim text = text ↔ (∀ b ∈ text.head?, blank b = false) ∧
      ∀ b ∈ text.getLast?, blank b = false := by
  constructor
  · intro trimmed
    have front := (List.dropWhile_suffix blank (l := text)).length_le
    have back := (List.dropWhile_suffix blank (l := (text.dropWhile blank).reverse)).length_le
    have whole := congrArg List.length trimmed
    rw [trim, List.length_reverse] at whole
    rw [List.length_reverse] at back
    have head : ∀ b ∈ text.head?, blank b = false := head_of_dropWhile_blank (by omega)
    rw [dropWhile_blank_of_head head] at whole back
    refine ⟨head, ?_⟩
    rw [← List.head?_reverse]
    exact head_of_dropWhile_blank (by rw [List.length_reverse]; omega)
  · rintro ⟨head, last⟩
    rw [← List.head?_reverse] at last
    rw [trim, dropWhile_blank_of_head head, dropWhile_blank_of_head last, List.reverse_reverse]

/-- The receiver reads the value behind the first colon. -/
theorem fieldValue_of_field {name : List UInt8} (plain : (58 : UInt8) ∉ name)
    (value : List UInt8) :
    fieldValue (name ++ 58 :: 32 :: value) = trim (value.takeWhile fun b => !endsLine b) := by
  have behind : (name ++ 58 :: 32 :: value).dropWhile (· ≠ 58) = 58 :: 32 :: value := by
    rw [List.dropWhile_append_of_pos]
    · rfl
    · intro b member
      simp only [ne_eq, decide_eq_true_eq]
      rintro rfl
      exact plain member
  rw [fieldValue, behind]
  rfl

/-- A value cut to `n` bytes is read as it was exactly when it fits and is deliverable. -/
theorem trim_take_eq_iff (value : List UInt8) (n : Nat) :
    trim ((value.take n).takeWhile fun b => !endsLine b) = value ↔
      value.length ≤ n ∧ Deliverable value := by
  constructor
  · intro read
    have whole := congrArg List.length read
    have trimmed := trim_length_le ((value.take n).takeWhile fun b => !endsLine b)
    have line := (List.takeWhile_prefix (fun b => !endsLine b) (l := value.take n)).length_le
    have cut : (value.take n).length = min n value.length := List.length_take
    have fits : value.length ≤ n := by omega
    rw [List.take_of_length_le fits] at read line trimmed whole
    have lineEq : value.takeWhile (fun b => !endsLine b) = value :=
      (List.takeWhile_prefix _).eq_of_length (by omega)
    refine ⟨fits, ?_, ?_⟩
    · intro b member
      rw [← lineEq] at member
      simpa using List.mem_takeWhile_imp member
    · rw [lineEq] at read
      exact trim_eq_self_iff.mp read
  · rintro ⟨fits, line, ends⟩
    have lineEq : value.takeWhile (fun b => !endsLine b) = value := by
      rw [List.takeWhile_eq_self_iff]
      intro b member
      rw [line b member]
      rfl
    rw [List.take_of_length_le fits, lineEq]
    exact trim_eq_self_iff.mpr ends

end HttpText

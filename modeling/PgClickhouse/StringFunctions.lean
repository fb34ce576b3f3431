import PgClickhouse.Calls

/-!
# Parts of strings

`substring` and the splitting functions go to ClickHouse functions of the same arguments.

* `substring_iff`: the starts and lengths for which the two substrings are equal.
* `splitting_iff`: the strings, delimiters and fields for which the two splittings are equal.
-/

namespace PgClickhouse.StringFunctions

open Calls (Function Assumed Prints)
open Windows (window)

variable {α : Type}

/-! ## `substring` -/

/-- The pushed-down overloads of `substr` and `substring`. -/
inductive Overload
  | SUBSTR_TEXT_INT4_INT4
  | SUBSTR_TEXT_INT4
  | SUBSTRING_TEXT_INT4_INT4
  | SUBSTRING_TEXT_INT4
  | SUBSTR_BYTEA_INT4_INT4
  | SUBSTR_BYTEA_INT4
  | SUBSTRING_BYTEA_INT4_INT4
  | SUBSTRING_BYTEA_INT4
  deriving Repr, DecidableEq

/-- The entry of `chfdw_check_for_custom_function`. -/
def Overload.ch_name : Overload → Function
  | .SUBSTR_TEXT_INT4_INT4 | .SUBSTR_TEXT_INT4 | .SUBSTRING_TEXT_INT4_INT4
  | .SUBSTRING_TEXT_INT4 => .substringUTF8
  | .SUBSTR_BYTEA_INT4_INT4 | .SUBSTR_BYTEA_INT4 | .SUBSTRING_BYTEA_INT4_INT4
  | .SUBSTRING_BYTEA_INT4 => .substring

/-- Whether the overload takes a length. -/
def Overload.bounded : Overload → Bool
  | .SUBSTR_TEXT_INT4_INT4 | .SUBSTRING_TEXT_INT4_INT4 | .SUBSTR_BYTEA_INT4_INT4
  | .SUBSTRING_BYTEA_INT4_INT4 => true
  | .SUBSTR_TEXT_INT4 | .SUBSTRING_TEXT_INT4 | .SUBSTR_BYTEA_INT4
  | .SUBSTRING_BYTEA_INT4 => false

/-- The end of `deparseFuncExpr`: a name and the arguments in their order. -/
def deparseFuncExpr (name : String) (args : Nat) : List Calls.Piece :=
  [Calls.Piece.text name, .text "("] ++
    (List.range args).flatMap
      (fun n => (if n = 0 then [] else [Calls.Piece.text ", "]) ++ [Calls.Piece.arg n]) ++
    [Calls.Piece.text ")"]

def Overload.deparse (overload : Overload) : List Calls.Piece :=
  deparseFuncExpr overload.ch_name.name (if overload.bounded then 3 else 2)

def Overload.expr (overload : Overload) : Calls.Expr :=
  if overload.bounded then .call₃ overload.ch_name (.arg 0) (.arg 1) (.arg 2)
  else .call₂ overload.ch_name (.arg 0) (.arg 1)

/-- `text_substring` and `bytea_substring`: none where a negative length is an error. -/
def pgSubstring (s : List α) (start : Int) : Option Int → Option (List α)
  | none => some (window (start - 1) s.length s)
  | some length => if length < 0 then none else some (window (start - 1) (start - 1 + length) s)

/-- Starts and lengths for which the characters are the same: a start within the string or behind
it; nothing to take; the first character from position zero; and for a start that counts from the
end, the whole string, or a length that covers as many first characters as there are last ones, or
a stretch wholly before the string. -/
def substringAgrees (clamps : Bool) (s : List α) (start : Int) : Option Int → Prop
  | none => 1 ≤ start ∨ s.length = 0 ∨ (start < 0 ∧ s.length ≤ -start)
  | some length =>
      1 ≤ start ∨ s.length = 0 ∨ length = 0 ∨ (start = 0 ∧ length = 1) ∨
        (start < 0 ∧
          ((s.length ≤ -start ∧ s.length - start + 1 ≤ length) ∨
            (length = 2 * -start + 1 ∧ s.take (-start).toNat = s.drop (s.length - (-start).toNat)) ∨
            (clamps = false ∧ length ≤ -start - s.length)))

variable {s : List α}

theorem open_substring_iff (clamps : Bool) (start : Int) :
    Calls.chSubstring clamps s start none = window (start - 1) s.length s ↔
      substringAgrees clamps s start none := by
  unfold Calls.chSubstring substringAgrees
  by_cases zero : start = 0
  · rw [if_pos zero, eq_comm, Windows.window_eq_nil_iff]
    omega
  rw [if_neg zero]
  by_cases left : 0 < start
  · rw [if_pos left]
    exact ⟨fun _ => .inl left, fun _ => rfl⟩
  · rw [if_neg left]
    dsimp only
    rw [Windows.window_of_length_le _ (Int.le_refl _),
      Windows.window_of_length_le _ (Int.le_refl _)]
    have all : (start - 1).toNat = 0 := by omega
    have first : (if clamps then max ((s.length : Int) + start) 0
        else (s.length : Int) + start).toNat = ((s.length : Int) + start).toNat := by
      cases clamps
      · rfl
      · change (max ((s.length : Int) + start) 0).toNat = _
        omega
    rw [all, first, List.drop_zero]
    constructor
    · intro same
      have lengths := congrArg List.length same
      rw [List.length_drop] at lengths
      omega
    · intro whole
      have none : ((s.length : Int) + start).toNat = 0 := by omega
      rw [none, List.drop_zero]

/-- A start that counts from the end and is not before the string. -/
theorem within_substring_iff {start length : Int} (right : start < 0) (length_nonneg : 0 < length)
    (inside : -start < s.length) :
    window (s.length + start) (s.length + start + length) s = s.take (start - 1 + length).toNat ↔
      length = 2 * -start + 1 ∧ s.take (-start).toNat = s.drop (s.length - (-start).toNat) := by
  by_cases short : length < -start
  · have nothing : s.take (start - 1 + length).toNat = [] :=
      (Windows.take_toNat_eq_nil_iff _).mpr (by omega)
    rw [nothing, Windows.window_eq_nil_iff]
    omega
  · rw [Windows.window_of_length_le _ (by omega), eq_comm, Windows.take_eq_drop_iff]
    constructor
    · rintro (⟨-, zero⟩ | ⟨-, none⟩ | none | ⟨equal, same⟩)
      · omega
      · omega
      · omega
      · have many : start - 1 + length = -start := by omega
        rw [many] at same
        exact ⟨by omega, same⟩
    · rintro ⟨long, same⟩
      have many : start - 1 + length = -start := by omega
      rw [many]
      exact .inr (.inr (.inr ⟨by omega, same⟩))

theorem bounded_substring_iff (clamps : Bool) {length : Int} (start : Int) (accepted : 0 ≤ length) :
    Calls.chSubstring clamps s start (some length) = window (start - 1) (start - 1 + length) s ↔
      substringAgrees clamps s start (some length) := by
  unfold Calls.chSubstring substringAgrees
  by_cases zero : start = 0
  · rw [if_pos zero, eq_comm, Windows.window_eq_nil_iff]
    omega
  rw [if_neg zero]
  by_cases left : 0 < start
  · rw [if_pos left]
    exact ⟨fun _ => .inl left, fun _ => rfl⟩
  rw [if_neg left, Windows.window_of_nonpos _ (by omega : start - 1 ≤ 0)]
  dsimp only
  by_cases inside : -start < s.length
  · have first : (if clamps then max ((s.length : Int) + start) 0 else (s.length : Int) + start) =
        s.length + start := by
      cases clamps
      · rfl
      · change max ((s.length : Int) + start) 0 = s.length + start
        omega
    rw [first]
    by_cases nothing : length = 0
    · have taken : s.take (start - 1 + length).toNat = [] :=
        (Windows.take_toNat_eq_nil_iff _).mpr (by omega)
      rw [taken, Windows.window_eq_nil_iff]
      omega
    · rw [within_substring_iff (by omega) (by omega) inside]
      constructor
      · intro agrees
        exact .inr (.inr (.inr (.inr ⟨by omega, .inr (.inl agrees)⟩)))
      · intro agrees
        rcases agrees with h | h | h | h | ⟨-, h | h | h⟩
        · omega
        · omega
        · omega
        · omega
        · omega
        · exact h
        · omega
  · cases clamps
    · change window (s.length + start) (s.length + start + length) s = _ ↔ _
      rw [Windows.window_of_nonpos _ (by omega : (s.length : Int) + start ≤ 0),
        List.take_eq_take_iff]
      constructor
      · intro same
        by_cases before : length ≤ -start - s.length
        · exact .inr (.inr (.inr (.inr ⟨by omega, .inr (.inr ⟨rfl, before⟩)⟩)))
        · omega
      · intro agrees
        rcases agrees with h | h | h | h | ⟨-, h | ⟨h, -⟩ | ⟨-, h⟩⟩ <;> omega
    · have first : max ((s.length : Int) + start) 0 = 0 := by omega
      change window (max (s.length + start) 0) (max (s.length + start) 0 + length) s = _ ↔ _
      rw [first, Windows.window_of_nonpos _ (Int.le_refl 0), List.take_eq_take_iff, Int.zero_add]
      constructor
      · intro same
        omega
      · intro agrees
        rcases agrees with h | h | h | h | ⟨-, h | ⟨h, -⟩ | ⟨h, -⟩⟩
        · omega
        · omega
        · omega
        · omega
        · omega
        · omega
        · exact absurd h (by decide)

section substring

variable [DecidableEq α] (assumed : Assumed α)

def substringArgs (s : List α) (start : Int) (length : Option Int) : Nat → Calls.Value α
  | 0 => .text s
  | 1 => .number start
  | _ => .number (length.getD 0)

theorem deparse_substring (overload : Overload) : Prints overload.deparse overload.expr := by
  cases overload <;> rfl

theorem eval_substring (overload : Overload) (start : Int) {length : Option Int}
    (args : length.isSome = overload.bounded) :
    overload.expr.eval assumed (substringArgs s start length) =
      some (.text (Calls.chSubstring (assumed.clamps overload.ch_name) s start length)) := by
  cases length with
  | none => cases overload <;> first | rfl | exact absurd args (by decide)
  | some length => cases overload <;> first | rfl | exact absurd args (by simp [Overload.bounded])

/-- Where PostgreSQL has a substring, the pushed-down function has the same one just for the starts
and lengths of `substringAgrees`. -/
theorem substring_iff (overload : Overload) (s : List α) (start : Int) {length : Option Int}
    (args : length.isSome = overload.bounded) {expected : List α}
    (accepted : pgSubstring s start length = some expected) :
    Prints overload.deparse overload.expr ∧
    (overload.expr.eval assumed (substringArgs s start length) = some (.text expected) ↔
      substringAgrees (assumed.clamps overload.ch_name) s start length) := by
  refine ⟨deparse_substring overload, ?_⟩
  rw [eval_substring assumed overload start args, Option.some_inj, Calls.Value.text.injEq]
  cases length with
  | none =>
      cases accepted
      exact open_substring_iff _ start
  | some length =>
      by_cases negative : length < 0
      · rw [pgSubstring, if_pos negative] at accepted
        cases accepted
      · rw [pgSubstring, if_neg negative] at accepted
        cases accepted
        exact bounded_substring_iff _ start (by omega)

/-- Bytes or characters as numbers, of which nothing is assumed but the documented. -/
def digits : Assumed Nat :=
  ⟨none, (· == ·), fun f => f = .substringUTF8, [[]], Calls.one_part⟩

/-- From the third character from the end of three. -/
theorem substring_iff_last :
    Overload.SUBSTR_TEXT_INT4.expr.eval digits (substringArgs [5, 6, 7] (-3) none) =
      some (.text [5, 6, 7]) :=
  (substring_iff digits .SUBSTR_TEXT_INT4 [5, 6, 7] (-3) rfl rfl).2.mpr
    (.inr (.inr ⟨by decide, by decide⟩))

/-- Two characters from position zero are one in PostgreSQL and none in ClickHouse. -/
theorem not_substring :
    ¬(∀ (overload : Overload) (s : List Nat) (start : Int) (length : Option Int)
        (expected : List Nat), length.isSome = overload.bounded →
        pgSubstring s start length = some expected →
        overload.expr.eval digits (substringArgs s start length) = some (.text expected)) ∧
      pgSubstring [5, 6, 7] 0 (some 2) = some [5] ∧
      Overload.SUBSTR_TEXT_INT4_INT4.expr.eval digits (substringArgs [5, 6, 7] 0 (some 2)) =
        some (.text []) := by
  refine ⟨fun equal => ?_, rfl, rfl⟩
  have same := equal .SUBSTR_TEXT_INT4_INT4 [5, 6, 7] 0 (some 2) [5] rfl rfl
  exact absurd same (by decide)

end substring

/-! ## Splitting -/

/-- `CF_STRING_TO_ARRAY` and `CF_STRING_TO_ARRAY_PART`. -/
inductive Split
  | STRING_TO_ARRAY
  | SPLIT_PART
  deriving Repr, DecidableEq

/-- The arguments are reversed, and a part is taken by a subscript. -/
def Split.deparse (split : Split) : List Calls.Piece :=
  [.text "splitByString", .text "(", .arg 1, .text ", ", .arg 0, .text ")"] ++
    (if split = .SPLIT_PART then [.text "[", .arg 2, .text "]"] else [])

def Split.expr : Split → Calls.Expr
  | .STRING_TO_ARRAY => .call₂ .splitByString (.arg 1) (.arg 0)
  | .SPLIT_PART => .index (.call₂ .splitByString (.arg 1) (.arg 0)) (.arg 2)

variable [DecidableEq α]

def string_to_array (s delimiter : List α) : List (List α) :=
  if s = [] then []
  else if delimiter = [] then [s]
  else Calls.parts delimiter s

/-- A negative field number counts from the right. -/
def split_part (s delimiter : List α) (fldnum : Int) : List α :=
  if s = [] then []
  else if delimiter = [] then if fldnum = 1 ∨ fldnum = -1 then s else []
  else
    let fields := Calls.parts delimiter s
    let fldnum := if fldnum < 0 then fldnum + fields.length + 1 else fldnum
    if fldnum ≤ 0 then [] else fields[(fldnum - 1).toNat]?.getD []

def Split.pg (s delimiter : List α) (fldnum : Int) : Split → Calls.Value α
  | .STRING_TO_ARRAY => .texts (string_to_array s delimiter)
  | .SPLIT_PART => .text (split_part s delimiter fldnum)

def splitArgs (s delimiter : List α) (fldnum : Int) : Nat → Calls.Value α
  | 0 => .text s
  | 1 => .text delimiter
  | _ => .number fldnum

/-- An array is the same for a string and a delimiter that are not empty, for one character
without a delimiter, and for nothing where nothing splits into nothing.  A part is the same with a
delimiter; without one, it is where the field is behind the characters, or there is only one of
both. -/
def Split.agrees (assumed : Assumed α) (s delimiter : List α) (fldnum : Int) : Split → Prop
  | .STRING_TO_ARRAY =>
      if delimiter = [] then s.length = 1 ∨ (s = [] ∧ assumed.noParts = []) else s ≠ []
  | .SPLIT_PART =>
      delimiter ≠ [] ∨ s.length < fldnum.natAbs ∨ (s.length = 1 ∧ fldnum.natAbs = 1)

omit [DecidableEq α] in
/-- A field of a list, counted from either end. -/
theorem element_field {fields : List (List α)} {fldnum : Int} (nonzero : fldnum ≠ 0) :
    Calls.element [] fields fldnum =
      (let fldnum := if fldnum < 0 then fldnum + fields.length + 1 else fldnum
       if fldnum ≤ 0 then [] else fields[(fldnum - 1).toNat]?.getD []) := by
  unfold Calls.element
  by_cases negative : fldnum < 0
  · rw [if_neg (by omega), if_pos negative]
    dsimp only
    by_cases inside : -fldnum ≤ fields.length
    · have place : ((fields.length : Int) + fldnum).toNat =
          (fldnum + fields.length + 1 - 1).toNat := by omega
      rw [if_pos (by omega), if_neg (by omega), place]
    · rw [if_neg (by omega), if_pos (by omega)]
  · rw [if_pos (by omega), if_neg negative]
    dsimp only
    rw [if_neg (by omega)]

omit [DecidableEq α] in
/-- Of a list of one empty string every field is empty. -/
theorem element_nothing (fldnum : Int) : Calls.element [] [([] : List α)] fldnum = [] := by
  have item (n : Nat) : ([([] : List α)])[n]?.getD [] = [] := by
    cases n <;> rfl
  unfold Calls.element
  split
  · exact item _
  · split
    · exact item _
    · rfl

omit [DecidableEq α] in
/-- A field of the characters of a string. -/
theorem element_characters {s : List α} {fldnum : Int} (nonzero : fldnum ≠ 0) (some : s ≠ []) :
    Calls.element [] (s.map fun c => [c]) fldnum =
        (if fldnum = 1 ∨ fldnum = -1 then s else []) ↔
      s.length < fldnum.natAbs ∨ (s.length = 1 ∧ fldnum.natAbs = 1) := by
  have positive := List.length_pos_of_ne_nil some
  have count : (s.map fun c => [c]).length = s.length := List.length_map _
  by_cases behind : s.length < fldnum.natAbs
  · have nothing : Calls.element [] (s.map fun c => [c]) fldnum = [] := by
      unfold Calls.element
      by_cases left : 0 < fldnum
      · rw [if_pos left, List.getElem?_eq_none (by omega)]
        rfl
      · rw [if_neg left, if_neg (by omega)]
    rw [nothing, if_neg (by omega)]
    exact ⟨fun _ => .inl behind, fun _ => rfl⟩
  · rw [or_iff_right behind]
    have found : ∃ c ∈ s, Calls.element [] (s.map fun c => [c]) fldnum = [c] := by
      unfold Calls.element
      by_cases left : 0 < fldnum
      · have inside : (fldnum - 1).toNat < s.length := by omega
        rw [if_pos left, List.getElem?_map, List.getElem?_eq_getElem inside]
        exact ⟨_, List.getElem_mem inside, rfl⟩
      · have inside : ((s.length : Int) + fldnum).toNat < s.length := by omega
        rw [if_neg left, if_pos (by omega), count, List.getElem?_map,
          List.getElem?_eq_getElem inside]
        exact ⟨_, List.getElem_mem inside, rfl⟩
    obtain ⟨c, mem, value⟩ := found
    rw [value]
    by_cases edge : fldnum = 1 ∨ fldnum = -1
    · rw [if_pos edge]
      constructor
      · intro same
        exact ⟨by rw [← same]; rfl, by omega⟩
      · rintro ⟨single, -⟩
        obtain ⟨d, only⟩ := List.length_eq_one_iff.mp single
        rw [only] at mem ⊢
        rw [List.mem_singleton.mp mem]
    · rw [if_neg edge]
      constructor
      · exact nofun
      · omega

theorem parts_nil (delimiter : List α) : Calls.parts delimiter [] = [[]] := by
  rw [Calls.parts, Calls.cutBy]

theorem string_to_array_iff (assumed : Assumed α) (s delimiter : List α) (fldnum : Int) :
    Calls.splitByString assumed delimiter s = string_to_array s delimiter ↔
      Split.agrees assumed s delimiter fldnum .STRING_TO_ARRAY := by
  unfold Calls.splitByString string_to_array Split.agrees
  dsimp only
  by_cases characters : delimiter = []
  · rw [if_pos characters, if_pos characters, if_pos characters]
    by_cases empty : s = []
    · rw [if_pos empty, if_pos empty, empty]
      simp
    · rw [if_neg empty, if_neg empty]
      constructor
      · intro same
        have lengths := congrArg List.length same
        rw [List.length_map] at lengths
        exact .inl lengths
      · rintro (single | ⟨none, -⟩)
        · obtain ⟨c, only⟩ := List.length_eq_one_iff.mp single
          rw [only]
          rfl
        · exact absurd none empty
  · rw [if_neg characters, if_neg characters, if_neg characters]
    by_cases empty : s = []
    · rw [if_pos empty, empty, parts_nil]
      simp
    · rw [if_neg empty]
      exact ⟨fun _ => empty, fun _ => rfl⟩

theorem split_part_iff (assumed : Assumed α) (s delimiter : List α) {fldnum : Int}
    (nonzero : fldnum ≠ 0) :
    Calls.element [] (Calls.splitByString assumed delimiter s) fldnum =
        split_part s delimiter fldnum ↔
      Split.agrees assumed s delimiter fldnum .SPLIT_PART := by
  unfold Calls.splitByString split_part Split.agrees
  dsimp only
  by_cases characters : delimiter = []
  · rw [if_pos characters, or_iff_right (not_not_intro characters)]
    by_cases empty : s = []
    · rw [if_pos empty, if_pos empty, empty]
      have field : Calls.element [] assumed.noParts fldnum = [] := by
        rcases assumed.noParts_eq with none | nothing
        · rw [none]
          unfold Calls.element
          simp
        · rw [nothing]
          exact element_nothing fldnum
      rw [field]
      refine ⟨fun _ => .inl ?_, fun _ => rfl⟩
      change 0 < fldnum.natAbs
      omega
    · rw [if_neg empty, if_neg empty, if_pos characters]
      exact element_characters nonzero empty
  · rw [if_neg characters]
    refine ⟨fun _ => .inl characters, fun _ => ?_⟩
    by_cases empty : s = []
    · rw [if_pos empty, empty, parts_nil]
      exact element_nothing fldnum
    · rw [if_neg empty, if_neg characters]
      exact element_field nonzero

/-- Both splittings have PostgreSQL's value just for the strings, delimiters and fields of
`Split.agrees`. -/
theorem splitting_iff (assumed : Assumed α) (split : Split) (s delimiter : List α) {fldnum : Int}
    (nonzero : fldnum ≠ 0) :
    Prints split.deparse split.expr ∧
    (split.expr.eval assumed (splitArgs s delimiter fldnum) = some (split.pg s delimiter fldnum) ↔
      split.agrees assumed s delimiter fldnum) := by
  cases split with
  | STRING_TO_ARRAY =>
      refine ⟨rfl, Iff.trans ?_ (string_to_array_iff assumed s delimiter fldnum)⟩
      change some (Calls.Value.texts _) = some (Calls.Value.texts _) ↔ _
      rw [Option.some_inj, Calls.Value.texts.injEq]
  | SPLIT_PART =>
      refine ⟨rfl, Iff.trans ?_ (split_part_iff assumed s delimiter nonzero)⟩
      change some (Calls.Value.text _) = some (Calls.Value.text _) ↔ _
      rw [Option.some_inj, Calls.Value.text.injEq]

/-- The last field but one. -/
theorem splitting_iff_field :
    Split.SPLIT_PART.expr.eval digits (splitArgs [5, 0, 6, 0, 7] [0] (-2)) =
      some (Split.SPLIT_PART.pg [5, 0, 6, 0, 7] [0] (-2)) :=
  (splitting_iff digits .SPLIT_PART [5, 0, 6, 0, 7] [0] (by decide)).2.mpr (.inl (by decide))

/-- The parts of an empty string are none in PostgreSQL and one in ClickHouse, and two characters
are not split without a delimiter in PostgreSQL only. -/
theorem not_splitting :
    ¬(∀ (split : Split) (s delimiter : List Nat) (fldnum : Int), fldnum ≠ 0 →
        split.expr.eval digits (splitArgs s delimiter fldnum) =
          some (split.pg s delimiter fldnum)) ∧
      Split.STRING_TO_ARRAY.expr.eval digits (splitArgs [] [0] 1) = some (.texts [[]]) ∧
      Split.STRING_TO_ARRAY.pg ([] : List Nat) [0] 1 = .texts [] ∧
      Split.SPLIT_PART.expr.eval digits (splitArgs [5, 6] [] 1) = some (.text [5]) ∧
      Split.SPLIT_PART.pg [5, 6] [] 1 = .text [5, 6] := by
  refine ⟨fun equal => ?_, rfl, rfl, rfl, rfl⟩
  have same := equal .STRING_TO_ARRAY [] [0] 1 (by decide)
  exact absurd same (by decide)

end PgClickhouse.StringFunctions

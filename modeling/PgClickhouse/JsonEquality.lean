import PgClickhouse.JsonPath
import PgClickhouse.Literals

/-!
# Equality of JSON values

`col -> 'key' = c` compares the text that `toJSONString` prints with the text that jsonb prints.

* `json_equality_iff`: the constants for which equal texts are equal values.
-/

namespace PgClickhouse.JsonEquality

open QuotedToken (Escapes token)

/-! ## Values -/

mutual

/-- A JSON value over some numbers. -/
inductive Json (N : Type)
  | null
  | bool (b : Bool)
  | number (n : N)
  | string (s : Bytes)
  | array (xs : Elements N)
  | object (ms : Members N)

inductive Elements (N : Type)
  | nil
  | cons (x : Json N) (xs : Elements N)

inductive Members (N : Type)
  | nil
  | cons (key : Bytes) (x : Json N) (ms : Members N)

end

variable {N : Type}

/-- Keys are compared by their lengths, then by their bytes. -/
def bytesBefore : Bytes → Bytes → Bool
  | [], _ :: _ => true
  | c :: s, d :: t => c < d || (c == d && bytesBefore s t)
  | _, [] => false

def keyBefore (k l : Bytes) : Bool :=
  decide (k.length < l.length) || (k.length == l.length && bytesBefore k l)

/-- Insert a member in front of the others; of two with one key the other stays. -/
def Members.insert (key : Bytes) (x : Json N) : Members N → Members N
  | .nil => .cons key x .nil
  | .cons l y ms =>
      if keyBefore key l then .cons key x (.cons l y ms)
      else if key = l then .cons l y ms
      else .cons l y (ms.insert key x)

mutual

/-- The jsonb of a JSON value: its objects have their members in order. -/
def Json.normal : Json N → Json N
  | .array xs => .array xs.normal
  | .object ms => .object ms.normal
  | x => x

def Elements.normal : Elements N → Elements N
  | .nil => .nil
  | .cons x xs => .cons x.normal xs.normal

def Members.normal : Members N → Members N
  | .nil => .nil
  | .cons key x ms => ms.normal.insert key x.normal

end

/-- A jsonb value. -/
structure Jsonb (N : Type) where
  value : Json N
  normal : value.normal = value

mutual

/-- Equality of jsonb values, by an equality of numbers. -/
def Json.equals (equal : N → N → Bool) : Json N → Json N → Bool
  | .null, .null => true
  | .bool a, .bool b => a == b
  | .number m, .number n => equal m n
  | .string s, .string t => s == t
  | .array xs, .array ys => xs.equals equal ys
  | .object ms, .object ns => ms.equals equal ns
  | _, _ => false

def Elements.equals (equal : N → N → Bool) : Elements N → Elements N → Bool
  | .nil, .nil => true
  | .cons x xs, .cons y ys => x.equals equal y && xs.equals equal ys
  | _, _ => false

def Members.equals (equal : N → N → Bool) : Members N → Members N → Bool
  | .nil, .nil => true
  | .cons k x ms, .cons l y ns => k == l && x.equals equal y && ms.equals equal ns
  | _, _ => false

end

/-! ## Texts -/

/-- How strings and numbers are printed. -/
structure Leaves (N : Type) where
  string : Bytes → Bytes
  number : N → Bytes

/-- A separator, with a space behind it or without. -/
def separator (spaced : Bool) (c : UInt8) : Bytes := if spaced then [c, 32] else [c]

mutual

def Json.print (leaves : Leaves N) (spaced : Bool) : Json N → Bytes
  | .null => ascii "null"
  | .bool b => if b then ascii "true" else ascii "false"
  | .number n => leaves.number n
  | .string s => leaves.string s
  | .array xs => 91 :: (xs.print leaves spaced true ++ [93])
  | .object ms => 123 :: (ms.print leaves spaced true ++ [125])

/-- The elements from the first on, or behind another. -/
def Elements.print (leaves : Leaves N) (spaced first : Bool) : Elements N → Bytes
  | .nil => []
  | .cons x xs =>
      (if first then [] else separator spaced 44) ++ x.print leaves spaced ++
        xs.print leaves spaced false

def Members.print (leaves : Leaves N) (spaced first : Bool) : Members N → Bytes
  | .nil => []
  | .cons key x ms =>
      (if first then [] else separator spaced 44) ++ leaves.string key ++ separator spaced 58 ++
        x.print leaves spaced ++ ms.print leaves spaced false

end

/-- The bytes of a number. -/
def numberByte (c : UInt8) : Bool :=
  (48 ≤ c && c ≤ 57) || c == 43 || c == 45 || c == 46 || c == 69 || c == 101

/-- The bytes that a number starts with. -/
def numberStart (c : UInt8) : Bool := (48 ≤ c && c ≤ 57) || c == 45

/-- What is assumed of `toJSONString` and of jsonb output: a string is quoted and ends with its
quote; a number is made of its bytes, and its text is a number; numbers are equal to themselves; and
the two print the same spaces. -/
structure Assumed (N : Type) where
  ch : Leaves N
  pg : Leaves N
  equal : N → N → Bool
  equal_refl : ∀ n, equal n n = true
  string_open : ∀ s, ∃ rest, ch.string s = 34 :: rest
  string_closed : ∀ s t rest rest',
    ch.string s ++ rest = ch.string t ++ rest' → s = t ∧ rest = rest'
  number_start : ∀ n, ∃ c rest, ch.number n = c :: rest ∧ numberStart c = true
  number_bytes : ∀ n, ∀ c ∈ ch.number n, numberByte c = true
  number_equal : ∀ m n, ch.number m = ch.number n → equal m n = true
  string_spaces : ∀ s, (ch.string s).count 32 = (pg.string s).count 32
  number_spaces : ∀ n, (ch.number n).count 32 = (pg.number n).count 32

variable (a : Assumed N)

/-- `toJSONString`. -/
def toJSONString (v : Json N) : Bytes := v.print a.ch false

/-- `jsonb_out`. -/
def jsonb_out (c : Jsonb N) : Bytes := c.value.print a.pg true

/-- The comparison of the value at a key with a constant. -/
def deparseEquals (q : IdentQuoting) (column key : Bytes) (c : Jsonb N) : Bytes :=
  ascii "(" ++ JsonPath.deparseExpr q column (.OpExpr .CF_JSON_FETCHVAL .Var key) ++ ascii " = " ++
    ch_quote_literal_internal (jsonb_out a c) ++ ascii ")"

/-- What the comparison finds where the member of the column is `v`. -/
def Found (e : Escapes) (v : Json N) (c : Jsonb N) : Prop :=
  token e 39 (ch_quote_literal_internal (jsonb_out a c) ++ ascii ")") =
    some (toJSONString a v, ascii ")")

/-- jsonb equality. -/
def jsonb_eq (v : Json N) (c : Jsonb N) : Bool := v.normal.equals a.equal c.value

/-- The constants that both sides print alike: a scalar whose text is the same, for a number also of
every number equal to it; an empty array or object; or an array of one of them. -/
def Json.PrintsAlike (a : Assumed N) : Json N → Prop
  | .null => True
  | .bool _ => True
  | .number n => ∀ m, a.equal m n = true → a.ch.number m = a.pg.number n
  | .string s => a.ch.string s = a.pg.string s
  | .array .nil => True
  | .array (.cons x .nil) => x.PrintsAlike a
  | .array (.cons _ (.cons _ _)) => False
  | .object .nil => True
  | .object (.cons _ _ _) => False

/-! ## Spaces -/

mutual

/-- The separators of a text. -/
def Json.separators : Json N → Nat
  | .array xs => xs.separators true
  | .object ms => ms.separators true
  | _ => 0

def Elements.separators (first : Bool) : Elements N → Nat
  | .nil => 0
  | .cons x xs => (if first then 0 else 1) + x.separators + xs.separators false

def Members.separators (first : Bool) : Members N → Nat
  | .nil => 0
  | .cons _ x ms => (if first then 0 else 1) + 1 + x.separators + ms.separators false

end

theorem separator_spaces (c : UInt8) (other : c ≠ 32) :
    (separator true c).count 32 = (separator false c).count 32 + 1 := by
  change [c, 32].count 32 = [c].count 32 + 1
  rw [List.count_cons, List.count_cons, List.count_cons]
  simp [other]

mutual

/-- The text of jsonb has a space more for every separator. -/
theorem Json.print_spaces : ∀ x : Json N,
    (x.print a.pg true).count 32 = (x.print a.ch false).count 32 + x.separators
  | .null => rfl
  | .bool true => rfl
  | .bool false => rfl
  | .number n => (a.number_spaces n).symm
  | .string s => (a.string_spaces s).symm
  | .array xs => by
      have inside := Elements.print_spaces true xs
      simp only [Json.print, Json.separators, List.count_cons, List.count_append, inside]
      omega
  | .object ms => by
      have inside := Members.print_spaces true ms
      simp only [Json.print, Json.separators, List.count_cons, List.count_append, inside]
      omega

theorem Elements.print_spaces (first : Bool) : ∀ xs : Elements N,
    (xs.print a.pg true first).count 32 = (xs.print a.ch false first).count 32 +
      xs.separators first
  | .nil => rfl
  | .cons x xs => by
      have head := Json.print_spaces x
      have tail := Elements.print_spaces false xs
      have comma := separator_spaces 44 (by decide)
      simp only [Elements.print, Elements.separators, List.count_append, head, tail]
      cases first
      · simp only [Bool.false_eq_true, if_false, comma]
        omega
      · simp only [if_true, List.count_nil]
        omega

theorem Members.print_spaces (first : Bool) : ∀ ms : Members N,
    (ms.print a.pg true first).count 32 = (ms.print a.ch false first).count 32 +
      ms.separators first
  | .nil => rfl
  | .cons key x ms => by
      have head := Json.print_spaces x
      have tail := Members.print_spaces false ms
      have comma := separator_spaces 44 (by decide)
      have colon := separator_spaces 58 (by decide)
      have name := a.string_spaces key
      simp only [Members.print, Members.separators, List.count_append, head, tail, colon, name]
      cases first
      · simp only [Bool.false_eq_true, if_false, comma]
        omega
      · simp only [if_true, List.count_nil]
        omega

end

/-- Texts with separators are not the same. -/
theorem print_ne_of_separators {x : Json N} (some : x.separators ≠ 0) :
    x.print a.ch false ≠ x.print a.pg true := by
  intro same
  have spaces := Json.print_spaces a x
  rw [← same] at spaces
  omega

/-! ## Equal values with other texts -/

mutual

theorem Json.equals_refl : ∀ x : Json N, x.equals a.equal x = true
  | .null => rfl
  | .bool b => beq_self_eq_true b
  | .number n => a.equal_refl n
  | .string s => beq_self_eq_true s
  | .array xs => Elements.equals_refl xs
  | .object ms => Members.equals_refl ms

theorem Elements.equals_refl : ∀ xs : Elements N, xs.equals a.equal xs = true
  | .nil => rfl
  | .cons x xs => by
      rw [Elements.equals, Json.equals_refl x, Elements.equals_refl xs]
      rfl

theorem Members.equals_refl : ∀ ms : Members N, ms.equals a.equal ms = true
  | .nil => rfl
  | .cons key x ms => by
      rw [Members.equals, beq_self_eq_true, Json.equals_refl x, Members.equals_refl ms]
      rfl

end

/-- A value in normal form is equal to itself. -/
theorem normal_equals {x : Json N} (normal : x.normal = x) : x.normal.equals a.equal x = true := by
  rw [normal]
  exact Json.equals_refl a x

/-- For a constant that is not printed alike there is an equal value with another text. -/
theorem exists_other {x : Json N} (normal : x.normal = x) (other : ¬x.PrintsAlike a) :
    ∃ v : Json N, v.normal.equals a.equal x = true ∧ v.print a.ch false ≠ x.print a.pg true := by
  induction x using Json.PrintsAlike.induct with
  | case1 => exact absurd trivial other
  | case2 b => exact absurd trivial other
  | case3 n =>
      rw [Json.PrintsAlike] at other
      obtain ⟨m, other⟩ := not_forall.mp other
      obtain ⟨equal, differ⟩ := Classical.not_imp.mp other
      exact ⟨.number m, equal, differ⟩
  | case4 s => exact ⟨.string s, normal_equals a normal, other⟩
  | case5 => exact absurd trivial other
  | case6 x ih =>
      have inner : x.normal = x := by
        injection normal with elements
        injection elements
      obtain ⟨v, equal, differ⟩ := ih inner other
      refine ⟨.array (.cons v .nil), ?_, ?_⟩
      · change (v.normal.equals a.equal x && true) = true
        rw [equal]
        rfl
      · intro same
        simp only [Json.print, Elements.print, if_true, List.nil_append, List.append_nil,
          List.cons.injEq, true_and] at same
        exact differ (List.append_cancel_right same)
  | case7 x y ys =>
      refine ⟨_, normal_equals a normal, print_ne_of_separators a ?_⟩
      simp only [Json.separators, Elements.separators]
      simp
  | case8 => exact absurd trivial other
  | case9 key x ms =>
      refine ⟨_, normal_equals a normal, print_ne_of_separators a ?_⟩
      simp only [Json.separators, Members.separators]
      omega

/-! ## Equal texts -/

/-- The kinds of values that differ in the first byte of their texts. -/
def Json.kind : Json N → Nat
  | .null => 0
  | .bool true => 1
  | .bool false => 2
  | .number _ => 3
  | .string _ => 4
  | .array _ => 5
  | .object _ => 6

def kindOf (c : UInt8) : Nat :=
  if c = 110 then 0
  else if c = 116 then 1
  else if c = 102 then 2
  else if c = 34 then 4
  else if c = 91 then 5
  else if c = 123 then 6
  else if numberStart c then 3
  else 7

/-- A text that starts with a byte of a kind of value. -/
def Opens (kind : Nat) (text : Bytes) : Prop := ∃ c rest, text = c :: rest ∧ kindOf c = kind

theorem kindOf_number {c : UInt8} (start : numberStart c = true) : kindOf c = 3 := by
  have table : ∀ n : Fin 256, numberStart (UInt8.ofNat n) = true → kindOf (UInt8.ofNat n) = 3 := by
    decide +kernel
  have kind := table ⟨c.toNat, c.toNat_lt⟩
  rw [UInt8.ofNat_toNat] at kind
  exact kind start

theorem opens_ch (v : Json N) : Opens v.kind (v.print a.ch false) := by
  cases v with
  | null => exact ⟨_, _, rfl, rfl⟩
  | bool b => cases b <;> exact ⟨_, _, rfl, rfl⟩
  | number n =>
      obtain ⟨c, rest, text, start⟩ := a.number_start n
      exact ⟨c, rest, text, kindOf_number start⟩
  | string s =>
      obtain ⟨rest, text⟩ := a.string_open s
      exact ⟨34, rest, text, rfl⟩
  | array xs => exact ⟨_, _, rfl, rfl⟩
  | object ms => exact ⟨_, _, rfl, rfl⟩

theorem opens_pg {x : Json N} (alike : x.PrintsAlike a) : Opens x.kind (x.print a.pg true) := by
  cases x with
  | null => exact ⟨_, _, rfl, rfl⟩
  | bool b => cases b <;> exact ⟨_, _, rfl, rfl⟩
  | number n =>
      obtain ⟨c, rest, text, start⟩ := a.number_start n
      have same : a.ch.number n = a.pg.number n := alike n (a.equal_refl n)
      exact ⟨c, rest, same.symm.trans text, kindOf_number start⟩
  | string s =>
      obtain ⟨rest, text⟩ := a.string_open s
      have same : a.ch.string s = a.pg.string s := alike
      exact ⟨34, rest, same.symm.trans text, rfl⟩
  | array xs => exact ⟨_, _, rfl, rfl⟩
  | object ms => exact ⟨_, _, rfl, rfl⟩

theorem Opens.unique {kind kind' : Nat} {s t r r' : Bytes} (left : Opens kind s)
    (right : Opens kind' t) (same : s ++ r = t ++ r') : kind = kind' := by
  obtain ⟨c, rest, rfl, of_c⟩ := left
  obtain ⟨d, rest', rfl, of_d⟩ := right
  injection same with head
  rw [← of_c, ← of_d, head]

/-- No value starts with the end of an array. -/
theorem Opens.ne_bracket {v : Json N} {s : Bytes} (opens : Opens v.kind s) (r r' : Bytes) :
    s ++ r ≠ 93 :: r' := by
  intro same
  have bracket : Opens 7 [93] := ⟨93, [], rfl, by decide⟩
  have kind := opens.unique bracket same
  cases v with
  | bool b => cases b <;> cases kind
  | _ => cases kind

/-- What ends a number. -/
def Ends (r : Bytes) : Prop := ∀ c ∈ r.head?, numberByte c = false

theorem ends_cons {c : UInt8} (other : numberByte c = false) (r : Bytes) : Ends (c :: r) := by
  intro d head
  cases head
  exact other

/-- Numbers that are followed by something else have one text. -/
theorem number_text {m n : N} {r r' : Bytes} (ends : Ends r) (ends' : Ends r')
    (same : a.ch.number m ++ r = a.ch.number n ++ r') :
    a.ch.number m = a.ch.number n ∧ r = r' := by
  have run (n : N) {r : Bytes} (ends : Ends r) :
      (a.ch.number n ++ r).takeWhile numberByte = a.ch.number n := by
    rw [List.takeWhile_append_of_pos (a.number_bytes n)]
    cases r with
    | nil => exact List.append_nil _
    | cons c r =>
        have other : ¬numberByte c = true := by
          rw [ends c rfl]
          decide
        rw [List.takeWhile_cons_of_neg other, List.append_nil]
  have text : a.ch.number m = a.ch.number n := by
    rw [← run m ends, same, run n ends']
  rw [text] at same
  exact ⟨text, List.append_cancel_left same⟩

/-- The text behind the first element. -/
theorem ends_elements (xs : Elements N) (r : Bytes) :
    Ends (xs.print a.ch false false ++ 93 :: r) := by
  cases xs with
  | nil => exact ends_cons rfl r
  | cons x xs => exact ends_cons (c := 44) rfl _

/-- A text that is printed for a value and for a constant printed alike: they are equal. -/
theorem equals_of_print {x : Json N} (alike : x.PrintsAlike a) {v : Json N} {r r' : Bytes}
    (ends : Ends r) (ends' : Ends r')
    (same : v.print a.ch false ++ r = x.print a.pg true ++ r') :
    v.normal.equals a.equal x = true ∧ r = r' := by
  induction x using Json.PrintsAlike.induct generalizing v r r' with
  | case1 =>
      have kind := (opens_ch a v).unique (opens_pg a alike) same
      cases v with
      | null => exact ⟨rfl, List.append_cancel_left same⟩
      | bool b => cases b <;> cases kind
      | _ => cases kind
  | case2 b =>
      have kind := (opens_ch a v).unique (opens_pg a alike) same
      cases v with
      | bool b' =>
          cases b <;> cases b'
          · exact ⟨rfl, List.append_cancel_left same⟩
          · cases kind
          · cases kind
          · exact ⟨rfl, List.append_cancel_left same⟩
      | _ => cases b <;> cases kind
  | case3 n =>
      have kind := (opens_ch a v).unique (opens_pg a alike) same
      cases v with
      | number m =>
          change a.ch.number m ++ r = a.pg.number n ++ r' at same
          rw [← alike n (a.equal_refl n)] at same
          obtain ⟨text, rest⟩ := number_text a ends ends' same
          exact ⟨a.number_equal m n text, rest⟩
      | bool b => cases b <;> cases kind
      | _ => cases kind
  | case4 s =>
      have kind := (opens_ch a v).unique (opens_pg a alike) same
      cases v with
      | string t =>
          change a.ch.string t ++ r = a.pg.string s ++ r' at same
          rw [← show a.ch.string s = a.pg.string s from alike] at same
          obtain ⟨text, rest⟩ := a.string_closed t s r r' same
          exact ⟨by rw [text]; exact beq_self_eq_true s, rest⟩
      | bool b => cases b <;> cases kind
      | _ => cases kind
  | case5 =>
      have kind := (opens_ch a v).unique (opens_pg a alike) same
      cases v with
      | array xs =>
          cases xs with
          | nil =>
              simp only [Json.print, Elements.print] at same
              exact ⟨rfl, List.append_cancel_left same⟩
          | cons y ys =>
              simp only [Json.print, Elements.print, if_true, List.nil_append, List.cons_append,
                List.append_assoc, List.cons.injEq, true_and] at same
              exact absurd same ((opens_ch a y).ne_bracket _ _)
      | bool b => cases b <;> cases kind
      | _ => cases kind
  | case6 x ih =>
      have kind := (opens_ch a v).unique (opens_pg a alike) same
      cases v with
      | array xs =>
          cases xs with
          | nil =>
              simp only [Json.print, Elements.print, if_true, List.nil_append, List.cons_append,
                List.append_assoc, List.append_nil, List.cons.injEq, true_and] at same
              have inner : x.PrintsAlike a := alike
              exact absurd same.symm ((opens_pg a inner).ne_bracket _ _)
          | cons y ys =>
              simp only [Json.print, Elements.print, if_true, List.nil_append, List.cons_append,
                List.append_assoc, List.append_nil, List.cons.injEq, true_and] at same
              obtain ⟨equal, rest⟩ := ih alike (ends_elements a ys r) (ends_cons rfl r') same
              cases ys with
              | nil =>
                  refine ⟨?_, (List.cons.inj rest).2⟩
                  change (y.normal.equals a.equal x && true) = true
                  rw [equal]
                  rfl
              | cons z zs => exact absurd (List.cons.inj rest).1 (by decide)
      | bool b => cases b <;> cases kind
      | _ => cases kind
  | case7 x y ys => exact absurd alike id
  | case8 =>
      have kind := (opens_ch a v).unique (opens_pg a alike) same
      cases v with
      | object ms =>
          cases ms with
          | nil =>
              simp only [Json.print, Members.print] at same
              exact ⟨rfl, List.append_cancel_left same⟩
          | cons key y ms =>
              obtain ⟨rest, text⟩ := a.string_open key
              simp only [Json.print, Members.print, if_true, List.nil_append, List.cons_append,
                List.append_assoc, text, List.cons.injEq, true_and] at same
              exact absurd same.1 (by decide)
      | bool b => cases b <;> cases kind
      | _ => cases kind
  | case9 key x ms => exact absurd alike id

theorem insert_ne_nil (key : Bytes) (x : Json N) (ms : Members N) : ms.insert key x ≠ .nil := by
  cases ms with
  | nil => exact nofun
  | cons l y ms =>
      rw [Members.insert]
      split
      · exact nofun
      · split <;> exact nofun

/-- A value that is equal to a constant printed alike has its text. -/
theorem print_of_equals {x : Json N} (alike : x.PrintsAlike a) {v : Json N}
    (equal : v.normal.equals a.equal x = true) : v.print a.ch false = x.print a.pg true := by
  induction x using Json.PrintsAlike.induct generalizing v with
  | case1 =>
      cases v with
      | null => rfl
      | _ => cases equal
  | case2 b =>
      cases v with
      | bool b' =>
          have same : b' = b := eq_of_beq equal
          rw [same]
          rfl
      | _ => cases equal
  | case3 n =>
      cases v with
      | number m => exact alike m equal
      | _ => cases equal
  | case4 s =>
      cases v with
      | string t =>
          have same : t = s := eq_of_beq equal
          rw [same]
          exact alike
      | _ => cases equal
  | case5 =>
      cases v with
      | array xs =>
          cases xs with
          | nil => rfl
          | cons y ys => cases equal
      | _ => cases equal
  | case6 x ih =>
      cases v with
      | array xs =>
          cases xs with
          | nil => cases equal
          | cons y ys =>
              cases ys with
              | nil =>
                  have inner : y.normal.equals a.equal x = true := by
                    change (y.normal.equals a.equal x && true) = true at equal
                    rwa [Bool.and_true] at equal
                  simp only [Json.print, Elements.print, if_true, ih alike inner]
              | cons z zs =>
                  change (y.normal.equals a.equal x && false) = true at equal
                  rw [Bool.and_false] at equal
                  cases equal
      | _ => cases equal
  | case7 x y ys => exact absurd alike id
  | case8 =>
      cases v with
      | object ms =>
          cases ms with
          | nil => rfl
          | cons key y ms =>
              change (ms.normal.insert key y.normal).equals a.equal .nil = true at equal
              cases inserted : ms.normal.insert key y.normal with
              | nil => exact absurd inserted (insert_ne_nil _ _ _)
              | cons l z ns =>
                  rw [inserted] at equal
                  cases equal
      | _ => cases equal
  | case9 key x ms => exact absurd alike id

/-! ## The comparison -/

/-- The literal of a constant is its text. -/
theorem found_iff (e : Escapes) (v : Json N) (c : Jsonb N) :
    Found a e v c ↔ toJSONString a v = jsonb_out a c := by
  have read : token e 39 (ch_quote_literal_internal (jsonb_out a c) ++ ascii ")") =
      some (jsonb_out a c, ascii ")") := by
    rw [ch_quote_literal_internal, List.cons_append, List.append_assoc]
    exact QuotedToken.token_flatMap (double_byte_spells e) (by decide) _ (by decide)
  rw [Found, read, Option.some_inj, Prod.mk.injEq, and_iff_left rfl, eq_comm]

/-- The text of the comparison. -/
theorem deparseEquals_text (q : IdentQuoting) (column key : Bytes) (c : Jsonb N) :
    deparseEquals a q column key c =
      ascii "(" ++ (ascii "toJSONString(" ++ (column ++ ascii "." ++ quote_identifier q key) ++
        ascii ")") ++ ascii " = " ++ ch_quote_literal_internal (jsonb_out a c) ++ ascii ")" := by
  rw [deparseEquals, JsonPath.deparseExpr, JsonPath.fetchval_text]
  rfl

/-- The comparison with a constant is jsonb equality for every value just when the constant is
printed alike. -/
theorem json_equality_iff (e : Escapes) (q : IdentQuoting) (column key : Bytes) (c : Jsonb N) :
    (∃ before, deparseEquals a q column key c =
      before ++ (ch_quote_literal_internal (jsonb_out a c) ++ ascii ")")) ∧
    ((∀ v : Json N, Found a e v c ↔ jsonb_eq a v c = true) ↔ c.value.PrintsAlike a) := by
  refine ⟨⟨_, (deparseEquals_text a q column key c).trans (List.append_assoc _ _ _)⟩, ?_⟩
  constructor
  · intro same
    by_contra other
    obtain ⟨v, equal, differ⟩ := exists_other a c.normal other
    exact differ ((found_iff a e v c).mp ((same v).mpr equal))
  · intro alike v
    rw [found_iff]
    constructor
    · intro text
      have ends : Ends [] := nofun
      have printed : v.print a.ch false ++ [] = c.value.print a.pg true ++ [] := by
        rw [List.append_nil, List.append_nil]
        exact text
      exact (equals_of_print a alike ends ends printed).1
    · exact print_of_equals a alike

/-! ## The documented printers -/

/-- A hexadecimal digit, which ClickHouse prints in upper case. -/
def hexDigit (clickhouse : Bool) (n : Nat) : UInt8 :=
  if clickhouse = true ∧ 10 ≤ n then (55 + n).toUInt8 else HttpText.hexDigit n

/-- A byte of a string; only ClickHouse escapes slashes. -/
def escaped (clickhouse : Bool) (c : UInt8) : Bytes :=
  if c = 34 ∨ c = 92 ∨ (c = 47 ∧ clickhouse = true) then [92, c]
  else if c = 8 then [92, 98]
  else if c = 12 then [92, 102]
  else if c = 10 then [92, 110]
  else if c = 13 then [92, 114]
  else if c = 9 then [92, 116]
  else if c < 32 then
    [92, 117, 48, 48, hexDigit clickhouse (c.toNat / 16), hexDigit clickhouse (c.toNat % 16)]
  else [c]

def quoted (clickhouse : Bool) (s : Bytes) : Bytes :=
  34 :: (s.flatMap (escaped clickhouse) ++ [34])

/-- The byte that a letter behind a backslash stands for. -/
def unescape (c : UInt8) : UInt8 :=
  if c = 98 then 8
  else if c = 102 then 12
  else if c = 110 then 10
  else if c = 114 then 13
  else if c = 116 then 9
  else c

/-- Read a string up to its quote. -/
@[grind =] def unquoted : Bytes → Option (Bytes × Bytes)
  | [] => none
  | [c] => if c = 34 then some ([], []) else none
  | c :: d :: text =>
      if c = 34 then some ([], d :: text)
      else if c = 92 then
        if d = 117 then
          match text with
          | _ :: _ :: h :: l :: rest =>
              (unquoted rest).map fun (s, rest) =>
                ((QuotedToken.unhex h * 16 + QuotedToken.unhex l) :: s, rest)
          | _ => none
        else (unquoted text).map fun (s, rest) => (unescape d :: s, rest)
      else (unquoted (d :: text)).map fun (s, rest) => (c :: s, rest)

theorem unquoted_letter {d : UInt8} (letter : d ≠ 117) (text : Bytes) :
    unquoted (92 :: d :: text) = (unquoted text).map fun (s, rest) => (unescape d :: s, rest) := by
  have other : (92 : UInt8) ≠ 34 := by decide
  rw [unquoted.eq_def]
  simp only [if_neg other, if_true, if_neg letter]

theorem unquoted_plain {c : UInt8} (quote : c ≠ 34) (slash : c ≠ 92) (text : Bytes) :
    unquoted (c :: text) = (unquoted text).map fun (s, rest) => (c :: s, rest) := by
  cases text with
  | nil =>
      rw [unquoted.eq_def]
      simp only [if_neg quote]
      rfl
  | cons d text =>
      rw [unquoted.eq_def]
      simp only [if_neg quote, if_neg slash]

/-- The digits of a control character. -/
theorem unhex_control (c : UInt8) : c < 32 →
    QuotedToken.unhex (hexDigit true (c.toNat / 16)) * 16 +
      QuotedToken.unhex (hexDigit true (c.toNat % 16)) = c := by
  have table : ∀ n : Fin 256, UInt8.ofNat n < 32 →
      QuotedToken.unhex (hexDigit true ((UInt8.ofNat n).toNat / 16)) * 16 +
        QuotedToken.unhex (hexDigit true ((UInt8.ofNat n).toNat % 16)) = UInt8.ofNat n := by
    decide +kernel
  have control := table ⟨c.toNat, c.toNat_lt⟩
  rwa [UInt8.ofNat_toNat] at control

theorem unquoted_escaped (c : UInt8) (text : Bytes) :
    unquoted (escaped true c ++ text) = (unquoted text).map fun (s, rest) => (c :: s, rest) := by
  have letter {d : UInt8} (other : d ≠ 117) (stands : unescape d = c) :
      unquoted (92 :: d :: text) = (unquoted text).map fun (s, rest) => (c :: s, rest) := by
    rw [unquoted_letter other, stands]
  unfold escaped
  by_cases kept : c = 34 ∨ c = 92 ∨ (c = 47 ∧ true = true)
  · rw [if_pos kept]
    rcases kept with same | same | ⟨same, -⟩
    · exact letter (by rw [same]; decide) (by rw [same]; decide)
    · exact letter (by rw [same]; decide) (by rw [same]; decide)
    · exact letter (by rw [same]; decide) (by rw [same]; decide)
  rw [if_neg kept]
  split
  · exact letter (by decide) (by rw [‹c = 8›]; decide)
  split
  · exact letter (by decide) (by rw [‹c = 12›]; decide)
  split
  · exact letter (by decide) (by rw [‹c = 10›]; decide)
  split
  · exact letter (by decide) (by rw [‹c = 13›]; decide)
  split
  · exact letter (by decide) (by rw [‹c = 9›]; decide)
  split
  · have control : c < 32 := by assumption
    change unquoted (92 :: 117 :: 48 :: 48 :: _ :: _ :: text) = _
    rw [unquoted, if_neg (by decide), if_pos rfl, if_pos rfl, unhex_control c control]
  · exact unquoted_plain (fun same => kept (.inl same)) (fun same => kept (.inr (.inl same))) text

/-- A quoted string is read back. -/
theorem unquoted_quoted (s rest : Bytes) :
    unquoted (s.flatMap (escaped true) ++ 34 :: rest) = some (s, rest) := by
  induction s with
  | nil =>
      cases rest with
      | nil => rfl
      | cons c rest =>
          change unquoted (34 :: c :: rest) = _
          rw [unquoted.eq_def]
          simp only [if_true]
  | cons c s ih =>
      rw [List.flatMap_cons, List.append_assoc, unquoted_escaped, ih]
      rfl

theorem quoted_closed (s t rest rest' : Bytes)
    (same : quoted true s ++ rest = quoted true t ++ rest') : s = t ∧ rest = rest' := by
  simp only [quoted, List.cons_append, List.append_assoc, List.nil_append, List.cons.injEq,
    true_and] at same
  have read := congrArg unquoted same
  rw [unquoted_quoted, unquoted_quoted, Option.some_inj, Prod.mk.injEq] at read
  exact read

theorem quoted_spaces (s : Bytes) : (quoted true s).count 32 = (quoted false s).count 32 := by
  have table : ∀ n : Fin 256, (escaped true (UInt8.ofNat n)).count 32 =
      (escaped false (UInt8.ofNat n)).count 32 := by
    decide +kernel
  have byte (c : UInt8) : (escaped true c).count 32 = (escaped false c).count 32 := by
    have spaces := table ⟨c.toNat, c.toNat_lt⟩
    rwa [UInt8.ofNat_toNat] at spaces
  have content : (s.flatMap (escaped true)).count 32 = (s.flatMap (escaped false)).count 32 := by
    induction s with
    | nil => rfl
    | cons c s ih => rw [List.flatMap_cons, List.flatMap_cons, List.count_append,
        List.count_append, byte c, ih]
  rw [quoted, quoted, List.count_cons, List.count_cons, List.count_append, List.count_append,
    content]

/-- The text of a number of one digit. -/
def oneDigit (n : Fin 10) : Bytes := [48 + n.val.toUInt8]

/-- Strings as both print them, and numbers of one digit. -/
def documented : Assumed (Fin 10) where
  ch := ⟨quoted true, oneDigit⟩
  pg := ⟨quoted false, oneDigit⟩
  equal := fun m n => m == n
  equal_refl := beq_self_eq_true
  string_open := fun s => ⟨_, rfl⟩
  string_closed := quoted_closed
  number_start := by
    intro n
    refine ⟨_, [], rfl, ?_⟩
    revert n
    decide
  number_bytes := by
    intro n c mem
    rw [List.mem_singleton.mp mem]
    clear mem
    revert n
    decide
  number_equal := by
    decide
  string_spaces := quoted_spaces
  number_spaces := fun _ => rfl

/-- An array of two numbers. -/
def pair : Json (Fin 10) := .array (.cons (.number 1) (.cons (.number 2) .nil))

/-- An array is equal to itself, and printed with a space in the literal only. -/
theorem not_json_equality :
    ¬(∀ (v : Json (Fin 10)) (c : Jsonb (Fin 10)),
        Found documented Escapes.kept v c ↔ jsonb_eq documented v c = true) ∧
      toJSONString documented pair = ascii "[1,2]" ∧
      jsonb_out documented ⟨pair, rfl⟩ = ascii "[1, 2]" := by
  have compact : toJSONString documented pair = ascii "[1,2]" := by
    decide +kernel
  have spaced : jsonb_out documented ⟨pair, rfl⟩ = ascii "[1, 2]" := by
    decide +kernel
  refine ⟨fun same => ?_, compact, spaced⟩
  have found := (same pair ⟨pair, rfl⟩).mpr rfl
  rw [found_iff, compact, spaced] at found
  exact absurd found (by decide +kernel)

end PgClickhouse.JsonEquality

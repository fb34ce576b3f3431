import PgClickhouse.Windows

/-!
# ClickHouse functions of arrays and strings

The functions that subscripts, `substring`, `array_position` and the splitting functions are
translated to, with the text of a call and its value.
-/

namespace PgClickhouse.Calls

open Windows (window)

/-! ## Texts -/

/-- A piece of the text of an expression: text, or the text of an operand. -/
inductive Piece
  | text (s : String)
  | arg (n : Nat)
  deriving Repr, DecidableEq

def Piece.symbols : Piece → List (Char ⊕ Nat)
  | .text s => s.toList.map .inl
  | .arg n => [.inr n]

inductive Function
  | arraySlice
  | indexOf
  | nullIf
  | splitByString
  | substringUTF8
  | substring
  deriving Repr, DecidableEq

def Function.name : Function → String
  | .arraySlice => "arraySlice"
  | .indexOf => "indexOf"
  | .nullIf => "nullIf"
  | .splitByString => "splitByString"
  | .substringUTF8 => "substringUTF8"
  | .substring => "substring"

/-- A ClickHouse expression over operands. -/
inductive Expr
  | arg (n : Nat)
  | number (i : Nat)
  | paren (e : Expr)
  | call₂ (f : Function) (first second : Expr)
  | call₃ (f : Function) (first second third : Expr)
  | index (array position : Expr)
  | plus (left right : Expr)
  | minus (left right : Expr)
  deriving Repr, DecidableEq

def symbols (s : String) : List (Char ⊕ Nat) := s.toList.map .inl

def Expr.symbols : Expr → List (Char ⊕ Nat)
  | .arg n => [.inr n]
  | .number i => Calls.symbols (toString i)
  | .paren e => Calls.symbols "(" ++ e.symbols ++ Calls.symbols ")"
  | .call₂ f first second =>
      Calls.symbols f.name ++ Calls.symbols "(" ++ first.symbols ++ Calls.symbols ", " ++
        second.symbols ++ Calls.symbols ")"
  | .call₃ f first second third =>
      Calls.symbols f.name ++ Calls.symbols "(" ++ first.symbols ++ Calls.symbols ", " ++
        second.symbols ++ Calls.symbols ", " ++ third.symbols ++ Calls.symbols ")"
  | .index array position =>
      array.symbols ++ Calls.symbols "[" ++ position.symbols ++ Calls.symbols "]"
  | .plus left right => left.symbols ++ Calls.symbols " + " ++ right.symbols
  | .minus left right => left.symbols ++ Calls.symbols " - " ++ right.symbols

/-- Pieces that are the text of an expression. -/
def Prints (pieces : List Piece) (e : Expr) : Prop := pieces.flatMap Piece.symbols = e.symbols

instance (pieces : List Piece) (e : Expr) : Decidable (Prints pieces e) :=
  inferInstanceAs (Decidable (_ = _))

/-! ## Values -/

/-- A value: NULL, a number, an element of an array, an array, a string, an array of strings. -/
inductive Value (α : Type)
  | null
  | number (i : Int)
  | item (a : α)
  | array (xs : List (Option α))
  | text (s : List α)
  | texts (parts : List (List α))
  deriving Repr, DecidableEq

variable {α β : Type}

def Value.ofItem : Option α → Value α
  | none => .null
  | some a => .item a

theorem Value.ofItem_inj {a b : Option α} : Value.ofItem a = Value.ofItem b ↔ a = b := by
  cases a <;> cases b <;> simp [Value.ofItem]

/-- What the assumptions about ClickHouse leave open: the default of the elements, which of them
are equal, whether an offset before the start of a string is moved to its start, and the parts of
an empty string without a delimiter. -/
structure Assumed (α : Type) where
  default : Option α
  equal : α → α → Bool
  clamps : Function → Bool
  noParts : List (List α)
  noParts_eq : noParts = [] ∨ noParts = [[]]

theorem one_part : ([[]] : List (List α)) = [] ∨ ([[]] : List (List α)) = [[]] := .inr rfl

/-- The position `i` counts from one, or from the end if it is negative. -/
def element (default : β) (xs : List β) (i : Int) : β :=
  if 0 < i then xs[(i - 1).toNat]?.getD default
  else if 0 < -i ∧ -i ≤ xs.length then xs[((xs.length : Int) + i).toNat]?.getD default
  else default

/-- An offset counts from one, or from the right if it is not positive; a negative length is
what is left out on the right. -/
def arraySlice (xs : List β) (offset : Int) (length : Option Int) : List β :=
  let start : Int := if 0 < offset then offset - 1 else xs.length + offset
  match length with
  | none => window start xs.length xs
  | some length => window start (if length < 0 then xs.length + length else start + length) xs

/-- A NULL is not distinct from a NULL, and a value not from the values that are equal to it. -/
def notDistinct (equal : α → α → Bool) : Option α → Option α → Bool
  | none, none => true
  | some a, some b => equal a b
  | _, _ => false

/-- The position of the first element that is the searched one, or zero. -/
def indexOf (searched : β → Bool) (xs : List β) : Int :=
  match xs.findIdx? searched with
  | none => 0
  | some i => i + 1

def chSubstring (clamps : Bool) (s : List α) (offset : Int) (length : Option Int) : List α :=
  if offset = 0 then []
  else
    let start : Int :=
      if 0 < offset then offset - 1
      else if clamps then max (s.length + offset) 0 else s.length + offset
    match length with
    | none => window start s.length s
    | some length => window start (start + length) s

variable [DecidableEq α]

/-- The parts of a string between the delimiters found from left to right.  `skip` characters of
a delimiter are still to be passed, and `part` is what has been read of a part. -/
def cutBy (delimiter : List α) : Nat → List α → List α → List (List α)
  | _, part, [] => [part]
  | skip + 1, part, _ :: rest => cutBy delimiter skip part rest
  | 0, part, c :: rest =>
      if delimiter.isPrefixOf (c :: rest) then
        part :: cutBy delimiter (delimiter.length - 1) [] rest
      else cutBy delimiter 0 (part ++ [c]) rest

/-- Cut at a delimiter that is not empty. -/
def parts (delimiter s : List α) : List (List α) := cutBy delimiter 0 [] s

def splitByString (assumed : Assumed α) (delimiter s : List α) : List (List α) :=
  if delimiter = [] then
    if s = [] then assumed.noParts else s.map fun c => [c]
  else parts delimiter s

def Function.apply (assumed : Assumed α) : Function → List (Value α) → Option (Value α)
  | .arraySlice, [.array xs, .number offset] => some (.array (Calls.arraySlice xs offset none))
  | .arraySlice, [.array xs, .number offset, .number length] =>
      some (.array (Calls.arraySlice xs offset (some length)))
  | .indexOf, [.array xs, .item a] =>
      some (.number (Calls.indexOf (notDistinct assumed.equal (some a)) xs))
  | .indexOf, [.array xs, .null] =>
      some (.number (Calls.indexOf (notDistinct assumed.equal none) xs))
  | .nullIf, [.number i, .number j] => some (if i = j then .null else .number i)
  | .splitByString, [.text delimiter, .text s] =>
      some (.texts (Calls.splitByString assumed delimiter s))
  | .substringUTF8, [.text s, .number offset] =>
      some (.text (chSubstring (assumed.clamps .substringUTF8) s offset none))
  | .substringUTF8, [.text s, .number offset, .number length] =>
      some (.text (chSubstring (assumed.clamps .substringUTF8) s offset (some length)))
  | .substring, [.text s, .number offset] =>
      some (.text (chSubstring (assumed.clamps .substring) s offset none))
  | .substring, [.text s, .number offset, .number length] =>
      some (.text (chSubstring (assumed.clamps .substring) s offset (some length)))
  | _, _ => none

/-- An element of an array; an array of strings has the empty string as its default. -/
def Value.subscript (assumed : Assumed α) : Value α → Value α → Option (Value α)
  | .array xs, .number i => some (.ofItem (element assumed.default xs i))
  | .texts parts, .number i => some (.text (element [] parts i))
  | _, _ => none

/-- A sum or a difference; NULL with a NULL operand. -/
def Value.arith (op : Int → Int → Int) : Value α → Value α → Option (Value α)
  | .number i, .number j => some (.number (op i j))
  | .null, .number _ => some .null
  | .number _, .null => some .null
  | .null, .null => some .null
  | _, _ => none

/-- The value of an expression, none if a function does not take its arguments. -/
def Expr.eval (assumed : Assumed α) (args : Nat → Value α) : Expr → Option (Value α)
  | .arg n => some (args n)
  | .number i => some (.number i)
  | .paren e => e.eval assumed args
  | .call₂ f first second => do
      f.apply assumed [← first.eval assumed args, ← second.eval assumed args]
  | .call₃ f first second third => do
      f.apply assumed [← first.eval assumed args, ← second.eval assumed args,
        ← third.eval assumed args]
  | .index array position => do
      Value.subscript assumed (← array.eval assumed args) (← position.eval assumed args)
  | .plus left right => do
      Value.arith (· + ·) (← left.eval assumed args) (← right.eval assumed args)
  | .minus left right => do
      Value.arith (· - ·) (← left.eval assumed args) (← right.eval assumed args)

end PgClickhouse.Calls

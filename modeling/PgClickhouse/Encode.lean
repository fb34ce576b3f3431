import PgClickhouse.PatternReplace
import PgClickhouse.ReplaceTemplate

/-!
# `encode`

PostgreSQL breaks base64 into lines of 76 characters; the text sent to ClickHouse breaks it with two
replacements.

* `base64_exact`: they make the same lines.
-/

namespace PgClickhouse.Encode

open PatternReplace (Node Pattern matchAt replaceAll)
open QuotedToken (Escapes token)

/-! ## Text -/

inductive Piece
  | text (s : Bytes)
  | arg
  deriving Repr, DecidableEq

def pg_tolower (c : UInt8) : UInt8 := if 65 ≤ c ∧ c ≤ 90 then c + 32 else c

/-- `pg_strcasecmp(a, b) == 0`. -/
def sameCaseless (a b : Bytes) : Bool := a.map pg_tolower == b.map pg_tolower

/-- The case `CF_ENCODE` of `chfdw_is_shippable`, for a constant or anything else. -/
def shippable : Option Bytes → Bool
  | some format =>
      sameCaseless format (ascii "hex") || sameCaseless format (ascii "base64") ||
        sameCaseless format (ascii "base64url")
  | none => false

/-- The case `CF_ENCODE` of `deparseFuncExpr`, none for an error. -/
def deparseEncode (format : Bytes) : Option (List Piece) :=
  if sameCaseless format (ascii "hex") then
    some [.text (ascii "lower(hex("), .arg, .text (ascii "))")]
  else if sameCaseless format (ascii "base64") then
    some [.text (ascii "replaceRegexpAll(replaceRegexpAll(base64Encode("), .arg,
      .text (ascii "), '(.{76})', '\\\\1\\n'), '(=+)\\n$', '\\\\1')")]
  else if sameCaseless format (ascii "base64url") then
    some [.text (ascii "base64URLEncode("), .arg, .text (ascii ")")]
  else none

/-- A call on an operand; the literals are tokens. -/
inductive Expr
  | arg
  | base64Encode (e : Expr)
  | replaceRegexpAll (e : Expr) (pattern replacement : Bytes)
  deriving Repr, DecidableEq

def Piece.symbols : Piece → List (Option UInt8)
  | .text s => s.map some
  | .arg => [none]

def Expr.symbols : Expr → List (Option UInt8)
  | .arg => [none]
  | .base64Encode e => (ascii "base64Encode(").map some ++ e.symbols ++ (ascii ")").map some
  | .replaceRegexpAll e pattern replacement =>
      (ascii "replaceRegexpAll(").map some ++ e.symbols ++ (ascii ", ").map some ++
        pattern.map some ++ (ascii ", ").map some ++ replacement.map some ++ (ascii ")").map some

/-- The pair of replacements. -/
def mime : Expr :=
  .replaceRegexpAll
    (.replaceRegexpAll (.base64Encode .arg) (ascii "'(.{76})'") (ascii "'\\\\1\\n'"))
    (ascii "'(=+)\\n$'") (ascii "'\\\\1'")

theorem deparse_mime {format : Bytes} (base64 : sameCaseless format (ascii "base64") = true) :
    shippable (some format) = true ∧ ∃ pieces, deparseEncode format = some pieces ∧
      pieces.flatMap Piece.symbols = mime.symbols := by
  have lower : format.map pg_tolower = (ascii "base64").map pg_tolower := eq_of_beq base64
  have hex : sameCaseless format (ascii "hex") = false := by
    rw [sameCaseless, lower]
    decide +kernel
  refine ⟨?_, ?_⟩
  · rw [shippable, base64, hex]
    rfl
  · rw [deparseEncode, if_neg (by rw [hex]; decide), if_pos base64]
    refine ⟨_, rfl, ?_⟩
    decide +kernel

/-! ## Patterns -/

/-- Any character but a newline, or one character. -/
inductive Leaf
  | dot
  | char (c : UInt8)
  deriving Repr, DecidableEq

def accepts : Leaf → UInt8 → Bool
  | .dot, c => c != 10
  | .char d, c => c == d

/-- A character of a pattern that is not special. -/
def readLeaf (c : UInt8) : Option Leaf :=
  if c = 46 then some .dot
  else if c ∈ ascii "()[]*?|\\^+\x7b\x7d$" then none
  else some (.char c)

/-- Leaves, each with a plus or a count of two digits behind it or alone, and a dollar at the
end. -/
def readNodes : Bytes → Option (List (Node Leaf))
  | [] => some []
  | [36] => some [.finish]
  | c :: 43 :: rest => do some (.plus (← readLeaf c) :: (← readNodes rest))
  | c :: 123 :: d :: d' :: 125 :: rest => do
      some (.repeated (← readLeaf c) ((d.toNat - 48) * 10 + (d'.toNat - 48)) :: (← readNodes rest))
  | c :: rest => do some (.repeated (← readLeaf c) 1 :: (← readNodes rest))

/-- A pattern that starts with its only group. -/
def readPattern : Bytes → Option (Pattern Leaf)
  | 40 :: rest => do
      some ⟨← readNodes (rest.takeWhile (· != 41)), ← readNodes ((rest.dropWhile (· != 41)).drop 1)⟩
  | _ => none

/-! ## Values -/

def alphabet : Bytes := ascii "ABCDEFGHIJKLMNOPQRSTUVWXYZabcdefghijklmnopqrstuvwxyz0123456789+/"

/-- The character for the six bits of a number from bit `shift` on. -/
def digit (buf shift : Nat) : UInt8 := alphabet[buf / 2 ^ shift % 64]?.getD 0

/-- Three bytes as one number, the first in the highest bits. -/
def packed (a b c : UInt8) : Nat := a.toNat * 2 ^ 16 + b.toNat * 2 ^ 8 + c.toNat

/-- The unbroken encoding. -/
def base64Encode : Bytes → Bytes
  | a :: b :: c :: rest =>
      let buf := packed a b c
      digit buf 18 :: digit buf 12 :: digit buf 6 :: digit buf 0 :: base64Encode rest
  | [a, b] =>
      let buf := packed a b 0
      [digit buf 18, digit buf 12, digit buf 6, 61]
  | [a] =>
      let buf := packed a 0 0
      [digit buf 18, digit buf 12, 61, 61]
  | [] => []

/-- The match that a template of ClickHouse is expanded with. -/
def matched (group whole : Bytes) : Regex.Match := ⟨whole, fun n => if n = 1 then group else []⟩

/-- The text between the quotes of a token that is read whole. -/
def unquote (e : Escapes) (literal : Bytes) : Option Bytes :=
  match token e 39 literal with
  | some (text, []) => some text
  | _ => none

/-- `replaceRegexpAll` with a pattern and a template. -/
def replaceRegexpAll (s pattern template : Bytes) : Option Bytes := do
  let p ← readPattern pattern
  some (replaceAll accepts p (fun group whole => Regex.chExpand (matched group whole) template) s)

def Expr.eval (e : Escapes) (arg : Bytes) : Expr → Option Bytes
  | .arg => some arg
  | .base64Encode x => (x.eval e arg).map Encode.base64Encode
  | .replaceRegexpAll x pattern replacement => do
      Encode.replaceRegexpAll (← x.eval e arg) (← unquote e pattern) (← unquote e replacement)

/-! ## PostgreSQL -/

/-- The state of the loop of `pg_base64_encode`: the bits read, the place of the next byte, and the
characters in the line. -/
structure State where
  buf : Nat
  pos : Nat
  line : Nat
  deriving Repr, DecidableEq

/-- The end of a line that has 76 characters. -/
def endLine (state : State) (out : State → Bytes) : Bytes :=
  if 76 ≤ state.line then 10 :: out { state with line := 0 } else out state

/-- `pos` counts down from two, and a byte goes to the bits from `8 * pos` on. -/
def pgLoop (state : State) : Bytes → Bytes
  | [] =>
      if state.pos ≠ 2 then
        [digit state.buf 18, digit state.buf 12,
          if state.pos = 0 then digit state.buf 6 else 61, 61]
      else []
  | byte :: rest =>
      let buf := state.buf + byte.toNat * 2 ^ (8 * state.pos)
      if state.pos = 0 then
        digit buf 18 :: digit buf 12 :: digit buf 6 :: digit buf 0 ::
          endLine ⟨0, 2, state.line + 4⟩ fun state => pgLoop state rest
      else endLine ⟨buf, state.pos - 1, state.line⟩ fun state => pgLoop state rest

def pg_base64_encode (src : Bytes) : Bytes := pgLoop ⟨0, 2, 0⟩ src

/-! ## Base64 -/

/-- No digit is a newline or the padding. -/
theorem digit_ne (buf shift : Nat) : digit buf shift ≠ 10 ∧ digit buf shift ≠ 61 := by
  have table : ∀ n : Fin 64, alphabet[n.val]?.getD 0 ≠ 10 ∧ alphabet[n.val]?.getD 0 ≠ 61 := by
    decide +kernel
  exact table ⟨buf / 2 ^ shift % 64, Nat.mod_lt _ (by decide)⟩

theorem base64Encode_length : ∀ x : Bytes, (base64Encode x).length = (x.length + 2) / 3 * 4
  | [] => rfl
  | [_] => by simp [base64Encode]
  | [_, _] => by simp [base64Encode]
  | _ :: _ :: _ :: rest => by
      rw [base64Encode]
      simp only [List.length_cons]
      rw [base64Encode_length rest]
      omega

/-- Whole groups are encoded apart from what follows them. -/
theorem base64Encode_append (k : Nat) {x : Bytes} (whole : 3 * k ≤ x.length) :
    base64Encode x = base64Encode (x.take (3 * k)) ++ base64Encode (x.drop (3 * k)) := by
  induction k generalizing x with
  | zero => rfl
  | succ k ih =>
      match x, whole with
      | a :: b :: c :: rest, whole =>
          have short : 3 * k ≤ rest.length := by
            simp only [List.length_cons] at whole
            omega
          change base64Encode (a :: b :: c :: rest) =
            base64Encode (a :: b :: c :: rest.take (3 * k)) ++ base64Encode (rest.drop (3 * k))
          rw [base64Encode, base64Encode, ih short]
          rfl
      | [], whole => simp at whole
      | [_], whole => simp only [List.length_cons, List.length_nil] at whole; omega
      | [_, _], whole => simp only [List.length_cons, List.length_nil] at whole; omega

/-- What the encoding is made of: digits, and padding just where the last group is not whole. -/
theorem base64Encode_padding : ∀ x : Bytes, ∃ w pad, base64Encode x = w ++ pad ∧
    (∀ c ∈ w, c ≠ 10 ∧ c ≠ 61) ∧
    ((x.length % 3 = 0 ∧ pad = []) ∨ (x.length % 3 ≠ 0 ∧ (pad = [61] ∨ pad = [61, 61])))
  | [] => ⟨[], [], rfl, List.forall_mem_nil _, .inl ⟨rfl, rfl⟩⟩
  | [a] => by
      refine ⟨[digit (packed a 0 0) 18, digit (packed a 0 0) 12], [61, 61], rfl, ?_,
        .inr ⟨by simp, .inr rfl⟩⟩
      intro c mem
      simp only [List.mem_cons, List.not_mem_nil, or_false] at mem
      rcases mem with rfl | rfl
      · exact digit_ne _ _
      · exact digit_ne _ _
  | [a, b] => by
      refine ⟨[digit (packed a b 0) 18, digit (packed a b 0) 12, digit (packed a b 0) 6], [61], rfl,
        ?_, .inr ⟨by simp, .inl rfl⟩⟩
      intro c mem
      simp only [List.mem_cons, List.not_mem_nil, or_false] at mem
      rcases mem with rfl | rfl | rfl
      · exact digit_ne _ _
      · exact digit_ne _ _
      · exact digit_ne _ _
  | a :: b :: c :: rest => by
      obtain ⟨w, pad, encoded, digits, last⟩ := base64Encode_padding rest
      refine ⟨digit (packed a b c) 18 :: digit (packed a b c) 12 :: digit (packed a b c) 6 ::
        digit (packed a b c) 0 :: w, pad, ?_, ?_, ?_⟩
      · rw [base64Encode, encoded]
        rfl
      · intro d mem
        simp only [List.mem_cons] at mem
        rcases mem with rfl | rfl | rfl | rfl | mem
        · exact digit_ne _ _
        · exact digit_ne _ _
        · exact digit_ne _ _
        · exact digit_ne _ _
        · exact digits d mem
      · simp only [List.length_cons]
        have period : (rest.length + 1 + 1 + 1) % 3 = rest.length % 3 := by omega
        rw [period]
        exact last

/-! ## Lines of PostgreSQL -/

/-- A byte that does not end a group. -/
theorem pgLoop_byte {line : Nat} (short : line < 76) (buf pos : Nat) (byte : UInt8) (rest : Bytes) :
    pgLoop ⟨buf, pos + 1, line⟩ (byte :: rest) =
      pgLoop ⟨buf + byte.toNat * 2 ^ (8 * (pos + 1)), pos, line⟩ rest := by
  rw [pgLoop, if_neg (Nat.succ_ne_zero pos), endLine, if_neg (Nat.not_le.mpr short)]
  rfl

/-- The loop over a whole group. -/
theorem pgLoop_group {line : Nat} (short : line < 76) (a b c : UInt8) (rest : Bytes) :
    pgLoop ⟨0, 2, line⟩ (a :: b :: c :: rest) =
      digit (packed a b c) 18 :: digit (packed a b c) 12 :: digit (packed a b c) 6 ::
        digit (packed a b c) 0 :: endLine ⟨0, 2, line + 4⟩ fun state => pgLoop state rest := by
  have buf : 0 + a.toNat * 2 ^ (8 * (1 + 1)) + b.toNat * 2 ^ (8 * (0 + 1)) +
      c.toNat * 2 ^ (8 * 0) = packed a b c := by
    rw [packed]
    omega
  rw [pgLoop_byte short, pgLoop_byte short, pgLoop, if_pos rfl]
  dsimp only
  rw [buf]

/-- The loop over a group that is not whole. -/
theorem pgLoop_last {line : Nat} (short : line < 76) : ∀ {x : Bytes}, x.length < 3 →
    pgLoop ⟨0, 2, line⟩ x = base64Encode x
  | [], _ => by
      rw [pgLoop, base64Encode]
      rfl
  | [a], _ => by
      have buf : 0 + a.toNat * 2 ^ (8 * (1 + 1)) = packed a 0 0 := by
        rw [packed]
        change _ = a.toNat * 2 ^ 16 + 0 * 2 ^ 8 + 0
        omega
      rw [pgLoop_byte short, pgLoop, base64Encode, buf]
      rfl
  | [a, b], _ => by
      have buf : 0 + a.toNat * 2 ^ (8 * (1 + 1)) + b.toNat * 2 ^ (8 * (0 + 1)) = packed a b 0 := by
        rw [packed]
        change _ = a.toNat * 2 ^ 16 + b.toNat * 2 ^ 8 + 0
        omega
      rw [pgLoop_byte short, pgLoop_byte short, pgLoop, base64Encode, buf]
      rfl
  | _ :: _ :: _ :: _, last => by
      simp only [List.length_cons] at last
      omega

/-- The rest of a line with room for `k + 1` groups, and the lines behind it. -/
theorem pgLoop_line {k : Nat} (room : k < 19) (x : Bytes) :
    pgLoop ⟨0, 2, 76 - 4 * (k + 1)⟩ x =
      if 3 * (k + 1) ≤ x.length then
        base64Encode (x.take (3 * (k + 1))) ++ 10 :: pgLoop ⟨0, 2, 0⟩ (x.drop (3 * (k + 1)))
      else base64Encode x := by
  have short : 76 - 4 * (k + 1) < 76 := by omega
  induction k generalizing x with
  | zero =>
      by_cases last : x.length < 3
      · rw [if_neg (by omega)]
        exact pgLoop_last short last
      · match x, last with
        | a :: b :: c :: rest, _ =>
            rw [pgLoop_group short, endLine, if_pos (by decide), if_pos (by simp)]
            change _ = base64Encode [a, b, c] ++ 10 :: pgLoop ⟨0, 2, 0⟩ rest
            rw [base64Encode, base64Encode]
            rfl
        | [], last => exact absurd (by decide) last
        | [_], last => exact absurd (by simp) last
        | [_, _], last => exact absurd (by simp) last
  | succ k ih =>
      by_cases last : x.length < 3
      · rw [if_neg (by omega)]
        exact pgLoop_last short last
      · match x, last with
        | a :: b :: c :: rest, _ =>
            have line : 76 - 4 * (k + 1 + 1) + 4 = 76 - 4 * (k + 1) := by omega
            have step := ih (by omega) rest (by omega)
            rw [pgLoop_group short, endLine, if_neg (by dsimp only; omega), line, step]
            have groups : 3 * (k + 1 + 1) = 3 * (k + 1) + 1 + 1 + 1 := by omega
            by_cases full : 3 * (k + 1) ≤ rest.length
            · rw [if_pos full, if_pos (by simp only [List.length_cons]; omega), groups,
                List.take_succ_cons, List.take_succ_cons, List.take_succ_cons,
                List.drop_succ_cons, List.drop_succ_cons, List.drop_succ_cons, base64Encode]
              rfl
            · rw [if_neg full, if_neg (by simp only [List.length_cons]; omega), base64Encode]
        | [], last => exact absurd (by decide) last
        | [_], last => exact absurd (by simp) last
        | [_, _], last => exact absurd (by simp) last

/-- The first line of 76 characters, and the lines behind it. -/
theorem pg_base64_encode_line (x : Bytes) :
    pg_base64_encode x =
      if 57 ≤ x.length then base64Encode (x.take 57) ++ 10 :: pg_base64_encode (x.drop 57)
      else base64Encode x :=
  pgLoop_line (by decide : 18 < 19) x

/-! ## Lines of ClickHouse -/

/-- `replaceRegexpAll(s, '(.{76})', '\\1\n')`. -/
def breaks (s : Bytes) : Bytes :=
  replaceAll accepts ⟨[.repeated .dot 76], []⟩
    (fun group whole => Regex.chExpand (matched group whole) [92, 49, 10]) s

/-- `replaceRegexpAll(s, '(=+)\n$', '\\1')`. -/
def trims (s : Bytes) : Bytes :=
  replaceAll accepts ⟨[.plus (.char 61)], [.repeated (.char 10) 1, .finish]⟩
    (fun group whole => Regex.chExpand (matched group whole) [92, 49]) s

/-- A byte in the literals of the replacements. -/
def spelled (c : UInt8) : Bytes :=
  if c = 92 then [92, 92] else if c = 10 then [92, 110] else if c = 39 then [92, 39] else [c]

theorem spelled_spells (e : Escapes) (c : UInt8) : QuotedToken.Spells e 39 (spelled c) c := by
  unfold spelled
  by_cases slash : c = 92
  · rw [if_pos slash, slash]
    exact QuotedToken.spells_escaped (by decide)
      (QuotedToken.sequence_plain (by decide) rfl rfl)
  by_cases newline : c = 10
  · rw [if_neg slash, if_pos newline, newline]
    exact QuotedToken.spells_escaped (by decide) (QuotedToken.sequence_control (by decide) rfl)
  by_cases quote : c = 39
  · rw [if_neg slash, if_neg newline, if_pos quote, quote]
    exact QuotedToken.spells_escaped (by decide)
      (QuotedToken.sequence_plain (by decide) rfl rfl)
  · rw [if_neg slash, if_neg newline, if_neg quote]
    exact QuotedToken.spells_self slash quote

/-- A literal is the text it spells. -/
theorem unquote_spelled (e : Escapes) {literal : Bytes} (text : Bytes)
    (spells : literal = 39 :: (text.flatMap spelled ++ [39])) : unquote e literal = some text := by
  have read : token e 39 (39 :: (text.flatMap spelled ++ [39])) = some (text, []) :=
    QuotedToken.token_flatMap (spelled_spells e) (by decide) text (by decide)
  rw [unquote, spells, read]

theorem eval_mime (e : Escapes) (x : Bytes) :
    mime.eval e x = some (trims (breaks (base64Encode x))) := by
  have line : unquote e (ascii "'(.{76})'") = some (ascii "(.{76})") :=
    unquote_spelled e _ (by decide +kernel)
  have broken : unquote e (ascii "'\\\\1\\n'") = some [92, 49, 10] :=
    unquote_spelled e _ (by decide +kernel)
  have padding : unquote e (ascii "'(=+)\\n$'") = some (ascii "(=+)\n$") :=
    unquote_spelled e _ (by decide +kernel)
  have kept : unquote e (ascii "'\\\\1'") = some [92, 49] :=
    unquote_spelled e _ (by decide +kernel)
  have dots : readPattern (ascii "(.{76})") = some ⟨[.repeated .dot 76], []⟩ := by
    decide +kernel
  have pads : readPattern (ascii "(=+)\n$") =
      some ⟨[.plus (.char 61)], [.repeated (.char 10) 1, .finish]⟩ := by
    decide +kernel
  rw [mime, Expr.eval, Expr.eval, line, broken, padding, kept]
  change (replaceRegexpAll (base64Encode x) (ascii "(.{76})") [92, 49, 10] >>= fun s =>
    replaceRegexpAll s (ascii "(=+)\n$") [92, 49]) = _
  rw [replaceRegexpAll, dots]
  change replaceRegexpAll (breaks (base64Encode x)) (ascii "(=+)\n$") [92, 49] = _
  rw [replaceRegexpAll, pads]
  rfl

/-- The template of a line: the group and a newline. -/
theorem line_template (group whole : Bytes) :
    Regex.chExpand (matched group whole) [92, 49, 10] = group ++ [10] := by
  rw [Regex.chExpand, EscapeTemplate.expand_escape _ Regex.ch_doubled]
  rfl

/-- A text of less than a line. -/
theorem breaks_short {s : Bytes} (short : s.length < 76) : breaks s = s := by
  induction s with
  | nil => rfl
  | cons c rest ih =>
      have none : matchAt accepts ⟨[.repeated .dot 76], []⟩ (c :: rest) = none := by
        rw [PatternReplace.matchAt_repeated, if_neg (fun full => absurd short (by omega))]
      rw [breaks, PatternReplace.replaceAll_none none]
      exact congrArg (c :: ·) (ih (by rw [List.length_cons] at short; omega))

/-- The first line of a text without newlines. -/
theorem breaks_line {s : Bytes} (full : 76 ≤ s.length) (one : 10 ∉ s) :
    breaks s = s.take 76 ++ 10 :: breaks (s.drop 76) := by
  cases s with
  | nil => exact absurd full (by decide)
  | cons c rest =>
      have dots : ((c :: rest).take 76).all (accepts .dot) = true := by
        rw [List.all_eq_true]
        intro d mem
        have other : d ≠ 10 := fun h => one (h ▸ List.mem_of_mem_take mem)
        exact bne_iff_ne.mpr other
      have found : matchAt accepts ⟨[.repeated .dot 76], []⟩ (c :: rest) = some (76, 75 + 1) := by
        rw [PatternReplace.matchAt_repeated, if_pos ⟨full, dots⟩]
      have inside : 75 ≤ rest.length := by
        rw [List.length_cons] at full
        omega
      rw [breaks, PatternReplace.replaceAll_match found inside, line_template, List.append_assoc]
      rfl

/-- A text without padding stays. -/
theorem trims_append {w : Bytes} (s : Bytes) (digits : ∀ c ∈ w, c ≠ 61) :
    trims (w ++ s) = w ++ trims s := by
  apply PatternReplace.replaceAll_append
  intro c mem rest
  have other : accepts (.char 61) c = false := beq_eq_false_iff_ne.mpr (digits c mem)
  exact PatternReplace.matchAt_plus_none other _ _ rest

theorem base64Encode_ne_newline (x : Bytes) : 10 ∉ base64Encode x := by
  obtain ⟨w, pad, encoded, digits, last⟩ := base64Encode_padding x
  rw [encoded]
  intro mem
  rcases List.mem_append.mp mem with mem | mem
  · exact (digits 10 mem).1 rfl
  · rcases last with ⟨-, none⟩ | ⟨-, one | two⟩
    · rw [none] at mem
      cases mem
    · rw [one] at mem
      exact absurd mem (by decide)
    · rw [two] at mem
      exact absurd mem (by decide)

/-- PostgreSQL's lines are text without padding and at most two characters of padding; ClickHouse's
may have a newline behind the padding. -/
structure Lines (x w pad : Bytes) : Prop where
  encoded : pg_base64_encode x = w ++ pad
  digits : ∀ c ∈ w, c ≠ 61
  padded : pad = [] ∨ pad = [61] ∨ pad = [61, 61]
  broken : breaks (base64Encode x) = w ++ pad ∨
    (breaks (base64Encode x) = w ++ (pad ++ [10]) ∧ pad ≠ [])

/-- The last line, which has no whole 57 bytes. -/
theorem lines_last {x : Bytes} (short : x.length < 57) : ∃ w pad, Lines x w pad := by
  obtain ⟨w, pad, encoded, digits, last⟩ := base64Encode_padding x
  have length := base64Encode_length x
  have padded : pad = [] ∨ pad = [61] ∨ pad = [61, 61] := by
    rcases last with ⟨-, none⟩ | ⟨-, some⟩
    · exact .inl none
    · exact .inr some
  refine ⟨w, pad, ?_, fun c mem => (digits c mem).2, padded, ?_⟩
  · rw [pg_base64_encode_line, if_neg (by omega), encoded]
  · by_cases room : (base64Encode x).length < 76
    · exact .inl (by rw [breaks_short room, encoded])
    · right
      have whole : (base64Encode x).length = 76 := by omega
      refine ⟨?_, ?_⟩
      · rw [breaks_line (by omega) (base64Encode_ne_newline x),
          List.take_of_length_le (by omega), List.drop_of_length_le (by omega), encoded,
          List.append_assoc]
        rfl
      · rcases last with ⟨period, -⟩ | ⟨-, one | two⟩
        · omega
        · rw [one]
          decide
        · rw [two]
          decide

/-- A line of 57 bytes before other lines. -/
theorem lines_cons {x w pad : Bytes} (full : 57 ≤ x.length) (rest : Lines (x.drop 57) w pad) :
    ∃ w, Lines x w pad := by
  have taken : (x.take 57).length = 57 := by
    rw [List.length_take]
    omega
  have length : (base64Encode (x.take 57)).length = 76 := by
    rw [base64Encode_length, taken]
  obtain ⟨line, none, encoded, digits, last⟩ := base64Encode_padding (x.take 57)
  have whole : none = [] := by
    rcases last with ⟨-, whole⟩ | ⟨part, -⟩
    · exact whole
    · rw [taken] at part
      exact absurd rfl part
  rw [whole, List.append_nil] at encoded
  have text : base64Encode x = base64Encode (x.take 57) ++ base64Encode (x.drop 57) :=
    base64Encode_append 19 full
  have broken : breaks (base64Encode x) = line ++ 10 :: breaks (base64Encode (x.drop 57)) := by
    have line : 76 ≤ (base64Encode x).length := by
      rw [text, List.length_append]
      omega
    rw [breaks_line line (base64Encode_ne_newline x), text]
    rw [List.take_left' length, List.drop_left' length, encoded]
  refine ⟨line ++ 10 :: w, ?_, ?_, rest.padded, ?_⟩
  · rw [pg_base64_encode_line, if_pos full, rest.encoded, encoded, List.append_assoc,
      List.cons_append]
  · intro c mem
    rcases List.mem_append.mp mem with mem | mem
    · exact (digits c mem).2
    · rcases List.mem_cons.mp mem with rfl | mem
      · decide
      · exact rest.digits c mem
  · rw [broken, List.append_assoc, List.cons_append, List.append_assoc, List.cons_append]
    rcases rest.broken with same | ⟨newline, some⟩
    · exact .inl (by rw [same])
    · exact .inr ⟨by rw [newline], some⟩

theorem lines (x : Bytes) : ∃ w pad, Lines x w pad := by
  by_cases full : 57 ≤ x.length
  · obtain ⟨w, pad, rest⟩ := lines (x.drop 57)
    obtain ⟨w', more⟩ := lines_cons full rest
    exact ⟨w', pad, more⟩
  · exact lines_last (by omega)
termination_by x.length
decreasing_by
  rw [List.length_drop]
  omega

/-- The second replacement takes the newline behind the padding away, and nothing else. -/
theorem trims_breaks (x : Bytes) : trims (breaks (base64Encode x)) = pg_base64_encode x := by
  obtain ⟨w, pad, lines⟩ := lines x
  have kept : trims pad = pad := by
    rcases lines.padded with none | one | two
    · rw [none]
      rfl
    · rw [one]
      decide +kernel
    · rw [two]
      decide +kernel
  rw [lines.encoded]
  rcases lines.broken with same | ⟨newline, some⟩
  · rw [same, trims_append pad lines.digits, kept]
  · have trimmed : trims (pad ++ [10]) = pad := by
      rcases lines.padded with none | one | two
      · exact absurd none some
      · rw [one]
        decide +kernel
      · rw [two]
        decide +kernel
    rw [newline, trims_append _ lines.digits, trimmed]

/-- What is sent for `encode(x, 'base64')` has PostgreSQL's value, for all bytes. -/
theorem base64_exact (e : Escapes) {format : Bytes}
    (base64 : sameCaseless format (ascii "base64") = true) (x : Bytes) :
    shippable (some format) = true ∧
    (∃ pieces, deparseEncode format = some pieces ∧
      pieces.flatMap Piece.symbols = mime.symbols) ∧
    mime.eval e x = some (pg_base64_encode x) := by
  obtain ⟨shipped, printed⟩ := deparse_mime base64
  exact ⟨shipped, printed, by rw [eval_mime, trims_breaks]⟩

/-- Fifty-five bytes, whose line is full with its padding. -/
theorem base64_exact_full : mime.eval Escapes.kept (List.replicate 55 7) =
    some (pg_base64_encode (List.replicate 55 7)) := by
  have format : sameCaseless (ascii "Base64") (ascii "base64") = true := by
    decide +kernel
  exact (base64_exact Escapes.kept format (List.replicate 55 7)).2.2

end PgClickhouse.Encode

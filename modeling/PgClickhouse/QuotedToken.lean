import PgClickhouse.HttpText

/-!
# Quoted tokens

ClickHouse's SQL lexer cuts a quoted token at its closing quote, where a doubled quote and a
backslash with any byte behind it do not close it, and its parser then decodes what stands
between the quotes.  Nothing here names a program.

* `Spells`: a piece of text that both read as one byte, whatever follows.
* `token_flatMap`: an encoder that spells every byte so gives one token, which is the text.
-/

namespace QuotedToken

/-- What a backslash and a byte without a meaning of its own stand for. -/
structure Escapes where
  other : UInt8 → List UInt8
  other_eq : ∀ c, other c = [92, c] ∨ other c = [c]

/-- A backslash and such a byte are kept as they are. -/
def Escapes.kept : Escapes := ⟨fun c => [92, c], fun _ => .inl rfl⟩

/-- The byte that a letter stands for behind a backslash. -/
def control (c : UInt8) : Option UInt8 :=
  if c = 97 then some 7          -- a
  else if c = 98 then some 8     -- b
  else if c = 101 then some 27   -- e
  else if c = 102 then some 12   -- f
  else if c = 110 then some 10   -- n
  else if c = 114 then some 13   -- r
  else if c = 116 then some 9    -- t
  else if c = 118 then some 11   -- v
  else if c = 48 then some 0     -- 0
  else none

/-- The bytes that stand for themselves behind a backslash. -/
def plain (c : UInt8) : Bool :=
  c == 92 || c == 39 || c == 34 || c == 96 || c == 47 || c ≤ 31

/-- The number a hexadecimal digit stands for. -/
def unhex (c : UInt8) : UInt8 :=
  match HttpText.hexValue c with
  | some n => n.toUInt8
  | none => 255

variable (e : Escapes) (quote : UInt8)

/-- What a backslash and a byte other than `x` stand for. -/
def Escapes.sequence (c : UInt8) : List UInt8 :=
  if c = 78 then []
  else
    match control c with
    | some b => [b]
    | none => if plain c then [c] else e.other c

/-- Cut a text at the closing quote of the token it continues. -/
@[grind =] def cut : List UInt8 → Option (List UInt8 × List UInt8)
  | [] => none
  | [c] => if c = quote then some ([], []) else none
  | c :: d :: text =>
      if c = 92 then (cut text).map fun (content, rest) => (c :: d :: content, rest)
      else if c = quote then
        if d = quote then (cut text).map fun (content, rest) => (c :: d :: content, rest)
        else some ([], d :: text)
      else (cut (d :: text)).map fun (content, rest) => (c :: content, rest)

/-- Decode what stands between the quotes of a token. -/
@[grind =] def decode : List UInt8 → Option (List UInt8)
  | [] => some []
  | [c] => if c = 92 ∨ c = quote then none else some [c]
  | c :: d :: text =>
      if c = 92 then
        if d = 120 then
          match text with
          | h :: l :: text => (decode text).map ((unhex h * 16 + unhex l) :: ·)
          | _ => none
        else (decode text).map (e.sequence d ++ ·)
      else if c = quote then
        if d = quote then (decode text).map (quote :: ·) else none
      else (decode (d :: text)).map (c :: ·)

/-- The token at the front of a text, decoded, and the text behind it. -/
@[grind =] def token : List UInt8 → Option (List UInt8 × List UInt8)
  | [] => none
  | c :: text =>
      if c = quote then
        (cut quote text).bind fun (content, rest) =>
          (decode e quote content).map fun value => (value, rest)
      else none

/-- `spelled` is read as the byte `b` within a token, whatever follows. -/
structure Spells (spelled : List UInt8) (b : UInt8) : Prop where
  cut (rest : List UInt8) : cut quote (spelled ++ rest) =
    (QuotedToken.cut quote rest).map fun (content, rest) => (spelled ++ content, rest)
  decode (rest : List UInt8) :
    decode e quote (spelled ++ rest) = (QuotedToken.decode e quote rest).map (b :: ·)

variable {e quote}

theorem cut_cons {c : UInt8} (escape : c ≠ 92) (other : c ≠ quote) (text : List UInt8) :
    cut quote (c :: text) = (cut quote text).map fun (content, rest) => (c :: content, rest) := by
  rcases text with _ | ⟨d, text⟩
  · simp [cut, other]
  · rw [cut, if_neg escape, if_neg other]

theorem decode_cons {c : UInt8} (escape : c ≠ 92) (other : c ≠ quote) (text : List UInt8) :
    decode e quote (c :: text) = (decode e quote text).map (c :: ·) := by
  rcases text with _ | ⟨d, text⟩
  · simp [decode, escape, other]
  · rw [decode.eq_def]
    simp only [if_neg escape, if_neg other]

theorem spells_self {c : UInt8} (escape : c ≠ 92) (other : c ≠ quote) :
    Spells e quote [c] c where
  cut := cut_cons escape other
  decode := decode_cons escape other

/-- A doubled quote. -/
theorem spells_doubled (slash : quote ≠ 92) : Spells e quote [quote, quote] quote where
  cut rest := by
    change cut quote (quote :: quote :: rest) = _
    rw [cut, if_neg slash, if_pos rfl, if_pos rfl]
    rfl
  decode rest := by
    change decode e quote (quote :: quote :: rest) = _
    rw [decode.eq_def]
    simp only [if_neg slash, if_true]

/-- A backslash and a byte that has a meaning behind it. -/
theorem spells_escaped {c b : UInt8} (hex : c ≠ 120) (stands : e.sequence c = [b]) :
    Spells e quote [92, c] b where
  cut rest := by
    change cut quote (92 :: c :: rest) = _
    rw [cut, if_pos rfl]
    rfl
  decode rest := by
    change decode e quote (92 :: c :: rest) = _
    rw [decode.eq_def]
    simp only [if_true, if_neg hex, stands]
    rfl

theorem sequence_plain {c : UInt8} (named : c ≠ 78) (letter : control c = none)
    (stands : plain c = true) : e.sequence c = [c] := by
  rw [Escapes.sequence, if_neg named, letter]
  exact if_pos stands

theorem sequence_control {c b : UInt8} (named : c ≠ 78) (letter : control c = some b) :
    e.sequence c = [b] := by
  rw [Escapes.sequence, if_neg named, letter]

/-- A backslash, an `x` and two hexadecimal digits. -/
theorem spells_hex {h l : UInt8} (high : h ≠ 92 ∧ h ≠ quote) (low : l ≠ 92 ∧ l ≠ quote) :
    Spells e quote [92, 120, h, l] (unhex h * 16 + unhex l) where
  cut rest := by
    change cut quote (92 :: 120 :: h :: l :: rest) = _
    rw [cut, if_pos rfl, cut_cons high.1 high.2, cut_cons low.1 low.2]
    rcases cut quote rest with _ | _ <;> rfl
  decode rest := by
    change decode e quote (92 :: 120 :: h :: l :: rest) = _
    rw [decode, if_pos rfl, if_pos rfl]

section

variable {enc : UInt8 → List UInt8} (spells : ∀ b, Spells e quote (enc b) b)

include spells

theorem cut_flatMap (text rest : List UInt8) :
    cut quote (text.flatMap enc ++ rest) =
      (cut quote rest).map fun (content, rest) => (text.flatMap enc ++ content, rest) := by
  induction text with
  | nil =>
      rw [List.flatMap_nil, List.nil_append]
      rcases cut quote rest with _ | _ <;> rfl
  | cons b text ih =>
      rw [List.flatMap_cons, List.append_assoc, (spells b).cut, ih, Option.map_map]
      congr 1
      funext ⟨content, rest⟩
      simp

theorem decode_flatMap (text : List UInt8) :
    decode e quote (text.flatMap enc) = some text := by
  induction text with
  | nil => rfl
  | cons b text ih =>
      rw [List.flatMap_cons, (spells b).decode, ih]
      rfl

end

/-- The closing quote, unless another quote follows it. -/
theorem cut_quote (slash : quote ≠ 92) {rest : List UInt8} (single : rest.head? ≠ some quote) :
    cut quote (quote :: rest) = some ([], rest) := by
  rcases rest with _ | ⟨d, rest⟩
  · exact if_pos rfl
  · rw [cut, if_neg slash, if_pos rfl, if_neg fun same => single (congrArg some same)]

/-- An encoder that spells every byte gives one token, which is the text and ends with it. -/
theorem token_flatMap {enc : UInt8 → List UInt8} (spells : ∀ b, Spells e quote (enc b) b)
    (slash : quote ≠ 92) (text : List UInt8) {rest : List UInt8}
    (single : rest.head? ≠ some quote) :
    token e quote (quote :: (text.flatMap enc ++ quote :: rest)) = some (text, rest) := by
  have content : cut quote (text.flatMap enc ++ quote :: rest) =
      some (text.flatMap enc, rest) := by
    rw [cut_flatMap spells, cut_quote slash single]
    exact congrArg (fun content => some (content, rest)) (List.append_nil _)
  rw [token, if_pos rfl, content]
  change (decode e quote (text.flatMap enc)).map (fun value => (value, rest)) = _
  rw [decode_flatMap spells]
  rfl

/-- A text without backslashes and quotes needs no spelling. -/
theorem token_plain (slash : quote ≠ 92) {text : List UInt8}
    (bare : ∀ b ∈ text, b ≠ 92 ∧ b ≠ quote) {rest : List UInt8}
    (single : rest.head? ≠ some quote) :
    token e quote (quote :: (text ++ quote :: rest)) = some (text, rest) := by
  have content : cut quote (text ++ quote :: rest) = some (text, rest) ∧
      decode e quote text = some text := by
    induction text with
    | nil => exact ⟨cut_quote slash single, rfl⟩
    | cons b text ih =>
        obtain ⟨head, tail⟩ := List.forall_mem_cons.mp bare
        obtain ⟨closed, decoded⟩ := ih tail
        rw [List.cons_append, cut_cons head.1 head.2, closed, decode_cons head.1 head.2, decoded]
        exact ⟨rfl, rfl⟩
  rw [token, if_pos rfl, content.1]
  change (decode e quote text).map (fun value => (value, rest)) = _
  rw [content.2]
  rfl

/-- What stands before the closing quote is the content. -/
theorem eq_of_cut {text content rest : List UInt8}
    (closed : cut quote text = some (content, rest)) :
    text = content ++ quote :: rest := by
  fun_induction cut quote text generalizing content rest with
  | case1 => cases closed
  | case2 =>
      cases closed
      rfl
  | case3 => cases closed
  | case4 d text ih =>
      obtain ⟨⟨inner, left⟩, behind, same⟩ := Option.map_eq_some_iff.mp closed
      cases same
      exact congrArg (fun text => 92 :: d :: text) (ih behind)
  | case5 text escape ih =>
      obtain ⟨⟨inner, left⟩, behind, same⟩ := Option.map_eq_some_iff.mp closed
      cases same
      exact congrArg (fun text => quote :: quote :: text) (ih behind)
  | case6 =>
      cases closed
      rfl
  | case7 c d text escape other ih =>
      obtain ⟨⟨inner, left⟩, behind, same⟩ := Option.map_eq_some_iff.mp closed
      cases same
      exact congrArg (c :: ·) (ih behind)

/-! ## Identifiers -/

/-- The first byte of a bare identifier. -/
def wordStart (c : UInt8) : Bool := (97 ≤ c && c ≤ 122) || (65 ≤ c && c ≤ 90) || c == 95

def wordChar (c : UInt8) : Bool := wordStart c || (48 ≤ c && c ≤ 57) || c == 36

/-- The identifier at the front of a text, quoted or bare, and the text behind it. -/
@[grind =] def identifier (e : Escapes) : List UInt8 → Option (List UInt8 × List UInt8)
  | [] => none
  | c :: text =>
      if c = 34 ∨ c = 96 then token e c (c :: text)
      else if wordStart c then
        some ((c :: text).takeWhile wordChar, (c :: text).dropWhile wordChar)
      else none

/-- The text ends an identifier that stands before it. -/
def Delimits (rest : List UInt8) : Prop :=
  ∀ c ∈ rest.head?, wordChar c = false ∧ c ≠ 34 ∧ c ≠ 96

theorem delimits_nil : Delimits [] := nofun

theorem delimits_cons {c : UInt8} {rest : List UInt8}
    (delimiter : wordChar c = false ∧ c ≠ 34 ∧ c ≠ 96) : Delimits (c :: rest) := by
  rintro d same
  cases same
  exact delimiter

theorem identifier_quoted (quoted : quote = 34 ∨ quote = 96) (text : List UInt8) :
    identifier e (quote :: text) = token e quote (quote :: text) :=
  if_pos quoted

/-- A bare identifier. -/
theorem identifier_bare {c : UInt8} {name rest : List UInt8} (start : wordStart c = true)
    (word : ∀ d ∈ name, wordChar d = true) (delimits : Delimits rest) :
    identifier e (c :: name ++ rest) = some (c :: name, rest) := by
  have unquoted : ¬(c = 34 ∨ c = 96) := by
    rintro (rfl | rfl) <;> exact absurd start (by decide)
  have all : ∀ d ∈ c :: name, wordChar d = true := by
    intro d member
    rcases List.mem_cons.mp member with rfl | member
    · rw [wordChar, start]
      rfl
    · exact word d member
  rw [List.cons_append, identifier, if_neg unquoted, if_pos start, ← List.cons_append,
    List.takeWhile_append_of_pos all, List.dropWhile_append_of_pos all]
  rcases rest with _ | ⟨d, rest⟩
  · rw [List.takeWhile_nil, List.dropWhile_nil, List.append_nil]
  · have stop : ¬wordChar d = true := by
      rw [(delimits d rfl).1]
      exact Bool.false_ne_true
    rw [List.takeWhile_cons_of_neg stop, List.dropWhile_cons_of_neg stop, List.append_nil]

/-- The text of the identifier token at the front of a text, and the text behind it. -/
def lexeme : List UInt8 → Option (List UInt8 × List UInt8)
  | [] => none
  | c :: text =>
      if c = 34 ∨ c = 96 then
        (cut c text).map fun (content, rest) => (c :: (content ++ [c]), rest)
      else if wordStart c then
        some ((c :: text).takeWhile wordChar, (c :: text).dropWhile wordChar)
      else none

/-- An identifier that is read is the token there. -/
theorem lexeme_of_identifier {text name rest : List UInt8}
    (read : identifier e text = some (name, rest)) :
    ∃ raw, lexeme text = some (raw, rest) ∧ text = raw ++ rest := by
  rcases text with _ | ⟨c, text⟩
  · cases read
  rw [identifier] at read
  split at read
  · rename_i quoted
    rw [token, if_pos rfl] at read
    obtain ⟨⟨content, left⟩, closed, decoded⟩ := Option.bind_eq_some_iff.mp read
    obtain ⟨value, -, same⟩ := Option.map_eq_some_iff.mp decoded
    cases same
    refine ⟨c :: (content ++ [c]), ?_, ?_⟩
    · rw [lexeme, if_pos quoted, closed]
      rfl
    · rw [eq_of_cut closed]
      simp
  · rename_i unquoted
    split at read
    · rename_i start
      cases read
      refine ⟨(c :: text).takeWhile wordChar, ?_, List.takeWhile_append_dropWhile.symm⟩
      rw [lexeme, if_neg unquoted, if_pos start]
    · cases read

end QuotedToken

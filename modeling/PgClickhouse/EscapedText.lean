import PgClickhouse.HttpText

/-!
# Escaped and quoted text

How ClickHouse reads a field in which a backslash starts an escape sequence: a TSV field,
where the field `\N` is NULL, and a string in single quotes.  Nothing here names a program.

* `unescape_flatMap`, `readQuoted_flatMap`: an encoder that spells every byte so that the
  reader gets that byte back delivers every text.
-/

namespace EscapedText

/-- The byte that a letter stands for after a backslash. -/
def letter (c : UInt8) : Option UInt8 :=
  if c = 97 then some 7          -- a
  else if c = 98 then some 8     -- b
  else if c = 116 then some 9    -- t
  else if c = 110 then some 10   -- n
  else if c = 118 then some 11   -- v
  else if c = 102 then some 12   -- f
  else if c = 114 then some 13   -- r
  else if c = 101 then some 27   -- e
  else if c = 48 then some 0     -- 0
  else if c = 92 ∨ c = 39 ∨ c = 34 ∨ c = 96 ∨ c = 47 then some c
  else none

/-- What the text after a backslash stands for, and how many bytes of it that takes.  An
`N` stands for nothing, and an unknown letter for itself and the backslash. -/
@[grind =] def sequence : List UInt8 → List UInt8 × Nat
  | [] => ([92], 0)
  | c :: text =>
      if c = 78 then ([], 1)
      else if c = 120 then
        match HttpText.hexPair text with
        | some b => ([b], 3)
        | none => ([92, c], 1)
      else
        match letter c with
        | some b => ([b], 1)
        | none => ([92, c], 1)

/-- Read a text after `skip` more bytes. -/
@[grind =] def unescapeFrom : Nat → List UInt8 → List UInt8
  | _, [] => []
  | skip + 1, _ :: text => unescapeFrom skip text
  | 0, b :: text =>
      if b = 92 then (sequence text).1 ++ unescapeFrom (sequence text).2 text
      else b :: unescapeFrom 0 text

def unescape (text : List UInt8) : List UInt8 := unescapeFrom 0 text

/-- Read a TSV field; `none` is NULL. -/
def readField (text : List UInt8) : Option (List UInt8) :=
  if text = [92, 78] then none else some (unescape text)

/-- Read a quoted text after `skip` more bytes, up to its quote, which ends it all. -/
@[grind =] def quotedFrom : Nat → List UInt8 → Option (List UInt8)
  | _, [] => none
  | skip + 1, _ :: text => quotedFrom skip text
  | 0, b :: text =>
      if b = 39 then if text = [] then some [] else none
      else if b = 92 then
        (quotedFrom (sequence text).2 text).map ((sequence text).1 ++ ·)
      else (quotedFrom 0 text).map (b :: ·)

/-- Read a string in single quotes. -/
def readQuoted : List UInt8 → Option (List UInt8)
  | [] => none
  | b :: text => if b = 39 then quotedFrom 0 text else none

/-- `spelled` is read as the byte `b`, whatever follows. -/
def Spells (spelled : List UInt8) (b : UInt8) : Prop :=
  ∀ rest, unescapeFrom 0 (spelled ++ rest) = b :: unescapeFrom 0 rest

/-- `spelled` is read as the byte `b` between quotes, whatever follows. -/
def SpellsQuoted (spelled : List UInt8) (b : UInt8) : Prop :=
  ∀ rest, quotedFrom 0 (spelled ++ rest) = (quotedFrom 0 rest).map (b :: ·)

theorem spells_plain {b : UInt8} (plain : b ≠ 92) : Spells [b] b := by
  intro rest
  simp [unescapeFrom, plain]

theorem spellsQuoted_plain {b : UInt8} (plain : b ≠ 92) (quote : b ≠ 39) :
    SpellsQuoted [b] b := by
  intro rest
  simp [quotedFrom, plain, quote]

/-- A backslash and a letter. -/
theorem spells_letter {c b : UInt8} (stands : letter c = some b) : Spells [92, c] b := by
  have notN : c ≠ 78 := by
    intro same
    rw [same] at stands
    cases stands
  have notX : c ≠ 120 := by
    intro same
    rw [same] at stands
    cases stands
  intro rest
  simp [unescapeFrom, sequence, notN, notX, stands]

theorem spellsQuoted_letter {c b : UInt8} (stands : letter c = some b) :
    SpellsQuoted [92, c] b := by
  have notN : c ≠ 78 := by
    intro same
    rw [same] at stands
    cases stands
  have notX : c ≠ 120 := by
    intro same
    rw [same] at stands
    cases stands
  intro rest
  simp [quotedFrom, sequence, notN, notX, stands]

/-- A backslash, an `x` and two hexadecimal digits. -/
theorem spellsQuoted_hex {h l b : UInt8}
    (stands : ∀ rest, HttpText.hexPair (h :: l :: rest) = some b) :
    SpellsQuoted [92, 120, h, l] b := by
  intro rest
  simp [quotedFrom, sequence, stands]

theorem unescape_flatMap {enc : UInt8 → List UInt8} (spells : ∀ b, Spells (enc b) b)
    (text : List UInt8) : unescape (text.flatMap enc) = text := by
  induction text with
  | nil => rfl
  | cons b text ih =>
      rw [List.flatMap_cons, unescape, spells b]
      exact congrArg (b :: ·) ih

/-- A text without a backslash is read as it is. -/
theorem unescape_plain {text : List UInt8} (plain : (92 : UInt8) ∉ text) :
    unescape text = text := by
  induction text with
  | nil => rfl
  | cons b text ih =>
      obtain ⟨head, tail⟩ := List.ne_and_not_mem_of_not_mem_cons plain
      rw [unescape, ← List.singleton_append, spells_plain (Ne.symm head)]
      exact congrArg (b :: ·) (ih tail)

theorem readQuoted_flatMap {enc : UInt8 → List UInt8} (spells : ∀ b, SpellsQuoted (enc b) b)
    (text : List UInt8) : readQuoted (39 :: (text.flatMap enc ++ [39])) = some text := by
  rw [readQuoted, if_pos rfl]
  induction text with
  | nil => rfl
  | cons b text ih => rw [List.flatMap_cons, List.append_assoc, spells b, ih, Option.map_some]

end EscapedText

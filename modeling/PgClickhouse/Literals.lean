import PgClickhouse.Basic
import PgClickhouse.QuotedToken

/-!
# String literals

Constants are printed in single quotes: texts with their quotes and backslashes doubled,
byte strings with everything but printable ASCII as `\xHH`.

* `literals_read_back`: both are one token that is the text, and the bytes written fit into
  the room reserved for them.
-/

namespace PgClickhouse

open QuotedToken (Escapes Spells token)

/-! ## Encoders -/

/-- `SQL_STR_DOUBLE(ch, true)`. -/
def SQL_STR_DOUBLE (ch : UInt8) : Bool := ch == 39 || ch == 92

/-- The bytes written for one byte of a text. -/
def double_byte (c : UInt8) : Bytes := if SQL_STR_DOUBLE c then [c, c] else [c]

/-- The bytes written at `dst`. -/
def ch_quote_literal_internal (src : Bytes) : Bytes := 39 :: (src.flatMap double_byte ++ [39])

/-- The bytes `deparseByteaLiteral` writes for one byte. -/
def bytea_byte (c : UInt8) : Bytes :=
  if c = 39 then [92, 39]
  else if c = 92 then [92, 92]
  else if 0x20 ≤ c ∧ c ≤ 0x7E then [c]
  else [92, 120, HttpText.hexDigit (c.toNat / 16), HttpText.hexDigit (c.toNat % 16)]

theorem double_byte_length_le (c : UInt8) : (double_byte c).length ≤ 2 := by
  unfold double_byte
  split <;> simp

theorem ch_quote_literal_internal_length_le (src : Bytes) :
    (ch_quote_literal_internal src).length ≤ src.length * 2 + 2 := by
  have content : (src.flatMap double_byte).length ≤ src.length * 2 := by
    induction src with
    | nil => exact le_rfl
    | cons c src ih =>
        have head := double_byte_length_le c
        rw [List.flatMap_cons, List.length_append, List.length_cons]
        omega
  rw [ch_quote_literal_internal, List.length_cons, List.length_append, List.length_singleton]
  omega

/-! ## Buffers -/

/-- A buffer of `maxlen` bytes, with room for a terminator behind its text. -/
structure StringInfo where
  data : Bytes
  maxlen : Nat
  fits : data.length < maxlen

/-- `enlargeStringInfo`: the size of a buffer with room for `needed` more bytes. -/
abbrev Enlarge := ∀ (buf : StringInfo) (needed : Nat),
  { maxlen : Nat // buf.data.length + needed < maxlen }

variable (enlarge : Enlarge)

def appendStringInfoString (buf : StringInfo) (s : Bytes) : StringInfo where
  data := buf.data ++ s
  maxlen := (enlarge buf s.length).val
  fits := by
    rw [List.length_append]
    exact (enlarge buf s.length).property

/-- A literal in memory of its own. -/
def ch_quote_literal (rawstr : Bytes) : StringInfo where
  data := ch_quote_literal_internal rawstr
  maxlen := rawstr.length * 2 + 3
  fits := Nat.lt_succ_of_le (ch_quote_literal_internal_length_le rawstr)

/-- Append a text as a literal. -/
def ch_append_literal (buf : StringInfo) (s : Bytes) : StringInfo where
  data := buf.data ++ ch_quote_literal_internal s
  maxlen := (enlarge buf (s.length * 2 + 2)).val
  fits := by
    have room := (enlarge buf (s.length * 2 + 2)).property
    have written := ch_quote_literal_internal_length_le s
    rw [List.length_append]
    omega

/-- Append a byte string as a literal. -/
def deparseByteaLiteral (buf : StringInfo) (bytes : Bytes) : StringInfo :=
  appendStringInfoString enlarge
    (bytes.foldl (fun buf c => appendStringInfoString enlarge buf (bytea_byte c))
      (appendStringInfoString enlarge buf [39]))
    [39]

theorem deparseByteaLiteral_data (buf : StringInfo) (bytes : Bytes) :
    (deparseByteaLiteral enlarge buf bytes).data =
      buf.data ++ 39 :: (bytes.flatMap bytea_byte ++ [39]) := by
  have loop (buf : StringInfo) :
      (bytes.foldl (fun buf c => appendStringInfoString enlarge buf (bytea_byte c)) buf).data =
        buf.data ++ bytes.flatMap bytea_byte := by
    induction bytes generalizing buf with
    | nil => exact (List.append_nil _).symm
    | cons c bytes ih =>
        rw [List.foldl_cons, ih, List.flatMap_cons, ← List.append_assoc]
        rfl
  change (bytes.foldl _ (appendStringInfoString enlarge buf [39])).data ++ [39] = _
  rw [loop]
  change (buf.data ++ [39]) ++ bytes.flatMap bytea_byte ++ [39] = _
  simp

/-! ## Reading back -/

variable (e : Escapes)

theorem double_byte_spells (c : UInt8) : Spells e 39 (double_byte c) c := by
  unfold double_byte SQL_STR_DOUBLE
  by_cases quote : c = 39
  · rw [quote]
    exact QuotedToken.spells_doubled (by decide)
  by_cases slash : c = 92
  · rw [slash]
    exact QuotedToken.spells_escaped (by decide)
      (QuotedToken.sequence_plain (by decide) rfl rfl)
  · rw [if_neg (by simp [quote, slash])]
    exact QuotedToken.spells_self slash quote

theorem hexDigit_spelled (n : Fin 16) : HttpText.hexDigit n ≠ 92 ∧ HttpText.hexDigit n ≠ 39 ∧
    QuotedToken.unhex (HttpText.hexDigit n) = n.val.toUInt8 := by
  revert n
  decide +kernel

theorem unhex_hexDigits (c : UInt8) :
    QuotedToken.unhex (HttpText.hexDigit (c.toNat / 16)) * 16 +
      QuotedToken.unhex (HttpText.hexDigit (c.toNat % 16)) = c := by
  have below := c.toNat_lt
  obtain ⟨-, -, high⟩ := hexDigit_spelled ⟨c.toNat / 16, by omega⟩
  obtain ⟨-, -, low⟩ := hexDigit_spelled ⟨c.toNat % 16, by omega⟩
  have sixteen : (16 : UInt8).toNat = 16 := rfl
  rw [high, low]
  apply UInt8.toNat_inj.mp
  rw [UInt8.toNat_add, UInt8.toNat_mul, sixteen]
  simp only [Nat.toUInt8_eq, UInt8.toNat_ofNat']
  omega

theorem bytea_byte_spells (c : UInt8) : Spells e 39 (bytea_byte c) c := by
  unfold bytea_byte
  by_cases quote : c = 39
  · rw [if_pos quote, quote]
    exact QuotedToken.spells_escaped (by decide)
      (QuotedToken.sequence_plain (by decide) rfl rfl)
  by_cases slash : c = 92
  · rw [if_neg quote, if_pos slash, slash]
    exact QuotedToken.spells_escaped (by decide)
      (QuotedToken.sequence_plain (by decide) rfl rfl)
  rw [if_neg quote, if_neg slash]
  by_cases printable : 0x20 ≤ c ∧ c ≤ 0x7E
  · rw [if_pos printable]
    exact QuotedToken.spells_self slash quote
  · rw [if_neg printable]
    have below := c.toNat_lt
    obtain ⟨high, high', -⟩ := hexDigit_spelled ⟨c.toNat / 16, by omega⟩
    obtain ⟨low, low', -⟩ := hexDigit_spelled ⟨c.toNat % 16, by omega⟩
    have spelled := QuotedToken.spells_hex (e := e) ⟨high, high'⟩ ⟨low, low'⟩
    rwa [unhex_hexDigits] at spelled

/-- Every printed text is one token that is the text and ends with its last byte, and with its
terminator it fits into the room reserved for it. -/
theorem literals_read_back (buf : StringInfo) (text rest : Bytes)
    (single : rest.head? ≠ some 39) :
    (∃ literal, (ch_quote_literal text).data = literal ∧
      (ch_append_literal enlarge buf text).data = buf.data ++ literal ∧
      token e 39 (literal ++ rest) = some (text, rest)) ∧
    (∃ literal, (deparseByteaLiteral enlarge buf text).data = buf.data ++ literal ∧
      token e 39 (literal ++ rest) = some (text, rest)) ∧
    ((ch_quote_literal text).data ++ [0]).length ≤ (ch_quote_literal text).maxlen ∧
    ((ch_append_literal enlarge buf text).data ++ [0]).length ≤
      (ch_append_literal enlarge buf text).maxlen ∧
    ((deparseByteaLiteral enlarge buf text).data ++ [0]).length ≤
      (deparseByteaLiteral enlarge buf text).maxlen := by
  have room (buf : StringInfo) : (buf.data ++ [0]).length ≤ buf.maxlen := by
    rw [List.length_append]
    exact buf.fits
  refine ⟨⟨ch_quote_literal_internal text, rfl, rfl, ?_⟩,
    ⟨39 :: (text.flatMap bytea_byte ++ [39]), deparseByteaLiteral_data enlarge buf text, ?_⟩,
    room _, room _, room _⟩
  · rw [ch_quote_literal_internal, List.cons_append, List.append_assoc]
    exact QuotedToken.token_flatMap (double_byte_spells e) (by decide) text single
  · rw [List.cons_append, List.append_assoc]
    exact QuotedToken.token_flatMap (bytea_byte_spells e) (by decide) text single

/-- Doubling is enough of an enlargement. -/
def doubled : Enlarge := fun buf needed => ⟨2 * (buf.data.length + needed) + 1, by omega⟩

/-- A quote, a backslash and a zero byte before a digit. -/
theorem literals_read_back_bytes :
    token Escapes.kept 39 ((deparseByteaLiteral doubled ⟨[], 1, by decide⟩ [39, 92, 0, 52]).data ++
      [32]) = some ([39, 92, 0, 52], [32]) := by
  obtain ⟨-, ⟨literal, data, read⟩, -⟩ := literals_read_back doubled Escapes.kept
    ⟨[], 1, by decide⟩ [39, 92, 0, 52] [32] (by decide)
  rw [data]
  exact read

end PgClickhouse

import Mathlib.Algebra.Ring.Nat
import Mathlib.Data.List.Nodup
import PgClickhouse.BinaryQuery
import PgClickhouse.EscapedText
import PgClickhouse.HttpRequest
import PgClickhouse.Keyed

/-!
# Delivery of query parameters

A parameter passes through the encoder of its type and then through the quoting of its
driver.  The HTTP driver sends one part of a form for each parameter, which the server
reads as a TSV field; the binary driver sends a quoted string, in which the server finds
the TSV field.

* `form_param`, `native_param`: what the server reads as a parameter.
* `ch_escape_string_delivered`: either driver's form of an escaped text is read as the text.
* `params_survive_iff`: every value arrives as it is exactly if none of them is NULL,
  because either driver delivers a NULL as the empty text.
-/

namespace PgClickhouse

/-! ## Encoders -/

/-- A C string: no byte of it is the terminator. -/
abbrev CString := { text : Bytes // (0 : UInt8) ∉ text }

/-- The bytes `ch_escape_string` writes for a byte. -/
def escape_byte (c : UInt8) : Bytes :=
  if c = 39 then [92, 39]          -- '
  else if c = 92 then [92, 92]     -- \
  else if c = 8 then [92, 98]      -- \b
  else if c = 12 then [92, 102]    -- \f
  else if c = 13 then [92, 114]    -- \r
  else if c = 10 then [92, 110]    -- \n
  else if c = 9 then [92, 116]     -- \t
  else if c = 0 then [92, 48]      -- \0
  else if c = 7 then [92, 97]      -- \a
  else if c = 11 then [92, 118]    -- \v
  else [c]

/-- An escaped byte ends neither a C string nor a TSV field. -/
theorem not_mem_escape_byte (c : UInt8) :
    ∀ ending ∈ ([0, 9, 10] : Bytes), ending ∉ escape_byte c := by
  fun_cases escape_byte c
  all_goals simp only [List.mem_cons, List.not_mem_nil, or_false, forall_eq_or_imp, forall_eq]
  any_goals decide
  next newline tab zero _ _ => exact ⟨Ne.symm zero, Ne.symm tab, Ne.symm newline⟩

theorem zero_not_mem_escape_byte (c : UInt8) : (0 : UInt8) ∉ escape_byte c :=
  not_mem_escape_byte c 0 List.mem_cons_self

def ch_escape_string (text : Bytes) : CString :=
  ⟨text.flatMap escape_byte, by simp [List.mem_flatMap, zero_not_mem_escape_byte]⟩

/-- A value the encoder knows how to print.  Texts, names, JSON, bit strings, UUIDs,
addresses and byte strings are escaped; numbers, dates, times and intervals print without
a backslash.  An array or a vector is a literal in brackets, which is sent as it is. -/
inductive ParamDatum
  | text (bytes : Bytes)
  | printed (plain : { bytes : Bytes // (0 : UInt8) ∉ bytes ∧ (92 : UInt8) ∉ bytes })
  | literal (sent : { bytes : Bytes // (0 : UInt8) ∉ bytes ∧ bytes.head? = some 91 })

/-- The text a value stands for.  Of a literal the escape sequences are those of a field. -/
def ParamDatum.value : ParamDatum → Bytes
  | .text bytes => bytes
  | .printed plain => plain.val
  | .literal sent => EscapedText.unescape sent.val

def chfdw_datum_to_ch_literal : ParamDatum → CString
  | .text bytes => ch_escape_string bytes
  | .printed plain => ⟨plain.val, plain.property.1⟩
  | .literal sent => ⟨sent.val, sent.property.1⟩

/-- The values of the parameters of a query, at most as many as an `int` counts. -/
abbrev ParamValues := { values : List (Option ParamDatum) // values.length < 2 ^ 31 }

/-- The texts of the values; a NULL is a null pointer. -/
def process_query_params (values : ParamValues) : List (Option Bytes) :=
  values.val.map (Option.map fun value => (chfdw_datum_to_ch_literal value).val)

/-! ## Drivers -/

/-- A parameter of a query packet. -/
structure chc_query_param where
  name : Bytes
  value : Bytes
  deriving Repr, DecidableEq

/-- The bytes the binary driver writes for a byte. -/
def quote_byte (c : UInt8) : Bytes :=
  if c = 0 then ascii "\\x00"
  else if c = 8 then ascii "\\x08"
  else if c = 9 then ascii "\\t"
  else if c = 10 then ascii "\\n"
  else if c = 39 then ascii "\\x27"
  else if c = 92 then ascii "\\\\"
  else [c]

/-- `snprintf` into `char nm[32]`. -/
def param_name (i : Nat) : Bytes := (ascii "p" ++ decimal (i + 1)).take 31

/-- The parameters the binary driver sends. -/
def ch_binary_query_params (query : ch_query) : List chc_query_param :=
  query.param_values.mapIdx fun i raw =>
    ⟨param_name i,
      match raw with
      | some raw => 39 :: (raw.flatMap quote_byte ++ [39])
      | none => ascii "'\\N'"⟩

/-! ## Server -/

/-- What the server reads of parameter `n` in a form, where a part without data is empty:
nothing if there is no such part, else NULL or a text. -/
def form_param (n : Nat) : PostBody → Option (Option Bytes)
  | .fields _ => none
  | .form parts =>
      (Keyed.find Prod.fst (ascii "param_p" ++ decimal n) parts).map fun part =>
        EscapedText.readField (part.2.getD [])

/-- What the server reads of parameter `n` in a query packet. -/
def native_param (n : Nat) (params : List chc_query_param) : Option (Option Bytes) :=
  (Keyed.find chc_query_param.name (ascii "p" ++ decimal n) params).bind fun param =>
    (EscapedText.readQuoted param.value).map EscapedText.readField

/-! ## Names -/

theorem decimal_eq (n : Nat) : decimal n = (Nat.toDigits 10 n).map fun c => c.toNat.toUInt8 := by
  rw [decimal, ascii, ← Nat.toList_repr]
  rfl

/-- The digits of a number can be read back. -/
theorem decimal_injective {m n : Nat} (same : decimal m = decimal n) : m = n := by
  have back (k : Nat) : (decimal k).map (fun b => Char.ofNat b.toNat) = Nat.toDigits 10 k := by
    rw [decimal_eq, List.map_map]
    refine (List.map_congr_left ?_).trans (List.map_id _)
    intro c member
    have digit := Nat.isDigit_of_mem_toDigits (by decide) (by decide) member
    have small : c.toNat < 256 := by
      simp only [Char.isDigit, Bool.and_eq_true, decide_eq_true_eq] at digit
      have bound := UInt32.le_iff_toNat_le.mp digit.2
      change c.val.toNat ≤ 57 at bound
      change c.val.toNat < 256
      omega
    simp [Nat.mod_eq_of_lt small]
  have digits : Nat.toDigits 10 m = Nat.toDigits 10 n := by rw [← back m, ← back n, same]
  rw [← Nat.ofDigitChars_toDigits (b := 10) (n := m) (by decide) (by decide), digits,
    Nat.ofDigitChars_toDigits (by decide) (by decide)]

/-- A number an `int` counts to takes at most ten digits. -/
theorem decimal_length_le {n : Nat} (bound : n < 10 ^ 10) : (decimal n).length ≤ 10 := by
  rw [decimal_eq, List.length_map]
  exact (Nat.length_toDigits_le_iff (by decide) (by decide)).mpr bound

theorem prefixed_decimal_injective (before : Bytes) :
    Function.Injective fun i : Nat => before ++ decimal ((i : Int) + 1) := by
  intro m n same
  have numbers : decimal ((m + 1 : Nat) : Int) = decimal ((n + 1 : Nat) : Int) :=
    List.append_cancel_left same
  have := decimal_injective numbers
  omega

/-! ## Bytes -/

theorem escape_byte_spells (c : UInt8) : EscapedText.Spells (escape_byte c) c := by
  fun_cases escape_byte c
  all_goals subst_vars
  any_goals exact EscapedText.spells_letter rfl
  exact EscapedText.spells_plain ‹_›

theorem quote_byte_spells (c : UInt8) : EscapedText.SpellsQuoted (quote_byte c) c := by
  fun_cases quote_byte c
  all_goals subst_vars
  · exact EscapedText.spellsQuoted_hex fun _ => rfl
  · exact EscapedText.spellsQuoted_hex fun _ => rfl
  · exact EscapedText.spellsQuoted_letter rfl
  · exact EscapedText.spellsQuoted_letter rfl
  · exact EscapedText.spellsQuoted_hex fun _ => rfl
  · exact EscapedText.spellsQuoted_letter rfl
  · exact EscapedText.spellsQuoted_plain ‹_› ‹_›

/-- Every byte of the text of a value that starts an escape sequence is escaped. -/
theorem unescape_literal (value : ParamDatum) :
    EscapedText.unescape (chfdw_datum_to_ch_literal value).val = value.value := by
  cases value with
  | text bytes => exact EscapedText.unescape_flatMap escape_byte_spells bytes
  | printed plain => exact EscapedText.unescape_plain plain.property.2
  | literal sent => rfl

theorem readField_literal (value : ParamDatum) :
    EscapedText.readField (chfdw_datum_to_ch_literal value).val = some value.value := by
  have text := unescape_literal value
  unfold EscapedText.readField
  split
  · rename_i null
    -- the value would be empty, and its text is then not `\N`
    rw [null] at text
    cases value with
    | text bytes =>
        have empty : bytes = [] := text.symm
        rw [empty] at null
        cases null
    | printed plain =>
        have empty : plain.val = [] := text.symm
        have same : plain.val = [92, 78] := null
        rw [empty] at same
        cases same
    | literal sent =>
        have same : sent.val = [92, 78] := null
        have bracket := sent.property.2
        rw [same] at bracket
        cases bracket
  · rw [text]

/-! ## What arrives -/

section Delivery

variable (t : CurlUrl) (conn : ch_http_connection_t) (query_id : QueryId) (overrides : kv_list)
  (stream_chunks : Bool) (sql : Bytes) (settings : kv_list) (values : ParamValues)

/-- The query with its parameters. -/
def paramQuery : ch_query := ⟨sql, process_query_params values, settings, none⟩

/-- The form the HTTP driver posts. -/
def paramForm : PostBody :=
  (setup_curl t conn ⟨paramQuery sql settings values, overrides, stream_chunks⟩ query_id).post

theorem short_name {n : Nat} (below : n < values.val.length) :
    (decimal ((n : Int) + 1)).length ≤ 10 := by
  have bound := values.property
  exact decimal_length_le (n := n + 1) (by omega)

theorem find_part (n : Nat) :
    Keyed.find Prod.fst (ascii "param_p" ++ decimal ((n : Int) + 1))
        ((ascii "query", some sql) :: (process_query_params values).mapIdx fun i value =>
          (temp_buf (ascii "param_p" ++ decimal (i + 1)), value)) =
      (process_query_params values)[n]?.map fun value =>
        (temp_buf (ascii "param_p" ++ decimal ((n : Int) + 1)), value) := by
  rw [Keyed.find_cons_of_ne (by simp [ascii])]
  refine Keyed.find_mapIdx _ _ ?_ (prefixed_decimal_injective (ascii "param_p")) n
  intro i _ below
  have digits := short_name values (n := i) (by simpa [process_query_params] using below)
  refine List.take_of_length_le ?_
  rw [List.length_append]
  have before : (ascii "param_p").length = 7 := by decide
  omega

theorem find_param (n : Nat) :
    Keyed.find chc_query_param.name (ascii "p" ++ decimal ((n : Int) + 1))
        (ch_binary_query_params (paramQuery sql settings values)) =
      (process_query_params values)[n]?.map fun raw =>
        ⟨param_name n, match raw with
          | some raw => 39 :: (raw.flatMap quote_byte ++ [39])
          | none => ascii "'\\N'"⟩ := by
  refine Keyed.find_mapIdx _ _ ?_ (prefixed_decimal_injective (ascii "p")) n
  intro i _ below
  have digits := short_name values (n := i)
    (by simpa [process_query_params, paramQuery] using below)
  refine List.take_of_length_le ?_
  rw [List.length_append]
  have before : (ascii "p").length = 1 := by decide
  omega

/-- The server reads a value as it is and a NULL as the empty text. -/
theorem form_param_eq {n : Nat} {value : Option ParamDatum} (given : values.val[n]? = some value) :
    form_param (n + 1) (paramForm t conn query_id overrides stream_chunks sql settings values) =
      some (some ((value.map ParamDatum.value).getD [])) := by
  have sent : process_query_params values ≠ [] := by
    intro none
    have length := congrArg List.length none
    have below := (List.getElem?_eq_some_iff.mp given).1
    simp only [process_query_params, List.length_map, List.length_nil] at length
    omega
  have posted : paramForm t conn query_id overrides stream_chunks sql settings values =
      .form ((ascii "query", some sql) :: (process_query_params values).mapIdx fun i value =>
        (temp_buf (ascii "param_p" ++ decimal (i + 1)), value)) :=
    if_neg sent
  rw [posted, form_param, Int.natCast_succ, find_part, process_query_params,
    List.getElem?_map, given]
  cases value with
  | none => rfl
  | some value => simp [readField_literal]

/-- Between quotes, a backslash and an `N` stand for nothing. -/
theorem read_null : (EscapedText.readQuoted (ascii "'\\N'")).map EscapedText.readField =
    some (some []) := by
  decide

theorem native_param_eq {n : Nat} {value : Option ParamDatum}
    (given : values.val[n]? = some value) :
    native_param (n + 1) (ch_binary_query_params (paramQuery sql settings values)) =
      some (some ((value.map ParamDatum.value).getD [])) := by
  rw [native_param, Int.natCast_succ, find_param, process_query_params, List.getElem?_map,
    given]
  cases value with
  | none => exact read_null
  | some value => simp [EscapedText.readQuoted_flatMap quote_byte_spells, readField_literal]

/-- The server reads every parameter of the list as its value, and NULL as NULL. -/
def ParamsSurvive : Prop :=
  ∀ n value, values.val[n]? = some value →
    form_param (n + 1)
        (paramForm t conn query_id overrides stream_chunks sql settings values) =
      some (value.map ParamDatum.value) ∧
    native_param (n + 1) (ch_binary_query_params (paramQuery sql settings values)) =
      some (value.map ParamDatum.value)

/-- On both drivers every value arrives as it is exactly if none of them is NULL. -/
theorem params_survive_iff :
    ParamsSurvive t conn query_id overrides stream_chunks sql settings values ↔
      none ∉ values.val := by
  constructor
  · intro survive missing
    obtain ⟨n, given⟩ := List.mem_iff_getElem?.mp missing
    have read := (survive n none given).1
    rw [form_param_eq t conn query_id overrides stream_chunks sql settings values given] at read
    cases read
  · intro present n value given
    cases value with
    | none => exact absurd (List.mem_of_getElem? given) present
    | some value =>
        exact ⟨form_param_eq t conn query_id overrides stream_chunks sql settings values given,
          native_param_eq sql settings values given⟩

end Delivery

/-! ## The escape chain of one text -/

theorem zero_not_mem_quote_byte (c : UInt8) : (0 : UInt8) ∉ quote_byte c := by
  fun_cases quote_byte c
  any_goals decide +kernel
  next zero _ _ _ _ _ => exact fun mem => zero (List.mem_singleton.mp mem).symm

/-- The text of an escaped value between the quotes of the binary driver. -/
theorem zero_not_mem_quoted (raw : Bytes) :
    (0 : UInt8) ∉ 39 :: (raw.flatMap quote_byte ++ [39]) := by
  simp [List.mem_flatMap, zero_not_mem_quote_byte]

/-- For every text, the escaped text has no byte that would end it and is read as the text, as
the HTTP driver sends it; and what the binary driver sends has no byte that would end it and
is read, unquoted and then unescaped, as the text too. -/
theorem ch_escape_string_delivered (t : CurlUrl) (conn : ch_http_connection_t)
    (query_id : QueryId) (overrides : kv_list) (stream_chunks : Bool) (sql : Bytes)
    (settings : kv_list) (before after : List (Option Bytes)) (text : Bytes) :
    let raw := (ch_escape_string text).val
    let query : ch_query := ⟨sql, before ++ some raw :: after, settings, none⟩
    (∀ ending ∈ ([0, 9, 10] : Bytes), ending ∉ raw) ∧
      (∃ parts name, (setup_curl t conn ⟨query, overrides, stream_chunks⟩ query_id).post =
          .form parts ∧
        parts[before.length + 1]? = some (name, some raw) ∧
        EscapedText.readField raw = some text) ∧
      ∃ param, (ch_binary_query_params query)[before.length]? = some param ∧
        0 ∉ param.value ∧
        (EscapedText.readQuoted param.value).bind EscapedText.readField = some text := by
  intro raw query
  have read : EscapedText.readField raw = some text := readField_literal (.text text)
  have placed : query.param_values[before.length]? = some (some raw) := by
    simp [query]
  refine ⟨?_, ?_, ?_⟩
  · intro ending stops member
    obtain ⟨c, -, spelled⟩ := List.mem_flatMap.mp member
    exact not_mem_escape_byte c ending stops spelled
  · have posted : query.param_values ≠ [] := by simp [query]
    refine ⟨_, temp_buf (ascii "param_p" ++ decimal (before.length + 1)), if_neg posted, ?_, read⟩
    rw [List.getElem?_cons_succ, List.getElem?_mapIdx, placed]
    rfl
  · refine ⟨⟨param_name before.length, 39 :: (raw.flatMap quote_byte ++ [39])⟩, ?_,
      zero_not_mem_quoted raw, ?_⟩
    · rw [ch_binary_query_params, List.getElem?_mapIdx, placed]
      rfl
    · rw [EscapedText.readQuoted_flatMap quote_byte_spells]
      exact read

/-- On neither driver does the server tell a NULL from an empty text. -/
theorem params_null_lost :
    let conn : ch_http_connection_t := ⟨ascii "http://localhost:8123/", none⟩
    let query_id : QueryId := ⟨ascii "2b8e6a10-93c4-4c1e-8d57-1f0a6b7c8d90", by decide +kernel⟩
    let sql := ascii "SELECT c1 FROM http_test.t1 WHERE ((c3 = {p1:String}))"
    let null : ParamValues := ⟨[none], by decide⟩
    let empty : ParamValues := ⟨[some (.text [])], by decide⟩
    ¬ ParamsSurvive percentEncoded conn query_id [] true sql [] null ∧
      form_param 1 (paramForm percentEncoded conn query_id [] true sql [] null) =
        form_param 1 (paramForm percentEncoded conn query_id [] true sql [] empty) ∧
      native_param 1 (ch_binary_query_params (paramQuery sql [] null)) =
        native_param 1 (ch_binary_query_params (paramQuery sql [] empty)) := by
  intro conn query_id sql null empty
  have formNull :=
    form_param_eq percentEncoded conn query_id [] true sql [] null (n := 0) rfl
  have formEmpty :=
    form_param_eq percentEncoded conn query_id [] true sql [] empty (n := 0) rfl
  have nativeNull := native_param_eq sql [] null (n := 0) rfl
  have nativeEmpty := native_param_eq sql [] empty (n := 0) rfl
  refine ⟨?_, formNull.trans formEmpty.symm, nativeNull.trans nativeEmpty.symm⟩
  intro survive
  cases formNull.symm.trans (survive 0 none rfl).1

end PgClickhouse

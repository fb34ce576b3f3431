import PgClickhouse.AggregateText
import PgClickhouse.QuotedToken

/-!
# The engine option

The sign column of a collapsing table is named in the text of its `engine` option, bare or
already quoted, and is pasted as it is stored into every aggregate.  Import cuts that text
out of the engine that ClickHouse reports.

* `sign_field_identifier`: what is stored is one token that ClickHouse reads as what stands
  between the parentheses, and it fits into its buffer.
* `imported_sign_field`: what import cuts out names the sign column when it is applied.
-/

namespace PgClickhouse

open Aggregate (CHFdwRelationInfo)
open QuotedToken (Escapes Spells cut decode lexeme identifier Delimits)

/-! ## The option -/

inductive EngineError
  | invalidIdentifier
  | invalidParameter
  deriving Repr, DecidableEq

/-- The message of each error. -/
def EngineError.errmsg : EngineError → Bytes
  | .invalidIdentifier => ascii "pg_clickhouse: invalid identifier"
  | .invalidParameter => ascii "pg_clickhouse: invalid engine parameter"

def NAMEDATALEN : Nat := 64

def CH_ESCAPED_NAMEDATALEN : Nat := NAMEDATALEN * 2

/-- The check of what follows the opening quote `q`, the closing one included: no quote is
unescaped, and the closing quote is not escaped. -/
@[grind =] def check_quoted (q : UInt8) : Bytes → Bool
  | c :: d :: rest =>
      let escaped := c == 92 || (c == q && d == q)
      if escaped && !rest.isEmpty then check_quoted q rest
      else if escaped || c == q then false
      else check_quoted q (d :: rest)
  | _ => true

/-- Quoting a name that is not quoted already: one that is a word stays so, perhaps in quotes,
and any other is quoted, each byte by a spelling of its own. -/
structure ChQuoting where
  pgch_quote_ch_ident : Bytes → Bytes
  word : ∀ c name, QuotedToken.wordStart c = true →
    (∀ d ∈ name, QuotedToken.wordChar d = true) →
    pgch_quote_ch_ident (c :: name) = c :: name ∨
      pgch_quote_ch_ident (c :: name) = 34 :: (c :: name ++ [34])
  quoted : ∀ name, ¬(∃ c rest, name = c :: rest ∧ QuotedToken.wordStart c = true ∧
      ∀ d ∈ rest, QuotedToken.wordChar d = true) →
    ∃ enc, (∀ e b, Spells e 34 (enc b) b) ∧
      pgch_quote_ch_ident name = 34 :: (name.flatMap enc ++ [34])

/-- A text in quotes of one kind. -/
@[grind =] def is_quoted : Bytes → Bool
  | [] => false
  | c :: rest => (c == 34 || c == 96) && rest.getLast? == some c

variable (quoting : ChQuoting)

/-- Quote an identifier, unless it is quoted. -/
def ch_quote_ident (ident : Bytes) : Except EngineError Bytes :=
  if is_quoted ident then
    if !check_quoted (ident.headD 0) ident.tail then .error .invalidIdentifier
    else if ident.length = 2 ∨ CH_ESCAPED_NAMEDATALEN - 1 < ident.length then
      .error .invalidIdentifier
    else .ok ident
  else if ident.length = 0 ∨ NAMEDATALEN - 1 < ident.length then .error .invalidIdentifier
  else .ok (quoting.pgch_quote_ch_ident ident)

def tolower (c : UInt8) : UInt8 := if 65 ≤ c ∧ c ≤ 90 then c + 32 else c

/-- The first byte `c` of a text, by its place. -/
def index (s : Bytes) (c : UInt8) : Option Nat :=
  if c ∈ s then some (s.takeWhile (· != c)).length else none

/-- The last one. -/
def rindex (s : Bytes) (c : UInt8) : Option Nat :=
  if c ∈ s then some (s.length - 1 - (s.reverse.takeWhile (· != c)).length) else none

/-- Whether a text begins with a name of an engine, in any case. -/
def engine_is (val name : Bytes) : Bool := name.isPrefixOf (val.map tolower)

/-- Apply the text of an `engine` option. -/
def apply_engine (fpinfo : CHFdwRelationInfo) (val : Bytes) :
    Except EngineError CHFdwRelationInfo :=
  if engine_is val (ascii "collapsingmergetree") then
    match index val 40, rindex val 41 with
    | some start, some stop =>
        if stop ≤ start + 1 then .error .invalidParameter
        else
          let sign_len := stop - start - 1
          if CH_ESCAPED_NAMEDATALEN - 1 < sign_len then .error .invalidParameter
          else do
            let ident ← ch_quote_ident quoting ((val.drop (start + 1)).take sign_len)
            if CH_ESCAPED_NAMEDATALEN ≤ ident.length then .error .invalidParameter
            else pure ⟨.CH_COLLAPSING_MERGE_TREE, ident⟩
    | _, _ => .error .invalidParameter
  else if engine_is val (ascii "aggregatingmergetree") then
    pure { fpinfo with ch_table_engine := .CH_AGGREGATING_MERGE_TREE }
  else pure fpinfo

/-- The loop over the options of a table. -/
def chfdw_apply_custom_table_options (fpinfo : CHFdwRelationInfo) :
    List DefElem → Except EngineError CHFdwRelationInfo
  | [] => pure fpinfo
  | option :: options => do
      let fpinfo ←
        if option.defname = ascii "engine" then
          apply_engine quoting fpinfo (option.arg.getD [])
        else pure fpinfo
      chfdw_apply_custom_table_options fpinfo options

/-! ## What is named -/

/-- `text` stands between the first opening and the last closing parenthesis of `val`. -/
def SignText (val text : Bytes) : Prop :=
  ∃ before after, val = before ++ 40 :: (text ++ 41 :: after) ∧ 40 ∉ before ∧ 41 ∉ after

/-- The name that a text denotes, quoted or bare.  A quoted text denotes none if an escape in it
is malformed, and it is only checked for quotes. -/
def written (e : Escapes) (text : Bytes) : Option Bytes :=
  if is_quoted text then decode e (text.headD 0) text.tail.dropLast else some text

/-- `sign` fits into its buffer and is one token of the lexer, which is read as the name that is
written between the parentheses of `val`, or as no name if what is written there denotes none. -/
def StoresSign (val sign : Bytes) : Prop :=
  ∃ text, SignText val text ∧ text ≠ [] ∧ sign.length < CH_ESCAPED_NAMEDATALEN ∧
    ∀ e rest, Delimits rest → lexeme (sign ++ rest) = some (sign, rest) ∧
      identifier e (sign ++ rest) = (written e text).map fun name => (name, rest)

/-! ## Scanning -/

theorem takeWhile_before {before after : Bytes} {c : UInt8} (first : c ∉ before) :
    (before ++ c :: after).takeWhile (· != c) = before := by
  have other : ∀ d ∈ before, (d != c) = true := by
    intro d member
    rw [bne_iff_ne]
    rintro rfl
    exact first member
  rw [List.takeWhile_append_of_pos other, List.takeWhile_cons_of_neg (by simp), List.append_nil]

theorem index_spec {s : Bytes} {c : UInt8} {n : Nat} (found : index s c = some n) :
    ∃ before after, s = before ++ c :: after ∧ c ∉ before ∧ before.length = n := by
  unfold index at found
  split at found
  · rename_i member
    obtain ⟨before, after, rfl, first⟩ := List.eq_append_cons_of_mem member
    rw [takeWhile_before first] at found
    exact ⟨before, after, rfl, first, Option.some.inj found⟩
  · cases found

theorem rindex_spec {s : Bytes} {c : UInt8} {n : Nat} (found : rindex s c = some n) :
    ∃ before after, s = before ++ c :: after ∧ c ∉ after ∧ before.length = n := by
  unfold rindex at found
  split at found
  · rename_i member
    obtain ⟨before, after, same, first⟩ :=
      List.eq_append_cons_of_mem (List.mem_reverse.mpr member)
    rw [same, takeWhile_before first] at found
    have turned := congrArg List.reverse same
    rw [List.reverse_reverse, List.reverse_append, List.reverse_cons, List.append_assoc] at turned
    refine ⟨after.reverse, before.reverse, turned, ?_, ?_⟩
    · rw [List.mem_reverse]
      exact first
    · have lengths := congrArg List.length turned
      simp only [List.length_append, List.length_reverse, List.singleton_append,
        List.length_cons] at lengths
      rw [List.length_reverse]
      have place := Option.some.inj found
      omega
  · cases found

/-- What stands between the places found. -/
theorem signText_of_places {val : Bytes} {start stop : Nat} (opened : index val 40 = some start)
    (closed : rindex val 41 = some stop) (inside : start + 1 < stop) :
    SignText val ((val.drop (start + 1)).take (stop - start - 1)) ∧
      (val.drop (start + 1)).take (stop - start - 1) ≠ [] := by
  obtain ⟨before, tail, split, first, rfl⟩ := index_spec opened
  obtain ⟨head, after, split', last, rfl⟩ := rindex_spec closed
  have dropped : val.drop (before.length + 1) = head.drop (before.length + 1) ++ 41 :: after := by
    rw [split', List.drop_append_of_le_length (by omega)]
  have taken : (val.drop (before.length + 1)).take (head.length - before.length - 1) =
      head.drop (before.length + 1) := by
    rw [dropped, List.take_left' (by rw [List.length_drop]; omega)]
  have behind : tail = val.drop (before.length + 1) := by
    rw [split, ← List.singleton_append, ← List.append_assoc, List.drop_left' (by simp)]
  constructor
  · refine ⟨before, after, ?_, first, last⟩
    rw [taken, ← dropped, ← behind]
    exact split
  · rw [taken]
    intro empty
    have lengths := congrArg List.length empty
    rw [List.length_drop, List.length_nil] at lengths
    omega

/-! ## Quoting -/

/-- A text that passes the check is closed by its last quote and by no other. -/
theorem cut_of_check_quoted {q : UInt8} (slash : q ≠ 92) {text : Bytes}
    (checked : check_quoted q text = true) (closed : text.getLast? = some q) {rest : Bytes}
    (single : rest.head? ≠ some q) :
    ∃ content, text = content ++ [q] ∧ cut q (text ++ rest) = some (content, rest) := by
  fun_induction check_quoted q text with
  | case1 c d later escaped skipped ih =>
      rw [Bool.and_eq_true, Bool.not_eq_true', List.isEmpty_eq_false_iff] at skipped
      have last : later.getLast? = some q := by
        obtain ⟨a, later', rfl⟩ := List.exists_cons_of_ne_nil skipped.2
        rw [List.getLast?_cons_cons, List.getLast?_cons_cons] at closed
        exact closed
      obtain ⟨content, rfl, read⟩ := ih checked last
      refine ⟨c :: d :: content, rfl, ?_⟩
      have pair : c = 92 ∨ c = q ∧ d = q := by
        simpa [escaped] using skipped.1
      rw [List.cons_append, List.cons_append, QuotedToken.cut.eq_def]
      rcases pair with rfl | ⟨rfl, rfl⟩
      · simp only [if_true, read, Option.map_some]
      · simp only [if_neg slash, if_true, read, Option.map_some]
  | case2 => cases checked
  | case3 c d later escaped _ unescaped ih =>
      rw [List.getLast?_cons_cons] at closed
      obtain ⟨content, same, read⟩ := ih checked closed
      have plain : c ≠ 92 ∧ c ≠ q := by
        simp only [escaped, Bool.or_eq_true, beq_iff_eq, not_or] at unescaped
        exact ⟨unescaped.1.1, unescaped.2⟩
      refine ⟨c :: content, by rw [List.cons_append, ← same], ?_⟩
      rw [List.cons_append, QuotedToken.cut_cons plain.1 plain.2, read]
      rfl
  | case4 text short =>
      rcases text with _ | ⟨c, _ | ⟨d, later⟩⟩
      · cases closed
      · obtain rfl : c = q := Option.some.inj closed
        exact ⟨[], rfl, QuotedToken.cut_quote slash single⟩
      · exact absurd rfl (short c d later)

section

variable {quoting}

/-- A name that is quoted here is one identifier, equal to it. -/
theorem identifier_quoting (e : Escapes) {name rest : Bytes} (ne : name ≠ [])
    (delimits : Delimits rest) :
    identifier e (quoting.pgch_quote_ch_ident name ++ rest) = some (name, rest) := by
  have single : rest.head? ≠ some 34 := fun same => (delimits 34 same).2.1 rfl
  by_cases word : ∃ c later, name = c :: later ∧ QuotedToken.wordStart c = true ∧
      ∀ d ∈ later, QuotedToken.wordChar d = true
  · obtain ⟨c, later, rfl, start, chars⟩ := word
    rcases quoting.word c later start chars with bare | quoted
    · rw [bare]
      exact QuotedToken.identifier_bare start chars delimits
    · have plain : ∀ b, QuotedToken.wordChar b = true → b ≠ 92 ∧ b ≠ 34 := by
        intro b char
        constructor <;> rintro rfl <;> exact absurd char (by decide)
      have all : ∀ b ∈ c :: later, QuotedToken.wordChar b = true := by
        intro b member
        rcases List.mem_cons.mp member with rfl | member
        · rw [QuotedToken.wordChar, start]
          rfl
        · exact chars b member
      rw [quoted, List.cons_append, List.append_assoc, QuotedToken.identifier_quoted (.inl rfl)]
      exact QuotedToken.token_plain (by decide) (fun b member => plain b (all b member)) single
  · obtain ⟨enc, spells, quoted⟩ := quoting.quoted name word
    rw [quoted, List.cons_append, List.append_assoc, QuotedToken.identifier_quoted (.inl rfl)]
    exact QuotedToken.token_flatMap (spells e) (by decide) name single

theorem ch_quote_ident_spec {text ident : Bytes}
    (accepted : ch_quote_ident quoting text = .ok ident) (e : Escapes) {rest : Bytes}
    (delimits : Delimits rest) : lexeme (ident ++ rest) = some (ident, rest) ∧
      identifier e (ident ++ rest) = (written e text).map fun name => (name, rest) := by
  unfold ch_quote_ident at accepted
  split at accepted
  · rename_i quoted
    split at accepted
    · cases accepted
    · rename_i checked
      split at accepted
      · cases accepted
      · cases accepted
        rcases text with _ | ⟨q, later⟩
        · cases quoted
        have kind : (q = 34 ∨ q = 96) ∧ later.getLast? = some q := by
          simpa [is_quoted] using quoted
        have passes : check_quoted q later = true := by simpa using checked
        have slash : q ≠ 92 := by
          rcases kind.1 with rfl | rfl <;> decide
        have single : rest.head? ≠ some q := by
          rcases kind.1 with rfl | rfl
          · exact fun same => (delimits 34 same).2.1 rfl
          · exact fun same => (delimits 96 same).2.2 rfl
        obtain ⟨content, rfl, read⟩ := cut_of_check_quoted slash passes kind.2 single
        have name : written e (q :: (content ++ [q])) = decode e q content := by
          rw [written, if_pos quoted]
          simp
        rw [name, List.cons_append, QuotedToken.identifier_quoted kind.1]
        constructor
        · rw [lexeme, if_pos kind.1, read]
          rfl
        · rw [QuotedToken.token, if_pos rfl, read]
          rfl
  · rename_i unquoted
    split at accepted
    · cases accepted
    · rename_i length
      cases accepted
      have ne : text ≠ [] := by
        rintro rfl
        exact length (.inl rfl)
      have read : identifier e (quoting.pgch_quote_ch_ident text ++ rest) = some (text, rest) :=
        identifier_quoting e ne delimits
      obtain ⟨raw, token, same⟩ := QuotedToken.lexeme_of_identifier read
      obtain rfl := List.append_cancel_right same
      refine ⟨token, ?_⟩
      rw [read, written, if_neg unquoted]
      rfl

/-- What one option leaves. -/
theorem apply_engine_spec {fpinfo fpinfo' : CHFdwRelationInfo} {val : Bytes}
    (applied : apply_engine quoting fpinfo val = .ok fpinfo') :
    StoresSign val fpinfo'.ch_table_sign_field ∨
      fpinfo'.ch_table_engine = .CH_AGGREGATING_MERGE_TREE ∨ fpinfo' = fpinfo := by
  unfold apply_engine at applied
  split at applied
  · split at applied
    · rename_i start stop opened closed
      split at applied
      · cases applied
      · rename_i inside
        simp only at applied
        split at applied
        · cases applied
        · rcases accepted : ch_quote_ident quoting
              ((val.drop (start + 1)).take (stop - start - 1)) with error | ident
          · rw [accepted] at applied
            cases applied
          · simp only [accepted, bind, Except.bind] at applied
            split at applied
            · cases applied
            · rename_i fits
              cases applied
              obtain ⟨between, ne⟩ := signText_of_places opened closed (Nat.not_le.mp inside)
              exact .inl ⟨_, between, ne, Nat.not_le.mp fits, fun e rest delimits =>
                ch_quote_ident_spec accepted e delimits⟩
    · cases applied
  · split at applied
    · cases applied
      exact .inr (.inl rfl)
    · cases applied
      exact .inr (.inr rfl)

/-- The text of an `engine` option. -/
def EngineOption (options : List DefElem) (val : Bytes) : Prop :=
  ∃ option ∈ options, option.defname = ascii "engine" ∧ option.arg.getD [] = val

/-- The options leave a sign column that was named, or name one. -/
theorem apply_options_spec {fpinfo fpinfo' : CHFdwRelationInfo} {options : List DefElem}
    (Named : Bytes → Prop)
    (applied : chfdw_apply_custom_table_options quoting fpinfo options = .ok fpinfo')
    (named : fpinfo.ch_table_engine = .CH_COLLAPSING_MERGE_TREE →
      Named fpinfo.ch_table_sign_field)
    (names : ∀ val sign, EngineOption options val → StoresSign val sign → Named sign) :
    fpinfo'.ch_table_engine = .CH_COLLAPSING_MERGE_TREE → Named fpinfo'.ch_table_sign_field := by
  induction options generalizing fpinfo with
  | nil =>
      cases applied
      exact named
  | cons option options ih =>
      have later : ∀ val sign, EngineOption options val → StoresSign val sign → Named sign := by
        rintro val sign ⟨other, member, engine⟩
        exact names val sign ⟨other, List.mem_cons_of_mem option member, engine⟩
      rw [chfdw_apply_custom_table_options] at applied
      by_cases engine : option.defname = ascii "engine"
      · rw [if_pos engine] at applied
        rcases step : apply_engine quoting fpinfo (option.arg.getD []) with error | fpinfo''
        · rw [step] at applied
          cases applied
        · rw [step] at applied
          refine ih applied (fun collapsing => ?_) later
          rcases apply_engine_spec step with sign | aggregating | rfl
          · exact names _ _ ⟨option, List.mem_cons_self, engine, rfl⟩ sign
          · cases aggregating.symm.trans collapsing
          · exact named collapsing
      · rw [if_neg engine] at applied
        exact ih applied named later

/-- A sign column that is stored is one token, which is read as what an `engine` option has
between its parentheses. -/
theorem sign_field_identifier {options : List DefElem} {fpinfo : CHFdwRelationInfo}
    (applied : chfdw_apply_custom_table_options quoting ⟨.CH_DEFAULT, []⟩ options = .ok fpinfo)
    (collapsing : fpinfo.ch_table_engine = .CH_COLLAPSING_MERGE_TREE) :
    ∃ val, EngineOption options val ∧ StoresSign val fpinfo.ch_table_sign_field :=
  apply_options_spec (fun sign => ∃ val, EngineOption options val ∧ StoresSign val sign)
    applied nofun (fun val _ engine sign => ⟨val, engine, sign⟩) collapsing

end

/-- A name in double quotes, unless it is a word. -/
def word_or_quoted (name : Bytes) : Bytes :=
  match name with
  | c :: rest =>
      if QuotedToken.wordStart c ∧ rest.all QuotedToken.wordChar then c :: rest
      else 34 :: ((c :: rest).flatMap quoted_byte ++ [34])
  | [] => [34, 34]
where
  quoted_byte (c : UInt8) : Bytes := if c = 34 then [34, 34] else if c = 92 then [92, 92] else [c]

theorem spells_quoted_byte (e : Escapes) (b : UInt8) :
    Spells e 34 (word_or_quoted.quoted_byte b) b := by
  unfold word_or_quoted.quoted_byte
  split
  · rename_i quote
    rw [quote]
    exact QuotedToken.spells_doubled (by decide)
  · rename_i other
    split
    · rename_i slash
      rw [slash]
      exact QuotedToken.spells_escaped (by decide)
        (QuotedToken.sequence_plain (by decide) rfl (by decide))
    · rename_i plain
      exact QuotedToken.spells_self plain other

/-- Quoting in double quotes where it is needed. -/
def neededQuoting : ChQuoting where
  pgch_quote_ch_ident := word_or_quoted
  word c name start chars := by
    rw [word_or_quoted, if_pos ⟨start, List.all_eq_true.mpr chars⟩]
    exact .inl rfl
  quoted name other := by
    refine ⟨_, spells_quoted_byte, ?_⟩
    rcases name with _ | ⟨c, rest⟩
    · rfl
    · rw [word_or_quoted, if_neg]
      rintro ⟨start, chars⟩
      exact other ⟨c, rest, rfl, start, List.all_eq_true.mp chars⟩

/-- A name that ends with a doubled quote. -/
theorem sign_field_identifier_doubled :
    ∃ val, EngineOption [⟨ascii "engine", some (ascii "CollapsingMergeTree(\"id\"\"\")")⟩] val ∧
      StoresSign val (ascii "\"id\"\"\"") := by
  have applied : chfdw_apply_custom_table_options neededQuoting ⟨.CH_DEFAULT, []⟩
      [⟨ascii "engine", some (ascii "CollapsingMergeTree(\"id\"\"\")")⟩] =
        .ok ⟨.CH_COLLAPSING_MERGE_TREE, ascii "\"id\"\"\""⟩ := by decide
  exact sign_field_identifier applied rfl

/-- A quoted text with half of a hexadecimal escape is stored and is no identifier, and one that
stands for no character is stored and names nothing. -/
theorem sign_field_malformed :
    chfdw_apply_custom_table_options neededQuoting ⟨.CH_DEFAULT, []⟩
        [⟨ascii "engine", some (ascii "CollapsingMergeTree(\"a\\x4\")")⟩] =
      .ok ⟨.CH_COLLAPSING_MERGE_TREE, ascii "\"a\\x4\""⟩ ∧
    (∀ e, identifier e (ascii "\"a\\x4\"") = none) ∧
    chfdw_apply_custom_table_options neededQuoting ⟨.CH_DEFAULT, []⟩
        [⟨ascii "engine", some (ascii "CollapsingMergeTree(\"\\N\")")⟩] =
      .ok ⟨.CH_COLLAPSING_MERGE_TREE, ascii "\"\\N\""⟩ ∧
    ∀ e, identifier e (ascii "\"\\N\"") = some ([], []) :=
  ⟨by decide, fun _ => rfl, by decide, fun _ => rfl⟩

/-! ## The import -/

/-- The scan for the end of the sign column: what it cuts out of the engine. -/
@[grind =] def cut_engine_full : Option UInt8 → Bytes → Option Bytes
  | _, [] => none
  | some quote, [c] => (cut_engine_full (if c = quote then none else some quote) []).map (c :: ·)
  | some quote, c :: d :: text =>
      if c = 92 then (cut_engine_full (some quote) text).map fun kept => c :: d :: kept
      else (cut_engine_full (if c = quote then none else some quote) (d :: text)).map (c :: ·)
  | none, c :: text =>
      if c = 34 ∨ c = 96 then (cut_engine_full (some c) text).map (c :: ·)
      else if c = 41 then some [c]
      else (cut_engine_full none text).map (c :: ·)

/-- The options of a table that is imported. -/
def import_options (remote_schema table_name : Bytes) (engine engine_full : Option Bytes) :
    List DefElem :=
  [⟨ascii "database", some remote_schema⟩, ⟨ascii "table_name", some table_name⟩] ++
    match engine, engine_full with
    | some engine, some engine_full =>
        if engine = ascii "CollapsingMergeTree" then
          match cut_engine_full none engine_full with
          | some cut => [⟨ascii "engine", some cut⟩]
          | none => []
        else [⟨ascii "engine", some engine⟩]
    | some engine, none => [⟨ascii "engine", some engine⟩]
    | none, _ => []

/-- How ClickHouse writes a byte of a name in backticks. -/
def writeEscaped (c : UInt8) : Bytes :=
  if c = 8 then [92, 98]
  else if c = 12 then [92, 102]
  else if c = 10 then [92, 110]
  else if c = 13 then [92, 114]
  else if c = 9 then [92, 116]
  else if c = 0 then [92, 48]
  else if c = 92 then [92, 92]
  else if c = 96 then [92, 96]
  else [c]

/-- A name that ClickHouse can write bare. -/
def isValidIdentifier : Bytes → Bool
  | [] => false
  | c :: rest =>
      QuotedToken.wordStart c && rest.all fun d => QuotedToken.wordChar d && d != 36

variable (keyword : Bytes → Bool)

def backQuoteIfNeed (name : Bytes) : Bytes :=
  if isValidIdentifier name && !keyword name then name
  else 96 :: (name.flatMap writeEscaped ++ [96])

/-- What ClickHouse reports of a table with the sign column `name`; `clauses` is the rest. -/
def engineFull (name clauses : Bytes) : Bytes :=
  ascii "CollapsingMergeTree(" ++ backQuoteIfNeed keyword name ++ 41 :: clauses

/-- The text of the sign column is no longer than an engine option can hold. -/
def WithinLimits (name : Bytes) : Prop :=
  (backQuoteIfNeed keyword name).length ≤
    if is_quoted (backQuoteIfNeed keyword name) then CH_ESCAPED_NAMEDATALEN - 1 else NAMEDATALEN - 1

section

variable {quoting keyword}

/-- A byte is written with a backslash and a letter, or as it is. -/
theorem writeEscaped_cases (c : UInt8) :
    (∃ d, writeEscaped c = [92, d] ∧ d ≠ 120 ∧ ∀ e : Escapes, e.sequence d = [c]) ∨
      (writeEscaped c = [c] ∧ c ≠ 92 ∧ c ≠ 96) := by
  have letter : ∀ d : UInt8, d ≠ 78 → QuotedToken.control d = some c →
      ∀ e : Escapes, e.sequence d = [c] :=
    fun d named control e => QuotedToken.sequence_control named control
  have itself : c ≠ 78 → QuotedToken.control c = none → QuotedToken.plain c = true →
      ∀ e : Escapes, e.sequence c = [c] :=
    fun named control stands e => QuotedToken.sequence_plain named control stands
  fun_cases writeEscaped c
  all_goals subst_vars
  · exact .inl ⟨98, rfl, by decide, letter 98 (by decide) rfl⟩
  · exact .inl ⟨102, rfl, by decide, letter 102 (by decide) rfl⟩
  · exact .inl ⟨110, rfl, by decide, letter 110 (by decide) rfl⟩
  · exact .inl ⟨114, rfl, by decide, letter 114 (by decide) rfl⟩
  · exact .inl ⟨116, rfl, by decide, letter 116 (by decide) rfl⟩
  · exact .inl ⟨48, rfl, by decide, letter 48 (by decide) rfl⟩
  · exact .inl ⟨92, rfl, by decide, itself (by decide) rfl rfl⟩
  · exact .inl ⟨96, rfl, by decide, itself (by decide) rfl rfl⟩
  · next slash tick => exact .inr ⟨rfl, slash, tick⟩

theorem spells_writeEscaped (e : Escapes) (c : UInt8) : Spells e 96 (writeEscaped c) c := by
  rcases writeEscaped_cases c with ⟨d, written, hex, stands⟩ | ⟨written, escape, other⟩
  · rw [written]
    exact QuotedToken.spells_escaped hex (stands e)
  · rw [written]
    exact QuotedToken.spells_self escape other

/-! ### The cut -/

theorem cut_outside {text : Bytes} (plain : ∀ c ∈ text, c ≠ 34 ∧ c ≠ 96 ∧ c ≠ 41)
    (rest : Bytes) :
    cut_engine_full none (text ++ rest) = (cut_engine_full none rest).map (text ++ ·) := by
  induction text with
  | nil => exact Option.map_id'.symm
  | cons c text ih =>
      obtain ⟨head, tail⟩ := List.forall_mem_cons.mp plain
      have opens : ¬(c = 34 ∨ c = 96) := by
        rintro (quote | tick)
        · exact head.1 quote
        · exact head.2.1 tick
      rw [List.cons_append, cut_engine_full, if_neg opens, if_neg head.2.2, ih tail,
        Option.map_map]
      rfl

theorem cut_inside {quote c : UInt8} (escape : c ≠ 92) (text : Bytes) :
    cut_engine_full (some quote) (c :: text) =
      (cut_engine_full (if c = quote then none else some quote) text).map (c :: ·) := by
  rcases text with _ | ⟨d, text⟩
  · simp only [cut_engine_full]
  · rw [cut_engine_full, if_neg escape]

/-- A name in backticks is passed to its end. -/
theorem cut_name (name rest : Bytes) :
    cut_engine_full (some 96) (name.flatMap writeEscaped ++ 96 :: rest) =
      (cut_engine_full none rest).map fun kept => name.flatMap writeEscaped ++ 96 :: kept := by
  induction name with
  | nil =>
      rw [List.flatMap_nil, List.nil_append, cut_inside (by decide), if_pos rfl]
      rfl
  | cons c name ih =>
      rw [List.flatMap_cons, List.append_assoc]
      rcases writeEscaped_cases c with ⟨d, written, -⟩ | ⟨written, escape, other⟩
      · rw [written]
        change cut_engine_full (some 96) (92 :: d :: (name.flatMap writeEscaped ++ 96 :: rest)) = _
        rw [cut_engine_full, if_pos rfl, ih, Option.map_map]
        rfl
      · rw [written, List.singleton_append, cut_inside escape, if_neg other, ih, Option.map_map]
        rfl

theorem valid_plain {name : Bytes} (valid : isValidIdentifier name = true) :
    ∀ c ∈ name, c ≠ 34 ∧ c ≠ 96 ∧ c ≠ 41 := by
  have word : ∀ c : UInt8, QuotedToken.wordChar c = true → c ≠ 34 ∧ c ≠ 96 ∧ c ≠ 41 := by
    intro c char
    refine ⟨?_, ?_, ?_⟩ <;> rintro rfl <;> exact absurd char (by decide)
  rcases name with _ | ⟨c, rest⟩
  · cases valid
  · rw [isValidIdentifier, Bool.and_eq_true, List.all_eq_true] at valid
    intro d member
    rcases List.mem_cons.mp member with rfl | member
    · apply word
      rw [QuotedToken.wordChar, valid.1]
      rfl
    · exact word d (Bool.and_eq_true_iff.mp (valid.2 d member)).1

/-- The cut ends behind the name, whatever it holds and whatever follows. -/
theorem cut_engineFull (name clauses : Bytes) :
    cut_engine_full none (engineFull keyword name clauses) =
      some (ascii "CollapsingMergeTree(" ++ backQuoteIfNeed keyword name ++ [41]) := by
  have opening : ∀ c ∈ ascii "CollapsingMergeTree(", c ≠ 34 ∧ c ≠ 96 ∧ c ≠ 41 := by
    decide +kernel
  have closing : cut_engine_full none (41 :: clauses) = some [41] := by
    rw [cut_engine_full, if_neg (by decide), if_pos rfl]
  rw [engineFull, List.append_assoc, List.append_assoc, cut_outside opening, backQuoteIfNeed]
  split
  · rename_i bare
    rw [cut_outside (valid_plain (Bool.and_eq_true_iff.mp bare).1), closing]
    rfl
  · rw [List.cons_append, cut_engine_full, if_pos (.inr rfl), List.append_assoc,
      List.singleton_append, cut_name, closing]
    simp

/-! ### What is applied -/

theorem index_eq {before after : Bytes} {c : UInt8} (first : c ∉ before) :
    index (before ++ c :: after) c = some before.length := by
  rw [index, if_pos (by simp), takeWhile_before first]

theorem rindex_eq {before after : Bytes} {c : UInt8} (last : c ∉ after) :
    rindex (before ++ c :: after) c = some before.length := by
  have turned : (before ++ c :: after).reverse = after.reverse ++ c :: before.reverse := by simp
  have other : c ∉ after.reverse := fun member => last (List.mem_reverse.mp member)
  have lengths : (before ++ c :: after).length = before.length + after.length + 1 := by
    rw [List.length_append, List.length_cons]
    omega
  rw [rindex, if_pos (by simp), turned, takeWhile_before other, lengths, List.length_reverse]
  congr 1
  omega

/-- What ClickHouse writes between backticks has no backtick that is not escaped. -/
theorem check_quoted_written (name : Bytes) :
    check_quoted 96 (name.flatMap writeEscaped ++ [96]) = true := by
  induction name with
  | nil => rfl
  | cons c name ih =>
      obtain ⟨d, text, behind⟩ := List.exists_cons_of_ne_nil
        (List.append_ne_nil_of_right_ne_nil (name.flatMap writeEscaped) (List.cons_ne_nil 96 []))
      rw [List.flatMap_cons, List.append_assoc, behind]
      rw [behind] at ih
      rcases writeEscaped_cases c with ⟨l, written, -⟩ | ⟨written, escape, other⟩
      · rw [written]
        change check_quoted 96 (92 :: l :: d :: text) = true
        rw [check_quoted]
        exact (if_pos rfl).trans ih
      · rw [written]
        change check_quoted 96 (c :: d :: text) = true
        have plain : (c == 92 || (c == 96 && d == 96)) = false := by
          simp [escape, other]
        simp only [check_quoted, plain, Bool.false_and, Bool.false_or, beq_iff_eq, if_neg other,
          Bool.false_eq_true, if_false]
        exact ih

theorem is_quoted_bare {name : Bytes} (valid : isValidIdentifier name = true) :
    is_quoted name = false := by
  rcases name with _ | ⟨c, rest⟩
  · rfl
  · have plain := valid_plain valid c List.mem_cons_self
    rw [is_quoted, beq_eq_false_iff_ne.mpr plain.1, beq_eq_false_iff_ne.mpr plain.2.1]
    rfl

theorem is_quoted_written (name : Bytes) :
    is_quoted (96 :: (name.flatMap writeEscaped ++ [96])) = true := by
  rw [is_quoted, List.getLast?_append, List.getLast?_singleton]
  rfl

/-- The longest that a bare name gets when it is quoted. -/
theorem quoting_length {name : Bytes} (valid : isValidIdentifier name = true) :
    (quoting.pgch_quote_ch_ident name).length ≤ name.length + 2 := by
  rcases name with _ | ⟨c, rest⟩
  · cases valid
  · rw [isValidIdentifier, Bool.and_eq_true, List.all_eq_true] at valid
    rcases quoting.word c rest valid.1
      (fun d member => (Bool.and_eq_true_iff.mp (valid.2 d member)).1) with bare | quoted
    · rw [bare]
      omega
    · rw [quoted]
      simp

/-- What ClickHouse writes for a name is accepted, fits and is read as the name. -/
theorem ch_quote_ident_written (quoting : ChQuoting) {name : Bytes} (ne : name ≠ [])
    (fits : WithinLimits keyword name) :
    ∃ sign, ch_quote_ident quoting (backQuoteIfNeed keyword name) = .ok sign ∧
      sign.length < CH_ESCAPED_NAMEDATALEN ∧
      ∀ e rest, Delimits rest → identifier e (sign ++ rest) = some (name, rest) := by
  unfold WithinLimits at fits
  unfold backQuoteIfNeed at fits ⊢
  split at fits
  · rename_i bare
    have valid := (Bool.and_eq_true_iff.mp bare).1
    rw [is_quoted_bare valid, if_neg Bool.false_ne_true] at fits
    have within : ¬(name.length = 0 ∨ NAMEDATALEN - 1 < name.length) := by
      rw [List.length_eq_zero_iff]
      rintro (empty | long)
      · exact ne empty
      · omega
    have bound : (quoting.pgch_quote_ch_ident name).length ≤ name.length + 2 :=
      quoting_length valid
    refine ⟨quoting.pgch_quote_ch_ident name, ?_, ?_, fun e rest => identifier_quoting e ne⟩
    · rw [if_pos bare, ch_quote_ident, is_quoted_bare valid, if_neg Bool.false_ne_true,
        if_neg within]
    · unfold CH_ESCAPED_NAMEDATALEN NAMEDATALEN at *
      omega
  · rename_i quoted
    rw [is_quoted_written, if_pos rfl] at fits
    obtain ⟨c, later, rfl⟩ := List.exists_cons_of_ne_nil ne
    have nonempty : (writeEscaped c).length ≠ 0 := by
      rcases writeEscaped_cases c with ⟨d, written, -⟩ | ⟨written, -⟩ <;> rw [written] <;> simp
    have within : ¬((96 :: ((c :: later).flatMap writeEscaped ++ [96])).length = 2 ∨
        CH_ESCAPED_NAMEDATALEN - 1 <
          (96 :: ((c :: later).flatMap writeEscaped ++ [96])).length) := by
      rintro (short | long)
      · rw [List.length_cons, List.length_append, List.flatMap_cons, List.length_append,
          List.length_singleton] at short
        omega
      · omega
    refine ⟨_, ?_, Nat.lt_of_le_of_lt fits (by decide), fun e rest delimits => ?_⟩
    · rw [if_neg quoted, ch_quote_ident, is_quoted_written, if_pos rfl, List.headD_cons,
        List.tail_cons, check_quoted_written, if_neg (by decide), if_neg within]
    · have single : rest.head? ≠ some 96 := fun same => (delimits 96 same).2.2 rfl
      rw [List.cons_append, List.append_assoc, QuotedToken.identifier_quoted (.inr rfl)]
      exact QuotedToken.token_flatMap (spells_writeEscaped e) (by decide) _ single

/-- The option that is cut out holds what ClickHouse wrote for the name. -/
theorem apply_engine_cut (fpinfo : CHFdwRelationInfo) {name sign : Bytes}
    (fits : WithinLimits keyword name)
    (accepted : ch_quote_ident quoting (backQuoteIfNeed keyword name) = .ok sign)
    (short : sign.length < CH_ESCAPED_NAMEDATALEN) :
    apply_engine quoting fpinfo
        (ascii "CollapsingMergeTree(" ++ backQuoteIfNeed keyword name ++ [41]) =
      .ok ⟨.CH_COLLAPSING_MERGE_TREE, sign⟩ := by
  have opened : ascii "CollapsingMergeTree(" = ascii "CollapsingMergeTree" ++ [40] := by
    decide
  have named : (ascii "CollapsingMergeTree").map tolower = ascii "collapsingmergetree" := by
    decide
  have length : (ascii "CollapsingMergeTree").length = 19 := by decide
  have absent : 40 ∉ ascii "CollapsingMergeTree" := by decide
  generalize ascii "CollapsingMergeTree" = engine at *
  generalize written : backQuoteIfNeed keyword name = text at *
  have val : ascii "CollapsingMergeTree(" ++ text ++ [41] = engine ++ 40 :: (text ++ [41]) := by
    rw [opened]
    simp
  have val' : engine ++ 40 :: (text ++ [41]) = (engine ++ 40 :: text) ++ 41 :: [] := by simp
  have is_engine : engine_is (engine ++ 40 :: (text ++ [41])) (ascii "collapsingmergetree") =
      true := by
    rw [engine_is, List.map_append, named, List.isPrefixOf_iff_prefix]
    exact List.prefix_append _ _
  have start : index (engine ++ 40 :: (text ++ [41])) 40 = some 19 := by
    rw [index_eq absent, length]
  have stop : rindex (engine ++ 40 :: (text ++ [41])) 41 = some (text.length + 20) := by
    rw [val', rindex_eq (List.not_mem_nil), List.length_append, length, List.length_cons]
    congr 1
    omega
  have between : ((engine ++ 40 :: (text ++ [41])).drop (19 + 1)).take
      (text.length + 20 - 19 - 1) = text := by
    rw [← List.singleton_append, ← List.append_assoc, List.drop_left' (by simp [length]),
      List.take_left' (by omega)]
  have some_text : text ≠ [] := by
    rintro rfl
    cases accepted
  have long := List.length_pos_iff.mpr some_text
  have limit : text.length ≤ CH_ESCAPED_NAMEDATALEN - 1 := by
    unfold WithinLimits at fits
    rw [written] at fits
    split at fits <;> unfold CH_ESCAPED_NAMEDATALEN NAMEDATALEN at * <;> omega
  rw [val, apply_engine, if_pos is_engine, start, stop]
  simp only
  rw [if_neg (by omega), if_neg (by omega), between, accepted]
  exact if_neg (Nat.not_le.mpr short)

/-- The engine that import cuts out names the sign column again. -/
theorem imported_sign_field (fpinfo : CHFdwRelationInfo) {name : Bytes} (ne : name ≠ [])
    (fits : WithinLimits keyword name) (clauses remote_schema table_name : Bytes) :
    cut_engine_full none (engineFull keyword name clauses) =
        some (ascii "CollapsingMergeTree(" ++ backQuoteIfNeed keyword name ++ [41]) ∧
      ∃ sign, chfdw_apply_custom_table_options quoting fpinfo
          (import_options remote_schema table_name (some (ascii "CollapsingMergeTree"))
            (some (engineFull keyword name clauses))) =
          .ok ⟨.CH_COLLAPSING_MERGE_TREE, sign⟩ ∧
        sign.length < CH_ESCAPED_NAMEDATALEN ∧
        ∀ e rest, Delimits rest → identifier e (sign ++ rest) = some (name, rest) := by
  obtain ⟨sign, accepted, short, reads⟩ := ch_quote_ident_written quoting ne fits
  refine ⟨cut_engineFull name clauses, sign, ?_, short, reads⟩
  have database : ascii "database" ≠ ascii "engine" := by decide
  have table : ascii "table_name" ≠ ascii "engine" := by decide
  simp only [import_options, if_true, cut_engineFull, List.cons_append, List.nil_append,
    chfdw_apply_custom_table_options, if_neg database, if_neg table, pure_bind,
    Option.getD_some, apply_engine_cut fpinfo fits accepted short]
  rfl

end

/-- A sign column whose name ends with a parenthesis. -/
theorem imported_sign_field_paren :
    cut_engine_full none (engineFull (fun _ => false) (ascii "sign)") (ascii " ORDER BY (a)")) =
        some (ascii "CollapsingMergeTree(" ++
          backQuoteIfNeed (fun _ => false) (ascii "sign)") ++ [41]) ∧
      ∃ sign, chfdw_apply_custom_table_options neededQuoting ⟨.CH_DEFAULT, []⟩
          (import_options (ascii "engines_test") (ascii "t5") (some (ascii "CollapsingMergeTree"))
            (some (engineFull (fun _ => false) (ascii "sign)") (ascii " ORDER BY (a)")))) =
          .ok ⟨.CH_COLLAPSING_MERGE_TREE, sign⟩ ∧
        sign.length < CH_ESCAPED_NAMEDATALEN ∧
        ∀ e rest, Delimits rest → identifier e (sign ++ rest) = some (ascii "sign)", rest) :=
  imported_sign_field _ (by decide) (by unfold WithinLimits; decide +kernel) _ _ _

end PgClickhouse

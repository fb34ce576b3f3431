import PgClickhouse.EscapeTemplate
import PgClickhouse.Literals
import PgClickhouse.RegexFlags

/-!
# Replacements of `regexp_replace`

The replacement goes to ClickHouse as it is.  Both sides read it as a template, PostgreSQL with
`\1` to `\9` and `\&`, ClickHouse with `\0` to `\9`.

* `replacement_expands_alike`: the two expand it alike for every match just when it has neither
  `\0` nor `\&`.
-/

namespace PgClickhouse.Regex

open EscapeTemplate (Language expand escapes stands)
open QuotedToken (Escapes token)

/-! ## Templates -/

/-- A match: its text and the text of each group, empty for a group that took no part. -/
structure Match where
  whole : Bytes
  group : Nat → Bytes

/-- The escapes of PostgreSQL: `\1` to `\9`, `\&`, and a doubled backslash. -/
def pgLanguage : Language UInt8 Match := fun c =>
  if 49 ≤ c ∧ c ≤ 57 then some fun m => m.group (c.toNat - 48)
  else if c = 38 then some Match.whole
  else if c = 92 then some fun _ => [92]
  else none

/-- The escapes of ClickHouse: `\0` to `\9` and a doubled backslash. -/
def chLanguage : Language UInt8 Match := fun c =>
  if c = 48 then some Match.whole
  else if 49 ≤ c ∧ c ≤ 57 then some fun m => m.group (c.toNat - 48)
  else if c = 92 then some fun _ => [92]
  else none

def pgExpand (m : Match) (template : Bytes) : Bytes := expand 92 pgLanguage m template

def chExpand (m : Match) (template : Bytes) : Bytes := expand 92 chLanguage m template

/-- The two languages differ in `\0` and `\&` only. -/
theorem languages_agree {c : UInt8} (zero : c ≠ 48) (ampersand : c ≠ 38) :
    chLanguage c = pgLanguage c := by
  rw [chLanguage, pgLanguage, if_neg zero, if_neg ampersand]

theorem pg_doubled : pgLanguage 92 ≠ none := nofun

theorem ch_doubled : chLanguage 92 ≠ none := nofun

/-- The match of nothing. -/
def emptyMatch : Match := ⟨[], fun _ => []⟩

/-- With a match of nothing, an escape that stands for something is not printed. -/
theorem count_zero_le (c : UInt8) :
    (stands 92 chLanguage emptyMatch c).count 48 ≤
      (stands 92 pgLanguage emptyMatch c).count 48 := by
  by_cases zero : c = 48
  · rw [zero]
    decide
  by_cases ampersand : c = 38
  · rw [ampersand]
    decide
  rw [stands, stands, languages_agree zero ampersand]

theorem count_ampersand_le (c : UInt8) :
    (stands 92 pgLanguage emptyMatch c).count 38 ≤
      (stands 92 chLanguage emptyMatch c).count 38 := by
  by_cases zero : c = 48
  · rw [zero]
    decide
  by_cases ampersand : c = 38
  · rw [ampersand]
    decide
  rw [stands, stands, languages_agree zero ampersand]

/-- The expansions agree for every match just when the template names no whole match in either
language. -/
theorem expand_eq_iff (template : Bytes) :
    (∀ m, chExpand m template = pgExpand m template) ↔
      48 ∉ escapes 92 template ∧ 38 ∉ escapes 92 template := by
  constructor
  · intro same
    have equal := same emptyMatch
    constructor
    · intro zero
      exact absurd (EscapeTemplate.count_stands_eq emptyMatch ch_doubled pg_doubled count_zero_le
        equal 48 zero) (by decide)
    · intro ampersand
      exact absurd (EscapeTemplate.count_stands_eq emptyMatch pg_doubled ch_doubled
        count_ampersand_le equal.symm 38 ampersand) (by decide)
  · rintro ⟨zero, ampersand⟩ m
    apply EscapeTemplate.expand_congr m ch_doubled pg_doubled
    intro c found
    have agree : chLanguage c = pgLanguage c :=
      languages_agree (fun h => zero (h ▸ found)) (fun h => ampersand (h ▸ found))
    rw [stands, stands, agree]

/-! ## The call -/

/-- An argument: a constant, NULL without a value, or an expression over a row. -/
inductive Argument (Row : Type)
  | Const (constvalue : Option Bytes)
  | expr (value : Row → Option Bytes)

variable {Row : Type}

def Argument.value (row : Row) : Argument Row → Option Bytes
  | .Const constvalue => constvalue
  | .expr value => value row

/-- The characters of a constant. -/
def Argument.constant : Argument Row → Option (List Char)
  | .Const (some text) => some (text.map fun b => Char.ofNat b.toNat)
  | .Const none => none
  | .expr _ => none

/-- The checks `chfdw_is_shippable` makes of `regexp_replace`. -/
def shippable_replace (pushdown_regex_ok : Bool) (args : List (Argument Row)) : Bool :=
  pushdown_regex_ok &&
    (match args[3]? with
      | none => true
      | some flags => match flags.constant with
        | none => false
        | some flags => regex_flags_ok true flags) &&
    (match args[1]? with
      | none => false
      | some pattern => pattern.constant.isSome)

/-- An argument in the text of the query. -/
inductive Emitted (Row : Type)
  | null
  | literal (text : Bytes)
  | expr (value : Row → Option Bytes)

/-- `deparseExpr` of an argument. -/
def Argument.deparse : Argument Row → Emitted Row
  | .Const none => .null
  | .Const (some text) => .literal (ch_quote_literal_internal text)
  | .expr value => .expr value

/-- The value of an argument in ClickHouse, with the text behind it. -/
def Emitted.value (e : Escapes) (behind : Bytes) (row : Row) : Emitted Row → Option Bytes
  | .null => none
  | .literal text => (token e 39 (text ++ behind)).map Prod.fst
  | .expr value => value row

/-- An argument has its value on both sides. -/
theorem deparse_value (e : Escapes) {behind : Bytes} (single : behind.head? ≠ some 39)
    (row : Row) (arg : Argument Row) : arg.deparse.value e behind row = arg.value row := by
  cases arg with
  | expr value => rfl
  | Const constvalue =>
      cases constvalue with
      | none => rfl
      | some text =>
          have read := QuotedToken.token_flatMap (double_byte_spells e) (by decide) text single
          rw [Argument.deparse, ch_quote_literal_internal, Emitted.value, List.cons_append,
            List.append_assoc, List.singleton_append, read]
          rfl

/-- What a piece `.arg n` of the text of a call prints. -/
def printed (args : List (Argument Row)) (n : Nat) : Option (Emitted Row) :=
  args[n]?.map Argument.deparse

/-- No replacement keeps a call from being pushed down. -/
theorem shippable_replace_set (pushdown_regex_ok : Bool) (args : List (Argument Row))
    (replacement : Argument Row) :
    shippable_replace pushdown_regex_ok (args.set 2 replacement) =
      shippable_replace pushdown_regex_ok args := by
  have flags : (args.set 2 replacement)[3]? = args[3]? :=
    List.getElem?_set_ne (by decide)
  have pattern : (args.set 2 replacement)[1]? = args[1]? :=
    List.getElem?_set_ne (by decide)
  rw [shippable_replace, shippable_replace, flags, pattern]

/-- A pushed-down call ends with its replacement, and its text is a template that the two sides
expand alike for every match just when it has neither `\0` nor `\&`. -/
theorem replacement_expands_alike (e : Escapes) {args : List (Argument Row)}
    {replacement : Argument Row} (third : args[2]? = some replacement) (row : Row)
    {template : Bytes} (value : replacement.value row = some template) (rest : Bytes) :
    (∃ before, deparseReplaceRegex (args.map Argument.constant) =
      before ++ [.text ", ".toList, .arg 2, .text [')']]) ∧
    ∃ emitted received, printed args 2 = some emitted ∧
      emitted.value e (41 :: rest) row = some received ∧
      ((∀ m, chExpand m received = pgExpand m template) ↔
        48 ∉ escapes 92 template ∧ 38 ∉ escapes 92 template) := by
  refine ⟨⟨_, rfl⟩, replacement.deparse, template, ?_, ?_, expand_eq_iff template⟩
  · rw [printed, third]
    rfl
  · rw [deparse_value e (by simp) row replacement, value]

/-- `regexp_replace(col, 'a', replacement)`. -/
def replaceCall (replacement : Bytes) : List (Argument Unit) :=
  [.expr fun () => none, .Const (some [97]), .Const (some replacement)]

/-- A doubled backslash before a group. -/
theorem replacement_expands_alike_group :
    chExpand ⟨[97], fun _ => [98]⟩ [92, 92, 92, 49] =
      pgExpand ⟨[97], fun _ => [98]⟩ [92, 92, 92, 49] := by
  obtain ⟨-, emitted, received, third, read, alike⟩ := replacement_expands_alike Escapes.kept
    (show (replaceCall [92, 92, 92, 49])[2]? = some _ from rfl) () rfl []
  cases third
  cases read.symm.trans (deparse_value Escapes.kept (by simp) () (.Const (some [92, 92, 92, 49])))
  exact alike.mpr (by decide) _

/-- The match of the pattern `a`. -/
def matchOfA : Match := ⟨[97], fun _ => []⟩

/-- The replacement `\&` is pushed down and not the match in ClickHouse. -/
theorem not_replacement_expands_alike :
    ¬∀ (args : List (Argument Unit)) (emitted : Emitted Unit) (replacement : Argument Unit)
      (template received : Bytes) (m : Match),
      shippable_replace true args = true → args[2]? = some replacement →
      replacement.value () = some template → printed args 2 = some emitted →
      emitted.value Escapes.kept [41] () = some received →
      chExpand m received = pgExpand m template := by
  intro alike
  have same := alike (replaceCall [92, 38]) _ _ [92, 38] [92, 38] matchOfA rfl rfl rfl rfl
    (deparse_value Escapes.kept (by simp) () (.Const (some [92, 38])))
  exact absurd same (by decide)

end PgClickhouse.Regex

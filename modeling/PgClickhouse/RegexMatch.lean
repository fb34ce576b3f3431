import PgClickhouse.LeafPattern
import PgClickhouse.RegexFlags

/-!
# Regular expression matching

The operators `~`, `~*`, `!~` and `!~*` and the function `regexp_like` are emitted as calls of
`match`, each with inline flags of its own.  PostgreSQL's dot matches a newline unless a flag
says otherwise, and so does the dot of ClickHouse's `match`; the operators switch that off.

* `pushed_match_iff`: which calls give PostgreSQL's answer.
-/

namespace PgClickhouse.Regex

/-! ## Calls -/

/-- The operators. -/
inductive custom_object_type
  | CF_REGEX_MATCH
  | CF_REGEX_NO_MATCH
  | CF_REGEX_ICASE_MATCH
  | CF_REGEX_ICASE_NO_MATCH
  deriving Repr, DecidableEq

/-- A match that may be pushed down: an operator, or the function with or without flags. -/
inductive MatchCall
  | operator (cf_type : custom_object_type)
  | regexp_like (flags : Option (List Char))
  deriving Repr, DecidableEq

/-- A call whose pattern is the constant `pattern` is shipped. -/
def MatchCall.shipped : MatchCall → Bool
  | .operator _ => true
  | .regexp_like none => true
  | .regexp_like (some flags) => regex_flags_ok false flags

/-! ## Deparsing -/

def custom_object_type.negated (cf_type : custom_object_type) : Bool :=
  cf_type == .CF_REGEX_NO_MATCH || cf_type == .CF_REGEX_ICASE_NO_MATCH

def custom_object_type.icase (cf_type : custom_object_type) : Bool :=
  cf_type == .CF_REGEX_ICASE_MATCH || cf_type == .CF_REGEX_ICASE_NO_MATCH

def deparseRegexOperator (cf_type : custom_object_type) : List Piece :=
  (if cf_type.negated then [Piece.text "(NOT ".toList] else []) ++
    [Piece.text "match(".toList, .arg 0,
      .text (", concat('(?".toList ++ (if cf_type.icase then ['i'] else []) ++ "-s)', ".toList),
      .arg 1, .text "))".toList] ++
    (if cf_type.negated then [Piece.text [')']] else [])

/-- `CF_MATCH`, behind its name. -/
def deparseMatch (args : Args) : List Piece :=
  [Piece.text "match".toList, .text ['('], .arg 0, .text ", ".toList] ++ appendRegex args 2 ++
    [Piece.text [')']]

def MatchCall.deparse (pattern : List Char) : MatchCall → List Piece
  | .operator cf_type => deparseRegexOperator cf_type
  | .regexp_like none => deparseMatch [none, some pattern]
  | .regexp_like (some flags) => deparseMatch [none, some pattern, some flags]

/-! ## What the text calls -/

/-- A text that is passed to a function. -/
inductive Text
  | arg (n : Nat)
  | string (s : List Char)
  | concat (first second : Text)
  deriving Repr, DecidableEq

/-- A condition. -/
inductive Condition
  | match_ (haystack pattern : Text)
  | not (condition : Condition)
  deriving Repr, DecidableEq

/-- The characters and the arguments of a text. -/
def Piece.symbols : Piece → List (Char ⊕ Nat)
  | .text s => s.map .inl
  | .arg n => [.inr n]

def Text.symbols : Text → List (Char ⊕ Nat)
  | .arg n => [.inr n]
  | .string s => ("'".toList ++ s ++ "'".toList).map .inl
  | .concat first second =>
      "concat(".toList.map .inl ++ first.symbols ++ ", ".toList.map .inl ++ second.symbols ++
        [.inl ')']

def Condition.symbols : Condition → List (Char ⊕ Nat)
  | .match_ haystack pattern =>
      "match(".toList.map .inl ++ haystack.symbols ++ ", ".toList.map .inl ++ pattern.symbols ++
        [.inl ')']
  | .not condition => "(NOT ".toList.map .inl ++ condition.symbols ++ [.inl ')']

/-- An inline group in front of the pattern. -/
def withGroup (flags : List Char) : Text :=
  .concat (.string ("(?".toList ++ flags ++ [')'])) (.arg 1)

/-- The condition that a call is emitted as. -/
def MatchCall.condition : MatchCall → Condition
  | .operator cf_type =>
      let called := .match_ (.arg 0)
        (withGroup ((if cf_type.icase then ['i'] else []) ++ ['-', 's']))
      if cf_type.negated then .not called else called
  | .regexp_like none => .match_ (.arg 0) (.arg 1)
  | .regexp_like (some flags) => .match_ (.arg 0) (withGroup (appendRegexFlags flags))

theorem appendRegex_none (pattern : List Char) :
    appendRegex [none, some pattern] 2 = [.arg 1] := by
  unfold appendRegex
  exact if_pos (Nat.le_refl 2)

theorem appendRegex_some (pattern flags : List Char) :
    appendRegex [none, some pattern, some flags] 2 =
      [.text ("concat('(?".toList ++ appendRegexFlags flags ++ ")', ".toList), .arg 1,
        .text [')']] := by
  unfold appendRegex
  rw [if_neg (by simp)]
  rfl

/-- The text of a call with an inline group, whatever its words are. -/
theorem group_symbols (name comma concat quote opening flags : List Char) :
    ([Piece.text name, Piece.text ['('], Piece.arg 0, Piece.text comma] ++
        [Piece.text ((concat ++ (quote ++ opening)) ++ flags ++ ([')'] ++ (quote ++ comma))),
          Piece.arg 1, Piece.text [')']] ++ [Piece.text [')']]).flatMap Piece.symbols =
      (name ++ ['(']).map Sum.inl ++ [Sum.inr 0] ++ comma.map Sum.inl ++
        (concat.map Sum.inl ++ (quote ++ (opening ++ flags ++ [')']) ++ quote).map Sum.inl ++
          comma.map Sum.inl ++ [Sum.inr 1] ++ [Sum.inl ')']) ++ [Sum.inl ')'] := by
  simp [Piece.symbols]

theorem deparse_condition (pattern : List Char) (call : MatchCall) :
    (call.deparse pattern).flatMap Piece.symbols = call.condition.symbols := by
  rcases call with cf_type | _ | flags
  · change (deparseRegexOperator cf_type).flatMap Piece.symbols = _
    cases cf_type <;> decide +kernel
  · rw [MatchCall.deparse, deparseMatch, appendRegex_none]
    decide +kernel
  · have opened : "concat('(?".toList = "concat(".toList ++ ("'".toList ++ "(?".toList) := by
      decide
    have closed : ")', ".toList = [')'] ++ ("'".toList ++ ", ".toList) := by decide
    have called : "match(".toList = "match".toList ++ ['('] := by decide
    rw [MatchCall.deparse, deparseMatch, appendRegex_some, opened, closed, group_symbols,
      ← called]
    rfl

/-! ## Matching -/

/-- What a pattern is built from. -/
inductive Leaf
  | literal (c : Char)
  | dot
  deriving Repr, DecidableEq

abbrev Pattern := RegularExpression Leaf

/-- The patterns that both engines have in common, as they read them, and the characters that
they take for the same up to case. -/
structure Common where
  read : List Char → Option Pattern
  group : ∀ text, ['(', '?'] <+: text → read text = none
  same : Char → Char → Prop

variable (common : Common)

def Common.accepts (mode : Mode) : Leaf → Char → Prop
  | .literal c, d => if mode.icase then common.same c d else c = d
  | .dot, d => mode.newline.dotall = true ∨ d ≠ '\n'

def Common.Found (mode : Mode) (p : Pattern) (subject : List Char) : Prop :=
  LeafPattern.Found (common.accepts mode) p subject

open Classical in
noncomputable def Common.found (mode : Mode) (p : Pattern) (subject : List Char) : Bool :=
  decide (common.Found mode p subject)

/-! ### ClickHouse -/

/-- How RE2 reads a pattern, with an inline group in front. -/
def Common.re2 (text : List Char) : Option (Mode × Pattern) :=
  match text with
  | '(' :: '?' :: behind =>
      (parsePerlFlags false false startMode behind).bind fun (mode, rest) =>
        (common.read rest).map fun p => (mode, p)
  | _ => (common.read text).map fun p => (startMode, p)

/-- The value of a text; the arguments are the subject and the pattern. -/
def Text.value (subject pattern : List Char) : Text → List Char
  | .arg 0 => subject
  | .arg _ => pattern
  | .string s => s
  | .concat first second => first.value subject pattern ++ second.value subject pattern

/-- ClickHouse's answer, unless it cannot read the pattern. -/
noncomputable def Common.answer (common : Common) (subject pattern : List Char) :
    Condition → Option Bool
  | .match_ haystack needle =>
      (common.re2 (needle.value subject pattern)).map fun (mode, p) =>
        common.found mode p (haystack.value subject pattern)
  | .not condition => (common.answer subject pattern condition).map (!·)

/-! ### PostgreSQL -/

/-- The mode of an operator. -/
def custom_object_type.mode (cf_type : custom_object_type) : Mode :=
  { REG_ADVANCED with icase := cf_type.icase }.mode

/-- PostgreSQL's answer, unless it cannot read the pattern or the flags. -/
noncomputable def Common.postgres (subject pattern : List Char) : MatchCall → Option Bool
  | .operator cf_type =>
      (common.read pattern).map fun p =>
        let found := common.found cf_type.mode p subject
        if cf_type.negated then !found else found
  | .regexp_like flags =>
      (parse_re_flags REG_ADVANCED (flags.getD [])).bind fun pg =>
        (common.read pattern).map fun p => common.found pg.mode p subject

/-- A pattern that is found in the subject can be found so that none of its dots stands for a
newline. -/
def Common.Spared (mode : Mode) (p : Pattern) (subject : List Char) : Prop :=
  common.Found mode p subject →
    ∃ leaves ∈ p.matches', ∃ part, part <:+: subject ∧
      List.Forall₂ (common.accepts mode) leaves part ∧ (Leaf.dot, '\n') ∉ leaves.zip part

/-! ### Reading a pattern -/

variable {common}

theorem re2_group {flags pattern : List Char} {mode : Mode} {p : Pattern}
    (group : parsePerlFlags false false startMode (flags ++ ')' :: pattern) =
      some (mode, pattern)) (read : common.read pattern = some p) (subject : List Char) :
    common.re2 ((withGroup flags).value subject pattern) = some (mode, p) := by
  have text : (withGroup flags).value subject pattern =
      '(' :: '?' :: (flags ++ ')' :: pattern) := by
    simp [withGroup, Text.value]
  rw [text]
  simp only [Common.re2, group, Option.bind_some, read, Option.map_some]

theorem re2_plain {pattern : List Char} {p : Pattern} (read : common.read pattern = some p) :
    common.re2 pattern = some (startMode, p) := by
  unfold Common.re2
  split
  · rename_i behind
    have none := common.group ('(' :: '?' :: behind) ⟨behind, rfl⟩
    cases none.symm.trans read
  · rw [read]
    rfl

/-- The group of an operator. -/
theorem parsePerlFlags_operator (icase : Bool) (pattern : List Char) :
    parsePerlFlags false false startMode
        ((if icase then ['i'] else []) ++ ['-', 's'] ++ ')' :: pattern) =
      some (⟨icase, false, false⟩, pattern) := by
  cases icase <;> rfl

/-! ### The dot -/

theorem accepts_stop (icase multiline : Bool) (leaf : Leaf) (c : Char) :
    common.accepts ⟨icase, false, multiline⟩ leaf c ↔
      common.accepts ⟨icase, true, multiline⟩ leaf c ∧ (leaf, c) ≠ (.dot, '\n') := by
  rcases leaf with d | _
  · simp [Common.accepts]
  · simp [Common.accepts]

theorem found_stop (icase multiline : Bool) (p : Pattern) (subject : List Char) :
    common.Found ⟨icase, false, multiline⟩ p subject ↔
      ∃ leaves ∈ p.matches', ∃ part, part <:+: subject ∧
        List.Forall₂ (common.accepts ⟨icase, true, multiline⟩) leaves part ∧
        (Leaf.dot, '\n') ∉ leaves.zip part := by
  have stricter : common.accepts ⟨icase, false, multiline⟩ =
      fun leaf c => common.accepts ⟨icase, true, multiline⟩ leaf c ∧ (leaf, c) ≠ (.dot, '\n') := by
    funext leaf c
    exact propext (accepts_stop icase multiline leaf c)
  rw [Common.Found, stricter, LeafPattern.found_and_iff]
  constructor
  · rintro ⟨leaves, matched, part, inside, each, spared⟩
    exact ⟨leaves, matched, part, inside, each, fun member => spared _ member rfl⟩
  · rintro ⟨leaves, matched, part, inside, each, spared⟩
    refine ⟨leaves, matched, part, inside, each, fun pair member same => spared ?_⟩
    rw [← same]
    exact member

/-- The two modes find the same exactly if the newlines are spared. -/
theorem found_stop_iff (icase : Bool) (p : Pattern) (subject : List Char) :
    common.found ⟨icase, false, false⟩ p subject = common.found ⟨icase, true, false⟩ p subject ↔
      common.Spared ⟨icase, true, false⟩ p subject := by
  have weaker : common.Found ⟨icase, false, false⟩ p subject →
      common.Found ⟨icase, true, false⟩ p subject :=
    LeafPattern.Found.mono fun leaf c accepted => ((accepts_stop icase false leaf c).mp accepted).1
  rw [Common.found, Common.found, decide_eq_decide, Common.Spared, ← found_stop]
  exact ⟨fun same => same.mpr, fun spared => ⟨weaker, spared⟩⟩

/-- A match that is shipped gives PostgreSQL's answer, except that an operator's dot stands for
no newline. -/
theorem pushed_match_iff {call : MatchCall} (shipped : call.shipped = true) {pattern : List Char}
    {p : Pattern} (read : common.read pattern = some p) (subject : List Char) :
    (call.deparse pattern).flatMap Piece.symbols = call.condition.symbols ∧
      (common.answer subject pattern call.condition = common.postgres subject pattern call ↔
        ∀ cf_type, call = .operator cf_type → common.Spared cf_type.mode p subject) := by
  refine ⟨deparse_condition pattern call, ?_⟩
  rcases call with cf_type | _ | flags
  · have group := re2_group (parsePerlFlags_operator cf_type.icase pattern) read subject
    have mode : cf_type.mode = ⟨cf_type.icase, true, false⟩ := rfl
    have single : (∀ other, MatchCall.operator cf_type = .operator other →
        common.Spared other.mode p subject) ↔ common.Spared cf_type.mode p subject := by
      constructor
      · exact fun all => all cf_type rfl
      · rintro spared other same
        cases same
        exact spared
    rw [single, mode, ← found_stop_iff, Common.postgres, read, MatchCall.condition, mode]
    rcases cf_type.negated
    · simp [Common.answer, group, Text.value]
    · simp [Common.answer, group, Text.value]
  · refine iff_of_true ?_ nofun
    have plain : common.re2 (Text.value subject pattern (.arg 1)) = some (startMode, p) :=
      re2_plain read
    rw [MatchCall.condition, Common.answer, plain, Common.postgres, read]
    rfl
  · obtain ⟨pg, parsed, -, -, group⟩ := shipped_mode shipped pattern
    refine iff_of_true ?_ nofun
    rw [MatchCall.condition, Common.answer, re2_group group read subject, Common.postgres,
      Option.getD_some, parsed, Option.bind_some, read]
    rfl

/-! ### A newline in the subject -/

/-- Patterns of letters and dots, whose case is folded as in ASCII. -/
def letters : Common where
  read text :=
    if text.all (fun c => c.isAlpha || c == '.') then
      some (text.foldr (fun c p => .char (if c = '.' then .dot else .literal c) * p) 1)
    else none
  group := by
    rintro _ ⟨rest, rfl⟩
    exact if_neg (by simp)
  same c d := c.toLower = d.toLower

/-- An operator with a pattern without a dot. -/
theorem pushed_match_iff_letters :
    ((MatchCall.operator .CF_REGEX_ICASE_MATCH).deparse ['a']).flatMap Piece.symbols =
        (MatchCall.operator .CF_REGEX_ICASE_MATCH).condition.symbols ∧
      (letters.answer ['b', 'A'] ['a'] (MatchCall.operator .CF_REGEX_ICASE_MATCH).condition =
          letters.postgres ['b', 'A'] ['a'] (.operator .CF_REGEX_ICASE_MATCH) ↔
        ∀ cf_type, MatchCall.operator .CF_REGEX_ICASE_MATCH = .operator cf_type →
          letters.Spared cf_type.mode (.char (.literal 'a') * 1) ['b', 'A']) :=
  pushed_match_iff rfl rfl ['b', 'A']

/-- The pattern `a.b`. -/
def dotted : Pattern := .char (.literal 'a') * (.char .dot * (.char (.literal 'b') * 1))

theorem reads_dotted (mode : Mode) (part : List Char) :
    LeafPattern.Reads (letters.accepts mode) dotted part ↔
      ∃ x y z, part = [x, y, z] ∧ letters.accepts mode (.literal 'a') x ∧
        letters.accepts mode .dot y ∧ letters.accepts mode (.literal 'b') z := by
  unfold dotted
  simp only [LeafPattern.reads_mul, LeafPattern.reads_char, LeafPattern.reads_one]
  constructor
  · rintro ⟨_, _, rfl, ⟨x, rfl, first⟩, _, _, rfl, ⟨y, rfl, second⟩, _, _, rfl,
      ⟨z, rfl, third⟩, rfl⟩
    exact ⟨x, y, z, rfl, first, second, third⟩
  · rintro ⟨x, y, z, rfl, first, second, third⟩
    exact ⟨[x], [y, z], rfl, ⟨x, rfl, first⟩, [y], [z], rfl, ⟨y, rfl, second⟩, [z], [], rfl,
      ⟨z, rfl, third⟩, rfl⟩

theorem found_dotted : letters.Found ⟨false, true, false⟩ dotted ['a', '\n', 'b'] :=
  ⟨_, List.infix_rfl, (reads_dotted _ _).mpr ⟨'a', '\n', 'b', rfl, rfl, .inl rfl, rfl⟩⟩

theorem not_found_dotted : ¬letters.Found ⟨false, false, false⟩ dotted ['a', '\n', 'b'] := by
  rintro ⟨part, inside, reads⟩
  obtain ⟨x, y, z, rfl, -, dot, -⟩ := (reads_dotted _ _).mp reads
  cases inside.eq_of_length rfl
  rcases dot with on | other
  · cases on
  · exact other rfl

/-- `E'a\nb' ~ 'a.b'`, which PostgreSQL and the function find, and the operator does not. -/
theorem not_pushed_match :
    letters.answer ['a', '\n', 'b'] ['a', '.', 'b']
        (MatchCall.operator .CF_REGEX_MATCH).condition = some false ∧
      letters.answer ['a', '\n', 'b'] ['a', '.', 'b'] (MatchCall.regexp_like none).condition =
        some true ∧
      ¬∀ (common : Common) (call : MatchCall), call.shipped = true →
        ∀ (pattern : List Char) (p : Pattern), common.read pattern = some p →
          ∀ subject, common.answer subject pattern call.condition =
            common.postgres subject pattern call := by
  have read : letters.read ['a', '.', 'b'] = some dotted := rfl
  have group := re2_group (parsePerlFlags_operator false ['a', '.', 'b']) read ['a', '\n', 'b']
  have found : letters.found ⟨false, true, false⟩ dotted ['a', '\n', 'b'] = true := by
    unfold Common.found
    simp only [found_dotted, decide_true]
  have missed : letters.found ⟨false, false, false⟩ dotted ['a', '\n', 'b'] = false := by
    rw [Common.found, decide_eq_false_iff_not]
    exact not_found_dotted
  have operator : letters.answer ['a', '\n', 'b'] ['a', '.', 'b']
      (MatchCall.operator .CF_REGEX_MATCH).condition = some false :=
    (congrArg (Option.map _) group).trans (congrArg some missed)
  refine ⟨operator, congrArg some found, fun agrees => ?_⟩
  have same := agrees letters (.operator .CF_REGEX_MATCH) rfl ['a', '.', 'b'] dotted read
    ['a', '\n', 'b']
  cases (operator.symm.trans same).trans (congrArg some found)

end PgClickhouse.Regex

import Mathlib.Data.List.Forall2
import PgClickhouse.Basic

/-!
# Templates of `to_char`

A constant template of `to_char` is printed as the format of ClickHouse's
`formatDateTime`.  PostgreSQL's own scanner splits a template into date keywords, with
modifiers before and behind them, and characters; the other format has fields of a percent
sign and a letter.

* `chfdw_translate_to_char_format_iff`: a translated template reads the same on both sides
  exactly when none of its keywords has the postfix `SP`.
-/

namespace PgClickhouse

/-! ## The translation -/

/-- A keyword of `to_char`, and the field it is printed as, unless it is refused. -/
structure ToCharTok where
  pg : Bytes
  ch : Option Bytes

def to_char_toks : List ToCharTok :=
  [("Y,YYY", none), ("y,yyy", none), ("SSSSS", none), ("sssss", none), ("MONTH", none),
    ("Month", none), ("month", none), ("YYYY", some "%Y"), ("yyyy", some "%Y"),
    ("HH24", some "%H"), ("hh24", some "%H"), ("HH12", some "%I"), ("hh12", some "%I"),
    ("IYYY", none), ("iyyy", none), ("IDDD", none), ("iddd", none), ("SSSS", none),
    ("ssss", none), ("A.D.", none), ("a.d.", none), ("B.C.", none), ("b.c.", none),
    ("P.M.", none), ("p.m.", none), ("A.M.", none), ("a.m.", none), ("YYY", none),
    ("yyy", none), ("DDD", some "%j"), ("ddd", some "%j"), ("DAY", none), ("day", none),
    ("Day", none), ("Mon", some "%b"), ("MON", none), ("mon", none), ("IYY", none),
    ("iyy", none), ("FF1", none), ("FF2", none), ("FF3", none), ("FF4", none), ("FF5", none),
    ("FF6", none), ("ff1", none), ("ff2", none), ("ff3", none), ("ff4", none), ("ff5", none),
    ("ff6", none), ("TZH", none), ("tzh", none), ("TZM", none), ("tzm", none), ("AD", none),
    ("ad", none), ("AM", some "%p"), ("PM", some "%p"), ("am", none), ("pm", none),
    ("BC", none), ("bc", none), ("CC", none), ("cc", none), ("DD", some "%d"),
    ("dd", some "%d"), ("Dy", some "%a"), ("DY", none), ("dy", none), ("FM", none),
    ("fm", none), ("FX", none), ("fx", none), ("HH", some "%I"), ("hh", some "%I"),
    ("ID", none), ("id", none), ("IW", none), ("iw", none), ("IY", none), ("iy", none),
    ("MI", some "%i"), ("mi", some "%i"), ("MM", some "%m"), ("mm", some "%m"), ("MS", none),
    ("ms", none), ("OF", none), ("of", none), ("RM", none), ("rm", none), ("SS", some "%S"),
    ("ss", some "%S"), ("TM", none), ("tm", none), ("TZ", none), ("tz", none), ("US", none),
    ("us", none), ("WW", none), ("ww", none), ("YY", some "%y"), ("yy", some "%y"), ("D", none),
    ("d", none), ("I", none), ("i", none), ("J", none), ("j", none), ("Q", some "%Q"),
    ("q", some "%Q"), ("W", none), ("w", none), ("Y", none), ("y", none)].map fun (pg, ch) =>
        ⟨ascii pg, ch.map ascii⟩

/-- A literal character, with a percent sign doubled. -/
def append_char (c : UInt8) : Bytes := if c = 37 then [37, 37] else [c]

/-- The text behind an opening quote, and what follows its closing one. -/
@[grind =] def quoted_literal : Bytes → Bytes × Bytes
  | [] => ([], [])
  | [c] => if c = 34 then ([], []) else (append_char c, [])
  | c :: d :: p =>
      if c = 92 then
        (append_char d ++ (quoted_literal p).1, (quoted_literal p).2)
      else if c = 34 then ([], d :: p)
      else (append_char c ++ (quoted_literal (d :: p)).1, (quoted_literal (d :: p)).2)

/-- The ordinal postfix of a keyword. -/
def starts_ordinal : Bytes → Bool
  | c :: d :: _ => (c == 84 || c == 116) && (d == 72 || d == 104)
  | _ => false

theorem quoted_literal_length_le (p : Bytes) : (quoted_literal p).2.length ≤ p.length := by
  fun_induction quoted_literal p with
  | case1 => exact le_rfl
  | case2 => exact Nat.zero_le _
  | case3 => exact Nat.zero_le _
  | case4 d p ih => simp only [List.length_cons]; omega
  | case5 => simp only [List.length_cons]; omega
  | case6 c d p escape quote ih => exact ih.trans (Nat.le_succ _)

/-- The loop over the template. -/
@[grind =] def translate_loop (just_keyword : Bool) : Bytes → Option Bytes
  | [] => some []
  | c :: p =>
      if just_keyword && starts_ordinal (c :: p) then none
      else if c = 34 then
        (translate_loop false (quoted_literal p).2).map ((quoted_literal p).1 ++ ·)
      else if c = 92 ∧ p.head? = some 34 then
        (translate_loop false (p.drop 1)).map (34 :: ·)
      else
        match to_char_toks.find? fun t => t.pg.isPrefixOf (c :: p) with
        | some t =>
            match t.ch with
            | none => none
            | some ch => (translate_loop true (p.drop (t.pg.length - 1))).map (ch ++ ·)
        | none => (translate_loop false p).map (append_char c ++ ·)
termination_by p => p.length
decreasing_by
  · exact Nat.lt_succ_of_le (quoted_literal_length_le p)
  · rw [List.length_drop, List.length_cons]
    omega
  · rw [List.length_drop, List.length_cons]
    omega
  · exact Nat.lt_succ_self _

/-- The format for a template; `none` if it has none. -/
def chfdw_translate_to_char_format (pgfmt : Bytes) : Option Bytes := translate_loop false pgfmt

/-! ## PostgreSQL's scanner -/

def DCH_keywords : List Bytes :=
  ["A.D.", "A.M.", "AD", "AM", "B.C.", "BC", "CC", "DAY", "DDD", "DD", "DY", "Day", "Dy", "D",
    "FF1", "FF2", "FF3", "FF4", "FF5", "FF6", "FX", "HH24", "HH12", "HH", "IDDD", "ID", "IW",
    "IYYY", "IYY", "IY", "I", "J", "MI", "MM", "MONTH", "MON", "MS", "Month", "Mon", "OF",
    "P.M.", "PM", "Q", "RM", "SSSSS", "SSSS", "SS", "TZH", "TZM", "TZ", "US", "WW", "W",
    "Y,YYY", "YYYY", "YYY", "YY", "Y", "a.d.", "a.m.", "ad", "am", "b.c.", "bc", "cc", "day",
    "ddd", "dd", "dy", "d", "ff1", "ff2", "ff3", "ff4", "ff5", "ff6", "fx", "hh24", "hh12",
    "hh", "iddd", "id", "iw", "iyyy", "iyy", "iy", "i", "j", "mi", "mm", "month", "mon", "ms",
    "of", "p.m.", "pm", "q", "rm", "sssss", "ssss", "ss", "tzh", "tzm", "tz", "us", "ww", "w",
    "y,yyy", "yyyy", "yyy", "yy", "y"].map ascii

/-- The modifiers of a keyword; the first two stand before it. -/
inductive KeySuffix
  | FM
  | TM
  | TH
  | th
  | SP
  deriving Repr, DecidableEq

/-- What a template is split into. -/
inductive FormatNode
  | char (c : UInt8)
  | action (key : Bytes) (suffix : List KeySuffix)
  deriving Repr, DecidableEq

def prefix_search : Bytes → Option KeySuffix
  | 70 :: 77 :: _ => some .FM
  | 102 :: 109 :: _ => some .FM
  | 84 :: 77 :: _ => some .TM
  | 116 :: 109 :: _ => some .TM
  | _ => none

def postfix_search : Bytes → Option KeySuffix
  | 84 :: 72 :: _ => some .TH
  | 116 :: 104 :: _ => some .th
  | 83 :: 80 :: _ => some .SP
  | _ => none

/-- The characters behind an opening quote, and what follows the closing one. -/
@[grind =] def quoted_chars : Bytes → Bytes × Bytes
  | [] => ([], [])
  | [c] => if c = 34 then ([], []) else ([c], [])
  | c :: d :: str =>
      if c = 34 then ([], d :: str)
      else if c = 92 then (d :: (quoted_chars str).1, (quoted_chars str).2)
      else (c :: (quoted_chars (d :: str)).1, (quoted_chars (d :: str)).2)

/-- The postfix at the start of a text, if it has one, and what follows. -/
def postfix_step (str : Bytes) : List KeySuffix × Bytes :=
  match postfix_search str with
  | some s => ([s], str.drop 2)
  | none => ([], str)

/-- The keyword behind the modifiers `suffix`, or the character there. -/
@[grind =] def keyword_step (suffix : List KeySuffix) (str : Bytes) : List FormatNode × Bytes :=
  match DCH_keywords.find? fun key => key.isPrefixOf str with
  | some key =>
      ([.action key (suffix ++ (postfix_step (str.drop key.length)).1)],
        (postfix_step (str.drop key.length)).2)
  | none =>
      match str with
      | [] => ([], [])
      | c :: str =>
          if c = 34 then ((quoted_chars str).1.map .char, (quoted_chars str).2)
          else if c = 92 ∧ str.head? = some 34 then ([.char 34], str.drop 1)
          else ([.char c], str)

/-- One round of the scanner. -/
@[grind =] def format_step (str : Bytes) : List FormatNode × Bytes :=
  match prefix_search str with
  | some s => keyword_step [s] (str.drop 2)
  | none => keyword_step [] str

theorem quoted_chars_length_le (str : Bytes) : (quoted_chars str).2.length ≤ str.length := by
  fun_induction quoted_chars str with
  | case1 => exact le_rfl
  | case2 => exact Nat.zero_le _
  | case3 => exact Nat.zero_le _
  | case4 => simp only [List.length_cons]; omega
  | case5 d str quote ih => simp only [List.length_cons]; omega
  | case6 c d str quote escape ih => exact ih.trans (Nat.le_succ _)

theorem ne_nil_of_mem_DCH_keywords : ∀ key ∈ DCH_keywords, key ≠ [] := by decide +kernel

theorem keyword_step_length_le (suffix : List KeySuffix) (str : Bytes) :
    (keyword_step suffix str).2.length ≤ str.length - 1 := by
  unfold keyword_step
  split
  · rename_i key found
    have nonempty := List.length_pos_of_ne_nil
      (ne_nil_of_mem_DCH_keywords key (List.mem_of_find?_eq_some found))
    have shorter : (postfix_step (str.drop key.length)).2.length ≤ str.length - key.length := by
      unfold postfix_step
      split <;> simp only [List.length_drop] <;> omega
    exact shorter.trans (by omega)
  · split
    · exact Nat.zero_le _
    · rename_i c str _
      split
      · exact quoted_chars_length_le str
      · split
        · simp only [List.length_drop, List.length_cons]; omega
        · exact le_rfl

theorem format_step_length_lt (c : UInt8) (str : Bytes) :
    (format_step (c :: str)).2.length < (c :: str).length := by
  unfold format_step
  split
  · rename_i s found
    have shorter := keyword_step_length_le [s] ((c :: str).drop 2)
    simp only [List.length_drop, List.length_cons] at shorter ⊢
    omega
  · have shorter := keyword_step_length_le [] (c :: str)
    simp only [List.length_cons] at shorter ⊢
    omega

@[grind =] def parse_format : Bytes → List FormatNode
  | [] => []
  | c :: str => (format_step (c :: str)).1 ++ parse_format (format_step (c :: str)).2
termination_by str => str.length
decreasing_by exact format_step_length_lt c str

-- the longest keyword, and what follows it
example : parse_format (ascii "MONTHS") = [.action (ascii "MONTH") [], .char 83] := by
  decide +kernel

/-! ## ClickHouse's scanner -/

/-- What a format is split into.  A percent sign at its end is an error. -/
inductive DateTimeNode
  | char (c : UInt8)
  | field (letter : UInt8)
  | dangling
  deriving Repr, DecidableEq

@[grind =] def formatDateTime_nodes : Bytes → List DateTimeNode
  | [] => []
  | [c] => if c = 37 then [.dangling] else [.char c]
  | c :: d :: format =>
      if c = 37 then
        (if d = 37 then .char 37 else .field d) :: formatDateTime_nodes format
      else .char c :: formatDateTime_nodes (d :: format)

/-! ## Counterparts -/

/-- The fields that both sides print alike. -/
inductive DateField
  | year
  | yearOfCentury
  | quarter
  | month
  | monthName
  | dayOfYear
  | day
  | dayName
  | hour
  | hourOfHalf
  | half
  | minute
  | second
  deriving DecidableEq

def postgresFields : List (Bytes × DateField) :=
  [("YYYY", .year), ("yyyy", .year), ("YY", .yearOfCentury), ("yy", .yearOfCentury),
    ("Q", .quarter), ("q", .quarter), ("MM", .month), ("mm", .month), ("Mon", .monthName),
    ("DDD", .dayOfYear), ("ddd", .dayOfYear), ("DD", .day), ("dd", .day), ("Dy", .dayName),
    ("HH24", .hour), ("hh24", .hour), ("HH12", .hourOfHalf), ("hh12", .hourOfHalf),
    ("HH", .hourOfHalf), ("hh", .hourOfHalf), ("AM", .half), ("PM", .half), ("MI", .minute),
    ("mi", .minute), ("SS", .second), ("ss", .second)].map fun (key, f) => (ascii key, f)

def clickhouseFields : List (UInt8 × DateField) :=
  [('Y', .year), ('y', .yearOfCentury), ('Q', .quarter), ('m', .month), ('b', .monthName),
    ('j', .dayOfYear), ('d', .day), ('a', .dayName), ('H', .hour), ('I', .hourOfHalf),
    ('p', .half), ('i', .minute), ('S', .second)].map
    fun (letter, f) => (letter.toNat.toUInt8, f)

/-- The modifier `SP` alone does not change what a keyword prints. -/
inductive Counterpart : FormatNode → DateTimeNode → Prop
  | char (c : UInt8) : Counterpart (.char c) (.char c)
  | field {key : Bytes} {suffix : List KeySuffix} {letter : UInt8} {f : DateField}
      (key_field : (key, f) ∈ postgresFields) (letter_field : (letter, f) ∈ clickhouseFields)
      (plain : ∀ s ∈ suffix, s = .SP) : Counterpart (.action key suffix) (.field letter)

/-- The keyword has the postfix `SP`. -/
def FormatNode.Spelled : FormatNode → Prop
  | .char _ => False
  | .action _ suffix => .SP ∈ suffix

/-! ## One keyword on both sides -/

section LongestFirst

variable {α : Type*} [DecidableEq α] {table : List (List α)} {str name : List α}

theorem prefix_of_find?_eq_some (found : table.find? (fun a => a.isPrefixOf str) = some name) :
    name ∈ table ∧ name <+: str := by
  have starts := List.find?_some found
  exact ⟨List.mem_of_find?_eq_some found, List.isPrefixOf_iff_prefix.mp starts⟩

theorem not_prefix_of_find?_eq_none (none_ : table.find? (fun a => a.isPrefixOf str) = none) :
    ∀ a ∈ table, ¬a <+: str := by
  intro a member starts
  exact List.find?_eq_none.mp none_ a member (List.isPrefixOf_iff_prefix.mpr starts)

/-- In a table with no name before a longer one the first match is the longest. -/
theorem longest_of_find?_eq_some (ordered : table.Pairwise fun a b => ¬a <+: b)
    (found : table.find? (fun a => a.isPrefixOf str) = some name) {b : List α}
    (member : b ∈ table) (starts : b <+: str) : b <+: name := by
  induction table with
  | nil => cases member
  | cons a table ih =>
      have head := List.pairwise_cons.mp ordered
      rw [List.find?_cons] at found
      rcases matched : a.isPrefixOf str with _ | _
      · rw [matched] at found
        rcases List.mem_cons.mp member with rfl | member
        · exact absurd (List.isPrefixOf_iff_prefix.mpr starts) (by simp [matched])
        · exact ih head.2 found member
      · rw [matched] at found
        cases found
        rcases List.mem_cons.mp member with rfl | member
        · exact List.prefix_rfl
        · rcases List.prefix_or_prefix_of_prefix starts
            (List.isPrefixOf_iff_prefix.mp matched) with shorter | longer
          · exact shorter
          · exact absurd longer (head.1 b member)

end LongestFirst

/-- The names the translation looks for. -/
def tok_names : List Bytes := to_char_toks.map ToCharTok.pg

-- the names are in the order in which they are tried
example : tok_names.find? (fun name => name.isPrefixOf (ascii "MONTHS")) =
    some (ascii "MONTH") := by
  decide +kernel

/-- The modifiers that stand before a keyword. -/
def modifiers : List Bytes := ["FM", "fm", "TM", "tm"].map ascii

/-- What is read off the tables: no name begins another one that comes after it, and what is
printed for a keyword is its counterpart. -/
structure Tables : Prop where
  names : tok_names.Pairwise fun a b => ¬a <+: b
  keywords : DCH_keywords.Pairwise fun a b => ¬a <+: b
  keyword_name : ∀ key ∈ DCH_keywords, key ∈ tok_names
  modifier_name : ∀ name ∈ modifiers, name ∈ tok_names
  field : ∀ t ∈ to_char_toks, ∀ ch ∈ t.ch, t.pg ∈ DCH_keywords ∧
    (∀ name ∈ modifiers, ¬name <+: t.pg) ∧
    ∃ entry ∈ clickhouseFields, ch = [37, entry.1] ∧ entry.1 ≠ 37 ∧
      (t.pg, entry.2) ∈ postgresFields
  head : ∀ t ∈ to_char_toks, t.pg ≠ [] ∧ t.pg.head? ≠ some 34 ∧ t.pg.head? ≠ some 92
  no_SP : ∀ t ∈ to_char_toks, ¬(t.pg.take 2) <+: [83, 80]
  only_PM : ∀ t ∈ to_char_toks, t.pg.head? = some 80 → t.ch.isSome = true → t.pg = [80, 77]

theorem tables : Tables := by
  constructor
  all_goals decide +kernel

theorem modifier_of_prefix_search {str : Bytes} {s : KeySuffix}
    (found : prefix_search str = some s) : ∃ name ∈ modifiers, name <+: str := by
  unfold prefix_search at found
  split at found
  · exact ⟨[70, 77], by decide, _, rfl⟩
  · exact ⟨[102, 109], by decide, _, rfl⟩
  · exact ⟨[84, 77], by decide, _, rfl⟩
  · exact ⟨[116, 109], by decide, _, rfl⟩
  · cases found

section

variable {str : Bytes} {t : ToCharTok} {ch : Bytes}

theorem find?_tok_names : tok_names.find? (fun a => a.isPrefixOf str) =
    (to_char_toks.find? fun t => t.pg.isPrefixOf str).map ToCharTok.pg :=
  List.find?_map ..

/-- A keyword the translation prints is the one that PostgreSQL reads. -/
theorem keyword_of_tok (found : to_char_toks.find? (fun t => t.pg.isPrefixOf str) = some t)
    (printed : t.ch = some ch) : prefix_search str = none ∧
      DCH_keywords.find? (fun key => key.isPrefixOf str) = some t.pg := by
  have names : tok_names.find? (fun a => a.isPrefixOf str) = some t.pg := by
    rw [find?_tok_names, found]
    rfl
  obtain ⟨keyword, unmodified, -⟩ :=
    Tables.field tables t (List.mem_of_find?_eq_some found) ch printed
  have starts := (prefix_of_find?_eq_some names).2
  constructor
  · rcases searched : prefix_search str with _ | s
    · rfl
    · obtain ⟨name, modifier, begins⟩ := modifier_of_prefix_search searched
      exact absurd (longest_of_find?_eq_some (Tables.names tables) names
        (Tables.modifier_name tables name modifier) begins) (unmodified name modifier)
  · rcases key : DCH_keywords.find? (fun key => key.isPrefixOf str) with _ | key'
    · exact absurd starts (not_prefix_of_find?_eq_none key t.pg keyword)
    · obtain ⟨member, begins⟩ := prefix_of_find?_eq_some key
      have longer := longest_of_find?_eq_some (Tables.keywords tables) key keyword starts
      have shorter := longest_of_find?_eq_some (Tables.names tables) names
        (Tables.keyword_name tables key' member) begins
      rw [longer.eq_of_length (Nat.le_antisymm longer.length_le shorter.length_le)]
      exact key

/-- Where the translation finds no keyword PostgreSQL reads none and no modifier. -/
theorem no_keyword_of_tok
    (none_ : to_char_toks.find? (fun t => t.pg.isPrefixOf str) = none) :
    prefix_search str = none ∧ DCH_keywords.find? (fun key => key.isPrefixOf str) = none := by
  have names : tok_names.find? (fun a => a.isPrefixOf str) = none := by
    rw [find?_tok_names, none_]
    rfl
  have absent := not_prefix_of_find?_eq_none names
  constructor
  · rcases searched : prefix_search str with _ | s
    · rfl
    · obtain ⟨name, modifier, begins⟩ := modifier_of_prefix_search searched
      exact absurd begins (absent name (Tables.modifier_name tables name modifier))
  · rw [List.find?_eq_none]
    intro key member begins
    exact absent key (Tables.keyword_name tables key member)
      (List.isPrefixOf_iff_prefix.mp begins)

end

/-! ## One round on both sides -/

/-- Both sides split a quoted text alike. -/
theorem quoted_literal_eq (p : Bytes) : quoted_literal p =
    ((quoted_chars p).1.flatMap append_char, (quoted_chars p).2) := by
  fun_induction quoted_literal p with
  | case1 => rfl
  | case2 => rfl
  | case3 c quote =>
      rw [quoted_chars, if_neg quote]
      simp
  | case4 d p ih =>
      rw [ih, quoted_chars, if_neg (by decide), if_pos rfl, List.flatMap_cons]
  | case5 => rfl
  | case6 c d p escape quote ih =>
      rw [ih, quoted_chars, if_neg quote, if_neg escape, List.flatMap_cons]

theorem formatDateTime_nodes_cons {c : UInt8} (plain : c ≠ 37) (format : Bytes) :
    formatDateTime_nodes (c :: format) = .char c :: formatDateTime_nodes format := by
  rcases format with _ | ⟨d, format⟩
  · exact if_neg plain
  · exact if_neg plain

theorem formatDateTime_nodes_field {letter : UInt8} (other : letter ≠ 37) (format : Bytes) :
    formatDateTime_nodes (37 :: letter :: format) =
      .field letter :: formatDateTime_nodes format := by
  rw [formatDateTime_nodes, if_pos rfl, if_neg other]

theorem formatDateTime_nodes_char (c : UInt8) (format : Bytes) :
    formatDateTime_nodes (append_char c ++ format) = .char c :: formatDateTime_nodes format := by
  by_cases percent : c = 37
  · rw [percent]
    rfl
  · rw [append_char, if_neg percent]
    exact formatDateTime_nodes_cons percent format

theorem formatDateTime_nodes_chars (q format : Bytes) :
    formatDateTime_nodes (q.flatMap append_char ++ format) =
      q.map .char ++ formatDateTime_nodes format := by
  induction q with
  | nil => rfl
  | cons c q ih =>
      rw [List.flatMap_cons, List.append_assoc, formatDateTime_nodes_char, ih]
      rfl

/-- Without a keyword before it a template is translated as with one, unless it is refused. -/
theorem translate_loop_false {p out : Bytes} (translated : translate_loop true p = some out) :
    translate_loop false p = some out := by
  rcases p with _ | ⟨c, p⟩
  · rw [translate_loop] at translated ⊢
    exact translated
  · rw [translate_loop] at translated ⊢
    rw [Bool.false_and, if_neg Bool.false_ne_true]
    split at translated
    · cases translated
    · exact translated

/-- No keyword begins with the byte `a`. -/
theorem no_keyword_of_head {a : UInt8}
    (other : ∀ t ∈ to_char_toks, t.pg ≠ [] ∧ t.pg.head? ≠ some a) (p : Bytes) :
    to_char_toks.find? (fun t => t.pg.isPrefixOf (a :: p)) = none := by
  rw [List.find?_eq_none]
  intro t member starts
  obtain ⟨rest, same⟩ := List.isPrefixOf_iff_prefix.mp starts
  obtain ⟨nonempty, head⟩ := other t member
  rcases name : t.pg with _ | ⟨b, name'⟩
  · exact nonempty name
  · rw [name, List.cons_append, List.cons.injEq] at same
    exact head (by rw [name, same.1]; rfl)

theorem format_step_quote (p : Bytes) :
    format_step (34 :: p) = ((quoted_chars p).1.map .char, (quoted_chars p).2) := by
  obtain ⟨unmodified, keyword⟩ := no_keyword_of_tok (no_keyword_of_head
    (fun t member => ⟨(Tables.head tables t member).1, (Tables.head tables t member).2.1⟩) p)
  rw [format_step, unmodified]
  simp only [keyword_step, keyword, if_true]

theorem format_step_escape {p : Bytes} (quote : p.head? = some 34) :
    format_step (92 :: p) = ([.char 34], p.drop 1) := by
  obtain ⟨unmodified, keyword⟩ := no_keyword_of_tok (no_keyword_of_head
    (fun t member => ⟨(Tables.head tables t member).1, (Tables.head tables t member).2.2⟩) p)
  rw [format_step, unmodified]
  simp [keyword_step, keyword, quote]

theorem format_step_char {c : UInt8} {p : Bytes} (quote : c ≠ 34)
    (escape : ¬(c = 92 ∧ p.head? = some 34))
    (none_ : to_char_toks.find? (fun t => t.pg.isPrefixOf (c :: p)) = none) :
    format_step (c :: p) = ([.char c], p) := by
  obtain ⟨unmodified, keyword⟩ := no_keyword_of_tok none_
  rw [format_step, unmodified]
  simp only [keyword_step, keyword, if_neg quote, if_neg escape]

theorem format_step_keyword {c : UInt8} {p ch : Bytes} {t : ToCharTok}
    (found : to_char_toks.find? (fun t => t.pg.isPrefixOf (c :: p)) = some t)
    (printed : t.ch = some ch) :
    format_step (c :: p) = ([.action t.pg (postfix_step (p.drop (t.pg.length - 1))).1],
      (postfix_step (p.drop (t.pg.length - 1))).2) := by
  obtain ⟨unmodified, keyword⟩ := keyword_of_tok found printed
  have dropped : (c :: p).drop t.pg.length = p.drop (t.pg.length - 1) := by
    rcases name : t.pg with _ | ⟨b, name'⟩
    · exact absurd name (Tables.head tables t (List.mem_of_find?_eq_some found)).1
    · rfl
  rw [format_step, unmodified, ← dropped]
  simp only [keyword_step, keyword, List.nil_append]

/-- What one round reads: literal characters, which are characters to both sides, or a keyword. -/
theorem translate_loop_step {c : UInt8} {p out : Bytes}
    (translated : translate_loop false (c :: p) = some out) :
    (∃ q rest later : Bytes, format_step (c :: p) = (q.map .char, rest) ∧
      translate_loop false rest = some later ∧
      formatDateTime_nodes out = q.map .char ++ formatDateTime_nodes later) ∨
    ∃ (key : Bytes) (f : DateField) (letter : UInt8) (rest later : Bytes),
      (key, f) ∈ postgresFields ∧ (letter, f) ∈ clickhouseFields ∧
      format_step (c :: p) =
        ([.action key (postfix_step rest).1], (postfix_step rest).2) ∧
      translate_loop true rest = some later ∧
      formatDateTime_nodes out = .field letter :: formatDateTime_nodes later := by
  rw [translate_loop, Bool.false_and, if_neg Bool.false_ne_true] at translated
  split at translated
  · rename_i quote
    rw [quoted_literal_eq, Option.map_eq_some_iff] at translated
    obtain ⟨later, behind, rfl⟩ := translated
    exact .inl ⟨_, _, later, quote ▸ format_step_quote p, behind,
      formatDateTime_nodes_chars _ _⟩
  · rename_i quote
    split at translated
    · rename_i escape
      rw [Option.map_eq_some_iff] at translated
      obtain ⟨later, behind, rfl⟩ := translated
      exact .inl ⟨[34], p.drop 1, later, escape.1 ▸ format_step_escape escape.2, behind,
        formatDateTime_nodes_cons (by decide) _⟩
    · rename_i escape
      split at translated
      · rename_i t found
        split at translated
        · cases translated
        · rename_i ch printed
          rw [Option.map_eq_some_iff] at translated
          obtain ⟨later, behind, rfl⟩ := translated
          obtain ⟨-, -, ⟨letter, f⟩, member, rfl, other, counterpart⟩ :=
            Tables.field tables t (List.mem_of_find?_eq_some found) ch printed
          exact .inr ⟨t.pg, f, letter, p.drop (t.pg.length - 1), later, counterpart, member,
            format_step_keyword found printed, behind, formatDateTime_nodes_field other _⟩
      · rename_i none_
        rw [Option.map_eq_some_iff] at translated
        obtain ⟨later, behind, rfl⟩ := translated
        exact .inl ⟨[c], p, later, format_step_char quote escape none_, behind,
          formatDateTime_nodes_char c later⟩

/-! ## Whole templates -/

theorem parse_format_cons (c : UInt8) (str : Bytes) : parse_format (c :: str) =
    (format_step (c :: str)).1 ++ parse_format (format_step (c :: str)).2 := by
  rw [parse_format]

theorem forall₂_chars_append_iff (q : Bytes) {nodes : List FormatNode}
    {fields : List DateTimeNode} :
    List.Forall₂ Counterpart (q.map .char ++ nodes) (q.map .char ++ fields) ↔
      List.Forall₂ Counterpart nodes fields := by
  induction q with
  | nil => rfl
  | cons c q ih =>
      rw [List.map_cons, List.map_cons, List.cons_append, List.cons_append,
        List.forall₂_cons, ih]
      exact and_iff_right (.char c)

/-- Characters in the way of the characters that both sides read stay in the way. -/
theorem forall₂_chars_behind {q w : Bytes} {nodes : List FormatNode} {fields : List DateTimeNode}
    (ne : w ≠ []) (same : List.Forall₂ Counterpart (q.map .char ++ nodes)
      (w.map .char ++ (q.map .char ++ fields))) :
    ∃ w' : Bytes, w' ≠ [] ∧ List.Forall₂ Counterpart nodes (w'.map .char ++ fields) := by
  induction q generalizing w with
  | nil => exact ⟨w, ne, same⟩
  | cons c q ih =>
      rcases w with _ | ⟨d, w⟩
      · exact absurd rfl ne
      · obtain ⟨head, tail⟩ := List.forall₂_cons.mp same
        refine ih (w := w ++ [c]) (by simp) ?_
        rw [List.map_append, List.append_assoc]
        exact tail

/-- The rest of a template never matches itself behind literal characters. -/
theorem not_forall₂_behind (fmt : Bytes) {out : Bytes}
    (translated : translate_loop false fmt = some out) (w : Bytes) (ne : w ≠ []) :
    ¬List.Forall₂ Counterpart (parse_format fmt) (w.map .char ++ formatDateTime_nodes out) := by
  induction length : fmt.length using Nat.strong_induction_on generalizing fmt out w with
  | _ n ih =>
      subst length
      intro same
      rcases fmt with _ | ⟨c, p⟩
      · rw [parse_format] at same
        rcases w with _ | ⟨d, w⟩
        · exact ne rfl
        · cases same
      have shorter := format_step_length_lt c p
      rw [parse_format_cons] at same
      rcases translate_loop_step translated with ⟨q, rest, later, step, behind, nodes⟩ |
        ⟨key, f, letter, rest, later, -, -, step, -, -⟩
      · rw [step] at same shorter
        rw [nodes] at same
        obtain ⟨w', ne', tail⟩ := forall₂_chars_behind ne same
        exact ih _ shorter rest behind w' ne' rfl tail
      · rcases w with _ | ⟨d, w⟩
        · exact ne rfl
        · rw [step] at same
          cases (List.forall₂_cons.mp same).1

/-- Behind a keyword of a translated template stands no postfix but `SP`. -/
theorem postfix_of_translated {rest later : Bytes}
    (translated : translate_loop true rest = some later) :
    postfix_step rest = ([], rest) ∨
      ∃ p, rest = 83 :: 80 :: p ∧ postfix_step rest = ([.SP], p) := by
  have unordinal : starts_ordinal rest = false := by
    rcases rest with _ | ⟨c, p⟩
    · rfl
    · rw [translate_loop, Bool.true_and] at translated
      rcases ordinal : starts_ordinal (c :: p) with _ | _
      · rfl
      · rw [if_pos ordinal] at translated
        cases translated
  rcases found : postfix_search rest with _ | s
  · exact .inl (by rw [postfix_step, found])
  · refine .inr ?_
    unfold postfix_search at found
    split at found
    · cases unordinal
    · cases unordinal
    · exact ⟨_, rfl, rfl⟩
    · cases found

/-- What the translation reads where no keyword begins. -/
theorem translate_loop_char {c : UInt8} {p out : Bytes} (quote : c ≠ 34) (escape : c ≠ 92)
    (none_ : to_char_toks.find? (fun t => t.pg.isPrefixOf (c :: p)) = none)
    (translated : translate_loop false (c :: p) = some out) :
    ∃ later, translate_loop false p = some later ∧
      formatDateTime_nodes out = .char c :: formatDateTime_nodes later := by
  rw [translate_loop, Bool.false_and, if_neg Bool.false_ne_true, if_neg quote,
    if_neg fun both => escape both.1, none_, Option.map_eq_some_iff] at translated
  obtain ⟨later, behind, rfl⟩ := translated
  exact ⟨later, behind, formatDateTime_nodes_char c later⟩

/-- A template that begins with an `M` does not begin with the character `S`. -/
theorem not_forall₂_M (p : Bytes) (fields : List DateTimeNode) :
    ¬List.Forall₂ Counterpart (parse_format (77 :: p)) (.char 83 :: fields) := by
  rw [parse_format_cons]
  have unmodified : prefix_search (77 :: p) = none := rfl
  rw [format_step, unmodified]
  intro same
  rcases keyword : DCH_keywords.find? (fun key => key.isPrefixOf (77 :: p)) with _ | key
  · simp only [keyword_step, keyword] at same
    cases (List.forall₂_cons.mp same).1
  · simp only [keyword_step, keyword] at same
    cases (List.forall₂_cons.mp same).1

/-- A template does not read as the text of the postfix `SP` before it. -/
theorem not_forall₂_postfix {p later : Bytes}
    (translated : translate_loop false (83 :: 80 :: p) = some later) :
    ¬List.Forall₂ Counterpart (parse_format p) (formatDateTime_nodes later) := by
  have absent : to_char_toks.find? (fun t => t.pg.isPrefixOf (83 :: 80 :: p)) = none := by
    rw [List.find?_eq_none]
    intro t member starts
    exact Tables.no_SP tables t member (List.prefix_take_iff.mpr
      ⟨(List.take_prefix 2 t.pg).trans (List.isPrefixOf_iff_prefix.mp starts),
        List.length_take_le 2 t.pg⟩ : t.pg.take 2 <+: (83 :: 80 :: p).take 2)
  obtain ⟨out, behind, nodes⟩ := translate_loop_char (by decide) (by decide) absent translated
  rw [nodes]
  rcases found : to_char_toks.find? (fun t => t.pg.isPrefixOf (80 :: p)) with _ | t
  · obtain ⟨out', behind', nodes'⟩ := translate_loop_char (by decide) (by decide) found behind
    rw [nodes']
    exact not_forall₂_behind p behind' [83, 80] (List.cons_ne_nil _ _)
  · -- The `P` is the first letter of `PM`, so that the template begins with an `M`.
    have member := List.mem_of_find?_eq_some found
    have starts := List.find?_some found
    obtain ⟨rest, same⟩ := List.isPrefixOf_iff_prefix.mp starts
    have head : t.pg.head? = some 80 := by
      rcases name : t.pg with _ | ⟨b, name'⟩
      · exact absurd name (Tables.head tables t member).1
      · rw [name, List.cons_append, List.cons.injEq] at same
        rw [same.1]
        rfl
    have printed : t.ch.isSome = true := by
      rcases refused : t.ch with _ | ch
      · rw [translate_loop, Bool.false_and, if_neg Bool.false_ne_true, if_neg (by decide),
          if_neg fun both => absurd both.1 (by decide), found] at behind
        simp only [refused] at behind
        cases behind
      · rfl
    rw [Tables.only_PM tables t member head printed, List.cons_append, List.cons.injEq] at same
    rw [← same.2]
    exact not_forall₂_M rest _

/-- A translated template reads the same on both sides exactly when none of its keywords has
the postfix `SP`. -/
theorem chfdw_translate_to_char_format_iff (pgfmt out : Bytes)
    (translated : chfdw_translate_to_char_format pgfmt = some out) :
    List.Forall₂ Counterpart (parse_format pgfmt) (formatDateTime_nodes out) ↔
      ∀ node ∈ parse_format pgfmt, ¬node.Spelled := by
  rw [chfdw_translate_to_char_format] at translated
  induction length : pgfmt.length using Nat.strong_induction_on generalizing pgfmt out with
  | _ n ih =>
      subst length
      rcases pgfmt with _ | ⟨c, p⟩
      · rw [translate_loop] at translated
        cases translated
        rw [parse_format]
        exact iff_of_true .nil nofun
      have shorter := format_step_length_lt c p
      rw [parse_format_cons]
      rcases translate_loop_step translated with ⟨q, rest, later, step, behind, nodes⟩ |
        ⟨key, f, letter, rest, later, key_field, letter_field, step, behind, nodes⟩
      · rw [step] at shorter ⊢
        rw [nodes, forall₂_chars_append_iff, ih _ shorter rest later behind rfl,
          List.forall_mem_append]
        refine (and_iff_right fun node member => ?_).symm
        obtain ⟨c, -, rfl⟩ := List.mem_map.mp member
        exact not_false
      · have behind' := translate_loop_false behind
        rw [step] at shorter ⊢
        rw [nodes]
        rcases postfix_of_translated behind with plain | ⟨p', rfl, spelled⟩
        · rw [plain] at shorter ⊢
          rw [List.singleton_append, List.forall₂_cons, List.forall_mem_cons,
            ih _ shorter rest later behind' rfl]
          exact and_congr_left' (iff_of_true (.field key_field letter_field nofun) nofun)
        · rw [spelled]
          refine iff_of_false (fun same => ?_) fun unspelled => ?_
          · exact not_forall₂_postfix behind' (List.forall₂_cons.mp same).2
          · exact unspelled _ List.mem_cons_self List.mem_cons_self

/-- `YYYY-MM-DD "at" HH24:MI` has no `SP`. -/
theorem chfdw_translate_to_char_format_plain :
    List.Forall₂ Counterpart (parse_format (ascii "YYYY-MM-DD \"at\" HH24:MI"))
      (formatDateTime_nodes (ascii "%Y-%m-%d at %H:%i")) :=
  (chfdw_translate_to_char_format_iff (ascii "YYYY-MM-DD \"at\" HH24:MI")
    (ascii "%Y-%m-%d at %H:%i") (by decide +kernel)).mpr fun node member spelled => by
      have plain : ∀ node ∈ parse_format (ascii "YYYY-MM-DD \"at\" HH24:MI"),
          node = .action (ascii "YYYY") [] ∨ node = .action (ascii "MM") [] ∨
            node = .action (ascii "DD") [] ∨ node = .action (ascii "HH24") [] ∨
            node = .action (ascii "MI") [] ∨ ∃ c ∈ ascii "- at:", node = .char c := by
        decide +kernel
      rcases plain node member with rfl | rfl | rfl | rfl | rfl | ⟨c, -, rfl⟩ <;> cases spelled

/-- `DDSP` is a keyword with its postfix, but its translation `%dSP` has two characters more. -/
theorem not_chfdw_translate_to_char_format :
    chfdw_translate_to_char_format (ascii "DDSP") = some (ascii "%dSP") ∧
      ¬List.Forall₂ Counterpart (parse_format (ascii "DDSP"))
        (formatDateTime_nodes (ascii "%dSP")) := by
  refine ⟨by decide +kernel, fun same => ?_⟩
  have lengths := same.length_eq
  exact absurd lengths (by decide +kernel)

end PgClickhouse

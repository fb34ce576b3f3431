import PgClickhouse.Options

/-!
# The format of the options string

A settings text lists names and values with commas between them and blanks around them.
A value stands in single quotes, or bare with its blanks, commas and backslashes escaped.

* `chfdw_parse_options_commaEnded_iff`: the parser gives back what a text lists exactly when
  no bare value has blanks between it and a comma and none begins with a quote.
* `chfdw_parse_options_commaEnded_error`: behind such settings a missing value, an open quote or a
  missing comma is an error that names its setting.
-/

namespace PgClickhouse

/-! ## Texts of the format -/

/-- A byte of a value as it is written, behind a backslash or bare. -/
structure Written where
  byte : UInt8
  escaped : Bool
  deriving DecidableEq

def Written.text (w : Written) : Bytes := if w.escaped then [92, w.byte] else [w.byte]

/-- The bytes a value cannot hold bare. -/
def special (quoted : Bool) (c : UInt8) : Bool :=
  if quoted then c == 39 || c == 92 else isspace c || c == 44 || c == 92

/-- A name with the blanks before it. -/
structure SettingName where
  before : Bytes
  name : Bytes
  before_blank : ∀ c ∈ before, isspace c = true
  name_ne : name ≠ []
  name_unblank : ∀ c ∈ name, isspace c = false

def SettingName.text (n : SettingName) : Bytes := n.before ++ n.name

/-- A name and a value, with the way they are written. -/
structure Setting extends SettingName where
  between : Bytes
  quoted : Bool
  value : List Written
  after : Bytes
  between_ne : between ≠ []
  between_blank : ∀ c ∈ between, isspace c = true
  value_ne : value ≠ []
  value_escaped : ∀ w ∈ value, special quoted w.byte = true → w.escaped = true
  after_blank : ∀ c ∈ after, isspace c = true

namespace Setting

def valueText (s : Setting) : Bytes :=
  if s.quoted then 39 :: (s.value.flatMap Written.text ++ [39]) else s.value.flatMap Written.text

def text (s : Setting) : Bytes := s.toSettingName.text ++ (s.between ++ (s.valueText ++ s.after))

/-- The pair the setting stands for. -/
def pair (s : Setting) : DefElem := ⟨s.name, some (s.value.map Written.byte)⟩

/-- A bare value does not begin with a bare quote. -/
def Recognizable (s : Setting) : Prop :=
  s.quoted = true ∨ s.value.head? ≠ some ⟨39, false⟩

/-- Nor does it have blanks between it and the comma behind it. -/
def Closed (s : Setting) : Prop :=
  s.Recognizable ∧ (s.quoted = true ∨ s.after = [])

end Setting

/-- How a settings text ends: behind a comma, if it lists anything, or with a setting. -/
inductive Ending
  | blanks (text : Bytes) (blank : ∀ c ∈ text, isspace c = true)
  | setting (last : Setting)

def Ending.text : Ending → Bytes
  | .blanks text _ => text
  | .setting last => last.text

def Ending.settings : Ending → List Setting
  | .blanks _ _ => []
  | .setting last => [last]

/-- Settings with a comma behind each of them, and then `rest`. -/
def commaEnded (settings : List Setting) (rest : Bytes) : Bytes :=
  settings.foldr (fun s rest => s.text ++ 44 :: rest) rest

/-- The errors of the format: what follows the settings that are well formed. -/
inductive Broken : OptionsError → Bytes → Prop
  | valueAtEnd (n : SettingName) (blanks : Bytes) (blank : ∀ c ∈ blanks, isspace c = true) :
      Broken (.missingValue n.name) (n.text ++ blanks)
  | valueAtComma (n : SettingName) (blanks rest : Bytes) (ne : blanks ≠ [])
      (blank : ∀ c ∈ blanks, isspace c = true) :
      Broken (.missingValue n.name) (n.text ++ (blanks ++ 44 :: rest))
  | openQuote (n : SettingName) (blanks : Bytes) (ne : blanks ≠ [])
      (blank : ∀ c ∈ blanks, isspace c = true) (value : List Written)
      (escaped : ∀ w ∈ value, special true w.byte = true → w.escaped = true)
      (last : Bytes) (last_slash : last = [] ∨ last = [92]) :
      Broken .unterminated (n.text ++ (blanks ++ 39 :: (value.flatMap Written.text ++ last)))
  | comma (s : Setting) (recognizable : s.Recognizable) (apart : s.quoted = true ∨ s.after ≠ [])
      (c : UInt8) (rest : Bytes) (unblank : isspace c = false) (other : c ≠ 44) :
      Broken (.missingComma s.name) (s.text ++ c :: rest)

/-! ## Reading a name -/

theorem dropWhile_blanks {blanks : Bytes} (blank : ∀ c ∈ blanks, isspace c = true)
    (rest : Bytes) : (blanks ++ rest).dropWhile isspace = rest.dropWhile isspace := by
  induction blanks with
  | nil => rfl
  | cons c blanks ih =>
      rw [List.cons_append, List.dropWhile_cons_of_pos (blank c List.mem_cons_self)]
      exact ih fun d member => blank d (List.mem_cons_of_mem c member)

theorem dropWhile_blanks_nil {blanks : Bytes} (blank : ∀ c ∈ blanks, isspace c = true) :
    blanks.dropWhile isspace = [] := by
  have dropped := dropWhile_blanks blank []
  rwa [List.append_nil] at dropped

theorem dropWhile_unblank {c : UInt8} (unblank : isspace c = false) (rest : Bytes) :
    (c :: rest).dropWhile isspace = c :: rest :=
  List.dropWhile_cons_of_neg (by rw [unblank]; exact Bool.false_ne_true)

theorem parameter_name_append {name : Bytes} (unblank : ∀ c ∈ name, isspace c = false)
    (rest : Bytes) : parameter_name (name ++ rest) =
      (name ++ (parameter_name rest).1, (parameter_name rest).2) := by
  induction name with
  | nil => rfl
  | cons c name ih =>
      have head := unblank c List.mem_cons_self
      rw [List.cons_append, parameter_name, head,
        ih fun d member => unblank d (List.mem_cons_of_mem c member)]
      rfl

theorem parameter_name_blanks {blanks : Bytes} (ne : blanks ≠ [])
    (blank : ∀ c ∈ blanks, isspace c = true) (rest : Bytes) :
    parameter_name (blanks ++ rest) = ([], rest.dropWhile isspace) := by
  cases blanks with
  | nil => exact absurd rfl ne
  | cons c blanks =>
      rw [List.cons_append, parameter_name, if_pos (blank c List.mem_cons_self),
        dropWhile_blanks fun d member => blank d (List.mem_cons_of_mem c member)]

/-- The value of the parameter `pname`, and the parameters behind it. -/
def parse_value (pname cp : Bytes) : Except OptionsError (List DefElem) := do
  let (pval, cp) ← parameter_value pname cp
  let options ← chfdw_parse_options cp
  pure (⟨pname, some pval⟩ :: options)

/-- One round of the outer loop, without its bound. -/
theorem chfdw_parse_options_eq (cp : Bytes) : chfdw_parse_options cp =
    match cp.dropWhile isspace with
    | [] => .ok []
    | c :: cp => parse_value (parameter_name (c :: cp)).1 (parameter_name (c :: cp)).2 := by
  rw [← parse_loop_of_fuel_ge (Nat.le_succ cp.length), parse_loop]
  have shorter := dropWhile_length_le isspace cp
  rcases dropped : cp.dropWhile isspace with _ | ⟨c, text⟩
  · rfl
  · rw [dropped] at shorter
    have named := @parameter_name_length_lt c text
    rcases hv : parameter_value (parameter_name (c :: text)).1 (parameter_name (c :: text)).2
      with e | read
    · simp only [parse_value, bind, Except.bind, hv]
    · have valued := parameter_value_length_le hv
      have enough : read.2.length ≤ cp.length := by omega
      simp only [parse_value, bind, Except.bind, hv, parse_loop_of_fuel_ge enough]

theorem parse_value_ok {pname cp pval rest : Bytes}
    (read : parameter_value pname cp = .ok (pval, rest)) :
    parse_value pname cp =
      (chfdw_parse_options rest).map (⟨pname, some pval⟩ :: ·) := by
  simp only [parse_value, read, bind, Except.bind]
  rcases chfdw_parse_options rest with _ | _ <;> rfl

theorem parse_value_error {pname cp : Bytes} {e : OptionsError}
    (read : parameter_value pname cp = .error e) : parse_value pname cp = .error e := by
  rw [parse_value, read]
  rfl

theorem chfdw_parse_options_blanks {blanks : Bytes} (blank : ∀ c ∈ blanks, isspace c = true) :
    chfdw_parse_options blanks = .ok [] := by
  rw [chfdw_parse_options_eq, dropWhile_blanks_nil blank]

/-- Behind its blanks a name is read up to the next blank. -/
theorem chfdw_parse_options_name (n : SettingName) (rest : Bytes) :
    chfdw_parse_options (n.text ++ rest) =
      parse_value (n.name ++ (parameter_name rest).1) (parameter_name rest).2 := by
  rw [chfdw_parse_options_eq, SettingName.text, List.append_assoc, dropWhile_blanks n.before_blank]
  have named := parameter_name_append n.name_unblank rest
  rcases split : n.name with _ | ⟨c, name⟩
  · exact absurd split n.name_ne
  · have unblank : isspace c = false := n.name_unblank c (split ▸ List.mem_cons_self)
    rw [split, List.cons_append] at named
    rw [List.cons_append, dropWhile_unblank unblank]
    simp only [named, List.cons_append]

/-- The name of a setting is read as it is, and then what follows the blanks behind it. -/
theorem chfdw_parse_options_named (n : SettingName) {blanks : Bytes} (ne : blanks ≠ [])
    (blank : ∀ c ∈ blanks, isspace c = true) (rest : Bytes) :
    chfdw_parse_options (n.text ++ (blanks ++ rest)) =
      parse_value n.name (rest.dropWhile isspace) := by
  rw [chfdw_parse_options_name, parameter_name_blanks ne blank, List.append_nil]

/-! ## Reading a value -/

/-- A scan that has read `before` already. -/
def readBehind (before : Bytes) (read : Bytes × Bytes) : Bytes × Bytes :=
  (before ++ read.1, read.2)

theorem map_readBehind_cons (c : UInt8) (before : Bytes)
    (scan : Except OptionsError (Bytes × Bytes)) :
    ((scan.map (readBehind before)).map fun (pval, cp) => (c :: pval, cp)) =
      scan.map (readBehind (c :: before)) := by
  rcases scan with _ | _ <;> rfl

theorem map_readBehind_nil (scan : Except OptionsError (Bytes × Bytes)) :
    scan.map (readBehind []) = scan := by
  rcases scan with _ | _ <;> rfl

theorem special_quoted {c : UInt8} :
    special true c = false ↔ c ≠ 39 ∧ c ≠ 92 := by
  simp [special]

theorem special_bare {c : UInt8} :
    special false c = false ↔ isspace c = false ∧ c ≠ 44 ∧ c ≠ 92 := by
  simp [special, and_assoc]

theorem quoted_value_slash (c : UInt8) (rest : Bytes) :
    quoted_value (92 :: c :: rest) = (quoted_value rest).map fun (pval, cp) => (c :: pval, cp) := by
  rw [quoted_value, if_pos rfl]

theorem quoted_value_bare {c : UInt8} (bare : special true c = false) (rest : Bytes) :
    quoted_value (c :: rest) = (quoted_value rest).map fun (pval, cp) => (c :: pval, cp) := by
  rw [special_quoted] at bare
  rw [quoted_value.eq_def]
  simp only [if_neg bare.1, if_neg bare.2]

theorem unquoted_value_slash (pname : Bytes) (c : UInt8) (rest : Bytes) :
    unquoted_value pname (92 :: c :: rest) =
      (unquoted_value pname rest).map fun (pval, cp) => (c :: pval, cp) := by
  rw [unquoted_value, if_neg (by decide), if_neg (by decide), if_pos rfl]

theorem unquoted_value_bare {c : UInt8} (bare : special false c = false) (pname rest : Bytes) :
    unquoted_value pname (c :: rest) =
      (unquoted_value pname rest).map fun (pval, cp) => (c :: pval, cp) := by
  rw [special_bare] at bare
  rw [unquoted_value.eq_def]
  simp only [bare.1, if_neg bare.2.1, if_neg bare.2.2, Bool.false_eq_true, if_false]

/-- A byte without a backslash is none of those that need one. -/
theorem special_of_bare {quoted : Bool} {c : UInt8} {value : List Written}
    (escaped : ∀ w ∈ (⟨c, false⟩ :: value : List Written),
      special quoted w.byte = true → w.escaped = true) : special quoted c = false := by
  rw [← Bool.not_eq_true]
  intro needed
  exact Bool.false_ne_true (escaped ⟨c, false⟩ List.mem_cons_self needed)

theorem quoted_value_written {value : List Written}
    (escaped : ∀ w ∈ value, special true w.byte = true → w.escaped = true) (rest : Bytes) :
    quoted_value (value.flatMap Written.text ++ rest) =
      (quoted_value rest).map (readBehind (value.map Written.byte)) := by
  induction value with
  | nil => exact (map_readBehind_nil _).symm
  | cons w value ih =>
      have tail := ih fun v member => escaped v (List.mem_cons_of_mem w member)
      obtain ⟨c, slash⟩ := w
      rw [List.flatMap_cons, List.append_assoc, List.map_cons, ← map_readBehind_cons, ← tail]
      cases slash
      · exact quoted_value_bare (special_of_bare escaped) _
      · exact quoted_value_slash c _

theorem unquoted_value_written {value : List Written}
    (escaped : ∀ w ∈ value, special false w.byte = true → w.escaped = true)
    (pname rest : Bytes) : unquoted_value pname (value.flatMap Written.text ++ rest) =
      (unquoted_value pname rest).map (readBehind (value.map Written.byte)) := by
  induction value with
  | nil => exact (map_readBehind_nil _).symm
  | cons w value ih =>
      have tail := ih fun v member => escaped v (List.mem_cons_of_mem w member)
      obtain ⟨c, slash⟩ := w
      rw [List.flatMap_cons, List.append_assoc, List.map_cons, ← map_readBehind_cons, ← tail]
      cases slash
      · exact unquoted_value_bare (special_of_bare escaped) pname _
      · exact unquoted_value_slash pname c _

theorem unquoted_value_comma (pname rest : Bytes) :
    unquoted_value pname (44 :: rest) = .ok ([], rest) := by
  rw [unquoted_value.eq_def]
  rfl

theorem unquoted_value_blanks {blanks : Bytes} (ne : blanks ≠ [])
    (blank : ∀ c ∈ blanks, isspace c = true) (pname : Bytes) :
    unquoted_value pname blanks = .ok ([], []) := by
  rcases blanks with _ | ⟨c, blanks⟩
  · exact absurd rfl ne
  · rw [unquoted_value.eq_def]
    simp only [if_pos (blank c List.mem_cons_self),
      dropWhile_blanks_nil fun d member => blank d (List.mem_cons_of_mem c member)]

/-- Behind blanks a bare value leaves the comma unread. -/
theorem unquoted_value_blanks_cons {blanks : Bytes} (ne : blanks ≠ [])
    (blank : ∀ c ∈ blanks, isspace c = true) (pname : Bytes) {c : UInt8}
    (unblank : isspace c = false) (rest : Bytes) :
    unquoted_value pname (blanks ++ c :: rest) =
      if c = 44 then .ok ([], c :: rest) else .error (.missingComma pname) := by
  rcases blanks with _ | ⟨b, blanks⟩
  · exact absurd rfl ne
  · rw [List.cons_append, unquoted_value.eq_def]
    simp only [if_pos (blank b List.mem_cons_self), dropWhile_unblank unblank,
      dropWhile_blanks fun d member => blank d (List.mem_cons_of_mem b member)]

theorem quoted_value_end (rest : Bytes) : quoted_value (39 :: rest) = .ok ([], rest) := by
  rw [quoted_value.eq_def]
  rfl

theorem quoted_value_open {last : Bytes} (last_slash : last = [] ∨ last = [92]) :
    quoted_value last = .error .unterminated := by
  rcases last_slash with rfl | rfl <;> rfl

theorem trailing_comma_comma {blanks : Bytes} (blank : ∀ c ∈ blanks, isspace c = true)
    (pname rest : Bytes) : trailing_comma pname (blanks ++ 44 :: rest) = .ok rest := by
  rw [trailing_comma, dropWhile_blanks blank, dropWhile_unblank (by decide)]
  exact if_pos rfl

theorem trailing_comma_other {blanks : Bytes} (blank : ∀ c ∈ blanks, isspace c = true)
    (pname : Bytes) {c : UInt8} (unblank : isspace c = false) (other : c ≠ 44) (rest : Bytes) :
    trailing_comma pname (blanks ++ c :: rest) = .error (.missingComma pname) := by
  rw [trailing_comma, dropWhile_blanks blank, dropWhile_unblank unblank]
  exact if_neg other

theorem trailing_comma_blanks {blanks : Bytes} (blank : ∀ c ∈ blanks, isspace c = true)
    (pname : Bytes) : trailing_comma pname blanks = .ok [] := by
  rw [trailing_comma, dropWhile_blanks_nil blank]

/-- A comma where a value should stand. -/
theorem parameter_value_comma (pname rest : Bytes) :
    parameter_value pname (44 :: rest) = .error (.missingValue pname) := by
  rw [parameter_value.eq_2 _ _ fun cp same => absurd (List.cons.inj same).1 (by decide),
    unquoted_value_comma]
  rfl

/-! ## Reading a setting -/

section

variable {s : Setting}

theorem Setting.text_append (s : Setting) (rest : Bytes) :
    s.text ++ rest =
      s.toSettingName.text ++ (s.between ++ (s.valueText ++ (s.after ++ rest))) := by
  simp [Setting.text, List.append_assoc]

/-- A value begins with a byte that is no blank. -/
theorem Setting.valueText_eq (s : Setting) :
    ∃ c text, s.valueText = c :: text ∧ isspace c = false ∧
      (s.quoted = false → s.Recognizable → c ≠ 39) := by
  unfold Setting.valueText
  rcases quoted : s.quoted with _ | _
  · rcases value : s.value with _ | ⟨⟨c, slash⟩, later⟩
    · exact absurd value s.value_ne
    · rcases slash with _ | _
      · have bare := s.value_escaped
        rw [value, quoted] at bare
        refine ⟨c, later.flatMap Written.text, rfl,
          (special_bare.mp (special_of_bare bare)).1, fun _ recognizable same => ?_⟩
        rcases recognizable with other | other
        · exact Bool.false_ne_true (quoted.symm.trans other)
        · exact other (by rw [value, same]; rfl)
      · exact ⟨92, c :: later.flatMap Written.text, rfl, rfl, fun _ _ => by decide⟩
  · exact ⟨39, s.value.flatMap Written.text ++ [39], rfl, rfl, fun other => nomatch other⟩

theorem chfdw_parse_options_setting (s : Setting) (rest : Bytes) :
    chfdw_parse_options (s.text ++ rest) =
      parse_value s.name (s.valueText ++ (s.after ++ rest)) := by
  obtain ⟨c, text, starts, unblank, -⟩ := s.valueText_eq
  rw [Setting.text_append, chfdw_parse_options_named _ s.between_ne s.between_blank, starts,
    List.cons_append, dropWhile_unblank unblank]

theorem parameter_value_quoted (quoted : s.quoted = true) (rest : Bytes) :
    parameter_value s.name (s.valueText ++ rest) =
      (trailing_comma s.name rest).map fun cp => (s.value.map Written.byte, cp) := by
  have escaped := s.value_escaped
  rw [quoted] at escaped
  rw [Setting.valueText, if_pos quoted, List.cons_append, List.append_assoc, parameter_value,
    quoted_value_written escaped, List.singleton_append, quoted_value_end]
  simp only [Except.map, readBehind, bind, Except.bind, List.append_nil]
  rcases trailing_comma s.name rest with _ | _ <;> rfl

theorem parameter_value_bare (bare : s.quoted = false) (recognizable : s.Recognizable)
    (rest : Bytes) : parameter_value s.name (s.valueText ++ rest) =
      (unquoted_value s.name rest).map (readBehind (s.value.map Written.byte)) := by
  have escaped := s.value_escaped
  rw [bare] at escaped
  have read := unquoted_value_written escaped s.name rest
  have filled : s.value.map Written.byte ≠ [] := by
    rw [Ne, List.map_eq_nil_iff]
    exact s.value_ne
  obtain ⟨c, text, starts, -, unquoted⟩ := s.valueText_eq
  have spelled : s.value.flatMap Written.text = c :: text := by
    rw [← starts, Setting.valueText, bare, if_neg Bool.false_ne_true]
  rw [spelled, List.cons_append] at read
  rw [starts, List.cons_append, parameter_value.eq_2 _ _ fun cp same =>
    unquoted bare recognizable (List.cons.inj same).1, read]
  rcases unquoted_value s.name rest with e | ⟨pval, cp⟩
  · rfl
  · simp only [Except.map, readBehind, bind, Except.bind]
    rw [if_neg fun empty => filled (List.append_eq_nil_iff.mp empty).1]
    rfl

/-- Where the comma behind the setting, or the end of the text, is reached. -/
theorem parameter_value_closed (closed : s.Closed) (rest : Bytes) :
    parameter_value s.name (s.valueText ++ (s.after ++ 44 :: rest)) =
      .ok (s.value.map Written.byte, rest) := by
  rcases quoted : s.quoted with _ | _
  · have after : s.after = [] := by
      rcases closed.2 with other | after
      · exact absurd (quoted.symm.trans other) Bool.false_ne_true
      · exact after
    rw [parameter_value_bare quoted closed.1, after, List.nil_append, unquoted_value_comma]
    exact congrArg (fun read => Except.ok (read, rest)) (List.append_nil _)
  · rw [parameter_value_quoted quoted, trailing_comma_comma s.after_blank]
    rfl

theorem parameter_value_last (recognizable : s.Recognizable) :
    parameter_value s.name (s.valueText ++ s.after) = .ok (s.value.map Written.byte, []) := by
  rcases quoted : s.quoted with _ | _
  · have read : unquoted_value s.name s.after = .ok ([], []) := by
      by_cases empty : s.after = []
      · rw [empty]
        rfl
      · exact unquoted_value_blanks empty s.after_blank s.name
    rw [parameter_value_bare quoted recognizable, read]
    exact congrArg (fun read => Except.ok (read, [])) (List.append_nil _)
  · rw [parameter_value_quoted quoted, trailing_comma_blanks s.after_blank]
    rfl

/-- The comma behind blanks behind a bare value stays unread. -/
theorem parameter_value_unclosed (recognizable : s.Recognizable) (unclosed : ¬s.Closed)
    (rest : Bytes) : parameter_value s.name (s.valueText ++ (s.after ++ 44 :: rest)) =
      .ok (s.value.map Written.byte, 44 :: rest) := by
  have apart : s.quoted = false ∧ s.after ≠ [] := by
    rw [Setting.Closed, not_and] at unclosed
    simpa using unclosed recognizable
  rw [parameter_value_bare apart.1 recognizable,
    unquoted_value_blanks_cons apart.2 s.after_blank s.name (by decide), if_pos rfl]
  exact congrArg (fun read => Except.ok (read, 44 :: rest)) (List.append_nil _)

/-- Between quotes a bare value is read up to a quote in it, or on beyond its end. -/
theorem quoted_value_of_bare {value : List Written} {tail pval cp : Bytes}
    (escaped : ∀ w ∈ value, special false w.byte = true → w.escaped = true)
    (divided : ∀ d ∈ tail.head?, special true d = false)
    (read : quoted_value (value.flatMap Written.text ++ tail) = .ok (pval, cp)) :
    pval.length ≤ value.length ∨
      ∃ d more, pval = value.map Written.byte ++ d :: more ∧ special true d = false := by
  induction value generalizing pval with
  | nil =>
      rcases tail with _ | ⟨d, tail⟩
      · cases read
      · have plain := divided d rfl
        rw [List.flatMap_nil, List.nil_append, quoted_value_bare plain] at read
        rcases behind : quoted_value tail with e | ⟨more, left⟩
        · rw [behind] at read
          cases read
        · rw [behind] at read
          cases read
          exact .inr ⟨d, more, rfl, plain⟩
  | cons w value ih =>
      have later := fun v member => escaped v (List.mem_cons_of_mem w member)
      obtain ⟨c, slash⟩ := w
      by_cases closes : slash = false ∧ c = 39
      · obtain ⟨rfl, rfl⟩ := closes
        rw [List.flatMap_cons, List.append_assoc] at read
        cases (quoted_value_end _).symm.trans read
        exact .inl (Nat.zero_le _)
      have step : quoted_value ((⟨c, slash⟩ :: value : List Written).flatMap Written.text ++ tail) =
          (quoted_value (value.flatMap Written.text ++ tail)).map
            fun (pval, cp) => (c :: pval, cp) := by
        rw [List.flatMap_cons, List.append_assoc]
        rcases slash with _ | _
        · have bare := special_bare.mp (special_of_bare escaped)
          exact quoted_value_bare
            (special_quoted.mpr ⟨fun quote => closes ⟨rfl, quote⟩, bare.2.2⟩) _
        · exact quoted_value_slash c _
      rw [step] at read
      rcases behind : quoted_value (value.flatMap Written.text ++ tail) with e | ⟨more, left⟩
      · rw [behind] at read
        cases read
      · rw [behind] at read
        cases read
        rcases ih later behind with short | ⟨d, beyond, rfl, plain⟩
        · exact .inl (Nat.succ_le_succ short)
        · exact .inr ⟨d, beyond, rfl, plain⟩

/-- A bare value that begins with a quote is not read back. -/
theorem parameter_value_unrecognizable (quote : ¬s.Recognizable) {tail cp : Bytes}
    (divided : ∀ d ∈ tail.head?, special true d = false) :
    parameter_value s.name (s.valueText ++ tail) ≠ .ok (s.value.map Written.byte, cp) := by
  intro read
  rw [Setting.Recognizable, not_or, Bool.not_eq_true, not_not] at quote
  obtain ⟨bare, head⟩ := quote
  obtain ⟨later, value⟩ := List.head?_eq_some_iff.mp head
  have escaped := s.value_escaped
  rw [bare, value] at escaped
  have spelled : s.valueText = 39 :: later.flatMap Written.text := by
    rw [Setting.valueText, bare, if_neg Bool.false_ne_true, value]
    rfl
  rw [spelled, List.cons_append, parameter_value, value] at read
  rcases content : quoted_value (later.flatMap Written.text ++ tail) with e | ⟨pval, left⟩
  · rw [content] at read
    cases read
  rw [content] at read
  have same : pval = 39 :: later.map Written.byte := by
    rcases comma : trailing_comma s.name left with e | left'
    · simp [bind, Except.bind, comma] at read
    · simp only [bind, Except.bind, comma, pure, Except.pure] at read
      cases read
      rfl
  rcases quoted_value_of_bare (fun v member => escaped v (List.mem_cons_of_mem _ member))
    divided content with short | ⟨d, more, beyond, plain⟩
  · rw [same, List.length_cons, List.length_map] at short
    omega
  · rw [same] at beyond
    have lengths := congrArg List.length beyond
    have counts := congrArg (List.count 39) beyond
    simp only [List.length_cons, List.length_append, List.length_map] at lengths
    obtain rfl : more = [] := List.eq_nil_of_length_eq_zero (by omega)
    rw [List.count_cons_self, List.count_append, List.count_singleton,
      if_neg (by simpa using (special_quoted.mp plain).1)] at counts
    omega

theorem special_of_blank {c : UInt8} (blank : isspace c = true) : special true c = false := by
  refine special_quoted.mpr ⟨?_, ?_⟩ <;> rintro rfl <;> exact absurd blank (by decide)

/-- Behind the value of a setting stand blanks, a comma or nothing. -/
theorem divided_after (s : Setting) {rest : Bytes} (ends : rest = [] ∨ rest.head? = some 44) :
    ∀ d ∈ (s.after ++ rest).head?, special true d = false := by
  intro d head
  rcases after : s.after with _ | ⟨b, blanks⟩
  · rw [after, List.nil_append] at head
    rcases ends with rfl | comma
    · cases head
    · cases comma.symm.trans head
      rfl
  · rw [after] at head
    cases head
    exact special_of_blank (s.after_blank d (after ▸ List.mem_cons_self))

end

/-! ## Reading the settings -/

theorem map_cons_eq_ok_iff {scan : Except OptionsError (List DefElem)} {d : DefElem}
    {options : List DefElem} :
    scan.map (d :: ·) = .ok (d :: options) ↔ scan = .ok options := by
  rcases scan with e | read
  · exact iff_of_false nofun nofun
  · simp [Except.map]

/-- The first pair is the parameter's name and value. -/
theorem parse_value_head {pname cp : Bytes} {d : DefElem} {options : List DefElem}
    (read : parse_value pname cp = .ok (d :: options)) :
    ∃ pval rest, d = ⟨pname, some pval⟩ ∧ parameter_value pname cp = .ok (pval, rest) := by
  unfold parse_value at read
  rcases value : parameter_value pname cp with e | ⟨pval, cp⟩
  · simp [value, bind, Except.bind] at read
  · rcases later : chfdw_parse_options cp with e | more
    · simp [value, later, bind, Except.bind] at read
    · simp only [value, later, bind, Except.bind, pure, Except.pure, Except.ok.injEq,
        List.cons.injEq] at read
      exact ⟨pval, cp, read.1.symm, rfl⟩

theorem parse_value_pair {s : Setting} {cp : Bytes} {options : List DefElem}
    (read : parse_value s.name cp = .ok (s.pair :: options)) :
    ∃ rest, parameter_value s.name cp = .ok (s.value.map Written.byte, rest) := by
  obtain ⟨pval, rest, same, value⟩ := parse_value_head read
  obtain rfl : s.value.map Written.byte = pval := Option.some.inj (congrArg DefElem.arg same)
  exact ⟨rest, value⟩

theorem parse_value_ne_nil {pname cp : Bytes} : parse_value pname cp ≠ .ok [] := by
  intro read
  unfold parse_value at read
  rcases value : parameter_value pname cp with e | ⟨pval, cp⟩
  · simp [value, bind, Except.bind] at read
  · rcases later : chfdw_parse_options cp with e | more <;>
      simp [value, later, bind, Except.bind, pure, Except.pure] at read

/-- An unread comma becomes a part of the name behind it, or a name of its own. -/
theorem chfdw_parse_options_comma (s : Setting) (rest : Bytes) (options : List DefElem) :
    chfdw_parse_options (44 :: (s.text ++ rest)) ≠ .ok (s.pair :: options) := by
  have comma (c : UInt8) (member : c ∈ [44]) : isspace c = false := by
    rw [List.mem_singleton.mp member]
    rfl
  let alone : SettingName := ⟨[], [44], nofun, List.cons_ne_nil _ _, comma⟩
  intro read
  rw [Setting.text_append, SettingName.text, List.append_assoc] at read
  by_cases adjacent : s.before = []
  · let joined : SettingName := ⟨[], 44 :: s.name, nofun, List.cons_ne_nil _ _, by
      intro c member
      rcases List.mem_cons.mp member with rfl | member
      · rfl
      · exact s.name_unblank c member⟩
    rw [adjacent, List.nil_append] at read
    obtain ⟨pval, left, named, -⟩ := parse_value_head
      ((chfdw_parse_options_named joined s.between_ne s.between_blank _).symm.trans read)
    have lengths := congrArg (fun d => d.defname.length) named
    simp only [Setting.pair, joined, List.length_cons] at lengths
    omega
  · have step := chfdw_parse_options_named alone adjacent s.before_blank
      (s.name ++ (s.between ++ (s.valueText ++ (s.after ++ rest))))
    have value := step.symm.trans read
    obtain ⟨pval, left, same, -⟩ := parse_value_head value
    have named : s.name = [44] := congrArg DefElem.defname same
    rw [named, List.singleton_append, dropWhile_unblank (by decide)] at value
    exact nomatch (parse_value_error (parameter_value_comma [44] _)).symm.trans value

theorem chfdw_parse_options_comma_blanks {blanks : Bytes} :
    chfdw_parse_options (44 :: blanks) ≠ .ok [] := by
  rw [chfdw_parse_options_eq, dropWhile_unblank (by decide)]
  exact parse_value_ne_nil

theorem chfdw_parse_options_unread (settings : List Setting) (last : Ending) :
    chfdw_parse_options (44 :: commaEnded settings last.text) ≠
      .ok ((settings ++ last.settings).map Setting.pair) := by
  rcases settings with _ | ⟨s, settings⟩
  · rcases last with ⟨blanks, blank⟩ | s
    · exact chfdw_parse_options_comma_blanks
    · have read := chfdw_parse_options_comma s [] []
      rwa [List.append_nil] at read
  · exact chfdw_parse_options_comma s _ _

/-- The last setting. -/
theorem chfdw_parse_options_last_iff (s : Setting) :
    chfdw_parse_options s.text = .ok [s.pair] ↔ s.Recognizable := by
  have step := chfdw_parse_options_setting s []
  rw [List.append_nil, List.append_nil] at step
  constructor
  · intro read
    by_contra quote
    obtain ⟨left, value⟩ := parse_value_pair (step.symm.trans read)
    have divided := divided_after s (.inl rfl)
    rw [List.append_nil] at divided
    exact parameter_value_unrecognizable quote divided value
  · intro recognizable
    rw [step, parse_value_ok (parameter_value_last recognizable)]
    rfl

/-- A setting with a comma behind it, by the way it ends. -/
theorem chfdw_parse_options_closed {s : Setting} (closed : s.Closed) (rest : Bytes) :
    chfdw_parse_options (s.text ++ 44 :: rest) =
      (chfdw_parse_options rest).map (s.pair :: ·) := by
  rw [chfdw_parse_options_setting, parse_value_ok (parameter_value_closed closed rest)]
  rfl

theorem chfdw_parse_options_unclosed {s : Setting} (unclosed : ¬s.Closed) {rest : Bytes}
    {options : List DefElem} (unread : chfdw_parse_options (44 :: rest) ≠ .ok options) :
    chfdw_parse_options (s.text ++ 44 :: rest) ≠ .ok (s.pair :: options) := by
  rw [chfdw_parse_options_setting]
  by_cases recognizable : s.Recognizable
  · rw [parse_value_ok (parameter_value_unclosed recognizable unclosed rest)]
    exact fun read => unread (map_cons_eq_ok_iff.mp read)
  · intro read
    obtain ⟨left, value⟩ := parse_value_pair read
    exact parameter_value_unrecognizable recognizable (divided_after s (.inr rfl)) value

theorem chfdw_parse_options_commaEnded_iff (settings : List Setting) (last : Ending) :
    chfdw_parse_options (commaEnded settings last.text) =
        .ok ((settings ++ last.settings).map Setting.pair) ↔
      (∀ s ∈ settings, s.Closed) ∧ ∀ s ∈ last.settings, s.Recognizable := by
  induction settings with
  | nil =>
      rcases last with ⟨blanks, blank⟩ | s
      · exact iff_of_true (chfdw_parse_options_blanks blank) ⟨nofun, nofun⟩
      · refine (chfdw_parse_options_last_iff s).trans ?_
        simp [Ending.settings]
  | cons s settings ih =>
      rw [List.forall_mem_cons, and_assoc, ← ih]
      by_cases closed : s.Closed
      · rw [and_iff_right closed]
        exact (Eq.congr_left (chfdw_parse_options_closed closed _)).trans map_cons_eq_ok_iff
      · exact iff_of_false
          (chfdw_parse_options_unclosed closed (chfdw_parse_options_unread settings last))
          fun all => closed all.1

/-! ## Errors -/

theorem parameter_value_nil (pname : Bytes) :
    parameter_value pname [] = .error (.missingValue pname) := rfl

theorem parameter_value_open {value : List Written} {last : Bytes}
    (escaped : ∀ w ∈ value, special true w.byte = true → w.escaped = true)
    (last_slash : last = [] ∨ last = [92]) (pname : Bytes) :
    parameter_value pname (39 :: (value.flatMap Written.text ++ last)) =
      .error .unterminated := by
  rw [parameter_value, quoted_value_written escaped, quoted_value_open last_slash]
  rfl

theorem parameter_value_other {s : Setting} (recognizable : s.Recognizable)
    (apart : s.quoted = true ∨ s.after ≠ []) {c : UInt8} (unblank : isspace c = false)
    (other : c ≠ 44) (rest : Bytes) :
    parameter_value s.name (s.valueText ++ (s.after ++ c :: rest)) =
      .error (.missingComma s.name) := by
  rcases quoted : s.quoted with _ | _
  · have blanks := apart.resolve_left (by rw [quoted]; exact Bool.false_ne_true)
    rw [parameter_value_bare quoted recognizable,
      unquoted_value_blanks_cons blanks s.after_blank s.name unblank, if_neg other]
    rfl
  · rw [parameter_value_quoted quoted, trailing_comma_other s.after_blank s.name unblank other]
    rfl

theorem chfdw_parse_options_of_broken {e : OptionsError} {text : Bytes} (broken : Broken e text) :
    chfdw_parse_options text = .error e := by
  rcases broken with ⟨n, blanks, blank⟩ | ⟨n, blanks, rest, ne, blank⟩ |
    ⟨n, blanks, ne, blank, value, escaped, last, last_slash⟩ |
    ⟨s, recognizable, apart, c, rest, unblank, other⟩
  · by_cases ne : blanks = []
    · rw [ne, chfdw_parse_options_name]
      refine parse_value_error ?_
      rw [parameter_name, List.append_nil]
      exact parameter_value_nil n.name
    · have read := chfdw_parse_options_named n ne blank []
      rw [List.append_nil] at read
      exact read.trans (parse_value_error (parameter_value_nil n.name))
  · rw [chfdw_parse_options_named n ne blank, dropWhile_unblank (by decide)]
    exact parse_value_error (parameter_value_comma n.name rest)
  · rw [chfdw_parse_options_named n ne blank, dropWhile_unblank (by decide)]
    exact parse_value_error (parameter_value_open escaped last_slash n.name)
  · rw [chfdw_parse_options_setting]
    exact parse_value_error (parameter_value_other recognizable apart unblank other rest)

theorem chfdw_parse_options_commaEnded_error {settings : List Setting} {rest : Bytes}
    {e : OptionsError} (closed : ∀ s ∈ settings, s.Closed)
    (error : chfdw_parse_options rest = .error e) :
    chfdw_parse_options (commaEnded settings rest) = .error e := by
  induction settings with
  | nil => exact error
  | cons s settings ih =>
      rw [List.forall_mem_cons] at closed
      have step := chfdw_parse_options_closed closed.1 (commaEnded settings rest)
      rw [ih closed.2] at step
      exact step

/-! ## The format -/

/-- The parser gives back the names and values that a text lists exactly when no bare value
begins with a quote or has blanks between it and a comma, and then a setting that lacks its
value, its closing quote or the comma behind it is an error. -/
theorem chfdw_parse_options_format (settings : List Setting) :
    (∀ last : Ending, chfdw_parse_options (commaEnded settings last.text) =
        .ok ((settings ++ last.settings).map Setting.pair) ↔
      (∀ s ∈ settings, s.Closed) ∧ ∀ s ∈ last.settings, s.Recognizable) ∧
    ∀ (e : OptionsError) (text : Bytes), (∀ s ∈ settings, s.Closed) → Broken e text →
      chfdw_parse_options (commaEnded settings text) = .error e :=
  ⟨chfdw_parse_options_commaEnded_iff settings, fun _ _ closed broken =>
    chfdw_parse_options_commaEnded_error closed (chfdw_parse_options_of_broken broken)⟩

/-- `name value`, with the blanks `after` behind it. -/
def plainSetting (name value : UInt8) (after : Bytes)
    (named : isspace name = false ∧ special false value = false)
    (blank : ∀ c ∈ after, isspace c = true) : Setting where
  before := []
  name := [name]
  before_blank := nofun
  name_ne := List.cons_ne_nil _ _
  name_unblank := by simpa using named.1
  between := [32]
  quoted := false
  value := [⟨value, false⟩]
  after := after
  between_ne := List.cons_ne_nil _ _
  between_blank := by simp [isspace]
  value_ne := List.cons_ne_nil _ _
  value_escaped := by simp [named.2]
  after_blank := blank

/-- `a 1,b` lacks a value. -/
theorem chfdw_parse_options_format_missing :
    chfdw_parse_options (ascii "a 1,b") = .error (.missingValue (ascii "b")) :=
  (chfdw_parse_options_format [plainSetting 97 49 [] (by decide) nofun]).2 _ _
    (by simp [Setting.Closed, Setting.Recognizable, plainSetting])
    (.valueAtEnd ⟨[], [98], nofun, List.cons_ne_nil _ _, by simp [isspace]⟩ [] nofun)

/-- In `a 1 ,b 2` the second name is read with the comma. -/
theorem not_chfdw_parse_options_rendered :
    chfdw_parse_options (ascii "a 1 ,b 2") =
        .ok [⟨ascii "a", some (ascii "1")⟩, ⟨ascii ",b", some (ascii "2")⟩] ∧
      ¬∀ (settings : List Setting) (last : Ending),
        chfdw_parse_options (commaEnded settings last.text) =
          .ok ((settings ++ last.settings).map Setting.pair) := by
  refine ⟨by decide +kernel, fun reads => ?_⟩
  have read := reads [plainSetting 97 49 [32] (by decide) (by simp [isspace])]
    (.setting (plainSetting 98 50 [] (by decide) nofun))
  exact absurd read (by decide +kernel)

end PgClickhouse

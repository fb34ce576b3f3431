import Mathlib.Data.List.Basic
import Mathlib.Data.List.Induction

/-!
# Regular expression flags

PostgreSQL's functions take their flags as a string, in which the last of the newline flags
wins.  RE2 takes them as an inline group in front of the pattern, which is read on top of the
mode the matcher starts in.

* `regex_flags_fold`: what the loop over the flags collects.
* `regex_flags_read`: the group that is emitted is read as PostgreSQL reads the flags.
-/

namespace PgClickhouse.Regex

/-! ## Shipping -/

/-- Whether the flags can be pushed down. -/
def regex_flags_ok (global_ok : Bool) : List Char → Bool
  | [] => true
  | 'i' :: flags | 'm' :: flags | 'n' :: flags | 'p' :: flags | 's' :: flags | 't' :: flags
  | 'w' :: flags => regex_flags_ok global_ok flags
  | 'g' :: flags => if global_ok then regex_flags_ok global_ok flags else false
  | _ => false

/-! ## Deparsing -/

structure Flags where
  flag_i : Bool
  flag_m : Bool
  flag_p : Bool
  flag_s : Bool
  flag_w : Bool
  deriving Repr, DecidableEq

def flag_0 : Flags := ⟨false, false, false, false, false⟩

/-- One flag: each of the newline flags cancels the others. -/
def Flags.collect (flags : Flags) : Char → Flags
  | 'i' => { flags with flag_i := true }
  | 'm' | 'n' => { flags with flag_m := true, flag_s := false, flag_p := false, flag_w := false }
  | 'p' => { flags with flag_p := true, flag_m := false, flag_s := false, flag_w := false }
  | 's' => { flags with flag_s := true, flag_m := false, flag_p := false, flag_w := false }
  | 'w' => { flags with flag_w := true, flag_m := false, flag_p := false, flag_s := false }
  | _ => flags

def appendRegexFlags (str : List Char) : List Char :=
  let flags := str.foldl Flags.collect flag_0
  (if flags.flag_i then ['i'] else []) ++ (if flags.flag_m then ['m', '-', 's'] else []) ++
    (if flags.flag_p then ['-', 's'] else []) ++ (if flags.flag_s then ['s'] else []) ++
    (if flags.flag_w then ['m'] else [])

/-- A piece of the text of a call: text, or an argument. -/
inductive Piece
  | text (s : List Char)
  | arg (n : Nat)
  deriving Repr, DecidableEq

/-- The arguments of a call, each with its value if it is a constant. -/
abbrev Args := List (Option (List Char))

def constvalue (args : Args) (n : Nat) : List Char := (args[n]?.getD none).getD []

def appendRegex (args : Args) (flags_idx : Nat) : List Piece :=
  if args.length ≤ flags_idx then [.arg 1]
  else
    [.text ("concat('(?".toList ++ appendRegexFlags (constvalue args flags_idx) ++
      ")', ".toList), .arg 1, .text [')']]

/-- `CF_REPLACE_REGEX`. -/
def deparseReplaceRegex (args : Args) : List Piece :=
  let global := decide (4 ≤ args.length) && (constvalue args 3).contains 'g'
  [Piece.text (if global then "replaceRegexpAll(".toList else "replaceRegexpOne(".toList), .arg 0,
    .text ", ".toList] ++ appendRegex args 3 ++ [Piece.text ", ".toList, .arg 2, .text [')']]

/-! ## RE2 -/

/-- Whether the dot matches a newline, and whether the anchors match at line ends. -/
structure NewlineMode where
  dotall : Bool
  multiline : Bool
  deriving Repr, DecidableEq

/-- How a pattern is matched. -/
structure Mode where
  icase : Bool
  newline : NewlineMode
  deriving Repr, DecidableEq

/-- The mode that ClickHouse's matchers start in. -/
def startMode : Mode := ⟨false, true, false⟩

/-- Read an inline group behind its `(?`; a group that opens a subexpression is not one. -/
def parsePerlFlags (negated sawflag : Bool) (mode : Mode) :
    List Char → Option (Mode × List Char)
  | [] => none
  | 'i' :: text => parsePerlFlags negated true { mode with icase := !negated } text
  | 'm' :: text => parsePerlFlags negated true { mode with newline.multiline := !negated } text
  | 's' :: text => parsePerlFlags negated true { mode with newline.dotall := !negated } text
  | 'U' :: text => parsePerlFlags negated true mode text
  | '-' :: text => if negated then none else parsePerlFlags true false mode text
  | ')' :: text => if negated && !sawflag then none else some (mode, text)
  | _ => none

/-! ## PostgreSQL -/

inductive Flavor
  | advanced
  | basic
  | extended
  | quote
  deriving Repr, DecidableEq

/-- The flags of a compiled pattern. -/
structure PgReFlags where
  flavor : Flavor
  icase : Bool
  nlstop : Bool
  nlanch : Bool
  expanded : Bool
  glob : Bool
  deriving Repr, DecidableEq

def REG_ADVANCED : PgReFlags := ⟨.advanced, false, false, false, false, false⟩

/-- What PostgreSQL reads out of a flag string. -/
def parse_re_flags (flags : PgReFlags) : List Char → Option PgReFlags
  | [] => some flags
  | 'g' :: opts => parse_re_flags { flags with glob := true } opts
  | 'b' :: opts => parse_re_flags { flags with flavor := .basic } opts
  | 'c' :: opts => parse_re_flags { flags with icase := false } opts
  | 'e' :: opts => parse_re_flags { flags with flavor := .extended } opts
  | 'i' :: opts => parse_re_flags { flags with icase := true } opts
  | 'm' :: opts | 'n' :: opts => parse_re_flags { flags with nlstop := true, nlanch := true } opts
  | 'p' :: opts => parse_re_flags { flags with nlstop := true, nlanch := false } opts
  | 'q' :: opts => parse_re_flags { flags with flavor := .quote } opts
  | 's' :: opts => parse_re_flags { flags with nlstop := false, nlanch := false } opts
  | 't' :: opts => parse_re_flags { flags with expanded := false } opts
  | 'w' :: opts => parse_re_flags { flags with nlstop := false, nlanch := true } opts
  | 'x' :: opts => parse_re_flags { flags with expanded := true } opts
  | _ => none

def PgReFlags.newline (flags : PgReFlags) : NewlineMode := ⟨!flags.nlstop, flags.nlanch⟩

def PgReFlags.mode (flags : PgReFlags) : Mode := ⟨flags.icase, flags.newline⟩

/-! ## The last newline flag -/

def newlineFlag (c : Char) : Bool := c == 'm' || c == 'n' || c == 'p' || c == 's' || c == 'w'

def lastNewline (flags : List Char) : Option Char := (flags.filter newlineFlag).getLast?

/-- The mode behind a newline flag, if there is one. -/
def NewlineMode.read (start : NewlineMode) : Option Char → NewlineMode
  | some 'm' | some 'n' => ⟨false, true⟩
  | some 'p' => ⟨false, false⟩
  | some 's' => ⟨true, false⟩
  | some 'w' => ⟨true, true⟩
  | _ => start

theorem lastNewline_nil : lastNewline [] = none := rfl

theorem lastNewline_cons (c : Char) (flags : List Char) :
    lastNewline (c :: flags) =
      (lastNewline flags).or (if newlineFlag c then some c else none) := by
  unfold lastNewline
  rw [List.filter_cons]
  split
  · rw [List.getLast?_cons]
    rcases (flags.filter newlineFlag).getLast? with _ | last <;> rfl
  · exact Option.or_none.symm

theorem lastNewline_concat (flags : List Char) (c : Char) :
    lastNewline (flags ++ [c]) = if newlineFlag c then some c else lastNewline flags := by
  unfold lastNewline
  rw [List.filter_append, List.filter_cons, List.filter_nil]
  split
  · exact List.getLast?_concat
  · rw [List.append_nil]

theorem lastNewline_cases (flags : List Char) :
    lastNewline flags = none ∨ lastNewline flags = some 'm' ∨ lastNewline flags = some 'n' ∨
      lastNewline flags = some 'p' ∨ lastNewline flags = some 's' ∨
      lastNewline flags = some 'w' := by
  rcases last : lastNewline flags with _ | c
  · exact .inl rfl
  · have member := (List.mem_filter.mp (List.mem_of_getLast? last)).2
    simp only [newlineFlag, Bool.or_eq_true, beq_iff_eq] at member
    rcases member with (((rfl | rfl) | rfl) | rfl) | rfl <;> simp

/-- A newline flag decides alone. -/
theorem read_read (start : NewlineMode) {c : Char} (newline : newlineFlag c = true)
    (flags : List Char) :
    (start.read (some c)).read (lastNewline flags) =
      start.read ((lastNewline flags).or (some c)) := by
  simp only [newlineFlag, Bool.or_eq_true, beq_iff_eq] at newline
  rcases newline with (((rfl | rfl) | rfl) | rfl) | rfl <;>
    rcases lastNewline_cases flags with last | last | last | last | last | last <;> rw [last] <;>
    rfl

/-! ## What is collected -/

/-- The flags of a string with the last newline flag `last`. -/
def Flags.of (icase : Bool) (last : Option Char) : Flags :=
  ⟨icase, last == some 'm' || last == some 'n', last == some 'p', last == some 's',
    last == some 'w'⟩

theorem collect_of (icase : Bool) (last : Option Char) (c : Char) :
    (Flags.of icase last).collect c =
      Flags.of (icase || c == 'i') (if newlineFlag c then some c else last) := by
  unfold Flags.collect
  split
  · simp [Flags.of, newlineFlag]
  · simp [Flags.of, newlineFlag]
  · simp [Flags.of, newlineFlag]
  · simp [Flags.of, newlineFlag]
  · simp [Flags.of, newlineFlag]
  · simp [Flags.of, newlineFlag]
  · rename_i i m n p s w
    have other : newlineFlag c = false := by
      simp only [newlineFlag, Bool.or_eq_false_iff, beq_eq_false_iff_ne]
      exact ⟨⟨⟨⟨m, n⟩, p⟩, s⟩, w⟩
    rw [other, beq_eq_false_iff_ne.mpr i, Bool.or_false]
    rfl

/-- The loop collects whether `i` occurs, and the last newline flag. -/
theorem regex_flags_fold (str : List Char) :
    str.foldl Flags.collect flag_0 = Flags.of (str.contains 'i') (lastNewline str) := by
  induction str using List.reverseRec with
  | nil => rfl
  | append_singleton str c ih =>
      rw [List.foldl_append, List.foldl_cons, List.foldl_nil, ih, collect_of,
        lastNewline_concat]
      congr 1
      rw [Bool.eq_iff_iff, Bool.or_eq_true, List.contains_iff_mem, List.contains_iff_mem,
        List.mem_append, List.mem_singleton, beq_iff_eq]
      exact or_congr_right eq_comm

/-- The group that is emitted is well formed and sets what was collected. -/
theorem appendRegexFlags_read (str pattern : List Char) :
    parsePerlFlags false false startMode (appendRegexFlags str ++ ')' :: pattern) =
      some (⟨str.contains 'i', startMode.newline.read (lastNewline str)⟩, pattern) := by
  have collected := regex_flags_fold str
  rw [appendRegexFlags, collected]
  generalize str.contains 'i' = icase
  rcases lastNewline_cases str with last | last | last | last | last | last <;> rw [last] <;>
    cases icase <;> rfl

/-! ## What PostgreSQL reads -/

/-- What is left of `flags` when the string `opts` has been read. -/
structure Reads (flags : PgReFlags) (opts : List Char) (flags' : PgReFlags) : Prop where
  flavor : flags'.flavor = flags.flavor
  expanded : flags.expanded = false → flags'.expanded = false
  glob : flags'.glob = (flags.glob || opts.contains 'g')
  icase : flags'.icase = (flags.icase || opts.contains 'i')
  newline : flags'.newline = flags.newline.read (lastNewline opts)

theorem reads_nil (flags : PgReFlags) : Reads flags [] flags where
  flavor := rfl
  expanded := id
  glob := (Bool.or_false _).symm
  icase := (Bool.or_false _).symm
  newline := rfl

theorem Reads.cons {flags next flags' : PgReFlags} {c : Char} {opts : List Char}
    (head : Reads flags [c] next) (tail : Reads next opts flags') :
    Reads flags (c :: opts) flags' where
  flavor := tail.flavor.trans head.flavor
  expanded := fun expanded => tail.expanded (head.expanded expanded)
  glob := by
    rw [tail.glob, head.glob, List.contains_cons, List.contains_cons, List.contains_nil,
      Bool.or_false, Bool.or_assoc]
  icase := by
    rw [tail.icase, head.icase, List.contains_cons, List.contains_cons, List.contains_nil,
      Bool.or_false, Bool.or_assoc]
  newline := by
    rw [tail.newline, head.newline, lastNewline_cons, lastNewline_cons, lastNewline_nil,
      Option.none_or]
    split
    · rename_i newline
      exact read_read _ newline opts
    · rw [Option.or_none]
      rfl

/-- One flag that is shipped. -/
theorem parse_re_flags_step (flags : PgReFlags) {c : Char}
    (shipped : regex_flags_ok true [c] = true) :
    ∃ next, (∀ opts, parse_re_flags flags (c :: opts) = parse_re_flags next opts) ∧
      Reads flags [c] next := by
  unfold regex_flags_ok at shipped
  split at shipped
  · contradiction
  all_goals rename_i same
  · cases same
    exact ⟨{ flags with icase := true }, fun _ => rfl, rfl, id, by simp, by simp, rfl⟩
  · cases same
    exact ⟨{ flags with nlstop := true, nlanch := true }, fun _ => rfl, rfl, id, by simp,
      by simp, rfl⟩
  · cases same
    exact ⟨{ flags with nlstop := true, nlanch := true }, fun _ => rfl, rfl, id, by simp,
      by simp, rfl⟩
  · cases same
    exact ⟨{ flags with nlstop := true, nlanch := false }, fun _ => rfl, rfl, id, by simp,
      by simp, rfl⟩
  · cases same
    exact ⟨{ flags with nlstop := false, nlanch := false }, fun _ => rfl, rfl, id, by simp,
      by simp, rfl⟩
  · cases same
    exact ⟨{ flags with expanded := false }, fun _ => rfl, rfl, fun _ => rfl, by simp, by simp,
      rfl⟩
  · cases same
    exact ⟨{ flags with nlstop := false, nlanch := true }, fun _ => rfl, rfl, id, by simp,
      by simp, rfl⟩
  · cases same
    exact ⟨{ flags with glob := true }, fun _ => rfl, rfl, id, by simp, by simp, rfl⟩
  · cases shipped

theorem regex_flags_ok_cons {global_ok : Bool} {c : Char} {flags : List Char}
    (accepted : regex_flags_ok global_ok (c :: flags) = true) :
    regex_flags_ok true [c] = true ∧ regex_flags_ok global_ok flags = true := by
  unfold regex_flags_ok at accepted
  split at accepted
  · contradiction
  all_goals rename_i same
  case h_9 =>
    cases same
    split at accepted
    · exact ⟨rfl, accepted⟩
    · cases accepted
  case h_10 => cases accepted
  all_goals
    cases same
    exact ⟨rfl, accepted⟩

/-- PostgreSQL accepts the flags that are shipped, and the last newline flag wins. -/
theorem parse_re_flags_spec (flags : PgReFlags) {global_ok : Bool} {opts : List Char}
    (accepted : regex_flags_ok global_ok opts = true) :
    ∃ flags', parse_re_flags flags opts = some flags' ∧ Reads flags opts flags' := by
  induction opts generalizing flags with
  | nil => exact ⟨flags, rfl, reads_nil flags⟩
  | cons c opts ih =>
      obtain ⟨head, tail⟩ := regex_flags_ok_cons accepted
      obtain ⟨next, step, one⟩ := parse_re_flags_step flags head
      obtain ⟨flags', parsed, reads⟩ := ih next tail
      exact ⟨flags', (step opts).trans parsed, one.cons reads⟩

/-! ## The flags in the call -/

/-- `t` and `g` leave the group as it is. -/
theorem appendRegexFlags_filter (str : List Char) :
    appendRegexFlags (str.filter fun c => c != 't' && c != 'g') = appendRegexFlags str := by
  have icase : (str.filter fun c => c != 't' && c != 'g').contains 'i' = str.contains 'i' := by
    rw [Bool.eq_iff_iff, List.contains_iff_mem, List.contains_iff_mem, List.mem_filter]
    exact and_iff_left rfl
  have last : lastNewline (str.filter fun c => c != 't' && c != 'g') = lastNewline str := by
    unfold lastNewline
    rw [List.filter_filter]
    congr 1
    apply List.filter_congr
    intro c _
    rcases newline : newlineFlag c
    · rfl
    · simp only [newlineFlag, Bool.or_eq_true, beq_iff_eq] at newline
      rcases newline with (((rfl | rfl) | rfl) | rfl) | rfl <;> rfl
  unfold appendRegexFlags
  rw [regex_flags_fold, regex_flags_fold, icase, last]

/-- The group that is emitted sets the mode that PostgreSQL reads. -/
theorem shipped_mode {global_ok : Bool} {flags : List Char}
    (accepted : regex_flags_ok global_ok flags = true) (pattern : List Char) :
    ∃ pg, parse_re_flags REG_ADVANCED flags = some pg ∧ Reads REG_ADVANCED flags pg ∧
      pg.mode = ⟨flags.contains 'i', startMode.newline.read (lastNewline flags)⟩ ∧
      parsePerlFlags false false startMode (appendRegexFlags flags ++ ')' :: pattern) =
        some (pg.mode, pattern) := by
  obtain ⟨pg, parsed, reads⟩ := parse_re_flags_spec REG_ADVANCED accepted
  have mode : pg.mode = ⟨flags.contains 'i', startMode.newline.read (lastNewline flags)⟩ := by
    rw [PgReFlags.mode, reads.icase, reads.newline]
    rfl
  refine ⟨pg, parsed, reads, mode, ?_⟩
  rw [appendRegexFlags_read, mode]

/-- The flags that are shipped are emitted as a group that RE2 reads as PostgreSQL reads them:
`i` folds case, the last newline flag decides, `t` and `g` change nothing, and `g` replaces
all. -/
theorem regex_flags_read {global_ok : Bool} {flags : List Char}
    (accepted : regex_flags_ok global_ok flags = true) (pattern : List Char)
    (haystack regexp replacement : Option (List Char)) :
    ∃ pg, parse_re_flags REG_ADVANCED flags = some pg ∧
      pg.flavor = .advanced ∧ pg.expanded = false ∧
      pg.mode = ⟨flags.contains 'i', startMode.newline.read (lastNewline flags)⟩ ∧
      parsePerlFlags false false startMode (appendRegexFlags flags ++ ')' :: pattern) =
        some (pg.mode, pattern) ∧
      appendRegexFlags (flags.filter fun c => c != 't' && c != 'g') = appendRegexFlags flags ∧
      deparseReplaceRegex [haystack, regexp, replacement, some flags] =
        [.text (if pg.glob then "replaceRegexpAll(".toList else "replaceRegexpOne(".toList),
          .arg 0, .text ", ".toList,
          .text ("concat('(?".toList ++ appendRegexFlags flags ++ ")', ".toList), .arg 1,
          .text [')'], .text ", ".toList, .arg 2, .text [')']] := by
  obtain ⟨pg, parsed, reads, mode, group⟩ := shipped_mode accepted pattern
  refine ⟨pg, parsed, reads.flavor, reads.expanded rfl, mode, group,
    appendRegexFlags_filter flags, ?_⟩
  rw [reads.glob]
  rfl

/-- Flags that contradict each other: the last one decides. -/
theorem regex_flags_read_last :
    ∃ pg, parse_re_flags REG_ADVANCED "gmsptiw".toList = some pg ∧
      pg.flavor = .advanced ∧ pg.expanded = false ∧
      pg.mode = ⟨"gmsptiw".toList.contains 'i',
        startMode.newline.read (lastNewline "gmsptiw".toList)⟩ ∧
      parsePerlFlags false false startMode (appendRegexFlags "gmsptiw".toList ++ ')' :: ['a']) =
        some (pg.mode, ['a']) ∧
      appendRegexFlags ("gmsptiw".toList.filter fun c => c != 't' && c != 'g') =
        appendRegexFlags "gmsptiw".toList ∧
      deparseReplaceRegex [none, some ['a'], none, some "gmsptiw".toList] =
        [.text (if pg.glob then "replaceRegexpAll(".toList else "replaceRegexpOne(".toList),
          .arg 0, .text ", ".toList,
          .text ("concat('(?".toList ++ appendRegexFlags "gmsptiw".toList ++ ")', ".toList), .arg 1,
          .text [')'], .text ", ".toList, .arg 2, .text [')']] :=
  regex_flags_read (by decide : regex_flags_ok true "gmsptiw".toList = true) ['a'] none
    (some ['a']) none

example : appendRegexFlags "gmsptiw".toList = "im".toList := by decide

end PgClickhouse.Regex

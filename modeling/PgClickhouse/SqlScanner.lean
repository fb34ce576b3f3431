import Mathlib.Data.List.Basic
import Mathlib.Data.List.TakeWhile
import Mathlib.Tactic.Common

/-!
# Tokens of SQL statements

How PostgreSQL cuts the text of a statement into tokens: bare words, which are folded to lower
case, quoted names, string literals with and without escapes, numbers and marks.  Names are
clipped to the longest length the catalogs hold.  What the rules leave out, among it comments,
operators and the escapes for code points, is not read.  Nothing here names a program.

* `scan_of_scans`: the tokens that steps of the scanner find are those of the text.
* `Prints`: a text that is read as given tokens wherever what follows it does not touch it, and
  `Prints.append`, which puts such texts together.
* `prints_quoted`, `prints_literal`: names and literals that were printed with their quotes
  doubled are read back.
-/

namespace SqlScanner

abbrev Text := List UInt8

inductive Token
  | word (folded : Text)
  | quoted (name : Text)
  | literal (value : Text)
  | number (digits : Text)
  | mark (c : UInt8)
  deriving Repr, DecidableEq

/-- Names are clipped where they are not shorter than `limit`. -/
structure Clipping where
  limit : Nat
  clip : Text → Text
  short : ∀ {name}, name.length < limit → clip name = name

def blank (c : UInt8) : Bool := c == 32 || (9 ≤ c && c ≤ 13)

def letter (c : UInt8) : Bool :=
  (97 ≤ c && c ≤ 122) || (65 ≤ c && c ≤ 90) || c == 95 || 128 ≤ c

def digit (c : UInt8) : Bool := 48 ≤ c && c ≤ 57

def wordChar (c : UInt8) : Bool := letter c || digit c || c == 36

def lower (c : UInt8) : UInt8 := if 65 ≤ c ∧ c ≤ 90 then c + 32 else c

/-- The content up to the closing quote, which is not doubled, and the text behind it. -/
@[grind =] def doubled (quote : UInt8) : Text → Option (Text × Text)
  | [] => none
  | [c] => if c = quote then some ([], []) else none
  | c :: d :: text =>
      if c = quote then
        if d = quote then (doubled quote text).map fun (content, rest) => (quote :: content, rest)
        else some ([], d :: text)
      else (doubled quote (d :: text)).map fun (content, rest) => (c :: content, rest)

/-- What a backslash and one more byte stand for, unless they begin a longer escape. -/
def single (c : UInt8) : Option UInt8 :=
  if c = 98 then some 8
  else if c = 102 then some 12
  else if c = 110 then some 10
  else if c = 114 then some 13
  else if c = 116 then some 9
  else if c = 118 then some 11
  else if digit c || c == 120 || c == 117 || c == 85 then none
  else some c

/-- The same of a literal with escapes. -/
@[grind =] def extended : Text → Option (Text × Text)
  | [] => none
  | [c] => if c = 39 then some ([], []) else none
  | c :: d :: text =>
      if c = 92 then
        (single d).bind fun b =>
          (extended text).map fun (content, rest) => (b :: content, rest)
      else if c = 39 then
        if d = 39 then (extended text).map fun (content, rest) => (39 :: content, rest)
        else some ([], d :: text)
      else (extended (d :: text)).map fun (content, rest) => (c :: content, rest)

/-- A literal that goes on behind a blank is not read. -/
def closed (rest : Text) : Bool := (rest.dropWhile blank).head? != some 39

/-- The marks that are tokens of their own. -/
def isMark (c : UInt8) : Bool :=
  c == 40 || c == 41 || c == 44 || c == 46 || c == 59 || c == 91 || c == 93

variable (clipping : Clipping)

/-- The token at the front of a text that does not begin with a blank. -/
def token : Text → Option (Token × Text)
  | [] => none
  | c :: text =>
      if c = 34 then
        (doubled 34 text).bind fun (name, rest) =>
          if name = [] then none else some (.quoted (clipping.clip name), rest)
      else if c = 39 then
        (doubled 39 text).bind fun (value, rest) =>
          if closed rest then some (.literal value, rest) else none
      else if (c = 69 ∨ c = 101) ∧ text.head? = some 39 then
        (extended text.tail).bind fun (value, rest) =>
          if closed rest then some (.literal value, rest) else none
      else if letter c then
        let rest := text.dropWhile wordChar
        if rest.head? = some 39 then none
        else some (.word (clipping.clip ((c :: text.takeWhile wordChar).map lower)), rest)
      else if digit c then
        let rest := text.dropWhile digit
        if rest.head?.any (fun d => wordChar d || d == 46) then none
        else some (.number (c :: text.takeWhile digit), rest)
      else if isMark c then some (.mark c, text)
      else none

def next (text : Text) : Option (Token × Text) := token clipping (text.dropWhile blank)

/-- The tokens of a text. -/
@[grind =] def scan : Nat → Text → Option (List Token)
  | 0, text => if text.all blank then some [] else none
  | fuel + 1, text =>
      if text.all blank then some []
      else (next clipping text).bind fun (t, rest) => (scan fuel rest).map (t :: ·)

def tokens (text : Text) : Option (List Token) := scan clipping text.length text

/-- Steps of the scanner. -/
inductive Scans : Text → List Token → Text → Prop
  | done {text : Text} : Scans text [] text
  | step {text rest left : Text} {t : Token} {ts : List Token} :
      next clipping text = some (t, rest) → Scans rest ts left → Scans text (t :: ts) left

variable {clipping} {text rest left : Text} {t : Token} {ts us : List Token}

theorem Scans.trans (first : Scans clipping text ts rest) (second : Scans clipping rest us left) :
    Scans clipping text (ts ++ us) left := by
  induction first with
  | done => exact second
  | step found _ ih => exact .step found (ih second)

/-! ## Steps shorten the text -/

theorem length_of_doubled {quote : UInt8} {content : Text}
    (read : doubled quote text = some (content, rest)) : rest.length < text.length := by
  induction text using doubled.induct quote generalizing content with
  | case1 => cases read
  | case2 =>
      rw [doubled, if_pos rfl] at read
      cases read
      exact Nat.zero_lt_one
  | case3 c other =>
      rw [doubled, if_neg other] at read
      cases read
  | case4 text ih =>
      rw [doubled, if_pos rfl, if_pos rfl] at read
      obtain ⟨inner, found, same⟩ := Option.map_eq_some_iff.mp read
      cases same
      have := ih found
      simp only [List.length_cons]
      omega
  | case5 d text other =>
      rw [doubled, if_pos rfl, if_neg other] at read
      cases read
      exact Nat.lt_succ_self _
  | case6 c d text other ih =>
      rw [doubled, if_neg other] at read
      obtain ⟨inner, found, same⟩ := Option.map_eq_some_iff.mp read
      cases same
      exact Nat.lt_succ_of_lt (ih found)

theorem length_of_extended {content : Text}
    (read : extended text = some (content, rest)) : rest.length < text.length := by
  induction text using extended.induct generalizing content with
  | case1 => cases read
  | case2 =>
      rw [extended, if_pos rfl] at read
      cases read
      exact Nat.zero_lt_one
  | case3 c other =>
      rw [extended, if_neg other] at read
      cases read
  | case4 d text ih =>
      rw [extended, if_pos rfl] at read
      obtain ⟨b, -, read⟩ := Option.bind_eq_some_iff.mp read
      obtain ⟨inner, found, same⟩ := Option.map_eq_some_iff.mp read
      cases same
      have := ih found
      simp only [List.length_cons]
      omega
  | case5 text _ ih =>
      rw [extended, if_neg (by decide), if_pos rfl, if_pos rfl] at read
      obtain ⟨inner, found, same⟩ := Option.map_eq_some_iff.mp read
      cases same
      have := ih found
      simp only [List.length_cons]
      omega
  | case6 d text other _ =>
      rw [extended, if_neg (by decide), if_pos rfl, if_neg other] at read
      cases read
      exact Nat.lt_succ_self _
  | case7 c d text slash other ih =>
      rw [extended, if_neg slash, if_neg other] at read
      obtain ⟨inner, found, same⟩ := Option.map_eq_some_iff.mp read
      cases same
      exact Nat.lt_succ_of_lt (ih found)

theorem length_of_token (read : token clipping text = some (t, rest)) :
    rest.length < text.length := by
  cases text with
  | nil => cases read
  | cons c text =>
      rw [token] at read
      split at read
      · obtain ⟨⟨name, left⟩, found, same⟩ := Option.bind_eq_some_iff.mp read
        dsimp only at same
        split at same
        · cases same
        · cases same
          exact Nat.lt_succ_of_lt (length_of_doubled found)
      split at read
      · obtain ⟨⟨value, left⟩, found, same⟩ := Option.bind_eq_some_iff.mp read
        dsimp only at same
        split at same
        · cases same
          exact Nat.lt_succ_of_lt (length_of_doubled found)
        · cases same
      split at read
      · obtain ⟨⟨value, left⟩, found, same⟩ := Option.bind_eq_some_iff.mp read
        dsimp only at same
        split at same
        · cases same
          have shorter := length_of_extended found
          rw [List.length_tail] at shorter
          rw [List.length_cons]
          omega
        · cases same
      split at read
      · dsimp only at read
        split at read
        · cases read
        · cases read
          exact Nat.lt_succ_of_le (List.dropWhile_sublist _).length_le
      split at read
      · dsimp only at read
        split at read
        · cases read
        · cases read
          exact Nat.lt_succ_of_le (List.dropWhile_sublist _).length_le
      split at read
      · cases read
        exact Nat.lt_succ_self _
      · cases read

theorem length_of_next (read : next clipping text = some (t, rest)) :
    rest.length < text.length :=
  Nat.lt_of_lt_of_le (length_of_token read) (List.dropWhile_sublist _).length_le

/-- A text with a token is not blank. -/
theorem not_blank_of_next (read : next clipping text = some (t, rest)) :
    text.all blank = false := by
  cases blanks : text.all blank with
  | false => rfl
  | true =>
      have none : text.dropWhile blank = [] :=
        List.dropWhile_eq_nil_iff.mpr (List.all_eq_true.mp blanks)
      rw [next, none] at read
      cases read

theorem scan_of_scans {fuel : Nat} (scans : Scans clipping text ts rest)
    (blanks : rest.all blank = true) (enough : text.length ≤ fuel) :
    scan clipping fuel text = some ts := by
  induction scans generalizing fuel with
  | done =>
      cases fuel with
      | zero => exact if_pos blanks
      | succ fuel => exact if_pos blanks
  | step read _ ih =>
      have shorter := length_of_next read
      cases fuel with
      | zero => omega
      | succ fuel =>
          rw [scan, not_blank_of_next read, if_neg Bool.false_ne_true, read]
          change (scan clipping fuel _).map _ = _
          rw [ih blanks (by omega), Option.map_some]

/-! ## Printed texts -/

/-- What may follow a word or a quoted name. -/
def Ends (rest : Text) : Prop :=
  ∀ c ∈ rest.head?, wordChar c = false ∧ c ≠ 34 ∧ c ≠ 39

/-- What may follow a literal. -/
def Closes (rest : Text) : Prop := (rest.dropWhile blank).head? ≠ some 39

theorem ends_cons {c : UInt8} (other : wordChar c = false) (quote : c ≠ 34) (tick : c ≠ 39) :
    Ends (c :: rest) := by
  intro d first
  cases first
  exact ⟨other, quote, tick⟩

theorem closes_cons {c : UInt8} (solid : blank c = false) (tick : c ≠ 39) : Closes (c :: rest) := by
  intro same
  rw [List.dropWhile_cons_of_neg (by simp [solid])] at same
  exact tick (Option.some.inj same)

/-- A text that is read as these tokens if what follows it does not touch it. -/
def Prints (clipping : Clipping) (text : Text) (ts : List Token) (follow : Text → Prop) : Prop :=
  ∀ rest, follow rest → Scans clipping (text ++ rest) ts rest

theorem Prints.append {follow follow' : Text → Prop} {text' : Text}
    (first : Prints clipping text ts follow) (second : Prints clipping text' us follow')
    (fits : ∀ rest, follow' rest → follow (text' ++ rest)) :
    Prints clipping (text ++ text') (ts ++ us) follow' := by
  intro rest follows
  rw [List.append_assoc]
  exact (first _ (fits rest follows)).trans (second rest follows)

theorem Prints.mono {follow follow' : Text → Prop} (prints : Prints clipping text ts follow)
    (fits : ∀ rest, follow' rest → follow rest) : Prints clipping text ts follow' :=
  fun rest follows => prints rest (fits rest follows)

theorem prints_nil : Prints clipping [] [] fun _ => True :=
  fun _ _ => .done

/-- Blanks before a token. -/
theorem Prints.blank {follow : Text → Prop} {c : UInt8}
    (prints : Prints clipping text (t :: ts) follow)
    (space : SqlScanner.blank c = true) : Prints clipping (c :: text) (t :: ts) follow := by
  intro rest follows
  have found := prints rest follows
  cases found with
  | step read left =>
      refine .step ?_ left
      rw [List.cons_append, next, List.dropWhile_cons_of_pos space]
      exact read

/-- A mark is a token whatever follows. -/
theorem prints_mark {c : UInt8} (mark : isMark c = true) :
    Prints clipping [c] [.mark c] fun _ => True := by
  intro rest _
  refine .step ?_ .done
  have kinds : blank c = false ∧ c ≠ 34 ∧ c ≠ 39 ∧ ¬(c = 69 ∨ c = 101) ∧ letter c = false ∧
      digit c = false := by
    simp only [isMark, Bool.or_eq_true, beq_iff_eq] at mark
    rcases mark with (((((rfl | rfl) | rfl) | rfl) | rfl) | rfl) | rfl <;> decide
  obtain ⟨solid, quote, tick, escape, word, number⟩ := kinds
  rw [List.singleton_append, next, List.dropWhile_cons_of_neg (by simp [solid]), token,
    if_neg quote, if_neg tick, if_neg (fun h => escape h.1), word, number]
  rw [if_neg Bool.false_ne_true, if_neg Bool.false_ne_true, if_pos mark]

/-- A bare word is read in lower case. -/
theorem prints_word {c : UInt8} {w : Text} (first : letter c = true)
    (others : ∀ d ∈ w, wordChar d = true) :
    Prints clipping (c :: w) [.word (clipping.clip ((c :: w).map lower))] Ends := by
  intro rest ends
  have solid : blank c = false ∧ c ≠ 34 ∧ c ≠ 39 := by
    refine ⟨?_, ?_, ?_⟩
    · cases space : blank c with
      | false => rfl
      | true =>
          simp only [blank, letter, Bool.or_eq_true, Bool.and_eq_true, beq_iff_eq,
            decide_eq_true_eq, UInt8.le_iff_toNat_le, ← UInt8.toNat_inj] at space first
          simp only [UInt8.reduceToNat] at space first
          omega
    · rintro rfl
      exact absurd first (by decide)
    · rintro rfl
      exact absurd first (by decide)
  have stop : (rest.takeWhile wordChar = [] ∧ rest.dropWhile wordChar = rest) := by
    cases rest with
    | nil => exact ⟨rfl, rfl⟩
    | cons d rest =>
        have different : ¬wordChar d = true := by
          rw [(ends d rfl).1]
          exact Bool.false_ne_true
        exact ⟨List.takeWhile_cons_of_neg different, List.dropWhile_cons_of_neg different⟩
  have plain : ¬((c = 69 ∨ c = 101) ∧ (w ++ rest).head? = some 39) := by
    rintro ⟨-, tick⟩
    cases w with
    | nil => exact (ends 39 tick).2.2 rfl
    | cons d w =>
        cases tick
        exact absurd (others 39 List.mem_cons_self) (by decide)
  have open_ : rest.head? ≠ some 39 := fun tick => (ends 39 tick).2.2 rfl
  refine .step ?_ .done
  rw [List.cons_append, next, List.dropWhile_cons_of_neg (by simp [solid.1]), token,
    if_neg solid.2.1, if_neg solid.2.2, if_neg plain, if_pos first]
  rw [List.takeWhile_append_of_pos others, List.dropWhile_append_of_pos others, stop.1, stop.2,
    if_neg open_, List.append_nil]

/-- A word that is not clipped. -/
def isLabel (limit : Nat) (name : Text) : Bool :=
  name.head?.any letter && name.all wordChar && decide (name.length < limit)

theorem prints_label {name : Text} (label : isLabel clipping.limit name = true) :
    Prints clipping name [.word (name.map lower)] Ends := by
  rw [isLabel, Bool.and_eq_true, Bool.and_eq_true, decide_eq_true_eq] at label
  obtain ⟨⟨first, all⟩, short⟩ := label
  cases name with
  | nil => cases first
  | cons c w =>
      have same : clipping.clip ((c :: w).map lower) = (c :: w).map lower :=
        clipping.short (by rw [List.length_map]; exact short)
      rw [← same]
      exact prints_word first fun d member =>
        List.all_eq_true.mp all d (List.mem_cons_of_mem _ member)

/-! ## Quotes -/

/-- A byte of a quoted text. -/
def double (quote c : UInt8) : Text := if c = quote then [c, c] else [c]

theorem doubled_content {quote : UInt8} (name : Text) (alone : rest.head? ≠ some quote) :
    doubled quote (name.flatMap (double quote) ++ quote :: rest) = some (name, rest) := by
  have closing : doubled quote (quote :: rest) = some ([], rest) := by
    cases rest with
    | nil => rw [doubled, if_pos rfl]
    | cons d rest => rw [doubled, if_pos rfl, if_neg fun same => alone (congrArg some same)]
  induction name with
  | nil => exact closing
  | cons c name ih =>
      rw [List.flatMap_cons, List.append_assoc]
      by_cases same : c = quote
      · rw [same, double, if_pos rfl]
        change doubled quote (quote :: quote :: (_ ++ quote :: rest)) = _
        rw [doubled, if_pos rfl, if_pos rfl, ih]
        rfl
      · rw [double, if_neg same]
        cases follows : name.flatMap (double quote) ++ quote :: rest with
        | nil => exact absurd follows (List.append_ne_nil_of_right_ne_nil _ (List.cons_ne_nil _ _))
        | cons d text =>
            rw [follows] at ih
            change doubled quote (c :: d :: text) = _
            rw [doubled, if_neg same, ih]
            rfl

/-- A byte of a literal with escapes. -/
def escape (c : UInt8) : Text := if c = 39 ∨ c = 92 then [c, c] else [c]

theorem extended_content (value : Text) (alone : rest.head? ≠ some 39) :
    extended (value.flatMap escape ++ 39 :: rest) = some (value, rest) := by
  have closing : extended (39 :: rest) = some ([], rest) := by
    cases rest with
    | nil => rfl
    | cons d rest =>
        rw [extended, if_neg (by decide), if_pos rfl,
          if_neg fun same => alone (congrArg some same)]
  induction value with
  | nil => exact closing
  | cons c value ih =>
      rw [List.flatMap_cons, List.append_assoc]
      by_cases tick : c = 39
      · rw [tick, escape, if_pos (.inl rfl)]
        change extended (39 :: 39 :: (_ ++ 39 :: rest)) = _
        rw [extended, if_neg (by decide), if_pos rfl, if_pos rfl, ih]
        rfl
      by_cases slash : c = 92
      · rw [slash, escape, if_pos (.inr rfl)]
        change extended (92 :: 92 :: (_ ++ 39 :: rest)) = _
        have stands : single 92 = some 92 := rfl
        rw [extended, if_pos rfl, stands, ih]
        rfl
      · rw [escape, if_neg (by simp [tick, slash])]
        cases follows : value.flatMap escape ++ 39 :: rest with
        | nil => exact absurd follows (List.append_ne_nil_of_right_ne_nil _ (List.cons_ne_nil _ _))
        | cons d text =>
            rw [follows] at ih
            change extended (c :: d :: text) = _
            rw [extended, if_neg slash, if_neg tick, ih]
            rfl

/-- A name in quotes. -/
theorem prints_quoted {name : Text} (some_ : name ≠ []) :
    Prints clipping (34 :: (name.flatMap (double 34) ++ [34])) [.quoted (clipping.clip name)]
      Ends := by
  intro rest ends
  have alone : rest.head? ≠ some 34 := fun same => (ends 34 same).2.1 rfl
  refine .step ?_ .done
  rw [List.cons_append, List.append_assoc, next, List.dropWhile_cons_of_neg (by decide), token,
    if_pos rfl, List.singleton_append, doubled_content name alone]
  exact if_neg some_

theorem head_of_closes (closes : Closes rest) : rest.head? ≠ some 39 := by
  intro same
  cases rest with
  | nil => cases same
  | cons c rest =>
      cases same
      exact closes (by rw [List.dropWhile_cons_of_neg (by decide)]; rfl)

/-- What `quote_literal_cstr` prints: with escapes only if there is a backslash. -/
def quote_literal_cstr (value : Text) : Text :=
  (if 92 ∈ value then [69] else []) ++ 39 :: (value.flatMap escape ++ [39])

theorem prints_literal (value : Text) :
    Prints clipping (quote_literal_cstr value) [.literal value] Closes := by
  intro rest closes
  have alone := head_of_closes closes
  have finished : closed rest = true := by
    rw [closed, bne_iff_ne]
    exact closes
  refine .step ?_ .done
  unfold quote_literal_cstr
  split
  · change next clipping (69 :: 39 :: (value.flatMap escape ++ [39] ++ rest)) = _
    rw [next, List.dropWhile_cons_of_neg (by decide), token, if_neg (by decide),
      if_neg (by decide), if_pos ⟨.inl rfl, rfl⟩, List.tail_cons, List.append_assoc,
      List.singleton_append, extended_content value alone]
    exact if_pos finished
  · rename_i bare
    have plain : value.flatMap escape = value.flatMap (double 39) := by
      apply List.flatMap_congr
      intro c member
      have other : c ≠ 92 := fun same => bare (same ▸ member)
      rw [escape, double]
      exact if_congr (by simp [other]) rfl rfl
    change next clipping (39 :: (value.flatMap escape ++ [39] ++ rest)) = _
    rw [next, List.dropWhile_cons_of_neg (by decide), token, if_neg (by decide), if_pos rfl,
      List.append_assoc, List.singleton_append, plain, doubled_content value alone]
    exact if_pos finished

end SqlScanner

import PgClickhouse.Basic
import PgClickhouse.QuotedToken

/-!
# Identifiers

Names of columns, tables and databases and the keys of JSON paths are printed with
PostgreSQL's `quote_identifier`, which doubles quotes and leaves backslashes as they are.
ClickHouse takes a backslash in a quoted identifier for an escape.

* `identifiers_read_back_iff`: the names printed are read back exactly when every backslash
  in them stands before a byte with which it means nothing.
-/

namespace PgClickhouse

open QuotedToken (Escapes identifier token Delimits)

/-! ## Emitters -/

/-- The first byte of a name that needs no quotes. -/
def safe_start (c : UInt8) : Bool := (97 ≤ c && c ≤ 122) || c == 95

def safe_char (c : UInt8) : Bool := safe_start c || (48 ≤ c && c ≤ 57)

/-- The bytes written for one byte of a quoted name. -/
def ident_byte (c : UInt8) : Bytes := if c = 34 then [34, 34] else [c]

/-- How PostgreSQL quotes: by its setting and its keywords that are not unreserved. -/
structure IdentQuoting where
  quote_all_identifiers : Bool
  reserved : Bytes → Bool

def quote_identifier (q : IdentQuoting) (ident : Bytes) : Bytes :=
  let safe := (ident.head?.elim false safe_start && ident.all safe_char) &&
    !q.quote_all_identifiers && !q.reserved ident
  if safe then ident else 34 :: (ident.flatMap ident_byte ++ [34])

/-- A piece of a statement: its own text, or a name that is quoted. -/
inductive Piece
  | sql (text : Bytes)
  | ident (name : Bytes)
  deriving Repr, DecidableEq

def Piece.text (q : IdentQuoting) : Piece → Bytes
  | .sql text => text
  | .ident name => quote_identifier q name

/-- A column, by its `column_name` option if it has one, with the alias of its relation. -/
def deparseColumnRef (colname : Option Bytes) (attname : Bytes) (qualifier : Option Nat) :
    List Piece :=
  (match qualifier with
    | some varno => [.sql (ascii "r" ++ decimal varno ++ ascii ".")]
    | none => []) ++ [.ident (colname.getD attname)]

def deparseRelation (dbname relname : Bytes) : List Piece :=
  [.ident dbname, .sql (ascii "."), .ident relname]

/-- The keys of a path behind the text of the column. -/
def deparseJsonbExtractPath (arg : Bytes) (keys : List Bytes) (wrap_json : Bool) : List Piece :=
  (if wrap_json then [Piece.sql (ascii "toJSONString(")] else []) ++
    Piece.sql arg :: (keys.flatMap fun key => [Piece.sql (ascii "."), .ident key]) ++
    if wrap_json then [Piece.sql (ascii ")")] else []

/-- The key of `->`, which returns JSON, or `->>`. -/
def deparseJsonFetchval (arg keyval : Bytes) (wrap_json : Bool) : List Piece :=
  (if wrap_json then [Piece.sql (ascii "toJSONString(")] else []) ++
    [Piece.sql arg, .sql (ascii "."), .ident keyval] ++
    if wrap_json then [Piece.sql (ascii ")")] else []

/-- What prints a name. -/
inductive Emission
  | columnRef (colname : Option Bytes) (attname : Bytes) (qualifier : Option Nat)
  | relation (dbname relname : Bytes)
  | extractPath (arg : Bytes) (keys : List Bytes) (wrap_json : Bool)
  | fetchval (arg keyval : Bytes) (wrap_json : Bool)

def Emission.pieces : Emission → List Piece
  | .columnRef colname attname qualifier => deparseColumnRef colname attname qualifier
  | .relation dbname relname => deparseRelation dbname relname
  | .extractPath arg keys wrap_json => deparseJsonbExtractPath arg keys wrap_json
  | .fetchval arg keyval wrap_json => deparseJsonFetchval arg keyval wrap_json

/-! ## Reading -/

/-- Every name in the pieces is one identifier, equal to it and as long as its text, where
`rest` follows. -/
def ReadBack (e : Escapes) (q : IdentQuoting) (pieces : List Piece) (rest : Bytes) : Prop :=
  ∀ before name after, pieces = before ++ .ident name :: after →
    identifier e (quote_identifier q name ++ (after.flatMap (Piece.text q) ++ rest)) =
      some (name, after.flatMap (Piece.text q) ++ rest)

/-- Every backslash of the name stands before a byte that it is kept with. -/
def Intact (e : Escapes) : Bytes → Prop
  | [] => True
  | [c] => c ≠ 92
  | c :: d :: name =>
      if c = 92 then d ≠ 120 ∧ e.sequence d = [92, d] ∧ Intact e name else Intact e (d :: name)

instance decidableIntact (e : Escapes) : DecidablePred (Intact e)
  | [] => isTrue trivial
  | [c] => inferInstanceAs (Decidable (c ≠ 92))
  | c :: d :: name =>
      have := decidableIntact e name
      have := decidableIntact e (d :: name)
      inferInstanceAs (Decidable (if c = 92 then _ else _))

section

variable {e : Escapes} {q : IdentQuoting}

theorem intact_cons {c : UInt8} (other : c ≠ 92) (name : Bytes) :
    Intact e (c :: name) ↔ Intact e name := by
  rcases name with _ | ⟨d, name⟩
  · exact iff_of_true other trivial
  · rw [Intact, if_neg other]

theorem intact_slash (d : UInt8) (name : Bytes) : Intact e (92 :: d :: name) ↔
    d ≠ 120 ∧ e.sequence d = [92, d] ∧ Intact e name := by
  rw [Intact, if_pos rfl]

/-- A name without a backslash is kept. -/
theorem intact_of_not_mem {name : Bytes} (plain : 92 ∉ name) : Intact e name := by
  induction name with
  | nil => trivial
  | cons c name ih =>
      obtain ⟨head, tail⟩ := List.ne_and_not_mem_of_not_mem_cons plain
      exact (intact_cons (Ne.symm head) name).mpr (ih tail)

/-- What a backslash stands for with a byte is no more than the two. -/
theorem sequence_length_le (d : UInt8) : (e.sequence d).length ≤ 2 := by
  unfold Escapes.sequence
  split
  · exact Nat.zero_le _
  · split
    · exact Nat.le_succ 1
    · split
      · exact Nat.le_succ 1
      · rcases e.other_eq d with kept | dropped
        · rw [kept]
          exact le_rfl
        · rw [dropped]
          exact Nat.le_succ 1

/-- Where it is two bytes, they are the backslash and the byte. -/
theorem sequence_eq_of_length {d : UInt8} (two : (e.sequence d).length = 2) :
    e.sequence d = [92, d] := by
  unfold Escapes.sequence at two ⊢
  split at two
  · cases two
  · rename_i named
    rw [if_neg named]
    split at two
    · cases two
    · rename_i letter
      split at two
      · cases two
      · rename_i other
        rw [if_neg other]
        rcases e.other_eq d with kept | dropped
        · exact kept
        · rw [dropped] at two
          cases two

theorem ident_byte_other {c : UInt8} (other : c ≠ 34) : ident_byte c = [c] := if_neg other

/-- Behind a quote that has lost its double the content of a name is no content. -/
theorem decode_shifted (name : Bytes) :
    QuotedToken.decode e 34 (34 :: name.flatMap ident_byte) = none := by
  induction name with
  | nil => rfl
  | cons c name ih =>
      by_cases quote : c = 34
      · rw [quote, List.flatMap_cons]
        change QuotedToken.decode e 34 (34 :: 34 :: 34 :: name.flatMap ident_byte) = none
        rw [QuotedToken.decode.eq_def]
        simp only [if_true, if_neg (show ¬(34 : UInt8) = 92 by decide), ih, Option.map_none]
      · rw [List.flatMap_cons, ident_byte_other quote]
        change QuotedToken.decode e 34 (34 :: c :: name.flatMap ident_byte) = none
        rw [QuotedToken.decode.eq_def]
        simp only [if_true, if_neg (show ¬(34 : UInt8) = 92 by decide), if_neg quote]

/-- What follows two bytes of the content of a name: the content of less of the name, perhaps
behind a quote that has lost its double. -/
theorem content_behind {name text : Bytes} {h l : UInt8}
    (content : name.flatMap ident_byte = h :: l :: text) :
    (∃ later : Bytes, later.length ≤ name.length ∧ text = later.flatMap ident_byte) ∨
      ∃ later : Bytes, text = 34 :: later.flatMap ident_byte := by
  rcases name with _ | ⟨a, name⟩
  · cases content
  by_cases quote : a = 34
  · rw [quote, List.flatMap_cons] at content
    cases content
    exact .inl ⟨name, Nat.le_succ _, rfl⟩
  rw [List.flatMap_cons, ident_byte_other quote] at content
  rcases name with _ | ⟨b, name⟩
  · cases content
  by_cases quote' : b = 34
  · rw [quote', List.flatMap_cons] at content
    cases content
    exact .inr ⟨name, rfl⟩
  · rw [List.flatMap_cons, ident_byte_other quote'] at content
    cases content
    exact .inl ⟨name, by simp only [List.length_cons]; omega, rfl⟩

/-- The content of a name is no longer than the name, and as long only if every backslash is
kept. -/
theorem length_le_of_decode {name value : Bytes}
    (decoded : QuotedToken.decode e 34 (name.flatMap ident_byte) = some value) :
    value.length ≤ name.length ∧ (value.length = name.length → Intact e name) := by
  induction length : name.length using Nat.strong_induction_on generalizing name value with
  | _ n ih =>
      subst length
      rcases name with _ | ⟨c, name⟩
      · cases decoded
        exact ⟨le_rfl, fun _ => trivial⟩
      rw [List.flatMap_cons] at decoded
      by_cases slash : c = 92
      · rw [slash, ident_byte_other (by decide)] at decoded
        rcases name with _ | ⟨d, name⟩
        · cases decoded
        by_cases quote : d = 34
        · -- the backslash takes the first of the two quotes
          rw [quote, List.flatMap_cons] at decoded
          have shifted := decode_shifted (e := e) name
          change QuotedToken.decode e 34 (92 :: 34 :: 34 :: name.flatMap ident_byte) = _ at decoded
          rw [QuotedToken.decode.eq_def] at decoded
          simp only [if_true, if_neg (show ¬(34 : UInt8) = 120 by decide), shifted,
            Option.map_none] at decoded
          cases decoded
        rw [List.flatMap_cons, ident_byte_other quote] at decoded
        by_cases hex : d = 120
        · rw [hex] at decoded
          change QuotedToken.decode e 34 (92 :: 120 :: name.flatMap ident_byte) = _ at decoded
          rw [QuotedToken.decode.eq_def] at decoded
          simp only [if_true] at decoded
          split at decoded
          · rename_i h l text content
            rw [Option.map_eq_some_iff] at decoded
            obtain ⟨value', behind, rfl⟩ := decoded
            rcases content_behind content with ⟨later, shorter, rfl⟩ | ⟨later, rfl⟩
            · have bound := (ih later.length (by simp only [List.length_cons]; omega)
                behind rfl).1
              simp only [List.length_cons]
              exact ⟨by omega, fun same => by omega⟩
            · rw [decode_shifted] at behind
              cases behind
          · cases decoded
        · change QuotedToken.decode e 34 (92 :: d :: name.flatMap ident_byte) = _ at decoded
          rw [QuotedToken.decode.eq_def] at decoded
          simp only [if_true, if_neg hex, Option.map_eq_some_iff] at decoded
          obtain ⟨later, behind, rfl⟩ := decoded
          obtain ⟨shorter, intact⟩ := ih name.length (by simp only [List.length_cons]; omega)
            behind rfl
          have two := sequence_length_le (e := e) d
          rw [List.length_append, List.length_cons, List.length_cons]
          refine ⟨by omega, fun same => ?_⟩
          rw [slash, intact_slash]
          exact ⟨hex, sequence_eq_of_length (by omega), intact (by omega)⟩
      · have later : ∃ value', value = c :: value' ∧
            QuotedToken.decode e 34 (name.flatMap ident_byte) = some value' := by
          by_cases quote : c = 34
          · rw [quote] at decoded
            have spelled : QuotedToken.Spells e 34 [34, 34] 34 :=
              QuotedToken.spells_doubled (by decide)
            rw [ident_byte, if_pos rfl, spelled.decode, Option.map_eq_some_iff] at decoded
            obtain ⟨later, behind, rfl⟩ := decoded
            exact ⟨later, congrArg (· :: later) quote.symm, behind⟩
          · rw [ident_byte_other quote, (QuotedToken.spells_self slash quote).decode,
              Option.map_eq_some_iff] at decoded
            obtain ⟨later, behind, rfl⟩ := decoded
            exact ⟨later, rfl, behind⟩
        obtain ⟨value', rfl, behind⟩ := later
        obtain ⟨shorter, intact⟩ := ih name.length (Nat.lt_succ_self _) behind rfl
        rw [intact_cons slash, List.length_cons, List.length_cons]
        exact ⟨Nat.succ_le_succ shorter, fun same => intact (Nat.succ.inj same)⟩

/-- The content of a name whose backslashes are kept is the name. -/
theorem cut_and_decode {name : Bytes} (intact : Intact e name) (rest : Bytes)
    (single : rest.head? ≠ some 34) :
    QuotedToken.cut 34 (name.flatMap ident_byte ++ 34 :: rest) =
        some (name.flatMap ident_byte, rest) ∧
      QuotedToken.decode e 34 (name.flatMap ident_byte) = some name := by
  induction length : name.length using Nat.strong_induction_on generalizing name with
  | _ n ih =>
      subst length
      rcases name with _ | ⟨c, name⟩
      · exact ⟨QuotedToken.cut_quote (by decide) single, rfl⟩
      by_cases slash : c = 92
      · rw [slash] at intact
        rcases name with _ | ⟨d, name⟩
        · exact absurd rfl intact
        rw [intact_slash] at intact
        have quote : d ≠ 34 := by
          rintro rfl
          have alone : e.sequence 34 = [34] := QuotedToken.sequence_plain (by decide) rfl rfl
          cases alone.symm.trans intact.2.1
        obtain ⟨cut, decode⟩ := ih name.length (by simp only [List.length_cons]; omega)
          intact.2.2 rfl
        rw [slash, List.flatMap_cons, List.flatMap_cons, ident_byte_other (by decide),
          ident_byte_other quote]
        constructor
        · change QuotedToken.cut 34 (92 :: d :: (name.flatMap ident_byte ++ 34 :: rest)) = _
          rw [QuotedToken.cut, if_pos rfl, cut]
          rfl
        · change QuotedToken.decode e 34 (92 :: d :: name.flatMap ident_byte) = _
          rw [QuotedToken.decode.eq_def]
          simp only [if_true, if_neg intact.1, decode, intact.2.1]
          rfl
      · rw [intact_cons slash] at intact
        obtain ⟨cut, decode⟩ := ih name.length (Nat.lt_succ_self _) intact rfl
        have spelled : QuotedToken.Spells e 34 (ident_byte c) c := by
          by_cases quote : c = 34
          · rw [quote]
            exact QuotedToken.spells_doubled (by decide)
          · rw [ident_byte_other quote]
            exact QuotedToken.spells_self slash quote
        rw [List.flatMap_cons, List.append_assoc, spelled.cut, cut, spelled.decode, decode]
        exact ⟨rfl, rfl⟩

/-- A name is read back exactly when its backslashes are kept. -/
theorem quote_identifier_iff (name : Bytes) {rest : Bytes} (delimits : Delimits rest) :
    identifier e (quote_identifier q name ++ rest) = some (name, rest) ↔ Intact e name := by
  have single : rest.head? ≠ some 34 := fun same => (delimits 34 same).2.1 rfl
  by_cases safe : ((name.head?.elim false safe_start && name.all safe_char) &&
      !q.quote_all_identifiers && !q.reserved name) = true
  · have bare : quote_identifier q name = name := if_pos safe
    simp only [Bool.and_eq_true] at safe
    obtain ⟨⟨⟨start, chars⟩, -⟩, -⟩ := safe
    rw [List.all_eq_true] at chars
    have plain : 92 ∉ name := fun member => absurd (chars 92 member) (by decide)
    rw [bare]
    refine iff_of_true ?_ (intact_of_not_mem plain)
    rcases name with _ | ⟨c, name⟩
    · cases start
    · have started : ∀ c, safe_start c = true → QuotedToken.wordStart c = true := by
        intro c
        simp only [safe_start, QuotedToken.wordStart, Bool.or_eq_true]
        exact Or.imp_left .inl
      have worded : ∀ c, safe_char c = true → QuotedToken.wordChar c = true := by
        intro c
        simp only [safe_char, QuotedToken.wordChar, Bool.or_eq_true]
        exact fun safe => .inl (safe.imp_left (started c))
      exact QuotedToken.identifier_bare (started c start)
        (fun d member => worded d (chars d (List.mem_cons_of_mem c member))) delimits
  · have quoted : quote_identifier q name = 34 :: (name.flatMap ident_byte ++ [34]) := if_neg safe
    rw [quoted, List.cons_append, List.append_assoc, QuotedToken.identifier_quoted (.inl rfl),
      token, if_pos rfl]
    change ((QuotedToken.cut 34 (name.flatMap ident_byte ++ 34 :: rest)).bind _) = _ ↔ _
    constructor
    · intro read
      obtain ⟨⟨content, rest'⟩, cut, decoded⟩ := Option.bind_eq_some_iff.mp read
      obtain ⟨value, content_decoded, same⟩ := Option.map_eq_some_iff.mp decoded
      cases same
      have text := List.append_cancel_right (QuotedToken.eq_of_cut cut)
      rw [← text] at content_decoded
      exact (length_le_of_decode content_decoded).2 rfl
    · intro intact
      obtain ⟨cut, decode⟩ := cut_and_decode intact rest single
      rw [cut]
      change (QuotedToken.decode e 34 (name.flatMap ident_byte)).map _ = _
      rw [decode]
      rfl

end

/-! ## Names in their context -/

/-- Behind each name stands a text that ends it, or nothing. -/
def Separated : List Piece → Prop
  | [] => True
  | .sql _ :: pieces => Separated pieces
  | [.ident _] => True
  | .ident _ :: .sql text :: pieces => text ≠ [] ∧ Delimits text ∧ Separated pieces
  | .ident _ :: .ident _ :: _ => False

theorem separated_dots (keys : List Bytes) {pieces : List Piece}
    (starts : ∀ name, Separated (.ident name :: pieces)) (separated : Separated pieces) :
    Separated ((keys.flatMap fun key => [.sql (ascii "."), .ident key]) ++ pieces) := by
  have dot : Delimits (ascii ".") := QuotedToken.delimits_cons (by decide)
  induction keys with
  | nil => exact separated
  | cons key keys ih =>
      rcases keys with _ | ⟨next, keys⟩
      · exact starts key
      · exact ⟨List.cons_ne_nil _ _, dot, ih⟩

theorem separated_pieces (emission : Emission) : Separated emission.pieces := by
  have dot : Delimits (ascii ".") := QuotedToken.delimits_cons (by decide)
  have close : Delimits (ascii ")") := QuotedToken.delimits_cons (by decide)
  have ends (wrap : Bool) (name : Bytes) :
      Separated (.ident name :: if wrap then [.sql (ascii ")")] else []) := by
    cases wrap
    · trivial
    · exact ⟨List.cons_ne_nil _ _, close, trivial⟩
  have closing (wrap : Bool) : Separated (if wrap then [.sql (ascii ")")] else []) := by
    cases wrap <;> trivial
  cases emission with
  | columnRef colname attname qualifier =>
      cases qualifier <;> trivial
  | relation dbname relname => exact ⟨List.cons_ne_nil _ _, dot, trivial⟩
  | extractPath arg keys wrap_json =>
      have path := separated_dots keys (ends wrap_json) (closing wrap_json)
      cases wrap_json <;> exact path
  | fetchval arg keyval wrap_json =>
      have key := ends wrap_json keyval
      cases wrap_json <;> exact key

section

variable {e : Escapes} {q : IdentQuoting}

theorem delimits_after {before after : List Piece} {name rest : Bytes}
    (separated : Separated (before ++ .ident name :: after)) (delimits : Delimits rest) :
    Delimits (after.flatMap (Piece.text q) ++ rest) := by
  induction before with
  | nil =>
      rcases after with _ | ⟨piece, after⟩
      · exact delimits
      · rcases piece with text | name'
        · obtain ⟨ne, delimits', -⟩ := separated
          rcases text with _ | ⟨c, text⟩
          · exact absurd rfl ne
          · exact QuotedToken.delimits_cons (delimits' c rfl)
        · exact separated.elim
  | cons piece before ih =>
      apply ih
      rcases piece with text | name'
      · exact separated
      · rcases before with _ | ⟨next, before⟩
        · exact separated.elim
        · rcases next with text | name''
          · exact separated.2.2
          · exact separated.elim

/-- The names of an emission are read back, each as one identifier that ends with its text,
exactly when their backslashes are kept. -/
theorem identifiers_read_back_iff (emission : Emission) {rest : Bytes} (delimits : Delimits rest) :
    ReadBack e q emission.pieces rest ↔
      ∀ name, .ident name ∈ emission.pieces → Intact e name := by
  have separated := separated_pieces emission
  constructor
  · intro read name member
    obtain ⟨before, after, pieces⟩ := List.append_of_mem member
    rw [pieces] at separated
    exact (quote_identifier_iff name (delimits_after separated delimits)).mp
      (read before name after pieces)
  · intro intact before name after pieces
    have member : .ident name ∈ emission.pieces := by
      rw [pieces]
      exact List.mem_append_right _ List.mem_cons_self
    rw [pieces] at separated
    exact (quote_identifier_iff name (delimits_after separated delimits)).mpr
      (intact name member)

end

/-- PostgreSQL's default setting and one of its keywords. -/
def defaultQuoting : IdentQuoting := ⟨false, fun name => name == ascii "select"⟩

/-- A key with a backslash that means nothing. -/
theorem identifiers_read_back_key :
    ReadBack Escapes.kept defaultQuoting
      (Emission.fetchval (ascii "data") (ascii "back\\slash") false).pieces (ascii " = 'bs'") :=
  (identifiers_read_back_iff _ (QuotedToken.delimits_cons (by decide))).mpr fun name member => by
    have key : name = ascii "back\\slash" := by
      simpa [Emission.pieces, deparseJsonFetchval] using member
    rw [key]
    decide +kernel

/-- A column can end its name early: what follows the first quote in it is read as SQL. -/
theorem not_identifiers_read_back :
    identifier Escapes.kept (quote_identifier defaultQuoting (ascii "a\\\", version() -- ") ++
        ascii " FROM t") =
      some (ascii "a\"", ascii ", version() -- \" FROM t") ∧
    ¬∀ (emission : Emission) (rest : Bytes), Delimits rest →
      ReadBack Escapes.kept defaultQuoting emission.pieces rest := by
  have early : identifier Escapes.kept
      (quote_identifier defaultQuoting (ascii "a\\\", version() -- ") ++ ascii " FROM t") =
        some (ascii "a\"", ascii ", version() -- \" FROM t") := by decide +kernel
  refine ⟨early, fun reads => ?_⟩
  have read := reads (.columnRef none (ascii "a\\\", version() -- ") none) (ascii " FROM t")
    (QuotedToken.delimits_cons (by decide)) [] _ [] rfl
  exact absurd (early.symm.trans read) (by decide +kernel)

end PgClickhouse

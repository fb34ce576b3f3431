import PgClickhouse.SqlScanner

/-!
# Statements that create foreign tables

The grammar of `CREATE FOREIGN TABLE` over the tokens of a statement, as far as tables have
columns with types, options and not-null constraints.  The type of a column is a balanced
sequence of tokens, which ends before a comma, a closing parenthesis or the options and
constraints behind it.  Nothing here names a program.

* `parseStatement_tokens`: the tokens of a statement are parsed to it.
* `isType_append`: a type stays one with brackets behind it.
-/

namespace ForeignTables

open SqlScanner (Text Token)

/-- A keyword, as it is read. -/
def keyword (s : String) : Token := .word (s.toList.map fun c => c.toNat.toUInt8)

structure ColumnDef where
  colname : Text
  type : List Token
  options : List (Text × Text)
  is_not_null : Bool
  deriving Repr, DecidableEq

structure CreateForeignTableStmt where
  schemaname : Text
  relname : Text
  columns : List ColumnDef
  servername : Text
  options : List (Text × Text)
  deriving Repr, DecidableEq

/-! ## The grammar -/

variable (reserved : Text → Bool)

/-- A name: a bare word that is not reserved, or anything in quotes. -/
def nameOf : Token → Option Text
  | .word name => if reserved name then none else some name
  | .quoted name => some name
  | _ => none

def parseName : List Token → Option (Text × List Token)
  | [] => none
  | t :: ts => (nameOf reserved t).map fun name => (name, ts)

/-- What ends the type of a column. -/
def stops (t : Token) : Bool :=
  t == .mark 44 || t == .mark 41 || t == keyword "options" || t == keyword "not"

/-- How deep a token leaves the parentheses. -/
def depthBehind (depth : Nat) (t : Token) : Nat :=
  if t = .mark 40 then depth + 1 else if t = .mark 41 then depth - 1 else depth

/-- A type, and what is behind it. -/
def takeType : Nat → List Token → List Token × List Token
  | _, [] => ([], [])
  | depth, t :: ts =>
      if depth = 0 ∧ stops t then ([], t :: ts)
      else
        let (type, rest) := takeType (depthBehind depth t) ts
        (t :: type, rest)

/-- The options behind an opening parenthesis. -/
def parseOptions : List Token → Option (List (Text × Text) × List Token)
  | .word name :: .literal value :: .mark c :: ts =>
      if c = 44 then (parseOptions ts).map fun (options, ts) => ((name, value) :: options, ts)
      else if c = 41 then some ([(name, value)], ts)
      else none
  | _ => none

def parseGenericOptions : List Token → Option (List (Text × Text) × List Token)
  | [] => some ([], [])
  | t :: ts =>
      if t = keyword "options" then
        match ts with
        | .mark 40 :: ts => parseOptions ts
        | _ => none
      else some ([], t :: ts)

def parseNotNull : List Token → Option (Bool × List Token)
  | [] => some (false, [])
  | t :: ts =>
      if t = keyword "not" then
        match ts with
        | u :: ts => if u = keyword "null" then some (true, ts) else none
        | [] => none
      else some (false, t :: ts)

def parseColumn (ts : List Token) : Option (ColumnDef × List Token) := do
  let (colname, ts) ← parseName reserved ts
  let (type, ts) := takeType 0 ts
  if type = [] then none
  else do
    let (options, ts) ← parseGenericOptions ts
    let (is_not_null, ts) ← parseNotNull ts
    some (⟨colname, type, options, is_not_null⟩, ts)

def parseColumns : Nat → List Token → Option (List ColumnDef × List Token)
  | 0, _ => none
  | fuel + 1, ts => do
      let (column, ts) ← parseColumn reserved ts
      match ts with
      | .mark c :: ts =>
          if c = 44 then (parseColumns fuel ts).map fun (columns, ts) => (column :: columns, ts)
          else if c = 41 then some ([column], ts)
          else none
      | _ => none

/-- The columns behind an opening parenthesis, if there are any. -/
def parseElements (ts : List Token) : Option (List ColumnDef × List Token) :=
  match ts with
  | .mark 41 :: ts => some ([], ts)
  | ts => parseColumns reserved ts.length ts

/-- Tokens that have to be there. -/
def expect (want ts : List Token) : Option (List Token) :=
  if want.isPrefixOf ts then some (ts.drop want.length) else none

def parseStatement (ts : List Token) : Option CreateForeignTableStmt := do
  let ts ← expect [keyword "create", keyword "foreign", keyword "table", keyword "if",
    keyword "not", keyword "exists"] ts
  let (schemaname, ts) ← parseName reserved ts
  let ts ← expect [.mark 46] ts
  let (relname, ts) ← parseName reserved ts
  let ts ← expect [.mark 40] ts
  let (columns, ts) ← parseElements reserved ts
  let ts ← expect [keyword "server"] ts
  let (servername, ts) ← parseName reserved ts
  let ts ← expect [keyword "options", .mark 40] ts
  let (options, ts) ← parseOptions ts
  if ts = [.mark 59] then some ⟨schemaname, relname, columns, servername, options⟩ else none

/-! ## Types -/

/-- Tokens that are balanced and hold nothing that ends them outside of parentheses. -/
def isType : Nat → List Token → Bool
  | depth, [] => depth == 0
  | depth, t :: ts => !(depth == 0 && stops t) && isType (depthBehind depth t) ts

variable {reserved} {ts us rest : List Token} {t : Token} {depth : Nat}

theorem takeType_append (type : isType depth ts = true) (ends : ∀ u ∈ rest.head?, stops u = true)
    (some_ : rest ≠ []) : takeType depth (ts ++ rest) = (ts, rest) := by
  induction ts generalizing depth with
  | nil =>
      obtain ⟨u, left, rfl⟩ := List.exists_cons_of_ne_nil some_
      have top : depth = 0 := by simpa [isType] using type
      rw [List.nil_append, takeType, if_pos ⟨top, ends u rfl⟩]
  | cons u ts ih =>
      rw [isType, Bool.and_eq_true, Bool.not_eq_true'] at type
      have goes : ¬(depth = 0 ∧ stops u = true) := by
        rintro ⟨rfl, stop⟩
        rw [stop] at type
        exact absurd type.1 (by decide)
      rw [List.cons_append, takeType, if_neg goes, ih type.2]

theorem isType_append (first : isType depth ts = true) (second : isType 0 us = true) :
    isType depth (ts ++ us) = true := by
  induction ts generalizing depth with
  | nil =>
      have top : depth = 0 := by simpa [isType] using first
      rw [top]
      exact second
  | cons u ts ih =>
      rw [isType, Bool.and_eq_true] at first
      rw [List.cons_append, isType, first.1, ih first.2]
      rfl

/-! ## Tokens -/

/-- The tokens of options and the parenthesis behind them. -/
def optionTokens : List (Text × Text) → List Token
  | [] => []
  | [(name, value)] => [.word name, .literal value, .mark 41]
  | (name, value) :: options => .word name :: .literal value :: .mark 44 :: optionTokens options

/-- The options of a column. -/
def genericTokens (options : List (Text × Text)) : List Token :=
  if options = [] then [] else keyword "options" :: .mark 40 :: optionTokens options

def notNullTokens (is_not_null : Bool) : List Token :=
  if is_not_null then [keyword "not", keyword "null"] else []

/-- The tokens of a column with a name of its own. -/
def columnTokens (name : Token) (column : ColumnDef) : List Token :=
  name :: (column.type ++ (genericTokens column.options ++ notNullTokens column.is_not_null))

/-- The tokens of columns, by their names, and the parenthesis behind them. -/
def elementTokens : List (Token × ColumnDef) → List Token
  | [] => [.mark 41]
  | [(name, column)] => columnTokens name column ++ [.mark 41]
  | (name, column) :: columns => columnTokens name column ++ .mark 44 :: elementTokens columns

def statementTokens (schemaname relname servername : Token) (columns : List (Token × ColumnDef))
    (options : List (Text × Text)) : List Token :=
  [keyword "create", keyword "foreign", keyword "table", keyword "if", keyword "not",
    keyword "exists"] ++ schemaname :: ([.mark 46] ++ relname :: ([.mark 40] ++
      (elementTokens columns ++ ([keyword "server"] ++ servername ::
        ([keyword "options", .mark 40] ++ (optionTokens options ++ [.mark 59]))))))

/-- A column that is read from its tokens. -/
structure Readable (reserved : Text → Bool) (name : Token) (column : ColumnDef) : Prop where
  colname : nameOf reserved name = some column.colname
  type : isType 0 column.type = true
  typed : column.type ≠ []

theorem expect_append (want ts : List Token) : expect want (want ++ ts) = some ts := by
  rw [expect, if_pos (by simp), List.drop_left]

theorem parseOptions_tokens {options : List (Text × Text)} (some_ : options ≠ []) :
    parseOptions (optionTokens options ++ rest) = some (options, rest) := by
  induction options with
  | nil => exact absurd rfl some_
  | cons option options ih =>
      obtain ⟨name, value⟩ := option
      cases options with
      | nil => rfl
      | cons next options =>
          have behind := ih (List.cons_ne_nil _ _)
          change parseOptions (.word name :: .literal value :: .mark 44 ::
            (optionTokens (next :: options) ++ rest)) = _
          rw [parseOptions, if_pos rfl, behind]
          rfl

/-- What stands behind a column. -/
def Behind (rest : List Token) : Prop := ∃ c left, rest = Token.mark c :: left ∧ (c = 44 ∨ c = 41)

theorem Behind.stop (behind : Behind rest) : ∀ u ∈ rest.head?, stops u = true := by
  obtain ⟨c, left, rfl, rfl | rfl⟩ := behind
  · intro u first
    cases first
    decide
  · intro u first
    cases first
    decide

theorem parseNotNull_tokens (is_not_null : Bool) (behind : Behind rest) :
    parseNotNull (notNullTokens is_not_null ++ rest) = some (is_not_null, rest) := by
  obtain ⟨c, left, rfl, -⟩ := behind
  cases is_not_null with
  | false => rfl
  | true =>
      change parseNotNull (keyword "not" :: keyword "null" :: _) = _
      rw [parseNotNull, if_pos rfl]
      exact if_pos rfl

theorem parseGenericOptions_tokens (options : List (Text × Text)) (is_not_null : Bool)
    (behind : Behind rest) :
    parseGenericOptions (genericTokens options ++ (notNullTokens is_not_null ++ rest)) =
      some (options, notNullTokens is_not_null ++ rest) := by
  rw [genericTokens]
  split
  · rename_i none_
    obtain ⟨c, left, rfl, -⟩ := behind
    rw [none_]
    cases is_not_null with
    | false => rfl
    | true =>
        unfold parseGenericOptions
        exact if_neg (by decide)
  · rename_i some_
    change parseGenericOptions (keyword "options" :: .mark 40 ::
      (optionTokens options ++ (notNullTokens is_not_null ++ rest))) = _
    rw [parseGenericOptions, if_pos rfl]
    exact parseOptions_tokens some_

theorem parseColumn_tokens {name : Token} {column : ColumnDef}
    (readable : Readable reserved name column) (behind : Behind rest) :
    parseColumn reserved (columnTokens name column ++ rest) = some (column, rest) := by
  have stop : ∀ u ∈ (genericTokens column.options ++
      (notNullTokens column.is_not_null ++ rest)).head?, stops u = true := by
    rw [genericTokens]
    split
    · cases column.is_not_null with
      | false => exact behind.stop
      | true =>
          intro u first
          cases first
          decide
    · intro u first
      cases first
      decide
  have more : genericTokens column.options ++ (notNullTokens column.is_not_null ++ rest) ≠ [] := by
    obtain ⟨c, left, rfl, -⟩ := behind
    simp
  have taken := takeType_append readable.type stop more
  rw [parseColumn, columnTokens, List.cons_append, parseName, readable.colname,
    List.append_assoc, List.append_assoc, Option.map_some, Option.bind_eq_bind, Option.bind_some]
  dsimp only
  rw [taken]
  dsimp only
  rw [if_neg readable.typed, parseGenericOptions_tokens _ _ behind, Option.bind_eq_bind,
    Option.bind_some]
  dsimp only
  rw [parseNotNull_tokens _ behind, Option.bind_eq_bind, Option.bind_some]

theorem parseColumns_tokens {columns : List (Token × ColumnDef)} {fuel : Nat}
    (readable : ∀ x ∈ columns, Readable reserved x.1 x.2) (some_ : columns ≠ [])
    (enough : columns.length ≤ fuel) :
    parseColumns reserved fuel (elementTokens columns ++ rest) =
      some (columns.map Prod.snd, rest) := by
  induction columns generalizing fuel with
  | nil => exact absurd rfl some_
  | cons first columns ih =>
      obtain ⟨name, column⟩ := first
      have own : Readable reserved name column := readable _ List.mem_cons_self
      cases fuel with
      | zero => cases enough
      | succ fuel =>
          cases columns with
          | nil =>
              have parsed : parseColumn reserved
                  (columnTokens name column ++ ([.mark 41] ++ rest)) = _ :=
                parseColumn_tokens own ⟨41, rest, rfl, .inr rfl⟩
              rw [parseColumns, elementTokens, List.append_assoc, parsed]
              rfl
          | cons next columns =>
              have later := ih (fun x member => readable x (List.mem_cons_of_mem _ member))
                (List.cons_ne_nil _ _) (Nat.le_of_succ_le_succ enough)
              have parsed : parseColumn reserved (columnTokens name column ++
                  (.mark 44 :: elementTokens (next :: columns) ++ rest)) = _ :=
                parseColumn_tokens own ⟨44, _, rfl, .inl rfl⟩
              change parseColumns reserved (fuel + 1) (columnTokens name column ++
                .mark 44 :: elementTokens (next :: columns) ++ rest) = _
              rw [parseColumns, List.append_assoc, parsed, Option.bind_eq_bind, Option.bind_some]
              change Option.map _ (parseColumns reserved fuel
                (elementTokens (next :: columns) ++ rest)) = _
              rw [later]
              rfl

theorem length_le_elementTokens (columns : List (Token × ColumnDef)) :
    columns.length ≤ (elementTokens columns).length := by
  induction columns with
  | nil => exact Nat.zero_le _
  | cons first columns ih =>
      obtain ⟨name, column⟩ := first
      cases columns with
      | nil =>
          rw [elementTokens, List.length_append, columnTokens, List.length_cons]
          exact Nat.le_add_left _ _
      | cons next columns =>
          change _ ≤ (columnTokens name column ++ .mark 44 ::
              elementTokens (next :: columns)).length
          simp only [List.length_append, List.length_cons] at ih ⊢
          omega

theorem parseElements_tokens {columns : List (Token × ColumnDef)}
    (readable : ∀ x ∈ columns, Readable reserved x.1 x.2) :
    parseElements reserved (elementTokens columns ++ rest) =
      some (columns.map Prod.snd, rest) := by
  cases columns with
  | nil => rfl
  | cons first columns =>
      have enough : (first :: columns).length ≤
          (elementTokens (first :: columns) ++ rest).length := by
        rw [List.length_append]
        exact (length_le_elementTokens _).trans (Nat.le_add_right _ _)
      have parsed : parseColumns reserved _ (elementTokens (first :: columns) ++ rest) = _ :=
        parseColumns_tokens readable (List.cons_ne_nil _ _) enough
      obtain ⟨name, column⟩ := first
      have own : Readable reserved name column := readable _ List.mem_cons_self
      have opening : ∃ left, elementTokens ((name, column) :: columns) ++ rest = name :: left := by
        cases columns with
        | nil => exact ⟨_, rfl⟩
        | cons next columns => exact ⟨_, rfl⟩
      obtain ⟨left, same⟩ := opening
      rw [same] at parsed ⊢
      unfold parseElements
      split
      · rename_i closing
        cases closing
        cases own.colname
      · exact parsed

/-- The tokens of a statement are parsed to it. -/
theorem parseStatement_tokens {schemaname relname servername : Token} {s r v : Text}
    {columns : List (Token × ColumnDef)} {options : List (Text × Text)}
    (schema : nameOf reserved schemaname = some s) (rel : nameOf reserved relname = some r)
    (server : nameOf reserved servername = some v)
    (readable : ∀ x ∈ columns, Readable reserved x.1 x.2) (some_ : options ≠ []) :
    parseStatement reserved (statementTokens schemaname relname servername columns options) =
      some ⟨s, r, columns.map Prod.snd, v, options⟩ := by
  rw [parseStatement, statementTokens]
  simp only [Option.bind_eq_bind]
  rw [expect_append, Option.bind_some, parseName, schema, Option.map_some, Option.bind_some]
  dsimp only
  rw [expect_append, Option.bind_some, parseName, rel, Option.map_some, Option.bind_some]
  dsimp only
  rw [expect_append, Option.bind_some, parseElements_tokens readable, Option.bind_some]
  dsimp only
  rw [expect_append, Option.bind_some, parseName, server, Option.map_some, Option.bind_some]
  dsimp only
  rw [expect_append, Option.bind_some, parseOptions_tokens some_, Option.bind_some]
  exact if_pos rfl

end ForeignTables

import PgClickhouse.ColumnsCache
import PgClickhouse.EngineOption
import PgClickhouse.ForeignTables
import PgClickhouse.Identifiers
import PgClickhouse.Literals

/-!
# Importing a schema

`IMPORT FOREIGN SCHEMA` asks ClickHouse for its tables and their columns and writes a
`CREATE FOREIGN TABLE` statement for each table that is wanted, which PostgreSQL scans, parses
and executes.  Names of ClickHouse may be longer than those of PostgreSQL, hold any byte and
spell keywords.  Types of ClickHouse are parsed and mapped outside of the repository.

* `import_schema_mirrors`: the statements are those of the tables that PostgreSQL lets through,
  and each is parsed to a table that stands for the remote one, column by column.
-/

namespace PgClickhouse.ImportSchema

open SqlScanner (Clipping Prints Ends isLabel lower quote_literal_cstr)
open ForeignTables

/-! ## Types -/

structure pgch_pg_type where
  typid : Nat
  typmod : Int
  ndims : Nat
  nullable : Bool
  deriving Repr, DecidableEq

/-- What maps types of ClickHouse, and prints those of PostgreSQL. -/
structure Types (τ : Type) where
  chc_type_parse : Bytes → Option τ
  chc_type_agg_function : τ → Option Bytes
  is_simple_aggregate : τ → Bool
  chc_type_child : τ → τ
  pgch_pg_type_for : τ → Option pgch_pg_type
  pgch_pg_type_is_column : pgch_pg_type → Bool
  format_type_with_typemod : Nat → Int → Bytes

variable {τ : Type} (types : Types τ)

/-- The declaration of a column of a type, whether it may hold NULL, and the options that keep
its aggregate function. -/
def parse_type (declaration : Bytes) : Option (Bytes × Bool × List DefElem) :=
  if (ascii "Object(").isPrefixOf declaration then none
  else if declaration = ascii "AggregateFunction(count)" then
    some (ascii "BIGINT", true, [⟨ascii "AggregateFunction", some (ascii "count")⟩])
  else do
    let parsed ← types.chc_type_parse declaration
    let func := types.chc_type_agg_function parsed
    let column := if func.isSome then types.chc_type_child parsed else parsed
    let options := func.toList.map fun func =>
      ⟨if types.is_simple_aggregate parsed then ascii "SimpleAggregateFunction"
        else ascii "AggregateFunction", some func⟩
    let type ← types.pgch_pg_type_for column
    let as_text := !types.pgch_pg_type_is_column type
    let ndims := if as_text then type.ndims + 1 else type.ndims
    let decl := if as_text then ascii "TEXT[]"
      else types.format_type_with_typemod type.typid type.typmod
    some (decl ++ (List.replicate (ndims - 1) (ascii "[]")).flatten, type.nullable || func.isSome,
      options)

/-! ## Statements -/

/-- A name of PostgreSQL. -/
abbrev NameData := { name : Bytes // name ≠ [] ∧ name.length < NAMEDATALEN }

/-- A name of ClickHouse. -/
abbrev RemoteName := { name : Bytes // name ≠ [] }

inductive ImportForeignSchemaType
  | FDW_IMPORT_SCHEMA_ALL
  | FDW_IMPORT_SCHEMA_LIMIT_TO
  | FDW_IMPORT_SCHEMA_EXCEPT
  deriving Repr, DecidableEq

/-- A list that limits the tables is not empty. -/
structure ImportForeignSchemaStmt where
  remote_schema : Bytes
  local_schema : NameData
  list_type : ImportForeignSchemaType
  table_list : List Bytes
  limited : list_type = .FDW_IMPORT_SCHEMA_LIMIT_TO → table_list ≠ []

/-- A row of `system.tables`. -/
structure TableRow where
  name : Option RemoteName
  engine : Option Bytes
  engine_full : Option Bytes

/-- A row of `system.columns`. -/
structure ColumnRow where
  name : RemoteName
  type : Bytes

/-- How PostgreSQL reads and prints names: no name that is clipped is a keyword. -/
structure Postgres where
  quoting : IdentQuoting
  clipping : Clipping
  limit : clipping.limit = NAMEDATALEN
  clipped : ∀ name : Bytes, NAMEDATALEN ≤ name.length →
    quoting.reserved (clipping.clip name) = false

def tables_sql (remote_schema : Bytes) : Bytes :=
  ascii ("SELECT name, engine, engine_full FROM system.tables " ++
    "WHERE name NOT LIKE '.inner%' AND database = ") ++ ch_quote_literal_internal remote_schema

def columns_sql (remote_schema table_name : Bytes) : Bytes :=
  ascii "SELECT name, type FROM system.columns WHERE database = " ++
    ch_quote_literal_internal remote_schema ++ ascii " AND table = " ++
    ch_quote_literal_internal table_name

/-- What ClickHouse answers to a statement; `none` is an error. -/
structure Remote where
  tables : Bytes → Option (List TableRow)
  columns : Bytes → Option (List ColumnRow)

variable (pg : Postgres) (stmt : ImportForeignSchemaStmt)

/-- Whether the list of the statement leaves a table out. -/
def skips (table_name : Bytes) : Bool :=
  if stmt.table_list = [] then false
  else
    let local_name := if NAMEDATALEN ≤ table_name.length then pg.clipping.clip table_name
      else table_name
    let found := stmt.table_list.any (· == local_name)
    (stmt.list_type = .FDW_IMPORT_SCHEMA_EXCEPT && found) ||
      (stmt.list_type = .FDW_IMPORT_SCHEMA_LIMIT_TO && !found)

def option_text (option : DefElem) : Bytes :=
  option.defname ++ ascii " " ++ quote_literal_cstr (option.arg.getD [])

/-- Options with commas between them. -/
def options_text : List DefElem → Bytes
  | [] => []
  | [option] => option_text option
  | option :: options => option_text option ++ ascii ", " ++ options_text options

/-- The options of a column: its name too if PostgreSQL cannot hold it. -/
def column_options (colname : Bytes) (options : List DefElem) : List DefElem :=
  options ++ if NAMEDATALEN ≤ colname.length then [⟨ascii "column_name", some colname⟩] else []

def column_text (colname remote_type : Bytes) (is_nullable : Bool) (options : List DefElem) :
    Bytes :=
  ascii "\t" ++ quote_identifier pg.quoting colname ++ ascii " " ++ remote_type ++
    (if options = [] then [] else ascii " OPTIONS (" ++ options_text options ++ ascii ")") ++
    (if is_nullable then [] else ascii " NOT NULL")

/-- The loop over the columns of a table. -/
def columns_text : List ColumnRow → Option Bytes
  | [] => some []
  | [row] => do
      let (remote_type, is_nullable, options) ← parse_type types row.type
      some (column_text pg row.name remote_type is_nullable (column_options row.name options))
  | row :: rows => do
      let (remote_type, is_nullable, options) ← parse_type types row.type
      let rest ← columns_text rows
      some (column_text pg row.name remote_type is_nullable (column_options row.name options) ++
        ascii ",\n" ++ rest)

def create_table (servername : Bytes) (table_name : Bytes) (columns : Bytes)
    (options : List DefElem) : Bytes :=
  ascii "CREATE FOREIGN TABLE IF NOT EXISTS " ++ quote_identifier pg.quoting stmt.local_schema ++
    ascii "." ++ quote_identifier pg.quoting table_name ++ ascii " (\n" ++ columns ++
    ascii "\n) SERVER " ++ quote_identifier pg.quoting servername ++ ascii " OPTIONS (" ++
    options_text options ++ ascii ");\n"

variable (remote : Remote) (servername : NameData)

/-- The loop over the tables. -/
def create_tables : List TableRow → Option (List Bytes)
  | [] => some []
  | table :: tables =>
      match table.name with
      | none => create_tables tables
      | some name =>
          if skips pg stmt name then create_tables tables
          else do
            let rows ← remote.columns (columns_sql stmt.remote_schema name)
            let columns ← columns_text types pg rows
            let result ← create_tables tables
            some (create_table pg stmt servername name columns
              (import_options stmt.remote_schema name table.engine table.engine_full) :: result)

def chfdw_construct_create_tables : Option (List Bytes) := do
  let tables ← remote.tables (tables_sql stmt.remote_schema)
  create_tables types pg stmt remote servername tables

/-! ## What PostgreSQL makes of them -/

/-- The statement that PostgreSQL reads from a text. -/
def readStatement (sql : Bytes) : Option CreateForeignTableStmt :=
  (SqlScanner.tokens pg.clipping sql).bind (parseStatement pg.quoting.reserved)

/-- PostgreSQL's own check of the names of imported tables. -/
def IsImportableForeignTable (tablename : Bytes) : Bool :=
  match stmt.list_type with
  | .FDW_IMPORT_SCHEMA_ALL => true
  | .FDW_IMPORT_SCHEMA_LIMIT_TO => stmt.table_list.any (· == tablename)
  | .FDW_IMPORT_SCHEMA_EXCEPT => !stmt.table_list.any (· == tablename)

/-- Options as the catalogs hold them. -/
def stored (options : List (Bytes × Bytes)) : List DefElem :=
  options.map fun option => ⟨option.1, some option.2⟩

/-- The database and the name of the table on the server, by the options of the foreign table,
the database of the server and the name of the foreign table. -/
def chfdw_remote_table_name (dbname : Option Bytes) (options : List DefElem) (relname : Bytes) :
    Bytes × Bytes :=
  let named := options.foldl (fun (x : Bytes × Option Bytes) option =>
    if option.defname = ascii "table_name" then (x.1, some (option.arg.getD []))
    else if option.defname = ascii "database" then (option.arg.getD [], x.2)
    else x) (dbname.getD (ascii "default"), none)
  (named.1, named.2.getD relname)

/-- A column of a foreign table stands for a remote one. -/
structure MirrorsColumn (row : ColumnRow) (column : ColumnDef) : Prop where
  attname : column.colname = pg.clipping.clip row.name
  name : ∃ distinct, (ColumnsCache.ColumnOptions.column_name
    ⟨stored column.options, distinct⟩).getD column.colname = row.name
  type : ∃ decl is_nullable options, parse_type types row.type = some (decl, is_nullable, options) ∧
    SqlScanner.tokens pg.clipping decl = some column.type ∧ column.is_not_null = !is_nullable ∧
    (stored column.options).filter (fun option => option.defname ≠ ascii "column_name") =
      options.map fun option => ⟨option.defname.map lower, option.arg⟩

/-- A foreign table stands for a remote one. -/
structure MirrorsTable (row : TableRow) (name : RemoteName) (rows : List ColumnRow)
    (table : CreateForeignTableStmt) : Prop where
  schemaname : table.schemaname = stmt.local_schema.val
  relname : table.relname = pg.clipping.clip name
  servername : table.servername = servername.val
  options : stored table.options =
    import_options stmt.remote_schema name row.engine row.engine_full
  remote : ∀ dbname, chfdw_remote_table_name dbname (stored table.options) table.relname =
    (stmt.remote_schema, name.val)
  columns : List.Forall₂ (MirrorsColumn types pg) rows table.columns

/-! ## Printed names -/

section

variable {pg}

theorem safe_lower {c : UInt8} (safe : safe_char c = true) :
    SqlScanner.wordChar c = true ∧ lower c = c := by
  simp only [safe_char, safe_start, Bool.or_eq_true, Bool.and_eq_true, decide_eq_true_eq,
    beq_iff_eq] at safe
  constructor
  · simp only [SqlScanner.wordChar, SqlScanner.letter, SqlScanner.digit, Bool.or_eq_true,
      Bool.and_eq_true, decide_eq_true_eq, beq_iff_eq]
    rcases safe with (small | line) | number
    · exact .inl (.inl (.inl (.inl (.inl small))))
    · exact .inl (.inl (.inl (.inr line)))
    · exact .inl (.inr number)
  · refine if_neg ?_
    rintro ⟨low, high⟩
    rcases safe with (⟨above, -⟩ | rfl) | ⟨-, below⟩
    · exact absurd (UInt8.le_trans above high) (by decide)
    · exact absurd high (by decide)
    · exact absurd (UInt8.le_trans low below) (by decide)

/-- A name is read back, up to its clipping. -/
theorem prints_name (pg : Postgres) {name : Bytes} (some_ : name ≠ []) :
    ∃ t, Prints pg.clipping (quote_identifier pg.quoting name) [t] Ends ∧
      nameOf pg.quoting.reserved t = some (pg.clipping.clip name) := by
  unfold quote_identifier
  dsimp only
  split
  · rename_i safe
    simp only [Bool.and_eq_true, Bool.not_eq_true'] at safe
    obtain ⟨⟨⟨first, all⟩, -⟩, free⟩ := safe
    rw [List.all_eq_true] at all
    obtain ⟨c, w, rfl⟩ := List.exists_cons_of_ne_nil some_
    have start : SqlScanner.letter c = true := by
      simp only [List.head?_cons, Option.elim_some, safe_start, Bool.or_eq_true, Bool.and_eq_true,
        decide_eq_true_eq, beq_iff_eq] at first
      simp only [SqlScanner.letter, Bool.or_eq_true, Bool.and_eq_true, decide_eq_true_eq,
        beq_iff_eq]
      rcases first with small | line
      · exact .inl (.inl (.inl small))
      · exact .inl (.inr line)
    have folded : (c :: w).map lower = c :: w := by
      rw [List.map_congr_left fun d member => (safe_lower (all d member)).2, List.map_id']
    have prints : Prints pg.clipping (c :: w)
        [.word (pg.clipping.clip ((c :: w).map lower))] Ends :=
      SqlScanner.prints_word start fun d member =>
        (safe_lower (all d (List.mem_cons_of_mem _ member))).1
    rw [folded] at prints
    refine ⟨_, prints, if_neg ?_⟩
    rcases Nat.lt_or_ge (c :: w).length NAMEDATALEN with short | long
    · rw [pg.clipping.short (pg.limit ▸ short), free]
      exact Bool.false_ne_true
    · rw [pg.clipped _ long]
      exact Bool.false_ne_true
  · refine ⟨.quoted (pg.clipping.clip name), ?_, rfl⟩
    have doubled : name.flatMap ident_byte = name.flatMap (SqlScanner.double 34) := by
      apply List.flatMap_congr
      intro c _
      rw [ident_byte, SqlScanner.double]
      split
      · rename_i quote
        rw [quote]
      · rfl
    rw [doubled]
    exact SqlScanner.prints_quoted some_

/-! ## Printed options -/

/-- An option as it is read. -/
def read (option : DefElem) : Bytes × Bytes := (option.defname.map lower, option.arg.getD [])

theorem ends_blank (rest : Bytes) : Ends (32 :: rest) :=
  SqlScanner.ends_cons rfl (by decide) (by decide)

theorem prints_option {option : DefElem} (label : isLabel pg.clipping.limit option.defname = true) :
    Prints pg.clipping (option_text option)
      [.word (option.defname.map lower), .literal (option.arg.getD [])] SqlScanner.Closes := by
  have name := SqlScanner.prints_label label
  have value : Prints pg.clipping (32 :: quote_literal_cstr (option.arg.getD []))
      [.literal (option.arg.getD [])] SqlScanner.Closes :=
    (SqlScanner.prints_literal _).blank rfl
  rw [option_text, List.append_assoc]
  exact name.append value fun rest _ => ends_blank _

/-- Options and the parenthesis behind them. -/
theorem prints_options {options : List DefElem} (some_ : options ≠ [])
    (labels : ∀ option ∈ options, isLabel pg.clipping.limit option.defname = true) :
    Prints pg.clipping (options_text options ++ [41]) (optionTokens (options.map read))
      fun _ => True := by
  have closing : Prints pg.clipping [41] [.mark 41] fun _ => True := SqlScanner.prints_mark rfl
  have comma : Prints pg.clipping [44] [.mark 44] fun _ => True := SqlScanner.prints_mark rfl
  induction options with
  | nil => exact absurd rfl some_
  | cons option options ih =>
      have own := prints_option (labels option List.mem_cons_self)
      cases options with
      | nil =>
          exact own.append closing fun rest _ => SqlScanner.closes_cons rfl (by decide)
      | cons next options =>
          have later := ih (List.cons_ne_nil _ _) fun o member =>
            labels o (List.mem_cons_of_mem _ member)
          have spaced : Prints pg.clipping (32 :: (options_text (next :: options) ++ [41]))
              (optionTokens ((next :: options).map read)) fun _ => True := by
            cases options with
            | nil => exact later.blank rfl
            | cons after options => exact later.blank rfl
          have joined := own.append (comma.append spaced fun _ _ => trivial)
            fun rest _ => SqlScanner.closes_cons rfl (by decide)
          have text : options_text (option :: next :: options) ++ [41] =
              option_text option ++ ([44] ++ 32 :: (options_text (next :: options) ++ [41])) := by
            change option_text option ++ [44, 32] ++ options_text (next :: options) ++ [41] = _
            simp
          rw [text]
          exact joined

/-! ## Printed types -/

/-- A text that is read as the type of a column. -/
structure TypeName (clipping : Clipping) (text : Bytes) (tokens : List SqlScanner.Token) :
    Prop where
  prints : Prints clipping text tokens Ends
  type : isType 0 tokens = true
  typed : tokens ≠ []

/-- What `format_type_with_typemod` prints of the types of columns. -/
def Types.Printed (types : Types τ) (clipping : Clipping) : Prop :=
  ∀ column type, types.pgch_pg_type_for column = some type →
    types.pgch_pg_type_is_column type = true →
    ∃ tokens, TypeName clipping (types.format_type_with_typemod type.typid type.typmod) tokens

variable {types} {clipping : Clipping} {text : Bytes} {tokens : List SqlScanner.Token}

theorem TypeName.array (name : TypeName clipping text tokens) :
    TypeName clipping (text ++ ascii "[]") (tokens ++ [.mark 91, .mark 93]) where
  prints := by
    have opening : Prints clipping [91] [.mark 91] fun _ => True := SqlScanner.prints_mark rfl
    have closing : Prints clipping [93] [.mark 93] fun _ => True := SqlScanner.prints_mark rfl
    have brackets := opening.append closing fun _ _ => trivial
    have all := name.prints.append brackets fun rest _ =>
      SqlScanner.ends_cons rfl (by decide) (by decide)
    exact all.mono fun _ _ => trivial
  type := isType_append name.type rfl
  typed := List.append_ne_nil_of_left_ne_nil name.typed _

theorem TypeName.arrays (name : TypeName clipping text tokens) (n : Nat) :
    ∃ tokens', TypeName clipping (text ++ (List.replicate n (ascii "[]")).flatten) tokens' := by
  induction n with
  | zero =>
      rw [List.replicate_zero, List.flatten_nil, List.append_nil]
      exact ⟨tokens, name⟩
  | succ n ih =>
      obtain ⟨tokens', inner⟩ := ih
      rw [List.replicate_succ', List.flatten_append, List.flatten_singleton, ← List.append_assoc]
      exact ⟨_, inner.array⟩

/-- A word is a type unless it ends one. -/
theorem TypeName.word {name : Bytes} (label : isLabel clipping.limit name = true)
    (goes : stops (.word (name.map lower)) = false) :
    TypeName clipping name [.word (name.map lower)] where
  prints := SqlScanner.prints_label label
  type := by
    rw [isType, goes]
    rfl
  typed := List.cons_ne_nil _ _

theorem TypeName.tokens_eq (name : TypeName clipping text tokens) :
    SqlScanner.tokens clipping text = some tokens := by
  have scans := name.prints [] fun _ first => nomatch first
  rw [List.append_nil] at scans
  exact SqlScanner.scan_of_scans scans rfl (Nat.le_refl _)

/-- The options `parse_type` makes, if any: the aggregate function and its kind. -/
inductive AggregateOptions : List DefElem → Prop
  | none : AggregateOptions []
  | state (func : Bytes) : AggregateOptions [⟨ascii "AggregateFunction", some func⟩]
  | simple (func : Bytes) : AggregateOptions [⟨ascii "SimpleAggregateFunction", some func⟩]

theorem parse_type_spec (pg : Postgres) (printed : types.Printed pg.clipping)
    {declaration remote_type : Bytes} {is_nullable : Bool} {options : List DefElem}
    (parsed : parse_type types declaration = some (remote_type, is_nullable, options)) :
    (∃ tokens, TypeName pg.clipping remote_type tokens) ∧ AggregateOptions options := by
  have label (name : Bytes) (short : isLabel NAMEDATALEN name = true) :
      isLabel pg.clipping.limit name = true := by
    rw [pg.limit]
    exact short
  unfold parse_type at parsed
  split at parsed
  · cases parsed
  split at parsed
  · cases parsed
    exact ⟨⟨_, TypeName.word (label _ (by decide)) (by decide)⟩, .state _⟩
  · obtain ⟨column, -, parsed⟩ := Option.bind_eq_some_iff.mp parsed
    obtain ⟨type, mapped, parsed⟩ := Option.bind_eq_some_iff.mp parsed
    cases parsed
    constructor
    · cases is_column : types.pgch_pg_type_is_column type with
      | true =>
          obtain ⟨tokens, name⟩ := printed _ type mapped is_column
          exact name.arrays _
      | false =>
          have name := (TypeName.word (label (ascii "TEXT") (by decide)) (by decide)).array
          exact name.arrays _
    · cases types.chc_type_agg_function column with
      | none => exact .none
      | some func =>
          cases simple : types.is_simple_aggregate column with
          | true =>
              rw [Option.toList_some, List.map_singleton, if_pos rfl]
              exact .simple func
          | false =>
              rw [Option.toList_some, List.map_singleton, if_neg Bool.false_ne_true]
              exact .state func

/-! ## Printed columns -/

theorem ends_clause {clause rest : Bytes} (spaced : ∀ c ∈ clause.head?, c = 32)
    (ends : Ends rest) : Ends (clause ++ rest) := by
  cases clause with
  | nil => exact ends
  | cons c clause =>
      obtain rfl := spaced c rfl
      exact ends_blank _

theorem prints_spaced_label (pg : Postgres) (name : Bytes)
    (label : isLabel NAMEDATALEN name = true) :
    Prints pg.clipping (32 :: name) [.word (name.map lower)] Ends := by
  rw [← pg.limit] at label
  exact (SqlScanner.prints_label label).blank rfl

/-- The options of a column with the keyword before them. -/
theorem prints_generic {options : List DefElem}
    (labels : ∀ option ∈ options, isLabel pg.clipping.limit option.defname = true) :
    Prints pg.clipping
      (if options = [] then [] else ascii " OPTIONS (" ++ options_text options ++ ascii ")")
      (genericTokens (options.map read)) Ends := by
  split
  · rename_i none_
    rw [none_]
    exact SqlScanner.prints_nil.mono fun _ _ => trivial
  · rename_i some_
    have opening : Prints pg.clipping [32, 40] [.mark 40] fun _ => True :=
      (SqlScanner.prints_mark rfl).blank rfl
    have inner := prints_options some_ labels
    have all := (prints_spaced_label pg (ascii "OPTIONS") (by decide)).append
      (opening.append inner fun _ _ => trivial) fun rest _ => ends_blank _
    have tokens : genericTokens (options.map read) =
        [.word ((ascii "OPTIONS").map lower)] ++
            ([.mark 40] ++ optionTokens (options.map read)) := by
      rw [genericTokens, if_neg (by simpa using some_)]
      rfl
    have clause : ascii " OPTIONS (" ++ options_text options ++ ascii ")" =
        (32 :: ascii "OPTIONS") ++ ([32, 40] ++ (options_text options ++ [41])) := by
      rw [List.append_assoc]
      rfl
    rw [tokens, clause]
    exact all.mono fun _ _ => trivial

theorem prints_notNull (is_nullable : Bool) :
    Prints pg.clipping (if is_nullable then [] else ascii " NOT NULL")
      (notNullTokens !is_nullable) Ends := by
  cases is_nullable with
  | true => exact SqlScanner.prints_nil.mono fun _ _ => trivial
  | false =>
      exact (prints_spaced_label pg (ascii "NOT") (by decide)).append
        (prints_spaced_label pg (ascii "NULL") (by decide)) fun rest _ => ends_blank _

/-- The options of a column are labels, and each is given once. -/
theorem column_options_spec {options : List DefElem} (made : AggregateOptions options)
    (colname : Bytes) :
    (∀ option ∈ column_options colname options, isLabel NAMEDATALEN option.defname = true) ∧
      ((stored ((column_options colname options).map read)).map DefElem.defname).Nodup ∧
      (stored ((column_options colname options).map read)).filter
          (fun option => option.defname ≠ ascii "column_name") =
        options.map (fun option => ⟨option.defname.map lower, option.arg⟩) ∧
      ((stored ((column_options colname options).map read)).find?
          fun option => option.defname = ascii "column_name").map
              (fun option => option.arg.getD []) =
        if NAMEDATALEN ≤ colname.length then some colname else none := by
  unfold column_options
  have named : (ascii "column_name").map lower = ascii "column_name" := by decide
  have state : (ascii "AggregateFunction").map lower ≠ ascii "column_name" := by decide
  have simple : (ascii "SimpleAggregateFunction").map lower ≠ ascii "column_name" := by decide
  have label : isLabel NAMEDATALEN (ascii "column_name") = true := by decide
  have label' : isLabel NAMEDATALEN (ascii "AggregateFunction") = true := by decide
  have label'' : isLabel NAMEDATALEN (ascii "SimpleAggregateFunction") = true := by decide
  cases made with
  | none => split <;> simp [stored, read, named, label]
  | state func => split <;> simp [stored, read, named, state, label, label']
  | simple func => split <;> simp [stored, read, named, simple, label, label'']

/-- The text of a column is read as a column that stands for the remote one. -/
theorem prints_column (printed : types.Printed pg.clipping) (row : ColumnRow)
    {remote_type : Bytes} {is_nullable : Bool} {options : List DefElem}
    (parsed : parse_type types row.type = some (remote_type, is_nullable, options)) :
    ∃ t column, Prints pg.clipping
        (column_text pg row.name remote_type is_nullable (column_options row.name options))
        (columnTokens t column) Ends ∧
      Readable pg.quoting.reserved t column ∧ MirrorsColumn types pg row column := by
  obtain ⟨⟨tokens, name⟩, made⟩ := parse_type_spec pg printed parsed
  obtain ⟨labels, distinct, others, named⟩ := column_options_spec made row.name
  obtain ⟨t, printedName, own⟩ := prints_name pg row.name.property
  obtain ⟨first, later, rfl⟩ := List.exists_cons_of_ne_nil name.typed
  refine ⟨t, ⟨pg.clipping.clip row.name, first :: later, (column_options row.name options).map read,
    !is_nullable⟩, ?_, ⟨own, name.type, name.typed⟩, ⟨rfl, ⟨distinct, ?_⟩, ?_⟩⟩
  · have generic : Prints pg.clipping _ (genericTokens ((column_options row.name options).map read))
        Ends := prints_generic fun option member => pg.limit ▸ labels option member
    have clauses := generic.append (prints_notNull is_nullable) fun rest ends =>
      ends_clause (by cases is_nullable <;> simp [ascii]) ends
    have typed := (name.prints.blank (c := 32) rfl).append clauses fun rest ends => by
      rw [List.append_assoc]
      refine ends_clause ?_ (ends_clause (by cases is_nullable <;> simp [ascii]) ends)
      split <;> simp [ascii]
    have all := (printedName.blank (c := 9) rfl).append typed fun rest _ => ends_blank _
    have text : column_text pg row.name remote_type is_nullable (column_options row.name options) =
        (9 :: quote_identifier pg.quoting row.name) ++ ((32 :: remote_type) ++
          ((if column_options row.name options = [] then [] else ascii " OPTIONS (" ++
            options_text (column_options row.name options) ++ ascii ")") ++
            (if is_nullable then [] else ascii " NOT NULL"))) := by
      rw [column_text, List.append_assoc, List.append_assoc, List.append_assoc]
      rfl
    rw [text]
    exact all
  · rw [ColumnsCache.ColumnOptions.column_name, named]
    split
    · rfl
    · rename_i short
      exact pg.clipping.short (by rw [pg.limit]; omega)
  · exact ⟨remote_type, is_nullable, options, parsed, name.tokens_eq, rfl, others⟩

/-! ## Printed tables -/

/-- The columns of a table and the parenthesis behind them. -/
theorem prints_columns (printed : types.Printed pg.clipping) {rows : List ColumnRow}
    {columns : Bytes} (made : columns_text types pg rows = some columns) :
    ∃ named : List (SqlScanner.Token × ColumnDef),
      Prints pg.clipping (columns ++ ascii "\n)") (elementTokens named) (fun _ => True) ∧
      (∀ x ∈ named, Readable pg.quoting.reserved x.1 x.2) ∧
      List.Forall₂ (MirrorsColumn types pg) rows (named.map Prod.snd) := by
  have closing : Prints pg.clipping (ascii "\n)") [.mark 41] fun _ => True :=
    (SqlScanner.prints_mark rfl).blank (c := 10) rfl
  have comma : Prints pg.clipping [44] [.mark 44] fun _ => True := SqlScanner.prints_mark rfl
  induction rows generalizing columns with
  | nil =>
      cases made
      exact ⟨[], closing, fun _ member => absurd member List.not_mem_nil, .nil⟩
  | cons row rows ih =>
      cases rows with
      | nil =>
          obtain ⟨⟨remote_type, is_nullable, options⟩, parsed, made⟩ :=
            Option.bind_eq_some_iff.mp made
          cases made
          obtain ⟨t, column, own, readable, mirrors⟩ := prints_column printed row parsed
          refine ⟨[(t, column)], ?_, ?_, .cons mirrors .nil⟩
          · exact own.append closing fun rest _ =>
              SqlScanner.ends_cons rfl (by decide) (by decide)
          · intro x member
            cases List.mem_singleton.mp member
            exact readable
      | cons next rows =>
          obtain ⟨⟨remote_type, is_nullable, options⟩, parsed, made⟩ :=
            Option.bind_eq_some_iff.mp made
          obtain ⟨behind, made', made⟩ := Option.bind_eq_some_iff.mp made
          cases made
          obtain ⟨t, column, own, readable, mirrors⟩ := prints_column printed row parsed
          obtain ⟨named, later, readables, all⟩ := ih made'
          obtain ⟨first, named, rfl⟩ : ∃ x xs, named = x :: xs := by
            cases named with
            | nil => cases all
            | cons x xs => exact ⟨x, xs, rfl⟩
          have spaced : Prints pg.clipping (10 :: (behind ++ ascii "\n)"))
              (elementTokens (first :: named)) fun _ => True := by
            cases named with
            | nil => exact later.blank rfl
            | cons second named => exact later.blank rfl
          refine ⟨(t, column) :: first :: named, ?_, ?_, .cons mirrors all⟩
          · have joined := own.append (comma.append spaced fun _ _ => trivial) fun rest _ =>
              SqlScanner.ends_cons rfl (by decide) (by decide)
            rw [List.append_assoc, List.append_assoc]
            exact joined
          · intro x member
            rcases List.mem_cons.mp member with rfl | other
            · exact readable
            · exact readables x other

/-- The options of a table are read as they are. -/
theorem import_options_spec (remote_schema name : Bytes) (engine engine_full : Option Bytes) :
    (∀ option ∈ import_options remote_schema name engine engine_full,
        isLabel NAMEDATALEN option.defname = true) ∧
      stored ((import_options remote_schema name engine engine_full).map read) =
        import_options remote_schema name engine engine_full ∧
      ∀ dbname relname, chfdw_remote_table_name dbname
        (import_options remote_schema name engine engine_full) relname = (remote_schema, name) := by
  have database : isLabel NAMEDATALEN (ascii "database") = true := by decide
  have table_name : isLabel NAMEDATALEN (ascii "table_name") = true := by decide
  have label : isLabel NAMEDATALEN (ascii "engine") = true := by decide
  have database' : (ascii "database").map lower = ascii "database" := by decide
  have table_name' : (ascii "table_name").map lower = ascii "table_name" := by decide
  have label' : (ascii "engine").map lower = ascii "engine" := by decide
  have apart : ascii "database" ≠ ascii "table_name" ∧ ascii "engine" ≠ ascii "table_name" ∧
      ascii "engine" ≠ ascii "database" := by decide
  have shape : ∃ tail, import_options remote_schema name engine engine_full =
      [⟨ascii "database", some remote_schema⟩, ⟨ascii "table_name", some name⟩] ++ tail ∧
        (tail = [] ∨ ∃ value, tail = [⟨ascii "engine", some value⟩]) := by
    refine ⟨_, rfl, ?_⟩
    split
    · split
      · split
        · exact .inr ⟨_, rfl⟩
        · exact .inl rfl
      · exact .inr ⟨_, rfl⟩
    · exact .inr ⟨_, rfl⟩
    · exact .inl rfl
  obtain ⟨tail, same, tails⟩ := shape
  rw [same]
  rcases tails with rfl | ⟨value, rfl⟩
  · simp [stored, read, chfdw_remote_table_name, database, table_name, database', table_name',
      apart]
  · simp [stored, read, chfdw_remote_table_name, database, table_name, label, database',
      table_name', label', apart]

theorem prints_table (printed : types.Printed pg.clipping) (stmt : ImportForeignSchemaStmt)
    (servername : NameData) (name : RemoteName) (row : TableRow) {rows : List ColumnRow}
    {columns : Bytes} (made : columns_text types pg rows = some columns) :
    ∃ table, readStatement pg (create_table pg stmt servername name columns
        (import_options stmt.remote_schema name row.engine row.engine_full)) = some table ∧
      MirrorsTable types pg stmt servername row name rows table := by
  obtain ⟨labels, same, remote⟩ :=
    import_options_spec stmt.remote_schema name row.engine row.engine_full
  have some_ : import_options stmt.remote_schema name row.engine row.engine_full ≠ [] :=
    List.cons_ne_nil _ _
  obtain ⟨options, given⟩ : ∃ options,
      options = import_options stmt.remote_schema name row.engine row.engine_full := ⟨_, rfl⟩
  rw [← given] at labels same remote some_ ⊢
  obtain ⟨schemaTok, schemaPrints, schemaName⟩ := prints_name pg stmt.local_schema.property.1
  obtain ⟨relTok, relPrints, relName⟩ := prints_name pg name.property
  obtain ⟨serverTok, serverPrints, serverName⟩ := prints_name pg servername.property.1
  obtain ⟨named, columnsPrints, readables, all_⟩ := prints_columns printed made
  have short (n : NameData) : pg.clipping.clip n = n :=
    pg.clipping.short (by rw [pg.limit]; exact n.property.2)
  rw [short] at schemaName serverName
  have opened : Prints pg.clipping (10 :: (columns ++ ascii "\n)")) (elementTokens named)
      fun _ => True := by
    rcases named with _ | ⟨first, _ | ⟨second, named⟩⟩
    · exact columnsPrints.blank rfl
    · exact columnsPrints.blank rfl
    · exact columnsPrints.blank rfl
  have opening : Prints pg.clipping [32, 40] [.mark 40] fun _ => True :=
    (SqlScanner.prints_mark rfl).blank rfl
  have dot : Prints pg.clipping [46] [.mark 46] fun _ => True := SqlScanner.prints_mark rfl
  have semicolon : Prints pg.clipping [59] [.mark 59] fun _ => True := SqlScanner.prints_mark rfl
  -- from the options at the end to the keywords at the front
  have options_ := (opening.append (prints_options some_ fun option member =>
    pg.limit ▸ labels option member) fun _ _ => trivial).append semicolon fun _ _ => trivial
  have server := (prints_spaced_label pg (ascii "SERVER") (by decide)).append
    ((serverPrints.blank (c := 32) rfl).append
      ((prints_spaced_label pg (ascii "OPTIONS") (by decide)).append options_
        fun rest _ => ends_blank _) fun rest _ => ends_blank _) fun rest _ => ends_blank _
  have elements := opening.append (opened.append server fun _ _ => trivial) fun _ _ => trivial
  have table := (schemaPrints.blank (c := 32) rfl).append (dot.append
    (relPrints.append elements fun rest _ => ends_blank _) fun _ _ => trivial)
    fun rest _ => SqlScanner.ends_cons rfl (by decide) (by decide)
  have exists_ := (prints_spaced_label pg (ascii "IF") (by decide)).append
    ((prints_spaced_label pg (ascii "NOT") (by decide)).append
      ((prints_spaced_label pg (ascii "EXISTS") (by decide)).append table
        fun rest _ => ends_blank _) fun rest _ => ends_blank _) fun rest _ => ends_blank _
  have create : Prints pg.clipping (ascii "CREATE") [keyword "create"] Ends :=
    SqlScanner.prints_label (pg.limit ▸ by decide)
  have all := create.append ((prints_spaced_label pg (ascii "FOREIGN") (by decide)).append
    ((prints_spaced_label pg (ascii "TABLE") (by decide)).append exists_
      fun rest _ => ends_blank _) fun rest _ => ends_blank _) fun rest _ => ends_blank _
  have scans := all (ascii "\n") trivial
  refine ⟨⟨stmt.local_schema, pg.clipping.clip name, named.map Prod.snd, servername,
    options.map read⟩, ?_, ⟨rfl, rfl, rfl, same.trans given, fun dbname => ?_, all_⟩⟩
  · have tokens : SqlScanner.tokens pg.clipping
        (create_table pg stmt servername name columns options) =
          some (statementTokens schemaTok relTok serverTok named (options.map read)) := by
      have text : create_table pg stmt servername name columns options =
          ascii "CREATE" ++ ((32 :: ascii "FOREIGN") ++ ((32 :: ascii "TABLE") ++
            ((32 :: ascii "IF") ++ ((32 :: ascii "NOT") ++ ((32 :: ascii "EXISTS") ++
              ((32 :: quote_identifier pg.quoting stmt.local_schema) ++ ([46] ++
                (quote_identifier pg.quoting name ++ ([32, 40] ++
                  ((10 :: (columns ++ ascii "\n)")) ++ ((32 :: ascii "SERVER") ++
                    ((32 :: quote_identifier pg.quoting servername) ++ ((32 :: ascii "OPTIONS") ++
                      ([32, 40] ++ (options_text options ++ [41]) ++ [59])))))))))))))) ++
            ascii "\n" := by
        simp only [create_table, List.append_assoc, List.cons_append]
        rfl
      rw [text]
      exact SqlScanner.scan_of_scans scans rfl (Nat.le_refl _)
    rw [readStatement, tokens, Option.bind_some]
    exact parseStatement_tokens schemaName relName serverName readables (by simpa using some_)
  · exact same.symm ▸ remote dbname _

/-! ## The tables that are wanted -/

/-- A table that PostgreSQL lets through. -/
def wanted (pg : Postgres) (stmt : ImportForeignSchemaStmt) (row : TableRow) : Bool :=
  row.name.any fun name => IsImportableForeignTable stmt (pg.clipping.clip name)

/-- The list leaves out what PostgreSQL would not let through, and nothing else. -/
theorem skips_eq (pg : Postgres) (stmt : ImportForeignSchemaStmt) (name : Bytes) :
    skips pg stmt name = !IsImportableForeignTable stmt (pg.clipping.clip name) := by
  have local_name : (if NAMEDATALEN ≤ name.length then pg.clipping.clip name else name) =
      pg.clipping.clip name := by
    split
    · rfl
    · rename_i short
      exact (pg.clipping.short (by rw [pg.limit]; omega)).symm
  rw [skips, IsImportableForeignTable]
  split
  · rename_i empty
    cases kind : stmt.list_type with
    | FDW_IMPORT_SCHEMA_ALL => rfl
    | FDW_IMPORT_SCHEMA_LIMIT_TO => exact absurd empty (stmt.limited kind)
    | FDW_IMPORT_SCHEMA_EXCEPT =>
        rw [empty]
        rfl
  · dsimp only
    rw [local_name]
    cases stmt.list_type with
    | FDW_IMPORT_SCHEMA_ALL => rfl
    | FDW_IMPORT_SCHEMA_LIMIT_TO => simp
    | FDW_IMPORT_SCHEMA_EXCEPT => simp

/-- What a statement is to the row of its table. -/
def Imports (types : Types τ) (pg : Postgres) (stmt : ImportForeignSchemaStmt) (remote : Remote)
    (servername : NameData) (row : TableRow) (sql : Bytes) : Prop :=
  ∃ name rows table, row.name = some name ∧
    remote.columns (columns_sql stmt.remote_schema name) = some rows ∧
    readStatement pg sql = some table ∧ MirrorsTable types pg stmt servername row name rows table

theorem create_tables_spec (printed : types.Printed pg.clipping) {stmt : ImportForeignSchemaStmt}
    {remote : Remote} {servername : NameData} {rows : List TableRow} {sqls : List Bytes}
    (made : create_tables types pg stmt remote servername rows = some sqls) :
    List.Forall₂ (Imports types pg stmt remote servername) (rows.filter (wanted pg stmt)) sqls := by
  induction rows generalizing sqls with
  | nil =>
      cases made
      exact .nil
  | cons row rows ih =>
      rw [create_tables] at made
      cases named : row.name with
      | none =>
          rw [named] at made
          have unwanted : ¬wanted pg stmt row = true := by simp [wanted, named]
          rw [List.filter_cons_of_neg unwanted]
          exact ih made
      | some name =>
          rw [named] at made
          dsimp only at made
          have same : wanted pg stmt row = !skips pg stmt name := by
            rw [skips_eq, Bool.not_not, wanted, named]
            rfl
          split at made
          · rename_i skipped
            have unwanted : ¬wanted pg stmt row = true := by simp [same, skipped]
            rw [List.filter_cons_of_neg unwanted]
            exact ih made
          · rename_i kept
            have taken : wanted pg stmt row = true := by simp [same, kept]
            obtain ⟨columnRows, asked, made⟩ := Option.bind_eq_some_iff.mp made
            obtain ⟨columns, text, made⟩ := Option.bind_eq_some_iff.mp made
            obtain ⟨others, later, made⟩ := Option.bind_eq_some_iff.mp made
            cases made
            obtain ⟨table, read_, mirrors⟩ := prints_table printed stmt servername name row text
            rw [List.filter_cons_of_pos taken]
            exact .cons ⟨name, columnRows, table, named, asked, read_, mirrors⟩ (ih later)

end

/-- The statements of an import are those of the tables on the server that PostgreSQL lets
through, in their order.  Each is read as a foreign table that stands for the remote one: it is
found under the same database and name, and so is each of its columns, whatever their names
hold and however long they are. -/
theorem import_schema_mirrors (types : Types τ) (pg : Postgres)
    (printed : types.Printed pg.clipping) (stmt : ImportForeignSchemaStmt) (remote : Remote)
    (servername : NameData) {sqls : List Bytes}
    (made : chfdw_construct_create_tables types pg stmt remote servername = some sqls) :
    ∃ rows, remote.tables (tables_sql stmt.remote_schema) = some rows ∧
      List.Forall₂ (Imports types pg stmt remote servername)
        (rows.filter (wanted pg stmt)) sqls := by
  obtain ⟨rows, asked, made⟩ := Option.bind_eq_some_iff.mp made
  exact ⟨rows, asked, create_tables_spec printed made⟩

/-! ## A column with a long name -/

def textTypes : Types Bytes where
  chc_type_parse := some
  chc_type_agg_function := fun _ => none
  is_simple_aggregate := fun _ => false
  chc_type_child := id
  pgch_pg_type_for := fun _ => some ⟨25, -1, 0, false⟩
  pgch_pg_type_is_column := fun _ => true
  format_type_with_typemod := fun _ _ => ascii "text"

def defaultPostgres : Postgres where
  quoting := defaultQuoting
  clipping := ⟨64, List.take 63, fun short => List.take_of_length_le (Nat.le_of_lt_succ short)⟩
  limit := rfl
  clipped := by
    intro name long
    have length : (name.take 63).length = 63 :=
      List.length_take_of_le ((by decide : 63 ≤ NAMEDATALEN).trans long)
    cases same : defaultQuoting.reserved (name.take 63) with
    | false => rfl
    | true =>
        rw [eq_of_beq same] at length
        cases length

def longName : RemoteName := ⟨List.replicate 70 120, List.cons_ne_nil _ _⟩

def importAll : ImportForeignSchemaStmt where
  remote_schema := ascii "db"
  local_schema := ⟨ascii "public", by decide⟩
  list_type := .FDW_IMPORT_SCHEMA_ALL
  table_list := []
  limited := fun other => nomatch other

def longRemote : Remote where
  tables := fun _ => some [⟨some longName, some (ascii "MergeTree"), none⟩]
  columns := fun _ => some [⟨longName, ascii "String"⟩]

theorem import_schema_mirrors_long :
    ∃ sql table, chfdw_construct_create_tables textTypes defaultPostgres importAll longRemote
        ⟨ascii "srv", by decide⟩ = some [sql] ∧
      readStatement defaultPostgres sql = some table ∧
      chfdw_remote_table_name none (stored table.options) table.relname =
        (ascii "db", longName.val) := by
  have printed : textTypes.Printed defaultPostgres.clipping := by
    intro column type mapped _
    have text : TypeName defaultPostgres.clipping (ascii "text") _ :=
      TypeName.word (by decide) (by decide)
    exact ⟨_, text⟩
  have made : chfdw_construct_create_tables textTypes defaultPostgres importAll longRemote
      ⟨ascii "srv", by decide⟩ = some [_] := rfl
  obtain ⟨rows, asked, all⟩ := import_schema_mirrors textTypes defaultPostgres printed importAll
    longRemote ⟨ascii "srv", by decide⟩ made
  cases asked
  have only : [(⟨some longName, some (ascii "MergeTree"), none⟩ : TableRow)].filter
      (wanted defaultPostgres importAll) = [⟨some longName, some (ascii "MergeTree"), none⟩] := rfl
  rw [only] at all
  cases all with
  | cons first _ =>
      obtain ⟨name, columns, table, named, -, read_, mirrors⟩ := first
      cases named
      exact ⟨_, table, made, read_, mirrors.remote none⟩

end PgClickhouse.ImportSchema

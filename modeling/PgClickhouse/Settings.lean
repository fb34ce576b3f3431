import PgClickhouse.Keyed
import PgClickhouse.Options

/-!
# Query settings

`settings.c` builds the settings list of one statement: built-in defaults, then the
server's settings, then the settings of the tables the statement reads, then the
session's.  The table level is a single list for the whole statement; where tables
disagree on a name the merge leaves a cell without a value.  Names the connected
server is too old for are taken out at the end.

* `find_query_tables`: the merged table level holds, for each name, the value its
  setters agree on, or a cell without a value.
* `statement_settings_effective`: the list a statement is sent with has each name at
  most once, and a name's value is the one its levels and the version determine.
-/

namespace PgClickhouse

/-- What stops the construction of a settings list. -/
inductive SettingsError
  /-- The options string does not parse. -/
  | options (e : OptionsError)
  /-- `defGetString` on a cell without a value. -/
  | requiresParameter (defname : Bytes)
  /-- `strVal` of a null pointer. -/
  | nullPointer
  deriving Repr, DecidableEq

/-- A setting that older ClickHouse versions reject, with the version that added it. -/
structure known_setting where
  name : Bytes
  min_major : Int
  min_minor : Int
  deriving Repr, DecidableEq

/-- Settings that older ClickHouse versions reject as unknown. -/
def known_settings : List known_setting := [
  ⟨ascii "hnsw_candidate_list_size_for_search", 24, 10⟩,
  ⟨ascii "max_limit_for_vector_search_queries", 25, 5⟩,
  ⟨ascii "vector_search_filter_strategy", 25, 5⟩,
  ⟨ascii "vector_search_index_fetch_multiplier", 25, 8⟩,
  ⟨ascii "vector_search_postfilter_multiplier", 25, 5⟩,
  ⟨ascii "vector_search_with_rescoring", 25, 8⟩,
  ⟨ascii "vector_search_use_quantized_codes", 26, 7⟩,
  ⟨ascii "query_plan_try_use_vector_search", 25, 1⟩,
  ⟨ascii "enable_vector_similarity_index", 25, 7⟩,
  ⟨ascii "allow_experimental_vector_similarity_index", 24, 8⟩,
  ⟨ascii "materialize_skip_indexes_on_insert", 24, 6⟩,
  ⟨ascii "exclude_materialize_skip_indexes_on_insert", 25, 10⟩,
  ⟨ascii "use_skip_indexes", 23, 3⟩,
  ⟨ascii "use_skip_indexes_if_final", 23, 3⟩,
  ⟨ascii "use_skip_indexes_for_top_k", 25, 12⟩,
  ⟨ascii "enable_qbit_type", 26, 1⟩,
  ⟨ascii "allow_experimental_qbit_type", 25, 10⟩,
  ⟨ascii "optimize_qbit_distance_function_reads", 25, 10⟩,
  ⟨ascii "enable_quantized_codec", 26, 8⟩]

/-- Settings pg_clickhouse needs for PostgreSQL semantics. -/
def defaults : List (Bytes × Bytes) := [
  (ascii "join_use_nulls", ascii "1"),
  (ascii "group_by_use_nulls", ascii "1"),
  (ascii "final", ascii "1"),
  (ascii "transform_null_in", ascii "0")]

/-- `defGetString` on the cells this module reads. -/
def defGetString (d : DefElem) : Except SettingsError Bytes :=
  match d.arg with
  | some value => .ok value
  | none => .error (.requiresParameter d.defname)

/-- Return settings option value from options, or `none` if absent. -/
def chfdw_settings_option (options : List DefElem) : Except SettingsError (Option Bytes) :=
  match options.find? (fun d => decide (d.defname = ascii "settings")) with
  | some d => (defGetString d).map some
  | none => .ok none

/-- Add settings to base, replacing those with the same names. -/
def overlay (base settings : List DefElem) : List DefElem :=
  Keyed.upsertAll DefElem.defname base settings

def default_settings : List DefElem :=
  defaults.map fun (name, value) => ⟨name, some value⟩

/-- The cells of the session's settings, `ch_session_settings_list`. -/
def session_settings (session : kv_list) : List DefElem :=
  session.map fun (name, value) => ⟨name, some value⟩

/-- Pack a list; a cell without a value is dereferenced. -/
def new_kv_list_from_pg_list (list : List DefElem) : Except SettingsError kv_list :=
  list.mapM fun d =>
    match d.arg with
    | some value => .ok (d.defname, value)
    | none => .error .nullPointer

/-- The cells the settings option of a catalog object holds. -/
def parsed_settings (options : List DefElem) : Except SettingsError (List DefElem) := do
  match ← chfdw_settings_option options with
  | some text => (chfdw_parse_options text).mapError .options
  | none => pure []

/-- Return table settings, keeping last value for each name. -/
def chfdw_table_settings (options : List DefElem) : Except SettingsError (List DefElem) := do
  pure (overlay [] (← parsed_settings options))

/-- Combine table settings.  Conflicting values are marked by a missing value. -/
def chfdw_merge_settings (a b : List DefElem) : List DefElem :=
  Keyed.mergeWith DefElem.defname
    (fun mc d => if mc.arg = d.arg then mc else ⟨d.defname, none⟩) a b

/-- The requirement of the named setting that the reported version fails, if any.
`reported` is what the `server_version` method returns, `none` without a method. -/
def unsupported (reported : Option ch_server_version) (d : DefElem) : Option known_setting :=
  let version := reported.getD .zero
  match known_settings.find? (fun k => decide (k.name = d.defname)) with
  | none => none
  | some k =>
      if version.major = 0 || chfdw_version_ge version k.min_major k.min_minor then none
      else some k

/-- The warning about a setting that is not sent. -/
def unsupported_report (version : ch_server_version) (d : DefElem) (k : known_setting) :
    Report where
  level := "WARNING"
  errmsg := ascii "pg_clickhouse: ClickHouse " ++ decimal version.major ++ ascii "." ++
    decimal version.minor ++ ascii "." ++ decimal version.patch ++
    ascii " does not support setting \"" ++ d.defname ++ ascii "\"; not sent"
  errdetail := ascii "Setting \"" ++ d.defname ++ ascii "\" requires ClickHouse " ++
    decimal k.min_major ++ ascii "." ++ decimal k.min_minor ++ ascii " or later."

/-- Skip settings that the server's version does not know. -/
def drop_unsupported (settings : List DefElem) (reported : Option ch_server_version) :
    List DefElem × List Report :=
  (settings.filter fun d => (unsupported reported d).isNone,
    settings.filterMap fun d =>
      (unsupported reported d).map (unsupported_report (reported.getD .zero) d))

/-- The notice about a name the tables of a query disagree on. -/
def conflict_report (settings : List DefElem) (d : DefElem) : Except SettingsError Report := do
  let value ← match Keyed.find DefElem.defname d.defname settings with
    | some setting => (defGetString setting).map some
    | none => pure none
  pure {
    level := "NOTICE"
    errmsg := ascii "pg_clickhouse: foreign tables in query set \"" ++ d.defname ++
      ascii "\" differently; ignoring table values"
    errdetail := match value with
      | some value => ascii "Using query value: " ++ value ++ ascii "."
      | none => ascii "Using ClickHouse default." }

/-- Build query settings from built-in defaults, server settings, table settings,
then session settings.  `options` are the server's catalog options. -/
def chfdw_query_settings (options tables : List DefElem) (session : kv_list)
    (reported : Option ch_server_version) : Except SettingsError (kv_list × List Report) := do
  let settings ← match ← chfdw_settings_option options with
    | some text => do
        let server ← (chfdw_parse_options text).mapError .options
        pure (overlay default_settings server)
    | none => pure default_settings
  let settings := tables.foldl
    (fun settings d => if d.arg.isSome then overlay settings [d] else settings) settings
  let settings := overlay settings (session_settings session)
  let (settings, warnings) := drop_unsupported settings reported
  let notices ← (tables.filter fun d => d.arg.isNone).mapM (conflict_report settings)
  pure (← new_kv_list_from_pg_list settings, warnings ++ notices)

/-- The table level of a statement: the deparser merges in the settings of each
table it prints, once for every time it prints the table. -/
def query_tables (tableOptions : List (List DefElem)) : Except SettingsError (List DefElem) :=
  tableOptions.foldlM
    (fun merged options => do pure (chfdw_merge_settings merged (← chfdw_table_settings options)))
    []

/-- The settings list of a statement that reads tables with the given options. -/
def statement_settings (options : List DefElem) (tableOptions : List (List DefElem))
    (session : kv_list) (reported : Option ch_server_version) :
    Except SettingsError (kv_list × List Report) := do
  chfdw_query_settings options (← query_tables tableOptions) session reported

/-! ## What the levels determine -/

/-- The value the last cell of a name gives it. -/
def lastValue (name : Bytes) (settings : List DefElem) : Option Bytes :=
  (Keyed.findLast DefElem.defname name settings).bind DefElem.arg

/-- The value a list of setters agree on. -/
def agreed : List Bytes → Option Bytes
  | [] => none
  | value :: values => if ∀ other ∈ values, other = value then some value else none

/-- The version is known, and too old for the name. -/
def TooOld (reported : Option ch_server_version) (name : Bytes) : Prop :=
  ∃ version, reported = some version ∧ version.major ≠ 0 ∧
    ∃ k ∈ known_settings, k.name = name ∧ ¬ chfdw_version_ge version k.min_major k.min_minor

/-- Session over table over server over default. -/
def precedence (server : List DefElem) (tables : List (List DefElem)) (session : kv_list)
    (name : Bytes) : Option Bytes :=
  (lastValue name (session_settings session)).or
    ((agreed (tables.filterMap (lastValue name))).or
      ((lastValue name server).or (lastValue name default_settings)))

/-- Every cell has a value. -/
def Valued (settings : List DefElem) : Prop := ∀ d ∈ settings, d.arg.isSome

theorem Valued.overlay {base settings : List DefElem} (hb : Valued base)
    (hs : Valued settings) : Valued (overlay base settings) := by
  intro d member
  rcases Keyed.mem_of_mem_upsertAll member with old | new
  · exact hb d old
  · exact hs d new

theorem valued_default_settings : Valued default_settings := by
  unfold Valued
  decide

theorem valued_session_settings (session : kv_list) : Valued (session_settings session) := by
  intro d member
  obtain ⟨pair, -, rfl⟩ := List.mem_map.mp member
  rfl

theorem valued_of_parsed_settings {options settings : List DefElem}
    (read : parsed_settings options = .ok settings) : Valued settings := by
  unfold parsed_settings at read
  cases found : chfdw_settings_option options with
  | error e => rw [found] at read; cases read
  | ok text =>
      rw [found] at read
      cases text with
      | none => cases read; simp [Valued]
      | some text =>
          cases parsed : chfdw_parse_options text with
          | error e => simp [bind, Except.bind, parsed, Except.mapError] at read
          | ok cells =>
              simp only [bind, Except.bind, parsed, Except.mapError, Except.ok.injEq] at read
              exact read ▸ isSome_arg_of_chfdw_parse_options parsed

/-- In a list of valued cells the last value of a name is its last cell. -/
theorem findLast_of_valued {settings : List DefElem} (valued : Valued settings) (name : Bytes) :
    Keyed.findLast DefElem.defname name settings =
      (lastValue name settings).map (fun value => ⟨name, some value⟩) := by
  unfold lastValue
  cases found : Keyed.findLast DefElem.defname name settings with
  | none => rfl
  | some d =>
      have member := List.mem_of_getLast? found
      obtain ⟨inList, named⟩ := List.mem_filter.mp member
      obtain ⟨value, hv⟩ := Option.isSome_iff_exists.mp (valued d inList)
      simp only [decide_eq_true_eq] at named
      subst named
      cases d
      simp_all

/-! ## The table level -/

theorem agreed_append (values : List Bytes) (value : Bytes) (nonempty : values ≠ []) :
    agreed (values ++ [value]) = if agreed values = some value then some value else none := by
  cases values with
  | nil => exact absurd rfl nonempty
  | cons first values =>
      have extended : (∀ other ∈ values ++ [value], other = first) ↔
          (∀ other ∈ values, other = first) ∧ value = first := by
        simp [or_imp, forall_and]
      rw [List.cons_append, agreed, agreed]
      by_cases uniform : ∀ other ∈ values, other = first
      · rw [if_pos uniform]
        by_cases same : value = first
        · rw [if_pos (extended.mpr ⟨uniform, same⟩), if_pos (congrArg some same.symm), same]
        · rw [if_neg (fun h => same (extended.mp h).2),
            if_neg (fun h => same (Option.some.inj h).symm)]
      · rw [if_neg uniform, if_neg (fun h => uniform (extended.mp h).1), if_neg nofun]

theorem merge_keeps_name (y x : DefElem) (same : y.defname = x.defname) :
    (if y.arg = x.arg then y else ⟨x.defname, none⟩ : DefElem).defname = x.defname := by
  split
  · exact same
  · rfl

theorem nodup_chfdw_merge_settings {a : List DefElem} (b : List DefElem)
    (distinct : (a.map DefElem.defname).Nodup) :
    ((chfdw_merge_settings a b).map DefElem.defname).Nodup :=
  Keyed.nodup_mergeWith merge_keeps_name b distinct

/-- One more table: what the merged level holds of a name. -/
theorem find_merge_table {merged : List DefElem} {settings : List DefElem} (name : Bytes)
    (valued : Valued settings) :
    Keyed.find DefElem.defname name (chfdw_merge_settings merged (overlay [] settings)) =
      (lastValue name settings).elim (Keyed.find DefElem.defname name merged) (fun value =>
        some ((Keyed.find DefElem.defname name merged).elim ⟨name, some value⟩ (fun mc =>
          if mc.arg = some value then mc else ⟨name, none⟩))) := by
  have distinct : ((overlay [] settings).map DefElem.defname).Nodup :=
    Keyed.nodup_upsertAll settings List.nodup_nil
  rw [chfdw_merge_settings, Keyed.find_mergeWith_of_nodup merge_keeps_name name distinct, overlay,
    Keyed.find_upsertAll, findLast_of_valued valued name]
  cases lastValue name settings <;> rfl

/-- The cell the merged level of the given tables holds for a name. -/
def heldCell (tables : List (List DefElem)) (name : Bytes) : Option DefElem :=
  if tables.filterMap (lastValue name) = [] then none
  else some ⟨name, agreed (tables.filterMap (lastValue name))⟩

theorem heldCell_append (tables : List (List DefElem)) (settings : List DefElem) (name : Bytes) :
    heldCell (tables ++ [settings]) name =
      (lastValue name settings).elim (heldCell tables name) (fun value =>
        some ((heldCell tables name).elim ⟨name, some value⟩ (fun mc =>
          if mc.arg = some value then mc else ⟨name, none⟩))) := by
  unfold heldCell
  cases set : lastValue name settings with
  | none => simp [set]
  | some value =>
      have values : (tables ++ [settings]).filterMap (lastValue name) =
          tables.filterMap (lastValue name) ++ [value] := by
        simp [set]
      rw [values, if_neg (by simp)]
      by_cases empty : tables.filterMap (lastValue name) = []
      · simp [empty, agreed]
      · rw [agreed_append _ _ empty, if_neg empty]
        simp only [Option.elim_some, Option.some.injEq]
        split <;> simp_all

/-- Merging further tables into a level that stands for `seen`. -/
theorem find_foldlM_tables {tableOptions : List (List DefElem)} {seen tables : List (List DefElem)}
    {merged : List DefElem} (distinct : (merged.map DefElem.defname).Nodup)
    (stands : ∀ name, Keyed.find DefElem.defname name merged = heldCell seen name)
    (read : tableOptions.mapM parsed_settings = .ok tables) :
    ∃ level, tableOptions.foldlM (fun merged options => do
        pure (chfdw_merge_settings merged (← chfdw_table_settings options))) merged = .ok level ∧
      (level.map DefElem.defname).Nodup ∧
      ∀ name, Keyed.find DefElem.defname name level = heldCell (seen ++ tables) name := by
  induction tableOptions generalizing seen tables merged with
  | nil =>
      cases read
      exact ⟨merged, rfl, distinct, by simpa using stands⟩
  | cons options tableOptions ih =>
      rw [List.mapM_cons] at read
      cases first : parsed_settings options with
      | error e => rw [first] at read; cases read
      | ok settings =>
          cases later : tableOptions.mapM parsed_settings with
          | error e => rw [first, later] at read; cases read
          | ok rest =>
              rw [first, later] at read
              cases read
              have next := ih
                (nodup_chfdw_merge_settings (overlay [] settings) distinct)
                (fun name => by
                  rw [find_merge_table name (valued_of_parsed_settings first), stands,
                    ← heldCell_append])
                later
              simpa [List.foldlM_cons, chfdw_table_settings, first, bind, Except.bind, pure,
                Except.pure] using next

/-- The merged level holds, for each name that some table sets, one cell with the value
all its setters agree on. -/
theorem find_query_tables {tableOptions : List (List DefElem)} {tables : List (List DefElem)}
    (read : tableOptions.mapM parsed_settings = .ok tables) :
    ∃ merged, query_tables tableOptions = .ok merged ∧
      (merged.map DefElem.defname).Nodup ∧
      ∀ name, Keyed.find DefElem.defname name merged = heldCell tables name := by
  exact @find_foldlM_tables tableOptions [] tables [] List.nodup_nil (fun _ => rfl) read

/-! ## The statement's list -/

theorem unsupported_eq_none {reported : Option ch_server_version} {d : DefElem} :
    unsupported reported d = none ↔ ¬ TooOld reported d.defname := by
  have distinct : (known_settings.map known_setting.name).Nodup := by decide +kernel
  have looked : known_settings.find? (fun k => decide (k.name = d.defname)) =
      Keyed.find known_setting.name d.defname known_settings := rfl
  simp only [unsupported, looked]
  cases found : Keyed.find known_setting.name d.defname known_settings with
  | none =>
      simp only [true_iff]
      rintro ⟨version, -, -, k, member, named, -⟩
      exact Keyed.find_eq_none.mp found k member named
  | some k =>
      have only : ∀ other ∈ known_settings, other.name = d.defname → other = k := by
        intro other member named
        have self := Keyed.find_of_mem distinct member
        rw [named, found] at self
        exact (Option.some.inj self).symm
      cases reported with
      | none => simp [TooOld, ch_server_version.zero]
      | some version =>
          have tooOld : TooOld (some version) d.defname ↔ version.major ≠ 0 ∧
              ¬ chfdw_version_ge version k.min_major k.min_minor := by
            constructor
            · rintro ⟨_, ⟨⟩, known, other, member, named, older⟩
              exact ⟨known, only other member named ▸ older⟩
            · rintro ⟨known, older⟩
              exact ⟨version, rfl, known, k, Keyed.mem_of_find found,
                Keyed.key_of_find found, older⟩
          rw [tooOld]
          simp only [Option.getD_some, Bool.or_eq_true, decide_eq_true_eq]
          by_cases known : version.major = 0
          · simp [known]
          · by_cases newer : chfdw_version_ge version k.min_major k.min_minor = true
            · simp [newer]
            · simp [known, newer]

instance (reported : Option ch_server_version) (name : Bytes) :
    Decidable (TooOld reported name) :=
  decidable_of_iff (¬ unsupported reported ⟨name, none⟩ = none) (by
    rw [unsupported_eq_none, not_not])

theorem foldl_tables (settings tables : List DefElem) :
    tables.foldl (fun settings d => if d.arg.isSome then overlay settings [d] else settings)
      settings = overlay settings (tables.filter fun d => d.arg.isSome) := by
  induction tables generalizing settings with
  | nil => rfl
  | cons d tables ih =>
      rw [List.foldl_cons, ih, List.filter_cons]
      split
      · rfl
      · rfl

/-- A list of valued cells is packed as it is. -/
theorem new_kv_list_of_valued {settings : List DefElem} (valued : Valued settings) :
    ∃ kvs, new_kv_list_from_pg_list settings = .ok kvs ∧
      kvs.map Prod.fst = settings.map DefElem.defname ∧
      ∀ name, kvs.lookup name =
        (Keyed.find DefElem.defname name settings).bind DefElem.arg := by
  induction settings with
  | nil => exact ⟨[], rfl, rfl, fun _ => rfl⟩
  | cons d settings ih =>
      obtain ⟨kvs, packed, names, values⟩ := ih fun x member =>
        valued x (List.mem_cons_of_mem _ member)
      obtain ⟨value, hv⟩ := Option.isSome_iff_exists.mp (valued d List.mem_cons_self)
      refine ⟨(d.defname, value) :: kvs, ?_, ?_, ?_⟩
      · unfold new_kv_list_from_pg_list at packed ⊢
        rw [List.mapM_cons, packed, hv]
        rfl
      · rw [List.map_cons, List.map_cons, names]
      · intro name
        by_cases same : d.defname = name
        · rw [Keyed.find_cons_of_eq same, ← same, List.lookup_cons_self]
          exact hv.symm
        · have differ : (name == d.defname) = false := by simp [Ne.symm same]
          rw [Keyed.find_cons_of_ne same, List.lookup_cons, differ, values]

/-- No notice about a conflict reads a cell without a value. -/
theorem conflict_reports_of_valued {settings : List DefElem} (valued : Valued settings)
    (marks : List DefElem) : ∃ notices, marks.mapM (conflict_report settings) = .ok notices := by
  induction marks with
  | nil => exact ⟨[], rfl⟩
  | cons d marks ih =>
      obtain ⟨notices, later⟩ := ih
      have first : ∃ report, conflict_report settings d = .ok report := by
        unfold conflict_report
        cases found : Keyed.find DefElem.defname d.defname settings with
        | none => exact ⟨_, rfl⟩
        | some setting =>
            obtain ⟨value, hv⟩ := Option.isSome_iff_exists.mp
              (valued setting (Keyed.mem_of_find found))
            simp only [defGetString, hv]
            exact ⟨_, rfl⟩
      obtain ⟨report, first⟩ := first
      exact ⟨report :: notices, by rw [List.mapM_cons, first, later]; rfl⟩

/-- Overlaying valued cells: their last value of a name, or the base's. -/
theorem find_overlay {base settings : List DefElem} {name : Bytes} (valued : Valued settings) :
    (Keyed.find DefElem.defname name (overlay base settings)).bind DefElem.arg =
      (lastValue name settings).or
        ((Keyed.find DefElem.defname name base).bind DefElem.arg) := by
  rw [overlay, Keyed.find_upsertAll, findLast_of_valued valued]
  cases lastValue name settings <;> rfl

/-- The overlaid levels, before the version is looked at. -/
def overlaid (server tables : List DefElem) (session : kv_list) : List DefElem :=
  overlay (overlay (overlay default_settings server) (tables.filter fun d => d.arg.isSome))
    (session_settings session)

theorem valued_overlaid {server : List DefElem} (valued : Valued server)
    (tables : List DefElem) (session : kv_list) : Valued (overlaid server tables session) := by
  have valuedTables : Valued (tables.filter fun d => d.arg.isSome) := by
    intro d member
    exact (List.mem_filter.mp member).2
  exact ((valued_default_settings.overlay valued).overlay valuedTables).overlay
    (valued_session_settings session)

theorem nodup_overlaid (server tables : List DefElem) (session : kv_list) :
    ((overlaid server tables session).map DefElem.defname).Nodup := by
  have distinct : (default_settings.map DefElem.defname).Nodup := by decide
  exact Keyed.nodup_upsertAll _ (Keyed.nodup_upsertAll _ (Keyed.nodup_upsertAll _ distinct))

theorem chfdw_query_settings_eq {options server : List DefElem} (tables : List DefElem)
    (session : kv_list) (reported : Option ch_server_version)
    (read : parsed_settings options = .ok server) :
    chfdw_query_settings options tables session reported = (do
      let (settings, warnings) := drop_unsupported (overlaid server tables session) reported
      let notices ← (tables.filter fun d => d.arg.isNone).mapM (conflict_report settings)
      pure (← new_kv_list_from_pg_list settings, warnings ++ notices)) := by
  unfold parsed_settings at read
  unfold chfdw_query_settings overlaid
  cases found : chfdw_settings_option options with
  | error e => rw [found] at read; cases read
  | ok text =>
      rw [found] at read
      cases text with
      | none =>
          cases read
          simp only [bind, Except.bind, pure, Except.pure, foldl_tables]
          rfl
      | some text =>
          simp only [bind, Except.bind] at read
          simp only [bind, Except.bind, pure, Except.pure, foldl_tables, read]

/-- The overlaid levels hold the session's last value, else the table level's value,
else the server's last value, else the default. -/
theorem find_overlaid {server tables : List DefElem} (session : kv_list) (name : Bytes)
    (valued : Valued server) (distinct : (tables.map DefElem.defname).Nodup) :
    (Keyed.find DefElem.defname name (overlaid server tables session)).bind DefElem.arg =
      (lastValue name (session_settings session)).or
        (((Keyed.find DefElem.defname name tables).bind DefElem.arg).or
          ((lastValue name server).or (lastValue name default_settings))) := by
  have valuedTables : Valued (tables.filter fun d => d.arg.isSome) := by
    intro d member
    exact (List.mem_filter.mp member).2
  have tableLevel : lastValue name (tables.filter fun d => d.arg.isSome) =
      (Keyed.find DefElem.defname name tables).bind DefElem.arg := by
    rw [lastValue, Keyed.findLast_eq_find (distinct.sublist (List.filter_sublist.map _)),
      Keyed.find_filter distinct]
    cases Keyed.find DefElem.defname name tables with
    | none => rfl
    | some d => cases hd : d.arg <;> simp [Option.filter, hd]
  have defaultLevel : (Keyed.find DefElem.defname name default_settings).bind DefElem.arg =
      lastValue name default_settings := by
    rw [lastValue, Keyed.findLast_eq_find (by decide)]
  rw [overlaid, find_overlay (valued_session_settings session), find_overlay valuedTables,
    find_overlay valued, tableLevel, defaultLevel]

/-- What `chfdw_query_settings` returns for a table level of distinct names. -/
theorem chfdw_query_settings_of_tables {options server tables : List DefElem}
    (session : kv_list) (reported : Option ch_server_version)
    (read : parsed_settings options = .ok server)
    (distinct : (tables.map DefElem.defname).Nodup) :
    ∃ kvs reports, chfdw_query_settings options tables session reported = .ok (kvs, reports) ∧
      (kvs.map Prod.fst).Nodup ∧
      ∀ name, (TooOld reported name → kvs.lookup name = none) ∧
        (¬ TooOld reported name → kvs.lookup name =
          (lastValue name (session_settings session)).or
            (((Keyed.find DefElem.defname name tables).bind DefElem.arg).or
              ((lastValue name server).or (lastValue name default_settings)))) := by
  have valued := valued_overlaid (valued_of_parsed_settings read) tables session
  have names := nodup_overlaid server tables session
  have valuedKept : Valued (drop_unsupported (overlaid server tables session) reported).1 := by
    intro d member
    exact valued d (List.mem_filter.mp member).1
  obtain ⟨notices, noticed⟩ := conflict_reports_of_valued valuedKept
    (tables.filter fun d => d.arg.isNone)
  obtain ⟨kvs, packed, packedNames, values⟩ := new_kv_list_of_valued valuedKept
  refine ⟨kvs, (drop_unsupported (overlaid server tables session) reported).2 ++ notices,
    ?_, ?_, ?_⟩
  · rw [chfdw_query_settings_eq tables session reported read]
    simp only [bind, Except.bind, noticed, packed, pure, Except.pure]
  · rw [packedNames]
    exact names.sublist (List.filter_sublist.map _)
  · intro name
    have found := Keyed.find_filter
      (p := fun d => (unsupported reported d).isNone) (k := name) names
    have level := find_overlaid session name (valued_of_parsed_settings read) distinct
    rw [values, drop_unsupported, found, ← level]
    cases held : Keyed.find DefElem.defname name (overlaid server tables session) with
    | none => simp
    | some d =>
        have named := Keyed.key_of_find held
        have supported : (unsupported reported d).isNone = true ↔ ¬ TooOld reported name := by
          rw [Option.isNone_iff_eq_none, unsupported_eq_none, named]
        by_cases old : TooOld reported name
        · simp [Option.filter, supported, old]
        · simp [Option.filter, supported, old]

/-- The value a statement is sent with, for every combination of levels and every
version: names are not repeated, a name is left out exactly when the server's version is
known and too old for it or no level gives it a value, and otherwise it has the value the
precedence picks, where tables that disagree count as silent. -/
theorem statement_settings_effective {options server : List DefElem}
    {tableOptions tables : List (List DefElem)} (session : kv_list)
    (reported : Option ch_server_version)
    (serverRead : parsed_settings options = .ok server)
    (tablesRead : tableOptions.mapM parsed_settings = .ok tables) :
    ∃ kvs reports,
      statement_settings options tableOptions session reported = .ok (kvs, reports) ∧
      (kvs.map Prod.fst).Nodup ∧
      ∀ name, (TooOld reported name → kvs.lookup name = none) ∧
        (¬ TooOld reported name →
          kvs.lookup name = precedence server tables session name) := by
  obtain ⟨merged, mergedRead, distinct, held⟩ := find_query_tables tablesRead
  obtain ⟨kvs, reports, built, names, values⟩ :=
    chfdw_query_settings_of_tables session reported serverRead distinct
  refine ⟨kvs, reports, ?_, names, fun name => ⟨(values name).1, fun supported => ?_⟩⟩
  · rw [statement_settings, mergedRead]
    exact built
  · have tableLevel : (heldCell tables name).bind DefElem.arg =
        agreed (tables.filterMap (lastValue name)) := by
      unfold heldCell
      split
      · rename_i silent
        rw [silent]
        rfl
      · rfl
    rw [(values name).2 supported, held name, tableLevel, precedence]

/-- A statement over two tables that disagree on `max_threads`, on a 23.2 server. -/
theorem statement_settings_effective_conflict :
    ∃ kvs reports,
      statement_settings [⟨ascii "settings", some (ascii "max_threads 4, final 0")⟩]
        [[⟨ascii "settings", some (ascii "max_threads 1, use_skip_indexes 0")⟩],
          [⟨ascii "settings", some (ascii "max_threads 2")⟩]]
        [(ascii "final", ascii "2"), (ascii "final", ascii "1")] (some ⟨23, 2, 0⟩) =
          .ok (kvs, reports) ∧
      kvs.lookup (ascii "max_threads") = some (ascii "4") ∧
      kvs.lookup (ascii "final") = some (ascii "1") ∧
      kvs.lookup (ascii "use_skip_indexes") = none := by
  obtain ⟨kvs, reports, built, -, values⟩ := @statement_settings_effective
    [⟨ascii "settings", some (ascii "max_threads 4, final 0")⟩]
    [⟨ascii "max_threads", some (ascii "4")⟩, ⟨ascii "final", some (ascii "0")⟩]
    [[⟨ascii "settings", some (ascii "max_threads 1, use_skip_indexes 0")⟩],
      [⟨ascii "settings", some (ascii "max_threads 2")⟩]]
    [[⟨ascii "max_threads", some (ascii "1")⟩, ⟨ascii "use_skip_indexes", some (ascii "0")⟩],
      [⟨ascii "max_threads", some (ascii "2")⟩]]
    [(ascii "final", ascii "2"), (ascii "final", ascii "1")] (some ⟨23, 2, 0⟩)
    (by decide +kernel) (by decide +kernel)
  refine ⟨kvs, reports, built, ?_, ?_, ?_⟩
  · rw [(values _).2 (by decide +kernel)]
    decide +kernel
  · rw [(values _).2 (by decide +kernel)]
    decide +kernel
  · exact (values _).1 (by decide +kernel)

end PgClickhouse

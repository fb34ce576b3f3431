import PgClickhouse.Agreement
import PgClickhouse.Settings

/-!
# Merging the settings of tables

`chfdw_merge_settings` keeps ordered lists, and a statement may print a table several
times: a guarded `NOT IN` prints its subquery three times.  Read as maps the lists are
joined, so only the set of tables counts for what is sent.
-/

namespace PgClickhouse

/-! ## The merge as a join -/

/-- What a list of settings says about a name; a cell without a value is the mark of a
conflict. -/
def reading (settings : List DefElem) (name : Bytes) : Agreement Bytes :=
  match Keyed.find DefElem.defname name settings with
  | none => .silent
  | some ⟨_, some value⟩ => .value value
  | some ⟨_, none⟩ => .conflict

/-- The settings of one or more tables: no name is repeated. -/
structure TableSettings where
  cells : List DefElem
  distinct : (cells.map DefElem.defname).Nodup

def TableSettings.merge (a b : TableSettings) : TableSettings :=
  ⟨chfdw_merge_settings a.cells b.cells, nodup_chfdw_merge_settings b.cells a.distinct⟩

theorem reading_merge (a : List DefElem) {b : List DefElem}
    (distinct : (b.map DefElem.defname).Nodup) (name : Bytes) :
    reading (chfdw_merge_settings a b) name = reading a name ⊔ reading b name := by
  unfold reading chfdw_merge_settings
  rw [Keyed.find_mergeWith_of_nodup merge_keeps_name name distinct]
  cases Keyed.find DefElem.defname name b with
  | none => exact (Agreement.join_comm _ .silent).symm
  | some d =>
      obtain ⟨defname, arg⟩ := d
      cases Keyed.find DefElem.defname name a with
      | none => cases arg <;> rfl
      | some mc =>
          obtain ⟨mcname, mcarg⟩ := mc
          cases mcarg with
          | none => cases arg <;> rfl
          | some held =>
              cases arg with
              | none => rfl
              | some value =>
                  show _ = (if held = value then Agreement.value held else .conflict)
                  by_cases same : held = value
                  · simp [same]
                  · simp [same]

/-- A name's value depends on what is said about it. -/
theorem arg_of_reading (settings : List DefElem) (name : Bytes) :
    (Keyed.find DefElem.defname name settings).bind DefElem.arg =
      (reading settings name).agreed := by
  unfold reading
  cases Keyed.find DefElem.defname name settings with
  | none => rfl
  | some d =>
      obtain ⟨defname, arg⟩ := d
      cases arg <;> rfl

/-! ## The tables of a statement -/

/-- What the settings of a table say about a name. -/
def tableReading (name : Bytes) (options : List DefElem) : Agreement Bytes :=
  match parsed_settings options with
  | .ok settings => reading (overlay [] settings) name
  | .error _ => .silent

/-- Merging the tables joins what they say. -/
theorem reading_foldlM {visits : List (List DefElem)}
    (parse : ∀ options ∈ visits, ∃ settings, parsed_settings options = .ok settings)
    (start : TableSettings) :
    ∃ level : TableSettings, visits.foldlM (fun merged options => do
        pure (chfdw_merge_settings merged (← chfdw_table_settings options))) start.cells =
          .ok level.cells ∧
      ∀ name, reading level.cells name =
        visits.foldl (fun known options => known ⊔ tableReading name options)
          (reading start.cells name) := by
  induction visits generalizing start with
  | nil => exact ⟨start, rfl, fun _ => rfl⟩
  | cons options visits ih =>
      obtain ⟨settings, parsed⟩ := parse options List.mem_cons_self
      have distinct : ((overlay [] settings).map DefElem.defname).Nodup :=
        Keyed.nodup_upsertAll settings List.nodup_nil
      obtain ⟨level, merged, said⟩ := ih
        (fun other mem => parse other (List.mem_cons_of_mem _ mem))
        (start.merge ⟨overlay [] settings, distinct⟩)
      refine ⟨level, ?_, ?_⟩
      · rw [List.foldlM_cons, chfdw_table_settings, parsed]
        exact merged
      · intro name
        have table : tableReading name options = reading (overlay [] settings) name := by
          rw [tableReading, parsed]
        rw [said, List.foldl_cons, table, TableSettings.merge,
          reading_merge start.cells distinct name]

theorem foldlM_error {visits : List (List DefElem)} {options : List DefElem} {e : SettingsError}
    (mem : options ∈ visits) (fails : parsed_settings options = .error e) (start : List DefElem) :
    ∃ e, visits.foldlM (fun merged options => do
      pure (chfdw_merge_settings merged (← chfdw_table_settings options))) start = .error e := by
  induction visits generalizing start with
  | nil => cases mem
  | cons first visits ih =>
      rw [List.foldlM_cons]
      cases parsed : parsed_settings first with
      | error e =>
          refine ⟨e, ?_⟩
          rw [chfdw_table_settings, parsed]
          rfl
      | ok settings =>
          have later : options ∈ visits := by
            rcases List.mem_cons.mp mem with rfl | later
            · rw [fails] at parsed
              cases parsed
            · exact later
          obtain ⟨e, failed⟩ := ih later (chfdw_merge_settings start (overlay [] settings))
          refine ⟨e, ?_⟩
          rw [chfdw_table_settings, parsed]
          exact failed

/-! ## What is sent -/

/-- Two statements are sent with the same value for each name, or neither is sent. -/
inductive SameSettings : Except SettingsError (kv_list × List Report) →
    Except SettingsError (kv_list × List Report) → Prop
  | sent {sent other : kv_list × List Report}
      (same : ∀ name, sent.1.lookup name = other.1.lookup name) :
      SameSettings (.ok sent) (.ok other)
  | failed (first second : SettingsError) : SameSettings (.error first) (.error second)

theorem query_settings_of_reading (options : List DefElem) {level other : TableSettings}
    (session : kv_list) (reported : Option ch_server_version)
    (same : ∀ name, reading level.cells name = reading other.cells name) :
    SameSettings (chfdw_query_settings options level.cells session reported)
      (chfdw_query_settings options other.cells session reported) := by
  cases server : parsed_settings options with
  | error e =>
      have fails (tables : List DefElem) :
          ∃ e, chfdw_query_settings options tables session reported = .error e := by
        unfold parsed_settings at server
        unfold chfdw_query_settings
        cases found : chfdw_settings_option options with
        | error e => exact ⟨e, rfl⟩
        | ok text =>
            rw [found] at server
            cases text with
            | none => cases server
            | some text =>
                refine ⟨e, ?_⟩
                simp only [bind, Except.bind] at server
                simp only [bind, Except.bind, server]
      obtain ⟨e₁, first⟩ := fails level.cells
      obtain ⟨e₂, second⟩ := fails other.cells
      rw [first, second]
      exact .failed e₁ e₂
  | ok settings =>
      obtain ⟨sent, reports, first, -, values⟩ :=
        chfdw_query_settings_of_tables session reported server level.distinct
      obtain ⟨sent', reports', second, -, values'⟩ :=
        chfdw_query_settings_of_tables session reported server other.distinct
      rw [first, second]
      refine .sent fun name => ?_
      by_cases old : TooOld reported name
      · exact ((values name).1 old).trans ((values' name).1 old).symm
      · rw [(values name).2 old, (values' name).2 old, arg_of_reading, arg_of_reading, same]

/-- The merge is commutative, associative and idempotent on what its arguments say about
each name, and keeps a conflict.  So it does not matter for what is sent how often and in
which order a statement visits its tables. -/
theorem table_settings_merge :
    (∀ (a b c : TableSettings) (name : Bytes),
      reading (a.merge b).cells name = reading (b.merge a).cells name ∧
      reading ((a.merge b).merge c).cells name = reading (a.merge (b.merge c)).cells name ∧
      reading (a.merge a).cells name = reading a.cells name ∧
      (reading a.cells name = .conflict → reading (a.merge b).cells name = .conflict)) ∧
    ∀ (options : List DefElem) (visits others : List (List DefElem)) (session : kv_list)
      (reported : Option ch_server_version), (∀ table, table ∈ visits ↔ table ∈ others) →
        SameSettings (statement_settings options visits session reported)
          (statement_settings options others session reported) := by
  have joined (a b : TableSettings) (name : Bytes) :
      reading (a.merge b).cells name = reading a.cells name ⊔ reading b.cells name :=
    reading_merge a.cells b.distinct name
  constructor
  · intro a b c name
    simp only [joined]
    refine ⟨sup_comm _ _, sup_assoc _ _ _, sup_idem _, ?_⟩
    intro conflict
    rw [conflict]
    exact Agreement.conflict_join _
  · intro options visits others session reported same
    by_cases parse : ∀ table ∈ visits, ∃ settings, parsed_settings table = .ok settings
    · obtain ⟨level, merged, said⟩ := reading_foldlM parse ⟨[], List.nodup_nil⟩
      obtain ⟨level', merged', said'⟩ :=
        reading_foldlM (fun table mem => parse table ((same table).mpr mem)) ⟨[], List.nodup_nil⟩
      have first : query_tables visits = .ok level.cells := merged
      have second : query_tables others = .ok level'.cells := merged'
      rw [statement_settings, statement_settings, first, second]
      refine query_settings_of_reading options session reported ?_
      intro name
      rw [said, said']
      exact Agreement.foldl_sup_eq _ same _
    · push Not at parse
      obtain ⟨table, mem, fails⟩ := parse
      obtain ⟨e, failed⟩ : ∃ e, parsed_settings table = .error e := by
        cases parsed : parsed_settings table with
        | error e => exact ⟨e, rfl⟩
        | ok settings => exact absurd parsed (fails settings)
      obtain ⟨e₁, first⟩ := foldlM_error mem failed []
      obtain ⟨e₂, second⟩ := foldlM_error ((same table).mp mem) failed []
      have left : query_tables visits = .error e₁ := first
      have right : query_tables others = .error e₂ := second
      rw [statement_settings, statement_settings, left, right]
      exact .failed e₁ e₂

/-- Options with a setting. -/
def finalTable : List DefElem := [⟨ascii "settings", some (ascii "final 0")⟩]

/-- A table that is visited three times. -/
theorem table_settings_merge_three_times :
    SameSettings (statement_settings [] [finalTable, finalTable, finalTable] [] none)
      (statement_settings [] [finalTable] [] none) :=
  table_settings_merge.2 [] [finalTable, finalTable, finalTable] [finalTable] [] none (by simp)

end PgClickhouse

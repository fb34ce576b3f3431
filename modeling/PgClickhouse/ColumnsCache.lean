import PgClickhouse.AggregateText
import PgClickhouse.Runs
import PgClickhouse.Slots

/-!
# The cache of column options

A session keeps what the options of foreign columns say, and drops it all when a row of
`pg_attribute` changes.  The entry of a column is entered before the catalogs are read, and
each reading may run the callback that drops the entries.  A reading of an entry that was
never written is undefined: the model has no result there.

Main facts:

* `columns_described`: in every run whose lookups nothing interrupts, a column is described
  as in a version of the catalogs since the last invalidation, and no name is lost
* `lookup_sound_iff`: what may interrupt a first lookup without harm
* `lookup_raised`: an error while options are read is remembered as a column without them
-/

namespace PgClickhouse.ColumnsCache

open Aggregate (CHRemoteTableEngine)
open Slots (find enter remove write owners Alloc numbered)

/-! ## Entries -/

inductive ch_aggregate_func_type
  | CF_AGGR_USUAL
  | CF_AGGR_FUNC
  | CF_AGGR_SIMPLE
  deriving Repr, DecidableEq

structure ColumnKey where
  relid : Nat
  varattno : Nat
  deriving Repr, DecidableEq

/-- `colname` is an address in `CacheMemoryContext` and the text there. -/
structure CustomColumnInfo where
  colname : Option (Nat × Bytes)
  is_AggregateFunction : ch_aggregate_func_type
  table_engine : CHRemoteTableEngine
  deriving Repr, DecidableEq

namespace CustomColumnInfo

def owns (entry : CustomColumnInfo) : Option Nat := entry.colname.map Prod.fst

/-- The name an entry gives its column. -/
def name (entry : CustomColumnInfo) : Option Bytes := entry.colname.map Prod.snd

end CustomColumnInfo

/-- The options of a column: PostgreSQL refuses one that is given twice. -/
abbrev ColumnOptions := { options : List DefElem // (options.map DefElem.defname).Nodup }

/-- The `column_name` option. -/
def ColumnOptions.column_name (options : ColumnOptions) : Option Bytes :=
  (options.val.find? fun option => option.defname = ascii "column_name").map
    fun option => option.arg.getD []

/-- What is allocated: the table and the names of its entries. -/
structure Session where
  custom_columns_cache : List (Slots.Slot ColumnKey CustomColumnInfo)
  names : List Nat
  deriving Repr, DecidableEq

/-- The loop of `invalidate_custom_columns_cache`. -/
def free_names : List (Slots.Slot ColumnKey CustomColumnInfo) → List Nat → Option (List Nat)
  | [], names => some names
  | slot :: slots, names => do
      let entry ← slot.2
      let names ← match entry.owns with
        | some addr => Slots.free addr names
        | none => some names
      free_names slots names

/-- Drop every entry. -/
def invalidate_custom_columns_cache (s : Session) : Option Session :=
  (free_names s.custom_columns_cache s.names).map fun names => ⟨[], names⟩

/-! ## Readings -/

/-- A reading of the catalogs: whether the callback runs in it, and what is read, or `none` if
it raises. -/
structure Reading (α : Type) where
  invalidates : Bool
  result : Option α

def Reading.arrives {α : Type} (reading : Reading α) (s : Session) : Option Session :=
  if reading.invalidates then invalidate_custom_columns_cache s else some s

theorem Reading.arrives_quiet {α : Type} {reading : Reading α}
    (quiet : reading.invalidates = false) (s : Session) : reading.arrives s = some s := by
  rw [Reading.arrives, quiet]
  rfl

variable (alloc : Alloc)

/-- One option of a column, and the names in use. -/
def apply_option (x : CustomColumnInfo × List Nat) (option : DefElem) :
    CustomColumnInfo × List Nat :=
  if option.defname = ascii "column_name" then
    ({ x.1 with colname := some ((alloc x.2).val, option.arg.getD []) },
      (alloc x.2).val :: x.2)
  else if option.defname = ascii "aggregatefunction" then
    ({ x.1 with is_AggregateFunction := .CF_AGGR_FUNC }, x.2)
  else if option.defname = ascii "simpleaggregatefunction" then
    ({ x.1 with is_AggregateFunction := .CF_AGGR_SIMPLE }, x.2)
  else x

/-- Write an entry that was entered.  If it is dropped meanwhile, what is written is in no
table. -/
def populate_custom_column_entry (key : ColumnKey) (table_engine : CHRemoteTableEngine)
    (options : Reading ColumnOptions) (s : Session) :
    Option (Option CustomColumnInfo × Session) := do
  let entry : CustomColumnInfo := ⟨none, .CF_AGGR_USUAL, table_engine⟩
  let s ← options.arrives { s with custom_columns_cache := write key entry s.custom_columns_cache }
  match options.result with
  | none => some (none, s)
  | some options =>
      let (entry, names) := options.val.foldl (apply_option alloc) (entry, s.names)
      some (some entry, ⟨write key entry s.custom_columns_cache, names⟩)

/-- What a lookup returns: an entry, or no entry for a column that is not there. -/
inductive Answer
  | entry (name : Option Bytes)
  | null
  | raised
  deriving Repr, DecidableEq

/-- A lookup.  `columns` are those of the relation, each with whether it is dropped. -/
structure Lookup where
  key : ColumnKey
  columns : Reading (List Bool)
  options : Reading ColumnOptions

/-- Whether a relation has a column, which is not dropped. -/
def ColumnKey.shown (key : ColumnKey) (attisdropped : List Bool) : Bool :=
  key.varattno > 0 && attisdropped[key.varattno - 1]? == some false

def chfdw_get_custom_column_info (lookup : Lookup) (s : Session) : Option (Answer × Session) :=
  match find lookup.key s.custom_columns_cache with
  | some slot => slot.2.map fun entry => (.entry entry.name, s)
  | none => do
      let s ← lookup.columns.arrives
        { s with custom_columns_cache := enter lookup.key s.custom_columns_cache }
      match lookup.columns.result with
      | none => some (.raised, s)
      | some columns =>
          if lookup.key.shown columns then do
            let (entry, s) ← populate_custom_column_entry alloc lookup.key .CH_DEFAULT
              lookup.options s
            match entry with
            | none => some (.raised, s)
            | some entry => some (.entry entry.name, s)
          else
            some (.null,
              { s with custom_columns_cache := remove lookup.key s.custom_columns_cache })

/-- The loop of `chfdw_apply_custom_table_options` over the columns of a relation; `false` if it
raises. -/
def prime_columns (relid : Nat) (table_engine : CHRemoteTableEngine)
    (options : Nat → Reading ColumnOptions) : List Nat → Session → Option (Bool × Session)
  | [], s => some (true, s)
  | attnum :: attnums, s =>
      match find ⟨relid, attnum⟩ s.custom_columns_cache with
      | some _ => prime_columns relid table_engine options attnums s
      | none => do
          let (entry, s) ← populate_custom_column_entry alloc ⟨relid, attnum⟩ table_engine
            (options attnum)
            { s with custom_columns_cache := enter ⟨relid, attnum⟩ s.custom_columns_cache }
          match entry with
          | none => some (false, s)
          | some _ => prime_columns relid table_engine options attnums s

/-- The part of `chfdw_apply_custom_table_options` that enters the columns. -/
def chfdw_apply_custom_table_options (relid : Nat) (table_engine : CHRemoteTableEngine)
    (columns : Reading (List Bool)) (options : Nat → Reading ColumnOptions) (s : Session) :
    Option (Bool × Session) := do
  let s ← columns.arrives s
  match columns.result with
  | none => some (false, s)
  | some columns =>
      prime_columns alloc relid table_engine options
        ((List.range columns.length).map (· + 1)) s

/-! ## Sound sessions -/

/-- Every entry is written, one to a column, and owns what is allocated. -/
structure Sound (s : Session) : Prop where
  distinct : (s.custom_columns_cache.map Prod.fst).Nodup
  written : ∀ slot ∈ s.custom_columns_cache, slot.2.isSome
  owned : (owners CustomColumnInfo.owns s.custom_columns_cache).Perm s.names

/-- What a session holds of a column. -/
def Session.held (s : Session) : ColumnKey → Option (Option Bytes) :=
  Slots.read CustomColumnInfo.name s.custom_columns_cache

section

variable {alloc} {s : Session} {key : ColumnKey} {table_engine : CHRemoteTableEngine}
  {slots : List (Slots.Slot ColumnKey CustomColumnInfo)} {names rest : List Nat}

theorem sound_empty : Sound ⟨[], []⟩ where
  distinct := List.nodup_nil
  written := fun _ member => nomatch member
  owned := List.Perm.refl _

theorem free_names_spec (written : ∀ slot ∈ slots, slot.2.isSome)
    (owned : (owners CustomColumnInfo.owns slots ++ rest).Perm names) :
    ∃ left, free_names slots names = some left ∧ rest.Perm left := by
  induction slots generalizing names with
  | nil => exact ⟨names, rfl, owned⟩
  | cons slot slots ih =>
      obtain ⟨k, entry⟩ := slot
      obtain ⟨entry, rfl⟩ := Option.isSome_iff_exists.mp (written _ List.mem_cons_self)
      have others : ∀ slot ∈ slots, slot.2.isSome :=
        fun slot member => written slot (List.mem_cons_of_mem _ member)
      cases own : entry.owns with
      | none =>
          have same : owners CustomColumnInfo.owns ((k, some entry) :: slots) =
              owners CustomColumnInfo.owns slots := List.filterMap_cons_none own
          rw [same] at owned
          obtain ⟨left, freed, perm⟩ := ih others owned
          refine ⟨left, ?_, perm⟩
          rw [free_names, Option.bind_eq_bind, Option.bind_some, own]
          exact freed
      | some addr =>
          have same : owners CustomColumnInfo.owns ((k, some entry) :: slots) =
              addr :: owners CustomColumnInfo.owns slots := List.filterMap_cons_some own
          rw [same, List.cons_append] at owned
          obtain ⟨middle, first, owned⟩ := Slots.free_owned owned
          obtain ⟨left, freed, perm⟩ := ih others owned
          refine ⟨left, ?_, perm⟩
          rw [free_names, Option.bind_eq_bind, Option.bind_some, own]
          dsimp only
          rw [first, Option.bind_eq_bind, Option.bind_some]
          exact freed

/-- Dropping the entries of a sound session frees every name. -/
theorem invalidate_spec (sound : Sound s) :
    invalidate_custom_columns_cache s = some ⟨[], []⟩ := by
  have owned := sound.owned
  rw [← List.append_nil (owners CustomColumnInfo.owns s.custom_columns_cache)] at owned
  obtain ⟨left, freed, perm⟩ := free_names_spec sound.written owned
  rw [invalidate_custom_columns_cache, freed, List.nil_perm.mp perm]
  rfl

theorem free_names_unwritten {slot : Slots.Slot ColumnKey CustomColumnInfo}
    (member : slot ∈ slots) (unwritten : slot.2 = none) : free_names slots names = none := by
  induction slots generalizing names with
  | nil => cases member
  | cons first slots ih =>
      rw [free_names]
      rcases List.mem_cons.mp member with rfl | later
      · rw [unwritten]
        rfl
      · cases first.2 with
        | none => rfl
        | some entry =>
            rw [Option.bind_eq_bind, Option.bind_some]
            cases entry.owns with
            | none => exact ih later
            | some addr =>
                dsimp only
                cases Slots.free addr names with
                | none => rfl
                | some names => exact ih later

/-- An invalidation that finds an entry that was entered only is undefined. -/
theorem Reading.arrives_unwritten {α : Type} {reading : Reading α}
    {slot : Slots.Slot ColumnKey CustomColumnInfo} (arrives : reading.invalidates = true)
    (member : slot ∈ s.custom_columns_cache) (unwritten : slot.2 = none) :
    reading.arrives s = none := by
  rw [Reading.arrives, arrives, if_pos rfl, invalidate_custom_columns_cache,
    free_names_unwritten member unwritten]
  rfl

/-! ## Options -/

variable (alloc names) in
theorem apply_others {options : List DefElem} (entry : CustomColumnInfo)
    (others : ∀ option ∈ options, option.defname ≠ ascii "column_name") :
    (options.foldl (apply_option alloc) (entry, names)).1.colname = entry.colname ∧
      (options.foldl (apply_option alloc) (entry, names)).2 = names := by
  induction options generalizing entry with
  | nil => exact ⟨rfl, rfl⟩
  | cons option options ih =>
      have later : ∀ option ∈ options, option.defname ≠ ascii "column_name" :=
        fun option member => others option (List.mem_cons_of_mem _ member)
      rw [List.foldl_cons, apply_option, if_neg (others option List.mem_cons_self)]
      split
      · exact ih _ later
      · split
        · exact ih _ later
        · exact ih _ later

variable (alloc names) in
/-- The options give an entry the name in them, in memory of its own. -/
theorem apply_options_spec (options : ColumnOptions) (entry : CustomColumnInfo)
    (fresh : entry.colname = none) :
    (options.val.foldl (apply_option alloc) (entry, names)).1.name = options.column_name ∧
      (options.val.foldl (apply_option alloc) (entry, names)).2 =
        (options.val.foldl (apply_option alloc) (entry, names)).1.owns.toList ++ names := by
  obtain ⟨options, distinct⟩ := options
  dsimp only [ColumnOptions.column_name]
  induction options generalizing entry with
  | nil =>
      rw [List.foldl_nil, CustomColumnInfo.name, CustomColumnInfo.owns, fresh]
      exact ⟨rfl, rfl⟩
  | cons option options ih =>
      rw [List.map_cons, List.nodup_cons] at distinct
      rw [List.foldl_cons, apply_option]
      split
      · rename_i named
        have others : ∀ option' ∈ options, option'.defname ≠ ascii "column_name" := by
          intro option' member same
          exact distinct.1 (named ▸ same ▸ List.mem_map_of_mem member)
        obtain ⟨colname, left⟩ := apply_others alloc ((alloc names).val :: names)
          { entry with colname := some ((alloc names).val, option.arg.getD []) } others
        have found : (option :: options).find?
            (fun option => option.defname = ascii "column_name") =
            some option := List.find?_cons_of_pos (decide_eq_true named)
        rw [left, CustomColumnInfo.name, CustomColumnInfo.owns, colname, found]
        exact ⟨rfl, rfl⟩
      · rename_i other
        rw [List.find?_cons_of_neg (by simpa using other)]
        split
        · exact ih _ fresh distinct.2
        · split
          · exact ih _ fresh distinct.2
          · exact ih _ fresh distinct.2

/-! ## Entries that are written -/

/-- A session with an entry that is entered. -/
abbrev Session.entered (s : Session) (key : ColumnKey) : Session :=
  { s with custom_columns_cache := enter key s.custom_columns_cache }

theorem find_entered (absent : find key s.custom_columns_cache = none) :
    find key (s.entered key).custom_columns_cache = some (key, none) := by
  rw [Slots.find_enter, if_pos rfl, absent]
  rfl

variable (names) in
/-- What is written to an entry that was entered makes a session sound, if its name is new. -/
theorem Sound.written_entry (sound : Sound s) (absent : find key s.custom_columns_cache = none)
    (entry : CustomColumnInfo) (own : names = entry.owns.toList ++ s.names) :
    Sound ⟨write key entry (s.entered key).custom_columns_cache, names⟩ ∧
      Session.held ⟨write key entry (s.entered key).custom_columns_cache, names⟩ =
        Function.update s.held key (some entry.name) := by
  have distinct := Slots.keys_enter key sound.distinct
  have found := find_entered absent
  have parts := Slots.perm_write entry distinct found
  have left : remove key (s.entered key).custom_columns_cache = s.custom_columns_cache :=
    Slots.remove_enter absent
  rw [left] at parts
  refine ⟨⟨?_, ?_, ?_⟩, ?_⟩
  · rw [Slots.keys_write]
    exact distinct
  · intro slot member
    rcases List.mem_cons.mp (parts.subset member) with rfl | other
    · rfl
    · exact sound.written slot other
  · refine (Slots.owners_perm _ parts).trans ?_
    rw [own]
    have first : owners CustomColumnInfo.owns ((key, some entry) :: s.custom_columns_cache) =
        entry.owns.toList ++ owners CustomColumnInfo.owns s.custom_columns_cache := by
      change List.filterMap _ _ = _
      rw [List.filterMap_cons]
      cases own : entry.owns with
      | none =>
          simp only [Option.bind_some, own]
          rfl
      | some addr =>
          simp only [Option.bind_some, own]
          rfl
    rw [first]
    exact sound.owned.append_left _
  · rw [Session.held, Slots.read_write found, Slots.read_enter]
    rfl

variable (alloc table_engine) in
/-- An entry is written from the options that are read, if nothing interrupts. -/
theorem populate_spec (sound : Sound s) (absent : find key s.custom_columns_cache = none)
    {options : Reading ColumnOptions} (quiet : options.invalidates = false)
    {l : ColumnOptions} (read : options.result = some l) :
    ∃ entry s', populate_custom_column_entry alloc key table_engine options (s.entered key) =
        some (some entry, s') ∧ entry.name = l.column_name ∧ Sound s' ∧
      s'.held = Function.update s.held key (some l.column_name) := by
  obtain ⟨named, left⟩ := apply_options_spec alloc s.names l
    ⟨none, .CF_AGGR_USUAL, table_engine⟩ rfl
  obtain ⟨sound', held⟩ := sound.written_entry _ absent _ left
  refine ⟨_, _, ?_, named, sound', ?_⟩
  · rw [populate_custom_column_entry, Reading.arrives_quiet quiet, Option.bind_eq_bind,
      Option.bind_some, read]
    dsimp only
    rw [Slots.write_write]
  · rw [held, named]

/-! ## Interrupted readings -/

/-- An entry that was written and is dropped while its options are read: what the options name is
in no entry. -/
theorem populate_dropped (sound : Sound s) (absent : find key s.custom_columns_cache = none)
    {options : Reading ColumnOptions} (arrives : options.invalidates = true) :
    populate_custom_column_entry alloc key table_engine options (s.entered key) =
      some (match options.result with
        | none => (none, ⟨[], []⟩)
        | some options =>
            let (entry, names) :=
              options.val.foldl (apply_option alloc) (⟨none, .CF_AGGR_USUAL, table_engine⟩, [])
            (some entry, ⟨[], names⟩)) := by
  obtain ⟨sound', -⟩ := sound.written_entry s.names absent
    ⟨none, .CF_AGGR_USUAL, table_engine⟩ rfl
  rw [populate_custom_column_entry, Reading.arrives, arrives, if_pos rfl]
  dsimp only
  rw [invalidate_spec sound', Option.bind_eq_bind, Option.bind_some]
  cases options.result with
  | none => rfl
  | some options => rfl

/-- A name is owned memory. -/
theorem owns_of_name {entry : CustomColumnInfo} (named : entry.name.isSome) :
    entry.owns.toList ≠ [] := by
  rw [CustomColumnInfo.name] at named
  obtain ⟨text, colname⟩ := Option.isSome_iff_exists.mp named
  obtain ⟨pair, colname, -⟩ := Option.map_eq_some_iff.mp colname
  rw [CustomColumnInfo.owns, colname]
  exact List.cons_ne_nil _ _

variable (alloc table_engine) in
/-- A name is lost if its entry is dropped while the options are read, and in no other way. -/
theorem populate_sound_iff (sound : Sound s) (absent : find key s.custom_columns_cache = none)
    (options : Reading ColumnOptions) :
    (∃ entry s', populate_custom_column_entry alloc key table_engine options (s.entered key) =
        some (entry, s') ∧ Sound s') ↔
      ∀ l, options.result = some l → l.column_name.isSome → options.invalidates = false := by
  cases arrives : options.invalidates with
  | false =>
      refine iff_of_true ?_ fun _ _ _ => rfl
      cases result : options.result with
      | none =>
          obtain ⟨sound', -⟩ := sound.written_entry s.names absent
            ⟨none, .CF_AGGR_USUAL, table_engine⟩ rfl
          refine ⟨none, _, ?_, sound'⟩
          rw [populate_custom_column_entry, Reading.arrives_quiet arrives, Option.bind_eq_bind,
            Option.bind_some, result]
      | some l =>
          obtain ⟨entry, s', ran, -, sound', -⟩ :=
            populate_spec alloc table_engine sound absent arrives result
          exact ⟨some entry, s', ran, sound'⟩
  | true =>
      rw [populate_dropped sound absent arrives]
      cases result : options.result with
      | none =>
          refine iff_of_true ⟨none, ⟨[], []⟩, rfl, sound_empty⟩ ?_
          intro l other
          cases other
      | some l =>
          obtain ⟨named, left⟩ := apply_options_spec alloc [] l
            ⟨none, .CF_AGGR_USUAL, table_engine⟩ rfl
          dsimp only
          rw [left, List.append_nil]
          generalize (l.val.foldl (apply_option alloc)
            (⟨none, .CF_AGGR_USUAL, table_engine⟩, [])).1 = entry at named ⊢
          constructor
          · rintro ⟨_, _, ran, sound'⟩ _ same isSome
            cases ran
            cases same
            have lost : entry.owns.toList = [] := List.nil_perm.mp sound'.owned
            rw [← named] at isSome
            exact absurd lost (owns_of_name isSome)
          · intro unnamed
            have none_ : entry.colname = none := by
              cases colname : entry.colname with
              | none => rfl
              | some pair =>
                  have isSome : l.column_name.isSome := by
                    rw [← named, CustomColumnInfo.name, colname]
                    rfl
                  exact absurd (unnamed l rfl isSome) (by decide)
            refine ⟨some entry, _, rfl, ?_⟩
            rw [CustomColumnInfo.owns, none_]
            exact sound_empty

/-! ## Lookups -/

/-- Nothing interrupts a reading. -/
def Reading.Yields {α : Type} (reading : Reading α) (a : α) : Prop :=
  reading.invalidates = false ∧ reading.result = some a

theorem Reading.Yields.arrives {α : Type} {reading : Reading α} {a : α} (quiet : reading.Yields a) :
    reading.arrives s = some s :=
  Reading.arrives_quiet quiet.1 s

/-- What is found of a column is held of it. -/
theorem Sound.found (sound : Sound s) {slot : Slots.Slot ColumnKey CustomColumnInfo}
    (there : find key s.custom_columns_cache = some slot) :
    ∃ entry, slot.2 = some entry ∧ s.held key = some entry.name := by
  obtain ⟨entry, written⟩ :=
    Option.isSome_iff_exists.mp (sound.written slot (Slots.mem_of_find there))
  refine ⟨entry, written, ?_⟩
  rw [Session.held, Slots.read, there, Option.bind_some, written]
  rfl

theorem held_absent (absent : find key s.custom_columns_cache = none) : s.held key = none := by
  rw [Session.held, Slots.read, absent]
  rfl

/-- What a lookup comes to that nothing interrupts. -/
inductive Outcome (key : ColumnKey) (columns : List Bool) (options : ColumnOptions) (s : Session) :
    Answer → Session → Prop
  | held {name : Option Bytes} :
      s.held key = some name → Outcome key columns options s (.entry name) s
  | read {s' : Session} :
      s.held key = none → key.shown columns = true →
      s'.held = Function.update s.held key (some options.column_name) →
      Outcome key columns options s (.entry options.column_name) s'
  | null :
      s.held key = none → key.shown columns = false → Outcome key columns options s .null s

variable {lookup : Lookup} {columns : List Bool} {options : ColumnOptions}

variable (alloc) in
theorem chfdw_get_custom_column_info_spec (sound : Sound s)
    (opened : lookup.columns.Yields columns) (described : lookup.options.Yields options) :
    ∃ answer s', chfdw_get_custom_column_info alloc lookup s = some (answer, s') ∧ Sound s' ∧
      Outcome lookup.key columns options s answer s' := by
  unfold chfdw_get_custom_column_info
  cases there : find lookup.key s.custom_columns_cache with
  | some slot =>
      obtain ⟨entry, written, held⟩ := sound.found there
      refine ⟨.entry entry.name, s, ?_, sound, .held held⟩
      dsimp only
      rw [written]
      rfl
  | none =>
      have absent := held_absent there
      rw [opened.arrives, Option.bind_eq_bind, Option.bind_some, opened.2]
      dsimp only
      cases shown : lookup.key.shown columns with
      | true =>
          obtain ⟨entry, s', ran, named, sound', held⟩ :=
            populate_spec alloc .CH_DEFAULT sound there described.1 described.2
          refine ⟨.entry options.column_name, s', ?_, sound', .read absent shown held⟩
          rw [if_pos rfl, ran, ← named]
          rfl
      | false =>
          refine ⟨.null, s, ?_, sound, .null absent shown⟩
          rw [if_neg Bool.false_ne_true, Slots.remove_enter there]

variable (alloc table_engine) in
/-- The columns of a relation are held once they were primed, and those that were held stay. -/
theorem prime_columns_spec {relid : Nat} {readings : Nat → Reading ColumnOptions}
    {described : Nat → ColumnOptions}
    (quiet : ∀ attnum, (readings attnum).Yields (described attnum))
    (attnums : List Nat) (sound : Sound s) :
    ∃ s', prime_columns alloc relid table_engine readings attnums s = some (true, s') ∧ Sound s' ∧
      (∀ key name, s'.held key = some name → s.held key = some name ∨
        ∃ attnum, key = ⟨relid, attnum⟩ ∧ name = (described attnum).column_name) ∧
      (∀ key, (s.held key).isSome → (s'.held key).isSome) ∧
      ∀ attnum ∈ attnums, (s'.held ⟨relid, attnum⟩).isSome := by
  induction attnums generalizing s with
  | nil =>
      exact ⟨s, rfl, sound, fun _ _ held => .inl held, fun _ held => held,
        fun _ member => absurd member List.not_mem_nil⟩
  | cons attnum attnums ih =>
      rw [prime_columns]
      cases there : find ⟨relid, attnum⟩ s.custom_columns_cache with
      | some slot =>
          obtain ⟨entry, -, held⟩ := sound.found there
          obtain ⟨s', ran, sound', from_, stays, primed⟩ := ih sound
          refine ⟨s', ran, sound', from_, stays, ?_⟩
          intro other member
          rcases List.mem_cons.mp member with rfl | later
          · exact stays _ (by rw [held]; rfl)
          · exact primed other later
      | none =>
          obtain ⟨entry, middle, wrote, -, sound', held⟩ := populate_spec alloc
            table_engine sound there (quiet attnum).1 (quiet attnum).2
          obtain ⟨s', ran, sound', from_, stays, primed⟩ := ih sound'
          have kept (key : ColumnKey) (before : (s.held key).isSome) :
              (middle.held key).isSome := by
            rw [held, Function.update_apply]
            split
            · rfl
            · exact before
          refine ⟨s', ?_, sound', ?_, fun key before => stays key (kept key before), ?_⟩
          · dsimp only
            rw [wrote, Option.bind_eq_bind, Option.bind_some]
            exact ran
          · intro key name after
            rcases from_ key name after with before | new
            · rw [held, Function.update_apply] at before
              split at before
              · rename_i same
                cases before
                exact .inr ⟨attnum, same, rfl⟩
              · exact .inl before
            · exact .inr new
          · intro other member
            rcases List.mem_cons.mp member with rfl | later
            · exact stays _ (by rw [held, Function.update_self]; rfl)
            · exact primed other later

/-! ## Interruptions -/

theorem first_lookup_sound_iff (sound : Sound s)
    (absent : find lookup.key s.custom_columns_cache = none) :
    (∃ answer s', chfdw_get_custom_column_info alloc lookup s = some (answer, s') ∧ Sound s') ↔
      ∃ columns, lookup.columns.Yields columns ∧
        (lookup.key.shown columns = true → ∀ options, lookup.options.result = some options →
          options.column_name.isSome → lookup.options.invalidates = false) := by
  have unwritten : (lookup.key, none) ∈ (s.entered lookup.key).custom_columns_cache :=
    Slots.mem_of_find (find_entered absent)
  unfold chfdw_get_custom_column_info
  rw [absent]
  dsimp only
  cases arrives : lookup.columns.invalidates with
  | true =>
      rw [Reading.arrives_unwritten arrives unwritten rfl]
      constructor
      · rintro ⟨_, _, ran, -⟩
        cases ran
      · rintro ⟨columns, opened, -⟩
        exact absurd (arrives.symm.trans opened.1) (by decide)
  | false =>
      rw [Reading.arrives_quiet arrives, Option.bind_eq_bind, Option.bind_some]
      cases result : lookup.columns.result with
      | none =>
          constructor
          · rintro ⟨_, _, ran, sound'⟩
            cases ran
            exact absurd (sound'.written _ unwritten) (by simp)
          · rintro ⟨columns, opened, -⟩
            exact absurd (result.symm.trans opened.2) (by simp)
      | some columns =>
          have only (columns' : List Bool) :
              lookup.columns.Yields columns' ↔ columns' = columns := by
            rw [Reading.Yields, arrives, result, Option.some_inj]
            simp [eq_comm]
          simp only [only, exists_eq_left]
          cases shown : lookup.key.shown columns with
          | false =>
              rw [if_neg Bool.false_ne_true]
              refine iff_of_true ⟨.null, s, ?_, sound⟩ fun same => absurd same Bool.false_ne_true
              rw [Slots.remove_enter absent]
          | true =>
              have same := populate_sound_iff alloc .CH_DEFAULT sound absent lookup.options
              rw [if_pos rfl]
              refine Iff.trans ?_ (same.trans ⟨fun h _ => h, fun h => h rfl⟩)
              constructor
              · rintro ⟨answer, s', ran, sound'⟩
                obtain ⟨⟨entry, middle⟩, wrote, ran⟩ := Option.bind_eq_some_iff.mp ran
                refine ⟨entry, s', ?_, sound'⟩
                cases entry with
                | none =>
                    cases ran
                    exact wrote
                | some entry =>
                    cases ran
                    exact wrote
              · rintro ⟨entry, s', wrote, sound'⟩
                rw [wrote]
                cases entry with
                | none => exact ⟨.raised, s', rfl, sound'⟩
                | some entry => exact ⟨.entry entry.name, s', rfl, sound'⟩

/-- The entry that is written after an invalidation is in no table, and its name in no entry. -/
theorem lookup_lost (sound : Sound s) (absent : find lookup.key s.custom_columns_cache = none)
    (opened : lookup.columns.Yields columns) (shown : lookup.key.shown columns = true)
    (read : lookup.options.result = some options) (named : options.column_name.isSome)
    (arrives : lookup.options.invalidates = true) :
    ∃ s', chfdw_get_custom_column_info alloc lookup s = some (.entry options.column_name, s') ∧
      s'.custom_columns_cache = [] ∧ s'.names ≠ [] := by
  obtain ⟨same, left⟩ := apply_options_spec alloc [] options
    ⟨none, .CF_AGGR_USUAL, .CH_DEFAULT⟩ rfl
  have wrote : populate_custom_column_entry alloc lookup.key .CH_DEFAULT lookup.options
      (s.entered lookup.key) = _ := populate_dropped sound absent arrives
  refine ⟨⟨[], (options.val.foldl (apply_option alloc)
    (⟨none, .CF_AGGR_USUAL, .CH_DEFAULT⟩, [])).2⟩, ?_, rfl, ?_⟩
  · unfold chfdw_get_custom_column_info
    rw [absent]
    dsimp only
    rw [opened.arrives, Option.bind_eq_bind, Option.bind_some, opened.2]
    dsimp only
    rw [if_pos shown, wrote, read, ← same]
    rfl
  · rw [left, List.append_nil]
    rw [← same] at named
    exact owns_of_name named

variable (alloc) in
/-- A first lookup leaves a sound session if and only if no invalidation arrives and no error is
raised while the relation is opened, and none arrives while the options are read that name the
column: then the name is lost. -/
theorem lookup_sound_iff (sound : Sound s)
    (absent : find lookup.key s.custom_columns_cache = none) :
    ((∃ answer s', chfdw_get_custom_column_info alloc lookup s = some (answer, s') ∧ Sound s') ↔
      ∃ columns, lookup.columns.Yields columns ∧
        (lookup.key.shown columns = true → ∀ options, lookup.options.result = some options →
          options.column_name.isSome → lookup.options.invalidates = false)) ∧
    ∀ columns options, lookup.columns.Yields columns → lookup.key.shown columns = true →
      lookup.options.result = some options → options.column_name.isSome →
      lookup.options.invalidates = true →
      ∃ s', chfdw_get_custom_column_info alloc lookup s = some (.entry options.column_name, s') ∧
        s'.custom_columns_cache = [] ∧ s'.names ≠ [] := by
  refine ⟨first_lookup_sound_iff sound absent, ?_⟩
  intro columns options opened shown read named arrives
  exact lookup_lost sound absent opened shown read named arrives

/-! ## Lookups that find an entry without a name -/

/-- No invalidation arrives in a lookup. -/
structure Lookup.Quiet (lookup : Lookup) : Prop where
  columns : lookup.columns.invalidates = false
  options : lookup.options.invalidates = false

variable (alloc) in
/-- What a session does until its entries are dropped.  Errors may be raised in it. -/
inductive Serves : Session → Session → Prop
  | lookup {lookup : Lookup} {answer : Answer} {s s' : Session} :
      lookup.Quiet → chfdw_get_custom_column_info alloc lookup s = some (answer, s') → Serves s s'
  | prime {relid : Nat} {table_engine : CHRemoteTableEngine} {columns : Reading (List Bool)}
      {readings : Nat → Reading ColumnOptions} {primed : Bool} {s s' : Session} :
      columns.invalidates = false → (∀ attnum, (readings attnum).invalidates = false) →
      chfdw_apply_custom_table_options alloc relid table_engine columns readings s =
        some (primed, s') →
      Serves s s'

variable {entry : CustomColumnInfo} {s' : Session}

theorem find_entered_of_ne {other : ColumnKey} (differ : key ≠ other) :
    find key (s.entered other).custom_columns_cache = find key s.custom_columns_cache := by
  rw [Slots.find_enter, if_neg differ]

/-- Writing the entry of another column leaves an entry. -/
theorem populate_keeps {other : ColumnKey} {options : Reading ColumnOptions}
    {wrote : Option CustomColumnInfo} (differ : key ≠ other) (quiet : options.invalidates = false)
    (ran : populate_custom_column_entry alloc other table_engine options s = some (wrote, s')) :
    find key s'.custom_columns_cache = find key s.custom_columns_cache := by
  rw [populate_custom_column_entry, Reading.arrives_quiet quiet, Option.bind_eq_bind,
    Option.bind_some] at ran
  cases result : options.result with
  | none =>
      rw [result] at ran
      cases ran
      exact Slots.find_write_of_ne differ
  | some l =>
      rw [result] at ran
      cases ran
      rw [Slots.write_write]
      exact Slots.find_write_of_ne differ

/-- A lookup leaves the entries that are written. -/
theorem lookup_keeps {answer : Answer} (quiet : lookup.Quiet)
    (there : find key s.custom_columns_cache = some (key, some entry))
    (ran : chfdw_get_custom_column_info alloc lookup s = some (answer, s')) :
    find key s'.custom_columns_cache = some (key, some entry) := by
  unfold chfdw_get_custom_column_info at ran
  cases found : find lookup.key s.custom_columns_cache with
  | some slot =>
      rw [found] at ran
      obtain ⟨_, -, same⟩ := Option.map_eq_some_iff.mp ran
      cases same
      exact there
  | none =>
      have differ : key ≠ lookup.key := fun same => by
        rw [same, found] at there
        cases there
      have entered := find_entered_of_ne (s := s) differ
      rw [found] at ran
      dsimp only at ran
      rw [Reading.arrives_quiet quiet.columns, Option.bind_eq_bind, Option.bind_some] at ran
      cases opened : lookup.columns.result with
      | none =>
          rw [opened] at ran
          cases ran
          rw [entered, there]
      | some columns =>
          rw [opened] at ran
          dsimp only at ran
          split at ran
          · obtain ⟨⟨wrote, middle⟩, populated, ran⟩ := Option.bind_eq_some_iff.mp ran
            have kept := populate_keeps differ quiet.options populated
            cases wrote with
            | none =>
                cases ran
                rw [kept, entered, there]
            | some wrote =>
                cases ran
                rw [kept, entered, there]
          · cases ran
            rw [Slots.find_remove_of_ne differ, entered, there]

/-- So does priming the columns of a relation. -/
theorem prime_keeps {relid : Nat} {readings : Nat → Reading ColumnOptions} {primed : Bool}
    (quiet : ∀ attnum, (readings attnum).invalidates = false) (attnums : List Nat)
    (there : find key s.custom_columns_cache = some (key, some entry))
    (ran : prime_columns alloc relid table_engine readings attnums s = some (primed, s')) :
    find key s'.custom_columns_cache = some (key, some entry) := by
  induction attnums generalizing s with
  | nil =>
      cases ran
      exact there
  | cons attnum attnums ih =>
      rw [prime_columns] at ran
      cases found : find ⟨relid, attnum⟩ s.custom_columns_cache with
      | some slot =>
          rw [found] at ran
          exact ih there ran
      | none =>
          have differ : key ≠ ⟨relid, attnum⟩ := fun same => by
            rw [same, found] at there
            cases there
          rw [found] at ran
          obtain ⟨⟨wrote, middle⟩, populated, ran⟩ := Option.bind_eq_some_iff.mp ran
          have kept : find key middle.custom_columns_cache = some (key, some entry) := by
            rw [populate_keeps differ (quiet attnum) populated, find_entered_of_ne differ, there]
          cases wrote with
          | none =>
              cases ran
              exact kept
          | some wrote => exact ih kept ran

/-- An entry that is written stays until the entries are dropped. -/
theorem serves_keeps (there : find key s.custom_columns_cache = some (key, some entry))
    (serves : Serves alloc s s') : find key s'.custom_columns_cache = some (key, some entry) := by
  cases serves with
  | lookup quiet ran => exact lookup_keeps quiet there ran
  | prime opened quiet ran =>
      rw [chfdw_apply_custom_table_options, Reading.arrives_quiet opened, Option.bind_eq_bind,
        Option.bind_some] at ran
      split at ran
      · cases ran
        exact there
      · exact prime_keeps quiet _ there ran

variable (alloc lookup) in
/-- An error while options are read leaves an entry without a name, which every later lookup of
the column finds until the entries are dropped. -/
theorem lookup_raised (sound : Sound s) (absent : find lookup.key s.custom_columns_cache = none)
    (opened : lookup.columns.Yields columns) (shown : lookup.key.shown columns = true)
    (quiet : lookup.options.invalidates = false) (raised : lookup.options.result = none) :
    ∃ s', chfdw_get_custom_column_info alloc lookup s = some (.raised, s') ∧ Sound s' ∧
      ∀ s'', Relation.ReflTransGen (Serves alloc) s' s'' →
        ∀ later : Lookup, later.key = lookup.key →
          chfdw_get_custom_column_info alloc later s'' = some (.entry none, s'') := by
  obtain ⟨sound', held⟩ := sound.written_entry s.names absent
    ⟨none, .CF_AGGR_USUAL, .CH_DEFAULT⟩ rfl
  refine ⟨_, ?_, sound', ?_⟩
  · unfold chfdw_get_custom_column_info
    rw [absent]
    dsimp only
    rw [opened.arrives, Option.bind_eq_bind, Option.bind_some, opened.2]
    dsimp only
    rw [if_pos shown, populate_custom_column_entry, Reading.arrives_quiet quiet, raised]
    rfl
  · intro s'' run later same
    have stays : find lookup.key s''.custom_columns_cache =
        some (lookup.key, some ⟨none, .CF_AGGR_USUAL, .CH_DEFAULT⟩) := by
      induction run with
      | refl => exact Slots.find_write (find_entered absent)
      | tail _ serves ih => exact serves_keeps ih serves
    unfold chfdw_get_custom_column_info
    rw [same, stays]
    rfl

end

/-! ## A column with another name -/

def renamedOptions : ColumnOptions :=
  ⟨[⟨ascii "column_name", some (ascii "x")⟩], List.nodup_singleton _⟩

/-- A lookup of a column whose options are read without interruption. -/
def renamedLookup : Lookup := ⟨⟨16385, 1⟩, ⟨false, some [false]⟩, ⟨false, some renamedOptions⟩⟩

theorem lookup_sound_renamed :
    ∃ answer s', chfdw_get_custom_column_info numbered renamedLookup ⟨[], []⟩ =
      some (answer, s') ∧ Sound s' :=
  (lookup_sound_iff numbered sound_empty rfl).1.mpr ⟨[false], ⟨rfl, rfl⟩, fun _ _ _ _ => rfl⟩

/-- An error, and then lookups of the column and of another one. -/
theorem lookup_raised_renamed :
    ∃ s' s'', chfdw_get_custom_column_info numbered { renamedLookup with options := ⟨false, none⟩ }
        ⟨[], []⟩ = some (.raised, s') ∧
      chfdw_get_custom_column_info numbered { renamedLookup with key := ⟨16386, 1⟩ } s' =
        some (.entry (some (ascii "x")), s'') ∧
      chfdw_get_custom_column_info numbered renamedLookup s'' = some (.entry none, s'') := by
  obtain ⟨s', raised, -, later⟩ := lookup_raised numbered
    { renamedLookup with options := ⟨false, none⟩ } sound_empty rfl ⟨rfl, rfl⟩ rfl rfl rfl
  have first : chfdw_get_custom_column_info numbered
      { renamedLookup with options := ⟨false, none⟩ } ⟨[], []⟩ =
        some (.raised, ⟨[(⟨16385, 1⟩, some ⟨none, .CF_AGGR_USUAL, .CH_DEFAULT⟩)], []⟩) := by
    decide
  cases first.symm.trans raised
  have other : chfdw_get_custom_column_info numbered { renamedLookup with key := ⟨16386, 1⟩ }
      ⟨[(⟨16385, 1⟩, some ⟨none, .CF_AGGR_USUAL, .CH_DEFAULT⟩)], []⟩ =
        some (.entry (some (ascii "x")),
          ⟨[(⟨16385, 1⟩, some ⟨none, .CF_AGGR_USUAL, .CH_DEFAULT⟩),
            (⟨16386, 1⟩, some ⟨some (0, ascii "x"), .CF_AGGR_USUAL, .CH_DEFAULT⟩)], [0]⟩) := by
    decide
  exact ⟨_, _, raised, other, later _ (.single (.lookup ⟨rfl, rfl⟩ other)) renamedLookup rfl⟩

/-! ## Runs -/

/-- A version of the catalogs: the columns of relations, and their options. -/
structure Catalog where
  relation : Nat → List Bool
  GetForeignColumnOptions : ColumnKey → ColumnOptions

/-- A session, and the versions of the catalogs since the last invalidation. -/
structure World where
  session : Session
  newest : Catalog
  older : List Catalog

/-- A reading sees one of the versions. -/
def World.Sees {α : Type} (w : World) (reading : Reading α) (f : Catalog → α) : Prop :=
  ∃ c ∈ w.newest :: w.older, reading.Yields (f c)

structure World.Reads (w : World) (lookup : Lookup) : Prop where
  columns : w.Sees lookup.columns fun c => c.relation lookup.key.relid
  options : w.Sees lookup.options fun c => c.GetForeignColumnOptions lookup.key

inductive Event
  /-- Another session changes the catalogs. -/
  | alter (catalog : Catalog)
  | invalidate
  | lookup (lookup : Lookup)
  | prime (relid : Nat) (table_engine : CHRemoteTableEngine) (columns : Reading (List Bool))
      (options : Nat → Reading ColumnOptions)

/-- What a session does while nothing interrupts its lookups. -/
inductive Step : World → Event → World → Prop
  | alter {w : World} {catalog : Catalog} :
      Step w (.alter catalog) ⟨w.session, catalog, w.newest :: w.older⟩
  | invalidate {w : World} {s : Session} :
      invalidate_custom_columns_cache w.session = some s → Step w .invalidate ⟨s, w.newest, []⟩
  | lookup {w : World} {lookup : Lookup} {answer : Answer} {s : Session} :
      w.Reads lookup → chfdw_get_custom_column_info alloc lookup w.session = some (answer, s) →
      Step w (.lookup lookup) { w with session := s }
  | prime {w : World} {relid : Nat} {table_engine : CHRemoteTableEngine}
      {columns : Reading (List Bool)} {options : Nat → Reading ColumnOptions} {primed : Bool}
      {s : Session} :
      w.Sees columns (fun c => c.relation relid) →
      (∀ attnum, w.Sees (options attnum) fun c => c.GetForeignColumnOptions ⟨relid, attnum⟩) →
      chfdw_apply_custom_table_options alloc relid table_engine columns options w.session =
        some (primed, s) →
      Step w (.prime relid table_engine columns options) { w with session := s }

def start (w : World) : Prop := w.session = ⟨[], []⟩

/-- What is held of a column was read from one of the versions. -/
structure World.Good (w : World) : Prop where
  sound : Sound w.session
  described : ∀ key name, w.session.held key = some name →
    ∃ c ∈ w.newest :: w.older, name = (c.GetForeignColumnOptions key).column_name

section

variable {alloc} {w w' : World} {event : Event} {lookup : Lookup}

variable (alloc) in
/-- A lookup answers from one of the versions. -/
theorem World.Good.looks_up (good : w.Good) (reads : w.Reads lookup) :
    ∃ answer s', chfdw_get_custom_column_info alloc lookup w.session = some (answer, s') ∧
      World.Good { w with session := s' } ∧
      ((∃ c ∈ w.newest :: w.older,
          answer = .entry (c.GetForeignColumnOptions lookup.key).column_name) ∨
        answer = .null ∧ ∃ c ∈ w.newest :: w.older,
          lookup.key.shown (c.relation lookup.key.relid) = false) := by
  obtain ⟨⟨c, version, opened⟩, ⟨d, version', described⟩⟩ := reads
  obtain ⟨answer, s', ran, sound, outcome⟩ :=
    chfdw_get_custom_column_info_spec alloc good.sound opened described
  refine ⟨answer, s', ran, ⟨sound, ?_⟩, ?_⟩
  · intro key name held
    cases outcome with
    | held => exact good.described key name held
    | null => exact good.described key name held
    | read _ _ after =>
        rw [after, Function.update_apply] at held
        split at held
        · rename_i same
          cases held
          exact ⟨d, version', by rw [same]⟩
        · exact good.described key name held
  · cases outcome with
    | held before =>
        obtain ⟨e, there, rfl⟩ := good.described _ _ before
        exact .inl ⟨e, there, rfl⟩
    | read => exact .inl ⟨d, version', rfl⟩
    | null _ hidden => exact .inr ⟨rfl, c, version, hidden⟩

variable (alloc) in
theorem World.Good.primes (good : w.Good) {relid : Nat} {table_engine : CHRemoteTableEngine}
    {columns : Reading (List Bool)} {options : Nat → Reading ColumnOptions}
    (opened : w.Sees columns fun c => c.relation relid)
    (described : ∀ attnum, w.Sees (options attnum) fun c =>
        c.GetForeignColumnOptions ⟨relid, attnum⟩) :
    ∃ s', chfdw_apply_custom_table_options alloc relid table_engine columns options w.session =
        some (true, s') ∧ World.Good { w with session := s' } ∧
      ∃ c ∈ w.newest :: w.older, ∀ attnum, 1 ≤ attnum → attnum ≤ (c.relation relid).length →
        (s'.held ⟨relid, attnum⟩).isSome := by
  obtain ⟨c, version, opened⟩ := opened
  choose d versions quiet using described
  obtain ⟨s', ran, sound, from_, -, primed⟩ := prime_columns_spec alloc
    table_engine quiet ((List.range (c.relation relid).length).map (· + 1))
    good.sound
  refine ⟨s', ?_, ⟨sound, ?_⟩, c, version, ?_⟩
  · rw [chfdw_apply_custom_table_options, opened.arrives, Option.bind_eq_bind, Option.bind_some,
      opened.2]
    exact ran
  · intro key name held
    rcases from_ key name held with before | ⟨attnum, rfl, rfl⟩
    · exact good.described key name before
    · exact ⟨d attnum, versions attnum, rfl⟩
  · intro attnum low high
    apply primed attnum
    refine List.mem_map.mpr ⟨attnum - 1, List.mem_range.mpr ?_, ?_⟩
    · omega
    · omega

theorem Step.good (good : w.Good) (step : Step alloc w event w') : w'.Good := by
  cases step with
  | alter =>
      refine ⟨good.sound, ?_⟩
      intro key name held
      obtain ⟨c, version, same⟩ := good.described key name held
      exact ⟨c, List.mem_cons_of_mem _ version, same⟩
  | invalidate dropped =>
      cases (invalidate_spec good.sound).symm.trans dropped
      refine ⟨sound_empty, ?_⟩
      intro key name held
      cases held
  | lookup reads ran =>
      obtain ⟨_, _, ran', good', -⟩ := good.looks_up alloc reads
      cases ran'.symm.trans ran
      exact good'
  | prime opened described ran =>
      obtain ⟨_, ran', good', -⟩ := good.primes alloc opened described
      cases ran'.symm.trans ran
      exact good'

end

/-- In every run whose lookups nothing interrupts, dropping the entries is defined and leaves no
name behind.  A lookup describes a column as a version of the catalogs since the last
invalidation does, and once a relation is primed its columns are held. -/
theorem columns_described (alloc : Alloc) {w : World}
    (reached : Runs.Reachable start (Step alloc) w) :
    invalidate_custom_columns_cache w.session = some ⟨[], []⟩ ∧
    (∀ lookup, w.Reads lookup →
      ∃ answer s, chfdw_get_custom_column_info alloc lookup w.session = some (answer, s) ∧
        ((∃ c ∈ w.newest :: w.older,
            answer = .entry (c.GetForeignColumnOptions lookup.key).column_name) ∨
          answer = .null ∧ ∃ c ∈ w.newest :: w.older,
            lookup.key.shown (c.relation lookup.key.relid) = false)) ∧
    ∀ relid table_engine columns options, w.Sees columns (fun c => c.relation relid) →
      (∀ attnum, w.Sees (options attnum) fun c => c.GetForeignColumnOptions ⟨relid, attnum⟩) →
      ∃ s, chfdw_apply_custom_table_options alloc relid table_engine columns options w.session =
          some (true, s) ∧
        ∃ c ∈ w.newest :: w.older, ∀ attnum, 1 ≤ attnum → attnum ≤ (c.relation relid).length →
          (s.held ⟨relid, attnum⟩).isSome := by
  have good : w.Good := by
    refine reached.invariant ?_ fun _ good step => step.good good
    intro w started
    refine ⟨started ▸ sound_empty, ?_⟩
    intro key name held
    rw [started] at held
    cases held
  refine ⟨invalidate_spec good.sound, ?_, ?_⟩
  · intro lookup reads
    obtain ⟨answer, s, ran, -, described⟩ := good.looks_up alloc reads
    exact ⟨answer, s, ran, described⟩
  · intro relid table_engine columns options opened described
    obtain ⟨s, ran, -, primed⟩ := good.primes alloc opened described
    exact ⟨s, ran, primed⟩

def renamedCatalog : Catalog := ⟨fun _ => [false], fun _ => renamedOptions⟩

theorem columns_described_renamed :
    ∃ answer s, chfdw_get_custom_column_info numbered renamedLookup
        ⟨[(⟨16385, 1⟩, some ⟨some (0, ascii "x"), .CF_AGGR_USUAL, .CH_DEFAULT⟩)], [0]⟩ =
          some (answer, s) ∧ answer = .entry (some (ascii "x")) := by
  have reads : World.Reads ⟨⟨[], []⟩, renamedCatalog, []⟩ renamedLookup :=
    ⟨⟨renamedCatalog, List.mem_cons_self, rfl, rfl⟩, ⟨renamedCatalog, List.mem_cons_self, rfl, rfl⟩⟩
  have looked : chfdw_get_custom_column_info numbered renamedLookup ⟨[], []⟩ =
      some (.entry (some (ascii "x")),
        ⟨[(⟨16385, 1⟩, some ⟨some (0, ascii "x"), .CF_AGGR_USUAL, .CH_DEFAULT⟩)], [0]⟩) := by
    decide
  have started : Runs.Reachable start (Step numbered) ⟨⟨[], []⟩, renamedCatalog, []⟩ :=
    .start rfl
  obtain ⟨-, found, -⟩ := columns_described numbered (.next started (.lookup reads looked))
  obtain ⟨answer, s, ran, described⟩ := found renamedLookup ⟨reads.columns, reads.options⟩
  refine ⟨answer, s, ran, ?_⟩
  rcases described with ⟨c, version, same⟩ | ⟨-, c, version, hidden⟩
  · cases List.mem_singleton.mp version
    exact same
  · cases List.mem_singleton.mp version
    cases hidden

end PgClickhouse.ColumnsCache

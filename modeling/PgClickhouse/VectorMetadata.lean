import PgClickhouse.Expiring
import PgClickhouse.Literals
import PgClickhouse.Runs
import PgClickhouse.Slots

/-!
# The cache of vector indexes

Each session reads the vector similarity indexes of a foreign table from the server when it
plans a vector search, and keeps them for `pg_clickhouse.vector_metadata_ttl` seconds.  An
entry owns the memory context its indexes are in.  A reading of memory that was never written
and a second deletion of a context are undefined: the model has no result there.

The entry of a table is entered before its remote name is looked up, outside of the block
that catches errors, so that an error there leaves an entry nobody wrote.

Main facts:

* `lookups_sound`: as long as no lookup of a name raises, a session never touches memory it
  does not own, leaks none, and serves only the last reading of the table
* `lookups_complete`: where the time to live does not move backwards, evicting entries loses
  no reading that could still be served
* `unnamed_undefined`: the entry left by an error is read by the next lookup of the table
-/

namespace PgClickhouse.VectorMeta

open Expiring (Event Live served last)
open Slots (enter remove write owners Alloc numbered)

/-! ## Indexes -/

inductive chfdw_vector_metric
  | VECTOR_METRIC_NONE
  | VECTOR_METRIC_L2
  | VECTOR_METRIC_COSINE
  | VECTOR_METRIC_DOT
  | VECTOR_METRIC_L1
  deriving Repr, DecidableEq

/-- A vector similarity index on a remote table. -/
structure VectorIndexInfo where
  name : Bytes
  column : Bytes
  metric : chfdw_vector_metric
  deriving Repr, DecidableEq

/-- `limit_cap` is `max_limit_for_vector_search_queries`, or -1. -/
structure VectorTableMeta where
  indexes : List VectorIndexInfo
  limit_cap : Int
  deriving Repr, DecidableEq

/-- The metric of a distance function. -/
def chfdw_vector_metric_from_ch (name : Bytes) : chfdw_vector_metric :=
  if name = ascii "L2Distance" then .VECTOR_METRIC_L2
  else if name = ascii "cosineDistance" then .VECTOR_METRIC_COSINE
  else if name = ascii "dotProduct" then .VECTOR_METRIC_DOT
  else .VECTOR_METRIC_NONE

/-- `strtoll(s, NULL, 10)`. -/
def strtoll (s : Bytes) : Int :=
  let s := s.dropWhile isspace
  let negative := s.head? = some 45
  let digits := if negative ∨ s.head? = some 43 then s.tail else s
  let n : Nat := (digits.takeWhile fun c => 48 ≤ c && c ≤ 57).foldl
    (fun n c => n * 10 + (c.toNat - 48)) 0
  max (-2 ^ 63) (min (if negative then -(n : Int) else n) (2 ^ 63 - 1))

/-- A row of the answer: an index, its column, its distance function, and the limit. -/
structure IndexRow where
  name : Bytes
  column : Bytes
  func : Bytes
  cap : Option Bytes
  deriving Repr, DecidableEq

/-- The statement `fetch_meta` sends. -/
def fetch_sql (db table : Bytes) : Bytes :=
  ascii ("SELECT name, replaceRegexpAll(expr, '^`|`$|\\\\\\\\(.)', '\\\\1'), " ++
    "extract(type_full, ', *''([^'']+)'''), " ++
    "toString((SELECT value FROM system.settings " ++
    "WHERE name = 'max_limit_for_vector_search_queries')) " ++
    "FROM system.data_skipping_indices WHERE type = 'vector_similarity' " ++
    "AND database = ") ++
  ch_quote_literal_internal db ++ ascii " AND table = " ++
  ch_quote_literal_internal table ++ ascii " ORDER BY name"

/-- One row of the loop of `fetch_meta`: only an index with a known metric is kept. -/
def keep_index (tableMeta : VectorTableMeta) (row : IndexRow) : VectorTableMeta :=
  let metric := chfdw_vector_metric_from_ch row.func
  if metric = .VECTOR_METRIC_NONE then tableMeta
  else
    { indexes := tableMeta.indexes ++ [⟨row.name, row.column, metric⟩]
      limit_cap :=
        match row.cap with
        | some (c :: text) => strtoll (c :: text)
        | _ => tableMeta.limit_cap }

def fetch_meta (rows : List IndexRow) : VectorTableMeta :=
  rows.foldl keep_index { indexes := [], limit_cap := -1 }

/-! ## Memory and entries -/

structure VectorMetaKey where
  relid : Nat
  userid : Nat
  deriving Repr, DecidableEq

/-- What is written to an entry; `cxt` holds `tableMeta`. -/
structure VectorMetaEntry where
  tableMeta : VectorTableMeta
  fetched_at : Int
  cxt : Nat
  deriving Repr, DecidableEq

/-- An entry of the table. -/
abbrev Slot := Slots.Slot VectorMetaKey VectorMetaEntry

/-- What is allocated in `meta_cxt`: the table and the contexts of its entries. -/
structure MetaCxt where
  vector_meta_cache : List Slot
  children : List Nat
  deriving Repr, DecidableEq

/-- Delete a context; there is no result if it is not there. -/
def MemoryContextDelete (cxt : Nat) (children : List Nat) : Option (List Nat) :=
  Slots.free cxt children

/-- `msec` milliseconds or more lie between two timestamps, in microseconds. -/
def TimestampDifferenceExceeds (start_time stop_time : Int) (msec : Nat) : Bool :=
  decide (stop_time - start_time ≥ msec * 1000)

def INT_MAX : Nat := 2147483647

/-- The seconds an entry lives, capped so that they do not overflow as milliseconds. -/
def seconds (metadata_ttl : Nat) : Nat := min metadata_ttl (INT_MAX / 1000)

/-- Drop the entries other than that of `key` which are too old. -/
@[grind =] def evict_stale (key : VectorMetaKey) (now : Int) (ttl : Nat) :
    List Slot → List Nat → Option (List Slot × List Nat)
  | [], children => some ([], children)
  | slot :: slots, children =>
      if slot.1 = key then do
        let (slots, children) ← evict_stale key now ttl slots children
        some (slot :: slots, children)
      else do
        let entry ← slot.2
        if TimestampDifferenceExceeds entry.fetched_at now ttl then
          let children ← MemoryContextDelete entry.cxt children
          evict_stale key now ttl slots children
        else
          let (slots, children) ← evict_stale key now ttl slots children
          some (slot :: slots, children)

/-! ## Lookups -/

/-- What a lookup returns, and whether it asked the server. -/
inductive Answer
  | cached (tableMeta : VectorTableMeta)
  | fetched (tableMeta : VectorTableMeta)
  | unknown
  | raised
  deriving Repr, DecidableEq

/-- A lookup: when it is made, under which setting, and how its requests end.  `names` is
`none` if `chfdw_remote_table_name` raises, and so is the answer to a statement that fails. -/
structure Lookup where
  key : VectorMetaKey
  now : Int
  metadata_ttl : Nat
  names : Option (Bytes × Bytes)
  chfdw_run_text_query : Bytes → Option (List IndexRow)

namespace Lookup

variable (lookup : Lookup)

/-- The entry to serve, if there is a fresh one.  An entry found is read unless its time to
live is 0. -/
def fresh (found : Option Slot) : Option (Option VectorMetaEntry) :=
  match found with
  | none => some none
  | some slot =>
      if seconds lookup.metadata_ttl > 0 then do
        let entry ← slot.2
        if TimestampDifferenceExceeds entry.fetched_at lookup.now
            (seconds lookup.metadata_ttl * 1000) then
          some none
        else some (some entry)
      else some none

/-- Delete the context of the entry that was found. -/
def delete_previous (found : Option Slot) (children : List Nat) : Option (List Nat) :=
  match found with
  | none => some children
  | some slot => do
      let entry ← slot.2
      MemoryContextDelete entry.cxt children

/-- Read the indexes into a context of their own. -/
def fetch (alloc : Alloc) (found : Option Slot) (m : MetaCxt) : Option (Answer × MetaCxt) :=
  let cxt := (alloc m.children).val
  let children := cxt :: m.children
  match lookup.names with
  | none => some (.raised, { m with children })
  | some (db, table) =>
      match lookup.chfdw_run_text_query (fetch_sql db table) with
      | none => do
          let children ← MemoryContextDelete cxt children
          let children ← delete_previous found children
          some (.unknown, ⟨remove lookup.key m.vector_meta_cache, children⟩)
      | some rows => do
          let children ← delete_previous found children
          some (.fetched (fetch_meta rows),
            ⟨write lookup.key ⟨fetch_meta rows, lookup.now, cxt⟩ m.vector_meta_cache,
              children⟩)

/-- The caller reads the indexes of the entry that is returned. -/
def chfdw_vector_table_meta (alloc : Alloc) (session : Option MetaCxt) :
    Option (Answer × MetaCxt) :=
  let m := session.getD ⟨[], []⟩
  let found := Slots.find lookup.key m.vector_meta_cache
  let slots := enter lookup.key m.vector_meta_cache
  match lookup.fresh found with
  | none => none
  | some (some entry) =>
      if entry.cxt ∈ m.children then
        some (.cached entry.tableMeta, { m with vector_meta_cache := slots })
      else none
  | some none => do
      let (slots, children) ← evict_stale lookup.key lookup.now
        (seconds lookup.metadata_ttl * 1000) slots m.children
      lookup.fetch alloc found ⟨slots, children⟩

end Lookup

/-- `chfdw_vector_meta_invalidate_all` deletes `meta_cxt` with all that is in it. -/
def chfdw_vector_meta_invalidate_all (_ : Option MetaCxt) : Option MetaCxt := none

/-! ## Entries and their contexts -/

/-- An entry owns its context. -/
def VectorMetaEntry.owns (entry : VectorMetaEntry) : Option Nat := some entry.cxt

/-- The reading an entry holds. -/
def VectorMetaEntry.reading (entry : VectorMetaEntry) : VectorTableMeta × Int :=
  (entry.tableMeta, entry.fetched_at)

/-- Every entry is written and owns one context, and there is no other context. -/
structure Sound (m : MetaCxt) : Prop where
  distinct : (m.vector_meta_cache.map Prod.fst).Nodup
  written : ∀ slot ∈ m.vector_meta_cache, slot.2.isSome
  owned : (owners VectorMetaEntry.owns m.vector_meta_cache).Perm m.children
  apart : m.children.Nodup

theorem sound_empty : Sound ⟨[], []⟩ :=
  ⟨List.nodup_nil, List.forall_mem_nil _, .refl _, List.nodup_nil⟩

variable {key : VectorMetaKey} {now : Int} {ttl : Nat} {slots : List Slot}
  {children rest : List Nat} {cxt : Nat}

/-- Whether an entry outlives an eviction. -/
def stays (key : VectorMetaKey) (now : Int) (ttl : Nat) (slot : Slot) : Bool :=
  decide (slot.1 = key) ||
    slot.2.any fun entry => !TimestampDifferenceExceeds entry.fetched_at now ttl

theorem stays_own {slot : Slot} (own : slot.1 = key) : stays key now ttl slot = true := by
  rw [stays, decide_eq_true own, Bool.true_or]

theorem stays_other {k : VectorMetaKey} {entry : VectorMetaEntry} (differ : k ≠ key) :
    stays key now ttl (k, some entry) =
      !TimestampDifferenceExceeds entry.fetched_at now ttl := by
  rw [stays, decide_eq_false differ, Bool.false_or, Option.any_some]

/-- An eviction reads no entry but written ones, and deletes just the contexts of those it
drops. -/
theorem evict_stale_spec (written : ∀ slot ∈ slots, slot.1 ≠ key → slot.2.isSome)
    (owned : (owners VectorMetaEntry.owns slots ++ rest).Perm children) :
    ∃ left, evict_stale key now ttl slots children =
        some (slots.filter (stays key now ttl), left) ∧
      (owners VectorMetaEntry.owns (slots.filter (stays key now ttl)) ++ rest).Perm left := by
  induction slots generalizing children rest with
  | nil => exact ⟨children, rfl, owned⟩
  | cons slot slots ih =>
      obtain ⟨k, entry⟩ := slot
      obtain ⟨written_slot, written_slots⟩ := List.forall_mem_cons.mp written
      -- the slot stays: its context goes to the rest
      have keep (holds : stays key now ttl (k, entry) = true) :
          ∃ left, (evict_stale key now ttl slots children).bind
              (fun result => some ((k, entry) :: result.1, result.2)) =
                some (((k, entry) :: slots).filter (stays key now ttl), left) ∧
            (owners VectorMetaEntry.owns (((k, entry) :: slots).filter (stays key now ttl)) ++
                rest).Perm left := by
        rw [List.filter_cons_of_pos holds]
        obtain ⟨left, run, perm⟩ :=
          ih written_slots ((Slots.owners_cons_perm (k, entry)).trans owned)
        refine ⟨left, by rw [run]; rfl, ?_⟩
        exact (Slots.owners_cons_perm (k, entry)).symm.trans perm
      rw [evict_stale]
      split
      · rename_i same
        exact keep (stays_own same)
      · rename_i differ
        obtain ⟨entry, rfl⟩ := Option.isSome_iff_exists.mp (written_slot differ)
        have stay : stays key now ttl (k, some entry) =
            !TimestampDifferenceExceeds entry.fetched_at now ttl := stays_other differ
        rw [Option.bind_eq_bind, Option.bind_some]
        split
        · rename_i old
          rw [old, Bool.not_true] at stay
          rw [List.filter_cons_of_neg (by rw [stay]; exact Bool.false_ne_true)]
          obtain ⟨left, deleted, perm⟩ : ∃ left, MemoryContextDelete entry.cxt children =
              some left ∧ (owners VectorMetaEntry.owns slots ++ rest).Perm left :=
            Slots.free_owned owned
          rw [deleted]
          exact ih written_slots perm
        · rename_i young
          rw [Bool.not_eq_true] at young
          exact keep (by rw [stay, young, Bool.not_false])

/-- An entry of another table that was never written is read. -/
theorem evict_stale_unwritten {slot : Slot} (member : slot ∈ slots) (differ : slot.1 ≠ key)
    (unwritten : slot.2 = none) : evict_stale key now ttl slots children = none := by
  induction slots generalizing children with
  | nil => cases member
  | cons first slots ih =>
      rw [evict_stale]
      rcases List.mem_cons.mp member with rfl | later
      · rw [if_neg differ, unwritten]
        rfl
      · split
        · rw [ih later]
          rfl
        · cases first.2 with
          | none => rfl
          | some entry =>
              rw [Option.bind_eq_bind, Option.bind_some]
              split
              · cases MemoryContextDelete entry.cxt children with
                | none => rfl
                | some left => exact ih later
              · rw [ih later]
                rfl

/-! ## One lookup -/

namespace Lookup

variable (lookup : Lookup) {m m' : MetaCxt}

/-- What was read before is too old. -/
def horizon : Int := lookup.now - seconds lookup.metadata_ttl * 1000 * 1000

theorem exceeds_iff (reading : VectorTableMeta × Int) :
    TimestampDifferenceExceeds reading.2 lookup.now (seconds lookup.metadata_ttl * 1000) = true ↔
      ¬ Live lookup.horizon reading := by
  rw [TimestampDifferenceExceeds, decide_eq_true_iff, Live, horizon]
  push_cast
  omega

/-- What an eviction leaves of the readings. -/
def kept (cache : Expiring.Cache VectorMetaKey VectorTableMeta) :
    Expiring.Cache VectorMetaKey VectorTableMeta := fun key =>
  if key = lookup.key then cache key else served lookup.horizon (cache key)

/-- There is nothing to serve. -/
def Expired (m : MetaCxt) : Prop :=
  0 < seconds lookup.metadata_ttl →
    served lookup.horizon (Slots.read VectorMetaEntry.reading m.vector_meta_cache lookup.key) = none

/-- What a lookup does: it serves an entry and changes nothing, or it has evicted the others
and reads anew, and keeps what it read. -/
inductive Outcome (m : MetaCxt) : Answer → MetaCxt → Prop
  | cached {tableMeta : VectorTableMeta} {time : Int} :
      0 < seconds lookup.metadata_ttl →
      served lookup.horizon (Slots.read VectorMetaEntry.reading m.vector_meta_cache lookup.key) =
          some (tableMeta, time) →
      Outcome m (.cached tableMeta) m
  | fetched {m' : MetaCxt} {db table : Bytes} {rows : List IndexRow} :
      lookup.Expired m → lookup.names = some (db, table) →
      lookup.chfdw_run_text_query (fetch_sql db table) = some rows → Sound m' →
      Slots.read VectorMetaEntry.reading m'.vector_meta_cache =
          Function.update (lookup.kept (Slots.read VectorMetaEntry.reading m.vector_meta_cache))
        lookup.key (some (fetch_meta rows, lookup.now)) →
      Outcome m (.fetched (fetch_meta rows)) m'
  | unknown {m' : MetaCxt} {db table : Bytes} :
      lookup.Expired m → lookup.names = some (db, table) →
      lookup.chfdw_run_text_query (fetch_sql db table) = none → Sound m' →
      Slots.read VectorMetaEntry.reading m'.vector_meta_cache =
          Function.update (lookup.kept (Slots.read VectorMetaEntry.reading m.vector_meta_cache))
        lookup.key none →
      Outcome m .unknown m'
  | raised {m' : MetaCxt} :
      lookup.Expired m → lookup.names = none → Outcome m .raised m'

/-- The table after an eviction, with the entry that was found or entered. -/
structure Evicted (m : MetaCxt) (slots : List Slot) (children : List Nat) : Prop where
  distinct : (slots.map Prod.fst).Nodup
  found : Slots.find lookup.key slots =
    some ((Slots.find lookup.key m.vector_meta_cache).getD (lookup.key, none))
  written : ∀ slot ∈ remove lookup.key slots, slot.2.isSome
  owned : (owners VectorMetaEntry.owns
      [(Slots.find lookup.key m.vector_meta_cache).getD (lookup.key, none)]
    ++ owners VectorMetaEntry.owns (remove lookup.key slots)).Perm children
  apart : children.Nodup
  held : Slots.read VectorMetaEntry.reading slots =
      lookup.kept (Slots.read VectorMetaEntry.reading m.vector_meta_cache)

theorem held_stays (distinct : (slots.map Prod.fst).Nodup) :
    Slots.read VectorMetaEntry.reading
        (slots.filter (stays lookup.key lookup.now (seconds lookup.metadata_ttl * 1000))) =
      lookup.kept (Slots.read VectorMetaEntry.reading slots) := by
  funext k
  rw [Slots.read, Slots.find_filter distinct, kept, Slots.read]
  cases found : Slots.find k slots with
  | none => split <;> rfl
  | some slot =>
      have same : slot.1 = k := Slots.key_of_find found
      obtain ⟨slot, entry⟩ := slot
      subst same
      split
      · rename_i own
        rw [Option.filter_some_pos (stays_own own)]
      · rename_i other
        cases entry with
        | none =>
            rw [Option.filter_some_neg (by simp [stays, other])]
            rfl
        | some entry =>
            have stay : stays lookup.key lookup.now (seconds lookup.metadata_ttl * 1000)
                (slot, some entry) = _ := stays_other other
            have old := lookup.exceeds_iff (entry.tableMeta, entry.fetched_at)
            by_cases live : Live lookup.horizon (entry.tableMeta, entry.fetched_at)
            · rw [Option.filter_some_pos (by simpa [stay] using fun h => old.mp h live)]
              exact (Expiring.mem_served.mpr ⟨rfl, live⟩).symm
            · rw [Option.filter_some_neg (by simpa [stay] using old.mpr live)]
              exact (Expiring.served_of_not_live live).symm

theorem evicted (sound : Sound m) :
    ∃ slots children, evict_stale lookup.key lookup.now (seconds lookup.metadata_ttl * 1000)
        (enter lookup.key m.vector_meta_cache) m.children = some (slots, children) ∧
      lookup.Evicted m slots children := by
  have entered := Slots.keys_enter lookup.key sound.distinct
  have written := Slots.written_enter lookup.key sound.written
  have owned : (owners VectorMetaEntry.owns (enter lookup.key m.vector_meta_cache) ++ []).Perm
      m.children := by
    rw [Slots.owners_enter, List.append_nil]
    exact sound.owned
  obtain ⟨left, run, perm⟩ := evict_stale_spec written owned
  rw [List.append_nil] at perm
  refine ⟨_, left, run, ?_⟩
  have distinct : ((List.filter (stays lookup.key lookup.now (seconds lookup.metadata_ttl * 1000))
      (enter lookup.key m.vector_meta_cache)).map Prod.fst).Nodup :=
    entered.sublist (List.filter_sublist.map Prod.fst)
  have entry := Slots.find_enter lookup.key m.vector_meta_cache lookup.key
  rw [if_pos rfl] at entry
  have found : Slots.find lookup.key ((enter lookup.key m.vector_meta_cache).filter
      (stays lookup.key lookup.now (seconds lookup.metadata_ttl * 1000))) = _ :=
    Slots.find_filter entered
  rw [entry, Option.filter_some_pos (stays_own (Slots.key_of_find entry))] at found
  refine ⟨distinct, found, ?_, ?_, ?_, ?_⟩
  · intro slot member
    obtain ⟨stayed, differ⟩ := List.mem_filter.mp member
    exact written slot (List.mem_of_mem_filter stayed) (of_decide_eq_true differ)
  · have parts := Slots.owners_perm VectorMetaEntry.owns
      (Slots.perm_remove distinct found)
    refine List.Perm.trans ?_ (parts.symm.trans perm)
    exact .of_eq List.filterMap_append.symm
  · have before : (owners VectorMetaEntry.owns (enter lookup.key m.vector_meta_cache)).Nodup := by
      rw [Slots.owners_enter]
      exact sound.owned.nodup_iff.mpr sound.apart
    exact perm.nodup_iff.mp (before.sublist (List.filter_sublist.filterMap _))
  · rw [held_stays lookup entered, Slots.read_enter]

/-- The context of the entry that was found goes. -/
theorem delete_previous_spec {found : Option Slot} {key : VectorMetaKey}
    (written : ∀ slot, found = some slot → slot.2.isSome)
    (owned : (owners VectorMetaEntry.owns [found.getD (key, none)] ++ rest).Perm children) :
    ∃ left, delete_previous found children = some left ∧ rest.Perm left := by
  cases found with
  | none => exact ⟨children, rfl, owned⟩
  | some slot =>
      obtain ⟨k, entry⟩ := slot
      obtain ⟨entry, rfl⟩ := Option.isSome_iff_exists.mp (written _ rfl)
      exact Slots.free_owned owned

theorem Evicted.others_nodup {lookup : Lookup} (evicted : lookup.Evicted m slots children) :
    (owners VectorMetaEntry.owns (remove lookup.key slots)).Nodup := by
  have all := evicted.owned.nodup_iff.mpr evicted.apart
  exact all.sublist (List.sublist_append_right _ _)

/-- The entries own all contexts that are left. -/
theorem Evicted.all_owned {lookup : Lookup} (evicted : lookup.Evicted m slots children) :
    (owners VectorMetaEntry.owns slots).Perm children := by
  have parts := Slots.owners_perm VectorMetaEntry.owns
    (Slots.perm_remove evicted.distinct evicted.found)
  refine (parts.trans (List.Perm.symm ?_)).trans evicted.owned
  exact .of_eq List.filterMap_append.symm

/-- The table after a reading that failed. -/
theorem Evicted.removed {lookup : Lookup} (evicted : lookup.Evicted m slots children)
    {left : List Nat} (owned : (owners VectorMetaEntry.owns (remove lookup.key slots)).Perm left) :
    Sound ⟨remove lookup.key slots, left⟩ where
  distinct := evicted.distinct.sublist (List.filter_sublist.map Prod.fst)
  written := evicted.written
  owned := owned
  apart := owned.nodup_iff.mp evicted.others_nodup

/-- The table after a reading. -/
theorem Evicted.rewritten {lookup : Lookup} (evicted : lookup.Evicted m slots children)
    (entry : VectorMetaEntry) (fresh : entry.cxt ∉ children) {left : List Nat}
    (owned : (entry.cxt :: owners VectorMetaEntry.owns (remove lookup.key slots)).Perm left) :
    Sound ⟨write lookup.key entry slots, left⟩ where
  distinct := by
    have keys : (write lookup.key entry slots).map Prod.fst = slots.map Prod.fst := by
      rw [write, List.map_map]
      apply List.map_congr_left
      intro slot _
      rw [Function.comp_apply]
      split
      · rename_i same
        exact same.symm
      · rfl
    rw [keys]
    exact evicted.distinct
  written := by
    intro slot member
    rcases List.mem_cons.mp ((Slots.perm_write _ evicted.distinct evicted.found).subset member) with
      rfl | other
    · rfl
    · exact evicted.written slot other
  owned := (Slots.owners_perm _ (Slots.perm_write _ evicted.distinct evicted.found)).trans owned
  apart := by
    refine owned.nodup_iff.mp (List.nodup_cons.mpr ⟨?_, evicted.others_nodup⟩)
    intro shared
    exact fresh (evicted.owned.subset (List.mem_append_right _ shared))

theorem fetch_spec (alloc : Alloc) (sound : Sound m) (evicted : lookup.Evicted m slots children)
    (expired : lookup.Expired m) :
    ∃ answer m', lookup.fetch alloc (Slots.find lookup.key m.vector_meta_cache)
      ⟨slots, children⟩ = some (answer, m') ∧ lookup.Outcome m answer m' := by
  have written (slot : Slot)
      (found : Slots.find lookup.key m.vector_meta_cache = some slot) :
      slot.2.isSome := sound.written slot (Slots.mem_of_find found)
  unfold fetch
  cases named : lookup.names with
  | none => exact ⟨.raised, _, rfl, .raised expired named⟩
  | some names =>
      obtain ⟨db, table⟩ := names
      dsimp only
      cases run : lookup.chfdw_run_text_query (fetch_sql db table) with
      | none =>
          have deleted : MemoryContextDelete (alloc children).val ((alloc children).val :: children)
              = some children := Slots.free_new _ _
          obtain ⟨left, previous, owned⟩ := delete_previous_spec written evicted.owned
          refine ⟨.unknown, ⟨remove lookup.key slots, left⟩, ?_, ?_⟩
          · rw [deleted, Option.bind_eq_bind, Option.bind_some, previous]
            rfl
          · refine .unknown expired named run (evicted.removed owned) ?_
            rw [Slots.read_remove evicted.distinct, evicted.held]
      | some rows =>
          have owned : (owners VectorMetaEntry.owns
              [(Slots.find lookup.key m.vector_meta_cache).getD (lookup.key, none)] ++
                (alloc children).val :: owners VectorMetaEntry.owns (remove lookup.key slots)).Perm
              ((alloc children).val :: children) :=
            List.perm_middle.trans (evicted.owned.cons _)
          obtain ⟨left, previous, owned⟩ := delete_previous_spec written owned
          refine ⟨.fetched (fetch_meta rows), ⟨write lookup.key
            ⟨fetch_meta rows, lookup.now, (alloc children).val⟩ slots, left⟩, ?_, ?_⟩
          · rw [previous]
            rfl
          · refine .fetched expired named run
              (evicted.rewritten ⟨_, _, _⟩ (alloc children).property owned) ?_
            rw [Slots.read_write evicted.found, evicted.held]
            rfl

/-- An entry that may be served is found, or there is none. -/
theorem fresh_spec (sound : Sound m) :
    (∃ slot entry, Slots.find lookup.key m.vector_meta_cache = some slot ∧
      slot.2 = some entry ∧ lookup.fresh (some slot) = some (some entry) ∧
      0 < seconds lookup.metadata_ttl ∧
      Live lookup.horizon (entry.tableMeta, entry.fetched_at)) ∨
    (lookup.fresh (Slots.find lookup.key m.vector_meta_cache) = some none ∧
      lookup.Expired m) := by
  cases found : Slots.find lookup.key m.vector_meta_cache with
  | none =>
      refine .inr ⟨rfl, fun _ => ?_⟩
      rw [Slots.read, found]
      rfl
  | some slot =>
      obtain ⟨entry, written⟩ :=
        Option.isSome_iff_exists.mp (sound.written slot (Slots.mem_of_find found))
      have old := lookup.exceeds_iff (entry.tableMeta, entry.fetched_at)
      dsimp only at old
      by_cases lives : seconds lookup.metadata_ttl > 0
      · by_cases live : Live lookup.horizon (entry.tableMeta, entry.fetched_at)
        · refine .inl ⟨slot, entry, rfl, written, ?_, lives, live⟩
          rw [fresh]
          simp only [if_pos lives, written]
          exact if_neg fun h => old.mp h live
        · refine .inr ⟨?_, fun _ => ?_⟩
          · rw [fresh]
            simp only [if_pos lives, written]
            exact if_pos (old.mpr live)
          · rw [Slots.read, found, Option.bind_some, written]
            exact Expiring.served_of_not_live live
      · refine .inr ⟨?_, fun positive => absurd positive lives⟩
        rw [fresh]
        exact if_neg lives

/-- A lookup on a sound table has a result, and is one of four. -/
theorem chfdw_vector_table_meta_spec (alloc : Alloc) {session : Option MetaCxt}
    (sound : Sound (session.getD ⟨[], []⟩)) :
    ∃ answer m', lookup.chfdw_vector_table_meta alloc session = some (answer, m') ∧
      lookup.Outcome (session.getD ⟨[], []⟩) answer m' := by
  unfold chfdw_vector_table_meta
  generalize session.getD ⟨[], []⟩ = m at sound
  dsimp only
  rcases lookup.fresh_spec sound with ⟨slot, entry, found, written, fresh, lives, live⟩ |
    ⟨stale, expired⟩
  · have there : entry.cxt ∈ m.children := by
      apply sound.owned.subset
      refine List.mem_filterMap.mpr ⟨slot, Slots.mem_of_find found, ?_⟩
      rw [written]
      rfl
    have serves : served lookup.horizon
        (Slots.read VectorMetaEntry.reading m.vector_meta_cache lookup.key) =
        some (entry.tableMeta, entry.fetched_at) := by
      rw [Slots.read, found, Option.bind_some, written]
      exact Expiring.mem_served.mpr ⟨rfl, live⟩
    refine ⟨.cached entry.tableMeta, m, ?_, .cached lives serves⟩
    rw [found, fresh, Slots.enter_found found]
    exact if_pos there
  · obtain ⟨slots, children, run, evicted⟩ := lookup.evicted sound
    obtain ⟨answer, m', fetched, outcome⟩ := lookup.fetch_spec alloc sound evicted expired
    refine ⟨answer, m', ?_, outcome⟩
    rw [stale]
    dsimp only
    rw [run]
    exact fetched

end Lookup

/-! ## Sessions -/

inductive Call
  | lookup (lookup : Lookup)
  | invalidate

/-- What a session has done.  `unnamed` says that the lookup of a name has raised since all
entries were dropped. -/
structure Run where
  session : Option MetaCxt
  history : List (Event VectorMetaKey VectorTableMeta)
  unnamed : Bool
  horizon : Int

def Run.metaCxt (r : Run) : MetaCxt := r.session.getD ⟨[], []⟩

/-- What a lookup learns. -/
def Answer.events (answer : Answer) (lookup : Lookup) :
    List (Event VectorMetaKey VectorTableMeta) :=
  match answer with
  | .fetched tableMeta => [.read lookup.key tableMeta lookup.now]
  | .unknown => [.failed lookup.key]
  | .cached _ | .raised => []

def start (r : Run) : Prop :=
  r.session = none ∧ r.history = [] ∧ r.unnamed = false

inductive Step (alloc : Alloc) : Run → Call → Run → Prop
  | lookup {r : Run} {lookup : Lookup} {answer : Answer} {m : MetaCxt} :
      lookup.chfdw_vector_table_meta alloc r.session = some (answer, m) →
      Step alloc r (.lookup lookup) ⟨some m, answer.events lookup ++ r.history,
        r.unnamed || decide (answer = .raised), lookup.horizon⟩
  | invalidate {r : Run} :
      Step alloc r .invalidate
        ⟨chfdw_vector_meta_invalidate_all r.session, .forgotten :: r.history, false, r.horizon⟩

/-- A step that does not move the time to live backwards. -/
def Forward (alloc : Alloc) (r : Run) (call : Call) (r' : Run) : Prop :=
  Step alloc r call r' ∧ r.horizon ≤ r'.horizon

/-- The table holds last readings only, unless the lookup of a name has raised. -/
def Run.Good (r : Run) : Prop :=
  r.unnamed = false →
    Sound r.metaCxt ∧ Expiring.Agrees
        (Slots.read VectorMetaEntry.reading r.metaCxt.vector_meta_cache) r.history

/-- And those that may still be served are all there. -/
def Run.Full (r : Run) : Prop :=
  r.unnamed = false →
    Expiring.Complete (Slots.read VectorMetaEntry.reading r.metaCxt.vector_meta_cache) r.history
        r.horizon

theorem kept_some {lookup : Lookup} {cache : Expiring.Cache VectorMetaKey VectorTableMeta}
    {k : VectorMetaKey} {reading : VectorTableMeta × Int}
    (kept : lookup.kept cache k = some reading) : cache k = some reading := by
  unfold Lookup.kept at kept
  split at kept
  · exact kept
  · exact (Expiring.mem_served.mp kept).1

theorem kept_of_live {lookup : Lookup} {cache : Expiring.Cache VectorMetaKey VectorTableMeta}
    {k : VectorMetaKey} {reading : VectorTableMeta × Int} (there : cache k = some reading)
    (live : Live lookup.horizon reading) : lookup.kept cache k = some reading := by
  unfold Lookup.kept
  split
  · exact there
  · exact Expiring.mem_served.mpr ⟨there, live⟩

section

variable {lookup : Lookup} {m m' : MetaCxt} {answer : Answer}
  {history : List (Event VectorMetaKey VectorTableMeta)} {horizon : Int}

theorem Lookup.Outcome.sound (outcome : lookup.Outcome m answer m') (sound : Sound m)
    (named : answer ≠ .raised) : Sound m' := by
  cases outcome with
  | cached => exact sound
  | fetched _ _ _ sound => exact sound
  | unknown _ _ _ sound => exact sound
  | raised => exact absurd rfl named

theorem Lookup.Outcome.agrees (outcome : lookup.Outcome m answer m')
    (agrees : Expiring.Agrees (Slots.read VectorMetaEntry.reading m.vector_meta_cache) history)
    (named : answer ≠ .raised) :
    Expiring.Agrees (Slots.read VectorMetaEntry.reading m'.vector_meta_cache)
        (answer.events lookup ++ history) := by
  have fewer : Expiring.Agrees
      (lookup.kept (Slots.read VectorMetaEntry.reading m.vector_meta_cache)) history :=
    agrees.mono fun _ _ => kept_some
  cases outcome with
  | cached => exact agrees
  | fetched _ _ _ _ held =>
      rw [held]
      exact fewer.read
  | unknown _ _ _ _ held =>
      rw [held]
      exact fewer.failed
  | raised => exact absurd rfl named

theorem Lookup.Outcome.complete (outcome : lookup.Outcome m answer m')
    (complete : Expiring.Complete (Slots.read VectorMetaEntry.reading m.vector_meta_cache) history
        horizon)
    (forward : horizon ≤ lookup.horizon) (named : answer ≠ .raised) :
    Expiring.Complete (Slots.read VectorMetaEntry.reading m'.vector_meta_cache)
        (answer.events lookup ++ history)
      lookup.horizon := by
  have rest : Expiring.Complete
      (lookup.kept (Slots.read VectorMetaEntry.reading m.vector_meta_cache)) history
      lookup.horizon := complete.mono forward fun _ _ => kept_of_live
  cases outcome with
  | cached => exact complete.mono forward fun _ _ there _ => there
  | fetched _ _ _ _ held =>
      rw [held]
      exact rest.read
  | unknown _ _ _ _ held =>
      rw [held]
      exact rest.failed
  | raised => exact absurd rfl named

end

variable {alloc : Alloc} {r r' : Run} {call : Call}

/-- What a lookup reports is what the specification says it does. -/
theorem outcome_of_run {lookup : Lookup} {answer : Answer} {m : MetaCxt} (good : r.Good)
    (named : r.unnamed = false)
    (ran : lookup.chfdw_vector_table_meta alloc r.session = some (answer, m)) :
    lookup.Outcome r.metaCxt answer m := by
  obtain ⟨answer', m', run, outcome⟩ :=
    lookup.chfdw_vector_table_meta_spec alloc (good named).1
  rw [ran] at run
  cases run
  exact outcome

theorem Step.good (step : Step alloc r call r') (good : r.Good) : r'.Good := by
  cases step with
  | invalidate =>
      intro _
      refine ⟨sound_empty, ?_⟩
      intro k reading held
      exact nomatch held
  | lookup ran =>
      intro named
      obtain ⟨before, answered⟩ := Bool.or_eq_false_iff.mp named
      have outcome := outcome_of_run good before ran
      have answered := of_decide_eq_false answered
      exact ⟨outcome.sound (good before).1 answered, outcome.agrees (good before).2 answered⟩

theorem Step.full (step : Step alloc r call r') (forward : r.horizon ≤ r'.horizon)
    (good : r.Good) (full : r.Full) : r'.Full := by
  cases step with
  | invalidate =>
      intro _ k reading found
      exact nomatch found
  | lookup ran =>
      intro named
      obtain ⟨before, answered⟩ := Bool.or_eq_false_iff.mp named
      exact (outcome_of_run good before ran).complete (full before) forward
        (of_decide_eq_false answered)

theorem good_of_start (started : start r) : r.Good := by
  obtain ⟨session, history, -⟩ := started
  intro _
  rw [Run.metaCxt, session, history]
  refine ⟨sound_empty, ?_⟩
  intro k reading held
  exact nomatch held

theorem full_of_start (started : start r) : r.Full := by
  obtain ⟨-, history, -⟩ := started
  intro _ k reading found
  rw [history] at found
  exact nomatch found

/-! ## A table with one index -/

/-- A lookup of a table at a time in seconds. -/
def lookupAt (time : Int) : Lookup where
  key := ⟨16385, 10⟩
  now := time * 1000000
  metadata_ttl := 60
  names := some (ascii "default", ascii "items")
  chfdw_run_text_query := fun _ =>
    some [⟨ascii "idx", ascii "embedding", ascii "L2Distance", some (ascii "100")⟩]

def readMeta : VectorTableMeta := ⟨[⟨ascii "idx", ascii "embedding", .VECTOR_METRIC_L2⟩], 100⟩

def afterFetch : MetaCxt :=
  ⟨[(⟨16385, 10⟩, some ⟨readMeta, 100000000, 0⟩)], [0]⟩

theorem fetch_first :
    (lookupAt 100).chfdw_vector_table_meta numbered none =
        some (.fetched readMeta, afterFetch) := by
  decide

def fetchedRun : Run := ⟨some afterFetch, [.read ⟨16385, 10⟩ readMeta 100000000], false, 40000000⟩

theorem step_first :
    Step numbered ⟨none, [], false, 0⟩ (.lookup (lookupAt 100)) fetchedRun := by
  have step := Step.lookup (r := ⟨none, [], false, 0⟩) fetch_first
  exact step

/-! ## Runs -/

/-- As long as the lookup of a name has not raised, a lookup has a result: it reads no entry
that was not written, and deletes no context twice.  Indexes served without asking the server
are the last ones read of the table, and within their time to live.  Afterwards the contexts
are those of the entries, and the entries of other tables are within it too if the server was
asked. -/
theorem lookups_sound (alloc : Alloc) {r : Run}
    (reached : Runs.Reachable start (Step alloc) r) (named : r.unnamed = false)
    (lookup : Lookup) :
    ∃ answer m, lookup.chfdw_vector_table_meta alloc r.session = some (answer, m) ∧
      (∀ tableMeta, answer = .cached tableMeta → 0 < seconds lookup.metadata_ttl ∧
        ∃ time, served lookup.horizon (last lookup.key r.history) = some (tableMeta, time)) ∧
      (answer ≠ .raised → Sound m) ∧
      (answer ≠ .raised → (∀ tableMeta, answer ≠ .cached tableMeta) →
        ∀ key reading, key ≠ lookup.key →
            Slots.read VectorMetaEntry.reading m.vector_meta_cache key = some reading →
          Live lookup.horizon reading) := by
  have good : r.Good := reached.invariant good_of_start fun _ good step => step.good good
  obtain ⟨sound, agrees⟩ := good named
  obtain ⟨answer, m, ran, outcome⟩ := lookup.chfdw_vector_table_meta_spec alloc sound
  refine ⟨answer, m, ran, ?_, outcome.sound sound, ?_⟩
  · intro tableMeta same
    cases same
    cases outcome with
    | @cached _ time lives serves => exact ⟨lives, time, agrees.served serves⟩
  · intro asked uncached key reading other there
    have left (value : Option (VectorTableMeta × Int))
        (held : Slots.read VectorMetaEntry.reading m.vector_meta_cache = Function.update
          (lookup.kept (Slots.read VectorMetaEntry.reading r.metaCxt.vector_meta_cache)) lookup.key
              value) :
        Live lookup.horizon reading := by
      rw [held, Function.update_of_ne other, Lookup.kept, if_neg other] at there
      exact (Expiring.mem_served.mp there).2
    cases outcome with
    | cached => exact absurd rfl (uncached _)
    | fetched _ _ _ _ held => exact left _ held
    | unknown _ _ _ _ held => exact left _ held
    | raised => exact absurd rfl asked

theorem lookups_sound_second :
    ∃ answer m, (lookupAt 110).chfdw_vector_table_meta numbered fetchedRun.session =
        some (answer, m) ∧ (answer ≠ .raised → Sound m) := by
  obtain ⟨answer, m, ran, -, sound, -⟩ := lookups_sound numbered
    (.next (.start ⟨rfl, rfl, rfl⟩) step_first) rfl (lookupAt 110)
  exact ⟨answer, m, ran, sound⟩

/-- If moreover no lookup goes back behind the time to live of an earlier one, the server is
asked only where the last reading of the table is lost or too old: no eviction costs a
reading. -/
theorem lookups_complete (alloc : Alloc) {r : Run}
    (reached : Runs.Reachable start (Forward alloc) r) (named : r.unnamed = false)
    (lookup : Lookup) (forward : r.horizon ≤ lookup.horizon) :
    ∃ answer m, lookup.chfdw_vector_table_meta alloc r.session = some (answer, m) ∧
      ∀ tableMeta, answer = .cached tableMeta ↔ 0 < seconds lookup.metadata_ttl ∧
        ∃ time, served lookup.horizon (last lookup.key r.history) = some (tableMeta, time) := by
  have both : r.Good ∧ r.Full := by
    apply reached.invariant (I := fun r => r.Good ∧ r.Full)
    · intro s started
      exact ⟨good_of_start started, full_of_start started⟩
    · intro s e t _ both step
      exact ⟨step.1.good both.1, step.1.full step.2 both.1 both.2⟩
  obtain ⟨good, full⟩ := both
  obtain ⟨sound, agrees⟩ := good named
  obtain ⟨answer, m, ran, outcome⟩ := lookup.chfdw_vector_table_meta_spec alloc sound
  refine ⟨answer, m, ran, ?_⟩
  intro tableMeta
  rw [← Expiring.served_eq agrees (full named) forward]
  constructor
  · intro same
    cases same
    cases outcome with
    | @cached _ time lives serves => exact ⟨lives, time, serves⟩
  · intro serves
    obtain ⟨lives, time, serves⟩ := serves
    have unexpired : ¬ lookup.Expired r.metaCxt := by
      intro expired
      rw [expired lives] at serves
      exact nomatch serves
    cases outcome with
    | cached _ serves' =>
        cases serves'.symm.trans serves
        rfl
    | fetched expired => exact absurd expired unexpired
    | unknown expired => exact absurd expired unexpired
    | raised expired => exact absurd expired unexpired

theorem lookups_complete_second :
    ∃ answer m, (lookupAt 110).chfdw_vector_table_meta numbered fetchedRun.session =
        some (answer, m) ∧ answer = .cached readMeta := by
  obtain ⟨answer, m, ran, served⟩ := lookups_complete numbered
    (.next (.start ⟨rfl, rfl, rfl⟩) ⟨step_first, by decide⟩) rfl (lookupAt 110) (by decide)
  exact ⟨answer, m, ran, (served readMeta).mpr ⟨by decide, 100000000, by decide⟩⟩

/-- Where nothing is kept, a lookup evicts the other entries and reads none before its request. -/
theorem evicts_unserved {slots : List Slot} {children rest : List Nat} {key : VectorMetaKey}
    {entry : Option VectorMetaEntry} (found : Slots.find key slots = some (key, entry))
    (written : ∀ slot ∈ remove key slots, slot.2.isSome)
    (owned : (owners VectorMetaEntry.owns slots ++ rest).Perm children) (now : Int) (ttl : Nat) :
    ∃ result, evict_stale key now ttl (enter key slots) children = some result := by
  rw [Slots.enter_found found]
  have others : ∀ slot ∈ slots, slot.1 ≠ key → slot.2.isSome := fun slot member differ =>
    written slot (List.mem_filter.mpr ⟨member, decide_eq_true differ⟩)
  obtain ⟨left, run, -⟩ : ∃ left, evict_stale key now ttl slots children =
      some (slots.filter (stays key now ttl), left) ∧ _ := evict_stale_spec others owned
  exact ⟨_, run⟩

/-- An error in the lookup of a name leaves an entry that is not written, if there was none.
The next lookup reads it if it is one of the table, unless nothing is kept and it raises again,
and if it is one of a table that has no entry. -/
theorem unnamed_undefined (alloc : Alloc) {m : MetaCxt} (sound : Sound m) (lookup : Lookup)
    (absent : Slots.find lookup.key m.vector_meta_cache = none)
    (unnamed : lookup.names = none) :
    ∃ left, lookup.chfdw_vector_table_meta alloc (some m) = some (.raised, left) ∧
      ∀ later : Lookup,
        (later.key = lookup.key →
          (later.chfdw_vector_table_meta alloc (some left) = none ↔
            0 < later.metadata_ttl ∨ later.names.isSome)) ∧
        (later.key ≠ lookup.key → Slots.find later.key left.vector_meta_cache = none →
          later.chfdw_vector_table_meta alloc (some left) = none) := by
  obtain ⟨slots, children, run, evicted⟩ := lookup.evicted sound
  have entered : Slots.find lookup.key slots = some (lookup.key, none) := by
    rw [evicted.found, absent]
    rfl
  refine ⟨⟨slots, (alloc children).val :: children⟩, ?_, fun later => ⟨?_, ?_⟩⟩
  · rw [Lookup.chfdw_vector_table_meta, Option.getD_some, absent]
    dsimp only [Lookup.fresh]
    rw [run, Option.bind_eq_bind, Option.bind_some, Lookup.fetch, unnamed]
  · intro same
    rw [Lookup.chfdw_vector_table_meta, Option.getD_some]
    dsimp only
    rw [same, entered, Lookup.fresh]
    dsimp only
    rcases Nat.eq_zero_or_pos later.metadata_ttl with kept_none | positive
    · -- the entry is not looked at before it is replaced
      have owned : (owners VectorMetaEntry.owns slots ++ [(alloc children).val]).Perm
          ((alloc children).val :: children) :=
        (List.perm_append_singleton _ _).trans (evicted.all_owned.cons _)
      obtain ⟨⟨slots', children'⟩, again⟩ := evicts_unserved entered evicted.written owned later.now
        (seconds later.metadata_ttl * 1000)
      have zero : seconds later.metadata_ttl = 0 := by
        rw [seconds, kept_none, Nat.zero_min]
      rw [if_neg (by rw [zero]; exact Nat.lt_irrefl 0)]
      dsimp only
      rw [again, Option.bind_eq_bind, Option.bind_some, Lookup.fetch, same]
      cases named : later.names with
      | none => simp [kept_none]
      | some name =>
          refine iff_of_true ?_ (.inr rfl)
          dsimp only [Lookup.delete_previous]
          split
          · rw [MemoryContextDelete, Slots.free_new]
            rfl
          · rfl
    · have lives : seconds later.metadata_ttl > 0 := by
        rw [seconds, INT_MAX]
        omega
      rw [if_pos lives]
      exact iff_of_true rfl (.inl positive)
  · intro differ missing
    have left : (lookup.key, none) ∈ slots ++ [(later.key, none)] :=
      List.mem_append_left _ (Slots.mem_of_find entered)
    rw [Lookup.chfdw_vector_table_meta, Option.getD_some]
    dsimp only at missing ⊢
    rw [missing]
    dsimp only [Lookup.fresh]
    rw [Slots.enter_absent missing, evict_stale_unwritten left (Ne.symm differ) rfl]
    rfl

theorem unnamed_undefined_empty :
    ∃ left, ({ lookupAt 100 with names := none }).chfdw_vector_table_meta numbered
        (some ⟨[], []⟩) = some (.raised, left) ∧
      (lookupAt 110).chfdw_vector_table_meta numbered (some left) = none := by
  obtain ⟨left, raised, undefined⟩ := unnamed_undefined numbered sound_empty
    { lookupAt 100 with names := none } rfl rfl
  exact ⟨left, raised, ((undefined (lookupAt 110)).1 rfl).mpr (.inl (by decide))⟩

end PgClickhouse.VectorMeta

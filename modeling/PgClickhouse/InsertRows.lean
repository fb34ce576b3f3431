import PgClickhouse.Basic

/-!
# The rows of an insert

An insert buffers its rows in a writer and sends them when the writer has grown, and once
more behind the last row.  Over HTTP each flush is a request of its own, and the columns are
the attributes of the table; over the binary protocol the server names the columns, and the
first row fixes which attribute each of them gets.

The writer is a list of rows that a flush empties, and `bytes` is its size, of which nothing
is assumed.  A slot is what `slot_getattr` reads from it.

* `insert_rows`: the rows sent are the rows appended, in order, and each column gets the
  attribute of its name, or that at its position if the attributes have no names.
-/

namespace PgClickhouse.InsertRows

/-! ## Attributes -/

abbrev Oid := Nat

def TIMEOID : Oid := 1083

def TIMESTAMPTZOID : Oid := 1184

structure Form_pg_attribute where
  attname : Bytes
  attisdropped : Bool
  atttypid : Oid
  deriving Repr, DecidableEq

/-- What `slot_getattr` gives for an attribute number; `none` is a NULL. -/
abbrev TupleTableSlot := Nat → Option Int

/-- A value appended to the writer, with its type. -/
structure Cell where
  value : Option Int
  valtype : Oid
  deriving Repr, DecidableEq

abbrev Row := List Cell

/-- The name of an attribute on the server: its option `column_name`, else its own. -/
def inname (column_name : Nat → Option Bytes) (attnum : Nat) (attin : Form_pg_attribute) :
    Bytes :=
  (column_name attnum).getD attin.attname

/-! ## Buffering -/

def INSERT_FLUSH_BYTES : Nat := 64 * 1024 * 1024

/-- The rows of the writer, and the rows of each flush. -/
structure Buffered where
  rows : List Row
  sent : List (List Row)
  deriving Repr, DecidableEq

def Buffered.append (buffered : Buffered) (row : Row) : Buffered :=
  { buffered with rows := buffered.rows ++ [row] }

/-- The writer's rows are sent, and the writer is reset. -/
def Buffered.flush (buffered : Buffered) : Buffered :=
  ⟨[], buffered.sent ++ [buffered.rows]⟩

/-- Append a row, and flush unless the writer is small. -/
def insert_row (bytes : List Row → Nat) (flush : Buffered → Buffered) (buffered : Buffered)
    (row : Row) : Buffered :=
  if bytes (buffered.append row).rows < INSERT_FLUSH_BYTES then buffered.append row
  else flush (buffered.append row)

/-! ## HTTP -/

inductive chc_kind
  | CHC_DATETIME
  | CHC_DATETIME64
  | other
  deriving Repr, DecidableEq

/-- A column, with its type on the server and the attribute that feeds it. -/
structure HttpColumn where
  name : Bytes
  kind : chc_kind
  attnum : Nat
  atttypid : Oid
  deriving Repr, DecidableEq

/-- The columns that `http_prepare_insert` sets up; `kinds` are the types that the server
describes. -/
def http_columns (tupdesc : List Form_pg_attribute) (column_name : Nat → Option Bytes)
    (kinds : Nat → chc_kind) (target_attrs : List Nat) : Option (List HttpColumn) :=
  target_attrs.mapM fun attnum =>
    tupdesc[attnum - 1]?.map fun attr =>
      ⟨inname column_name attnum attr, kinds attnum, attnum, attr.atttypid⟩

/-- `(TimestampTz)(POSTGRES_EPOCH_JDATE - UNIX_EPOCH_JDATE) * USECS_PER_DAY` -/
def EPOCH_SHIFT : Int := (2451545 - 2440588) * 86400000000

/-- A time of day is put on the epoch date for a column of timestamps. -/
def http_cell (slot : TupleTableSlot) (column : HttpColumn) : Cell :=
  match slot column.attnum with
  | none => ⟨none, column.atttypid⟩
  | some value =>
      if column.atttypid = TIMEOID ∧
          (column.kind = .CHC_DATETIME ∨ column.kind = .CHC_DATETIME64) then
        ⟨some (value - EPOCH_SHIFT), TIMESTAMPTZOID⟩
      else ⟨some value, column.atttypid⟩

def http_row (columns : List HttpColumn) (slot : TupleTableSlot) : Row :=
  columns.map (http_cell slot)

/-- Nothing is posted without rows. -/
def http_flush_insert (state : Buffered) : Buffered :=
  if state.rows = [] then state else state.flush

def http_insert_tuple (bytes : List Row → Nat) (columns : List HttpColumn) (state : Buffered) :
    Option TupleTableSlot → Buffered
  | some slot => insert_row bytes http_flush_insert state (http_row columns slot)
  | none => http_flush_insert state

/-- The rows, and the end of the input. -/
def http_insert (bytes : List Row → Nat) (columns : List HttpColumn)
    (slots : List TupleTableSlot) : Buffered :=
  let state := slots.foldl (fun state slot => http_insert_tuple bytes columns state (some slot))
    ⟨[], []⟩
  http_insert_tuple bytes columns state none

/-! ## The binary protocol -/

structure binary_insert_colmap where
  attnum : Nat
  atttypid : Oid
  deriving Repr, DecidableEq

/-- The column that no attribute has the name of. -/
structure ConversionError where
  chname : Bytes
  deriving Repr, DecidableEq

section

variable (indesc : List Form_pg_attribute) (column_name : Nat → Option Bytes)

/-- The descriptor has no names. -/
def positional : Bool :=
  match indesc with
  | [] => false
  | attin :: _ => attin.attname = []

/-- The first attribute of a name, from the attribute number on. -/
def match_attribute (chname : Bytes) : Nat → List Form_pg_attribute → Option binary_insert_colmap
  | _, [] => none
  | attnum, attin :: rest =>
      if attin.attisdropped then match_attribute chname (attnum + 1) rest
      else if chname = inname column_name attnum attin then some ⟨attnum, attin.atttypid⟩
      else match_attribute chname (attnum + 1) rest

/-- The attribute of column `i`, counted from zero. -/
def map_column (i : Nat) (chname : Bytes) : Option binary_insert_colmap :=
  if positional indesc then indesc[i]?.map fun attin => ⟨i + 1, attin.atttypid⟩
  else match_attribute column_name chname 1 indesc

/-- The loop over the columns of the server. -/
def build_insert_colmap : Nat → List Bytes → Except ConversionError (List binary_insert_colmap)
  | _, [] => .ok []
  | i, chname :: names =>
      match map_column indesc column_name i chname with
      | none => .error ⟨chname⟩
      | some m =>
          match build_insert_colmap (i + 1) names with
          | .error error => .error error
          | .ok colmap => .ok (m :: colmap)

end

def binary_cell (slot : TupleTableSlot) (m : binary_insert_colmap) : Cell :=
  ⟨slot m.attnum, m.atttypid⟩

def binary_row (colmap : List binary_insert_colmap) (slot : TupleTableSlot) : Row :=
  colmap.map (binary_cell slot)

structure binary_insert_state where
  colmap : Option (List binary_insert_colmap)
  writer : Buffered
  deriving Repr, DecidableEq

/-- A block is sent whether it has rows or not. -/
def ch_binary_flush_block (writer : Buffered) : Buffered := writer.flush

section

variable (bytes : List Row → Nat) (indesc : List Form_pg_attribute)
  (column_name : Nat → Option Bytes) (names : List Bytes)

/-- The mapping of the first row is kept. -/
def colmap_of (state : binary_insert_state) :
    Except ConversionError (List binary_insert_colmap) :=
  match state.colmap with
  | some colmap => .ok colmap
  | none => build_insert_colmap indesc column_name 0 names

def binary_insert_tuple (state : binary_insert_state) :
    Option TupleTableSlot → Except ConversionError binary_insert_state
  | some slot =>
      match colmap_of indesc column_name names state with
      | .error error => .error error
      | .ok colmap =>
          .ok ⟨some colmap,
            insert_row bytes ch_binary_flush_block state.writer (binary_row colmap slot)⟩
  | none => .ok { state with writer := ch_binary_flush_block state.writer }

/-- The rows, up to one that raises. -/
def binary_insert_tuples (state : binary_insert_state) :
    List TupleTableSlot → Except ConversionError binary_insert_state
  | [] => .ok state
  | slot :: slots =>
      match binary_insert_tuple bytes indesc column_name names state (some slot) with
      | .error error => .error error
      | .ok state => binary_insert_tuples state slots

/-- The rows, and the end of the input. -/
def binary_insert (slots : List TupleTableSlot) : Except ConversionError binary_insert_state :=
  match binary_insert_tuples bytes indesc column_name names ⟨none, ⟨[], []⟩⟩ slots with
  | .error error => .error error
  | .ok state => binary_insert_tuple bytes indesc column_name names state none

end

/-! ## What is sent -/

/-- The rows sent and the rows still in the writer, in order. -/
def Buffered.all (buffered : Buffered) : List Row := buffered.sent.flatten ++ buffered.rows

theorem Buffered.all_append (buffered : Buffered) (row : Row) :
    (buffered.append row).all = buffered.all ++ [row] := by
  unfold append all
  rw [List.append_assoc]

theorem Buffered.all_flush (buffered : Buffered) : buffered.flush.all = buffered.all := by
  unfold flush all
  rw [List.flatten_append, List.flatten_singleton, List.append_nil]

theorem http_flush_all (state : Buffered) :
    (http_flush_insert state).all = state.all ∧ (http_flush_insert state).rows = [] := by
  unfold http_flush_insert
  split
  · rename_i empty
    exact ⟨rfl, empty⟩
  · exact ⟨state.all_flush, rfl⟩

theorem insert_row_all (bytes : List Row → Nat) {flush : Buffered → Buffered}
    (keeps : ∀ buffered, (flush buffered).all = buffered.all) (buffered : Buffered) (row : Row) :
    (insert_row bytes flush buffered row).all = buffered.all ++ [row] := by
  unfold insert_row
  split
  · exact buffered.all_append row
  · rw [keeps, buffered.all_append]

/-- Over HTTP, what is sent in the end is what was appended. -/
theorem http_insert_sent (bytes : List Row → Nat) (columns : List HttpColumn)
    (slots : List TupleTableSlot) :
    (http_insert bytes columns slots).sent.flatten = slots.map (http_row columns) := by
  have run (state : Buffered) :
      (slots.foldl (fun state slot => http_insert_tuple bytes columns state (some slot))
        state).all = state.all ++ slots.map (http_row columns) := by
    induction slots generalizing state with
    | nil => rw [List.foldl_nil, List.map_nil, List.append_nil]
    | cons slot slots ih =>
        have one := insert_row_all bytes (fun state => (http_flush_all state).1) state
          (http_row columns slot)
        rw [List.foldl_cons, ih, http_insert_tuple, one, List.map_cons, List.append_assoc]
        rfl
  obtain ⟨kept, empty⟩ := http_flush_all
    (slots.foldl (fun state slot => http_insert_tuple bytes columns state (some slot)) ⟨[], []⟩)
  rw [run, Buffered.all, empty, List.append_nil] at kept
  exact kept

/-- No request is made without rows. -/
theorem http_insert_nonempty (bytes : List Row → Nat) (columns : List HttpColumn)
    (slots : List TupleTableSlot) : [] ∉ (http_insert bytes columns slots).sent := by
  have flush {state : Buffered} (before : [] ∉ state.sent) :
      [] ∉ (http_flush_insert state).sent := by
    unfold http_flush_insert
    split
    · exact before
    · rename_i rows
      intro member
      rcases List.mem_append.mp member with old | new
      · exact before old
      · exact rows (List.mem_singleton.mp new).symm
  have one {state : Buffered} (before : [] ∉ state.sent) (slot : TupleTableSlot) :
      [] ∉ (http_insert_tuple bytes columns state (some slot)).sent := by
    change [] ∉ (insert_row bytes http_flush_insert state (http_row columns slot)).sent
    unfold insert_row
    split
    · exact before
    · exact flush before
  have run {state : Buffered} (before : [] ∉ state.sent) :
      [] ∉ (slots.foldl (fun state slot => http_insert_tuple bytes columns state (some slot))
        state).sent := by
    induction slots generalizing state with
    | nil => exact before
    | cons slot slots ih => exact ih (one before slot)
  exact flush (run (by simp))

section

variable {bytes : List Row → Nat} {indesc : List Form_pg_attribute}
  {column_name : Nat → Option Bytes} {names : List Bytes}

/-- Once the mapping is there, it is that of every row. -/
theorem binary_insert_tuples_all {colmap : List binary_insert_colmap}
    {state after : binary_insert_state} {slots : List TupleTableSlot}
    (mapped : colmap_of indesc column_name names state = .ok colmap)
    (done : binary_insert_tuples bytes indesc column_name names state slots = .ok after) :
    after.writer.all = state.writer.all ++ slots.map (binary_row colmap) := by
  induction slots generalizing state with
  | nil =>
      rw [binary_insert_tuples, Except.ok.injEq] at done
      rw [done, List.map_nil, List.append_nil]
  | cons slot slots ih =>
      rw [binary_insert_tuples, binary_insert_tuple, mapped] at done
      have row := insert_row_all bytes Buffered.all_flush state.writer
        (binary_row colmap slot)
      rw [ih rfl done, List.map_cons]
      change (insert_row bytes Buffered.flush _ _).all ++ _ = _
      rw [row, List.append_assoc]
      rfl

/-- Over the binary protocol, what is sent in the end is what was appended, and without a row
there is only a block without rows. -/
theorem binary_insert_sent {after : binary_insert_state} {slots : List TupleTableSlot}
    (done : binary_insert bytes indesc column_name names slots = .ok after) :
    (slots = [] → after.writer.sent.flatten = []) ∧
      (slots ≠ [] → ∃ colmap, build_insert_colmap indesc column_name 0 names = .ok colmap ∧
        after.writer.sent.flatten = slots.map (binary_row colmap)) := by
  unfold binary_insert at done
  cases ran : binary_insert_tuples bytes indesc column_name names ⟨none, ⟨[], []⟩⟩ slots with
  | error error =>
      rw [ran] at done
      cases done
  | ok state =>
      rw [ran] at done
      simp only [binary_insert_tuple, Except.ok.injEq] at done
      subst done
      have sent : (ch_binary_flush_block state.writer).sent.flatten = state.writer.all := by
        rw [← state.writer.all_flush, Buffered.all, ch_binary_flush_block]
        exact (List.append_nil _).symm
      refine ⟨fun empty => ?_, fun rows => ?_⟩
      · rw [empty, binary_insert_tuples, Except.ok.injEq] at ran
        rw [sent, ← ran]
        rfl
      · cases built : build_insert_colmap indesc column_name 0 names with
        | error error =>
            cases slots with
            | nil => exact absurd rfl rows
            | cons slot slots =>
                rw [binary_insert_tuples, binary_insert_tuple, colmap_of, built] at ran
                cases ran
        | ok colmap =>
            refine ⟨colmap, rfl, ?_⟩
            have start : colmap_of indesc column_name names ⟨none, ⟨[], []⟩⟩ = .ok colmap := built
            rw [sent, binary_insert_tuples_all start ran]
            rfl

end

/-! ## Which attribute a column gets -/

/-- The attribute of the column's own name, or of its position. -/
def Feeds (indesc : List Form_pg_attribute) (column_name : Nat → Option Bytes) (i : Nat)
    (name : Bytes) (m : binary_insert_colmap) : Prop :=
  ∃ attin, indesc[m.attnum - 1]? = some attin ∧ m.atttypid = attin.atttypid ∧ 0 < m.attnum ∧
    if positional indesc then m.attnum = i + 1
    else attin.attisdropped = false ∧ inname column_name m.attnum attin = name

theorem match_attribute_spec {column_name : Nat → Option Bytes} {name : Bytes} {attnum : Nat}
    {attributes : List Form_pg_attribute} {m : binary_insert_colmap}
    (found : match_attribute column_name name attnum attributes = some m) :
    ∃ j attin, m.attnum = attnum + j ∧ attributes[j]? = some attin ∧
      m.atttypid = attin.atttypid ∧ attin.attisdropped = false ∧
      inname column_name m.attnum attin = name := by
  induction attributes generalizing attnum with
  | nil => cases found
  | cons attin rest ih =>
      have later (found : match_attribute column_name name (attnum + 1) rest = some m) :
          ∃ j attin', m.attnum = attnum + j ∧ (attin :: rest)[j]? = some attin' ∧
            m.atttypid = attin'.atttypid ∧ attin'.attisdropped = false ∧
            inname column_name m.attnum attin' = name := by
        obtain ⟨j, attin', number, present, shape⟩ := ih found
        refine ⟨j + 1, attin', ?_, ?_, shape⟩
        · omega
        · rw [List.getElem?_cons_succ, present]
      unfold match_attribute at found
      split at found
      · exact later found
      · rename_i kept
        split at found
        · rename_i same
          rw [Option.some.injEq] at found
          subst found
          exact ⟨0, attin, rfl, rfl, rfl, by simpa using kept, same.symm⟩
        · exact later found

theorem map_column_spec {indesc : List Form_pg_attribute} {column_name : Nat → Option Bytes}
    {i : Nat} {name : Bytes} {m : binary_insert_colmap}
    (found : map_column indesc column_name i name = some m) :
    Feeds indesc column_name i name m := by
  unfold map_column at found
  unfold Feeds
  split at found
  · rename_i nameless
    rcases present : indesc[i]? with _ | attin
    · rw [present] at found
      cases found
    · rw [present, Option.map_some, Option.some.injEq] at found
      subst found
      refine ⟨attin, present, rfl, Nat.succ_pos i, ?_⟩
      rw [if_pos nameless]
  · rename_i named
    obtain ⟨j, attin, number, present, type, kept, same⟩ := match_attribute_spec found
    refine ⟨attin, ?_, type, by omega, ?_⟩
    · rw [number, Nat.add_sub_cancel_left, present]
    · rw [if_neg named]
      exact ⟨kept, same⟩

/-- Every column has its attribute. -/
theorem build_insert_colmap_spec {indesc : List Form_pg_attribute}
    {column_name : Nat → Option Bytes} {start : Nat} {names : List Bytes}
    {colmap : List binary_insert_colmap}
    (built : build_insert_colmap indesc column_name start names = .ok colmap) :
    colmap.length = names.length ∧ ∀ i name m, names[i]? = some name → colmap[i]? = some m →
      Feeds indesc column_name (start + i) name m := by
  induction names generalizing start colmap with
  | nil =>
      rw [build_insert_colmap, Except.ok.injEq] at built
      subst built
      exact ⟨rfl, fun i name m present => by simp at present⟩
  | cons chname names ih =>
      unfold build_insert_colmap at built
      split at built
      · cases built
      · rename_i m found
        split at built
        · cases built
        · rename_i rest later
          rw [Except.ok.injEq] at built
          subst built
          obtain ⟨length, feeds⟩ := ih later
          refine ⟨by rw [List.length_cons, List.length_cons, length], ?_⟩
          intro i name m' named mapped
          cases i with
          | zero =>
              rw [List.getElem?_cons_zero, Option.some.injEq] at named mapped
              subst named mapped
              exact map_column_spec found
          | succ i =>
              rw [List.getElem?_cons_succ] at named mapped
              have feed := feeds i name m' named mapped
              rwa [Nat.add_right_comm] at feed

/-- No attribute is there for the column. -/
def Unfed (indesc : List Form_pg_attribute) (column_name : Nat → Option Bytes) (i : Nat)
    (name : Bytes) : Prop :=
  if positional indesc then indesc.length ≤ i
  else ∀ j attin, indesc[j]? = some attin → attin.attisdropped = false →
    inname column_name (j + 1) attin ≠ name

theorem match_attribute_none {column_name : Nat → Option Bytes} {name : Bytes} {attnum : Nat}
    {attributes : List Form_pg_attribute}
    (missing : match_attribute column_name name attnum attributes = none) {j : Nat}
    {attin : Form_pg_attribute} (present : attributes[j]? = some attin)
    (kept : attin.attisdropped = false) : inname column_name (attnum + j) attin ≠ name := by
  induction attributes generalizing attnum j with
  | nil => simp at present
  | cons first rest ih =>
      unfold match_attribute at missing
      cases j with
      | zero =>
          rw [List.getElem?_cons_zero, Option.some.injEq] at present
          subst present
          rw [kept, if_neg Bool.false_ne_true] at missing
          split at missing
          · cases missing
          · rename_i other
            exact fun same => other same.symm
      | succ j =>
          rw [List.getElem?_cons_succ] at present
          have later : match_attribute column_name name (attnum + 1) rest = none := by
            split at missing
            · exact missing
            · split at missing
              · cases missing
              · exact missing
          have apart := ih later present
          rwa [Nat.add_right_comm, Nat.add_assoc] at apart

theorem map_column_none {indesc : List Form_pg_attribute} {column_name : Nat → Option Bytes}
    {i : Nat} {name : Bytes} (missing : map_column indesc column_name i name = none) :
    Unfed indesc column_name i name := by
  unfold map_column at missing
  unfold Unfed
  split at missing
  · rename_i nameless
    rw [if_pos nameless]
    rwa [Option.map_eq_none_iff, List.getElem?_eq_none_iff] at missing
  · rename_i named
    rw [if_neg named]
    intro j attin present kept
    have apart := match_attribute_none missing present kept
    rwa [Nat.add_comm] at apart

theorem build_insert_colmap_error {indesc : List Form_pg_attribute}
    {column_name : Nat → Option Bytes} {start : Nat} {names : List Bytes} {error : ConversionError}
    (raised : build_insert_colmap indesc column_name start names = .error error) :
    ∃ i, names[i]? = some error.chname ∧ Unfed indesc column_name (start + i) error.chname := by
  induction names generalizing start with
  | nil => cases raised
  | cons chname names ih =>
      unfold build_insert_colmap at raised
      split at raised
      · rename_i missing
        rw [Except.error.injEq] at raised
        subst raised
        exact ⟨0, rfl, map_column_none missing⟩
      · split at raised
        · rename_i later
          rw [Except.error.injEq] at raised
          subst raised
          obtain ⟨i, named, unfed⟩ := ih later
          refine ⟨i + 1, by rwa [List.getElem?_cons_succ], ?_⟩
          rwa [Nat.add_right_comm] at unfed
        · cases raised

/-- The columns of a request are named after the attributes that feed them. -/
theorem http_columns_spec {tupdesc : List Form_pg_attribute} {column_name : Nat → Option Bytes}
    {kinds : Nat → chc_kind} {target_attrs : List Nat} {columns : List HttpColumn}
    (set_up : http_columns tupdesc column_name kinds target_attrs = some columns) :
    ∀ column ∈ columns, ∃ attr, tupdesc[column.attnum - 1]? = some attr ∧
      column.atttypid = attr.atttypid ∧ column.name = inname column_name column.attnum attr := by
  induction target_attrs generalizing columns with
  | nil =>
      have empty : columns = [] := by simpa [http_columns] using set_up.symm
      intro column member
      rw [empty] at member
      cases member
  | cons attnum target_attrs ih =>
      simp only [http_columns, List.mapM_cons, Option.bind_eq_bind, Option.bind_eq_some_iff,
        Option.map_eq_some_iff, Option.pure_def, Option.some.injEq] at set_up
      obtain ⟨first, ⟨attr, present, shape⟩, rest, later, split⟩ := set_up
      subst split shape
      intro column member
      rcases List.mem_cons.mp member with rfl | member
      · exact ⟨attr, present, rfl, rfl⟩
      · exact ih later column member

section

variable {bytes : List Row → Nat} {indesc : List Form_pg_attribute}
  {column_name : Nat → Option Bytes} {names : List Bytes}

/-- With a mapping, no row raises. -/
theorem binary_insert_tuples_ok {colmap : List binary_insert_colmap}
    {state : binary_insert_state} (slots : List TupleTableSlot)
    (mapped : colmap_of indesc column_name names state = .ok colmap) :
    ∃ after, binary_insert_tuples bytes indesc column_name names state slots = .ok after := by
  induction slots generalizing state with
  | nil => exact ⟨state, rfl⟩
  | cons slot slots ih =>
      rw [binary_insert_tuples, binary_insert_tuple, mapped]
      exact ih rfl

/-- The error is that of the mapping, which is made for the first row. -/
theorem binary_insert_error {error : ConversionError} {slots : List TupleTableSlot}
    (raised : binary_insert bytes indesc column_name names slots = .error error) :
    build_insert_colmap indesc column_name 0 names = .error error := by
  unfold binary_insert at raised
  cases built : build_insert_colmap indesc column_name 0 names with
  | ok colmap =>
      have start : colmap_of indesc column_name names ⟨none, ⟨[], []⟩⟩ = .ok colmap := built
      obtain ⟨after, ran⟩ : ∃ after, binary_insert_tuples bytes indesc column_name names
          ⟨none, ⟨[], []⟩⟩ slots = .ok after := binary_insert_tuples_ok slots start
      rw [ran] at raised
      cases raised
  | error first =>
      cases slots with
      | nil => cases raised
      | cons slot slots =>
          rw [binary_insert_tuples, binary_insert_tuple, colmap_of, built] at raised
          cases raised
          rfl

end

/-! ## Both drivers -/

/-- Every column has the name of the attribute that feeds it. -/
def Named (indesc : List Form_pg_attribute) (column_name : Nat → Option Bytes)
    (names : List Bytes) (colmap : List binary_insert_colmap) : Prop :=
  ∀ (i : Nat) (name : Bytes) (m : binary_insert_colmap), names[i]? = some name →
    colmap[i]? = some m → ∃ attin, indesc[m.attnum - 1]? = some attin ∧
        inname column_name m.attnum attin = name

/-- On either driver the rows sent are the rows appended, in order, and without rows none are
sent.  A column of a request is named after the attribute that feeds it; a column of the
binary protocol gets the attribute of its name, or that of its position where the descriptor
has no names, and the first row raises for a column that has neither. -/
theorem insert_rows (bytes : List Row → Nat) (column_name : Nat → Option Bytes)
    (slots : List TupleTableSlot) :
    (∀ tupdesc kinds target_attrs columns,
      http_columns tupdesc column_name kinds target_attrs = some columns →
      (http_insert bytes columns slots).sent.flatten = slots.map (http_row columns) ∧
      (slots = [] → (http_insert bytes columns slots).sent = []) ∧
      ∀ column ∈ columns, ∃ attr, tupdesc[column.attnum - 1]? = some attr ∧
        column.atttypid = attr.atttypid ∧
        column.name = inname column_name column.attnum attr) ∧
    ∀ indesc names,
      match binary_insert bytes indesc column_name names slots with
      | .error error => ∃ i, names[i]? = some error.chname ∧
          Unfed indesc column_name i error.chname
      | .ok after =>
          (slots = [] → after.writer.sent.flatten = []) ∧
          (slots ≠ [] → ∃ colmap : List binary_insert_colmap,
            after.writer.sent.flatten = slots.map (binary_row colmap) ∧
            colmap.length = names.length ∧
            ∀ i name m, names[i]? = some name → colmap[i]? = some m →
              Feeds indesc column_name i name m) := by
  refine ⟨?_, fun indesc names => ?_⟩
  · intro tupdesc kinds target_attrs columns set_up
    refine ⟨http_insert_sent bytes columns slots, ?_, http_columns_spec set_up⟩
    intro empty
    rw [empty]
    rfl
  · split
    · rename_i error raised
      obtain ⟨i, named, unfed⟩ := build_insert_colmap_error (binary_insert_error raised)
      rw [Nat.zero_add] at unfed
      exact ⟨i, named, unfed⟩
    · rename_i after done
      obtain ⟨none_sent, all_sent⟩ := binary_insert_sent done
      refine ⟨none_sent, fun rows => ?_⟩
      obtain ⟨colmap, built, sent⟩ := all_sent rows
      obtain ⟨length, feeds⟩ := build_insert_colmap_spec built
      simp only [Nat.zero_add] at feeds
      exact ⟨colmap, sent, length, feeds⟩

/-- A table of one column, whose name differs from that of the attribute. -/
theorem insert_rows_renamed :
    (http_insert (fun _ => 0) [⟨ascii "ID", .other, 1, 23⟩] [fun _ => some 7]).sent.flatten =
      [[⟨some 7, 23⟩]] := by
  have columns : http_columns [⟨ascii "id", false, 23⟩] (fun _ => some (ascii "ID"))
      (fun _ => .other) [1] = some [⟨ascii "ID", .other, 1, 23⟩] := rfl
  exact ((insert_rows (fun _ => 0) (fun _ => some (ascii "ID")) [fun _ => some 7]).1 _ _ _ _
    columns).1

/-- Attributes without names are taken by position, whatever the columns are called. -/
theorem not_named :
    ¬ ∀ indesc column_name names colmap,
      build_insert_colmap indesc column_name 0 names = .ok colmap →
        Named indesc column_name names colmap := by
  intro named
  have mapped : build_insert_colmap [⟨[], false, 23⟩] (fun _ => none) 0 [ascii "id"] =
      .ok [⟨1, 23⟩] := rfl
  have first := named _ _ _ _ mapped
  unfold Named at first
  obtain ⟨attin, present, same⟩ := first 0 (ascii "id") ⟨1, 23⟩ rfl rfl
  cases present
  exact absurd same (by decide)

end PgClickhouse.InsertRows

import PgClickhouse.Leases
import PgClickhouse.ParamDelivery

/-!
# Foreign scans

The executor begins a scan of a foreign table, asks for its rows one by one, restarts it with
other parameters, and ends it, or drops its memory after an error.  Scans are nested in one
another, so the calls of several scans interleave.  `ClickHouse` answers one query at a time on
a connection.

The reader of a response is a parameter: what it puts into a tuple is promised by `Reader`.

* `sends_alone`: whatever the order of calls, the connection of a scan is open and is no other
  scan's, so a query is sent only where no other response is still open.
* `rows_replayed`: between two restarts a scan sends one query, with the parameters of its first
  call, and returns the rows of the answer in order, each under the attributes it was asked
  for.
-/

namespace PgClickhouse.ForeignScan

open Connection (Backend ch_lease ch_scan_connection UserMapping)

/-! ## Responses -/

/-- A response: the rows `pgch_reader_next` finds in turn, `none` where it fails. -/
structure Response (α : Type) where
  columns : Nat
  rows : List (Option (List (Option α)))
  width : ∀ values, some values ∈ rows → values.length = columns

/-- `pgch_reader_fill_map`.  Given the type oids of the attributes, `fill_map` puts the columns of a
row into the slots `dest` says, and `convert` is what it makes of a value for a type; both may
raise. -/
structure Reader (α β : Type) where
  convert : Nat → α → Option β
  fill_map : (Nat → Nat) → List Nat → List (Option α) → List (Option β) →
    Option (List (Option β))
  length : ∀ {atttypid : Nat → Nat} {dest : List Nat} {row : List (Option α)}
    {slots filled : List (Option β)},
    fill_map atttypid dest row slots = some filled → filled.length = slots.length
  filled : ∀ {atttypid : Nat → Nat} {dest : List Nat} {row : List (Option α)}
    {slots filled : List (Option β)},
    fill_map atttypid dest row slots = some filled → dest.Nodup →
      ∀ {j d : Nat} {value : Option α}, dest[j]? = some d → row[j]? = some value →
        d < slots.length → ∃ slot, filled[d]? = some slot ∧
          slot = value.bind (convert (atttypid (d + 1))) ∧ (value.isSome → slot.isSome)
  others : ∀ {atttypid : Nat → Nat} {dest : List Nat} {row : List (Option α)}
    {slots filled : List (Option β)},
    fill_map atttypid dest row slots = some filled → ∀ {d : Nat}, d ∉ dest →
      filled[d]? = slots[d]?

/-- What the plan of a scan says.  `param_exprs` are the values of the parameters in a context,
`none` if an expression raises.  Attributes are numbered from 1. -/
structure Plan (ε : Type) where
  query : Bytes
  retrieved_attrs : List Nat
  natts : Nat
  atttypid : Nat → Nat
  settings : kv_list
  numParams : Nat
  param_exprs : ε → Option ParamValues
  counted : ∀ {econtext values}, param_exprs econtext = some values →
    values.val.length = numParams
  inside : ∀ attnum ∈ retrieved_attrs, 1 ≤ attnum ∧ attnum ≤ natts
  distinct : retrieved_attrs.Nodup

variable {α β ε : Type}

/-- A cursor reads on behind the rows it has read.  `fill_dest` is made for the first row. -/
structure ch_cursor (α : Type) where
  response : Response α
  rest : List (Option (List (Option α)))
  fill_dest : Option (List Nat)

structure ChFdwScanState (α ε : Type) where
  plan : Plan ε
  scan_conn : ch_scan_connection
  param_values : List (Option Bytes)
  ch_cursor : Option (ch_cursor α)

/-- The result of a call, `none` if it raises. -/
abbrev Result (β : Type) := Option (Option (List (Option β)))

/-- `clickhouseBeginForeignScan`, once there is a connection. -/
def clickhouseBeginForeignScan (plan : Plan ε) (scan_conn : ch_scan_connection) :
    ChFdwScanState α ε where
  plan := plan
  scan_conn := scan_conn
  param_values := List.replicate plan.numParams none
  ch_cursor := none

/-- `chfdw_cursor_open` with `configure_columns`. -/
def chfdw_cursor_open (plan : Plan ε) (response : Response α) : Option (ch_cursor α) :=
  if plan.retrieved_attrs ≠ [] ∧ response.columns > 0 ∧
      plan.retrieved_attrs.length ≠ response.columns then none
  else some ⟨response, response.rows, none⟩

/-- The query.  It points to the array of parameters, which is filled before it is sent. -/
def new_query (plan : Plan ε) (param_values : List (Option Bytes)) : ch_query where
  sql := plan.query
  param_values := param_values
  settings := plan.settings
  body := none

variable (reader : Reader α β)

/-- `apply_row`, with the conversions `build_conversion` sets up for the first row. -/
def apply_row (plan : Plan ε) (cursor : ch_cursor α) (row : List (Option α)) :
    Option (List (Option β)) × ch_cursor α :=
  let nulls := List.replicate plan.natts none
  if plan.retrieved_attrs.length = 0 then
    if cursor.response.columns = 1 ∧ row[0]?.any Option.isNone then (some nulls, cursor)
    else (none, cursor)
  else if plan.retrieved_attrs.length ≠ cursor.response.columns then (none, cursor)
  else
    let dest := cursor.fill_dest.getD (plan.retrieved_attrs.map fun attnum => attnum - 1)
    (reader.fill_map plan.atttypid dest row nulls, { cursor with fill_dest := some dest })

/-- `fetch_tuple` with `chfdw_cursor_fetch_row`. -/
def fetch_tuple (s : ChFdwScanState α ε) (cursor : ch_cursor α) :
    Result β × ChFdwScanState α ε :=
  match cursor.rest with
  | [] => (some none, s)
  | none :: _ => (none, s)
  | some row :: rest =>
      let (tuple, cursor) := apply_row reader s.plan { cursor with rest } row
      (tuple.map some, { s with ch_cursor := some cursor })

/-- What a call does: what it returns, and the query it sends. -/
structure Called (α β ε : Type) where
  result : Result β
  state : ChFdwScanState α ε
  sent : Option ch_query

/-- `clickhouseIterateForeignScan`.  The answer to a query is `none` if the driver raises. -/
def clickhouseIterateForeignScan (s : ChFdwScanState α ε) (econtext : ε) (interrupted : Bool)
    (answer : Option (Response α)) : Called α β ε :=
  if interrupted then ⟨none, s, none⟩
  else
    match s.ch_cursor with
    | some cursor =>
        let (result, s) := fetch_tuple reader s cursor
        ⟨result, s, none⟩
    | none =>
        let evaluated :=
          if s.plan.numParams > 0 then (s.plan.param_exprs econtext).map process_query_params
          else some s.param_values
        match evaluated with
        | none => ⟨none, s, none⟩
        | some param_values =>
            let s := { s with param_values }
            let query := new_query s.plan param_values
            match answer.bind (chfdw_cursor_open s.plan) with
            | none => ⟨none, s, some query⟩
            | some cursor =>
                let (result, s) := fetch_tuple reader { s with ch_cursor := some cursor } cursor
                ⟨result, s, some query⟩

/-- `clickhouseReScanForeignScan` closes the cursor and keeps the connection. -/
def clickhouseReScanForeignScan (s : ChFdwScanState α ε) : ChFdwScanState α ε :=
  { s with ch_cursor := none }

/-! ## The executor -/

/-- A scan that is open.  `failed` says that a call has raised; `sent` are the queries it has
sent since it was begun or restarted, with their answers and the contexts of the calls, and
`returned` what its calls have returned since. -/
structure Scan (α β ε : Type) where
  state : ChFdwScanState α ε
  failed : Bool
  sent : List (ε × ch_query × Option (Response α))
  returned : List (Option (List (Option β)))

/-- A backend and the scans of its executor, by their nodes. -/
structure Executor (α β ε : Type) where
  backend : Backend
  scans : Nat → Option (Scan α β ε)

inductive Event (α ε : Type)
  | begin_scan (node : Nat) (plan : Plan ε) (user : UserMapping) (attempt second : Option Nat)
  | iterate (node : Nat) (econtext : ε) (interrupted : Bool) (answer : Option (Response α))
  | rescan (node : Nat)
  | end_scan (node : Nat)
  /-- After an error, or when a cursor is closed early, the memory of the scan goes. -/
  | drop (node : Nat)
  /-- What the rest of the backend does to the connections. -/
  | other (event : Connection.Event)

/-- A scan after a call. -/
def Scan.iterated (scan : Scan α β ε) (econtext : ε) (interrupted : Bool)
    (answer : Option (Response α)) : Scan α β ε :=
  let called := clickhouseIterateForeignScan reader scan.state econtext interrupted answer
  { state := called.state
    failed := called.result.isNone
    sent := scan.sent ++ called.sent.toList.map fun query => (econtext, query, answer)
    returned := scan.returned ++ called.result.toList }

/-- The lease of a scan. -/
def Scan.lease (scan : Scan α β ε) : Option Nat := scan.state.scan_conn.lease

namespace Executor

variable (x : Executor α β ε)

def put (node : Nat) (scan : Option (Scan α β ε)) : Executor α β ε :=
  { x with scans := Function.update x.scans node scan }

/-- The rest of the backend does not touch the leases of open scans, and transactions end
after the scans. -/
def Foreign (event : Connection.Event) : Prop :=
  match event with
  | .release sconn => ∀ node scan, x.scans node = some scan → scan.lease ≠ sconn.lease
  | .reset lease => ∀ node scan, x.scans node = some scan → scan.lease ≠ some lease
  | .xact event => event.ends = true → ∀ node, x.scans node = none
  | _ => True

end Executor

variable (hash : Connection.CacheId → Nat → Nat)

/-- What the code does at an event. -/
inductive Step : Executor α β ε → Event α ε → Executor α β ε → Prop
  | begin_scan {x : Executor α β ε} {node : Nat} {plan : Plan ε} {user : UserMapping}
      {attempt second : Option Nat} {lease : ch_lease} {st : Backend} :
      x.scans node = none →
      Connection.Enabled hash x.backend (.acquire user attempt second) →
      x.backend.apply hash (.acquire user attempt second) = st →
      st.leases[x.backend.leases.length]? = some lease →
      Step x (.begin_scan node plan user attempt second) (Executor.put ⟨st, x.scans⟩ node
        (some ⟨clickhouseBeginForeignScan plan lease.sconn, false, [], []⟩))
  /-- No connection: the error leaves no scan. -/
  | unconnected {x : Executor α β ε} {node : Nat} {plan : Plan ε} {user : UserMapping}
      {attempt second : Option Nat} {st : Backend} :
      x.scans node = none →
      Connection.Enabled hash x.backend (.acquire user attempt second) →
      x.backend.apply hash (.acquire user attempt second) = st →
      st.leases[x.backend.leases.length]? = none →
      Step x (.begin_scan node plan user attempt second) ⟨st, x.scans⟩
  | iterate {x : Executor α β ε} {node : Nat} {econtext : ε} {interrupted : Bool}
      {answer : Option (Response α)} {scan : Scan α β ε} :
      x.scans node = some scan → scan.failed = false →
      Step x (.iterate node econtext interrupted answer)
        (x.put node (some (scan.iterated reader econtext interrupted answer)))
  | rescan {x : Executor α β ε} {node : Nat} {scan : Scan α β ε} :
      x.scans node = some scan → scan.failed = false →
      Step x (.rescan node)
        (x.put node (some ⟨clickhouseReScanForeignScan scan.state, false, [], []⟩))
  | end_scan {x : Executor α β ε} {node : Nat} {scan : Scan α β ε} :
      x.scans node = some scan → scan.failed = false →
      Step x (.end_scan node) (Executor.put
        ⟨x.backend.chfdw_release_scan_connection scan.state.scan_conn, x.scans⟩ node none)
  /-- The context of the lease is reset after the cursors in it. -/
  | drop {x : Executor α β ε} {node lease : Nat} {scan : Scan α β ε} :
      x.scans node = some scan → scan.lease = some lease →
      Step x (.drop node) (Executor.put ⟨x.backend.release_lease lease, x.scans⟩ node none)
  | other {x : Executor α β ε} {event : Connection.Event} :
      Connection.Enabled hash x.backend event → x.Foreign event →
      Step x (.other event) ⟨x.backend.apply hash event, x.scans⟩

/-- No scan is open in a new backend. -/
def start (x : Executor α β ε) : Prop :=
  x.backend = Backend.initial ∧ ∀ node, x.scans node = none

abbrev Reachable : Executor α β ε → Prop :=
  Runs.Reachable start (Step reader hash)

/-! ## Leases of open scans -/

section

variable {st : Backend} {i j : Nat} {lease : ch_lease} {user : UserMapping}
  {attempt second : Option Nat} {hash : Connection.CacheId → Nat → Nat}

theorem leases_close_if (st : Backend) (umid : Nat)
    (stale : Connection.ConnCacheEntry → Connection.ch_connection → Bool) :
    (st.close_if umid stale).leases = st.leases ∧
      (st.close_if umid stale).lease_generation = st.lease_generation := by
  unfold Backend.close_if
  dsimp only
  split
  · exact ⟨rfl, rfl⟩
  · split
    · exact ⟨rfl, rfl⟩
    · exact ⟨rfl, rfl⟩

variable (user attempt hash) in
theorem leases_get_connection_entry (st : Backend) :
    (st.get_connection_entry hash user attempt).1.leases = st.leases ∧
      (st.get_connection_entry hash user attempt).1.lease_generation = st.lease_generation := by
  obtain ⟨first, generation⟩ := leases_close_if st user.umid (fun entry _ => entry.invalidated)
  obtain ⟨second, generation'⟩ := leases_close_if
    (st.close_if user.umid (fun entry _ => entry.invalidated)) user.umid
    (fun _ c => decide (c.serial ∈ st.broken))
  have closed : (st.close_stale user.umid).leases = st.leases ∧
      (st.close_stale user.umid).lease_generation = st.lease_generation :=
    ⟨second.trans first, generation'.trans generation⟩
  unfold Backend.get_connection_entry
  dsimp only
  split
  · exact closed
  · split
    · exact closed
    · exact closed

/-- A lease that was just made. -/
structure Made (st : Backend) (lease : ch_lease) : Prop where
  place : lease.sconn.lease = some st.leases.length
  generation : lease.generation = st.lease_generation
  released : lease.released = false
  freed : lease.freed = false

variable (user attempt second hash) in
/-- An acquisition makes one lease at most, at the end of the list. -/
theorem leases_acquire (st : Backend) :
    ((st.chfdw_get_scan_connection hash user attempt second).leases = st.leases ∨
      ∃ lease, Made st lease ∧
        (st.chfdw_get_scan_connection hash user attempt second).leases = st.leases ++ [lease]) ∧
    (st.chfdw_get_scan_connection hash user attempt second).lease_generation =
      st.lease_generation := by
  obtain ⟨leases, generation⟩ := leases_get_connection_entry user attempt hash st
  have made (sconn : Option Connection.ch_connection) (entry : Option Nat) : Made st
      ⟨⟨sconn, entry, some (st.get_connection_entry hash user attempt).1.leases.length⟩,
        (st.get_connection_entry hash user attempt).1.lease_generation, false, false⟩ :=
    ⟨congrArg (fun l => some l.length) leases, generation, rfl, rfl⟩
  unfold Backend.chfdw_get_scan_connection
  dsimp only
  split
  · exact ⟨.inl leases, generation⟩
  · split
    · exact ⟨.inr ⟨_, made _ _, congrArg (· ++ _) leases⟩, generation⟩
    · split
      · exact ⟨.inl leases, generation⟩
      · exact ⟨.inr ⟨_, made _ _, congrArg (· ++ _) leases⟩, generation⟩

theorem live_of_leases {st' : Backend} (live : st.Live i lease)
    (leases : st'.leases = st.leases) (generation : st'.lease_generation = st.lease_generation) :
    st'.Live i lease := by
  rw [Backend.Live, leases, generation]
  exact live

theorem live_acquire (live : st.Live i lease) :
    (st.chfdw_get_scan_connection hash user attempt second).Live i lease := by
  obtain ⟨leases, generation⟩ := leases_acquire user attempt second hash st
  rcases leases with leases | ⟨made, -, leases⟩
  · exact live_of_leases live leases generation
  · obtain ⟨found, unreleased, current⟩ := live
    refine ⟨?_, unreleased, current.trans generation.symm⟩
    rw [leases, List.getElem?_append_left (List.getElem?_eq_some_iff.mp found).1]
    exact found

/-- The lease an acquisition made is live. -/
theorem live_acquired
    (found : (st.chfdw_get_scan_connection hash user attempt second).leases[st.leases.length]? =
      some lease) :
    Made st lease ∧ (st.chfdw_get_scan_connection hash user attempt second).Live
      st.leases.length lease := by
  obtain ⟨leases, generation⟩ := leases_acquire user attempt second hash st
  rcases leases with leases | ⟨made, fields, leases⟩
  · rw [leases, List.getElem?_eq_none (Nat.le_refl _)] at found
    exact nomatch found
  · have same : made = lease := by
      rw [leases, List.getElem?_concat_length] at found
      exact Option.some.inj found
    subst same
    exact ⟨fields, found, fields.released, fields.generation.trans generation.symm⟩

/-- A lease ends with no other one. -/
theorem live_release_lease (h : Connection.Inv st) (live : st.Live i lease)
    {other : ch_lease} (found : st.leases[j]? = some other) (differ : i ≠ j) :
    (st.release_lease j).Live i lease := by
  have freed {st : Backend} (live : st.Live i lease) : (st.free j).Live i lease := by
    obtain ⟨found, rest⟩ := live
    refine ⟨?_, rest⟩
    rw [Backend.free]
    dsimp only
    rw [List.getElem?_modify_ne _ _ (Ne.symm differ)]
    exact found
  unfold Backend.release_lease
  rw [found]
  dsimp only
  split
  · exact freed (Connection.live_release h found live differ)
  · exact freed live

end

variable {x x' : Executor α β ε} {event : Event α ε} {node node' : Nat} {scan scan' : Scan α β ε}
  {reader : Reader α β} {hash : Connection.CacheId → Nat → Nat}

/-- Every open scan has a lease of its own. -/
structure Owns (x : Executor α β ε) : Prop where
  leased : ∀ {node scan}, x.scans node = some scan → ∃ i lease, scan.lease = some i ∧
    x.backend.Live i lease ∧ lease.sconn = scan.state.scan_conn ∧ lease.freed = false
  apart : ∀ {node node' scan scan'}, x.scans node = some scan → x.scans node' = some scan' →
    scan.lease = scan'.lease → node = node'

/-- The other scans keep their leases when one goes. -/
theorem Owns.without {st : Backend} (owns : Owns x) (node : Nat)
    (kept : ∀ {node' scan i lease}, node' ≠ node → x.scans node' = some scan →
      scan.lease = some i → x.backend.Live i lease → st.Live i lease) :
    Owns (Executor.put ⟨st, x.scans⟩ node none) where
  leased := by
    intro node' scan there
    rw [Executor.put] at there
    dsimp only at there
    rcases eq_or_ne node' node with rfl | differ
    · rw [Function.update_self] at there
      exact nomatch there
    · rw [Function.update_of_ne differ] at there
      obtain ⟨i, lease, own, live, rest⟩ := owns.leased there
      exact ⟨i, lease, own, kept differ there own live, rest⟩
  apart := by
    intro node₁ node₂ scan₁ scan₂ first second same
    rw [Executor.put] at first second
    dsimp only at first second
    rcases eq_or_ne node₁ node with rfl | differ₁
    · rw [Function.update_self] at first
      exact nomatch first
    rcases eq_or_ne node₂ node with rfl | differ₂
    · rw [Function.update_self] at second
      exact nomatch second
    rw [Function.update_of_ne differ₁] at first
    rw [Function.update_of_ne differ₂] at second
    exact owns.apart first second same

theorem Owns.kept {st : Backend} (owns : Owns x)
    (kept : ∀ {node scan i lease}, x.scans node = some scan → scan.lease = some i →
      x.backend.Live i lease → st.Live i lease) : Owns ⟨st, x.scans⟩ where
  leased := by
    intro node scan there
    obtain ⟨i, lease, own, live, rest⟩ := owns.leased there
    exact ⟨i, lease, own, kept there own live, rest⟩
  apart := owns.apart

/-- A new scan on a lease that was just made. -/
theorem Owns.opened {lease : ch_lease} (owns : Owns ⟨x.backend, x.scans⟩)
    (lent : scan.state.scan_conn = lease.sconn) {i : Nat} (own : lease.sconn.lease = some i)
    (live : x.backend.Live i lease) (freed : lease.freed = false)
    (fresh : ∀ {node' scan'}, x.scans node' = some scan' → scan'.lease ≠ some i) :
    Owns (x.put node (some scan)) := by
  have lease_scan : scan.lease = some i := by
    rw [Scan.lease, lent]
    exact own
  have found {node' : Nat} {scan₁ : Scan α β ε}
      (now : (x.put node (some scan)).scans node' = some scan₁) :
      (node' = node ∧ scan₁ = scan) ∨ x.scans node' = some scan₁ := by
    rw [Executor.put] at now
    dsimp only at now
    rcases eq_or_ne node' node with rfl | differ
    · rw [Function.update_self] at now
      exact .inl ⟨rfl, (Option.some.inj now).symm⟩
    · rw [Function.update_of_ne differ] at now
      exact .inr now
  refine ⟨?_, ?_⟩
  · intro node' scan₁ now
    rcases found now with ⟨rfl, rfl⟩ | before
    · exact ⟨i, lease, lease_scan, live, lent.symm, freed⟩
    · exact owns.leased before
  · intro node₁ node₂ scan₁ scan₂ first second same
    rcases found first with ⟨rfl, rfl⟩ | before₁
    · rcases found second with ⟨rfl, rfl⟩ | before₂
      · rfl
      · exact absurd (same.symm.trans lease_scan) (fresh before₂)
    · rcases found second with ⟨rfl, rfl⟩ | before₂
      · exact absurd (same.trans lease_scan) (fresh before₁)
      · exact owns.apart before₁ before₂ same

/-- A scan that keeps its connection keeps its lease. -/
theorem Owns.replace (owns : Owns x) (there : x.scans node = some scan)
    (conn : scan'.state.scan_conn = scan.state.scan_conn) : Owns (x.put node (some scan')) := by
  have found (node' : Nat) (scan₁ : Scan α β ε) (now : (x.put node (some scan')).scans node' =
      some scan₁) : ∃ old, x.scans node' = some old ∧
        scan₁.state.scan_conn = old.state.scan_conn := by
    rw [Executor.put] at now
    dsimp only at now
    rcases eq_or_ne node' node with rfl | differ
    · rw [Function.update_self] at now
      cases now
      exact ⟨scan, there, conn⟩
    · rw [Function.update_of_ne differ] at now
      exact ⟨scan₁, now, rfl⟩
  refine ⟨?_, ?_⟩
  · intro node' scan₁ now
    obtain ⟨old, before, same⟩ := found node' scan₁ now
    obtain ⟨i, lease, own, live, sconn, kept⟩ := owns.leased before
    exact ⟨i, lease, by rw [Scan.lease, same]; exact own, live, sconn.trans same.symm, kept⟩
  · intro node₁ node₂ scan₁ scan₂ first second same
    obtain ⟨old₁, before₁, conn₁⟩ := found node₁ scan₁ first
    obtain ⟨old₂, before₂, conn₂⟩ := found node₂ scan₂ second
    refine owns.apart before₁ before₂ ?_
    rw [Scan.lease, Scan.lease, conn₁, conn₂] at same
    exact same

theorem iterate_scan_conn (s : ChFdwScanState α ε) (econtext : ε) (interrupted : Bool)
    (answer : Option (Response α)) :
    (clickhouseIterateForeignScan reader s econtext interrupted answer).state.scan_conn =
      s.scan_conn := by
  have fetched (s : ChFdwScanState α ε) (cursor : ch_cursor α) :
      (fetch_tuple reader s cursor).2.scan_conn = s.scan_conn := by
    unfold fetch_tuple
    split <;> rfl
  unfold clickhouseIterateForeignScan
  split
  · rfl
  · split
    · exact fetched _ _
    · dsimp only
      split
      · rfl
      · split
        · rfl
        · exact fetched _ _

/-- The executor does to its backend what a holder of leases may do, or nothing. -/
theorem Step.backend (step : Step reader hash x event x') (owns : Owns x) :
    x'.backend = x.backend ∨
      ∃ e, Connection.Step hash x.backend e x'.backend := by
  cases step with
  | begin_scan _ enabled acquired _ => exact .inr ⟨_, enabled, acquired.symm⟩
  | unconnected _ enabled acquired _ => exact .inr ⟨_, enabled, acquired.symm⟩
  | iterate => exact .inl rfl
  | rescan => exact .inl rfl
  | end_scan there =>
      obtain ⟨i, lease, _, live, sconn, freed⟩ := owns.leased there
      exact .inr ⟨.release _, .inr ⟨i, lease, live.1, sconn, freed, live.2.2⟩, rfl⟩
  | drop there own =>
      obtain ⟨i, lease, own', live, _, freed⟩ := owns.leased there
      cases own.symm.trans own'
      exact .inr ⟨.reset _, ⟨lease, live.1, freed⟩, rfl⟩
  | other enabled _ => exact .inr ⟨_, enabled, rfl⟩

/-- An event of the rest of the backend ends no lease of an open scan. -/
theorem live_other {event : Connection.Event} {i : Nat} {lease : ch_lease}
    (h : Connection.Inv x.backend) (there : x.scans node = some scan)
    (own : scan.lease = some i) (live : x.backend.Live i lease)
    (enabled : Connection.Enabled hash x.backend event) (foreign : x.Foreign event) :
    (x.backend.apply hash event).Live i lease := by
  cases event with
  | acquire user attempt second => exact live_acquire live
  | release sconn =>
      rcases enabled with rfl | ⟨j, other, found, rfl, -, -⟩
      · rw [Backend.apply, Connection.release_zero]
        exact live
      · refine Connection.live_release h found live ?_
        rintro rfl
        exact foreign node scan there (own.trans (h.lease_self found).symm)
  | reset j =>
      obtain ⟨other, found, -⟩ := enabled
      refine live_release_lease h live found ?_
      rintro rfl
      exact foreign node scan there own
  | version user attempt =>
      obtain ⟨leases, generation⟩ := leases_get_connection_entry user attempt hash x.backend
      exact live_of_leases live leases generation
  | invalidate cacheid hashvalue => exact live
  | broke serial => exact live
  | xact event =>
      by_cases ends : event.ends = true
      · rw [foreign ends node] at there
        exact nomatch there
      · rw [Backend.apply, Backend.chfdw_xact_callback, if_neg ends]
        exact live

theorem Step.owns (step : Step reader hash x event x') (h : Connection.Inv x.backend)
    (owns : Owns x) : Owns x' := by
  cases step with
  | begin_scan _ _ acquired found =>
      subst acquired
      obtain ⟨made, live⟩ := live_acquired found
      refine Owns.opened (x := ⟨_, x.scans⟩) (owns.kept fun _ _ before => live_acquire before)
        rfl made.place live made.freed ?_
      intro node' scan' there same
      obtain ⟨i, lease, own, before, -⟩ := owns.leased there
      cases same.symm.trans own
      exact absurd (List.getElem?_eq_some_iff.mp before.1).1 (Nat.lt_irrefl _)
  | unconnected _ _ acquired _ =>
      subst acquired
      exact owns.kept fun _ _ live => live_acquire live
  | iterate there => exact owns.replace there (iterate_scan_conn _ _ _ _)
  | rescan there => exact owns.replace there rfl
  | @end_scan node scan there _ =>
      obtain ⟨j, mine, own, live, sconn, -⟩ := owns.leased there
      refine owns.without node ?_
      intro node' scan' i lease differ there' own' live'
      rw [← sconn]
      refine Connection.live_release h live.1 live' ?_
      rintro rfl
      exact differ (owns.apart there' there (own'.trans own.symm))
  | @drop node j scan there own =>
      obtain ⟨j', mine, leased, live, -⟩ := owns.leased there
      cases own.symm.trans leased
      refine owns.without node ?_
      intro node' scan' i lease differ there' own' live'
      refine live_release_lease h live' live.1 ?_
      rintro rfl
      exact differ (owns.apart there' there (own'.trans own.symm))
  | other enabled foreign =>
      exact owns.kept fun there own live => live_other h there own live enabled foreign

theorem owns_of_reachable (reached : Reachable reader hash x) :
    Connection.Reachable hash x.backend ∧ Owns x := by
  apply reached.invariant (I := fun x => Connection.Reachable hash x.backend ∧ Owns x)
  · intro x started
    refine ⟨.start started.1, ?_, ?_⟩
    · intro node scan there
      rw [started.2] at there
      exact nomatch there
    · intro node node' scan scan' there
      rw [started.2] at there
      exact nomatch there
  · intro x event x' _ both step
    obtain ⟨before, owns⟩ := both
    refine ⟨?_, step.owns (Connection.inv_of_reachable before) owns⟩
    rcases step.backend owns with same | ⟨e, moved⟩
    · rw [same]
      exact before
    · exact .next before moved

/-! ## Rows -/

/-- The parameters of a query are the values in the context of the call. -/
def Asks (plan : Plan ε) (econtext : ε) (query : ch_query) : Prop :=
  ∃ params, query = new_query plan params ∧
    if plan.numParams > 0 then
      ∃ values, plan.param_exprs econtext = some values ∧ params = process_query_params values
    else params = []

/-- A tuple with the columns of a row: each is under its attribute, and the other attributes
are NULL. -/
structure Placed (reader : Reader α β) (plan : Plan ε) (values : List (Option α))
    (tuple : List (Option β)) : Prop where
  natts : tuple.length = plan.natts
  width : plan.retrieved_attrs = [] ∨ values.length = plan.retrieved_attrs.length
  columns : ∀ {j attnum : Nat} {value : Option α}, plan.retrieved_attrs[j]? = some attnum →
    values[j]? = some value → ∃ slot, tuple[attnum - 1]? = some slot ∧
      slot = value.bind (reader.convert (plan.atttypid attnum)) ∧ (value.isSome → slot.isSome)
  others : ∀ {attnum : Nat}, 1 ≤ attnum → attnum ≤ plan.natts → attnum ∉ plan.retrieved_attrs →
    tuple[attnum - 1]? = some none

/-- What a call returns for what is in the answer at its place. -/
inductive Returned (reader : Reader α β) (plan : Plan ε) :
    Option (Option (List (Option α))) → Option (List (Option β)) → Prop
  | finished : Returned reader plan none none
  | row {values : List (Option α)} {tuple : List (Option β)} :
      Placed reader plan values tuple → Returned reader plan (some (some values)) (some tuple)

/-- The slots of a cursor are those of the attributes. -/
def Ready (plan : Plan ε) (cursor : ch_cursor α) : Prop :=
  cursor.fill_dest = none ∨
    cursor.fill_dest = some (plan.retrieved_attrs.map fun attnum => attnum - 1)

section

variable {plan : Plan ε} {cursor cursor' : ch_cursor α} {row : List (Option α)}
  {tuple : List (Option β)}

theorem dest_nodup (plan : Plan ε) :
    (plan.retrieved_attrs.map fun attnum => attnum - 1).Nodup := by
  refine plan.distinct.map_on ?_
  intro a first b second same
  have := (plan.inside a first).1
  have := (plan.inside b second).1
  omega

/-- The tuple of a row. -/
theorem apply_row_spec (width : row.length = cursor.response.columns) (ready : Ready plan cursor)
    (applied : apply_row reader plan cursor row = (some tuple, cursor')) :
    Placed reader plan row tuple ∧ cursor'.response = cursor.response ∧
      cursor'.rest = cursor.rest ∧ Ready plan cursor' := by
  have dest : cursor.fill_dest.getD (plan.retrieved_attrs.map fun attnum => attnum - 1) =
      plan.retrieved_attrs.map fun attnum => attnum - 1 := by
    rcases ready with none | some
    · rw [none]
      rfl
    · rw [some]
      rfl
  unfold apply_row at applied
  rw [dest] at applied
  dsimp only at applied
  split at applied
  · rename_i empty
    have nil := List.length_eq_zero_iff.mp empty
    split at applied
    · cases applied
      refine ⟨⟨List.length_replicate, .inl nil, ?_, ?_⟩, rfl, rfl, ready⟩
      · intro j attnum value found
        rw [nil] at found
        exact nomatch found
      · intro attnum positive below _
        exact List.getElem?_replicate_of_lt (by omega)
    · cases applied
  · split at applied
    · cases applied
    · rename_i columns
      injection applied with filled after
      cases after
      refine ⟨⟨?_, .inr ?_, ?_, ?_⟩, rfl, rfl, .inr rfl⟩
      · rw [reader.length filled, List.length_replicate]
      · rw [width, Decidable.not_not.mp columns]
      · intro j attnum value found there
        have inside := plan.inside attnum (List.mem_of_getElem? found)
        have slot : (plan.retrieved_attrs.map fun attnum => attnum - 1)[j]? =
            some (attnum - 1) := by
          rw [List.getElem?_map, found]
          rfl
        have room : attnum - 1 < (List.replicate plan.natts (none : Option β)).length := by
          rw [List.length_replicate]
          omega
        have next : attnum - 1 + 1 = attnum := Nat.sub_add_cancel inside.1
        have put := reader.filled filled (dest_nodup plan) slot there room
        rwa [next] at put
      · intro attnum positive below absent
        have free : attnum - 1 ∉ plan.retrieved_attrs.map fun attnum => attnum - 1 := by
          intro member
          obtain ⟨other, listed, same⟩ := List.mem_map.mp member
          have := (plan.inside other listed).1
          have equal : other = attnum := by omega
          exact absent (equal ▸ listed)
        rw [reader.others filled free]
        exact List.getElem?_replicate_of_lt (by omega)

/-- A cursor behind the first `n` rows of its response. -/
structure Reads (plan : Plan ε) (response : Response α) (n : Nat) (cursor : ch_cursor α) :
    Prop where
  answer : cursor.response = response
  rest : cursor.rest = response.rows.drop n
  ready : Ready plan cursor

variable (reader) in
theorem fetch_tuple_spec {s : ChFdwScanState α ε} {response : Response α} {n : Nat}
    (reads : Reads s.plan response n cursor) (there : s.ch_cursor = some cursor) :
    (fetch_tuple reader s cursor).2.plan = s.plan ∧
    (fetch_tuple reader s cursor).2.param_values = s.param_values ∧
    ∀ out, (fetch_tuple reader s cursor).1 = some out →
      Returned reader s.plan response.rows[n]? out ∧
      ∃ cursor', (fetch_tuple reader s cursor).2.ch_cursor = some cursor' ∧
        Reads s.plan response (n + 1) cursor' := by
  have next : response.rows[n]? = cursor.rest[0]? := by
    rw [reads.rest, List.getElem?_drop, Nat.add_zero]
  have behind : response.rows.drop (n + 1) = cursor.rest.drop 1 := by
    rw [reads.rest, List.drop_drop]
  unfold fetch_tuple
  split
  · rename_i finished
    refine ⟨rfl, rfl, ?_⟩
    intro out returned
    cases returned
    rw [next, finished]
    refine ⟨.finished, cursor, there, reads.answer, ?_, reads.ready⟩
    rw [behind, finished]
    rfl
  · refine ⟨rfl, rfl, ?_⟩
    intro out returned
    cases returned
  · rename_i row rest found
    refine ⟨rfl, rfl, ?_⟩
    intro out returned
    dsimp only at returned ⊢
    have member : some row ∈ response.rows := by
      apply List.mem_of_mem_drop (i := n)
      rw [← reads.rest, found]
      exact List.mem_cons_self
    have width : row.length = cursor.response.columns := by
      rw [reads.answer]
      exact response.width row member
    cases applied : apply_row reader s.plan { cursor with rest } row with
    | mk filled cursor' =>
        rw [applied] at returned
        obtain ⟨tuple, rfl, rfl⟩ := Option.map_eq_some_iff.mp returned
        have inside : row.length = ({ cursor with rest } : ch_cursor α).response.columns := width
        obtain ⟨placed, same, left, ready⟩ := apply_row_spec inside reads.ready applied
        rw [next, found]
        refine ⟨.row placed, cursor', rfl, same.trans reads.answer, ?_, ready⟩
        rw [left, behind, found]
        rfl

theorem chfdw_cursor_open_spec {response : Response α}
    (opened : chfdw_cursor_open plan response = some cursor) : Reads plan response 0 cursor := by
  unfold chfdw_cursor_open at opened
  split at opened
  · cases opened
  · cases opened
    exact ⟨rfl, rfl, .inl rfl⟩

end

/-- What a scan has sent and returned since it was begun or restarted. -/
structure Follows (reader : Reader α β) (scan : Scan α β ε) : Prop where
  params : scan.state.param_values.length = scan.state.plan.numParams
  state : (scan.sent = [] ∧ scan.returned = [] ∧ scan.state.ch_cursor = none) ∨
    ∃ econtext query answer, scan.sent = [(econtext, query, answer)] ∧
      Asks scan.state.plan econtext query ∧
      (∀ (k : Nat) out, scan.returned[k]? = some out → ∃ response, answer = some response ∧
        Returned reader scan.state.plan response.rows[k]? out) ∧
      (scan.failed = false → ∃ response cursor, answer = some response ∧
        scan.state.ch_cursor = some cursor ∧
        Reads scan.state.plan response scan.returned.length cursor)

theorem follows_new {s : ChFdwScanState α ε} {failed : Bool}
    (params : s.param_values.length = s.plan.numParams) (closed : s.ch_cursor = none) :
    Follows reader (⟨s, failed, [], []⟩ : Scan α β ε) :=
  ⟨params, .inl ⟨rfl, rfl, closed⟩⟩

/-- Evaluating the parameters gives the values of the context, as many as there are. -/
theorem evaluated_spec {s : ChFdwScanState α ε} {econtext : ε} {params : List (Option Bytes)}
    (counted : s.param_values.length = s.plan.numParams)
    (evaluated : (if s.plan.numParams > 0 then
      (s.plan.param_exprs econtext).map process_query_params else some s.param_values) =
        some params) :
    params.length = s.plan.numParams ∧ Asks s.plan econtext (new_query s.plan params) := by
  split at evaluated
  · rename_i positive
    obtain ⟨values, given, rfl⟩ := Option.map_eq_some_iff.mp evaluated
    refine ⟨?_, _, rfl, ?_⟩
    · rw [process_query_params, List.length_map]
      exact s.plan.counted given
    · rw [if_pos positive]
      exact ⟨values, given, rfl⟩
  · rename_i none
    cases evaluated
    refine ⟨counted, _, rfl, ?_⟩
    rw [if_neg none]
    exact List.length_eq_zero_iff.mp (by omega)

/-- What has been returned, with the result of one more call. -/
theorem returned_append {plan : Plan ε} {response : Response α} {answer : Option (Response α)}
    {before : List (Option (List (Option β)))} {result : Result β}
    (was : ∀ (k : Nat) out, before[k]? = some out → ∃ response, answer = some response ∧
      Returned reader plan response.rows[k]? out)
    (answered : answer = some response)
    (next : ∀ out, result = some out → Returned reader plan response.rows[before.length]? out) :
    ∀ (k : Nat) out, (before ++ result.toList)[k]? = some out → ∃ response,
      answer = some response ∧ Returned reader plan response.rows[k]? out := by
  intro k out found
  rcases Nat.lt_trichotomy k before.length with below | same | above
  · rw [List.getElem?_append_left below] at found
    exact was k out found
  · subst same
    rw [List.getElem?_append_right (Nat.le_refl _), Nat.sub_self] at found
    cases result with
    | none => exact nomatch found
    | some result =>
        cases found
        exact ⟨response, answered, next out rfl⟩
  · rw [List.getElem?_append_right (Nat.le_of_lt above)] at found
    have short : result.toList.length ≤ 1 := by
      cases result with
      | none => exact Nat.zero_le 1
      | some result => exact Nat.le_refl 1
    have inside := (List.getElem?_eq_some_iff.mp found).1
    omega

variable (reader) in
/-- A call with an open cursor. -/
theorem Follows.fetched {s : ChFdwScanState α ε} {cursor : ch_cursor α} {response : Response α}
    {econtext : ε} {query : ch_query} {before : List (Option (List (Option β)))}
    (params : s.param_values.length = s.plan.numParams) (there : s.ch_cursor = some cursor)
    (asks : Asks s.plan econtext query)
    (was : ∀ (k : Nat) out, before[k]? = some out → ∃ response', some response = some response' ∧
      Returned reader s.plan response'.rows[k]? out)
    (reads : Reads s.plan response before.length cursor) :
    Follows reader ⟨(fetch_tuple reader s cursor).2, (fetch_tuple reader s cursor).1.isNone,
      [(econtext, query, some response)], before ++ (fetch_tuple reader s cursor).1.toList⟩ := by
  obtain ⟨plan, values, next⟩ := fetch_tuple_spec reader reads there
  refine ⟨?_, .inr ⟨econtext, query, some response, rfl, ?_, ?_, ?_⟩⟩
  · dsimp only
    rw [values, plan]
    exact params
  · dsimp only
    rw [plan]
    exact asks
  · dsimp only
    rw [plan]
    exact returned_append was rfl fun out returned => (next out returned).1
  · dsimp only
    intro fine
    cases result : (fetch_tuple reader s cursor).1 with
    | none =>
        rw [result] at fine
        cases fine
    | some out =>
        obtain ⟨-, cursor', after, reads'⟩ := next out result
        refine ⟨response, cursor', rfl, after, ?_⟩
        rw [plan, Option.toList_some, List.length_append, List.length_singleton]
        exact reads'

theorem Follows.iterated (follows : Follows reader scan) (fine : scan.failed = false)
    (econtext : ε) (interrupted : Bool) (answer : Option (Response α)) :
    Follows reader (scan.iterated reader econtext interrupted answer) := by
  obtain ⟨params, state⟩ := follows
  unfold Scan.iterated clickhouseIterateForeignScan
  split
  · -- the call is interrupted before it does anything
    refine ⟨params, ?_⟩
    rcases state with ⟨sent, returned, closed⟩ | ⟨econtext', query, answer', sent, asks, was, -⟩
    · exact .inl ⟨by rw [sent]; rfl, by rw [returned]; rfl, closed⟩
    · refine .inr ⟨econtext', query, answer', by rw [sent]; rfl, asks, ?_, fun raised =>
        nomatch raised⟩
      intro k out found
      exact was k out (by simpa using found)
  · split
    · rename_i cursor there
      rcases state with ⟨-, -, closed⟩ | ⟨econtext', query, answer', sent, asks, was, going⟩
      · rw [there] at closed
        cases closed
      · obtain ⟨response, cursor', rfl, there', reads⟩ := going fine
        cases there.symm.trans there'
        have after := Follows.fetched reader params there asks was reads
        rw [sent]
        exact after
    · rename_i closed
      rcases state with ⟨sent, returned, -⟩ | ⟨econtext', query, answer', -, -, -, going⟩
      · dsimp only
        split
        · exact ⟨params, .inl ⟨by rw [sent]; rfl, by rw [returned]; rfl, closed⟩⟩
        · rename_i values evaluated
          obtain ⟨counted, asks⟩ := evaluated_spec params evaluated
          split
          · refine ⟨counted, .inr
              ⟨econtext, _, answer, by rw [sent]; rfl, asks, ?_, fun raised => nomatch raised⟩⟩
            intro k out found
            rw [returned] at found
            exact nomatch found
          · rename_i cursor opened
            obtain ⟨response, rfl, opened⟩ := Option.bind_eq_some_iff.mp opened
            have reads := chfdw_cursor_open_spec opened
            have none_before : ∀ (k : Nat) out,
                ([] : List (Option (List (Option β))))[k]? = some out →
                  ∃ response', some response = some response' ∧
                    Returned reader scan.state.plan response'.rows[k]? out :=
              fun k out found => nomatch found
            have after := Follows.fetched reader
              (s := { scan.state with param_values := values, ch_cursor := some cursor })
              counted rfl asks none_before reads
            rw [sent, returned]
            exact after
      · obtain ⟨_, cursor, -, there, -⟩ := going fine
        rw [closed] at there
        cases there

theorem Step.follows (step : Step reader hash x event x')
    (follows : ∀ node scan, x.scans node = some scan → Follows reader scan) :
    ∀ node scan, x'.scans node = some scan → Follows reader scan := by
  have replaced {x : Executor α β ε} {node : Nat} {new : Option (Scan α β ε)}
      (follows : ∀ node scan, x.scans node = some scan → Follows reader scan)
      (fits : ∀ scan, new = some scan → Follows reader scan) :
      ∀ node' scan, (x.put node new).scans node' = some scan → Follows reader scan := by
    intro node' scan there
    rw [Executor.put] at there
    dsimp only at there
    rcases eq_or_ne node' node with rfl | differ
    · rw [Function.update_self] at there
      exact fits scan there
    · rw [Function.update_of_ne differ] at there
      exact follows node' scan there
  cases step with
  | begin_scan =>
      refine replaced follows ?_
      intro scan same
      cases same
      exact follows_new List.length_replicate rfl
  | unconnected => exact follows
  | iterate there fine =>
      refine replaced follows ?_
      intro scan same
      cases same
      exact (follows _ _ there).iterated fine _ _ _
  | rescan there =>
      refine replaced follows ?_
      intro scan same
      cases same
      exact follows_new (follows _ _ there).params rfl
  | end_scan => exact replaced (x := ⟨_, x.scans⟩) follows (fun _ same => nomatch same)
  | drop => exact replaced (x := ⟨_, x.scans⟩) follows (fun _ same => nomatch same)
  | other => exact follows

/-! ## A scan of one column -/

/-- Values are put where they belong, as they are. -/
def plainReader (α : Type) : Reader α α where
  convert _ a := some a
  fill_map _ dest row slots :=
    some ((dest.zip row).foldl (fun slots put => slots.set put.1 put.2) slots)
  length := by
    intro _ dest row slots filled put
    cases put
    generalize dest.zip row = puts
    induction puts generalizing slots with
    | nil => rfl
    | cons put puts ih => rw [List.foldl_cons, ih, List.length_set]
  filled := by
    intro _ dest row slots filled put distinct j d value found there room
    cases put
    induction dest generalizing row slots j with
    | nil => exact nomatch found
    | cons first dest ih =>
        obtain ⟨absent, distinct⟩ := List.nodup_cons.mp distinct
        cases row with
        | nil => exact nomatch there
        | cons held row =>
            have kept (puts : List (Nat × Option α)) (slots : List (Option α))
                (outside : ∀ put ∈ puts, put.1 ≠ d) :
                (puts.foldl (fun slots put => slots.set put.1 put.2) slots)[d]? = slots[d]? := by
              induction puts generalizing slots with
              | nil => rfl
              | cons put puts ih =>
                  obtain ⟨differ, outside⟩ := List.forall_mem_cons.mp outside
                  rw [List.foldl_cons, ih _ outside, List.getElem?_set_ne differ]
            rw [List.zip_cons_cons, List.foldl_cons]
            cases j with
            | zero =>
                cases found
                cases there
                refine ⟨value, ?_, ?_, id⟩
                · rw [kept, List.getElem?_set_self room]
                  intro put member same
                  have listed := (List.of_mem_zip (a := put.1) (b := put.2) member).1
                  rw [same] at listed
                  exact absent listed
                · cases value <;> rfl
            | succ j => exact ih distinct found there (by rw [List.length_set]; exact room)
  others := by
    intro _ dest row slots filled put d outside
    cases put
    have kept : ∀ put ∈ dest.zip row, put.1 ≠ d := by
      intro put member same
      have listed := (List.of_mem_zip (a := put.1) (b := put.2) member).1
      exact outside (same ▸ listed)
    generalize dest.zip row = puts at kept
    induction puts generalizing slots with
    | nil => rfl
    | cons put puts ih =>
        obtain ⟨differ, kept⟩ := List.forall_mem_cons.mp kept
        rw [List.foldl_cons, ih kept, List.getElem?_set_ne differ]

/-- A scan of the second of three columns, without parameters. -/
def columnPlan : Plan Unit where
  query := ascii "SELECT b FROM t"
  retrieved_attrs := [2]
  natts := 3
  atttypid _ := 23
  settings := []
  numParams := 0
  param_exprs _ := some ⟨[], by decide⟩
  counted := by
    intro econtext values given
    cases given
    rfl
  inside := by decide
  distinct := by decide

def twoRows : Response Nat where
  columns := 1
  rows := [some [some 7], some [none]]
  width := by
    intro values member
    rcases List.mem_pair.mp member with same | same
    · rw [Option.some.inj same]
      rfl
    · rw [Option.some.inj same]
      rfl

def lentBackend : Backend :=
  Backend.initial.apply (fun _ _ => 0) (.acquire ⟨1, 2⟩ (some 100) none)

def lentLease : ch_lease := ⟨⟨some ⟨100, 0⟩, some 1, some 0⟩, 0, false, false⟩

def begun : Executor Nat Nat Unit :=
  Executor.put ⟨lentBackend, fun _ => none⟩ 0
    (some ⟨clickhouseBeginForeignScan columnPlan lentLease.sconn, false, [], []⟩)

def iteratedOnce : Scan Nat Nat Unit :=
  Scan.iterated (plainReader Nat)
    ⟨clickhouseBeginForeignScan columnPlan lentLease.sconn, false, [], []⟩ () false (some twoRows)

theorem reachable_begun : Reachable (plainReader Nat) (fun _ _ => 0) begun := by
  refine .next (s := ⟨Backend.initial, fun _ => none⟩) (.start ⟨rfl, fun _ => rfl⟩)
    (@Step.begin_scan _ _ _ _ _ _ 0 columnPlan ⟨1, 2⟩ (some 100) none _ _ rfl ⟨?_, ?_⟩ rfl rfl)
  · intro addr _ c open_
    exact nomatch open_
  · intro addr none
    exact nomatch none

theorem reachable_iterated :
    Reachable (plainReader Nat) (fun _ _ => 0) (begun.put 0 (some iteratedOnce)) :=
  .next reachable_begun (.iterate rfl rfl)

/-- The same user begins a second scan while the response of the first is open. -/
def lentTwice : Backend :=
  lentBackend.apply (fun _ _ => 0) (.acquire ⟨1, 2⟩ none (some 200))

def privateLease : ch_lease := ⟨⟨some ⟨200, 1⟩, none, some 1⟩, 0, false, false⟩

def nested : Executor Nat Nat Unit :=
  Executor.put ⟨lentTwice, (begun.put 0 (some iteratedOnce)).scans⟩ 1
    (some ⟨clickhouseBeginForeignScan columnPlan privateLease.sconn, false, [], []⟩)

theorem reachable_nested : Reachable (plainReader Nat) (fun _ _ => 0) nested := by
  refine .next reachable_iterated
    (@Step.begin_scan _ _ _ _ _ (begun.put 0 (some iteratedOnce)) 1 columnPlan ⟨1, 2⟩ none
      (some 200) _ _ rfl ⟨?_, ?_⟩ rfl rfl)
  · intro addr none
    exact nomatch none
  · intro addr same
    obtain rfl := Option.mem_some_iff.mp same
    decide

/-! ## Runs -/

/-- In every state an executor reaches, in whatever order its scans are begun, continued,
restarted, ended and dropped, the connection of an open scan is open, it is no other scan's and
is lent to nobody else, and a call sends a query only on a connection on which no scan has a
response open. -/
theorem sends_alone (reached : Reachable reader hash x) (there : x.scans node = some scan) :
    (∃ c ∈ x.backend.heap, scan.state.scan_conn.gate = some c) ∧
    (∀ node' scan', x.scans node' = some scan' → scan'.state.scan_conn.gate.map (·.conn) =
      scan.state.scan_conn.gate.map (·.conn) → node' = node) ∧
    (∀ j other, x.backend.Live j other → other.sconn.gate.map (·.conn) =
      scan.state.scan_conn.gate.map (·.conn) → scan.lease = some j) ∧
    ∀ econtext interrupted answer query,
      (clickhouseIterateForeignScan reader scan.state econtext interrupted answer).sent =
        some query →
      ∀ node' scan', x.scans node' = some scan' → scan'.state.scan_conn.gate.map (·.conn) =
        scan.state.scan_conn.gate.map (·.conn) → scan'.state.ch_cursor = none := by
  obtain ⟨backend, owns⟩ := owns_of_reachable reached
  have h := Connection.inv_of_reachable backend
  obtain ⟨i, lease, own, live, sconn, -⟩ := owns.leased there
  obtain ⟨c, inside, gate⟩ := h.open_of_live live
  rw [sconn] at gate
  have lent (j : Nat) (other : ch_lease) (live' : x.backend.Live j other)
      (same : other.sconn.gate.map (·.conn) = scan.state.scan_conn.gate.map (·.conn)) :
      scan.lease = some j := by
    obtain ⟨d, inside', gate'⟩ := h.open_of_live live'
    rw [gate, gate'] at same
    have equal := h.address d inside' c inside (Option.some.inj same)
    have shared := h.alone live live' (by rw [sconn, gate, gate', equal])
    rw [own, shared]
  have alone (node' : Nat) (scan' : Scan α β ε) (there' : x.scans node' = some scan')
      (same : scan'.state.scan_conn.gate.map (·.conn) =
        scan.state.scan_conn.gate.map (·.conn)) : node' = node := by
    obtain ⟨j, other, own', live', sconn', -⟩ := owns.leased there'
    have shared := lent j other live' (by rw [sconn']; exact same)
    exact owns.apart there' there (own'.trans shared.symm)
  refine ⟨⟨c, inside, gate⟩, alone, lent, ?_⟩
  intro econtext interrupted answer query sent node' scan' there' same
  cases alone node' scan' there' same
  cases there.symm.trans there'
  unfold clickhouseIterateForeignScan at sent
  split at sent
  · exact nomatch sent
  · split at sent
    · exact nomatch sent
    · assumption

/-- The inner scan may send its query though the response of the outer one is open. -/
theorem sends_alone_nested :
    iteratedOnce.state.ch_cursor ≠ none ∧
    (∃ c ∈ nested.backend.heap, privateLease.sconn.gate = some c) ∧
    (∀ node scan, nested.scans node = some scan →
      scan.state.scan_conn.gate.map (·.conn) = some 200 → node = 1) ∧
    ∀ econtext answer query,
      (clickhouseIterateForeignScan (plainReader Nat)
        (clickhouseBeginForeignScan columnPlan privateLease.sconn) econtext false answer).sent =
        some query →
      ∀ node scan, nested.scans node = some scan →
        scan.state.scan_conn.gate.map (·.conn) = some 200 → scan.state.ch_cursor = none := by
  have there : nested.scans 1 =
      some ⟨clickhouseBeginForeignScan columnPlan privateLease.sconn, false, [], []⟩ := rfl
  obtain ⟨open_, alone, -, sends⟩ := sends_alone reachable_nested there
  exact ⟨nofun, open_, alone, fun econtext => sends econtext false⟩

/-- In every such state, a scan has sent at most one query since it was begun or restarted,
with the values its parameters had at its first call, and its calls have returned the rows of
the answer in order, each placed under the attributes it was asked for, and nothing behind the
last one. -/
theorem rows_replayed (reached : Reachable reader hash x) (there : x.scans node = some scan) :
    scan.sent.length ≤ 1 ∧ (scan.sent = [] → scan.returned = []) ∧
    ∀ econtext query answer, (econtext, query, answer) ∈ scan.sent →
      Asks scan.state.plan econtext query ∧
      ∀ (k : Nat) out, scan.returned[k]? = some out → ∃ response, answer = some response ∧
        Returned reader scan.state.plan response.rows[k]? out := by
  have follows : ∀ node scan, x.scans node = some scan → Follows reader scan := by
    apply reached.invariant
      (I := fun x => ∀ node scan, x.scans node = some scan → Follows reader scan)
    · intro x started node scan there
      rw [started.2] at there
      exact nomatch there
    · intro x event x' _ follows step
      exact step.follows follows
  obtain ⟨-, state⟩ := follows node scan there
  rcases state with ⟨sent, returned, -⟩ | ⟨econtext, query, answer, sent, asks, was, -⟩
  · rw [sent]
    refine ⟨Nat.zero_le 1, fun _ => returned, ?_⟩
    intro econtext query answer member
    exact nomatch member
  · rw [sent]
    refine ⟨Nat.le_refl 1, ?_, ?_⟩
    · intro empty
      cases empty
    · intro econtext' query' answer' member
      cases List.mem_singleton.mp member
      exact ⟨asks, was⟩

theorem rows_replayed_once :
    iteratedOnce.returned = [some [none, some 7, none]] ∧
      Returned (plainReader Nat) columnPlan (some (some [some 7]))
        (some [none, some 7, none]) := by
  have there : (begun.put 0 (some iteratedOnce)).scans 0 = some iteratedOnce := rfl
  obtain ⟨-, -, replayed⟩ := rows_replayed reachable_iterated there
  obtain ⟨-, rows⟩ := replayed () (new_query columnPlan []) (some twoRows) List.mem_cons_self
  obtain ⟨response, same, returned⟩ := rows 0 (some [none, some 7, none]) rfl
  cases same
  exact ⟨rfl, returned⟩

end PgClickhouse.ForeignScan

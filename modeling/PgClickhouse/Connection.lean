import PgClickhouse.Keyed
import PgClickhouse.Runs

/-!
# The connection cache

`connection.c` keeps one cached connection for each user mapping and lends it to a
scan by a lease.  A scan that finds the cached connection lent gets a private one.
A lease ends by an explicit release, by the reset callback of the memory context it
was allocated in, or with its transaction, which advances `lease_generation`.

A connection is a pointer to a driver object.  Addresses are reused once the object
is freed; the serial number of the `clickhouse_connect` call that made the object
tells connections of one address apart, and nothing in the code reads it.

`Event` lists what can happen to a backend, `Enabled` what the environment promises of
each event, and `Backend.apply` what the code does.  `PgClickhouse/Leases.lean` proves what
holds of every state this system reaches.
-/

namespace PgClickhouse.Connection

/-- A driver's connection object: its address, and which connect made it. -/
structure ch_connection where
  conn : Nat
  serial : Nat
  deriving Repr, DecidableEq

/-- A cache entry.  `gate` is `none` while `gate.conn` is null. -/
structure ConnCacheEntry where
  userid : Nat
  gate : Option ch_connection
  busy : Bool
  invalidated : Bool
  server_hashvalue : Nat
  mapping_hashvalue : Nat
  deriving Repr, DecidableEq

/-- What a scan is handed: the connection, the cache entry it belongs to (null for a
private one) and the lease. -/
structure ch_scan_connection where
  gate : Option ch_connection
  entry : Option Nat
  lease : Option Nat
  deriving Repr, DecidableEq

/-- A zeroed `ch_scan_connection`, as a scan that never connected holds. -/
def ch_scan_connection.zero : ch_scan_connection := ⟨none, none, none⟩

/-- A lease.  `freed` says that its memory context is gone. -/
structure ch_lease where
  sconn : ch_scan_connection
  generation : Nat
  released : Bool
  freed : Bool
  deriving Repr, DecidableEq

/-- The two catalogs whose changes invalidate connections. -/
inductive CacheId
  | FOREIGNSERVEROID
  | USERMAPPINGOID
  deriving Repr, DecidableEq

inductive XactEvent
  | COMMIT
  | PARALLEL_COMMIT
  | ABORT
  | PARALLEL_ABORT
  | PREPARE
  | PRE_COMMIT
  | PARALLEL_PRE_COMMIT
  | PRE_PREPARE
  deriving Repr, DecidableEq

/-- The events that end a transaction, which `chfdw_xact_callback` acts on. -/
def XactEvent.ends : XactEvent → Bool
  | .COMMIT | .PARALLEL_COMMIT | .ABORT | .PARALLEL_ABORT => true
  | _ => false

structure UserMapping where
  umid : Nat
  serverid : Nat
  deriving Repr, DecidableEq

/-- The state of one backend.  `leases` holds every lease ever made, a lease's pointer
being its place in the list; `heap` the open connections; `broken` the serials of those
that hit an error; `connects` counts the connects. -/
structure Backend where
  ConnectionHash : List ConnCacheEntry
  PrivateConnections : List ch_connection
  lease_generation : Nat
  leases : List ch_lease
  heap : List ch_connection
  broken : List Nat
  connects : Nat

namespace Backend

/-- A backend that has not connected yet. -/
def initial : Backend := ⟨[], [], 0, [], [], [], 0⟩

/-- The connection of an entry. -/
def gateOf (st : Backend) (umid : Nat) : Option ch_connection :=
  (Keyed.find ConnCacheEntry.userid umid st.ConnectionHash).bind ConnCacheEntry.gate

/-- The busy mark of an entry. -/
def busyAt (st : Backend) (umid : Nat) : Bool :=
  (Keyed.find ConnCacheEntry.userid umid st.ConnectionHash).any ConnCacheEntry.busy

/-- Write an entry back to the hash table. -/
def put (st : Backend) (entry : ConnCacheEntry) : Backend :=
  { st with ConnectionHash :=
      Keyed.insertWith ConnCacheEntry.userid (fun _ e => e) entry st.ConnectionHash }

/-- The entry of a user mapping; a new one has no connection and is not busy. -/
def lookup (st : Backend) (umid : Nat) : ConnCacheEntry :=
  (Keyed.find ConnCacheEntry.userid umid st.ConnectionHash).getD
    ⟨umid, none, false, false, 0, 0⟩

def disconnect (st : Backend) (c : ch_connection) : Backend :=
  { st with heap := st.heap.filter (fun d => decide (d ≠ c)) }

/-- The connection a successful `clickhouse_connect` makes at `addr`. -/
def connected (st : Backend) (addr : Nat) : ch_connection := ⟨addr, st.connects⟩

def clickhouse_connect (st : Backend) (addr : Nat) : Backend :=
  { st with heap := st.connected addr :: st.heap, connects := st.connects + 1 }

/-- An allocator gives out only addresses that are not in use. -/
def Fresh (st : Backend) (addr : Nat) : Prop := ∀ c ∈ st.heap, c.conn ≠ addr

instance (st : Backend) (addr : Nat) : Decidable (st.Fresh addr) :=
  inferInstanceAs (Decidable (∀ c ∈ st.heap, c.conn ≠ addr))

/-- Close the connection of an entry that is not busy, if `stale` says so. -/
def close_if (st : Backend) (umid : Nat) (stale : ConnCacheEntry → ch_connection → Bool) :
    Backend :=
  let entry := st.lookup umid
  match entry.gate with
  | none => st.put entry
  | some c =>
      if stale entry c && !entry.busy then (st.disconnect c).put { entry with gate := none }
      else st.put entry

/-- `get_connection_entry` up to the test for a missing connection. -/
def close_stale (st : Backend) (umid : Nat) : Backend :=
  (st.close_if umid (fun entry _ => entry.invalidated)).close_if umid
    (fun _ c => decide (c.serial ∈ st.broken))

end Backend

section

variable (GetSysCacheHashValue1 : CacheId → Nat → Nat)

namespace Backend

/-- The entry of a user mapping, connected if need be.  `attempt` is where the connect
puts its connection, `none` if it throws; then the entry stays empty and the second
component is `false`. -/
def get_connection_entry (st : Backend) (user : UserMapping) (attempt : Option Nat) :
    Backend × Bool :=
  let st := st.close_stale user.umid
  let entry := st.lookup user.umid
  match entry.gate with
  | some _ => (st, true)
  | none =>
      let entry := { entry with
        invalidated := false
        server_hashvalue := GetSysCacheHashValue1 .FOREIGNSERVEROID user.serverid
        mapping_hashvalue := GetSysCacheHashValue1 .USERMAPPINGOID user.umid }
      match attempt with
      | none => (st.put entry, false)
      | some addr =>
          ((st.clickhouse_connect addr).put { entry with gate := some (st.connected addr) }, true)

/-- Lend a connection.  `second` is the connect of a private connection. -/
def chfdw_get_scan_connection (st : Backend) (user : UserMapping) (attempt second : Option Nat) :
    Backend :=
  let (st, ok) := st.get_connection_entry GetSysCacheHashValue1 user attempt
  if !ok then st
  else
    let entry := st.lookup user.umid
    let lease := some st.leases.length
    if !entry.busy then
      let st := st.put { entry with busy := true }
      { st with leases := st.leases ++
          [⟨⟨entry.gate, some user.umid, lease⟩, st.lease_generation, false, false⟩] }
    else
      match second with
      | none => st
      | some addr =>
          let held := st.connected addr
          let st := st.clickhouse_connect addr
          { st with
            PrivateConnections := st.PrivateConnections ++ [held]
            leases := st.leases ++
              [⟨⟨some held, none, lease⟩, st.lease_generation, false, false⟩] }

end Backend

end

namespace Backend

/-- The part of a release after the `released` flag. -/
def give_back (st : Backend) (sconn : ch_scan_connection) : Backend :=
  match sconn.entry with
  | some umid => st.put { st.lookup umid with busy := false }
  | none =>
      match st.PrivateConnections.find?
          (fun held => decide (some held.conn = sconn.gate.map (·.conn))) with
      | none => st
      | some held =>
          { st.disconnect held with PrivateConnections := st.PrivateConnections.erase held }

def chfdw_release_scan_connection (st : Backend) (sconn : ch_scan_connection) : Backend :=
  match sconn.lease with
  | none => st.give_back sconn
  | some i =>
      match st.leases[i]? with
      | none => st
      | some lease =>
          if lease.released then st
          else { st with leases := st.leases.set i { lease with released := true } }.give_back sconn

/-- The memory of a lease is gone. -/
def free (st : Backend) (i : Nat) : Backend :=
  { st with leases := st.leases.modify i fun lease => { lease with freed := true } }

/-- The reset callback of a lease's memory context, which is freed next. -/
def release_lease (st : Backend) (i : Nat) : Backend :=
  match st.leases[i]? with
  | none => st
  | some lease =>
      if lease.generation = st.lease_generation then
        (st.chfdw_release_scan_connection lease.sconn).free i
      else st.free i

/-- A version lookup connects the entry and leaves it there. -/
def chfdw_get_server_version (GetSysCacheHashValue1 : CacheId → Nat → Nat) (st : Backend)
    (user : UserMapping) (attempt : Option Nat) : Backend :=
  (st.get_connection_entry GetSysCacheHashValue1 user attempt).1

def chfdw_inval_callback (st : Backend) (cacheid : CacheId) (hashvalue : Nat) : Backend :=
  { st with ConnectionHash := st.ConnectionHash.map fun entry =>
      if entry.gate.isNone then entry
      else if hashvalue = 0 ∨
          (cacheid = .FOREIGNSERVEROID ∧ entry.server_hashvalue = hashvalue) ∨
          (cacheid = .USERMAPPINGOID ∧ entry.mapping_hashvalue = hashvalue) then
        { entry with invalidated := true }
      else entry }

/-- What the end of a transaction does to one entry. -/
def settle (entry : ConnCacheEntry) : ConnCacheEntry :=
  if entry.invalidated then { entry with busy := false, gate := none }
  else { entry with busy := false }

def chfdw_xact_callback (st : Backend) (event : XactEvent) : Backend :=
  if event.ends then
    { st with
      PrivateConnections := []
      lease_generation := st.lease_generation + 1
      ConnectionHash := st.ConnectionHash.map settle
      heap := st.heap.filter fun c =>
        decide (c ∉ st.PrivateConnections) &&
          st.ConnectionHash.all fun entry => !(entry.invalidated && decide (entry.gate = some c)) }
  else st

end Backend

/-! ## Runs -/

/-- What can happen to a backend. -/
inductive Event
  /-- A scan or an insert asks for a connection. -/
  | acquire (user : UserMapping) (attempt second : Option Nat)
  /-- The holder of a `ch_scan_connection` releases it. -/
  | release (sconn : ch_scan_connection)
  /-- The memory context of a lease is reset or deleted. -/
  | reset (lease : Nat)
  /-- The planner asks for the server's version. -/
  | version (user : UserMapping) (attempt : Option Nat)
  | invalidate (cacheid : CacheId) (hashvalue : Nat)
  /-- A driver hits an error it cannot recover from. -/
  | broke (serial : Nat)
  | xact (event : XactEvent)

/-- A live lease has not been released, and its transaction has not ended. -/
def Backend.Live (st : Backend) (i : Nat) (lease : ch_lease) : Prop :=
  st.leases[i]? = some lease ∧ lease.released = false ∧
    lease.generation = st.lease_generation

variable (hash : CacheId → Nat → Nat)

/-- The promises of the environment.  An allocator returns an address that is not in
use.  A holder releases within the transaction of its lease and before the lease's memory
is freed, or it holds a zeroed handle.  A reset callback runs once. -/
def Enabled (st : Backend) : Event → Prop
  | .acquire user attempt second =>
      (∀ addr ∈ attempt, (st.close_stale user.umid).Fresh addr) ∧
        ∀ addr ∈ second, (st.get_connection_entry hash user attempt).1.Fresh addr
  | .release sconn => sconn = .zero ∨ ∃ (i : Nat) (lease : ch_lease),
      st.leases[i]? = some lease ∧ lease.sconn = sconn ∧ lease.freed = false ∧
        lease.generation = st.lease_generation
  | .reset i => ∃ lease : ch_lease, st.leases[i]? = some lease ∧ lease.freed = false
  | .version user attempt => ∀ addr ∈ attempt, (st.close_stale user.umid).Fresh addr
  | .invalidate _ _ => True
  | .broke _ => True
  | .xact _ => True

/-- What the code does at an event. -/
def Backend.apply (st : Backend) : Event → Backend
  | .acquire user attempt second => st.chfdw_get_scan_connection hash user attempt second
  | .release sconn => st.chfdw_release_scan_connection sconn
  | .reset i => st.release_lease i
  | .version user attempt => st.chfdw_get_server_version hash user attempt
  | .invalidate cacheid hashvalue => st.chfdw_inval_callback cacheid hashvalue
  | .broke serial => { st with broken := serial :: st.broken }
  | .xact event => st.chfdw_xact_callback event

/-- One event. -/
def Step (st : Backend) (event : Event) (st' : Backend) : Prop :=
  Enabled hash st event ∧ st' = st.apply hash event

/-- The states a backend reaches. -/
abbrev Reachable : Backend → Prop :=
  Runs.Reachable (fun st => st = Backend.initial) (Step hash)

end PgClickhouse.Connection

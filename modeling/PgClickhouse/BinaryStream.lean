import PgClickhouse.Basic
import PgClickhouse.Runs

/-!
# The wire of a binary connection

One socket carries the answers to every query of a binary connection.  `binary.c`,
`select.c` and `insert.c` read it from several places, and each place may stop early.

The answer to a query is a sequence of packets that ends with END_OF_STREAM or with an
exception.  The server answers queries in the order they are sent, so the oldest query
without its last packet is the one whose packet is read next; `awaiting` keeps those
queries, oldest first.  It and the log `sends` are read by no function of the source.

What the peer does is a parameter of a run: `wire` lists what successive calls of
`chc_client_recv_packet` yield, and a call beyond the end of the list fails.
-/

namespace PgClickhouse.Binary

/-- A block, of which the driver reads the number of columns and what
`chc_column_validate` says of each: nothing, or its error message. -/
structure chc_block where
  columns : List (Option Bytes)
  deriving Repr, DecidableEq

structure chc_exception where
  display_text : Option Bytes
  name : Option Bytes
  deriving Repr, DecidableEq

/-- The packets, the last of which stands for progress, logs and profiles. -/
inductive chc_packet
  | DATA (block : Option chc_block)
  | EXCEPTION (exception : Option chc_exception)
  | END_OF_STREAM
  | other
  deriving Repr, DecidableEq

/-- The packets a query's answer ends with. -/
def chc_packet.ends : chc_packet → Bool
  | .EXCEPTION _ | .END_OF_STREAM => true
  | _ => false

/-- What one call of `chc_client_recv_packet` yields: an error message, or a packet
together with what `check_cancel_fn` says right after it, if it is asked. -/
inductive Recv
  | failed (msg : Bytes)
  | packet (pkt : chc_packet) (canceled : Bool)
  deriving Repr, DecidableEq

/-- A query as it was sent: the mark of the connection and the queries with unread
packets at that moment. -/
structure Sent where
  broken : Bool
  unread : List Nat
  deriving Repr, DecidableEq

/-- A connection; `check_cancel_fn` says whether the pointer is set. -/
structure ch_binary_connection where
  broken : Bool
  check_cancel_fn : Bool
  awaiting : List Nat
  sends : List Sent
  deriving Repr, DecidableEq

namespace ch_binary_connection

def mark_broken (conn : ch_binary_connection) : ch_binary_connection :=
  { conn with broken := true }

/-- The client sends a query, whose number is its place in the log. -/
def send_query (conn : ch_binary_connection) : ch_binary_connection :=
  { conn with
    awaiting := conn.awaiting ++ [conn.sends.length]
    sends := conn.sends ++ [⟨conn.broken, conn.awaiting⟩] }

/-- The client fails to send a query. -/
def send_failed (conn : ch_binary_connection) : ch_binary_connection :=
  { conn with
    broken := true
    sends := conn.sends ++ [⟨conn.broken, conn.awaiting⟩] }

/-- A packet is read. -/
def read (conn : ch_binary_connection) (pkt : chc_packet) : ch_binary_connection :=
  if pkt.ends then { conn with awaiting := conn.awaiting.tail } else conn

end ch_binary_connection

def ch_binary_exception_message : Option chc_exception → Bytes
  | some ⟨some (c :: text), _⟩ => c :: text
  | some ⟨_, some (c :: name)⟩ => c :: name
  | _ => ascii "server exception"

/-- `binary.c`: read up to the end of the answer; the message is set where the answer
does not end with END_OF_STREAM. -/
def ch_binary_drain : List Recv → ch_binary_connection →
    List Recv × ch_binary_connection × Option Bytes
  | [], conn => ([], conn.mark_broken, some (ascii "recv_packet failed"))
  | .failed msg :: wire, conn =>
      (wire, conn.mark_broken, some (if msg = [] then ascii "recv_packet failed" else msg))
  | .packet pkt _ :: wire, conn =>
      match pkt with
      | .EXCEPTION ex =>
          (wire, (conn.read pkt).mark_broken, some (ch_binary_exception_message ex))
      | .END_OF_STREAM => (wire, conn.read pkt, none)
      | _ => ch_binary_drain wire (conn.read pkt)

/-! ## Selects -/

/-- A response.  `query` is the number of its query and `freed` says that its memory
is gone. -/
structure ch_binary_response where
  query : Nat
  eos : Bool
  error : Option Bytes
  staged : Option chc_block
  freed : Bool
  deriving Repr, DecidableEq

/-- The first error is kept. -/
def resp_set_error (resp : ch_binary_response) (msg : Bytes) : ch_binary_response :=
  match resp.error with
  | some _ => resp
  | none => { resp with error := some (if msg = [] then ascii "?" else msg) }

/-- The exits of `pump_one` that give the connection up. -/
def resp_broken (resp : ch_binary_response) (msg : Bytes) : ch_binary_response :=
  { resp_set_error resp msg with eos := true }

/-- The poll of `check_cancel_fn` after a packet. -/
def check_cancel (conn : ch_binary_connection) (canceled : Bool)
    (resp : ch_binary_response) : ch_binary_response :=
  if conn.check_cancel_fn && canceled then
    resp_set_error resp (ascii "query was canceled")
  else resp

def pump_one (conn : ch_binary_connection) (resp : ch_binary_response) :
    Recv → ch_binary_connection × ch_binary_response
  | .failed msg => (conn.mark_broken, resp_broken resp msg)
  | .packet pkt canceled =>
      let resp := check_cancel conn canceled resp
      let conn := conn.read pkt
      match pkt with
      | .DATA (some block) =>
          if block.columns ≠ [] ∧ resp.staged = none then
            match block.columns.findSome? id with
            | some msg => (conn.mark_broken, resp_broken resp msg)
            | none => (conn, { resp with staged := some block })
          else (conn, resp)
      | .EXCEPTION ex =>
          (conn.mark_broken, resp_broken resp (ch_binary_exception_message ex))
      | .END_OF_STREAM => (conn, { resp with eos := true })
      | _ => (conn, resp)

/-- The condition of both loops over `pump_one`. -/
def ch_binary_response.pumping (resp : ch_binary_response) : Bool :=
  resp.staged.isNone && !resp.eos && resp.error.isNone

/-- The loop over `pump_one`. -/
def pump : List Recv → ch_binary_connection → ch_binary_response →
    List Recv × ch_binary_connection × ch_binary_response
  | [], conn, resp =>
      ([], if resp.pumping then pump_one conn resp (.failed []) else (conn, resp))
  | recv :: wire, conn, resp =>
      if resp.pumping then
        let (conn, resp) := pump_one conn resp recv
        pump wire conn resp
      else (recv :: wire, conn, resp)

/-- `select.c`, with `check_cancel` set: `sent` says whether the query could be sent. -/
def ch_binary_simple_query (wire : List Recv) (conn : ch_binary_connection) (sent : Bool)
    (err : Bytes) : List Recv × ch_binary_connection × ch_binary_response :=
  let conn := { conn with check_cancel_fn := true }
  let resp : ch_binary_response := ⟨conn.sends.length, false, none, none, false⟩
  if sent then pump wire conn.send_query resp
  else (wire, conn.send_failed, resp_broken resp err)

/-- The block handed out, if any, comes last. -/
def ch_binary_response_fetch_next_block (wire : List Recv) (conn : ch_binary_connection)
    (resp : ch_binary_response) :
    List Recv × ch_binary_connection × ch_binary_response × Option chc_block :=
  let (wire, conn, resp) := pump wire conn resp
  (wire, conn, { resp with staged := none }, resp.staged)

def drain_until_eos (wire : List Recv) (conn : ch_binary_connection)
    (resp : ch_binary_response) (cancel_sent : Bool) :
    List Recv × ch_binary_connection × ch_binary_response :=
  if resp.eos then (wire, conn, resp)
  else
    let resp := { resp with eos := true }
    if cancel_sent then
      let (wire, conn, _) := ch_binary_drain wire { conn with check_cancel_fn := false }
      (wire, conn, resp)
    else (wire, conn.mark_broken, resp)

/-- `raised` says that the drain raised an error, which `PG_CATCH` swallows. -/
def ch_binary_response_free (wire : List Recv) (conn : ch_binary_connection)
    (resp : ch_binary_response) (cancel_sent raised : Bool) :
    List Recv × ch_binary_connection × ch_binary_response :=
  let (wire, conn, resp) := drain_until_eos wire conn resp cancel_sent
  let conn := if raised then conn.mark_broken else conn
  (wire, { conn with check_cancel_fn := false }, { resp with freed := true })

/-! ## Inserts -/

/-- An insert handle. -/
structure ch_binary_insert_handle where
  query : Nat
  finalized : Bool
  released : Bool
  deriving Repr, DecidableEq

/-- An error that leaves an insert function: a message of its own, a client error that
`pgch_raise` puts behind a prefix, or an error of the writer that passes through. -/
inductive Raised
  | ereport (msg : Bytes)
  | pgch_raise (before msg : Bytes)
  | writer (msg : Bytes)
  deriving Repr, DecidableEq

/-- Wait for the block that carries the schema. -/
def recv_initial_block : List Recv → ch_binary_connection →
    List Recv × ch_binary_connection × Except Raised chc_block
  | [], conn =>
      ([], conn.mark_broken, .error (.pgch_raise (ascii "could not prepare insert - ") []))
  | .failed msg :: wire, conn =>
      (wire, conn.mark_broken,
        .error (.pgch_raise (ascii "could not prepare insert - ") msg))
  | .packet pkt _ :: wire, conn =>
      match pkt with
      | .EXCEPTION ex =>
          (wire, (conn.read pkt).mark_broken,
            .error (.ereport (ascii "pg_clickhouse: could not prepare insert - " ++
              ch_binary_exception_message ex)))
      | .DATA (some block) =>
          if block.columns ≠ [] then (wire, conn.read pkt, .ok block)
          else recv_initial_block wire (conn.read pkt)
      | _ => recv_initial_block wire (conn.read pkt)

/-- End an insert whose writer could not be made; `data_sent` says whether the empty
block went out. -/
def drain_aborted_insert (wire : List Recv) (conn : ch_binary_connection)
    (data_sent : Bool) : List Recv × ch_binary_connection :=
  if data_sent then
    let (wire, conn, _) := ch_binary_drain wire conn
    (wire, conn)
  else (wire, conn.mark_broken)

/-- `writer` is what `pgch_writer_new` makes of the initial block: nothing, or the
message it raises. -/
def ch_binary_begin_insert (wire : List Recv) (conn : ch_binary_connection) (sent : Bool)
    (err : Bytes) (writer : chc_block → Option Bytes) (data_sent : Bool) :
    List Recv × ch_binary_connection × Except Raised ch_binary_insert_handle :=
  if sent then
    match recv_initial_block wire conn.send_query with
    | (wire, after, .error msg) => (wire, after, .error msg)
    | (wire, after, .ok block) =>
        match writer block with
        | none => (wire, after, .ok ⟨conn.sends.length, false, false⟩)
        | some msg =>
            let (wire, after) := drain_aborted_insert wire after data_sent
            (wire, after, .error (.writer msg))
  else
    (wire, conn.send_failed,
      .error (.pgch_raise (ascii "could not prepare insert - ") err))

/-- `built` says whether `pgch_writer_build` made a block, else it raises. -/
def ch_binary_flush_block (conn : ch_binary_connection) (built : Except Bytes chc_block)
    (sent : Bool) (err : Bytes) : ch_binary_connection × Except Raised Unit :=
  match built with
  | .error msg => (conn, .error (.writer msg))
  | .ok _ =>
      if sent then (conn, .ok ())
      else
        (conn.mark_broken, .error (.pgch_raise (ascii "could not insert columns - ") err))

def finish_error (msg : Bytes) : Raised :=
  .ereport (ascii "pg_clickhouse: could not finish INSERT - " ++ msg)

def ch_binary_finalize_insert (wire : List Recv) (conn : ch_binary_connection)
    (h : ch_binary_insert_handle) (sent : Bool) (err : Bytes) :
    List Recv × ch_binary_connection × ch_binary_insert_handle × Except Raised Unit :=
  if h.finalized then (wire, conn, h, .ok ())
  else
    let h := { h with finalized := true }
    if sent then
      match ch_binary_drain wire conn with
      | (wire, conn, none) => (wire, conn, h, .ok ())
      | (wire, conn, some msg) => (wire, conn, h, .error (finish_error msg))
    else
      (wire, conn.mark_broken, h,
        .error (finish_error (if err = [] then ascii "send_data failed" else err)))

def ch_binary_release_insert (conn : ch_binary_connection) (h : ch_binary_insert_handle) :
    ch_binary_connection × ch_binary_insert_handle :=
  (if h.finalized then conn else conn.mark_broken, { h with released := true })

/-! ## Runs -/

/-- A binary connection with every response and every insert made on it; a pointer to
one is its place in the list. -/
structure Driver where
  wire : List Recv
  conn : ch_binary_connection
  responses : List ch_binary_response
  inserts : List ch_binary_insert_handle
  deriving Repr, DecidableEq

/-- A connection no query has used, whatever its peer is going to send. -/
def Initial (s : Driver) : Prop :=
  s.conn = ⟨false, false, [], []⟩ ∧ s.responses = [] ∧ s.inserts = []

/-- The calls on a connection, with what the environment decides in each. -/
inductive Event
  | simple_query (sent : Bool) (err : Bytes)
  | fetch_next_block (i : Nat)
  | response_free (i : Nat) (cancel_sent raised : Bool)
  | begin_insert (sent : Bool) (err : Bytes) (writer : chc_block → Option Bytes)
      (data_sent : Bool)
  | flush_block (j : Nat) (built : Except Bytes chc_block) (sent : Bool) (err : Bytes)
  | finalize_insert (j : Nat) (sent : Bool) (err : Bytes)
  | release_insert (j : Nat)

namespace Driver

def fetch (s : Driver) (i : Nat) (resp : ch_binary_response) : Driver :=
  let (wire, conn, resp, _) := ch_binary_response_fetch_next_block s.wire s.conn resp
  { s with wire, conn, responses := s.responses.set i resp }

def free (s : Driver) (i : Nat) (resp : ch_binary_response) (cancel_sent raised : Bool) :
    Driver :=
  let (wire, conn, resp) := ch_binary_response_free s.wire s.conn resp cancel_sent raised
  { s with wire, conn, responses := s.responses.set i resp }

def finalize (s : Driver) (j : Nat) (h : ch_binary_insert_handle) (sent : Bool)
    (err : Bytes) : Driver :=
  let (wire, conn, h, _) := ch_binary_finalize_insert s.wire s.conn h sent err
  { s with wire, conn, inserts := s.inserts.set j h }

def release (s : Driver) (j : Nat) (h : ch_binary_insert_handle) : Driver :=
  let (conn, h) := ch_binary_release_insert s.conn h
  { s with conn, inserts := s.inserts.set j h }

/-- A response or an insert is used through a pointer that is still valid. -/
inductive Step : Driver → Event → Driver → Prop
  | simple_query {s : Driver} {sent : Bool} {err : Bytes} {wire : List Recv}
      {conn : ch_binary_connection} {resp : ch_binary_response} :
      ch_binary_simple_query s.wire s.conn sent err = (wire, conn, resp) →
      Step s (.simple_query sent err)
        { s with wire, conn, responses := s.responses ++ [resp] }
  | fetch_next_block {s : Driver} {i : Nat} {resp : ch_binary_response} :
      s.responses[i]? = some resp → resp.freed = false →
      Step s (.fetch_next_block i) (s.fetch i resp)
  | response_free {s : Driver} {i : Nat} {resp : ch_binary_response}
      {cancel_sent raised : Bool} :
      s.responses[i]? = some resp → resp.freed = false →
      Step s (.response_free i cancel_sent raised) (s.free i resp cancel_sent raised)
  | begin_insert {s : Driver} {sent : Bool} {err : Bytes}
      {writer : chc_block → Option Bytes} {data_sent : Bool} {wire : List Recv}
      {conn : ch_binary_connection} {h : ch_binary_insert_handle} :
      ch_binary_begin_insert s.wire s.conn sent err writer data_sent = (wire, conn, .ok h) →
      Step s (.begin_insert sent err writer data_sent)
        { s with wire, conn, inserts := s.inserts ++ [h] }
  | begin_insert_raised {s : Driver} {sent : Bool} {err : Bytes}
      {writer : chc_block → Option Bytes} {data_sent : Bool} {wire : List Recv}
      {conn : ch_binary_connection} {msg : Raised} :
      ch_binary_begin_insert s.wire s.conn sent err writer data_sent =
        (wire, conn, .error msg) →
      Step s (.begin_insert sent err writer data_sent) { s with wire, conn }
  | flush_block {s : Driver} {j : Nat} {h : ch_binary_insert_handle}
      {built : Except Bytes chc_block} {sent : Bool} {err : Bytes} :
      s.inserts[j]? = some h → h.released = false →
      Step s (.flush_block j built sent err)
        { s with conn := (ch_binary_flush_block s.conn built sent err).1 }
  | finalize_insert {s : Driver} {j : Nat} {h : ch_binary_insert_handle} {sent : Bool}
      {err : Bytes} :
      s.inserts[j]? = some h → h.released = false →
      Step s (.finalize_insert j sent err) (s.finalize j h sent err)
  | release_insert {s : Driver} {j : Nat} {h : ch_binary_insert_handle} :
      s.inserts[j]? = some h → h.released = false →
      Step s (.release_insert j) (s.release j h)

end Driver

end PgClickhouse.Binary

import PgClickhouse.HttpRequest

/-!
# Opening a cursor over HTTP

`http_native_cursor` is the query entry point of the HTTP driver.  It sends the statement
and waits for the first piece of the response.  When the transfer itself fails it ends the
stream and sends the statement again, under a fresh query id, up to three times in all.

The network decides how each attempt goes: whether the server executes the statement, and
how each call of `pump` ends.  The two are independent, since a connection can be lost
after the server has executed what it was sent.

* `again_spec`: the attempts that are made are the first ones, at most three, and every
  one but the last ended in a transport error.
* `http_native_cursor_executions`: so the server executes a statement at most once unless
  an earlier attempt ended in a transport error, and never more than three times.
-/

namespace PgClickhouse

def CH_HTTP_STATUS_CANCELED : Int := 418

def CH_HTTP_STATUS_TRANSPORT_ERROR : Int := 419

/-- ClickHouse answers 200 on success, but any 2xx means the query ran. -/
def ch_http_status_ok (status : Int) : Bool := decide (200 ≤ status) && decide (status < 300)

/-- True for a status whose body the caller reads as an error message. -/
def error_status (status : Int) : Bool :=
  if status = CH_HTTP_STATUS_CANCELED ∨ status = CH_HTTP_STATUS_TRANSPORT_ERROR then false
  else decide (status > 0) && !ch_http_status_ok status

/-- How a finished transfer failed. -/
inductive CURLcode
  | ABORTED_BY_CALLBACK
  | other (error : Bytes)
  deriving Repr, DecidableEq

/-- What libcurl does in one call of `pump`. -/
inductive Pumped
  /-- `curl_multi_perform` fails. -/
  | multi_error (error : Bytes)
  /-- A piece arrives or the transfer ends.  `response_code` is what the server has
  answered so far, `failure` how the transfer failed, if it did. -/
  | transferred (response_code : Int) (failure : Option CURLcode)
  deriving Repr, DecidableEq

/-- The parts of a stream that opening a cursor looks at. -/
structure HttpStream where
  query_id : QueryId
  streaming : Bool
  http_status : Int
  error_msg : Option Bytes
  deriving Repr, DecidableEq

def pump (stream : HttpStream) : Pumped → HttpStream
  | .multi_error error =>
      { stream with http_status := CH_HTTP_STATUS_TRANSPORT_ERROR, error_msg := some error }
  | .transferred response_code none => { stream with http_status := response_code }
  | .transferred _ (some .ABORTED_BY_CALLBACK) =>
      { stream with http_status := CH_HTTP_STATUS_CANCELED }
  | .transferred _ (some (.other error)) =>
      { stream with http_status := CH_HTTP_STATUS_TRANSPORT_ERROR, error_msg := some error }

/-- One attempt: the id it draws, whether its handles are allocated, whether the server
executes the statement it sends, and how the two calls of `pump` end. -/
structure Attempt where
  query_id : QueryId
  allocated : Bool
  executed : Bool
  first : Pumped
  second : Pumped
  deriving Repr, DecidableEq

/-- Send a request and wait for the start of the response.  `none` when an allocation
fails, and then nothing was sent. -/
def ch_http_stream_begin (req : ch_http_request) (attempt : Attempt) : Option HttpStream :=
  if !attempt.allocated then none
  else
    let stream := pump ⟨attempt.query_id, req.stream_chunks, 0, none⟩ attempt.first
    -- error bodies are reported whole, so the rest is buffered
    if stream.streaming && error_status stream.http_status then
      some (pump { stream with streaming := false } attempt.second)
    else some stream

/-- The errors opening a cursor raises. -/
inductive HttpError
  | init_failed
  | aborted
  | communication_error (error : Bytes)
  /-- The server's own message, read from the body. -/
  | server (status : Int)
  deriving Repr, DecidableEq

/-- The error for a stream whose status is not ok. -/
def report_http_stream_query_failure (stream : HttpStream) : HttpError :=
  if stream.http_status = CH_HTTP_STATUS_CANCELED then .aborted
  else if stream.http_status = CH_HTTP_STATUS_TRANSPORT_ERROR then
    .communication_error (stream.error_msg.getD (ascii "connection error"))
  else .server stream.http_status

/-- A statement the server executed, under the id of its request. -/
structure Execution where
  query_id : QueryId
  sql : Bytes
  deriving Repr, DecidableEq

/-- What came of opening a cursor: the attempts that sent the statement, in order, and the
stream or the error. -/
structure Opened where
  sent : List Attempt
  result : Except HttpError HttpStream

/-- The server executed the statement in these attempts. -/
def Opened.executions (opened : Opened) (sql : Bytes) : List Execution :=
  (opened.sent.filter (·.executed)).map fun attempt => ⟨attempt.query_id, sql⟩

/-- The loop at `again`, after `attempts` rounds. -/
def again (req : ch_http_request) (network : Nat → Attempt) (attempts : Nat) : Opened :=
  match ch_http_stream_begin req (network attempts) with
  | none => ⟨[], .error .init_failed⟩
  | some stream =>
      if stream.http_status = CH_HTTP_STATUS_TRANSPORT_ERROR ∧ attempts + 1 < 3 then
        let later := again req network (attempts + 1)
        ⟨network attempts :: later.sent, later.result⟩
      else if !ch_http_status_ok stream.http_status then
        ⟨[network attempts], .error (report_http_stream_query_failure stream)⟩
      else ⟨[network attempts], .ok stream⟩
termination_by 3 - attempts

/-- Open a cursor over a Native response.  `network` says how each attempt would go. -/
def http_native_cursor (version : ch_server_version) (timezone : Bytes) (query : ch_query)
    (network : Nat → Attempt) : Opened :=
  again ⟨query, native_overrides version timezone, true⟩ network 0

/-- The attempt ended in a transport error. -/
def Attempt.TransportError (req : ch_http_request) (attempt : Attempt) : Prop :=
  ∃ stream, ch_http_stream_begin req attempt = some stream ∧
    stream.http_status = CH_HTTP_STATUS_TRANSPORT_ERROR

theorem again_of_transport_error {req : ch_http_request} {network : Nat → Attempt}
    {attempts : Nat} {stream : HttpStream}
    (begun : ch_http_stream_begin req (network attempts) = some stream)
    (error : stream.http_status = CH_HTTP_STATUS_TRANSPORT_ERROR) (few : attempts + 1 < 3) :
    again req network attempts =
      ⟨network attempts :: (again req network (attempts + 1)).sent,
        (again req network (attempts + 1)).result⟩ := by
  rw [again]
  simp only [begun, if_pos (And.intro error few)]

theorem again_of_ok {req : ch_http_request} {network : Nat → Attempt} {attempts : Nat}
    {stream : HttpStream} (begun : ch_http_stream_begin req (network attempts) = some stream)
    (sound : stream.http_status ≠ CH_HTTP_STATUS_TRANSPORT_ERROR)
    (ok : ch_http_status_ok stream.http_status = true) :
    again req network attempts = ⟨[network attempts], .ok stream⟩ := by
  rw [again]
  simp only [begun, sound, false_and, if_false, ok, Bool.not_true, Bool.false_eq_true]

/-- The attempts that are made are the first ones, at most three in all, and all but the
last ended in a transport error. -/
theorem again_spec (req : ch_http_request) (network : Nat → Attempt) (attempts : Nat)
    (few : attempts < 3) :
    attempts + (again req network attempts).sent.length ≤ 3 ∧
      (again req network attempts).sent =
        (List.range (again req network attempts).sent.length).map
          (fun i => network (attempts + i)) ∧
      ∀ i, i + 1 < (again req network attempts).sent.length →
        (network (attempts + i)).TransportError req := by
  fun_induction again req network attempts with
  | case1 attempts failed => exact ⟨by simpa using Nat.le_of_lt few, rfl, nofun⟩
  | case2 attempts stream begun retry later ih =>
      obtain ⟨bound, made, errors⟩ := ih retry.2
      refine ⟨?_, ?_, ?_⟩
      · change attempts + (later.sent.length + 1) ≤ 3
        change attempts + 1 + later.sent.length ≤ 3 at bound
        omega
      · have shifted : (fun i => network (attempts + 1 + i)) =
            (fun i => network (attempts + i)) ∘ Nat.succ := by
          funext i
          rw [Function.comp_apply, Nat.add_assoc, Nat.add_comm 1 i]
        rw [List.length_cons, List.range_succ_eq_map, List.map_cons, List.map_map,
          ← shifted, ← made]
        rfl
      · intro i more
        cases i with
        | zero => exact ⟨stream, begun, retry.1⟩
        | succ i =>
            have error := errors i (by simpa using more)
            rwa [Nat.add_assoc, Nat.add_comm 1 i] at error
  | case3 attempts stream begun last failed => exact ⟨few, rfl, by simp⟩
  | case4 attempts stream begun last ok => exact ⟨few, rfl, by simp⟩

/-- Each attempt executes the statement at most once. -/
theorem executions_length_le (opened : Opened) (sql : Bytes) :
    (opened.executions sql).length ≤ opened.sent.length := by
  rw [Opened.executions, List.length_map]
  exact List.length_filter_le _ _

/-- The server executes a statement at most once for each attempt.  There are at most
three, and one after the first is made only when every earlier one ended in a transport
error; so a statement whose first attempt does not end in one is executed at most once. -/
theorem http_native_cursor_executions (version : ch_server_version) (timezone : Bytes)
    (query : ch_query) (network : Nat → Attempt) :
    let req : ch_http_request := ⟨query, native_overrides version timezone, true⟩
    let opened := http_native_cursor version timezone query network
    opened.executions query.sql =
        (((List.range opened.sent.length).map network).filter (·.executed)).map
          (fun attempt => ⟨attempt.query_id, query.sql⟩) ∧
      opened.sent.length ≤ 3 ∧
      (∀ i, i + 1 < opened.sent.length → (network i).TransportError req) ∧
      (¬ (network 0).TransportError req → (opened.executions query.sql).length ≤ 1) := by
  intro req opened
  obtain ⟨bound, made, errors⟩ := again_spec req network 0 (by decide)
  simp only [Nat.zero_add] at bound made errors
  have few : opened.sent.length ≤ 3 := bound
  refine ⟨?_, few, errors, ?_⟩
  · rw [Opened.executions]
    exact congrArg (fun sent => (List.filter (·.executed) sent).map _) made
  · intro first
    have single : opened.sent.length ≤ 1 := by
      by_contra more
      exact first (errors 0 (Nat.lt_of_not_le more))
    exact (executions_length_le opened query.sql).trans single

/-- A connection that is lost after the server has executed what it was sent. -/
def lostAfterExecution : Attempt where
  query_id := ⟨ascii "00000000-0000-4000-8000-000000000001", by decide +kernel⟩
  allocated := true
  executed := true
  first := .transferred 0 (some (.other (ascii "Recv failure: Connection reset by peer")))
  second := .transferred 0 none

/-- An attempt that succeeds. -/
def answered : Attempt where
  query_id := ⟨ascii "00000000-0000-4000-8000-000000000002", by decide +kernel⟩
  allocated := true
  executed := true
  first := .transferred 200 none
  second := .transferred 200 none

/-- A statement whose connection is lost after execution is executed again. -/
theorem http_native_cursor_executes_twice :
    ¬ ((http_native_cursor ⟨25, 3, 1⟩ (ascii "UTC")
        ⟨ascii "INSERT INTO t SELECT 1", [], [], none⟩
        (fun i => if i = 0 then lostAfterExecution else answered)).executions
          (ascii "INSERT INTO t SELECT 1")).length ≤ 1 := by
  have first : ∀ req, ch_http_stream_begin req lostAfterExecution =
      some ⟨lostAfterExecution.query_id, req.stream_chunks, CH_HTTP_STATUS_TRANSPORT_ERROR,
        some (ascii "Recv failure: Connection reset by peer")⟩ := by
    intro req
    simp [ch_http_stream_begin, lostAfterExecution, pump, error_status]
  have second : ∀ req, ch_http_stream_begin req answered =
      some ⟨answered.query_id, req.stream_chunks, 200, none⟩ := by
    intro req
    simp [ch_http_stream_begin, answered, pump, error_status, ch_http_status_ok]
  rw [http_native_cursor, again_of_transport_error (first _) rfl (by decide),
    again_of_ok (second _) (by decide) (by decide)]
  decide

end PgClickhouse

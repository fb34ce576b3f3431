import PgClickhouse.BlockSource
import PgClickhouse.HttpCursor

/-!
# Statements without a result

`clickhouse_perform` opens a cursor for its statement and deletes it.  Opening a cursor reads
the response up to the first block, and deleting it cancels what is not read and drains it.

The response is what the server sends and how it arrives: `wire` is what successive calls of
`chc_client_recv_packet` yield, `chunks` and `failure` what successive calls of
`ch_http_stream_next_chunk` do.  The decoder behind `pgch_reader_init` and
`pgch_reader_init_chunks` is a parameter.  It gets at the response by asking the source for one
piece after the other, a block or a chunk of the body; when it stops asking is its own decision.

* `performed_iff`: a call that returns means that the server has completed the statement
  without an exception, exactly if the decoder is not content with pieces that come before the
  end of the response.
-/

namespace PgClickhouse.Perform

open Binary

/-! ## A decoder and its source -/

/-- What a decoder makes of the pieces so far: it asks for more of them, it has a block, or it
has an error about them. -/
inductive Verdict
  | more
  | content
  | rejected (msg : Bytes)
  deriving Repr, DecidableEq

section

variable {σ β : Type} (next : σ → σ × Option β) (error : σ → Option Bytes)
  (verdict : List β → Verdict)

/-- The decoder has been handed the pieces `read` and is opened over a source: it ends with the
source and an error.  Of a source that is over it reports the error, and may have its own. -/
inductive Asks : List β → σ → σ × Option Bytes → Prop
  | ended {read : List β} {s s' : σ} {msg : Option Bytes} (spent : next s = (s', none))
      (reports : (error s').isSome → msg.isSome) : Asks read s (s', msg)
  | content {read : List β} {s s' : σ} {b : β} (handed : next s = (s', some b))
      (enough : verdict (read ++ [b]) = .content) : Asks read s (s', none)
  | rejected {read : List β} {s s' : σ} {b : β} {msg : Bytes} (handed : next s = (s', some b))
      (wrong : verdict (read ++ [b]) = .rejected msg) : Asks read s (s', some msg)
  | more {read : List β} {s s' : σ} {b : β} {opened : σ × Option Bytes}
      (handed : next s = (s', some b)) (waits : verdict (read ++ [b]) = .more)
      (later : Asks (read ++ [b]) s' opened) : Asks read s opened

/-- Some piece is enough for the decoder, and it asks for more before it. -/
def Content (read pieces : List β) : Prop :=
  ∃ n < pieces.length, verdict (read ++ pieces.take (n + 1)) = .content ∧
    ∀ m < n, verdict (read ++ pieces.take (m + 1)) = .more

/-- A source in a state of `inv` hands out these pieces; `going` holds behind each of them and
`spent` behind the last. -/
structure Serves (inv : σ → List β → Prop) (going spent : σ → Prop) : Prop where
  handed : ∀ {s b pieces}, inv s (b :: pieces) →
    ∃ s', next s = (s', some b) ∧ inv s' pieces ∧ going s'
  ended : ∀ {s}, inv s [] → ∃ s', next s = (s', none) ∧ spent s'

variable {next error verdict}

theorem not_content_nil (read : List β) : ¬ Content verdict read [] := fun content => by
  obtain ⟨n, bound, -⟩ := content
  exact absurd bound (Nat.not_lt_zero n)

/-- The first piece either leaves the decoder waiting, or decides. -/
theorem content_cons (read : List β) (b : β) (pieces : List β) :
    Content verdict read (b :: pieces) ↔
      verdict (read ++ [b]) = .content ∨
        verdict (read ++ [b]) = .more ∧ Content verdict (read ++ [b]) pieces := by
  constructor
  · rintro ⟨n, bound, found, before⟩
    cases n with
    | zero => exact .inl (by simpa using found)
    | succ n =>
        refine .inr ⟨by simpa using before 0 (Nat.succ_pos n), n, by simpa using bound, ?_, ?_⟩
        · simpa [List.append_assoc] using found
        · intro m less
          simpa [List.append_assoc] using before (m + 1) (Nat.succ_lt_succ less)
  · rintro (found | ⟨waits, n, bound, found, before⟩)
    · exact ⟨0, by simp, by simpa using found, fun m less => absurd less (Nat.not_lt_zero m)⟩
    · refine ⟨n + 1, by simpa using bound, by simpa [List.append_assoc] using found, ?_⟩
      intro m less
      cases m with
      | zero => simpa using waits
      | succ m => simpa [List.append_assoc] using before m (Nat.lt_of_succ_lt_succ less)

/-- The decoder is content with pieces on the way, or has an error, or has come to the end of a
source without one. -/
theorem Serves.asks {inv : σ → List β → Prop} {going spent : σ → Prop}
    (serves : Serves next inv going spent) {read pieces : List β} {s s' : σ}
    {msg : Option Bytes} (start : inv s pieces)
    (asks : Asks next error verdict read s (s', msg)) :
    Content verdict read pieces ∧ msg = none ∧ going s' ∨
      ¬ Content verdict read pieces ∧ (msg = none → error s' = none ∧ spent s') := by
  induction pieces generalizing read s with
  | nil =>
      obtain ⟨left, last, after⟩ := serves.ended start
      refine .inr ⟨not_content_nil read, fun silent => ?_⟩
      cases asks with
      | ended stops reports =>
          obtain rfl := (Prod.mk.inj (last.symm.trans stops)).1
          rw [silent] at reports
          exact ⟨by simpa using reports, after⟩
      | content handed => cases last.symm.trans handed
      | rejected handed => cases last.symm.trans handed
      | more handed => cases last.symm.trans handed
  | cons b pieces ih =>
      obtain ⟨left, first, rest, after⟩ := serves.handed start
      rw [content_cons]
      cases asks with
      | ended stops => cases first.symm.trans stops
      | content handed enough =>
          cases first.symm.trans handed
          exact .inl ⟨.inl enough, rfl, after⟩
      | rejected handed wrong =>
          cases first.symm.trans handed
          exact .inr ⟨by simp [wrong], nofun⟩
      | more handed waits later =>
          cases first.symm.trans handed
          simpa [waits] using ih rest later

end

/-- How a call ends: with an error, or normally.  `ended` says whether the end of the response
had been read when the cursor was deleted; what is not read then is canceled. -/
inductive Outcome
  | raised (msg : Bytes)
  | returned (ended : Bool)
  deriving Repr, DecidableEq

/-! ## The binary driver -/

/-- The answer to a statement over the binary protocol. -/
structure BinaryResponse where
  conn : ch_binary_connection
  wire : List Recv
  sent : Bool
  err : Bytes
  cancel_sent : Bool
  drain_raised : Bool
  deriving Repr, DecidableEq

section

variable (pgch_reader_init : Source → Source × Option Bytes)

/-- The cursor's source and the error of opening it. -/
def binary_simple_query (response : BinaryResponse) : Source × Option Bytes :=
  let s := opened response.wire response.conn response.sent response.err
  match resp_src_error s with
  | some msg => (s, some msg)
  | none => pgch_reader_init s

/-- The connection after the response is freed comes last. -/
def binary_perform (response : BinaryResponse) : Outcome × ch_binary_connection :=
  let (s, error) := binary_simple_query pgch_reader_init response
  let (_, conn, _) :=
    ch_binary_response_free s.wire s.conn s.resp response.cancel_sent response.drain_raised
  match error with
  | some msg => (.raised msg, conn)
  | none => (.returned s.resp.eos, conn)

end

/-! ## HTTP -/

/-- A response body: the chunks still to come, how the transfer fails behind them, the exception
that the server has written into the body, and whether its end has been read. -/
structure HttpBody where
  chunks : List Bytes
  failure : Option Bytes
  exception : Option Bytes
  ended : Bool
  deriving Repr, DecidableEq

/-- The answer to a statement over HTTP, at the last attempt.  The server that fails behind its
status line writes the exception into the body. -/
structure HttpResponse where
  status : Int
  body_error : Bytes
  chunks : List Bytes
  failure : Option Bytes
  exception : Option Bytes
  deriving Repr, DecidableEq

def HttpResponse.body (response : HttpResponse) : HttpBody :=
  ⟨response.chunks, response.failure, response.exception, false⟩

def ch_http_stream_next_chunk (body : HttpBody) : HttpBody × Option Bytes :=
  match body.chunks with
  | [] => ({ body with ended := body.failure.isNone }, none)
  | chunk :: chunks => ({ body with chunks }, some chunk)

/-- What the decoder runs into behind the last chunk. -/
def HttpBody.error (body : HttpBody) : Option Bytes := body.failure.or body.exception

def http_perform (pgch_reader_init_chunks : HttpBody → HttpBody × Option Bytes)
    (response : HttpResponse) : Outcome :=
  if ch_http_status_ok response.status then
    match pgch_reader_init_chunks response.body with
    | (_, some msg) => .raised msg
    | (body, none) => .returned body.ended
  else .raised response.body_error

/-! ## Both -/

inductive Response
  | binary (response : BinaryResponse)
  | http (response : HttpResponse)
  deriving Repr, DecidableEq

/-- The decoder: what opening a reader does to a source of blocks and to one of chunks, and what
it makes of the blocks and of the chunks so far. -/
structure Decoder where
  pgch_reader_init : Source → Source × Option Bytes
  pgch_reader_init_chunks : HttpBody → HttpBody × Option Bytes
  blocks : List chc_block → Verdict
  chunks : List Bytes → Verdict

/-- What the drivers rely on: the reader uses a response through the callbacks it is given,
needs a piece of it to begin with, and reports the error of a source that is over: a failed
transfer, and a body that ends in an exception. -/
structure Decoder.Documented (decoder : Decoder) : Prop where
  blocks : ∀ s, Asks resp_src_next_block resp_src_error decoder.blocks [] s
    (decoder.pgch_reader_init s)
  chunks : ∀ body, Asks ch_http_stream_next_chunk HttpBody.error decoder.chunks [] body
    (decoder.pgch_reader_init_chunks body)

def clickhouse_perform (decoder : Decoder) : Response → Outcome
  | .binary response => (binary_perform decoder.pgch_reader_init response).1
  | .http response => http_perform decoder.pgch_reader_init_chunks response

/-- The server completes the statement without an exception, and its answer arrives whole. -/
def Completes : Response → Prop
  | .binary response => report (answer response.wire response.sent response.err) = none
  | .http response =>
      ch_http_status_ok response.status = true ∧ response.failure = none ∧
        response.exception = none

/-- A call that returns has seen the end of a statement that the server completed. -/
def Performed (decoder : Decoder) (response : Response) : Prop :=
  ∀ ended, clickhouse_perform decoder response = .returned ended →
    ended = true ∧ Completes response

/-- The packets before the first error of an answer. -/
def sound (packets : List Recv) : List Recv := packets.takeWhile (·.report.isNone)

/-- The response does not fail before its first piece, and the decoder is content with pieces
that come before its end. -/
def BlockFirst (decoder : Decoder) : Response → Prop
  | .binary response =>
      let packets := answer response.wire response.sent response.err
      blocks (sound packets) ≠ [] ∧ Content decoder.blocks [] (blocks packets)
  | .http response =>
      ch_http_status_ok response.status = true ∧ Content decoder.chunks [] response.chunks

/-! ### Opening a binary cursor -/

theorem pump_stopped {wire : List Recv} {conn : ch_binary_connection} {resp : ch_binary_response}
    (stopped : resp.pumping = false) : Binary.pump wire conn resp = (wire, conn, resp) := by
  cases wire <;> simp [Binary.pump, stopped]

theorem sound_cons (recv : Recv) (packets : List Recv) :
    sound (recv :: packets) = if recv.report.isNone then recv :: sound packets else [] := by
  simp only [sound, List.takeWhile_cons]

/-- The header is staged, or there is none and the response is over. -/
def Opens (packets : List Recv) (resp : ch_binary_response) : Prop :=
  (∃ block, (blocks (sound packets)).head? = some block ∧ resp.staged = some block ∧
    resp.error = none ∧ resp.eos = false) ∨
  (blocks (sound packets)).head? = none ∧ resp.error = report packets ∧
    (report packets = none → resp.eos = true ∧ resp.staged = none)

/-- A packet with a block is no end of an answer. -/
theorem ended_of_block {recv : Recv} {block : chc_block} (found : recv.block = some block) :
    recv.ended = false := by
  unfold Recv.block at found
  split at found
  · rename_i b canceled
    split at found
    · rename_i valid
      simp [Recv.ended, Recv.complete, Recv.fault, valid.2]
    · cases found
  · cases found

/-- One packet opens the response, if it is not one to skip. -/
theorem opens_packet (recv : Recv) (rest : List Recv) (resp : ch_binary_response)
    (stops : recv.last = true ∨ recv.block.isSome = true) :
    Opens (if recv.last then [recv] else recv :: rest)
      { resp with eos := recv.ended, error := recv.report, staged := recv.block } := by
  cases error : recv.report with
  | some msg =>
      have last : recv.last = true := by simp [Recv.last, error]
      refine .inr ?_
      simp [last, sound, error, blocks, report]
  | none =>
      cases found : recv.block with
      | some block =>
          have goesOn : recv.ended = false := ended_of_block found
          have more : recv.last = false := by rw [last_eq, goesOn, error]; rfl
          refine .inl ⟨block, ?_, rfl, rfl, goesOn⟩
          simp [more, sound_cons, error, blocks_cons, found]
      | none =>
          have last : recv.last = true := by simpa [found] using stops
          have ended : recv.ended = true := by
            rw [last_eq, error] at last
            simpa using last
          refine .inr ?_
          simp [last, sound_cons, error, blocks_cons, found, report_cons, ended]
          simp [sound, blocks, report]

theorem opens_skip {recv : Recv} {rest : List Recv} {resp : ch_binary_response}
    (skipped : recv.last = false) (empty : recv.block = none) (opens : Opens rest resp) :
    Opens (recv :: rest) resp := by
  have silent : recv.report = none := by
    rw [last_eq] at skipped
    simpa using (Bool.or_eq_false_iff.mp skipped).2
  have same : blocks (sound (recv :: rest)) = blocks (sound rest) := by
    simp [sound_cons, silent, blocks_cons, empty]
  unfold Opens at opens ⊢
  rw [same, report_cons, silent, Option.none_or]
  exact opens

theorem pump_opens (wire : List Recv) (conn : ch_binary_connection) (resp : ch_binary_response)
    (polls : conn.check_cancel_fn = true) (waits : resp.pumping = true) :
    Opens (reply wire) (Binary.pump wire conn resp).2.2 := by
  induction wire generalizing conn resp with
  | nil =>
      rw [Binary.pump, if_pos waits, pump_one_resp conn resp _ polls waits]
      exact opens_packet (.failed []) [] resp (.inl rfl)
  | cons recv wire ih =>
      rw [Binary.pump, if_pos waits, reply]
      have one := pump_one_resp conn resp recv polls waits
      have stillPolls : (pump_one conn resp recv).1.check_cancel_fn = true := by
        rw [pump_one_polls, polls]
      by_cases stops : recv.last = true ∨ recv.block.isSome = true
      · have stopped : (pump_one conn resp recv).2.pumping = false := by
          rw [one]
          rcases stops with last | found
          · rw [last_eq, Bool.or_eq_true] at last
            rcases last with ended | error
            · simp [ch_binary_response.pumping, ended]
            · simp [ch_binary_response.pumping, Option.isNone_eq_false_iff.mpr error]
          · simp [ch_binary_response.pumping, Option.isNone_eq_false_iff.mpr found]
        dsimp only
        rw [pump_stopped stopped, one]
        exact opens_packet recv (reply wire) resp stops
      · rw [not_or, Bool.not_eq_true, Bool.not_eq_true, Option.isSome_eq_false_iff,
          Option.isNone_iff_eq_none] at stops
        obtain ⟨skipped, empty⟩ := stops
        rw [if_neg (by rw [skipped]; simp)]
        have goesOn : (pump_one conn resp recv).2.pumping = true := by
          rw [one, empty, pumping_iff]
          rw [last_eq, Bool.or_eq_false_iff] at skipped
          exact ⟨rfl, skipped.1, by simpa using skipped.2⟩
        exact opens_skip skipped empty (ih _ _ stillPolls goesOn)

theorem opened_opens (response : BinaryResponse) :
    Opens (answer response.wire response.sent response.err)
      (opened response.wire response.conn response.sent response.err).resp := by
  cases sent : response.sent with
  | false =>
      refine .inr ?_
      simp [opened, ch_binary_simple_query, answer, resp_broken_eq, sound, blocks, report,
        Recv.report, Recv.fault, Recv.canceled]
  | true => exact pump_opens response.wire _ _ rfl rfl

/-! ### Each driver -/

/-- A source of blocks between two calls: these blocks and this error are to come. -/
structure Awaits (msg : Option Bytes) (s : Source) (pieces : List chc_block) : Prop where
  polls : s.conn.check_cancel_fn = true
  fresh : s.resp.staged.isSome = true → s.resp.eos = false
  ahead : s.ahead = (pieces, msg)

/-- A block that a packet stages does not end the answer. -/
theorem pump_one_fresh {conn : ch_binary_connection} {resp : ch_binary_response} (recv : Recv)
    (polls : conn.check_cancel_fn = true) (waits : resp.pumping = true)
    (staged : (pump_one conn resp recv).2.staged.isSome = true) :
    (pump_one conn resp recv).2.eos = false := by
  rw [pump_one_resp conn resp recv polls waits] at staged ⊢
  obtain ⟨block, found⟩ := Option.isSome_iff_exists.mp staged
  exact ended_of_block found

theorem pump_fresh (wire : List Recv) (conn : ch_binary_connection) (resp : ch_binary_response)
    (polls : conn.check_cancel_fn = true)
    (fresh : resp.staged.isSome = true → resp.eos = false) :
    (Binary.pump wire conn resp).2.2.staged.isSome = true →
      (Binary.pump wire conn resp).2.2.eos = false := by
  induction wire generalizing conn resp with
  | nil =>
      rw [Binary.pump]
      split
      · rename_i waits
        exact pump_one_fresh _ polls waits
      · exact fresh
  | cons recv wire ih =>
      rw [Binary.pump]
      split
      · rename_i waits
        have stillPolls := (pump_one_polls conn resp recv).trans polls
        exact ih _ _ stillPolls (pump_one_fresh recv polls waits)
      · exact fresh

/-- The block source hands out the blocks of the answer, and then it is settled. -/
theorem serves_blocks (msg : Option Bytes) :
    Serves resp_src_next_block (Awaits msg) (fun s => s.resp.eos = false)
      (fun s => s.settled = true ∧ s.ahead.2 = msg) where
  handed {s b pieces} awaits := by
    obtain ⟨block, rest, polls, -⟩ := resp_src_next_block_ahead s awaits.polls
    have fresh := pump_fresh s.wire s.conn s.resp awaits.polls awaits.fresh
    rw [awaits.ahead] at block rest
    have eos : (resp_src_next_block s).1.resp.eos = false := by
      refine fresh ?_
      have staged : (Binary.pump s.wire s.conn s.resp).2.2.staged = some b := block
      rw [staged]
      rfl
    exact ⟨_, Prod.ext rfl block, ⟨polls, fun _ => eos, rest⟩, eos⟩
  ended {s} awaits := by
    obtain ⟨block, rest, -, settled⟩ := resp_src_next_block_ahead s awaits.polls
    rw [awaits.ahead] at block rest
    exact ⟨_, Prod.ext rfl block, settled block, congrArg Prod.snd rest⟩

/-- A source that has been opened awaits the answer. -/
theorem opened_awaits (response : BinaryResponse) :
    Awaits (report (answer response.wire response.sent response.err))
      (opened response.wire response.conn response.sent response.err)
      (blocks (answer response.wire response.sent response.err)) := by
  obtain ⟨ahead, polls⟩ :=
    opened_ahead response.wire response.conn response.sent response.err
  refine ⟨polls, ?_, ahead⟩
  cases response.sent with
  | false => simp [opened, ch_binary_simple_query, resp_broken_eq]
  | true => exact pump_fresh response.wire _ _ rfl fun staged => by cases staged

theorem binary_perform_outcome {pgch_reader_init : Source → Source × Option Bytes}
    {response : BinaryResponse} {s : Source} {error : Option Bytes}
    (called : binary_simple_query pgch_reader_init response = (s, error)) :
    (binary_perform pgch_reader_init response).1 = error.elim (.returned s.resp.eos) .raised := by
  rw [binary_perform, called]
  cases error <;> rfl

theorem binary_performed_iff {decoder : Decoder} (documented : decoder.Documented)
    (response : BinaryResponse) :
    Performed decoder (.binary response) ↔ ¬ BlockFirst decoder (.binary response) := by
  have opens := opened_opens response
  have awaits := opened_awaits response
  cases silent : resp_src_error
      (opened response.wire response.conn response.sent response.err) with
  | some msg =>
      -- the response has failed before its first block
      have headerless : (blocks (sound (answer response.wire response.sent response.err))).head? =
          none := by
        rcases opens with ⟨block, -, -, noError, -⟩ | ⟨header, -, -⟩
        · cases silent.symm.trans noError
        · exact header
      have called : binary_simple_query decoder.pgch_reader_init response =
          (opened response.wire response.conn response.sent response.err, some msg) := by
        rw [binary_simple_query, silent]
      have outcome := binary_perform_outcome called
      refine iff_of_true ?_ fun first => first.1 (List.head?_eq_none_iff.mp headerless)
      intro ended returned
      cases outcome.symm.trans returned
  | none =>
      rcases reader : decoder.pgch_reader_init
        (opened response.wire response.conn response.sent response.err) with ⟨s, msg⟩
      have asks := documented.blocks
        (opened response.wire response.conn response.sent response.err)
      rw [reader] at asks
      have called : binary_simple_query decoder.pgch_reader_init response = (s, msg) := by
        rw [binary_simple_query, silent, reader]
      have outcome := binary_perform_outcome called
      rcases (serves_blocks _).asks awaits asks with ⟨content, rfl, goesOn⟩ | ⟨discontent, spent⟩
      · have header : blocks (sound (answer response.wire response.sent response.err)) ≠ [] := by
          rcases opens with ⟨block, header, -⟩ | ⟨-, error, ended⟩
          · intro empty
            rw [empty] at header
            cases header
          · -- without a header the response is over, and hands out nothing
            obtain ⟨eos, empty⟩ := ended (error.symm.trans silent)
            have ahead := awaits.ahead
            rw [ahead_error (by simp [Source.settled, eos]), empty] at ahead
            rw [← (Prod.mk.inj ahead).1] at content
            exact absurd content (not_content_nil [])
        refine iff_of_false (fun performed => ?_) (not_not_intro ⟨header, content⟩)
        have ended := (performed _ outcome).1
        rw [goesOn] at ended
        cases ended
      · refine iff_of_true ?_ fun first => discontent first.2
        intro ended returned
        cases msg with
        | some msg => cases outcome.symm.trans returned
        | none =>
            obtain ⟨noError, settled, reported⟩ := spent rfl
            have complete : report (answer response.wire response.sent response.err) = none := by
              rw [← reported, ahead_error settled]
              exact noError
            have eos : s.resp.eos = true := by
              have noError : s.resp.error = none := noError
              simpa [Source.settled, noError] using settled
            have same := Outcome.returned.inj (outcome.symm.trans returned)
            exact ⟨same.symm.trans eos, complete⟩

/-- The chunks of a body are handed out, and then its end is known. -/
theorem serves_chunks (failure exception : Option Bytes) :
    Serves ch_http_stream_next_chunk
      (fun body chunks => body = ⟨chunks, failure, exception, false⟩)
      (fun body => body.ended = false)
      (fun body => body.ended = failure.isNone ∧ body.error = failure.or exception) where
  handed := by
    rintro _ chunk chunks rfl
    exact ⟨_, rfl, rfl, rfl⟩
  ended := by
    rintro _ rfl
    exact ⟨_, rfl, rfl, rfl⟩

theorem http_perform_outcome {pgch_reader_init_chunks : HttpBody → HttpBody × Option Bytes}
    {response : HttpResponse} {body : HttpBody} {error : Option Bytes}
    (called : pgch_reader_init_chunks response.body = (body, error)) :
    http_perform pgch_reader_init_chunks response =
      if ch_http_status_ok response.status then error.elim (.returned body.ended) .raised
      else .raised response.body_error := by
  rw [http_perform, called]
  cases error <;> rfl

theorem http_performed_iff {decoder : Decoder} (documented : decoder.Documented)
    (response : HttpResponse) :
    Performed decoder (.http response) ↔ ¬ BlockFirst decoder (.http response) := by
  rcases reader : decoder.pgch_reader_init_chunks response.body with ⟨body, msg⟩
  have asks := documented.chunks response.body
  rw [reader] at asks
  have outcome := http_perform_outcome reader
  cases ok : ch_http_status_ok response.status with
  | false => simp [Performed, BlockFirst, clickhouse_perform, outcome, ok]
  | true =>
      rcases (serves_chunks _ _).asks rfl asks with ⟨content, rfl, goesOn⟩ | ⟨discontent, spent⟩
      · simp [Performed, BlockFirst, clickhouse_perform, outcome, ok, content, goesOn]
      · cases msg with
        | some msg =>
            simp [Performed, BlockFirst, clickhouse_perform, outcome, ok, discontent]
        | none =>
            obtain ⟨noError, ended, reported⟩ := spent rfl
            rw [reported, Option.or_eq_none_iff] at noError
            simp [Performed, BlockFirst, Completes, clickhouse_perform, outcome, ok, discontent,
              ended, noError]

/-- A call that returns means a completed statement, exactly if the decoder is not content
before the end. -/
theorem performed_iff {decoder : Decoder} (documented : decoder.Documented)
    (response : Response) : Performed decoder response ↔ ¬ BlockFirst decoder response := by
  cases response with
  | binary response => exact binary_performed_iff documented response
  | http response => exact http_performed_iff documented response

/-- A decoder that is content with any piece. -/
def firstPiece : Decoder where
  pgch_reader_init s :=
    match resp_src_next_block s with
    | (s, none) => (s, resp_src_error s)
    | (s, some _) => (s, none)
  pgch_reader_init_chunks body :=
    match ch_http_stream_next_chunk body with
    | (body, none) => (body, body.error)
    | (body, some _) => (body, none)
  blocks _ := .content
  chunks _ := .content

theorem firstPiece_documented : firstPiece.Documented where
  blocks s := by
    simp only [firstPiece]
    split
    · rename_i spent
      exact .ended spent id
    · rename_i handed
      exact .content handed rfl
  chunks body := by
    simp only [firstPiece]
    split
    · rename_i spent
      exact .ended spent id
    · rename_i handed
      exact .content handed rfl

/-- A header and then an exception, behind which the connection is read to its end. -/
def failsLate : BinaryResponse where
  conn := ⟨false, false, [], []⟩
  wire :=
    [.packet (.DATA (some ⟨[none]⟩)) false,
      .packet (.EXCEPTION (some ⟨some (ascii "Code: 241. Memory limit exceeded"), none⟩)) false]
  sent := true
  err := []
  cancel_sent := true
  drain_raised := false

theorem performed_iff_failsLate :
    Performed firstPiece (.binary failsLate) ↔ ¬ BlockFirst firstPiece (.binary failsLate) :=
  performed_iff firstPiece_documented (.binary failsLate)

/-- The exception is lost, and the statement was canceled. -/
theorem not_performed : firstPiece.Documented ∧ ¬ Performed firstPiece (.binary failsLate) := by
  refine ⟨firstPiece_documented, fun performed => ?_⟩
  have lost := performed false rfl
  cases lost.1

end PgClickhouse.Perform

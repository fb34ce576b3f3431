import PgClickhouse.BinaryStream

/-!
# The block source of a binary select

`ch_binary_response_block_source` hands the blocks of an answer to the reader one by one.
A block may wait in `staged` from the moment the query is opened.

What an answer amounts to is said without the staging slot: `answer` cuts the packets of
one answer out of the wire, `blocks` are its blocks with columns and `report` is its
error.  `block_source_faithful` compares the block source with them, for any number of
calls.
-/

namespace PgClickhouse.Binary

/-! ## The answer on the wire -/

/-- What is wrong with the first column that is not valid. -/
def chc_block.invalid (block : chc_block) : Option Bytes :=
  block.columns.findSome? id

/-- An error message as it is shown. -/
def shown (msg : Bytes) : Bytes :=
  if msg = [] then ascii "?" else msg

/-- The error of the protocol or of the server that a packet is. -/
def Recv.fault : Recv → Option Bytes
  | .failed msg => some (shown msg)
  | .packet (.EXCEPTION ex) _ => some (ch_binary_exception_message ex)
  | .packet (.DATA (some block)) _ => block.invalid.map shown
  | _ => none

/-- The block a packet carries: it has columns, and all of them are valid. -/
def Recv.block : Recv → Option chc_block
  | .packet (.DATA (some block)) _ =>
      if block.columns ≠ [] ∧ block.invalid = none then some block else none
  | _ => none

/-- The user had canceled the query when the packet came. -/
def Recv.canceled : Recv → Bool
  | .packet _ canceled => canceled
  | .failed _ => false

/-- The server says that the answer is complete. -/
def Recv.complete : Recv → Bool
  | .packet .END_OF_STREAM _ => true
  | _ => false

/-- The error the user sees for a packet; a cancellation comes before the packet's own. -/
def Recv.report (recv : Recv) : Option Bytes :=
  if recv.canceled then some (ascii "query was canceled") else recv.fault

/-- Nothing of the answer is read after such a packet. -/
def Recv.last (recv : Recv) : Bool :=
  recv.complete || recv.report.isSome

/-- The packets of the answer that is next on the wire. -/
def reply : List Recv → List Recv
  | [] => [.failed []]
  | recv :: wire => if recv.last then [recv] else recv :: reply wire

/-- The answer to a query; one that could not be sent has failed at once. -/
def answer (wire : List Recv) (sent : Bool) (err : Bytes) : List Recv :=
  if sent then reply wire else [.failed err]

/-- The blocks of an answer, in the order the server sends them. -/
def blocks (packets : List Recv) : List chc_block :=
  packets.filterMap Recv.block

/-- The error of an answer. -/
def report (packets : List Recv) : Option Bytes :=
  packets.findSome? Recv.report

/-! ## The block source -/

/-- A response between two calls, with the wire and the connection it reads from. -/
structure Source where
  wire : List Recv
  conn : ch_binary_connection
  resp : ch_binary_response

def opened (wire : List Recv) (conn : ch_binary_connection) (sent : Bool) (err : Bytes) :
    Source :=
  let (wire, conn, resp) := ch_binary_simple_query wire conn sent err
  ⟨wire, conn, resp⟩

def resp_src_next_block (s : Source) : Source × Option chc_block :=
  let (wire, conn, resp, block) := ch_binary_response_fetch_next_block s.wire s.conn s.resp
  (⟨wire, conn, resp⟩, block)

def resp_src_error (s : Source) : Option Bytes :=
  s.resp.error

/-- `n` calls of the block source, with what each of them returns. -/
def next_blocks : Nat → Source → Source × List (Option chc_block)
  | 0, s => (s, [])
  | n + 1, s =>
      let (s, block) := resp_src_next_block s
      let (s, handed) := next_blocks n s
      (s, block :: handed)

/-! ## One packet -/

theorem exception_message_ne_nil (ex : Option chc_exception) :
    ch_binary_exception_message ex ≠ [] := by
  unfold ch_binary_exception_message
  split
  · simp
  · simp
  · decide

/-- A packet sets `eos` when it is an error of its own or the end of the stream. -/
def Recv.ended (recv : Recv) : Bool :=
  recv.complete || recv.fault.isSome

theorem pumping_iff (resp : ch_binary_response) :
    resp.pumping = true ↔ resp.staged = none ∧ resp.eos = false ∧ resp.error = none := by
  simp [ch_binary_response.pumping, and_assoc]

/-- A packet that is an error of its own leaves its message, unless one is there. -/
theorem resp_broken_eq (resp : ch_binary_response) (msg : Bytes) :
    resp_broken resp msg =
      { resp with eos := true, error := some (resp.error.getD (shown msg)) } := by
  unfold resp_broken resp_set_error shown
  cases known : resp.error <;> simp [known]

/-- The poll after a packet, while no error is known. -/
theorem check_cancel_eq {conn : ch_binary_connection} {resp : ch_binary_response}
    (canceled : Bool) (polls : conn.check_cancel_fn = true) (noError : resp.error = none) :
    check_cancel conn canceled resp =
      { resp with
        error := if canceled then some (ascii "query was canceled") else none } := by
  obtain ⟨query, eos, error, staged, freed⟩ := resp
  simp only at noError
  subst noError
  cases canceled <;> simp [check_cancel, resp_set_error, polls, ascii]

theorem read_polls (conn : ch_binary_connection) (pkt : chc_packet) :
    (conn.read pkt).check_cancel_fn = conn.check_cancel_fn := by
  unfold ch_binary_connection.read
  split <;> rfl

/-- A block that finds the slot empty. -/
theorem pump_one_data (conn : ch_binary_connection) (resp : ch_binary_response)
    (block : chc_block) (canceled : Bool)
    (noBlock : (check_cancel conn canceled resp).staged = none) :
    pump_one conn resp (.packet (.DATA (some block)) canceled) =
      let resp := check_cancel conn canceled resp
      let conn := conn.read (.DATA (some block))
      if block.columns = [] then (conn, resp)
      else
        match block.invalid with
        | some msg => (conn.mark_broken, resp_broken resp msg)
        | none => (conn, { resp with staged := some block }) := by
  unfold pump_one chc_block.invalid
  simp only [noBlock, and_true]
  by_cases noColumns : block.columns = []
  · simp [noColumns]
  · cases block.columns.findSome? id <;> simp [noColumns]

/-- What one packet does to a response that waits for it. -/
theorem pump_one_resp (conn : ch_binary_connection) (resp : ch_binary_response)
    (recv : Recv) (polls : conn.check_cancel_fn = true) (waits : resp.pumping = true) :
    (pump_one conn resp recv).2 =
      { resp with eos := recv.ended, error := recv.report, staged := recv.block } := by
  obtain ⟨noBlock, notEnded, noError⟩ := (pumping_iff resp).mp waits
  cases recv with
  | failed msg =>
      simp [pump_one, resp_broken_eq, noError, noBlock, Recv.ended, Recv.report, Recv.fault,
        Recv.block, Recv.canceled]
  | packet pkt canceled =>
      have polled := @check_cancel_eq conn resp canceled polls noError
      cases pkt with
      | EXCEPTION ex =>
          have notEmpty : shown (ch_binary_exception_message ex) = _ :=
            if_neg (exception_message_ne_nil ex)
          cases canceled <;>
            simp [pump_one, polled, resp_broken_eq, notEmpty, noBlock, Recv.ended,
              Recv.report, Recv.fault, Recv.block, Recv.canceled]
      | END_OF_STREAM =>
          cases canceled <;>
            simp [pump_one, polled, noBlock, Recv.ended, Recv.report, Recv.fault,
              Recv.block, Recv.canceled, Recv.complete]
      | other =>
          cases canceled <;>
            simp [pump_one, polled, notEnded, noBlock, Recv.ended, Recv.report, Recv.fault,
              Recv.block, Recv.canceled, Recv.complete]
      | DATA block =>
          cases block with
          | none =>
              cases canceled <;>
                simp [pump_one, polled, notEnded, noBlock, Recv.ended, Recv.report,
                  Recv.fault, Recv.block, Recv.canceled, Recv.complete]
          | some block =>
              rw [pump_one_data conn resp block canceled (by rw [polled]; exact noBlock)]
              by_cases noColumns : block.columns = []
              · -- a block without columns has no invalid one, and is dropped
                have valid : block.invalid = none := by simp [chc_block.invalid, noColumns]
                cases canceled <;>
                  simp [polled, noColumns, valid, notEnded, noBlock, Recv.ended,
                    Recv.report, Recv.fault, Recv.block, Recv.canceled, Recv.complete]
              · cases valid : block.invalid with
                | none =>
                    cases canceled <;>
                      simp [polled, noColumns, valid, notEnded, Recv.ended, Recv.report,
                        Recv.fault, Recv.block, Recv.canceled, Recv.complete]
                | some msg =>
                    cases canceled <;>
                      simp [polled, noColumns, valid, resp_broken_eq, noBlock, Recv.ended,
                        Recv.report, Recv.fault, Recv.block, Recv.canceled, Recv.complete]

theorem pump_one_polls (conn : ch_binary_connection) (resp : ch_binary_response)
    (recv : Recv) : (pump_one conn resp recv).1.check_cancel_fn = conn.check_cancel_fn := by
  cases recv with
  | failed msg => rfl
  | packet pkt canceled =>
      rw [← read_polls conn pkt]
      match pkt with
      | .DATA (some block) =>
          simp only [pump_one]
          split
          · split <;> rfl
          · rfl
      | .DATA none => rfl
      | .EXCEPTION _ => rfl
      | .END_OF_STREAM => rfl
      | .other => rfl

/-! ## What is still to come -/

/-- The blocks the block source is still going to hand out, and the error it is going
to end with. -/
def Source.ahead (s : Source) : List chc_block × Option Bytes :=
  if s.resp.eos || s.resp.error.isSome then (s.resp.staged.toList, s.resp.error)
  else (s.resp.staged.toList ++ blocks (reply s.wire), report (reply s.wire))

theorem blocks_cons (recv : Recv) (packets : List Recv) :
    blocks (recv :: packets) = recv.block.toList ++ blocks packets := by
  cases found : recv.block <;> simp [blocks, found]

theorem report_cons (recv : Recv) (packets : List Recv) :
    report (recv :: packets) = recv.report.or (report packets) := by
  cases found : recv.report <;> simp [report, found]

/-- A response stops at the packets the answer ends with. -/
theorem last_eq (recv : Recv) : recv.last = (recv.ended || recv.report.isSome) := by
  cases faulty : recv.fault <;> cases canceled : recv.canceled <;>
    simp [Recv.last, Recv.ended, Recv.report, faulty, canceled]

/-- What the packet just read says, and what the rest of the answer says. -/
theorem ahead_read (wire : List Recv) (conn : ch_binary_connection)
    (resp : ch_binary_response) (recv : Recv) :
    Source.ahead ⟨wire, conn,
        { resp with eos := recv.ended, error := recv.report, staged := recv.block }⟩ =
      (blocks (reply (recv :: wire)), report (reply (recv :: wire))) := by
  simp only [Source.ahead, reply, ← last_eq]
  cases atEnd : recv.last
  · have noError : recv.report = none := by
      simpa using (Bool.or_eq_false_iff.mp ((last_eq recv).symm.trans atEnd)).2
    simp [blocks_cons, report_cons, noError]
  · rw [if_pos rfl, if_pos rfl, blocks_cons, report_cons]
    simp [blocks, report]

theorem ahead_waits {s : Source} (waits : s.resp.pumping = true) :
    s.ahead = (blocks (reply s.wire), report (reply s.wire)) := by
  obtain ⟨noBlock, notEnded, noError⟩ := (pumping_iff s.resp).mp waits
  simp [Source.ahead, noBlock, notEnded, noError]

/-- The loop over `pump_one` leaves what is still to come as it was, and stops with a
block, the end or an error. -/
theorem pump_ahead (wire : List Recv) (conn : ch_binary_connection)
    (resp : ch_binary_response) (polls : conn.check_cancel_fn = true) :
    let after := pump wire conn resp
    Source.ahead ⟨after.1, after.2.1, after.2.2⟩ = Source.ahead ⟨wire, conn, resp⟩ ∧
      after.2.1.check_cancel_fn = true ∧ after.2.2.pumping = false := by
  induction wire generalizing conn resp with
  | nil =>
      simp only [pump]
      split
      · rename_i waits
        refine ⟨?_, by rw [pump_one_polls, polls], ?_⟩
        · rw [pump_one_resp conn resp _ polls waits, ahead_waits (s := ⟨[], conn, resp⟩) waits]
          exact ahead_read [] _ resp (.failed [])
        · rw [pump_one_resp conn resp _ polls waits]
          simp [ch_binary_response.pumping, Recv.ended, Recv.fault]
      · rename_i settled
        exact ⟨rfl, polls, by simpa using settled⟩
  | cons recv wire ih =>
      simp only [pump]
      split
      · rename_i waits
        obtain ⟨same, stillPolls, settled⟩ :=
          ih (pump_one conn resp recv).1 (pump_one conn resp recv).2
            (by rw [pump_one_polls, polls])
        refine ⟨?_, stillPolls, settled⟩
        rw [same, ahead_waits (s := ⟨recv :: wire, conn, resp⟩) waits,
          pump_one_resp conn resp recv polls waits]
        exact ahead_read wire _ resp recv
      · rename_i settled
        exact ⟨rfl, polls, by simpa using settled⟩

/-! ## Calls of the block source -/

/-- Nothing more is read. -/
def Source.settled (s : Source) : Bool :=
  s.resp.eos || s.resp.error.isSome

theorem ahead_error {s : Source} (settled : s.settled = true) :
    s.ahead = (s.resp.staged.toList, s.resp.error) :=
  if_pos settled

/-- The block is taken out of the slot. -/
def Source.taken (s : Source) : Source :=
  { s with resp := { s.resp with staged := none } }

theorem taken_ahead {s : Source} (stopped : s.resp.pumping = false) :
    s.resp.staged = s.ahead.1.head? ∧ s.taken.ahead = (s.ahead.1.tail, s.ahead.2) ∧
      (s.resp.staged = none → s.taken.settled = true) := by
  have settledOrBlock : s.resp.staged = none → s.settled = true := by
    intro noBlock
    by_contra notSettled
    simp [Source.settled] at notSettled
    simp [ch_binary_response.pumping, noBlock, notSettled] at stopped
  refine ⟨?_, ?_, settledOrBlock⟩
  all_goals
    cases staged : s.resp.staged with
    | none =>
        have settled := settledOrBlock staged
        simp only [Source.settled] at settled
        simp [Source.ahead, Source.taken, settled, staged]
    | some block =>
        cases settled : (s.resp.eos || s.resp.error.isSome) <;>
          simp [Source.ahead, Source.taken, settled, staged]

/-- A call hands out the next block that is still to come, and none only when nothing
more is read. -/
theorem resp_src_next_block_ahead (s : Source) (polls : s.conn.check_cancel_fn = true) :
    let after := resp_src_next_block s
    after.2 = s.ahead.1.head? ∧ after.1.ahead = (s.ahead.1.tail, s.ahead.2) ∧
      after.1.conn.check_cancel_fn = true ∧
      (after.2 = none → after.1.settled = true) := by
  obtain ⟨same, stillPolls, stopped⟩ := pump_ahead s.wire s.conn s.resp polls
  obtain ⟨block, rest, settled⟩ :=
    taken_ahead (s := ⟨(pump s.wire s.conn s.resp).1, (pump s.wire s.conn s.resp).2.1,
      (pump s.wire s.conn s.resp).2.2⟩) stopped
  rw [same] at block rest
  exact ⟨block, rest, stillPolls, settled⟩

/-- Once nothing more is read, it stays so. -/
theorem resp_src_next_block_settled {s : Source} (settled : s.settled = true) :
    (resp_src_next_block s).1.settled = true := by
  have stopped : s.resp.pumping = false := by
    simp only [Source.settled, Bool.or_eq_true] at settled
    obtain ended | failed := settled
    · simp [ch_binary_response.pumping, ended]
    · simp [ch_binary_response.pumping, Option.isNone_eq_false_iff.mpr failed]
  have same : pump s.wire s.conn s.resp = (s.wire, s.conn, s.resp) := by
    cases wire : s.wire <;> simp [pump, stopped]
  simpa [resp_src_next_block, ch_binary_response_fetch_next_block, same, Source.settled]
    using settled

/-- The calls hand out what is to come, one block each. -/
theorem next_blocks_ahead (n : Nat) (s : Source) (polls : s.conn.check_cancel_fn = true) :
    (next_blocks n s).2 = (List.range n).map (s.ahead.1[·]?) ∧
      (next_blocks n s).1.ahead.2 = s.ahead.2 ∧
      ((s.settled = true ∨ none ∈ (next_blocks n s).2) →
        (next_blocks n s).1.settled = true) := by
  induction n generalizing s with
  | zero => simp [next_blocks]
  | succ n ih =>
      obtain ⟨block, rest, stillPolls, stopped⟩ := resp_src_next_block_ahead s polls
      obtain ⟨handed, error, settled⟩ := ih (resp_src_next_block s).1 stillPolls
      rw [rest] at handed error
      refine ⟨?_, error, ?_⟩
      · simp only [next_blocks, handed, block, List.range_succ_eq_map, List.map_cons,
          List.map_map]
        congr 1
        · exact List.head?_eq_getElem?
        · apply List.map_congr_left
          intro i _
          exact List.getElem?_tail
      · rintro (already | missing)
        · exact settled (.inl (resp_src_next_block_settled already))
        · obtain first | later := List.mem_cons.mp missing
          · exact settled (.inl (stopped first.symm))
          · exact settled (.inr later)

/-- What is to come when a query is opened is its answer. -/
theorem opened_ahead (wire : List Recv) (conn : ch_binary_connection) (sent : Bool)
    (err : Bytes) :
    (opened wire conn sent err).ahead =
      (blocks (answer wire sent err), report (answer wire sent err)) ∧
      (opened wire conn sent err).conn.check_cancel_fn = true := by
  cases sent
  · simp [opened, ch_binary_simple_query, answer, ch_binary_connection.send_failed,
      resp_broken_eq, Source.ahead, blocks, report, Recv.block, Recv.report, Recv.fault,
      Recv.canceled]
  · obtain ⟨same, stillPolls, -⟩ :=
      pump_ahead wire { conn with check_cancel_fn := true }.send_query
        ⟨conn.sends.length, false, none, none, false⟩ rfl
    exact ⟨same.trans (ahead_waits rfl), stillPolls⟩

/-! ## The answer and the blocks handed out -/

/-- An answer has no error only if the server completed it. -/
theorem complete_of_report_none {wire : List Recv} (noError : report (reply wire) = none) :
    ∃ recv ∈ reply wire, recv.complete = true := by
  induction wire with
  | nil => simp [reply, report, Recv.report, Recv.fault, Recv.canceled] at noError
  | cons recv wire ih =>
      simp only [reply] at noError ⊢
      cases atEnd : recv.last
      · rw [if_neg (by simp [atEnd]), report_cons, Option.or_eq_none_iff] at noError
        obtain ⟨packet, inRest, complete⟩ := ih noError.2
        exact ⟨packet, List.mem_cons_of_mem _ inRest, complete⟩
      · have noReport : recv.report = none := by simpa [atEnd, report] using noError
        exact ⟨recv, by simp, by simpa [Recv.last, noReport] using atEnd⟩

theorem report_ne_none_iff (packets : List Recv) :
    report packets ≠ none ↔ ∃ recv ∈ packets, recv.fault ≠ none ∨ recv.canceled = true := by
  have one (recv : Recv) : recv.report ≠ none ↔ recv.fault ≠ none ∨ recv.canceled = true := by
    cases canceled : recv.canceled <;> simp [Recv.report, canceled]
  simp only [report, ne_eq, List.findSome?_eq_none_iff, not_forall, exists_prop, ← one]

/-- For every sequence of packets and every number of calls, the block source hands out
the blocks of the answer, each once and in order, and then nothing.  Its error is the one
the answer has; once a call has handed out nothing, there is an error exactly if a packet
of the answer is one or the user canceled the query, and without an error the server has
said that the answer is complete. -/
theorem block_source_faithful (wire : List Recv) (conn : ch_binary_connection)
    (sent : Bool) (err : Bytes) (n : Nat) :
    let packets := answer wire sent err
    let after := next_blocks n (opened wire conn sent err)
    after.2 = (List.range n).map ((blocks packets)[·]?) ∧
      (∀ msg, resp_src_error after.1 = some msg → report packets = some msg) ∧
      (none ∈ after.2 →
        resp_src_error after.1 = report packets ∧
        (resp_src_error after.1 ≠ none ↔
          ∃ recv ∈ packets, recv.fault ≠ none ∨ recv.canceled = true) ∧
        (resp_src_error after.1 = none → ∃ recv ∈ packets, recv.complete = true)) := by
  intro packets after
  obtain ⟨start, polls⟩ := opened_ahead wire conn sent err
  obtain ⟨handed, error, settled⟩ := next_blocks_ahead n _ polls
  rw [start] at handed error
  have shownError (atEnd : after.1.settled = true) :
      resp_src_error after.1 = report packets := by
    rw [ahead_error atEnd] at error
    exact error
  refine ⟨handed, ?_, ?_⟩
  · intro msg failed
    have atEnd : after.1.settled = true := by
      simp [Source.settled, (show after.1.resp.error = some msg from failed)]
    exact (shownError atEnd).symm.trans failed
  · intro missing
    have same := shownError (settled (.inr missing))
    refine ⟨same, ?_, ?_⟩
    · rw [same]
      exact report_ne_none_iff packets
    · intro noError
      rw [same] at noError
      cases sent
      · simp [packets, answer, report, Recv.report, Recv.fault, Recv.canceled] at noError
      · exact complete_of_report_none noError

end PgClickhouse.Binary

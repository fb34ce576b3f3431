import PgClickhouse.HttpCursor

/-!
# The body of an HTTP response

`HttpStream` collects the pieces libcurl delivers in one buffer.  A streaming reader
pauses the transfer at each piece, hands the buffer out and lets the next piece overwrite
it; a response with an error status is switched to buffering in the middle.

libcurl is its documented contract: the body comes in order, cut as it likes, a piece the
callback refuses ends the transfer, and a transfer ends without an error only when the
whole body was delivered.  Everything else is up to the list of `Call`s: how many pieces
arrive in each call and how large they are, whether memory is left, and how the call
ends.  Past the end of the list the connection is lost.

`begin_seen` connects the two models of a stream: whatever libcurl does, beginning this one is an
attempt of opening the cursor of `HttpCursor`.
-/

namespace PgClickhouse.Http

/-! ## The buffer -/

def INITIAL_BUF_SIZE : Nat := 64 * 1024

def CH_ERROR_MSG_LEN : Nat := 4096

/-- The memory at `buf`, all that is allocated, with a byte to spare for the
terminator. -/
structure Buffer where
  buf : Bytes
  write_pos : Nat
  fits : write_pos < buf.length

namespace Buffer

def initial : Buffer :=
  ⟨List.replicate INITIAL_BUF_SIZE 0, 0, by
    rw [List.length_replicate, INITIAL_BUF_SIZE]
    omega⟩

/-- The bytes in front of the write position. -/
def contents (b : Buffer) : Bytes := b.buf.take b.write_pos

/-- `memcpy`, and the terminator after it. -/
def copy (b : Buffer) (piece : Bytes) (room : b.write_pos + piece.length + 1 ≤ b.buf.length) :
    Buffer :=
  ⟨b.buf.take b.write_pos ++ piece ++ 0 :: b.buf.drop (b.write_pos + piece.length + 1),
    b.write_pos + piece.length, by
      have fits := b.fits
      simp only [List.length_append, List.length_take, List.length_cons, List.length_drop]
      omega⟩

/-- `realloc` to `newsize`. -/
def grow (b : Buffer) (newsize : Nat) : Buffer :=
  ⟨b.buf ++ List.replicate (newsize - b.buf.length) 0, b.write_pos, by
    have fits := b.fits
    simp only [List.length_append]
    omega⟩

/-- What `newsize` is for a piece that does not fit. -/
def newsize (b : Buffer) (piece : Bytes) : Nat :=
  max (b.buf.length * 2) (b.write_pos + piece.length + 1)

theorem grow_room (b : Buffer) (piece : Bytes) :
    (b.grow (b.newsize piece)).write_pos + piece.length + 1 ≤
      (b.grow (b.newsize piece)).buf.length := by
  simp only [grow, newsize, List.length_append, List.length_replicate]
  omega

/-- Append a piece; `grows` says whether `realloc` succeeds, if it is needed. -/
def write (b : Buffer) (piece : Bytes) (grows : Bool) : Option Buffer :=
  if room : b.write_pos + piece.length + 1 ≤ b.buf.length then some (b.copy piece room)
  else if grows then some ((b.grow (b.newsize piece)).copy piece (b.grow_room piece))
  else none

/-- The write position goes back to the start. -/
def reset (b : Buffer) : Buffer :=
  ⟨b.buf, 0, Nat.zero_lt_of_lt b.fits⟩

theorem copy_contents (b : Buffer) (piece : Bytes)
    (room : b.write_pos + piece.length + 1 ≤ b.buf.length) :
    (b.copy piece room).contents = b.contents ++ piece := by
  have fits := b.fits
  simp only [contents, copy]
  apply List.take_left'
  simp only [List.length_append, List.length_take]
  omega

/-- A piece that fits is copied into a new buffer. -/
theorem initial_write {piece : Bytes} (small : piece.length < INITIAL_BUF_SIZE) (grows : Bool) :
    ∃ b, initial.write piece grows = some b ∧ b.contents = piece := by
  have room : initial.write_pos + piece.length + 1 ≤ initial.buf.length := by
    have length : initial.buf.length = INITIAL_BUF_SIZE := List.length_replicate
    have start : initial.write_pos = 0 := rfl
    omega
  exact ⟨initial.copy piece room, dif_pos room, copy_contents _ _ _⟩

theorem grow_contents (b : Buffer) (newsize : Nat) : (b.grow newsize).contents = b.contents :=
  List.take_append_of_le_length (Nat.le_of_lt b.fits)

theorem write_contents {b b' : Buffer} {piece : Bytes} {grows : Bool}
    (written : b.write piece grows = some b') : b'.contents = b.contents ++ piece := by
  unfold write at written
  split at written
  · rw [← Option.some.inj written, copy_contents]
  · split at written
    · rw [← Option.some.inj written, copy_contents, grow_contents]
    · cases written

theorem reset_contents (b : Buffer) : b.reset.contents = [] := rfl

theorem contents_of_empty {b : Buffer} (empty : b.write_pos = 0) : b.contents = [] := by
  rw [contents, empty, List.take_zero]

end Buffer

/-! ## The transfer -/

/-- A piece of the body: how many bytes the next call of the callback gets, and whether
memory is left for them. -/
structure Piece where
  size : Nat
  grows : Bool
  deriving Repr, DecidableEq

/-- How a call of `curl_multi_perform` ends. -/
inductive Progress
  | running
  | multi_error (error : Bytes)
  | finished (failure : Option CURLcode)
  deriving Repr, DecidableEq

/-- One call of `curl_multi_perform`, and `resumed` before it, the pieces that
`curl_easy_pause` delivers if it is called. -/
structure Call where
  resumed : List Piece
  pieces : List Piece
  progress : Progress
  deriving Repr, DecidableEq

/-- The transfer at the side of libcurl.  `rest` is what it has not delivered, and `ended`
how it ended, if it did. -/
structure Transfer where
  response_code : Int
  rest : Bytes
  refused : Bool
  ended : Option (Option CURLcode)
  deriving Repr, DecidableEq

structure HttpStream where
  buffer : Buffer
  streaming : Bool
  paused : Bool
  transfer_done : Bool
  tail : Bytes
  http_status : Int
  error_msg : Option Bytes
  transfer : Transfer

/-- Keep the last bytes of what was streamed. -/
def keep_tail (tail piece : Bytes) : Bytes :=
  let n := min piece.length CH_ERROR_MSG_LEN
  let keep := min tail.length (CH_ERROR_MSG_LEN - n)
  tail.drop (tail.length - keep) ++ piece.drop (piece.length - n)

/-- `none` is CURL_WRITEFUNC_ERROR. -/
def write_callback (stream : HttpStream) (piece : Bytes) (grows : Bool) : Option HttpStream :=
  match stream.buffer.write piece grows with
  | none => none
  | some buffer =>
      if stream.streaming then
        some { stream with buffer, tail := keep_tail stream.tail piece, paused := true }
      else some { stream with buffer }

/-- libcurl delivers pieces, up to one that is refused. -/
def deliver : List Piece → HttpStream → HttpStream
  | [], stream => stream
  | piece :: pieces, stream =>
      if stream.transfer.refused then stream
      else
        let rest := stream.transfer.rest
        match write_callback stream (rest.take piece.size) piece.grows with
        | none => { stream with transfer := { stream.transfer with refused := true } }
        | some stream =>
            deliver pieces
              { stream with transfer := { stream.transfer with rest := rest.drop piece.size } }

/-- The transfer is over, and the call sees no running handle. -/
def finish (stream : HttpStream) (failure : Option CURLcode) : HttpStream :=
  { stream with
    transfer := { stream.transfer with ended := some failure }
    transfer_done := true }

/-- How a transfer ends that libcurl ends after `progress`. -/
def verdict (stream : HttpStream) (failure : Option CURLcode) : Option CURLcode :=
  if stream.transfer.refused then
    some (.other (ascii "Failed writing received data to disk/application"))
  else if failure = none ∧ stream.transfer.rest ≠ [] then
    some (.other (ascii "Transferred a partial file"))
  else failure

/-- The loop of `pump`: call `curl_multi_perform` until the callback has paused the
transfer or it is over.  What comes last is the message of a call that failed. -/
def perform : List Call → HttpStream → List Call × HttpStream × Option Bytes
  | [], stream =>
      if stream.transfer.ended.isSome then ([], { stream with transfer_done := true }, none)
      else ([], finish stream (verdict stream (some (.other (ascii "connection lost")))), none)
  | call :: calls, stream =>
      if stream.transfer.ended.isSome then
        (call :: calls, { stream with transfer_done := true }, none)
      else
        let stream := deliver call.pieces stream
        match call.progress with
        | .multi_error error => (calls, stream, some error)
        | .finished failure => (calls, finish stream (verdict stream failure), none)
        | .running =>
            if stream.transfer.refused then (calls, finish stream (verdict stream none), none)
            else if stream.paused then (calls, stream, none)
            else perform calls stream

/-- Let a paused transfer go on. -/
def resume (calls : List Call) (stream : HttpStream) : HttpStream :=
  if stream.paused then
    let stream := { stream with paused := false }
    match calls with
    | [] => stream
    | call :: _ => if stream.transfer.ended.isSome then stream else deliver call.resumed stream
  else stream

/-- The message of libcurl about a transfer that failed. -/
def fail (stream : HttpStream) : CURLcode → HttpStream
  | .ABORTED_BY_CALLBACK => { stream with http_status := CH_HTTP_STATUS_CANCELED }
  | .other error =>
      { stream with http_status := CH_HTTP_STATUS_TRANSPORT_ERROR, error_msg := some error }

/-- The messages of libcurl are read off once: one about a failure is there only if the
transfer ended after `stream`. -/
def curl_multi_info_read (stream after : HttpStream) : Option CURLcode :=
  if stream.transfer.ended.isSome then none else after.transfer.ended.join

/-- `false` is the result -1. -/
def pump (calls : List Call) (stream : HttpStream) : List Call × HttpStream × Bool :=
  match perform calls (resume calls stream) with
  | (calls, after, some error) => (calls, fail after (.other error), false)
  | (calls, after, none) =>
      let after := { after with http_status := after.transfer.response_code }
      match curl_multi_info_read stream after with
      | none => (calls, after, true)
      | some failure => (calls, fail after failure, false)

/-! ## What libcurl delivers -/

/-- What delivering pieces does: bytes go from the transfer to the buffer. -/
structure Delivered (before after : HttpStream) : Prop where
  bytes : after.buffer.contents ++ after.transfer.rest =
    before.buffer.contents ++ before.transfer.rest
  same : after.streaming = before.streaming ∧ after.transfer_done = before.transfer_done ∧
    after.transfer.response_code = before.transfer.response_code ∧
    after.transfer.ended = before.transfer.ended
  buffering : before.streaming = false → after.paused = before.paused

theorem Delivered.refl (stream : HttpStream) : Delivered stream stream :=
  ⟨rfl, ⟨rfl, rfl, rfl, rfl⟩, fun _ => rfl⟩

theorem Delivered.trans {a b c : HttpStream} (first : Delivered a b) (second : Delivered b c) :
    Delivered a c where
  bytes := second.bytes.trans first.bytes
  same := by
    obtain ⟨s₁, d₁, r₁, e₁⟩ := first.same
    obtain ⟨s₂, d₂, r₂, e₂⟩ := second.same
    exact ⟨s₂.trans s₁, d₂.trans d₁, r₂.trans r₁, e₂.trans e₁⟩
  buffering off :=
    (second.buffering (first.same.1.trans off)).trans (first.buffering off)

theorem write_callback_delivered {stream after : HttpStream} {piece rest : Bytes}
    {grows : Bool} (cut : stream.transfer.rest = piece ++ rest)
    (written : write_callback stream piece grows = some after) :
    Delivered stream { after with transfer := { after.transfer with rest } } := by
  unfold write_callback at written
  split at written
  · cases written
  · rename_i buffer appended
    have contents := Buffer.write_contents appended
    split at written
    all_goals
      rename_i streaming
      rw [← Option.some.inj written]
      refine ⟨?_, ⟨rfl, rfl, rfl, rfl⟩, ?_⟩
    · rw [contents, cut, List.append_assoc]
    · intro off
      rw [streaming] at off
      cases off
    · rw [contents, cut, List.append_assoc]
    · exact fun _ => rfl

theorem deliver_delivered (pieces : List Piece) (stream : HttpStream) :
    Delivered stream (deliver pieces stream) := by
  induction pieces generalizing stream with
  | nil => exact .refl stream
  | cons piece pieces ih =>
      simp only [deliver]
      split
      · exact .refl stream
      · split
        · exact ⟨rfl, ⟨rfl, rfl, rfl, rfl⟩, fun _ => rfl⟩
        · rename_i after written
          exact (write_callback_delivered (List.take_append_drop _ _).symm written).trans
            (ih _)

/-- The loop stops at the end of the transfer or at a piece. -/
theorem perform_stops {calls calls' : List Call} {stream after : HttpStream}
    (performed : perform calls stream = (calls', after, none)) :
    after.transfer_done = true ∨ after.paused = true ∧ calls'.length < calls.length := by
  induction calls generalizing stream with
  | nil =>
      simp only [perform] at performed
      split at performed
      all_goals
        cases performed
        exact .inl rfl
  | cons call calls ih =>
      simp only [perform] at performed
      split at performed
      · cases performed
        exact .inl rfl
      · split at performed
        · cases performed
        · cases performed
          exact .inl rfl
        · split at performed
          · cases performed
            exact .inl rfl
          · split at performed
            · rename_i paused
              cases performed
              exact .inr ⟨paused, by simp⟩
            · obtain done | ⟨paused, shorter⟩ := ih performed
              · exact .inl done
              · refine .inr ⟨paused, ?_⟩
                rw [List.length_cons]
                omega

theorem pump_stops {calls calls' : List Call} {stream after : HttpStream}
    (pumped : pump calls stream = (calls', after, true)) :
    after.transfer_done = true ∨ after.paused = true ∧ calls'.length < calls.length := by
  unfold pump at pumped
  split at pumped
  · cases pumped
  · rename_i performed
    dsimp only at pumped
    split at pumped
    · cases pumped
      have stopped := perform_stops performed
      exact stopped
    · cases pumped

/-- An empty chunk is a clean end of the stream. -/
def ch_http_stream_next_chunk (calls : List Call) (stream : HttpStream) :
    List Call × HttpStream × Except (Option Bytes) Bytes :=
  if stream.buffer.write_pos = 0 then
    if stream.transfer_done then (calls, stream, .ok [])
    else
      match _pumped : pump calls stream with
      | (calls, after, false) => (calls, after, .error after.error_msg)
      | (calls, after, true) => ch_http_stream_next_chunk calls after
  else
    (calls, { stream with buffer := stream.buffer.reset }, .ok stream.buffer.contents)
termination_by if stream.transfer_done then 0 else calls.length + 1
decreasing_by
  rename_i goesOn
  rw [if_neg goesOn]
  obtain done | ⟨-, shorter⟩ := pump_stops _pumped
  · rw [if_pos done]
    omega
  · split <;> omega

/-- Calls up to the first failure: the chunks handed out, and whether there was one. -/
def next_chunks : Nat → List Call → HttpStream → List Bytes × HttpStream
  | 0, _, stream => ([], stream)
  | n + 1, calls, stream =>
      match ch_http_stream_next_chunk calls stream with
      | (_, after, .error _) => ([], after)
      | (calls, after, .ok chunk) =>
          let (chunks, last) := next_chunks n calls after
          (chunk :: chunks, last)

/-- The server's response. -/
structure Response where
  code : Int
  body : Bytes
  deriving Repr, DecidableEq

/-- The handles are made and nothing is sent yet. -/
def HttpStream.created (streaming : Bool) (response : Response) : HttpStream :=
  ⟨.initial, streaming, false, false, [], 0, none, ⟨response.code, response.body, false, none⟩⟩

/-- The tail of `ch_http_stream_begin`, after the allocations. -/
def ch_http_stream_begin (streaming : Bool) (response : Response) (calls : List Call) :
    List Call × HttpStream :=
  let (calls, stream, _) := pump calls (.created streaming response)
  if stream.streaming && error_status stream.http_status then
    -- error bodies are reported whole, so the rest is buffered
    let (calls, stream, _) := pump calls { stream with streaming := false }
    (calls, stream)
  else (calls, stream)

/-! ## What holds between two calls -/

/-- With `handed` already handed out, the buffer and the transfer hold the rest of the
body, and a transfer that is over without an error has delivered all of it. -/
structure Sound (code : Int) (body handed : Bytes) (stream : HttpStream) : Prop where
  bytes : handed ++ (stream.buffer.contents ++ stream.transfer.rest) = body
  done : stream.transfer_done = stream.transfer.ended.isSome
  whole : stream.transfer.ended = some none → stream.transfer.rest = []
  code : stream.transfer.response_code = code

section Sound

variable {code : Int} {body handed : Bytes}

theorem Sound.delivered {before after : HttpStream} (sound : Sound code body handed before)
    (delivered : Delivered before after) (goesOn : before.transfer.ended = none) :
    Sound code body handed after := by
  obtain ⟨-, done, response, ended⟩ := delivered.same
  refine ⟨by rw [delivered.bytes, sound.bytes], by rw [done, ended, sound.done], ?_,
    response.trans sound.code⟩
  intro finished
  rw [ended, goesOn] at finished
  cases finished

/-- libcurl ends a transfer without an error only if it has delivered the whole body. -/
theorem rest_of_verdict {stream : HttpStream} {failure : Option CURLcode}
    (sound : verdict stream failure = none) : stream.transfer.rest = [] := by
  unfold verdict at sound
  split at sound
  · cases sound
  · split at sound
    · cases sound
    · rename_i complete
      by_contra more
      exact complete ⟨sound, more⟩

theorem Sound.finish {stream : HttpStream} (sound : Sound code body handed stream)
    (failure : Option CURLcode) :
    Sound code body handed (finish stream (verdict stream failure)) :=
  ⟨sound.bytes, rfl, fun finished => rest_of_verdict (Option.some.inj finished), sound.code⟩

/-- What the loop of `pump` does. -/
structure Performed (code : Int) (body handed : Bytes) (stream : HttpStream)
    (result : List Call × HttpStream × Option Bytes) : Prop where
  sound : Sound code body handed result.2.1
  streaming : result.2.1.streaming = stream.streaming
  buffering : stream.streaming = false → result.2.1.paused = stream.paused
  finished : stream.transfer.ended.isSome → result.2.1.transfer = stream.transfer

theorem perform_performed (calls : List Call) {stream : HttpStream}
    (sound : Sound code body handed stream) :
    Performed code body handed stream (perform calls stream) := by
  induction calls generalizing stream with
  | nil =>
      simp only [perform]
      split
      · rename_i finished
        exact ⟨⟨sound.bytes, finished.symm, sound.whole, sound.code⟩, rfl, fun _ => rfl,
          fun _ => rfl⟩
      · rename_i goesOn
        exact ⟨sound.finish _, rfl, fun _ => rfl, fun finished => absurd finished goesOn⟩
  | cons call calls ih =>
      simp only [perform]
      split
      · rename_i finished
        exact ⟨⟨sound.bytes, finished.symm, sound.whole, sound.code⟩, rfl, fun _ => rfl,
          fun _ => rfl⟩
      · rename_i goesOn
        have delivered := deliver_delivered call.pieces stream
        have still : Sound code body handed (deliver call.pieces stream) :=
          sound.delivered delivered (by simpa using goesOn)
        have neverOver {P : Prop} (finished : stream.transfer.ended.isSome) : P :=
          absurd finished goesOn
        split
        · exact ⟨still, delivered.same.1, delivered.buffering, neverOver⟩
        · exact ⟨still.finish _, delivered.same.1, delivered.buffering, neverOver⟩
        · split
          · exact ⟨still.finish _, delivered.same.1, delivered.buffering, neverOver⟩
          · split
            · exact ⟨still, delivered.same.1, delivered.buffering, neverOver⟩
            · have rest := ih still
              refine ⟨rest.sound, rest.streaming.trans delivered.same.1, ?_, neverOver⟩
              intro off
              rw [rest.buffering (delivered.same.1.trans off), delivered.buffering off]

theorem resume_sound (calls : List Call) {stream : HttpStream}
    (sound : Sound code body handed stream) :
    Sound code body handed (resume calls stream) ∧
      (resume calls stream).streaming = stream.streaming ∧
      (stream.streaming = false → (resume calls stream).paused = false) ∧
      (resume calls stream).transfer.ended = stream.transfer.ended := by
  have unpaused : Sound code body handed { stream with paused := false } :=
    ⟨sound.bytes, sound.done, sound.whole, sound.code⟩
  unfold resume
  split
  · split
    · exact ⟨unpaused, rfl, fun _ => rfl, rfl⟩
    · dsimp only
      split
      · exact ⟨unpaused, rfl, fun _ => rfl, rfl⟩
      · rename_i call _ goesOn
        have delivered := deliver_delivered call.resumed { stream with paused := false }
        exact ⟨unpaused.delivered delivered (by simpa using goesOn), delivered.same.1,
          delivered.buffering, delivered.same.2.2.2⟩
  · rename_i running
    exact ⟨sound, rfl, fun _ => by simpa using running, rfl⟩

/-- What a call of `pump` does. -/
structure Pumped (code : Int) (body handed : Bytes) (stream : HttpStream)
    (result : List Call × HttpStream × Bool) : Prop where
  sound : Sound code body handed result.2.1
  streaming : result.2.1.streaming = stream.streaming
  buffering : stream.streaming = false → result.2.2 = true → result.2.1.transfer_done = true
  status : result.2.2 = true → result.2.1.http_status = code
  synthetic : result.2.2 = false → result.2.1.http_status = CH_HTTP_STATUS_CANCELED ∨
    result.2.1.http_status = CH_HTTP_STATUS_TRANSPORT_ERROR
  failed : result.2.2 = true → ∀ failure, result.2.1.transfer.ended = some (some failure) →
    stream.transfer.ended = some (some failure)

theorem fail_sound {stream : HttpStream} (sound : Sound code body handed stream)
    (failure : CURLcode) :
    Sound code body handed (fail stream failure) ∧
      (fail stream failure).streaming = stream.streaming ∧
      ((fail stream failure).http_status = CH_HTTP_STATUS_CANCELED ∨
        (fail stream failure).http_status = CH_HTTP_STATUS_TRANSPORT_ERROR) := by
  cases failure with
  | ABORTED_BY_CALLBACK =>
      exact ⟨⟨sound.bytes, sound.done, sound.whole, sound.code⟩, rfl, .inl rfl⟩
  | other error =>
      exact ⟨⟨sound.bytes, sound.done, sound.whole, sound.code⟩, rfl, .inr rfl⟩

theorem pump_pumped (calls : List Call) {stream : HttpStream}
    (sound : Sound code body handed stream) :
    Pumped code body handed stream (pump calls stream) := by
  obtain ⟨resumed, streaming, unpaused, ended⟩ := resume_sound calls sound
  have performed := perform_performed calls resumed
  have paused (off : stream.streaming = false) :
      (perform calls (resume calls stream)).2.1.paused = false :=
    (performed.buffering (streaming.trans off)).trans (unpaused off)
  have stops (after : HttpStream) (calls' : List Call)
      (clean : perform calls (resume calls stream) = (calls', after, none)) :=
    perform_stops clean
  unfold pump
  revert performed paused stops
  generalize perform calls (resume calls stream) = result
  obtain ⟨calls', after, message⟩ := result
  intro performed paused stops
  cases message with
  | some error =>
      obtain ⟨sound', streaming', status⟩ := fail_sound performed.sound (.other error)
      exact ⟨sound', streaming'.trans (performed.streaming.trans streaming), nofun, nofun,
        fun _ => status, nofun⟩
  | none =>
      have answered : Sound code body handed
          { after with http_status := after.transfer.response_code } :=
        ⟨performed.sound.bytes, performed.sound.done, performed.sound.whole,
          performed.sound.code⟩
      dsimp only
      split
      · rename_i noFailure
        refine ⟨answered, performed.streaming.trans streaming, ?_, fun _ => answered.code,
          nofun, ?_⟩
        · intro off _
          obtain done | ⟨pausedAgain, -⟩ := stops after calls' rfl
          · exact done
          · rw [paused off] at pausedAgain
            cases pausedAgain
        · intro _ failure failed
          unfold curl_multi_info_read at noFailure
          split at noFailure
          · rename_i finished
            rw [← ended, ← performed.finished (by rw [ended]; exact finished)]
            exact failed
          · simp only at failed
            simp [failed] at noFailure
      · rename_i failure _
        obtain ⟨sound', streaming', status⟩ := fail_sound answered failure
        exact ⟨sound', streaming'.trans (performed.streaming.trans streaming), nofun, nofun,
          fun _ => status, nofun⟩

/-! ## Handing out the body -/

/-- The status stands for a failed transfer. -/
def Synthetic (stream : HttpStream) : Prop :=
  stream.http_status = CH_HTTP_STATUS_CANCELED ∨
    stream.http_status = CH_HTTP_STATUS_TRANSPORT_ERROR

theorem error_status_synthetic {stream : HttpStream} (synthetic : Synthetic stream) :
    error_status stream.http_status = false :=
  if_pos synthetic

/-- The transfer has failed. -/
def Failed (stream : HttpStream) : Prop :=
  ∃ failure, stream.transfer.ended = some (some failure)

/-- A chunk that is handed out moves bytes from the buffer to `handed`; it is empty only
when the transfer is over and nothing is left. -/
structure Chunk (code : Int) (body handed : Bytes) (stream after : HttpStream)
    (chunk : Bytes) : Prop where
  sound : Sound code body (handed ++ chunk) after
  failed : Failed after → Failed stream
  clean : chunk = [] → after.buffer.write_pos = 0 ∧ after.transfer_done = true

theorem next_chunk_chunk {calls calls' : List Call} {stream after : HttpStream}
    {chunk : Bytes} (sound : Sound code body handed stream)
    (handedOut : ch_http_stream_next_chunk calls stream = (calls', after, .ok chunk)) :
    Chunk code body handed stream after chunk := by
  fun_induction ch_http_stream_next_chunk calls stream with
  | case1 calls stream empty finished =>
      cases handedOut
      exact ⟨by simpa using sound, id, fun _ => ⟨empty, finished⟩⟩
  | case2 calls stream empty goesOn calls₁ after₁ pumped => cases handedOut
  | case3 calls stream empty goesOn calls₁ after₁ pumped ih =>
      have step := pump_pumped calls sound
      rw [pumped] at step
      have rest := ih step.sound handedOut
      refine ⟨rest.sound, ?_, rest.clean⟩
      intro failed
      obtain ⟨failure, ended⟩ := rest.failed failed
      exact ⟨failure, step.failed rfl failure ended⟩
  | case4 calls stream waiting =>
      cases handedOut
      refine ⟨⟨?_, sound.done, sound.whole, sound.code⟩, id, ?_⟩
      · rw [Buffer.reset_contents, List.nil_append, List.append_assoc, sound.bytes]
      · intro none
        have fits := stream.buffer.fits
        have length := congrArg List.length none
        simp only [Buffer.contents, List.length_take, List.length_nil] at length
        omega

/-- Past a clean end there are only further clean ends. -/
theorem next_chunks_over (n : Nat) (calls : List Call) {stream : HttpStream}
    (empty : stream.buffer.write_pos = 0) (finished : stream.transfer_done = true) :
    (next_chunks n calls stream).2 = stream := by
  induction n with
  | zero => rfl
  | succ n ih =>
      have again : ch_http_stream_next_chunk calls stream = (calls, stream, .ok []) := by
        rw [ch_http_stream_next_chunk, if_pos empty, if_pos finished]
      simp only [next_chunks, again]
      exact ih

/-- Of a transfer that is over without an error nothing is missing. -/
theorem Sound.complete {stream : HttpStream} (sound : Sound code body handed stream)
    (finished : stream.transfer_done = true) (noFailure : ¬ Failed stream) :
    handed ++ stream.buffer.contents = body ∧ stream.transfer.ended = some none := by
  have ended : stream.transfer.ended = some none := by
    match known : stream.transfer.ended with
    | none =>
        rw [sound.done, known] at finished
        cases finished
    | some (some failure) => exact absurd ⟨failure, known⟩ noFailure
    | some none => rfl
  have bytes := sound.bytes
  rw [sound.whole ended, List.append_nil] at bytes
  exact ⟨bytes, ended⟩

/-- The chunks of a run, and its clean ends. -/
theorem next_chunks_spec (n : Nat) (calls : List Call) {stream : HttpStream}
    (sound : Sound code body handed stream) :
    let run := next_chunks n calls stream
    handed ++ run.1.flatten <+: body ∧
      ∀ before rest, run.1 = before ++ [] :: rest → ¬ Failed stream →
        handed ++ before.flatten = body ∧ run.2.transfer.ended = some none := by
  induction n generalizing calls stream handed with
  | zero =>
      refine ⟨⟨stream.buffer.contents ++ stream.transfer.rest, ?_⟩, ?_⟩
      · simpa [next_chunks] using sound.bytes
      · intro before rest cut
        simp [next_chunks] at cut
  | succ n ih =>
      simp only [next_chunks]
      split
      · exact ⟨⟨_, by simpa using sound.bytes⟩, fun before rest cut => by simp at cut⟩
      · rename_i calls' after chunk handedOut
        have step := next_chunk_chunk sound handedOut
        obtain ⟨inOrder, clean⟩ := ih calls' step.sound
        refine ⟨by simpa using inOrder, ?_⟩
        intro before rest cut noFailure
        have stillNone : ¬ Failed after := fun failed => noFailure (step.failed failed)
        cases before with
        | nil =>
            obtain ⟨rfl, -⟩ := List.cons.inj cut
            obtain ⟨empty, finished⟩ := step.clean rfl
            obtain ⟨all, ended⟩ := step.sound.complete finished stillNone
            rw [Buffer.contents_of_empty empty] at all
            refine ⟨by simpa using all, ?_⟩
            rw [next_chunks_over n calls' empty finished, ended]
        | cons first before =>
            obtain ⟨same, later⟩ := List.cons.inj cut
            rw [same] at clean
            simpa using clean before rest later stillNone

/-- What `ch_http_stream_begin` leaves. -/
structure Begun (response : Response) (stream : HttpStream) : Prop where
  sound : Sound response.code response.body [] stream
  failed : Failed stream → Synthetic stream
  buffered : error_status response.code = true →
    stream.buffer.contents = response.body ∧ stream.transfer.ended = some none ∧
      stream.http_status = response.code ∨ Synthetic stream

theorem begin_begun (streaming : Bool) (response : Response) (calls : List Call) :
    Begun response (ch_http_stream_begin streaming response calls).2 := by
  have created : Sound response.code response.body [] (.created streaming response) :=
    ⟨rfl, rfl, nofun, rfl⟩
  have notFailed : ¬ Failed (.created streaming response) := by
    intro ⟨failure, ended⟩
    cases ended
  have first := pump_pumped calls created
  unfold ch_http_stream_begin
  generalize pump calls (.created streaming response) = result at first
  obtain ⟨calls₁, stream₁, ok₁⟩ := result
  cases ok₁ with
  | false =>
      have synthetic : Synthetic stream₁ := first.synthetic rfl
      dsimp only
      rw [error_status_synthetic synthetic, Bool.and_false]
      exact ⟨first.sound, fun _ => synthetic, fun _ => .inr synthetic⟩
  | true =>
      have status : stream₁.http_status = response.code := first.status rfl
      have noFailure : ¬ Failed stream₁ := by
        intro ⟨failure, ended⟩
        exact notFailed ⟨failure, first.failed rfl failure ended⟩
      dsimp only
      split
      · have again : Sound response.code response.body [] { stream₁ with streaming := false } :=
          ⟨first.sound.bytes, first.sound.done, first.sound.whole, first.sound.code⟩
        have second := pump_pumped calls₁ again
        generalize pump calls₁ { stream₁ with streaming := false } = result at second
        obtain ⟨calls₂, stream₂, ok₂⟩ := result
        cases ok₂ with
        | false => exact ⟨second.sound, fun _ => second.synthetic rfl,
            fun _ => .inr (second.synthetic rfl)⟩
        | true =>
            have noFailure₂ : ¬ Failed stream₂ := by
              intro ⟨failure, ended⟩
              exact noFailure ⟨failure, second.failed rfl failure ended⟩
            obtain ⟨all, ended⟩ := second.sound.complete (second.buffering rfl rfl) noFailure₂
            exact ⟨second.sound, fun failed => absurd failed noFailure₂,
              fun _ => .inl ⟨all, ended, second.status rfl⟩⟩
      · rename_i buffering
        refine ⟨first.sound, fun failed => absurd failed noFailure, ?_⟩
        intro error
        have off : streaming = false := by
          have kept : stream₁.streaming = streaming := first.streaming
          simpa [kept, status, error] using buffering
        obtain ⟨all, ended⟩ := first.sound.complete (first.buffering off rfl) noFailure
        exact .inl ⟨all, ended, status⟩

end Sound

/-- For every response, every way libcurl delivers it and every number of calls: the
chunks handed out up to the first failure are a prefix of the body; at a clean end they
are the whole body of a transfer without an error, unless the status that
`ch_http_stream_begin` left already says that the transfer failed; and a body with an
error status, other than the synthetic ones, is complete in the buffer when it returns,
unless the transfer fails. -/
theorem http_stream_faithful (streaming : Bool) (response : Response) (calls : List Call)
    (n : Nat) :
    let begun := ch_http_stream_begin streaming response calls
    let run := next_chunks n begun.1 begun.2
    run.1.flatten <+: response.body ∧
      (∀ before rest, run.1 = before ++ [] :: rest →
        before.flatten = response.body ∧ run.2.transfer.ended = some none ∨
          Failed begun.2 ∧ Synthetic begun.2) ∧
      (error_status response.code = true →
        begun.2.buffer.contents = response.body ∧ begun.2.transfer.ended = some none ∧
            begun.2.http_status = response.code ∨
          Synthetic begun.2) := by
  intro begun run
  have opened : Begun response begun.2 := begin_begun streaming response calls
  obtain ⟨inOrder, clean⟩ := next_chunks_spec n begun.1 opened.sound
  refine ⟨inOrder, ?_, opened.buffered⟩
  intro before rest cut
  by_cases failed : Failed begun.2
  · exact .inr ⟨failed, opened.failed failed⟩
  · exact .inl (clean before rest cut failed)

/-! ## What opening a cursor sees of a stream -/

/-- The part of a stream the status of a query depends on. -/
def HttpStream.seen (query_id : QueryId) (stream : HttpStream) : PgClickhouse.HttpStream :=
  ⟨query_id, stream.streaming, stream.http_status, stream.error_msg⟩

section Seen

variable (query_id : QueryId)

theorem deliver_seen (pieces : List Piece) (stream : HttpStream) :
    (deliver pieces stream).seen query_id = stream.seen query_id := by
  induction pieces generalizing stream with
  | nil => rfl
  | cons piece pieces ih =>
      simp only [deliver]
      split
      · rfl
      · split
        · rfl
        · rename_i after written
          rw [ih]
          unfold write_callback at written
          split at written
          · cases written
          · split at written
            all_goals
              cases written
              rfl

theorem perform_seen (calls : List Call) (stream : HttpStream) :
    (perform calls stream).2.1.seen query_id = stream.seen query_id := by
  induction calls generalizing stream with
  | nil =>
      simp only [perform]
      split <;> rfl
  | cons call calls ih =>
      have delivered := deliver_seen query_id call.pieces stream
      simp only [perform]
      split
      · rfl
      · split
        · exact delivered
        · exact delivered
        · split
          · exact delivered
          · split
            · exact delivered
            · rw [ih, delivered]

theorem resume_seen (calls : List Call) (stream : HttpStream) :
    (resume calls stream).seen query_id = stream.seen query_id := by
  unfold resume
  split
  · split
    · rfl
    · dsimp only
      split
      · rfl
      · exact deliver_seen query_id _ _
  · rfl

/-- Every call of `pump` is one of the outcomes that opening a cursor allows for. -/
theorem pump_seen (calls : List Call) (stream : HttpStream) :
    ∃ outcome, (pump calls stream).2.1.seen query_id =
      PgClickhouse.pump (stream.seen query_id) outcome := by
  have same := (perform_seen query_id calls (resume calls stream)).trans
    (resume_seen query_id calls stream)
  unfold pump
  generalize perform calls (resume calls stream) = result at same
  obtain ⟨calls', after, message⟩ := result
  simp only at same
  rw [← same]
  cases message with
  | some error => exact ⟨.multi_error error, rfl⟩
  | none =>
      dsimp only
      cases curl_multi_info_read stream
          { after with http_status := after.transfer.response_code } with
      | none => exact ⟨.transferred after.transfer.response_code none, rfl⟩
      | some failure =>
          refine ⟨.transferred after.transfer.response_code (some failure), ?_⟩
          cases failure <;> rfl

/-- So `ch_http_stream_begin` is an attempt of opening a cursor. -/
theorem begin_seen (req : ch_http_request) (response : Response) (calls : List Call)
    (executed : Bool) :
    ∃ attempt : Attempt, attempt.query_id = query_id ∧ attempt.executed = executed ∧
      PgClickhouse.ch_http_stream_begin req attempt =
        some ((ch_http_stream_begin req.stream_chunks response calls).2.seen query_id) := by
  obtain ⟨first, seen⟩ :=
    pump_seen query_id calls (.created req.stream_chunks response)
  unfold ch_http_stream_begin
  generalize pump calls (.created req.stream_chunks response) = result at seen
  obtain ⟨calls₁, stream, ok⟩ := result
  obtain ⟨second, seenAgain⟩ := pump_seen query_id calls₁ { stream with streaming := false }
  refine ⟨⟨query_id, true, executed, first, second⟩, rfl, rfl, ?_⟩
  have opened : stream.seen query_id =
      PgClickhouse.pump ⟨query_id, req.stream_chunks, 0, none⟩ first := seen
  simp only [PgClickhouse.ch_http_stream_begin, Bool.not_true, Bool.false_eq_true, if_false,
    ← opened, HttpStream.seen]
  split
  · exact congrArg some seenAgain.symm
  · rfl

end Seen

/-- A transfer that fails before any of the body has come. -/
def unanswered : List Call :=
  [⟨[], [], .finished (some (.other (ascii "Empty reply from server")))⟩]

/-- A transfer whose body comes in two pieces. -/
def twoPieces : List Call :=
  [⟨[], [⟨1, true⟩], .running⟩, ⟨[], [⟨1, true⟩], .running⟩, ⟨[], [], .finished none⟩]

/-- The first piece pauses the transfer, whatever buffer it is written to. -/
theorem pump_twoPieces {initial b : Buffer} (written : initial.write [97] true = some b) :
    ∃ (calls : List Call) (stream : HttpStream),
      pump twoPieces ⟨initial, true, false, false, [], 0, none, ⟨418, [97, 98], false, none⟩⟩ =
        (calls, stream, true) ∧
      stream.http_status = 418 ∧ stream.buffer = b ∧ stream.transfer.ended = none := by
  simp [twoPieces, pump, resume, perform, deliver, curl_multi_info_read, write_callback, written]

/-- When the transfer fails before a stream is returned, the next call on the stream still
reports a clean end, with nothing of the body handed out; and a body that comes with
status 418 is not complete when the stream is returned, though its transfer goes on. -/
theorem http_stream_not_faithful :
    (∃ before rest,
      (next_chunks 1 (ch_http_stream_begin true ⟨200, [97]⟩ unanswered).1
        (ch_http_stream_begin true ⟨200, [97]⟩ unanswered).2).1 = before ++ [] :: rest ∧
      before.flatten ≠ [97]) ∧
    (ch_http_stream_begin true ⟨418, [97, 98]⟩ twoPieces).2.buffer.contents ≠ [97, 98] ∧
    (ch_http_stream_begin true ⟨418, [97, 98]⟩ twoPieces).2.transfer.ended = none := by
  have clean : ∀ (calls : List Call) (stream : HttpStream), stream.buffer.write_pos = 0 →
      stream.transfer_done = true → (next_chunks 1 calls stream).1 = [[]] := by
    intro calls stream start done
    simp only [next_chunks]
    rw [ch_http_stream_next_chunk, if_pos start, if_pos done]
  obtain ⟨b, written, contents⟩ : ∃ b, Buffer.initial.write [97] true = some b ∧
      b.contents = [97] := Buffer.initial_write (by decide) true
  obtain ⟨calls, stream, pumped, status, buffer, ended⟩ := pump_twoPieces written
  have begun : ch_http_stream_begin true ⟨418, [97, 98]⟩ twoPieces = (calls, stream) := by
    have created : pump twoPieces (.created true ⟨418, [97, 98]⟩) = (calls, stream, true) := pumped
    rw [ch_http_stream_begin, created]
    simp [status, error_status, CH_HTTP_STATUS_CANCELED]
  rw [begun]
  refine ⟨⟨[], [], clean _ _ rfl rfl, by simp⟩, ?_, ended⟩
  rw [buffer, contents]
  decide

end PgClickhouse.Http

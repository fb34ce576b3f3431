import PgClickhouse.ErrorText
import PgClickhouse.HttpStream
import Mathlib.Data.List.DropRight

/-!
# An exception at the end of a body

A query may fail after the server has sent the status and some rows.  The exception then
ends the body, and `ch_http_stream_exception` looks for it in the last bytes of what was
streamed: at the first place that looks like the start of one.
-/

namespace PgClickhouse.Http

open Searching

/-! ## Looking for the exception -/

/-- `isdigit` of a byte. -/
def isdigit (b : UInt8) : Bool := decide (48 ≤ b) && decide (b ≤ 57)

/-- What an exception starts with, up to the digit. -/
def exception_marker : Bytes := ascii "Code: "

/-- The loop of `memmem`: what `exc` points to, up to `end`, when the loop is left with an
exception. -/
def find_exception (exc : Bytes) : Option Bytes :=
  match _found : find exception_marker exc with
  | none => none
  | some i =>
      if (exc.drop i)[6]?.any isdigit then some (exc.drop i)
      else find_exception ((exc.drop i).drop 6)
termination_by exc.length
decreasing_by
  have long := (find_eq_some _found).1.length_le
  have six : exception_marker.length = 6 := rfl
  rw [List.length_drop] at long
  rw [List.length_drop, List.length_drop]
  omega

/-- The loop of `pump` in front; `n` counts the bytes it drains. -/
def drain (n : Nat) (calls : List Call) (stream : HttpStream) : List Call × HttpStream :=
  if stream.transfer_done = false ∧ n < CH_ERROR_MSG_LEN then
    match _pumped : pump calls { stream with buffer := stream.buffer.reset } with
    | (calls, after, false) => (calls, after)
    | (calls, after, true) => drain (n + after.buffer.write_pos) calls after
  else (calls, stream)
termination_by if stream.transfer_done then 0 else calls.length + 1
decreasing_by
  rename_i goesOn
  have going : ¬ stream.transfer_done = true := by
    rw [goesOn.1]
    exact Bool.false_ne_true
  rw [if_neg going]
  obtain done | ⟨-, shorter⟩ := pump_stops _pumped
  · rw [if_pos done]
    omega
  · split <;> omega

/-- `none` is `false`, and otherwise the result is what is written to `buf`. -/
def ch_http_stream_exception (bufsize : Nat) (calls : List Call) (stream : HttpStream) :
    List Call × HttpStream × Option Bytes :=
  let drained := drain 0 calls stream
  (drained.1, { drained.2 with buffer := drained.2.buffer.reset },
    (find_exception drained.2.tail).map fun exc => ch_http_copy_error bufsize (some exc))

/-! ## The tail -/

/-- The two clamped copies keep the last bytes. -/
theorem keep_tail_rtake (received piece : Bytes) :
    keep_tail (received.rtake CH_ERROR_MSG_LEN) piece =
      (received ++ piece).rtake CH_ERROR_MSG_LEN := by
  unfold keep_tail
  generalize CH_ERROR_MSG_LEN = capacity
  have length : (received.rtake capacity).length = min received.length capacity := by
    rw [List.rtake, List.length_drop]
    omega
  dsimp only
  rw [length, List.rtake, List.rtake, List.length_append, List.drop_append, List.drop_drop]
  have pieces : piece.length - min piece.length capacity =
      received.length + piece.length - capacity - received.length := by omega
  rw [pieces]
  congr 1
  by_cases long : capacity ≤ piece.length
  · -- the piece alone fills the tail
    rw [List.drop_of_length_le (by omega), List.drop_of_length_le (by omega)]
  · congr 1
    omega

/-- Of a streamed body `received` has come, and the tail holds its last bytes.  When the
transfer is over without an error, all of it has come. -/
structure Tailed (body received : Bytes) (stream : HttpStream) : Prop where
  bytes : received ++ stream.transfer.rest = body
  tail : stream.tail = received.rtake CH_ERROR_MSG_LEN
  streaming : stream.streaming = true
  whole : stream.transfer.ended = some none → received = body

/-- What `after` has received goes on from what `stream` has. -/
def Receives (body : Bytes) (stream after : HttpStream) : Prop :=
  ∀ received, Tailed body received stream → ∃ more, Tailed body (received ++ more) after

theorem Receives.refl (body : Bytes) (stream : HttpStream) : Receives body stream stream := by
  intro received tailed
  refine ⟨[], ?_⟩
  rwa [List.append_nil]

theorem Receives.trans {body : Bytes} {a b c : HttpStream} (first : Receives body a b)
    (second : Receives body b c) : Receives body a c := by
  intro received tailed
  obtain ⟨more, middle⟩ := first received tailed
  obtain ⟨rest, last⟩ := second _ middle
  refine ⟨more ++ rest, ?_⟩
  rwa [← List.append_assoc]

/-- What only touches the other fields receives nothing. -/
theorem Receives.same {body : Bytes} {stream after : HttpStream}
    (transfer : after.transfer.rest = stream.transfer.rest ∧
      after.transfer.ended = stream.transfer.ended)
    (tail : after.tail = stream.tail) (streaming : after.streaming = stream.streaming) :
    Receives body stream after := by
  intro received tailed
  refine ⟨[], ?_⟩
  rw [List.append_nil]
  refine ⟨by rw [transfer.1, tailed.bytes], tail.trans tailed.tail,
    streaming.trans tailed.streaming, ?_⟩
  rw [transfer.2]
  exact tailed.whole

section Receives

variable (body : Bytes)

/-- One piece. -/
theorem write_callback_receives {stream after : HttpStream} {piece rest : Bytes} {grows : Bool}
    (cut : stream.transfer.rest = piece ++ rest)
    (written : write_callback stream piece grows = some after) :
    Receives body stream { after with transfer := { after.transfer with rest } } := by
  intro received tailed
  refine ⟨piece, ?_⟩
  unfold write_callback at written
  rw [tailed.streaming] at written
  split at written
  · cases written
  · cases written
    refine ⟨?_, ?_, rfl, ?_⟩
    · rw [List.append_assoc, ← cut, tailed.bytes]
    · rw [← keep_tail_rtake, ← tailed.tail]
    · intro ended
      have all := tailed.whole ended
      have bytes := tailed.bytes
      rw [cut, ← all] at bytes
      have nothing : piece = [] := by
        have length := congrArg List.length bytes
        simp only [List.length_append] at length
        exact List.eq_nil_of_length_eq_zero (by omega)
      rw [nothing, List.append_nil, all]

theorem deliver_receives (pieces : List Piece) (stream : HttpStream) :
    Receives body stream (deliver pieces stream) := by
  induction pieces generalizing stream with
  | nil => exact .refl body stream
  | cons piece pieces ih =>
      simp only [deliver]
      split
      · exact .refl body stream
      · split
        · exact .same ⟨rfl, rfl⟩ rfl rfl
        · rename_i after written
          exact (write_callback_receives body (List.take_append_drop _ _).symm written).trans (ih _)

theorem finish_receives (stream : HttpStream) (failure : Option CURLcode) :
    Receives body stream (finish stream (verdict stream failure)) := by
  intro received tailed
  refine ⟨[], ?_⟩
  rw [List.append_nil]
  refine ⟨tailed.bytes, tailed.tail, tailed.streaming, ?_⟩
  intro ended
  have nothing := rest_of_verdict (Option.some.inj ended)
  have bytes := tailed.bytes
  rwa [nothing, List.append_nil] at bytes

theorem perform_receives (calls : List Call) (stream : HttpStream) :
    Receives body stream (perform calls stream).2.1 := by
  induction calls generalizing stream with
  | nil =>
      simp only [perform]
      split
      · exact .same ⟨rfl, rfl⟩ rfl rfl
      · exact finish_receives body _ _
  | cons call calls ih =>
      have delivered := deliver_receives body call.pieces stream
      simp only [perform]
      split
      · exact .same ⟨rfl, rfl⟩ rfl rfl
      · split
        · exact delivered
        · exact delivered.trans (finish_receives body _ _)
        · split
          · exact delivered.trans (finish_receives body _ _)
          · split
            · exact delivered
            · exact delivered.trans (ih _)

theorem resume_receives (calls : List Call) (stream : HttpStream) :
    Receives body stream (resume calls stream) := by
  have unpaused : Receives body stream { stream with paused := false } :=
    .same ⟨rfl, rfl⟩ rfl rfl
  unfold resume
  split
  · split
    · exact unpaused
    · dsimp only
      split
      · exact unpaused
      · exact unpaused.trans (deliver_receives body _ _)
  · exact .refl body stream

theorem fail_receives (stream : HttpStream) (failure : CURLcode) :
    Receives body stream (fail stream failure) := by
  cases failure with
  | ABORTED_BY_CALLBACK => exact .same ⟨rfl, rfl⟩ rfl rfl
  | other error => exact .same ⟨rfl, rfl⟩ rfl rfl

theorem pump_receives (calls : List Call) (stream : HttpStream) :
    Receives body stream (pump calls stream).2.1 := by
  have performed := (resume_receives body calls stream).trans
    (perform_receives body calls (resume calls stream))
  unfold pump
  generalize perform calls (resume calls stream) = result at performed
  obtain ⟨calls', after, message⟩ := result
  cases message with
  | some error => exact performed.trans (fail_receives body after (.other error))
  | none =>
      have answered : Receives body stream
          { after with http_status := after.transfer.response_code } :=
        performed.trans (.same ⟨rfl, rfl⟩ rfl rfl)
      dsimp only
      split
      · exact answered
      · exact answered.trans (fail_receives body _ _)

theorem next_chunk_receives (calls : List Call) (stream : HttpStream) :
    Receives body stream (ch_http_stream_next_chunk calls stream).2.1 := by
  fun_induction ch_http_stream_next_chunk calls stream with
  | case1 calls stream empty finished => exact .refl body stream
  | case2 calls stream empty goesOn calls₁ after pumped =>
      have step := pump_receives body calls stream
      rwa [pumped] at step
  | case3 calls stream empty goesOn calls₁ after pumped ih =>
      have step := pump_receives body calls stream
      rw [pumped] at step
      exact step.trans ih
  | case4 calls stream waiting => exact .same ⟨rfl, rfl⟩ rfl rfl

theorem drain_receives (n : Nat) (calls : List Call) (stream : HttpStream) :
    Receives body stream (drain n calls stream).2 := by
  have reset (stream : HttpStream) :
      Receives body stream { stream with buffer := stream.buffer.reset } :=
    .same ⟨rfl, rfl⟩ rfl rfl
  fun_induction drain n calls stream with
  | case1 n calls stream goesOn calls₁ after pumped =>
      have step := pump_receives body calls { stream with buffer := stream.buffer.reset }
      rw [pumped] at step
      exact (reset stream).trans step
  | case2 n calls stream goesOn calls₁ after pumped ih =>
      have step := pump_receives body calls { stream with buffer := stream.buffer.reset }
      rw [pumped] at step
      exact ((reset stream).trans step).trans ih
  | case3 n calls stream ended => exact .refl body stream

end Receives

/-! ## The first place that looks like an exception -/

/-- The text starts like an exception. -/
def StartsException (text : Bytes) : Prop :=
  exception_marker <+: text ∧ text[6]?.any isdigit

/-- Somewhere in the text an exception seems to start. -/
def Marked (text : Bytes) : Prop := ∃ i, StartsException (text.drop i)

theorem marker_length : exception_marker.length = 6 := rfl

/-- The marker does not overlap itself. -/
theorem marker_apart {text : Bytes} (stands : exception_marker <+: text) {i : Nat}
    (inside : 0 < i) (within : i < 6) : ¬ exception_marker <+: text.drop i := by
  obtain ⟨rest, rfl⟩ := stands
  intro again
  obtain ⟨later, same⟩ := again
  have head := congrArg List.head? same
  have first : (exception_marker ++ later).head? = some 67 := rfl
  rw [first] at head
  have place : i = 1 ∨ i = 2 ∨ i = 3 ∨ i = 4 ∨ i = 5 := by omega
  rcases place with rfl | rfl | rfl | rfl | rfl
  all_goals simp [exception_marker, ascii] at head

/-- A marker that no digit follows is passed by, with everything in front of the search that
goes on behind it. -/
theorem not_startsException {text : Bytes} {i : Nat}
    (found : find exception_marker text = some i)
    (noDigit : ¬ (text.drop i)[6]?.any isdigit = true) {j : Nat} (before : j < i + 6) :
    ¬ StartsException (text.drop j) := by
  obtain ⟨stands, first⟩ := find_eq_some found
  rintro ⟨here, digit⟩
  rcases Nat.lt_trichotomy j i with earlier | rfl | later
  · exact first j earlier here
  · exact noDigit digit
  · refine marker_apart stands (i := j - i) (by omega) (by omega) ?_
    rwa [List.drop_drop, Nat.add_sub_cancel' later.le]

/-- What the loop finds is the first place that looks like an exception. -/
theorem find_exception_eq_some {text exc : Bytes} (found : find_exception text = some exc) :
    ∃ i, exc = text.drop i ∧ StartsException (text.drop i) ∧
      ∀ j < i, ¬ StartsException (text.drop j) := by
  fun_induction find_exception text with
  | case1 text absent => cases found
  | case2 text i stands digit =>
      cases found
      obtain ⟨here, first⟩ := find_eq_some stands
      exact ⟨i, rfl, ⟨here, digit⟩, fun j before starts => first j before starts.1⟩
  | case3 text i stands noDigit ih =>
      obtain ⟨k, rfl, starts, first⟩ := ih found
      rw [List.drop_drop, List.drop_drop] at starts
      refine ⟨i + (6 + k), by rw [List.drop_drop, List.drop_drop], starts, ?_⟩
      intro j before
      by_cases passed : j < i + 6
      · exact not_startsException stands noDigit passed
      · have later := first (j - (i + 6)) (by omega)
        rw [List.drop_drop, List.drop_drop] at later
        rwa [show j = i + (6 + (j - (i + 6))) by omega]

theorem find_exception_eq_none {text : Bytes} (none : find_exception text = none) :
    ¬ Marked text := by
  fun_induction find_exception text with
  | case1 text absent =>
      rintro ⟨i, here, -⟩
      exact find_eq_none_iff.mp absent (here.isInfix.trans (List.drop_suffix i text).isInfix)
  | case2 text i stands digit => cases none
  | case3 text i stands noDigit ih =>
      rintro ⟨j, starts⟩
      by_cases passed : j < i + 6
      · exact not_startsException stands noDigit passed starts
      · refine ih none ⟨j - (i + 6), ?_⟩
        rw [List.drop_drop, List.drop_drop]
        rwa [show i + (6 + (j - (i + 6))) = j by omega]

theorem find_exception_none_iff {text : Bytes} : find_exception text = none ↔ ¬ Marked text := by
  refine ⟨find_exception_eq_none, ?_⟩
  intro unmarked
  match found : find_exception text with
  | none => rfl
  | some exc =>
      obtain ⟨i, -, starts, -⟩ := find_exception_eq_some found
      exact absurd ⟨i, starts⟩ unmarked

theorem find_exception_drop_iff {text : Bytes} {i : Nat} (starts : StartsException (text.drop i)) :
    find_exception text = some (text.drop i) ↔ ∀ j < i, ¬ StartsException (text.drop j) := by
  have long := starts.1.length_le
  rw [marker_length, List.length_drop] at long
  match found : find_exception text with
  | none => exact absurd ⟨i, starts⟩ (find_exception_eq_none found)
  | some exc =>
      obtain ⟨k, rfl, startsAt, first⟩ := find_exception_eq_some found
      constructor
      · intro same
        have length := congrArg List.length (Option.some.inj same)
        rw [List.length_drop, List.length_drop] at length
        rwa [show i = k by omega]
      · intro none
        have notBefore : ¬ k < i := fun before => none k before startsAt
        have notAfter : ¬ i < k := fun after => first i after starts
        rw [show k = i by omega]

/-- In front of an exception another one seems to start only if it is all in front. -/
theorem marked_iff {ahead exc : Bytes} (starts : StartsException exc) :
    (∃ j < ahead.length, StartsException ((ahead ++ exc).drop j)) ↔ Marked ahead := by
  constructor
  · rintro ⟨j, before, here, digit⟩
    have cut : (ahead ++ exc).drop j = ahead.drop j ++ exc :=
      List.drop_append_of_le_length before.le
    have behind : ((ahead ++ exc).drop j).drop (ahead.length - j) = exc := by
      rw [List.drop_drop, Nat.add_sub_cancel' before.le, List.drop_left]
    have apart : 6 ≤ ahead.length - j := by
      by_contra inside
      refine marker_apart here (i := ahead.length - j) (by omega) (by omega) ?_
      rw [behind]
      exact starts.1
    have further : ahead.length - j ≠ 6 := by
      intro six
      obtain ⟨rest, rfl⟩ := starts.1
      rw [cut, List.getElem?_append_right (by rw [List.length_drop]; omega), List.length_drop,
        six] at digit
      revert digit
      simp [exception_marker, ascii, isdigit]
    refine ⟨j, ?_, ?_⟩
    · rw [cut] at here
      refine List.prefix_of_prefix_length_le here (List.prefix_append _ _) ?_
      rw [marker_length, List.length_drop]
      omega
    · rwa [cut, List.getElem?_append_left (by rw [List.length_drop]; omega)] at digit
  · rintro ⟨j, here, digit⟩
    have long := here.length_le
    rw [marker_length, List.length_drop] at long
    have cut : (ahead ++ exc).drop j = ahead.drop j ++ exc :=
      List.drop_append_of_le_length (by omega)
    refine ⟨j, by omega, ?_, ?_⟩
    · rw [cut]
      exact here.trans (List.prefix_append _ _)
    · have inside : 6 < (ahead.drop j).length := by
        by_contra short
        rw [List.getElem?_eq_none (by omega)] at digit
        cases digit
      rw [cut, List.getElem?_append_left inside]
      exact digit

/-! ## The exception of the server -/

/-- What a tail of `capacity` bytes holds of the exception behind `data`, if it holds its
start. -/
def exceptionInTail (capacity : Nat) (data received : Bytes) : Option Bytes :=
  if received.length - capacity ≤ data.length ∧ data.length + 7 ≤ received.length then
    some (received.drop data.length)
  else none

/-- What the tail holds in front of that, or all that it holds. -/
def aheadInTail (capacity : Nat) (data received : Bytes) : Bytes :=
  if (exceptionInTail capacity data received).isSome then
    data.drop (received.length - capacity)
  else received.rtake capacity

theorem find_exception_rtake_iff {received data exc : Bytes} (capacity : Nat)
    (front : received <+: data ++ exc) (starts : StartsException exc) :
    find_exception (received.rtake capacity) = exceptionInTail capacity data received ↔
      ¬ Marked (aheadInTail capacity data received) := by
  unfold aheadInTail exceptionInTail
  split
  · rename_i inTail
    obtain ⟨kept, started⟩ := inTail
    rw [if_pos Option.isSome_some]
    obtain ⟨come, rfl⟩ : data <+: received :=
      List.prefix_of_prefix_length_le (List.prefix_append _ _) front (by omega)
    have part : come <+: exc := (List.prefix_append_right_inj data).mp front
    rw [List.length_append] at kept started
    have long : 7 ≤ come.length := by omega
    have startsHere : StartsException come := by
      refine ⟨List.prefix_of_prefix_length_le starts.1 part (by rw [marker_length]; omega), ?_⟩
      obtain ⟨later, rfl⟩ := part
      have digit := starts.2
      rwa [List.getElem?_append_left (by omega)] at digit
    have tail : (data ++ come).rtake capacity =
        data.drop (data.length + come.length - capacity) ++ come := by
      rw [List.rtake, List.length_append, List.drop_append_of_le_length kept]
    rw [tail, List.length_append, List.drop_left]
    generalize data.drop (data.length + come.length - capacity) = ahead
    have place : come = (ahead ++ come).drop ahead.length := List.drop_left.symm
    have first := find_exception_drop_iff (place ▸ startsHere)
    rw [← place] at first
    rw [first, ← marked_iff startsHere]
    push Not
    rfl
  · exact find_exception_none_iff

/-! ## Reading a streamed body -/

/-- The streams of a body that is streamed, and the calls that are left, whatever libcurl
does and however many chunks were read. -/
inductive Reading (response : Response) : List Call → HttpStream → Prop
  | begin (calls : List Call)
      (streamed : (ch_http_stream_begin true response calls).2.streaming = true) :
      Reading response (ch_http_stream_begin true response calls).1
        (ch_http_stream_begin true response calls).2
  | next_chunk {calls : List Call} {stream : HttpStream} (reading : Reading response calls stream) :
      Reading response (ch_http_stream_next_chunk calls stream).1
        (ch_http_stream_next_chunk calls stream).2.1

/-- A body that stays streamed is not switched to buffering when it is begun. -/
theorem begin_of_streaming {response : Response} {calls : List Call}
    (streamed : (ch_http_stream_begin true response calls).2.streaming = true) :
    (ch_http_stream_begin true response calls).2 =
      (pump calls (.created true response)).2.1 := by
  have created : Sound response.code response.body [] (.created true response) :=
    ⟨rfl, rfl, nofun, rfl⟩
  have first := pump_pumped calls created
  unfold ch_http_stream_begin at streamed ⊢
  generalize pump calls (.created true response) = result at first streamed ⊢
  obtain ⟨calls₁, stream, ok⟩ := result
  dsimp only at streamed ⊢
  split
  · rename_i switched
    rw [if_pos switched] at streamed
    have again : Sound response.code response.body [] { stream with streaming := false } :=
      ⟨first.sound.bytes, first.sound.done, first.sound.whole, first.sound.code⟩
    have off := (pump_pumped calls₁ again).streaming
    dsimp only at streamed
    rw [off] at streamed
    cases streamed
  · rfl

theorem reading_tailed {response : Response} {calls : List Call} {stream : HttpStream}
    (reading : Reading response calls stream) :
    ∃ received, Tailed response.body received stream := by
  induction reading with
  | begin calls streamed =>
      have created : Tailed response.body [] (.created true response) :=
        ⟨rfl, by rw [List.rtake_nil]; rfl, rfl, fun ended => by cases ended⟩
      obtain ⟨received, tailed⟩ := pump_receives response.body calls _ _ created
      rw [begin_of_streaming streamed]
      exact ⟨_, tailed⟩
  | next_chunk reading ih =>
      obtain ⟨received, tailed⟩ := ih
      obtain ⟨more, later⟩ := next_chunk_receives response.body _ _ _ tailed
      exact ⟨_, later⟩

/-- For every streamed body, cut in any way and read up to any place: the tail holds the
last bytes that have come, then and when it is drained; what is reported is the copy of what
the search finds in it.  With the exception of the server behind `data`, the search finds
just what the tail holds of that exception exactly if nothing in front of it in the tail (or
nowhere, if the tail does not hold its start) looks like the start of one. -/
theorem late_exception (bufsize : Nat) {response : Response} {calls : List Call}
    {stream : HttpStream} (reading : Reading response calls stream) :
    let result := ch_http_stream_exception bufsize calls stream
    ∃ received later,
      Tailed response.body received stream ∧
      Tailed response.body (received ++ later) result.2.1 ∧
      result.2.2 =
        (find_exception result.2.1.tail).map (fun exc => ch_http_copy_error bufsize (some exc)) ∧
      ∀ data exc, response.body = data ++ exc → StartsException exc →
        (find_exception result.2.1.tail =
            exceptionInTail CH_ERROR_MSG_LEN data (received ++ later) ↔
          ¬ Marked (aheadInTail CH_ERROR_MSG_LEN data (received ++ later))) := by
  intro result
  obtain ⟨received, tailed⟩ := reading_tailed reading
  obtain ⟨later, drained⟩ := drain_receives response.body 0 calls stream received tailed
  have final : Tailed response.body (received ++ later) result.2.1 :=
    ⟨drained.bytes, drained.tail, drained.streaming, drained.whole⟩
  refine ⟨received, later, tailed, final, rfl, ?_⟩
  intro data exc cut starts
  rw [final.tail]
  exact find_exception_rtake_iff CH_ERROR_MSG_LEN ⟨_, final.bytes.trans cut⟩ starts

/-- A transfer that is over after one piece. -/
def onePiece (size : Nat) : List Call := [⟨[], [⟨size, true⟩], .finished none⟩]

/-- The piece is the whole body, whatever buffer it is written to. -/
theorem pump_onePiece {initial b : Buffer} {body : Bytes}
    (written : initial.write body true = some b) :
    pump (onePiece body.length)
        ⟨initial, true, false, false, [], 0, none, ⟨200, body, false, none⟩⟩ =
      ([], ⟨b, true, true, true, keep_tail [] body, 200, none, ⟨200, [], false, some none⟩⟩,
        true) := by
  simp [onePiece, pump, resume, perform, deliver, write_callback, written, finish, verdict,
    curl_multi_info_read]

/-- A short body that comes in one piece. -/
theorem reading_onePiece {body : Bytes} (small : body.length < INITIAL_BUF_SIZE) :
    ∃ stream, Reading ⟨200, body⟩ [] stream ∧ stream.transfer_done = true ∧
      stream.tail = keep_tail [] body := by
  obtain ⟨b, written, -⟩ := Buffer.initial_write small true
  have pumped : pump (onePiece body.length) (.created true ⟨200, body⟩) = _ :=
    pump_onePiece written
  have begun : ch_http_stream_begin true ⟨200, body⟩ (onePiece body.length) =
      ([], ⟨b, true, true, true, keep_tail [] body, 200, none, ⟨200, [], false, some none⟩⟩) := by
    rw [ch_http_stream_begin, pumped]
    rfl
  have streamed : (ch_http_stream_begin true ⟨200, body⟩ (onePiece body.length)).2.streaming =
      true := by rw [begun]
  have reading := Reading.begin _ streamed
  rw [begun] at reading
  exact ⟨_, reading, rfl, rfl⟩

theorem exception_of_done (bufsize : Nat) (calls : List Call) {stream : HttpStream}
    (done : stream.transfer_done = true) :
    (ch_http_stream_exception bufsize calls stream).2.1.tail = stream.tail ∧
      (ch_http_stream_exception bufsize calls stream).2.2 =
        (find_exception stream.tail).map fun exc => ch_http_copy_error bufsize (some exc) := by
  have drained : drain 0 calls stream = (calls, stream) := by
    rw [drain, if_neg]
    rintro ⟨goesOn, -⟩
    rw [done] at goesOn
    cases goesOn
  unfold ch_http_stream_exception
  rw [drained]
  exact ⟨rfl, rfl⟩

theorem late_exception_closed :
    ∃ calls stream,
      let result := ch_http_stream_exception CH_ERROR_MSG_LEN calls stream
      ∃ received later,
        Tailed (ascii "x\nCode: 395. y") received stream ∧
        Tailed (ascii "x\nCode: 395. y") (received ++ later) result.2.1 ∧
        result.2.2 = (find_exception result.2.1.tail).map
          (fun exc => ch_http_copy_error CH_ERROR_MSG_LEN (some exc)) ∧
        ∀ data exc, ascii "x\nCode: 395. y" = data ++ exc → StartsException exc →
          (find_exception result.2.1.tail =
              exceptionInTail CH_ERROR_MSG_LEN data (received ++ later) ↔
            ¬ Marked (aheadInTail CH_ERROR_MSG_LEN data (received ++ later))) := by
  obtain ⟨stream, reading, -, -⟩ :=
    reading_onePiece (show (ascii "x\nCode: 395. y").length < INITIAL_BUF_SIZE by decide)
  exact ⟨[], stream, late_exception CH_ERROR_MSG_LEN reading⟩

/-- A row with the text `Code: 7` in front of the exception is reported in its place. -/
theorem exception_from_row_data :
    ∃ calls stream, Reading ⟨200, ascii "Code: 7\n" ++ ascii "Code: 395. DB::Exception: x"⟩
        calls stream ∧
      StartsException (ascii "Code: 395. DB::Exception: x") ∧
      (ch_http_stream_exception CH_ERROR_MSG_LEN calls stream).2.2 =
        some (ch_http_copy_error CH_ERROR_MSG_LEN
          (some (ascii "Code: 7\n" ++ ascii "Code: 395. DB::Exception: x"))) ∧
      find_exception (ch_http_stream_exception CH_ERROR_MSG_LEN calls stream).2.1.tail ≠
        exceptionInTail CH_ERROR_MSG_LEN (ascii "Code: 7\n")
          (ascii "Code: 7\n" ++ ascii "Code: 395. DB::Exception: x") := by
  obtain ⟨stream, reading, done, tail⟩ := reading_onePiece
    (show (ascii "Code: 7\n" ++ ascii "Code: 395. DB::Exception: x").length < INITIAL_BUF_SIZE
      by decide)
  have kept : stream.tail = ascii "Code: 7\n" ++ ascii "Code: 395. DB::Exception: x" := by
    rw [tail]
    decide
  have whole : StartsException
      ((ascii "Code: 7\n" ++ ascii "Code: 395. DB::Exception: x").drop 0) := by
    exact ⟨by decide, by decide⟩
  have found := (find_exception_drop_iff whole).mpr (fun j before => absurd before (by omega))
  obtain ⟨same, reported⟩ := exception_of_done CH_ERROR_MSG_LEN [] done
  refine ⟨[], stream, reading, ⟨by decide, by decide⟩, ?_, ?_⟩
  · rw [reported, kept, found]
    rfl
  · rw [same, kept, found]
    decide

end PgClickhouse.Http

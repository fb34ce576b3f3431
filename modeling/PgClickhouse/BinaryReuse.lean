import PgClickhouse.BinaryStream
import Mathlib.Data.List.Infix
import Mathlib.Data.List.Nodup
import Mathlib.Tactic.Common

/-!
# Reuse of a binary connection

Nothing in the driver looks for an unfinished response before it sends a query, so a
caller that drops a response in the middle and queries again reads the old answer.
As long as queries are sent only when the earlier responses and inserts have ended, or
the connection is marked broken, no answer is ever left behind.

The invariant `Inv` says so for every state of such a run: on a connection that is not
broken at most one response or insert is open, and it holds the only query whose answer
has not been read to its end.
-/

namespace PgClickhouse.Binary

/-! ## What reading does to the connection -/

/-- Between two moments only packets were read: queries leave `awaiting` at the front. -/
structure Reads (conn after : ch_binary_connection) : Prop where
  sends : after.sends = conn.sends
  broken : conn.broken = true → after.broken = true
  awaiting : after.awaiting <:+ conn.awaiting

/-- The answer to the oldest query was read to its end, or the connection given up. -/
def Ended (conn after : ch_binary_connection) : Prop :=
  after.broken = true ∨ after.awaiting <:+ conn.awaiting.tail

theorem Reads.refl (conn : ch_binary_connection) : Reads conn conn :=
  ⟨rfl, id, List.suffix_rfl⟩

theorem Reads.trans {a b c : ch_binary_connection} (ab : Reads a b) (bc : Reads b c) :
    Reads a c :=
  ⟨bc.sends.trans ab.sends, fun h => bc.broken (ab.broken h),
    bc.awaiting.trans ab.awaiting⟩

theorem suffix_tail {a b : List Nat} (h : a <:+ b) : a.tail <:+ b.tail := by
  obtain ⟨before, rfl⟩ := h
  cases before with
  | nil => exact List.suffix_rfl
  | cons x before => exact (List.tail_suffix a).trans (List.suffix_append before a)

theorem Reads.ended {a b c : ch_binary_connection} (ab : Reads a b) (bc : Ended b c) :
    Ended a c := by
  rcases bc with broken | rest
  · exact .inl broken
  · exact .inr (rest.trans (suffix_tail ab.awaiting))

theorem Ended.reads {a b c : ch_binary_connection} (ab : Ended a b) (bc : Reads b c) :
    Ended a c := by
  rcases ab with broken | rest
  · exact .inl (bc.broken broken)
  · exact .inr (bc.awaiting.trans rest)

theorem reads_mark_broken (conn : ch_binary_connection) : Reads conn conn.mark_broken :=
  ⟨rfl, fun _ => rfl, List.suffix_rfl⟩

theorem ended_mark_broken (conn after : ch_binary_connection) :
    Ended conn after.mark_broken :=
  .inl rfl

theorem reads_read (conn : ch_binary_connection) (pkt : chc_packet) :
    Reads conn (conn.read pkt) := by
  unfold ch_binary_connection.read
  split
  · exact ⟨rfl, id, List.tail_suffix _⟩
  · exact Reads.refl conn

theorem ended_read_end_of_stream (conn : ch_binary_connection) :
    Ended conn (conn.read .END_OF_STREAM) :=
  .inr List.suffix_rfl

/-- A drain ends the answer it drains. -/
theorem ch_binary_drain_spec (wire : List Recv) (conn : ch_binary_connection) :
    Reads conn (ch_binary_drain wire conn).2.1 ∧
      Ended conn (ch_binary_drain wire conn).2.1 := by
  induction wire generalizing conn with
  | nil => exact ⟨reads_mark_broken conn, ended_mark_broken conn conn⟩
  | cons recv wire ih =>
    cases recv with
    | failed msg => exact ⟨reads_mark_broken conn, ended_mark_broken conn conn⟩
    | packet pkt canceled =>
      have after := reads_read conn pkt
      cases pkt with
      | EXCEPTION ex =>
        exact ⟨after.trans (reads_mark_broken _), ended_mark_broken _ _⟩
      | END_OF_STREAM => exact ⟨after, ended_read_end_of_stream conn⟩
      | DATA block => exact ⟨after.trans (ih _).1, after.ended (ih _).2⟩
      | other => exact ⟨after.trans (ih _).1, after.ended (ih _).2⟩

/-- What the functions of `select.c` do to a connection and a response: they only read,
they never reopen the response, and they end it only with its answer. -/
structure Pumped (conn : ch_binary_connection) (resp : ch_binary_response)
    (after : ch_binary_connection) (left : ch_binary_response) : Prop where
  reads : Reads conn after
  query : left.query = resp.query
  closed : resp.eos = true → left.eos = true
  ended : resp.eos = false → left.eos = true → Ended conn after
  freed : left.freed = true → resp.freed = true ∨ left.eos = true

theorem Pumped.trans {a b c : ch_binary_connection} {r s t : ch_binary_response}
    (first : Pumped a r b s) (second : Pumped b s c t) : Pumped a r c t where
  reads := first.reads.trans second.reads
  query := second.query.trans first.query
  closed h := second.closed (first.closed h)
  ended before h := by
    cases open_ : s.eos with
    | true => exact (first.ended before open_).reads second.reads
    | false => exact first.reads.ended (second.ended open_ h)
  freed h := by
    rcases second.freed h with h | h
    · exact (first.freed h).imp_right second.closed
    · exact .inr h

/-- A step that leaves `eos` as it is. -/
theorem Pumped.of_eos {conn after : ch_binary_connection} {resp left : ch_binary_response}
    (reads : Reads conn after) (query : left.query = resp.query)
    (eos : left.eos = resp.eos) (freed : left.freed = resp.freed) :
    Pumped conn resp after left where
  reads := reads
  query := query
  closed h := eos.trans h
  ended before h := by simp [eos, before] at h
  freed h := .inl (freed ▸ h)

/-- A step that ends the answer. -/
theorem Pumped.of_ended {conn after : ch_binary_connection}
    {resp left : ch_binary_response} (reads : Reads conn after)
    (query : left.query = resp.query) (ended : Ended conn after)
    (eos : left.eos = true) : Pumped conn resp after left where
  reads := reads
  query := query
  closed _ := eos
  ended _ _ := ended
  freed _ := .inr eos

@[simp] theorem resp_set_error_query (resp : ch_binary_response) (msg : Bytes) :
    (resp_set_error resp msg).query = resp.query := by
  unfold resp_set_error
  split <;> rfl

@[simp] theorem resp_set_error_eos (resp : ch_binary_response) (msg : Bytes) :
    (resp_set_error resp msg).eos = resp.eos := by
  unfold resp_set_error
  split <;> rfl

@[simp] theorem resp_set_error_freed (resp : ch_binary_response) (msg : Bytes) :
    (resp_set_error resp msg).freed = resp.freed := by
  unfold resp_set_error
  split <;> rfl

@[simp] theorem check_cancel_query (conn : ch_binary_connection) (canceled : Bool)
    (resp : ch_binary_response) :
    (check_cancel conn canceled resp).query = resp.query := by
  unfold check_cancel
  split <;> simp

@[simp] theorem check_cancel_eos (conn : ch_binary_connection) (canceled : Bool)
    (resp : ch_binary_response) :
    (check_cancel conn canceled resp).eos = resp.eos := by
  unfold check_cancel
  split <;> simp

@[simp] theorem check_cancel_freed (conn : ch_binary_connection) (canceled : Bool)
    (resp : ch_binary_response) :
    (check_cancel conn canceled resp).freed = resp.freed := by
  unfold check_cancel
  split <;> simp

theorem pump_one_spec (conn : ch_binary_connection) (resp : ch_binary_response)
    (recv : Recv) :
    Pumped conn resp (pump_one conn resp recv).1 (pump_one conn resp recv).2 := by
  cases recv with
  | failed msg =>
    refine .of_ended (reads_mark_broken conn) ?_ (ended_mark_broken conn conn) rfl
    simp [pump_one, resp_broken]
  | packet pkt canceled =>
    have after := reads_read conn pkt
    have given_up := after.trans (reads_mark_broken _)
    cases pkt with
    | EXCEPTION ex =>
      refine .of_ended given_up ?_ (ended_mark_broken _ _) rfl
      simp [pump_one, resp_broken]
    | END_OF_STREAM =>
      refine .of_ended after ?_ (ended_read_end_of_stream conn) rfl
      simp [pump_one]
    | other =>
      refine .of_eos after ?_ ?_ ?_
      · simp [pump_one]
      · simp [pump_one]
      · simp [pump_one]
    | DATA block =>
      cases block with
      | none =>
        refine .of_eos after ?_ ?_ ?_
        · simp [pump_one]
        · simp [pump_one]
        · simp [pump_one]
      | some block =>
        simp only [pump_one]
        split
        · split
          · refine .of_ended given_up ?_ (ended_mark_broken _ _) rfl
            simp [resp_broken]
          · exact .of_eos after (by simp) (by simp) (by simp)
        · exact .of_eos after (by simp) (by simp) (by simp)

/-- The loop, by induction on what the peer sends. -/
theorem pump_spec (wire : List Recv) (conn : ch_binary_connection)
    (resp : ch_binary_response) :
    Pumped conn resp (pump wire conn resp).2.1 (pump wire conn resp).2.2 := by
  induction wire generalizing conn resp with
  | nil =>
    simp only [pump]
    split
    · exact pump_one_spec conn resp _
    · exact .of_eos (Reads.refl conn) rfl rfl rfl
  | cons recv wire ih =>
    simp only [pump]
    split
    · exact (pump_one_spec conn resp recv).trans (ih _ _)
    · exact .of_eos (Reads.refl conn) rfl rfl rfl

theorem fetch_next_block_spec (wire : List Recv) (conn : ch_binary_connection)
    (resp : ch_binary_response) :
    Pumped conn resp (ch_binary_response_fetch_next_block wire conn resp).2.1
      (ch_binary_response_fetch_next_block wire conn resp).2.2.1 := by
  obtain ⟨reads, query, closed, ended, freed⟩ := pump_spec wire conn resp
  exact ⟨reads, query, closed, ended, freed⟩

theorem drain_until_eos_spec (wire : List Recv) (conn : ch_binary_connection)
    (resp : ch_binary_response) (cancel_sent : Bool) :
    Pumped conn resp (drain_until_eos wire conn resp cancel_sent).2.1
      (drain_until_eos wire conn resp cancel_sent).2.2 := by
  unfold drain_until_eos
  split
  · exact .of_eos (Reads.refl conn) rfl rfl rfl
  · cases cancel_sent with
    | true =>
      obtain ⟨reads, ended⟩ :=
        ch_binary_drain_spec wire { conn with check_cancel_fn := false }
      exact .of_ended ⟨reads.sends, reads.broken, reads.awaiting⟩ rfl ended rfl
    | false => exact .of_ended (reads_mark_broken conn) rfl (ended_mark_broken _ _) rfl

theorem drain_until_eos_eos (wire : List Recv) (conn : ch_binary_connection)
    (resp : ch_binary_response) (cancel_sent : Bool) :
    (drain_until_eos wire conn resp cancel_sent).2.2.eos = true := by
  unfold drain_until_eos
  split
  · assumption
  · cases cancel_sent <;> rfl

theorem response_free_spec (wire : List Recv) (conn : ch_binary_connection)
    (resp : ch_binary_response) (cancel_sent raised : Bool) :
    Pumped conn resp (ch_binary_response_free wire conn resp cancel_sent raised).2.1
      (ch_binary_response_free wire conn resp cancel_sent raised).2.2 := by
  obtain ⟨reads, query, closed, ended, -⟩ :=
    drain_until_eos_spec wire conn resp cancel_sent
  have eos := drain_until_eos_eos wire conn resp cancel_sent
  have marked : Reads (drain_until_eos wire conn resp cancel_sent).2.1
      (ch_binary_response_free wire conn resp cancel_sent raised).2.1 := by
    cases raised with
    | true => exact ⟨rfl, fun _ => rfl, List.suffix_rfl⟩
    | false => exact ⟨rfl, id, List.suffix_rfl⟩
  exact ⟨reads.trans marked, query, closed, fun before h => (ended before h).reads marked,
    fun _ => .inr eos⟩

theorem recv_initial_block_spec (wire : List Recv) (conn : ch_binary_connection) :
    Reads conn (recv_initial_block wire conn).2.1 ∧
      ∀ msg, (recv_initial_block wire conn).2.2 = .error msg →
        (recv_initial_block wire conn).2.1.broken = true := by
  induction wire generalizing conn with
  | nil => exact ⟨reads_mark_broken conn, fun _ _ => rfl⟩
  | cons recv wire ih =>
    cases recv with
    | failed msg => exact ⟨reads_mark_broken conn, fun _ _ => rfl⟩
    | packet pkt canceled =>
      have after := reads_read conn pkt
      cases pkt with
      | EXCEPTION ex => exact ⟨after.trans (reads_mark_broken _), fun _ _ => rfl⟩
      | END_OF_STREAM => exact ⟨after.trans (ih _).1, (ih _).2⟩
      | other => exact ⟨after.trans (ih _).1, (ih _).2⟩
      | DATA block =>
        cases block with
        | none => exact ⟨after.trans (ih _).1, (ih _).2⟩
        | some block =>
          simp only [recv_initial_block]
          split
          · refine ⟨after, ?_⟩
            intro msg h
            cases h
          · exact ⟨after.trans (ih _).1, (ih _).2⟩

theorem drain_aborted_insert_spec (wire : List Recv) (conn : ch_binary_connection)
    (data_sent : Bool) :
    Reads conn (drain_aborted_insert wire conn data_sent).2 ∧
      Ended conn (drain_aborted_insert wire conn data_sent).2 := by
  cases data_sent with
  | true => exact ch_binary_drain_spec wire conn
  | false => exact ⟨reads_mark_broken conn, ended_mark_broken conn conn⟩

theorem flush_block_spec (conn : ch_binary_connection) (built : Except Bytes chc_block)
    (sent : Bool) (err : Bytes) :
    Reads conn (ch_binary_flush_block conn built sent err).1 := by
  cases built with
  | error msg => exact Reads.refl conn
  | ok block =>
    cases sent with
    | true => exact Reads.refl conn
    | false => exact reads_mark_broken conn

theorem begin_insert_spec {wire left : List Recv} {conn after : ch_binary_connection}
    {err : Bytes} {writer : chc_block → Option Bytes} {sent data_sent : Bool}
    {made : Except Raised ch_binary_insert_handle}
    (begun : ch_binary_begin_insert wire conn sent err writer data_sent =
      (left, after, made)) :
    Reads (if sent then conn.send_query else conn.send_failed) after ∧
      ((∃ msg, made = .error msg) ∧
          Ended (if sent then conn.send_query else conn.send_failed) after ∨
        made = .ok ⟨conn.sends.length, false, false⟩) := by
  cases sent with
  | false =>
    obtain ⟨-, rfl, rfl⟩ := Prod.mk.inj begun |>.imp_right Prod.mk.inj
    exact ⟨Reads.refl _, .inl ⟨⟨_, rfl⟩, .inl rfl⟩⟩
  | true =>
    have first := recv_initial_block_spec wire conn.send_query
    unfold ch_binary_begin_insert at begun
    rcases block : recv_initial_block wire conn.send_query with ⟨rest, there, got⟩
    rw [block] at first
    cases got with
    | error msg =>
      simp only [if_true, block, Prod.mk.injEq] at begun
      obtain ⟨-, rfl, rfl⟩ := begun
      exact ⟨first.1, .inl ⟨⟨_, rfl⟩, .inl (first.2 _ rfl)⟩⟩
    | ok schema =>
      cases failure : writer schema with
      | none =>
        simp only [if_true, block, failure, Prod.mk.injEq] at begun
        obtain ⟨-, rfl, rfl⟩ := begun
        exact ⟨first.1, .inr rfl⟩
      | some msg =>
        have second := drain_aborted_insert_spec rest there data_sent
        simp only [if_true, block, failure, Prod.mk.injEq] at begun
        obtain ⟨-, rfl, rfl⟩ := begun
        exact ⟨first.1.trans second.1, .inl ⟨⟨_, rfl⟩, first.1.ended second.2⟩⟩

theorem finalize_insert_spec (wire : List Recv) (conn : ch_binary_connection)
    (h : ch_binary_insert_handle) (sent : Bool) (err : Bytes) :
    Reads conn (ch_binary_finalize_insert wire conn h sent err).2.1 ∧
      (ch_binary_finalize_insert wire conn h sent err).2.2.1 = { h with finalized := true } ∧
      (h.finalized = false →
        Ended conn (ch_binary_finalize_insert wire conn h sent err).2.1) := by
  unfold ch_binary_finalize_insert
  split
  · next finalized =>
    refine ⟨Reads.refl conn, ?_, fun open_ => ?_⟩
    · rw [← finalized]
    · simp [open_] at finalized
  · cases sent with
    | false => exact ⟨reads_mark_broken conn, rfl, fun _ => ended_mark_broken conn conn⟩
    | true =>
      obtain ⟨reads, ended⟩ := ch_binary_drain_spec wire conn
      rcases drained : ch_binary_drain wire conn with ⟨rest, after, outcome⟩
      rw [drained] at reads ended
      cases outcome <;> exact ⟨reads, rfl, fun _ => ended⟩

/-! ## The invariant -/

namespace Driver

/-- A response that has not ended, or an insert neither finalized nor released, holds
query `q`. -/
def Open (s : Driver) (q : Nat) : Prop :=
  (∃ resp ∈ s.responses, resp.query = q ∧ resp.eos = false) ∨
  (∃ h ∈ s.inserts, h.query = q ∧ h.finalized = false ∧ h.released = false)

/-- Every response has ended, by its last packet or by `ch_binary_response_free`, and
every insert is finalized or released. -/
def Settled (s : Driver) : Prop :=
  (∀ resp ∈ s.responses, resp.eos = true) ∧
  (∀ h ∈ s.inserts, h.finalized = true ∨ h.released = true)

/-- The queries the responses and inserts belong to. -/
def queries (s : Driver) : List Nat :=
  s.responses.map ch_binary_response.query ++ s.inserts.map ch_binary_insert_handle.query

theorem Settled.not_open {s : Driver} (settled : s.Settled) (q : Nat) : ¬ s.Open q := by
  rintro (⟨resp, mem, -, eos⟩ | ⟨h, mem, -, finalized, released⟩)
  · simp [settled.1 resp mem] at eos
  · rcases settled.2 h mem with h | h
    · simp [h] at finalized
    · simp [h] at released

/-- At most one response or insert is open, and it holds the unread answer. -/
structure Held (s : Driver) : Prop where
  one_open : ∀ q q', s.Open q → s.Open q' → q = q'
  awaited : ∀ q ∈ s.conn.awaiting, s.Open q
  single : s.conn.awaiting.length ≤ 1

structure Inv (s : Driver) : Prop where
  sent : ∀ sent ∈ s.conn.sends, sent.broken = false → sent.unread = []
  fresh : ∀ q ∈ s.queries, q < s.conn.sends.length
  nodup : s.queries.Nodup
  freed : ∀ resp ∈ s.responses, resp.freed = true → resp.eos = true
  held : s.conn.broken = true ∨ s.Held

theorem inv_of_initial {s : Driver} (initial : Initial s) : s.Inv := by
  obtain ⟨conn, responses, inserts⟩ := initial
  have none : s.queries = [] := by simp [queries, responses, inserts]
  refine ⟨by simp [conn], by simp [none], by simp [none], by simp [responses],
    .inr ⟨?_, ?_, ?_⟩⟩
  · rintro q q' (⟨resp, mem, -⟩ | ⟨h, mem, -⟩)
    · simp [responses] at mem
    · simp [inserts] at mem
  · simp [conn]
  · simp [conn]

/-- A step that only reads, and loses what it was reading for only with its answer. -/
theorem Inv.reads {s t : Driver} (inv : s.Inv) (reads : Reads s.conn t.conn)
    (queries : t.queries = s.queries)
    (freed : ∀ resp ∈ t.responses, resp.freed = true → resp.eos = true)
    (opens : ∀ q, t.Open q → s.Open q)
    (ends : (∀ q, s.Open q → t.Open q) ∨ Ended s.conn t.conn) : t.Inv := by
  refine ⟨?_, ?_, ?_, freed, ?_⟩
  · rw [reads.sends]
    exact inv.sent
  · rw [queries, reads.sends]
    exact inv.fresh
  · rw [queries]
    exact inv.nodup
  · rcases inv.held with broken | held
    · exact .inl (reads.broken broken)
    · have one_open : ∀ q q', t.Open q → t.Open q' → q = q' := fun q q' h h' =>
        held.one_open q q' (opens q h) (opens q' h')
      have single := reads.awaiting.length_le.trans held.single
      rcases ends with kept | broken | rest
      · refine .inr ⟨one_open, ?_, single⟩
        intro q mem
        exact kept q (held.awaited q (reads.awaiting.subset mem))
      · exact .inl broken
      · -- the only unread answer was the one just ended
        have none : t.conn.awaiting = [] := by
          apply List.eq_nil_of_length_eq_zero
          have shorter := rest.length_le
          have := held.single
          rw [List.length_tail] at shorter
          omega
        exact .inr ⟨one_open, by simp [none], single⟩

/-- A step that sends a query while every response and insert has ended. -/
theorem Inv.sends {s t : Driver} (inv : s.Inv)
    (condition : s.conn.broken = true ∨ s.Settled)
    (sends : t.conn.sends = s.conn.sends ++ [⟨s.conn.broken, s.conn.awaiting⟩])
    (marks : s.conn.broken = true → t.conn.broken = true)
    (queries : t.queries = s.queries ∨ t.queries.Perm (s.conn.sends.length :: s.queries))
    (freed : ∀ resp ∈ t.responses, resp.freed = true → resp.eos = true)
    (opens : ∀ q, t.Open q → s.Open q ∨ q = s.conn.sends.length)
    (reads : t.conn.broken = true ∨
      t.conn.awaiting <:+ s.conn.awaiting ++ [s.conn.sends.length])
    (ends : t.Open s.conn.sends.length ∨ t.conn.broken = true ∨
      t.conn.awaiting <:+ (s.conn.awaiting ++ [s.conn.sends.length]).tail) : t.Inv := by
  have settled : s.conn.broken = false → s.conn.awaiting = [] ∧ ∀ q, ¬ s.Open q := by
    intro whole
    have settled : s.Settled := by simpa [whole] using condition
    have held : s.Held := by simpa [whole] using inv.held
    refine ⟨List.eq_nil_iff_forall_not_mem.mpr fun q mem => ?_, settled.not_open⟩
    exact settled.not_open q (held.awaited q mem)
  have length : t.conn.sends.length = s.conn.sends.length + 1 := by simp [sends]
  refine ⟨?_, ?_, ?_, freed, ?_⟩
  · intro sent mem whole
    rw [sends, List.mem_append, List.mem_singleton] at mem
    rcases mem with mem | rfl
    · exact inv.sent sent mem whole
    · exact (settled whole).1
  · intro q mem
    rw [length]
    rcases queries with same | more
    · have := inv.fresh q (same ▸ mem)
      omega
    · rcases List.mem_cons.mp (more.mem_iff.mp mem) with rfl | mem
      · omega
      · have := inv.fresh q mem
        omega
  · rcases queries with same | more
    · exact same ▸ inv.nodup
    · refine more.nodup_iff.mpr (List.nodup_cons.mpr ⟨fun mem => ?_, inv.nodup⟩)
      have := inv.fresh _ mem
      omega
  · cases broken : s.conn.broken with
    | true => exact .inl (marks broken)
    | false =>
      obtain ⟨none, closed⟩ := settled broken
      have only : ∀ q, t.Open q → q = s.conn.sends.length := fun q h =>
        (opens q h).resolve_left (closed q)
      rw [none, List.nil_append] at reads ends
      rcases reads with given_up | reads
      · exact .inl given_up
      · have one_open : ∀ q q', t.Open q → t.Open q' → q = q' := fun q q' h h' =>
          (only q h).trans (only q' h').symm
        rcases ends with holder | given_up | rest
        · refine .inr ⟨one_open, ?_, reads.length_le⟩
          intro q mem
          rw [List.mem_singleton.mp (reads.subset mem)]
          exact holder
        · exact .inl given_up
        · have gone : t.conn.awaiting = [] := List.suffix_nil.mp rest
          exact .inr ⟨one_open, by simp [gone], by simp [gone]⟩

/-! ## The steps -/

theorem map_set {α : Type} {f : α → Nat} {l : List α} {i : Nat} {a b : α}
    (found : l[i]? = some a) (same : f b = f a) : (l.set i b).map f = l.map f := by
  apply List.ext_getElem?
  intro k
  rw [List.getElem?_map, List.getElem?_map, List.getElem?_set]
  split
  · next eq =>
    subst eq
    obtain ⟨bound, value⟩ := List.getElem?_eq_some_iff.mp found
    simp [bound, value, same]
  · rfl

theorem mem_set_of_mem {α : Type} {l : List α} {i : Nat} {a b x : α} (mem : x ∈ l)
    (found : l[i]? = some a) : x = a ∨ x ∈ l.set i b := by
  obtain ⟨k, hk⟩ := List.mem_iff_getElem?.mp mem
  by_cases eq : i = k
  · subst eq
    rw [found] at hk
    exact .inl (Option.some.inj hk).symm
  · refine .inr (List.mem_iff_getElem?.mpr ⟨k, ?_⟩)
    rw [List.getElem?_set_ne eq, hk]

/-- The functions of `select.c` on one response. -/
theorem Inv.pumped {s : Driver} {i : Nat} {resp left : ch_binary_response}
    {wire : List Recv} {after : ch_binary_connection} (inv : s.Inv)
    (found : s.responses[i]? = some resp) (pumped : Pumped s.conn resp after left) :
    Inv { s with wire := wire, conn := after, responses := s.responses.set i left } := by
  have mem : resp ∈ s.responses := List.mem_of_getElem? found
  refine inv.reads pumped.reads ?_ ?_ ?_ ?_
  · simp only [queries, map_set found pumped.query]
  · intro other there freed
    rcases List.mem_or_eq_of_mem_set there with there | rfl
    · exact inv.freed other there freed
    · rcases pumped.freed freed with h | h
      · exact pumped.closed (inv.freed resp mem h)
      · exact h
  · rintro q (⟨other, there, query, eos⟩ | insert)
    · rcases List.mem_or_eq_of_mem_set there with there | rfl
      · exact .inl ⟨other, there, query, eos⟩
      · refine .inl ⟨resp, mem, pumped.query ▸ query, ?_⟩
        cases open_ : resp.eos with
        | true => simp [pumped.closed open_] at eos
        | false => rfl
    · exact .inr insert
  · cases was : resp.eos with
    | false =>
      cases is : left.eos with
      | true => exact .inr (pumped.ended was is)
      | false =>
        refine .inl ?_
        rintro q (⟨other, there, query, eos⟩ | insert)
        · rcases mem_set_of_mem there found with rfl | there
          · have bound := (List.getElem?_eq_some_iff.mp found).1
            exact .inl ⟨left, List.mem_set bound left, pumped.query.trans query, is⟩
          · exact .inl ⟨other, there, query, eos⟩
        · exact .inr insert
    | true =>
      refine .inl ?_
      rintro q (⟨other, there, query, eos⟩ | insert)
      · rcases mem_set_of_mem there found with rfl | there
        · simp [was] at eos
        · exact .inl ⟨other, there, query, eos⟩
      · exact .inr insert

/-- The functions of `insert.c` that end one insert. -/
theorem Inv.settle {s : Driver} {j : Nat} {h left : ch_binary_insert_handle}
    {wire : List Recv} {after : ch_binary_connection} (inv : s.Inv)
    (found : s.inserts[j]? = some h) (reads : Reads s.conn after)
    (query : left.query = h.query) (closed : left.finalized = true ∨ left.released = true)
    (ended : h.finalized = false → Ended s.conn after) :
    Inv { s with wire := wire, conn := after, inserts := s.inserts.set j left } := by
  refine inv.reads reads ?_ inv.freed ?_ ?_
  · simp only [queries, map_set found query]
  · rintro q (response | ⟨other, there, query, finalized, released⟩)
    · exact .inl response
    · rcases List.mem_or_eq_of_mem_set there with there | rfl
      · exact .inr ⟨other, there, query, finalized, released⟩
      · simp [finalized, released] at closed
  · cases was : h.finalized with
    | false => exact .inr (ended was)
    | true =>
      refine .inl ?_
      rintro q (response | ⟨other, there, query, finalized, released⟩)
      · exact .inl response
      · rcases mem_set_of_mem there found with rfl | there
        · simp [was] at finalized
        · exact .inr ⟨other, there, query, finalized, released⟩

theorem Inv.simple_query {s : Driver} {sent : Bool} {err : Bytes} {wire : List Recv}
    {conn : ch_binary_connection} {resp : ch_binary_response} (inv : s.Inv)
    (condition : s.conn.broken = true ∨ s.Settled)
    (opened : ch_binary_simple_query s.wire s.conn sent err = (wire, conn, resp)) :
    Inv { s with wire := wire, conn := conn, responses := s.responses ++ [resp] } := by
  -- the response is opened and then pumped on the connection that sent its query
  have spec : ∃ asked : ch_binary_connection,
      (asked = if sent then ch_binary_connection.send_query
            { s.conn with check_cancel_fn := true }
          else ch_binary_connection.send_failed { s.conn with check_cancel_fn := true }) ∧
        Reads asked conn ∧ resp.query = s.conn.sends.length ∧
        (resp.eos = true → Ended asked conn) ∧ (resp.freed = true → resp.eos = true) := by
    refine ⟨_, rfl, ?_⟩
    cases sent with
    | true =>
      have pumped := pump_spec s.wire
        (ch_binary_connection.send_query { s.conn with check_cancel_fn := true })
        ⟨s.conn.sends.length, false, none, none, false⟩
      simp only [ch_binary_simple_query, if_true] at opened
      rw [opened] at pumped
      exact ⟨pumped.reads, pumped.query, pumped.ended rfl, fun h => by
        simpa using pumped.freed h⟩
    | false =>
      simp only [ch_binary_simple_query, Bool.false_eq_true, if_false, Prod.mk.injEq]
        at opened
      obtain ⟨-, rfl, rfl⟩ := opened
      exact ⟨Reads.refl _, by simp [resp_broken], fun _ => .inl rfl, fun _ => rfl⟩
  obtain ⟨asked, rfl, reads, query, ended, freed⟩ := spec
  refine inv.sends condition ?_ ?_ (.inr ?_) ?_ ?_ ?_ ?_
  · rw [reads.sends]
    cases sent <;> rfl
  · intro broken
    apply reads.broken
    cases sent
    · rfl
    · exact broken
  · simp only [queries, List.map_append, List.map_cons, List.map_nil, query,
      List.append_assoc, List.singleton_append]
    exact List.perm_middle
  · intro other mem
    rcases List.mem_append.mp mem with mem | mem
    · exact inv.freed other mem
    · exact List.mem_singleton.mp mem ▸ freed
  · rintro q (⟨other, mem, holds, eos⟩ | insert)
    · rcases List.mem_append.mp mem with mem | mem
      · exact .inl (.inl ⟨other, mem, holds, eos⟩)
      · rw [List.mem_singleton.mp mem] at holds
        exact .inr (holds.symm.trans query)
    · exact .inl (.inr insert)
  · cases sent with
    | true => exact .inr reads.awaiting
    | false => exact .inl (reads.broken rfl)
  · cases eos : resp.eos with
    | false => exact .inl (.inl ⟨resp, by simp, query, eos⟩)
    | true =>
      cases sent with
      | true => exact .inr (ended eos)
      | false => exact .inr (.inl (reads.broken rfl))

theorem Inv.begin_insert {s : Driver} {sent data_sent : Bool} {err : Bytes}
    {writer : chc_block → Option Bytes} {wire : List Recv} {conn : ch_binary_connection}
    {made : Except Raised ch_binary_insert_handle} {inserts : List ch_binary_insert_handle}
    (inv : s.Inv) (condition : s.conn.broken = true ∨ s.Settled)
    (begun : ch_binary_begin_insert s.wire s.conn sent err writer data_sent =
      (wire, conn, made))
    (kept : inserts = s.inserts ++ made.toOption.toList) :
    Inv { s with wire := wire, conn := conn, inserts := inserts } := by
  obtain ⟨reads, outcome⟩ := begin_insert_spec begun
  subst kept
  have opens : ∀ h ∈ made.toOption.toList, h.query = s.conn.sends.length := by
    intro h mem
    rcases outcome with ⟨⟨msg, rfl⟩, -⟩ | rfl
    · simp [Except.toOption] at mem
    · simp only [Except.toOption, Option.toList_some, List.mem_singleton] at mem
      rw [mem]
  refine inv.sends condition ?_ ?_ ?_ inv.freed ?_ ?_ ?_
  · rw [reads.sends]
    cases sent <;> rfl
  · intro broken
    apply reads.broken
    cases sent
    · rfl
    · exact broken
  · rcases outcome with ⟨⟨msg, rfl⟩, -⟩ | rfl
    · exact .inl (by simp [queries, Except.toOption])
    · refine .inr ?_
      simp only [queries, Except.toOption, Option.toList_some, List.map_append,
        List.map_cons, List.map_nil, ← List.append_assoc]
      exact List.perm_append_singleton _ _
  · rintro q (response | ⟨other, mem, holds, finalized, released⟩)
    · exact .inl (.inl response)
    · rcases List.mem_append.mp mem with mem | mem
      · exact .inl (.inr ⟨other, mem, holds, finalized, released⟩)
      · exact .inr (holds.symm.trans (opens other mem))
  · cases sent with
    | true => exact .inr reads.awaiting
    | false => exact .inl (reads.broken rfl)
  · rcases outcome with ⟨-, ended⟩ | rfl
    · cases sent with
      | true => exact .inr ended
      | false => exact .inr (.inl (reads.broken rfl))
    · exact .inl (.inr ⟨_, List.mem_append_right _ (List.mem_singleton.mpr rfl), rfl, rfl, rfl⟩)

theorem Inv.finalize {s : Driver} {j : Nat} {h : ch_binary_insert_handle} {sent : Bool}
    {err : Bytes} (inv : s.Inv) (found : s.inserts[j]? = some h) :
    (s.finalize j h sent err).Inv := by
  have spec := finalize_insert_spec s.wire s.conn h sent err
  unfold Driver.finalize
  rcases finalized : ch_binary_finalize_insert s.wire s.conn h sent err with
    ⟨wire, after, left, outcome⟩
  rw [finalized] at spec
  obtain ⟨reads, left_eq, ended⟩ := spec
  simp only at left_eq
  subst left_eq
  exact inv.settle found reads rfl (.inl rfl) ended

theorem Inv.release {s : Driver} {j : Nat} {h : ch_binary_insert_handle} (inv : s.Inv)
    (found : s.inserts[j]? = some h) : (s.release j h).Inv := by
  unfold Driver.release ch_binary_release_insert
  cases finalized : h.finalized with
  | true => exact inv.settle found (Reads.refl _) rfl (.inr rfl) (fun h => by simp_all)
  | false =>
    exact inv.settle found (reads_mark_broken _) rfl (.inr rfl)
      fun _ => ended_mark_broken _ _

end Driver

/-! ## Runs -/

/-- The calls that send a query. -/
def Event.sends : Event → Bool
  | .simple_query .. | .begin_insert .. => true
  | _ => false

namespace Driver

/-- A query is sent on a connection marked broken, or after every earlier response has
ended and every earlier insert is finalized or released. -/
def Admits (s : Driver) (e : Event) : Prop :=
  e.sends = true → s.conn.broken = true ∨ s.Settled

theorem Inv.step {s t : Driver} {e : Event} (inv : s.Inv) (admits : s.Admits e)
    (step : Step s e t) : t.Inv := by
  cases step with
  | simple_query opened => exact inv.simple_query (admits rfl) opened
  | fetch_next_block found => exact inv.pumped found (fetch_next_block_spec _ _ _)
  | response_free found => exact inv.pumped found (response_free_spec _ _ _ _ _)
  | begin_insert begun => exact inv.begin_insert (admits rfl) begun rfl
  | begin_insert_raised begun =>
    exact inv.begin_insert (admits rfl) begun (List.append_nil _).symm
  | flush_block found =>
    exact inv.reads (flush_block_spec _ _ _ _) rfl inv.freed (fun _ => id)
      (.inl fun _ => id)
  | finalize_insert found => exact inv.finalize found
  | release_insert found => exact inv.release found

/-- What a run must not leave behind. -/
structure Clean (s : Driver) : Prop where
  sent : ∀ sent ∈ s.conn.sends, sent.broken = false → sent.unread = []
  responses : ∀ resp ∈ s.responses, resp.eos = true ∨ resp.freed = true →
    s.conn.broken = true ∨ resp.query ∉ s.conn.awaiting
  inserts : ∀ h ∈ s.inserts, h.finalized = true ∨ h.released = true →
    s.conn.broken = true ∨ h.query ∉ s.conn.awaiting
  others : ∀ q ∈ s.conn.awaiting, q ∉ s.queries → s.conn.broken = true

theorem Inv.clean {s : Driver} (inv : s.Inv) : s.Clean := by
  have reader : s.conn.broken = false → ∀ q ∈ s.conn.awaiting, s.Open q := fun whole =>
    (show s.Held by simpa [whole] using inv.held).awaited
  obtain ⟨responses, inserts, apart⟩ := List.nodup_append.mp inv.nodup
  refine ⟨inv.sent, ?_, ?_, ?_⟩
  · intro resp mem stopped
    have eos : resp.eos = true := stopped.elim id (inv.freed resp mem)
    cases whole : s.conn.broken with
    | true => exact .inl rfl
    | false =>
      refine .inr fun waits => ?_
      rcases reader whole _ waits with ⟨other, there, query, open_⟩ | ⟨h, there, query, -⟩
      · have same := List.inj_on_of_nodup_map responses there mem query
        simp [same, eos] at open_
      · exact apart _ (List.mem_map_of_mem mem) _ (List.mem_map_of_mem there) query.symm
  · intro h mem stopped
    cases whole : s.conn.broken with
    | true => exact .inl rfl
    | false =>
      refine .inr fun waits => ?_
      rcases reader whole _ waits with ⟨resp, there, query, -⟩ |
        ⟨other, there, query, finalized, released⟩
      · exact apart _ (List.mem_map_of_mem there) _ (List.mem_map_of_mem mem) query
      · have same := List.inj_on_of_nodup_map inserts there mem query
        simp [← same, finalized, released] at stopped
  · intro q waits alone
    cases whole : s.conn.broken with
    | true => rfl
    | false =>
      refine absurd ?_ alone
      rcases reader whole q waits with ⟨other, there, rfl, -⟩ | ⟨h, there, rfl, -⟩
      · exact List.mem_append_left _ (List.mem_map_of_mem there)
      · exact List.mem_append_right _ (List.mem_map_of_mem there)

/-- Runs that send queries only as `Admits` says. -/
theorem clean_of_admitted {s : Driver}
    (run : Runs.Reachable Initial (fun s e t => Step s e t ∧ s.Admits e) s) : s.Clean := by
  have inv : s.Inv := run.invariant inv_of_initial
    fun _ inv step => inv.step step.2 step.1
  exact inv.clean

/-- A response freed in the middle is drained, and the next query finds nothing unread. -/
theorem clean_of_admitted_drained :
    Driver.Clean
      ⟨[.packet .END_OF_STREAM false], ⟨false, true, [1], [⟨false, []⟩, ⟨false, []⟩]⟩,
        [⟨0, true, none, some ⟨[none]⟩, true⟩, ⟨1, false, none, some ⟨[none]⟩, false⟩], []⟩ := by
  have started : Runs.Reachable Initial (fun s e t => Step s e t ∧ s.Admits e)
      ⟨[.packet (.DATA (some ⟨[none]⟩)) false, .packet .END_OF_STREAM false,
          .packet (.DATA (some ⟨[none]⟩)) false, .packet .END_OF_STREAM false],
        ⟨false, false, [], []⟩, [], []⟩ := .start ⟨rfl, rfl, rfl⟩
  have opened : Runs.Reachable Initial (fun s e t => Step s e t ∧ s.Admits e)
      ⟨[.packet .END_OF_STREAM false, .packet (.DATA (some ⟨[none]⟩)) false,
          .packet .END_OF_STREAM false],
        ⟨false, true, [0], [⟨false, []⟩]⟩, [⟨0, false, none, some ⟨[none]⟩, false⟩], []⟩ :=
    started.next (e := .simple_query true [])
      ⟨.simple_query rfl, fun _ => .inr (by simp [Settled])⟩
  have freed : Runs.Reachable Initial (fun s e t => Step s e t ∧ s.Admits e)
      (Driver.free ⟨[.packet .END_OF_STREAM false, .packet (.DATA (some ⟨[none]⟩)) false,
          .packet .END_OF_STREAM false],
        ⟨false, true, [0], [⟨false, []⟩]⟩, [⟨0, false, none, some ⟨[none]⟩, false⟩], []⟩
        0 ⟨0, false, none, some ⟨[none]⟩, false⟩ true false) :=
    opened.next (e := .response_free 0 true false)
      ⟨.response_free rfl rfl, fun sends => by simp [Event.sends] at sends⟩
  exact clean_of_admitted (freed.next (e := .simple_query true [])
    ⟨.simple_query rfl, fun _ => .inr ⟨by simp [Driver.free, ch_binary_response_free,
      drain_until_eos], by simp [Driver.free]⟩⟩)

/-- A response left in the middle: the next query is sent with its answer unread. -/
theorem unread_answer : ¬ ∀ s, Runs.Reachable Initial Step s → s.Clean := by
  intro clean
  have started : Runs.Reachable Initial Step
      ⟨[.packet (.DATA (some ⟨[none]⟩)) false, .packet (.DATA (some ⟨[none]⟩)) false],
        ⟨false, false, [], []⟩, [], []⟩ := .start ⟨rfl, rfl, rfl⟩
  have opened : Runs.Reachable Initial Step
      ⟨[.packet (.DATA (some ⟨[none]⟩)) false],
        ⟨false, true, [0], [⟨false, []⟩]⟩, [⟨0, false, none, some ⟨[none]⟩, false⟩], []⟩ :=
    started.next (e := .simple_query true []) (.simple_query rfl)
  have again : Runs.Reachable Initial Step
      ⟨[], ⟨false, true, [0, 1], [⟨false, []⟩, ⟨false, [0]⟩]⟩,
        [⟨0, false, none, some ⟨[none]⟩, false⟩, ⟨1, false, none, some ⟨[none]⟩, false⟩], []⟩ :=
    opened.next (e := .simple_query true []) (.simple_query rfl)
  have unread := (clean _ again).sent ⟨false, [0]⟩ (by simp) rfl
  simp at unread

end Driver

end PgClickhouse.Binary

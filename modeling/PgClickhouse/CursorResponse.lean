import PgClickhouse.Raising
import PgClickhouse.Runs

/-!
# The response of a cursor

A driver hands its response to `chfdw_cursor_open`, and the reset callback of the cursor's
memory context releases it.  Until that callback is registered an error leaves the response
to the handler, and a canceled transfer is ended before the server is asked to kill its
query.

What is not decided by this code is chosen for each call: how often the decoder uses the
response, whether the call raises, and what it reports.  `reads` says for which driver
`pgch_reader_free` looks at the response: a reader of blocks does, and a reader of chunks has
nothing of a chunk after the following one.

* `response_released_once`: in every run the response is released at most once, last of all,
  and it is released when the cursor is gone.
-/

namespace PgClickhouse.Cursor

open Raising

/-! ## The cursor -/

/-- What is done to the response. -/
inductive Touch
  | use
  | release
  deriving Repr, DecidableEq

inductive Driver
  | http
  | binary
  deriving Repr, DecidableEq

/-- `cxt` and `callback` say whether the cursor's context exists and `cursor_free` is
registered on it, and `response` whether `cursor->response` is set. -/
structure State where
  cxt : Bool
  callback : Bool
  response : Bool
  owns_response : Bool
  log : List Touch
  deriving Repr, DecidableEq

abbrev Program := EStateM Unit State

def touch (touched : Touch) : Program Unit :=
  modify fun s => { s with log := s.log ++ [touched] }

def use (times : Nat) : Program Unit :=
  modify fun s => { s with log := s.log ++ List.replicate times .use }

def when (condition : Bool) (program : Program Unit) : Program Unit :=
  if condition then program else pure ()

/-- A call into other code, which uses the response and may raise. -/
structure Call where
  uses : Nat
  raises : Bool
  deriving Repr, DecidableEq

def call (made : Call) : Program Unit := do
  use made.uses
  when made.raises (throw ())

/-- An allocation or a check, which raises where it fails. -/
def require (passes : Bool) : Program Unit :=
  when (!passes) (throw ())

/-- The drain raises inside the block, and the handler marks the connection. -/
def ch_binary_response_free (draining : Call) : Program Unit := do
  tryCatch (call draining) fun _ => use 1
  use 1
  touch .release

/-- Both drivers accept a null pointer. -/
def free_response (driver : Driver) (response : Bool) (draining : Call) : Program Unit :=
  when response <|
    match driver with
    | .http => touch .release
    | .binary => ch_binary_response_free draining

section

variable (reads : Driver → Bool) (driver : Driver)

/-- The reader is released before the response its blocks came from. -/
def cursor_free (draining : Call) : Program Unit := do
  when (reads driver) (use 1)
  let s ← get
  free_response driver s.response draining
  modify fun s => { s with response := false }

/-- The context of the cursor goes, after the callback. -/
def MemoryContextDelete (draining : Call) : Program Unit := do
  let s ← get
  when s.callback do
    modify fun s => { s with callback := false }
    cursor_free reads driver draining
  modify fun s => { s with cxt := false }

/-- How an error of the reader is reported: whether the transfer was canceled, and else what
looking for an exception in the rest of the body comes to. -/
structure Report where
  canceled : Bool
  exception : Call
  deriving Repr, DecidableEq

/-- The error of a canceled transfer is raised by `kill_query`, the interrupt or after both. -/
def http_native_read_error (report : Report) : Program Unit := do
  let s ← get
  when s.response do
    use 1
    when report.canceled do
      use 1
      touch .release
      modify fun s => { s with response := false }
      throw ()
    call report.exception

/-- The binary driver leaves the hook unset. -/
def raise_response_error (report : Report) : Program Unit :=
  match driver with
  | .http => http_native_read_error report
  | .binary => pure ()

def raise_reader_error (report : Report) : Program Unit := do
  raise_response_error driver report
  throw ()

/-- `reader.error` after a call of the decoder. -/
def check_reader (error : Option Report) : Program Unit :=
  match error with
  | none => pure ()
  | some report => raise_reader_error driver report

/-- How opening a cursor goes: the allocations, the decoder up to the header, the columns. -/
structure Opening where
  context : Bool
  cursor : Bool
  query : Bool
  init_reader : Call
  error : Option Report
  columns : Bool
  draining : Call
  deriving Repr, DecidableEq

/-- The block of `chfdw_cursor_open`. -/
def take_response (opening : Opening) : Program Unit := do
  require opening.context
  modify fun s => { s with cxt := true }
  require opening.cursor
  require opening.query
  modify fun s => { s with callback := true }
  modify fun s => { s with response := true, owns_response := true }
  call opening.init_reader
  check_reader driver opening.error
  require opening.columns

/-- The handler of `chfdw_cursor_open`. -/
def give_up (opening : Opening) : Program Unit := do
  let s ← get
  when (!s.owns_response) (free_response driver true opening.draining)
  let s ← get
  when s.cxt (MemoryContextDelete reads driver opening.draining)
  throw ()

def chfdw_cursor_open (opening : Opening) : Program Unit :=
  tryCatch (take_response driver opening) fun _ => give_up reads driver opening

/-- How fetching a row goes: the decoder, and the conversion of the row. -/
structure Fetching where
  next : Call
  error : Option Report
  apply_row : Bool
  deriving Repr, DecidableEq

def chfdw_cursor_fetch_row (fetching : Fetching) : Program Unit := do
  call fetching.next
  check_reader driver fetching.error
  require fetching.apply_row

end

/-! ## Runs -/

/-- A cursor that raised is only deleted. -/
inductive Phase
  | handed
  | opened
  | raised
  | gone
  deriving Repr, DecidableEq

inductive Event
  | chfdw_cursor_open (opening : Opening)
  | chfdw_cursor_fetch_row (fetching : Fetching)
  | MemoryContextDelete (draining : Call)
  deriving Repr, DecidableEq

/-- The state that a program leaves, with the phase it reaches. -/
def arrive (returned thrown : Phase) (program : Program Unit) (s : State) : Phase × State :=
  match program s with
  | .ok _ s => (returned, s)
  | .error _ s => (thrown, s)

def next (reads : Driver → Bool) (driver : Driver) : Phase × State → Event → Option (Phase × State)
  | (.handed, s), .chfdw_cursor_open opening =>
      some (arrive .opened .gone (chfdw_cursor_open reads driver opening) s)
  | (.opened, s), .chfdw_cursor_fetch_row fetching =>
      some (arrive .opened .raised (chfdw_cursor_fetch_row driver fetching) s)
  | (.opened, s), .MemoryContextDelete draining
  | (.raised, s), .MemoryContextDelete draining =>
      some (arrive .gone .gone (MemoryContextDelete reads driver draining) s)
  | _, _ => none

def init (run : Phase × State) : Prop := run = (.handed, ⟨false, false, false, false, []⟩)

def step (reads : Driver → Bool) (driver : Driver) (before : Phase × State) (event : Event)
    (after : Phase × State) : Prop :=
  next reads driver before event = some after

/-! ## What holds in between -/

/-- The response was used and not released. -/
def Used (s : State) : Prop := ∃ n, s.log = List.replicate n .use

/-- The response was released, after its last use. -/
def Released (s : State) : Prop := ∃ n, s.log = List.replicate n .use ++ [.release]

theorem Used.more {s s' : State} {n : Nat} (used : Used s)
    (log : s'.log = s.log ++ List.replicate n .use) : Used s' := by
  obtain ⟨m, before⟩ := used
  exact ⟨m + n, by rw [log, before, List.replicate_append_replicate]⟩

theorem Used.release {s s' : State} (used : Used s) (log : s'.log = s.log ++ [.release]) :
    Released s' := by
  obtain ⟨n, before⟩ := used
  exact ⟨n, by rw [log, before]⟩

/-- The cursor has the response: its context exists, with the callback. -/
structure Held (s : State) : Prop where
  cxt : s.cxt = true
  callback : s.callback = true
  response : s.response = true
  owns_response : s.owns_response = true
  used : Used s

/-- The error path has released the response and cleared the pointer. -/
structure Cleared (s : State) : Prop where
  cxt : s.cxt = true
  callback : s.callback = true
  response : s.response = false
  owns_response : s.owns_response = true
  released : Released s

/-- Only a response that comes over HTTP is released early. -/
def Raised (driver : Driver) (s : State) : Prop := Held s ∨ driver = .http ∧ Cleared s

/-- The handler has the response. -/
structure Unowned (s : State) : Prop where
  callback : s.callback = false
  owns_response : s.owns_response = false
  used : Used s

/-! ## Each part -/

variable {reads : Driver → Bool} {driver : Driver}

theorem when_spec {P Q R : State → Prop} {condition : Bool} {program : Program Unit}
    (yes : condition = true → Triple P program (fun _ => Q) R)
    (no : condition = false → ∀ s, P s → Q s) :
    Triple P (when condition program) (fun _ => Q) R :=
  Triple.ite yes fun fails => Triple.pure (no (eq_false_of_ne_true fails))

/-- What is read is the state it is read in. -/
theorem get_spec {P R : State → Prop} :
    Triple P (get : Program State) (fun a s => a = s ∧ P s) R :=
  Triple.get fun _ holds => ⟨rfl, holds⟩

section

variable {P R : State → Prop}
  (more : ∀ s n, P s → P { s with log := s.log ++ List.replicate n .use })

include more

theorem use_spec (times : Nat) : Triple P (use times) (fun _ => P) R :=
  Triple.modify fun s holds => more s times holds

theorem call_spec (raised : ∀ s, P s → R s) (made : Call) :
    Triple P (call made) (fun _ => P) R :=
  (use_spec more made.uses).bind fun _ =>
    when_spec (fun _ => Triple.throw raised) fun _ _ holds => holds

end

theorem require_spec {P R : State → Prop} (passes : Bool) (raised : ∀ s, P s → R s) :
    Triple P (require passes) (fun _ => P) R :=
  when_spec (fun _ => Triple.throw raised) fun _ _ holds => holds

theorem Held.more (s : State) (n : Nat) (held : Held s) :
    Held { s with log := s.log ++ List.replicate n .use } :=
  ⟨held.cxt, held.callback, held.response, held.owns_response, held.used.more rfl⟩

/-- A response that the callback of a context does not have any more. -/
structure Given (s : State) : Prop where
  callback : s.callback = false
  used : Used s

/-- The response is released and no callback has it. -/
structure Freed (s : State) : Prop where
  callback : s.callback = false
  released : Released s

theorem Given.more (s : State) (n : Nat) (given : Given s) :
    Given { s with log := s.log ++ List.replicate n .use } :=
  ⟨given.callback, given.used.more rfl⟩

/-- A release does not raise and comes last. -/
theorem free_response_spec {R : State → Prop} (draining : Call) :
    Triple Given (free_response driver true draining) (fun _ => Freed) R := by
  refine when_spec (fun _ => ?_) fun absent => by cases absent
  cases driver with
  | http => exact Triple.modify fun s given => ⟨given.callback, given.used.release rfl⟩
  | binary =>
      have drained : Triple Given (tryCatch (call draining) fun _ => use 1) (fun _ => Given) R :=
        Triple.tryCatch (call_spec Given.more (fun _ given => given) draining)
          fun _ => use_spec Given.more 1
      refine drained.bind fun _ => (use_spec Given.more 1).bind fun _ => ?_
      exact Triple.modify fun s given => ⟨given.callback, given.used.release rfl⟩

/-- The response before `cursor_free`: still there, or released by the error path. -/
def Pending (driver : Driver) (s : State) : Prop :=
  s.response = true ∧ Given s ∨ driver = .http ∧ s.response = false ∧ Freed s

/-- `cursor_free` does not raise, and the response is released behind it. -/
theorem cursor_free_spec {R : State → Prop} (chunks : reads .http = false) (draining : Call) :
    Triple (Pending driver) (cursor_free reads driver draining) (fun _ => Freed) R := by
  have reader : Triple (Pending driver) (when (reads driver) (use 1))
      (fun _ => Pending driver) R := by
    refine when_spec (fun looks => Triple.modify fun s pending => ?_) fun _ _ pending => pending
    rcases pending with ⟨present, given⟩ | ⟨rfl, -⟩
    · exact .inl ⟨present, given.more s 1⟩
    · rw [chunks] at looks
      cases looks
  refine reader.bind fun _ => get_spec.bind fun a => ?_
  have freed : Triple (fun s => a = s ∧ Pending driver s)
      (free_response driver a.response draining) (fun _ => Freed) R := by
    cases present : a.response with
    | true =>
        refine (free_response_spec draining).imp ?_ (fun _ _ freed => freed) fun _ h => h
        intro s holds
        obtain ⟨rfl, ⟨-, given⟩ | ⟨-, absent, -⟩⟩ := holds
        · exact given
        · rw [present] at absent
          cases absent
    | false =>
        refine when_spec (fun absurd => by cases absurd) fun _ s holds => ?_
        obtain ⟨rfl, ⟨absent, -⟩ | ⟨-, -, freed⟩⟩ := holds
        · rw [present] at absent
          cases absent
        · exact freed
  exact freed.bind fun _ => Triple.modify fun s freed => ⟨freed.callback, freed.released⟩

/-- A context goes with the response, if it has it. -/
theorem MemoryContextDelete_spec {R : State → Prop} (chunks : reads .http = false)
    (draining : Call) :
    Triple (fun s => Freed s ∨ Raised driver s) (MemoryContextDelete reads driver draining)
      (fun _ => Released) R := by
  refine get_spec.bind fun a => ?_
  have deleted : Triple (fun s => a = s ∧ (Freed s ∨ Raised driver s))
      (when a.callback do
        modify fun s => { s with callback := false }
        cursor_free reads driver draining) (fun _ => Freed) R := by
    refine when_spec (fun registered => ?_) fun missing s holds => ?_
    · refine Triple.bind (M := fun _ => Pending driver) (Triple.modify fun s holds => ?_)
        fun _ => cursor_free_spec chunks draining
      obtain ⟨rfl, freed | held | ⟨http, cleared⟩⟩ := holds
      · rw [freed.callback] at registered
        cases registered
      · exact .inl ⟨held.response, rfl, held.used⟩
      · exact .inr ⟨http, cleared.response, rfl, cleared.released⟩
    · obtain ⟨rfl, freed | held | ⟨-, cleared⟩⟩ := holds
      · exact freed
      · rw [held.callback] at missing
        cases missing
      · rw [cleared.callback] at missing
        cases missing
  exact deleted.bind fun _ => Triple.modify fun s freed => freed.released

/-- The pointer is cleared before anything else can raise. -/
theorem http_native_read_error_spec (report : Report) :
    Triple Held (http_native_read_error report) (fun _ => Held) (Raised .http) := by
  refine get_spec.bind fun a => when_spec (fun _ => ?_) fun _ s holds => holds.2
  have start : Triple (fun s => a = s ∧ Held s) (use 1) (fun _ => Held) (Raised .http) :=
    Triple.modify fun s holds => holds.2.more s 1
  have canceled : Triple Held
      (when report.canceled do
        use 1
        touch .release
        modify fun s => { s with response := false }
        throw ()) (fun _ => Held) (Raised .http) := by
    refine when_spec (fun _ => (use_spec Held.more 1).bind fun _ => ?_) fun _ _ held => held
    refine Triple.bind (M := fun _ s =>
      (s.cxt = true ∧ s.callback = true ∧ s.owns_response = true) ∧ Released s)
      (Triple.modify fun s held =>
        ⟨⟨held.cxt, held.callback, held.owns_response⟩, held.used.release rfl⟩) fun _ => ?_
    refine Triple.bind (M := fun _ => Cleared) (Triple.modify fun _ holds => ?_) fun _ => ?_
    · obtain ⟨⟨cxt, callback, owns⟩, released⟩ := holds
      exact ⟨cxt, callback, rfl, owns, released⟩
    · exact Triple.throw fun s cleared => .inr ⟨rfl, cleared⟩
  exact start.bind fun _ => canceled.bind fun _ =>
    call_spec Held.more (fun _ held => .inl held) report.exception

/-- An error is reported while the response is there, or after it was released and the
pointer was cleared. -/
theorem raise_reader_error_spec {Q : Unit → State → Prop} (report : Report) :
    Triple Held (raise_reader_error driver report) Q (Raised driver) := by
  have reported : Triple Held (raise_response_error driver report) (fun _ => Held)
      (Raised driver) := by
    cases driver with
    | http => exact http_native_read_error_spec report
    | binary => exact Triple.pure fun s held => held
  exact reported.bind fun _ => Triple.throw fun s held => .inl held

theorem check_reader_spec (error : Option Report) :
    Triple Held (check_reader driver error) (fun _ => Held) (Raised driver) := by
  cases error with
  | none => exact Triple.pure fun s held => held
  | some report => exact raise_reader_error_spec report

theorem chfdw_cursor_fetch_row_spec (fetching : Fetching) :
    Triple Held (chfdw_cursor_fetch_row driver fetching) (fun _ => Held) (Raised driver) :=
  (call_spec Held.more (fun _ held => .inl held) fetching.next).bind fun _ =>
    (check_reader_spec fetching.error).bind fun _ =>
      require_spec fetching.apply_row fun _ held => .inl held

/-- Where the block raises, the response is the handler's or the cursor's. -/
theorem take_response_spec (opening : Opening) :
    Triple (fun s => Unowned s ∧ s.cxt = false) (take_response driver opening) (fun _ => Held)
      (fun s => Unowned s ∨ Raised driver s) := by
  refine (require_spec opening.context fun s unowned => .inl unowned.1).bind fun _ => ?_
  refine Triple.bind (M := fun _ s => Unowned s ∧ s.cxt = true) (Triple.modify fun s unowned =>
    ⟨⟨unowned.1.callback, unowned.1.owns_response, unowned.1.used⟩, rfl⟩) fun _ => ?_
  refine (require_spec opening.cursor fun s unowned => .inl unowned.1).bind fun _ => ?_
  refine (require_spec opening.query fun s unowned => .inl unowned.1).bind fun _ => ?_
  refine Triple.bind (M := fun _ s => s.cxt = true ∧ s.callback = true ∧ Used s)
    (Triple.modify fun s unowned => ⟨unowned.2, rfl, unowned.1.used⟩) fun _ => ?_
  refine Triple.bind (M := fun _ => Held) (Triple.modify fun _ holds => ?_) fun _ => ?_
  · obtain ⟨cxt, callback, used⟩ := holds
    exact ⟨cxt, callback, rfl, rfl, used⟩
  refine (call_spec Held.more (fun _ held => .inr (.inl held)) opening.init_reader).bind
    fun _ => Triple.bind (M := fun _ => Held) ?_ fun _ => ?_
  · exact (check_reader_spec opening.error).imp (fun _ held => held) (fun _ _ held => held)
      fun _ raised => .inr raised
  · exact require_spec opening.columns fun s held => .inr (.inl held)

/-- The handler releases what the cursor does not have, and the cursor the rest. -/
theorem give_up_spec {Q : Unit → State → Prop} (chunks : reads .http = false)
    (opening : Opening) :
    Triple (fun s => Unowned s ∨ Raised driver s) (give_up reads driver opening) Q Released := by
  refine get_spec.bind fun a => ?_
  have given_back : Triple (fun s => a = s ∧ (Unowned s ∨ Raised driver s))
      (when (!a.owns_response) (free_response driver true opening.draining))
      (fun _ s => Freed s ∨ Raised driver s) Released := by
    refine when_spec (fun unowned => ?_) fun owned s holds => ?_
    · refine (free_response_spec opening.draining).imp ?_ (fun _ _ freed => .inl freed)
        fun _ h => h
      intro s holds
      obtain ⟨rfl, left | held | ⟨-, cleared⟩⟩ := holds
      · exact ⟨left.callback, left.used⟩
      · rw [held.owns_response] at unowned
        cases unowned
      · rw [cleared.owns_response] at unowned
        cases unowned
    · obtain ⟨rfl, left | raised⟩ := holds
      · rw [left.owns_response] at owned
        cases owned
      · exact .inr raised
  refine given_back.bind fun _ => get_spec.bind fun b => ?_
  have deleted : Triple (fun s => b = s ∧ (Freed s ∨ Raised driver s))
      (when b.cxt (MemoryContextDelete reads driver opening.draining)) (fun _ => Released)
      Released := by
    refine when_spec (fun _ => ?_) fun missing s holds => ?_
    · exact (MemoryContextDelete_spec chunks opening.draining).imp (fun _ holds => holds.2)
        (fun _ _ released => released) fun _ released => released
    · obtain ⟨rfl, freed | held | ⟨-, cleared⟩⟩ := holds
      · exact freed.released
      · rw [held.cxt] at missing
        cases missing
      · rw [cleared.cxt] at missing
        cases missing
  exact deleted.bind fun _ => Triple.throw fun s released => released

theorem chfdw_cursor_open_spec (chunks : reads .http = false) (opening : Opening) :
    Triple (fun s => Unowned s ∧ s.cxt = false) (chfdw_cursor_open reads driver opening)
      (fun _ => Held) Released :=
  Triple.tryCatch (take_response_spec opening) fun _ => give_up_spec chunks opening

/-! ## Every run -/

/-- What the log is like in each phase. -/
def Accounted (driver : Driver) : Phase × State → Prop
  | (.handed, s) => Unowned s ∧ s.cxt = false
  | (.opened, s) => Held s
  | (.raised, s) => Raised driver s
  | (.gone, s) => Released s

theorem Accounted.arrive {returned thrown : Phase} {program : Program Unit} {P : State → Prop}
    (triple : Triple P program (fun _ s => Accounted driver (returned, s))
      fun s => Accounted driver (thrown, s)) {s : State} (holds : P s) :
    Accounted driver (arrive returned thrown program s) := by
  have done := triple s holds
  unfold Cursor.arrive
  split at done
  · rename_i equal
    rw [equal]
    exact done
  · rename_i equal
    rw [equal]
    exact done

theorem Accounted.next (chunks : reads .http = false) {before after : Phase × State}
    {event : Event} (accounted : Accounted driver before)
    (taken : step reads driver before event after) : Accounted driver after := by
  obtain ⟨phase, s⟩ := before
  cases event with
  | chfdw_cursor_open opening =>
      cases phase <;> cases taken
      exact Accounted.arrive (chfdw_cursor_open_spec chunks opening) accounted
  | chfdw_cursor_fetch_row fetching =>
      cases phase <;> cases taken
      exact Accounted.arrive (chfdw_cursor_fetch_row_spec fetching) accounted
  | MemoryContextDelete draining =>
      have raised : Raised driver s → Accounted driver
          (Cursor.arrive .gone .gone (MemoryContextDelete reads driver draining) s) :=
        fun raised => Accounted.arrive (MemoryContextDelete_spec chunks draining) (.inr raised)
      cases phase <;> cases taken
      · exact raised (.inl accounted)
      · exact raised accounted

/-- The response is not used behind a release, nor released again. -/
def Ordered (log : List Touch) : Prop :=
  ∀ before after, log = before ++ .release :: after → after = [] ∧ .release ∉ before

theorem ordered_of_used {s : State} (used : Used s) : Ordered s.log ∧ .release ∉ s.log := by
  obtain ⟨n, log⟩ := used
  have absent : Touch.release ∉ s.log := by
    rw [log]
    intro member
    cases List.eq_of_mem_replicate member
  refine ⟨fun before after cut => ?_, absent⟩
  rw [cut] at absent
  simp at absent

theorem ordered_of_released {s : State} (released : Released s) :
    Ordered s.log ∧ .release ∈ s.log := by
  obtain ⟨n, log⟩ := released
  have absent : Touch.release ∉ List.replicate n Touch.use := by
    intro member
    cases List.eq_of_mem_replicate member
  refine ⟨fun before after cut => ?_, by simp [log]⟩
  rw [log] at cut
  have last : after = [] := by
    rcases List.eq_nil_or_concat after with nil | ⟨rest, t, tail⟩
    · exact nil
    · rw [tail, List.concat_eq_append, ← List.cons_append, ← List.append_assoc] at cut
      have front := (List.append_inj' cut rfl).1
      rw [front] at absent
      simp at absent
  refine ⟨last, ?_⟩
  rw [last] at cut
  rw [← (List.append_inj' cut rfl).1]
  exact absent

/-- Over every run, the response is released at most once and not used behind that; an open
cursor has it, and it is released when the cursor is gone. -/
theorem response_released_once (chunks : reads .http = false) {phase : Phase} {s : State}
    (reached : Runs.Reachable init (step reads driver) (phase, s)) :
    Ordered s.log ∧ (phase = .handed ∨ phase = .opened → .release ∉ s.log) ∧
      (phase = .gone → .release ∈ s.log) := by
  have accounted : Accounted driver (phase, s) := by
    refine reached.invariant (I := Accounted driver) ?_ fun _ accounted taken =>
      accounted.next chunks taken
    intro run start
    rw [start]
    exact ⟨⟨rfl, rfl, 0, rfl⟩, rfl⟩
  cases phase with
  | handed =>
      obtain ⟨ordered, absent⟩ := ordered_of_used accounted.1.used
      exact ⟨ordered, fun _ => absent, fun other => by cases other⟩
  | opened =>
      have held : Held s := accounted
      obtain ⟨ordered, absent⟩ := ordered_of_used held.used
      exact ⟨ordered, fun _ => absent, fun other => by cases other⟩
  | raised =>
      refine ⟨?_, fun other => by simp at other, fun other => by cases other⟩
      rcases accounted with held | ⟨-, cleared⟩
      · exact (ordered_of_used held.used).1
      · exact (ordered_of_released cleared.released).1
  | gone =>
      obtain ⟨ordered, present⟩ := ordered_of_released accounted
      exact ⟨ordered, fun other => by simp at other, fun _ => present⟩

/-- A reader of chunks, which was canceled while it read a row. -/
theorem response_released_once_canceled :
    ∃ s, Runs.Reachable init (step (· = .binary) .http) (.gone, s) ∧ .release ∈ s.log := by
  have opened : Runs.Reachable init (step (· = .binary) .http)
      (.opened, ⟨true, true, true, true, [.use]⟩) :=
    .next (e := .chfdw_cursor_open ⟨true, true, true, ⟨1, false⟩, none, true, ⟨0, false⟩⟩)
      (.start rfl) rfl
  have raised : Runs.Reachable init (step (· = .binary) .http)
      (.raised, ⟨true, true, false, true, [.use, .use, .use, .use, .release]⟩) :=
    .next (e := .chfdw_cursor_fetch_row ⟨⟨1, false⟩, some ⟨true, ⟨0, false⟩⟩, true⟩) opened rfl
  have gone : Runs.Reachable init (step (· = .binary) .http)
      (.gone, ⟨false, false, false, true, [.use, .use, .use, .use, .release]⟩) :=
    .next (e := .MemoryContextDelete ⟨0, false⟩) raised rfl
  exact ⟨_, gone, (response_released_once rfl gone).2.2 rfl⟩

end PgClickhouse.Cursor

import Mathlib.Logic.Function.Basic
import PgClickhouse.Chains
import PgClickhouse.Runs

/-!
# The open inserts of a connection

A connection to the binary protocol links the handles of its open inserts, so that it can
detach them when it is closed.  A handle belongs to the memory context of the caller's state
and is released by the reset callback of that context, before the connection goes or long
after.

The memory is a partial map for each kind of object, and an operation that reads or frees an
object that is not there has no result.  The loops over the links take fuel, and a loop that
does not end has no result either.

* `inserts_exact`: over every run the list of a connection holds the handles begun on it and
  not released, nothing that is not there is touched, and a handle of a closed connection is
  released without a look at anything but itself.
-/

namespace PgClickhouse.Inserts

open Chains

/-! ## The memory -/

/-- The null pointer is `none` of an `Option Address`. -/
abbrev Address := Nat

/-- `owner` is the memory context of the caller's state, where the handle is allocated. -/
structure ch_binary_insert_handle where
  owner : Address
  cxt : Address
  conn : Option Address
  finalized : Bool
  next : Option Address
  deriving Repr, DecidableEq

structure ch_binary_connection_t where
  broken : Bool
  inserts : Option Address
  deriving Repr, DecidableEq

/-- A state is told by its memory context `memcxt`, which it is allocated in. -/
structure binary_insert_state where
  handle : Option Address
  deriving Repr, DecidableEq

/-- `contexts` has the contexts of the handles' buffers, with the connection each belongs
to. -/
structure Memory where
  handles : Address → Option ch_binary_insert_handle
  conns : Address → Option ch_binary_connection_t
  states : Address → Option binary_insert_state
  contexts : Address → Option Address

namespace Memory

def empty : Memory := ⟨fun _ => none, fun _ => none, fun _ => none, fun _ => none⟩

def put_handle (m : Memory) (h : Address) (handle : ch_binary_insert_handle) : Memory :=
  { m with handles := Function.update m.handles h (some handle) }

def put_conn (m : Memory) (c : Address) (conn : ch_binary_connection_t) : Memory :=
  { m with conns := Function.update m.conns c (some conn) }

def put_state (m : Memory) (s : Address) (state : binary_insert_state) : Memory :=
  { m with states := Function.update m.states s (some state) }

/-- `h->next` -/
def next (m : Memory) (h : Address) : Option (Option Address) := (m.handles h).map (·.next)

/-- `MemoryContextDelete` of the context of a handle's buffers. -/
def delete_context (m : Memory) (x : Address) : Option Memory :=
  if (m.contexts x).isSome then
    some { m with contexts := Function.update m.contexts x none }
  else none

end Memory

/-- What a pointer to a link points to: `&conn->inserts` or `&h->next`. -/
inductive Link
  | inserts (c : Address)
  | next (h : Address)
  deriving Repr, DecidableEq

def Memory.load (m : Memory) : Link → Option (Option Address)
  | .inserts c => (m.conns c).map (·.inserts)
  | .next h => m.next h

def Memory.store (m : Memory) (p : Option Address) : Link → Option Memory
  | .inserts c => (m.conns c).map fun conn => m.put_conn c { conn with inserts := p }
  | .next h => (m.handles h).map fun handle => m.put_handle h { handle with next := p }

/-! ## The operations -/

/-- The loop of `ch_binary_detach_inserts`. -/
def detach : Nat → Memory → Option Address → Option Memory
  | _, m, none => some m
  | 0, _, some _ => none
  | n + 1, m, some h =>
      match m.handles h with
      | none => none
      | some handle => detach n (m.put_handle h { handle with conn := none }) handle.next

def ch_binary_detach_inserts (fuel : Nat) (m : Memory) (c : Address) : Option Memory := do
  let conn ← m.conns c
  let m ← detach fuel m conn.inserts
  m.store none (.inserts c)

/-- The connection's context goes, and the contexts below it with it. -/
def ch_binary_close (fuel : Nat) (m : Memory) (c : Address) : Option Memory := do
  let m ← ch_binary_detach_inserts fuel m c
  some { m with
    conns := Function.update m.conns c none
    contexts := fun x => if m.contexts x = some c then none else m.contexts x }

/-- The loop of `ch_binary_release_insert`, which takes `h` out of the list. -/
def unlink (h : Address) : Nat → Memory → Link → Option Memory
  | 0, _, _ => none
  | n + 1, m, link =>
      match m.load link with
      | none => none
      | some none => some m
      | some (some q) =>
          if q = h then (m.next h).bind fun p => m.store p link
          else unlink h n m (.next q)

def ch_binary_release_insert (fuel : Nat) (m : Memory) (h : Address) : Option Memory := do
  let handle ← m.handles h
  match handle.conn with
  | none => some m
  | some c =>
      let conn ← m.conns c
      let m := if handle.finalized then m else m.put_conn c { conn with broken := true }
      let m ← unlink h fuel m (.inserts c)
      m.delete_context handle.cxt

/-- How entering insert mode goes: it fails before the handle is allocated or after it, and
then the buffers' context is deleted unless an error comes first. -/
inductive Entering
  | unallocated (broken : Bool)
  | failed (broken : Bool)
  | undrained (broken : Bool)
  | entered
  deriving Repr, DecidableEq

/-- `old` is the context of the caller.  `none` for the handle is an error raised. -/
def ch_binary_begin_insert (m : Memory) (c old h x : Address) (entering : Entering) :
    Option (Memory × Option Address) := do
  let conn ← m.conns c
  let created := { m with contexts := Function.update m.contexts x (some c) }
  let allocated := created.put_handle h ⟨old, x, some c, false, none⟩
  match entering with
  | .unallocated broken =>
      let m ← (created.put_conn c { conn with broken := conn.broken || broken }).delete_context x
      some (m, none)
  | .failed broken =>
      let m ←
        (allocated.put_conn c { conn with broken := conn.broken || broken }).delete_context x
      some (m, none)
  | .undrained broken =>
      some (allocated.put_conn c { conn with broken := conn.broken || broken }, none)
  | .entered =>
      some
        ((allocated.put_handle h ⟨old, x, some c, false, conn.inserts⟩).put_conn c
          { conn with inserts := some h }, some h)

/-- The state is in its context before the handle is. -/
def binary_prepare_insert (m : Memory) (c s h x : Address) (entering : Entering) :
    Option Memory := do
  let (m, handle) ← ch_binary_begin_insert (m.put_state s ⟨none⟩) c s h x entering
  match handle with
  | none => some m
  | some h => some (m.put_state s ⟨some h⟩)

/-- Sending to the server through the connection of `h`, unless it is closed. -/
def send (m : Memory) (h : Address) (broken : Bool) : Option Memory := do
  let handle ← m.handles h
  match handle.conn with
  | none => some m
  | some c =>
      let conn ← m.conns c
      let _ ← m.contexts handle.cxt
      some (m.put_conn c { conn with broken := conn.broken || broken })

def ch_binary_flush_block (m : Memory) (h : Address) (broken : Bool) : Option Memory :=
  send m h broken

/-- The flag is set before anything is sent. -/
def ch_binary_finalize_insert (m : Memory) (h : Address) (broken : Bool) : Option Memory := do
  let handle ← m.handles h
  if handle.finalized then some m
  else
    match handle.conn with
    | none => some m
    | some _ => send (m.put_handle h { handle with finalized := true }) h broken

def binary_finalize_insert (m : Memory) (s : Address) (broken : Bool) : Option Memory := do
  let state ← m.states s
  match state.handle with
  | none => some m
  | some h => ch_binary_finalize_insert m h broken

/-- The reset callback of a state's context. -/
def binary_insert_state_free (fuel : Nat) (m : Memory) (s : Address) : Option Memory := do
  let state ← m.states s
  match state.handle with
  | none => some m
  | some h =>
      let m ← ch_binary_release_insert fuel m h
      some (m.put_state s ⟨none⟩)

/-- A reset of a state's context: the callback, and then what is allocated there goes. -/
def MemoryContextReset (fuel : Nat) (m : Memory) (s : Address) : Option Memory := do
  let m ← binary_insert_state_free fuel m s
  some { m with
    states := Function.update m.states s none
    handles := fun h =>
      if (m.handles h).any (·.owner = s) then none else m.handles h }

/-! ## Runs -/

inductive Event
  | connect (c : Address)
  | prepare (c s h x : Address) (entering : Entering)
  | flush (s : Address) (broken : Bool)
  | finalize (s : Address) (broken : Bool)
  | reset (s : Address)
  | close (c : Address)
  deriving Repr, DecidableEq

/-- The caller has what it passes, and what is allocated is at a free address. -/
def Allowed (m : Memory) : Event → Prop
  | .connect c => m.conns c = none
  | .prepare c s h x _ =>
      (m.conns c).isSome ∧ m.states s = none ∧ m.handles h = none ∧ m.contexts x = none
  | .flush s _ => ∃ h, m.states s = some ⟨some h⟩
  | .finalize s _ => (m.states s).isSome
  | .reset s => (m.states s).isSome
  | .close c => (m.conns c).isSome

def exec (fuel : Nat) (m : Memory) : Event → Option Memory
  | .connect c => some (m.put_conn c ⟨false, none⟩)
  | .prepare c s h x entering => binary_prepare_insert m c s h x entering
  | .flush s broken => do
      let state ← m.states s
      let h ← state.handle
      ch_binary_flush_block m h broken
  | .finalize s broken => binary_finalize_insert m s broken
  | .reset s => MemoryContextReset fuel m s
  | .close c => ch_binary_close fuel m c

/-- What was begun and is not released, with the state that each handle is for: on a
connection, the last one first, and of connections that are closed. -/
structure Ledger where
  begun : Address → List (Address × Address)
  detached : List (Address × Address)

def Ledger.empty : Ledger := ⟨fun _ => [], []⟩

def Ledger.record (ledger : Ledger) : Event → Ledger
  | .prepare c s h _ .entered =>
      { ledger with begun := Function.update ledger.begun c ((s, h) :: ledger.begun c) }
  | .reset s =>
      ⟨fun c => (ledger.begun c).filter (·.1 ≠ s), ledger.detached.filter (·.1 ≠ s)⟩
  | .close c => ⟨Function.update ledger.begun c [], ledger.begun c ++ ledger.detached⟩
  | _ => ledger

def init (run : Memory × Ledger) : Prop := run = (.empty, .empty)

def step (before : Memory × Ledger) (event : Event) (after : Memory × Ledger) : Prop :=
  Allowed before.1 event ∧ (∃ fuel, exec fuel before.1 event = some after.1) ∧
    after.2 = before.2.record event

/-! ## The loops -/

namespace Memory

variable {m : Memory}

theorem put_handle_same (h : Address) (handle : ch_binary_insert_handle) :
    (m.put_handle h handle).handles h = some handle :=
  Function.update_self ..

theorem put_handle_of_ne {a h : Address} (other : a ≠ h) (handle : ch_binary_insert_handle) :
    (m.put_handle h handle).handles a = m.handles a :=
  Function.update_of_ne other ..

theorem put_conn_same (c : Address) (conn : ch_binary_connection_t) :
    (m.put_conn c conn).conns c = some conn :=
  Function.update_self ..

theorem put_conn_of_ne {a c : Address} (other : a ≠ c) (conn : ch_binary_connection_t) :
    (m.put_conn c conn).conns a = m.conns a :=
  Function.update_of_ne other ..

theorem put_state_same (s : Address) (state : binary_insert_state) :
    (m.put_state s state).states s = some state :=
  Function.update_self ..

end Memory

/-- A handle without its link. -/
def ch_binary_insert_handle.unlinked (handle : ch_binary_insert_handle) :
    ch_binary_insert_handle :=
  { handle with next := none }

/-- Only the link itself and the links of `cells` have changed. -/
structure Relinked (link : Link) (cells : List Address) (m m' : Memory) : Prop where
  fields : ∀ a, (m'.handles a).map (·.unlinked) = (m.handles a).map (·.unlinked)
  handles : ∀ a, a ∉ cells → link ≠ .next a → m'.handles a = m.handles a
  broken : ∀ c, (m'.conns c).map (·.broken) = (m.conns c).map (·.broken)
  conns : ∀ c, link ≠ .inserts c → m'.conns c = m.conns c
  states : m'.states = m.states
  contexts : m'.contexts = m.contexts

/-- A link that can be read can be written. -/
theorem store_spec {m : Memory} {link : Link} {p : Option Address} (loaded : m.load link = some p)
    (q : Option Address) :
    ∃ m', m.store q link = some m' ∧ m'.load link = some q ∧ Relinked link [] m m' := by
  cases link with
  | inserts c =>
      obtain ⟨conn, found, -⟩ := Option.map_eq_some_iff.mp loaded
      refine ⟨_, by rw [Memory.store, found, Option.map_some], ?_, ?_⟩
      · rw [Memory.load, Memory.put_conn_same, Option.map_some]
      · refine ⟨fun _ => rfl, fun _ _ _ => rfl, fun a => ?_, fun a other => ?_, rfl, rfl⟩
        · rcases eq_or_ne a c with rfl | other
          · rw [Memory.put_conn_same, found, Option.map_some, Option.map_some]
          · rw [Memory.put_conn_of_ne other]
        · have other : a ≠ c := fun same => other (congrArg Link.inserts same.symm)
          rw [Memory.put_conn_of_ne other]
  | next h =>
      obtain ⟨handle, found, -⟩ := Option.map_eq_some_iff.mp loaded
      refine ⟨_, by rw [Memory.store, found, Option.map_some], ?_, ?_⟩
      · rw [Memory.load, Memory.next, Memory.put_handle_same, Option.map_some]
      · refine ⟨fun a => ?_, fun a _ other => ?_, fun _ => rfl, fun _ _ => rfl, rfl, rfl⟩
        · rcases eq_or_ne a h with rfl | other
          · rw [Memory.put_handle_same, found, Option.map_some, Option.map_some]
            rfl
          · rw [Memory.put_handle_of_ne other]
        · have other : a ≠ h := fun same => other (congrArg Link.next same.symm)
          rw [Memory.put_handle_of_ne other]

theorem Relinked.weaken {link : Link} {cells cells' : List Address} {m m' : Memory}
    (relinked : Relinked link cells m m') (more : ∀ a ∈ cells, a ∈ cells') :
    Relinked link cells' m m' :=
  { relinked with handles := fun a out => relinked.handles a fun member => out (more a member) }

/-- What the link loads only changes with the link or one of the cells. -/
theorem Relinked.load {link other : Link} {cells : List Address} {m m' : Memory}
    (relinked : Relinked link cells m m') (elsewhere : link ≠ other)
    (apart : ∀ a ∈ cells, other ≠ .next a) : m'.load other = m.load other := by
  cases other with
  | inserts c => rw [Memory.load, relinked.conns c elsewhere, Memory.load]
  | next h =>
      rw [Memory.load, Memory.next, relinked.handles h (fun member => apart h member rfl) elsewhere,
        Memory.load, Memory.next]

theorem unlink_more {h : Address} {m m' : Memory} {link : Link} {n : Nat}
    (done : unlink h n m link = some m') (more : Nat) : unlink h (n + more) m link = some m' := by
  induction n generalizing link with
  | zero => cases done
  | succ n ih =>
      rw [Nat.succ_add]
      unfold unlink at done ⊢
      split at done
      · cases done
      · exact done
      · split at done
        · rename_i same
          rw [if_pos same, done]
        · rename_i other
          rw [if_neg other, ih done]

theorem detach_more {m m' : Memory} {p : Option Address} {n : Nat}
    (done : detach n m p = some m') (more : Nat) : detach (n + more) m p = some m' := by
  induction n generalizing m p with
  | zero =>
      cases p with
      | none => simpa only [detach] using done
      | some h => cases done
  | succ n ih =>
      rw [Nat.succ_add]
      cases p with
      | none => simpa only [detach] using done
      | some h =>
          unfold detach at done ⊢
          split at done
          · cases done
          · exact ih done

/-- The loop takes the handle out of the list that starts at the link. -/
theorem unlink_spec {m : Memory} {h : Address} {p : Option Address} {cells : List Address}
    {link : Link} (chain : Chain m.next p cells) (loaded : m.load link = some p)
    (nodup : cells.Nodup) (apart : ∀ a ∈ cells, link ≠ .next a) (member : h ∈ cells) :
    ∃ m' p', unlink h cells.length m link = some m' ∧ m'.load link = some p' ∧
      Chain m'.next p' (cells.erase h) ∧ Relinked link cells m m' := by
  induction chain generalizing link with
  | nil => cases member
  | @cons q p rest next chain ih =>
      rw [List.nodup_cons] at nodup
      obtain ⟨fresh, nodup⟩ := nodup
      rw [List.length_cons, unlink, loaded]
      dsimp only
      split
      · rename_i same
        subst same
        obtain ⟨m', stored, reloaded, relinked⟩ := store_spec loaded p
        refine ⟨m', p, ?_, reloaded, ?_, relinked.weaken (by simp)⟩
        · rw [next, Option.bind_some, stored]
        · rw [List.erase_cons_head]
          refine chain.congr fun a later => ?_
          have kept := relinked.handles a (by simp) (apart a (List.mem_cons_of_mem q later))
          rw [Memory.next, kept, Memory.next]
      · rename_i other
        have later : h ∈ rest := (List.mem_cons.mp member).resolve_left fun same => other same.symm
        have inner : ∀ a ∈ rest, Link.next q ≠ .next a := by
          intro a inside same
          exact fresh (Link.next.inj same ▸ inside)
        have loaded_q : m.load (.next q) = some p := next
        obtain ⟨m', p', done, reloaded, chain', relinked⟩ := ih loaded_q nodup inner later
        have elsewhere : Link.next q ≠ link := (apart q List.mem_cons_self).symm
        refine ⟨m', some q, done, ?_, ?_, ?_⟩
        · rw [relinked.load elsewhere fun a inside => apart a (List.mem_cons_of_mem q inside),
            loaded]
        · rw [List.erase_cons_tail (by simpa using other)]
          exact .cons reloaded chain'
        · refine { relinked with handles := ?_, conns := ?_ }
          · intro a out _
            rw [List.mem_cons, not_or] at out
            exact relinked.handles a out.2 fun same => out.1 (Link.next.inj same).symm
          · exact fun c _ => relinked.conns c (by simp)

/-- The loop clears the connection of every handle of a list and nothing else. -/
theorem detach_spec {m : Memory} {p : Option Address} {cells : List Address}
    (chain : Chain m.next p cells) :
    ∃ m', detach cells.length m p = some m' ∧
      (∀ a, m'.handles a =
        if a ∈ cells then (m.handles a).map ({ · with conn := none }) else m.handles a) ∧
      m'.conns = m.conns ∧ m'.states = m.states ∧ m'.contexts = m.contexts := by
  generalize same : m.next = next at chain
  induction chain generalizing m with
  | nil => exact ⟨m, rfl, fun a => rfl, rfl, rfl, rfl⟩
  | @cons q p rest link chain ih =>
      subst same
      obtain ⟨handle, found, rfl⟩ := Option.map_eq_some_iff.mp link
      have links : (m.put_handle q { handle with conn := none }).next = m.next := by
        funext a
        rcases eq_or_ne a q with rfl | other
        · rw [Memory.next, Memory.put_handle_same, Memory.next, found, Option.map_some,
            Option.map_some]
        · rw [Memory.next, Memory.put_handle_of_ne other, Memory.next]
      obtain ⟨m', done, handles, conns, states, contexts⟩ := ih links
      refine ⟨m', ?_, fun a => ?_, conns, states, contexts⟩
      · rw [List.length_cons, detach, found]
        exact done
      · rw [handles a]
        rcases eq_or_ne a q with rfl | other
        · rw [Memory.put_handle_same, found]
          simp
        · rw [Memory.put_handle_of_ne other]
          simp [other]

/-! ## More fuel -/

theorem ch_binary_release_insert_more {m m' : Memory} {h : Address} {n : Nat}
    (done : ch_binary_release_insert n m h = some m') (more : Nat) :
    ch_binary_release_insert (n + more) m h = some m' := by
  unfold ch_binary_release_insert at done ⊢
  obtain ⟨handle, found, done⟩ := Option.bind_eq_some_iff.mp done
  refine Option.bind_eq_some_iff.mpr ⟨handle, found, ?_⟩
  split at done
  · exact done
  · obtain ⟨conn, alive, done⟩ := Option.bind_eq_some_iff.mp done
    obtain ⟨m₁, unlinked, deleted⟩ := Option.bind_eq_some_iff.mp done
    exact Option.bind_eq_some_iff.mpr ⟨conn, alive,
      Option.bind_eq_some_iff.mpr ⟨m₁, unlink_more unlinked more, deleted⟩⟩

theorem exec_more {m m' : Memory} {event : Event} {n : Nat}
    (done : exec n m event = some m') (more : Nat) : exec (n + more) m event = some m' := by
  cases event with
  | connect c => exact done
  | prepare c s h x entering => exact done
  | flush s broken => exact done
  | finalize s broken => exact done
  | reset s =>
      unfold exec MemoryContextReset binary_insert_state_free at done ⊢
      obtain ⟨m₁, freed, done⟩ := Option.bind_eq_some_iff.mp done
      refine Option.bind_eq_some_iff.mpr ⟨m₁, ?_, done⟩
      obtain ⟨state, found, freed⟩ := Option.bind_eq_some_iff.mp freed
      refine Option.bind_eq_some_iff.mpr ⟨state, found, ?_⟩
      split at freed
      · exact freed
      · obtain ⟨m₂, released, freed⟩ := Option.bind_eq_some_iff.mp freed
        exact Option.bind_eq_some_iff.mpr
          ⟨m₂, ch_binary_release_insert_more released more, freed⟩
  | close c =>
      unfold exec ch_binary_close ch_binary_detach_inserts at done ⊢
      obtain ⟨m₁, detached, done⟩ := Option.bind_eq_some_iff.mp done
      refine Option.bind_eq_some_iff.mpr ⟨m₁, ?_, done⟩
      obtain ⟨conn, alive, detached⟩ := Option.bind_eq_some_iff.mp detached
      obtain ⟨m₂, cleared, stored⟩ := Option.bind_eq_some_iff.mp detached
      exact Option.bind_eq_some_iff.mpr ⟨conn, alive,
        Option.bind_eq_some_iff.mpr ⟨m₂, detach_more cleared more, stored⟩⟩

theorem exec_unique {m m₁ m₂ : Memory} {event : Event} {n₁ n₂ : Nat}
    (first : exec n₁ m event = some m₁) (second : exec n₂ m event = some m₂) : m₁ = m₂ := by
  have long := exec_more first n₂
  rw [Nat.add_comm, exec_more second n₁] at long
  exact (Option.some.inj long).symm

/-! ## What holds between two operations -/

/-- The handles of the open inserts of a connection. -/
def Ledger.handles (ledger : Ledger) (c : Address) : List Address := (ledger.begun c).map (·.2)

/-- The handle `h` of the state `s` is begun and not released. -/
def Ledger.Holds (ledger : Ledger) (s h : Address) : Prop :=
  (∃ c, (s, h) ∈ ledger.begun c) ∨ (s, h) ∈ ledger.detached

/-- A handle that is open on the connection `c`. -/
structure Open (m : Memory) (c s h : Address) (handle : ch_binary_insert_handle) : Prop where
  state : m.states s = some ⟨some h⟩
  found : m.handles h = some handle
  owner : handle.owner = s
  conn : handle.conn = some c
  context : m.contexts handle.cxt = some c

/-- A handle whose connection is closed. -/
structure Detached (m : Memory) (s h : Address) (handle : ch_binary_insert_handle) : Prop where
  state : m.states s = some ⟨some h⟩
  found : m.handles h = some handle
  owner : handle.owner = s
  conn : handle.conn = none

structure Inv (m : Memory) (ledger : Ledger) : Prop where
  chain : ∀ {c conn}, m.conns c = some conn → Chain m.next conn.inserts (ledger.handles c)
  nodup : ∀ c, (ledger.handles c).Nodup
  begun : ∀ {c s h}, (s, h) ∈ ledger.begun c → ∃ handle, Open m c s h handle
  buffers : ∀ {c c' s s' h h' handle handle'}, (s, h) ∈ ledger.begun c →
    (s', h') ∈ ledger.begun c' → m.handles h = some handle → m.handles h' = some handle' →
    handle.cxt = handle'.cxt → h = h'
  detached : ∀ {s h}, (s, h) ∈ ledger.detached → ∃ handle, Detached m s h handle
  held : ∀ {s h}, m.states s = some ⟨some h⟩ → ledger.Holds s h
  gone : ∀ {c}, m.conns c = none → ledger.begun c = []

namespace Inv

variable {m : Memory} {ledger : Ledger} (inv : Inv m ledger)

include inv

theorem state_of_holds {s h : Address} (holds : ledger.Holds s h) :
    m.states s = some ⟨some h⟩ ∧ ∃ handle, m.handles h = some handle ∧ handle.owner = s := by
  rcases holds with ⟨c, member⟩ | member
  · obtain ⟨handle, shape⟩ := inv.begun member
    exact ⟨shape.state, handle, shape.found, shape.owner⟩
  · obtain ⟨handle, shape⟩ := inv.detached member
    exact ⟨shape.state, handle, shape.found, shape.owner⟩

/-- A state has one handle. -/
theorem same_handle {s h h' : Address} (first : ledger.Holds s h) (second : ledger.Holds s h') :
    h = h' := by
  have both := (inv.state_of_holds first).1.symm.trans (inv.state_of_holds second).1
  simpa using both

/-- A handle is for one state. -/
theorem same_state {s s' h : Address} (first : ledger.Holds s h) (second : ledger.Holds s' h) :
    s = s' := by
  obtain ⟨-, handle, found, owner⟩ := inv.state_of_holds first
  obtain ⟨-, handle', found', owner'⟩ := inv.state_of_holds second
  rw [found, Option.some.injEq] at found'
  rw [← owner, ← owner', found']

/-- A handle is open on one connection. -/
theorem same_conn {c c' s s' h : Address} (first : (s, h) ∈ ledger.begun c)
    (second : (s', h) ∈ ledger.begun c') : c = c' := by
  obtain ⟨handle, shape⟩ := inv.begun first
  obtain ⟨handle', shape'⟩ := inv.begun second
  have same := shape.found.symm.trans shape'.found
  rw [Option.some.injEq] at same
  subst same
  simpa using shape.conn.symm.trans shape'.conn

theorem not_detached {c s s' h : Address} (first : (s, h) ∈ ledger.begun c) :
    (s', h) ∉ ledger.detached := by
  intro second
  obtain ⟨handle, shape⟩ := inv.begun first
  obtain ⟨handle', shape'⟩ := inv.detached second
  have same := shape.found.symm.trans shape'.found
  rw [Option.some.injEq] at same
  subst same
  cases shape.conn.symm.trans shape'.conn

/-- A handle that is open has a connection that is. -/
theorem alive {c s h : Address} (member : (s, h) ∈ ledger.begun c) :
    ∃ conn, m.conns c = some conn := by
  rcases found : m.conns c with _ | conn
  · rw [inv.gone found] at member
    cases member
  · exact ⟨conn, rfl⟩

end Inv

theorem Ledger.mem_handles {ledger : Ledger} {c h : Address} :
    h ∈ ledger.handles c ↔ ∃ s, (s, h) ∈ ledger.begun c := by
  simp [Ledger.handles]

theorem Inv.empty : Inv .empty .empty where
  chain found := by cases found
  nodup _ := List.nodup_nil
  begun member := by cases member
  buffers member := by cases member
  detached member := by cases member
  held found := by cases found
  gone _ := rfl

/-! ## One operation -/

/-- What the invariant speaks of is as before. -/
structure Kept (ledger : Ledger) (m m' : Memory) : Prop where
  handles : ∀ {s h handle}, ledger.Holds s h → m.handles h = some handle →
    ∃ finalized, m'.handles h = some { handle with finalized }
  inserts : ∀ c, (m'.conns c).map (·.inserts) = (m.conns c).map (·.inserts)
  states : ∀ {s h}, ledger.Holds s h → m'.states s = m.states s
  held : ∀ {s h}, m'.states s = some ⟨some h⟩ → m.states s = some ⟨some h⟩
  contexts : ∀ {x c}, m.contexts x = some c → m'.contexts x = some c

/-- A connection that is there after an operation was there, with the same first handle. -/
theorem Kept.conn {ledger : Ledger} {m m' : Memory} (kept : Kept ledger m m') {c : Address}
    {conn' : ch_binary_connection_t} (found : m'.conns c = some conn') :
    ∃ conn, m.conns c = some conn ∧ conn.inserts = conn'.inserts := by
  have same := kept.inserts c
  rw [found, Option.map_some] at same
  exact Option.map_eq_some_iff.mp same.symm

theorem Inv.kept {ledger : Ledger} {m m' : Memory} (inv : Inv m ledger)
    (kept : Kept ledger m m') : Inv m' ledger := by
  have found_of {s h handle'} (holds : ledger.Holds s h) (found : m'.handles h = some handle') :
      ∃ handle, m.handles h = some handle ∧
        ∃ finalized, handle' = { handle with finalized } := by
    obtain ⟨-, handle, before, -⟩ := inv.state_of_holds holds
    obtain ⟨finalized, after⟩ := kept.handles holds before
    exact ⟨handle, before, finalized, Option.some.inj (found.symm.trans after)⟩
  refine ⟨?_, inv.nodup, ?_, ?_, ?_, fun found => inv.held (kept.held found), ?_⟩
  · intro c conn' found
    obtain ⟨conn, before, same⟩ := kept.conn found
    rw [← same]
    refine (inv.chain before).congr fun a member => ?_
    obtain ⟨s, member⟩ := Ledger.mem_handles.mp member
    obtain ⟨handle, shape⟩ := inv.begun member
    obtain ⟨finalized, after⟩ := kept.handles (.inl ⟨c, member⟩) shape.found
    rw [Memory.next, after, Memory.next, shape.found, Option.map_some, Option.map_some]
  · intro c s h member
    obtain ⟨handle, shape⟩ := inv.begun member
    have holds : ledger.Holds s h := .inl ⟨c, member⟩
    obtain ⟨finalized, after⟩ := kept.handles holds shape.found
    exact ⟨_, (kept.states holds).trans shape.state, after, shape.owner, shape.conn,
      kept.contexts shape.context⟩
  · intro c c' s s' h h' handle handle' first second found found' same
    obtain ⟨handle₁, before₁, f₁, rfl⟩ := found_of (.inl ⟨c, first⟩) found
    obtain ⟨handle₂, before₂, f₂, rfl⟩ := found_of (.inl ⟨c', second⟩) found'
    exact inv.buffers first second before₁ before₂ same
  · intro s h member
    obtain ⟨handle, shape⟩ := inv.detached member
    have holds : ledger.Holds s h := .inr member
    obtain ⟨finalized, after⟩ := kept.handles holds shape.found
    exact ⟨_, (kept.states holds).trans shape.state, after, shape.owner, shape.conn⟩
  · intro c missing
    have same := kept.inserts c
    rw [missing, Option.map_none] at same
    exact inv.gone (Option.map_eq_none_iff.mp same.symm)

/-- Setting the flag of a connection keeps everything. -/
theorem kept_broken {ledger : Ledger} {m : Memory} {c : Address} {conn : ch_binary_connection_t}
    (found : m.conns c = some conn) (broken : Bool) :
    Kept ledger m (m.put_conn c { conn with broken }) := by
  refine ⟨fun _ found => ⟨_, found⟩, fun a => ?_, fun _ => rfl, fun found => found,
    fun found => found⟩
  rcases eq_or_ne a c with rfl | other
  · rw [Memory.put_conn_same, found, Option.map_some, Option.map_some]
  · rw [Memory.put_conn_of_ne other]

theorem kept_finalized {ledger : Ledger} {m : Memory} {h : Address}
    {handle : ch_binary_insert_handle} (found : m.handles h = some handle) (finalized : Bool) :
    Kept ledger m (m.put_handle h { handle with finalized }) := by
  refine ⟨?_, fun _ => rfl, fun _ => rfl, fun found => found, fun found => found⟩
  intro s a handle' _ before
  rcases eq_or_ne a h with rfl | other
  · rw [found, Option.some.injEq] at before
    subst before
    exact ⟨finalized, Memory.put_handle_same ..⟩
  · exact ⟨handle'.finalized, (Memory.put_handle_of_ne other _).trans before⟩

variable {m : Memory} {ledger : Ledger}

/-- A send finds what it needs of a handle that a state has. -/
theorem Inv.send (inv : Inv m ledger) {s h : Address} (holds : ledger.Holds s h) (broken : Bool) :
    ∃ m', Inserts.send m h broken = some m' ∧ Inv m' ledger := by
  rcases holds with ⟨c, member⟩ | member
  · obtain ⟨handle, shape⟩ := inv.begun member
    obtain ⟨conn, alive⟩ := inv.alive member
    refine ⟨_, ?_, inv.kept (kept_broken alive (conn.broken || broken))⟩
    simp only [Inserts.send, shape.found, shape.conn, alive, shape.context, bind,
      Option.bind_some]
  · obtain ⟨handle, shape⟩ := inv.detached member
    refine ⟨m, ?_, inv⟩
    simp only [Inserts.send, shape.found, shape.conn, bind, Option.bind_some]

theorem Inv.finalize (inv : Inv m ledger) {s : Address} (present : (m.states s).isSome)
    (broken : Bool) : ∃ m', binary_finalize_insert m s broken = some m' ∧ Inv m' ledger := by
  obtain ⟨⟨handle⟩, found⟩ := Option.isSome_iff_exists.mp present
  cases handle with
  | none => exact ⟨m, by simp only [binary_finalize_insert, found, bind, Option.bind_some], inv⟩
  | some h =>
      have holds := inv.held found
      obtain ⟨-, handle, allocated, -⟩ := inv.state_of_holds holds
      simp only [binary_finalize_insert, found, bind, Option.bind_some,
        ch_binary_finalize_insert, allocated]
      split
      · exact ⟨m, rfl, inv⟩
      · split
        · exact ⟨m, rfl, inv⟩
        · exact (inv.kept (kept_finalized allocated true)).send holds broken

theorem Inv.connect (inv : Inv m ledger) {c : Address} (free : m.conns c = none) :
    Inv (m.put_conn c ⟨false, none⟩) ledger := by
  refine ⟨?_, inv.nodup, ?_, inv.buffers, ?_, inv.held, ?_⟩
  · intro a conn found
    rcases eq_or_ne a c with rfl | other
    · rw [Memory.put_conn_same, Option.some.injEq] at found
      rw [← found, Ledger.handles, inv.gone free]
      exact .nil
    · rw [Memory.put_conn_of_ne other] at found
      exact inv.chain found
  · intro a s h member
    obtain ⟨handle, shape⟩ := inv.begun member
    exact ⟨handle, shape.state, shape.found, shape.owner, shape.conn, shape.context⟩
  · intro s h member
    obtain ⟨handle, shape⟩ := inv.detached member
    exact ⟨handle, shape.state, shape.found, shape.owner, shape.conn⟩
  · intro a missing
    rcases eq_or_ne a c with rfl | other
    · rw [Memory.put_conn_same] at missing
      cases missing
    · rw [Memory.put_conn_of_ne other] at missing
      exact inv.gone missing

/-! ### Beginning -/

theorem delete_context_spec {x c : Address} (found : m.contexts x = some c) :
    m.delete_context x = some { m with contexts := Function.update m.contexts x none } := by
  rw [Memory.delete_context, found, Option.isSome_some, if_pos rfl]

/-- What a begin that fails allocates keeps what was there. -/
theorem kept_failed {m' : Memory} {c s h x : Address} {conn : ch_binary_connection_t}
    (broken : Bool) (inv : Inv m ledger) (free_s : m.states s = none) (free_h : m.handles h = none)
    (free_x : m.contexts x = none) (found : m.conns c = some conn)
    (handles : ∀ a, a ≠ h → m'.handles a = m.handles a)
    (conns : m'.conns = Function.update m.conns c (some { conn with broken }))
    (states : m'.states = Function.update m.states s (some ⟨none⟩))
    (contexts : ∀ a, a ≠ x → m'.contexts a = m.contexts a) : Kept ledger m m' := by
  refine ⟨?_, fun a => ?_, ?_, ?_, ?_⟩
  · intro s' h' handle _ before
    have other : h' ≠ h := by
      rintro rfl
      rw [free_h] at before
      cases before
    exact ⟨handle.finalized, (handles h' other).trans before⟩
  · rw [conns]
    rcases eq_or_ne a c with rfl | other
    · rw [Function.update_self, found, Option.map_some, Option.map_some]
    · rw [Function.update_of_ne other]
  · intro s' h' holds
    have other : s' ≠ s := by
      rintro rfl
      rw [(inv.state_of_holds holds).1] at free_s
      cases free_s
    rw [states, Function.update_of_ne other]
  · intro s' h' after
    rw [states] at after
    rcases eq_or_ne s' s with rfl | other
    · rw [Function.update_self] at after
      cases after
    · rwa [Function.update_of_ne other] at after
  · intro a c' before
    have other : a ≠ x := by
      rintro rfl
      rw [free_x] at before
      cases before
    exact (contexts a other).trans before

theorem Ledger.prepare_same (ledger : Ledger) (c s h x : Address) :
    (ledger.record (.prepare c s h x .entered)).begun c = (s, h) :: ledger.begun c :=
  Function.update_self ..

theorem Ledger.prepare_of_ne (ledger : Ledger) {a c : Address} (other : a ≠ c) (s h x : Address) :
    (ledger.record (.prepare c s h x .entered)).begun a = ledger.begun a :=
  Function.update_of_ne other ..

/-- A begin that succeeds puts the handle in front of the others of the connection. -/
theorem Inv.entered (inv : Inv m ledger) {c s h x : Address} {conn : ch_binary_connection_t}
    (found : m.conns c = some conn) (free_s : m.states s = none) (free_h : m.handles h = none)
    (free_x : m.contexts x = none) {m' : Memory}
    (handles : m'.handles = Function.update m.handles h (some ⟨s, x, some c, false, conn.inserts⟩))
    (conns : m'.conns = Function.update m.conns c (some { conn with inserts := some h }))
    (states : m'.states = Function.update m.states s (some ⟨some h⟩))
    (contexts : m'.contexts = Function.update m.contexts x (some c)) :
    Inv m' (ledger.record (.prepare c s h x .entered)) := by
  have handle_ne {s' h'} (holds : ledger.Holds s' h') : h' ≠ h := by
    rintro rfl
    obtain ⟨-, handle, allocated, -⟩ := inv.state_of_holds holds
    rw [free_h] at allocated
    cases allocated
  have state_ne {s' h'} (holds : ledger.Holds s' h') : s' ≠ s := by
    rintro rfl
    rw [(inv.state_of_holds holds).1] at free_s
    cases free_s
  have kept {s' h'} (holds : ledger.Holds s' h') :
      m'.handles h' = m.handles h' ∧ m'.states s' = m.states s' := by
    rw [handles, Function.update_of_ne (handle_ne holds), states,
      Function.update_of_ne (state_ne holds)]
    exact ⟨rfl, rfl⟩
  have old_links {c'} : ∀ a ∈ ledger.handles c', m'.next a = m.next a := by
    intro a member
    obtain ⟨s', member⟩ := Ledger.mem_handles.mp member
    rw [Memory.next, (kept (.inl ⟨c', member⟩)).1, Memory.next]
  have old_open {c' s' h' handle} (member : (s', h') ∈ ledger.begun c')
      (shape : Open m c' s' h' handle) : Open m' c' s' h' handle := by
    obtain ⟨same_handle, same_state⟩ := kept (.inl ⟨c', member⟩)
    refine ⟨same_state.trans shape.state, same_handle.trans shape.found, shape.owner, shape.conn,
      ?_⟩
    have other : handle.cxt ≠ x := by
      intro same
      have context := shape.context
      rw [same, free_x] at context
      cases context
    rw [contexts, Function.update_of_ne other, shape.context]
  have new_handle : m'.handles h = some ⟨s, x, some c, false, conn.inserts⟩ := by
    rw [handles, Function.update_self]
  have new_open : Open m' c s h ⟨s, x, some c, false, conn.inserts⟩ :=
    ⟨by rw [states, Function.update_self], new_handle, rfl, rfl,
      by rw [contexts, Function.update_self]⟩
  have begun_iff {c' s' h'} : (s', h') ∈ (ledger.record (.prepare c s h x .entered)).begun c' ↔
      (s', h') ∈ ledger.begun c' ∨ c' = c ∧ s' = s ∧ h' = h := by
    rcases eq_or_ne c' c with rfl | other
    · simp [Ledger.prepare_same, or_comm]
    · simp [Ledger.prepare_of_ne _ other, other]
  have cxt_ne {c' s' h' handle} (member : (s', h') ∈ ledger.begun c')
      (allocated : m'.handles h' = some handle) : handle.cxt ≠ x := by
    intro same
    obtain ⟨handle', shape⟩ := inv.begun member
    rw [(kept (.inl ⟨c', member⟩)).1, shape.found, Option.some.injEq] at allocated
    have context := shape.context
    rw [allocated, same, free_x] at context
    cases context
  refine ⟨?_, ?_, ?_, ?_, ?_, ?_, ?_⟩
  · intro a conn' present
    rw [conns] at present
    rcases eq_or_ne a c with rfl | other
    · rw [Function.update_self, Option.some.injEq] at present
      rw [← present, Ledger.handles, Ledger.prepare_same, List.map_cons]
      refine .cons ?_ ((inv.chain found).congr old_links)
      rw [Memory.next, new_handle, Option.map_some]
    · rw [Function.update_of_ne other] at present
      rw [Ledger.handles, Ledger.prepare_of_ne _ other]
      exact (inv.chain present).congr old_links
  · intro a
    rcases eq_or_ne a c with rfl | other
    · rw [Ledger.handles, Ledger.prepare_same, List.map_cons, List.nodup_cons]
      refine ⟨fun member => ?_, inv.nodup a⟩
      obtain ⟨s', member⟩ := Ledger.mem_handles.mp member
      exact handle_ne (.inl ⟨a, member⟩) rfl
    · rw [Ledger.handles, Ledger.prepare_of_ne _ other]
      exact inv.nodup a
  · intro c' s' h' member
    rcases begun_iff.mp member with old | ⟨rfl, rfl, rfl⟩
    · obtain ⟨handle, shape⟩ := inv.begun old
      exact ⟨handle, old_open old shape⟩
    · exact ⟨_, new_open⟩
  · intro c₁ c₂ s₁ s₂ h₁ h₂ handle₁ handle₂ first second found₁ found₂ same
    rcases begun_iff.mp first with old₁ | ⟨rfl, rfl, rfl⟩ <;>
      rcases begun_iff.mp second with old₂ | ⟨rfl, rfl, rfl⟩
    · refine inv.buffers old₁ old₂ ?_ ?_ same
      · rw [← (kept (.inl ⟨c₁, old₁⟩)).1, found₁]
      · rw [← (kept (.inl ⟨c₂, old₂⟩)).1, found₂]
    · rw [new_handle, Option.some.injEq] at found₂
      exact absurd (same.trans (congrArg (·.cxt) found₂.symm)) (cxt_ne old₁ found₁)
    · rw [new_handle, Option.some.injEq] at found₁
      exact absurd (same.symm.trans (congrArg (·.cxt) found₁.symm)) (cxt_ne old₂ found₂)
    · rfl
  · intro s' h' member
    obtain ⟨handle, shape⟩ := inv.detached member
    obtain ⟨same_handle, same_state⟩ := kept (.inr member)
    exact ⟨handle, same_state.trans shape.state, same_handle.trans shape.found, shape.owner,
      shape.conn⟩
  · intro s' h' present
    rw [states] at present
    rcases eq_or_ne s' s with rfl | other
    · rw [Function.update_self] at present
      have same : h = h' := by simpa using present
      exact .inl ⟨c, begun_iff.mpr (.inr ⟨rfl, rfl, same.symm⟩)⟩
    · rw [Function.update_of_ne other] at present
      rcases inv.held present with ⟨c', member⟩ | member
      · exact .inl ⟨c', begun_iff.mpr (.inl member)⟩
      · exact .inr member
  · intro a missing
    rw [conns] at missing
    rcases eq_or_ne a c with rfl | other
    · rw [Function.update_self] at missing
      cases missing
    · rw [Function.update_of_ne other] at missing
      rw [Ledger.prepare_of_ne _ other]
      exact inv.gone missing

theorem Inv.prepare (inv : Inv m ledger) {c s h x : Address} (entering : Entering)
    (allowed : Allowed m (.prepare c s h x entering)) :
    ∃ m', binary_prepare_insert m c s h x entering = some m' ∧
      Inv m' (ledger.record (.prepare c s h x entering)) := by
  obtain ⟨present, free_s, free_h, free_x⟩ := allowed
  obtain ⟨conn, found⟩ := Option.isSome_iff_exists.mp present
  have found' : (m.put_state s ⟨none⟩).conns c = some conn := found
  have new : Function.update m.contexts x (some c) x = some c := Function.update_self ..
  cases entering with
  | unallocated broken =>
      refine ⟨?_, ?_, inv.kept
        (kept_failed (conn.broken || broken) inv free_s free_h free_x found ?_ ?_ ?_
          fun a other => ?_)⟩
      rotate_left
      · simp only [binary_prepare_insert, ch_binary_begin_insert, found', bind, Option.bind_some]
        rw [delete_context_spec (by exact new)]
        rfl
      · exact fun a _ => rfl
      · rfl
      · rfl
      · exact (Function.update_of_ne other ..).trans (Function.update_of_ne other ..)
  | failed broken =>
      refine ⟨?_, ?_, inv.kept
        (kept_failed (conn.broken || broken) inv free_s free_h free_x found ?_ ?_ ?_
          fun a other => ?_)⟩
      rotate_left
      · simp only [binary_prepare_insert, ch_binary_begin_insert, found', bind, Option.bind_some]
        rw [delete_context_spec (by exact new)]
        rfl
      · exact fun a other => Function.update_of_ne other ..
      · rfl
      · rfl
      · exact (Function.update_of_ne other ..).trans (Function.update_of_ne other ..)
  | undrained broken =>
      refine ⟨?_, ?_, inv.kept
        (kept_failed (conn.broken || broken) inv free_s free_h free_x found ?_ ?_ ?_
          fun a other => ?_)⟩
      rotate_left
      · simp only [binary_prepare_insert, ch_binary_begin_insert, found', bind, Option.bind_some]
        rfl
      · exact fun a other => Function.update_of_ne other ..
      · rfl
      · rfl
      · exact Function.update_of_ne other ..
  | entered =>
      refine ⟨?_, ?_, inv.entered found free_s free_h free_x ?_ ?_ ?_ ?_⟩
      rotate_left
      · simp only [binary_prepare_insert, ch_binary_begin_insert, found', bind, Option.bind_some]
        rfl
      · exact Function.update_idem ..
      · rfl
      · exact Function.update_idem ..
      · rfl

/-! ### Releasing -/

theorem Ledger.reset_mem {c s s' h : Address} :
    (s', h) ∈ (ledger.record (.reset s)).begun c ↔ (s', h) ∈ ledger.begun c ∧ s' ≠ s := by
  simp [Ledger.record]

/-- A connection without a handle of the state keeps its list. -/
theorem Ledger.reset_begun {c s : Address} (other : ∀ h, (s, h) ∉ ledger.begun c) :
    (ledger.record (.reset s)).begun c = ledger.begun c := by
  refine List.filter_eq_self.mpr fun pair member => ?_
  have apart : pair.1 ≠ s := by
    rintro rfl
    exact other pair.2 member
  simpa using apart

/-- The connection of the handle of the state loses that handle. -/
theorem Inv.reset_handles (inv : Inv m ledger) {c s h : Address}
    (member : (s, h) ∈ ledger.begun c) :
    (ledger.record (.reset s)).handles c = (ledger.handles c).erase h := by
  rw [(inv.nodup c).erase_eq_filter, Ledger.handles, Ledger.handles, List.filter_map]
  refine congrArg _ (List.filter_congr fun pair present => ?_)
  have same : pair.1 = s ↔ pair.2 = h := by
    constructor
    · rintro rfl
      exact inv.same_handle (.inl ⟨c, present⟩) (.inl ⟨c, member⟩)
    · rintro rfl
      exact inv.same_state (.inl ⟨c, present⟩) (.inl ⟨c, member⟩)
  by_cases first : pair.1 = s
  · simp [first, same.mp first]
  · simp [first, mt same.mpr first]

/-- What the callback leaves of the memory, when the handle of the state is out of the list
it was in. -/
theorem Inv.forget {m' : Memory} {s : Address} (inv : Inv m ledger)
    (chain : ∀ {c conn}, m'.conns c = some conn →
      Chain m'.next conn.inserts ((ledger.record (.reset s)).handles c))
    (fields : ∀ a, (m'.handles a).map (·.unlinked) = (m.handles a).map (·.unlinked))
    (states : m'.states = Function.update m.states s (some ⟨none⟩))
    (contexts : ∀ {c s' h handle}, (s', h) ∈ ledger.begun c → s' ≠ s →
      m.handles h = some handle → m'.contexts handle.cxt = some c)
    (conns : ∀ {c}, m'.conns c = none → m.conns c = none) :
    Inv m' (ledger.record (.reset s)) := by
  have after {a handle} (found : m.handles a = some handle) :
      ∃ handle', m'.handles a = some handle' ∧ handle'.unlinked = handle.unlinked := by
    have same := fields a
    rw [found, Option.map_some] at same
    exact Option.map_eq_some_iff.mp same
  have before {a handle'} (found : m'.handles a = some handle') :
      ∃ handle, m.handles a = some handle ∧ handle.unlinked = handle'.unlinked := by
    have same := fields a
    rw [found, Option.map_some] at same
    exact Option.map_eq_some_iff.mp same.symm
  have cxt_eq {a b : ch_binary_insert_handle} (same : a.unlinked = b.unlinked) : a.cxt = b.cxt :=
    congrArg (·.cxt) same
  refine ⟨chain, fun c => ?_, ?_, ?_, ?_, ?_, ?_⟩
  · exact (inv.nodup c).sublist (List.filter_sublist.map _)
  · intro c s' h member
    obtain ⟨member, other⟩ := Ledger.reset_mem.mp member
    obtain ⟨handle, shape⟩ := inv.begun member
    obtain ⟨handle', found, same⟩ := after shape.found
    refine ⟨handle', ?_, found, ?_, ?_, ?_⟩
    · rw [states, Function.update_of_ne other, shape.state]
    · exact (congrArg (·.owner) same : handle'.owner = handle.owner).trans shape.owner
    · exact (congrArg (·.conn) same : handle'.conn = handle.conn).trans shape.conn
    · rw [cxt_eq same]
      exact contexts member other shape.found
  · intro c₁ c₂ s₁ s₂ h₁ h₂ handle₁ handle₂ first second found₁ found₂ same
    obtain ⟨old₁, before₁, same₁⟩ := before found₁
    obtain ⟨old₂, before₂, same₂⟩ := before found₂
    refine inv.buffers (Ledger.reset_mem.mp first).1 (Ledger.reset_mem.mp second).1 before₁
      before₂ ?_
    rw [cxt_eq same₁, cxt_eq same₂, same]
  · intro s' h member
    obtain ⟨member, other⟩ := List.mem_filter.mp member
    obtain ⟨handle, shape⟩ := inv.detached member
    obtain ⟨handle', found, same⟩ := after shape.found
    refine ⟨handle', ?_, found, ?_, ?_⟩
    · rw [states, Function.update_of_ne (by simpa using other), shape.state]
    · exact (congrArg (·.owner) same : handle'.owner = handle.owner).trans shape.owner
    · exact (congrArg (·.conn) same : handle'.conn = handle.conn).trans shape.conn
  · intro s' h found
    rw [states] at found
    rcases eq_or_ne s' s with rfl | other
    · rw [Function.update_self] at found
      cases found
    · rw [Function.update_of_ne other] at found
      rcases inv.held found with ⟨c, member⟩ | member
      · exact .inl ⟨c, Ledger.reset_mem.mpr ⟨member, other⟩⟩
      · exact .inr (List.mem_filter.mpr ⟨member, by simpa using other⟩)
  · intro c missing
    exact congrArg (List.filter _) (inv.gone (conns missing))

/-- The callback when the state has no handle on any list. -/
theorem Inv.callback_idle (inv : Inv m ledger) {s : Address}
    (idle : ∀ c h, (s, h) ∉ ledger.begun c) :
    Inv (m.put_state s ⟨none⟩) (ledger.record (.reset s)) := by
  refine inv.forget ?_ (fun _ => rfl) rfl ?_ fun missing => missing
  · intro c conn found
    rw [Ledger.handles, Ledger.reset_begun (idle c)]
    exact inv.chain found
  · intro c s' h handle member _ found
    obtain ⟨handle', shape⟩ := inv.begun member
    rw [shape.found, Option.some.injEq] at found
    rw [← found]
    exact shape.context

/-- The release of a handle that is on the list of its connection. -/
theorem Inv.release (inv : Inv m ledger) {c s h : Address} (member : (s, h) ∈ ledger.begun c) :
    ∃ n m', ch_binary_release_insert n m h = some m' ∧
      Inv (m'.put_state s ⟨none⟩) (ledger.record (.reset s)) := by
  obtain ⟨handle, shape⟩ := inv.begun member
  obtain ⟨conn, alive⟩ := inv.alive member
  have holds : ledger.Holds s h := .inl ⟨c, member⟩
  -- whether the flag is set or not
  obtain ⟨m₁, flagged, inv₁, conn₁, alive₁, handles₁, contexts₁, states₁⟩ :
      ∃ m₁, (if handle.finalized then m else m.put_conn c { conn with broken := true }) = m₁ ∧
        Inv m₁ ledger ∧ ∃ conn₁, m₁.conns c = some conn₁ ∧ m₁.handles = m.handles ∧
        m₁.contexts = m.contexts ∧ m₁.states = m.states := by
    split
    · exact ⟨m, rfl, inv, conn, alive, rfl, rfl, rfl⟩
    · exact ⟨_, rfl, inv.kept (kept_broken alive true), _, Memory.put_conn_same .., rfl, rfl, rfl⟩
  have listed : h ∈ ledger.handles c := Ledger.mem_handles.mpr ⟨s, member⟩
  have loaded : m₁.load (.inserts c) = some conn₁.inserts := by
    rw [Memory.load, alive₁, Option.map_some]
  obtain ⟨m₂, p, unlinked, reloaded, chain₂, relinked⟩ :=
    unlink_spec (inv₁.chain alive₁) loaded (inv₁.nodup c) (fun _ _ => by simp) listed
  have context₂ : m₂.contexts handle.cxt = some c := by
    rw [relinked.contexts, contexts₁, shape.context]
  refine ⟨(ledger.handles c).length,
    { m₂ with contexts := Function.update m₂.contexts handle.cxt none }, ?_, ?_⟩
  · simp only [ch_binary_release_insert, shape.found, shape.conn, alive, bind, Option.bind_some]
    rw [flagged, unlinked, Option.bind_some, delete_context_spec context₂]
  have idle {c'} (other : c' ≠ c) : ∀ h', (s, h') ∉ ledger.begun c' := by
    intro h' present
    have same := inv.same_handle (.inl ⟨c', present⟩) holds
    subst same
    exact other (inv.same_conn present member)
  refine inv₁.forget ?_ relinked.fields ?_ ?_ ?_
  · intro c' conn' found
    rcases eq_or_ne c' c with rfl | other
    · have found : m₂.conns c' = some conn' := found
      rw [Memory.load, found, Option.map_some, Option.some.injEq] at reloaded
      rw [reloaded, inv.reset_handles member]
      exact chain₂
    · have found : m₂.conns c' = some conn' := found
      rw [relinked.conns c' (by simpa using other.symm)] at found
      rw [Ledger.handles, Ledger.reset_begun (idle other)]
      refine (inv₁.chain found).congr fun a inside => ?_
      obtain ⟨s', inside⟩ := Ledger.mem_handles.mp inside
      have outside : a ∉ ledger.handles c := by
        intro inside'
        obtain ⟨s'', inside'⟩ := Ledger.mem_handles.mp inside'
        exact other (inv.same_conn inside inside')
      have kept := relinked.handles a outside (by simp)
      exact congrArg (Option.map (·.next)) kept
  · exact congrArg (fun states => Function.update states s (some ⟨none⟩)) relinked.states
  · intro c' s' h' handle' present other found
    have apart : handle'.cxt ≠ handle.cxt := by
      intro same
      rw [handles₁] at found
      have both := inv.buffers present member found shape.found same
      subst both
      exact other (inv.same_state (.inl ⟨c', present⟩) holds)
    obtain ⟨handle'', shape''⟩ := inv₁.begun present
    rw [shape''.found, Option.some.injEq] at found
    subst found
    refine (Function.update_of_ne apart ..).trans ?_
    rw [relinked.contexts, shape''.context]
  · intro c' missing
    have same := relinked.broken c'
    have missing : m₂.conns c' = none := missing
    rw [missing, Option.map_none] at same
    exact Option.map_eq_none_iff.mp same.symm

/-- The callback leaves a state without a handle, and a memory as if the state was never
there. -/
theorem Inv.callback (inv : Inv m ledger) {s : Address} (present : (m.states s).isSome) :
    ∃ n m', binary_insert_state_free n m s = some m' ∧ m'.states s = some ⟨none⟩ ∧
      Inv m' (ledger.record (.reset s)) := by
  obtain ⟨⟨handle⟩, found⟩ := Option.isSome_iff_exists.mp present
  cases handle with
  | none =>
      have idle : ∀ c h, (s, h) ∉ ledger.begun c := by
        intro c h member
        obtain ⟨handle, shape⟩ := inv.begun member
        simpa using found.symm.trans shape.state
      have same : m.put_state s ⟨none⟩ = m := by
        rw [Memory.put_state, ← found, Function.update_eq_self]
      refine ⟨0, m, ?_, found, same ▸ inv.callback_idle idle⟩
      simp only [binary_insert_state_free, found, bind, Option.bind_some]
  | some h =>
      rcases inv.held found with ⟨c, member⟩ | member
      · obtain ⟨n, m', released, after⟩ := inv.release member
        refine ⟨n, _, ?_, Memory.put_state_same .., after⟩
        simp only [binary_insert_state_free, found, bind, Option.bind_some, released]
      · obtain ⟨handle, shape⟩ := inv.detached member
        have idle : ∀ c h, (s, h) ∉ ledger.begun c := by
          intro c h' member'
          have same := inv.same_handle (.inl ⟨c, member'⟩) (.inr member)
          subst same
          exact inv.not_detached member' member
        refine ⟨0, _, ?_, Memory.put_state_same .., inv.callback_idle idle⟩
        simp only [binary_insert_state_free, found, bind, Option.bind_some,
          ch_binary_release_insert, shape.found, shape.conn]

/-- Freeing what a state without a handle owns. -/
theorem Inv.freed (inv : Inv m ledger) {s : Address} (idle : m.states s = some ⟨none⟩) :
    Inv { m with
      states := Function.update m.states s none
      handles := fun h => if (m.handles h).any (·.owner = s) then none else m.handles h }
      ledger := by
  have state_ne {s' h} (holds : ledger.Holds s' h) : s' ≠ s := by
    rintro rfl
    have found := (inv.state_of_holds holds).1
    rw [idle] at found
    simp at found
  refine inv.kept ⟨?_, fun _ => rfl, ?_, ?_, fun found => found⟩
  · intro s' h handle holds found
    obtain ⟨-, handle', found', owner⟩ := inv.state_of_holds holds
    rw [found, Option.some.injEq] at found'
    subst found'
    refine ⟨handle.finalized, ?_⟩
    dsimp only
    rw [found, if_neg]
    simpa [owner] using state_ne holds
  · intro s' h holds
    exact Function.update_of_ne (state_ne holds) ..
  · intro s' h found
    have found : Function.update m.states s none s' = some ⟨some h⟩ := found
    rcases eq_or_ne s' s with rfl | other
    · rw [Function.update_self] at found
      cases found
    · rwa [Function.update_of_ne other] at found

theorem Inv.reset (inv : Inv m ledger) {s : Address} (present : (m.states s).isSome) :
    ∃ n m', MemoryContextReset n m s = some m' ∧ Inv m' (ledger.record (.reset s)) := by
  obtain ⟨n, m₁, freed, idle, after⟩ := inv.callback present
  refine ⟨n, _, ?_, after.freed idle⟩
  simp only [MemoryContextReset, freed, bind, Option.bind_some]

/-! ### Closing -/

/-- Closing a connection detaches the handles of its open inserts. -/
theorem Inv.close (inv : Inv m ledger) {c : Address} (present : (m.conns c).isSome) :
    ∃ n m', ch_binary_close n m c = some m' ∧ Inv m' (ledger.record (.close c)) := by
  obtain ⟨conn, found⟩ := Option.isSome_iff_exists.mp present
  obtain ⟨m₁, detached, handles₁, conns₁, states₁, contexts₁⟩ := detach_spec (inv.chain found)
  have alive₁ : m₁.conns c = some conn := by rw [conns₁, found]
  refine ⟨(ledger.handles c).length, { (m₁.put_conn c { conn with inserts := none }) with
    conns := Function.update (m₁.put_conn c { conn with inserts := none }).conns c none
    contexts := fun x => if m₁.contexts x = some c then none else m₁.contexts x }, ?_, ?_⟩
  · simp only [ch_binary_close, ch_binary_detach_inserts, found, detached, bind, Option.bind_some,
      Memory.store, alive₁, Option.map_some]
    rfl
  have conns {a} (other : a ≠ c) : Function.update
      (m₁.put_conn c { conn with inserts := none }).conns c none a = m.conns a := by
    rw [Function.update_of_ne other, Memory.put_conn_of_ne other, conns₁]
  have links : m₁.next = m.next := by
    funext a
    rw [Memory.next, handles₁ a, Memory.next]
    split
    · cases m.handles a <;> rfl
    · rfl
  have begun_of_ne {a} (other : a ≠ c) :
      (ledger.record (.close c)).begun a = ledger.begun a := Function.update_of_ne other ..
  have begun_same : (ledger.record (.close c)).begun c = [] := Function.update_self ..
  have kept {s h a} (other : a ≠ c) (member : (s, h) ∈ ledger.begun a) :
      m₁.handles h = m.handles h := by
    rw [handles₁ h, if_neg]
    intro inside
    obtain ⟨s', inside⟩ := Ledger.mem_handles.mp inside
    exact other (inv.same_conn member inside)
  have others {a s h} (member : (s, h) ∈ (ledger.record (.close c)).begun a) :
      a ≠ c ∧ (s, h) ∈ ledger.begun a := by
    rcases eq_or_ne a c with rfl | other
    · rw [begun_same] at member
      cases member
    · exact ⟨other, begun_of_ne other ▸ member⟩
  refine ⟨?_, ?_, ?_, ?_, ?_, ?_, ?_⟩
  · intro a conn' alive
    dsimp only at alive
    rcases eq_or_ne a c with rfl | other
    · rw [Function.update_self] at alive
      cases alive
    · rw [conns other] at alive
      rw [Ledger.handles, begun_of_ne other]
      exact (inv.chain alive).congr fun a _ => congrFun links a
  · intro a
    rcases eq_or_ne a c with rfl | other
    · rw [Ledger.handles, begun_same]
      exact List.nodup_nil
    · rw [Ledger.handles, begun_of_ne other]
      exact inv.nodup a
  · intro a s h member
    obtain ⟨other, member⟩ := others member
    obtain ⟨handle, shape⟩ := inv.begun member
    refine ⟨handle, ?_, (kept other member).trans shape.found, shape.owner, shape.conn, ?_⟩
    · exact (congrFun states₁ s).trans shape.state
    · dsimp only
      rw [contexts₁, shape.context, if_neg fun same => other (Option.some.inj same)]
  · intro c₁ c₂ s₁ s₂ h₁ h₂ handle₁ handle₂ first second found₁ found₂ same
    obtain ⟨other₁, member₁⟩ := others first
    obtain ⟨other₂, member₂⟩ := others second
    exact inv.buffers member₁ member₂ ((kept other₁ member₁).symm.trans found₁)
      ((kept other₂ member₂).symm.trans found₂) same
  · intro s h member
    rcases List.mem_append.mp member with begun | before
    · obtain ⟨handle, shape⟩ := inv.begun begun
      refine ⟨{ handle with conn := none }, ?_, ?_, shape.owner, rfl⟩
      · exact (congrFun states₁ s).trans shape.state
      · refine (handles₁ h).trans ?_
        rw [if_pos (Ledger.mem_handles.mpr ⟨s, begun⟩), shape.found, Option.map_some]
    · obtain ⟨handle, shape⟩ := inv.detached before
      refine ⟨handle, ?_, ?_, shape.owner, shape.conn⟩
      · exact (congrFun states₁ s).trans shape.state
      · refine (handles₁ h).trans ?_
        rw [if_neg, shape.found]
        intro inside
        obtain ⟨s', inside⟩ := Ledger.mem_handles.mp inside
        exact inv.not_detached inside before
  · intro s h state
    have state : m.states s = some ⟨some h⟩ := (congrFun states₁ s).symm.trans state
    rcases inv.held state with ⟨a, member⟩ | member
    · rcases eq_or_ne a c with rfl | other
      · exact .inr (List.mem_append_left _ member)
      · exact .inl ⟨a, (begun_of_ne other).symm ▸ member⟩
    · exact .inr (List.mem_append_right _ member)
  · intro a missing
    rcases eq_or_ne a c with rfl | other
    · exact begun_same
    · rw [begun_of_ne other]
      dsimp only at missing
      rw [conns other] at missing
      exact inv.gone missing

/-! ## Every run -/

/-- What the caller may do has a result, and keeps the invariant. -/
theorem Inv.exec (inv : Inv m ledger) {event : Event} (allowed : Allowed m event) :
    ∃ n m', Inserts.exec n m event = some m' ∧ Inv m' (ledger.record event) := by
  cases event with
  | connect c => exact ⟨0, _, rfl, inv.connect allowed⟩
  | prepare c s h x entering =>
      obtain ⟨m', done, after⟩ := inv.prepare entering allowed
      exact ⟨0, m', done, after⟩
  | flush s broken =>
      obtain ⟨h, found⟩ := allowed
      obtain ⟨m', sent, after⟩ := inv.send (inv.held found) broken
      refine ⟨0, m', ?_, after⟩
      simp only [Inserts.exec, found, bind, Option.bind_some, ch_binary_flush_block, sent]
  | finalize s broken =>
      obtain ⟨m', done, after⟩ := inv.finalize allowed broken
      exact ⟨0, m', done, after⟩
  | reset s => exact inv.reset allowed
  | close c => exact inv.close allowed

theorem Inv.run {run : Memory × Ledger} (reached : Runs.Reachable init step run) :
    Inv run.1 run.2 := by
  refine reached.invariant (I := fun run => Inv run.1 run.2) ?_ ?_
  · rintro _ rfl
    exact .empty
  · intro before event after _ inv taken
    obtain ⟨allowed, ⟨n, done⟩, recorded⟩ := taken
    obtain ⟨n', m', done', after'⟩ := inv.exec allowed
    rw [recorded, exec_unique done done']
    exact after'

/-- What a connection and the handles begun on it are like between two operations. -/
structure Exact (m : Memory) (ledger : Ledger) : Prop where
  listed : ∀ c conn, m.conns c = some conn →
    ∃ handles, Chain m.next conn.inserts handles ∧ handles.Nodup ∧
      ∀ h, h ∈ handles ↔ ∃ s, (s, h) ∈ ledger.begun c
  safe : ∀ event, Allowed m event → ∃ n m', exec n m event = some m'
  closes : ∀ c n m', (m.conns c).isSome → exec n m (.close c) = some m' →
    m'.conns c = none ∧
      ∀ s h, (s, h) ∈ ledger.begun c → ∃ handle, m'.handles h = some handle ∧ handle.conn = none
  apart : ∀ s h, (s, h) ∈ ledger.detached →
    ∃ handle, m.handles h = some handle ∧ handle.conn = none ∧
      ∀ n m', m'.handles h = some handle → ch_binary_release_insert n m' h = some m'

/-- The list of a connection over every run. -/
theorem inserts_exact {m : Memory} {ledger : Ledger}
    (reached : Runs.Reachable init step (m, ledger)) : Exact m ledger := by
  have inv := Inv.run reached
  refine ⟨?_, ?_, ?_, ?_⟩
  · intro c conn found
    exact ⟨_, inv.chain found, inv.nodup c, fun h => Ledger.mem_handles⟩
  · intro event allowed
    obtain ⟨n, m', done, -⟩ := inv.exec allowed
    exact ⟨n, m', done⟩
  · intro c n m' present done
    obtain ⟨n', m'', done', after⟩ := inv.close present
    have closed : exec n' m (.close c) = some m'' := done'
    have same := exec_unique done closed
    subst same
    refine ⟨?_, fun s h member => ?_⟩
    · obtain ⟨m₁, -, closed⟩ := Option.bind_eq_some_iff.mp done'
      rw [← Option.some.inj closed]
      exact Function.update_self ..
    · obtain ⟨handle, shape⟩ := after.detached (List.mem_append_left _ member)
      exact ⟨handle, shape.found, shape.conn⟩
  · intro s h member
    obtain ⟨handle, shape⟩ := inv.detached member
    refine ⟨handle, shape.found, shape.conn, fun n m' found => ?_⟩
    simp only [ch_binary_release_insert, found, shape.conn, bind, Option.bind_some]

/-! ### An insert whose connection is closed -/

def play (n : Nat) (run : Memory × Ledger) (event : Event) : Memory × Ledger :=
  ((exec n run.1 event).getD run.1, run.2.record event)

theorem play_reached {run : Memory × Ledger} (reached : Runs.Reachable init step run)
    {event : Event} {n : Nat} (allowed : Allowed run.1 event)
    (done : (exec n run.1 event).isSome) : Runs.Reachable init step (play n run event) := by
  refine reached.next (e := event) ⟨allowed, ⟨n, ?_⟩, rfl⟩
  obtain ⟨m', result⟩ := Option.isSome_iff_exists.mp done
  rw [play, result, Option.getD_some]

def connected : Memory × Ledger := play 0 (.empty, .empty) (.connect 0)

def inserting : Memory × Ledger := play 0 connected (.prepare 0 1 2 3 .entered)

theorem inserts_exact_closed :
    Exact (play 1 inserting (.close 0)).1 (play 1 inserting (.close 0)).2 := by
  have first : Runs.Reachable init step connected := play_reached (.start rfl) rfl rfl
  have second : Runs.Reachable init step inserting := play_reached first ⟨rfl, rfl, rfl, rfl⟩ rfl
  have present : Allowed inserting.1 (.close 0) := by
    change (inserting.1.conns 0).isSome = true
    rfl
  have third : Runs.Reachable init step (play 1 inserting (.close 0)) :=
    play_reached second present rfl
  exact inserts_exact third

end PgClickhouse.Inserts

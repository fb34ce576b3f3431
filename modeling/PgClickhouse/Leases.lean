import PgClickhouse.Connection

/-!
# Leases on connections

What the connection cache guarantees to the holders of leases, in every state a backend
reaches, whatever the order of acquisitions, releases, memory-context resets,
invalidations, broken connections and transaction ends.

* `Inv`: every open connection has one owner, an entry or the list of private
  connections; a live lease holds its owner, busy or listed.
* `Inv.apply`: every event preserves it.
* `leasesSafe_of_reachable`: the guarantees.
-/

namespace PgClickhouse.Connection

variable {st : Backend}

/-! ## Reading entries -/

namespace Backend

theorem lookup_userid (st : Backend) (umid : Nat) : (st.lookup umid).userid = umid := by
  unfold lookup
  cases found : Keyed.find ConnCacheEntry.userid umid st.ConnectionHash with
  | none => rfl
  | some entry => exact Keyed.key_of_find found

theorem lookup_gate (st : Backend) (umid : Nat) : (st.lookup umid).gate = st.gateOf umid := by
  unfold lookup gateOf
  cases Keyed.find ConnCacheEntry.userid umid st.ConnectionHash <;> rfl

theorem lookup_busy (st : Backend) (umid : Nat) : (st.lookup umid).busy = st.busyAt umid := by
  unfold lookup busyAt
  cases Keyed.find ConnCacheEntry.userid umid st.ConnectionHash <;> rfl

theorem gateOf_put (st : Backend) (entry : ConnCacheEntry) (umid : Nat) :
    (st.put entry).gateOf umid = if entry.userid = umid then entry.gate else st.gateOf umid := by
  unfold gateOf put
  rw [Keyed.find_insertWith (fun _ _ _ => rfl)]
  split
  · cases Keyed.find ConnCacheEntry.userid umid st.ConnectionHash <;> rfl
  · rfl

theorem busyAt_put (st : Backend) (entry : ConnCacheEntry) (umid : Nat) :
    (st.put entry).busyAt umid = if entry.userid = umid then entry.busy else st.busyAt umid := by
  unfold busyAt put
  rw [Keyed.find_insertWith (fun _ _ _ => rfl)]
  split
  · cases Keyed.find ConnCacheEntry.userid umid st.ConnectionHash <;> rfl
  · rfl

end Backend

/-! ## The invariant -/

/-- What a lease holds while it is live: its entry, busy and still on the same
connection, or a listed private connection. -/
def Backend.Holds (st : Backend) (sconn : ch_scan_connection) : Prop :=
  match sconn.entry with
  | some umid => st.busyAt umid = true ∧ sconn.gate.isSome ∧ st.gateOf umid = sconn.gate
  | none => ∃ held ∈ st.PrivateConnections, sconn.gate = some held

/-- A lease keeps its hold where busy connected entries keep their mark and connection,
and its private connection stays listed. -/
theorem Backend.Holds.transfer {st' : Backend} {sconn : ch_scan_connection}
    (holds : st.Holds sconn)
    (entries : ∀ k, st.busyAt k = true → (st.gateOf k).isSome →
      st'.busyAt k = true ∧ st'.gateOf k = st.gateOf k)
    (privates : ∀ c ∈ st.PrivateConnections, sconn.gate = some c →
      c ∈ st'.PrivateConnections) : st'.Holds sconn := by
  unfold Backend.Holds at holds ⊢
  split at holds
  · obtain ⟨busy, connected, owner⟩ := holds
    obtain ⟨busy', owner'⟩ := entries _ busy (owner ▸ connected)
    exact ⟨busy', connected, owner'.trans owner⟩
  · obtain ⟨c, listed, gate⟩ := holds
    exact ⟨c, privates c listed gate, gate⟩

structure Inv (st : Backend) : Prop where
  /-- The hash table has one entry for each key. -/
  keys : (st.ConnectionHash.map ConnCacheEntry.userid).Nodup
  /-- Open connections are at different addresses. -/
  address : ∀ c ∈ st.heap, ∀ d ∈ st.heap, c.conn = d.conn → c = d
  /-- Entries and the private list own open connections only. -/
  entry_open : ∀ {k c}, st.gateOf k = some c → c ∈ st.heap
  private_open : ∀ {c}, c ∈ st.PrivateConnections → c ∈ st.heap
  /-- Every open connection has an owner, and only one. -/
  owned : ∀ {c}, c ∈ st.heap → c ∈ st.PrivateConnections ∨ ∃ k, st.gateOf k = some c
  entry_once : ∀ {k k' c}, st.gateOf k = some c → st.gateOf k' = some c → k = k'
  private_once : st.PrivateConnections.Nodup
  entry_not_private : ∀ {k c}, st.gateOf k = some c → c ∉ st.PrivateConnections
  /-- A lease knows its own address, and was not made in a later transaction. -/
  lease_self : ∀ {i : Nat} {lease : ch_lease}, st.leases[i]? = some lease →
    lease.sconn.lease = some i
  lease_generation_le : ∀ {i : Nat} {lease : ch_lease}, st.leases[i]? = some lease →
    lease.generation ≤ st.lease_generation
  /-- A live lease holds its connection, alone. -/
  held : ∀ {i lease}, st.Live i lease → st.Holds lease.sconn
  alone : ∀ {i j lease other}, st.Live i lease → st.Live j other →
    lease.sconn.gate = other.sconn.gate → i = j

theorem inv_initial : Inv Backend.initial where
  keys := List.nodup_nil
  address := by simp [Backend.initial]
  entry_open := by simp [Backend.initial, Backend.gateOf]
  private_open := by simp [Backend.initial]
  owned := by simp [Backend.initial]
  entry_once := by simp [Backend.initial, Backend.gateOf]
  private_once := List.nodup_nil
  entry_not_private := by simp [Backend.initial, Backend.gateOf]
  lease_self := by simp [Backend.initial]
  lease_generation_le := by simp [Backend.initial]
  held := by simp [Backend.initial, Backend.Live]
  alone := by simp [Backend.initial, Backend.Live]

/-- An event that changes neither connections nor leases, and takes no busy mark away. -/
theorem Inv.of_marks {st' : Backend} (h : Inv st)
    (keys : (st'.ConnectionHash.map ConnCacheEntry.userid).Nodup)
    (gates : ∀ k, st'.gateOf k = st.gateOf k)
    (marks : ∀ k, st.busyAt k = true → st'.busyAt k = true)
    (privates : st'.PrivateConnections = st.PrivateConnections) (heap : st'.heap = st.heap)
    (leases : st'.leases = st.leases) (generation : st'.lease_generation = st.lease_generation) :
    Inv st' where
  keys := keys
  address := by rw [heap]; exact h.address
  entry_open owner := by rw [heap]; exact h.entry_open (gates _ ▸ owner)
  private_open := by rw [privates, heap]; exact h.private_open
  owned member := by
    simp only [gates, privates]
    exact h.owned (heap ▸ member)
  entry_once owner owner' := h.entry_once (gates _ ▸ owner) (gates _ ▸ owner')
  private_once := privates ▸ h.private_once
  entry_not_private owner := by rw [privates]; exact h.entry_not_private (gates _ ▸ owner)
  lease_self := by rw [leases]; exact h.lease_self
  lease_generation_le := by rw [leases, generation]; exact h.lease_generation_le
  held live := by
    rw [Backend.Live, leases, generation] at live
    exact (h.held live).transfer (fun k busy _ => ⟨marks k busy, gates k⟩)
      (fun c listed _ => privates ▸ listed)
  alone := by
    simp only [Backend.Live, leases, generation]
    exact h.alone

/-- Writing back an entry with its connection, and at least as busy. -/
theorem Inv.put {entry : ConnCacheEntry} (h : Inv st) (gate : entry.gate = st.gateOf entry.userid)
    (busy : st.busyAt entry.userid = true → entry.busy = true) : Inv (st.put entry) := by
  refine h.of_marks ?_ ?_ ?_ rfl rfl rfl rfl
  · exact Keyed.nodup_insertWith (fun _ _ _ => rfl) h.keys
  · intro k
    rw [Backend.gateOf_put]
    split
    · rename_i same
      rw [gate, same]
    · rfl
  · intro k marked
    rw [Backend.busyAt_put]
    split
    · rename_i same
      exact busy (same ▸ marked)
    · exact marked

/-- The same owners under another list of leases, of which no new one is live. -/
theorem Inv.of_leases {leases' : List ch_lease} (h : Inv st)
    (kept : ∀ {i : Nat} {lease' : ch_lease}, leases'[i]? = some lease' →
      ∃ lease, st.leases[i]? = some lease ∧ lease'.sconn = lease.sconn ∧
        lease'.generation = lease.generation ∧
        (lease'.released = false → lease.released = false)) :
    Inv { st with leases := leases' } := by
  have live : ∀ {i lease'}, Backend.Live { st with leases := leases' } i lease' →
      ∃ lease, st.Live i lease ∧ lease'.sconn = lease.sconn := by
    intro i lease' live'
    obtain ⟨lease, found, sconn, generation, released⟩ := kept live'.1
    exact ⟨lease, ⟨found, released live'.2.1, generation ▸ live'.2.2⟩, sconn⟩
  exact
    { h with
      lease_self := by
        intro i lease' found
        obtain ⟨lease, found, sconn, -⟩ := kept found
        exact sconn ▸ h.lease_self found
      lease_generation_le := by
        intro i lease' found
        obtain ⟨lease, found, -, generation, -⟩ := kept found
        exact generation ▸ h.lease_generation_le found
      held := by
        intro i lease' live'
        obtain ⟨lease, isLive, sconn⟩ := live live'
        exact sconn ▸ h.held isLive
      alone := by
        intro i j lease' other' live' otherLive' same
        obtain ⟨lease, isLive, sconn⟩ := live live'
        obtain ⟨other, otherLive, sconn'⟩ := live otherLive'
        exact h.alone isLive otherLive (by rw [← sconn, ← sconn', same]) }

/-! ## Connecting -/

/-- Closing the connection of an entry that is not busy. -/
theorem Inv.close {umid : Nat} {c : ch_connection} {entry : ConnCacheEntry} (h : Inv st)
    (owner : st.gateOf umid = some c) (idle : st.busyAt umid = false)
    (userid : entry.userid = umid) (closed : entry.gate = none) :
    Inv ((st.disconnect c).put entry) := by
  have gates : ∀ {k d}, ((st.disconnect c).put entry).gateOf k = some d →
      k ≠ umid ∧ st.gateOf k = some d := by
    intro k d gate
    rw [Backend.gateOf_put, userid] at gate
    split at gate
    · rw [closed] at gate
      cases gate
    · rename_i other
      exact ⟨Ne.symm other, gate⟩
  have distinct : ∀ {k d}, k ≠ umid → st.gateOf k = some d → d ≠ c := by
    intro k d other gate same
    exact other (h.entry_once (same ▸ gate) owner)
  have inHeap : ∀ {d}, d ∈ ((st.disconnect c).put entry).heap ↔ d ∈ st.heap ∧ d ≠ c := by
    simp [Backend.disconnect, Backend.put]
  refine
    { keys := Keyed.nodup_insertWith (fun _ _ _ => rfl) h.keys
      address := fun d hd d' hd' =>
        h.address d (inHeap.mp hd).1 d' (inHeap.mp hd').1
      entry_open := ?_
      private_open := ?_
      owned := ?_
      entry_once := fun gate gate' => h.entry_once (gates gate).2 (gates gate').2
      private_once := h.private_once
      entry_not_private := fun gate => h.entry_not_private (gates gate).2
      lease_self := h.lease_self
      lease_generation_le := h.lease_generation_le
      held := ?_
      alone := h.alone }
  · intro k d gate
    obtain ⟨other, gate⟩ := gates gate
    exact inHeap.mpr ⟨h.entry_open gate, distinct other gate⟩
  · intro d listed
    refine inHeap.mpr ⟨h.private_open listed, ?_⟩
    rintro rfl
    exact h.entry_not_private owner listed
  · intro d member
    obtain ⟨member, differ⟩ := inHeap.mp member
    rcases h.owned member with listed | ⟨k, gate⟩
    · exact .inl listed
    · refine .inr ⟨k, ?_⟩
      have other : umid ≠ k := by
        rintro rfl
        exact differ (Option.some.inj (gate.symm.trans owner))
      rw [Backend.gateOf_put, userid, if_neg other]
      exact gate
  · intro i lease live
    refine (h.held live).transfer (fun k busy _ => ?_) (fun _ listed _ => listed)
    have other : umid ≠ k := by
      rintro rfl
      exact Bool.false_ne_true (idle.symm.trans busy)
    rw [Backend.busyAt_put, Backend.gateOf_put, userid, if_neg other, if_neg other]
    exact ⟨busy, rfl⟩

theorem Inv.close_if (h : Inv st) (umid : Nat) (stale : ConnCacheEntry → ch_connection → Bool) :
    Inv (st.close_if umid stale) := by
  have rewritten : Inv (st.put (st.lookup umid)) := by
    refine h.put ?_ ?_
    · rw [Backend.lookup_userid, Backend.lookup_gate]
    · rw [Backend.lookup_userid, Backend.lookup_busy]
      exact id
  unfold Backend.close_if
  simp only
  split
  · exact rewritten
  · rename_i c owner
    split
    · rename_i closing
      simp only [Bool.and_eq_true, Bool.not_eq_eq_eq_not, Bool.not_true] at closing
      exact h.close (st.lookup_gate umid ▸ owner) (st.lookup_busy umid ▸ closing.2)
        (st.lookup_userid umid) rfl
    · exact rewritten

theorem Inv.close_stale (h : Inv st) (umid : Nat) : Inv (st.close_stale umid) :=
  (h.close_if umid _).close_if umid _

/-- A new connection is none of the open ones. -/
theorem connected_not_mem {addr : Nat} (fresh : st.Fresh addr) : st.connected addr ∉ st.heap :=
  fun member => fresh _ member rfl

theorem address_connected {addr : Nat} (h : Inv st) (fresh : st.Fresh addr) :
    ∀ c ∈ st.connected addr :: st.heap, ∀ d ∈ st.connected addr :: st.heap,
      c.conn = d.conn → c = d := by
  intro c hc d hd same
  rcases List.mem_cons.mp hc with rfl | hc
  · rcases List.mem_cons.mp hd with rfl | hd
    · rfl
    · exact absurd same.symm (fresh d hd)
  · rcases List.mem_cons.mp hd with rfl | hd
    · exact absurd same (fresh c hc)
    · exact h.address c hc d hd same

/-- Connecting an entry that has no connection. -/
theorem Inv.connect {umid addr : Nat} {entry : ConnCacheEntry} (h : Inv st)
    (fresh : st.Fresh addr) (empty : st.gateOf umid = none) (userid : entry.userid = umid)
    (gate : entry.gate = some (st.connected addr)) :
    Inv ((st.clickhouse_connect addr).put entry) := by
  have gates : ∀ {k d}, ((st.clickhouse_connect addr).put entry).gateOf k = some d →
      (k = umid ∧ d = st.connected addr) ∨ (k ≠ umid ∧ st.gateOf k = some d) := by
    intro k d owner
    rw [Backend.gateOf_put, userid] at owner
    split at owner
    · rename_i same
      exact .inl ⟨same.symm, (Option.some.inj (gate.symm.trans owner)).symm⟩
    · rename_i other
      exact .inr ⟨Ne.symm other, owner⟩
  have newGate : ((st.clickhouse_connect addr).put entry).gateOf umid =
      some (st.connected addr) := by
    rw [Backend.gateOf_put, if_pos userid, gate]
  have oldGate : ∀ {k}, k ≠ umid →
      ((st.clickhouse_connect addr).put entry).gateOf k = st.gateOf k := by
    intro k other
    rw [Backend.gateOf_put, userid, if_neg (Ne.symm other)]
    rfl
  have notOld : ∀ {k}, st.gateOf k ≠ some (st.connected addr) :=
    fun owner => connected_not_mem fresh (h.entry_open owner)
  refine
    { keys := Keyed.nodup_insertWith (fun _ _ _ => rfl) h.keys
      address := address_connected h fresh
      entry_open := ?_
      private_open := fun listed => List.mem_cons_of_mem _ (h.private_open listed)
      owned := ?_
      entry_once := ?_
      private_once := h.private_once
      entry_not_private := ?_
      lease_self := h.lease_self
      lease_generation_le := h.lease_generation_le
      held := ?_
      alone := h.alone }
  · intro k d owner
    rcases gates owner with ⟨-, rfl⟩ | ⟨-, owner⟩
    · exact List.mem_cons_self
    · exact List.mem_cons_of_mem _ (h.entry_open owner)
  · intro d member
    rcases List.mem_cons.mp member with rfl | member
    · exact .inr ⟨umid, newGate⟩
    · rcases h.owned member with listed | ⟨k, owner⟩
      · exact .inl listed
      · have other : k ≠ umid := by
          rintro rfl
          exact Option.some_ne_none d (owner.symm.trans empty)
        exact .inr ⟨k, (oldGate other).trans owner⟩
  · intro k k' d owner owner'
    rcases gates owner with ⟨rfl, rfl⟩ | ⟨-, old⟩
    · rcases gates owner' with ⟨rfl, -⟩ | ⟨-, old'⟩
      · rfl
      · exact absurd old' notOld
    · rcases gates owner' with ⟨-, rfl⟩ | ⟨-, old'⟩
      · exact absurd old notOld
      · exact h.entry_once old old'
  · intro k d owner listed
    rcases gates owner with ⟨-, rfl⟩ | ⟨-, old⟩
    · exact connected_not_mem fresh (h.private_open listed)
    · exact h.entry_not_private old listed
  · intro i lease live
    refine (h.held live).transfer (fun k busy connected => ?_) (fun _ listed _ => listed)
    have other : k ≠ umid := by
      rintro rfl
      rw [empty] at connected
      cases connected
    refine ⟨?_, oldGate other⟩
    rw [Backend.busyAt_put, userid, if_neg (Ne.symm other)]
    exact busy

section

variable {hash : CacheId → Nat → Nat}

theorem Inv.get_connection_entry {user : UserMapping} {attempt : Option Nat} (h : Inv st)
    (fresh : ∀ addr ∈ attempt, (st.close_stale user.umid).Fresh addr) :
    Inv (st.get_connection_entry hash user attempt).1 := by
  have closed := h.close_stale user.umid
  unfold Backend.get_connection_entry
  simp only
  split
  · exact closed
  · rename_i empty
    rw [Backend.lookup_gate] at empty
    split
    · refine closed.put ?_ ?_
      · simp only [Backend.lookup_userid, Backend.lookup_gate]
      · simp only [Backend.lookup_userid, Backend.lookup_busy]
        exact id
    · exact closed.connect (fresh _ rfl) empty (Backend.lookup_userid _ _) rfl

/-- A connect that succeeds leaves the entry connected. -/
theorem gateOf_get_connection_entry {user : UserMapping} {attempt : Option Nat}
    (ok : (st.get_connection_entry hash user attempt).2 = true) :
    ((st.get_connection_entry hash user attempt).1.gateOf user.umid).isSome := by
  unfold Backend.get_connection_entry at ok ⊢
  simp only at ok ⊢
  split at ok
  · rename_i c owner
    rw [Backend.lookup_gate] at owner
    simp [owner]
  · cases attempt with
    | none => cases ok
    | some addr => simp [Backend.gateOf_put, Backend.lookup_userid]

/-! ## Lending -/

/-- A new live lease that alone holds its connection. -/
theorem Inv.lend {sconn : ch_scan_connection} (h : Inv st)
    (self : sconn.lease = some st.leases.length) (holds : st.Holds sconn)
    (alone : ∀ {j other}, st.Live j other → other.sconn.gate ≠ sconn.gate) :
    Inv { st with leases := st.leases ++ [⟨sconn, st.lease_generation, false, false⟩] } := by
  have known : ∀ {i : Nat} {lease : ch_lease},
      (st.leases ++ [⟨sconn, st.lease_generation, false, false⟩])[i]? = some lease →
        st.leases[i]? = some lease ∨
          (i = st.leases.length ∧ lease = ⟨sconn, st.lease_generation, false, false⟩) := by
    intro i lease found
    rcases Nat.lt_or_ge i st.leases.length with old | new
    · exact .inl (by rwa [List.getElem?_append_left old] at found)
    · rw [List.getElem?_append_right new, List.getElem?_singleton] at found
      split at found
      · rename_i first
        exact .inr ⟨by omega, (Option.some.inj found).symm⟩
      · cases found
  exact
    { h with
      lease_self := by
        intro i lease found
        rcases known found with old | ⟨rfl, rfl⟩
        · exact h.lease_self old
        · exact self
      lease_generation_le := by
        intro i lease found
        rcases known found with old | ⟨-, rfl⟩
        · exact h.lease_generation_le old
        · exact Nat.le_refl _
      held := by
        intro i lease live
        rcases known live.1 with old | ⟨-, rfl⟩
        · exact h.held ⟨old, live.2⟩
        · exact holds
      alone := by
        intro i j lease other live otherLive same
        rcases known live.1 with old | ⟨rfl, rfl⟩
        · rcases known otherLive.1 with old' | ⟨-, rfl⟩
          · exact h.alone ⟨old, live.2⟩ ⟨old', otherLive.2⟩ same
          · exact absurd same (alone ⟨old, live.2⟩)
        · rcases known otherLive.1 with old' | ⟨rfl, -⟩
          · exact absurd same.symm (alone ⟨old', otherLive.2⟩)
          · rfl }

/-- The connection of a live lease is open. -/
theorem Inv.open_of_live {i : Nat} {lease : ch_lease} (h : Inv st) (live : st.Live i lease) :
    ∃ c ∈ st.heap, lease.sconn.gate = some c := by
  have holds := h.held live
  unfold Backend.Holds at holds
  split at holds
  · obtain ⟨c, gate⟩ := Option.isSome_iff_exists.mp holds.2.1
    exact ⟨c, h.entry_open (holds.2.2.trans gate), gate⟩
  · obtain ⟨c, listed, gate⟩ := holds
    exact ⟨c, h.private_open listed, gate⟩

/-- A live lease on the connection of an entry is a lease on that entry. -/
theorem Inv.entry_of_gate {umid i : Nat} {c : ch_connection} {lease : ch_lease} (h : Inv st)
    (owner : st.gateOf umid = some c) (live : st.Live i lease)
    (same : lease.sconn.gate = some c) : lease.sconn.entry = some umid ∧ st.busyAt umid = true := by
  have holds := h.held live
  unfold Backend.Holds at holds
  split at holds
  · rename_i k entry
    have sameEntry : k = umid := h.entry_once (holds.2.2.trans same) owner
    exact ⟨entry.trans (congrArg some sameEntry), sameEntry ▸ holds.1⟩
  · obtain ⟨held, listed, gate⟩ := holds
    rw [same] at gate
    exact absurd (Option.some.inj gate ▸ listed) (h.entry_not_private owner)

/-- A new private connection. -/
theorem Inv.connect_private {addr : Nat} (h : Inv st) (fresh : st.Fresh addr) :
    Inv { st.clickhouse_connect addr with
      PrivateConnections := st.PrivateConnections ++ [st.connected addr] } := by
  have new := connected_not_mem fresh
  refine
    { keys := h.keys
      address := address_connected h fresh
      entry_open := fun owner => List.mem_cons_of_mem _ (h.entry_open owner)
      private_open := ?_
      owned := ?_
      entry_once := h.entry_once
      private_once := ?_
      entry_not_private := ?_
      lease_self := h.lease_self
      lease_generation_le := h.lease_generation_le
      held := ?_
      alone := h.alone }
  · intro c listed
    rcases List.mem_append.mp listed with old | added
    · exact List.mem_cons_of_mem _ (h.private_open old)
    · obtain rfl := List.mem_singleton.mp added
      exact List.mem_cons_self
  · intro c member
    rcases List.mem_cons.mp member with rfl | member
    · exact .inl (List.mem_append_right _ (List.mem_singleton_self _))
    · rcases h.owned member with listed | owner
      · exact .inl (List.mem_append_left _ listed)
      · exact .inr owner
  · refine List.nodup_append.mpr ⟨h.private_once, List.nodup_singleton _, ?_⟩
    intro a old b added same
    rw [List.mem_singleton.mp added] at same
    exact new (same ▸ h.private_open old)
  · intro k c owner listed
    rcases List.mem_append.mp listed with old | added
    · exact h.entry_not_private owner old
    · exact new (List.mem_singleton.mp added ▸ h.entry_open owner)
  · intro i lease live
    exact (h.held live).transfer (fun _ busy _ => ⟨busy, rfl⟩)
      (fun _ listed _ => List.mem_append_left _ listed)

theorem Inv.lend_entry {umid : Nat} {c : ch_connection} (h : Inv st)
    (owner : st.gateOf umid = some c) (idle : st.busyAt umid = false) :
    Inv { st.put { st.lookup umid with busy := true } with
      leases := st.leases ++ [⟨⟨(st.lookup umid).gate, some umid, some st.leases.length⟩,
        st.lease_generation, false, false⟩] } := by
  have userid : (st.lookup umid).userid = umid := st.lookup_userid umid
  have gate : (st.lookup umid).gate = some c := (st.lookup_gate umid).trans owner
  have marked : Inv (st.put { st.lookup umid with busy := true }) := by
    refine h.put ?_ (fun _ => rfl)
    simp only [Backend.lookup_userid, Backend.lookup_gate]
  refine marked.lend rfl ⟨?_, ?_, ?_⟩ ?_
  · rw [Backend.busyAt_put, if_pos userid]
  · simp only [gate, Option.isSome_some]
  · rw [Backend.gateOf_put, if_pos userid]
  · intro j other live same
    have busy := (h.entry_of_gate owner live (same.trans gate)).2
    exact Bool.false_ne_true (idle.symm.trans busy)

theorem Inv.lend_private {addr : Nat} (h : Inv st) (fresh : st.Fresh addr) :
    Inv { st.clickhouse_connect addr with
      PrivateConnections := st.PrivateConnections ++ [st.connected addr]
      leases := st.leases ++ [⟨⟨some (st.connected addr), none, some st.leases.length⟩,
        st.lease_generation, false, false⟩] } := by
  refine (h.connect_private fresh).lend rfl ⟨_, ?_, rfl⟩ ?_
  · exact List.mem_append_right _ (List.mem_singleton_self _)
  · intro j other live same
    obtain ⟨c, member, gate⟩ := h.open_of_live live
    rw [gate] at same
    exact connected_not_mem fresh (Option.some.inj same ▸ member)

theorem Inv.chfdw_get_scan_connection {user : UserMapping} {attempt second : Option Nat}
    (h : Inv st) (fresh : ∀ addr ∈ attempt, (st.close_stale user.umid).Fresh addr)
    (fresh' : ∀ addr ∈ second, (st.get_connection_entry hash user attempt).1.Fresh addr) :
    Inv (st.chfdw_get_scan_connection hash user attempt second) := by
  have entered : Inv (st.get_connection_entry hash user attempt).1 :=
    h.get_connection_entry fresh
  unfold Backend.chfdw_get_scan_connection
  simp only
  split
  · exact entered
  · rename_i ok
    rw [Bool.not_eq_true', Bool.not_eq_false] at ok
    obtain ⟨c, owner⟩ := Option.isSome_iff_exists.mp (gateOf_get_connection_entry ok)
    generalize (st.get_connection_entry hash user attempt).1 = st' at entered owner fresh' ⊢
    split
    · rename_i idle
      rw [Bool.not_eq_true', Backend.lookup_busy] at idle
      exact entered.lend_entry owner idle
    · split
      · exact entered
      · rename_i addr
        exact entered.lend_private (fresh' addr rfl)

end

/-! ## Releasing -/

/-- Setting a lease's `released` flag ends it and leaves the others alone. -/
theorem Inv.retire {i : Nat} {lease : ch_lease} (h : Inv st) (found : st.leases[i]? = some lease) :
    Inv { st with leases := st.leases.set i { lease with released := true } } ∧
      ∀ {j other}, Backend.Live { st with
          leases := st.leases.set i { lease with released := true } } j other →
        j ≠ i ∧ st.Live j other := by
  have inside : i < st.leases.length := (List.getElem?_eq_some_iff.mp found).1
  have known : ∀ {j : Nat} {other : ch_lease},
      (st.leases.set i { lease with released := true })[j]? = some other →
        (j = i ∧ other = { lease with released := true }) ∨
          (j ≠ i ∧ st.leases[j]? = some other) := by
    intro j other found'
    rcases eq_or_ne j i with rfl | differ
    · rw [List.getElem?_set_self inside] at found'
      exact .inl ⟨rfl, (Option.some.inj found').symm⟩
    · rw [List.getElem?_set_ne (Ne.symm differ)] at found'
      exact .inr ⟨differ, found'⟩
  constructor
  · refine h.of_leases ?_
    intro j other found'
    rcases known found' with ⟨rfl, rfl⟩ | ⟨-, old⟩
    · exact ⟨lease, found, rfl, rfl, nofun⟩
    · exact ⟨other, old, rfl, rfl, id⟩
  · rintro j other ⟨found', live⟩
    rcases known found' with ⟨-, rfl⟩ | ⟨differ, old⟩
    · cases live.1
    · exact ⟨differ, old, live⟩

theorem Inv.free (h : Inv st) (i : Nat) : Inv (st.free i) := by
  refine h.of_leases ?_
  intro j other found
  rw [List.getElem?_modify] at found
  cases old : st.leases[j]? with
  | none => rw [old] at found; cases found
  | some lease =>
      rw [old] at found
      simp only [Option.map_eq_map, Option.map_some, Option.some.injEq] at found
      refine ⟨lease, rfl, ?_⟩
      subst found
      split
      · exact ⟨rfl, rfl, id⟩
      · exact ⟨rfl, rfl, id⟩

/-- Clearing the mark of an entry that no live lease is on. -/
theorem Inv.unmark {umid : Nat} (h : Inv st)
    (unused : ∀ {j other}, st.Live j other → other.sconn.entry ≠ some umid) :
    Inv (st.put { st.lookup umid with busy := false }) := by
  have userid : (st.lookup umid).userid = umid := st.lookup_userid umid
  have gates : ∀ k, (st.put { st.lookup umid with busy := false }).gateOf k = st.gateOf k := by
    intro k
    rw [Backend.gateOf_put]
    split
    · rename_i same
      rw [Backend.lookup_gate, ← same, userid]
    · rfl
  refine
    { h with
      keys := Keyed.nodup_insertWith (fun _ _ _ => rfl) h.keys
      entry_open := fun owner => h.entry_open (gates _ ▸ owner)
      owned := fun member =>
        (h.owned member).imp_right fun ⟨k, owner⟩ => ⟨k, (gates k).trans owner⟩
      entry_once := fun owner owner' => h.entry_once (gates _ ▸ owner) (gates _ ▸ owner')
      entry_not_private := fun owner => h.entry_not_private (gates _ ▸ owner)
      held := ?_ }
  intro j other live
  have holds := h.held live
  unfold Backend.Holds at holds ⊢
  split at holds
  · rename_i k entry
    refine ⟨?_, holds.2.1, (gates k).trans holds.2.2⟩
    have differ : umid ≠ k := by
      rintro rfl
      exact unused live entry
    rw [Backend.busyAt_put, if_neg (userid.symm ▸ differ)]
    exact holds.1
  · exact holds

/-- Closing a private connection that no live lease holds. -/
theorem Inv.close_private {held : ch_connection} (h : Inv st)
    (listed : held ∈ st.PrivateConnections)
    (unused : ∀ {j other}, st.Live j other → other.sconn.gate ≠ some held) :
    Inv { st.disconnect held with PrivateConnections := st.PrivateConnections.erase held } := by
  have inHeap : ∀ {d}, d ∈ (st.disconnect held).heap ↔ d ∈ st.heap ∧ d ≠ held := by
    simp [Backend.disconnect]
  refine
    { h with
      address := fun d hd d' hd' => h.address d (inHeap.mp hd).1 d' (inHeap.mp hd').1
      entry_open := ?_
      private_open := ?_
      owned := ?_
      private_once := h.private_once.erase held
      entry_not_private := fun owner member =>
        h.entry_not_private owner (List.mem_of_mem_erase member)
      held := ?_ }
  · intro k c owner
    refine inHeap.mpr ⟨h.entry_open owner, ?_⟩
    rintro rfl
    exact h.entry_not_private owner listed
  · intro c member
    obtain ⟨differ, old⟩ := (h.private_once.mem_erase_iff).mp member
    exact inHeap.mpr ⟨h.private_open old, differ⟩
  · intro c member
    obtain ⟨member, differ⟩ := inHeap.mp member
    rcases h.owned member with old | owner
    · exact .inl ((h.private_once.mem_erase_iff).mpr ⟨differ, old⟩)
    · exact .inr owner
  · intro j other live
    refine (h.held live).transfer (fun _ busy _ => ⟨busy, rfl⟩) (fun c member gate => ?_)
    refine (h.private_once.mem_erase_iff).mpr ⟨?_, member⟩
    rintro rfl
    exact unused live gate

/-- Giving back what a lease that just ended held. -/
theorem Inv.give_back {sconn : ch_scan_connection} (h : Inv st) (holds : st.Holds sconn)
    (unused : ∀ {j other}, st.Live j other → other.sconn.gate ≠ sconn.gate) :
    Inv (st.give_back sconn) := by
  cases entry : sconn.entry with
  | some umid =>
      simp only [Backend.Holds, entry] at holds
      simp only [Backend.give_back, entry]
      refine h.unmark ?_
      intro j other live onEntry
      have otherHolds := h.held live
      simp only [Backend.Holds, onEntry] at otherHolds
      exact unused live (otherHolds.2.2.symm.trans holds.2.2)
  | none =>
      simp only [Backend.Holds, entry] at holds
      obtain ⟨c, listed, gate⟩ := holds
      simp only [Backend.give_back, entry]
      split
      · exact h
      · rename_i held found
        have heldListed : held ∈ st.PrivateConnections := List.mem_of_find?_eq_some found
        have sameAddress := List.find?_some found
        simp only [gate, Option.map_some, Option.some.injEq, decide_eq_true_eq] at sameAddress
        have same : held = c :=
          h.address _ (h.private_open heldListed) _ (h.private_open listed) sameAddress
        refine h.close_private heldListed ?_
        rw [same, ← gate]
        exact unused

/-- A release of a lease of the running transaction. -/
theorem Inv.chfdw_release_scan_connection {i : Nat} {lease : ch_lease} (h : Inv st)
    (found : st.leases[i]? = some lease) (current : lease.generation = st.lease_generation) :
    Inv (st.chfdw_release_scan_connection lease.sconn) := by
  unfold Backend.chfdw_release_scan_connection
  rw [h.lease_self found]
  simp only [found]
  split
  · exact h
  · rename_i unreleased
    have live : st.Live i lease := ⟨found, Bool.not_eq_true _ ▸ unreleased, current⟩
    obtain ⟨retired, others⟩ := h.retire found
    refine retired.give_back (h.held live) ?_
    intro j other otherLive same
    obtain ⟨differ, old⟩ := others otherLive
    exact differ (h.alone old live same)

theorem release_zero (st : Backend) : st.chfdw_release_scan_connection .zero = st := by
  have bare : st.chfdw_release_scan_connection .zero = st.give_back .zero := rfl
  rw [bare]
  unfold Backend.give_back
  split
  · rename_i entry
    cases entry
  · split
    · rfl
    · rename_i held found
      have matched := List.find?_some found
      simp [ch_scan_connection.zero] at matched

theorem Inv.release_lease {i : Nat} {lease : ch_lease} (h : Inv st)
    (found : st.leases[i]? = some lease) : Inv (st.release_lease i) := by
  unfold Backend.release_lease
  rw [found]
  simp only
  split
  · rename_i current
    exact (h.chfdw_release_scan_connection found current).free i
  · exact h.free i

/-! ## Invalidations and transaction ends -/

theorem Inv.chfdw_inval_callback (h : Inv st) (cacheid : CacheId) (hashvalue : Nat) :
    Inv (st.chfdw_inval_callback cacheid hashvalue) := by
  let mark : ConnCacheEntry → ConnCacheEntry := fun entry =>
    if entry.gate.isNone then entry
    else if hashvalue = 0 ∨
        (cacheid = .FOREIGNSERVEROID ∧ entry.server_hashvalue = hashvalue) ∨
        (cacheid = .USERMAPPINGOID ∧ entry.mapping_hashvalue = hashvalue) then
      { entry with invalidated := true }
    else entry
  have kept : ∀ entry, (mark entry).userid = entry.userid ∧ (mark entry).gate = entry.gate ∧
      (mark entry).busy = entry.busy := by
    intro entry
    simp only [mark]
    split
    · exact ⟨rfl, rfl, rfl⟩
    · split
      · exact ⟨rfl, rfl, rfl⟩
      · exact ⟨rfl, rfl, rfl⟩
  have found : ∀ k, Keyed.find ConnCacheEntry.userid k
      (st.chfdw_inval_callback cacheid hashvalue).ConnectionHash =
        (Keyed.find ConnCacheEntry.userid k st.ConnectionHash).map mark :=
    fun k => Keyed.find_map (fun entry => (kept entry).1) k st.ConnectionHash
  refine h.of_marks ?_ ?_ ?_ rfl rfl rfl rfl
  · have names : (st.ConnectionHash.map mark).map ConnCacheEntry.userid =
        st.ConnectionHash.map ConnCacheEntry.userid := by
      rw [List.map_map]
      exact List.map_congr_left fun entry _ => (kept entry).1
    exact names.symm ▸ h.keys
  · intro k
    rw [Backend.gateOf, found, Backend.gateOf]
    cases Keyed.find ConnCacheEntry.userid k st.ConnectionHash with
    | none => rfl
    | some entry => exact (kept entry).2.1
  · intro k
    rw [Backend.busyAt, Backend.busyAt, found]
    cases Keyed.find ConnCacheEntry.userid k st.ConnectionHash with
    | none => exact id
    | some entry => exact fun busy => (kept entry).2.2.trans busy

theorem settle_userid (entry : ConnCacheEntry) :
    (Backend.settle entry).userid = entry.userid := by
  unfold Backend.settle
  split
  · rfl
  · rfl

theorem settle_gate (entry : ConnCacheEntry) :
    (Backend.settle entry).gate = if entry.invalidated then none else entry.gate := by
  unfold Backend.settle
  split
  · rfl
  · rfl

theorem settle_invalidated (entry : ConnCacheEntry) :
    (Backend.settle entry).invalidated = entry.invalidated := by
  unfold Backend.settle
  split
  · rfl
  · rfl

theorem settle_busy (entry : ConnCacheEntry) : (Backend.settle entry).busy = false := by
  unfold Backend.settle
  split
  · rfl
  · rfl

section

variable {event : XactEvent}

theorem xact_of_ends (ends : event.ends = true) :
    (st.chfdw_xact_callback event).PrivateConnections = [] ∧
      (st.chfdw_xact_callback event).lease_generation = st.lease_generation + 1 ∧
      (st.chfdw_xact_callback event).ConnectionHash = st.ConnectionHash.map Backend.settle ∧
      (st.chfdw_xact_callback event).leases = st.leases := by
  unfold Backend.chfdw_xact_callback
  rw [if_pos ends]
  exact ⟨rfl, rfl, rfl, rfl⟩

/-- An entry keeps its connection over the end of a transaction unless it was
invalidated. -/
theorem gateOf_xact (ends : event.ends = true) (k : Nat) (c : ch_connection) :
    (st.chfdw_xact_callback event).gateOf k = some c ↔
      ∃ entry, Keyed.find ConnCacheEntry.userid k st.ConnectionHash = some entry ∧
        entry.gate = some c ∧ entry.invalidated = false := by
  rw [Backend.gateOf, (xact_of_ends ends).2.2.1, Keyed.find_map settle_userid]
  cases Keyed.find ConnCacheEntry.userid k st.ConnectionHash with
  | none => simp
  | some entry => cases marked : entry.invalidated <;> simp [settle_gate, marked]

theorem mem_heap_xact (ends : event.ends = true) (c : ch_connection) :
    c ∈ (st.chfdw_xact_callback event).heap ↔
      c ∈ st.heap ∧ c ∉ st.PrivateConnections ∧
        ∀ entry ∈ st.ConnectionHash, entry.gate = some c → entry.invalidated = false := by
  unfold Backend.chfdw_xact_callback
  rw [if_pos ends]
  simp only [List.mem_filter, Bool.and_eq_true, decide_eq_true_eq, List.all_eq_true,
    Bool.not_eq_eq_eq_not, Bool.not_true, Bool.and_eq_false_iff, decide_eq_false_iff_not]
  refine and_congr_right fun _ => and_congr_right fun _ => forall₂_congr fun entry _ => ?_
  tauto

/-- The end of a transaction ends every lease. -/
theorem not_live_xact (h : Inv st) (ends : event.ends = true) {i : Nat} {lease : ch_lease} :
    ¬ (st.chfdw_xact_callback event).Live i lease := by
  obtain ⟨-, generation, -, leases⟩ := @xact_of_ends st event ends
  rintro ⟨found, -, current⟩
  rw [leases] at found
  have older := h.lease_generation_le found
  omega

/-- After the end of a transaction, what is open is owned by an entry that is not
invalidated. -/
theorem owned_xact (h : Inv st) (ends : event.ends = true) {c : ch_connection}
    (member : c ∈ (st.chfdw_xact_callback event).heap) :
    ∃ k, (st.chfdw_xact_callback event).gateOf k = some c := by
  obtain ⟨member, unlisted, valid⟩ := (mem_heap_xact ends c).mp member
  rcases h.owned member with listed | ⟨k, owner⟩
  · exact absurd listed unlisted
  · refine ⟨k, (gateOf_xact ends k c).mpr ?_⟩
    obtain ⟨entry, found, gate⟩ := Option.bind_eq_some_iff.mp owner
    exact ⟨entry, found, gate, valid entry (Keyed.mem_of_find found) gate⟩

theorem Inv.chfdw_xact_callback (h : Inv st) (event : XactEvent) :
    Inv (st.chfdw_xact_callback event) := by
  cases ends : event.ends with
  | false =>
      rw [Backend.chfdw_xact_callback, if_neg (by simp [ends])]
      exact h
  | true =>
      obtain ⟨privates, generation, entries, leases⟩ := @xact_of_ends st event ends
      have older : ∀ {k c}, (st.chfdw_xact_callback event).gateOf k = some c →
          st.gateOf k = some c := by
        intro k c owner
        obtain ⟨entry, found, gate, -⟩ := (gateOf_xact ends k c).mp owner
        rw [Backend.gateOf, found]
        exact gate
      refine
        { keys := ?_
          address := ?_
          entry_open := ?_
          private_open := by rw [privates]; exact nofun
          owned := fun member => .inr (owned_xact h ends member)
          entry_once := fun owner owner' => h.entry_once (older owner) (older owner')
          private_once := privates ▸ List.nodup_nil
          entry_not_private := by rw [privates]; exact nofun
          lease_self := by rw [leases]; exact h.lease_self
          lease_generation_le := ?_
          held := fun live => absurd live (not_live_xact h ends)
          alone := fun live => absurd live (not_live_xact h ends) }
      · rw [entries, List.map_map]
        have names : st.ConnectionHash.map (ConnCacheEntry.userid ∘ Backend.settle) =
            st.ConnectionHash.map ConnCacheEntry.userid :=
          List.map_congr_left fun entry _ => settle_userid entry
        exact names.symm ▸ h.keys
      · intro c hc d hd
        exact h.address c ((mem_heap_xact ends c).mp hc).1 d ((mem_heap_xact ends d).mp hd).1
      · intro k c owner
        obtain ⟨entry, found, gate, valid⟩ := (gateOf_xact ends k c).mp owner
        refine (mem_heap_xact ends c).mpr
          ⟨h.entry_open (older owner), h.entry_not_private (older owner), ?_⟩
        intro other member otherGate
        have otherFound := Keyed.find_of_mem h.keys member
        have otherOwner : st.gateOf other.userid = some c := by
          rw [Backend.gateOf, otherFound]
          exact otherGate
        rw [← h.entry_once (older owner) otherOwner, found] at otherFound
        exact Option.some.inj otherFound ▸ valid
      · intro i lease found
        rw [leases] at found
        rw [generation]
        exact Nat.le_succ_of_le (h.lease_generation_le found)

end

/-! ## Every reachable state -/

theorem Inv.apply {hash : CacheId → Nat → Nat} {event : Event} (h : Inv st)
    (enabled : Enabled hash st event) : Inv (st.apply hash event) := by
  cases event with
  | acquire user attempt second => exact h.chfdw_get_scan_connection enabled.1 enabled.2
  | release sconn =>
      rcases enabled with rfl | ⟨i, lease, found, rfl, -, current⟩
      · have same : st.apply hash (.release .zero) = st := release_zero st
        rw [same]
        exact h
      · exact h.chfdw_release_scan_connection found current
  | reset i =>
      obtain ⟨lease, found, -⟩ := enabled
      exact h.release_lease found
  | version user attempt => exact h.get_connection_entry enabled
  | invalidate cacheid hashvalue => exact h.chfdw_inval_callback cacheid hashvalue
  | broke serial => exact h.of_marks h.keys (fun _ => rfl) (fun _ => id) rfl rfl rfl rfl
  | xact event => exact h.chfdw_xact_callback event

theorem inv_of_reachable {hash : CacheId → Nat → Nat} (reached : Reachable hash st) : Inv st :=
  reached.invariant (fun start => start ▸ inv_initial)
    (fun _ inv step => step.2 ▸ inv.apply step.1)

/-- What the holders of leases may rely on. -/
structure LeasesSafe (st : Backend) : Prop where
  /-- No two live leases hold the same connection. -/
  exclusive : ∀ {i j lease other}, st.Live i lease → st.Live j other →
    lease.sconn.gate.map (·.conn) = other.sconn.gate.map (·.conn) → i = j
  /-- The connection of a live lease is open. -/
  connected : ∀ {i lease}, st.Live i lease → ∃ c ∈ st.heap, lease.sconn.gate = some c
  /-- Releasing a lease a second time does nothing. -/
  released_twice : ∀ {i : Nat} {lease : ch_lease}, st.leases[i]? = some lease →
    lease.released = true → st.chfdw_release_scan_connection lease.sconn = st
  /-- A callback after an explicit release, or in a later transaction, only frees. -/
  stale_callback : ∀ {i : Nat} {lease : ch_lease}, st.leases[i]? = some lease →
    lease.released = true ∨ lease.generation ≠ st.lease_generation →
    st.release_lease i = st.free i
  /-- Whichever way a lease of this transaction is released, the other live leases keep
  their entries busy. -/
  keeps_others : ∀ {i j : Nat} {lease other : ch_lease} {umid : Nat},
    st.leases[i]? = some lease → lease.generation = st.lease_generation →
    st.Live j other → j ≠ i → other.sconn.entry = some umid →
    (st.chfdw_release_scan_connection lease.sconn).busyAt umid = true ∧
      (st.release_lease i).busyAt umid = true
  /-- Right after a transaction end nothing is lent, and only connections of entries that
  are not invalidated are open. -/
  transaction_end : ∀ {event : XactEvent}, event.ends = true →
    (∀ entry ∈ (st.chfdw_xact_callback event).ConnectionHash,
      entry.busy = false ∧ (entry.invalidated = true → entry.gate = none)) ∧
    (st.chfdw_xact_callback event).PrivateConnections = [] ∧
    ∀ c ∈ (st.chfdw_xact_callback event).heap,
      ∃ entry ∈ (st.chfdw_xact_callback event).ConnectionHash,
        entry.gate = some c ∧ entry.invalidated = false

theorem give_back_leases (st : Backend) (sconn : ch_scan_connection) :
    (st.give_back sconn).leases = st.leases ∧
      (st.give_back sconn).lease_generation = st.lease_generation := by
  unfold Backend.give_back
  split
  · exact ⟨rfl, rfl⟩
  · split
    · exact ⟨rfl, rfl⟩
    · exact ⟨rfl, rfl⟩

/-- Releasing a lease does not end another one. -/
theorem live_release {i j : Nat} {lease other : ch_lease} (h : Inv st)
    (found : st.leases[i]? = some lease) (live : st.Live j other) (differ : j ≠ i) :
    (st.chfdw_release_scan_connection lease.sconn).Live j other := by
  unfold Backend.chfdw_release_scan_connection
  rw [h.lease_self found]
  simp only [found]
  split
  · exact live
  · obtain ⟨leases, generation⟩ := give_back_leases
      { st with leases := st.leases.set i { lease with released := true } } lease.sconn
    refine ⟨?_, live.2.1, live.2.2.trans generation.symm⟩
    rw [leases, List.getElem?_set_ne (Ne.symm differ)]
    exact live.1

/-- Releasing a lease leaves the marks of other live leases. -/
theorem busyAt_release {i j umid : Nat} {lease other : ch_lease} (h : Inv st)
    (found : st.leases[i]? = some lease) (current : lease.generation = st.lease_generation)
    (live : st.Live j other) (differ : j ≠ i) (entry : other.sconn.entry = some umid) :
    (st.chfdw_release_scan_connection lease.sconn).busyAt umid = true := by
  have holds := (h.chfdw_release_scan_connection found current).held
    (live_release h found live differ)
  rw [Backend.Holds, entry] at holds
  exact holds.1

theorem busyAt_free (st : Backend) (i umid : Nat) : (st.free i).busyAt umid = st.busyAt umid :=
  rfl

theorem released_twice {i : Nat} {lease : ch_lease} (h : Inv st)
    (found : st.leases[i]? = some lease) (released : lease.released = true) :
    st.chfdw_release_scan_connection lease.sconn = st := by
  unfold Backend.chfdw_release_scan_connection
  rw [h.lease_self found]
  simp only [found, released, if_true]

/-- In every state a backend reaches, under any order of events, leases are safe. -/
theorem leasesSafe_of_reachable {hash : CacheId → Nat → Nat} (reached : Reachable hash st) :
    LeasesSafe st := by
  have h := inv_of_reachable reached
  refine
    { exclusive := ?_
      connected := h.open_of_live
      released_twice := fun found released => released_twice h found released
      stale_callback := ?_
      keeps_others := ?_
      transaction_end := ?_ }
  · intro i j lease other live otherLive same
    obtain ⟨c, member, gate⟩ := h.open_of_live live
    obtain ⟨d, member', gate'⟩ := h.open_of_live otherLive
    rw [gate, gate'] at same
    refine h.alone live otherLive ?_
    rw [gate, gate', h.address c member d member' (Option.some.inj same)]
  · intro i lease found stale
    unfold Backend.release_lease
    rw [found]
    simp only
    split
    · rename_i current
      rcases stale with released | old
      · rw [released_twice h found released]
      · exact absurd current old
    · rfl
  · intro i j lease other umid found current live differ entry
    have kept := busyAt_release h found current live differ entry
    refine ⟨kept, ?_⟩
    unfold Backend.release_lease
    rw [found]
    simp only [if_pos current, busyAt_free]
    exact kept
  · intro event ends
    obtain ⟨privates, -, entries, -⟩ := @xact_of_ends st event ends
    refine ⟨?_, privates, ?_⟩
    · intro entry member
      rw [entries] at member
      obtain ⟨old, -, rfl⟩ := List.mem_map.mp member
      refine ⟨settle_busy old, fun marked => ?_⟩
      rw [settle_invalidated] at marked
      rw [settle_gate, if_pos marked]
    · intro c member
      obtain ⟨k, owner⟩ := owned_xact h ends member
      obtain ⟨old, found, gate, valid⟩ := (gateOf_xact ends k c).mp owner
      rw [entries]
      refine ⟨Backend.settle old, List.mem_map_of_mem (Keyed.mem_of_find found), ?_, ?_⟩
      · rw [settle_gate, if_neg (by simp [valid]), gate]
      · rw [settle_invalidated, valid]

/-- A scan takes the cached connection, a second one a private connection, the server is
altered, and the transaction aborts before either is released. -/
theorem leasesSafe_of_reachable_abort :
    LeasesSafe ([Event.acquire ⟨1, 2⟩ (some 100) none, .acquire ⟨1, 2⟩ none (some 101),
      .invalidate .FOREIGNSERVEROID 7, .xact .ABORT].foldl
        (Backend.apply fun _ _ => 7) Backend.initial) := by
  refine leasesSafe_of_reachable (.next (e := .xact .ABORT)
    (.next (e := .invalidate .FOREIGNSERVEROID 7)
      (.next (e := .acquire ⟨1, 2⟩ none (some 101))
        (.next (e := .acquire ⟨1, 2⟩ (some 100) none) (.start rfl) ⟨⟨?_, ?_⟩, rfl⟩)
        ⟨⟨?_, ?_⟩, rfl⟩)
      ⟨trivial, rfl⟩)
    ⟨trivial, rfl⟩)
  · rintro _ ⟨⟩
    decide
  · rintro _ ⟨⟩
  · rintro _ ⟨⟩
  · rintro _ ⟨⟩
    decide

end PgClickhouse.Connection

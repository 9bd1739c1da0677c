import BenkerVpn.Session.Bijection

/-!
# Insertion into the partial bijection

`add_tcp_session` returns the session of the key, or adds one on a free port of the range, or gives
up. Only the key and the port of an added session are looked up differently afterwards
(`getTcpSessionByClient_createSession`, `getTcpSessionByServer_createSession`), whatever else stands
in their buckets (`addTcpSession_inserts`).
-/

set_option autoImplicit false

namespace BenkerVpn

open Library.Buckets

/-! ## Lookups after a creation -/

section Create

variable {m : Machine} (h : Indexes m) (ip : UInt32) (port q : UInt16) (timeout : Int)
include h

/-- The new session is found under its key, and every other key finds what it found before. -/
theorem getTcpSessionByClient_createSession (hs : getTcpSessionByClient m ip port = none)
    (ip' : UInt32) (port' : UInt16) :
    getTcpSessionByClient (createSession m ip port q timeout) ip' port' =
      if (ip', port') = (ip, port) then some m.brk else getTcpSessionByClient m ip' port' := by
  rw [getTcpSessionByClient_eq_lookup, getTcpSessionByClient_eq_lookup,
    createSession_listClientKey]
  apply h.client.lookup_insert
  · rw [clientKey, createSession_heap_brk]
    rfl
  · intro s hs
    rw [clientKey, clientKey, h.createSession_heap_client ip port q timeout hs]
  · exact (h.getByClient_eq_none_iff ip port).1 hs

/-- Likewise for its port. -/
theorem getTcpSessionByServer_createSession (hq : getTcpSessionByServer m q = none)
    (q' : UInt16) :
    getTcpSessionByServer (createSession m ip port q timeout) q' =
      if q' = q then some m.brk else getTcpSessionByServer m q' := by
  rw [getTcpSessionByServer_eq_lookup, getTcpSessionByServer_eq_lookup,
    createSession_listServerKey]
  apply h.server.lookup_insert
  · rw [serverKey, createSession_heap_brk]
    rfl
  · intro s hs
    rw [serverKey, serverKey, h.createSession_heap_server ip port q timeout hs]
  · exact (h.getByServer_eq_none_iff q).1 hq

end Create

/-! ## The three outcomes -/

/-- Both lookups return what they returned before, and the sessions read as before. -/
structure SameLookups (m m' : Machine) : Prop where
  heap_eq : m'.heap = m.heap
  byClient : ∀ ip port, getTcpSessionByClient m' ip port = getTcpSessionByClient m ip port
  byServer : ∀ q, getTcpSessionByServer m' q = getTcpSessionByServer m q

/-- The session was added for the client key, on a free port of the range. -/
structure Inserted (m m' : Machine) (ip : UInt32) (port : UInt16) (s : SessionPtr) : Prop where
  port_ge : m.table.minPort.toNat ≤ (m'.heap s).serverPort.toNat
  port_le : (m'.heap s).serverPort.toNat ≤ m.table.minPort.toNat + m.table.modNum.toNat - 1
  port_free : ∀ p, InTable m p → (m.heap p).serverPort ≠ (m'.heap s).serverPort
  clientIp_eq : (m'.heap s).clientIp = ip
  clientPort_eq : (m'.heap s).clientPort = port
  synState_eq : (m'.heap s).synState = 0
  clientFinState_eq : (m'.heap s).clientFinState = 0
  serverFinState_eq : (m'.heap s).serverFinState = 0
  notStored : ¬ InTable m s
  byClient : getTcpSessionByClient m' ip port = some s
  byServer : getTcpSessionByServer m' (m'.heap s).serverPort = some s
  otherClients : ∀ ip' port', (ip', port') ≠ (ip, port) →
    getTcpSessionByClient m' ip' port' = getTcpSessionByClient m ip' port'
  otherPorts : ∀ q, q ≠ (m'.heap s).serverPort →
    getTcpSessionByServer m' q = getTcpSessionByServer m q
  /-- The sessions found otherwise are not written. -/
  unchanged : ∀ p, InTable m p → m'.heap p = m.heap p

theorem sameLookups_setNextNum (m : Machine) (n : UInt32) : SameLookups m (m.setNextNum n) :=
  ⟨rfl, fun _ _ => rfl, fun _ => rfl⟩

section Outcomes

variable {m : Machine} (h : TwoIndexed m)
include h

/-- A session created for a new key on a free port that was probed. -/
theorem TwoIndexed.inserted {ip : UInt32} {port q : UInt16}
    (hs : getTcpSessionByClient m ip port = none) (hq : getTcpSessionByServer m q = none)
    (hprobed : ∃ k, q = m.table.probedPort k) (timeout : Int) (n : UInt32) :
    Inserted m (created m ip port q timeout n) ip port m.brk := by
  have hheap := created_heap_brk m ip port q timeout n
  have hbelow : ∀ p, InTable m p → p < m.brk := fun p hp =>
    h.indexes.serverAllocated p (h.inServer_of_inTable hp)
  have hclient :=
    getTcpSessionByClient_createSession (h.indexes.setNextNum n) ip port q timeout hs
  have hserver :=
    getTcpSessionByServer_createSession (h.indexes.setNextNum n) ip port q timeout hq
  constructor
  case port_ge =>
    obtain ⟨k, rfl⟩ := hprobed
    rw [hheap, newSession, SessionHashTable.probedPort_toNat h.modNum_pos h.range_le]
    omega
  case port_le =>
    obtain ⟨k, rfl⟩ := hprobed
    have hlt : k.toNat % m.table.modNum.toNat < m.table.modNum.toNat := Nat.mod_lt _ h.modNum_pos
    rw [hheap, newSession, SessionHashTable.probedPort_toNat h.modNum_pos h.range_le]
    omega
  case port_free =>
    intro p hp
    rw [hheap]
    exact (h.indexes.getByServer_eq_none_iff q).1 hq p (h.inServer_of_inTable hp)
  case clientIp_eq => rw [hheap, newSession]
  case clientPort_eq => rw [hheap, newSession]
  case synState_eq => rw [hheap, newSession]
  case clientFinState_eq => rw [hheap, newSession]
  case serverFinState_eq => rw [hheap, newSession]
  case notStored => exact fun hp => Nat.lt_irrefl _ (hbelow _ hp)
  case byClient => exact (hclient ip port).trans (if_pos rfl)
  case byServer =>
    rw [hheap]
    exact (hserver q).trans (if_pos rfl)
  case otherClients => exact fun ip' port' hne => (hclient ip' port').trans (if_neg hne)
  case otherPorts =>
    intro q' hne
    rw [hheap] at hne
    exact (hserver q').trans (if_neg hne)
  case unchanged =>
    exact fun p hp => createSession_heap_of_ne ip port q timeout (hbelow p hp).ne

/-- `add_tcp_session` is insertion into a partial bijection. -/
theorem addTcpSession_inserts (count : Int) (ip : UInt32) (port : UInt16) (timeout : Int) :
    (∀ s, getTcpSessionByClient m ip port = some s →
      addTcpSession m count ip port timeout = (some s, m)) ∧
    (∀ s m', getTcpSessionByClient m ip port = none →
      addTcpSession m count ip port timeout = (some s, m') → Inserted m m' ip port s) ∧
    (∀ m', addTcpSession m count ip port timeout = (none, m') → SameLookups m m') := by
  refine ⟨?_, ?_, ?_⟩
  · intro s hs
    rw [addTcpSession, hs]
  · intro s m' hnone hadd
    cases addTcpSession_outcome hadd with
    | found s hs => exact absurd (hnone.symm.trans hs) (by simp)
    | created q n hs hq =>
        obtain ⟨hfree, hprobed⟩ := searchPort_some hq
        exact h.inserted hs hfree hprobed timeout n
  · intro m' hadd
    cases addTcpSession_outcome hadd with
    | exhausted n hs hq => exact sameLookups_setNextNum m n

end Outcomes

/-- A session of a fourth client takes the third port that is probed; the expired sessions hold
theirs. -/
theorem threeSessions_inserted :
    Inserted (threeSessions 11 1) (addTcpSession (threeSessions 11 1) 0 9 5000 10).2 9 5000 3 := by
  have h := threeSessions_twoIndexed 11 1
  exact (addTcpSession_inserts h 0 9 5000 10).2.1 3 _ (by decide) (Prod.ext (by decide +kernel) rfl)

end BenkerVpn

import BenkerVpn.Handler.Outcome
import BenkerVpn.Session.Agreement
import BenkerVpn.Library.Runs
import Mathlib.Data.List.Perm.Subperm

/-!
# The session table is a NAT bijection

`NatInvariant` is the invariant of a table made from a port pool: both bucket arrays are indexes,
they hold the same sessions, and every port lies in the range. Every call keeps it, provided a
cleaning call sees one clock value (`NatInvariant.perform`). `NatBijection` spells out what it means
for the table, and holds after every run from a fresh table (`natBijection_of_run`).
-/

set_option autoImplicit false

namespace BenkerVpn

open Library.Buckets Library.Runs

/-- The invariant of a table made from the pool. -/
structure NatInvariant (pool : PortPool) (m : Machine) : Prop where
  indexes : Indexes m
  configured : Configured pool m
  agree : Agree m
  ports : ∀ s, InServer m s →
    pool.minPort.toNat ≤ (m.heap s).serverPort.toNat ∧
      (m.heap s).serverPort.toNat ≤ pool.maxPort.toNat

/-- What holds of every table, also of one whose sessions were not made by it: both bucket arrays
are indexes of the same sessions, and the range of ports is not empty and fits into 16 bits. -/
structure TwoIndexed (m : Machine) : Prop where
  indexes : Indexes m
  agree : Agree m
  len_pos : 1 ≤ m.table.len
  modNum_pos : 1 ≤ m.table.modNum.toNat
  range_le : m.table.minPort.toNat + m.table.modNum.toNat - 1 ≤ 65535

/-- The session is stored in one of the lists. -/
def InTable (m : Machine) (s : SessionPtr) : Prop := InClient m s ∨ InServer m s

theorem TwoIndexed.inClient_of_inTable {m : Machine} (h : TwoIndexed m) {s : SessionPtr}
    (hs : InTable m s) : InClient m s :=
  hs.elim id (h.agree s).2

theorem TwoIndexed.inServer_of_inTable {m : Machine} (h : TwoIndexed m) {s : SessionPtr}
    (hs : InTable m s) : InServer m s :=
  hs.elim (h.agree s).1 id

/-- The sessions have different keys and ports. -/
theorem threeSessions_twoIndexed (start speed : Int) : TwoIndexed (threeSessions start speed) := by
  have h := threeSessions_housed start speed
  have hlt : ∀ side s, InSide (threeSessions start speed) side s → s < 3 := by
    rintro side s ⟨i, hi⟩
    obtain rfl : i = 0 := Nat.lt_one_iff.1 (h.bucket_lt side hi)
    have hmem : s ∈ [2, 1, 0] := by cases side <;> exact hi
    exact (by decide : ∀ s ∈ [2, 1, 0], s < 3) s hmem
  refine ⟨⟨⟨h.clientPlaced, fun i => ?_⟩, ⟨h.serverPlaced, fun i => ?_⟩, hlt .client,
    hlt .server⟩, threeSessions_agree start speed, le_refl 1, ?_, ?_⟩
  · by_cases hi : i = 0
    · rw [hi]
      exact (by decide : ([(3, 5000), (2, 5000), (1, 5000)] : List (UInt32 × UInt16)).Nodup)
    · simp [threeSessions, hi]
  · by_cases hi : i = 0
    · rw [hi]
      exact (by decide : ([40002, 40001, 40000] : List UInt16).Nodup)
    · simp [threeSessions, hi]
  · show 1 ≤ (40005 - 40000 + 1 : UInt16).toNat
    decide
  · show (40000 : UInt16).toNat + (40005 - 40000 + 1 : UInt16).toNat - 1 ≤ 65535
    decide

theorem NatInvariant.twoIndexed {pool : PortPool} {m : Machine} (h : NatInvariant pool m) :
    TwoIndexed m := by
  have hmax := pool.maxPort.toNat_lt
  have hle := pool.minPort_toNat_le
  have hmod := h.configured.modNum_toNat
  rw [PortPool.size] at hmod
  refine ⟨h.indexes, h.agree, h.configured.len_pos, by omega, ?_⟩
  rw [h.configured.minPort]
  omega

/-- A machine whose table was just made by `init_hash_table`. -/
def Fresh (pool : PortPool) (m : Machine) : Prop := m.table = pool.table

theorem Fresh.configured {pool : PortPool} {m : Machine} (h : Fresh pool m) :
    Configured pool m := by
  rw [Fresh] at h
  constructor <;> rw [h] <;> rfl

theorem Fresh.not_inClient {pool : PortPool} {m : Machine} (h : Fresh pool m) (s : SessionPtr) :
    ¬ InClient m s := by
  rintro ⟨i, hi⟩
  rw [h] at hi
  cases hi

theorem Fresh.not_inServer {pool : PortPool} {m : Machine} (h : Fresh pool m) (s : SessionPtr) :
    ¬ InServer m s := by
  rintro ⟨i, hi⟩
  rw [h] at hi
  cases hi

theorem Fresh.indexes {pool : PortPool} {m : Machine} (h : Fresh pool m) : Indexes m := by
  refine ⟨?_, ?_, fun s hs => absurd hs (h.not_inClient s),
    fun s hs => absurd hs (h.not_inServer s)⟩
  · rw [h]
    exact indexed_empty _ _
  · rw [h]
    exact indexed_empty _ _

theorem Fresh.natInvariant {pool : PortPool} {m : Machine} (h : Fresh pool m) :
    NatInvariant pool m :=
  ⟨h.indexes, h.configured, fun s => iff_of_false (h.not_inClient s) (h.not_inServer s),
    fun s hs => absurd hs (h.not_inServer s)⟩

/-! ## Every call keeps the invariant -/

/-- Every call keeps the configuration. -/
theorem Configured.perform {pool : PortPool} {m : Machine} (h : Configured pool m) (c : Call) :
    Configured pool (perform m c) :=
  perform_preserves c (fun _ _ h => ⟨h.len, h.minPort, h.modNum⟩)
    (fun _ _ h => ⟨h.len, h.minPort, h.modNum⟩)
    (fun _ _ _ _ _ h _ _ _ => ⟨h.len, h.minPort, h.modNum⟩)
    (fun _ _ _ h _ => ⟨h.len, h.minPort, h.modNum⟩)
    (fun _ h => ⟨by simpa using h.len, by simpa using h.minPort, by simpa using h.modNum⟩) h

/-- Every call keeps the indexes. -/
theorem Indexes.perform {m : Machine} (h : Indexes m) (c : Call) : Indexes (perform m c) :=
  perform_preserves c (fun _ n h => h.tick n) (fun _ n h => h.setNextNum n)
    (fun _ ip port q timeout h hs hq _ => h.createSession ip port q timeout hs hq)
    (fun _ _ _ h hv => h.store hv) (fun _ h => h.clean) h

/-- Whatever calls are made from a fresh table, and whatever the clock does, the bucket arrays are
indexes. -/
theorem indexes_of_run {pool : PortPool} {m : Machine} (hfresh : Fresh pool m)
    (calls : List Call) : Indexes (exec BenkerVpn.perform m calls) :=
  invariant_of_mem Indexes (fun _ c _ h => h.perform c) hfresh.indexes

theorem NatInvariant.tick {pool : PortPool} {m : Machine} (h : NatInvariant pool m) (n : Nat) :
    NatInvariant pool (m.tick n) :=
  ⟨h.indexes.tick n, ⟨h.configured.len, h.configured.minPort, h.configured.modNum⟩, h.agree,
    h.ports⟩

theorem NatInvariant.setNextNum {pool : PortPool} {m : Machine} (h : NatInvariant pool m)
    (n : UInt32) : NatInvariant pool (m.setNextNum n) :=
  ⟨h.indexes.setNextNum n, ⟨h.configured.len, h.configured.minPort, h.configured.modNum⟩, h.agree,
    h.ports⟩

theorem NatInvariant.createSession {pool : PortPool} {m : Machine} (h : NatInvariant pool m)
    {ip : UInt32} {port q : UInt16} {timeout : Int}
    (hs : getTcpSessionByClient m ip port = none) (hq : getTcpSessionByServer m q = none)
    (hprobed : ∃ k, q = m.table.probedPort k) :
    NatInvariant pool (createSession m ip port q timeout) := by
  refine ⟨h.indexes.createSession ip port q timeout hs hq, ?_, ?_, ?_⟩
  · exact ⟨h.configured.len, h.configured.minPort, h.configured.modNum⟩
  · intro s
    rw [createSession_inClient_iff, createSession_inServer_iff, h.agree s]
  · intro s hs
    rcases (createSession_inServer_iff ip port q timeout s).1 hs with hs | rfl
    · rw [h.indexes.createSession_heap_server ip port q timeout hs]
      exact h.ports s hs
    · -- the port of the new session was probed, so it lies in the range
      obtain ⟨k, rfl⟩ := hprobed
      rw [createSession_heap_brk]
      exact h.configured.probedPort_mem k

theorem NatInvariant.clean {pool : PortPool} {m : Machine} (h : NatInvariant pool m)
    (hsteady : SteadyClean m) : NatInvariant pool (cleanExpiredSession m) := by
  have hhoused := h.indexes.housed h.configured.len_pos
  refine ⟨h.indexes.clean, h.configured.perform .clean,
    agree_clean_of_steady hhoused h.agree hsteady, ?_⟩
  rintro s ⟨i, hi⟩
  rw [cleanExpiredSession_heap]
  exact h.ports s ⟨i, (cleanExpiredSession_lists_sublist m .server i).subset hi⟩

/-- Every call keeps the invariant, if a cleaning call sees one clock value. -/
theorem NatInvariant.perform {pool : PortPool} {m : Machine} (h : NatInvariant pool m) (c : Call)
    (hsteady : c = .clean → SteadyClean m) : NatInvariant pool (perform m c) := by
  refine perform_preserves c (fun m n h => h.tick n) (fun m n h => h.setNextNum n) ?_ ?_
    (fun hc h => h.clean (hsteady hc)) h
  · intro m ip port q timeout h hs hq hprobed
    exact h.createSession hs hq hprobed
  · intro m s v h hv
    refine ⟨h.indexes.store hv, ⟨h.configured.len, h.configured.minPort, h.configured.modNum⟩,
      h.agree, fun p hp => ?_⟩
    rw [(store_sameIdentity hv p).2.2.1]
    exact h.ports p hp

/-! ## What the invariant says -/

/-- The sessions stored in the table, bucket by bucket. -/
def storedSessions (m : Machine) : List SessionPtr :=
  (List.range m.table.len).flatMap m.table.listClientKey

theorem mem_storedSessions_iff {m : Machine} (h : Indexes m) (hlen : 0 < m.table.len)
    (s : SessionPtr) : s ∈ storedSessions m ↔ InClient m s := by
  rw [storedSessions, List.mem_flatMap]
  constructor
  · rintro ⟨i, -, hi⟩
    exact ⟨i, hi⟩
  · rintro ⟨i, hi⟩
    exact ⟨i, List.mem_range.2 ((h.housed hlen).bucket_lt .client hi), hi⟩

theorem storedSessions_nodup {m : Machine} (h : Indexes m) : (storedSessions m).Nodup := by
  rw [storedSessions, List.nodup_flatMap]
  refine ⟨fun i _ => h.client.nodup i, List.nodup_range.imp fun {i j} hij => ?_⟩
  intro s hi hj
  exact hij ((h.client.placed i s hi).trans (h.client.placed j s hj).symm)

/-- Distinct ports of a range: there are no more sessions than ports. -/
theorem NatInvariant.length_storedSessions_le {pool : PortPool} {m : Machine}
    (h : NatInvariant pool m) : (storedSessions m).length ≤ pool.size := by
  have hmem := mem_storedSessions_iff h.indexes h.configured.len_pos
  -- the ports of the stored sessions are distinct numbers of the range
  have hnodup : ((storedSessions m).map fun s => (m.heap s).serverPort.toNat).Nodup := by
    refine (List.nodup_map_iff_inj_on (storedSessions_nodup h.indexes)).2 ?_
    intro s hs p hp he
    have hs' := (h.agree s).1 ((hmem s).1 hs)
    have hp' := (h.agree p).1 ((hmem p).1 hp)
    exact h.indexes.server.key_injective hs' hp' (UInt16.toNat_inj.1 he)
  have hsub : ((storedSessions m).map fun s => (m.heap s).serverPort.toNat) ⊆
      List.range' pool.minPort.toNat pool.size := by
    intro q hq
    obtain ⟨s, hs, rfl⟩ := List.mem_map.1 hq
    have hport := h.ports s ((h.agree s).1 ((hmem s).1 hs))
    rw [List.mem_range'_1, PortPool.size]
    omega
  have hle := (hnodup.subperm hsub).length_le
  rwa [List.length_map, List.length_range'] at hle

/-- The table is a bijection between the clients' addresses and ports and the server's ports. A
session object is stored if it stands in `list_client_key`. -/
structure NatBijection (pool : PortPool) (m : Machine) : Prop where
  /-- Every session object occurs once in `list_client_key`, in the bucket of its key. -/
  clientOnce : ∀ s ∈ storedSessions m, ∀ i < m.table.len, (m.table.listClientKey i).count s =
    if i = m.table.clientBucket (m.heap s).clientIp (m.heap s).clientPort then 1 else 0
  /-- Every session object occurs once in `list_server_key`, in the bucket of its port. -/
  serverOnce : ∀ s ∈ storedSessions m, ∀ i < m.table.len, (m.table.listServerKey i).count s =
    if i = m.table.serverBucket (m.heap s).serverPort then 1 else 0
  /-- No other object occurs in `list_server_key`. -/
  sameObjects : ∀ i < m.table.len, ∀ s ∈ m.table.listServerKey i, s ∈ storedSessions m
  /-- What is stored are session objects that `add_tcp_session` allocated. -/
  allocated : ∀ s ∈ storedSessions m, s < m.brk
  clientKeys : ∀ s ∈ storedSessions m, ∀ p ∈ storedSessions m,
    (m.heap s).clientIp = (m.heap p).clientIp → (m.heap s).clientPort = (m.heap p).clientPort →
      s = p
  serverPorts : ∀ s ∈ storedSessions m, ∀ p ∈ storedSessions m,
    (m.heap s).serverPort = (m.heap p).serverPort → s = p
  portRange : ∀ s ∈ storedSessions m,
    pool.minPort ≤ (m.heap s).serverPort ∧ (m.heap s).serverPort ≤ pool.maxPort
  modNum : m.table.modNum.toNat = pool.maxPort.toNat - pool.minPort.toNat + 1
  capacity : (storedSessions m).length ≤ m.table.modNum.toNat
  foundByClient : ∀ s ∈ storedSessions m,
    getTcpSessionByClient m (m.heap s).clientIp (m.heap s).clientPort = some s
  foundByServer : ∀ s ∈ storedSessions m, getTcpSessionByServer m (m.heap s).serverPort = some s

theorem NatInvariant.natBijection {pool : PortPool} {m : Machine} (h : NatInvariant pool m) :
    NatBijection pool m := by
  have hmem := mem_storedSessions_iff h.indexes h.configured.len_pos
  have hserver : ∀ s ∈ storedSessions m, InServer m s := fun s hs =>
    (h.agree s).1 ((hmem s).1 hs)
  constructor
  case clientOnce => exact fun s hs i _ => h.indexes.client.count_eq ((hmem s).1 hs) i
  case serverOnce => exact fun s hs i _ => h.indexes.server.count_eq (hserver s hs) i
  case sameObjects => exact fun i _ s hi => (hmem s).2 ((h.agree s).2 ⟨i, hi⟩)
  case allocated => exact fun s hs => h.indexes.clientAllocated s ((hmem s).1 hs)
  case clientKeys =>
    intro s hs p hp hip hport
    exact h.indexes.client.key_injective ((hmem s).1 hs) ((hmem p).1 hp) (Prod.ext hip hport)
  case serverPorts =>
    exact fun s hs p hp he => h.indexes.server.key_injective (hserver s hs) (hserver p hp) he
  case portRange =>
    intro s hs
    rw [UInt16.le_iff_toNat_le, UInt16.le_iff_toNat_le]
    exact h.ports s (hserver s hs)
  case modNum => exact h.configured.modNum_toNat
  case capacity =>
    rw [h.configured.modNum_toNat]
    exact h.length_storedSessions_le
  case foundByClient =>
    exact fun s hs => (h.indexes.getByClient_eq_some_iff _ _ s).2 ⟨(hmem s).1 hs, rfl⟩
  case foundByServer =>
    exact fun s hs => (h.indexes.getByServer_eq_some_iff _ s).2 ⟨hserver s hs, rfl⟩

/-- A cleaning call sees one clock value; the other calls are not restricted. -/
def SteadyCall (m : Machine) (c : Call) : Prop := c = .clean → SteadyClean m

/-- The invariant holds along every run from a fresh table. -/
theorem natInvariant_of_run {pool : PortPool} {m : Machine} (hfresh : Fresh pool m)
    {calls : List Call} (hcalls : Permitted perform SteadyCall m calls) :
    NatInvariant pool (exec perform m calls) :=
  invariant_exec (fun _ c h hc => h.perform c hc) hfresh.natInvariant hcalls

/-- Whatever calls are made from a fresh table, in whatever order and with whatever arguments, the
table is a NAT bijection, if each cleaning call sees one clock value. -/
theorem natBijection_of_run {pool : PortPool} {m : Machine} (hfresh : Fresh pool m)
    {calls : List Call} (hcalls : Permitted perform SteadyCall m calls) :
    NatBijection pool (exec perform m calls) :=
  (natInvariant_of_run hfresh hcalls).natBijection

/-! ## A concrete table -/

/-- Two buckets and the ports 40000 and 40001. -/
def smallPool : PortPool where
  numEntry := 2
  minPort := 40000
  maxPort := 40001
  numEntry_pos := by decide
  minPort_le := by decide
  size_le := by decide

/-- A machine that has just called `init_hash_table`. -/
def freshMachine (pool : PortPool) (clock : Nat → Int) : Machine where
  heap := fun _ => newSession 0 0 0 0
  brk := 0
  table := pool.table
  clock := clock

theorem freshMachine_fresh (pool : PortPool) (clock : Nat → Int) :
    Fresh pool (freshMachine pool clock) := rfl

/-- Two sessions are added, with garbage in `count`, and the table is cleaned before they expire. -/
theorem natBijection_add_add_clean :
    NatBijection smallPool (exec perform (freshMachine smallPool fun _ => 100)
      [.add 7 167772161 5000 10, .add (-3) 167772162 5000 10, .clean]) := by
  refine natBijection_of_run (freshMachine_fresh _ _)
    ⟨fun h => (nomatch h), fun h => (nomatch h), fun _ => ?_, trivial⟩
  unfold SteadyClean
  decide +kernel

end BenkerVpn

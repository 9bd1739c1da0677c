import BenkerVpn.Library.Buckets
import BenkerVpn.Model.PacketHandler

/-!
# The two indexes of the session table

`list_client_key` and `list_server_key` are indexes in the sense of `Library.Buckets`: one by client
address and port, one by server port. `Indexes` says so of a machine. It is kept by everything the
session functions do to a machine: reading the clock (`Indexes.tick`), moving `next_num`
(`Indexes.setNextNum`), writing a session without touching its identity (`Indexes.store`), creating
a session with a fresh key and a fresh port (`Indexes.createSession`) and dropping nodes
(`Indexes.shrink`).
-/

set_option autoImplicit false

namespace BenkerVpn

open Library.Buckets

/-! ## Fields of a changed machine -/

namespace Machine

variable (m : Machine)

@[simp] theorem tick_heap (n : Nat) : (m.tick n).heap = m.heap := rfl
@[simp] theorem tick_brk (n : Nat) : (m.tick n).brk = m.brk := rfl
@[simp] theorem tick_table (n : Nat) : (m.tick n).table = m.table := rfl
@[simp] theorem tick_clock (n k : Nat) : (m.tick n).clock k = m.clock (n + k) := rfl
@[simp] theorem tick_zero : m.tick 0 = m := by simp [tick]

@[simp] theorem store_brk (s : SessionPtr) (v : TcpSession) : (m.store s v).brk = m.brk := rfl
@[simp] theorem store_table (s : SessionPtr) (v : TcpSession) : (m.store s v).table = m.table := rfl
@[simp] theorem store_clock (s : SessionPtr) (v : TcpSession) : (m.store s v).clock = m.clock := rfl

@[simp] theorem store_heap_self (s : SessionPtr) (v : TcpSession) : (m.store s v).heap s = v :=
  Function.update_self ..

theorem store_heap_of_ne {s p : SessionPtr} (v : TcpSession) (h : p ≠ s) :
    (m.store s v).heap p = m.heap p :=
  Function.update_of_ne h ..

@[simp] theorem setNextNum_heap (n : UInt32) : (m.setNextNum n).heap = m.heap := rfl
@[simp] theorem setNextNum_brk (n : UInt32) : (m.setNextNum n).brk = m.brk := rfl
@[simp] theorem setNextNum_clock (n : UInt32) : (m.setNextNum n).clock = m.clock := rfl

end Machine

/-! ## Keys and lookups -/

/-- The key of a session in `list_client_key`. -/
def clientKey (heap : SessionPtr → TcpSession) (s : SessionPtr) : UInt32 × UInt16 :=
  ((heap s).clientIp, (heap s).clientPort)

/-- The key of a session in `list_server_key`. -/
def serverKey (heap : SessionPtr → TcpSession) (s : SessionPtr) : UInt16 := (heap s).serverPort

/-- The bucket of a client key. -/
def clientHash (len : Nat) (k : UInt32 × UInt16) : Nat := (k.1 + k.2.toUInt32).toNat % len

/-- The bucket of a server port. -/
def serverHash (len : Nat) (q : UInt16) : Nat := q.toNat % len

/-- The session is stored in `list_client_key`. -/
abbrev InClient (m : Machine) (s : SessionPtr) : Prop := Held m.table.listClientKey s

/-- The session is stored in `list_server_key`. -/
abbrev InServer (m : Machine) (s : SessionPtr) : Prop := Held m.table.listServerKey s

theorem searchTcpSessionByClient_eq_find (heap : SessionPtr → TcpSession) (l : List SessionPtr)
    (ip : UInt32) (port : UInt16) :
    searchTcpSessionByClient heap l ip port = l.find? fun s => clientKey heap s = (ip, port) := by
  induction l with
  | nil => rfl
  | cons head next ih =>
      rw [searchTcpSessionByClient, List.find?_cons, ih]
      by_cases h : (heap head).clientIp = ip ∧ (heap head).clientPort = port
      · simp [clientKey, h]
      · simp [clientKey, h]

theorem searchTcpSessionByServer_eq_find (heap : SessionPtr → TcpSession) (l : List SessionPtr)
    (port : UInt16) :
    searchTcpSessionByServer heap l port = l.find? fun s => serverKey heap s = port := by
  induction l with
  | nil => rfl
  | cons head next ih =>
      rw [searchTcpSessionByServer, List.find?_cons, ih]
      by_cases h : (heap head).serverPort = port
      · simp [serverKey, h]
      · simp [serverKey, h]

theorem getTcpSessionByClient_eq_lookup (m : Machine) (ip : UInt32) (port : UInt16) :
    getTcpSessionByClient m ip port =
      lookup (clientHash m.table.len) (clientKey m.heap) m.table.listClientKey (ip, port) :=
  searchTcpSessionByClient_eq_find ..

theorem getTcpSessionByServer_eq_lookup (m : Machine) (port : UInt16) :
    getTcpSessionByServer m port =
      lookup (serverHash m.table.len) (serverKey m.heap) m.table.listServerKey port :=
  searchTcpSessionByServer_eq_find ..

theorem insertTcpSession_eq_append (l : List SessionPtr) (s : SessionPtr) :
    insertTcpSession l s = l ++ [s] := by
  induction l with
  | nil => rfl
  | cons head next ih => rw [insertTcpSession, ih, List.cons_append]

/-! ## The invariant -/

/-- Both bucket arrays are indexes of allocated session objects. -/
structure Indexes (m : Machine) : Prop where
  client : Indexed (clientHash m.table.len) (clientKey m.heap) m.table.listClientKey
  server : Indexed (serverHash m.table.len) (serverKey m.heap) m.table.listServerKey
  clientAllocated : ∀ s, InClient m s → s < m.brk
  serverAllocated : ∀ s, InServer m s → s < m.brk

section Lookup

variable {m : Machine}

theorem Indexes.getByClient_eq_some_iff (h : Indexes m) (ip : UInt32) (port : UInt16)
    (s : SessionPtr) :
    getTcpSessionByClient m ip port = some s ↔ InClient m s ∧ clientKey m.heap s = (ip, port) := by
  rw [getTcpSessionByClient_eq_lookup]
  exact h.client.lookup_eq_some_iff _ _

theorem Indexes.getByClient_eq_none_iff (h : Indexes m) (ip : UInt32) (port : UInt16) :
    getTcpSessionByClient m ip port = none ↔
      ∀ s, InClient m s → clientKey m.heap s ≠ (ip, port) := by
  rw [getTcpSessionByClient_eq_lookup]
  exact h.client.lookup_eq_none_iff _

theorem Indexes.getByServer_eq_some_iff (h : Indexes m) (port : UInt16) (s : SessionPtr) :
    getTcpSessionByServer m port = some s ↔ InServer m s ∧ serverKey m.heap s = port := by
  rw [getTcpSessionByServer_eq_lookup]
  exact h.server.lookup_eq_some_iff _ _

theorem Indexes.getByServer_eq_none_iff (h : Indexes m) (port : UInt16) :
    getTcpSessionByServer m port = none ↔ ∀ s, InServer m s → serverKey m.heap s ≠ port := by
  rw [getTcpSessionByServer_eq_lookup]
  exact h.server.lookup_eq_none_iff _

end Lookup

/-! ## What the session functions do to a machine -/

/-- The fields of a session that no handler changes. -/
def SameIdentity (a b : TcpSession) : Prop :=
  a.clientIp = b.clientIp ∧ a.clientPort = b.clientPort ∧ a.serverPort = b.serverPort ∧
    a.expire = b.expire

theorem SameIdentity.refl (a : TcpSession) : SameIdentity a a := ⟨rfl, rfl, rfl, rfl⟩

theorem SameIdentity.trans {a b c : TcpSession} (h : SameIdentity a b) (h' : SameIdentity b c) :
    SameIdentity a c :=
  ⟨h.1.trans h'.1, h.2.1.trans h'.2.1, h.2.2.1.trans h'.2.2.1, h.2.2.2.trans h'.2.2.2⟩

theorem clientFlags_sameIdentity (a : TcpSession) (seg : Segment) :
    SameIdentity (clientFlags a seg) a := by
  unfold clientFlags
  dsimp only
  split_ifs <;> exact ⟨rfl, rfl, rfl, rfl⟩

theorem worldFlags_sameIdentity (a : TcpSession) (seg : Segment) :
    SameIdentity (worldFlags a seg) a := by
  unfold worldFlags
  dsimp only
  split_ifs <;> exact ⟨rfl, rfl, rfl, rfl⟩

/-- A write that keeps the identity of the session written keeps every identity. -/
theorem store_sameIdentity {m : Machine} {s : SessionPtr} {v : TcpSession}
    (hv : SameIdentity v (m.heap s)) (p : SessionPtr) :
    SameIdentity ((m.store s v).heap p) (m.heap p) := by
  by_cases hp : p = s
  · subst hp
    rw [Machine.store_heap_self]
    exact hv
  · rw [Machine.store_heap_of_ne _ _ hp]
    exact SameIdentity.refl _

theorem Indexes.tick {m : Machine} (h : Indexes m) (n : Nat) : Indexes (m.tick n) :=
  ⟨h.client, h.server, h.clientAllocated, h.serverAllocated⟩

theorem Indexes.setNextNum {m : Machine} (h : Indexes m) (n : UInt32) :
    Indexes (m.setNextNum n) :=
  ⟨h.client, h.server, h.clientAllocated, h.serverAllocated⟩

/-- A write that keeps the identity of a session keeps the indexes. -/
theorem Indexes.store {m : Machine} (h : Indexes m) {s : SessionPtr} {v : TcpSession}
    (hv : SameIdentity v (m.heap s)) : Indexes (m.store s v) := by
  refine ⟨h.client.congr_key fun p _ => ?_, h.server.congr_key fun p _ => ?_,
    h.clientAllocated, h.serverAllocated⟩
  · obtain ⟨h1, h2, -, -⟩ := store_sameIdentity hv p
    exact Prod.ext h1 h2
  · exact (store_sameIdentity hv p).2.2.1

section Create

variable {m : Machine} (ip : UInt32) (port q : UInt16) (timeout : Int)

theorem createSession_listClientKey :
    (createSession m ip port q timeout).table.listClientKey =
      append m.table.listClientKey (clientHash m.table.len (ip, port)) m.brk := by
  simp only [createSession, insertTcpSession_eq_append]
  rfl

theorem createSession_listServerKey :
    (createSession m ip port q timeout).table.listServerKey =
      append m.table.listServerKey (serverHash m.table.len q) m.brk := by
  simp only [createSession, insertTcpSession_eq_append]
  rfl

theorem createSession_heap_brk :
    (createSession m ip port q timeout).heap m.brk =
      newSession ip port q (m.clock 0 + timeout) :=
  Function.update_self ..

theorem createSession_heap_of_ne {s : SessionPtr} (hs : s ≠ m.brk) :
    (createSession m ip port q timeout).heap s = m.heap s :=
  Function.update_of_ne hs ..

theorem createSession_inClient_iff (s : SessionPtr) :
    InClient (createSession m ip port q timeout) s ↔ InClient m s ∨ s = m.brk := by
  rw [InClient, createSession_listClientKey, held_append_iff]

theorem createSession_inServer_iff (s : SessionPtr) :
    InServer (createSession m ip port q timeout) s ↔ InServer m s ∨ s = m.brk := by
  rw [InServer, createSession_listServerKey, held_append_iff]

/-- The sessions already stored are not touched by the creation of another. -/
theorem Indexes.createSession_heap_client (h : Indexes m) {s : SessionPtr} (hs : InClient m s) :
    (createSession m ip port q timeout).heap s = m.heap s :=
  createSession_heap_of_ne ip port q timeout (h.clientAllocated s hs).ne

theorem Indexes.createSession_heap_server (h : Indexes m) {s : SessionPtr} (hs : InServer m s) :
    (createSession m ip port q timeout).heap s = m.heap s :=
  createSession_heap_of_ne ip port q timeout (h.serverAllocated s hs).ne

/-- A session with a fresh key and a fresh port may be created. -/
theorem Indexes.createSession (h : Indexes m)
    (hclient : getTcpSessionByClient m ip port = none)
    (hserver : getTcpSessionByServer m q = none) :
    Indexes (createSession m ip port q timeout) := by
  have hnew := createSession_heap_brk (m := m) ip port q timeout
  refine ⟨?_, ?_, ?_, ?_⟩
  · -- the key of the new object is fresh, and the old objects keep theirs
    rw [createSession_listClientKey]
    apply h.client.insert_of_congr
    · rw [clientKey, hnew]
      rfl
    · intro s hs
      rw [clientKey, clientKey, h.createSession_heap_client ip port q timeout hs]
    · exact (h.getByClient_eq_none_iff ip port).1 hclient
  · -- likewise for its port
    rw [createSession_listServerKey]
    apply h.server.insert_of_congr
    · rw [serverKey, hnew]
      rfl
    · intro s hs
      rw [serverKey, serverKey, h.createSession_heap_server ip port q timeout hs]
    · exact (h.getByServer_eq_none_iff q).1 hserver
  · intro s hs
    rcases (createSession_inClient_iff ip port q timeout s).1 hs with hs | rfl
    · exact Nat.lt_succ_of_lt (h.clientAllocated s hs)
    · exact Nat.lt_succ_self _
  · intro s hs
    rcases (createSession_inServer_iff ip port q timeout s).1 hs with hs | rfl
    · exact Nat.lt_succ_of_lt (h.serverAllocated s hs)
    · exact Nat.lt_succ_self _

end Create

/-- Dropping nodes keeps the indexes. -/
theorem Indexes.shrink {m m' : Machine} (h : Indexes m) (hheap : m'.heap = m.heap)
    (hbrk : m'.brk = m.brk) (hlen : m'.table.len = m.table.len)
    (hclient : ∀ i, (m'.table.listClientKey i).Sublist (m.table.listClientKey i))
    (hserver : ∀ i, (m'.table.listServerKey i).Sublist (m.table.listServerKey i)) :
    Indexes m' := by
  refine ⟨?_, ?_, ?_, ?_⟩
  · rw [hheap, hlen]
    exact h.client.sublist hclient
  · rw [hheap, hlen]
    exact h.server.sublist hserver
  · rintro s ⟨i, hi⟩
    rw [hbrk]
    exact h.clientAllocated s ⟨i, (hclient i).subset hi⟩
  · rintro s ⟨i, hi⟩
    rw [hbrk]
    exact h.serverAllocated s ⟨i, (hserver i).subset hi⟩

end BenkerVpn

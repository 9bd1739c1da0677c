import BenkerVpn.Server.Exhaustion
import Mathlib.Data.Nat.ModEq
import Mathlib.Tactic.IntervalCases

/-!
# How far the lookups walk

A lookup walks along one list of the table. The lists of the server index stay short in every run,
since the ports of the range are spread over the buckets (`server_walk_bounded`): six sessions at
most in the server. Nothing spreads the client keys: clients that choose address and port with the
same sum share a bucket, and then a lookup walks along all of them (`client_walk_collides`).
-/

set_option autoImplicit false

namespace BenkerVpn

open Library.Buckets Library.Runs

/-- The nodes that `search_tcp_session_by_server` looks at. -/
def serverWalk (heap : SessionPtr → TcpSession) : List SessionPtr → UInt16 → Nat
  | [], _ => 0
  | head :: next, serverPort =>
      if (heap head).serverPort = serverPort then 1 else serverWalk heap next serverPort + 1

/-- The nodes that `search_tcp_session_by_client` looks at. -/
def clientWalk (heap : SessionPtr → TcpSession) : List SessionPtr → UInt32 → UInt16 → Nat
  | [], _, _ => 0
  | head :: next, clientIp, clientPort =>
      if (heap head).clientIp = clientIp ∧ (heap head).clientPort = clientPort then 1
      else clientWalk heap next clientIp clientPort + 1

theorem serverWalk_le (heap : SessionPtr → TcpSession) (list : List SessionPtr) (port : UInt16) :
    serverWalk heap list port ≤ list.length := by
  induction list with
  | nil => exact Nat.le_refl 0
  | cons head next ih =>
      rw [serverWalk, List.length_cons]
      split
      · exact Nat.le_add_left 1 _
      · exact Nat.succ_le_succ ih

/-- A search that finds nothing has looked at every node. -/
theorem clientWalk_of_none {heap : SessionPtr → TcpSession} {list : List SessionPtr} {ip : UInt32}
    {port : UInt16} (h : searchTcpSessionByClient heap list ip port = none) :
    clientWalk heap list ip port = list.length := by
  induction list with
  | nil => rfl
  | cons head next ih =>
      rw [searchTcpSessionByClient] at h
      split at h
      case isTrue => cases h
      case isFalse hne => rw [clientWalk, if_neg hne, List.length_cons, ih h]

/-! ## The server index -/

namespace PortPool

variable (pool : PortPool)

/-- The ports of the range. -/
def ports : Finset UInt16 :=
  (Finset.Icc pool.minPort.toNat pool.maxPort.toNat).image UInt16.ofNat

theorem mem_ports_iff (q : UInt16) :
    q ∈ pool.ports ↔ pool.minPort.toNat ≤ q.toNat ∧ q.toNat ≤ pool.maxPort.toNat := by
  rw [ports, Finset.mem_image]
  constructor
  · rintro ⟨n, hn, rfl⟩
    rw [Finset.mem_Icc] at hn
    have hmax := pool.maxPort.toNat_lt
    rw [UInt16.toNat_ofNat', Nat.mod_eq_of_lt (by omega)]
    exact hn
  · intro h
    exact ⟨q.toNat, Finset.mem_Icc.2 h, UInt16.ofNat_toNat⟩

/-- What a bucket of the server index can hold at most. -/
def share : Nat := (pool.size - 1) / pool.numEntry + 1

/-- Every bucket is for at most that many ports of the range. -/
theorem card_bucket_le (i : Nat) :
    (pool.ports.filter fun q => serverHash pool.numEntry q = i).card ≤ pool.share := by
  have hpos := pool.numEntry_pos
  rw [← Finset.card_range pool.share]
  -- the ports of a bucket differ in how many steps of `len` they lie above the first port
  refine Finset.card_le_card_of_injOn (fun q => (q.toNat - pool.minPort.toNat) / pool.numEntry)
    ?_ ?_
  · intro q hq
    obtain ⟨hports, -⟩ := Finset.mem_filter.1 hq
    obtain ⟨-, hmax⟩ := (pool.mem_ports_iff q).1 hports
    rw [Finset.mem_coe, Finset.mem_range, share, Nat.lt_succ_iff, size]
    exact Nat.div_le_div_right (by omega)
  · intro q hq q' hq' heq
    obtain ⟨hports, hq⟩ := Finset.mem_filter.1 hq
    obtain ⟨hports', hq'⟩ := Finset.mem_filter.1 hq'
    obtain ⟨hmin, -⟩ := (pool.mem_ports_iff q).1 hports
    obtain ⟨hmin', -⟩ := (pool.mem_ports_iff q').1 hports'
    have hmod : q.toNat ≡ q'.toNat [MOD pool.numEntry] := hq.trans hq'.symm
    have hoff : (q.toNat - pool.minPort.toNat) % pool.numEntry =
        (q'.toNat - pool.minPort.toNat) % pool.numEntry := by
      apply Nat.ModEq.add_right_cancel' pool.minPort.toNat
      rwa [Nat.sub_add_cancel hmin, Nat.sub_add_cancel hmin']
    have hsame : q.toNat - pool.minPort.toNat = q'.toNat - pool.minPort.toNat := by
      rw [← Nat.div_add_mod (q.toNat - pool.minPort.toNat) pool.numEntry,
        ← Nat.div_add_mod (q'.toNat - pool.minPort.toNat) pool.numEntry, hoff]
      exact congrArg (pool.numEntry * · + _) heq
    apply UInt16.toNat_inj.1
    omega

end PortPool

/-- The server index of a table holds ports of the range, also where the two indexes have come to
hold different sessions. -/
structure Spread (pool : PortPool) (m : Machine) : Prop where
  indexes : Indexes m
  configured : Configured pool m
  ports : ∀ s, InServer m s → serverKey m.heap s ∈ pool.ports

section Spread

variable {pool : PortPool} {m : Machine}

theorem Spread.createSession (h : Spread pool m) {ip : UInt32} {port q : UInt16} {timeout : Int}
    (hs : getTcpSessionByClient m ip port = none) (hq : getTcpSessionByServer m q = none)
    (hprobed : ∃ k, q = m.table.probedPort k) :
    Spread pool (createSession m ip port q timeout) := by
  refine ⟨h.indexes.createSession ip port q timeout hs hq,
    ⟨h.configured.len, h.configured.minPort, h.configured.modNum⟩, ?_⟩
  intro s hs
  rcases (createSession_inServer_iff ip port q timeout s).1 hs with hs | rfl
  · rw [serverKey, h.indexes.createSession_heap_server ip port q timeout hs]
    exact h.ports s hs
  · -- the port of the new session was probed
    obtain ⟨k, rfl⟩ := hprobed
    rw [serverKey, createSession_heap_brk]
    exact (pool.mem_ports_iff _).2 (h.configured.probedPort_mem k)

theorem Spread.perform (h : Spread pool m) (c : Call) : Spread pool (perform m c) := by
  refine perform_preserves c ?_ ?_ ?_ ?_ ?_ h
  · exact fun m n h => ⟨h.indexes.tick n,
      ⟨h.configured.len, h.configured.minPort, h.configured.modNum⟩, h.ports⟩
  · exact fun m n h => ⟨h.indexes.setNextNum n,
      ⟨h.configured.len, h.configured.minPort, h.configured.modNum⟩, h.ports⟩
  · exact fun m ip port q timeout h hs hq hprobed => h.createSession hs hq hprobed
  · intro m s v h hv
    refine ⟨h.indexes.store hv, ⟨h.configured.len, h.configured.minPort, h.configured.modNum⟩, ?_⟩
    intro p hp
    rw [serverKey, (store_sameIdentity hv p).2.2.1]
    exact h.ports p hp
  · intro _ h
    refine ⟨h.indexes.clean, h.configured.perform .clean, ?_⟩
    rintro s ⟨i, hi⟩
    rw [cleanExpiredSession_heap]
    exact h.ports s ⟨i, (cleanExpiredSession_lists_sublist m .server i).subset hi⟩

theorem Spread.serverList_length_le (h : Spread pool m) (i : Nat) :
    (m.table.listServerKey i).length ≤ pool.share := by
  apply (h.indexes.server.length_le_card h.ports i).trans
  rw [h.configured.len]
  exact pool.card_bucket_le i

end Spread

/-- A lookup by server port takes few steps. Whatever calls are made from a fresh table, and
whatever the clock does, it looks at no more nodes than there are ports of the range for each
bucket. -/
theorem server_walk_bounded {pool : PortPool} {m₀ : Machine} (hfresh : Fresh pool m₀)
    (calls : List Call) (q : UInt16) :
    let m := exec perform m₀ calls
    serverWalk m.heap (m.table.listServerKey (m.table.serverBucket q)) q ≤
      (pool.size - 1) / pool.numEntry + 1 := by
  intro m
  have hstart : Spread pool m₀ :=
    ⟨hfresh.indexes, hfresh.configured, fun s hs => absurd hs (hfresh.not_inServer s)⟩
  have h : Spread pool m := invariant_of_mem (Spread pool) (fun _ c _ h => h.perform c) hstart
  exact (serverWalk_le _ _ _).trans (h.serverList_length_le _)

/-- Six nodes in the table of the server. -/
example : serverPool.share = 6 := by decide

/-! ## The client index -/

section Collisions

variable {base : Nat} {keys : List ClientKey} {m : Machine}

/-- The bucket of all keys holds all sessions. -/
theorem Flooded.clientList_length (h : Flooded base keys m) {i : Nat}
    (hbucket : ∀ k ∈ keys, clientHash m.table.len k = i) :
    (m.table.listClientKey i).length = keys.length := by
  have hinj : Function.Injective (base + ·) := fun a b hab => Nat.add_left_cancel hab
  have hsessions : ((List.range keys.length).map (base + ·)).Nodup :=
    List.nodup_range.map hinj
  have hlength : ((List.range keys.length).map (base + ·)).length = keys.length := by
    rw [List.length_map, List.length_range]
  apply Nat.le_antisymm
  · rw [← hlength]
    refine (List.subperm_of_subset (h.nat.indexes.client.nodup i) ?_).length_le
    intro p hp
    obtain ⟨j, hj, rfl⟩ := h.exists_index ⟨i, hp⟩
    exact List.mem_map_of_mem (List.mem_range.2 hj)
  · rw [← hlength]
    refine (List.subperm_of_subset hsessions ?_).length_le
    intro p hp
    obtain ⟨j, hj, rfl⟩ := List.mem_map.1 hp
    obtain ⟨hin, hkey, -⟩ := h.stored j (List.mem_range.1 hj)
    have hmem := h.nat.indexes.client.mem_hash hin
    rwa [hkey, hbucket _ (List.getElem_mem _)] at hmem

/-- A key of that bucket that was not sent is looked for in all of them. -/
theorem Flooded.clientWalk_eq (h : Flooded base keys m) {i : Nat}
    (hbucket : ∀ k ∈ keys, clientHash m.table.len k = i) {k : ClientKey}
    (hk : clientHash m.table.len k = i) (hnew : k ∉ keys) :
    clientWalk m.heap (m.table.listClientKey (m.table.clientBucket k.1 k.2)) k.1 k.2 =
      keys.length := by
  have hnone : getTcpSessionByClient m k.1 k.2 = none := by
    rw [← Option.not_isSome_iff_eq_none]
    exact fun hfound => hnew (h.mem_of_found hfound)
  rw [getTcpSessionByClient] at hnone
  have hlist : m.table.clientBucket k.1 k.2 = i := hk
  rw [clientWalk_of_none hnone, hlist, h.clientList_length hbucket]

end Collisions

/-- Clients can share a bucket. If the first datagrams that a just started server reads are up to
1001 `SYN` packets of different keys with one hash, from whatever senders, and it can send what it
makes of them, then the lookup of any other key with this hash looks at all their sessions. -/
theorem client_walk_collides (s₀ : VpnServer) {inputs : List ClientInput} {keys : List ClientKey}
    (h : List.Forall₂ Asks inputs keys) (hnodup : keys.Nodup) (hlen : keys.length ≤ 1001) {i : Nat}
    (hbucket : ∀ k ∈ keys, clientHash 200 k = i) :
    ∃ s, exec serve (some (initVpnServer s₀)) (inputs.map .client) = some s ∧
      ∀ k, clientHash 200 k = i → k ∉ keys →
        clientWalk s.machine.heap
          (s.machine.table.listClientKey (s.machine.table.clientBucket k.1 k.2)) k.1 k.2 =
            keys.length := by
  obtain ⟨s, hs, hflooded⟩ := flooded_of_start s₀ h hnodup hlen
  have hlen' : s.machine.table.len = 200 := hflooded.nat.configured.len
  refine ⟨s, hs, fun k hk hnew => ?_⟩
  rw [← hlen'] at hbucket hk
  exact hflooded.clientWalk_eq hbucket hk hnew

/-! ## Concrete runs -/

/-- A `SYN` whose address and port add up to the same sum for every `i`. -/
def collidingSyn (i : Nat) : Segment :=
  { sampleSyn with saddr := 167772161 - UInt32.ofNat i, source := UInt16.ofNat i }

/-- The key of that packet. -/
def collidingKey (i : Nat) : ClientKey := (167772161 - UInt32.ofNat i, UInt16.ofNat i)

theorem collidingSyn_asks (n : Nat) :
    List.Forall₂ Asks
      ((List.range n).map fun i => datagramOf otherAddress (packetOf (collidingSyn i)))
      ((List.range n).map collidingKey) := by
  rw [List.forall₂_map_left_iff, List.forall₂_map_right_iff, List.forall₂_same]
  intro i _
  exact ⟨rfl, otherAddress, _, rfl, fun prev =>
    ⟨collidingSyn i, segmentOf_received_packetOf prev (collidingSyn i), rfl, rfl⟩⟩

theorem collidingKey_hash : ∀ k ∈ (List.range 3).map collidingKey, clientHash 200 k = 161 := by
  intro k hk
  obtain ⟨i, hi, rfl⟩ := List.mem_map.1 hk
  have hlt := List.mem_range.1 hi
  interval_cases i <;> rfl

/-- Three clients of one bucket, and a fourth one that is looked for. -/
theorem client_walk_collides_three :
    ∃ s, exec serve (some (initVpnServer freshServer)) (((List.range 3).map fun i =>
        datagramOf otherAddress (packetOf (collidingSyn i))).map .client) = some s ∧
      ∀ k, clientHash 200 k = 161 → k ∉ (List.range 3).map collidingKey →
        clientWalk s.machine.heap
          (s.machine.table.listClientKey (s.machine.table.clientBucket k.1 k.2)) k.1 k.2 = 3 :=
  client_walk_collides freshServer (collidingSyn_asks 3) (by decide) (by decide) collidingKey_hash

/-- A table with two buckets for two ports. -/
theorem server_walk_bounded_syn :
    let m := exec perform (freshMachine smallPool fun _ => 0) [clientCall sampleSyn, .clean]
    serverWalk m.heap (m.table.listServerKey (m.table.serverBucket 40000)) 40000 ≤
      (smallPool.size - 1) / smallPool.numEntry + 1 :=
  server_walk_bounded (freshMachine_fresh smallPool fun _ => 0) [clientCall sampleSyn, .clean] 40000

end BenkerVpn

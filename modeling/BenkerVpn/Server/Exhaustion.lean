import BenkerVpn.Handler.Leftover
import BenkerVpn.Server.Reply
import BenkerVpn.Server.Service

/-!
# When the ports are used up

The loop of the server never removes a session, so a table without free ports never gets another
session: what the server still accepts belongs to the sessions it has, and comes within ten seconds
if the clock never goes back (`exhausted_forever`). Any 1001 `SYN` packets of different clients
bring a server there that has just started and can send, whoever sends them (`flood_exhausts`).
-/

set_option autoImplicit false

namespace BenkerVpn

open Library.Buckets Library.Octets Library.Runs

/-! ## Full tables -/

/-- Every port of the range is held by a session. -/
def Full (pool : PortPool) (m : Machine) : Prop :=
  ∀ q, InRange pool q → (getTcpSessionByServer m q).isSome

/-- The stored sessions are among those of an earlier table. -/
def Within (m₀ m : Machine) : Prop :=
  ∀ p, InClient m p → InClient m₀ p ∧ SameIdentity (m.heap p) (m₀.heap p)

section Full

variable {pool : PortPool} {m₀ m : Machine} {c : Call}

/-- A full table gets no session. -/
theorem Full.not_created (hfull : Full pool m) (h : NatInvariant pool m) (hc : c.IsPacket) :
    ¬ m.brk < (perform m c).brk := by
  intro hbrk
  obtain ⟨seg, q, -, -, -, hfree, -, -, hserver, -⟩ := perform_created_identity hc hbrk
  have hstep : NatInvariant pool (perform m c) := h.perform c (by rintro rfl; exact hc.elim)
  have hin := (perform_inIndex_iff hc .client m.brk).2 (Or.inr ⟨rfl, hbrk⟩)
  -- its port would be a free one of the range
  have hpair : hstep.translation (clientKey (perform m c).heap m.brk) = some q :=
    (hstep.translation_eq_some_iff _ _).2 ⟨m.brk, hin, rfl, hserver⟩
  have hheld := hfull q (hstep.inRange hpair)
  rw [hfree] at hheld
  cases hheld

theorem Full.perform (hfull : Full pool m) (h : NatInvariant pool m) (hc : c.IsPacket) :
    Full pool (perform m c) := by
  intro q hq
  have hstep : NatInvariant pool (BenkerVpn.perform m c) :=
    h.perform c (by rintro rfl; exact hc.elim)
  rw [← Option.ne_none_iff_isSome, Ne, ← hstep.translation_symm_eq_none_iff]
  -- the pair of the port is still there
  obtain ⟨p, hp⟩ := Option.isSome_iff_exists.1 (hfull q hq)
  obtain ⟨k, hk⟩ := Option.ne_none_iff_exists'.1
    (fun hnone => by rw [(h.translation_symm_eq_none_iff q).1 hnone] at hp; cases hp)
  have hle := (translation_grows h (by rintro rfl; exact hc.elim) hstep).le
  have hk' := PEquiv.le_def.1 hle _ _ ((PEquiv.eq_some_iff _).1 hk)
  rw [(PEquiv.eq_some_iff _).2 hk']
  exact Option.some_ne_none k

theorem Within.perform (hwithin : Within m₀ m) (hfull : Full pool m) (h : NatInvariant pool m)
    (hc : c.IsPacket) : Within m₀ (perform m c) := by
  intro p hp
  rcases (perform_inIndex_iff hc .client p).1 hp with hold | ⟨-, hbrk⟩
  · have hid := perform_sameIdentity hc (h.indexes.clientAllocated p hold)
    exact ⟨(hwithin p hold).1, hid.trans (hwithin p hold).2⟩
  · exact absurd hbrk (hfull.not_created h hc)

/-- A packet that a full table accepts belongs to a session it had all along. -/
theorem Within.accepted (hwithin : Within m₀ m) (hfull : Full pool m) (h : Leased pool m)
    (h₀ : Leased pool m₀) (hc : c.IsPacket) {p : SessionPtr} (hses : c.session m = some p) :
    (getTcpSessionByClient m₀ (clientKey (BenkerVpn.perform m c).heap p).1
        (clientKey (BenkerVpn.perform m c).heap p).2).isSome ∧
      m.clock 0 ≤ m₀.clock 0 + 10 := by
  obtain ⟨p', hp', hkey, hle, -⟩ := h.witnessed hc hses _ List.mem_cons_self
  obtain ⟨hin, hid⟩ := hwithin.perform hfull h.nat hc p' hp'
  constructor
  · have hlook := (h₀.nat.indexes.getByClient_eq_some_iff _ _ p').2 ⟨hin, rfl⟩
    have hkey' : clientKey (BenkerVpn.perform m c).heap p = clientKey m₀.heap p' :=
      hkey.symm.trans hid.keys.1
    rw [hkey']
    exact Option.isSome_of_eq_some hlook
  · rw [hid.2.2.2] at hle
    exact hle.trans (h₀.lease p' hin)

end Full

/-- What a server without free ports still accepts. -/
theorem Full.acceptances {s : VpnServer} (hfull : Full serverPool s.machine)
    (hleased : Leased serverPool s.machine) (events : List Event) :
    ∀ x ∈ acceptances (some s) events,
      (getTcpSessionByClient s.machine x.1.1 x.1.2).isSome ∧ x.2 ≤ s.machine.clock 0 + 10 := by
  obtain ⟨m, -, -, -, hlog⟩ := acceptances_rule
    (H := fun m log => Leased serverPool m ∧ Full serverPool m ∧ Within s.machine m ∧
      ∀ x ∈ log, (getTcpSessionByClient s.machine x.1.1 x.1.2).isSome ∧
        x.2 ≤ s.machine.clock 0 + 10)
    (fun m log n h => ⟨h.1.tick n, h.2⟩)
    (by
      rintro m log c hc ⟨hm, hmfull, hwithin, hlog⟩
      refine ⟨hm.perform hc, hmfull.perform hm.nat hc, hwithin.perform hmfull hm.nat hc, ?_⟩
      intro x hx
      rcases List.mem_append.1 hx with hold | hnew
      · exact hlog x hold
      · obtain ⟨p, hses, rfl⟩ := Option.map_eq_some_iff.1 (Option.mem_toList.1 hnew)
        exact hwithin.accepted hmfull hm hleased hc hses)
    (show Leased serverPool s.machine ∧ Full serverPool s.machine ∧ Within s.machine s.machine ∧ _
      from ⟨hleased, hfull, fun p hp => ⟨hp, SameIdentity.refl _⟩,
        fun x hx => absurd hx List.not_mem_nil⟩) events
  exact hlog

/-- A server without free ports stays so. Once every port is held, every packet that the server
still accepts belongs to a client that has a session by then, and comes within ten seconds, if the
clock never goes back. -/
theorem exhausted_forever {s₀ s : VpnServer} (hclock : Monotone s₀.machine.clock)
    {before : List Event} (hs : exec serve (some (initVpnServer s₀)) before = some s)
    (hfull : Full serverPool s.machine) (events : List Event) :
    ∀ x ∈ acceptances (some s) events,
      (getTcpSessionByClient s.machine x.1.1 x.1.2).isSome ∧ x.2 ≤ s.machine.clock 0 + 10 := by
  exact hfull.acceptances (leased_of_serve hclock hs) events

/-! ## A flood of `SYN` packets -/

/-- A `SYN` whose key is unknown creates a session on the first port that is probed, if that port is
free. -/
theorem acceptClient_created {m : Machine} {seg : Segment} {q : UInt16} (count : Int)
    (hsyn : seg.syn = true) (hs : getTcpSessionByClient m seg.saddr seg.source = none)
    (hq : m.table.probedPort m.table.nextNum = q) (hfree : getTcpSessionByServer m q = none) :
    ∃ v, SameIdentity v (newSession seg.saddr seg.source q (m.clock 0 + 10)) ∧
      (acceptClient m count seg).2 =
        ((created m seg.saddr seg.source q 10 (m.table.nextNum + 1)).tick 1).store m.brk v := by
  have hsearch : searchPort m count m.table.nextNum = (some q, m.table.nextNum + 1) := by
    rw [searchPort, hq, hfree]
  have hadd : addTcpSession m count seg.saddr seg.source 10 =
      (some m.brk, created m seg.saddr seg.source q 10 (m.table.nextNum + 1)) := by
    rw [addTcpSession, hs, hsearch]
    rfl
  rw [acceptClient, clientSession, if_pos hsyn, hadd]
  dsimp only [sessionExpired]
  have hnew := created_heap_brk m seg.saddr seg.source q 10 (m.table.nextNum + 1)
  split
  · next m' hexp =>
      -- expired already, and stored all the same
      obtain ⟨-, rfl⟩ := Prod.mk.inj hexp
      refine ⟨_, SameIdentity.refl _, ?_⟩
      rw [Machine.store, ← hnew, Machine.tick_heap, Function.update_eq_self]
      rfl
  · next m' hexp =>
      obtain ⟨-, rfl⟩ := Prod.mk.inj hexp
      refine ⟨_, ?_, rfl⟩
      rw [Machine.tick_heap, hnew]
      exact clientFlags_sameIdentity _ seg

/-- The table holds one session for each key, on the ports of the range in order, in objects
allocated from `base` on. -/
structure Flooded (base : Nat) (keys : List ClientKey) (m : Machine) : Prop where
  nat : NatInvariant serverPool m
  brk : m.brk = base + keys.length
  next : m.table.nextNum = UInt32.ofNat keys.length
  stored : ∀ i (hi : i < keys.length), InClient m (base + i) ∧
    clientKey m.heap (base + i) = keys[i] ∧
    serverKey m.heap (base + i) = UInt16.ofNat (40000 + i)
  only : ∀ p, InClient m p → base ≤ p

section Flooded

variable {base : Nat} {keys : List ClientKey} {m : Machine}

/-- Every session of the table is one of them. -/
theorem Flooded.exists_index (h : Flooded base keys m) {p : SessionPtr} (hp : InClient m p) :
    ∃ i < keys.length, p = base + i := by
  have hlt := h.nat.indexes.clientAllocated p hp
  rw [h.brk] at hlt
  obtain ⟨i, rfl⟩ := Nat.exists_eq_add_of_le (h.only p hp)
  exact ⟨i, Nat.lt_of_add_lt_add_left hlt, rfl⟩

theorem Flooded.tick (h : Flooded base keys m) (n : Nat) : Flooded base keys (m.tick n) :=
  ⟨h.nat.tick n, h.brk, h.next, h.stored, h.only⟩

theorem toNat_floodPort {i : Nat} (hi : i < 1001) :
    (UInt16.ofNat (40000 + i)).toNat = 40000 + i := by
  rw [UInt16.toNat_ofNat']
  omega

/-- One more `SYN`, of a key that is not among them. -/
theorem Flooded.perform (h : Flooded base keys m) (hlen : keys.length < 1001) {c : Call}
    {seg : Segment} (hc : ∃ count b bufferLen ip, c = .client count b bufferLen ip)
    (hseg : c.segment = some (.client, seg)) (hsyn : seg.syn = true)
    (hnew : (seg.saddr, seg.source) ∉ keys) :
    Flooded base (keys ++ [(seg.saddr, seg.source)]) (perform m c) := by
  obtain ⟨count, b, bufferLen, ip, rfl⟩ := hc
  have hunknown : getTcpSessionByClient m seg.saddr seg.source = none := by
    rw [h.nat.indexes.getByClient_eq_none_iff]
    intro p hp hkey
    obtain ⟨i, hi, rfl⟩ := h.exists_index hp
    rw [(h.stored i hi).2.1] at hkey
    exact hnew (hkey ▸ List.getElem_mem hi)
  have hport : m.table.probedPort m.table.nextNum = UInt16.ofNat (40000 + keys.length) := by
    have hsize : serverPool.size = 1001 := rfl
    have hmin : serverPool.minPort.toNat = 40000 := rfl
    apply UInt16.toNat_inj.1
    rw [h.nat.configured.probedPort_toNat, hsize, hmin, h.next, toNat_floodPort hlen,
      UInt32.toNat_ofNat']
    omega
  have hfree : getTcpSessionByServer m (UInt16.ofNat (40000 + keys.length)) = none := by
    rw [h.nat.indexes.getByServer_eq_none_iff]
    intro p hp hkey
    obtain ⟨i, hi, rfl⟩ := h.exists_index ((h.nat.agree p).2 hp)
    rw [(h.stored i hi).2.2] at hkey
    have hnum := congrArg UInt16.toNat hkey
    rw [toNat_floodPort hlen, toNat_floodPort (hi.trans hlen)] at hnum
    omega
  obtain ⟨v, hv, haccept⟩ := acceptClient_created count hsyn hunknown hport hfree
  have hsegment : segmentOf b bufferLen = some seg := by
    obtain ⟨seg', hseg', hpair⟩ := Option.map_eq_some_iff.1 hseg
    obtain ⟨-, rfl⟩ := Prod.mk.inj hpair
    exact hseg'
  have hper : BenkerVpn.perform m (.client count b bufferLen ip) =
      ((created m seg.saddr seg.source (UInt16.ofNat (40000 + keys.length)) 10
        (m.table.nextNum + 1)).tick 1).store m.brk v := by
    rw [← haccept]
    exact (client_of_accept m count b bufferLen ip hsegment rfl).2
  have hpkt : (Call.client count b bufferLen ip).IsPacket := trivial
  have hbrk : m.brk < (BenkerVpn.perform m (.client count b bufferLen ip)).brk := by
    rw [hper]
    exact Nat.lt_succ_self _
  have hheap : (BenkerVpn.perform m (.client count b bufferLen ip)).heap m.brk = v := by
    rw [hper, Machine.store_heap_self]
  constructor
  case nat => exact h.nat.perform _ (by rintro ⟨⟩)
  case brk =>
    rw [hper, List.length_append, List.length_singleton, ← Nat.add_assoc, ← h.brk]
    rfl
  case next =>
    rw [hper, List.length_append, List.length_singleton, UInt32.ofNat_add, ← h.next]
    rfl
  case stored =>
    intro i hi
    rw [List.length_append, List.length_singleton] at hi
    rcases Nat.lt_succ_iff_lt_or_eq.1 hi with hold | rfl
    · obtain ⟨hin, hkey, hserver⟩ := h.stored i hold
      have hid := (perform_sameIdentity hpkt (h.nat.indexes.clientAllocated _ hin)).keys
      refine ⟨(perform_inIndex_iff hpkt .client _).2 (Or.inl hin), ?_, ?_⟩
      · rw [hid.1, hkey, List.getElem_append_left]
      · rw [hid.2, hserver]
    · -- the new session
      rw [← h.brk]
      refine ⟨(perform_inIndex_iff hpkt .client _).2 (Or.inr ⟨rfl, hbrk⟩), ?_, ?_⟩
      · rw [clientKey, hheap, List.getElem_concat_length rfl]
        exact Prod.ext hv.1 hv.2.1
      · rw [serverKey, hheap]
        exact hv.2.2.1
  case only =>
    intro p hp
    rcases (perform_inIndex_iff hpkt .client p).1 hp with hold | ⟨rfl, -⟩
    · exact h.only p hold
    · rw [h.brk]
      exact Nat.le_add_right _ _

/-- After 1001 keys no port is left. -/
theorem Flooded.full (h : Flooded base keys m) (hlen : keys.length = 1001) :
    Full serverPool m := by
  rintro q ⟨hmin, hmax⟩
  have hmin' : 40000 ≤ q.toNat := UInt16.le_iff_toNat_le.1 hmin
  have hmax' : q.toNat ≤ 41000 := UInt16.le_iff_toNat_le.1 hmax
  -- the port is that of a session of the flood
  have hi : q.toNat - 40000 < keys.length := by omega
  obtain ⟨hin, -, hserver⟩ := h.stored _ hi
  have hq : UInt16.ofNat (40000 + (q.toNat - 40000)) = q := by
    apply UInt16.toNat_inj.1
    rw [toNat_floodPort (by omega)]
    omega
  rw [hq] at hserver
  exact Option.isSome_of_eq_some ((h.nat.indexes.getByServer_eq_some_iff q _).2
    ⟨(h.nat.agree _).1 hin, hserver⟩)

/-- Every key of the table was sent. -/
theorem Flooded.mem_of_found (h : Flooded base keys m) {k : ClientKey}
    (hk : (getTcpSessionByClient m k.1 k.2).isSome) : k ∈ keys := by
  obtain ⟨p, hp⟩ := Option.isSome_iff_exists.1 hk
  obtain ⟨hin, hkey⟩ := (h.nat.indexes.getByClient_eq_some_iff k.1 k.2 p).1 hp
  obtain ⟨i, hi, rfl⟩ := h.exists_index hin
  rw [(h.stored i hi).2.1] at hkey
  rw [show k = keys[i] from hkey.symm]
  exact List.getElem_mem hi

end Flooded

/-- The half reads a datagram that carries a `SYN` of the key, whatever the buffer held, and can
send what it makes of it. -/
def Asks (input : ClientInput) (k : ClientKey) : Prop :=
  input.sendOk = true ∧ ∃ src payload, input.recv = .datagram src payload ∧
    ∀ prev, ∃ seg, segmentOf (received prev maxBuf payload) maxBuf = some seg ∧ seg.syn = true ∧
      (seg.saddr, seg.source) = k

/-- The server hands the `SYN` to its handler and goes on. -/
theorem Asks.serve {input : ClientInput} {k : ClientKey} (h : Asks input k) {s : VpnServer}
    (hbuf : s.bufLen = maxBuf) :
    ∃ s' n b seg, serve (some s) (.client input) = some s' ∧ s'.bufLen = maxBuf ∧
      segmentOf b s.bufLen = some seg ∧ seg.syn = true ∧ (seg.saddr, seg.source) = k ∧
      s'.machine = (perform s.machine (.client input.count b s.bufLen s.localIp)).tick n := by
  obtain ⟨hsend, src, payload, hrecv, hsegment⟩ := h
  obtain ⟨seg, hseg, hsyn, hkey⟩ := hsegment s.buf
  have hlen : (payload.take s.bufLen).length ≠ 0 := by
    intro hzero
    -- an empty datagram in an empty buffer is not valid
    obtain ⟨seg', hseg', -⟩ := hsegment fun _ => 0
    have hempty : received (fun _ => 0) maxBuf payload = fun _ => 0 := by
      funext i
      rw [hbuf] at hzero
      rw [received, List.eq_nil_of_length_eq_zero hzero]
      rfl
    rw [hempty] at hseg'
    cases hseg'
  rw [← hbuf] at hseg
  rw [BenkerVpn.serve, serveClient, hrecv]
  dsimp only [readMsgUdp]
  rw [if_neg (by omega), if_neg (by omega)]
  split
  · exact ⟨_, 0, _, seg, rfl, hbuf, hseg, hsyn, hkey, (Machine.tick_zero _).symm⟩
  · rw [if_pos hsend]
    exact ⟨_, _, _, seg, rfl, hbuf, hseg, hsyn, hkey, rfl⟩

/-- A flood fills the table. -/
theorem flooded_of_asks {inputs : List ClientInput} {keys done : List ClientKey}
    (h : List.Forall₂ Asks inputs keys) {s : VpnServer} {base : Nat} (hbuf : s.bufLen = maxBuf)
    (hs : Flooded base done s.machine) (hnodup : (done ++ keys).Nodup)
    (hlen : (done ++ keys).length ≤ 1001) :
    ∃ s', exec serve (some s) (inputs.map .client) = some s' ∧
      Flooded base (done ++ keys) s'.machine := by
  induction h generalizing s done with
  | nil => exact ⟨s, rfl, by rwa [List.append_nil]⟩
  | @cons input k inputs keys hasks _ ih =>
      obtain ⟨s', n, b, seg, hserve, hbuf', hseg, hsyn, rfl, hmachine⟩ := hasks.serve hbuf
      have hnew : (seg.saddr, seg.source) ∉ done := by
        intro hmem
        exact (List.nodup_append.1 hnodup).2.2 _ hmem _ List.mem_cons_self rfl
      have hstep : Flooded base (done ++ [(seg.saddr, seg.source)]) s'.machine := by
        rw [hmachine]
        apply Flooded.tick
        apply hs.perform _ ⟨_, _, _, _, rfl⟩ (Call.segment_client _ _ hseg) hsyn hnew
        rw [List.length_append, List.length_cons] at hlen
        omega
      rw [List.map_cons, exec_cons, hserve]
      rw [List.append_cons] at hnodup hlen ⊢
      exact ih hbuf' hstep hnodup hlen

theorem initVpnServer_flooded (s : VpnServer) :
    Flooded s.machine.brk [] (initVpnServer s).machine := by
  have hfresh := initVpnServer_fresh s
  refine ⟨hfresh.natInvariant, rfl, rfl, ?_, ?_⟩
  · exact fun i hi => absurd hi (Nat.not_lt_zero i)
  · exact fun p hp => absurd hp (hfresh.not_inClient p)

/-- A flood fills the table of a server that has just started. -/
theorem flooded_of_start (s₀ : VpnServer) {inputs : List ClientInput} {keys : List ClientKey}
    (h : List.Forall₂ Asks inputs keys) (hnodup : keys.Nodup) (hlen : keys.length ≤ 1001) :
    ∃ s, exec serve (some (initVpnServer s₀)) (inputs.map .client) = some s ∧
      Flooded s₀.machine.brk keys s.machine := by
  rw [← List.nil_append keys] at hnodup hlen
  exact flooded_of_asks h rfl (initVpnServer_flooded s₀) hnodup hlen

/-- A flood exhausts the server for good. If the first datagrams that a just started server reads
are 1001 `SYN` packets of different client keys, from whatever senders, and it can send what it
makes of them, then it accepts packets of these keys only, and none when ten seconds have passed on
a clock that never goes back. -/
theorem flood_exhausts (s₀ : VpnServer) (hclock : Monotone s₀.machine.clock)
    {inputs : List ClientInput} {keys : List ClientKey} (h : List.Forall₂ Asks inputs keys)
    (hnodup : keys.Nodup) (hlen : keys.length = 1001) (events : List Event) :
    ∃ s, exec serve (some (initVpnServer s₀)) (inputs.map .client) = some s ∧
      ∀ x ∈ acceptances (some s) events, x.1 ∈ keys ∧ x.2 ≤ s.machine.clock 0 + 10 := by
  obtain ⟨s, hs, hflooded⟩ := flooded_of_start s₀ h hnodup hlen.le
  refine ⟨s, hs, fun x hx => ?_⟩
  obtain ⟨hfound, htime⟩ := (hflooded.full hlen).acceptances (leased_of_serve hclock hs) events x hx
  exact ⟨hflooded.mem_of_found hfound, htime⟩

/-! ## A concrete flood -/

/-- A packet of forty bytes is read alike whatever the buffer held. -/
theorem segmentOf_received_packetOf (prev : Buffer) (seg : Segment) :
    segmentOf (received prev maxBuf (sentBytes (packetOf seg) 40)) maxBuf = some seg := by
  have hlen : ((sentBytes (packetOf seg) 40).take maxBuf).length = 40 := by
    rw [List.length_take, length_sentBytes]
    rfl
  have hbyte : ∀ i < 40, received prev maxBuf (sentBytes (packetOf seg) 40) i = packetOf seg i := by
    intro i hi
    rw [received_of_lt _ _ _ (by omega), List.getElem_take]
    simp only [sentBytes, List.getElem_map, List.getElem_range]
  have hvalid := validateIpTcp_packetOf seg (by decide : (40 : Int) ≤ maxBuf) (by decide)
  have hihl : 20 = ihl (packetOf seg) * 4 := (validateIpTcp_some hvalid).1
  have hihl' := ihl_congr (hbyte 0 (by omega))
  have hvalid' := validateIpTcp_congr (hbyte 0 (by omega)) (hbyte 2 (by omega))
    (hbyte 3 (by omega)) (hbyte 9 (by omega)) (hbyte _ (by omega)) maxBuf
  have hsegment : segmentAt (received prev maxBuf (sentBytes (packetOf seg) 40)) 20 =
      segmentAt (packetOf seg) 20 := by
    rw [segmentAt_congr fun i _ hi => hbyte i (by omega)]
    have hsaddr : saddr (received prev maxBuf (sentBytes (packetOf seg) 40)) =
        saddr (packetOf seg) := be32_congr fun i _ hi => hbyte i (by omega)
    rw [hsaddr]
    rfl
  rw [segmentOf, hvalid', hvalid, Option.map_some, hsegment, segmentAt_packetOf]

/-- The `SYN` from source port `i`. -/
def floodSyn (i : Nat) : Segment := { sampleSyn with source := UInt16.ofNat i }

/-- `SYN` packets from 1001 source ports of one host. -/
def floodInputs : List ClientInput :=
  (List.range 1001).map fun i => datagramOf otherAddress (packetOf (floodSyn i))

/-- Their client keys. -/
def floodKeys : List ClientKey := (List.range 1001).map fun i => (167772161, UInt16.ofNat i)

theorem floodInputs_ask : List.Forall₂ Asks floodInputs floodKeys := by
  rw [floodInputs, floodKeys, List.forall₂_map_left_iff, List.forall₂_map_right_iff,
    List.forall₂_same]
  intro i _
  exact ⟨rfl, otherAddress, _, rfl, fun prev =>
    ⟨floodSyn i, segmentOf_received_packetOf prev (floodSyn i), rfl, rfl⟩⟩

theorem floodKeys_nodup : floodKeys.Nodup := by
  refine (List.nodup_map_iff_inj_on List.nodup_range).2 ?_
  intro i hi j hj he
  have hi' := List.mem_range.1 hi
  have hj' := List.mem_range.1 hj
  have hnum := congrArg UInt16.toNat (Prod.mk.inj he).2
  rw [UInt16.toNat_ofNat', UInt16.toNat_ofNat'] at hnum
  omega

theorem floodKeys_length : floodKeys.length = 1001 := by
  rw [floodKeys, List.length_map, List.length_range]

/-- A flood from one host exhausts a server that has just started. -/
theorem flood_exhausts_fresh :
    ∃ s, exec serve (some (initVpnServer freshServer)) (floodInputs.map .client) = some s ∧
      ∀ x ∈ acceptances (some s) [.client (datagramOf clientAddress (packetOf sampleSyn))],
        x.1 ∈ floodKeys ∧ x.2 ≤ s.machine.clock 0 + 10 :=
  flood_exhausts freshServer monotone_const floodInputs_ask floodKeys_nodup floodKeys_length _

/-- The server that the flood has filled. -/
theorem exhausted_forever_flooded :
    ∃ s, exec serve (some (initVpnServer freshServer)) (floodInputs.map .client) = some s ∧
      ∀ x ∈ acceptances (some s) [.world (frameOf (packetOf sampleSynAck))],
        (getTcpSessionByClient s.machine x.1.1 x.1.2).isSome ∧ x.2 ≤ s.machine.clock 0 + 10 := by
  obtain ⟨s, hs, hflooded⟩ :=
    flooded_of_start freshServer floodInputs_ask floodKeys_nodup floodKeys_length.le
  exact ⟨s, hs, exhausted_forever monotone_const hs (hflooded.full floodKeys_length) _⟩

end BenkerVpn

import BenkerVpn.Handler.Step
import BenkerVpn.Packet.Leftover
import BenkerVpn.Packet.Reset

/-!
# What the handlers take from behind the packet

The server loop passes the capacity of its buffer to the handlers, not the number of bytes it has
read, so a handler may take bytes for header fields or data that an earlier packet has left in the
buffer. `noStaleBytes_iff` says for which packets that cannot be observed: no leftover makes the
packet valid, or the packet contains the fields that the handler reads and, if it contains the TCP
checksum, everything the checksum is computed from.
-/

set_option autoImplicit false

namespace BenkerVpn

open Library.Octets Library.Runs

/-! ## A handler of the server loop -/

/-- A handler as the server loop calls it: the length is that of the buffer. -/
def handle : Sender → Machine → Int → Buffer → UInt32 → Handled
  | .client, m, count, b, ip => handleClientPacket m count b 9000 ip
  | .world, m, _, b, _ => handleWorldPacket m b 9000

/-- The part of a handler between validation and rewriting. -/
def accept : Sender → Machine → Int → Segment → Option SessionPtr × Machine
  | .client, m, count, seg => acceptClient m count seg
  | .world, m, _, seg => acceptWorld m seg

/-- The address and the port that are written into an accepted packet. -/
def target : Sender → UInt32 → TcpSession → UInt32 × UInt16
  | .client, ip, v => (ip, v.serverPort)
  | .world, _, v => (v.clientIp, v.clientPort)

/-- The rewriting of an accepted packet. -/
def rewriteFor : Sender → Buffer → UInt32 × UInt16 → Buffer
  | .client, b, t => replaceSrcIpPort b t.1 t.2
  | .world, b, t => replaceDstIpPort b t.1 t.2

/-- What is stored through `client_ip` for an accepted packet. -/
def storedIp : Sender → TcpSession → Option UInt32
  | .client, _ => none
  | .world, v => some v.clientIp

section Handle

variable {sender : Sender} {m m' : Machine} {count : Int} {b : Buffer} {ip : UInt32} {tcp : Nat}

theorem segmentOf_of_valid (h : validateIpTcp b 9000 = some tcp) :
    segmentOf b 9000 = some (segmentAt b tcp) := by
  rw [segmentOf, h, Option.map_some]

theorem handle_invalid (h : validateIpTcp b 9000 = none) :
    handle sender m count b ip = reject m b := by
  have hseg : segmentOf b 9000 = none := by rw [segmentOf, h, Option.map_none]
  cases sender with
  | client => exact handleClientPacket_of_none m count b 9000 ip hseg
  | world => exact handleWorldPacket_of_none m b 9000 hseg

theorem handle_rejected (h : validateIpTcp b 9000 = some tcp)
    (hacc : accept sender m count (segmentAt b tcp) = (none, m')) :
    handle sender m count b ip = reject m' b := by
  have hseg := segmentOf_of_valid h
  cases sender with
  | client => exact handleClientPacket_of_rejected hseg ip hacc
  | world => exact handleWorldPacket_of_rejected hseg hacc

theorem handle_accepted {s : SessionPtr} (ip : UInt32) (h : validateIpTcp b 9000 = some tcp)
    (hacc : accept sender m count (segmentAt b tcp) = (some s, m')) :
    (handle sender m count b ip).ret = .validSession ∧
      (handle sender m count b ip).machine = m' ∧
      (handle sender m count b ip).buffer = rewriteFor sender b (target sender ip (m'.heap s)) := by
  have hseg := segmentOf_of_valid h
  cases sender with
  | client =>
      rw [handle, handleClientPacket_of_accepted hseg ip hacc]
      exact ⟨rfl, rfl, rfl⟩
  | world =>
      rw [handle, handleWorldPacket_of_accepted hseg hacc]
      exact ⟨rfl, rfl, rfl⟩

theorem handle_clientIp {s : SessionPtr} (ip : UInt32) (h : validateIpTcp b 9000 = some tcp)
    (hacc : accept sender m count (segmentAt b tcp) = (some s, m')) :
    (handle sender m count b ip).clientIp = storedIp sender (m'.heap s) := by
  have hseg := segmentOf_of_valid h
  cases sender with
  | client =>
      rw [handle, handleClientPacket_of_accepted hseg ip hacc]
      rfl
  | world =>
      rw [handle, handleWorldPacket_of_accepted hseg hacc]
      rfl

end Handle

/-- A session that is found and has not expired is the one the packet is accepted for. -/
theorem accept_of_lookup {sender : Sender} {m : Machine} (count : Int) {seg : Segment}
    {s : SessionPtr} (hlook : lookupSession m sender seg = some s)
    (htime : m.clock 0 ≤ (m.heap s).expire) :
    accept sender m count seg =
      (some s, (m.tick 1).store s (flags sender (m.heap s) seg)) := by
  have hexp := (expiredAt_eq_false_iff m.heap (m.clock 0) s).2 htime
  cases sender with
  | client =>
      rw [lookupSession] at hlook
      have hsession : clientSession m count seg = (some s, m) := by
        rw [clientSession, addTcpSession, hlook]
        exact ite_self _
      simp only [accept, acceptClient, hsession, sessionExpired, hexp, Machine.tick_heap, flags]
  | world =>
      rw [lookupSession] at hlook
      simp only [accept, acceptWorld, hlook, sessionExpired, hexp, Machine.tick_heap, flags]

/-! ## Two contents of the buffer -/

/-- Two results that the server loop cannot tell apart, if it sends `n` bytes. -/
structure SameHandling (n : Nat) (r r' : Handled) : Prop where
  ret : r.ret = r'.ret
  machine : r.machine = r'.machine
  clientIp : r.clientIp = r'.clientIp
  sent : r.ret = .validSession → Set.EqOn r.buffer r'.buffer (Set.Iio n)
  beyond : Set.EqOn r.buffer r'.buffer (Set.Ici 9000)

/-- The two results have the same return value and session table and, for an accepted packet, the
same first `n` bytes to be sent. -/
structure SameOutcome (n : Nat) (r r' : Handled) : Prop where
  ret : r.ret = r'.ret
  heap : r.machine.heap = r'.machine.heap
  table : r.machine.table = r'.machine.table
  sent : r.ret = .validSession → Set.EqOn r.buffer r'.buffer (Set.Iio n)

theorem SameHandling.sameOutcome {n : Nat} {r r' : Handled} (h : SameHandling n r r') :
    SameOutcome n r r' :=
  ⟨h.ret, congrArg Machine.heap h.machine, congrArg Machine.table h.machine, h.sent⟩

/-- Whatever the server has done before and whatever the buffer of 9000 bytes holds behind the `n`
bytes of the packet `d`, the handler does the same. -/
def NoStaleBytes (sender : Sender) (d : Buffer) (n : Nat) : Prop :=
  ∀ (pool : PortPool) (m₀ : Machine) (calls : List Call) (count : Int) (ip : UInt32)
    (b b' : Buffer), Fresh pool m₀ → Set.EqOn b d (Set.Iio n) → Set.EqOn b' d (Set.Iio n) →
      Set.EqOn b b' (Set.Ici 9000) →
        SameOutcome n (handle sender (exec perform m₀ calls) count b ip)
          (handle sender (exec perform m₀ calls) count b' ip)

/-- The end of the header fields that the handler reads. -/
def fieldsEnd : Sender → Buffer → Nat
  | .client, d => max (ihl d * 4 + 14) 16
  | .world, d => ihl d * 4 + 14

/-- Where the TCP checksum may end. -/
def reach : Sender → Buffer → Nat
  | .client => clientReach
  | .world => worldReach

/-- No leftover makes the packet valid; or the packet contains the fields that the handler reads,
and either ends before the TCP checksum or contains everything the checksum reads. -/
def Complete (sender : Sender) (d : Buffer) (n : Nat) : Prop :=
  (∀ b, Set.EqOn b d (Set.Iio n) → validateIpTcp b 9000 = none) ∨
    (fieldsEnd sender d ≤ n ∧
      (n ≤ ihl d * 4 + 16 ∨ reach sender d ≤ max n (ihl d * 4 + 18)))

theorem fieldsEnd_ge (sender : Sender) (d : Buffer) : ihl d * 4 + 14 ≤ fieldsEnd sender d := by
  cases sender with
  | client => exact le_max_left _ _
  | world => exact le_refl _

theorem fieldsEnd_congr {d d' : Buffer} (h : d 0 = d' 0) (sender : Sender) :
    fieldsEnd sender d = fieldsEnd sender d' := by
  cases sender <;> simp only [fieldsEnd, ihl_congr h]

theorem reach_congr {d d' : Buffer} (h : d 0 = d' 0) (h2 : d 2 = d' 2) (h3 : d 3 = d' 3)
    (sender : Sender) : reach sender d = reach sender d' := by
  have htot : totLen d = totLen d' := be16_congr h2 h3
  cases sender with
  | client => rw [reach, clientReach, clientReach, ihl_congr h, htot]
  | world => rw [reach, worldReach, worldReach, ihl_congr h, htot]

/-- The checksum ends within the buffer. -/
theorem reach_le {b : Buffer} {tcp : Nat} (hvalid : validateIpTcp b 9000 = some tcp)
    (sender : Sender) : reach sender b ≤ 9000 := by
  obtain ⟨-, htot, -⟩ := validateIpTcp_some hvalid
  cases sender with
  | client =>
      rw [reach, clientReach]
      split <;> omega
  | world =>
      rw [reach, worldReach]
      split
      · exact le_refl _
      · split <;> omega

theorem le_reach {b : Buffer} (hihl : ihl b = 0) (sender : Sender) : 60 ≤ reach sender b := by
  cases sender with
  | client =>
      rw [reach, clientReach, if_pos hihl]
      exact le_max_left _ _
  | world =>
      rw [reach, worldReach, if_pos hihl]
      omega

/-! ## Complete packets -/

/-- The TCP fields of a segment come from the first 14 bytes of the TCP header. -/
theorem segmentAt_congr {b b' : Buffer} {tcp : Nat}
    (h : ∀ i, tcp ≤ i → i < tcp + 14 → b i = b' i) :
    segmentAt b tcp = { segmentAt b' tcp with saddr := saddr b } := by
  have hsource : source b tcp = source b' tcp :=
    be16_congr (h _ (by omega) (by omega)) (h _ (by omega) (by omega))
  have hdest : dest b tcp = dest b' tcp :=
    be16_congr (h _ (by omega) (by omega)) (h _ (by omega) (by omega))
  have hseq : seq b tcp = seq b' tcp := be32_congr fun i _ _ => h i (by omega) (by omega)
  have hackSeq : ackSeq b tcp = ackSeq b' tcp := be32_congr fun i _ _ => h i (by omega) (by omega)
  have hflags : b (tcp + 13) = b' (tcp + 13) := h _ (by omega) (by omega)
  simp only [segmentAt, hsource, hdest, hseq, hackSeq, fin, syn, ack, hflags]

/-- The source address of a packet from the world is not looked at. -/
theorem acceptWorld_saddr (m : Machine) (seg : Segment) (a : UInt32) :
    acceptWorld m { seg with saddr := a } = acceptWorld m seg := by
  simp only [acceptWorld, worldFlags]

/-- A reset packet is written within forty bytes. -/
theorem fillinReset_of_ge (b : Buffer) {i : Nat} (hi : 40 ≤ i) : (fillinReset b).1 i = b i := by
  rw [fillinReset_of_ne _ (by omega), resetFields, resetSegment_of_ne _ _ (by omega),
    fillinResetIp_of_ne _ (by omega), resetHeader_of_ge _ (by omega)]

/-- The fields that are rewritten lie in the headers. -/
theorem rewriteFor_of_ge (sender : Sender) (b : Buffer) (t : UInt32 × UInt16) {i : Nat}
    (hi : 78 ≤ i) : rewriteFor sender b t i = b i := by
  have hihl : ∀ b' : Buffer, ihl b' < 16 := fun b' => Nat.mod_lt _ (by decide)
  cases sender with
  | client =>
      have hlt := hihl (replaceIp 12 b t.1)
      rw [rewriteFor, replaceSrcIpPort_eq, rewrite, replacePort_of_ne _ _ _ (by omega) (by omega),
        replaceIp_of_ne _ _ _ (by omega) (by omega)]
  | world =>
      have hlt := hihl (replaceIp 16 b t.1)
      rw [rewriteFor, replaceDstIpPort_eq, rewrite, replacePort_of_ne _ _ _ (by omega) (by omega),
        replaceIp_of_ne _ _ _ (by omega) (by omega)]

section Complete

variable {sender : Sender} {b b' : Buffer} {n : Nat}

/-- A handler reads the same fields. -/
theorem accept_congr (h : Set.EqOn b b' (Set.Iio n)) (hfields : fieldsEnd sender b ≤ n)
    (m : Machine) (count : Int) :
    accept sender m count (segmentAt b (ihl b * 4)) =
      accept sender m count (segmentAt b' (ihl b * 4)) := by
  have hge := fieldsEnd_ge sender b
  have hseg : segmentAt b (ihl b * 4) = { segmentAt b' (ihl b * 4) with saddr := saddr b } :=
    segmentAt_congr fun i _ hi => h (Set.mem_Iio.2 (by omega))
  rw [hseg]
  cases sender with
  | client =>
      have hsaddr : saddr b = saddr b' := by
        rw [fieldsEnd] at hfields
        exact be32_congr fun i _ _ => h (Set.mem_Iio.2 (by omega))
      rw [hsaddr]
      rfl
  | world => exact acceptWorld_saddr m _ _

theorem eqOn_rewriteFor {tcp : Nat} (h : Set.EqOn b b' (Set.Iio n))
    (hbeyond : Set.EqOn b b' (Set.Ici 9000)) (hvalid : validateIpTcp b 9000 = some tcp)
    (hfields : fieldsEnd sender b ≤ n)
    (hreach : n ≤ ihl b * 4 + 16 ∨ reach sender b ≤ max n (ihl b * 4 + 18))
    (t : UInt32 × UInt16) :
    Set.EqOn (rewriteFor sender b t) (rewriteFor sender b' t) (Set.Iio n) := by
  have hge := fieldsEnd_ge sender b
  cases sender with
  | client =>
      -- the checksum ends below `clientReach`, whatever is written
      rw [rewriteFor, rewriteFor, replaceSrcIpPort_eq, replaceSrcIpPort_eq]
      apply eqOn_rewrite h (by omega) (by omega) (by omega)
      apply hreach.imp_right
      intro hle
      obtain ⟨htcp, hend⟩ := checksumEnd_client_le hvalid t.1 t.2
      refine ⟨?_, htcp, hend.trans hle⟩
      rw [reach, clientReach] at hle
      split at hle <;> omega
  | world =>
      rw [rewriteFor, rewriteFor, replaceDstIpPort_eq, replaceDstIpPort_eq]
      rcases Nat.eq_zero_or_pos (ihl b) with hzero | hpos
      · rcases hreach with hshort | hle
        · exact eqOn_rewrite h (by omega) (by omega) (by omega) _ _ (Or.inl hshort)
        · -- the packet fills the buffer, so the contents are equal
          rw [reach, worldReach, if_pos hzero] at hle
          obtain rfl : b = b' := by
            funext i
            rcases lt_or_ge i n with hi | hi
            · exact h (Set.mem_Iio.2 hi)
            · exact hbeyond (Set.mem_Ici.2 (by omega))
          exact fun i _ => rfl
      · -- with an IP header the total length is not overwritten
        apply eqOn_rewrite h (by omega) (by omega) (by omega)
        apply hreach.imp_right
        intro hle
        obtain ⟨htcp, hend⟩ := checksumEnd_world_le hvalid hpos t.1 t.2
        exact ⟨by omega, htcp, hend.trans hle⟩

/-- A handler does the same if it takes the same from both buffers. -/
theorem sameHandling_of_congr (hbeyond : Set.EqOn b b' (Set.Ici 9000)) (m : Machine) (count : Int)
    (ip : UInt32) (hvalid : validateIpTcp b 9000 = validateIpTcp b' 9000)
    (hacc : ∀ tcp, validateIpTcp b 9000 = some tcp →
      accept sender m count (segmentAt b tcp) = accept sender m count (segmentAt b' tcp))
    (hsent : ∀ tcp, validateIpTcp b 9000 = some tcp → ∀ t,
      Set.EqOn (rewriteFor sender b t) (rewriteFor sender b' t) (Set.Iio n)) :
    SameHandling n (handle sender m count b ip) (handle sender m count b' ip) := by
  have hreject : ∀ m' : Machine, SameHandling n (reject m' b) (reject m' b') := by
    intro m'
    refine ⟨rfl, rfl, rfl, by rintro ⟨⟩, fun i hi => ?_⟩
    have hge : 9000 ≤ i := Set.mem_Ici.1 hi
    show (fillinReset b).1 i = (fillinReset b').1 i
    rw [fillinReset_of_ge b (by omega), fillinReset_of_ge b' (by omega), hbeyond hi]
  cases hb : validateIpTcp b 9000 with
  | none =>
      rw [handle_invalid hb, handle_invalid (hvalid.symm.trans hb)]
      exact hreject m
  | some tcp =>
      have hb' := hvalid.symm.trans hb
      have hacc' := hacc tcp hb
      rcases hr : accept sender m count (segmentAt b tcp) with ⟨_ | s, m'⟩
      · rw [handle_rejected hb hr, handle_rejected hb' (hacc'.symm.trans hr)]
        exact hreject m'
      · obtain ⟨hret, hm, hbuf⟩ := handle_accepted ip hb hr
        obtain ⟨hret', hm', hbuf'⟩ := handle_accepted ip hb' (hacc'.symm.trans hr)
        refine ⟨by rw [hret, hret'], by rw [hm, hm'], ?_, fun _ => ?_, fun i hi => ?_⟩
        · rw [handle_clientIp ip hb hr, handle_clientIp ip hb' (hacc'.symm.trans hr)]
        · rw [hbuf, hbuf']
          exact hsent tcp hb _
        · have hge : 9000 ≤ i := Set.mem_Ici.1 hi
          rw [hbuf, hbuf', rewriteFor_of_ge _ _ _ (by omega), rewriteFor_of_ge _ _ _ (by omega),
            hbeyond hi]

/-- What stands behind a complete packet makes no difference. -/
theorem Complete.sameHandling {d : Buffer} (h : Complete sender d n)
    (hb : Set.EqOn b d (Set.Iio n)) (hb' : Set.EqOn b' d (Set.Iio n))
    (hbeyond : Set.EqOn b b' (Set.Ici 9000)) (m : Machine) (count : Int) (ip : UInt32) :
    SameHandling n (handle sender m count b ip) (handle sender m count b' ip) := by
  have hbb' : Set.EqOn b b' (Set.Iio n) := hb.trans hb'.symm
  rcases h with hinvalid | ⟨hfields, hreach⟩
  · -- both contents are rejected by validation
    have hnone : ∀ tcp, validateIpTcp b 9000 ≠ some tcp := by
      intro tcp htcp
      rw [hinvalid b hb] at htcp
      cases htcp
    apply sameHandling_of_congr hbeyond
    · rw [hinvalid b hb, hinvalid b' hb']
    · exact fun tcp htcp => absurd htcp (hnone tcp)
    · exact fun tcp htcp => absurd htcp (hnone tcp)
  · have hge := fieldsEnd_ge sender d
    have hfield : ∀ i < ihl d * 4 + 14, b i = d i := fun i hi => hb (Set.mem_Iio.2 (by omega))
    have hihl := ihl_congr (hfield 0 (by omega))
    rw [← fieldsEnd_congr (hfield 0 (by omega))] at hfields
    rw [← reach_congr (hfield 0 (by omega)) (hfield 2 (by omega)) (hfield 3 (by omega)),
      ← hihl] at hreach
    have hge' := fieldsEnd_ge sender b
    apply sameHandling_of_congr hbeyond
    · apply validateIpTcp_congr <;> exact hbb' (Set.mem_Iio.2 (by omega))
    · intro tcp htcp
      rw [(validateIpTcp_some htcp).1]
      exact accept_congr hbb' hfields m count
    · intro tcp htcp t
      exact eqOn_rewriteFor hbb' hbeyond htcp hfields hreach t

end Complete

/-- What stands behind a complete packet is not observed. -/
theorem Complete.noStaleBytes {sender : Sender} {d : Buffer} {n : Nat}
    (h : Complete sender d n) : NoStaleBytes sender d n := by
  intro pool m₀ calls count ip b b' _ hb hb' hbeyond
  exact (h.sameHandling hb hb' hbeyond _ count ip).sameOutcome

/-! ## A server with one session -/

/-- One bucket and one port. -/
def singlePort (q : UInt16) : PortPool where
  numEntry := 1
  minPort := q
  maxPort := q
  numEntry_pos := le_refl 1
  minPort_le := UInt16.le_refl q
  size_le := by omega

/-- The only port is the one that is probed. -/
theorem Configured.probedPort_singlePort {q : UInt16} {m : Machine}
    (h : Configured (singlePort q) m) (k : UInt32) : m.table.probedPort k = q := by
  apply UInt16.toNat_inj.1
  have hsize : (singlePort q).size = 1 := by
    show q.toNat - q.toNat + 1 = 1
    omega
  rw [h.probedPort_toNat, hsize, Nat.mod_one, Nat.zero_add]
  rfl

/-- A server whose only session, created at time `0`, has the key and the port of `v`. -/
def soleSession (v : TcpSession) : Machine :=
  perform (freshMachine (singlePort v.serverPort) fun _ => 0) (.add 0 v.clientIp v.clientPort 10)

section Sole

variable {v : TcpSession} (hv : v = newSession v.clientIp v.clientPort v.serverPort 10)

theorem soleSession_eq (v : TcpSession) :
    soleSession v = created (freshMachine (singlePort v.serverPort) fun _ => 0) v.clientIp
      v.clientPort v.serverPort 10 1 := by
  have hfresh := freshMachine_fresh (singlePort v.serverPort) fun _ => 0
  have hclient : getTcpSessionByClient (freshMachine (singlePort v.serverPort) fun _ => 0)
      v.clientIp v.clientPort = none := rfl
  have hsearch : searchPort (freshMachine (singlePort v.serverPort) fun _ => 0) 0
      (freshMachine (singlePort v.serverPort) fun _ => 0).table.nextNum =
        (some v.serverPort, 1) := by
    rw [searchPort, hfresh.configured.probedPort_singlePort]
    rfl
  rw [soleSession, perform, addTcpSession, hclient]
  dsimp only
  rw [hsearch]
  rfl

theorem soleSession_indexes (v : TcpSession) : Indexes (soleSession v) :=
  (freshMachine_fresh _ _).indexes.perform _

theorem soleSession_configured (v : TcpSession) :
    Configured (singlePort v.serverPort) (soleSession v) :=
  (freshMachine_fresh _ _).configured.perform _

theorem soleSession_inClient_iff (v : TcpSession) (s : SessionPtr) :
    InClient (soleSession v) s ↔ s = 0 := by
  have hfresh := freshMachine_fresh (singlePort v.serverPort) fun _ => 0
  rw [soleSession_eq]
  exact (created_inIndex_iff _ _ _ _ _ _ .client s).trans
    (or_iff_right (hfresh.not_inClient s))

include hv in
theorem soleSession_heap : (soleSession v).heap 0 = v := by
  rw [soleSession_eq]
  exact (created_heap_brk _ _ _ _ _ _).trans hv.symm

include hv in
theorem soleSession_stored : Stored v 0 (soleSession v) := by
  refine ⟨(soleSession_inClient_iff v 0).2 rfl, ?_, ?_⟩
  · rw [soleSession_eq]
    exact (created_inIndex_iff _ _ _ _ _ _ .world 0).2 (Or.inr rfl)
  · rw [soleSession_heap hv]
    exact SameIdentity.refl v

include hv in
/-- A packet of the session is accepted and updates it. -/
theorem handle_soleSession {sender : Sender} {b : Buffer} {tcp : Nat} (ip : UInt32)
    (hvalid : validateIpTcp b 9000 = some tcp) (hbel : Belongs v sender (segmentAt b tcp)) :
    (handle sender (soleSession v) 0 b ip).ret = .validSession ∧
      (handle sender (soleSession v) 0 b ip).machine.heap 0 =
        flags sender v (segmentAt b tcp) ∧
      (handle sender (soleSession v) 0 b ip).buffer =
        rewriteFor sender b (target sender ip v) := by
  have hlook := ((soleSession_stored hv).lookupSession_eq_some_iff (soleSession_indexes v) sender
    (segmentAt b tcp)).2 hbel
  have htime : (soleSession v).clock 0 ≤ ((soleSession v).heap 0).expire := by
    have hclock : (soleSession v).clock 0 = 0 := by
      rw [soleSession_eq]
      rfl
    have hexpire : v.expire = 10 := by rw [hv, newSession]
    rw [soleSession_heap hv, hclock, hexpire]
    omega
  have hacc := accept_of_lookup 0 hlook htime
  rw [soleSession_heap hv] at hacc
  obtain ⟨hret, hm, hbuf⟩ := handle_accepted ip hvalid hacc
  refine ⟨hret, ?_, ?_⟩
  · rw [hm, Machine.store_heap_self]
  · -- the flags do not change the fields that are written into the packet
    obtain ⟨hip, hport, hserver, -⟩ := flags_sameIdentity sender v (segmentAt b tcp)
    rw [hbuf, Machine.store_heap_self]
    cases sender with
    | client => rw [target, target, hserver]
    | world => rw [target, target, hip, hport]

include hv in
/-- A client packet with another key is rejected, since no port is left. -/
theorem handle_soleSession_other {b : Buffer} {tcp : Nat} {ip : UInt32}
    (hvalid : validateIpTcp b 9000 = some tcp)
    (hbel : ¬ Belongs v .client (segmentAt b tcp)) :
    (handle .client (soleSession v) 0 b ip).ret = .invalidSession := by
  have hidx := soleSession_indexes v
  have hstored := soleSession_stored hv
  have hunknown : ∀ s, getTcpSessionByClient (soleSession v) (segmentAt b tcp).saddr
      (segmentAt b tcp).source ≠ some s := by
    intro s hs
    obtain rfl := (soleSession_inClient_iff v s).1 ((hidx.getByClient_eq_some_iff _ _ s).1 hs).1
    exact hbel ((hstored.lookupSession_eq_some_iff hidx .client _).1 hs)
  have hheld : getTcpSessionByServer (soleSession v) v.serverPort ≠ none := by
    intro hnone
    exact (hidx.getByServer_eq_none_iff _).1 hnone 0 hstored.inServer hstored.identity.2.2.1
  rcases hacc : accept .client (soleSession v) 0 (segmentAt b tcp) with ⟨_ | s, m'⟩
  · rw [handle_rejected hvalid hacc]
    rfl
  · exfalso
    cases acceptClient_outcome hacc with
    | accepted s hs => exact hunknown _ hs
    | createdAccepted q n hsyn hs hq =>
        -- the port of a new session would have to be the one that is held
        obtain ⟨hfree, k, rfl⟩ := searchPort_some hq
        rw [(soleSession_configured v).probedPort_singlePort] at hfree
        exact hheld hfree

end Sole

/-! ## Incomplete packets -/

/-- The session the packet is to be accepted for. Its other end is chosen such that the rewriting
makes the TCP checksum read as far as it can. -/
def partner : Sender → Segment → TcpSession
  | .client, seg => newSession seg.saddr seg.source 0xA000 10
  | .world, seg => newSession 0xF0000000 9000 seg.dest 10

theorem partner_eq (sender : Sender) (seg : Segment) :
    partner sender seg = newSession (partner sender seg).clientIp (partner sender seg).clientPort
      (partner sender seg).serverPort 10 := by
  cases sender <;> rfl

theorem belongs_partner (sender : Sender) (seg : Segment) :
    Belongs (partner sender seg) sender seg := by
  cases sender with
  | client => exact ⟨rfl, rfl⟩
  | world => exact rfl

/-- With this session the checksum of an accepted packet covers everything below `reach`. -/
theorem coveredBy_partner {sender : Sender} {b : Buffer} {j : Nat} (hj : j < reach sender b)
    (seg : Segment) :
    ∃ ipField portField ip port, 0 < ipField ∧ ipField ≤ 16 ∧ portField ≤ 2 ∧
      (∀ b', rewriteFor sender b' (target sender 0xF0000000 (partner sender seg)) =
        rewrite ipField portField b' ip port) ∧
      CoveredBy (portWritten portField (replaceIp ipField b ip) port) (ihl b * 4) j := by
  cases sender with
  | client =>
      exact ⟨12, 0, 0xF0000000, 0xA000, by omega, by omega, by omega,
        fun b' => replaceSrcIpPort_eq b' _ _, coveredBy_client hj⟩
  | world =>
      exact ⟨16, 2, 0xF0000000, 9000, by omega, by omega, by omega,
        fun b' => replaceDstIpPort_eq b' _ _, coveredBy_world hj⟩

section Incomplete

variable {sender : Sender} {d b : Buffer} {n tcp : Nat}

/-- What the absence of stale bytes says about a server with one session. -/
theorem NoStaleBytes.soleSession (h : NoStaleBytes sender d n) (v : TcpSession) {b b' : Buffer}
    (hb : Set.EqOn b d (Set.Iio n)) (hb' : Set.EqOn b' d (Set.Iio n))
    (hbeyond : Set.EqOn b b' (Set.Ici 9000)) :
    SameOutcome n (handle sender (BenkerVpn.soleSession v) 0 b 0xF0000000)
      (handle sender (BenkerVpn.soleSession v) 0 b' 0xF0000000) :=
  h (singlePort v.serverPort) (freshMachine (singlePort v.serverPort) fun _ => 0)
    [.add 0 v.clientIp v.clientPort 10] 0 0xF0000000 b b' (freshMachine_fresh _ _) hb hb' hbeyond

theorem eqOn_put8_left (hb : Set.EqOn b d (Set.Iio n)) {j : Nat} (hj : n ≤ j) (x : UInt8) :
    Set.EqOn (put8 b j x) d (Set.Iio n) := by
  intro i hi
  have hi' := Set.mem_Iio.1 hi
  rw [put8_of_ne _ _ (by omega)]
  exact hb hi

theorem eqOn_put8_put8 (b : Buffer) {j : Nat} (hj : j < 9000) (x y : UInt8) :
    Set.EqOn (put8 b j x) (put8 b j y) (Set.Ici 9000) := by
  intro i hi
  have hi' := Set.mem_Ici.1 hi
  rw [put8_of_ne _ _ (by omega), put8_of_ne _ _ (by omega)]

/-- A byte that validation does not read may be changed. -/
theorem validateIpTcp_put8 (b : Buffer) {j : Nat} (x : UInt8) (h0 : j ≠ 0) (h2 : j ≠ 2)
    (h3 : j ≠ 3) (h9 : j ≠ 9) (hdoff : j ≠ ihl b * 4 + 12) :
    validateIpTcp (put8 b j x) 9000 = validateIpTcp b 9000 := by
  have hihl : ihl (put8 b j x) = ihl b := ihl_congr (put8_of_ne _ _ h0.symm)
  apply validateIpTcp_congr
  · exact put8_of_ne _ _ h0.symm
  · exact put8_of_ne _ _ h2.symm
  · exact put8_of_ne _ _ h3.symm
  · exact put8_of_ne _ _ h9.symm
  · rw [hihl]
    exact put8_of_ne _ _ hdoff.symm

/-- A byte outside the key may be changed. -/
theorem belongs_put8 {v : TcpSession} {j : Nat} {x : UInt8} (hj : j < tcp ∨ tcp + 4 ≤ j)
    (hip : sender = .client → j < 12 ∨ 16 ≤ j) (h : Belongs v sender (segmentAt b tcp)) :
    Belongs v sender (segmentAt (put8 b j x) tcp) := by
  cases sender with
  | client =>
      have hip := hip rfl
      obtain ⟨hsaddr, hsource⟩ := h
      refine ⟨?_, ?_⟩
      · rw [← hsaddr]
        exact be32_put8_of_disjoint _ _ (by omega)
      · rw [← hsource]
        exact be16_put8_of_ne _ _ (by omega) (by omega)
  | world =>
      have h : dest b tcp = v.serverPort := h
      show dest (put8 b j x) tcp = v.serverPort
      rw [← h]
      exact be16_put8_of_ne _ _ (by omega) (by omega)

/-- A server with the session that the packet belongs to accepts the packet with any octet in place
of one that neither validation nor the lookup reads. -/
theorem handle_partner_put8 (hvalid : validateIpTcp b 9000 = some (ihl b * 4)) {v : TcpSession}
    (hv : v = partner sender (segmentAt b (ihl b * 4))) {j : Nat} (hj : 10 ≤ j)
    (htcp : ihl b * 4 + 4 ≤ j) (hdoff : j ≠ ihl b * 4 + 12)
    (hip : sender = .client → j < 12 ∨ 16 ≤ j) (x : UInt8) :
    (handle sender (BenkerVpn.soleSession v) 0 (put8 b j x) 0xF0000000).ret = .validSession ∧
      (handle sender (BenkerVpn.soleSession v) 0 (put8 b j x) 0xF0000000).machine.heap 0 =
        flags sender v (segmentAt (put8 b j x) (ihl b * 4)) ∧
      (handle sender (BenkerVpn.soleSession v) 0 (put8 b j x) 0xF0000000).buffer =
        rewriteFor sender (put8 b j x) (target sender 0xF0000000 v) := by
  have hnew := partner_eq sender (segmentAt b (ihl b * 4))
  have hvalid' : validateIpTcp (put8 b j x) 9000 = some (ihl b * 4) := by
    rw [validateIpTcp_put8 b x (by omega) (by omega) (by omega) (by omega) hdoff, hvalid]
  have hbel := belongs_put8 (x := x) (Or.inr htcp) hip
    (belongs_partner sender (segmentAt b (ihl b * 4)))
  rw [hv]
  exact handle_soleSession hnew 0xF0000000 hvalid' hbel

/-- A segment that sets `FIN` only changes a new session, one without flags does not. -/
theorem flags_fin_ne (v : TcpSession) (hclient : v.clientFinState = 0)
    (hserver : v.serverFinState = 0) {seg seg' : Segment} (hfin : seg.fin = true)
    (hfin' : seg'.fin = false) (hsyn : seg.syn = false) (hsyn' : seg'.syn = false)
    (hack : seg.ack = false) (hack' : seg'.ack = false) :
    flags sender v seg ≠ flags sender v seg' := by
  cases sender with
  | client =>
      intro heq
      have heq := congrArg TcpSession.serverFinState heq
      simp [flags, clientFlags, hfin, hfin', hsyn, hsyn', hack, hack', hserver] at heq
  | world =>
      intro heq
      have heq := congrArg TcpSession.clientFinState heq
      simp [flags, worldFlags, hfin, hfin', hsyn, hsyn', hack, hack', hclient] at heq

/-- If the flags do not belong to the packet, a leftover decides about `FIN`. -/
theorem not_noStaleBytes_of_flags (hb : Set.EqOn b d (Set.Iio n))
    (hvalid : validateIpTcp b 9000 = some tcp) (hn : n < ihl b * 4 + 14)
    (hip : sender = .client → ihl b ≠ 0) : ¬ NoStaleBytes sender d n := by
  intro h
  obtain ⟨rfl, -, -⟩ := validateIpTcp_some hvalid
  have hlt : ihl b < 16 := Nat.mod_lt _ (by omega)
  obtain ⟨v, hv⟩ : ∃ v, v = partner sender (segmentAt b (ihl b * 4)) := ⟨_, rfl⟩
  have hnew := partner_eq sender (segmentAt b (ihl b * 4))
  rw [← hv] at hnew
  -- a server whose session the packet belongs to, and two flag bytes: `FIN` and none
  have hsame := h.soleSession v
    (eqOn_put8_left hb (show n ≤ ihl b * 4 + 13 by omega) 1)
    (eqOn_put8_left hb (show n ≤ ihl b * 4 + 13 by omega) 0)
    (eqOn_put8_put8 b (show ihl b * 4 + 13 < 9000 by omega) 1 0)
  have hoff : sender = .client → ihl b * 4 + 13 < 12 ∨ 16 ≤ ihl b * 4 + 13 := by
    intro hsender
    have := hip hsender
    omega
  have hhandled := handle_partner_put8 hvalid hv (show 10 ≤ ihl b * 4 + 13 by omega) (by omega)
    (by omega) hoff
  have hbit : ∀ (x : UInt8) (k : Nat),
      (put8 b (ihl b * 4 + 13) x (ihl b * 4 + 13)).toNat.testBit k = x.toNat.testBit k := by
    intro x k
    rw [put8_self]
  have hheap := congrFun hsame.heap 0
  rw [(hhandled 1).2.1, (hhandled 0).2.1] at hheap
  revert hheap
  apply flags_fin_ne
  · rw [hnew, newSession]
  · rw [hnew, newSession]
  · exact hbit 1 0
  · exact hbit 0 0
  · exact hbit 1 1
  · exact hbit 0 1
  · exact hbit 1 4
  · exact hbit 0 4

/-- If the source address does not belong to a packet without IP header, a leftover decides about
the session. -/
theorem not_noStaleBytes_of_saddr (hb : Set.EqOn b d (Set.Iio n))
    (hvalid : validateIpTcp b 9000 = some tcp) (hn : n < 16) (hihl : ihl b = 0) :
    ¬ NoStaleBytes .client d n := by
  intro h
  obtain ⟨rfl, -, -⟩ := validateIpTcp_some hvalid
  have hv := partner_eq .client (segmentAt b (ihl b * 4))
  have hsame := h.soleSession (partner .client (segmentAt b (ihl b * 4))) hb
    (eqOn_put8_left hb (show n ≤ 15 by omega) (b 15 + 1)) (by
      intro i hi
      have hi' := Set.mem_Ici.1 hi
      rw [put8_of_ne _ _ (by omega)])
  have hvalid' : validateIpTcp (put8 b 15 (b 15 + 1)) 9000 = some (ihl b * 4) := by
    rw [validateIpTcp_put8 b _ (by omega) (by omega) (by omega) (by omega) (by omega), hvalid]
  -- another last byte of the address is another key
  have hother : ¬ Belongs (partner .client (segmentAt b (ihl b * 4))) .client
      (segmentAt (put8 b 15 (b 15 + 1)) (ihl b * 4)) := by
    rintro ⟨hsaddr, -⟩
    have hsaddr : be32 (put8 b 15 (b 15 + 1)) 12 = be32 b 12 := hsaddr
    have htoNat := congrArg UInt32.toNat hsaddr
    have hlow : (be16 (put8 b 15 (b 15 + 1)) 14).toNat = (b 14).toNat * 256 + (b 15 + 1).toNat := by
      rw [toNat_be16, put8_of_ne _ _ (by omega), put8_self]
    have hlow' : (be16 b 14).toNat = (b 14).toNat * 256 + (b 15).toNat := toNat_be16 b 14
    rw [toNat_be32, toNat_be32, be16_put8_of_ne _ _ (by omega) (by omega), hlow, hlow',
      UInt8.toNat_add] at htoNat
    have hone : (1 : UInt8).toNat = 1 := rfl
    have hlt := (b 15).toNat_lt
    omega
  have hret := hsame.ret
  -- accepted with one content, rejected with the other
  rw [(handle_soleSession hv _ hvalid (belongs_partner _ _)).1,
    handle_soleSession_other hv hvalid' hother] at hret
  cases hret

/-- If the TCP checksum belongs to the packet and reads more than the packet, a leftover decides
about the checksum. -/
theorem not_noStaleBytes_of_checksum (hb : Set.EqOn b d (Set.Iio n))
    (hvalid : validateIpTcp b 9000 = some tcp) (hcheck : ihl b * 4 + 16 < n)
    (hreach : max n (ihl b * 4 + 18) < reach sender b) : ¬ NoStaleBytes sender d n := by
  intro h
  obtain ⟨rfl, -, -⟩ := validateIpTcp_some hvalid
  obtain ⟨v, hv⟩ : ∃ v, v = partner sender (segmentAt b (ihl b * 4)) := ⟨_, rfl⟩
  have hle := reach_le hvalid sender
  -- the first octet that is neither received nor an address nor cleared
  obtain ⟨j, hj⟩ : ∃ j, j = max (max n (ihl b * 4 + 18)) 20 := ⟨_, rfl⟩
  have hlt : j < reach sender b := by
    rcases Nat.eq_zero_or_pos (ihl b) with hzero | hpos
    · have := le_reach hzero sender
      omega
    · omega
  have hsame := h.soleSession v (eqOn_put8_left hb (show n ≤ j by omega) 0)
    (eqOn_put8_left hb (show n ≤ j by omega) 128) (eqOn_put8_put8 b (show j < 9000 by omega) 0 128)
  have hhandled := handle_partner_put8 hvalid hv (show 10 ≤ j by omega) (by omega) (by omega)
    (fun _ => by omega)
  -- both are accepted and should be sent alike, but the octet at `j` counts in the checksum
  have hsent := hsame.sent (hhandled 0).1
  rw [(hhandled 0).2.2, (hhandled 128).2.2, hv] at hsent
  have hihl : ihl (put8 b j 0) = ihl b := ihl_congr (put8_of_ne _ _ (by omega))
  have hreach' : reach sender (put8 b j 0) = reach sender b := by
    apply reach_congr <;> exact put8_of_ne _ _ (by omega)
  obtain ⟨ipField, portField, ip, port, hip, hip', hport, hrewrite, hcover⟩ :=
    coveredBy_partner (hreach'.symm ▸ hlt) (segmentAt b (ihl b * 4))
  rw [hrewrite, hrewrite] at hsent
  have hdiffers : ∃ i < n, rewrite ipField portField (put8 b j 0) ip port i ≠
      rewrite ipField portField (put8 b j 128) ip port i := by
    refine rewrite_differs hip hip' hport ?_ (put8_self _ _ _) (put8_self _ _ _) (by omega)
      (by omega) hcover (by omega) (by omega)
    intro k hk
    rw [put8_of_ne _ _ hk, put8_of_ne _ _ hk]
  obtain ⟨i, hi, hne⟩ := hdiffers
  exact hne (hsent (Set.mem_Iio.2 hi))

/-- An incomplete packet leaves something to the leftover. -/
theorem NoStaleBytes.complete (hn : 1 ≤ n) (h : NoStaleBytes sender d n) :
    Complete sender d n := by
  by_contra hno
  rw [Complete, not_or, not_forall] at hno
  obtain ⟨⟨b, hb⟩, hlack⟩ := hno
  obtain ⟨hb, hvalid⟩ := not_forall.1 hb
  obtain ⟨tcp, hvalid⟩ := Option.ne_none_iff_exists'.1 hvalid
  have h0 : b 0 = d 0 := hb (Set.mem_Iio.2 (by omega))
  have hihl := ihl_congr h0
  rw [← fieldsEnd_congr h0, ← hihl] at hlack
  have hge := fieldsEnd_ge sender b
  rcases lt_or_ge n (fieldsEnd sender b) with hshort | hlong
  · -- a field that the handler reads is missing
    by_cases hip : sender = .client ∧ ihl b = 0
    · obtain ⟨rfl, hzero⟩ := hip
      rw [fieldsEnd] at hshort
      exact not_noStaleBytes_of_saddr hb hvalid (by omega) hzero h
    · refine not_noStaleBytes_of_flags hb hvalid ?_ (fun hs hz => hip ⟨hs, hz⟩) h
      cases sender with
      | client =>
          rw [fieldsEnd] at hshort
          have : ihl b ≠ 0 := fun hz => hip ⟨rfl, hz⟩
          omega
      | world => exact hshort
  · -- the checksum is sent, and something it reads is missing
    rw [← reach_congr h0 (hb (Set.mem_Iio.2 (by omega))) (hb (Set.mem_Iio.2 (by omega)))] at hlack
    have hneither := fun hor => hlack ⟨hlong, hor⟩
    rw [imp_false, not_or, not_le, not_le] at hneither
    exact not_noStaleBytes_of_checksum hb hvalid hneither.1 hneither.2 h

end Incomplete

/-- What the handlers do depends on bytes behind the packet exactly if the packet is
incomplete, for every state of the server and every content of its buffer. -/
theorem noStaleBytes_iff (sender : Sender) (d : Buffer) {n : Nat} (hn : 1 ≤ n) :
    NoStaleBytes sender d n ↔ Complete sender d n :=
  ⟨fun h => h.complete hn, fun h => h.noStaleBytes⟩

/-- A `SYN` that is received in full is complete. -/
theorem noStaleBytes_syn : NoStaleBytes .client (packetOf sampleSyn) 40 := by
  apply (noStaleBytes_iff .client (packetOf sampleSyn) (show 1 ≤ 40 by omega)).2
  refine Or.inr ⟨?_, Or.inr ?_⟩
  · decide +kernel
  · decide +kernel

/-- The flags of a datagram of 33 bytes are those of an earlier packet: with a leftover `SYN` the
server opens a session, without it the datagram is rejected. -/
theorem leftover_opens_session :
    let m₀ := freshMachine smallPool fun _ => 0
    let b := packetOf sampleSyn
    let b' := put8 b 33 0
    Fresh smallPool m₀ ∧ Set.EqOn b' b (Set.Iio 33) ∧ Set.EqOn b b' (Set.Ici 9000) ∧
      (handle .client m₀ 0 b 3232266986).ret = .validSession ∧
      (handle .client m₀ 0 b' 3232266986).ret = .invalidSession ∧
      ¬ NoStaleBytes .client b 33 := by
  intro m₀ b b'
  have hfront : Set.EqOn b' b (Set.Iio 33) := fun i hi => put8_of_ne _ _ (ne_of_lt hi)
  have hbeyond : Set.EqOn b b' (Set.Ici 9000) := by
    intro i hi
    have hi' := Set.mem_Ici.1 hi
    exact (put8_of_ne _ _ (by omega)).symm
  have hvalid : (handle .client m₀ 0 b 3232266986).ret = .validSession := by decide +kernel
  have hinvalid : (handle .client m₀ 0 b' 3232266986).ret = .invalidSession := by decide +kernel
  refine ⟨freshMachine_fresh smallPool _, hfront, hbeyond, hvalid, hinvalid, ?_⟩
  intro h
  have hsame := h smallPool m₀ [] 0 3232266986 b b' (freshMachine_fresh smallPool _)
    (fun i _ => rfl) hfront hbeyond
  have hret := hsame.ret
  rw [exec_nil, hvalid, hinvalid] at hret
  cases hret

end BenkerVpn

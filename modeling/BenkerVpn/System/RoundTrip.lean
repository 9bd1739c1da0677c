import BenkerVpn.Handler.Leftover
import BenkerVpn.Packet.Sealed
import BenkerVpn.Server.Reply
import BenkerVpn.System.Translation

/-!
# There and back

A packet that is all there (`Whole`) is translated without regard to what the buffers held before
(`Whole.translatesOut`, `Whole.sentBytes_replaceDst`). Once the server has accepted a packet of a
flow, an answer to the port of the flow comes back to the TUN device with the address of the flow,
whatever both programs have done in the meantime, as long as the session has not expired, the client
was the last to send a datagram, and `sock_len`, which is not initialised, is large enough
(`vpn_roundTrip`).
-/

set_option autoImplicit false

namespace BenkerVpn

open Library.Octets Library.Runs

/-! ## Whole packets -/

/-- The packet alone. -/
def packetIn (payload : List UInt8) : Buffer := received (fun _ => 0) maxBuf payload

/-- A TCP packet of which every byte was received. -/
structure Whole (payload : List UInt8) : Prop where
  length_le : payload.length ≤ maxBuf
  protocol_eq : protocol (packetIn payload) = ipprotoTcp
  lengths : WellFormed (packetIn payload) payload.length

/-- The source of a packet. -/
def sourceKey (payload : List UInt8) : ClientKey :=
  (saddr (packetIn payload), source (packetIn payload) (ihl (packetIn payload) * 4))

/-- The destination port of a packet. -/
def destPort (payload : List UInt8) : UInt16 :=
  dest (packetIn payload) (ihl (packetIn payload) * 4)

/-- The packet with the address of the server and a port as its source. -/
def withSource (payload : List UInt8) (q : UInt16) : List UInt8 :=
  sentBytes (replaceSrcIpPort (packetIn payload) serverIp q) payload.length

/-- The packet with a client key as its destination. -/
def withDest (payload : List UInt8) (k : ClientKey) : List UInt8 :=
  sentBytes (replaceDstIpPort (packetIn payload) k.1 k.2) payload.length

/-- A rewrite reads nothing behind a packet with full headers. -/
theorem eqOn_rewrite_of_wellFormed {b b' : Buffer} {n : Nat} (hwf : WellFormed b n)
    (h : Set.EqOn b b' (Set.Iio n)) {ipField portField : Nat} (hip : 12 ≤ ipField)
    (hip' : ipField + 4 ≤ 20) (hport : portField ≤ 2) (ip : UInt32) (port : UInt16) :
    Set.EqOn (rewrite ipField portField b ip port) (rewrite ipField portField b' ip port)
      (Set.Iio n) := by
  have hihl := hwf.ihl_ge
  have hdoff := hwf.doff_ge
  have hheaders := hwf.headers_le
  have htot := hwf.totLen_le
  apply eqOn_rewrite h (by omega) (by omega) (by omega)
  right
  rw [checksumEnd, ihl_written (by omega) (by omega), doff_written (by omega) hport (by omega),
    totLen_written (by omega) (by omega)]
  exact ⟨by omega, le_refl _, by omega⟩

section Whole

variable {payload : List UInt8} (h : Whole payload) (prev : Buffer)
include h

theorem Whole.eqOn : Set.EqOn (received prev maxBuf payload) (packetIn payload)
    (Set.Iio payload.length) := by
  intro i hi
  have hlt : i < (payload.take maxBuf).length := by
    rw [List.take_of_length_le h.length_le]
    exact hi
  rw [packetIn, received_of_lt _ _ _ hlt, received_of_lt _ _ _ hlt]

theorem Whole.length_ge : 40 ≤ payload.length := by
  have hihl := h.lengths.ihl_ge
  have hdoff := h.lengths.doff_ge
  have hheaders := h.lengths.headers_le
  have htot := h.lengths.totLen_le
  omega

/-- A whole packet is valid and has the same header fields in every buffer. -/
theorem Whole.segmentOf_eq :
    segmentOf (received prev maxBuf payload) maxBuf =
      some (segmentAt (packetIn payload) (ihl (packetIn payload) * 4)) := by
  have hlen := h.length_ge
  have hcongr : ∀ i < 20, received prev maxBuf payload i = packetIn payload i := fun i hi =>
    h.eqOn prev (Set.mem_Iio.2 (by omega))
  have hihl : ihl (received prev maxBuf payload) = ihl (packetIn payload) :=
    ihl_congr (hcongr 0 (by omega))
  have hheader : ∀ i, ihl (packetIn payload) * 4 ≤ i → i < ihl (packetIn payload) * 4 + 20 →
      received prev maxBuf payload i = packetIn payload i := by
    intro i _ hi
    have hdoff := h.lengths.doff_ge
    have hheaders := h.lengths.headers_le
    have htot := h.lengths.totLen_le
    exact h.eqOn prev (Set.mem_Iio.2 (by omega))
  have hvalid : validateIpTcp (packetIn payload) maxBuf = some (ihl (packetIn payload) * 4) := by
    apply (validateIpTcp_eq_some_iff (by decide) _).2
    have hbuf : (payload.length : Int) ≤ maxBuf := Int.ofNat_le.2 h.length_le
    have hwf : WellFormed (packetIn payload) maxBuf :=
      ⟨h.lengths.ihl_ge, h.lengths.doff_ge, h.lengths.headers_le, h.lengths.totLen_le.trans hbuf⟩
    exact ⟨rfl, hwf.validated h.protocol_eq⟩
  have hvalid' : validateIpTcp (received prev maxBuf payload) maxBuf =
      validateIpTcp (packetIn payload) maxBuf := by
    apply validateIpTcp_congr (hcongr 0 (by omega)) (hcongr 2 (by omega)) (hcongr 3 (by omega))
      (hcongr 9 (by omega))
    rw [hihl]
    exact hheader _ (by omega) (by omega)
  rw [segmentOf, hvalid', hvalid, Option.map_some, segmentAt_congr fun i hi hi' =>
    hheader i hi (by omega)]
  have hsaddr : saddr (received prev maxBuf payload) = saddr (packetIn payload) :=
    be32_congr fun i _ hi => hcongr i (by omega)
  rw [hsaddr]
  rfl

/-- What leaves is the packet with another source, whatever the buffer held. -/
theorem Whole.translatesOut {T : ClientKey ≃. UInt16} {out : List UInt8}
    (hout : TranslatesOut T (received prev maxBuf payload) payload.length out) :
    ∃ q, T (sourceKey payload) = some q ∧ out = withSource payload q := by
  obtain ⟨seg, q, hseg, hq, rfl⟩ := hout
  obtain rfl := Option.some.inj (hseg.symm.trans (h.segmentOf_eq prev))
  refine ⟨q, hq, (sentBytes_congr ?_).symm⟩
  exact eqOn_rewrite_of_wellFormed h.lengths (h.eqOn prev).symm (by omega) (by omega) (by omega) _ _

/-- What comes back is the packet with another destination. -/
theorem Whole.sentBytes_replaceDst (k : ClientKey) :
    sentBytes (replaceDstIpPort (received prev maxBuf payload) k.1 k.2) payload.length =
      withDest payload k := by
  refine (sentBytes_congr ?_).symm
  exact eqOn_rewrite_of_wellFormed h.lengths (h.eqOn prev).symm (by omega) (by omega) (by omega) _ _

end Whole

/-! ## The answer -/

/-- The session of the key, if it has one, is not expired when the clock is read next. -/
def LiveKey (s : VpnServer) (k : ClientKey) : Prop :=
  ∀ p, getTcpSessionByClient s.machine k.1 k.2 = some p →
    s.machine.clock 0 ≤ (s.machine.heap p).expire

section Answer

variable {s : VpnServer} {T : ClientKey ≃. UInt16}

/-- A frame for the port of a live key is accepted. -/
theorem Denotes.accepts (h : Denotes s T) {k : ClientKey} {q : UInt16} (hk : T k = some q)
    (hlive : LiveKey s k) {b : Buffer} {seg : Segment} (hseg : segmentOf b maxBuf = some seg)
    (hdest : seg.dest = q) :
    (handleWorldPacket s.machine b maxBuf).ret = .validSession ∧
      (handleWorldPacket s.machine b maxBuf).buffer = replaceDstIpPort b k.1 k.2 := by
  obtain ⟨-, -, hinv, rfl⟩ := h
  subst hdest
  obtain ⟨p, hp, hkey, hport⟩ := (hinv.translation_eq_some_iff k seg.dest).1 hk
  have hserver : lookupSession s.machine .world seg = some p :=
    (hinv.indexes.getByServer_eq_some_iff seg.dest p).2 ⟨(hinv.agree p).1 hp, hport⟩
  have hclient : getTcpSessionByClient s.machine k.1 k.2 = some p :=
    (hinv.indexes.getByClient_eq_some_iff k.1 k.2 p).2 ⟨hp, hkey⟩
  have hret : (handleWorldPacket s.machine b maxBuf).ret = .validSession := by
    apply (handleWorldPacket_ret_iff _ _ _).2
    rw [session_eq_of_lookup (Call.segment_world hseg) hserver, if_pos (hlive p hclient)]
    rfl
  refine ⟨hret, ?_⟩
  obtain ⟨k', hk', hbuffer⟩ := world_translated hinv hseg hret
  obtain rfl : k' = k := Option.some.inj (hk'.symm.trans ((PEquiv.eq_some_iff _).2 hk))
  exact hbuffer

/-- The server sends the answer to `raddr`. -/
theorem Denotes.answers (h : Denotes s T) {k : ClientKey} {frame : RawFrame}
    (hwhole : Whole frame.payload) (hk : T k = some (destPort frame.payload)) (hlive : LiveKey s k)
    {input : WorldInput} (htaken : input.taken = some frame) (hsend : input.sendOk = true) :
    (serveWorld s input).2 = some (withDest frame.payload k, s.raddr) := by
  obtain ⟨prev, hread⟩ := getIpPacket_of_taken htaken s.buf s.bufLen input.recvError
  rw [← rawRead] at hread
  have hlen := hwhole.length_ge
  have htake : frame.payload.take maxBuf = frame.payload :=
    List.take_of_length_le hwhole.length_le
  obtain ⟨hret, hbuffer⟩ := h.accepts hk hlive (hwhole.segmentOf_eq prev) rfl
  rw [h.bufLen, htake] at hread
  rw [serveWorld_eq, h.bufLen, hread]
  dsimp only
  rw [if_neg (by omega), if_neg (by omega), afterWorld]
  simp only [hret, hsend, if_true, hbuffer, Int.toNat_natCast]
  rw [← hwhole.sentBytes_replaceDst prev]

end Answer

/-! ## The round trip -/

section Steps

variable {addr : SockaddrIn} {start : Vpn} {events : List VpnEvent} {v : Vpn}
  {T : ClientKey ≃. UInt16}

/-- The last datagram that the client has sent, if it has sent one. -/
theorem recv_tunToUdp (h : History addr start events v T) {src : SockaddrIn}
    {payload packet : List UInt8}
    (hrecv : (Delivery.sent v.uplink.length).recv
      (v.step addr (.tunToUdp (.packet payload) true)).uplink addr = .datagram src packet) :
    packet = payload.take maxBuf := by
  rw [Vpn.step] at hrecv
  cases hc : v.client with
  | none =>
      -- the client has ended, and there is no such datagram
      rw [hc] at hrecv
      simp [Delivery.recv] at hrecv
  | some c =>
      rw [hc] at hrecv
      simp only [clientSend, if_true, Option.map_some, Option.toList_some, Delivery.recv,
        List.getElem?_concat_length] at hrecv
      obtain ⟨-, rfl⟩ := UdpRecv.datagram.inj hrecv
      rw [sentBytes_received, h.client c hc]

theorem wire_tunToUdp (addr : SockaddrIn) (read : TunRead) (sendOk : Bool) :
    (v.step addr (.tunToUdp read sendOk)).wire = v.wire := by
  rw [Vpn.step]
  cases v.client with
  | none => rfl
  | some c => rfl

/-- A datagram that makes the server write something is translated. -/
theorem History.writes (h : History addr start events v T) {delivery : Delivery} {count : Int}
    {sendOk : Bool} (hwire : (v.step addr (.udpToWire delivery count sendOk)).wire ≠ v.wire) :
    ∃ T' out src packet prev,
      History addr start (events ++ [.udpToWire delivery count sendOk])
        (v.step addr (.udpToWire delivery count sendOk)) T' ∧
      (v.step addr (.udpToWire delivery count sendOk)).wire = v.wire ++ [out] ∧
      delivery.recv v.uplink addr = .datagram src packet ∧
      TranslatesOut T' (received prev maxBuf packet) (packet.take maxBuf).length out := by
  cases hs : v.server with
  | none =>
      -- without a server nothing is written
      rw [Vpn.step, hs] at hwire
      exact absurd rfl hwire
  | some s =>
      obtain ⟨T', hhalf⟩ := (h.server s hs).outboundHalf
        ⟨delivery.recv v.uplink addr, count, sendOk⟩
      have hwrites : (v.step addr (.udpToWire delivery count sendOk)).wire = v.wire ++
          (serveClient s ⟨delivery.recv v.uplink addr, count, sendOk⟩).2.toList := by
        rw [Vpn.step, hs]
      cases hout : (serveClient s ⟨delivery.recv v.uplink addr, count, sendOk⟩).2 with
      | none =>
          rw [hwrites, hout] at hwire
          exact absurd (List.append_nil _) hwire
      | some out =>
          obtain ⟨_, _, ⟨src, packet, hrecv, rfl, -, rfl⟩, htrans⟩ := hhalf.sent out hout
          rw [(h.server s hs).bufLen] at htrans
          refine ⟨T', out, src, packet, s.buf, h.udpToWire_of_half hs hhalf, ?_, hrecv, htrans⟩
          rw [hwrites, hout]
          rfl

/-- A packet that the server accepts leaves by the translation. -/
theorem History.forwards (h : History addr start events v T) (payload : List UInt8)
    (count : Int) :
    let forward := [.tunToUdp (.packet payload) true, .udpToWire (.sent v.uplink.length) count true]
    let sent := exec (Vpn.step addr) v forward
    sent.wire ≠ v.wire →
      ∃ T' out prev, History addr start (events ++ forward) sent T' ∧
        sent.wire = v.wire ++ [out] ∧
        TranslatesOut T' (received prev maxBuf payload) (payload.take maxBuf).length out := by
  intro forward sent hwire
  have hkeep := @wire_tunToUdp v addr (.packet payload) true
  have hwire' : sent.wire ≠ (v.step addr (.tunToUdp (.packet payload) true)).wire := by
    rw [hkeep]
    exact hwire
  obtain ⟨T', out, src, packet, prev, hsecond, hwritten, hrecv, htrans⟩ :=
    (h.tunToUdp (.packet payload) true).writes hwire'
  rw [hkeep] at hwritten
  rw [recv_tunToUdp h hrecv, received_take, List.take_take, Nat.min_self] at htrans
  rw [List.append_assoc] at hsecond
  exact ⟨T', out, prev, hsecond, hwritten, htrans⟩

theorem tun_udpToTun {c : VpnClient} (hc : v.client = some c) (addr : SockaddrIn)
    (delivery : Delivery) (writeOk : Bool) :
    (v.step addr (.udpToTun delivery writeOk)).tun = v.tun ++
      (clientReceive c (delivery.recv (v.sentTo addr) c.raddr) writeOk).2.toList := by
  rw [Vpn.step, hc]

/-- What the server sends to the client is written to the TUN device. -/
theorem tun_of_answer {s : VpnServer} {c : VpnClient} (hs : v.server = some s)
    (hc : v.client = some c) {input : WorldInput} {out : List UInt8}
    (hout : (serveWorld s input).2 = some (out, addr)) (hpos : 0 < out.length)
    (hlen : out.length ≤ c.bufLen) :
    (exec (Vpn.step addr) v
      [.wireToUdp input, .udpToTun (.sent (v.sentTo addr).length) true]).tun = v.tun ++ [out] := by
  rw [exec_cons, exec_cons, exec_nil]
  have hfirst : v.step addr (.wireToUdp input) =
      { v with server := (serveWorld s input).1, downlink := v.downlink ++ [(out, addr)] } := by
    rw [Vpn.step, hs]
    dsimp only
    rw [hout]
    rfl
  have hsentTo : (v.step addr (.wireToUdp input)).sentTo addr = v.sentTo addr ++ [out] := by
    rw [hfirst, Vpn.sentTo, List.filter_append, List.map_append]
    simp [Vpn.sentTo]
  have hrecv : (Delivery.sent (v.sentTo addr).length).recv
      ((v.step addr (.wireToUdp input)).sentTo addr) c.raddr = .datagram c.raddr out := by
    rw [hsentTo, Delivery.recv, List.getElem?_concat_length]
  have htake : out.take c.bufLen = out := List.take_of_length_le hlen
  have hclient : (v.step addr (.wireToUdp input)).client = some c := by
    rw [hfirst]
    exact hc
  rw [tun_udpToTun hclient, hrecv, clientReceive]
  dsimp only [readMsgUdp]
  rw [if_neg (by omega), if_neg (by rw [htake]; omega), if_pos rfl, Int.toNat_natCast,
    sentBytes_received, htake, hfirst]
  rfl

end Steps

/-- An accepted packet opens the way back. From any state that the two programs reach, let the
client pass on a whole packet, and the server read it. If the server writes something to the raw
socket, it is the packet with the address of the server and a port of the range as its source. From
then on, whatever happens between, every whole frame to that port is written to the TUN device with
the source of the packet as its destination, if both programs still run, the session has not
expired, the last datagram the server has read came from the client, and `sock_len` happens to leave
room for the fields that say for whom a frame is. -/
theorem vpn_roundTrip (addr : SockaddrIn) (client : VpnClient) (server : VpnServer)
    (before between : List VpnEvent) {payload : List UInt8} (hpayload : Whole payload)
    (count : Int) :
    let v := exec (Vpn.step addr) (Vpn.init client server) before
    let sent := exec (Vpn.step addr) v
      [.tunToUdp (.packet payload) true, .udpToWire (.sent v.uplink.length) count true]
    let later := exec (Vpn.step addr) sent between
    sent.wire ≠ v.wire →
      ∃ q, InRange serverPool q ∧ sent.wire = v.wire ++ [withSource payload q] ∧
        ∀ s c frame skipped rest recvError sockLen ll, later.server = some s →
          later.client = some c → LiveKey s (sourceKey payload) → s.raddr = addr →
          Whole frame.payload → destPort frame.payload = q → frame.ForHost →
          (∀ f ∈ skipped, ¬ f.ForHost) → 12 ≤ sockLen →
            (exec (Vpn.step addr) later
              [.wireToUdp ⟨skipped ++ frame :: rest, recvError, sockLen, ll, true⟩,
                .udpToTun (.sent (later.sentTo addr).length) true]).tun =
              later.tun ++ [withDest frame.payload (sourceKey payload)] := by
  intro v sent later hwire
  obtain ⟨T, -, hv⟩ := (history_init addr client server).run before
  obtain ⟨T₁, out, prev, hsent, hwritten, htrans⟩ := hv.forwards payload count hwire
  rw [List.take_of_length_le hpayload.length_le] at htrans
  obtain ⟨q, hq, rfl⟩ := hpayload.translatesOut prev htrans
  refine ⟨q, (hsent.bound _ _ hq).1, hwritten, ?_⟩
  intro s c frame skipped rest recvError sockLen ll hs hc hlive hraddr hframe hdest hhost hskipped
    hroom
  -- the pair of the packet still stands in the table
  obtain ⟨T₂, hle, hlater⟩ := hsent.run between
  have hk : T₂ (sourceKey payload) = some (destPort frame.payload) := by
    rw [hdest]
    exact PEquiv.le_def.1 hle _ _ hq
  have htaken : (WorldInput.mk (skipped ++ frame :: rest) recvError sockLen ll true).taken =
      some frame := takenFrame_skipped hroom hskipped hhost rest
  have hanswer := (hlater.server s hs).answers hframe hk hlive htaken rfl
  rw [hraddr] at hanswer
  have hlength : (withDest frame.payload (sourceKey payload)).length = frame.payload.length := by
    rw [withDest, length_sentBytes]
  apply tun_of_answer hs hc hanswer
  · rw [hlength]
    have := hframe.length_ge
    omega
  · rw [hlength, hlater.client c hc]
    exact hframe.length_le

/-! ## A concrete round trip -/

/-- The packet that carries the segment, as it is read from a socket. -/
def packetBytes (seg : Segment) : List UInt8 := sentBytes (packetOf seg) 40

theorem sampleSyn_whole : Whole (packetBytes sampleSyn) :=
  ⟨by decide +kernel, by decide +kernel,
    by decide +kernel, by decide +kernel, by decide +kernel, by decide +kernel⟩

theorem sampleSynAck_whole : Whole (packetBytes sampleSynAck) :=
  ⟨by decide +kernel, by decide +kernel,
    by decide +kernel, by decide +kernel, by decide +kernel, by decide +kernel⟩

/-- The two programs before their first iteration. -/
def freshVpn : Vpn := Vpn.init { buf := fun _ => 0, bufLen := 0, raddr := ⟨0, 0⟩ } freshServer

/-- The client passes on a `SYN`, and the server takes it. -/
def sampleForward : List VpnEvent :=
  [.tunToUdp (.packet (packetBytes sampleSyn)) true, .udpToWire (.sent 0) 0 true]

/-- A frame for this host. -/
def sampleFrame : RawFrame := ⟨⟨packetHost, 6⟩, packetBytes sampleSynAck⟩

/-- The port of a packet that leaves can be read from it. -/
theorem withSource_injective {payload : List UInt8} (h : Whole payload) {q q' : UInt16}
    (heq : withSource payload q = withSource payload q') : q = q' := by
  have hihl := h.lengths.ihl_ge
  have hdoff := h.lengths.doff_ge
  have hheaders := h.lengths.headers_le
  have htot := h.lengths.totLen_le
  have hbyte : ∀ i < payload.length, replaceSrcIpPort (packetIn payload) serverIp q i =
      replaceSrcIpPort (packetIn payload) serverIp q' i := by
    intro i hi
    have hget := congrArg (·[i]?) heq
    simpa [withSource, sentBytes, List.getElem?_map, List.getElem?_range hi] using hget
  have hport := be16_rewrite (packetIn payload) 12 0 serverIp q (by omega) (by omega)
  have hport' := be16_rewrite (packetIn payload) 12 0 serverIp q' (by omega) (by omega)
  rw [← hport, ← hport']
  exact be16_congr (hbyte _ (by omega)) (hbyte _ (by omega))

/-- The `SYN` of a client opens the way for its answer. -/
theorem vpn_roundTrip_syn :
    (exec (Vpn.step clientAddress) (exec (Vpn.step clientAddress) freshVpn sampleForward)
      [.wireToUdp ⟨[sampleFrame], false, 20, ⟨0, 0⟩, true⟩, .udpToTun (.sent 0) true]).tun =
      [withDest (packetBytes sampleSynAck) (167772161, 5000)] := by
  have hwire : (exec (Vpn.step clientAddress) freshVpn sampleForward).wire =
      [withSource (packetBytes sampleSyn) 40000] := by decide +kernel
  obtain ⟨q, -, hwritten, hreturns⟩ := vpn_roundTrip clientAddress
    { buf := fun _ => 0, bufLen := 0, raddr := ⟨0, 0⟩ } freshServer [] [] sampleSyn_whole 0 (by
      show (exec (Vpn.step clientAddress) freshVpn sampleForward).wire ≠ []
      rw [hwire]
      exact List.cons_ne_nil _ _)
  have hq : q = 40000 := by
    have heq : [withSource (packetBytes sampleSyn) 40000] =
        [] ++ [withSource (packetBytes sampleSyn) q] := hwire.symm.trans hwritten
    exact (withSource_injective sampleSyn_whole (List.singleton_inj.1 heq)).symm
  have hclient : (exec (Vpn.step clientAddress) freshVpn sampleForward).client.isSome := by
    decide +kernel
  have hstate : (exec (Vpn.step clientAddress) freshVpn sampleForward).server.map (fun s =>
      (s.raddr, getTcpSessionByClient s.machine 167772161 5000, s.machine.clock 0,
        (s.machine.heap 0).expire)) = some (clientAddress, some 0, 0, 10) := by decide +kernel
  obtain ⟨c, hc⟩ := Option.isSome_iff_exists.1 hclient
  obtain ⟨s, hs, hfields⟩ := Option.map_eq_some_iff.1 hstate
  obtain ⟨hraddr, hlook, hclock, hexpire⟩ := by simpa only [Prod.mk.injEq] using hfields
  have hkey : sourceKey (packetBytes sampleSyn) = (167772161, 5000) := by decide +kernel
  rw [← hkey]
  refine hreturns s c sampleFrame [] [] false 20 ⟨0, 0⟩ hs hc ?_ hraddr sampleSynAck_whole ?_
    ⟨rfl, by decide⟩ (by simp) (by decide)
  · intro p hp
    rw [hkey, hlook] at hp
    obtain rfl := Option.some.inj hp
    rw [hclock, hexpire]
    decide
  · rw [hq]
    decide +kernel

end BenkerVpn

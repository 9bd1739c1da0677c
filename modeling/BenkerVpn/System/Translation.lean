import BenkerVpn.System.Client

/-!
# One translation for a whole run

Client, server and the networks between them translate addresses by one partial bijection between
client keys and ports, however the steps of the two programs interleave and whatever the networks
lose, repeat, reorder or inject (`vpn_translates`): every packet on the raw socket is an outbound
packet with its source translated, every packet on the TUN device is a frame that the server has
taken with its destination translated back, or a datagram that somebody else has sent to the client,
and every address the translation knows stood in a `SYN` in the buffer of the server. What a packet
is translated from is the contents of the buffer at the step that has read it, which may hold more
than was received. The invariant of a run is `History`; a half of the server extends the translation
of its table (`OutboundHalf`).
-/

set_option autoImplicit false

namespace BenkerVpn

open Library.Runs

/-! ## What enters and what leaves -/

/-- The packet that a step brings towards the world, as far as it fits a buffer. -/
def VpnEvent.outbound : VpnEvent → Option (List UInt8)
  | .tunToUdp (.packet payload) _ => some (payload.take maxBuf)
  | .udpToWire (.foreign _ payload) _ _ => some (payload.take maxBuf)
  | _ => none

/-- The packet that a sender other than the server passes to the client. -/
def VpnEvent.injected : VpnEvent → Option (List UInt8)
  | .udpToTun (.foreign _ payload) _ => some (payload.take maxBuf)
  | _ => none

/-- The packet was read from the TUN device, or a stranger has sent it to the server. -/
def Offered (events : List VpnEvent) (payload : List UInt8) : Prop :=
  ∃ e ∈ events, e.outbound = some payload

/-- The frame may be taken: it is for this host, or it is the first one, `sock_len` leaves no room
for the fields that say so, and the earlier contents of `_ll` do. -/
def WorldInput.Admits (input : WorldInput) (frame : RawFrame) : Prop :=
  frame ∈ input.frames ∧ (frame.ForHost ∨ input.frames.head? = some frame ∧ input.sockLen < 12 ∧
    (storeAddress input.sockLen input.ll frame).ForHost)

/-- The frame was found on the raw socket and could be taken. -/
def Arrived (events : List VpnEvent) (frame : RawFrame) : Prop :=
  ∃ input, .wireToUdp input ∈ events ∧ input.Admits frame

/-- A stranger has sent the packet to the client. -/
def Injected (events : List VpnEvent) (payload : List UInt8) : Prop :=
  ∃ e ∈ events, e.injected = some payload

/-- The address of the server's device. -/
def serverIp : UInt32 := 3232266986

/-! ## What the server reads -/

/-- The server reads a datagram of the bytes `payload`, as far as they fit its buffer, and then the
buffer holds `b`: these bytes, and behind them what earlier packets have left there. -/
def VpnServer.ReadsDatagram (s : VpnServer) (recv : UdpRecv) (payload : List UInt8) (b : Buffer) :
    Prop :=
  ∃ src packet, recv = .datagram src packet ∧ payload = packet.take s.bufLen ∧ payload ≠ [] ∧
    b = received s.buf s.bufLen packet

/-- The server takes the frame, and then its buffer holds `b`. -/
def VpnServer.ReadsFrame (s : VpnServer) (input : WorldInput) (frame : RawFrame) (b : Buffer) :
    Prop :=
  input.taken = some frame ∧ frame.payload.take s.bufLen ≠ [] ∧ b = (rawRead s input).2

/-- A step in which the server reads a datagram. -/
def ReadsDatagram (addr : SockaddrIn) (payload : List UInt8) (b : Buffer) (v : Vpn)
    (e : VpnEvent) : Prop :=
  ∃ s delivery count sendOk, v.server = some s ∧ e = .udpToWire delivery count sendOk ∧
    s.ReadsDatagram (delivery.recv v.uplink addr) payload b

/-- A step in which the server takes a frame. -/
def ReadsFrame (frame : RawFrame) (b : Buffer) (v : Vpn) (e : VpnEvent) : Prop :=
  ∃ s input, v.server = some s ∧ e = .wireToUdp input ∧ s.ReadsFrame input frame b

/-- A step in which the server reads a datagram and writes `out` to the raw socket. -/
def Forwards (addr : SockaddrIn) (payload : List UInt8) (b : Buffer) (out : List UInt8) (v : Vpn)
    (e : VpnEvent) : Prop :=
  ReadsDatagram addr payload b v e ∧ (v.step addr e).wire = v.wire ++ [out]

/-- A step in which the server takes a frame and sends the datagram `d`. -/
def Returns (addr : SockaddrIn) (frame : RawFrame) (b : Buffer) (d : List UInt8 × SockaddrIn)
    (v : Vpn) (e : VpnEvent) : Prop :=
  ReadsFrame frame b v e ∧ (v.step addr e).downlink = v.downlink ++ [d]

/-! ## What the server makes of it -/

/-- The packet of `n` bytes at the beginning of a buffer leaves as `out`: its source becomes the
address of the server and the port that belongs to it. -/
def TranslatesOut (T : ClientKey ≃. UInt16) (b : Buffer) (n : Nat) (out : List UInt8) : Prop :=
  ∃ seg q, segmentOf b maxBuf = some seg ∧ T (seg.saddr, seg.source) = some q ∧
    out = sentBytes (replaceSrcIpPort b serverIp q) n

/-- The packet reaches the client as `out`: its destination becomes the key its port belongs to. -/
def TranslatesIn (T : ClientKey ≃. UInt16) (b : Buffer) (n : Nat) (out : List UInt8) : Prop :=
  ∃ seg k, segmentOf b maxBuf = some seg ∧ T.symm seg.dest = some k ∧
    out = sentBytes (replaceDstIpPort b k.1 k.2) n

/-- The buffer holds a `SYN` of the client. -/
def Requests (k : ClientKey) (b : Buffer) : Prop :=
  ∃ seg, segmentOf b maxBuf = some seg ∧ seg.syn = true ∧ (seg.saddr, seg.source) = k

theorem TranslatesOut.mono {T T' : ClientKey ≃. UInt16} (hT : T ≤ T') {b : Buffer} {n : Nat}
    {out : List UInt8} (h : TranslatesOut T b n out) : TranslatesOut T' b n out := by
  obtain ⟨seg, q, hseg, hq, hout⟩ := h
  exact ⟨seg, q, hseg, PEquiv.le_def.1 hT _ _ hq, hout⟩

theorem TranslatesIn.mono {T T' : ClientKey ≃. UInt16} (hT : T ≤ T') {b : Buffer} {n : Nat}
    {out : List UInt8} (h : TranslatesIn T b n out) : TranslatesIn T' b n out := by
  obtain ⟨seg, k, hseg, hk, hout⟩ := h
  have hkT : T k = some seg.dest := (PEquiv.eq_some_iff T).1 hk
  exact ⟨seg, k, hseg, (PEquiv.eq_some_iff T').2 (PEquiv.le_def.1 hT _ _ hkT), hout⟩

section Runs

variable (addr : SockaddrIn) (start : Vpn) (events : List VpnEvent)

/-- At some step of the run the server has read a datagram, and its buffer held a `SYN` of the
client. -/
def Requested (k : ClientKey) : Prop :=
  ∃ payload b, Offered events payload ∧
    Occurs (Vpn.step addr) [ReadsDatagram addr payload b] start events ∧ Requests k b

/-- At some step of the run the server has read a datagram and written it as `out`. -/
def Forwarded (T : ClientKey ≃. UInt16) (out : List UInt8) : Prop :=
  ∃ payload b, Offered events payload ∧
    Occurs (Vpn.step addr) [Forwards addr payload b out] start events ∧
    TranslatesOut T b payload.length out

/-- At some step of the run the server has taken a frame and sent it as `d`. -/
def Returned (T : ClientKey ≃. UInt16) (d : List UInt8 × SockaddrIn) : Prop :=
  ∃ frame b, Arrived events frame ∧
    Occurs (Vpn.step addr) [Returns addr frame b d] start events ∧
    TranslatesIn T b (frame.payload.take maxBuf).length d.1

end Runs

/-! ## A half of the server -/

/-- The server is configured as `init_vpn_server` does it, and its table denotes the translation. -/
structure Denotes (s : VpnServer) (T : ClientKey ≃. UInt16) : Prop where
  bufLen : s.bufLen = maxBuf
  localIp : s.localIp = serverIp
  table : ∃ h : NatInvariant serverPool s.machine, h.translation = T

theorem initVpnServer_denotes (s : VpnServer) : Denotes (initVpnServer s) ⊥ := by
  have hfresh := initVpnServer_fresh s
  refine ⟨rfl, rfl, hfresh.natInvariant, ?_⟩
  apply PEquiv.ext
  intro k
  exact (hfresh.natInvariant.translation_eq_none_iff k).2 rfl

/-- What the first half does to the translation, and what it sends. -/
structure OutboundHalf (s : VpnServer) (T : ClientKey ≃. UInt16) (input : ClientInput)
    (st : Option VpnServer) (sent : Option (List UInt8)) (T' : ClientKey ≃. UInt16) : Prop where
  le : T ≤ T'
  denotes : ∀ s', st = some s' → Denotes s' T'
  bound : ∀ k q, T' k = some q → T k = some q ∨ InRange serverPool q ∧
    ∃ payload b, s.ReadsDatagram input.recv payload b ∧ Requests k b
  sent : ∀ out, sent = some out →
    ∃ payload b, s.ReadsDatagram input.recv payload b ∧ TranslatesOut T' b payload.length out

/-- What the second half sends; it keeps the translation. -/
structure InboundHalf (s : VpnServer) (T : ClientKey ≃. UInt16) (input : WorldInput)
    (st : Option VpnServer) (sent : Option (List UInt8 × SockaddrIn)) : Prop where
  denotes : ∀ s', st = some s' → Denotes s' T
  sent : ∀ d, sent = some d → ∃ frame b, s.ReadsFrame input frame b ∧
    TranslatesIn T b (frame.payload.take maxBuf).length d.1

section Halves

variable {s : VpnServer} {T : ClientKey ≃. UInt16}

/-- A half without packet. -/
theorem OutboundHalf.of_same {input : ClientInput} {st : Option VpnServer}
    (hst : ∀ s', st = some s' → Denotes s' T) : OutboundHalf s T input st none T := by
  refine ⟨le_refl T, hst, fun k q => Or.inl, ?_⟩
  rintro out ⟨⟩

/-- A datagram extends the translation by what its `SYN` asks for. -/
theorem Denotes.outboundHalf_of_handled (h : Denotes s T) {input : ClientInput} {src : SockaddrIn}
    {packet : List UInt8} (hrecv : input.recv = .datagram src packet)
    (hpos : packet.take s.bufLen ≠ []) :
    ∃ T', ∀ st sent,
      (∀ s', st = some s' → s'.bufLen = s.bufLen ∧ s'.localIp = s.localIp ∧
        ∃ n, s'.machine = (clientHandled s input.count packet).machine.tick n) →
      (∀ out, sent = some out → (clientHandled s input.count packet).ret = .validSession ∧
        out = sentBytes (clientHandled s input.count packet).buffer
          (packet.take s.bufLen).length) →
      OutboundHalf s T input st sent T' := by
  obtain ⟨hbuf, hip, hinv, rfl⟩ := h
  have hstep := hinv.perform
    (.client input.count (received s.buf s.bufLen packet) s.bufLen s.localIp) (by rintro ⟨⟩)
  have hgrows := translation_grows hinv (by rintro ⟨⟩) hstep
  have hreads : s.ReadsDatagram input.recv (packet.take s.bufLen)
      (received s.buf s.bufLen packet) := ⟨src, packet, hrecv, rfl, hpos, rfl⟩
  refine ⟨hstep.translation, fun st sent hst hsent => ⟨hgrows.le, ?_, ?_, ?_⟩⟩
  · intro s' hs'
    obtain ⟨hbuf', hip', n, hmachine⟩ := hst s' hs'
    have hinv' : NatInvariant serverPool s'.machine := by
      rw [hmachine]
      exact hstep.tick n
    exact ⟨hbuf'.trans hbuf, hip'.trans hip, hinv', hstep.translation_of_tick hinv' hmachine⟩
  · intro k q hkq
    have hpkt : (Call.client input.count (received s.buf s.bufLen packet) s.bufLen
      s.localIp).IsPacket := trivial
    refine (hinv.pair_of_perform hpkt hstep hkq).imp_right ?_
    rintro ⟨seg, hseg, hsyn, hkey⟩
    refine ⟨hstep.inRange hkq, _, _, hreads, seg, ?_, hsyn, hkey⟩
    -- the segment of the call is that of the datagram
    obtain ⟨seg', hseg', hpair⟩ := Option.map_eq_some_iff.1 hseg
    obtain ⟨-, rfl⟩ := Prod.mk.inj hpair
    rw [hbuf] at hseg'
    rwa [hbuf]
  · intro out hout
    obtain ⟨hret, rfl⟩ := hsent out hout
    refine ⟨_, _, hreads, ?_⟩
    cases hseg : segmentOf (received s.buf s.bufLen packet) s.bufLen with
    | none =>
        rw [clientHandled, handleClientPacket_of_none _ _ _ _ _ hseg] at hret
        cases hret
    | some seg =>
        obtain ⟨q, hq, hbuffer⟩ := client_translated hinv hseg hret hstep
        refine ⟨seg, q, ?_, hq, by rw [clientHandled, hbuffer, hip]⟩
        rw [hbuf] at hseg
        rwa [hbuf]

/-- The first half of the server extends the translation. -/
theorem Denotes.outboundHalf (h : Denotes s T) (input : ClientInput) :
    ∃ T', OutboundHalf s T input (serveClient s input).1 (serveClient s input).2 T' := by
  have hhalf := serveClient_half s input
  generalize (serveClient s input).1 = st, (serveClient s input).2 = sent at hhalf
  cases hhalf with
  | ended => exact ⟨T, .of_same fun s' hs' => by cases hs'⟩
  | idle buf raddr hraddr hnone =>
      refine ⟨T, .of_same fun s' hs' => ?_⟩
      obtain rfl := Option.some.inj hs'
      exact ⟨h.bufLen, h.localIp, h.table⟩
  | rejected src packet hrecv hpos hret =>
      obtain ⟨T', hT'⟩ := h.outboundHalf_of_handled hrecv hpos
      refine ⟨T', hT' _ _ (fun s' hs' => ?_) fun out hout => by cases hout⟩
      obtain rfl := Option.some.inj hs'
      exact ⟨rfl, rfl, 0, (Machine.tick_zero _).symm⟩
  | accepted src packet hrecv hpos hret =>
      obtain ⟨T', hT'⟩ := h.outboundHalf_of_handled hrecv hpos
      refine ⟨T', hT' _ _ (fun s' hs' => ?_) fun out hout => ?_⟩
      · obtain rfl := Option.some.inj hs'
        exact ⟨rfl, rfl, _, rfl⟩
      · exact ⟨hret, (Option.some.inj hout).symm⟩

/-- The second half of the server translates back. -/
theorem Denotes.inboundHalf (h : Denotes s T) (input : WorldInput) :
    InboundHalf s T input (serveWorld s input).1 (serveWorld s input).2 := by
  obtain ⟨hbuf, hip, hinv, rfl⟩ := h
  have hworld := hinv.perform (.world (rawRead s input).2 s.bufLen) (by rintro ⟨⟩)
  have hstep : ∃ h : NatInvariant serverPool (worldHandled s input).machine,
      h.translation = hinv.translation := ⟨hworld, hinv.translation_world hworld⟩
  have hhalf := serveWorld_half s input
  generalize (serveWorld s input).1 = st, (serveWorld s input).2 = sent at hhalf
  cases hhalf with
  | ended =>
      constructor
      · rintro s' ⟨⟩
      · rintro d ⟨⟩
  | idle buf hnone =>
      refine ⟨fun s' hs' => ?_, fun d hd => by cases hd⟩
      obtain rfl := Option.some.inj hs'
      exact ⟨hbuf, hip, hinv, rfl⟩
  | rejected frame htaken hread hpos hret =>
      refine ⟨fun s' hs' => ?_, fun d hd => by cases hd⟩
      obtain rfl := Option.some.inj hs'
      exact ⟨hbuf, hip, hstep⟩
  | accepted frame htaken hread hpos hret =>
      constructor
      · intro s' hs'
        obtain rfl := Option.some.inj hs'
        exact ⟨hbuf, hip, hstep⟩
      · intro d hd
        obtain rfl := Option.some.inj hd
        refine ⟨frame, _, ⟨htaken, hpos, rfl⟩, ?_⟩
        cases hseg : segmentOf (rawRead s input).2 s.bufLen with
        | none =>
            rw [worldHandled, handleWorldPacket_of_none _ _ _ hseg] at hret
            cases hret
        | some seg =>
            obtain ⟨k, hk, hbuffer⟩ := world_translated hinv hseg hret
            rw [hbuf] at hseg
            exact ⟨seg, k, hseg, hk, by rw [worldHandled, hbuffer, hbuf]⟩

end Halves

/-! ## Runs of the whole -/

section Events

variable {addr : SockaddrIn} {start : Vpn} {events : List VpnEvent} {payload out : List UInt8}
  {frame : RawFrame} {k : ClientKey} {T T' : ClientKey ≃. UInt16} (e : VpnEvent)

theorem Offered.snoc (h : Offered events payload) : Offered (events ++ [e]) payload := by
  obtain ⟨e', he', hpayload⟩ := h
  exact ⟨e', List.mem_append_left _ he', hpayload⟩

theorem Arrived.snoc (h : Arrived events frame) : Arrived (events ++ [e]) frame := by
  obtain ⟨input, hinput, hadmits⟩ := h
  exact ⟨input, List.mem_append_left _ hinput, hadmits⟩

theorem Injected.snoc (h : Injected events payload) : Injected (events ++ [e]) payload := by
  obtain ⟨e', he', hpayload⟩ := h
  exact ⟨e', List.mem_append_left _ he', hpayload⟩

theorem Requested.snoc (h : Requested addr start events k) :
    Requested addr start (events ++ [e]) k := by
  obtain ⟨payload, b, hoffered, hreads, hrequests⟩ := h
  exact ⟨payload, b, hoffered.snoc e, hreads.append_right [e], hrequests⟩

theorem Forwarded.snoc (hT : T ≤ T') (h : Forwarded addr start events T out) :
    Forwarded addr start (events ++ [e]) T' out := by
  obtain ⟨payload, b, hoffered, hforwards, htrans⟩ := h
  exact ⟨payload, b, hoffered.snoc e, hforwards.append_right [e], htrans.mono hT⟩

theorem Returned.snoc {d : List UInt8 × SockaddrIn} (hT : T ≤ T')
    (h : Returned addr start events T d) : Returned addr start (events ++ [e]) T' d := by
  obtain ⟨frame, b, harrived, hreturns, htrans⟩ := h
  exact ⟨frame, b, harrived.snoc e, hreturns.append_right [e], htrans.mono hT⟩

variable {e}

theorem offered_last (h : e.outbound = some payload) : Offered (events ++ [e]) payload :=
  ⟨e, List.mem_append_right _ List.mem_cons_self, h⟩

/-- The frame that is taken could be taken. -/
theorem arrived_last {input : WorldInput} (h : input.taken = some frame) :
    Arrived (events ++ [.wireToUdp input]) frame :=
  ⟨input, List.mem_append_right _ List.mem_cons_self, forHost_of_taken h⟩

theorem injected_last (h : e.injected = some payload) : Injected (events ++ [e]) payload :=
  ⟨e, List.mem_append_right _ List.mem_cons_self, h⟩

/-- What is offered fits a buffer. -/
theorem Offered.take (h : Offered events payload) : payload.take maxBuf = payload := by
  obtain ⟨e, -, hpayload⟩ := h
  unfold VpnEvent.outbound at hpayload
  split at hpayload
  · obtain rfl := Option.some.inj hpayload
    rw [List.take_take, Nat.min_self]
  · obtain rfl := Option.some.inj hpayload
    rw [List.take_take, Nat.min_self]
  · cases hpayload

/-- What is translated back fits a buffer. -/
theorem Returned.take {d : List UInt8 × SockaddrIn} (h : Returned addr start events T d) :
    d.1.take maxBuf = d.1 := by
  obtain ⟨frame, b, -, -, seg, k, -, -, hout⟩ := h
  apply List.take_of_length_le
  rw [hout, length_sentBytes, List.length_take]
  exact Nat.min_le_left _ _

end Events

/-- A datagram is one of those the other program has sent, or somebody else's. -/
theorem Delivery.of_recv {delivery : Delivery} {datagrams : List (List UInt8)}
    {src src' : SockaddrIn} {payload : List UInt8}
    (h : delivery.recv datagrams src = .datagram src' payload) :
    payload ∈ datagrams ∨ delivery = .foreign src' payload := by
  cases delivery with
  | error => cases h
  | again => cases h
  | sent k =>
      rw [Delivery.recv] at h
      split at h
      · next payload' hget =>
          obtain ⟨-, rfl⟩ := UdpRecv.datagram.inj h
          exact Or.inl (List.mem_of_getElem? hget)
      · cases h
  | foreign src'' payload' =>
      obtain ⟨rfl, rfl⟩ := UdpRecv.datagram.inj h
      exact Or.inr rfl

/-- What holds after the events of a run, for the translation reached. -/
structure History (addr : SockaddrIn) (start : Vpn) (events : List VpnEvent) (v : Vpn)
    (T : ClientKey ≃. UInt16) : Prop where
  reached : exec (Vpn.step addr) start events = v
  client : ∀ c, v.client = some c → c.bufLen = maxBuf
  server : ∀ s, v.server = some s → Denotes s T
  bound : ∀ k q, T k = some q → InRange serverPool q ∧ Requested addr start events k
  uplink : ∀ p ∈ v.uplink, Offered events p
  downlink : ∀ d ∈ v.downlink, Returned addr start events T d
  wire : ∀ out ∈ v.wire, Forwarded addr start events T out
  tun : ∀ out ∈ v.tun, Injected events out ∨ ∃ dst, Returned addr start events T (out, dst)

namespace History

variable {addr : SockaddrIn} {start : Vpn} {events : List VpnEvent} {v : Vpn}
  {T T' : ClientKey ≃. UInt16}

/-- The history of a run is still true after one more event and with a larger translation, if it is
true of what is new. -/
theorem extend (h : History addr start events v T) {e : VpnEvent} {v' : Vpn}
    (hstep : v.step addr e = v') (hT : T ≤ T')
    (hclient : ∀ c, v'.client = some c → c.bufLen = maxBuf)
    (hserver : ∀ s, v'.server = some s → Denotes s T')
    (hbound : ∀ k q, T' k = some q → T k = some q ∨
      InRange serverPool q ∧ Requested addr start (events ++ [e]) k)
    (huplink : ∀ p ∈ v'.uplink, p ∈ v.uplink ∨ Offered (events ++ [e]) p)
    (hdownlink : ∀ d ∈ v'.downlink, d ∈ v.downlink ∨ Returned addr start (events ++ [e]) T' d)
    (hwire : ∀ out ∈ v'.wire, out ∈ v.wire ∨ Forwarded addr start (events ++ [e]) T' out)
    (htun : ∀ out ∈ v'.tun, out ∈ v.tun ∨ Injected (events ++ [e]) out ∨
      ∃ dst, Returned addr start (events ++ [e]) T' (out, dst)) :
    History addr start (events ++ [e]) v' T' where
  reached := by
    rw [exec_append, h.reached]
    exact hstep
  client := hclient
  server := hserver
  bound k q hkq := by
    refine (hbound k q hkq).elim (fun hold => ?_) id
    obtain ⟨hrange, hrequested⟩ := h.bound k q hold
    exact ⟨hrange, hrequested.snoc e⟩
  uplink p hp := (huplink p hp).elim (fun hold => (h.uplink p hold).snoc e) id
  downlink d hd := (hdownlink d hd).elim (fun hold => (h.downlink d hold).snoc e hT) id
  wire out hout := (hwire out hout).elim (fun hold => (h.wire out hold).snoc e hT) id
  tun out hout := by
    refine (htun out hout).elim (fun hold => ?_) id
    exact (h.tun out hold).imp (fun hinjected => hinjected.snoc e)
      fun ⟨dst, hreturned⟩ => ⟨dst, hreturned.snoc e hT⟩

/-- A step of a program that has ended. -/
theorem idle (h : History addr start events v T) {e : VpnEvent} (hstep : v.step addr e = v) :
    History addr start (events ++ [e]) (v.step addr e) T := by
  rw [hstep]
  exact h.extend hstep (le_refl T) h.client h.server (fun k q => Or.inl) (fun p => Or.inl)
    (fun d => Or.inl) (fun out => Or.inl) fun out => Or.inl

/-- The client passes a packet of the TUN device on. -/
theorem tunToUdp (h : History addr start events v T) (read : TunRead) (sendOk : Bool) :
    History addr start (events ++ [.tunToUdp read sendOk]) (v.step addr (.tunToUdp read sendOk))
      T := by
  cases hc : v.client with
  | none =>
      apply h.idle
      rw [Vpn.step, hc]
  | some c =>
      have hbuf := h.client c hc
      have hstep : v.step addr (.tunToUdp read sendOk) =
          { v with
            client := (clientSend c read sendOk).1
            uplink := v.uplink ++ ((clientSend c read sendOk).2.map Prod.fst).toList } := by
        rw [Vpn.step, hc]
      rw [hstep]
      refine h.extend hstep (le_refl T) ?_ h.server (fun k q => Or.inl) ?_ (fun d => Or.inl)
        (fun out => Or.inl) fun out => Or.inl
      · intro c' hc'
        rw [(clientSend_some hc').1, hbuf]
      · intro p hp
        refine (List.mem_append.1 hp).imp_right fun hnew => ?_
        obtain ⟨⟨p', dst⟩, hsent, rfl⟩ := Option.map_eq_some_iff.1 (Option.mem_toList.1 hnew)
        obtain ⟨payload, rfl, rfl, -⟩ := clientSend_sent hsent
        apply offered_last
        rw [VpnEvent.outbound, hbuf]

/-- What the server reads was offered. -/
theorem offered_of_reads (h : History addr start events v T) {delivery : Delivery} {count : Int}
    {sendOk : Bool} {s : VpnServer} (hs : v.server = some s) {payload : List UInt8} {b : Buffer}
    (hreads : s.ReadsDatagram (delivery.recv v.uplink addr) payload b) :
    Offered (events ++ [.udpToWire delivery count sendOk]) payload := by
  obtain ⟨src, packet, hrecv, rfl, -, -⟩ := hreads
  rw [(h.server s hs).bufLen]
  rcases Delivery.of_recv hrecv with hmem | rfl
  · have hup := h.uplink packet hmem
    rw [hup.take]
    exact hup.snoc _
  · exact offered_last rfl

/-- A property of the last step of a run. -/
theorem occurs_last (h : History addr start events v T) {P : Vpn → VpnEvent → Prop} {e : VpnEvent}
    (hP : P v e) : Occurs (Vpn.step addr) [P] start (events ++ [e]) := by
  apply Occurs.snoc (occurs_nil start events)
  rwa [h.reached]

/-- The server passes a datagram on, and its table denotes what the half says. -/
theorem udpToWire_of_half (h : History addr start events v T) {delivery : Delivery} {count : Int}
    {sendOk : Bool} {s : VpnServer} (hs : v.server = some s)
    (hhalf : OutboundHalf s T ⟨delivery.recv v.uplink addr, count, sendOk⟩
      (serveClient s ⟨delivery.recv v.uplink addr, count, sendOk⟩).1
      (serveClient s ⟨delivery.recv v.uplink addr, count, sendOk⟩).2 T') :
    History addr start (events ++ [.udpToWire delivery count sendOk])
      (v.step addr (.udpToWire delivery count sendOk)) T' := by
  have hstep : v.step addr (.udpToWire delivery count sendOk) =
      { v with
        server := (serveClient s ⟨delivery.recv v.uplink addr, count, sendOk⟩).1
        wire := v.wire ++
          (serveClient s ⟨delivery.recv v.uplink addr, count, sendOk⟩).2.toList } := by
    rw [Vpn.step, hs]
  have hreads : ∀ payload b, s.ReadsDatagram (delivery.recv v.uplink addr) payload b →
      ReadsDatagram addr payload b v (.udpToWire delivery count sendOk) :=
    fun payload b hread => ⟨s, delivery, count, sendOk, hs, rfl, hread⟩
  rw [hstep]
  refine h.extend hstep hhalf.le h.client hhalf.denotes ?_ (fun p => Or.inl) (fun d => Or.inl) ?_
    fun out => Or.inl
  · intro k q hkq
    refine (hhalf.bound k q hkq).imp_right ?_
    rintro ⟨hrange, payload, b, hread, hrequests⟩
    exact ⟨hrange, payload, b, h.offered_of_reads hs hread, h.occurs_last (hreads _ _ hread),
      hrequests⟩
  · intro out hout
    refine (List.mem_append.1 hout).imp_right fun hnew => ?_
    have hsent := Option.mem_toList.1 hnew
    obtain ⟨payload, b, hread, htrans⟩ := hhalf.sent out hsent
    have hwritten : (v.step addr (.udpToWire delivery count sendOk)).wire = v.wire ++ [out] := by
      rw [hstep, hsent]
      rfl
    exact ⟨payload, b, h.offered_of_reads hs hread, h.occurs_last ⟨hreads _ _ hread, hwritten⟩,
      htrans⟩

theorem udpToWire (h : History addr start events v T) (delivery : Delivery) (count : Int)
    (sendOk : Bool) :
    ∃ T', T ≤ T' ∧ History addr start (events ++ [.udpToWire delivery count sendOk])
      (v.step addr (.udpToWire delivery count sendOk)) T' := by
  cases hs : v.server with
  | none =>
      refine ⟨T, le_refl T, h.idle ?_⟩
      rw [Vpn.step, hs]
  | some s =>
      obtain ⟨T', hhalf⟩ := (h.server s hs).outboundHalf
        ⟨delivery.recv v.uplink addr, count, sendOk⟩
      exact ⟨T', hhalf.le, h.udpToWire_of_half hs hhalf⟩

/-- The server passes a frame back. -/
theorem wireToUdp (h : History addr start events v T) (input : WorldInput) :
    History addr start (events ++ [.wireToUdp input]) (v.step addr (.wireToUdp input)) T := by
  cases hs : v.server with
  | none =>
      apply h.idle
      rw [Vpn.step, hs]
  | some s =>
      have hhalf := (h.server s hs).inboundHalf input
      have hstep : v.step addr (.wireToUdp input) =
          { v with
            server := (serveWorld s input).1
            downlink := v.downlink ++ (serveWorld s input).2.toList } := by
        rw [Vpn.step, hs]
      rw [hstep]
      refine h.extend hstep (le_refl T) h.client hhalf.denotes (fun k q => Or.inl)
        (fun p => Or.inl) ?_ (fun out => Or.inl) fun out => Or.inl
      intro d hd
      refine (List.mem_append.1 hd).imp_right fun hnew => ?_
      have hsent := Option.mem_toList.1 hnew
      obtain ⟨frame, b, hread, htrans⟩ := hhalf.sent d hsent
      have hdown : (v.step addr (.wireToUdp input)).downlink = v.downlink ++ [d] := by
        rw [hstep, hsent]
        rfl
      exact ⟨frame, b, arrived_last hread.1, h.occurs_last ⟨⟨s, input, hs, rfl, hread⟩, hdown⟩,
        htrans⟩

/-- The client passes a datagram on. -/
theorem udpToTun (h : History addr start events v T) (delivery : Delivery) (writeOk : Bool) :
    History addr start (events ++ [.udpToTun delivery writeOk])
      (v.step addr (.udpToTun delivery writeOk)) T := by
  cases hc : v.client with
  | none =>
      apply h.idle
      rw [Vpn.step, hc]
  | some c =>
      have hbuf := h.client c hc
      have hstep : v.step addr (.udpToTun delivery writeOk) =
          { v with
            client := (clientReceive c (delivery.recv (v.sentTo addr) c.raddr) writeOk).1
            tun := v.tun ++
              (clientReceive c (delivery.recv (v.sentTo addr) c.raddr) writeOk).2.toList } := by
        rw [Vpn.step, hc]
      rw [hstep]
      refine h.extend hstep (le_refl T) ?_ h.server (fun k q => Or.inl) (fun p => Or.inl)
        (fun d => Or.inl) (fun out => Or.inl) ?_
      · intro c' hc'
        rw [(clientReceive_some hc').1, hbuf]
      · intro out hout
        refine (List.mem_append.1 hout).imp_right fun hnew => ?_
        obtain ⟨src, packet, hrecv, rfl⟩ := clientReceive_written (Option.mem_toList.1 hnew)
        rw [hbuf]
        rcases Delivery.of_recv hrecv with hmem | rfl
        · -- the server has sent it
          obtain ⟨d, hd, rfl⟩ := List.mem_map.1 hmem
          have hreturned := h.downlink d (List.mem_of_mem_filter hd)
          rw [hreturned.take]
          exact Or.inr ⟨d.2, hreturned.snoc _ (le_refl T)⟩
        · exact Or.inl (injected_last rfl)

/-- One more step. -/
theorem step (h : History addr start events v T) (e : VpnEvent) :
    ∃ T', T ≤ T' ∧ History addr start (events ++ [e]) (v.step addr e) T' := by
  cases e with
  | tunToUdp read sendOk => exact ⟨T, le_refl T, h.tunToUdp read sendOk⟩
  | udpToWire delivery count sendOk => exact h.udpToWire delivery count sendOk
  | wireToUdp input => exact ⟨T, le_refl T, h.wireToUdp input⟩
  | udpToTun delivery writeOk => exact ⟨T, le_refl T, h.udpToTun delivery writeOk⟩

/-- More steps. -/
theorem run (h : History addr start events v T) (more : List VpnEvent) :
    ∃ T', T ≤ T' ∧ History addr start (events ++ more) (exec (Vpn.step addr) v more) T' := by
  induction more generalizing events v T with
  | nil => exact ⟨T, le_refl T, by simpa using h⟩
  | cons e more ih =>
      obtain ⟨T₁, hle, hstep⟩ := h.step e
      obtain ⟨T₂, hle', hrun⟩ := ih hstep
      exact ⟨T₂, hle.trans hle', by simpa using hrun⟩

end History

theorem history_init (addr : SockaddrIn) (client : VpnClient) (server : VpnServer) :
    History addr (Vpn.init client server) [] (Vpn.init client server) ⊥ where
  reached := rfl
  client c hc := by
    obtain rfl := Option.some.inj hc
    rfl
  server s hs := by
    obtain rfl := Option.some.inj hs
    exact initVpnServer_denotes server
  bound k q hkq := by cases hkq
  uplink p hp := by cases hp
  downlink d hd := by cases hd
  wire out hout := by cases hout
  tun out hout := by cases hout

/-- In every run of the two programs there is one partial bijection between client keys and the
ports of the server such that every packet written to the raw socket is a datagram that the server
has read with its source translated, every packet written to the TUN device is a frame that the
server has taken with its destination translated back, or was sent to the client by a stranger, and
every key that has a port stood in a `SYN` in the buffer of the server when it had read a
datagram. -/
theorem vpn_translates (addr : SockaddrIn) (client : VpnClient) (server : VpnServer)
    (events : List VpnEvent) :
    let start := Vpn.init client server
    let v := exec (Vpn.step addr) start events
    ∃ T : ClientKey ≃. UInt16,
      (∀ k q, T k = some q → InRange serverPool q ∧ Requested addr start events k) ∧
      (∀ out ∈ v.wire, Forwarded addr start events T out) ∧
      (∀ out ∈ v.tun, Injected events out ∨ ∃ dst, Returned addr start events T (out, dst)) := by
  obtain ⟨T, -, h⟩ := (history_init addr client server).run events
  exact ⟨T, h.bound, h.wire, h.tun⟩

end BenkerVpn

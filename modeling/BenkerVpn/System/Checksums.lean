import BenkerVpn.Packet.Sealed
import BenkerVpn.Packet.Summing
import BenkerVpn.System.RoundTrip

/-!
# What leaves the tunnel carries its checksums

Whoever gets a packet from the tunnel sees only the bytes that were written. If these have full
headers and are all there, both checksums are right, a packet on the raw socket comes from the
address of the server and one of its ports, and a packet on the TUN device goes to an address that
has asked for its port (`emitted_checksummed`). There is one exception: the port of a packet that
was read with a header length of zero is written over its first byte, and what leaves has another
header length.
-/

set_option autoImplicit false

namespace BenkerVpn

open Library.Octets Library.OnesComplement Library.Runs

/-! ## What the receiver reads -/

/-- The bytes that were written, as a receiver reads them. -/
theorem bufferOf_sentBytes (b : Buffer) (n : Nat) :
    Set.EqOn (bufferOf (sentBytes b n)) b (Set.Iio n) := by
  intro i hi
  have hlen : i < (sentBytes b n).length := by rwa [length_sentBytes]
  rw [bufferOf, List.getD_eq_getElem?_getD, List.getElem?_eq_getElem hlen, Option.getD_some]
  simp only [sentBytes, List.getElem_map, List.getElem_range]

/-- The buffer begins with the first byte of the packet that was read. -/
theorem VpnServer.ReadsDatagram.ihl_eq {s : VpnServer} {recv : UdpRecv} {payload : List UInt8}
    {b : Buffer} (h : s.ReadsDatagram recv payload b) : ihl b = ihl (bufferOf payload) := by
  obtain ⟨src, packet, -, rfl, hpos, rfl⟩ := h
  have hlt := List.length_pos_iff.2 hpos
  apply ihl_congr
  rw [received_of_lt _ _ _ hlt, bufferOf, List.getD_eq_getElem?_getD, List.getElem?_eq_getElem hlt,
    Option.getD_some]

section Agreement

variable {b b' : Buffer} {n : Nat} (hwf : WellFormed b n) (h : Set.EqOn b b' (Set.Iio n))
include hwf h

/-- The fields of a packet with full headers are read within the packet. -/
theorem WellFormed.fields_congr :
    ihl b' = ihl b ∧ doff b' (ihl b * 4) = doff b (ihl b * 4) ∧ totLen b' = totLen b ∧
      saddr b' = saddr b ∧ daddr b' = daddr b := by
  have hihl := hwf.ihl_ge
  have hdoff := hwf.doff_ge
  have hheaders := hwf.headers_le
  have htot := hwf.totLen_le
  have hbyte : ∀ i, i < ihl b * 4 + 20 → b' i = b i := fun i hi =>
    (h (Set.mem_Iio.2 (by omega))).symm
  exact ⟨ihl_congr (hbyte 0 (by omega)), doff_congr (hbyte _ (by omega)),
    be16_congr (hbyte 2 (by omega)) (hbyte (2 + 1) (by omega)),
    be32_congr fun i _ hi => hbyte i (by omega), be32_congr fun i _ hi => hbyte i (by omega)⟩

theorem WellFormed.congr : WellFormed b' n := by
  obtain ⟨hihl, hdoff, htot, -, -⟩ := hwf.fields_congr h
  constructor
  · rw [hihl]
    exact hwf.ihl_ge
  · rw [hihl, hdoff]
    exact hwf.doff_ge
  · rw [hihl, hdoff, htot]
    exact hwf.headers_le
  · rw [htot]
    exact hwf.totLen_le

/-- Both sums are over bytes of the packet. -/
theorem Checksummed.congr (hsums : Checksummed b') : Checksummed b := by
  obtain ⟨hihl, -, htot, hsaddr, hdaddr⟩ := hwf.fields_congr h
  have hheaders := hwf.headers_le
  have hlen := hwf.totLen_le
  have hsum : ∀ i len, i + len ≤ (totLen b).toNat → octetSum b i len = octetSum b' i len := by
    intro i len hle
    exact octetSum_congr fun j _ hj => h (Set.mem_Iio.2 (by omega))
  constructor
  · have hip : ipWords b = ipWords b' := by
      rw [ipWords, ipWords, hihl, hsum _ _ (by omega)]
    rw [hip]
    exact hsums.ip
  · have htcp : tcpWords b = tcpWords b' := by
      rw [tcpWords, tcpWords, hihl, htot, hsaddr, hdaddr, hsum _ _ (by omega)]
    rw [htcp]
    exact hsums.tcp

end Agreement

/-- What a receiver reads of a rewritten packet whose headers are all there. -/
structure Emitted (ipField portField : Nat) (out : List UInt8) (k : ClientKey) : Prop where
  checksummed : Checksummed (bufferOf out)
  ip : be32 (bufferOf out) ipField = k.1
  port : be16 (bufferOf out) (ihl (bufferOf out) * 4 + portField) = k.2

/-- Unless the port has been written over the first byte, the receiver of a rewritten packet reads
what was written and right checksums. -/
theorem emitted_of_rewritten {z : Buffer} {n ipField portField : Nat} (k : ClientKey)
    (hip : 12 ≤ ipField) (hip' : ipField + 4 ≤ 20) (hport : portField ≤ 2)
    (hfirst : 0 < ihl z * 4 + portField)
    (hwf : WellFormed (bufferOf (sentBytes (rewrite ipField portField z k.1 k.2) n)) n) :
    Emitted ipField portField (sentBytes (rewrite ipField portField z k.1 k.2) n) k := by
  have hagree := bufferOf_sentBytes (rewrite ipField portField z k.1 k.2) n
  obtain ⟨hihl, hdoff, -, -, -⟩ := hwf.fields_congr hagree
  have hkeep := ihl_rewrite z ipField portField k.1 k.2 (by omega) hfirst
  have hfull : 5 ≤ ihl z := by
    rw [← hkeep, hihl]
    exact hwf.ihl_ge
  have hwf' := hwf.congr hagree
  have hheaders := hwf'.headers_le
  have hdoff' := hwf'.doff_ge
  have htot := hwf'.totLen_le
  constructor
  case checksummed =>
    exact Checksummed.congr hwf hagree ((sealed_rewrite hip hport k.1 k.2 hfull).checksummed hwf')
  case ip =>
    rw [be32_congr fun i _ hi => hagree (Set.mem_Iio.2 (by omega))]
    exact be32_rewrite z ipField portField k.1 k.2 hip hip' hfull
  case port =>
    rw [← hihl, be16_congr (hagree (Set.mem_Iio.2 (by omega)))
      (hagree (Set.mem_Iio.2 (by omega))), hkeep]
    exact be16_rewrite z ipField portField k.1 k.2 (by omega) (by omega)

/-! ## Runs -/

section Runs

variable {T : ClientKey ≃. UInt16} {b : Buffer} {n : Nat} {out : List UInt8}

/-- What leaves for the world, as its receiver reads it. -/
theorem TranslatesOut.emitted (h : TranslatesOut T b n out)
    (hwf : WellFormed (bufferOf out) out.length) (hihl : ihl b ≠ 0) :
    ∃ k q, T k = some q ∧ Emitted 12 0 out (serverIp, q) := by
  obtain ⟨seg, q, -, hq, rfl⟩ := h
  rw [length_sentBytes] at hwf
  exact ⟨_, q, hq,
    emitted_of_rewritten (serverIp, q) (by omega) (by omega) (by omega) (by omega) hwf⟩

/-- What leaves for the client, as its receiver reads it. -/
theorem TranslatesIn.emitted (h : TranslatesIn T b n out)
    (hwf : WellFormed (bufferOf out) out.length) : ∃ k q, T k = some q ∧ Emitted 16 2 out k := by
  obtain ⟨seg, k, -, hk, rfl⟩ := h
  rw [length_sentBytes] at hwf
  exact ⟨k, seg.dest, (PEquiv.eq_some_iff T).1 hk,
    emitted_of_rewritten k (by omega) (by omega) (by omega) (by omega) hwf⟩

end Runs

/-- A packet for the world that is complete and correct. -/
def RightOut (out : List UInt8) : Prop :=
  ∃ q, InRange serverPool q ∧ Emitted 12 0 out (serverIp, q)

/-- A packet for the client that is complete and correct; its destination has asked for a port. -/
def RightIn (addr : SockaddrIn) (start : Vpn) (events : List VpnEvent) (out : List UInt8) : Prop :=
  ∃ k, Requested addr start events k ∧ Emitted 16 2 out k

/-- The packet was read with a header length of zero, and its new port was written to its first
byte. -/
def Overwritten (addr : SockaddrIn) (start : Vpn) (events : List VpnEvent) (out : List UInt8) :
    Prop :=
  ∃ payload b q, Offered events payload ∧
    Occurs (Vpn.step addr) [Forwards addr payload b out] start events ∧
    ihl (bufferOf payload) = 0 ∧ out = sentBytes (replaceSrcIpPort b serverIp q) payload.length

/-- Every packet that leaves the tunnel in full carries right checksums, however the steps of the
two programs interleave and whatever the networks do. Packets for the world come from the address of
the server and one of its ports, packets for the client go to an address that has asked for a port.
The exception is a packet that was itself read with a header length of zero. -/
theorem emitted_checksummed (addr : SockaddrIn) (client : VpnClient) (server : VpnServer)
    (events : List VpnEvent) :
    let start := Vpn.init client server
    let v := exec (Vpn.step addr) start events
    (∀ out ∈ v.wire, WellFormed (bufferOf out) out.length →
      RightOut out ∨ Overwritten addr start events out) ∧
    (∀ d ∈ v.downlink, WellFormed (bufferOf d.1) d.1.length → RightIn addr start events d.1) ∧
    (∀ out ∈ v.tun, WellFormed (bufferOf out) out.length →
      RightIn addr start events out ∨ Injected events out) := by
  obtain ⟨T, -, h⟩ := (history_init addr client server).run events
  have hin : ∀ d, Returned addr (Vpn.init client server) events T d →
      WellFormed (bufferOf d.1) d.1.length → RightIn addr (Vpn.init client server) events d.1 := by
    rintro d ⟨frame, b, -, -, htrans⟩ hwf
    obtain ⟨k, q, hkq, hright⟩ := htrans.emitted hwf
    exact ⟨k, (h.bound k q hkq).2, hright⟩
  refine ⟨fun out hout hwf => ?_, fun d hd hwf => hin d (h.downlink d hd) hwf,
    fun out hout hwf => ?_⟩
  · obtain ⟨payload, b, hoffered, hforwards, htrans⟩ := h.wire out hout
    obtain ⟨pre, e, post, -, ⟨⟨s, _, _, _, -, -, hreads⟩, -⟩, -⟩ := id hforwards
    by_cases hihl : ihl b = 0
    · -- the port has been written over the first byte
      obtain ⟨seg, q, -, -, hsent⟩ := htrans
      exact Or.inr ⟨payload, b, q, hoffered, hforwards, hreads.ihl_eq ▸ hihl, hsent⟩
    · obtain ⟨k, q, hkq, hright⟩ := htrans.emitted hwf hihl
      exact Or.inl ⟨q, (h.bound k q hkq).1, hright⟩
  · rcases h.tun out hout with hinjected | ⟨dst, hreturned⟩
    · exact Or.inr hinjected
    · exact Or.inl (hin _ hreturned hwf)

/-- The `SYN` of the round trip leaves with right checksums. -/
theorem emitted_checksummed_syn : RightOut (withSource (packetBytes sampleSyn) 40000) := by
  have hwire : (exec (Vpn.step clientAddress) freshVpn sampleForward).wire =
      [withSource (packetBytes sampleSyn) 40000] := by decide +kernel
  have hwf : WellFormed (bufferOf (withSource (packetBytes sampleSyn) 40000)) 40 :=
    ⟨by decide +kernel, by decide +kernel, by decide +kernel, by decide +kernel⟩
  obtain ⟨hout, -⟩ := emitted_checksummed clientAddress
    { buf := fun _ => 0, bufLen := 0, raddr := ⟨0, 0⟩ } freshServer sampleForward
  refine (hout _ (hwire ▸ List.mem_cons_self) hwf).resolve_right ?_
  -- every packet of the run has a header of twenty bytes
  rintro ⟨payload, b, q, ⟨e, he, hpayload⟩, -, hihl, -⟩
  rcases List.mem_pair.1 he with rfl | rfl
  · obtain rfl := Option.some.inj hpayload
    revert hihl
    decide +kernel
  · cases hpayload

/-- A packet of eighty bytes whose header length is zero. -/
def headless : List UInt8 :=
  (List.range 80).map (put16 (put16 (put16 (put16 (fun _ => 0) 0 0x4006) 2 80) 8 6) 12 0x5002)

example : ihl (bufferOf headless) = 0 ∧
    (exec (Vpn.step clientAddress) freshVpn
      [.tunToUdp (.packet headless) true, .udpToWire (.sent 0) 0 true]).wire =
      [withSource headless 40000] ∧
    ihl (bufferOf (withSource headless 40000)) = 12 ∧
    endAround (ipWords (bufferOf (withSource headless 40000))) ≠ 65535 := by
  decide +kernel

end BenkerVpn

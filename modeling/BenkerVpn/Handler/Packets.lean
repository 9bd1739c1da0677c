import BenkerVpn.Handler.Outcome

/-!
# A packet for every segment

`packetOf` builds a packet of forty bytes around the header fields the handlers read. The packet
passes `validate_ip_tcp` and gives back its segment (`segmentOf_packetOf`), so whatever the handlers
do for a segment they do for a packet. The handshake at the end serves as an example in later
modules.
-/

set_option autoImplicit false

namespace BenkerVpn

open Library.Octets

/-- A packet of forty bytes that carries the segment. -/
def packetOf (seg : Segment) : Buffer :=
  let b := put8 (fun _ => 0) 0 0x45
  let b := put16 b 2 40
  let b := put8 b 9 ipprotoTcp
  let b := put32 b 12 seg.saddr
  let b := put16 b 20 seg.source
  let b := put16 b 22 seg.dest
  let b := put32 b 24 seg.seq
  let b := put32 b 28 seg.ackSeq
  let b := put8 b 32 0x50
  put8 b 33 (UInt8.ofNat (seg.fin.toNat + 2 * seg.syn.toNat + 16 * seg.ack.toNat))

theorem flagByte_testBit (fin syn ack : Bool) :
    let flags := UInt8.ofNat (fin.toNat + 2 * syn.toNat + 16 * ack.toNat)
    flags.toNat.testBit 0 = fin ∧ flags.toNat.testBit 1 = syn ∧ flags.toNat.testBit 4 = ack := by
  revert fin syn ack
  decide

section PacketOf

variable (seg : Segment)

theorem validateIpTcp_packetOf {bufferLen : Int} (hlen : 40 ≤ bufferLen)
    (hmax : bufferLen < 18446744073709551616) :
    validateIpTcp (packetOf seg) bufferLen = some 20 := by
  have hsize : toSizeT bufferLen = bufferLen.toNat := by
    rw [toSizeT, Int.emod_eq_of_lt (by omega) hmax]
  have hihl : ihl (packetOf seg) = 5 := by
    simp (disch := omega) only [ihl, packetOf, put8_of_ne, put16_of_ne, put32_of_ne, put8_self]
    rfl
  have hprotocol : protocol (packetOf seg) = ipprotoTcp := by
    simp (disch := omega) only [protocol, packetOf, put8_of_ne, put16_of_ne, put32_of_ne,
      put8_self]
  have htot : totLen (packetOf seg) = 40 := by
    simp (disch := omega) only [totLen, packetOf, be16_put8_of_ne, be16_put16_of_disjoint,
      be16_put32_of_disjoint, be16_put16_self]
  have hdoff : doff (packetOf seg) 20 = 5 := by
    simp (disch := omega) only [doff, packetOf, put8_of_ne, put8_self]
    rfl
  rw [validateIpTcp, hsize, hihl, hprotocol, htot]
  simp only [UInt16.reduceToNat, Nat.reduceMul, hdoff]
  rw [if_neg (by omega), if_neg (by simp), if_neg (by omega), if_neg (by omega), if_neg (by omega)]

theorem segmentAt_packetOf : segmentAt (packetOf seg) 20 = seg := by
  have hflags : packetOf seg 33 =
      UInt8.ofNat (seg.fin.toNat + 2 * seg.syn.toNat + 16 * seg.ack.toNat) := by
    rw [packetOf, put8_self]
  -- the flag byte was written last, so the three bits are read back from it
  obtain ⟨hfin, hsyn, hack⟩ := flagByte_testBit seg.fin seg.syn seg.ack
  have hsaddr : saddr (packetOf seg) = seg.saddr := by
    simp (disch := omega) only [saddr, packetOf, be32_put8_of_disjoint, be32_put16_of_disjoint,
      be32_put32_of_disjoint, be32_put32_self]
  have hsource : source (packetOf seg) 20 = seg.source := by
    simp (disch := omega) only [source, packetOf, be16_put8_of_ne, be16_put16_of_disjoint,
      be16_put32_of_disjoint, be16_put16_self]
  have hdest : dest (packetOf seg) 20 = seg.dest := by
    simp (disch := omega) only [dest, packetOf, be16_put8_of_ne, be16_put32_of_disjoint,
      be16_put16_self]
  have hseq : seq (packetOf seg) 20 = seg.seq := by
    simp (disch := omega) only [seq, packetOf, be32_put8_of_disjoint, be32_put32_of_disjoint,
      be32_put32_self]
  have hackSeq : ackSeq (packetOf seg) 20 = seg.ackSeq := by
    simp (disch := omega) only [ackSeq, packetOf, be32_put8_of_disjoint, be32_put32_self]
  rw [segmentAt, hsaddr, hsource, hdest, hseq, hackSeq, fin, syn, ack, hflags, hfin, hsyn, hack]

/-- The packet built for a segment is valid and carries it. -/
theorem segmentOf_packetOf {bufferLen : Int} (hlen : 40 ≤ bufferLen)
    (hmax : bufferLen < 18446744073709551616) :
    segmentOf (packetOf seg) bufferLen = some seg := by
  rw [segmentOf, validateIpTcp_packetOf seg hlen hmax, Option.map_some, segmentAt_packetOf]

end PacketOf

/-! ## A handshake -/

/-- A client packet that carries the segment, as the server passes it on. -/
def clientCall (seg : Segment) : Call := .client 0 (packetOf seg) 9000 3232266986

/-- A world packet that carries the segment. -/
def worldCall (seg : Segment) : Call := .world (packetOf seg) 9000

/-- The `SYN` of a client to port 80. -/
def sampleSyn : Segment where
  saddr := 167772161
  source := 5000
  dest := 80
  seq := 1000
  ackSeq := 0
  fin := false
  syn := true
  ack := false

/-- Its answer, to the first port of the pool. -/
def sampleSynAck : Segment where
  saddr := 134744072
  source := 80
  dest := 40000
  seq := 7000
  ackSeq := 1001
  fin := false
  syn := true
  ack := true

/-- The end of the handshake. -/
def sampleAck : Segment :=
  { sampleSyn with seq := 1001, ackSeq := 7001, syn := false, ack := true }

section Perform

variable (m : Machine) (seg : Segment)

/-- The handlers only look at the segment of such a packet. -/
theorem perform_clientCall : perform m (clientCall seg) = (acceptClient m 0 seg).2 :=
  (client_of_accept m 0 (packetOf seg) 9000 _
    (segmentOf_packetOf seg (by decide) (by decide)) rfl).2

theorem perform_worldCall : perform m (worldCall seg) = (acceptWorld m seg).2 :=
  (world_of_accept m (packetOf seg) 9000 (segmentOf_packetOf seg (by decide) (by decide)) rfl).2

end Perform

end BenkerVpn

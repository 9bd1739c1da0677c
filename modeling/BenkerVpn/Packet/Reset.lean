import BenkerVpn.Packet.Sealed

/-!
# Reset packets

`fillin_reset` turns the first forty bytes of a buffer into a reset, whatever they hold. Both parts
of it first write the fields of a header (`resetHeader`, `resetSegment`) and then the checksum, so
the packet is sealed, and its lengths and flags are those of a reset (`fillinReset_resetPacket`).
The fields of the answer are taken from the bytes where a header without options has them
(`fillinReset_fields`): the IP header has been shortened to five words by then.
-/

set_option autoImplicit false

namespace BenkerVpn

open Library.Octets Library.OnesComplement

/-! ## The IP part -/

/-- The buffer `ip_csum` is computed on. -/
def resetHeader (b : Buffer) : Buffer :=
  let b := put8 b 0 (UInt8.ofNat ((b 0).toNat / 16 * 16 + 5))
  let b := put16 b 2 40
  let b := putLe16 b 4 (le16 b 4 + 1)
  let b := put16 b 6 0
  let b := put8 b 8 60
  let b := put16 b 10 0
  let temp32 := saddr b
  let b := put32 b 12 (daddr b)
  put32 b 16 temp32

section ResetHeader

variable (b : Buffer)

theorem fillinResetIp_eq :
    fillinResetIp b = put16 (resetHeader b) 10 (ipCsum (resetHeader b)) := rfl

theorem ihl_resetHeader : ihl (resetHeader b) = 5 := by
  have h0 := (b 0).toNat_lt
  have hbyte : resetHeader b 0 = UInt8.ofNat ((b 0).toNat / 16 * 16 + 5) := by
    simp (disch := omega) only [resetHeader, put32_of_ne, put16_of_ne, put8_of_ne, putLe16_of_ne,
      put8_self]
  rw [ihl, hbyte, UInt8.toNat_ofNat']
  omega

theorem totLen_resetHeader : totLen (resetHeader b) = 40 := by
  simp (disch := omega) only [totLen, resetHeader, be16_put32_of_disjoint, be16_put16_of_disjoint,
    be16_put8_of_ne, be16_putLe16_of_disjoint, be16_put16_self]

theorem be16_check_resetHeader : be16 (resetHeader b) 10 = 0 := by
  simp (disch := omega) only [resetHeader, be16_put32_of_disjoint, be16_put16_self]

/-- Behind the IP header nothing is written. -/
theorem resetHeader_of_ge {i : Nat} (hi : 20 ≤ i) : resetHeader b i = b i := by
  simp (disch := omega) only [resetHeader, put32_of_ne, put16_of_ne, put8_of_ne, putLe16_of_ne]

theorem protocol_resetHeader : protocol (resetHeader b) = protocol b := by
  rw [protocol, protocol]
  simp (disch := omega) only [resetHeader, put32_of_ne, put16_of_ne, put8_of_ne, putLe16_of_ne]

theorem saddr_resetHeader : saddr (resetHeader b) = daddr b := by
  simp (disch := omega) only [saddr, daddr, resetHeader, be32_put32_of_disjoint, be32_put32_self,
    be32_put16_of_disjoint, be32_put8_of_disjoint, be32_putLe16_of_disjoint]

theorem daddr_resetHeader : daddr (resetHeader b) = saddr b := by
  simp (disch := omega) only [saddr, daddr, resetHeader, be32_put32_self,
    be32_put16_of_disjoint, be32_put8_of_disjoint, be32_putLe16_of_disjoint]

/-- The finished IP header differs from it in the check field. -/
theorem fillinResetIp_of_ne {i : Nat} (hi : i < 10 ∨ 12 ≤ i) :
    fillinResetIp b i = resetHeader b i := by
  rw [fillinResetIp_eq, put16_of_ne _ _ (by omega) (by omega)]

end ResetHeader

/-! ## The TCP part -/

/-- The buffer `tcp_csum` is computed on, for a TCP header at index `tcp`. -/
def resetSegment (b : Buffer) (tcp : Nat) : Buffer :=
  let temp16 := source b tcp
  let b := put16 b tcp (dest b tcp)
  let b := put16 b (tcp + 2) temp16
  let temp32 := seq b tcp
  let b := put32 b (tcp + 4) (ackSeq b tcp)
  let b := put32 b (tcp + 8) (temp32 + 1)
  let b := put8 b (tcp + 12) (UInt8.ofNat ((b (tcp + 12)).toNat % 16 + 5 * 16))
  let b := put8 b (tcp + 13) 0x14
  put16 b (tcp + 16) 0

section ResetSegment

variable (b : Buffer) (tcp : Nat)

theorem fillinResetTcp_eq : fillinResetTcp b =
    put16 (resetSegment b (ihl b * 4)) (ihl b * 4 + 16)
      (tcpCsum (resetSegment b (ihl b * 4)) (ihl b * 4) 0) := rfl

/-- Only the TCP header is written. -/
theorem resetSegment_of_ne {i : Nat} (hi : i < tcp ∨ tcp + 18 ≤ i) :
    resetSegment b tcp i = b i := by
  simp (disch := omega) only [resetSegment, put32_of_ne, put16_of_ne, put8_of_ne]

theorem be16_check_resetSegment : be16 (resetSegment b tcp) (tcp + 16) = 0 := by
  rw [resetSegment, be16_put16_self]

theorem flags_resetSegment : resetSegment b tcp (tcp + 13) = 0x14 := by
  simp (disch := omega) only [resetSegment, put16_of_ne, put8_self]

theorem doff_resetSegment : doff (resetSegment b tcp) tcp = 5 := by
  have hbyte : resetSegment b tcp (tcp + 12) =
      UInt8.ofNat ((b (tcp + 12)).toNat % 16 + 5 * 16) := by
    simp (disch := omega) only [resetSegment, put32_of_ne, put16_of_ne, put8_of_ne, put8_self]
  rw [doff, hbyte, UInt8.toNat_ofNat']
  omega

theorem source_resetSegment : source (resetSegment b tcp) tcp = dest b tcp := by
  simp (disch := omega) only [source, dest, resetSegment, be16_put16_of_disjoint, be16_put8_of_ne,
    be16_put32_of_disjoint, be16_put16_self]

theorem dest_resetSegment : dest (resetSegment b tcp) tcp = source b tcp := by
  simp (disch := omega) only [source, dest, resetSegment, be16_put16_of_disjoint, be16_put8_of_ne,
    be16_put32_of_disjoint, be16_put16_self]

theorem seq_resetSegment : seq (resetSegment b tcp) tcp = ackSeq b tcp := by
  simp (disch := omega) only [seq, ackSeq, resetSegment, be32_put16_of_disjoint,
    be32_put8_of_disjoint, be32_put32_of_disjoint, be32_put32_self]

theorem ackSeq_resetSegment : ackSeq (resetSegment b tcp) tcp = seq b tcp + 1 := by
  simp (disch := omega) only [seq, ackSeq, resetSegment, be32_put16_of_disjoint,
    be32_put8_of_disjoint, be32_put32_self]

end ResetSegment

/-! ## The whole packet -/

section FillinReset

variable (b : Buffer)

theorem fillinReset_buffer : (fillinReset b).1 = fillinResetTcp (fillinResetIp b) := by
  rw [fillinReset]

theorem fillinReset_length : (fillinReset b).2 = (totLen (fillinReset b).1).toNat := by
  rw [fillinReset]

/-- The reset before its TCP checksum. -/
def resetFields (b : Buffer) : Buffer := resetSegment (fillinResetIp b) 20

theorem ihl_fillinResetIp : ihl (fillinResetIp b) = 5 := by
  rw [ihl_congr (fillinResetIp_of_ne b (Or.inl (by omega))), ihl_resetHeader]

/-- Below the TCP header the reset has the finished IP header. -/
theorem resetFields_of_lt {i : Nat} (hi : i < 20) : resetFields b i = fillinResetIp b i :=
  resetSegment_of_ne _ _ (Or.inl hi)

theorem ihl_resetFields : ihl (resetFields b) = 5 := by
  rw [ihl_congr (resetFields_of_lt b (by omega)), ihl_fillinResetIp]

theorem totLen_resetFields : totLen (resetFields b) = 40 := by
  have hkeep : ∀ i < 10, resetFields b i = resetHeader b i := by
    intro i hi
    rw [resetFields_of_lt b (by omega), fillinResetIp_of_ne b (Or.inl hi)]
  rw [← totLen_resetHeader b, totLen, totLen, be16_congr (hkeep _ (by omega)) (hkeep _ (by omega))]

theorem doff_resetFields : doff (resetFields b) 20 = 5 := doff_resetSegment _ _

/-- The reset, with a data pointer that `tcp_csum` does not follow. -/
theorem fillinReset_eq :
    (fillinReset b).1 = put16 (resetFields b) (20 + 16)
      (tcpCsum (resetFields b) 20 (20 + doff (resetFields b) 20 * 4)) := by
  have hdata : tcpDataBytes (resetFields b) 20 ≤ 0 := by
    rw [tcpDataBytes, totLen_resetFields, ihl_resetFields, doff_resetFields]
    decide
  have htcp : ihl (fillinResetIp b) * 4 = 20 := by rw [ihl_fillinResetIp]
  rw [fillinReset_buffer, fillinResetTcp_eq, htcp, tcpCsum_of_no_data hdata _ 0, resetFields]

/-- Only the TCP check field is written last. -/
theorem fillinReset_of_ne {i : Nat} (hi : i < 36 ∨ 38 ≤ i) :
    (fillinReset b).1 i = resetFields b i := by
  rw [fillinReset_eq, put16_of_ne _ _ (by omega) (by omega)]

theorem sealed_fillinReset : Sealed (fillinReset b).1 := by
  have hihl := ihl_resetHeader b
  rw [fillinReset_eq]
  apply sealed_of_written (z := resetHeader b)
  · omega
  · omega
  · exact be16_check_resetHeader b
  · exact be16_check_resetSegment _ 20
  · exact fun i hi => resetFields_of_lt b hi

theorem ihl_fillinReset : ihl (fillinReset b).1 = 5 := by
  rw [ihl_congr (fillinReset_of_ne b (Or.inl (by omega))), ihl_resetFields]

theorem totLen_fillinReset : totLen (fillinReset b).1 = 40 := by
  rw [← totLen_resetFields b, totLen, totLen,
    be16_congr (fillinReset_of_ne b (by omega)) (fillinReset_of_ne b (by omega))]

theorem doff_fillinReset : doff (fillinReset b).1 20 = 5 := by
  rw [doff_congr (fillinReset_of_ne b (by omega)), doff_resetFields]

theorem fillinReset_wellFormed : WellFormed (fillinReset b).1 40 := by
  have hihl := ihl_fillinReset b
  have htot := totLen_fillinReset b
  have hdoff := doff_fillinReset b
  constructor
  case ihl_ge => omega
  case doff_ge => rw [hihl, hdoff]
  case headers_le => rw [hihl, hdoff, htot]; decide
  case totLen_le => rw [htot]; decide

end FillinReset

/-- The first forty bytes are a TCP reset without options and data. -/
structure ResetPacket (b : Buffer) : Prop where
  ihl_eq : ihl b = 5
  totLen_eq : totLen b = 40
  doff_eq : doff b 20 = 5
  set : rst b 20 = true ∧ ack b 20 = true
  clear : fin b 20 = false ∧ syn b 20 = false ∧ psh b 20 = false ∧ urg b 20 = false ∧
    ece b 20 = false ∧ cwr b 20 = false
  ipSum : endAround (octetSum b 0 20) = 65535
  tcpSum : endAround (pseudoWords (saddr b) (daddr b) 20 + octetSum b 20 20) = 65535

/-- `fillin_reset` always emits a self-consistent packet. -/
theorem fillinReset_resetPacket (b : Buffer) :
    (fillinReset b).2 = 40 ∧ ResetPacket (fillinReset b).1 ∧
      ∀ i, 40 ≤ i → (fillinReset b).1 i = b i := by
  have hflags : (fillinReset b).1 (20 + 13) = 0x14 := by
    rw [fillinReset_of_ne b (by omega)]
    exact flags_resetSegment _ 20
  obtain ⟨hip, htcp⟩ := (sealed_fillinReset b).checksummed (fillinReset_wellFormed b)
  rw [ipWords, ihl_fillinReset] at hip
  rw [tcpWords, ihl_fillinReset, totLen_fillinReset] at htcp
  refine ⟨?_, ?_, ?_⟩
  · rw [fillinReset_length, totLen_fillinReset]
    rfl
  · constructor
    case ihl_eq => exact ihl_fillinReset b
    case totLen_eq => exact totLen_fillinReset b
    case doff_eq => exact doff_fillinReset b
    case set =>
      rw [rst, ack, hflags]
      decide
    case clear =>
      rw [fin, syn, psh, urg, ece, cwr, hflags]
      decide
    case ipSum => exact hip
    case tcpSum => exact htcp
  · intro i hi
    rw [fillinReset_of_ne b (by omega), resetFields, resetSegment_of_ne _ _ (by omega),
      fillinResetIp_of_ne b (by omega), resetHeader_of_ge b (by omega)]

/-- What the reset answers: addresses and ports are swapped and the numbers are taken from the
received ones, all read where a header without options has them. -/
theorem fillinReset_fields (b : Buffer) :
    protocol (fillinReset b).1 = protocol b ∧ saddr (fillinReset b).1 = daddr b ∧
      daddr (fillinReset b).1 = saddr b ∧ source (fillinReset b).1 20 = dest b 20 ∧
      dest (fillinReset b).1 20 = source b 20 ∧ seq (fillinReset b).1 20 = ackSeq b 20 ∧
      ackSeq (fillinReset b).1 20 = seq b 20 + 1 := by
  have hheader : ∀ i, 12 ≤ i → i < 20 → (fillinReset b).1 i = resetHeader b i := by
    intro i hi hi'
    rw [fillinReset_of_ne b (by omega), resetFields_of_lt b hi', fillinResetIp_of_ne b (by omega)]
  have hsegment : ∀ i, 20 ≤ i → i < 36 → (fillinReset b).1 i = resetFields b i := by
    intro i hi hi'
    exact fillinReset_of_ne b (by omega)
  -- the TCP part reads the bytes behind the new IP header, which are as they were received
  have hold : ∀ i, 20 ≤ i → fillinResetIp b i = b i := by
    intro i hi
    rw [fillinResetIp_of_ne b (by omega), resetHeader_of_ge b hi]
  refine ⟨?_, ?_, ?_, ?_, ?_, ?_, ?_⟩
  · rw [← protocol_resetHeader b, protocol, fillinReset_of_ne b (by omega),
      resetFields_of_lt b (by omega), fillinResetIp_of_ne b (by omega), protocol]
  · rw [← saddr_resetHeader b, saddr, be32_congr fun j hj hj' => hheader j hj (by omega), saddr]
  · rw [← daddr_resetHeader b, daddr, be32_congr fun j hj hj' => hheader j (by omega) hj', daddr]
  · rw [source, be16_congr (hsegment _ (by omega) (by omega)) (hsegment _ (by omega) (by omega)),
      ← source, resetFields, source_resetSegment, dest,
      be16_congr (hold _ (by omega)) (hold _ (by omega)), dest]
  · rw [dest, be16_congr (hsegment _ (by omega) (by omega)) (hsegment _ (by omega) (by omega)),
      ← dest, resetFields, dest_resetSegment, source,
      be16_congr (hold _ (by omega)) (hold _ (by omega)), source]
  · rw [seq, be32_congr fun j hj hj' => hsegment j (by omega) (by omega), ← seq, resetFields,
      seq_resetSegment, ackSeq, be32_congr fun j hj _ => hold j (by omega), ackSeq]
  · rw [ackSeq, be32_congr fun j hj hj' => hsegment j (by omega) (by omega), ← ackSeq, resetFields,
      ackSeq_resetSegment, seq, be32_congr fun j hj _ => hold j (by omega), seq]

end BenkerVpn

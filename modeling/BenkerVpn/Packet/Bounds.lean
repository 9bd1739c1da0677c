import BenkerVpn.Model.HeaderAccesses
import BenkerVpn.Packet.Leftover

/-!
# Which bytes rewriting accesses

The lengths that bound the accesses of a rewrite are read again after the address and the port have
been written (`inBounds_rewrite_iff`). In a packet without IP header the destination port lies over
the total length and the source address over the data offset, and in one with an IP header of four
bytes the destination address lies over the data offset. Validation accepts such packets, and the
rewrite then stays within the buffer exactly if the address and the port happen to be small enough
(`replace_inBounds_iff`, `noIpHeader_outOfBounds`).
-/

set_option autoImplicit false

namespace BenkerVpn.Traced

open Library.Octets Library.Accesses

variable (b : Buffer)

@[simp] theorem run_ihl : ihl.run b = ⟨BenkerVpn.ihl b, b, [0]⟩ := rfl

@[simp] theorem run_totLen : totLen.run b = ⟨BenkerVpn.totLen b, b, [2, 3]⟩ := rfl

@[simp] theorem run_doff (tcp : Nat) :
    (doff tcp).run b = ⟨BenkerVpn.doff b tcp, b, [tcp + 12]⟩ := rfl

/-- The loop reads each octet once. -/
@[simp] theorem run_addWords (i bytes : Nat) (sum : UInt32) :
    (addWords i bytes sum).run b = ⟨BenkerVpn.addWords b i bytes sum, b, List.range' i bytes⟩ := by
  induction i, bytes, sum using BenkerVpn.addWords.induct b with
  | case1 i bytes sum ih =>
      rw [addWords, run_bind, run_bind, run_read8, run_read8, ih]
      rfl
  | case2 i sum => rfl
  | case3 i sum => rfl

@[simp] theorem run_summing (i bytes : Nat) (sum : UInt32) :
    (summing i bytes sum).run b = ⟨BenkerVpn.summing b i bytes sum, b, List.range' i bytes⟩ := by
  rw [summing, run_bind, run_addWords, run_pure, List.append_nil]
  rfl

@[simp] theorem run_ipCsum :
    ipCsum.run b = ⟨BenkerVpn.ipCsum b, b, 0 :: List.range' 0 (BenkerVpn.ihl b * 4)⟩ := by
  rw [ipCsum, run_bind, run_ihl, run_bind, run_summing, run_pure, List.append_nil]
  rfl

/-- No octet is read if there are no data. -/
@[simp] theorem run_summingData (tcpData : Nat) (tcpDataBytes : Int) (sum : UInt16) :
    (summingData tcpData tcpDataBytes sum).run b =
      ⟨if tcpDataBytes > 0 then BenkerVpn.summing b tcpData tcpDataBytes.toNat sum.toUInt32
        else sum, b, List.range' tcpData tcpDataBytes.toNat⟩ := by
  rw [summingData]
  split
  · rw [run_summing]
  · next h =>
      have hzero : tcpDataBytes.toNat = 0 := by omega
      rw [run_pure, hzero]
      rfl

/-- The two copies fill the places of the addresses. -/
theorem pseudo_eq (length : UInt16) :
    put16 (fun i => if i < 4 then if i < 4 then b (12 + i) else 0
      else if i < 8 then if i - 4 < 4 then b (16 + (i - 4)) else 0
      else if i = 9 then ipprotoTcp else 0) 10 length = pseudoHeader b length := by
  rw [pseudoHeader]
  congr 1
  funext i
  by_cases hsrc : i < 4
  · rw [if_pos hsrc, if_pos hsrc, if_pos (by omega)]
  · by_cases hdst : i < 8
    · have hindex : 16 + (i - 4) = 12 + i := by omega
      rw [if_neg hsrc, if_pos hdst, if_pos (by omega), if_pos hdst, hindex]
    · rw [if_neg hsrc, if_neg hdst, if_neg hdst]

/-- The indices that `tcp_csum` reads. -/
def tcpCsumTouched (tcp tcpData : Nat) : List Nat :=
  [2, 3, 0, tcp + 12] ++ (List.range' 12 4 ++ (List.range' 16 4 ++ ([tcp + 12, tcp + 12] ++
    (List.range' tcp (BenkerVpn.doff b tcp * 4) ++
      List.range' tcpData (tcpDataBytes b tcp).toNat))))

@[simp] theorem run_tcpCsum (tcp tcpData : Nat) :
    (tcpCsum tcp tcpData).run b =
      ⟨BenkerVpn.tcpCsum b tcp tcpData, b, tcpCsumTouched b tcp tcpData⟩ := by
  simp only [tcpCsum, run_bind, run_totLen, run_ihl, run_doff, run_readBlock, run_summing,
    run_summingData, run_pure, pseudo_eq, List.append_nil]
  rfl

@[simp] theorem run_replaceIp (field : Nat) (ip : UInt32) :
    (replaceIp field ip).run b =
      ⟨(), BenkerVpn.replaceIp field b ip,
        [10, 11, field, field + 1, field + 2, field + 3, 0] ++
          (List.range' 0 (BenkerVpn.ihl (put32 (put16 b 10 0) field ip) * 4) ++ [10, 11])⟩ := by
  simp only [replaceIp, run_bind, run_write16, run_write32, run_ipCsum]
  rfl

@[simp] theorem run_replacePort (field : Nat) (port : UInt16) :
    (replacePort field port).run b =
      ⟨(), BenkerVpn.replacePort field b port,
        [0, BenkerVpn.ihl b * 4 + 12, BenkerVpn.ihl b * 4 + field, BenkerVpn.ihl b * 4 + field + 1,
          BenkerVpn.ihl b * 4 + 16, BenkerVpn.ihl b * 4 + 17] ++
          (tcpCsumTouched (portWritten field b port) (BenkerVpn.ihl b * 4)
            (BenkerVpn.ihl b * 4 + BenkerVpn.doff b (BenkerVpn.ihl b * 4) * 4) ++
            [BenkerVpn.ihl b * 4 + 16, BenkerVpn.ihl b * 4 + 17])⟩ := by
  simp only [replacePort, run_bind, run_ihl, run_doff, run_write16, run_tcpCsum]
  rfl

/-! ## The computations are those of the model -/

theorem memory_replaceSrcIpPort (ip : UInt32) (port : UInt16) :
    ((replaceSrcIpPort ip port).run b).memory = BenkerVpn.replaceSrcIpPort b ip port := by
  rw [replaceSrcIpPort, run_bind, run_replaceIp, run_replacePort]
  rfl

theorem memory_replaceDstIpPort (ip : UInt32) (port : UInt16) :
    ((replaceDstIpPort ip port).run b).memory = BenkerVpn.replaceDstIpPort b ip port := by
  rw [replaceDstIpPort, run_bind, run_replaceIp, run_replacePort]
  rfl

/-! ## Bounds -/

section Bounds

variable {b : Buffer} {n : Nat}

/-- Rewriting an address stays within the IP header. -/
theorem inBounds_replaceIp {field : Nat} (hfield : 0 < field) (hend : field + 4 ≤ n)
    (hcheck : 12 ≤ n) (hheader : BenkerVpn.ihl b * 4 ≤ n) (ip : UInt32) :
    InBounds (replaceIp field ip) b n := by
  have hihl : BenkerVpn.ihl (put32 (put16 b 10 0) field ip) = BenkerVpn.ihl b := by
    rw [ihl_put32 _ _ hfield, ihl_put16 _ _ (by decide)]
  have hwords := (forall_mem_range'_lt 0 (BenkerVpn.ihl b * 4) n).2 (by omega)
  rw [InBounds, run_replaceIp, hihl]
  simp only [List.forall_mem_append, List.forall_mem_cons]
  refine ⟨?_, hwords, ?_⟩
  · exact ⟨by omega, by omega, by omega, by omega, by omega, by omega, by omega, by simp⟩
  · exact ⟨by omega, by omega, by simp⟩

/-- The TCP checksum reads up to the end of the TCP header and up to the end of the data. -/
theorem forall_mem_tcpCsumTouched_lt_iff {tcp tcpData : Nat} (hn : 20 ≤ n) (htcp : tcp + 12 < n) :
    (∀ i ∈ tcpCsumTouched b tcp tcpData, i < n) ↔
      tcp + BenkerVpn.doff b tcp * 4 ≤ n ∧
        ((tcpDataBytes b tcp).toNat = 0 ∨ tcpData + (tcpDataBytes b tcp).toNat ≤ n) := by
  simp only [tcpCsumTouched, List.forall_mem_append, List.forall_mem_cons, forall_mem_range'_lt]
  constructor
  · rintro ⟨-, -, -, -, hheader, hdata⟩
    exact ⟨by omega, hdata⟩
  · rintro ⟨hheader, hdata⟩
    refine ⟨?_, by omega, by omega, ?_, by omega, hdata⟩
    · exact ⟨by omega, by omega, by omega, by omega, by simp⟩
    · exact ⟨by omega, by omega, by simp⟩

/-- Rewriting a port is in bounds exactly if both headers and the data are, with the lengths that
are read after the port has been written. -/
theorem inBounds_replacePort_iff {field : Nat} (hfield : field ≤ 2) (port : UInt16) (hn : 20 ≤ n)
    (htcp : BenkerVpn.ihl b * 4 + 18 ≤ n) :
    InBounds (replacePort field port) b n ↔
      BenkerVpn.ihl b * 4 +
          BenkerVpn.doff (portWritten field b port) (BenkerVpn.ihl b * 4) * 4 ≤ n ∧
        ((BenkerVpn.ihl b * 4 : Nat) : Int) + (BenkerVpn.totLen (portWritten field b port)).toNat ≤
          n + (BenkerVpn.ihl (portWritten field b port) * 4 : Nat) := by
  have hdoff := doff_portWritten field b port hfield
  rw [InBounds, run_replacePort]
  simp only [List.forall_mem_append, List.forall_mem_cons,
    forall_mem_tcpCsumTouched_lt_iff hn (by omega : BenkerVpn.ihl b * 4 + 12 < n)]
  rw [tcpDataBytes, hdoff]
  constructor
  · rintro ⟨-, ⟨hheader, hdata⟩, -⟩
    exact ⟨hheader, by omega⟩
  · rintro ⟨hheader, hdata⟩
    refine ⟨?_, ⟨hheader, by omega⟩, ?_⟩
    · exact ⟨by omega, by omega, by omega, by omega, by omega, by omega, by simp⟩
    · exact ⟨by omega, by omega, by simp⟩

end Bounds

end BenkerVpn.Traced

namespace BenkerVpn

open Library.Octets Library.Accesses

section Accepted

variable {b : Buffer} {bufferLen : Nat} (hvalid : Validated b bufferLen) (ip : UInt32)
  (port : UInt16)
include hvalid

/-- The body of both rewrites is in bounds exactly if the lengths read while the TCP checksum is
computed are. -/
theorem inBounds_rewrite_iff {ipField portField : Nat} (hip : 0 < ipField) (hip' : ipField ≤ 16)
    (hport : portField ≤ 2) :
    InBounds (do Traced.replaceIp ipField ip; Traced.replacePort portField port) b bufferLen ↔
      let z := portWritten portField (replaceIp ipField b ip) port
      ihl b * 4 + doff z (ihl b * 4) * 4 ≤ bufferLen ∧
        ((ihl b * 4 : Nat) : Int) + (totLen z).toNat ≤ bufferLen + (ihl z * 4 : Nat) := by
  have hsize := hvalid.size_ge
  have hheader := hvalid.header_le
  have hihl := ihl_replaceIp b ipField ip hip
  have hbound : InBounds (Traced.replaceIp ipField ip) b bufferLen :=
    Traced.inBounds_replaceIp hip (by omega) (by omega) (by omega) ip
  have hfull : 20 ≤ bufferLen := by omega
  have htcp : ihl (replaceIp ipField b ip) * 4 + 18 ≤ bufferLen := by omega
  have hrest := Traced.inBounds_replacePort_iff hport port hfull htcp
  rw [hihl] at hrest
  rw [inBounds_bind, and_iff_right hbound, Traced.run_replaceIp]
  exact hrest

/-- A packet with an IP header keeps its lengths while its source is rewritten. In one without, the
data offset is read from the address. -/
theorem inBounds_replaceSrcIpPort_iff :
    InBounds (Traced.replaceSrcIpPort ip port) b bufferLen ↔
      (ihl b = 0 → ip.toNat / 268435456 * 4 ≤ bufferLen) := by
  have htot := hvalid.totLen_le
  have hheaders := hvalid.headers_le
  rw [Traced.replaceSrcIpPort, inBounds_rewrite_iff hvalid ip port (by omega) (by omega) (by omega)]
  dsimp only
  rw [totLen_written (by omega) (by omega)]
  by_cases h : ihl b = 0
  · rw [doff_written_of_address (by omega) (by omega) (by omega), h]
    omega
  · rw [ihl_written (by omega) (by omega), doff_written (by omega) (by omega) (by omega)]
    omega

/-- Where the port is written over the total length, the port decides; where the address is written
over the data offset, the address does. -/
theorem inBounds_replaceDstIpPort_iff :
    InBounds (Traced.replaceDstIpPort ip port) b bufferLen ↔
      (ihl b = 0 → port.toNat ≤ bufferLen) ∧
        (ihl b = 1 → 4 + ip.toNat / 268435456 * 4 ≤ bufferLen) := by
  have htot := hvalid.totLen_le
  have hheaders := hvalid.headers_le
  rw [Traced.replaceDstIpPort, inBounds_rewrite_iff hvalid ip port (by omega) (by omega) (by omega)]
  dsimp only
  rw [ihl_written (by omega) (by omega)]
  by_cases h : ihl b = 0
  · have hdoff : doff (portWritten 2 (replaceIp 16 b ip) port) (ihl b * 4) =
        doff b (ihl b * 4) := doff_written (by omega) (by omega) (by omega)
    rw [totLen_written_of_port (by omega) h, hdoff]
    omega
  · rw [totLen_written (by omega) (by omega)]
    by_cases h1 : ihl b = 1
    · rw [doff_written_of_address (by omega) (by omega) (by omega), h1]
      omega
    · rw [doff_written (by omega) (by omega) (by omega)]
      omega

end Accepted

/-- An accepted packet is processed in bounds exactly if no field that is written over one of its
lengths exceeds the buffer. With an IP header of at least eight bytes no length is overwritten. -/
theorem replace_inBounds_iff {b : Buffer} {bufferLen : Nat}
    (hmax : (bufferLen : Int) < 18446744073709551616)
    (haccepted : (validateIpTcp b bufferLen).isSome) (ip : UInt32) (port : UInt16) :
    (InBounds (Traced.replaceSrcIpPort ip port) b bufferLen ↔
      (ihl b = 0 → ip.toNat / 268435456 * 4 ≤ bufferLen)) ∧
    (InBounds (Traced.replaceDstIpPort ip port) b bufferLen ↔
      (ihl b = 0 → port.toNat ≤ bufferLen) ∧
        (ihl b = 1 → 4 + ip.toNat / 268435456 * 4 ≤ bufferLen)) := by
  have hvalid := (validateIpTcp_isSome_iff hmax).1 haccepted
  exact ⟨inBounds_replaceSrcIpPort_iff hvalid ip port, inBounds_replaceDstIpPort_iff hvalid ip port⟩

/-- A packet of forty bytes without IP header. -/
def noIpHeader : Buffer := fun i => if i = 3 then 40 else if i = 9 then ipprotoTcp else 0

/-- A port up to the size of the buffer does no harm. -/
theorem noIpHeader_inBounds : InBounds (Traced.replaceDstIpPort 0 40) noIpHeader 40 :=
  (replace_inBounds_iff (by decide) (by decide) 0 40).2.2 ⟨fun _ => by decide, fun _ => by decide⟩

/-- Port 5000 is read back as the total length, and the checksum reads behind the buffer. -/
theorem noIpHeader_outOfBounds :
    (validateIpTcp noIpHeader 40).isSome ∧
      ¬ InBounds (Traced.replaceDstIpPort 0 5000) noIpHeader 40 := by
  have haccepted : (validateIpTcp noIpHeader 40).isSome := by decide
  have hvalid := (validateIpTcp_isSome_iff (by decide)).1 haccepted
  refine ⟨haccepted, fun h => ?_⟩
  have hport := ((inBounds_replaceDstIpPort_iff hvalid 0 5000).1 h).1 (by decide)
  revert hport
  decide

end BenkerVpn

import BenkerVpn.Packet.Checksum
import BenkerVpn.Packet.Validation

/-!
# Rewritten packets carry their checksums

A packet is sealed if its two check fields hold what `ip_csum` and `tcp_csum` compute for it with
the field zeroed (`Sealed`). The sums over a sealed packet fold to `0xffff` (`Sealed.checksummed`),
and a sealed packet is determined by its other bytes (`Sealed.ext`). Every rewrite of a packet with
a full IP header leaves it sealed (`sealed_rewrite`). So the rewritten packet is correct
(`replace_rewrites`), and how often, in which order and on what way a packet was rewritten does not
show (`replace_absorbing_commuting_reversible`).
-/

set_option autoImplicit false

namespace BenkerVpn

open Library.Octets Library.OnesComplement

/-! ## Sums of a packet -/

/-- The sum of the 16-bit words of the IP header. -/
def ipWords (b : Buffer) : Nat := octetSum b 0 (ihl b * 4)

/-- The sum of the 16-bit words of the TCP pseudo header: the addresses, the protocol and the length
of the segment. -/
def pseudoWords (src dst : UInt32) (length : Nat) : Nat :=
  (src.toNat / 65536 + src.toNat % 65536) + (dst.toNat / 65536 + dst.toNat % 65536) + 6 + length

/-- The sum over the pseudo header and the whole segment, which ends with the packet. -/
def tcpWords (b : Buffer) : Nat :=
  pseudoWords (saddr b) (daddr b) ((totLen b).toNat - ihl b * 4) +
    octetSum b (ihl b * 4) ((totLen b).toNat - ihl b * 4)

/-- Both sums fold to `0xffff`. -/
structure Checksummed (b : Buffer) : Prop where
  ip : endAround (ipWords b) = 65535
  tcp : endAround (tcpWords b) = 65535

theorem octetSum_four (m : Memory) (i : Nat) :
    octetSum m i 4 = (be32 m i).toNat / 65536 + (be32 m i).toNat % 65536 := by
  have hlow := (be16 m (i + 2)).toNat_lt
  have hsum : octetSum m i 4 = (be16 m i).toNat + (be16 m (i + 2)).toNat := by
    rw [show 4 = 0 + 2 + 2 from rfl, octetSum_add_two, octetSum_add_two, octetSum_zero, toNat_be16,
      toNat_be16]
    omega
  rw [hsum, toNat_be32]
  omega

/-- The pseudo header that `tcp_csum` builds. -/
theorem octets_pseudoHeader (b : Buffer) (length : UInt16) :
    octets (pseudoHeader b length) 0 12 = octets b 12 8 ++
      [0, ipprotoTcp, UInt8.ofNat (length.toNat / 256), UInt8.ofNat length.toNat] := by
  have haddr : octets (pseudoHeader b length) 0 8 = octets b 12 8 := by
    apply octets_shift
    intro k hk
    rw [Nat.zero_add, pseudoHeader, put16_of_ne _ _ (by omega) (by omega)]
    exact if_pos hk
  have hzero : pseudoHeader b length 8 = 0 := put16_of_ne _ _ (by omega) (by omega)
  have hprotocol : pseudoHeader b length 9 = ipprotoTcp := put16_of_ne _ _ (by omega) (by omega)
  have hhigh : pseudoHeader b length 10 = UInt8.ofNat (length.toNat / 256) := put16_high _ _ _
  have hlow : pseudoHeader b length 11 = UInt8.ofNat length.toNat := put16_low _ 10 _
  have hsplit := octets_add (pseudoHeader b length) 0 8 4
  rw [show 12 = 8 + 4 from rfl, hsplit, haddr]
  simp only [octets, hzero, hprotocol, hhigh, hlow]

/-- The sum of the pseudo header. -/
theorem octetSum_pseudoHeader (b : Buffer) (length : UInt16) :
    octetSum (pseudoHeader b length) 0 12 = pseudoWords (saddr b) (daddr b) length.toNat := by
  have hlt := length.toNat_lt
  have haddr : wordSum (octets b 12 8) = octetSum b 12 4 + octetSum b 16 4 := by
    rw [← octetSum_eq_wordSum]
    exact octetSum_append b 12 4 rfl
  -- behind the addresses come a zero, the protocol and the length
  have hrest : wordSum [0, ipprotoTcp, UInt8.ofNat (length.toNat / 256), UInt8.ofNat length.toNat] =
      6 + length.toNat := by
    simp only [wordSum, ipprotoTcp, UInt8.toNat_ofNat', UInt8.reduceToNat]
    omega
  rw [octetSum_eq_wordSum, octets_pseudoHeader, wordSum_append _ (by rw [length_octets]), haddr,
    hrest, octetSum_four, octetSum_four, pseudoWords, saddr, daddr]
  omega

/-- The length of a segment that ends with the packet fits into 16 bits. -/
theorem toNat_segmentLength (b : Buffer) :
    (UInt16.ofNat ((totLen b).toNat - ihl b * 4)).toNat = (totLen b).toNat - ihl b * 4 := by
  have htot := (totLen b).toNat_lt
  rw [UInt16.toNat_ofNat']
  omega

section Lengths

variable {b : Buffer} (h : ihl b * 4 + doff b (ihl b * 4) * 4 ≤ (totLen b).toNat)
include h

/-- The length in the pseudo header is that of the segment, which does not overflow. -/
theorem pseudoLength_eq :
    UInt16.ofInt ((doff b (ihl b * 4) * 4 : Nat) + tcpDataBytes b (ihl b * 4)) =
      UInt16.ofNat ((totLen b).toNat - ihl b * 4) := by
  have htot := (totLen b).toNat_lt
  have hint : ((doff b (ihl b * 4) * 4 : Nat) : Int) + tcpDataBytes b (ihl b * 4) =
      (((totLen b).toNat - ihl b * 4 : Nat) : Int) := by
    rw [tcpDataBytes]
    omega
  apply UInt16.toNat_inj.1
  rw [hint, toNat_segmentLength, UInt16.ofInt, UInt16.toNat_ofNat']
  omega

/-- The TCP header and the data make up the segment. -/
theorem octetSum_segment :
    octetSum b (ihl b * 4) (doff b (ihl b * 4) * 4) +
        octetSum b (ihl b * 4 + doff b (ihl b * 4) * 4) (tcpDataBytes b (ihl b * 4)).toNat =
      octetSum b (ihl b * 4) ((totLen b).toNat - ihl b * 4) := by
  have hbytes : (tcpDataBytes b (ihl b * 4)).toNat =
      (totLen b).toNat - ihl b * 4 - doff b (ihl b * 4) * 4 := by
    rw [tcpDataBytes]
    omega
  have hsegment : (totLen b).toNat - ihl b * 4 = doff b (ihl b * 4) * 4 +
      ((totLen b).toNat - ihl b * 4 - doff b (ihl b * 4) * 4) := by omega
  rw [hbytes, ← octetSum_append _ _ _ (by omega), ← hsegment]

/-- In a packet whose headers lie within its total length, `tcp_csum` reduces the sum over the
pseudo header and the segment. -/
theorem tcpTotal_eq_tcpWords :
    tcpTotal b (ihl b * 4) (ihl b * 4 + doff b (ihl b * 4) * 4) = tcpWords b := by
  rw [tcpTotal, tcpWords, Nat.add_assoc, octetSum_segment h, tcpPseudo, pseudoLength_eq h,
    octetSum_pseudoHeader, toNat_segmentLength]

end Lengths

/-! ## Sealed packets -/

/-- Both check fields hold what the checksum functions compute with the field zeroed. -/
structure Sealed (b : Buffer) : Prop where
  ip : be16 b 10 = ipCsum (put16 b 10 0)
  tcp : be16 b (ihl b * 4 + 16) =
    tcpCsum (put16 b (ihl b * 4 + 16) 0) (ihl b * 4) (ihl b * 4 + doff b (ihl b * 4) * 4)

section Sealed

variable {b b' : Buffer}

/-- The sums over a sealed packet fold to `0xffff`. -/
theorem Sealed.checksummed {bufferLen : Int} (h : Sealed b) (hwf : WellFormed b bufferLen) :
    Checksummed b := by
  have hihl := hwf.ihl_ge
  have hdoff := hwf.doff_ge
  have hheaders := hwf.headers_le
  constructor
  · -- the check field of the IP header is its fifth word
    have hzero : ihl (put16 b 10 0) = ihl b := ihl_put16 _ _ (by decide)
    have hcsum : (be16 b 10).toNat = 65535 - endAround (ipWords (put16 b 10 0)) := by
      rw [h.ip, toNat_ipCsum, ipWords]
    have hword := octetSum_put16 b 0 (Nat.zero_le 10) (show 10 + 2 ≤ 0 + ihl b * 4 by omega) rfl
    rw [UInt16.toNat_zero, Nat.add_zero] at hword
    have hwords : ipWords b = ipWords (put16 b 10 0) + (be16 b 10).toNat := by
      rw [ipWords, ipWords, hzero, hword]
    rw [hwords, hcsum]
    exact endAround_add_complement _
  · -- that of the TCP header is its ninth
    have hkeep : ∀ i, i < ihl b * 4 + 16 → put16 b (ihl b * 4 + 16) 0 i = b i := fun i hi =>
      put16_of_ne _ _ (by omega) (by omega)
    have hzero : ihl (put16 b (ihl b * 4 + 16) 0) = ihl b := ihl_congr (hkeep 0 (by omega))
    have htot : totLen (put16 b (ihl b * 4 + 16) 0) = totLen b :=
      be16_congr (hkeep 2 (by omega)) (hkeep 3 (by omega))
    have hdoff' : doff (put16 b (ihl b * 4 + 16) 0) (ihl b * 4) = doff b (ihl b * 4) :=
      doff_congr (hkeep _ (by omega))
    have hsaddr : saddr (put16 b (ihl b * 4 + 16) 0) = saddr b :=
      be32_congr fun j _ hj => hkeep j (by omega)
    have hdaddr : daddr (put16 b (ihl b * 4 + 16) 0) = daddr b :=
      be32_congr fun j _ hj => hkeep j (by omega)
    have hcsum : (be16 b (ihl b * 4 + 16)).toNat =
        65535 - endAround (tcpWords (put16 b (ihl b * 4 + 16) 0)) := by
      have hheaders' : ihl (put16 b (ihl b * 4 + 16) 0) * 4 +
          doff (put16 b (ihl b * 4 + 16) 0) (ihl (put16 b (ihl b * 4 + 16) 0) * 4) * 4 ≤
            (totLen (put16 b (ihl b * 4 + 16) 0)).toNat := by
        rw [hzero, htot, hdoff']
        exact hheaders
      rw [h.tcp, toNat_tcpCsum, ← tcpTotal_eq_tcpWords hheaders', hzero, hdoff']
    have hword := octetSum_put16 b 0 (show ihl b * 4 ≤ ihl b * 4 + 16 by omega)
      (show ihl b * 4 + 16 + 2 ≤ ihl b * 4 + ((totLen b).toNat - ihl b * 4) by omega) (by omega)
    rw [UInt16.toNat_zero, Nat.add_zero] at hword
    have hwords : tcpWords b = tcpWords (put16 b (ihl b * 4 + 16) 0) +
        (be16 b (ihl b * 4 + 16)).toNat := by
      rw [tcpWords, tcpWords, hzero, htot, hsaddr, hdaddr]
      omega
    rw [hwords, hcsum]
    exact endAround_add_complement _

/-- The two check fields of a packet. -/
def checkFields (tcp : Nat) : Set Nat := Set.Ico 10 12 ∪ Set.Ico (tcp + 16) (tcp + 18)

/-- A sealed packet with a full IP header is determined by the bytes outside its check fields. -/
theorem Sealed.ext (h : Sealed b) (h' : Sealed b') (hihl : 5 ≤ ihl b)
    (hagree : Set.EqOn b b' (checkFields (ihl b * 4))ᶜ) : b = b' := by
  have hother : ∀ i, i < 10 ∨ 12 ≤ i → i < ihl b * 4 + 16 ∨ ihl b * 4 + 18 ≤ i → b i = b' i := by
    intro i hip htcp
    apply hagree
    rintro (⟨hi, hi'⟩ | ⟨hi, hi'⟩) <;> omega
  have hihl' : ihl b' = ihl b := (ihl_congr (hother 0 (by omega) (by omega))).symm
  -- the IP checksums are computed from equal headers
  have hip : be16 b 10 = be16 b' 10 := by
    rw [h.ip, h'.ip]
    have hzero : ihl (put16 b 10 0) = ihl b := ihl_put16 _ _ (by decide)
    have hheader : ∀ i < ihl b * 4, put16 b 10 0 i = put16 b' 10 0 i := by
      intro i hi
      apply put16_congr
      intro hhigh hlow
      exact hother i (by omega) (by omega)
    apply ipCsum_congr
    · rw [hzero]
      exact hheader
    · exact hheader 0 (by omega)
  obtain ⟨hten, heleven⟩ := octets_of_be16_eq hip
  -- so the TCP checksums are computed from equal packets
  have hzeroed : put16 b (ihl b * 4 + 16) 0 = put16 b' (ihl b * 4 + 16) 0 := by
    funext i
    apply put16_congr
    intro hhigh hlow
    rcases (by omega : i = 10 ∨ i = 11 ∨ i < 10 ∨ 12 ≤ i) with rfl | rfl | hi
    · exact hten
    · exact heleven
    · exact hother i hi (by omega)
  have htcp : be16 b (ihl b * 4 + 16) = be16 b' (ihl b * 4 + 16) := by
    have htcp' := h'.tcp
    rw [hihl'] at htcp'
    rw [h.tcp, htcp', hzeroed, doff_congr (hother (ihl b * 4 + 12) (by omega) (by omega))]
  obtain ⟨hhigh, hlow⟩ := octets_of_be16_eq htcp
  funext i
  rcases (by omega : i = 10 ∨ i = 11 ∨ i = ihl b * 4 + 16 ∨ i = ihl b * 4 + 16 + 1 ∨
    ((i < 10 ∨ 12 ≤ i) ∧ (i < ihl b * 4 + 16 ∨ ihl b * 4 + 18 ≤ i))) with rfl | rfl | rfl | rfl | hi
  · exact hten
  · exact heleven
  · exact hhigh
  · exact hlow
  · exact hother i hi.1 hi.2

/-- A packet is sealed by computing first the IP checksum of a packet `z` and then the TCP checksum
of a packet `w` with that IP header, both with the check field cleared. -/
theorem sealed_of_written {z w : Buffer} {tcp : Nat} (hihl : 5 ≤ ihl z) (htcp : tcp = ihl z * 4)
    (hz : be16 z 10 = 0) (hw : be16 w (tcp + 16) = 0)
    (hheader : ∀ i < tcp, w i = put16 z 10 (ipCsum z) i) :
    Sealed (put16 w (tcp + 16) (tcpCsum w tcp (tcp + doff w tcp * 4))) := by
  obtain ⟨t, ht⟩ : ∃ t, t = put16 w (tcp + 16) (tcpCsum w tcp (tcp + doff w tcp * 4)) := ⟨_, rfl⟩
  rw [← ht]
  have hip : Set.EqOn t (put16 z 10 (ipCsum z)) (Set.Iio tcp) := by
    intro i hi
    have hlt := Set.mem_Iio.1 hi
    rw [ht, put16_of_ne _ _ (by omega) (by omega)]
    exact hheader i hlt
  have hihlt : ihl t = ihl z := by
    rw [ihl_congr (hip (Set.mem_Iio.2 (by omega))), ihl_put16 _ _ (by decide)]
  constructor
  · -- with the check field cleared the IP header is that of `z`
    have hzero : Set.EqOn (put16 t 10 0) z (Set.Iio tcp) := by
      have hcleared := eqOn_put16 hip 10 0
      have hself : put16 z 10 0 = z := by rw [← hz, put16_be16]
      rwa [put16_put16, hself] at hcleared
    rw [be16_congr (hip (Set.mem_Iio.2 (by omega))) (hip (Set.mem_Iio.2 (by omega))),
      be16_put16_self]
    apply ipCsum_congr
    · intro i hi
      exact (hzero (Set.mem_Iio.2 (by omega))).symm
    · exact (hzero (Set.mem_Iio.2 (by omega))).symm
  · have hzero : put16 t (tcp + 16) 0 = w := by
      rw [ht, put16_put16, ← hw, put16_be16]
    have hdoff : doff t tcp = doff w tcp := by
      rw [ht]
      exact doff_congr (put16_of_ne _ _ (by omega) (by omega))
    rw [hihlt, ← htcp, hzero, hdoff, ht, be16_put16_self]

/-- Every rewrite of a packet with a full IP header seals it. -/
theorem sealed_rewrite {ipField portField : Nat} (hip : 12 ≤ ipField) (hport : portField ≤ 2)
    (ip : UInt32) (port : UInt16) (hihl : 5 ≤ ihl b) :
    Sealed (rewrite ipField portField b ip port) := by
  obtain ⟨z, hz⟩ : ∃ z, z = put32 (put16 b 10 0) ipField ip := ⟨_, rfl⟩
  have hihlz : ihl z = ihl b := by
    rw [hz, ihl_put32 _ _ (by omega), ihl_put16 _ _ (by decide)]
  have haddr : replaceIp ipField b ip = put16 z 10 (ipCsum z) := by rw [hz, replaceIp]
  have hihla : ihl (put16 z 10 (ipCsum z)) = ihl z := ihl_put16 _ _ (by decide)
  rw [rewrite, haddr, replacePort_eq, ← doff_portWritten portField _ port hport, hihla]
  apply sealed_of_written (by omega) rfl
  · rw [hz, be16_put32_of_disjoint _ _ (by omega), be16_put16_self]
  · rw [portWritten, hihla, be16_put16_self]
  · -- the port lies behind the IP header
    intro i hi
    rw [portWritten_of_ne _ _ _ (by omega) (by omega)]

end Sealed

/-! ## The two rewrites -/

/-- The bytes a rewrite writes: the address, the port and the check fields. -/
def writtenFields (ipField portField tcp : Nat) : Set Nat :=
  Set.Ico ipField (ipField + 4) ∪ Set.Ico (tcp + portField) (tcp + portField + 2) ∪
    checkFields tcp

/-- Every other byte is unchanged. -/
theorem rewrite_eqOn (b : Buffer) (ipField portField : Nat) (hip : 0 < ipField) (ip : UInt32)
    (port : UInt16) :
    Set.EqOn (rewrite ipField portField b ip port) b
      (writtenFields ipField portField (ihl b * 4))ᶜ := by
  intro i hi
  simp only [writtenFields, checkFields, Set.mem_compl_iff, Set.mem_union, Set.mem_Ico, not_or,
    not_and, not_lt] at hi
  have hihl := ihl_replaceIp b ipField ip hip
  rw [rewrite, replacePort_of_ne _ _ _ (by rw [hihl]; omega) (by rw [hihl]; omega),
    replaceIp_of_ne _ _ _ (by omega) (by omega)]

/-- Packets that agree on the address, the port and every byte not written agree outside the check
fields. -/
theorem eqOn_of_fields {b b' : Buffer} {ipField portField tcp : Nat}
    (haddr : be32 b ipField = be32 b' ipField)
    (hports : be16 b (tcp + portField) = be16 b' (tcp + portField))
    (hother : Set.EqOn b b' (writtenFields ipField portField tcp)ᶜ) :
    Set.EqOn b b' (checkFields tcp)ᶜ := by
  apply eqOn_of_be32 haddr
  apply eqOn_of_be16 hports
  apply hother.mono
  rintro i ⟨⟨hcheck, haddr⟩, hport⟩
  exact not_or.2 ⟨not_or.2 ⟨haddr, hport⟩, hcheck⟩

section Rewrite

variable {b b' : Buffer} {bufferLen : Int} {ipField portField : Nat} (hip : 12 ≤ ipField)
  (hip' : ipField + 4 ≤ 20) (hport : portField ≤ 2)
include hip hip' hport

/-- The lengths of a packet with full headers survive a rewrite. -/
theorem WellFormed.rewrite (h : WellFormed b bufferLen) (ip : UInt32) (port : UInt16) :
    WellFormed (rewrite ipField portField b ip port) bufferLen := by
  have hihl := h.ihl_ge
  have hkeep : ∀ i, i < 10 ∨ i = ihl b * 4 + 12 →
      BenkerVpn.rewrite ipField portField b ip port i = b i := by
    intro i hi
    apply rewrite_eqOn b ipField portField (by omega)
    simp only [writtenFields, checkFields, Set.mem_compl_iff, Set.mem_union, Set.mem_Ico]
    omega
  have hihl' : ihl (BenkerVpn.rewrite ipField portField b ip port) = ihl b :=
    ihl_congr (hkeep 0 (by omega))
  have htot : totLen (BenkerVpn.rewrite ipField portField b ip port) = totLen b :=
    be16_congr (hkeep 2 (by omega)) (hkeep (2 + 1) (by omega))
  have hdoff : doff (BenkerVpn.rewrite ipField portField b ip port) (ihl b * 4) =
      doff b (ihl b * 4) :=
    doff_congr (hkeep _ (by omega))
  constructor
  case ihl_ge => rwa [hihl']
  case doff_ge =>
    rw [hihl', hdoff]
    exact h.doff_ge
  case headers_le =>
    rw [hihl', hdoff, htot]
    exact h.headers_le
  case totLen_le =>
    rw [htot]
    exact h.totLen_le

/-- What the written fields held before does not matter. -/
theorem rewrite_congr (hihl : 5 ≤ ihl b)
    (hagree : Set.EqOn b b' (writtenFields ipField portField (ihl b * 4))ᶜ) (ip : UInt32)
    (port : UInt16) :
    rewrite ipField portField b ip port = rewrite ipField portField b' ip port := by
  have hihl' : ihl b' = ihl b := by
    refine (ihl_congr (hagree ?_)).symm
    simp only [writtenFields, checkFields, Set.mem_compl_iff, Set.mem_union, Set.mem_Ico]
    omega
  have hihlr := ihl_rewrite b ipField portField ip port (by omega) (by omega)
  apply (sealed_rewrite hip hport ip port hihl).ext
    (sealed_rewrite hip hport ip port (by rwa [hihl']))
  · rwa [hihlr]
  · rw [hihlr]
    apply eqOn_of_fields
    · rw [be32_rewrite b _ _ ip port hip hip' hihl,
        be32_rewrite b' _ _ ip port hip hip' (by rwa [hihl'])]
    · rw [be16_rewrite b _ _ ip port (by omega) (by omega), ← hihl',
        be16_rewrite b' _ _ ip port (by omega) (by omega)]
    · -- nothing else is written
      have hold := rewrite_eqOn b ipField portField (by omega) ip port
      have hold' := rewrite_eqOn b' ipField portField (by omega) ip port
      rw [hihl'] at hold'
      exact hold.trans (hagree.trans hold'.symm)

/-- The second of two rewrites of the same fields stands. -/
theorem rewrite_rewrite (hihl : 5 ≤ ihl b) (ip₁ ip₂ : UInt32) (port₁ port₂ : UInt16) :
    rewrite ipField portField (rewrite ipField portField b ip₁ port₁) ip₂ port₂ =
      rewrite ipField portField b ip₂ port₂ := by
  have hihlr := ihl_rewrite b ipField portField ip₁ port₁ (by omega) (by omega)
  apply rewrite_congr hip hip' hport
  · rwa [hihlr]
  · rw [hihlr]
    exact rewrite_eqOn b _ _ (by omega) ip₁ port₁

/-- A sealed packet rewritten to its own address and port stays as it is. -/
theorem Sealed.rewrite_self (h : Sealed b) (hihl : 5 ≤ ihl b) :
    rewrite ipField portField b (be32 b ipField) (be16 b (ihl b * 4 + portField)) = b := by
  have hihlr := ihl_rewrite b ipField portField (be32 b ipField)
    (be16 b (ihl b * 4 + portField)) (by omega) (by omega)
  apply (sealed_rewrite hip hport _ _ hihl).ext h
  · rwa [hihlr]
  · rw [hihlr]
    apply eqOn_of_fields
    · exact be32_rewrite b _ _ _ _ hip hip' hihl
    · exact be16_rewrite b _ _ _ _ (by omega) (by omega)
    · exact rewrite_eqOn b _ _ (by omega) _ _

end Rewrite

/-- Header rewriting is correct for every well-formed packet. The rewritten fields read the new
values, both checksums are right, and every other byte is unchanged. -/
theorem replace_rewrites {b : Buffer} {bufferLen : Int} (h : WellFormed b bufferLen) (ip : UInt32)
    (port : UInt16) :
    (saddr (replaceSrcIpPort b ip port) = ip ∧
      source (replaceSrcIpPort b ip port) (ihl b * 4) = port ∧
      Checksummed (replaceSrcIpPort b ip port) ∧
      Set.EqOn (replaceSrcIpPort b ip port) b (writtenFields 12 0 (ihl b * 4))ᶜ) ∧
    (daddr (replaceDstIpPort b ip port) = ip ∧
      dest (replaceDstIpPort b ip port) (ihl b * 4) = port ∧
      Checksummed (replaceDstIpPort b ip port) ∧
      Set.EqOn (replaceDstIpPort b ip port) b (writtenFields 16 2 (ihl b * 4))ᶜ) := by
  have hihl := h.ihl_ge
  refine ⟨⟨?_, ?_, ?_, ?_⟩, ?_, ?_, ?_, ?_⟩
  · exact saddr_replaceSrcIpPort b hihl ip port
  · exact be16_rewrite b 12 0 ip port (by omega) (by omega)
  · exact (sealed_rewrite (by omega) (by omega) ip port hihl).checksummed
      (h.rewrite (by omega) (by omega) (by omega) ip port)
  · exact rewrite_eqOn b 12 0 (by omega) ip port
  · exact daddr_replaceDstIpPort b hihl ip port
  · exact be16_rewrite b 16 2 ip port (by omega) (by omega)
  · exact (sealed_rewrite (by omega) (by omega) ip port hihl).checksummed
      (h.rewrite (by omega) (by omega) (by omega) ip port)
  · exact rewrite_eqOn b 16 2 (by omega) ip port

/-- A packet of forty bytes with two full headers. -/
def bareSegment : Buffer := put8 emptyHeader 32 0x50

theorem bareSegment_wellFormed : WellFormed bareSegment 40 :=
  ⟨by decide, by decide, by decide, by decide⟩

/-- Both checksums of a rewritten packet are right. -/
theorem bareSegment_rewritten :
    Checksummed (replaceSrcIpPort bareSegment 3232266986 40000) ∧
      Checksummed (replaceDstIpPort bareSegment 167772161 5000) :=
  ⟨(replace_rewrites bareSegment_wellFormed 3232266986 40000).1.2.2.1,
    (replace_rewrites bareSegment_wellFormed 167772161 5000).2.2.2.1⟩

/-- A rewrite of the source and a rewrite of the destination commute. -/
theorem replace_comm {b : Buffer} (hihl : 5 ≤ ihl b) (ip₁ ip₂ : UInt32) (port₁ port₂ : UInt16) :
    replaceDstIpPort (replaceSrcIpPort b ip₁ port₁) ip₂ port₂ =
      replaceSrcIpPort (replaceDstIpPort b ip₂ port₂) ip₁ port₁ := by
  obtain ⟨s, hs⟩ : ∃ s, s = rewrite 12 0 b ip₁ port₁ := ⟨_, rfl⟩
  obtain ⟨d, hd⟩ : ∃ d, d = rewrite 16 2 b ip₂ port₂ := ⟨_, rfl⟩
  rw [replaceSrcIpPort_eq, replaceDstIpPort_eq, replaceDstIpPort_eq, replaceSrcIpPort_eq, ← hs,
    ← hd]
  have hihls : ihl s = ihl b := by rw [hs, ihl_rewrite b 12 0 ip₁ port₁ (by omega) (by omega)]
  have hihld : ihl d = ihl b := by rw [hd, ihl_rewrite b 16 2 ip₂ port₂ (by omega) (by omega)]
  have hihll : ihl (rewrite 16 2 s ip₂ port₂) = ihl b := by
    rw [ihl_rewrite s 16 2 ip₂ port₂ (by omega) (by omega), hihls]
  -- the second rewrite leaves the fields of the first one alone
  have hsd : ∀ i, i ∉ writtenFields 16 2 (ihl b * 4) → rewrite 16 2 s ip₂ port₂ i = s i := by
    rw [← hihls]
    exact fun i hi => rewrite_eqOn s 16 2 (by omega) ip₂ port₂ hi
  have hds : ∀ i, i ∉ writtenFields 12 0 (ihl b * 4) → rewrite 12 0 d ip₁ port₁ i = d i := by
    rw [← hihld]
    exact fun i hi => rewrite_eqOn d 12 0 (by omega) ip₁ port₁ hi
  have hold : ∀ i, i ∉ writtenFields 12 0 (ihl b * 4) → s i = b i := by
    rw [hs]
    exact fun i hi => rewrite_eqOn b 12 0 (by omega) ip₁ port₁ hi
  have hold' : ∀ i, i ∉ writtenFields 16 2 (ihl b * 4) → d i = b i := by
    rw [hd]
    exact fun i hi => rewrite_eqOn b 16 2 (by omega) ip₂ port₂ hi
  simp only [writtenFields, checkFields, Set.mem_union, Set.mem_Ico] at hsd hds hold hold'
  apply (sealed_rewrite (by omega) (by omega) ip₂ port₂ (by omega)).ext
    (sealed_rewrite (by omega) (by omega) ip₁ port₁ (by omega)) (by omega)
  rw [hihll]
  apply eqOn_of_be32 (i := 12)
  · rw [be32_congr fun j _ _ => hsd j (by omega), hs,
      be32_rewrite b 12 0 ip₁ port₁ (by omega) (by omega) hihl,
      be32_rewrite d 12 0 ip₁ port₁ (by omega) (by omega) (by omega)]
  apply eqOn_of_be16 (i := ihl b * 4 + 0)
  · rw [be16_congr (hsd _ (by omega)) (hsd _ (by omega)), hs,
      be16_rewrite b 12 0 ip₁ port₁ (by omega) (by omega), ← hihld,
      be16_rewrite d 12 0 ip₁ port₁ (by omega) (by omega)]
  apply eqOn_of_be32 (i := 16)
  · rw [be32_rewrite s 16 2 ip₂ port₂ (by omega) (by omega) (by omega),
      be32_congr fun j _ _ => hds j (by omega), hd,
      be32_rewrite b 16 2 ip₂ port₂ (by omega) (by omega) hihl]
  apply eqOn_of_be16 (i := ihl b * 4 + 2)
  · rw [be16_congr (hds _ (by omega)) (hds _ (by omega)), hd,
      be16_rewrite b 16 2 ip₂ port₂ (by omega) (by omega), ← hihls,
      be16_rewrite s 16 2 ip₂ port₂ (by omega) (by omega)]
  · intro i hi
    simp only [checkFields, Set.mem_sdiff, Set.mem_compl_iff, Set.mem_union, Set.mem_Ico] at hi
    rw [hsd i (by omega), hds i (by omega), hold i (by omega), hold' i (by omega)]

/-- Rewriting is absorbing, commuting and reversible. -/
theorem replace_absorbing_commuting_reversible {b : Buffer} {bufferLen : Int}
    (h : WellFormed b bufferLen) (ip₁ ip₂ : UInt32) (port₁ port₂ : UInt16) :
    (replaceSrcIpPort (replaceSrcIpPort b ip₁ port₁) ip₂ port₂ = replaceSrcIpPort b ip₂ port₂ ∧
      replaceDstIpPort (replaceDstIpPort b ip₁ port₁) ip₂ port₂ = replaceDstIpPort b ip₂ port₂) ∧
    replaceDstIpPort (replaceSrcIpPort b ip₁ port₁) ip₂ port₂ =
      replaceSrcIpPort (replaceDstIpPort b ip₂ port₂) ip₁ port₁ ∧
    (Sealed b →
      replaceSrcIpPort (replaceSrcIpPort b ip₁ port₁) (saddr b) (source b (ihl b * 4)) = b ∧
        replaceDstIpPort (replaceDstIpPort b ip₁ port₁) (daddr b) (dest b (ihl b * 4)) = b) := by
  have hihl := h.ihl_ge
  refine ⟨⟨?_, ?_⟩, replace_comm hihl ip₁ ip₂ port₁ port₂, fun hsealed => ⟨?_, ?_⟩⟩
  · exact rewrite_rewrite (by omega) (by omega) (by omega) hihl ip₁ ip₂ port₁ port₂
  · exact rewrite_rewrite (by omega) (by omega) (by omega) hihl ip₁ ip₂ port₁ port₂
  · rw [replaceSrcIpPort_eq, replaceSrcIpPort_eq,
      rewrite_rewrite (by omega) (by omega) (by omega) hihl]
    exact hsealed.rewrite_self (by omega) (by omega) (by omega) hihl
  · rw [replaceDstIpPort_eq, replaceDstIpPort_eq,
      rewrite_rewrite (by omega) (by omega) (by omega) hihl]
    exact hsealed.rewrite_self (by omega) (by omega) (by omega) hihl

/-- A packet of the client is restored from its translation. -/
theorem bareSegment_restored :
    let b := replaceSrcIpPort bareSegment 167772161 5000
    replaceSrcIpPort (replaceSrcIpPort b 3232266986 40000) (saddr b) (source b (ihl b * 4)) = b :=
  ((replace_absorbing_commuting_reversible
    (bareSegment_wellFormed.rewrite (by omega) (by omega) (by omega) 167772161 5000)
    3232266986 0 40000 0).2.2 (sealed_rewrite (by omega) (by omega) _ _ (by decide))).1

end BenkerVpn

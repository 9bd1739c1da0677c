import BenkerVpn.Packet.Sealed

/-!
# The sum of RFC 1071

`summing` is the sum of RFC 1071 of a list of octets that stands in memory (`summed`): no addition
overflows, the carries are folded in within two rounds, and the result is the 16-bit number that
stands for the sum. So a list may be summed in chunks (`summing_chunks`), and `tcp_csum` is the
complement of one sum over the pseudo header and the segment (`tcpCsum_eq_not_summing`).
-/

set_option autoImplicit false

namespace BenkerVpn

open Library.Octets Library.OnesComplement

/-! ## The loops -/

theorem le_ffff_iff {sum : UInt32} : sum ≤ 0xffff ↔ sum.toNat ≤ 65535 := UInt32.le_iff_toNat_le

/-- The loop over the byte pairs goes on from what it has added. -/
theorem addWords_add (b : Buffer) (i k r : Nat) (sum : UInt32) :
    addWords b i (2 * k + r) sum = addWords b (i + 2 * k) r (addWords b i (2 * k) sum) := by
  induction k generalizing i sum with
  | zero => rw [Nat.mul_zero, Nat.zero_add, Nat.add_zero, addWords]
  | succ k ih =>
      rw [show 2 * (k + 1) + r = 2 * k + r + 2 by omega, show 2 * (k + 1) = 2 * k + 2 by omega,
        addWords, addWords, ih, Nat.add_assoc i 2, Nat.add_comm 2]

/-- The loop that adds the carries back in makes at most two rounds. -/
theorem foldCarries_eq_iterate (sum : UInt32) :
    ∃ n ≤ 2, (∀ k < n, ¬ addCarries^[k] sum ≤ 0xffff) ∧ addCarries^[n] sum ≤ 0xffff ∧
      foldCarries sum = addCarries^[n] sum := by
  have hlt := sum.toNat_lt
  have hone := toNat_addCarries sum
  by_cases hzero : sum ≤ 0xffff
  · refine ⟨0, by omega, fun k hk => absurd hk (Nat.not_lt_zero k), hzero, ?_⟩
    exact foldCarries_of_le hzero
  by_cases hfirst : addCarries sum ≤ 0xffff
  · refine ⟨1, by omega, fun k hk => ?_, hfirst, ?_⟩
    · obtain rfl : k = 0 := by omega
      exact hzero
    · rw [foldCarries_of_not_le hzero, foldCarries_of_le hfirst]
      rfl
  · -- the first round leaves at most one carry, and the second one adds it to a small rest
    have hsecond : addCarries (addCarries sum) ≤ 0xffff := by
      rw [le_ffff_iff, toNat_addCarries, hone]
      omega
    refine ⟨2, le_refl 2, fun k hk => ?_, hsecond, ?_⟩
    · rcases (by omega : k = 0 ∨ k = 1) with rfl | rfl
      · exact hzero
      · exact hfirst
    · rw [foldCarries_of_not_le hzero, foldCarries_of_not_le hfirst, foldCarries_of_le hsecond]
      rfl

/-! ## One list -/

/-- What `summing` does to a list of octets that stands in memory from index `i`. -/
structure Summed (m : Buffer) (i : Nat) (l : List UInt8) (sum : UInt32) : Prop where
  /-- Behind every prefix, also inside a word, the 32-bit accumulator is the exact sum, so no
  addition overflows. -/
  accumulated : ∀ k ≤ l.length, (addWords m i k sum).toNat = sum.toNat + wordSum (l.take k)
  /-- The loop passes the accumulators of the prefixes of whole words. -/
  passed : ∀ k r, 2 * k + r = l.length →
    addWords m i l.length sum = addWords m (i + 2 * k) r (addWords m i (2 * k) sum)
  /-- The carries are folded in, round by round, until the sum fits into 16 bits. -/
  folded : ∃ n ≤ 2, (∀ k < n, ¬ addCarries^[k] (addWords m i l.length sum) ≤ 0xffff) ∧
    addCarries^[n] (addWords m i l.length sum) ≤ 0xffff ∧
    summing m i l.length sum = (addCarries^[n] (addWords m i l.length sum)).toUInt16
  /-- The result stands for the total, and nothing else does. -/
  result : ∀ r, StandsFor (sum.toNat + wordSum l) r ↔ r = (summing m i l.length sum).toNat

section List

variable {m : Buffer} {i : Nat} {l : List UInt8} {sum : UInt32}

theorem octetSum_of_holds (h : Holds m i l) : octetSum m i l.length = wordSum l := by
  rw [octetSum_eq_wordSum, h]

theorem toNat_summing_of_holds (h : Holds m i l) (hlen : l.length ≤ 65535)
    (hsum : sum ≤ 0xffff) :
    (summing m i l.length sum).toNat = endAround (sum.toNat + wordSum l) := by
  rw [le_ffff_iff] at hsum
  rw [toNat_summing m i l.length sum hlen (Nat.lt_succ_of_le hsum), octetSum_of_holds h]

theorem summed (h : Holds m i l) (hlen : l.length ≤ 65535) (hsum : sum ≤ 0xffff) :
    Summed m i l sum := by
  constructor
  case accumulated =>
    intro k hk
    rw [le_ffff_iff] at hsum
    rw [toNat_addWords m i k sum (by omega), octetSum_eq_wordSum, h.take hk]
  case passed =>
    intro k r hkr
    rw [← hkr, addWords_add]
  case folded =>
    obtain ⟨n, hn, hbefore, hle, hfold⟩ := foldCarries_eq_iterate (addWords m i l.length sum)
    exact ⟨n, hn, hbefore, hle, by rw [summing, hfold]⟩
  case result =>
    intro r
    rw [toNat_summing_of_holds h hlen hsum, standsFor_iff]

end List

/-! ## Chunks -/

theorem toUInt32_le (s : UInt16) : s.toUInt32 ≤ 0xffff := by
  have hlt := s.toNat_lt
  rw [le_ffff_iff, UInt16.toNat_toUInt32]
  omega

/-- A chunk of whole words may be summed first. -/
theorem summing_chunks {m ma mb : Buffer} {i ia ib : Nat} {a b : List UInt8} {sum : UInt32}
    (h : Holds m i (a ++ b)) (ha : Holds ma ia a) (hb : Holds mb ib b)
    (heven : a.length % 2 = 0) (hlen : (a ++ b).length ≤ 65535) (hsum : sum ≤ 0xffff) :
    summing mb ib b.length (summing ma ia a.length sum).toUInt32 =
      summing m i (a ++ b).length sum := by
  have hsplit := hlen
  rw [List.length_append] at hsplit
  apply UInt16.toNat_inj.1
  rw [toNat_summing_of_holds hb (by omega) (toUInt32_le _), UInt16.toNat_toUInt32,
    toNat_summing_of_holds ha (by omega) hsum, toNat_summing_of_holds h hlen hsum, endAround_add,
    wordSum_append b heven, Nat.add_assoc]

/-! ## The TCP checksum -/

/-- The pseudo header of a packet: the addresses, a zero, the protocol, and the length of the
segment, which ends with the packet. -/
def pseudoOctets (b : Buffer) : List UInt8 :=
  octets b 12 8 ++ [0, ipprotoTcp, UInt8.ofNat (((totLen b).toNat - ihl b * 4) / 256),
    UInt8.ofNat ((totLen b).toNat - ihl b * 4)]

/-- The pseudo header and the bytes from `ihl * 4` up to the total length. -/
def checksummedOctets (b : Buffer) : List UInt8 :=
  pseudoOctets b ++ octets b (ihl b * 4) ((totLen b).toNat - ihl b * 4)

theorem length_pseudoOctets (b : Buffer) : (pseudoOctets b).length = 12 := by
  rw [pseudoOctets, List.length_append, length_octets]
  rfl

theorem length_checksummedOctets (b : Buffer) :
    (checksummedOctets b).length = 12 + ((totLen b).toNat - ihl b * 4) := by
  rw [checksummedOctets, List.length_append, length_pseudoOctets, length_octets]

/-- In a packet whose headers lie within its total length, `tcp_csum` reduces the sum of the
checksummed octets. -/
theorem tcpTotal_eq_wordSum {b : Buffer}
    (h : ihl b * 4 + doff b (ihl b * 4) * 4 ≤ (totLen b).toNat) :
    tcpTotal b (ihl b * 4) (ihl b * 4 + doff b (ihl b * 4) * 4) =
      wordSum (checksummedOctets b) := by
  have hpseudo : octets (tcpPseudo b (ihl b * 4)) 0 12 = pseudoOctets b := by
    rw [tcpPseudo, pseudoLength_eq h, octets_pseudoHeader, toNat_segmentLength,
      pseudoOctets]
  have heven : (pseudoOctets b).length % 2 = 0 := by rw [length_pseudoOctets]
  rw [tcpTotal, Nat.add_assoc, octetSum_segment h, octetSum_eq_wordSum, hpseudo,
    octetSum_eq_wordSum, checksummedOctets, wordSum_append _ heven]

/-- `tcp_csum` of a well-formed packet is the complement of one sum. -/
theorem tcpCsum_eq_not_summing {b : Buffer} {bufferLen : Int} (hwf : WellFormed b bufferLen)
    {m : Buffer} {i : Nat} (h : Holds m i (checksummedOctets b)) :
    tcpCsum b (ihl b * 4) (ihl b * 4 + doff b (ihl b * 4) * 4) =
      ~~~ summing m i (checksummedOctets b).length 0 := by
  have hihl := hwf.ihl_ge
  have htot := (totLen b).toNat_lt
  have hlen : (checksummedOctets b).length ≤ 65535 := by
    rw [length_checksummedOctets]
    omega
  apply UInt16.toNat_inj.1
  rw [toNat_tcpCsum, tcpTotal_eq_wordSum hwf.headers_le, UInt16.toNat_not,
    toNat_summing_of_holds h hlen (by decide), UInt32.toNat_zero, Nat.zero_add]
  rfl

/-- `summing` is the sum of RFC 1071 and may be chunked. -/
theorem summing_rfc1071 :
    (∀ (m : Buffer) (i : Nat) (l : List UInt8) (sum : UInt32), Holds m i l →
      l.length ≤ 65535 → sum ≤ 0xffff → Summed m i l sum) ∧
    (∀ (m ma mb : Buffer) (i ia ib : Nat) (a b : List UInt8) (sum : UInt32),
      Holds m i (a ++ b) → Holds ma ia a → Holds mb ib b → a.length % 2 = 0 →
      (a ++ b).length ≤ 65535 → sum ≤ 0xffff →
        summing mb ib b.length (summing ma ia a.length sum).toUInt32 =
          summing m i (a ++ b).length sum) ∧
    (∀ (b : Buffer) (bufferLen : Int), WellFormed b bufferLen →
      ∀ (m : Buffer) (i : Nat), Holds m i (checksummedOctets b) →
        tcpCsum b (ihl b * 4) (ihl b * 4 + doff b (ihl b * 4) * 4) =
          ~~~ summing m i (checksummedOctets b).length 0) :=
  ⟨fun _ _ _ _ h hlen hsum => summed h hlen hsum,
    fun _ _ _ _ _ _ _ _ _ h ha hb heven hlen hsum => summing_chunks h ha hb heven hlen hsum,
    fun _ _ hwf _ _ h => tcpCsum_eq_not_summing hwf h⟩

/-- A buffer that begins with the octets of the list. -/
def bufferOf (l : List UInt8) : Buffer := fun i => l.getD i 0

/-- The octets of the example of RFC 1071. -/
def rfcOctets : List UInt8 := [0x00, 0x01, 0xf2, 0x03, 0xf4, 0xf5, 0xf6, 0xf7]

/-- The example is summed at once and in two chunks, and the checksum of a packet is that of its
octets. -/
theorem rfcOctets_summed :
    (summing (bufferOf rfcOctets) 0 8 0).toNat = 0xddf2 ∧
      summing (bufferOf rfcOctets) 4 4 (summing (bufferOf rfcOctets) 0 4 0).toUInt32 =
        summing (bufferOf rfcOctets) 0 8 0 ∧
      tcpCsum bareSegment 20 40 =
        ~~~ summing (bufferOf (checksummedOctets bareSegment)) 0 32 0 := by
  obtain ⟨hsum, hchunks, htcp⟩ := summing_rfc1071
  have hlist := hsum (bufferOf rfcOctets) 0 rfcOctets 0 rfl (by decide) (by decide)
  refine ⟨?_, ?_, ?_⟩
  · refine ((hlist.result 0xddf2).1 ?_).symm
    unfold StandsFor
    decide
  · exact hchunks (bufferOf rfcOctets) (bufferOf rfcOctets) (bufferOf rfcOctets) 0 0 4
      [0x00, 0x01, 0xf2, 0x03] [0xf4, 0xf5, 0xf6, 0xf7] 0 rfl rfl rfl rfl (by decide) (by decide)
  · exact htcp bareSegment 40 bareSegment_wellFormed (bufferOf (checksummedOctets bareSegment)) 0
      (by decide)

end BenkerVpn

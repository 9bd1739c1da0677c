import BenkerVpn.Library.OnesComplement
import BenkerVpn.Packet.Rewriting

/-!
# What the checksums compute

`summing` is the ones' complement reduction of a starting value and a stretch of octets
(`toNat_summing`), and `tcp_csum` is the complement of the reduction of one sum over the pseudo
header, the TCP header and the data (`toNat_tcpCsum`). It follows which bytes a checksum depends on
(`ipCsum_congr`, `tcpCsum_congr`) and that it does depend on each of them (`tcpTotal_of_differ`).
-/

set_option autoImplicit false

namespace BenkerVpn

open Library.Octets Library.OnesComplement

/-! ## The loops of `summing` -/

/-- One round of the loop that adds the carries back in. -/
def addCarries (sum : UInt32) : UInt32 := (sum >>> 16) + sum.toUInt16.toUInt32

theorem toNat_addCarries (sum : UInt32) :
    (addCarries sum).toNat = sum.toNat / 65536 + sum.toNat % 65536 := by
  have hlt := sum.toNat_lt
  simp only [addCarries, UInt32.toNat_add, UInt32.toNat_shiftRight, UInt32.reduceToNat,
    UInt16.toNat_toUInt32, UInt32.toNat_toUInt16, Nat.shiftRight_eq_div_pow, Nat.reduceMod,
    Nat.reducePow]
  rw [Nat.mod_eq_of_lt (by omega)]

theorem foldCarries_of_le {sum : UInt32} (h : sum ≤ 0xffff) : foldCarries sum = sum := by
  rw [foldCarries, if_pos h]

theorem foldCarries_of_not_le {sum : UInt32} (h : ¬ sum ≤ 0xffff) :
    foldCarries sum = foldCarries (addCarries sum) := by
  rw [foldCarries, if_neg h, addCarries]

theorem toNat_foldCarries (sum : UInt32) : (foldCarries sum).toNat = endAround sum.toNat := by
  induction sum using foldCarries.induct with
  | case1 sum h =>
      rw [foldCarries_of_le h]
      rw [UInt32.le_iff_toNat_le] at h
      exact (endAround_of_le h).symm
  | case2 sum h ih =>
      rw [foldCarries_of_not_le h, addCarries, ih, ← addCarries, toNat_addCarries, endAround_carry]

/-- The loop over the byte pairs adds the octets, as long as the sum does not overflow. -/
theorem toNat_addWords (b : Buffer) (i bytes : Nat) (sum : UInt32)
    (h : sum.toNat + 32768 * bytes + 32768 < 4294967296) :
    (addWords b i bytes sum).toNat = sum.toNat + octetSum b i bytes := by
  have hshift : ∀ k, ((b k).toUInt32 <<< 8).toNat = 256 * (b k).toNat := by
    intro k
    have hk := (b k).toNat_lt
    simp only [UInt32.toNat_shiftLeft, UInt8.toNat_toUInt32, UInt32.reduceToNat, Nat.reduceMod,
      Nat.shiftLeft_eq, Nat.reducePow]
    omega
  induction i, bytes, sum using addWords.induct b with
  | case1 i bytes sum ih =>
      have h0 := (b i).toNat_lt
      have h1 := (b (i + 1)).toNat_lt
      have hstep : (sum + (b i).toUInt32 <<< 8 + (b (i + 1)).toUInt32).toNat =
          sum.toNat + 256 * (b i).toNat + (b (i + 1)).toNat := by
        simp only [UInt32.toNat_add, hshift, UInt8.toNat_toUInt32]
        omega
      rw [addWords, ih (by omega), hstep, octetSum_add_two]
      omega
  | case2 i sum =>
      have h0 := (b i).toNat_lt
      rw [addWords, octetSum_one, UInt32.toNat_add, hshift]
      omega
  | case3 i sum => rw [addWords, octetSum_zero, Nat.add_zero]

/-- `summing` reduces the sum of its starting value and the octets. -/
theorem toNat_summing (b : Buffer) (i bytes : Nat) (sum : UInt32) (hbytes : bytes ≤ 65535)
    (hsum : sum.toNat < 65536) :
    (summing b i bytes sum).toNat = endAround (sum.toNat + octetSum b i bytes) := by
  have hlt := endAround_lt (sum.toNat + octetSum b i bytes)
  rw [summing, UInt32.toNat_toUInt16, toNat_foldCarries, toNat_addWords b i bytes sum (by omega)]
  exact Nat.mod_eq_of_lt hlt

/-! ## The IP checksum -/

/-- `ip_csum` is the complement of the reduced sum. -/
theorem toNat_ipCsum (b : Buffer) :
    (ipCsum b).toNat = 65535 - endAround (octetSum b 0 (ihl b * 4)) := by
  have hlt : ihl b < 16 := Nat.mod_lt _ (by omega)
  rw [ipCsum, UInt16.toNat_not, toNat_summing _ _ _ _ (by omega) (by decide), UInt32.toNat_zero,
    Nat.zero_add]
  rfl

/-- The IP checksum depends on the IP header. -/
theorem ipCsum_congr {b b' : Buffer} (h : ∀ i < ihl b * 4, b i = b' i) (h0 : b 0 = b' 0) :
    ipCsum b = ipCsum b' := by
  have hihl : ihl b' = ihl b := by rw [ihl, ihl, h0]
  apply UInt16.toNat_inj.1
  rw [toNat_ipCsum, toNat_ipCsum, hihl, octetSum_congr fun j _ hj => h j (by omega)]

/-! ## The TCP checksum -/

/-- `tcp_data_bytes`. -/
def tcpDataBytes (b : Buffer) (tcp : Nat) : Int :=
  (totLen b).toNat - (ihl b * 4 : Nat) - (doff b tcp * 4 : Nat)

/-- The pseudo header of a TCP checksum. -/
def tcpPseudo (b : Buffer) (tcp : Nat) : Buffer :=
  pseudoHeader b (UInt16.ofInt ((doff b tcp * 4 : Nat) + tcpDataBytes b tcp))

/-- The sum that `tcp_csum` reduces. -/
def tcpTotal (b : Buffer) (tcp tcpData : Nat) : Nat :=
  octetSum (tcpPseudo b tcp) 0 12 + octetSum b tcp (doff b tcp * 4) +
    octetSum b tcpData (tcpDataBytes b tcp).toNat

theorem doff_lt (b : Buffer) (tcp : Nat) : doff b tcp < 16 := by
  have h := (b (tcp + 12)).toNat_lt
  rw [doff]
  omega

/-- The pseudo header holds the protocol number, so the sum is positive. -/
theorem tcpPseudo_pos (b : Buffer) (tcp : Nat) : 0 < octetSum (tcpPseudo b tcp) 0 12 := by
  have hnine : tcpPseudo b tcp 9 = 6 := by
    rw [tcpPseudo, pseudoHeader, put16_of_ne _ _ (by omega) (by omega)]
    rfl
  have hle := weight_mul_le_octetSum (tcpPseudo b tcp) 0 (show 9 < 12 by omega)
  rw [Nat.zero_add, hnine] at hle
  have hweight : weight 9 * (6 : UInt8).toNat = 6 := by decide
  omega

/-- `tcp_csum` is the complement of the reduced sum. -/
theorem toNat_tcpCsum (b : Buffer) (tcp tcpData : Nat) :
    (tcpCsum b tcp tcpData).toNat = 65535 - endAround (tcpTotal b tcp tcpData) := by
  have hdoff := doff_lt b tcp
  have htot := (totLen b).toNat_lt
  have hbytes : (tcpDataBytes b tcp).toNat ≤ 65535 := by
    rw [tcpDataBytes]
    omega
  have hpseudo : (summing (tcpPseudo b tcp) 0 12 0).toNat =
      endAround (octetSum (tcpPseudo b tcp) 0 12) := by
    rw [toNat_summing _ _ _ _ (by omega) (by decide)]
    simp
  -- each call of `summing` goes on from the reduced sum of the one before
  have hheader : (summing b tcp (doff b tcp * 4)
      (summing (tcpPseudo b tcp) 0 12 0).toUInt32).toNat =
      endAround (octetSum (tcpPseudo b tcp) 0 12 + octetSum b tcp (doff b tcp * 4)) := by
    rw [toNat_summing _ _ _ _ (by omega) (by rw [UInt16.toNat_toUInt32]; exact UInt16.toNat_lt _),
      UInt16.toNat_toUInt32, hpseudo, endAround_add]
  have hcsum : tcpCsum b tcp tcpData =
      ~~~ (if tcpDataBytes b tcp > 0 then
        summing b tcpData (tcpDataBytes b tcp).toNat
          (summing b tcp (doff b tcp * 4) (summing (tcpPseudo b tcp) 0 12 0).toUInt32).toUInt32
        else summing b tcp (doff b tcp * 4) (summing (tcpPseudo b tcp) 0 12 0).toUInt32) := rfl
  rw [hcsum, UInt16.toNat_not, tcpTotal]
  congr 1
  split
  · rw [toNat_summing _ _ _ _ hbytes (by rw [UInt16.toNat_toUInt32]; exact UInt16.toNat_lt _),
      UInt16.toNat_toUInt32, hheader, endAround_add]
  · next hno =>
      have hzero : (tcpDataBytes b tcp).toNat = 0 := by omega
      rw [hheader, hzero, octetSum_zero, Nat.add_zero]

/-- Without data the data pointer is not followed. -/
theorem tcpCsum_of_no_data {b : Buffer} {tcp : Nat} (h : tcpDataBytes b tcp ≤ 0)
    (tcpData tcpData' : Nat) : tcpCsum b tcp tcpData = tcpCsum b tcp tcpData' := by
  have hzero : (tcpDataBytes b tcp).toNat = 0 := by omega
  apply UInt16.toNat_inj.1
  rw [toNat_tcpCsum, toNat_tcpCsum, tcpTotal, tcpTotal, hzero, octetSum_zero, octetSum_zero]

section Congr

variable {b b' : Buffer} {tcp : Nat}

/-- The pseudo header depends on the addresses and the lengths. -/
theorem tcpPseudo_congr (hihl : ihl b = ihl b') (htot : totLen b = totLen b')
    (hdoff : doff b tcp = doff b' tcp) (haddr : ∀ i, 12 ≤ i → i < 20 → b i = b' i) :
    tcpPseudo b tcp = tcpPseudo b' tcp := by
  have hbytes : tcpDataBytes b tcp = tcpDataBytes b' tcp := by
    rw [tcpDataBytes, tcpDataBytes, hihl, htot, hdoff]
  rw [tcpPseudo, tcpPseudo, hbytes, hdoff, pseudoHeader, pseudoHeader]
  congr 1
  funext i
  by_cases hi : i < 8
  · rw [if_pos hi, if_pos hi, haddr (12 + i) (by omega) (by omega)]
  · rw [if_neg hi, if_neg hi]

/-- The TCP checksum depends on the bytes below the end of the header and of the data. -/
theorem tcpCsum_congr {tcpData e : Nat} (h : ∀ i < e, b i = b' i) (h20 : 20 ≤ e)
    (htcp : tcp + 12 < e) (hheader : tcp + doff b tcp * 4 ≤ e)
    (hdata : tcpData + (tcpDataBytes b tcp).toNat ≤ e) :
    tcpCsum b tcp tcpData = tcpCsum b' tcp tcpData := by
  have hihl : ihl b = ihl b' := ihl_congr (h 0 (by omega))
  have htot : totLen b = totLen b' := be16_congr (h 2 (by omega)) (h 3 (by omega))
  have hdoff : doff b tcp = doff b' tcp := doff_congr (h _ htcp)
  have hbytes : tcpDataBytes b tcp = tcpDataBytes b' tcp := by
    rw [tcpDataBytes, tcpDataBytes, hihl, htot, hdoff]
  apply UInt16.toNat_inj.1
  rw [toNat_tcpCsum, toNat_tcpCsum, tcpTotal, tcpTotal,
    tcpPseudo_congr hihl htot hdoff fun i _ hi => h i (by omega), ← hdoff, ← hbytes,
    octetSum_congr fun j _ hj => h j (by omega),
    octetSum_congr (i := tcpData) fun j _ hj => h j (by omega)]

/-- A byte behind the IP addresses that lies in the TCP header or in the data, and not in the data
offset, counts once in the sum. -/
theorem tcpTotal_of_differ {j : Nat} (htcp : tcp % 2 = 0) (h : ∀ k, k ≠ j → b' k = b k)
    (h20 : 20 ≤ j) (hdoff : j ≠ tcp + 12) (hle : tcp ≤ j)
    (hcover : j < tcp + doff b tcp * 4 ∨
      (j : Int) < tcp + (totLen b).toNat - (ihl b * 4 : Nat)) :
    tcpTotal b' tcp (tcp + doff b tcp * 4) + weight j * (b j).toNat =
      tcpTotal b tcp (tcp + doff b tcp * 4) + weight j * (b' j).toNat := by
  have hihl' : ihl b' = ihl b := ihl_congr (h 0 (by omega))
  have htot' : totLen b' = totLen b := be16_congr (h 2 (by omega)) (h 3 (by omega))
  have hdoff' : doff b' tcp = doff b tcp := doff_congr (h _ (by omega))
  have hbytes : tcpDataBytes b' tcp = tcpDataBytes b tcp := by
    rw [tcpDataBytes, tcpDataBytes, hihl', htot', hdoff']
  have hpseudo : tcpPseudo b' tcp = tcpPseudo b tcp :=
    tcpPseudo_congr hihl' htot' hdoff' fun i _ hi => h i (by omega)
  -- both parts start at an even index, so the weight is that of the index itself
  have hweight : ∀ i, i % 2 = 0 → i ≤ j → weight (j - i) = weight j := by
    intro i hi hij
    rw [weight, weight]
    congr 1
    simp only [eq_iff_iff]
    omega
  rw [tcpTotal, tcpTotal, hpseudo, hbytes, hdoff']
  by_cases hheader : j < tcp + doff b tcp * 4
  · -- in the TCP header
    have hsum := octetSum_of_differ hle hheader h
    rw [hweight tcp htcp hle] at hsum
    have hrest : octetSum b' (tcp + doff b tcp * 4) (tcpDataBytes b tcp).toNat =
        octetSum b (tcp + doff b tcp * 4) (tcpDataBytes b tcp).toNat :=
      octetSum_congr fun k hk _ => h k (by omega)
    rw [hrest]
    omega
  · -- in the data
    have hlt : j < tcp + doff b tcp * 4 + (tcpDataBytes b tcp).toNat := by
      rw [tcpDataBytes]
      omega
    have hsum := octetSum_of_differ (by omega) hlt h
    rw [hweight (tcp + doff b tcp * 4) (by omega) (by omega)] at hsum
    have hrest : octetSum b' tcp (doff b tcp * 4) = octetSum b tcp (doff b tcp * 4) :=
      octetSum_congr fun k _ hk => h k (by omega)
    rw [hrest]
    omega

end Congr

end BenkerVpn

import BenkerVpn.Packet.Checksum
import BenkerVpn.Packet.Validation

/-!
# What rewriting reads

A rewrite of an address and a port reads the IP header for the IP checksum and the octets up to the
end of the TCP header and of the data for the TCP checksum. If a buffer holds a packet in its first
octets and something else behind them, the rewritten octets of the packet do not depend on the rest
as long as the checksum is not among them or its range lies within them (`eqOn_rewrite`); otherwise
they do (`rewrite_differs`).
-/

set_option autoImplicit false

namespace BenkerVpn

open Library.Octets Library.OnesComplement

/-! ## Validation -/

/-- Validation reads five bytes. -/
theorem validateIpTcp_congr {b b' : Buffer} (h0 : b 0 = b' 0) (h2 : b 2 = b' 2) (h3 : b 3 = b' 3)
    (h9 : b 9 = b' 9) (hdoff : b (ihl b * 4 + 12) = b' (ihl b * 4 + 12)) (bufferSize : Int) :
    validateIpTcp b bufferSize = validateIpTcp b' bufferSize := by
  have hihl : ihl b' = ihl b := (ihl_congr h0).symm
  have htot : totLen b' = totLen b := (be16_congr h2 h3).symm
  have hprotocol : protocol b' = protocol b := h9.symm
  have hdoff' : doff b' (ihl b * 4) = doff b (ihl b * 4) := (doff_congr hdoff).symm
  rw [validateIpTcp, validateIpTcp, hihl, htot, hprotocol]
  dsimp only
  rw [hdoff']

/-- What a valid packet in the buffer of the server satisfies. -/
theorem validateIpTcp_some {b : Buffer} {tcp : Nat} (h : validateIpTcp b 9000 = some tcp) :
    tcp = ihl b * 4 ∧ (totLen b).toNat ≤ 9000 ∧
      ihl b * 4 + doff b (ihl b * 4) * 4 ≤ (totLen b).toNat := by
  obtain ⟨htcp, hvalid⟩ := (validateIpTcp_eq_some_iff (by decide) tcp).1 h
  have htot := hvalid.totLen_le
  exact ⟨htcp, by omega, hvalid.headers_le⟩

/-! ## Equal packets -/

section Equal

variable {b b' : Buffer} {n : Nat}

/-- A rewritten address keeps two buffers equal wherever they were, if that includes the IP
header. -/
theorem eqOn_replaceIp {s : Set Nat} (h : Set.EqOn b b' s) (h0 : 0 ∈ s)
    (hheader : ∀ i < ihl b * 4, i ∈ s) {field : Nat} (hfield : 0 < field) (ip : UInt32) :
    Set.EqOn (replaceIp field b ip) (replaceIp field b' ip) s := by
  have hwritten := eqOn_put32 (eqOn_put16 h 10 0) field ip
  have hihl : ihl (put32 (put16 b 10 0) field ip) = ihl b := by
    rw [ihl_put32 _ _ hfield, ihl_put16 _ _ (by decide)]
  have hcsum :
      ipCsum (put32 (put16 b 10 0) field ip) = ipCsum (put32 (put16 b' 10 0) field ip) := by
    apply ipCsum_congr
    · intro i hi
      rw [hihl] at hi
      exact hwritten (hheader i hi)
    · exact hwritten h0
  dsimp only [replaceIp]
  rw [hcsum]
  exact eqOn_put16 hwritten _ _

/-- The written port is the same, and the check field is cleared in both. -/
theorem eqOn_portWritten (h : Set.EqOn b b' (Set.Iio n)) (h0 : 0 < n)
    (hcheck : ihl b * 4 + 16 ≤ n) (field : Nat) (port : UInt16) :
    Set.EqOn (portWritten field b port) (portWritten field b' port)
      (Set.Iio (max n (ihl b * 4 + 18))) := by
  have hihl : ihl b' = ihl b := (ihl_congr (h (Set.mem_Iio.2 h0))).symm
  intro i hi
  rw [Set.mem_Iio] at hi
  rw [portWritten, portWritten, hihl]
  -- behind the packet there is at most the check field
  apply put16_congr
  intro hhigh hlow
  exact eqOn_put16 h _ _ (Set.mem_Iio.2 (by omega))

/-- The end of the octets that the TCP checksum reads. -/
def checksumEnd (b : Buffer) (tcp : Nat) : Nat := max (tcp + doff b tcp * 4) (totLen b).toNat

/-- A rewritten port leaves equal packets equal, if the check field does not belong to the packet
or the checksum reads nothing behind it. -/
theorem eqOn_replacePort (h : Set.EqOn b b' (Set.Iio n)) (hfields : ihl b * 4 + 14 ≤ n)
    {field : Nat} (hfield : field ≤ 2) (port : UInt16)
    (hreach : n ≤ ihl b * 4 + 16 ∨
      (20 ≤ max n (ihl b * 4 + 18) ∧ ihl b * 4 ≤ ihl (portWritten field b port) * 4 ∧
        checksumEnd (portWritten field b port) (ihl b * 4) ≤ max n (ihl b * 4 + 18))) :
    Set.EqOn (replacePort field b port) (replacePort field b' port) (Set.Iio n) := by
  have hihl : ihl b' = ihl b := (ihl_congr (h (Set.mem_Iio.2 (by omega)))).symm
  have hport : Set.EqOn (portWritten field b port) (portWritten field b' port) (Set.Iio n) := by
    rw [portWritten, portWritten, hihl]
    exact eqOn_put16 (eqOn_put16 h _ _) _ _
  rcases le_or_gt n (ihl b * 4 + 16) with hshort | hlong
  · -- the check field lies behind the packet
    intro i hi
    have hi' := Set.mem_Iio.1 hi
    rw [replacePort_eq, replacePort_eq, hihl, put16_of_ne _ _ (by omega) (by omega),
      put16_of_ne _ _ (by omega) (by omega)]
    exact hport hi
  · -- the check field is computed from the packet, and from itself, which is cleared
    obtain ⟨h20, htcp, hend⟩ := hreach.resolve_left (by omega)
    rw [checksumEnd] at hend
    have hdoff : doff b' (ihl b * 4) = doff b (ihl b * 4) :=
      (doff_congr (h (Set.mem_Iio.2 (by omega)))).symm
    have hagree := eqOn_portWritten h (by omega) (by omega) field port
    have hcsum : tcpCsum (portWritten field b port) (ihl b * 4)
          (ihl b * 4 + doff b (ihl b * 4) * 4) =
        tcpCsum (portWritten field b' port) (ihl b * 4) (ihl b * 4 + doff b (ihl b * 4) * 4) := by
      refine tcpCsum_congr (fun i hi => hagree (Set.mem_Iio.2 hi)) h20 ?_ ?_ ?_
      · omega
      · omega
      · rw [← doff_portWritten field b port hfield, tcpDataBytes]
        omega
    rw [replacePort_eq, replacePort_eq, hihl, hdoff, hcsum]
    exact eqOn_put16 hport _ _

/-- Rewriting leaves equal packets equal, if the check field does not belong to the packet or the
checksum reads nothing behind it. -/
theorem eqOn_rewrite (h : Set.EqOn b b' (Set.Iio n)) (hfields : ihl b * 4 + 14 ≤ n)
    {ipField portField : Nat} (hip : 0 < ipField) (hport : portField ≤ 2) (ip : UInt32)
    (port : UInt16)
    (hreach : n ≤ ihl b * 4 + 16 ∨
      (20 ≤ max n (ihl b * 4 + 18) ∧
        ihl b * 4 ≤ ihl (portWritten portField (replaceIp ipField b ip) port) * 4 ∧
        checksumEnd (portWritten portField (replaceIp ipField b ip) port) (ihl b * 4) ≤
          max n (ihl b * 4 + 18))) :
    Set.EqOn (rewrite ipField portField b ip port) (rewrite ipField portField b' ip port)
      (Set.Iio n) := by
  have hihl := ihl_replaceIp b ipField ip hip
  apply eqOn_replacePort
  · apply eqOn_replaceIp h _ _ hip ip
    · exact Set.mem_Iio.2 (by omega)
    · exact fun i hi => Set.mem_Iio.2 (by omega)
  · rw [hihl]
    exact hfields
  · exact hport
  · rw [hihl]
    exact hreach

end Equal

/-! ## Packets that differ -/

/-- The octet at `j` belongs to the TCP header or to the data that the TCP checksum reads. -/
def CoveredBy (z : Buffer) (tcp j : Nat) : Prop :=
  j < tcp + doff z tcp * 4 ∨ (j : Int) < (tcp : Nat) + (totLen z).toNat - (ihl z * 4 : Nat)

/-- Complements keep a difference of the high octet. -/
theorem put16_complement_high_ne {b b' : Buffer} {i s t : Nat} {c c' : UInt16}
    (hc : c.toNat = 65535 - endAround s) (hc' : c'.toNat = 65535 - endAround t)
    (h : endAround t / 256 ≠ endAround s / 256) : put16 b i c i ≠ put16 b' i c' i := by
  have hs := endAround_lt s
  have ht := endAround_lt t
  rw [put16_high, put16_high]
  intro heq
  have heq' := congrArg UInt8.toNat heq
  rw [UInt8.toNat_ofNat', UInt8.toNat_ofNat'] at heq'
  omega

section Differ

variable {b b' : Buffer} {field j : Nat} {port : UInt16} (hfield : field ≤ 2)
  (h : ∀ k, k ≠ j → b' k = b k) (hj : b j = 0) (hj' : b' j = 128) (h20 : 20 ≤ j)
  (hcheck : ihl b * 4 + 18 ≤ j)
  (hcover : CoveredBy (portWritten field b port) (ihl b * 4) j)
include hfield h hj hj' h20 hcheck hcover

/-- Two buffers that differ by 128 in an octet that the TCP checksum reads: the sums differ by 128
times the weight of the octet. -/
theorem tcpTotal_portWritten :
    tcpTotal (portWritten field b' port) (ihl b * 4) (ihl b * 4 + doff b (ihl b * 4) * 4) =
      tcpTotal (portWritten field b port) (ihl b * 4) (ihl b * 4 + doff b (ihl b * 4) * 4) +
        weight j * 128 := by
  have hihl : ihl b' = ihl b := ihl_congr (h 0 (by omega))
  -- the buffers on which the checksums are computed differ in the same octet
  have hwritten : ∀ k, k ≠ j → portWritten field b' port k = portWritten field b port k := by
    intro k hk
    rw [portWritten, portWritten, hihl]
    have hagree : Set.EqOn b' b {i | i ≠ j} := fun i hi => h i hi
    exact eqOn_put16 (eqOn_put16 hagree _ _) _ _ hk
  have hzj : portWritten field b port j = 0 := by
    rw [portWritten_of_ne _ _ _ (Or.inr hcheck) (Or.inr (by omega)), hj]
  have hzj' : portWritten field b' port j = 128 := by
    rw [portWritten_of_ne _ _ _ (by omega) (by omega), hj']
  have htotal := tcpTotal_of_differ (by omega) hwritten h20 (by omega) (by omega) hcover
  have hzero : (0 : UInt8).toNat = 0 := rfl
  have hhalf : (128 : UInt8).toNat = 128 := rfl
  rwa [hzj, hzj', doff_portWritten field b port hfield, hzero, hhalf, Nat.mul_zero,
    Nat.add_zero] at htotal

/-- At an even index the first octet of the check field differs. -/
theorem replacePort_differs_of_even (heven : j % 2 = 0) :
    replacePort field b port (ihl b * 4 + 16) ≠ replacePort field b' port (ihl b * 4 + 16) := by
  have hihl : ihl b' = ihl b := ihl_congr (h 0 (by omega))
  have hdoff : doff b' (ihl b * 4) = doff b (ihl b * 4) := doff_congr (h _ (by omega))
  have htotal := tcpTotal_portWritten hfield h hj hj' h20 hcheck hcover
  rw [weight, if_pos heven] at htotal
  have hpos : 0 < tcpTotal (portWritten field b port) (ihl b * 4)
      (ihl b * 4 + doff b (ihl b * 4) * 4) := by
    have hpseudo := tcpPseudo_pos (portWritten field b port) (ihl b * 4)
    rw [tcpTotal]
    omega
  rw [replacePort_eq, replacePort_eq, hihl, hdoff]
  apply put16_complement_high_ne (toNat_tcpCsum _ _ _) (toNat_tcpCsum _ _ _)
  -- 256 times 128 is half a turn
  rw [htotal]
  exact endAround_high_ne hpos

/-- At any index the check field differs. -/
theorem replacePort_check_ne :
    be16 (replacePort field b port) (ihl b * 4 + 16) ≠
      be16 (replacePort field b' port) (ihl b * 4 + 16) := by
  have hihl : ihl b' = ihl b := ihl_congr (h 0 (by omega))
  have hdoff : doff b' (ihl b * 4) = doff b (ihl b * 4) := doff_congr (h _ (by omega))
  have htotal := tcpTotal_portWritten hfield h hj hj' h20 hcheck hcover
  rw [replacePort_eq, replacePort_eq, hihl, hdoff, be16_put16_self, be16_put16_self]
  intro heq
  have hcsum := toNat_tcpCsum (portWritten field b port) (ihl b * 4)
    (ihl b * 4 + doff b (ihl b * 4) * 4)
  rw [heq, toNat_tcpCsum, htotal] at hcsum
  generalize tcpTotal (portWritten field b port) (ihl b * 4)
    (ihl b * 4 + doff b (ihl b * 4) * 4) = total at hcsum
  -- 128 and half a turn are both less than a full turn
  have hweight : 0 < weight j * 128 ∧ weight j * 128 < 65535 := by
    rw [weight]
    split <;> omega
  have hlt := endAround_lt total
  have hlt' := endAround_lt (total + weight j * 128)
  have hsame : endAround (total + weight j * 128) = endAround total := by omega
  exact endAround_add_ne hweight.1 hweight.2 hsame

/-- A difference of 128 in one octet that the TCP checksum reads changes the packet, also if it ends
behind the first octet of the check field and the index is even. -/
theorem replacePort_differs {n : Nat} (hn : ihl b * 4 + 16 < n)
    (hodd : n = ihl b * 4 + 17 → j % 2 = 0) :
    ∃ i < n, replacePort field b port i ≠ replacePort field b' port i := by
  rcases (by omega : n = ihl b * 4 + 17 ∨ ihl b * 4 + 17 < n) with hshort | hlong
  · exact ⟨_, hn, replacePort_differs_of_even hfield h hj hj' h20 hcheck hcover (hodd hshort)⟩
  · -- the whole check field belongs to the packet
    by_contra hsame
    push Not at hsame
    apply replacePort_check_ne hfield h hj hj' h20 hcheck hcover
    exact be16_congr (hsame _ (by omega)) (hsame _ (by omega))

end Differ

/-- A difference of 128 in one octet that the TCP checksum reads changes the rewritten packet. -/
theorem rewrite_differs {b b' : Buffer} {ipField portField j n : Nat} {ip : UInt32}
    {port : UInt16} (hip : 0 < ipField) (hip' : ipField ≤ 16) (hport : portField ≤ 2)
    (h : ∀ k, k ≠ j → b' k = b k) (hj : b j = 0) (hj' : b' j = 128) (h20 : 20 ≤ j)
    (hcheck : ihl b * 4 + 18 ≤ j)
    (hcover : CoveredBy (portWritten portField (replaceIp ipField b ip) port) (ihl b * 4) j)
    (hn : ihl b * 4 + 16 < n) (hodd : n = ihl b * 4 + 17 → j % 2 = 0) :
    ∃ i < n, rewrite ipField portField b ip port i ≠ rewrite ipField portField b' ip port i := by
  have hihl := ihl_replaceIp b ipField ip hip
  rw [← hihl] at hcheck hcover hn hodd
  refine replacePort_differs hport ?_ ?_ ?_ h20 hcheck hcover hn hodd
  · intro k hk
    have hagree : Set.EqOn b' b {i | i ≠ j} := fun i hi => h i hi
    have hihl' : ihl b' = ihl b := ihl_congr (h 0 (by omega))
    apply eqOn_replaceIp hagree _ _ hip ip hk
    · exact fun h0 => absurd h0.symm (by omega)
    · intro i hi hij
      omega
  · rw [replaceIp_of_ne _ _ _ (by omega) (by omega), hj]
  · rw [replaceIp_of_ne _ _ _ (by omega) (by omega), hj']

/-! ## The two rewrites -/

/-- What is neither one of the rewritten fields nor a check field stays. -/
theorem portWritten_replaceIp_of_ne (ipField portField : Nat) (b : Buffer) (ip : UInt32)
    (port : UInt16) (hip : 0 < ipField) {i : Nat} (hcheck : i < 10 ∨ 12 ≤ i)
    (haddr : i < ipField ∨ ipField + 4 ≤ i)
    (hcheck' : i < ihl b * 4 + 16 ∨ ihl b * 4 + 18 ≤ i)
    (hport : i < ihl b * 4 + portField ∨ ihl b * 4 + portField + 2 ≤ i) :
    portWritten portField (replaceIp ipField b ip) port i = b i := by
  have hihl := ihl_replaceIp b ipField ip hip
  rw [portWritten_of_ne _ _ _ (by omega) (by omega), replaceIp_of_ne _ _ _ hcheck haddr]

section Written

variable {ipField portField : Nat} {b : Buffer} {ip : UInt32} {port : UInt16}

theorem ihl_written (hip : 0 < ipField) (hport : 0 < ihl b * 4 + portField) :
    ihl (portWritten portField (replaceIp ipField b ip) port) = ihl b :=
  ihl_congr (portWritten_replaceIp_of_ne _ _ _ _ _ hip (by omega) (by omega) (by omega) (by omega))

theorem totLen_written (hip : 4 ≤ ipField)
    (hport : 4 ≤ ihl b * 4 + portField ∨ ihl b * 4 + portField = 0) :
    totLen (portWritten portField (replaceIp ipField b ip) port) = totLen b := by
  apply be16_congr
  · exact portWritten_replaceIp_of_ne _ _ _ _ _ (by omega) (by omega) (by omega) (by omega)
      (by omega)
  · exact portWritten_replaceIp_of_ne _ _ _ _ _ (by omega) (by omega) (by omega) (by omega)
      (by omega)

theorem doff_written (hip : 0 < ipField) (hport : portField ≤ 2)
    (haddr : ihl b * 4 + 12 < ipField ∨ ipField + 4 ≤ ihl b * 4 + 12) :
    doff (portWritten portField (replaceIp ipField b ip) port) (ihl b * 4) =
      doff b (ihl b * 4) :=
  doff_congr (portWritten_replaceIp_of_ne _ _ _ _ _ hip (by omega) haddr (by omega) (by omega))

/-- Without an IP header the destination port is written over the total length. -/
theorem totLen_written_of_port (hip : 0 < ipField) (hihl : ihl b = 0) :
    totLen (portWritten 2 (replaceIp ipField b ip) port) = port := by
  rw [totLen, portWritten, ihl_replaceIp b ipField ip hip, hihl,
    be16_put16_of_disjoint _ _ (by omega)]
  exact be16_put16_self _ _ _

/-- A data offset that lies where the address is written comes from the address. -/
theorem doff_written_of_address (hip : 12 ≤ ipField) (hport : portField ≤ 2)
    (haddr : ihl b * 4 + 12 = ipField) :
    doff (portWritten portField (replaceIp ipField b ip) port) (ihl b * 4) =
      ip.toNat / 268435456 := by
  have hihl := ihl_replaceIp b ipField ip (by omega)
  have hlt := ip.toNat_lt
  rw [doff, portWritten_of_ne _ _ _ (by omega) (by omega), haddr, replaceIp,
    put16_of_ne _ _ (by omega) (by omega), put32, put16_of_ne _ _ (by omega) (by omega),
    put16_high, UInt8.toNat_ofNat', UInt16.toNat_ofNat']
  omega

end Written

/-- Where the TCP checksum of a packet from the client may end. In a packet without IP header the
data offset comes from the address of the server. -/
def clientReach (b : Buffer) : Nat :=
  if ihl b = 0 then max 60 (totLen b).toNat else (totLen b).toNat

/-- Where the TCP checksum of a packet from the world may end. In a packet without IP header the
port of the client overwrites the total length, and in one with an IP header of four bytes the data
offset comes from the address of the client. -/
def worldReach (b : Buffer) : Nat :=
  if ihl b = 0 then 9000 else if ihl b = 1 then max 64 (totLen b).toNat else (totLen b).toNat

section Reach

variable {b : Buffer} {tcp : Nat} (hvalid : validateIpTcp b 9000 = some tcp)
include hvalid

theorem checksumEnd_client_le (ip : UInt32) (port : UInt16) :
    ihl b * 4 ≤ ihl (portWritten 0 (replaceIp 12 b ip) port) * 4 ∧
      checksumEnd (portWritten 0 (replaceIp 12 b ip) port) (ihl b * 4) ≤ clientReach b := by
  obtain ⟨-, -, hlen⟩ := validateIpTcp_some hvalid
  have hnibble := doff_lt (portWritten 0 (replaceIp 12 b ip) port) (ihl b * 4)
  rw [checksumEnd, clientReach, totLen_written (by omega) (by omega)]
  split
  · next h => omega
  · next h =>
      rw [ihl_written (by omega) (by omega), doff_written (by omega) (by omega) (by omega)]
      omega

theorem checksumEnd_world_le (hihl : 0 < ihl b) (ip : UInt32) (port : UInt16) :
    ihl b * 4 ≤ ihl (portWritten 2 (replaceIp 16 b ip) port) * 4 ∧
      checksumEnd (portWritten 2 (replaceIp 16 b ip) port) (ihl b * 4) ≤ worldReach b := by
  obtain ⟨-, -, hlen⟩ := validateIpTcp_some hvalid
  have hnibble := doff_lt (portWritten 2 (replaceIp 16 b ip) port) (ihl b * 4)
  rw [checksumEnd, worldReach, totLen_written (by omega) (by omega),
    ihl_written (by omega) (by omega), if_neg (by omega)]
  split
  · next h => omega
  · next h =>
      rw [doff_written (by omega) (by omega) (by omega)]
      omega

end Reach

/-- For some server address and port the checksum does read up to `clientReach`. -/
theorem coveredBy_client {b : Buffer} {j : Nat} (hj : j < clientReach b) :
    CoveredBy (portWritten 0 (replaceIp 12 b 0xF0000000) 0xA000) (ihl b * 4) j := by
  rw [clientReach] at hj
  rw [CoveredBy, totLen_written (by omega) (by omega)]
  split at hj
  · next h =>
      -- the port overwrites the header length, the address the data offset
      have hihl' : ihl (replaceIp 12 b 0xF0000000) = 0 := by
        rw [ihl_replaceIp _ _ _ (by omega), h]
      have hihl : ihl (portWritten 0 (replaceIp 12 b 0xF0000000) 0xA000) = 0 := by
        rw [ihl, portWritten, hihl', put16_of_ne _ _ (by omega) (by omega), put16_high]
        decide
      have hip : (0xF0000000 : UInt32).toNat = 4026531840 := rfl
      rw [doff_written_of_address (by omega) (by omega) (by omega), hihl, hip]
      omega
  · next h =>
      rw [ihl_written (by omega) (by omega)]
      omega

/-- For some client address and port the checksum does read up to `worldReach`. -/
theorem coveredBy_world {b : Buffer} {j : Nat} (hj : j < worldReach b) :
    CoveredBy (portWritten 2 (replaceIp 16 b 0xF0000000) 9000) (ihl b * 4) j := by
  rw [worldReach] at hj
  rw [CoveredBy, ihl_written (by omega) (by omega)]
  split at hj
  · next h =>
      have hport : (9000 : UInt16).toNat = 9000 := rfl
      rw [totLen_written_of_port (by omega) h, hport, h]
      omega
  · next h =>
      rw [totLen_written (by omega) (by omega)]
      split at hj
      · next h1 =>
          -- the address overwrites the data offset
          have hip : (0xF0000000 : UInt32).toNat = 4026531840 := rfl
          rw [doff_written_of_address (by omega) (by omega) (by omega), hip]
          omega
      · omega

end BenkerVpn

import BenkerVpn.Packet.Rewriting

/-!
# What validation accepts

`validate_ip_tcp` compares the size of the buffer, the total length and the two header lengths with
each other (`validateIpTcp_eq_some_iff`), so every well-formed packet passes
(`WellFormed.validateIpTcp`). It has no lower bound for the header lengths: a packet whose `ihl` or
`doff` is below five passes too, and nothing else that is not well formed does
(`validateIpTcp_exact_iff`).
-/

set_option autoImplicit false

namespace BenkerVpn

open Library.Octets

/-- The lengths of a packet in a buffer of `bufferLen` bytes: both headers have their fixed fields,
and they lie in the packet, which lies in the buffer. -/
structure WellFormed (b : Buffer) (bufferLen : Int) : Prop where
  ihl_ge : 5 ≤ ihl b
  doff_ge : 5 ≤ doff b (ihl b * 4)
  headers_le : ihl b * 4 + doff b (ihl b * 4) * 4 ≤ (totLen b).toNat
  totLen_le : (totLen b).toNat ≤ bufferLen

/-- The conditions `validate_ip_tcp` checks, in their order. -/
structure Validated (b : Buffer) (bufferSize : Int) : Prop where
  size_ge : 40 ≤ bufferSize
  protocol_eq : protocol b = ipprotoTcp
  header_le : ((ihl b * 4 + 20 : Nat) : Int) ≤ bufferSize
  totLen_le : ((totLen b).toNat : Int) ≤ bufferSize
  headers_le : ihl b * 4 + doff b (ihl b * 4) * 4 ≤ (totLen b).toNat

/-- A negative size becomes a large `size_t`, but the total length is compared as an `int`. -/
theorem validateIpTcp_eq_some_iff {b : Buffer} {bufferSize : Int}
    (hmax : bufferSize < 18446744073709551616) (tcp : Nat) :
    validateIpTcp b bufferSize = some tcp ↔ tcp = ihl b * 4 ∧ Validated b bufferSize := by
  have hihl : ihl b < 16 := Nat.mod_lt _ (by omega)
  rw [validateIpTcp]
  dsimp only
  constructor
  · intro h
    split_ifs at h with hsize hprotocol hheader htot hheaders
    obtain rfl := Option.some.inj h
    have hnonneg : 0 ≤ bufferSize := by omega
    rw [toSizeT, Int.emod_eq_of_lt hnonneg hmax] at hsize hheader
    exact ⟨rfl, by omega, not_not.1 hprotocol, by omega, by omega, by omega⟩
  · rintro ⟨rfl, h⟩
    have hsize := h.size_ge
    have hheader := h.header_le
    have htot := h.totLen_le
    have hheaders := h.headers_le
    rw [toSizeT, Int.emod_eq_of_lt (by omega) hmax, if_neg (by omega),
      if_neg (not_not.2 h.protocol_eq), if_neg (by omega), if_neg (by omega), if_neg (by omega)]

theorem validateIpTcp_isSome_iff {b : Buffer} {bufferSize : Int}
    (hmax : bufferSize < 18446744073709551616) :
    (validateIpTcp b bufferSize).isSome ↔ Validated b bufferSize := by
  rw [Option.isSome_iff_exists]
  simp only [validateIpTcp_eq_some_iff hmax, exists_eq_left]

/-- A TCP packet that is well formed passes. -/
theorem WellFormed.validated {b : Buffer} {bufferLen : Int} (h : WellFormed b bufferLen)
    (hprotocol : protocol b = ipprotoTcp) : Validated b bufferLen := by
  have hihl := h.ihl_ge
  have hdoff := h.doff_ge
  have hheaders := h.headers_le
  have htot := h.totLen_le
  exact ⟨by omega, hprotocol, by omega, htot, hheaders⟩

/-- A well-formed IPv4/TCP packet in a buffer of `bufferSize` bytes. -/
structure WellFormedTcp (b : Buffer) (bufferSize : Int) : Prop where
  size_ge : 40 ≤ bufferSize
  protocol_eq : protocol b = ipprotoTcp
  header_le : ((ihl b * 4 + 20 : Nat) : Int) ≤ bufferSize
  lengths : WellFormed b bufferSize

/-- Only the lower bounds of the header lengths are missing. -/
theorem wellFormedTcp_iff (b : Buffer) (bufferSize : Int) :
    WellFormedTcp b bufferSize ↔
      Validated b bufferSize ∧ 5 ≤ ihl b ∧ 5 ≤ doff b (ihl b * 4) := by
  constructor
  · intro h
    exact ⟨h.lengths.validated h.protocol_eq, h.lengths.ihl_ge, h.lengths.doff_ge⟩
  · rintro ⟨h, hihl, hdoff⟩
    exact ⟨h.size_ge, h.protocol_eq, h.header_le, hihl, hdoff, h.headers_le, h.totLen_le⟩

/-- Validation is exact when both header lengths are at least five, or when the packet fails one
of the checks that are made. -/
theorem validateIpTcp_exact_iff {b : Buffer} {bufferSize : Int}
    (hmax : bufferSize < 18446744073709551616) :
    ((validateIpTcp b bufferSize).isSome ↔ WellFormedTcp b bufferSize) ↔
      (5 ≤ ihl b ∧ 5 ≤ doff b (ihl b * 4)) ∨ bufferSize < 40 ∨ protocol b ≠ ipprotoTcp ∨
        bufferSize < (ihl b * 4 + 20 : Nat) ∨ bufferSize < (totLen b).toNat ∨
        (totLen b).toNat < ihl b * 4 + doff b (ihl b * 4) * 4 := by
  rw [validateIpTcp_isSome_iff hmax, wellFormedTcp_iff]
  have hchecks : ¬ Validated b bufferSize ↔ bufferSize < 40 ∨ protocol b ≠ ipprotoTcp ∨
      bufferSize < (ihl b * 4 + 20 : Nat) ∨ bufferSize < (totLen b).toNat ∨
      (totLen b).toNat < ihl b * 4 + doff b (ihl b * 4) * 4 := by
    constructor
    · intro h
      by_contra hno
      push Not at hno
      exact h ⟨hno.1, hno.2.1, hno.2.2.1, hno.2.2.2.1, hno.2.2.2.2⟩
    · rintro h ⟨hsize, hprotocol, hheader, htot, hheaders⟩
      rcases h with h | h | h | h | h
      · omega
      · exact h hprotocol
      · omega
      · omega
      · omega
  rw [← hchecks]
  tauto

/-- A packet of forty bytes with an IP header of 20 bytes and a TCP header of length zero. -/
def emptyHeader : Buffer := fun i =>
  if i = 0 then 0x45 else if i = 3 then 40 else if i = 9 then ipprotoTcp else 0

/-- The same packet is rejected if its protocol is not TCP, as it should be. -/
theorem validateIpTcp_exact_otherProtocol :
    (validateIpTcp (put8 emptyHeader 9 17) 40).isSome ↔
      WellFormedTcp (put8 emptyHeader 9 17) 40 :=
  (validateIpTcp_exact_iff (by decide)).2 (Or.inr (Or.inr (Or.inl (by decide))))

/-- A TCP header without its fixed fields is accepted. -/
theorem emptyHeader_accepted :
    (validateIpTcp emptyHeader 40).isSome ∧ ¬ WellFormedTcp emptyHeader 40 := by
  refine ⟨by decide, fun h => ?_⟩
  have hdoff : doff emptyHeader (ihl emptyHeader * 4) = 0 := by decide
  have hge := h.lengths.doff_ge
  omega

end BenkerVpn

import BenkerVpn.Model.ProtocolHeaders

/-!
# What rewriting writes

The four rewriting functions write an address field and the IP checksum, or a port field and the TCP
checksum. Every other byte stays (`replaceIp_of_ne`, `replacePort_of_ne`), and in a packet whose IP
header has its 20 fixed bytes the rewritten fields read back what was written
(`daddr_replaceDstIpPort`, `dest_replaceDstIpPort`, `saddr_replaceSrcIpPort`).
-/

set_option autoImplicit false

namespace BenkerVpn

open Library.Octets

variable (b : Buffer)

/-- `replaceIp` writes the check field and the address field. -/
theorem replaceIp_of_ne (field : Nat) (ip : UInt32) {i : Nat} (hcheck : i < 10 ∨ 12 ≤ i)
    (hfield : i < field ∨ field + 4 ≤ i) : replaceIp field b ip i = b i := by
  dsimp only [replaceIp]
  rw [put16_of_ne _ _ (by omega) (by omega), put32_of_ne _ _ hfield,
    put16_of_ne _ _ (by omega) (by omega)]

/-- `replacePort` writes the port field and the check field. -/
theorem replacePort_of_ne (field : Nat) (port : UInt16) {i : Nat}
    (hcheck : i < ihl b * 4 + 16 ∨ ihl b * 4 + 18 ≤ i)
    (hfield : i < ihl b * 4 + field ∨ ihl b * 4 + field + 2 ≤ i) :
    replacePort field b port i = b i := by
  dsimp only [replacePort]
  rw [put16_of_ne _ _ (by omega) (by omega), put16_of_ne _ _ (by omega) (by omega),
    put16_of_ne _ _ (by omega) (by omega)]

/-- The address field holds the new address. -/
theorem be32_replaceIp (field : Nat) (ip : UInt32) (hfield : 12 ≤ field) :
    be32 (replaceIp field b ip) field = ip := by
  dsimp only [replaceIp]
  rw [be32_put16_of_disjoint _ _ (by omega), be32_put32_self]

/-- The port field holds the new port. -/
theorem be16_replacePort (field : Nat) (port : UInt16) (hfield : field + 2 ≤ 16) :
    be16 (replacePort field b port) (ihl b * 4 + field) = port := by
  dsimp only [replacePort]
  rw [be16_put16_of_disjoint _ _ (by omega), be16_put16_of_disjoint _ _ (by omega),
    be16_put16_self]

theorem ihl_congr {b b' : Buffer} (h : b 0 = b' 0) : ihl b = ihl b' := by
  rw [ihl, ihl, h]

theorem doff_congr {b b' : Buffer} {tcp : Nat} (h : b (tcp + 12) = b' (tcp + 12)) :
    doff b tcp = doff b' tcp := by
  rw [doff, doff, h]

/-- Writes behind the first byte keep the header length. -/
theorem ihl_put16 {i : Nat} (v : UInt16) (hi : 0 < i) : ihl (put16 b i v) = ihl b :=
  ihl_congr (put16_of_ne _ _ (by omega) (by omega))

theorem ihl_put32 {i : Nat} (v : UInt32) (hi : 0 < i) : ihl (put32 b i v) = ihl b :=
  ihl_congr (put32_of_ne _ _ (Or.inl hi))

theorem ihl_replaceIp (field : Nat) (ip : UInt32) (hfield : 0 < field) :
    ihl (replaceIp field b ip) = ihl b :=
  ihl_congr (replaceIp_of_ne b field ip (Or.inl (by omega)) (Or.inl hfield))

/-- The header length survives the rewriting of a port that lies behind the first byte. -/
theorem ihl_replacePort (field : Nat) (port : UInt16) (hihl : 0 < ihl b * 4 + field) :
    ihl (replacePort field b port) = ihl b :=
  ihl_congr (replacePort_of_ne b field port (Or.inl (by omega)) (Or.inl hihl))

/-! ## Rewriting an address and a port -/

/-- The body of `replace_src_ip_port` and `replace_dst_ip_port`. -/
def rewrite (ipField portField : Nat) (b : Buffer) (ip : UInt32) (port : UInt16) : Buffer :=
  replacePort portField (replaceIp ipField b ip) port

theorem replaceSrcIpPort_eq (b : Buffer) (ip : UInt32) (port : UInt16) :
    replaceSrcIpPort b ip port = rewrite 12 0 b ip port := rfl

theorem replaceDstIpPort_eq (b : Buffer) (ip : UInt32) (port : UInt16) :
    replaceDstIpPort b ip port = rewrite 16 2 b ip port := rfl

/-- The buffer `tcp_csum` is computed on: the port is written and the check field is zero. -/
def portWritten (field : Nat) (b : Buffer) (port : UInt16) : Buffer :=
  put16 (put16 b (ihl b * 4 + field) port) (ihl b * 4 + 16) 0

theorem replacePort_eq (field : Nat) (b : Buffer) (port : UInt16) :
    replacePort field b port =
      put16 (portWritten field b port) (ihl b * 4 + 16)
        (tcpCsum (portWritten field b port) (ihl b * 4)
          (ihl b * 4 + doff b (ihl b * 4) * 4)) := rfl

theorem portWritten_of_ne (field : Nat) (b : Buffer) (port : UInt16) {i : Nat}
    (hcheck : i < ihl b * 4 + 16 ∨ ihl b * 4 + 18 ≤ i)
    (hfield : i < ihl b * 4 + field ∨ ihl b * 4 + field + 2 ≤ i) :
    portWritten field b port i = b i := by
  rw [portWritten, put16_of_ne _ _ (by omega) (by omega), put16_of_ne _ _ (by omega) (by omega)]

/-- The ports lie before the data offset. -/
theorem doff_portWritten (field : Nat) (b : Buffer) (port : UInt16) (hfield : field ≤ 2) :
    doff (portWritten field b port) (ihl b * 4) = doff b (ihl b * 4) :=
  doff_congr (portWritten_of_ne _ _ _ (by omega) (by omega))

/-! ## What the rewritten packet reads -/

/-- The header length survives a rewrite, unless the port is written over it. -/
theorem ihl_rewrite (ipField portField : Nat) (ip : UInt32) (port : UInt16) (hip : 0 < ipField)
    (hihl : 0 < ihl b * 4 + portField) : ihl (rewrite ipField portField b ip port) = ihl b := by
  have hihl' := ihl_replaceIp b ipField ip hip
  rw [rewrite, ihl_replacePort _ portField port (by rwa [hihl']), hihl']

/-- The port field reads the new port. -/
theorem be16_rewrite (ipField portField : Nat) (ip : UInt32) (port : UInt16) (hip : 0 < ipField)
    (hport : portField + 2 ≤ 16) :
    be16 (rewrite ipField portField b ip port) (ihl b * 4 + portField) = port := by
  rw [← ihl_replaceIp b ipField ip hip]
  exact be16_replacePort (replaceIp ipField b ip) portField port hport

/-- Behind a full IP header the port does not overlap the addresses. -/
theorem be32_replacePort_of_fullHeader (hihl : 5 ≤ ihl b) (port : UInt16) (field i : Nat)
    (hi : i + 4 ≤ 20) : be32 (replacePort field b port) i = be32 b i :=
  be32_congr fun j _ hj =>
    replacePort_of_ne b field port (Or.inl (by omega)) (Or.inl (by omega))

/-- The address field reads the new address. -/
theorem be32_rewrite (ipField portField : Nat) (ip : UInt32) (port : UInt16) (hip : 12 ≤ ipField)
    (hip' : ipField + 4 ≤ 20) (hihl : 5 ≤ ihl b) :
    be32 (rewrite ipField portField b ip port) ipField = ip := by
  have hihl' : 5 ≤ ihl (replaceIp ipField b ip) := by rwa [ihl_replaceIp b ipField ip (by omega)]
  rw [rewrite, be32_replacePort_of_fullHeader _ hihl' port portField ipField hip',
    be32_replaceIp b ipField ip hip]

section FullHeader

variable (hihl : 5 ≤ ihl b) (ip : UInt32) (port : UInt16)
include hihl

theorem daddr_replaceDstIpPort : daddr (replaceDstIpPort b ip port) = ip :=
  be32_rewrite b 16 2 ip port (by omega) (by omega) hihl

omit hihl in
theorem dest_replaceDstIpPort :
    dest (replaceDstIpPort b ip port) (ihl (replaceDstIpPort b ip port) * 4) = port := by
  rw [replaceDstIpPort_eq, ihl_rewrite b 16 2 ip port (by omega) (by omega)]
  exact be16_rewrite b 16 2 ip port (by omega) (by omega)

theorem saddr_replaceSrcIpPort : saddr (replaceSrcIpPort b ip port) = ip :=
  be32_rewrite b 12 0 ip port (by omega) (by omega) hihl

end FullHeader

end BenkerVpn

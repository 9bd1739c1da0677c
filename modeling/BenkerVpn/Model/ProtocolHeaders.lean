import BenkerVpn.Library.Octets

/-!
# IPv4 and TCP headers in a buffer

Model of `lib/protocol_headers.h` and `lib/protocol_headers.c`. A buffer is the memory seen from its
pointer: an index behind the end of the buffer reads whatever the memory holds there. `ip_header` is
index `0`; a TCP header and TCP data are given by their index. Header fields are read from the bytes
each time the C code reads them, so a write that overlaps another field is seen by later reads.

The host is little-endian, which fixes the bit fields (`ihl` is the low half of its byte, `doff` the
high half) and what `ip_header->id += 1` does to the two bytes of `id`.
-/

set_option autoImplicit false

namespace BenkerVpn

open Library.Octets

/-- `uint8_t *buffer`. -/
abbrev Buffer := Memory

/-! ## Header fields -/

/-- `ip_header->ihl`. -/
def ihl (b : Buffer) : Nat := (b 0).toNat % 16

/-- `ntohs(ip_header->tot_len)`. -/
def totLen (b : Buffer) : UInt16 := be16 b 2

/-- `ip_header->protocol`. -/
def protocol (b : Buffer) : UInt8 := b 9

/-- `ntohl(ip_header->saddr)`. -/
def saddr (b : Buffer) : UInt32 := be32 b 12

/-- `ntohl(ip_header->daddr)`. -/
def daddr (b : Buffer) : UInt32 := be32 b 16

/-- `ntohs(tcp_header->source)`. -/
def source (b : Buffer) (tcp : Nat) : UInt16 := be16 b tcp

/-- `ntohs(tcp_header->dest)`. -/
def dest (b : Buffer) (tcp : Nat) : UInt16 := be16 b (tcp + 2)

/-- `ntohl(tcp_header->seq)`. -/
def seq (b : Buffer) (tcp : Nat) : UInt32 := be32 b (tcp + 4)

/-- `ntohl(tcp_header->ack_seq)`. -/
def ackSeq (b : Buffer) (tcp : Nat) : UInt32 := be32 b (tcp + 8)

/-- `tcp_header->doff`. -/
def doff (b : Buffer) (tcp : Nat) : Nat := (b (tcp + 12)).toNat / 16

/-- `tcp_header->fin`. -/
def fin (b : Buffer) (tcp : Nat) : Bool := (b (tcp + 13)).toNat.testBit 0

/-- `tcp_header->syn`. -/
def syn (b : Buffer) (tcp : Nat) : Bool := (b (tcp + 13)).toNat.testBit 1

/-- `tcp_header->rst`. -/
def rst (b : Buffer) (tcp : Nat) : Bool := (b (tcp + 13)).toNat.testBit 2

/-- `tcp_header->psh`. -/
def psh (b : Buffer) (tcp : Nat) : Bool := (b (tcp + 13)).toNat.testBit 3

/-- `tcp_header->ack`. -/
def ack (b : Buffer) (tcp : Nat) : Bool := (b (tcp + 13)).toNat.testBit 4

/-- `tcp_header->urg`. -/
def urg (b : Buffer) (tcp : Nat) : Bool := (b (tcp + 13)).toNat.testBit 5

/-- `tcp_header->ece`. -/
def ece (b : Buffer) (tcp : Nat) : Bool := (b (tcp + 13)).toNat.testBit 6

/-- `tcp_header->cwr`. -/
def cwr (b : Buffer) (tcp : Nat) : Bool := (b (tcp + 13)).toNat.testBit 7

/-- `IPPROTO_TCP`. -/
def ipprotoTcp : UInt8 := 6

/-! ## Checksums -/

/-- The loop of `summing` over byte pairs from index `i`, and the odd byte behind it. -/
def addWords (b : Buffer) : Nat → Nat → UInt32 → UInt32
  | i, bytes + 2, sum =>
      addWords b (i + 2) bytes (sum + ((b i).toUInt32 <<< 8) + (b (i + 1)).toUInt32)
  | i, 1, sum => sum + ((b i).toUInt32 <<< 8)
  | _, 0, sum => sum

/-- The loop of `summing` that adds the carries back in. -/
def foldCarries (sum : UInt32) : UInt32 :=
  if sum ≤ 0xffff then sum else foldCarries ((sum >>> 16) + sum.toUInt16.toUInt32)
termination_by sum.toNat
decreasing_by
  rename_i h
  have hs := sum.toNat_lt
  simp only [UInt32.le_iff_toNat_le, not_le, UInt32.reduceToNat] at h
  simp only [UInt32.toNat_add, UInt32.toNat_shiftRight, UInt32.reduceToNat,
    UInt16.toNat_toUInt32, UInt32.toNat_toUInt16, Nat.shiftRight_eq_div_pow, Nat.reduceMod,
    Nat.reducePow]
  rw [Nat.mod_eq_of_lt (by omega)]
  omega

/-- `summing`. -/
def summing (b : Buffer) (i bytes : Nat) (sum : UInt32) : UInt16 :=
  (foldCarries (addWords b i bytes sum)).toUInt16

/-- `ip_csum`. -/
def ipCsum (b : Buffer) : UInt16 := ~~~ summing b 0 (ihl b * 4) 0

/-- The `pseudo_header` of `tcp_csum`: the two addresses, a zero, the protocol and the length. -/
def pseudoHeader (b : Buffer) (length : UInt16) : Buffer :=
  put16 (fun i => if i < 8 then b (12 + i) else if i = 9 then ipprotoTcp else 0) 10 length

/-- `tcp_csum`. -/
def tcpCsum (b : Buffer) (tcp tcpData : Nat) : UInt16 :=
  -- negative if the port was written over the total length or the header length
  let tcpDataBytes : Int := (totLen b).toNat - (ihl b * 4 : Nat) - (doff b tcp * 4 : Nat)
  let pseudo := pseudoHeader b (UInt16.ofInt ((doff b tcp * 4 : Nat) + tcpDataBytes))
  let sum := summing pseudo 0 12 0
  let sum := summing b tcp (doff b tcp * 4) sum.toUInt32
  let sum := if tcpDataBytes > 0 then summing b tcpData tcpDataBytes.toNat sum.toUInt32 else sum
  ~~~ sum

/-! ## Validation -/

/-- Conversion of an `int` to `size_t`, as in the comparisons of a size with `buffer_size`. -/
def toSizeT (n : Int) : Nat := (n % 18446744073709551616).toNat

/-- `validate_ip_tcp`: the index of the TCP header for `VALID_IP_TCP`, `none` for
`INVALID_IP_TCP`. -/
def validateIpTcp (b : Buffer) (bufferSize : Int) : Option Nat :=
  -- ensure size at least fit ip header + tcp header
  if toSizeT bufferSize < 20 + 20 then none
  -- ensure it is a tcp packet
  else if protocol b ≠ ipprotoTcp then none
  else
    let ipHeaderLen := ihl b * 4
    if toSizeT bufferSize < ipHeaderLen + 20 then none
    -- check total len, this time as an `int`
    else if bufferSize < (totLen b).toNat then none
    -- check overall length
    else if (totLen b).toNat < ipHeaderLen + doff b ipHeaderLen * 4 then none
    else some ipHeaderLen

/-! ## Rewriting -/

/-- The body of `replace_src_port` and `replace_dst_port`, which differ in the place of the port
field within the TCP header. -/
def replacePort (field : Nat) (b : Buffer) (port : UInt16) : Buffer :=
  let tcp := ihl b * 4
  let tcpData := tcp + doff b tcp * 4
  -- in a packet without IP header these writes overlap the fields `tcp_csum` reads
  let b := put16 b (tcp + field) port
  let b := put16 b (tcp + 16) 0
  put16 b (tcp + 16) (tcpCsum b tcp tcpData)

/-- The body of `replace_src_ip` and `replace_dst_ip`, which differ in the place of the address
field. -/
def replaceIp (field : Nat) (b : Buffer) (ip : UInt32) : Buffer :=
  let b := put16 b 10 0
  let b := put32 b field ip
  put16 b 10 (ipCsum b)

/-- `replace_src_port`. -/
def replaceSrcPort (b : Buffer) (port : UInt16) : Buffer := replacePort 0 b port

/-- `replace_src_ip`. -/
def replaceSrcIp (b : Buffer) (srcIp : UInt32) : Buffer := replaceIp 12 b srcIp

/-- `replace_src_ip_port`. -/
def replaceSrcIpPort (b : Buffer) (ip : UInt32) (port : UInt16) : Buffer :=
  replaceSrcPort (replaceSrcIp b ip) port

/-- `replace_dst_port`. -/
def replaceDstPort (b : Buffer) (port : UInt16) : Buffer := replacePort 2 b port

/-- `replace_dst_ip`. -/
def replaceDstIp (b : Buffer) (dstIp : UInt32) : Buffer := replaceIp 16 b dstIp

/-- `replace_dst_ip_port`. -/
def replaceDstIpPort (b : Buffer) (ip : UInt32) (port : UInt16) : Buffer :=
  replaceDstPort (replaceDstIp b ip) port

/-! ## Reset packets -/

/-- The IP part of `fillin_reset`. -/
def fillinResetIp (b : Buffer) : Buffer :=
  -- `ihl` is set, the version stays
  let b := put8 b 0 (UInt8.ofNat ((b 0).toNat / 16 * 16 + 5))
  let b := put16 b 2 40
  -- `id += 1` without `ntohs`
  let b := putLe16 b 4 (le16 b 4 + 1)
  let b := put16 b 6 0
  let b := put8 b 8 60
  let b := put16 b 10 0
  -- swap the addresses
  let temp32 := saddr b
  let b := put32 b 12 (daddr b)
  let b := put32 b 16 temp32
  put16 b 10 (ipCsum b)

/-- The TCP part of `fillin_reset`. The eight flag assignments fill the flag byte: `RST` and `ACK`
are set and the others cleared. The data pointer is `NULL`, which `tcp_csum` does not follow since
no data bytes are left. -/
def fillinResetTcp (b : Buffer) : Buffer :=
  let tcp := ihl b * 4
  -- swap the ports
  let temp16 := source b tcp
  let b := put16 b tcp (dest b tcp)
  let b := put16 b (tcp + 2) temp16
  -- answer the received numbers
  let temp32 := seq b tcp
  let b := put32 b (tcp + 4) (ackSeq b tcp)
  let b := put32 b (tcp + 8) (temp32 + 1)
  let b := put8 b (tcp + 12) (UInt8.ofNat ((b (tcp + 12)).toNat % 16 + 5 * 16))
  let b := put8 b (tcp + 13) 0x14
  let b := put16 b (tcp + 16) 0
  put16 b (tcp + 16) (tcpCsum b tcp 0)

/-- `fillin_reset`: the buffer and the length it returns. -/
def fillinReset (b : Buffer) : Buffer × Nat :=
  let b := fillinResetTcp (fillinResetIp b)
  (b, (totLen b).toNat)

end BenkerVpn

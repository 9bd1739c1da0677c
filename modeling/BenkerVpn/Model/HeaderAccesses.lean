import BenkerVpn.Library.Accesses
import BenkerVpn.Model.ProtocolHeaders

/-!
# The rewriting functions with their accesses

The functions of `lib/protocol_headers.c` that rewrite a packet, once more, as computations that
record every index of the buffer they read or write. They read the header fields in the order of the
source and as often. The pseudo header is a local array of `tcp_csum`, not part of the buffer.
-/

set_option autoImplicit false

namespace BenkerVpn.Traced

open Library.Octets Library.Accesses

/-- `ip_header->ihl`. -/
def ihl : Traced Nat := do
  let octet ← read8 0
  return octet.toNat % 16

/-- `ntohs(ip_header->tot_len)`. -/
def totLen : Traced UInt16 := read16 2

/-- `tcp_header->doff`. -/
def doff (tcp : Nat) : Traced Nat := do
  let octet ← read8 (tcp + 12)
  return octet.toNat / 16

/-- The loop of `summing` over byte pairs, and the odd byte behind it. -/
def addWords : Nat → Nat → UInt32 → Traced UInt32
  | i, bytes + 2, sum => do
      let high ← read8 i
      let low ← read8 (i + 1)
      addWords (i + 2) bytes (sum + (high.toUInt32 <<< 8) + low.toUInt32)
  | i, 1, sum => do
      let high ← read8 i
      return sum + (high.toUInt32 <<< 8)
  | _, 0, sum => return sum

/-- `summing`. -/
def summing (i bytes : Nat) (sum : UInt32) : Traced UInt16 := do
  let sum ← addWords i bytes sum
  return (foldCarries sum).toUInt16

/-- `ip_csum`. -/
def ipCsum : Traced UInt16 := do
  let words ← ihl
  let sum ← summing 0 (words * 4) 0
  return ~~~ sum

/-- The last sum of `tcp_csum`, which is left out if there are no data. -/
def summingData (tcpData : Nat) (tcpDataBytes : Int) (sum : UInt16) : Traced UInt16 :=
  if tcpDataBytes > 0 then summing tcpData tcpDataBytes.toNat sum.toUInt32 else return sum

/-- `tcp_csum`. -/
def tcpCsum (tcp tcpData : Nat) : Traced UInt16 := do
  let length ← totLen
  let ipWords ← ihl
  let tcpWords ← doff tcp
  let tcpDataBytes : Int := length.toNat - (ipWords * 4 : Nat) - (tcpWords * 4 : Nat)
  -- the addresses are copied, then the local array is complete
  let src ← readBlock 12 4
  let dst ← readBlock 16 4
  let pseudo : Memory := fun i =>
    if i < 4 then src i else if i < 8 then dst (i - 4) else if i = 9 then ipprotoTcp else 0
  let tcpWords ← doff tcp
  let pseudo := put16 pseudo 10 (UInt16.ofInt ((tcpWords * 4 : Nat) + tcpDataBytes))
  let sum := BenkerVpn.summing pseudo 0 12 0
  let tcpWords ← doff tcp
  let sum ← summing tcp (tcpWords * 4) sum.toUInt32
  let sum ← summingData tcpData tcpDataBytes sum
  return ~~~ sum

/-- The body of `replace_src_port` and `replace_dst_port`. -/
def replacePort (field : Nat) (port : UInt16) : Traced Unit := do
  let words ← ihl
  let tcp := words * 4
  let tcpWords ← doff tcp
  let tcpData := tcp + tcpWords * 4
  write16 (tcp + field) port
  write16 (tcp + 16) 0
  let check ← tcpCsum tcp tcpData
  write16 (tcp + 16) check

/-- The body of `replace_src_ip` and `replace_dst_ip`. -/
def replaceIp (field : Nat) (ip : UInt32) : Traced Unit := do
  write16 10 0
  write32 field ip
  let check ← ipCsum
  write16 10 check

/-- `replace_src_ip_port`. -/
def replaceSrcIpPort (ip : UInt32) (port : UInt16) : Traced Unit := do
  replaceIp 12 ip
  replacePort 0 port

/-- `replace_dst_ip_port`. -/
def replaceDstIpPort (ip : UInt32) (port : UInt16) : Traced Unit := do
  replaceIp 16 ip
  replacePort 2 port

end BenkerVpn.Traced

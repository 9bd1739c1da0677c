import BenkerVpn.Model.HeaderAccesses
import BenkerVpn.Model.PacketHandler

/-!
# The handlers with their accesses

`validate_ip_tcp`, `fillin_reset` and the two handlers, once more, as computations that record every
index of the packet buffer they read or write. The header fields are read where the source reads
them and only if it does. The session table is not part of the buffer.
-/

set_option autoImplicit false

namespace BenkerVpn.Traced

open Library.Octets Library.Accesses

/-! ## Header fields -/

/-- A bit of the flag byte. -/
def flag (tcp bit : Nat) : Traced Bool := do
  let octet ← read8 (tcp + 13)
  return octet.toNat.testBit bit

/-- `tcp_header->fin`. -/
def fin (tcp : Nat) : Traced Bool := flag tcp 0

/-- `tcp_header->syn`. -/
def syn (tcp : Nat) : Traced Bool := flag tcp 1

/-- `tcp_header->ack`. -/
def ack (tcp : Nat) : Traced Bool := flag tcp 4

/-- `tcp_header->seq`. -/
def seq (tcp : Nat) : Traced UInt32 := read32 (tcp + 4)

/-- `tcp_header->ack_seq`. -/
def ackSeq (tcp : Nat) : Traced UInt32 := read32 (tcp + 8)

/-! ## Validation -/

/-- `validate_ip_tcp`. -/
def validateIpTcp (bufferSize : Int) : Traced (Option Nat) :=
  if toSizeT bufferSize < 20 + 20 then return none
  else do
    let protocol ← read8 9
    if protocol ≠ ipprotoTcp then return none
    else
      let words ← ihl
      let ipHeaderLen := words * 4
      if toSizeT bufferSize < ipHeaderLen + 20 then return none
      else
        let length ← totLen
        if bufferSize < length.toNat then return none
        else
          let length ← totLen
          let tcpWords ← doff ipHeaderLen
          if length.toNat < ipHeaderLen + tcpWords * 4 then return none
          else return some ipHeaderLen

/-! ## Reset packets -/

/-- The IP part of `fillin_reset`. -/
def fillinResetIp : Traced Unit := do
  let octet ← read8 0
  write8 0 (UInt8.ofNat (octet.toNat / 16 * 16 + 5))
  write16 2 40
  let id ← readLe16 4
  writeLe16 4 (id + 1)
  write16 6 0
  write8 8 60
  write16 10 0
  let temp32 ← read32 12
  let daddr ← read32 16
  write32 12 daddr
  write32 16 temp32
  let check ← ipCsum
  write16 10 check

/-- The TCP part of `fillin_reset`. -/
def fillinResetTcp : Traced Unit := do
  let words ← ihl
  let tcp := words * 4
  let temp16 ← read16 tcp
  let dest ← read16 (tcp + 2)
  write16 tcp dest
  write16 (tcp + 2) temp16
  let temp32 ← seq tcp
  let ackSeq ← ackSeq tcp
  write32 (tcp + 4) ackSeq
  write32 (tcp + 8) (temp32 + 1)
  let octet ← read8 (tcp + 12)
  write8 (tcp + 12) (UInt8.ofNat (octet.toNat % 16 + 5 * 16))
  write8 (tcp + 13) 0x14
  write16 (tcp + 16) 0
  let check ← tcpCsum tcp 0
  write16 (tcp + 16) check

/-- `fillin_reset`. -/
def fillinReset : Traced Nat := do
  fillinResetIp
  fillinResetTcp
  let length ← totLen
  return length.toNat

/-! ## The handlers -/

/-- What a handler returns and stores, besides the buffer. -/
structure Answer where
  ret : Verdict
  machine : Machine
  rstSize : Option Nat
  clientIp : Option UInt32

/-- The rejection both handlers share. -/
def reject (m : Machine) : Traced Answer := do
  let size ← fillinReset
  return ⟨.invalidSession, m, some size, none⟩

/-- What an acknowledgement does in `handle_client_packet`. -/
def clientAck (session : TcpSession) (tcp : Nat) : Traced TcpSession := do
  if ← ack tcp then
    let ackSeq ← ackSeq tcp
    if ackSeq > session.serverLastStateSeq then
      if session.synState = 2 then return { session with synState := 3 }
      else if session.clientFinState = 1 then return { session with clientFinState := 2 }
      else return session
    else return session
  else return session

/-- The flag handling of `handle_client_packet`. -/
def clientFlags (session : TcpSession) (tcp : Nat) : Traced TcpSession := do
  let syn ← syn tcp
  if syn ∧ session.synState = 0 then
    let seq ← seq tcp
    return { session with clientLastStateSeq := seq }
  else
    let session ← clientAck session tcp
    if ← fin tcp then
      if session.serverFinState = 0 then
        let seq ← seq tcp
        return { session with serverFinState := 1, clientLastStateSeq := seq }
      else return session
    else return session

/-- The session `handle_client_packet` works on. -/
def clientSession (m : Machine) (count : Int) (tcp : Nat) :
    Traced (Option SessionPtr × Machine) := do
  if ← syn tcp then
    let saddr ← read32 12
    let source ← read16 tcp
    return addTcpSession m count saddr source 10
  else
    let saddr ← read32 12
    let source ← read16 tcp
    return (getTcpSessionByClient m saddr source, m)

/-- `handle_client_packet`. -/
def handleClientPacket (m : Machine) (count : Int) (bufferLen : Int) (vpnServerIp : UInt32) :
    Traced Answer := do
  match ← validateIpTcp bufferLen with
  | none => reject m
  | some tcp =>
      match ← clientSession m count tcp with
      | (none, m) => reject m
      | (some session, m) =>
          match sessionExpired m session with
          | (true, m) => reject m
          | (false, m) =>
              let v ← clientFlags (m.heap session) tcp
              let m := m.store session v
              replaceSrcIpPort vpnServerIp (m.heap session).serverPort
              return ⟨.validSession, m, none, none⟩

/-- The first condition of the flag handling of `handle_world_packet`. -/
def answersSyn (session : TcpSession) (tcp : Nat) : Traced Bool := do
  let syn ← syn tcp
  if syn ∧ session.synState = 0 then
    if ← ack tcp then
      let ackSeq ← ackSeq tcp
      return decide (ackSeq > session.clientLastStateSeq)
    else return false
  else return false

/-- What an acknowledgement does in `handle_world_packet`. -/
def worldAck (session : TcpSession) (tcp : Nat) : Traced TcpSession := do
  let ack ← ack tcp
  if ack ∧ session.serverFinState = 1 then
    let ackSeq ← ackSeq tcp
    if ackSeq > session.clientLastStateSeq then return { session with serverFinState := 2 }
    else return session
  else return session

/-- The flag handling of `handle_world_packet`. -/
def worldFlags (session : TcpSession) (tcp : Nat) : Traced TcpSession := do
  if ← answersSyn session tcp then
    let seq ← seq tcp
    return { session with synState := 2, serverLastStateSeq := seq }
  else
    let session ← worldAck session tcp
    let fin ← fin tcp
    if fin ∧ session.clientFinState = 0 then
      let seq ← seq tcp
      return { session with clientFinState := 1, serverLastStateSeq := seq }
    else return session

/-- `handle_world_packet`. -/
def handleWorldPacket (m : Machine) (bufferLen : Int) : Traced Answer := do
  match ← validateIpTcp bufferLen with
  | none => reject m
  | some tcp =>
      -- the port is read once more to be printed
      let _ ← read16 (tcp + 2)
      let dest ← read16 (tcp + 2)
      match getTcpSessionByServer m dest with
      | none => reject m
      | some session =>
          match sessionExpired m session with
          | (true, m) => reject m
          | (false, m) =>
              let v ← worldFlags (m.heap session) tcp
              let m := m.store session v
              replaceDstIpPort (m.heap session).clientIp (m.heap session).clientPort
              return ⟨.validSession, m, none, some (m.heap session).clientIp⟩

end BenkerVpn.Traced

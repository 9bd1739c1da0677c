import BenkerVpn.Model.SessionStruct
import BenkerVpn.Model.ProtocolHeaders

/-!
# The packet handlers

Model of `lib/packet_handler.h` and `lib/packet_handler.c`. Both handlers validate the packet, look
up a session, reject the packet with a reset if there is none or it has expired, update the
connection state from the TCP flags, and rewrite the addresses. The header fields a handler reads
are read before it writes to the buffer, so they are taken once, as a `Segment`.
-/

set_option autoImplicit false

namespace BenkerVpn

/-- The header fields the handlers read through `ip_header` and `tcp_header`. -/
structure Segment where
  saddr : UInt32
  source : UInt16
  dest : UInt16
  seq : UInt32
  ackSeq : UInt32
  fin : Bool
  syn : Bool
  ack : Bool
  deriving DecidableEq, Repr

/-- The fields of the packet in a buffer whose TCP header starts at index `tcp`. -/
def segmentAt (b : Buffer) (tcp : Nat) : Segment where
  saddr := saddr b
  source := source b tcp
  dest := dest b tcp
  seq := seq b tcp
  ackSeq := ackSeq b tcp
  fin := fin b tcp
  syn := syn b tcp
  ack := ack b tcp

/-- `VALID_SESSION` and `INVALID_SESSION`. -/
inductive Verdict where
  | validSession
  | invalidSession
  deriving DecidableEq, Repr

/-- What a handler returns and leaves behind: its value, the machine, the buffer, and the values it
stores through `rst_size` and `client_ip`, if it does. -/
structure Handled where
  ret : Verdict
  machine : Machine
  buffer : Buffer
  rstSize : Option Nat
  clientIp : Option UInt32

/-- The rejection both handlers share: the buffer becomes a reset packet. -/
def reject (m : Machine) (b : Buffer) : Handled where
  ret := .invalidSession
  machine := m
  buffer := (fillinReset b).1
  rstSize := some (fillinReset b).2
  clientIp := none

/-! ## Packets from the VPN client -/

/-- The flag handling of `handle_client_packet`. -/
def clientFlags (session : TcpSession) (seg : Segment) : TcpSession :=
  -- a `SYN` that is not answered yet, the first one or a repeated one
  if seg.syn ∧ session.synState = 0 then { session with clientLastStateSeq := seg.seq }
  else
    -- an acknowledgement completes the handshake before it answers a `FIN`
    let session :=
      if seg.ack ∧ seg.ackSeq > session.serverLastStateSeq then
        if session.synState = 2 then { session with synState := 3 }
        else if session.clientFinState = 1 then { session with clientFinState := 2 }
        else session
      else session
    -- only the first `FIN` is recorded
    if seg.fin then
      if session.serverFinState = 0 then
        { session with serverFinState := 1, clientLastStateSeq := seg.seq }
      else session
    else session

/-- The session `handle_client_packet` works on: a `SYN` adds one unless the key has one, any other
packet looks one up. -/
def clientSession (m : Machine) (count : Int) (seg : Segment) : Option SessionPtr × Machine :=
  if seg.syn then addTcpSession m count seg.saddr seg.source 10
  else (getTcpSessionByClient m seg.saddr seg.source, m)

/-- The part of `handle_client_packet` between validation and rewriting: the session the packet is
accepted for, if it is. -/
def acceptClient (m : Machine) (count : Int) (seg : Segment) : Option SessionPtr × Machine :=
  match clientSession m count seg with
  | (none, m) => (none, m)
  | (some session, m) =>
      -- the clock is read again, also for a session that was just created
      match sessionExpired m session with
      | (true, m) => (none, m)
      | (false, m) => (some session, m.store session (clientFlags (m.heap session) seg))

/-- `handle_client_packet`; `count` is what the uninitialised local of `add_tcp_session` holds. -/
def handleClientPacket (m : Machine) (count : Int) (b : Buffer) (bufferLen : Int)
    (vpnServerIp : UInt32) : Handled :=
  match validateIpTcp b bufferLen with
  -- `INVALID_IP_TCP`: no session is looked up, the clock is not read
  | none => reject m b
  | some tcp =>
      match acceptClient m count (segmentAt b tcp) with
      | (none, m) => reject m b
      | (some session, m) =>
          { ret := .validSession
            machine := m
            buffer := replaceSrcIpPort b vpnServerIp (m.heap session).serverPort
            rstSize := none
            clientIp := none }

/-! ## Packets from the world -/

/-- The flag handling of `handle_world_packet`. -/
def worldFlags (session : TcpSession) (seg : Segment) : TcpSession :=
  -- the answer to the `SYN`
  if seg.syn ∧ session.synState = 0 ∧ seg.ack ∧ seg.ackSeq > session.clientLastStateSeq then
    { session with synState := 2, serverLastStateSeq := seg.seq }
  else
    let session :=
      if seg.ack ∧ session.serverFinState = 1 ∧ seg.ackSeq > session.clientLastStateSeq then
        { session with serverFinState := 2 }
      else session
    -- only the first `FIN` is recorded
    if seg.fin ∧ session.clientFinState = 0 then
      { session with clientFinState := 1, serverLastStateSeq := seg.seq }
    else session

/-- The part of `handle_world_packet` between validation and rewriting. -/
def acceptWorld (m : Machine) (seg : Segment) : Option SessionPtr × Machine :=
  match getTcpSessionByServer m seg.dest with
  | none => (none, m)
  | some session =>
      match sessionExpired m session with
      | (true, m) => (none, m)
      | (false, m) => (some session, m.store session (worldFlags (m.heap session) seg))

/-- `handle_world_packet`. -/
def handleWorldPacket (m : Machine) (b : Buffer) (bufferLen : Int) : Handled :=
  match validateIpTcp b bufferLen with
  | none => reject m b
  | some tcp =>
      match acceptWorld m (segmentAt b tcp) with
      | (none, m) => reject m b
      | (some session, m) =>
          { ret := .validSession
            machine := m
            buffer := replaceDstIpPort b (m.heap session).clientIp (m.heap session).clientPort
            rstSize := none
            clientIp := some (m.heap session).clientIp }

/-! ## Calls -/

/-- A call the server program makes on its session table, with its arguments. -/
inductive Call where
  | add (count : Int) (clientIp : UInt32) (clientPort : UInt16) (timeout : Int)
  | client (count : Int) (b : Buffer) (bufferLen : Int) (vpnServerIp : UInt32)
  | world (b : Buffer) (bufferLen : Int)
  | clean

/-- The machine after a call. -/
def perform (m : Machine) : Call → Machine
  | .add count clientIp clientPort timeout => (addTcpSession m count clientIp clientPort timeout).2
  | .client count b bufferLen vpnServerIp =>
      (handleClientPacket m count b bufferLen vpnServerIp).machine
  | .world b bufferLen => (handleWorldPacket m b bufferLen).machine
  | .clean => cleanExpiredSession m

end BenkerVpn

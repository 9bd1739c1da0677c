import BenkerVpn.Model.PacketHandler
import Mathlib.Algebra.GroupWithZero.Nat

/-!
# The server program

Model of `server/main.c`, with what it uses of `lib/udp.c` and `lib/vpn_raw_sock.c`. What the two
sockets deliver and whether a packet can be sent comes from outside and is the input of a step. The
body of the loop has two halves: one reads the UDP socket and hands the packet to the world
(`serveClient`), the other, from `NEXT` on, reads the raw socket and sends the packet to the client
(`serveWorld`). A half ends with `none` where the program calls `exit`.
-/

set_option autoImplicit false

namespace BenkerVpn

/-! ## The sockets -/

/-- `struct sockaddr_in`. -/
structure SockaddrIn where
  sinAddr : UInt32
  sinPort : UInt16
  deriving DecidableEq, Repr

/-- What `recvfrom` finds on the UDP socket: it fails, with `EAGAIN` or otherwise, or it takes a
datagram. -/
inductive UdpRecv where
  | error
  | again
  | datagram (src : SockaddrIn) (payload : List UInt8)

/-- The buffer after `recvfrom` stored a message in it; what exceeds the size is lost. -/
def received (buf : Buffer) (size : Nat) (payload : List UInt8) : Buffer :=
  fun i => (payload.take size)[i]?.getD (buf i)

/-- `read_msg_udp`: the return value, the buffer and `raddr`. -/
def readMsgUdp (buf : Buffer) (size : Nat) (raddr : SockaddrIn) :
    UdpRecv → Int × Buffer × SockaddrIn
  | .error => (-1, buf, raddr)
  | .again => (0, buf, raddr)
  -- `raddr` is written whatever the datagram holds, also if it is empty
  | .datagram src payload => ((payload.take size).length, received buf size payload, src)

/-- The fields of `struct sockaddr_ll` that are looked at. -/
structure SockaddrLl where
  sllPkttype : UInt8
  sllHalen : UInt8
  deriving DecidableEq, Repr

/-- A frame on the raw socket, with its address. -/
structure RawFrame extends SockaddrLl where
  payload : List UInt8

/-- `PACKET_HOST`. -/
def packetHost : UInt8 := 0

/-- What `recvfrom` leaves in `_ll`: it writes the first `sockLen` bytes of the address, of which
`sll_pkttype` is the eleventh and `sll_halen` the twelfth. -/
def storeAddress (sockLen : Int) (ll : SockaddrLl) (frame : RawFrame) : SockaddrLl where
  sllPkttype := if 11 ≤ sockLen then frame.sllPkttype else ll.sllPkttype
  sllHalen := if 12 ≤ sockLen then frame.sllHalen else ll.sllHalen

/-- The length of the address of a frame, which `recvfrom` leaves in `sock_len`: that of the
structure, or more if the hardware address does not fit it. -/
def addressLen (frame : RawFrame) : Int := max 20 (12 + frame.sllHalen.toNat)

/-- `get_ip_packet` without an address from the caller, on the frames that wait on the raw socket:
frames that are not for this host are stored and skipped. `sock_len` and `_ll` are not initialised
by the code, so what stands in them is an argument. When no frame is left, `recvfrom` fails, with
`EAGAIN` unless `error`. -/
def getIpPacket (buf : Buffer) (size : Nat) (error : Bool) (sockLen : Int) (ll : SockaddrLl) :
    List RawFrame → Int × Buffer
  | [] => (if error then -1 else 0, buf)
  | frame :: frames =>
      let buf := received buf size frame.payload
      -- `EINVAL`; the frame is gone
      if sockLen < 0 then (-1, buf)
      else
        let ll := storeAddress sockLen ll frame
        if ll.sllPkttype ≠ packetHost ∨ ll.sllHalen ≤ 0 then
          getIpPacket buf size error (addressLen frame) ll frames
        else ((frame.payload.take size).length, buf)

/-! ## The server -/

/-- `MAX_BUF`. -/
def maxBuf : Nat := 9000

/-- `struct vpn_server`. The session table is part of the machine, together with the heap and the
clock; the descriptors and the device address are left out. -/
structure VpnServer where
  localIp : UInt32
  clientIp : UInt32
  buf : Buffer
  bufLen : Nat
  raddr : SockaddrIn
  machine : Machine

/-- `init_vpn_server`, on the uninitialised structure of `main`. -/
def initVpnServer (s : VpnServer) : VpnServer :=
  { s with
    localIp := 3232266986
    bufLen := maxBuf
    machine := { s.machine with table := initHashTable 200 40000 41000 } }

/-- `print_session_hash_table` reads the clock once for each session. -/
def printSessionHashTable (m : Machine) : Machine :=
  m.tick ((List.range m.table.len).map fun i => (m.table.listClientKey i).length).sum

/-- What the first half of the loop gets from outside. -/
structure ClientInput where
  recv : UdpRecv
  count : Int
  sendOk : Bool

/-- What the second half of the loop gets from outside. -/
structure WorldInput where
  frames : List RawFrame
  recvError : Bool
  sockLen : Int
  ll : SockaddrLl
  sendOk : Bool

/-- The bytes of the buffer that are passed to `sendto`. -/
def sentBytes (buf : Buffer) (len : Nat) : List UInt8 := (List.range len).map buf

/-- The loop up to `NEXT`: the server, and the packet sent to the world. -/
def serveClient (s : VpnServer) (input : ClientInput) : Option VpnServer × Option (List UInt8) :=
  let (ret, buf, raddr) := readMsgUdp s.buf s.bufLen s.raddr input.recv
  let s := { s with buf := buf, raddr := raddr }
  if ret < 0 then (none, none)
  else if ret = 0 then (some s, none)
  else
    let readLen := ret.toNat
    -- the handler is told the capacity of the buffer, not `read_len`
    let r := handleClientPacket s.machine input.count s.buf s.bufLen s.localIp
    let s := { s with buf := r.buffer, machine := r.machine }
    match r.ret with
    | .invalidSession => (some s, none)
    | .validSession =>
        -- printing a session judges its expiry
        let s := { s with machine := printSessionHashTable s.machine }
        if input.sendOk then (some s, some (sentBytes s.buf readLen)) else (none, none)

/-- The loop from `NEXT` on: the server, and the packet sent to the client with its address. -/
def serveWorld (s : VpnServer) (input : WorldInput) :
    Option VpnServer × Option (List UInt8 × SockaddrIn) :=
  let (ret, buf) :=
    getIpPacket s.buf s.bufLen input.recvError input.sockLen input.ll input.frames
  let s := { s with buf := buf }
  if ret < 0 then (none, none)
  else if ret = 0 then (some s, none)
  else
    let readLen := ret.toNat
    let r := handleWorldPacket s.machine s.buf s.bufLen
    let s := { s with
      buf := r.buffer
      machine := r.machine
      clientIp := r.clientIp.getD s.clientIp }
    match r.ret with
    | .invalidSession => (some s, none)
    | .validSession =>
        -- assume only 1 client
        if input.sendOk then (some s, some (sentBytes s.buf readLen, s.raddr)) else (none, none)

/-- The body of the loop of `main`. -/
def iteration : Option VpnServer → ClientInput × WorldInput → Option VpnServer
  | none, _ => none
  | some s, (client, world) => (serveClient s client).1.bind fun s => (serveWorld s world).1

/-! ## Half iterations as events -/

/-- One half of an iteration. -/
inductive Event where
  | client (input : ClientInput)
  | world (input : WorldInput)

/-- The server after an event. -/
def serve : Option VpnServer → Event → Option VpnServer
  | none, _ => none
  | some s, .client input => (serveClient s input).1
  | some s, .world input => (serveWorld s input).1

/-- What an event sends to the client, and the address it is sent to. -/
def reply : Option VpnServer → Event → Option (List UInt8 × SockaddrIn)
  | some s, .world input => (serveWorld s input).2
  | _, _ => none

/-- What a half sends: to the world without, to the client with an address. -/
def transmitted : Option VpnServer → Event → Option (List UInt8 × Option SockaddrIn)
  | none, _ => none
  | some s, .client input => (serveClient s input).2.map fun packet => (packet, none)
  | some s, .world input => (serveWorld s input).2.map fun sent => (sent.1, some sent.2)

end BenkerVpn

import BenkerVpn.Model.Server

/-!
# The client program

Model of `client/main.c`, with what it uses of `lib/udp.c`. The body of the loop has two halves: one
reads a packet from the TUN device and sends it to the server as a datagram (`clientSend`), the
other, from `NEXT` on, reads a datagram and writes its packet to the device (`clientReceive`). A
half ends with `none` where the program calls `exit`.
-/

set_option autoImplicit false

namespace BenkerVpn

/-- What `read` finds on the TUN device, which is opened with `O_NONBLOCK`: it fails, with `EAGAIN`
or otherwise, or it takes a packet. -/
inductive TunRead where
  | error
  | again
  | packet (payload : List UInt8)

/-- `LOCAL_PORT`, the UDP port of the server. -/
def localPort : UInt16 := 8080

/-- `struct vpn_client`, without the descriptors. -/
structure VpnClient where
  buf : Buffer
  bufLen : Nat
  raddr : SockaddrIn

/-- `init_vpn_client`, on the uninitialised structure of `main`. The server is `127.0.0.1`. -/
def initVpnClient (c : VpnClient) : VpnClient :=
  { c with
    bufLen := maxBuf
    raddr := ⟨2130706433, localPort⟩ }

/-- The loop up to `NEXT`: the client, and the datagram sent with its destination. -/
def clientSend (c : VpnClient) (read : TunRead) (sendOk : Bool) :
    Option VpnClient × Option (List UInt8 × SockaddrIn) :=
  match read with
  | .error => (none, none)
  | .again => (some c, none)
  | .packet payload =>
      let ret := (payload.take c.bufLen).length
      let c := { c with buf := received c.buf c.bufLen payload }
      -- a packet of no bytes is sent as an empty datagram
      if sendOk then (some c, some (sentBytes c.buf ret, c.raddr)) else (none, none)

/-- The loop from `NEXT` on: the client, and the packet written to the TUN device. -/
def clientReceive (c : VpnClient) (recv : UdpRecv) (writeOk : Bool) :
    Option VpnClient × Option (List UInt8) :=
  -- the address of the sender is not asked for, and `raddr` stays
  let (ret, buf, _) := readMsgUdp c.buf c.bufLen c.raddr recv
  let c := { c with buf := buf }
  if ret < 0 then (none, none)
  else if ret = 0 then (some c, none)
  else if writeOk then (some c, some (sentBytes c.buf ret.toNat)) else (none, none)

/-- What an iteration of the client gets from outside. -/
structure TunnelInput where
  read : TunRead
  sendOk : Bool
  recv : UdpRecv
  writeOk : Bool

/-- The body of the loop of the client's `main`. -/
def clientIteration : Option VpnClient → TunnelInput → Option VpnClient
  | none, _ => none
  | some c, input =>
      (clientSend c input.read input.sendOk).1.bind fun c =>
        (clientReceive c input.recv input.writeOk).1

end BenkerVpn

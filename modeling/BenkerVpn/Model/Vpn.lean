import BenkerVpn.Model.Client

/-!
# Client, server and the networks between them

The two programs run next to each other. A step of the whole is a half of an iteration of one of
them. The UDP network between them keeps every datagram that was sent: a datagram may arrive any
number of times, in any order, or never, and datagrams of other senders arrive at both sockets. What
the TUN device and the raw socket deliver comes from outside; what is written to them is recorded.
-/

set_option autoImplicit false

namespace BenkerVpn

/-- Where the next datagram of a UDP socket comes from: from the other program, as one of the
datagrams it has sent so far, or from another sender. -/
inductive Delivery where
  | error
  | again
  | sent (k : Nat)
  | foreign (src : SockaddrIn) (payload : List UInt8)

/-- What `recvfrom` finds, for the datagrams sent so far and the address of their sender. -/
def Delivery.recv (datagrams : List (List UInt8)) (src : SockaddrIn) : Delivery → UdpRecv
  | .error => .error
  | .again => .again
  | .sent k =>
      match datagrams[k]? with
      | some payload => .datagram src payload
      | none => .again
  | .foreign src payload => .datagram src payload

/-- The two programs, `none` once they have ended, the datagrams they have sent, and the packets
they have written to the raw socket and to the TUN device. -/
structure Vpn where
  client : Option VpnClient
  server : Option VpnServer
  uplink : List (List UInt8)
  downlink : List (List UInt8 × SockaddrIn)
  wire : List (List UInt8)
  tun : List (List UInt8)

/-- A half iteration of one of the programs, with what it gets from outside. -/
inductive VpnEvent where
  | tunToUdp (read : TunRead) (sendOk : Bool)
  | udpToWire (delivery : Delivery) (count : Int) (sendOk : Bool)
  | wireToUdp (input : WorldInput)
  | udpToTun (delivery : Delivery) (writeOk : Bool)

namespace Vpn

/-- Before the first iteration of both programs. -/
def init (client : VpnClient) (server : VpnServer) : Vpn where
  client := some (initVpnClient client)
  server := some (initVpnServer server)
  uplink := []
  downlink := []
  wire := []
  tun := []

/-- The datagrams that the server has sent to an address. -/
def sentTo (v : Vpn) (addr : SockaddrIn) : List (List UInt8) :=
  (v.downlink.filter fun d => decide (d.2 = addr)).map Prod.fst

/-- One step; `addr` is the address of the client's socket, as the server sees it. -/
def step (addr : SockaddrIn) (v : Vpn) : VpnEvent → Vpn
  | .tunToUdp read sendOk =>
      match v.client with
      | none => v
      | some c =>
          let (client, sent) := clientSend c read sendOk
          { v with client := client, uplink := v.uplink ++ (sent.map Prod.fst).toList }
  | .udpToWire delivery count sendOk =>
      match v.server with
      | none => v
      | some s =>
          let (server, sent) := serveClient s ⟨delivery.recv v.uplink addr, count, sendOk⟩
          { v with server := server, wire := v.wire ++ sent.toList }
  | .wireToUdp input =>
      match v.server with
      | none => v
      | some s =>
          let (server, sent) := serveWorld s input
          { v with server := server, downlink := v.downlink ++ sent.toList }
  | .udpToTun delivery writeOk =>
      match v.client with
      | none => v
      | some c =>
          let (client, written) :=
            clientReceive c (delivery.recv (v.sentTo addr) c.raddr) writeOk
          { v with client := client, tun := v.tun ++ written.toList }

end Vpn

end BenkerVpn

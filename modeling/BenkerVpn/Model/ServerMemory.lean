import BenkerVpn.Model.SessionMemory

/-!
# The server program in memory

The loop of `server/main.c` on the session table in memory. It is the loop of `Model.Server`, with
the calls on the table replaced by those of `Model.SessionMemory`.
-/

set_option autoImplicit false

namespace BenkerVpn.Pointers

/-- `struct vpn_server`, with the memory its session table lives in. -/
structure VpnServer where
  localIp : UInt32
  clientIp : UInt32
  buf : Buffer
  bufLen : Nat
  raddr : SockaddrIn
  memory : Memory

/-- `init_vpn_server`. -/
def initVpnServer (s : VpnServer) : VpnServer :=
  { s with
    localIp := 3232266986
    bufLen := maxBuf
    memory := { s.memory with table := initHashTable 200 40000 41000 } }

/-- The loop up to `NEXT`: the server, and the packet sent to the world. -/
def serveClient (calloc : Calloc) (fuel : Nat) (s : VpnServer) (input : ClientInput) :
    Except Fault (Option VpnServer × Option (List UInt8)) :=
  let (ret, buf, raddr) := readMsgUdp s.buf s.bufLen s.raddr input.recv
  let s := { s with buf := buf, raddr := raddr }
  if ret < 0 then pure (none, none)
  else if ret = 0 then pure (some s, none)
  else do
    let readLen := ret.toNat
    let (a, memory) ←
      handleClientPacket calloc fuel s.memory input.count s.buf s.bufLen s.localIp
    let s := { s with buf := a.buffer, memory := memory }
    match a.ret with
    | .invalidSession => pure (some s, none)
    | .validSession => do
        let memory ← printSessionHashTable fuel s.memory
        let s := { s with memory := memory }
        if input.sendOk then pure (some s, some (sentBytes s.buf readLen)) else pure (none, none)

/-- The loop from `NEXT` on: the server, and the packet sent to the client with its address. -/
def serveWorld (fuel : Nat) (s : VpnServer) (input : WorldInput) :
    Except Fault (Option VpnServer × Option (List UInt8 × SockaddrIn)) :=
  let (ret, buf) :=
    getIpPacket s.buf s.bufLen input.recvError input.sockLen input.ll input.frames
  let s := { s with buf := buf }
  if ret < 0 then pure (none, none)
  else if ret = 0 then pure (some s, none)
  else do
    let readLen := ret.toNat
    let (a, memory) ← handleWorldPacket fuel s.memory s.buf s.bufLen
    let s := { s with
      buf := a.buffer
      memory := memory
      clientIp := a.clientIp.getD s.clientIp }
    match a.ret with
    | .invalidSession => pure (some s, none)
    | .validSession =>
        if input.sendOk then pure (some s, some (sentBytes s.buf readLen, s.raddr))
        else pure (none, none)

/-- An event, with what it sends. -/
def serve (calloc : Calloc) (fuel : Nat) : Option VpnServer → Event →
    Except Fault (Option (List UInt8 × Option SockaddrIn) × Option VpnServer)
  | none, _ => pure (none, none)
  | some s, .client input => do
      let (st, sent) ← serveClient calloc fuel s input
      pure (sent.map fun packet => (packet, none), st)
  | some s, .world input => do
      let (st, sent) ← serveWorld fuel s input
      pure (sent.map fun sent => (sent.1, some sent.2), st)

/-- The events of a run one after the other, with what they send. -/
def serveAll (calloc : Calloc) (fuel : Nat) : Option VpnServer → List Event →
    Except Fault (List (Option (List UInt8 × Option SockaddrIn)) × Option VpnServer)
  | st, [] => pure ([], st)
  | st, e :: events => do
      let (sent, st) ← serve calloc fuel st e
      let (rest, st) ← serveAll calloc fuel st events
      pure (sent :: rest, st)

end BenkerVpn.Pointers

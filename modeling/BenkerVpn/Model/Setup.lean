import BenkerVpn.Library.Descriptors
import BenkerVpn.Model.Client

/-!
# Setting up the two programs

Model of `lib/ip_command.c`, of the functions of `lib/udp.c` and `lib/vpn_raw_sock.c` that open
sockets, and of what `init_vpn_client` and `init_vpn_server` do with descriptors. Which calls
succeed is not known beforehand, and the functions of the netlink library are an argument. A
function that returns a descriptor or `-1` returns an option, one that returns `0` or `-1` a truth
value.
-/

set_option autoImplicit false

namespace BenkerVpn

open Library.Descriptors

/-- The protocol families of the sockets. -/
inductive Family where
  | inet
  | packet
  | inet6
  deriving DecidableEq

/-- The calls that can fail, with what they ask for. -/
inductive Syscall where
  | socket (family : Family) (protocol : UInt16)
  | bindUdp (port : UInt16)
  | bindRaw
  | openTun
  | tunSetIff (flags : BitVec 16)
  | getIfFlags
  | setIfFlags (flags : BitVec 16)
  | rtnlOpen
  | newAddr (tunip : List UInt8) (prefixlen : Nat)
  | newRoute (tunip : List UInt8) (dstLen : Nat)
  deriving DecidableEq

/-- A computation that makes these calls. -/
abbrev Setup (α : Type) : Type := StateM (Process Syscall) α

/-- The functions of the netlink library. A handle is the descriptor of its socket. -/
structure Libnetlink where
  rtnlOpen : Setup (Option Nat)
  rtnlTalk : Syscall → Setup Bool
  rtnlClose : Nat → Setup Unit

def iffUp : BitVec 32 := 0x0001

def iffTun : BitVec 16 := 0x0001

def iffNoPi : BitVec 16 := 0x1000

def iffTunExcl : BitVec 16 := 0x8000

/-- `tunip`, as `set_default_ip_addr` and `set_default_route` write it. -/
def tunip : List UInt8 := [10, 0, 0, 1]

/-- `get_ctl_fd`: the first family that there is a socket of. -/
def getCtlFd : Setup (Option Nat) := do
  match ← acquire (.socket .inet 0) with
  | some fd => pure (some fd)
  | none =>
      match ← acquire (.socket .packet 0) with
      | some fd => pure (some fd)
      | none => acquire (.socket .inet6 0)

/-- The flags that `do_chflags` writes to `ifr.ifr_flags`, a `short` that is promoted to the type of
`flags` and `mask`. -/
def changedFlags (ifrFlags : BitVec 16) (flags mask : BitVec 32) : BitVec 16 :=
  let ifrFlags := (ifrFlags.signExtend 32 &&& ~~~mask).setWidth 16
  (ifrFlags.signExtend 32 ||| (mask &&& flags)).setWidth 16

/-- `do_chflags`, on a device with the given flags. -/
def doChflags (devFlags : BitVec 16) (flags mask : BitVec 32) : Setup Bool := do
  match ← getCtlFd with
  | none => pure false
  | some fd =>
      if ← call .getIfFlags then
        if (devFlags.signExtend 32 ^^^ flags) &&& mask ≠ 0 then
          if ← call (.setIfFlags (changedFlags devFlags flags mask)) then
            release fd
            pure true
          else
            -- returns without `close`
            pure false
        else
          release fd
          pure true
      else
        -- `close` stands behind the `return`
        pure false

/-- `add_tun`; `stack` is what stands in `ifr_flags` before anything is written there. -/
def addTun (stack : BitVec 16) : Setup (Option Nat) := do
  match ← acquire .openTun with
  | none => pure none
  | some fd =>
      if ← call (.tunSetIff ((stack ||| (iffNoPi ||| iffTun)) ||| iffTunExcl)) then
        pure (some fd)
      else
        release fd
        pure none

/-- `set_int_up`. -/
def setIntUp (devFlags : BitVec 16) : Setup Bool := doChflags devFlags iffUp iffUp

/-- The body that `set_default_ip_addr` and `set_default_route` share. -/
def rtnlRequest (lib : Libnetlink) (request : Syscall) : Setup Bool := do
  match ← lib.rtnlOpen with
  | none => pure false
  | some fd =>
      let ok ← lib.rtnlTalk request
      lib.rtnlClose fd
      pure ok

/-- `set_default_ip_addr`. -/
def setDefaultIpAddr (lib : Libnetlink) : Setup Bool := rtnlRequest lib (.newAddr tunip 24)

/-- `set_default_route`. -/
def setDefaultRoute (lib : Libnetlink) : Setup Bool := rtnlRequest lib (.newRoute tunip 0)

/-- `FAIL_SETUP_TUN`. -/
def failSetupTun (fd : Nat) : Setup (Option Nat) := do
  release fd
  pure none

/-- `setup_tun`; `devFlags` are the flags of the device it adds. -/
def setupTun (lib : Libnetlink) (stack devFlags : BitVec 16) : Setup (Option Nat) := do
  match ← addTun stack with
  | none => pure none
  | some fd =>
      if ← setIntUp devFlags then
        if ← setDefaultIpAddr lib then
          if ← setDefaultRoute lib then pure (some fd) else failSetupTun fd
        else failSetupTun fd
      else failSetupTun fd

/-- `get_udp_socket_client`. -/
def getUdpSocketClient : Setup (Option Nat) := acquire (.socket .inet 0)

/-- `get_udp_socket_server`. -/
def getUdpSocketServer (port : UInt16) : Setup (Option Nat) := do
  match ← acquire (.socket .inet 0) with
  | none => pure none
  | some fd =>
      -- the socket stays open if `bind` fails
      if ← call (.bindUdp port) then pure (some fd) else pure none

/-- `get_vpn_raw_socket`; the protocol is `htons(ETH_P_IP)`. -/
def getVpnRawSocket : Setup (Option Nat) := do
  match ← acquire (.socket .packet 0x0008) with
  | none => pure none
  | some fd =>
      if ← call .bindRaw then pure (some fd)
      else
        release fd
        pure none

/-- The descriptors of `struct vpn_client`, `none` for `-1`. -/
structure ClientFds where
  udpfd : Option Nat
  tunfd : Option Nat

/-- What `init_vpn_client` does with descriptors; it does not look at what it gets. -/
def initClientFds (lib : Libnetlink) (stack devFlags : BitVec 16) : Setup ClientFds := do
  let udpfd ← getUdpSocketClient
  let tunfd ← setupTun lib stack devFlags
  pure ⟨udpfd, tunfd⟩

/-- The descriptors of `struct vpn_server`. -/
structure ServerFds where
  udpfd : Nat
  rawfd : Nat

/-- What `init_vpn_server` does with descriptors; `none` where it calls `exit`. -/
def initServerFds : Setup (Option ServerFds) := do
  match ← getUdpSocketServer localPort with
  | none => pure none
  | some udpfd =>
      match ← getVpnRawSocket with
      | none => pure none
      | some rawfd => pure (some ⟨udpfd, rawfd⟩)

/-- What an iteration can get from outside: `read`, `write`, `sendto` and `recvfrom` fail on
`-1`. -/
def ClientFds.Permits (fds : ClientFds) (input : TunnelInput) : Prop :=
  (fds.tunfd = none → input.read = .error ∧ input.writeOk = false) ∧
    (fds.udpfd = none → input.recv = .error ∧ input.sendOk = false)

end BenkerVpn

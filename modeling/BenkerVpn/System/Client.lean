import BenkerVpn.Model.Vpn
import BenkerVpn.Server.Loop

/-!
# What a half iteration of the client sends

The client changes no byte of what passes through it: it sends the packets that it reads from the
TUN device to the server (`clientSend_sent`), and writes to the device what a datagram contains
(`clientReceive_written`).
-/

set_option autoImplicit false

namespace BenkerVpn

section Client

variable {c c' : VpnClient}

theorem clientSend_some {read : TunRead} {sendOk : Bool}
    (h : (clientSend c read sendOk).1 = some c') : c'.bufLen = c.bufLen ∧ c'.raddr = c.raddr := by
  cases read with
  | error => cases h
  | again =>
      obtain rfl := Option.some.inj h
      exact ⟨rfl, rfl⟩
  | packet payload =>
      rw [clientSend] at h
      split at h
      · obtain rfl := Option.some.inj h
        exact ⟨rfl, rfl⟩
      · cases h

/-- The client sends what it has read from the TUN device, to the server. -/
theorem clientSend_sent {read : TunRead} {sendOk : Bool} {packet : List UInt8} {dst : SockaddrIn}
    (h : (clientSend c read sendOk).2 = some (packet, dst)) :
    ∃ payload, read = .packet payload ∧ packet = payload.take c.bufLen ∧ dst = c.raddr := by
  cases read with
  | error => cases h
  | again => cases h
  | packet payload =>
      rw [clientSend] at h
      split at h
      · obtain ⟨rfl, rfl⟩ := Prod.mk.inj (Option.some.inj h)
        exact ⟨payload, rfl, sentBytes_received _ _ _, rfl⟩
      · cases h

theorem clientReceive_some {recv : UdpRecv} {writeOk : Bool}
    (h : (clientReceive c recv writeOk).1 = some c') :
    c'.bufLen = c.bufLen ∧ c'.raddr = c.raddr := by
  rw [clientReceive] at h
  dsimp only at h
  split at h
  · cases h
  · split at h
    · obtain rfl := Option.some.inj h
      exact ⟨rfl, rfl⟩
    · split at h
      · obtain rfl := Option.some.inj h
        exact ⟨rfl, rfl⟩
      · cases h

/-- The client writes to the TUN device what a datagram contains, whoever has sent it. -/
theorem clientReceive_written {recv : UdpRecv} {writeOk : Bool} {packet : List UInt8}
    (h : (clientReceive c recv writeOk).2 = some packet) :
    ∃ src payload, recv = .datagram src payload ∧ packet = payload.take c.bufLen := by
  cases recv with
  | error => cases h
  | again => cases h
  | datagram src payload =>
      refine ⟨src, payload, rfl, ?_⟩
      rw [clientReceive] at h
      dsimp only [readMsgUdp] at h
      rw [if_neg (by omega)] at h
      split at h
      · cases h
      · split at h
        · rw [← Option.some.inj h, Int.toNat_natCast]
          exact sentBytes_received _ _ _
        · cases h

end Client

end BenkerVpn

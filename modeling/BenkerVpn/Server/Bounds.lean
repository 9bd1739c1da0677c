import BenkerVpn.Handler.Bounds
import BenkerVpn.Server.Reply

/-!
# The server stays within its buffer

A packet makes a rewrite leave the buffer only if its IP header has length zero and a port above the
size of the buffer is written over its total length (`replace_inBounds_iff`). The destination port
of such a packet is its total length, which validation bounds by the size of the buffer, and every
port of the server exceeds that size. So no packet that the server accepts from the world is of this
kind (`ihl_pos_of_world_accepted`), and the server never leaves its buffer, whatever it receives
(`server_inBounds`).
-/

set_option autoImplicit false

namespace BenkerVpn

open Library.Runs Library.Accesses

/-- If the ports of the table exceed the size of the buffer, only packets with an IP header are
accepted from the world. -/
theorem ihl_pos_of_world_accepted {pool : PortPool} {m : Machine} (h : NatInvariant pool m)
    {n : Nat} (hsmall : n < pool.minPort.toNat) {b : Buffer} {p : SessionPtr}
    (hp : (Call.world b n).session m = some p) : 0 < ihl b := by
  have hmax : (n : Int) < 18446744073709551616 := by
    have hport := pool.minPort.toNat_lt
    omega
  obtain ⟨seg, hseg, hacc⟩ := Option.bind_eq_some_iff.1 hp
  obtain ⟨tcp, htcp, rfl⟩ := Option.map_eq_some_iff.1 hseg
  obtain ⟨rfl, hvalid⟩ := (validateIpTcp_eq_some_iff hmax tcp).1 htcp
  have hfound : getTcpSessionByServer m (dest b (ihl b * 4)) = some p := by
    rcases haccept : acceptWorld m (segmentAt b (ihl b * 4)) with ⟨r, m'⟩
    rw [haccept] at hacc
    obtain rfl := hacc
    cases acceptWorld_outcome haccept with
    | accepted s hs hexp => exact hs
  obtain ⟨hin, hkey⟩ := (h.indexes.getByServer_eq_some_iff _ _).1 hfound
  obtain ⟨hlow, -⟩ := h.ports p hin
  by_contra hzero
  -- without a header the port is read where the total length stands
  have hihl : ihl b = 0 := by omega
  have hport : (m.heap p).serverPort = totLen b := by
    rw [hihl] at hkey
    exact hkey
  rw [hport] at hlow
  have htotal := hvalid.totLen_le
  omega

/-- The size that the handlers are told is that of the buffer. -/
theorem bufLen_of_serve {start s : VpnServer} {events : List Event}
    (h : exec serve (some (initVpnServer start)) events = some s) : s.bufLen = maxBuf :=
  invariant_serve (fun t => t.bufLen = maxBuf)
    (fun _ _ _ ht he => (serve_served he).bufLen.trans ht) rfl h

/-- What is sent was read from the buffer. -/
theorem length_transmitted_le {s : VpnServer} {e : Event} {packet : List UInt8}
    {dst : Option SockaddrIn} (h : transmitted (some s) e = some (packet, dst)) :
    packet.length ≤ s.bufLen := by
  have hread : ∀ (b : Buffer) (payload : List UInt8),
      (sentBytes b (payload.take s.bufLen).length).length ≤ s.bufLen := fun b payload => by
    rw [length_sentBytes]
    exact List.length_take_le _ _
  cases e with
  | client input =>
      obtain ⟨packet, hsent, heq⟩ := Option.map_eq_some_iff.1 h
      obtain ⟨rfl, -⟩ := Prod.mk.inj heq
      have hhalf := serveClient_half s input
      rw [hsent] at hhalf
      generalize (serveClient s input).1 = st at hhalf
      cases hhalf with
      | accepted src payload hrecv hpos hret => exact hread _ payload
  | world input =>
      obtain ⟨⟨packet, raddr⟩, hsent, heq⟩ := Option.map_eq_some_iff.1 h
      obtain ⟨rfl, -⟩ := Prod.mk.inj heq
      have hhalf := serveWorld_half s input
      rw [hsent] at hhalf
      generalize (serveWorld s input).1 = st at hhalf
      cases hhalf with
      | accepted frame htaken hrecv hpos hret => exact hread _ frame.payload

/-- The server never leaves its buffer. In every state that it can reach, whatever stands in the
buffer, both handlers read and write only its 9000 octets, in computing what they compute on it,
and what is sent is taken from it. -/
theorem server_inBounds {start s : VpnServer} {events : List Event}
    (hrun : exec serve (some (initVpnServer start)) events = some s) (b : Buffer) (count : Int) :
    let client := Traced.handleClientPacket s.machine count s.bufLen s.localIp
    let world := Traced.handleWorldPacket s.machine s.bufLen
    (InBounds client b 9000 ∧
      Traced.Computes client b (handleClientPacket s.machine count b s.bufLen s.localIp)) ∧
    (InBounds world b 9000 ∧
      Traced.Computes world b (handleWorldPacket s.machine b s.bufLen)) ∧
    ∀ e packet dst, transmitted (some s) e = some (packet, dst) → packet.length ≤ 9000 := by
  intro client world
  have hnat : NatInvariant serverPool s.machine :=
    natInvariant_of_serve (initVpnServer_fresh start).natInvariant hrun
  have hlen : s.bufLen = 9000 := bufLen_of_serve hrun
  have hmax : ((9000 : Nat) : Int) < 18446744073709551616 := by decide
  have hroom : 40 ≤ 9000 := by decide
  refine ⟨⟨?_, ?_⟩, ⟨?_, ?_⟩, fun e packet dst hsent => ?_⟩
  · have haddress := s.localIp.toNat_lt
    show InBounds (Traced.handleClientPacket s.machine count s.bufLen s.localIp) b 9000
    rw [hlen, Traced.inBounds_handleClientPacket_iff hmax]
    exact ⟨fun _ => hroom, fun _ _ => by omega⟩
  · show Traced.Computes (Traced.handleClientPacket s.machine count s.bufLen s.localIp) b _
    rw [hlen]
    exact Traced.handleClientPacket_computes hmax s.machine count s.localIp
  · show InBounds (Traced.handleWorldPacket s.machine s.bufLen) b 9000
    rw [hlen, Traced.inBounds_handleWorldPacket_iff hmax]
    refine ⟨fun _ => hroom, fun p hp => ⟨fun hihl => ?_, fun _ => ?_⟩⟩
    · have hpos := ihl_pos_of_world_accepted hnat (by decide) hp
      omega
    · have haddress := (s.machine.heap p).clientIp.toNat_lt
      omega
  · show Traced.Computes (Traced.handleWorldPacket s.machine s.bufLen) b _
    rw [hlen]
    exact Traced.handleWorldPacket_computes hmax s.machine
  · rw [← hlen]
    exact length_transmitted_le hsent

/-- A client has a session, and a packet without IP header arrives from the world. -/
theorem server_inBounds_opened :
    let world := Traced.handleWorldPacket openedServer.machine openedServer.bufLen
    InBounds world noIpHeader 9000 ∧
      Traced.Computes world noIpHeader
        (handleWorldPacket openedServer.machine noIpHeader openedServer.bufLen) :=
  (server_inBounds serve_syn noIpHeader 0).2.1

end BenkerVpn

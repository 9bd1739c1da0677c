import BenkerVpn.Handler.Packets
import BenkerVpn.Server.Loop

/-!
# Where replies go

`read_msg_udp` writes the source of every datagram it reads to `raddr`, before the datagram is
validated, and replies are sent to `raddr`. So replies go to the source of the last datagram read,
accepted or not (`reply_address`). A rejected datagram leaves them where they would have gone
without it exactly if it comes from there or another datagram has been read since
(`reply_undiverted_iff`): the loop assumes only one client. A datagram from another address diverts
the replies (`rejected_datagram_diverts`).
-/

set_option autoImplicit false

namespace BenkerVpn

open Library.Runs

/-- The source of the last datagram read, and the given address before the first one. -/
def lastSource (raddr : SockaddrIn) (events : List Event) : SockaddrIn :=
  events.foldl (fun raddr e => e.source.getD raddr) raddr

theorem lastSource_cons (raddr : SockaddrIn) (e : Event) (events : List Event) :
    lastSource raddr (e :: events) = lastSource (e.source.getD raddr) events := rfl

/-- Once a datagram has been read, the address before it does not matter. -/
theorem lastSource_eq_iff (a a' : SockaddrIn) (events : List Event) :
    lastSource a events = lastSource a' events ↔
      a = a' ∨ ∃ e ∈ events, e.source.isSome := by
  induction events generalizing a a' with
  | nil => simp [lastSource]
  | cons e events ih =>
      rw [lastSource_cons, lastSource_cons, ih]
      cases hsource : e.source with
      | none => simp [hsource]
      | some src => simp [hsource]

theorem lastSource_of_none (a : SockaddrIn) {events : List Event}
    (h : ∀ e ∈ events, e.source = none) : lastSource a events = a := by
  induction events with
  | nil => rfl
  | cons e events ih =>
      rw [lastSource_cons, h e List.mem_cons_self]
      exact ih fun e' he' => h e' (List.mem_cons_of_mem e he')

/-- `raddr` is the source of the last datagram read. -/
theorem raddr_of_run {s s' : VpnServer} {events : List Event}
    (h : exec serve (some s) events = some s') : s'.raddr = lastSource s.raddr events := by
  induction events generalizing s with
  | nil =>
      obtain rfl := Option.some.inj h
      rfl
  | cons e events ih =>
      obtain ⟨t, he, ht⟩ := exec_serve_cons h
      rw [ih ht, (serve_served he).raddr, lastSource_cons]

/-- A reply goes to `raddr`. -/
theorem reply_raddr {st : Option VpnServer} {e : Event} {packet : List UInt8} {dst : SockaddrIn}
    (h : reply st e = some (packet, dst)) : ∃ s, st = some s ∧ dst = s.raddr := by
  cases st with
  | none => cases h
  | some s =>
      refine ⟨s, rfl, ?_⟩
      cases e with
      | client input => cases h
      | world input =>
          have hhalf := serveWorld_half s input
          rw [show (serveWorld s input).2 = some (packet, dst) from h] at hhalf
          generalize (serveWorld s input).1 = st at hhalf
          cases hhalf with
          | accepted frame htaken hread hpos hret => rfl

/-- Every reply goes to the source of the last datagram read. -/
theorem reply_address {s : VpnServer} {events : List Event} {e : Event} {packet : List UInt8}
    {dst : SockaddrIn} (h : reply (exec serve (some s) events) e = some (packet, dst)) :
    dst = lastSource s.raddr events := by
  obtain ⟨s', hs', hdst⟩ := reply_raddr h
  rw [hdst, raddr_of_run hs']

/-- The server rejects the datagram that the half reads with `INVALID_SESSION`. -/
def RejectsDatagram (s : VpnServer) (input : ClientInput) (src : SockaddrIn) : Prop :=
  ∃ payload, input.recv = .datagram src payload ∧ 0 < (payload.take s.bufLen).length ∧
    (handleClientPacket s.machine input.count (received s.buf s.bufLen payload) s.bufLen
      s.localIp).ret = .invalidSession

/-- A reply after a rejected datagram goes where it would have gone without it exactly if the
datagram comes from the address of the client, or another datagram has been read since. A reply that
goes elsewhere goes to the source of the rejected datagram. -/
theorem reply_undiverted_iff {s s' : VpnServer} {input : ClientInput} {src : SockaddrIn}
    (hrejects : RejectsDatagram s input src) {events : List Event} {e : Event}
    {packet : List UInt8} {dst : SockaddrIn}
    (hreply : reply (exec serve (some s) (.client input :: events)) e = some (packet, dst))
    (hwithout : exec serve (some s) events = some s') :
    (dst = s'.raddr ↔ src = s.raddr ∨ ∃ e ∈ events, e.source.isSome) ∧
      (dst ≠ s'.raddr → dst = src) ∧
      ∀ packet' dst', reply (some s') e = some (packet', dst') → dst' = s'.raddr := by
  obtain ⟨payload, hrecv, -, -⟩ := hrejects
  have hsource : Event.source (.client input) = some src := by rw [Event.source, hrecv]
  have hdst := reply_address hreply
  rw [lastSource_cons, hsource, Option.getD_some] at hdst
  have hsame : dst = s'.raddr ↔ src = s.raddr ∨ ∃ e ∈ events, e.source.isSome := by
    rw [hdst, raddr_of_run hwithout]
    exact lastSource_eq_iff src s.raddr events
  refine ⟨hsame, fun hdiverted => ?_, fun packet' dst' hreply' => ?_⟩
  · have hnone : ∀ e ∈ events, e.source = none := fun e he =>
      Option.not_isSome_iff_eq_none.1 fun hsome => hdiverted (hsame.2 (Or.inr ⟨e, he, hsome⟩))
    rw [hdst, lastSource_of_none src hnone]
  · obtain ⟨t, ht, hdst'⟩ := reply_raddr hreply'
    obtain rfl := Option.some.inj ht
    exact hdst'

/-! ## A concrete server -/

/-- A server that has just started. -/
def freshServer : VpnServer :=
  initVpnServer
    { localIp := 0
      clientIp := 0
      buf := fun _ => 0
      bufLen := 0
      raddr := ⟨0, 0⟩
      machine := freshMachine serverPool fun _ => 0 }

/-- A datagram of forty bytes. -/
def datagramOf (src : SockaddrIn) (b : Buffer) : ClientInput where
  recv := .datagram src (sentBytes b 40)
  count := 0
  sendOk := true

/-- A frame of forty bytes for this host. -/
def frameOf (b : Buffer) : WorldInput where
  frames := [⟨⟨packetHost, 6⟩, sentBytes b 40⟩]
  recvError := false
  sockLen := 20
  ll := ⟨0, 0⟩
  sendOk := true

/-- The address of the client. -/
def clientAddress : SockaddrIn := ⟨3221225985, 40001⟩

/-- Another address. -/
def otherAddress : SockaddrIn := ⟨3405803777, 9⟩

/-- The server after the `SYN` of the client. -/
def openedServer : VpnServer :=
  (serveClient freshServer (datagramOf clientAddress (packetOf sampleSyn))).1.getD freshServer

theorem serve_syn :
    exec serve (some freshServer) [.client (datagramOf clientAddress (packetOf sampleSyn))] =
      some openedServer := by
  have hsome : (serveClient freshServer
      (datagramOf clientAddress (packetOf sampleSyn))).1.isSome := by decide +kernel
  show (serveClient freshServer (datagramOf clientAddress (packetOf sampleSyn))).1 =
    some openedServer
  obtain ⟨s, hs⟩ := Option.isSome_iff_exists.1 hsome
  rw [openedServer, hs]
  rfl

/-- A rejected datagram of the client itself does not divert the reply. -/
theorem rejected_of_client_undiverted :
    ∃ packet, reply (exec serve (some openedServer) [.client (datagramOf clientAddress fun _ => 0)])
      (.world (frameOf (packetOf sampleSynAck))) = some (packet, openedServer.raddr) := by
  have hrejects : RejectsDatagram openedServer (datagramOf clientAddress fun _ => 0)
      clientAddress := ⟨sentBytes (fun _ => 0) 40, rfl, by decide +kernel, by decide +kernel⟩
  have hsome : (reply (exec serve (some openedServer)
      [.client (datagramOf clientAddress fun _ => 0)])
      (.world (frameOf (packetOf sampleSynAck)))).isSome := by decide +kernel
  obtain ⟨⟨packet, dst⟩, hreply⟩ := Option.isSome_iff_exists.1 hsome
  have hclient : clientAddress = openedServer.raddr := by decide +kernel
  have hdst := (reply_undiverted_iff hrejects hreply (exec_nil _)).1.2 (Or.inl hclient)
  exact ⟨packet, by rw [hreply, hdst]⟩

/-- After the `SYN` of the client has been accepted, a datagram of forty zero bytes arrives from
another address and is rejected. The answer to the `SYN` then goes to the other address; without the
datagram it would have gone to the client. -/
theorem rejected_datagram_diverts :
    let noise := datagramOf otherAddress fun _ => 0
    let answer := Event.world (frameOf (packetOf sampleSynAck))
    exec serve (some freshServer) [.client (datagramOf clientAddress (packetOf sampleSyn))] =
        some openedServer ∧
      RejectsDatagram openedServer noise otherAddress ∧
      (reply (some openedServer) answer).map Prod.snd = some clientAddress ∧
      (reply (exec serve (some openedServer) [.client noise]) answer).map Prod.snd =
        some otherAddress := by
  intro noise answer
  exact ⟨serve_syn, ⟨sentBytes (fun _ => 0) 40, rfl, by decide +kernel, by decide +kernel⟩,
    by decide +kernel, by decide +kernel⟩

end BenkerVpn

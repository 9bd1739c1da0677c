import BenkerVpn.Handler.Leftover
import BenkerVpn.Library.Observations
import BenkerVpn.Server.Reply

/-!
# What earlier packets leave in the buffer

The server reads every packet into the same buffer and clears it never. As long as the packets that
arrive are complete, nothing of what an earlier one has left there gets into what is sent, or
decides what is sent: two servers that differ in the contents of their buffers send the same packets
to the same addresses (`leftover_unobservable`).
-/

set_option autoImplicit false

namespace BenkerVpn

open Library.Observations Library.Octets Library.Runs

/-! ## One half of the loop -/

/-- The packet that a half reads, with its sender. -/
def Event.packet : Event → Option (Sender × List UInt8)
  | .client input =>
      match input.recv with
      | .datagram _ payload => some (.client, payload)
      | _ => none
  | .world input => input.taken.map fun frame => (.world, frame.payload)

/-- The half reads a complete packet, or none. -/
def Event.ReadsComplete (e : Event) : Prop :=
  ∀ sender payload, e.packet = some (sender, payload) → 0 < (payload.take maxBuf).length →
    Complete sender (received (fun _ => 0) maxBuf payload) (payload.take maxBuf).length

theorem received_beyond {buf buf' : Buffer} (h : Set.EqOn buf buf' (Set.Ici 9000))
    (payload : List UInt8) :
    Set.EqOn (received buf maxBuf payload) (received buf' maxBuf payload) (Set.Ici 9000) := by
  intro i hi
  have hlen : (payload.take maxBuf).length ≤ i :=
    (List.length_take_le maxBuf payload).trans (Set.mem_Ici.1 hi)
  rw [received_of_ge _ _ _ hlen, received_of_ge _ _ _ hlen, h hi]

theorem received_eqOn (buf buf' : Buffer) (payload : List UInt8) :
    Set.EqOn (received buf maxBuf payload) (received buf' maxBuf payload)
      (Set.Iio (payload.take maxBuf).length) := by
  intro i hi
  rw [received_of_lt _ _ _ (Set.mem_Iio.1 hi), received_of_lt _ _ _ (Set.mem_Iio.1 hi)]

/-- From two buffers as much is read, and the bytes behind stay. -/
theorem getIpPacket_congr {buf buf' : Buffer} (h : Set.EqOn buf buf' (Set.Ici 9000)) (error : Bool)
    (sockLen : Int) (ll : SockaddrLl) (frames : List RawFrame) :
    (getIpPacket buf maxBuf error sockLen ll frames).1 =
        (getIpPacket buf' maxBuf error sockLen ll frames).1 ∧
      Set.EqOn (getIpPacket buf maxBuf error sockLen ll frames).2
        (getIpPacket buf' maxBuf error sockLen ll frames).2 (Set.Ici 9000) := by
  induction frames generalizing buf buf' sockLen ll with
  | nil => exact ⟨rfl, h⟩
  | cons frame frames ih =>
      have hstored := received_beyond h frame.payload
      rw [getIpPacket, getIpPacket]
      dsimp only
      split
      · exact ⟨rfl, hstored⟩
      · split
        · exact ih hstored _ _
        · exact ⟨rfl, hstored⟩

/-- The servers differ at most in the contents of their buffers. -/
inductive AlikeBuffers : Option VpnServer → Option VpnServer → Prop
  | ended : AlikeBuffers none none
  | running {s : VpnServer} {buf' : Buffer} (hlen : s.bufLen = maxBuf)
      (h : Set.EqOn s.buf buf' (Set.Ici 9000)) :
      AlikeBuffers (some s) (some { s with buf := buf' })

section After

variable {s : VpnServer} (hlen : s.bufLen = maxBuf) {n : Nat} {r r' : Handled}
  (h : SameHandling n r r') (buf' : Buffer) (sendOk : Bool)
include hlen h

theorem afterClient_alike :
    (afterClient s r n sendOk).2 = (afterClient { s with buf := buf' } r' n sendOk).2 ∧
      AlikeBuffers (afterClient s r n sendOk).1
        (afterClient { s with buf := buf' } r' n sendOk).1 := by
  obtain ⟨ret, machine, b, rstSize, ip⟩ := r
  obtain ⟨ret', machine', b', rstSize', ip'⟩ := r'
  obtain ⟨rfl, rfl, rfl, hsent, hbeyond⟩ := h
  cases ret with
  | invalidSession => exact ⟨rfl, .running hlen hbeyond⟩
  | validSession =>
      cases sendOk with
      | true => exact ⟨congrArg some (sentBytes_congr (hsent rfl)), .running hlen hbeyond⟩
      | false => exact ⟨rfl, .ended⟩

theorem afterWorld_alike :
    (afterWorld s r n sendOk).2 = (afterWorld { s with buf := buf' } r' n sendOk).2 ∧
      AlikeBuffers (afterWorld s r n sendOk).1
        (afterWorld { s with buf := buf' } r' n sendOk).1 := by
  obtain ⟨ret, machine, b, rstSize, ip⟩ := r
  obtain ⟨ret', machine', b', rstSize', ip'⟩ := r'
  obtain ⟨rfl, rfl, rfl, hsent, hbeyond⟩ := h
  cases ret with
  | invalidSession => exact ⟨rfl, .running hlen hbeyond⟩
  | validSession =>
      cases sendOk with
      | true =>
          refine ⟨congrArg (fun packet => some (packet, s.raddr)) ?_, .running hlen hbeyond⟩
          exact sentBytes_congr (hsent rfl)
      | false => exact ⟨rfl, .ended⟩

end After

section Halves

variable {s : VpnServer} {buf' : Buffer} (hlen : s.bufLen = maxBuf)
  (h : Set.EqOn s.buf buf' (Set.Ici 9000))
include hlen h

theorem serveClient_leftover {input : ClientInput}
    (hread : Event.ReadsComplete (.client input)) :
    (serveClient s input).2 = (serveClient { s with buf := buf' } input).2 ∧
      AlikeBuffers (serveClient s input).1 (serveClient { s with buf := buf' } input).1 := by
  cases hrecv : input.recv with
  | error =>
      have hend : ∀ s, serveClient s input = (none, none) := by
        intro s
        rw [serveClient, hrecv]
        rfl
      rw [hend, hend]
      exact ⟨rfl, .ended⟩
  | again =>
      have hidle : ∀ s, serveClient s input = (some s, none) := by
        intro s
        rw [serveClient, hrecv]
        rfl
      rw [hidle, hidle]
      exact ⟨rfl, .running hlen h⟩
  | datagram src payload =>
      have hbeyond := received_beyond h payload
      rw [← hlen] at hbeyond
      rcases Nat.eq_zero_or_pos (payload.take s.bufLen).length with hzero | hpos
      · rw [serveClient_empty s hrecv hzero, serveClient_empty { s with buf := buf' } hrecv hzero]
        exact ⟨rfl, @AlikeBuffers.running { s with buf := _, raddr := src } _ hlen hbeyond⟩
      · rw [serveClient_datagram s hrecv hpos,
          serveClient_datagram { s with buf := buf' } hrecv hpos]
        refine afterClient_alike (s := { s with raddr := src }) hlen ?_ buf' input.sendOk
        have hcomplete := hread .client payload (by rw [Event.packet, hrecv]) (by rwa [← hlen])
        rw [hlen] at hbeyond ⊢
        exact hcomplete.sameHandling (received_eqOn s.buf _ payload)
          (received_eqOn buf' _ payload) hbeyond s.machine input.count s.localIp

theorem serveWorld_leftover {input : WorldInput} (hread : Event.ReadsComplete (.world input)) :
    (serveWorld s input).2 = (serveWorld { s with buf := buf' } input).2 ∧
      AlikeBuffers (serveWorld s input).1 (serveWorld { s with buf := buf' } input).1 := by
  obtain ⟨hret, hbeyond⟩ : (rawRead s input).1 = (rawRead { s with buf := buf' } input).1 ∧
      Set.EqOn (rawRead s input).2 (rawRead { s with buf := buf' } input).2 (Set.Ici 9000) := by
    unfold rawRead
    rw [hlen]
    exact getIpPacket_congr h _ _ _ _
  rw [serveWorld_eq, serveWorld_eq, ← hret]
  split
  · exact ⟨rfl, .ended⟩
  split
  · exact ⟨rfl, @AlikeBuffers.running { s with buf := _ } _ hlen hbeyond⟩
  next hvalid hnonzero =>
    -- the same frame is taken from both buffers
    cases htaken : input.taken with
    | none =>
        have := getIpPacket_of_none htaken s.buf s.bufLen input.recvError
        rw [← rawRead] at this
        omega
    | some frame =>
        obtain ⟨prev, hbuf⟩ := getIpPacket_of_taken htaken s.buf s.bufLen input.recvError
        obtain ⟨prev', hbuf'⟩ := getIpPacket_of_taken htaken buf' s.bufLen input.recvError
        have hread₁ : rawRead s input = _ := hbuf
        have hread₂ : rawRead { s with buf := buf' } input = _ := hbuf'
        rw [hread₁] at hnonzero
        rw [hread₁, hread₂] at hbeyond
        rw [hread₁, hread₂]
        dsimp only at hbeyond hnonzero ⊢
        rw [Int.toNat_natCast]
        refine afterWorld_alike hlen ?_ buf' input.sendOk
        have hpacket : (Event.world input).packet = some (.world, frame.payload) := by
          rw [Event.packet, htaken, Option.map_some]
        have hcomplete := hread .world frame.payload hpacket (by rw [← hlen]; omega)
        rw [hlen] at hbeyond ⊢
        exact hcomplete.sameHandling (received_eqOn prev _ frame.payload)
          (received_eqOn prev' _ frame.payload) hbeyond s.machine 0 0

end Halves

/-- A half that reads a complete packet sends the same whatever the buffer holds. -/
theorem AlikeBuffers.transmitted_eq {st st' : Option VpnServer} (h : AlikeBuffers st st')
    {e : Event} (he : e.ReadsComplete) :
    transmitted st e = transmitted st' e ∧ AlikeBuffers (serve st e) (serve st' e) := by
  cases h with
  | ended => exact ⟨rfl, .ended⟩
  | running hlen h =>
      cases e with
      | client input =>
          obtain ⟨hsent, hnext⟩ := serveClient_leftover hlen h he
          exact ⟨by rw [transmitted, transmitted, hsent], hnext⟩
      | world input =>
          obtain ⟨hsent, hnext⟩ := serveWorld_leftover hlen h he
          exact ⟨by rw [transmitted, transmitted, hsent], hnext⟩

theorem AlikeBuffers.run {st st' : Option VpnServer} (h : AlikeBuffers st st')
    {events : List Event} (hevents : ∀ e ∈ events, e.ReadsComplete) :
    AlikeBuffers (exec serve st events) (exec serve st' events) := by
  induction events generalizing st st' with
  | nil => exact h
  | cons e events ih =>
      exact ih (h.transmitted_eq (hevents e List.mem_cons_self)).2
        fun e' he' => hevents e' (List.mem_cons_of_mem e he')

theorem AlikeBuffers.isSome_iff {st st' : Option VpnServer} (h : AlikeBuffers st st') :
    st.isSome ↔ st'.isSome := by
  cases h with
  | ended => exact Iff.rfl
  | running _ _ => exact Iff.rfl

/-- What earlier packets leave in the buffer cannot be observed, as long as the packets that
arrive are complete: two servers that differ in nothing but the contents of their buffers send the
same packets to the same addresses, and end at the same time. -/
theorem leftover_unobservable (s : VpnServer) (hlen : s.bufLen = maxBuf) {buf' : Buffer}
    (hbeyond : ∀ i, 9000 ≤ i → buf' i = s.buf i) {events : List Event}
    (hevents : ∀ e ∈ events, e.ReadsComplete) :
    let s' := { s with buf := buf' }
    observe (fun _ => true) serve transmitted (some s) events =
        observe (fun _ => true) serve transmitted (some s') events ∧
      ((exec serve (some s) events).isSome ↔ (exec serve (some s') events).isSome) := by
  intro s'
  have hstart : AlikeBuffers (some s) (some s') :=
    .running hlen fun i hi => (hbeyond i (Set.mem_Ici.1 hi)).symm
  constructor
  · exact observe_eq (fun st st' e he h => h.transmitted_eq (hevents e he)) hstart
  · exact (hstart.run hevents).isSome_iff

/-- The rest of a handshake that is received in full. -/
def answers : List Event :=
  [.world (frameOf (packetOf sampleSynAck)),
    .client (datagramOf clientAddress (packetOf sampleAck))]

theorem answers_complete : ∀ e ∈ answers, e.ReadsComplete := by
  intro e he sender payload hpacket hpos
  rcases List.mem_pair.1 he with rfl | rfl
  · obtain ⟨rfl, rfl⟩ := Prod.mk.inj (Option.some.inj hpacket)
    exact Or.inr ⟨by decide +kernel, Or.inr (by decide +kernel)⟩
  · obtain ⟨rfl, rfl⟩ := Prod.mk.inj (Option.some.inj hpacket)
    exact Or.inr ⟨by decide +kernel, Or.inr (by decide +kernel)⟩

/-- The buffer is filled with ones before they arrive. -/
theorem leftover_unobservable_handshake :
    let s' := { openedServer with
      buf := fun i => if i < 9000 then 0xff else openedServer.buf i }
    observe (fun _ => true) serve transmitted (some openedServer) answers =
        observe (fun _ => true) serve transmitted (some s') answers ∧
      ((exec serve (some openedServer) answers).isSome ↔ (exec serve (some s') answers).isSome) :=
  leftover_unobservable openedServer (by decide +kernel) (fun i hi => if_neg (not_lt.2 hi))
    answers_complete

end BenkerVpn

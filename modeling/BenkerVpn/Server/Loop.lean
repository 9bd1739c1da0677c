import BenkerVpn.Library.Runs
import BenkerVpn.Model.Server
import BenkerVpn.Handler.Translation

/-!
# Runs of the server loop

A run of the loop is a run of its halves (`exec_iteration`), and the halves may be taken in any
order and number, since a half that finds nothing on its socket does nothing (`exists_iterations`).
`ClientHalf` and `WorldHalf` list everything a half can do. It changes the session table by at most
one call of a handler, so the table of the running server is always a NAT bijection
(`natBijection_of_serve`). The loop never cleans the table, so an address that has been given a port
keeps it for as long as the server runs (`translation_le_of_serve`).
-/

set_option autoImplicit false

namespace BenkerVpn

open Library.Runs

/-! ## The buffer -/

theorem received_of_lt (buf : Buffer) (size : Nat) (payload : List UInt8) {i : Nat}
    (hi : i < (payload.take size).length) :
    received buf size payload i = (payload.take size)[i] := by
  rw [received, List.getElem?_eq_getElem hi, Option.getD_some]

theorem received_of_ge (buf : Buffer) (size : Nat) (payload : List UInt8) {i : Nat}
    (hi : (payload.take size).length ≤ i) : received buf size payload i = buf i := by
  rw [received, List.getElem?_eq_none hi, Option.getD_none]

/-- What exceeds the size is lost. -/
theorem received_take (buf : Buffer) (size : Nat) (payload : List UInt8) :
    received buf size (payload.take size) = received buf size payload := by
  funext i
  rw [received, received, List.take_take, Nat.min_self]

theorem length_sentBytes (b : Buffer) (n : Nat) : (sentBytes b n).length = n := by
  rw [sentBytes, List.length_map, List.length_range]

/-- What was received is read back. -/
theorem sentBytes_received (buf : Buffer) (size : Nat) (payload : List UInt8) :
    sentBytes (received buf size payload) (payload.take size).length = payload.take size := by
  apply List.ext_getElem
  · rw [length_sentBytes]
  · intro i _ hi
    simp only [sentBytes, List.getElem_map, List.getElem_range]
    exact received_of_lt buf size payload hi

theorem sentBytes_congr {b b' : Buffer} {n : Nat} (h : Set.EqOn b b' (Set.Iio n)) :
    sentBytes b n = sentBytes b' n := by
  apply List.map_congr_left
  intro i hi
  exact h (Set.mem_Iio.2 (List.mem_range.1 hi))

/-! ## Frames -/

/-- What a half reads from the raw socket. -/
def rawRead (s : VpnServer) (input : WorldInput) : Int × Buffer :=
  getIpPacket s.buf s.bufLen input.recvError input.sockLen input.ll input.frames

/-- The address of a frame for this host. -/
def SockaddrLl.ForHost (ll : SockaddrLl) : Prop := ll.sllPkttype = packetHost ∧ 0 < ll.sllHalen

instance SockaddrLl.decidableForHost (ll : SockaddrLl) : Decidable ll.ForHost :=
  inferInstanceAs (Decidable (_ ∧ _))

theorem SockaddrLl.not_forHost_iff (ll : SockaddrLl) :
    ¬ ll.ForHost ↔ ll.sllPkttype ≠ packetHost ∨ ll.sllHalen ≤ 0 := by
  rw [SockaddrLl.ForHost, not_and_or, UInt8.not_lt]

/-- The frame that `get_ip_packet` takes: the first one that is for this host, going by what stands
in `_ll` once its address has been stored. -/
def takenFrame (sockLen : Int) (ll : SockaddrLl) : List RawFrame → Option RawFrame
  | [] => none
  | frame :: frames =>
      if sockLen < 0 then none
      else if (storeAddress sockLen ll frame).ForHost then some frame
      else takenFrame (addressLen frame) (storeAddress sockLen ll frame) frames

def WorldInput.taken (input : WorldInput) : Option RawFrame :=
  takenFrame input.sockLen input.ll input.frames

theorem addressLen_ge (frame : RawFrame) : 12 ≤ addressLen frame := by
  rw [addressLen]
  omega

/-- With room for the two fields nothing of the earlier contents is looked at. -/
theorem storeAddress_eq {sockLen : Int} (h : 12 ≤ sockLen) (ll : SockaddrLl) (frame : RawFrame) :
    storeAddress sockLen ll frame = frame.toSockaddrLl := by
  rw [storeAddress, if_pos h, if_pos (by omega)]

section Taken

variable {sockLen : Int} {ll : SockaddrLl} {frames : List RawFrame} {frame : RawFrame}

/-- The taken frame is for this host, except that the first frame is judged by the earlier contents
of `_ll` if `sock_len` leaves no room for the two fields. -/
theorem forHost_of_taken (h : takenFrame sockLen ll frames = some frame) :
    frame ∈ frames ∧ (frame.ForHost ∨ frames.head? = some frame ∧ sockLen < 12 ∧
      (storeAddress sockLen ll frame).ForHost) := by
  induction frames generalizing sockLen ll with
  | nil => cases h
  | cons first frames ih =>
      rw [takenFrame] at h
      split at h
      · cases h
      split at h
      case isTrue hhost =>
        obtain rfl := Option.some.inj h
        refine ⟨List.mem_cons_self, ?_⟩
        rcases lt_or_ge sockLen 12 with hshort | hroom
        · exact Or.inr ⟨rfl, hshort, hhost⟩
        · rw [storeAddress_eq hroom] at hhost
          exact Or.inl hhost
      case isFalse hskip =>
        -- from the second frame on there is room
        obtain ⟨hmem, hhost | ⟨-, hshort, -⟩⟩ := ih h
        · exact ⟨List.mem_cons_of_mem _ hmem, Or.inl hhost⟩
        · exact absurd (addressLen_ge first) (not_le.2 hshort)

/-- With room for the fields the frames for other hosts are skipped. -/
theorem takenFrame_skipped (hroom : 12 ≤ sockLen) {skipped : List RawFrame}
    (hskipped : ∀ f ∈ skipped, ¬ f.ForHost) (hhost : frame.ForHost) (rest : List RawFrame) :
    takenFrame sockLen ll (skipped ++ frame :: rest) = some frame := by
  induction skipped generalizing sockLen ll with
  | nil =>
      rw [List.nil_append, takenFrame, if_neg (by omega), storeAddress_eq hroom, if_pos hhost]
  | cons f skipped ih =>
      rw [List.cons_append, takenFrame, if_neg (by omega), storeAddress_eq hroom,
        if_neg (hskipped f List.mem_cons_self)]
      exact ih (addressLen_ge f) fun f' hf' => hskipped f' (List.mem_cons_of_mem _ hf')

theorem getIpPacket_of_taken (h : takenFrame sockLen ll frames = some frame) (buf : Buffer)
    (size : Nat) (error : Bool) :
    ∃ prev, getIpPacket buf size error sockLen ll frames =
      (((frame.payload.take size).length : Int), received prev size frame.payload) := by
  induction frames generalizing sockLen ll buf with
  | nil => cases h
  | cons first frames ih =>
      rw [takenFrame] at h
      rw [getIpPacket]
      split at h
      · cases h
      next hvalid =>
        dsimp only
        rw [if_neg hvalid]
        split at h
        case isTrue hhost =>
          obtain rfl := Option.some.inj h
          rw [if_neg fun hskip => (SockaddrLl.not_forHost_iff _).2 hskip hhost]
          exact ⟨buf, rfl⟩
        case isFalse hskip =>
          rw [if_pos ((SockaddrLl.not_forHost_iff _).1 hskip)]
          exact ih h _

theorem getIpPacket_of_none (h : takenFrame sockLen ll frames = none) (buf : Buffer) (size : Nat)
    (error : Bool) : (getIpPacket buf size error sockLen ll frames).1 ≤ 0 := by
  induction frames generalizing sockLen ll buf with
  | nil =>
      rw [getIpPacket]
      cases error with
      | true => exact (by decide : (-1 : Int) ≤ 0)
      | false => exact le_refl 0
  | cons first frames ih =>
      rw [takenFrame] at h
      rw [getIpPacket]
      dsimp only
      split at h
      case isTrue hinvalid =>
        rw [if_pos hinvalid]
        exact (by decide : (-1 : Int) ≤ 0)
      case isFalse hvalid =>
        rw [if_neg hvalid]
        split at h
        · cases h
        next hskip =>
          rw [if_pos ((SockaddrLl.not_forHost_iff _).1 hskip)]
          exact ih h _

end Taken

/-- What a half gets from the raw socket: the frame it takes, or nothing. -/
theorem rawRead_taken (s : VpnServer) (input : WorldInput) :
    (rawRead s input).1 ≤ 0 ∨ ∃ frame prev, input.taken = some frame ∧
      rawRead s input = (((frame.payload.take s.bufLen).length : Int),
        received prev s.bufLen frame.payload) := by
  cases htaken : input.taken with
  | none => exact Or.inl (getIpPacket_of_none htaken _ _ _)
  | some frame =>
      obtain ⟨prev, hread⟩ := getIpPacket_of_taken htaken s.buf s.bufLen input.recvError
      exact Or.inr ⟨frame, prev, rfl, hread⟩

/-! ## Iterations and halves -/

/-- The two halves of an iteration. -/
def halves (input : ClientInput × WorldInput) : List Event := [.client input.1, .world input.2]

/-- Nothing happens after the program has ended. -/
theorem exec_serve_none (events : List Event) : exec serve none events = none := by
  induction events with
  | nil => rfl
  | cons e events ih =>
      rw [exec_cons]
      exact ih

theorem iteration_eq (st : Option VpnServer) (input : ClientInput × WorldInput) :
    iteration st input = exec serve st (halves input) := by
  cases st with
  | none => exact (exec_serve_none _).symm
  | some s =>
      show (serveClient s input.1).1.bind _ = serve (serveClient s input.1).1 (.world input.2)
      cases (serveClient s input.1).1 with
      | none => rfl
      | some s' => rfl

/-- A run of the loop is a run of its halves. -/
theorem exec_iteration (st : Option VpnServer) (inputs : List (ClientInput × WorldInput)) :
    exec iteration st inputs = exec serve st (inputs.flatMap halves) := by
  induction inputs generalizing st with
  | nil => rfl
  | cons input inputs ih =>
      rw [exec_cons, List.flatMap_cons, exec_append, ← iteration_eq]
      exact ih _

/-- A half that finds no datagram. -/
def idleClient : ClientInput where
  recv := .again
  count := 0
  sendOk := true

/-- A half that finds no frame. -/
def idleWorld : WorldInput where
  frames := []
  recvError := false
  sockLen := 0
  ll := ⟨0, 0⟩
  sendOk := true

theorem serve_idleClient (st : Option VpnServer) : serve st (.client idleClient) = st := by
  cases st with
  | none => rfl
  | some s => rfl

theorem serve_idleWorld (st : Option VpnServer) : serve st (.world idleWorld) = st := by
  cases st with
  | none => rfl
  | some s => rfl

/-- The iteration in which only the given half finds something. -/
def alone : Event → ClientInput × WorldInput
  | .client input => (input, idleWorld)
  | .world input => (idleClient, input)

theorem iteration_alone (st : Option VpnServer) (e : Event) :
    iteration st (alone e) = serve st e := by
  rw [iteration_eq]
  cases e with
  | client input => exact serve_idleWorld _
  | world input =>
      show serve (serve st (.client idleClient)) (.world input) = serve st (.world input)
      rw [serve_idleClient]

/-- The packets of the two sockets may come in any order: every sequence of halves is what some run
of the loop does. -/
theorem exists_iterations (st : Option VpnServer) (events : List Event) :
    exec iteration st (events.map alone) = exec serve st events := by
  induction events generalizing st with
  | nil => rfl
  | cons e events ih =>
      rw [List.map_cons, exec_cons, exec_cons, iteration_alone]
      exact ih _

/-! ## What a half can do -/

/-- The first half behind the handler. -/
def afterClient (s : VpnServer) (r : Handled) (readLen : Nat) (sendOk : Bool) :
    Option VpnServer × Option (List UInt8) :=
  let s := { s with buf := r.buffer, machine := r.machine }
  match r.ret with
  | .invalidSession => (some s, none)
  | .validSession =>
      let s := { s with machine := printSessionHashTable s.machine }
      if sendOk then (some s, some (sentBytes s.buf readLen)) else (none, none)

/-- Of an empty datagram only the source is kept. -/
theorem serveClient_empty (s : VpnServer) {input : ClientInput} {src : SockaddrIn}
    {payload : List UInt8} (hrecv : input.recv = .datagram src payload)
    (hzero : (payload.take s.bufLen).length = 0) :
    serveClient s input =
      (some { s with buf := received s.buf s.bufLen payload, raddr := src }, none) := by
  rw [serveClient, hrecv]
  dsimp only [readMsgUdp]
  rw [if_neg (by omega), if_pos (by omega)]

theorem serveClient_datagram (s : VpnServer) {input : ClientInput} {src : SockaddrIn}
    {payload : List UInt8} (hrecv : input.recv = .datagram src payload)
    (hpos : 0 < (payload.take s.bufLen).length) :
    serveClient s input =
      afterClient { s with raddr := src }
        (handleClientPacket s.machine input.count (received s.buf s.bufLen payload) s.bufLen
          s.localIp) (payload.take s.bufLen).length input.sendOk := by
  rw [serveClient, hrecv]
  dsimp only [readMsgUdp]
  rw [if_neg (by omega), if_neg (by omega), Int.toNat_natCast]
  rfl

/-- The second half behind the handler. -/
def afterWorld (s : VpnServer) (r : Handled) (readLen : Nat) (sendOk : Bool) :
    Option VpnServer × Option (List UInt8 × SockaddrIn) :=
  let s := { s with
    buf := r.buffer
    machine := r.machine
    clientIp := r.clientIp.getD s.clientIp }
  match r.ret with
  | .invalidSession => (some s, none)
  | .validSession =>
      if sendOk then (some s, some (sentBytes s.buf readLen, s.raddr)) else (none, none)

/-- The second half reads the raw socket and answers what it has read. -/
theorem serveWorld_eq (s : VpnServer) (input : WorldInput) :
    serveWorld s input =
      if (rawRead s input).1 < 0 then (none, none)
      else if (rawRead s input).1 = 0 then (some { s with buf := (rawRead s input).2 }, none)
      else afterWorld s (handleWorldPacket s.machine (rawRead s input).2 s.bufLen)
        (rawRead s input).1.toNat input.sendOk := rfl

/-- The source of the datagram that a half reads. -/
def Event.source : Event → Option SockaddrIn
  | .client input =>
      match input.recv with
      | .datagram src _ => some src
      | _ => none
  | .world _ => none

/-! ### The outcomes of a half -/

section Outcomes

variable (s : VpnServer)

/-- The handler's answer to a datagram. -/
def clientHandled (count : Int) (payload : List UInt8) : Handled :=
  handleClientPacket s.machine count (received s.buf s.bufLen payload) s.bufLen s.localIp

/-- Everything the first half can do: the server and the packet sent to the world. -/
inductive ClientHalf (input : ClientInput) : Option VpnServer → Option (List UInt8) → Prop where
  | ended : ClientHalf input none none
  | idle (buf : Buffer) (raddr : SockaddrIn)
      (hraddr : raddr = (Event.client input).source.getD s.raddr)
      (hnone : ∀ src payload, input.recv = .datagram src payload → payload.take s.bufLen = []) :
      ClientHalf input (some { s with buf := buf, raddr := raddr }) none
  | rejected (src : SockaddrIn) (payload : List UInt8) (hrecv : input.recv = .datagram src payload)
      (hpos : payload.take s.bufLen ≠ [])
      (hret : (clientHandled s input.count payload).ret = .invalidSession) :
      ClientHalf input
        (some { s with
          buf := (clientHandled s input.count payload).buffer
          raddr := src
          machine := (clientHandled s input.count payload).machine }) none
  | accepted (src : SockaddrIn) (payload : List UInt8) (hrecv : input.recv = .datagram src payload)
      (hpos : payload.take s.bufLen ≠ [])
      (hret : (clientHandled s input.count payload).ret = .validSession) :
      ClientHalf input
        (some { s with
          buf := (clientHandled s input.count payload).buffer
          raddr := src
          machine := printSessionHashTable (clientHandled s input.count payload).machine })
        (some (sentBytes (clientHandled s input.count payload).buffer
          (payload.take s.bufLen).length))

theorem serveClient_half (input : ClientInput) :
    ClientHalf s input (serveClient s input).1 (serveClient s input).2 := by
  cases hrecv : input.recv with
  | error =>
      rw [serveClient, hrecv]
      exact .ended
  | again =>
      rw [serveClient, hrecv]
      refine .idle s.buf s.raddr (by rw [Event.source, hrecv]; rfl) fun src payload h => ?_
      rw [hrecv] at h
      cases h
  | datagram src payload =>
      rcases Nat.eq_zero_or_pos (payload.take s.bufLen).length with hzero | hlen
      · rw [serveClient_empty s hrecv hzero]
        refine .idle _ src (by rw [Event.source, hrecv]; rfl) fun src' payload' h => ?_
        rw [hrecv] at h
        cases h
        exact List.length_eq_zero_iff.1 hzero
      · have hpos : payload.take s.bufLen ≠ [] := List.length_pos_iff.1 hlen
        rw [serveClient_datagram s hrecv hlen, ← clientHandled, afterClient]
        cases hret : (clientHandled s input.count payload).ret with
        | invalidSession => exact .rejected src payload hrecv hpos hret
        | validSession =>
            dsimp only
            split
            · exact .accepted src payload hrecv hpos hret
            · exact .ended

/-- The handler's answer to what the half reads from the raw socket. -/
def worldHandled (input : WorldInput) : Handled :=
  handleWorldPacket s.machine (rawRead s input).2 s.bufLen

/-- Everything the second half can do: the server and the packet sent to the client. -/
inductive WorldHalf (input : WorldInput) :
    Option VpnServer → Option (List UInt8 × SockaddrIn) → Prop where
  | ended : WorldHalf input none none
  | idle (buf : Buffer) (hnone : (rawRead s input).1 = 0) :
      WorldHalf input (some { s with buf := buf }) none
  | rejected (frame : RawFrame) (htaken : input.taken = some frame)
      (hread : 0 < (rawRead s input).1) (hpos : frame.payload.take s.bufLen ≠ [])
      (hret : (worldHandled s input).ret = .invalidSession) :
      WorldHalf input
        (some { s with
          buf := (worldHandled s input).buffer
          machine := (worldHandled s input).machine
          clientIp := (worldHandled s input).clientIp.getD s.clientIp }) none
  | accepted (frame : RawFrame) (htaken : input.taken = some frame)
      (hread : 0 < (rawRead s input).1) (hpos : frame.payload.take s.bufLen ≠ [])
      (hret : (worldHandled s input).ret = .validSession) :
      WorldHalf input
        (some { s with
          buf := (worldHandled s input).buffer
          machine := (worldHandled s input).machine
          clientIp := (worldHandled s input).clientIp.getD s.clientIp })
        (some (sentBytes (worldHandled s input).buffer (frame.payload.take s.bufLen).length,
          s.raddr))

theorem serveWorld_half (input : WorldInput) :
    WorldHalf s input (serveWorld s input).1 (serveWorld s input).2 := by
  rw [serveWorld_eq]
  rcases rawRead_taken s input with hnone | ⟨frame, prev, htaken, hread⟩
  · split
    · exact .ended
    · have hzero : (rawRead s input).1 = 0 := by omega
      rw [if_pos hzero]
      exact .idle _ hzero
  · have hlen : (rawRead s input).1 = ((frame.payload.take s.bufLen).length : Int) := by rw [hread]
    rw [if_neg (by omega)]
    split
    next hzero => exact .idle _ hzero
    next hnonzero =>
      have hlt : 0 < (rawRead s input).1 := by omega
      have hpos : frame.payload.take s.bufLen ≠ [] := List.length_pos_iff.1 (by omega)
      rw [hlen, Int.toNat_natCast, ← worldHandled, afterWorld]
      cases hret : (worldHandled s input).ret with
      | invalidSession => exact .rejected frame htaken hlt hpos hret
      | validSession =>
          dsimp only
          split
          · exact .accepted frame htaken hlt hpos hret
          · exact .ended

end Outcomes

/-- What a half that does not end the program does to the server. -/
structure Served (s : VpnServer) (e : Event) (s' : VpnServer) : Prop where
  localIp : s'.localIp = s.localIp
  bufLen : s'.bufLen = s.bufLen
  raddr : s'.raddr = e.source.getD s.raddr
  machine : s'.machine = s.machine ∨ ∃ c : Call, c.IsPacket ∧
    (s'.machine = perform s.machine c ∨ s'.machine = printSessionHashTable (perform s.machine c))

theorem serveClient_served {s s' : VpnServer} {input : ClientInput}
    (h : (serveClient s input).1 = some s') : Served s (.client input) s' := by
  have hhalf := serveClient_half s input
  rw [h] at hhalf
  generalize (serveClient s input).2 = sent at hhalf
  cases hhalf with
  | idle buf raddr hraddr hnone => exact ⟨rfl, rfl, hraddr, Or.inl rfl⟩
  | rejected src payload hrecv hpos hret =>
      have hraddr : src = (Event.client input).source.getD s.raddr := by
        rw [Event.source, hrecv]
        rfl
      exact ⟨rfl, rfl, hraddr, Or.inr ⟨.client _ _ _ _, trivial, Or.inl rfl⟩⟩
  | accepted src payload hrecv hpos hret =>
      have hraddr : src = (Event.client input).source.getD s.raddr := by
        rw [Event.source, hrecv]
        rfl
      exact ⟨rfl, rfl, hraddr, Or.inr ⟨.client _ _ _ _, trivial, Or.inr rfl⟩⟩

theorem serveWorld_served {s s' : VpnServer} {input : WorldInput}
    (h : (serveWorld s input).1 = some s') : Served s (.world input) s' := by
  have hhalf := serveWorld_half s input
  rw [h] at hhalf
  generalize (serveWorld s input).2 = sent at hhalf
  cases hhalf with
  | idle buf hnone => exact ⟨rfl, rfl, rfl, Or.inl rfl⟩
  | rejected frame htaken hread hpos hret =>
      exact ⟨rfl, rfl, rfl, Or.inr ⟨.world _ _, trivial, Or.inl rfl⟩⟩
  | accepted frame htaken hread hpos hret =>
      exact ⟨rfl, rfl, rfl, Or.inr ⟨.world _ _, trivial, Or.inl rfl⟩⟩

theorem serve_served {s s' : VpnServer} {e : Event} (h : serve (some s) e = some s') :
    Served s e s' := by
  cases e with
  | client input => exact serveClient_served h
  | world input => exact serveWorld_served h

/-- A run that has not ended the program has not ended it in its first half. -/
theorem exec_serve_cons {s s' : VpnServer} {e : Event} {events : List Event}
    (h : exec serve (some s) (e :: events) = some s') :
    ∃ t, serve (some s) e = some t ∧ exec serve (some t) events = some s' := by
  rw [exec_cons] at h
  cases he : serve (some s) e with
  | none =>
      rw [he, exec_serve_none] at h
      cases h
  | some t =>
      rw [he] at h
      exact ⟨t, rfl, h⟩

/-- An invariant of every half is an invariant of every run in which the program has not ended. -/
theorem invariant_serve (Inv : VpnServer → Prop)
    (hstep : ∀ s e s', Inv s → serve (some s) e = some s' → Inv s') {s s' : VpnServer}
    {events : List Event} (hs : Inv s) (h : exec serve (some s) events = some s') : Inv s' := by
  induction events generalizing s with
  | nil =>
      obtain rfl := Option.some.inj h
      exact hs
  | cons e events ih =>
      obtain ⟨t, he, ht⟩ := exec_serve_cons h
      exact ih (hstep s e t hs he) ht

/-! ## The table of the server -/

/-- The range of ports of the server. -/
def serverPool : PortPool where
  numEntry := 200
  minPort := 40000
  maxPort := 41000
  numEntry_pos := by decide
  minPort_le := by decide
  size_le := by decide

theorem initVpnServer_fresh (s : VpnServer) : Fresh serverPool (initVpnServer s).machine := rfl

section Table

variable {pool : PortPool} {s s' : VpnServer}

/-- A half keeps the invariant of the table. -/
theorem Served.natInvariant {e : Event} (h : Served s e s') (hs : NatInvariant pool s.machine) :
    NatInvariant pool s'.machine := by
  rcases h.machine with hm | ⟨c, hc, hm⟩
  · rw [hm]
    exact hs
  · have hper : NatInvariant pool (perform s.machine c) := by
      apply hs.perform c
      rintro rfl
      exact hc.elim
    rcases hm with hm | hm
    · rw [hm]
      exact hper
    · rw [hm]
      exact hper.tick _

theorem natInvariant_of_serve {events : List Event} (hs : NatInvariant pool s.machine)
    (h : exec serve (some s) events = some s') : NatInvariant pool s'.machine :=
  invariant_serve (fun t => NatInvariant pool t.machine)
    (fun _ _ _ ht he => (serve_served he).natInvariant ht) hs h

/-- Whatever the sockets deliver, the table of the running server is a NAT bijection. -/
theorem natBijection_of_serve {events : List Event}
    (h : exec serve (some (initVpnServer s)) events = some s') :
    NatBijection serverPool s'.machine :=
  (natInvariant_of_serve (initVpnServer_fresh s).natInvariant h).natBijection

/-- A half keeps the translation of the addresses that are bound. -/
theorem Served.translation_le {e : Event} (h : Served s e s') (hs : NatInvariant pool s.machine)
    (hs' : NatInvariant pool s'.machine) : hs.translation ≤ hs'.translation := by
  rcases h.machine with hm | ⟨c, hc, hm⟩
  · exact (hs.translation_of_tick hs' (hm.trans (Machine.tick_zero _).symm)).ge
  · have hne : c ≠ .clean := by
      rintro rfl
      exact hc.elim
    have hper : NatInvariant pool (perform s.machine c) := hs.perform c fun e => absurd e hne
    apply (translation_grows hs hne hper).le.trans
    -- printing the table only reads the clock
    rcases hm with hm | hm
    · exact (hper.translation_of_tick hs' (hm.trans (Machine.tick_zero _).symm)).ge
    · exact (hper.translation_of_tick hs' hm).ge

/-- An address that has been given a port keeps it as long as the server runs. -/
theorem translation_le_of_serve {events : List Event} (hs : NatInvariant pool s.machine)
    (h : exec serve (some s) events = some s') (hs' : NatInvariant pool s'.machine) :
    hs.translation ≤ hs'.translation := by
  induction events generalizing s with
  | nil =>
      obtain rfl := Option.some.inj h
      exact le_refl _
  | cons e events ih =>
      obtain ⟨t, he, ht⟩ := exec_serve_cons h
      have hinv := (serve_served he).natInvariant hs
      exact ((serve_served he).translation_le hs hinv).trans (ih hinv ht)

end Table

end BenkerVpn

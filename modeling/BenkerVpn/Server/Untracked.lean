import BenkerVpn.Library.Observations
import BenkerVpn.Server.Reply

/-!
# Nothing depends on the connection state

The handlers follow the connection of every session through its `SYN` and `FIN` packets, but no
decision is made on what they find: two servers that differ in nothing but the tracked states of
their sessions send the same packets to the same addresses, whatever their sockets deliver
(`tracking_unobservable`). So a packet is accepted in every state of its connection, also before the
handshake and after the close.
-/

set_option autoImplicit false

namespace BenkerVpn

open Library.Observations Library.Runs

/-- The machines differ at most in the connection state of their sessions. -/
structure AlikeMachine (m m' : Machine) : Prop where
  heap : ∀ p, SameIdentity (m.heap p) (m'.heap p)
  brk : m.brk = m'.brk
  table : m.table = m'.table
  clock : m.clock = m'.clock

theorem SameIdentity.symm {a b : TcpSession} (h : SameIdentity a b) : SameIdentity b a :=
  ⟨h.1.symm, h.2.1.symm, h.2.2.1.symm, h.2.2.2.symm⟩

section Table

variable {m m' : Machine}

theorem AlikeMachine.tick (h : AlikeMachine m m') (n : Nat) : AlikeMachine (m.tick n) (m'.tick n) :=
  ⟨h.heap, h.brk, h.table, by rw [Machine.tick, Machine.tick, h.clock]⟩

theorem AlikeMachine.setNextNum (h : AlikeMachine m m') (n : UInt32) :
    AlikeMachine (m.setNextNum n) (m'.setNextNum n) :=
  ⟨h.heap, h.brk, by rw [Machine.setNextNum, Machine.setNextNum, h.table], h.clock⟩

/-- Both machines store an object; what is stored may differ in the connection state. -/
theorem AlikeMachine.store (h : AlikeMachine m m') (s : SessionPtr) {v v' : TcpSession}
    (hv : SameIdentity v v') : AlikeMachine (m.store s v) (m'.store s v') := by
  refine ⟨fun p => ?_, h.brk, h.table, h.clock⟩
  by_cases hp : p = s
  · subst hp
    rwa [Machine.store_heap_self, Machine.store_heap_self]
  · rw [Machine.store_heap_of_ne _ _ hp, Machine.store_heap_of_ne _ _ hp]
    exact h.heap p

theorem AlikeMachine.createSession (h : AlikeMachine m m') (ip : UInt32) (port q : UInt16)
    (timeout : Int) :
    AlikeMachine (createSession m ip port q timeout) (createSession m' ip port q timeout) := by
  have hstore := (h.tick 1).store m.brk
    (SameIdentity.refl (newSession ip port q (m.clock 0 + timeout)))
  constructor
  case heap =>
    rw [BenkerVpn.createSession, BenkerVpn.createSession, ← h.brk, ← h.clock]
    exact hstore.heap
  case brk =>
    rw [BenkerVpn.createSession, BenkerVpn.createSession, ← h.brk]
  case table =>
    rw [BenkerVpn.createSession, BenkerVpn.createSession, ← h.brk, ← h.table]
  case clock => exact hstore.clock

/-- The lookups compare keys and ports only. -/
theorem searchByClient_congr {heap heap' : SessionPtr → TcpSession}
    (h : ∀ p, SameIdentity (heap p) (heap' p)) (list : List SessionPtr) (ip : UInt32)
    (port : UInt16) :
    searchTcpSessionByClient heap list ip port = searchTcpSessionByClient heap' list ip port := by
  induction list with
  | nil => rfl
  | cons p next ih =>
      rw [searchTcpSessionByClient, searchTcpSessionByClient, (h p).1, (h p).2.1, ih]

theorem searchByServer_congr {heap heap' : SessionPtr → TcpSession}
    (h : ∀ p, SameIdentity (heap p) (heap' p)) (list : List SessionPtr) (port : UInt16) :
    searchTcpSessionByServer heap list port = searchTcpSessionByServer heap' list port := by
  induction list with
  | nil => rfl
  | cons p next ih =>
      rw [searchTcpSessionByServer, searchTcpSessionByServer, (h p).2.2.1, ih]

theorem AlikeMachine.getByClient (h : AlikeMachine m m') (ip : UInt32) (port : UInt16) :
    getTcpSessionByClient m ip port = getTcpSessionByClient m' ip port := by
  rw [getTcpSessionByClient, getTcpSessionByClient, h.table, searchByClient_congr h.heap]

theorem AlikeMachine.getByServer (h : AlikeMachine m m') (port : UInt16) :
    getTcpSessionByServer m port = getTcpSessionByServer m' port := by
  rw [getTcpSessionByServer, getTcpSessionByServer, h.table, searchByServer_congr h.heap]

theorem AlikeMachine.searchPort (h : AlikeMachine m m') (count : Int) (n : UInt32) :
    searchPort m count n = searchPort m' count n := by
  have hfree : freeAt m n = freeAt m' n := by
    funext k
    rw [freeAt, freeAt, h.table, h.getByServer]
  rw [searchPort_eq_search, searchPort_eq_search, hfree, h.table]

theorem AlikeMachine.expired (h : AlikeMachine m m') (p : SessionPtr) :
    expiredAt m.heap (m.clock 0) p = expiredAt m'.heap (m'.clock 0) p := by
  rw [expiredAt, expiredAt, (h.heap p).2.2.2, h.clock]

end Table

/-! ## The handlers -/

/-- Equal results, and machines that differ at most in the connection state. -/
def AlikeResult {α : Type} (r r' : α × Machine) : Prop := r.1 = r'.1 ∧ AlikeMachine r.2 r'.2

section Handlers

variable {m m' : Machine} (h : AlikeMachine m m')
include h

theorem addTcpSession_alike (count : Int) (ip : UInt32) (port : UInt16) (timeout : Int) :
    AlikeResult (addTcpSession m count ip port timeout)
      (addTcpSession m' count ip port timeout) := by
  rw [addTcpSession, addTcpSession, h.getByClient, ← h.table, h.searchPort]
  split
  · exact ⟨rfl, h⟩
  · split
    · exact ⟨rfl, h.setNextNum _⟩
    · exact ⟨congrArg some h.brk, (h.setNextNum _).createSession ip port _ timeout⟩

/-- The end of both handlers: the session found is used unless it has expired. -/
theorem use_alike (p : SessionPtr) {f : TcpSession → TcpSession}
    (hf : ∀ v, SameIdentity (f v) v) :
    AlikeResult
      (match sessionExpired m p with
        | (true, m) => ((none : Option SessionPtr), m)
        | (false, m) => (some p, m.store p (f (m.heap p))))
      (match sessionExpired m' p with
        | (true, m) => (none, m)
        | (false, m) => (some p, m.store p (f (m.heap p)))) := by
  rw [sessionExpired, sessionExpired, h.expired]
  cases expiredAt m'.heap (m'.clock 0) p with
  | true => exact ⟨rfl, h.tick 1⟩
  | false =>
      refine ⟨rfl, (h.tick 1).store p ?_⟩
      exact ((hf _).trans (h.heap p)).trans (SameIdentity.symm (hf _))

theorem acceptClient_alike (count : Int) (seg : Segment) :
    AlikeResult (acceptClient m count seg) (acceptClient m' count seg) := by
  have hsession : AlikeResult (clientSession m count seg) (clientSession m' count seg) := by
    rw [clientSession, clientSession, h.getByClient]
    split
    · exact addTcpSession_alike h count seg.saddr seg.source 10
    · exact ⟨rfl, h⟩
  obtain ⟨hptr, hmachine⟩ := hsession
  rw [acceptClient, acceptClient]
  rcases hm : clientSession m count seg with ⟨s, m₁⟩
  rcases hm' : clientSession m' count seg with ⟨s', m₁'⟩
  rw [hm, hm'] at hptr hmachine
  obtain rfl : s = s' := hptr
  cases s with
  | none => exact ⟨rfl, hmachine⟩
  | some p => exact use_alike hmachine p fun v => clientFlags_sameIdentity v seg

theorem acceptWorld_alike (seg : Segment) :
    AlikeResult (acceptWorld m seg) (acceptWorld m' seg) := by
  rw [acceptWorld, acceptWorld, h.getByServer]
  cases getTcpSessionByServer m' seg.dest with
  | none => exact ⟨rfl, h⟩
  | some p => exact use_alike h p fun v => worldFlags_sameIdentity v seg

/-- The caller gets the same from both handlers. -/
structure AlikeHandled (r r' : Handled) : Prop where
  ret : r.ret = r'.ret
  buffer : r.buffer = r'.buffer
  rstSize : r.rstSize = r'.rstSize
  clientIp : r.clientIp = r'.clientIp
  machine : AlikeMachine r.machine r'.machine

theorem handleClientPacket_alike (count : Int) (b : Buffer) (bufferLen : Int) (ip : UInt32) :
    AlikeHandled (handleClientPacket m count b bufferLen ip)
      (handleClientPacket m' count b bufferLen ip) := by
  cases hseg : segmentOf b bufferLen with
  | none =>
      rw [handleClientPacket_of_none _ _ _ _ _ hseg, handleClientPacket_of_none _ _ _ _ _ hseg]
      exact ⟨rfl, rfl, rfl, rfl, h⟩
  | some seg =>
      obtain ⟨hptr, hmachine⟩ := acceptClient_alike h count seg
      rcases hm : acceptClient m count seg with ⟨s, m₁⟩
      rcases hm' : acceptClient m' count seg with ⟨s', m₁'⟩
      rw [hm, hm'] at hptr hmachine
      obtain rfl : s = s' := hptr
      cases s with
      | none =>
          rw [handleClientPacket_of_rejected hseg ip hm, handleClientPacket_of_rejected hseg ip hm']
          exact ⟨rfl, rfl, rfl, rfl, hmachine⟩
      | some p =>
          rw [handleClientPacket_of_accepted hseg ip hm, handleClientPacket_of_accepted hseg ip hm']
          have hport : (m₁.heap p).serverPort = (m₁'.heap p).serverPort :=
            (hmachine.heap p).2.2.1
          exact ⟨rfl, congrArg (replaceSrcIpPort b ip) hport, rfl, rfl, hmachine⟩

theorem handleWorldPacket_alike (b : Buffer) (bufferLen : Int) :
    AlikeHandled (handleWorldPacket m b bufferLen) (handleWorldPacket m' b bufferLen) := by
  cases hseg : segmentOf b bufferLen with
  | none =>
      rw [handleWorldPacket_of_none _ _ _ hseg, handleWorldPacket_of_none _ _ _ hseg]
      exact ⟨rfl, rfl, rfl, rfl, h⟩
  | some seg =>
      obtain ⟨hptr, hmachine⟩ := acceptWorld_alike h seg
      rcases hm : acceptWorld m seg with ⟨s, m₁⟩
      rcases hm' : acceptWorld m' seg with ⟨s', m₁'⟩
      rw [hm, hm'] at hptr hmachine
      obtain rfl : s = s' := hptr
      cases s with
      | none =>
          rw [handleWorldPacket_of_rejected hseg hm, handleWorldPacket_of_rejected hseg hm']
          exact ⟨rfl, rfl, rfl, rfl, hmachine⟩
      | some p =>
          rw [handleWorldPacket_of_accepted hseg hm, handleWorldPacket_of_accepted hseg hm']
          obtain ⟨hip, hport, -, -⟩ := hmachine.heap p
          refine ⟨rfl, ?_, rfl, congrArg some hip, hmachine⟩
          show replaceDstIpPort b (m₁.heap p).clientIp (m₁.heap p).clientPort = _
          rw [hip, hport]

theorem printSessionHashTable_alike :
    AlikeMachine (printSessionHashTable m) (printSessionHashTable m') := by
  rw [printSessionHashTable, printSessionHashTable, h.table]
  exact h.tick _

end Handlers

/-! ## The server -/

/-- The servers differ at most in the connection state of their sessions. -/
inductive AlikeServer : Option VpnServer → Option VpnServer → Prop
  | ended : AlikeServer none none
  | running {s : VpnServer} {m' : Machine} (h : AlikeMachine s.machine m') :
      AlikeServer (some s) (some { s with machine := m' })

section Server

variable {s : VpnServer} {m' : Machine} (h : AlikeMachine s.machine m')
include h

theorem serveClient_alike (input : ClientInput) :
    (serveClient s input).2 = (serveClient { s with machine := m' } input).2 ∧
      AlikeServer (serveClient s input).1 (serveClient { s with machine := m' } input).1 := by
  rw [serveClient, serveClient]
  dsimp only
  obtain ⟨ret, buf, raddr⟩ := readMsgUdp s.buf s.bufLen s.raddr input.recv
  dsimp only
  split
  · exact ⟨rfl, .ended⟩
  · split
    · exact ⟨rfl, .running h⟩
    · have hr := handleClientPacket_alike h input.count buf s.bufLen s.localIp
      rw [← hr.ret, ← hr.buffer]
      split
      · exact ⟨rfl, .running hr.machine⟩
      · split
        · exact ⟨rfl, .running (printSessionHashTable_alike hr.machine)⟩
        · exact ⟨rfl, .ended⟩

theorem serveWorld_alike (input : WorldInput) :
    (serveWorld s input).2 = (serveWorld { s with machine := m' } input).2 ∧
      AlikeServer (serveWorld s input).1 (serveWorld { s with machine := m' } input).1 := by
  rw [serveWorld, serveWorld]
  dsimp only
  obtain ⟨ret, buf⟩ :=
    getIpPacket s.buf s.bufLen input.recvError input.sockLen input.ll input.frames
  dsimp only
  split
  · exact ⟨rfl, .ended⟩
  · split
    · exact ⟨rfl, .running h⟩
    · have hr := handleWorldPacket_alike h buf s.bufLen
      rw [← hr.ret, ← hr.buffer, ← hr.clientIp]
      split
      · exact ⟨rfl, .running hr.machine⟩
      · split
        · exact ⟨rfl, .running hr.machine⟩
        · exact ⟨rfl, .ended⟩

end Server

/-- A half sends the same from servers that are alike, and leaves them alike. -/
theorem AlikeServer.transmitted_eq {st st' : Option VpnServer} (h : AlikeServer st st')
    (e : Event) :
    transmitted st e = transmitted st' e ∧ AlikeServer (serve st e) (serve st' e) := by
  cases h with
  | ended => exact ⟨rfl, .ended⟩
  | running h =>
      cases e with
      | client input =>
          obtain ⟨hsent, hnext⟩ := serveClient_alike h input
          exact ⟨by rw [transmitted, transmitted, hsent], hnext⟩
      | world input =>
          obtain ⟨hsent, hnext⟩ := serveWorld_alike h input
          exact ⟨by rw [transmitted, transmitted, hsent], hnext⟩

theorem AlikeServer.run {st st' : Option VpnServer} (h : AlikeServer st st')
    (events : List Event) : AlikeServer (exec serve st events) (exec serve st' events) := by
  induction events generalizing st st' with
  | nil => exact h
  | cons e events ih => exact ih (h.transmitted_eq e).2

theorem AlikeServer.isSome_iff {st st' : Option VpnServer} (h : AlikeServer st st') :
    st.isSome ↔ st'.isSome := by
  cases h with
  | ended => exact Iff.rfl
  | running _ => exact Iff.rfl

/-- The tracked connection states cannot be observed. Two servers that differ in nothing but the
connection states of their sessions send the same packets to the same addresses, and end at the same
time. -/
theorem tracking_unobservable (s : VpnServer) {heap' : SessionPtr → TcpSession}
    (halike : ∀ p, SameIdentity (s.machine.heap p) (heap' p)) (events : List Event) :
    let s' := { s with machine := { s.machine with heap := heap' } }
    observe (fun _ => true) serve transmitted (some s) events =
        observe (fun _ => true) serve transmitted (some s') events ∧
      ((exec serve (some s) events).isSome ↔ (exec serve (some s') events).isSome) := by
  intro s'
  have hstart : AlikeServer (some s) (some s') := .running ⟨halike, rfl, rfl, rfl⟩
  constructor
  · exact observe_eq (fun st st' e _ h => h.transmitted_eq e) hstart
  · exact (hstart.run events).isSome_iff

/-- The answer to a `SYN` that was never recorded, as if the connection had been closed before. -/
theorem tracking_unobservable_closed :
    let s := openedServer
    let s' := { s with machine := { s.machine with
      heap := fun p => { s.machine.heap p with synState := 3, serverFinState := 2 } } }
    let events := [.world (frameOf (packetOf sampleSynAck)),
      .client (datagramOf clientAddress (packetOf sampleAck))]
    observe (fun _ => true) serve transmitted (some s) events =
        observe (fun _ => true) serve transmitted (some s') events ∧
      ((exec serve (some s) events).isSome ↔ (exec serve (some s') events).isSome) :=
  @tracking_unobservable openedServer
    (fun p => { openedServer.machine.heap p with synState := 3, serverFinState := 2 })
    (fun _ => ⟨rfl, rfl, rfl, rfl⟩)
    [.world (frameOf (packetOf sampleSynAck)),
      .client (datagramOf clientAddress (packetOf sampleAck))]

end BenkerVpn

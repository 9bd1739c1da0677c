import BenkerVpn.Handler.Packets
import BenkerVpn.Session.Bijection

/-!
# What a packet does to the stored sessions

A client packet and a world packet are handled alike: the sender of the packet decides which index
is searched (`lookupSession`) and which flag handling is applied (`flags`). `packet_outcome` lists
everything the handling of one packet can do to a machine. From it come the facts used about runs of
packets: an object is changed by the packets accepted for it only (`perform_heap_of_ne`), a stored
session stays stored (`Stored.perform`), and a packet that belongs to a stored session is accepted
for it exactly when it arrives in time (`Stored.session_eq`).
-/

set_option autoImplicit false

namespace BenkerVpn

open Library.Buckets Library.Runs

/-! ## Packets -/

/-- Which socket a packet comes from. -/
inductive Sender where
  | client
  | world
  deriving DecidableEq, Repr

/-- The other end of the connection. -/
def Sender.peer : Sender → Sender
  | .client => .world
  | .world => .client

/-- The sender and the segment of a call, if its packet passes `validate_ip_tcp`. -/
def Call.segment : Call → Option (Sender × Segment)
  | .client _ b bufferLen _ => (segmentOf b bufferLen).map (Prod.mk .client)
  | .world b bufferLen => (segmentOf b bufferLen).map (Prod.mk .world)
  | _ => none

/-- A call of one of the two handlers. -/
def Call.IsPacket : Call → Prop
  | .client .. => True
  | .world .. => True
  | _ => False

theorem Call.isPacket_of_segment {c : Call} {p : Sender × Segment} (h : c.segment = some p) :
    c.IsPacket := by
  cases c with
  | client => trivial
  | world => trivial
  | add => cases h
  | clean => cases h

theorem Call.segment_client {b : Buffer} {bufferLen : Int} {seg : Segment} (count : Int)
    (ip : UInt32) (h : segmentOf b bufferLen = some seg) :
    (Call.client count b bufferLen ip).segment = some (.client, seg) := by
  rw [Call.segment, h, Option.map_some]

theorem Call.segment_world {b : Buffer} {bufferLen : Int} {seg : Segment}
    (h : segmentOf b bufferLen = some seg) :
    (Call.world b bufferLen).segment = some (.world, seg) := by
  rw [Call.segment, h, Option.map_some]

/-- The call that receives a packet. -/
def callOf : Sender × Segment → Call
  | (.client, seg) => clientCall seg
  | (.world, seg) => worldCall seg

theorem callOf_segment (p : Sender × Segment) : (callOf p).segment = some p := by
  rcases p with ⟨_ | _, seg⟩
  · exact Call.segment_client _ _ (segmentOf_packetOf seg (by omega) (by omega))
  · exact Call.segment_world (segmentOf_packetOf seg (by omega) (by omega))

/-- A call has one sender and one segment. -/
theorem Call.segment_unique {c : Call} {sender sender' : Sender} {seg seg' : Segment}
    (h : c.segment = some (sender, seg)) (h' : c.segment = some (sender', seg')) :
    sender = sender' ∧ seg = seg' :=
  Prod.mk.inj (Option.some.inj (h.symm.trans h'))

/-- What a handler returns. -/
def Call.ret (m : Machine) : Call → Option Verdict
  | .client count b bufferLen ip => some (handleClientPacket m count b bufferLen ip).ret
  | .world b bufferLen => some (handleWorldPacket m b bufferLen).ret
  | _ => none

/-- `VALID_SESSION` is returned exactly for a packet accepted for a session. -/
theorem Call.ret_eq_valid_iff (m : Machine) (c : Call) :
    c.ret m = some .validSession ↔ (c.session m).isSome := by
  cases c with
  | client count b bufferLen ip =>
      rw [Call.ret, Option.some.injEq]
      exact handleClientPacket_ret_iff m count b bufferLen ip
  | world b bufferLen =>
      rw [Call.ret, Option.some.injEq]
      exact handleWorldPacket_ret_iff m b bufferLen
  | add count ip port timeout => simp [Call.ret, Call.session]
  | clean => simp [Call.ret, Call.session]

/-- The flag handling of the handler for a sender. -/
def flags : Sender → TcpSession → Segment → TcpSession
  | .client => clientFlags
  | .world => worldFlags

theorem flags_sameIdentity (sender : Sender) (v : TcpSession) (seg : Segment) :
    SameIdentity (flags sender v seg) v := by
  cases sender with
  | client => exact clientFlags_sameIdentity v seg
  | world => exact worldFlags_sameIdentity v seg

/-- The session a segment is looked up under. -/
def lookupSession (m : Machine) : Sender → Segment → Option SessionPtr
  | .client, seg => getTcpSessionByClient m seg.saddr seg.source
  | .world, seg => getTcpSessionByServer m seg.dest

/-- The segment carries the client key of the session, or its server port. -/
def Belongs (v : TcpSession) : Sender → Segment → Prop
  | .client, seg => seg.saddr = v.clientIp ∧ seg.source = v.clientPort
  | .world, seg => seg.dest = v.serverPort

instance (v : TcpSession) (sender : Sender) (seg : Segment) : Decidable (Belongs v sender seg) := by
  cases sender <;> unfold Belongs <;> infer_instance

theorem Belongs.congr {v w : TcpSession} (h : SameIdentity v w) (sender : Sender) (seg : Segment) :
    Belongs v sender seg ↔ Belongs w sender seg := by
  obtain ⟨hip, hport, hserver, -⟩ := h
  cases sender with
  | client => rw [Belongs, Belongs, hip, hport]
  | world => rw [Belongs, Belongs, hserver]

/-- The sender and the segment of a call whose packet is valid and belongs to the session. -/
def Call.ownSegment (v : TcpSession) (c : Call) : Option (Sender × Segment) :=
  c.segment.filter fun p => Belongs v p.1 p.2

theorem Call.ownSegment_eq_some_iff (v : TcpSession) (c : Call) (sender : Sender) (seg : Segment) :
    c.ownSegment v = some (sender, seg) ↔
      c.segment = some (sender, seg) ∧ Belongs v sender seg := by
  rw [Call.ownSegment, Option.filter_eq_some_iff, decide_eq_true_iff]

/-- The packet of the call is valid and belongs to the session. -/
def Call.OfSession (v : TcpSession) (c : Call) : Prop := (c.ownSegment v).isSome

instance (v : TcpSession) (c : Call) : Decidable (c.OfSession v) := by
  unfold Call.OfSession
  infer_instance

/-! ## One packet -/

/-- Everything the handling of a packet can do. -/
inductive PacketOutcome (m : Machine) (c : Call) : Prop where
  | invalid (hseg : c.segment = none)
      (hses : c.session m = none) (hper : perform m c = m)
  | unknown (sender : Sender) (seg : Segment) (hseg : c.segment = some (sender, seg))
      (hsyn : sender = .client → seg.syn = false) (hs : lookupSession m sender seg = none)
      (hses : c.session m = none) (hper : perform m c = m)
  | expired (sender : Sender) (seg : Segment) (hseg : c.segment = some (sender, seg))
      (s : SessionPtr) (hs : lookupSession m sender seg = some s)
      (hexp : (m.heap s).expire < m.clock 0)
      (hses : c.session m = none) (hper : perform m c = m.tick 1)
  | accepted (sender : Sender) (seg : Segment) (hseg : c.segment = some (sender, seg))
      (s : SessionPtr) (hs : lookupSession m sender seg = some s)
      (hexp : m.clock 0 ≤ (m.heap s).expire)
      (hses : c.session m = some s)
      (hper : perform m c = (m.tick 1).store s (flags sender (m.heap s) seg))
  | exhausted (seg : Segment) (hseg : c.segment = some (.client, seg))
      (hsyn : seg.syn = true) (hs : lookupSession m .client seg = none) (n : UInt32)
      (hses : c.session m = none) (hper : perform m c = m.setNextNum n)
  | createdExpired (seg : Segment) (hseg : c.segment = some (.client, seg))
      (hsyn : seg.syn = true) (hs : lookupSession m .client seg = none)
      (q : UInt16) (hq : getTcpSessionByServer m q = none) (n : UInt32)
      (hexp : m.clock 0 + 10 < m.clock 1)
      (hses : c.session m = none)
      (hper : perform m c = (created m seg.saddr seg.source q 10 n).tick 1)
  | createdAccepted (seg : Segment) (hseg : c.segment = some (.client, seg))
      (hsyn : seg.syn = true) (hs : lookupSession m .client seg = none)
      (q : UInt16) (hq : getTcpSessionByServer m q = none) (n : UInt32)
      (hexp : m.clock 1 ≤ m.clock 0 + 10)
      (hses : c.session m = some m.brk)
      (hper : perform m c = ((created m seg.saddr seg.source q 10 n).tick 1).store m.brk
        (clientFlags (newSession seg.saddr seg.source q (m.clock 0 + 10)) seg))

theorem packet_outcome (m : Machine) {c : Call} (hc : c.IsPacket) : PacketOutcome m c := by
  cases c with
  | add count ip port timeout => exact hc.elim
  | clean => exact hc.elim
  | client count b bufferLen ip =>
      cases hseg : segmentOf b bufferLen with
      | none =>
          refine .invalid ?_ ?_ ?_
          · rw [Call.segment, hseg, Option.map_none]
          · rw [Call.session, hseg, Option.bind_none]
          · rw [perform, handleClientPacket_of_none _ _ _ _ _ hseg]
            rfl
      | some seg =>
          have hsegment := Call.segment_client count ip hseg
          rcases hacc : acceptClient m count seg with ⟨r, m'⟩
          obtain ⟨hses, hper⟩ := client_of_accept m count b bufferLen ip hseg hacc
          cases acceptClient_outcome hacc with
          | unknown hsyn hs => exact .unknown _ _ hsegment (fun _ => hsyn) hs hses hper
          | exhausted n hsyn hs hq => exact .exhausted _ hsegment hsyn hs n hses hper
          | expired s hs hexp =>
              exact .expired _ _ hsegment s hs ((expiredAt_eq_true_iff _ _ _).1 hexp) hses hper
          | accepted s hs hexp =>
              exact .accepted _ _ hsegment s hs ((expiredAt_eq_false_iff _ _ _).1 hexp) hses hper
          | createdExpired q n hsyn hs hq hexp =>
              exact .createdExpired _ hsegment hsyn hs q (searchPort_some hq).1 n hexp hses hper
          | createdAccepted q n hsyn hs hq hexp =>
              exact .createdAccepted _ hsegment hsyn hs q (searchPort_some hq).1 n hexp hses
                hper
  | world b bufferLen =>
      cases hseg : segmentOf b bufferLen with
      | none =>
          refine .invalid ?_ ?_ ?_
          · rw [Call.segment, hseg, Option.map_none]
          · rw [Call.session, hseg, Option.bind_none]
          · rw [perform, handleWorldPacket_of_none _ _ _ hseg]
            rfl
      | some seg =>
          have hsegment := Call.segment_world hseg
          rcases hacc : acceptWorld m seg with ⟨r, m'⟩
          obtain ⟨hses, hper⟩ := world_of_accept m b bufferLen hseg hacc
          cases acceptWorld_outcome hacc with
          | unknown hs => exact .unknown _ _ hsegment (by rintro ⟨⟩) hs hses hper
          | expired s hs hexp =>
              exact .expired _ _ hsegment s hs ((expiredAt_eq_true_iff _ _ _).1 hexp) hses hper
          | accepted s hs hexp =>
              exact .accepted _ _ hsegment s hs ((expiredAt_eq_false_iff _ _ _).1 hexp) hses hper

/-! ## The clock -/

/-- The clock of the second machine is the clock of the first one, read later. -/
def Later (m m' : Machine) : Prop := ∃ n, ∀ k, m'.clock k = m.clock (n + k)

theorem Later.refl (m : Machine) : Later m m := ⟨0, fun k => by rw [Nat.zero_add]⟩

theorem Later.trans {a b c : Machine} (h : Later a b) (h' : Later b c) : Later a c := by
  obtain ⟨n, hn⟩ := h
  obtain ⟨n', hn'⟩ := h'
  exact ⟨n + n', fun k => by rw [hn', hn, Nat.add_assoc]⟩

theorem Later.monotone {m m' : Machine} (h : Later m m') (hm : Monotone m.clock) :
    Monotone m'.clock := by
  obtain ⟨n, hn⟩ := h
  intro a b hab
  rw [hn, hn]
  exact hm (Nat.add_le_add_left hab n)

theorem later_tick (m : Machine) (n : Nat) : Later m (m.tick n) := ⟨n, fun _ => rfl⟩

theorem later_createSession (m : Machine) (ip : UInt32) (port q : UInt16) (timeout : Int) :
    Later m (createSession m ip port q timeout) := ⟨1, fun _ => rfl⟩

theorem later_clean (m : Machine) : Later m (cleanExpiredSession m) :=
  ⟨_, cleanExpiredSession_clock m⟩

/-- No call writes the clock. -/
theorem perform_later (m : Machine) (c : Call) : Later m (perform m c) := by
  refine perform_preserves (P := Later m) c ?_ ?_ ?_ ?_ ?_ (Later.refl m)
  · exact fun m' n h => h.trans (later_tick m' n)
  · exact fun m' n h => h
  · exact fun m' ip port q timeout h _ _ _ => h.trans (later_createSession m' ip port q timeout)
  · exact fun m' s v h _ => h
  · exact fun _ _ => later_clean m

theorem later_exec (m : Machine) (calls : List Call) : Later m (exec perform m calls) :=
  relation_exec Later.refl Later.trans perform_later m calls

/-- No call frees a session object for reuse. -/
theorem brk_le_perform (m : Machine) (c : Call) : m.brk ≤ (perform m c).brk := by
  refine perform_preserves (P := fun m' => m.brk ≤ m'.brk) c ?_ ?_ ?_ ?_ ?_ (Nat.le_refl _)
  · exact fun m' n h => h
  · exact fun m' n h => h
  · exact fun m' ip port q timeout h _ _ _ => Nat.le_succ_of_le h
  · exact fun m' s v h _ => h
  · intro _ _
    rw [cleanExpiredSession_brk]

/-! ## Lookups -/

/-- The index in which the packets of a sender are looked up. -/
def InIndex (m : Machine) : Sender → SessionPtr → Prop
  | .client, s => InClient m s
  | .world, s => InServer m s

theorem Indexes.lookupSession_eq_some_iff {m : Machine} (h : Indexes m) (sender : Sender)
    (seg : Segment) (s : SessionPtr) :
    lookupSession m sender seg = some s ↔ InIndex m sender s ∧ Belongs (m.heap s) sender seg := by
  cases sender with
  | client =>
      rw [lookupSession, h.getByClient_eq_some_iff]
      apply and_congr_right'
      rw [clientKey, Prod.mk.injEq, Belongs, eq_comm, @eq_comm _ seg.source]
  | world =>
      rw [lookupSession, h.getByServer_eq_some_iff]
      apply and_congr_right'
      rw [serverKey, Belongs, eq_comm]

theorem Indexes.lt_brk {m : Machine} (h : Indexes m) {sender : Sender} {s : SessionPtr}
    (hs : InIndex m sender s) : s < m.brk := by
  cases sender with
  | client => exact h.clientAllocated s hs
  | world => exact h.serverAllocated s hs

theorem created_inIndex_iff (m : Machine) (ip : UInt32) (port q : UInt16) (timeout : Int)
    (n : UInt32) (sender : Sender) (s : SessionPtr) :
    InIndex (created m ip port q timeout n) sender s ↔ InIndex m sender s ∨ s = m.brk := by
  cases sender with
  | client => exact createSession_inClient_iff ip port q timeout s
  | world => exact createSession_inServer_iff ip port q timeout s

theorem created_heap_of_ne (m : Machine) (ip : UInt32) (port q : UInt16) (timeout : Int)
    (n : UInt32) {s : SessionPtr} (hs : s ≠ m.brk) :
    (created m ip port q timeout n).heap s = m.heap s :=
  createSession_heap_of_ne ip port q timeout hs

/-! ## Frame -/

section Frame

variable {m : Machine} {c : Call}

/-- A packet is accepted for the session it is looked up under, or for one it creates. -/
theorem session_cases (hc : c.IsPacket) {s : SessionPtr} (hses : c.session m = some s) :
    (∃ sender seg, c.segment = some (sender, seg) ∧ lookupSession m sender seg = some s ∧
      m.clock 0 ≤ (m.heap s).expire ∧
      perform m c = (m.tick 1).store s (flags sender (m.heap s) seg)) ∨
    (∃ seg q n, c.segment = some (.client, seg) ∧ seg.syn = true ∧
      lookupSession m .client seg = none ∧ getTcpSessionByServer m q = none ∧
      m.clock 1 ≤ m.clock 0 + 10 ∧ s = m.brk ∧
      perform m c = ((created m seg.saddr seg.source q 10 n).tick 1).store m.brk
        (clientFlags (newSession seg.saddr seg.source q (m.clock 0 + 10)) seg)) := by
  cases packet_outcome m hc with
  | accepted sender seg hseg p hp hexp hses' hper =>
      obtain rfl : p = s := Option.some.inj (hses'.symm.trans hses)
      exact Or.inl ⟨sender, seg, hseg, hp, hexp, hper⟩
  | createdAccepted seg hseg hsyn hp q hq n hexp hses' hper =>
      exact Or.inr ⟨seg, q, n, hseg, hsyn, hp, hq, hexp, Option.some.inj (hses.symm.trans hses'),
        hper⟩
  | invalid hseg hses' => rw [hses'] at hses; cases hses
  | unknown sender seg hseg hsyn hp hses' => rw [hses'] at hses; cases hses
  | expired sender seg hseg p hp hexp hses' => rw [hses'] at hses; cases hses
  | exhausted seg hseg hsyn hp n hses' => rw [hses'] at hses; cases hses
  | createdExpired seg hseg hsyn hp q hq n hexp hses' => rw [hses'] at hses; cases hses

/-- A packet accepted for an object that exists already updates it by its segment. -/
theorem perform_heap_of_accepted (hc : c.IsPacket) {s : SessionPtr} (hs : s < m.brk)
    (hses : c.session m = some s) :
    ∃ sender seg, c.segment = some (sender, seg) ∧ lookupSession m sender seg = some s ∧
      m.clock 0 ≤ (m.heap s).expire ∧
      perform m c = (m.tick 1).store s (flags sender (m.heap s) seg) := by
  rcases session_cases hc hses with h | ⟨seg, q, n, -, -, -, -, -, hnew, -⟩
  · exact h
  · exact absurd hnew hs.ne

/-- A packet changes no object but the one it is accepted for. -/
theorem perform_heap_of_ne (hc : c.IsPacket) {s : SessionPtr} (hs : s < m.brk)
    (hses : c.session m ≠ some s) : (perform m c).heap s = m.heap s := by
  cases packet_outcome m hc with
  | invalid hseg hses' hper => rw [hper]
  | unknown sender seg hseg hsyn hp hses' hper => rw [hper]
  | expired sender seg hseg p hp hexp hses' hper => rw [hper, Machine.tick_heap]
  | accepted sender seg hseg p hp hexp hses' hper =>
      have hne : s ≠ p := fun e => hses (by rw [hses', e])
      rw [hper, Machine.store_heap_of_ne _ _ hne, Machine.tick_heap]
  | exhausted seg hseg hsyn hp n hses' hper => rw [hper, Machine.setNextNum_heap]
  | createdExpired seg hseg hsyn hp q hq n hexp hses' hper =>
      rw [hper, Machine.tick_heap, created_heap_of_ne _ _ _ _ _ _ hs.ne]
  | createdAccepted seg hseg hsyn hp q hq n hexp hses' hper =>
      rw [hper, Machine.store_heap_of_ne _ _ hs.ne, Machine.tick_heap,
        created_heap_of_ne _ _ _ _ _ _ hs.ne]

/-- No allocated object changes its identity. -/
theorem perform_sameIdentity (hc : c.IsPacket) {s : SessionPtr} (hs : s < m.brk) :
    SameIdentity ((perform m c).heap s) (m.heap s) := by
  by_cases hses : c.session m = some s
  · obtain ⟨sender, seg, -, -, -, hper⟩ := perform_heap_of_accepted hc hs hses
    rw [hper, Machine.store_heap_self]
    exact flags_sameIdentity sender _ seg
  · rw [perform_heap_of_ne hc hs hses]
    exact SameIdentity.refl _

/-- A packet leaves every stored session in its indexes, and adds at most the object at `brk`. -/
theorem perform_inIndex_iff (hc : c.IsPacket) (sender : Sender) (s : SessionPtr) :
    InIndex (perform m c) sender s ↔
      InIndex m sender s ∨ (s = m.brk ∧ m.brk < (perform m c).brk) := by
  -- five outcomes leave both indexes alone, the last two create an object
  have hsame : ∀ {m' : Machine}, m'.brk = m.brk → m'.table.listClientKey = m.table.listClientKey →
      m'.table.listServerKey = m.table.listServerKey →
      (InIndex m' sender s ↔ InIndex m sender s ∨ (s = m.brk ∧ m.brk < m'.brk)) := by
    intro m' hbrk hclient hserver
    rw [hbrk]
    have hidx : InIndex m' sender s ↔ InIndex m sender s := by
      cases sender with
      | client => rw [InIndex, InIndex, InClient, hclient]
      | world => rw [InIndex, InIndex, InServer, hserver]
    rw [hidx]
    simp
  have hcreated : ∀ {m' : Machine} {ip port q n}, m'.brk = m.brk + 1 →
      m'.table = (created m ip port q 10 n).table →
      (InIndex m' sender s ↔ InIndex m sender s ∨ (s = m.brk ∧ m.brk < m'.brk)) := by
    intro m' ip port q n hbrk htable
    have hidx : InIndex m' sender s ↔ InIndex (created m ip port q 10 n) sender s := by
      cases sender with
      | client => rw [InIndex, InIndex, InClient, InClient, htable]
      | world => rw [InIndex, InIndex, InServer, InServer, htable]
    rw [hidx, created_inIndex_iff, hbrk]
    simp
  cases packet_outcome m hc with
  | invalid hseg hses hper => rw [hper]; exact hsame rfl rfl rfl
  | unknown sender seg hseg hsyn hp hses hper => rw [hper]; exact hsame rfl rfl rfl
  | expired sender seg hseg p hp hexp hses hper => rw [hper]; exact hsame rfl rfl rfl
  | accepted sender seg hseg p hp hexp hses hper => rw [hper]; exact hsame rfl rfl rfl
  | exhausted seg hseg hsyn hp n hses hper => rw [hper]; exact hsame rfl rfl rfl
  | createdExpired seg hseg hsyn hp q hq n hexp hses hper =>
      rw [hper]
      exact hcreated rfl rfl
  | createdAccepted seg hseg hsyn hp q hq n hexp hses hper =>
      rw [hper]
      exact hcreated rfl rfl

/-- An object is created by a `SYN` whose key has no session; the packet is accepted for it unless
it has expired already when the clock is read again. -/
theorem perform_created (hc : c.IsPacket) (hbrk : m.brk < (perform m c).brk) :
    ∃ seg q n, c.segment = some (.client, seg) ∧ seg.syn = true ∧
      lookupSession m .client seg = none ∧ getTcpSessionByServer m q = none ∧
      ((m.clock 0 + 10 < m.clock 1 ∧ c.session m = none ∧
          perform m c = (created m seg.saddr seg.source q 10 n).tick 1) ∨
        (m.clock 1 ≤ m.clock 0 + 10 ∧ c.session m = some m.brk ∧
          perform m c = ((created m seg.saddr seg.source q 10 n).tick 1).store m.brk
            (clientFlags (newSession seg.saddr seg.source q (m.clock 0 + 10)) seg))) := by
  -- only the outcomes that create an object move `brk`
  have hsame : ∀ {m' : Machine}, perform m c = m' → m'.brk = m.brk → False := by
    intro m' hper hbrk'
    rw [hper, hbrk'] at hbrk
    exact lt_irrefl _ hbrk
  cases packet_outcome m hc with
  | createdExpired seg hseg hsyn hp q hq n hexp hses hper =>
      exact ⟨seg, q, n, hseg, hsyn, hp, hq, Or.inl ⟨hexp, hses, hper⟩⟩
  | createdAccepted seg hseg hsyn hp q hq n hexp hses hper =>
      exact ⟨seg, q, n, hseg, hsyn, hp, hq, Or.inr ⟨hexp, hses, hper⟩⟩
  | invalid hseg hses hper => exact (hsame hper rfl).elim
  | unknown sender seg hseg hsyn hp hses hper => exact (hsame hper rfl).elim
  | expired sender seg hseg p hp hexp hses hper => exact (hsame hper rfl).elim
  | accepted sender seg hseg p hp hexp hses hper => exact (hsame hper rfl).elim
  | exhausted seg hseg hsyn hp n hses hper => exact (hsame hper rfl).elim

/-- The identity of a created object. -/
theorem perform_created_identity (hc : c.IsPacket) (hbrk : m.brk < (perform m c).brk) :
    ∃ seg q, c.segment = some (.client, seg) ∧ seg.syn = true ∧
      lookupSession m .client seg = none ∧ getTcpSessionByServer m q = none ∧
      SameIdentity ((perform m c).heap m.brk)
        (newSession seg.saddr seg.source q (m.clock 0 + 10)) := by
  obtain ⟨seg, q, n, hseg, hsyn, hs, hq, ⟨-, -, hper⟩ | ⟨-, -, hper⟩⟩ := perform_created hc hbrk
  · refine ⟨seg, q, hseg, hsyn, hs, hq, ?_⟩
    rw [hper, Machine.tick_heap, created_heap_brk]
    exact SameIdentity.refl _
  · refine ⟨seg, q, hseg, hsyn, hs, hq, ?_⟩
    rw [hper, Machine.store_heap_self]
    exact clientFlags_sameIdentity _ seg

/-- A client key stays unknown until a `SYN` with that key arrives. -/
theorem Indexes.getByClient_none_perform (h : Indexes m) (hc : c.IsPacket) {ip : UInt32}
    {port : UInt16} (hnone : getTcpSessionByClient m ip port = none)
    (hother : ∀ seg, c.segment = some (.client, seg) → seg.syn = true →
      ¬ (seg.saddr = ip ∧ seg.source = port)) :
    getTcpSessionByClient (BenkerVpn.perform m c) ip port = none := by
  rw [(h.perform c).getByClient_eq_none_iff]
  intro s hs hkey
  rcases (perform_inIndex_iff hc .client s).1 hs with hold | ⟨rfl, hbrk⟩
  · -- an old session would have had the key before
    obtain ⟨hip, hport, -, -⟩ := perform_sameIdentity hc (h.clientAllocated s hold)
    apply (h.getByClient_eq_none_iff ip port).1 hnone s hold
    rw [clientKey, ← hip, ← hport]
    exact hkey
  · -- a new one has the key of its `SYN`
    obtain ⟨seg, q, hseg, hsyn, -, -, hip, hport, -, -⟩ := perform_created_identity hc hbrk
    obtain ⟨hip', hport'⟩ := Prod.mk.inj hkey
    exact hother seg hseg hsyn ⟨hip.symm.trans hip', hport.symm.trans hport'⟩

end Frame

/-! ## Accepted packets -/

/-- What `handle_client_packet` returns for a packet it accepts. -/
theorem handleClientPacket_of_session {m : Machine} {count : Int} {b : Buffer} {bufferLen : Int}
    {ip : UInt32} {s : SessionPtr} (h : (Call.client count b bufferLen ip).session m = some s) :
    handleClientPacket m count b bufferLen ip =
      { ret := .validSession
        machine := perform m (.client count b bufferLen ip)
        buffer := replaceSrcIpPort b ip
          ((perform m (.client count b bufferLen ip)).heap s).serverPort
        rstSize := none
        clientIp := none } := by
  obtain ⟨seg, hseg, -⟩ := Option.bind_eq_some_iff.1 h
  rcases hacc : acceptClient m count seg with ⟨r, m'⟩
  obtain ⟨hses, hper⟩ := client_of_accept m count b bufferLen ip hseg hacc
  obtain rfl : r = some s := hses.symm.trans h
  rw [hper, handleClientPacket_of_accepted hseg ip hacc]

/-- What `handle_world_packet` returns for a packet it accepts. -/
theorem handleWorldPacket_of_session {m : Machine} {b : Buffer} {bufferLen : Int} {s : SessionPtr}
    (h : (Call.world b bufferLen).session m = some s) :
    handleWorldPacket m b bufferLen =
      { ret := .validSession
        machine := perform m (.world b bufferLen)
        buffer := replaceDstIpPort b ((perform m (.world b bufferLen)).heap s).clientIp
          ((perform m (.world b bufferLen)).heap s).clientPort
        rstSize := none
        clientIp := some ((perform m (.world b bufferLen)).heap s).clientIp } := by
  obtain ⟨seg, hseg, -⟩ := Option.bind_eq_some_iff.1 h
  rcases hacc : acceptWorld m seg with ⟨r, m'⟩
  obtain ⟨hses, hper⟩ := world_of_accept m b bufferLen hseg hacc
  obtain rfl : r = some s := hses.symm.trans h
  rw [hper, handleWorldPacket_of_accepted hseg hacc]

/-- A packet that is not accepted for a session is turned into a reset. -/
theorem handleClientPacket_of_session_none {m : Machine} {count : Int} {b : Buffer}
    {bufferLen : Int} {ip : UInt32} (h : (Call.client count b bufferLen ip).session m = none) :
    handleClientPacket m count b bufferLen ip =
      reject (perform m (.client count b bufferLen ip)) b := by
  cases hseg : segmentOf b bufferLen with
  | none =>
      rw [perform, handleClientPacket_of_none _ _ _ _ _ hseg]
      rfl
  | some seg =>
      rcases hacc : acceptClient m count seg with ⟨r, m'⟩
      obtain ⟨hses, hper⟩ := client_of_accept m count b bufferLen ip hseg hacc
      obtain rfl : r = none := hses.symm.trans h
      rw [hper, handleClientPacket_of_rejected hseg ip hacc]

theorem handleWorldPacket_of_session_none {m : Machine} {b : Buffer} {bufferLen : Int}
    (h : (Call.world b bufferLen).session m = none) :
    handleWorldPacket m b bufferLen = reject (perform m (.world b bufferLen)) b := by
  cases hseg : segmentOf b bufferLen with
  | none =>
      rw [perform, handleWorldPacket_of_none _ _ _ hseg]
      rfl
  | some seg =>
      rcases hacc : acceptWorld m seg with ⟨r, m'⟩
      obtain ⟨hses, hper⟩ := world_of_accept m b bufferLen hseg hacc
      obtain rfl : r = none := hses.symm.trans h
      rw [hper, handleWorldPacket_of_rejected hseg hacc]

/-- A packet whose lookup finds a session is accepted for it when it arrives in time. -/
theorem session_eq_of_lookup {m : Machine} {c : Call} {sender : Sender} {seg : Segment}
    (hseg : c.segment = some (sender, seg)) {s : SessionPtr}
    (hlook : lookupSession m sender seg = some s) :
    c.session m = if m.clock 0 ≤ (m.heap s).expire then some s else none := by
  -- whatever segment an outcome speaks of, its lookup finds `s`
  have hsame : ∀ {sender' : Sender} {seg' : Segment}, c.segment = some (sender', seg') →
      lookupSession m sender' seg' = some s := by
    intro sender' seg' hseg'
    obtain ⟨rfl, rfl⟩ := Call.segment_unique hseg hseg'
    exact hlook
  cases packet_outcome m (Call.isPacket_of_segment hseg) with
  | invalid hseg' =>
      rw [hseg] at hseg'
      cases hseg'
  | unknown sender' seg' hseg' hsyn hp =>
      rw [hsame hseg'] at hp
      cases hp
  | expired sender' seg' hseg' p hp hexp hses =>
      obtain rfl : s = p := Option.some.inj ((hsame hseg').symm.trans hp)
      rw [hses, if_neg (not_le.2 hexp)]
  | accepted sender' seg' hseg' p hp hexp hses =>
      obtain rfl : s = p := Option.some.inj ((hsame hseg').symm.trans hp)
      rw [hses, if_pos hexp]
  | exhausted seg' hseg' hsyn hp =>
      rw [hsame hseg'] at hp
      cases hp
  | createdExpired seg' hseg' hsyn hp =>
      rw [hsame hseg'] at hp
      cases hp
  | createdAccepted seg' hseg' hsyn hp =>
      rw [hsame hseg'] at hp
      cases hp

/-- The session found is then updated by the segment. -/
theorem perform_heap_of_lookup {m : Machine} {c : Call} {sender : Sender} {seg : Segment}
    (hseg : c.segment = some (sender, seg)) {s : SessionPtr}
    (hlook : lookupSession m sender seg = some s) (htime : m.clock 0 ≤ (m.heap s).expire) :
    (perform m c).heap s = flags sender (m.heap s) seg := by
  have hses := session_eq_of_lookup hseg hlook
  rw [if_pos htime] at hses
  rcases session_cases (Call.isPacket_of_segment hseg) hses with
    ⟨sender', seg', hseg', -, -, hper⟩ | ⟨seg', q, n, hseg', -, hnone, -⟩
  · obtain ⟨rfl, rfl⟩ := Call.segment_unique hseg hseg'
    rw [hper, Machine.store_heap_self]
  · obtain ⟨rfl, rfl⟩ := Call.segment_unique hseg hseg'
    rw [hlook] at hnone
    cases hnone

/-! ## A stored session -/

/-- The session stands in both indexes with the given identity. -/
structure Stored (v : TcpSession) (s : SessionPtr) (m : Machine) : Prop where
  inClient : InClient m s
  inServer : InServer m s
  identity : SameIdentity (m.heap s) v

namespace Stored

variable {v : TcpSession} {s : SessionPtr} {m : Machine}

theorem inIndex (hs : Stored v s m) (sender : Sender) : InIndex m sender s := by
  cases sender with
  | client => exact hs.inClient
  | world => exact hs.inServer

theorem expire_eq (hs : Stored v s m) : (m.heap s).expire = v.expire := hs.identity.2.2.2

/-- Packets leave a stored session stored. -/
theorem perform (hs : Stored v s m) (h : Indexes m) {c : Call} (hc : c.IsPacket) :
    Stored v s (perform m c) := by
  refine ⟨?_, ?_, ?_⟩
  · exact (perform_inIndex_iff hc .client s).2 (Or.inl hs.inClient)
  · exact (perform_inIndex_iff hc .world s).2 (Or.inl hs.inServer)
  · exact (perform_sameIdentity hc (h.clientAllocated s hs.inClient)).trans hs.identity

/-- A stored session is looked up under the segments that belong to it. -/
theorem lookupSession_eq_some_iff (hs : Stored v s m) (h : Indexes m) (sender : Sender)
    (seg : Segment) : lookupSession m sender seg = some s ↔ Belongs v sender seg := by
  rw [h.lookupSession_eq_some_iff, Belongs.congr hs.identity]
  exact and_iff_right (hs.inIndex sender)

/-- A packet that belongs to a stored session is accepted for it when it arrives in time, and then
updates it; a late packet is rejected. -/
theorem session_eq (hs : Stored v s m) (h : Indexes m) {c : Call}
    {sender : Sender} {seg : Segment} (hown : c.ownSegment v = some (sender, seg)) :
    c.session m = if m.clock 0 ≤ v.expire then some s else none := by
  obtain ⟨hseg, hbel⟩ := (c.ownSegment_eq_some_iff v sender seg).1 hown
  rw [session_eq_of_lookup hseg ((hs.lookupSession_eq_some_iff h sender seg).2 hbel), hs.expire_eq]

/-- A packet is accepted for a stored session only if it belongs to it and arrives in time. -/
theorem ownSegment_of_session (hs : Stored v s m) (h : Indexes m) {c : Call} (hc : c.IsPacket)
    (hses : c.session m = some s) :
    ∃ sender seg, c.ownSegment v = some (sender, seg) ∧ m.clock 0 ≤ v.expire ∧
      BenkerVpn.perform m c = (m.tick 1).store s (flags sender (m.heap s) seg) := by
  obtain ⟨sender, seg, hseg, hlook, hexp, hper⟩ :=
    perform_heap_of_accepted hc (h.clientAllocated s hs.inClient) hses
  have hbel := (hs.lookupSession_eq_some_iff h sender seg).1 hlook
  rw [hs.expire_eq] at hexp
  exact ⟨sender, seg, (c.ownSegment_eq_some_iff v sender seg).2 ⟨hseg, hbel⟩, hexp, hper⟩

/-- A packet that does not belong to a stored session leaves it alone. -/
theorem heap_of_not_own (hs : Stored v s m) (h : Indexes m) {c : Call} (hc : c.IsPacket)
    (hown : c.ownSegment v = none) : (BenkerVpn.perform m c).heap s = m.heap s := by
  apply perform_heap_of_ne hc (h.clientAllocated s hs.inClient)
  intro hses
  obtain ⟨sender, seg, hown', -, -⟩ := hs.ownSegment_of_session h hc hses
  rw [hown] at hown'
  cases hown'

/-- A packet that belongs to a stored session and arrives in time updates it. -/
theorem heap_of_own (hs : Stored v s m) (h : Indexes m) {c : Call} (hc : c.IsPacket)
    {sender : Sender} {seg : Segment} (hown : c.ownSegment v = some (sender, seg))
    (htime : m.clock 0 ≤ v.expire) :
    (BenkerVpn.perform m c).heap s = flags sender (m.heap s) seg := by
  have hses := hs.session_eq h hown
  rw [if_pos htime] at hses
  obtain ⟨sender', seg', hown', -, hper⟩ := hs.ownSegment_of_session h hc hses
  obtain ⟨rfl, rfl⟩ := Prod.mk.inj (Option.some.inj (hown.symm.trans hown'))
  rw [hper, Machine.store_heap_self]

end Stored

/-! ## Opening a session -/

/-- The call is a client packet that is accepted for a session it creates. -/
def Opens (m : Machine) (c : Call) (s : SessionPtr) : Prop :=
  (∃ seg, c.segment = some (.client, seg)) ∧ c.session m = some s ∧ ¬ InClient m s

namespace Opens

variable {m : Machine} {c : Call} {s : SessionPtr}

/-- A session is opened by a `SYN` whose key has no session, and gets a free port. -/
theorem created (h : Opens m c s) (hidx : Indexes m) :
    ∃ seg q n, c.segment = some (.client, seg) ∧ seg.syn = true ∧
      lookupSession m .client seg = none ∧ getTcpSessionByServer m q = none ∧
      m.clock 1 ≤ m.clock 0 + 10 ∧ s = m.brk ∧
      perform m c = ((BenkerVpn.created m seg.saddr seg.source q 10 n).tick 1).store m.brk
        (clientFlags (newSession seg.saddr seg.source q (m.clock 0 + 10)) seg) := by
  obtain ⟨⟨seg, hseg⟩, hses, hnew⟩ := h
  rcases session_cases (Call.isPacket_of_segment hseg) hses with ⟨sender, seg', hseg', hp, -⟩ | h
  · obtain ⟨rfl, rfl⟩ := Call.segment_unique hseg hseg'
    exact absurd ((hidx.lookupSession_eq_some_iff _ _ _).1 hp).1 hnew
  · exact h

/-- The session opened stands in both indexes and expires ten seconds after its creation. -/
theorem stored (h : Opens m c s) (hidx : Indexes m) :
    Stored ((perform m c).heap s) s (perform m c) ∧
      ((perform m c).heap s).expire = m.clock 0 + 10 := by
  obtain ⟨seg, q, n, -, -, -, -, -, rfl, hper⟩ := h.created hidx
  refine ⟨⟨?_, ?_, SameIdentity.refl _⟩, ?_⟩
  · rw [hper]
    exact (created_inIndex_iff m seg.saddr seg.source q 10 n .client m.brk).2 (Or.inr rfl)
  · rw [hper]
    exact (created_inIndex_iff m seg.saddr seg.source q 10 n .world m.brk).2 (Or.inr rfl)
  · rw [hper, Machine.store_heap_self]
    exact (clientFlags_sameIdentity _ seg).2.2.2

end Opens

end BenkerVpn

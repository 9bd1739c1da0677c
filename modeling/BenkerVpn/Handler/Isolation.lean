import BenkerVpn.Handler.Step

/-!
# Isolation of sessions

A call of a handler works on the one session it looks up. `Isolated` lists what follows for the
table: no other session changes, none is removed, one is created only for a `SYN` with a new key,
and a rejected packet leaves nothing behind but a moved `next_num`. `SameAnswer` is the other half:
what the handler returns and writes depends on the packet, the clock and the contents of the
session looked up, and on nothing else in the table (`packet_isolated`).
-/

set_option autoImplicit false

namespace BenkerVpn

open Library.Buckets Library.Runs

/-- The session a call looks up. -/
def Call.lookedUp (m : Machine) (c : Call) : Option SessionPtr :=
  c.segment.bind fun p => lookupSession m p.1 p.2

/-- A call is accepted for the session it looks up, or for a new one. -/
theorem lookedUp_of_session {m : Machine} {c : Call} (hc : c.IsPacket) {s : SessionPtr}
    (hs : s < m.brk) (hses : c.session m = some s) : c.lookedUp m = some s := by
  obtain ⟨sender, seg, hseg, hlook, -⟩ := perform_heap_of_accepted hc hs hses
  rw [Call.lookedUp, hseg, Option.bind_some, hlook]

/-- A rejected packet is one that is accepted for no session. -/
theorem Call.ret_eq_invalid_iff {m : Machine} {c : Call} (hc : c.IsPacket) :
    c.ret m = some .invalidSession ↔ c.session m = none := by
  have hvalid := c.ret_eq_valid_iff m
  obtain ⟨r, hr⟩ : ∃ r, c.ret m = some r := by
    cases c with
    | client => exact ⟨_, rfl⟩
    | world => exact ⟨_, rfl⟩
    | add => exact hc.elim
    | clean => exact hc.elim
  rw [hr] at hvalid ⊢
  rw [← Option.not_isSome_iff_eq_none, ← hvalid]
  cases r with
  | validSession => simp
  | invalidSession => simp

/-- A rejected packet leaves the machine as it was, up to `next_num` and readings of the clock. With
one clock value per call no session is created and then rejected. -/
theorem perform_of_rejected {m : Machine} {c : Call} (hc : c.IsPacket)
    (hclock : m.clock 1 = m.clock 0) (hses : c.session m = none) :
    (perform m c).heap = m.heap ∧ (perform m c).brk = m.brk ∧
      ∃ n, (perform m c).table = { m.table with nextNum := n } := by
  cases packet_outcome m hc with
  | invalid hseg hses' hper =>
      rw [hper]
      exact ⟨rfl, rfl, m.table.nextNum, rfl⟩
  | unknown sender seg hseg hsyn hp hses' hper =>
      rw [hper]
      exact ⟨rfl, rfl, m.table.nextNum, rfl⟩
  | expired sender seg hseg p hp hexp hses' hper =>
      rw [hper]
      exact ⟨rfl, rfl, m.table.nextNum, rfl⟩
  | exhausted seg hseg hsyn hp n hses' hper =>
      rw [hper]
      exact ⟨rfl, rfl, n, rfl⟩
  | createdExpired seg hseg hsyn hp q hq n hexp hses' hper =>
      -- the new session expires ten seconds after the only clock value
      rw [hclock] at hexp
      omega
  | accepted sender seg hseg p hp hexp hses' hper =>
      rw [hses] at hses'
      cases hses'
  | createdAccepted seg hseg hsyn hp q hq n hexp hses' hper =>
      rw [hses] at hses'
      cases hses'

/-- What a call leaves alone. -/
structure Isolated (m : Machine) (c : Call) : Prop where
  /-- Only the session looked up changes. -/
  others : ∀ s, InClient m s → c.lookedUp m ≠ some s → (perform m c).heap s = m.heap s
  /-- No session is removed, and none changes its identity. -/
  kept : ∀ s, InClient m s → InClient (perform m c) s ∧ InServer (perform m c) s ∧
    SameIdentity ((perform m c).heap s) (m.heap s)
  /-- A new session is created by a `SYN` whose key has none. -/
  created : ∀ s, InClient (perform m c) s → ¬ InClient m s →
    ∃ seg, c.segment = some (.client, seg) ∧ seg.syn = true ∧
      getTcpSessionByClient m seg.saddr seg.source = none
  /-- No two sessions are created. -/
  createdOne : ∀ s s', InClient (perform m c) s → ¬ InClient m s → InClient (perform m c) s' →
    ¬ InClient m s' → s = s'
  /-- The two indexes gain the same sessions. -/
  sameIndexes : ∀ s, InClient (perform m c) s ↔ InServer (perform m c) s
  /-- A rejected packet changes nothing but `next_num`. -/
  rejected : c.ret m = some .invalidSession →
    (∀ s, InClient (perform m c) s ↔ InClient m s) ∧ (perform m c).heap = m.heap ∧
      (∃ n, (perform m c).table = { m.table with nextNum := n }) ∧
      (∀ ip port, getTcpSessionByClient (perform m c) ip port = getTcpSessionByClient m ip port) ∧
      ∀ port, getTcpSessionByServer (perform m c) port = getTcpSessionByServer m port

theorem isolated_of_indexes {m : Machine} (h : Indexes m) (hagree : Agree m) {c : Call}
    (hc : c.IsPacket) (hclock : m.clock 1 = m.clock 0) : Isolated m c := by
  have hnew : ∀ s, InClient (perform m c) s → ¬ InClient m s →
      s = m.brk ∧ m.brk < (perform m c).brk := by
    intro s hs hold
    exact ((perform_inIndex_iff hc .client s).1 hs).resolve_left hold
  constructor
  case others =>
    intro s hs hlook
    apply perform_heap_of_ne hc (h.clientAllocated s hs)
    exact fun hses => hlook (lookedUp_of_session hc (h.clientAllocated s hs) hses)
  case kept =>
    intro s hs
    exact ⟨(perform_inIndex_iff hc .client s).2 (Or.inl hs),
      (perform_inIndex_iff hc .world s).2 (Or.inl ((hagree s).1 hs)),
      perform_sameIdentity hc (h.clientAllocated s hs)⟩
  case created =>
    intro s hs hold
    obtain ⟨seg, q, n, hseg, hsyn, hlook, -⟩ := perform_created hc (hnew s hs hold).2
    exact ⟨seg, hseg, hsyn, hlook⟩
  case createdOne =>
    intro s s' hs hold hs' hold'
    rw [(hnew s hs hold).1, (hnew s' hs' hold').1]
  case sameIndexes =>
    intro s
    have hclient : InClient (perform m c) s ↔ _ := perform_inIndex_iff hc .client s
    have hserver : InServer (perform m c) s ↔ _ := perform_inIndex_iff hc .world s
    rw [hclient, hserver]
    exact or_congr_left (hagree s)
  case rejected =>
    intro hret
    obtain ⟨hheap, -, n, htable⟩ :=
      perform_of_rejected hc hclock ((Call.ret_eq_invalid_iff hc).1 hret)
    refine ⟨?_, hheap, ⟨n, htable⟩, ?_, ?_⟩
    · intro s
      rw [InClient, InClient, htable]
    · intro ip port
      rw [getTcpSessionByClient, getTcpSessionByClient, hheap, htable]
      rfl
    · intro port
      rw [getTcpSessionByServer, getTcpSessionByServer, hheap, htable]
      rfl

/-! ## The answer to a packet -/

/-- The two calls get the same packet; what `add_tcp_session` finds in its uninitialised local may
differ. -/
inductive SamePacket : Call → Call → Prop where
  | client (count count' : Int) (b : Buffer) (bufferLen : Int) (ip : UInt32) :
      SamePacket (.client count b bufferLen ip) (.client count' b bufferLen ip)
  | world (b : Buffer) (bufferLen : Int) :
      SamePacket (.world b bufferLen) (.world b bufferLen)

/-- What the handler returns. -/
def Call.handled (m : Machine) : Call → Option Handled
  | .client count b bufferLen ip => some (handleClientPacket m count b bufferLen ip)
  | .world b bufferLen => some (handleWorldPacket m b bufferLen)
  | _ => none

/-- Two calls answer alike: the same return value, the same address stored through `client_ip`, the
same bytes in the buffer and the same reset length. -/
def SameAnswer (m : Machine) (c : Call) (m' : Machine) (c' : Call) : Prop :=
  (c.handled m).map (fun r => (r.ret, r.clientIp, r.buffer, r.rstSize)) =
    (c'.handled m').map fun r => (r.ret, r.clientIp, r.buffer, r.rstSize)

/-- The contents of the session looked up decide the answer. -/
theorem sameAnswer_of_lookedUp {m m' : Machine} {c c' : Call} (hpacket : SamePacket c c')
    (hclock : m.clock 0 = m'.clock 0) {s s' : SessionPtr} (hs : c.lookedUp m = some s)
    (hs' : c'.lookedUp m' = some s') (hsame : m.heap s = m'.heap s') :
    SameAnswer m c m' c' := by
  obtain ⟨⟨sender, seg⟩, hseg, hlook⟩ := Option.bind_eq_some_iff.1 hs
  obtain ⟨⟨sender', seg'⟩, hseg', hlook'⟩ := Option.bind_eq_some_iff.1 hs'
  have hses := session_eq_of_lookup hseg hlook
  have hses' := session_eq_of_lookup hseg' hlook'
  rw [← hsame, ← hclock] at hses'
  obtain ⟨rfl, rfl⟩ : sender = sender' ∧ seg = seg' := by
    cases hpacket with
    | client => exact Call.segment_unique hseg hseg'
    | world => exact Call.segment_unique hseg hseg'
  by_cases htime : m.clock 0 ≤ (m.heap s).expire
  · -- accepted by both: the session is updated alike, and its identity is written to the packet
    rw [if_pos htime] at hses hses'
    have hheap := perform_heap_of_lookup hseg hlook htime
    have hheap' := perform_heap_of_lookup hseg' hlook' (by rw [← hclock, ← hsame]; exact htime)
    rw [← hsame, ← hheap] at hheap'
    rw [SameAnswer]
    cases hpacket with
    | client count count' b bufferLen ip =>
        rw [Call.handled, Call.handled, handleClientPacket_of_session hses,
          handleClientPacket_of_session hses', hheap']
        rfl
    | world b bufferLen =>
        rw [Call.handled, Call.handled, handleWorldPacket_of_session hses,
          handleWorldPacket_of_session hses', hheap']
        rfl
  · -- rejected by both: the reset is made from the packet alone
    rw [if_neg htime] at hses hses'
    rw [SameAnswer]
    cases hpacket with
    | client count count' b bufferLen ip =>
        rw [Call.handled, Call.handled, handleClientPacket_of_session_none hses,
          handleClientPacket_of_session_none hses']
        rfl
    | world b bufferLen =>
        rw [Call.handled, Call.handled, handleWorldPacket_of_session_none hses,
          handleWorldPacket_of_session_none hses']
        rfl

/-- Session isolation. After every run of the two handlers, a call that sees one clock value
leaves everything but its session alone; and its answer is the same on every other machine that
shows the same time and has a session of the same contents under the lookup. -/
theorem packet_isolated {pool : PortPool} {m₀ : Machine} (hfresh : Fresh pool m₀)
    {before : List Call} (hbefore : ∀ c ∈ before, c.IsPacket) {c : Call} (hc : c.IsPacket)
    (hclock : (exec perform m₀ before).clock 1 = (exec perform m₀ before).clock 0) :
    Isolated (exec perform m₀ before) c ∧
      ∀ m' c' s s', SamePacket c c' → (exec perform m₀ before).clock 0 = m'.clock 0 →
        c.lookedUp (exec perform m₀ before) = some s → c'.lookedUp m' = some s' →
        (exec perform m₀ before).heap s = m'.heap s' →
        SameAnswer (exec perform m₀ before) c m' c' := by
  have hinv : NatInvariant pool (exec perform m₀ before) := by
    apply natInvariant_of_run hfresh
    apply permitted_of_forall
    rintro m c hc rfl
    exact (hbefore _ hc).elim
  refine ⟨isolated_of_indexes hinv.indexes hinv.agree hc hclock, ?_⟩
  intro m' c' s s' hpacket htime hs hs' hsame
  exact sameAnswer_of_lookedUp hpacket htime hs hs' hsame

/-- The answer to a client's `SYN` leaves the session of another client alone. -/
theorem synAck_isolated :
    Isolated (exec perform (freshMachine smallPool fun _ => 0)
      [clientCall sampleSyn, clientCall { sampleSyn with source := 5001 }])
      (worldCall sampleSynAck) := by
  have hbefore : ∀ c ∈ [clientCall sampleSyn, clientCall { sampleSyn with source := 5001 }],
      c.IsPacket := by
    intro c hc
    simp only [List.mem_cons, List.not_mem_nil, or_false] at hc
    rcases hc with rfl | rfl <;> trivial
  obtain ⟨n, hn⟩ := later_exec (freshMachine smallPool fun _ => 0)
    [clientCall sampleSyn, clientCall { sampleSyn with source := 5001 }]
  exact (packet_isolated (freshMachine_fresh smallPool fun _ => 0) hbefore
    (c := worldCall sampleSynAck) trivial ((hn 1).trans (hn 0).symm)).1

end BenkerVpn

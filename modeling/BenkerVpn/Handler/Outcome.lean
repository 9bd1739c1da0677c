import BenkerVpn.Session.Ports

/-!
# What a call can do

Inversion lemmas for `add_tcp_session` and for the handlers: every outcome with its guard and the
machine it leaves (`addTcpSession_outcome`, `acceptClient_outcome`, `acceptWorld_outcome`). Proofs
about calls split on these and never unfold the functions. `perform_preserves` reduces an invariant
of all calls to the few changes a call makes to a machine.
-/

set_option autoImplicit false

namespace BenkerVpn

/-! ## Adding a session -/

/-- The machine after `add_tcp_session` created a session for the port `q`. -/
def created (m : Machine) (ip : UInt32) (port q : UInt16) (timeout : Int) (n : UInt32) : Machine :=
  createSession (m.setNextNum n) ip port q timeout

/-- The outcomes of `add_tcp_session`. -/
inductive AddOutcome (m : Machine) (count : Int) (ip : UInt32) (port : UInt16) (timeout : Int) :
    Option SessionPtr → Machine → Prop where
  | found (s : SessionPtr) (hs : getTcpSessionByClient m ip port = some s) :
      AddOutcome m count ip port timeout (some s) m
  | exhausted (n : UInt32) (hs : getTcpSessionByClient m ip port = none)
      (hq : (searchPort m count m.table.nextNum).1 = none) :
      AddOutcome m count ip port timeout none (m.setNextNum n)
  | created (q : UInt16) (n : UInt32) (hs : getTcpSessionByClient m ip port = none)
      (hq : (searchPort m count m.table.nextNum).1 = some q) :
      AddOutcome m count ip port timeout (some m.brk) (created m ip port q timeout n)

theorem addTcpSession_outcome {m m' : Machine} {count : Int} {ip : UInt32} {port : UInt16}
    {timeout : Int} {r : Option SessionPtr}
    (h : addTcpSession m count ip port timeout = (r, m')) :
    AddOutcome m count ip port timeout r m' := by
  have hr : (addTcpSession m count ip port timeout).1 = r := by rw [h]
  have hm : (addTcpSession m count ip port timeout).2 = m' := by rw [h]
  subst hr hm
  unfold addTcpSession
  cases hs : getTcpSessionByClient m ip port with
  | some s => exact .found s hs
  | none =>
      rcases hp : searchPort m count m.table.nextNum with ⟨_ | q, n⟩
      · exact .exhausted n hs (by rw [hp])
      · exact .created q n hs (by rw [hp])

/-! ## Packets from the client -/

/-- The outcomes of `handle_client_packet` on a valid packet, up to the rewriting. -/
inductive ClientOutcome (m : Machine) (count : Int) (seg : Segment) :
    Option SessionPtr → Machine → Prop where
  | unknown (hsyn : seg.syn = false)
      (hs : getTcpSessionByClient m seg.saddr seg.source = none) :
      ClientOutcome m count seg none m
  | exhausted (n : UInt32) (hsyn : seg.syn = true)
      (hs : getTcpSessionByClient m seg.saddr seg.source = none)
      (hq : (searchPort m count m.table.nextNum).1 = none) :
      ClientOutcome m count seg none (m.setNextNum n)
  | expired (s : SessionPtr) (hs : getTcpSessionByClient m seg.saddr seg.source = some s)
      (hexp : expiredAt m.heap (m.clock 0) s = true) :
      ClientOutcome m count seg none (m.tick 1)
  | accepted (s : SessionPtr) (hs : getTcpSessionByClient m seg.saddr seg.source = some s)
      (hexp : expiredAt m.heap (m.clock 0) s = false) :
      ClientOutcome m count seg (some s) ((m.tick 1).store s (clientFlags (m.heap s) seg))
  | createdExpired (q : UInt16) (n : UInt32) (hsyn : seg.syn = true)
      (hs : getTcpSessionByClient m seg.saddr seg.source = none)
      (hq : (searchPort m count m.table.nextNum).1 = some q)
      (hexp : m.clock 0 + 10 < m.clock 1) :
      ClientOutcome m count seg none ((created m seg.saddr seg.source q 10 n).tick 1)
  | createdAccepted (q : UInt16) (n : UInt32) (hsyn : seg.syn = true)
      (hs : getTcpSessionByClient m seg.saddr seg.source = none)
      (hq : (searchPort m count m.table.nextNum).1 = some q)
      (hexp : m.clock 1 ≤ m.clock 0 + 10) :
      ClientOutcome m count seg (some m.brk)
        (((created m seg.saddr seg.source q 10 n).tick 1).store m.brk
          (clientFlags (newSession seg.saddr seg.source q (m.clock 0 + 10)) seg))

theorem created_heap_brk (m : Machine) (ip : UInt32) (port q : UInt16) (timeout : Int)
    (n : UInt32) :
    (created m ip port q timeout n).heap m.brk = newSession ip port q (m.clock 0 + timeout) :=
  createSession_heap_brk ip port q timeout

theorem expiredAt_created (m : Machine) (ip : UInt32) (port q : UInt16) (timeout : Int)
    (n : UInt32) :
    expiredAt (created m ip port q timeout n).heap ((created m ip port q timeout n).clock 0) m.brk =
      decide (m.clock 0 + timeout < m.clock 1) := by
  rw [expiredAt, created_heap_brk]
  show decide (m.clock 1 - (m.clock 0 + timeout) > 0) = _
  exact decide_eq_decide.2 (by constructor <;> intro h <;> omega)

theorem acceptClient_outcome {m m' : Machine} {count : Int} {seg : Segment}
    {r : Option SessionPtr} (h : acceptClient m count seg = (r, m')) :
    ClientOutcome m count seg r m' := by
  have hr : (acceptClient m count seg).1 = r := by rw [h]
  have hm : (acceptClient m count seg).2 = m' := by rw [h]
  subst hr hm
  unfold acceptClient clientSession
  cases hsyn : seg.syn with
  | false =>
      -- the session is looked up
      simp only [Bool.false_eq_true, if_false]
      cases hs : getTcpSessionByClient m seg.saddr seg.source with
      | none => exact .unknown hsyn hs
      | some s =>
          simp only [sessionExpired]
          cases hexp : expiredAt m.heap (m.clock 0) s with
          | true => exact .expired s hs hexp
          | false => exact .accepted s hs hexp
  | true =>
      -- a session is added, unless the key has one
      simp only [if_true]
      rcases hadd : addTcpSession m count seg.saddr seg.source 10 with ⟨r, m'⟩
      cases addTcpSession_outcome hadd with
      | found s hs =>
          simp only [sessionExpired]
          cases hexp : expiredAt m.heap (m.clock 0) s with
          | true => exact .expired s hs hexp
          | false => exact .accepted s hs hexp
      | exhausted n hs hq => exact .exhausted n hsyn hs hq
      | created q n hs hq =>
          -- the new session is judged by the reading behind the one its expiry was made from
          simp only [sessionExpired, expiredAt_created]
          by_cases hexp : m.clock 0 + 10 < m.clock 1
          · simp only [hexp, decide_true]
            exact .createdExpired q n hsyn hs hq hexp
          · simp only [hexp, decide_false, Machine.tick_heap, created_heap_brk]
            exact .createdAccepted q n hsyn hs hq (by omega)

/-! ## Packets from the world -/

/-- The outcomes of `handle_world_packet` on a valid packet, up to the rewriting. -/
inductive WorldOutcome (m : Machine) (seg : Segment) : Option SessionPtr → Machine → Prop where
  | unknown (hs : getTcpSessionByServer m seg.dest = none) : WorldOutcome m seg none m
  | expired (s : SessionPtr) (hs : getTcpSessionByServer m seg.dest = some s)
      (hexp : expiredAt m.heap (m.clock 0) s = true) :
      WorldOutcome m seg none (m.tick 1)
  | accepted (s : SessionPtr) (hs : getTcpSessionByServer m seg.dest = some s)
      (hexp : expiredAt m.heap (m.clock 0) s = false) :
      WorldOutcome m seg (some s) ((m.tick 1).store s (worldFlags (m.heap s) seg))

theorem acceptWorld_outcome {m m' : Machine} {seg : Segment} {r : Option SessionPtr}
    (h : acceptWorld m seg = (r, m')) : WorldOutcome m seg r m' := by
  have hr : (acceptWorld m seg).1 = r := by rw [h]
  have hm : (acceptWorld m seg).2 = m' := by rw [h]
  subst hr hm
  unfold acceptWorld
  cases hs : getTcpSessionByServer m seg.dest with
  | none => exact .unknown hs
  | some s =>
      simp only [sessionExpired]
      cases hexp : expiredAt m.heap (m.clock 0) s with
      | true => exact .expired s hs hexp
      | false => exact .accepted s hs hexp

/-! ## Whole packets -/

/-- The segment of a packet that `validate_ip_tcp` accepts. -/
def segmentOf (b : Buffer) (bufferLen : Int) : Option Segment :=
  (validateIpTcp b bufferLen).map (segmentAt b)

/-- The session for which a call accepts its packet. -/
def Call.session (m : Machine) : Call → Option SessionPtr
  | .client count b bufferLen _ =>
      (segmentOf b bufferLen).bind fun seg => (acceptClient m count seg).1
  | .world b bufferLen => (segmentOf b bufferLen).bind fun seg => (acceptWorld m seg).1
  | _ => none

section Packets

variable (m : Machine) (count : Int) (b : Buffer) (bufferLen : Int) (ip : UInt32)

theorem handleClientPacket_of_none (h : segmentOf b bufferLen = none) :
    handleClientPacket m count b bufferLen ip = reject m b := by
  rw [segmentOf, Option.map_eq_none_iff] at h
  rw [handleClientPacket, h]

theorem handleWorldPacket_of_none (h : segmentOf b bufferLen = none) :
    handleWorldPacket m b bufferLen = reject m b := by
  rw [segmentOf, Option.map_eq_none_iff] at h
  rw [handleWorldPacket, h]

section Valid

variable {m m' : Machine} {count : Int} {b : Buffer} {bufferLen : Int} {seg : Segment}
  (h : segmentOf b bufferLen = some seg)
include h

/-- What the handlers return for a valid packet, by what its segment leads to. -/
theorem handleClientPacket_of_rejected (ip : UInt32)
    (hacc : acceptClient m count seg = (none, m')) :
    handleClientPacket m count b bufferLen ip = reject m' b := by
  obtain ⟨tcp, htcp, rfl⟩ := Option.map_eq_some_iff.1 h
  rw [handleClientPacket, htcp]
  dsimp only
  rw [hacc]

theorem handleClientPacket_of_accepted (ip : UInt32) {s : SessionPtr}
    (hacc : acceptClient m count seg = (some s, m')) :
    handleClientPacket m count b bufferLen ip =
      { ret := .validSession
        machine := m'
        buffer := replaceSrcIpPort b ip (m'.heap s).serverPort
        rstSize := none
        clientIp := none } := by
  obtain ⟨tcp, htcp, rfl⟩ := Option.map_eq_some_iff.1 h
  rw [handleClientPacket, htcp]
  dsimp only
  rw [hacc]

theorem handleWorldPacket_of_rejected (hacc : acceptWorld m seg = (none, m')) :
    handleWorldPacket m b bufferLen = reject m' b := by
  obtain ⟨tcp, htcp, rfl⟩ := Option.map_eq_some_iff.1 h
  rw [handleWorldPacket, htcp]
  dsimp only
  rw [hacc]

theorem handleWorldPacket_of_accepted {s : SessionPtr}
    (hacc : acceptWorld m seg = (some s, m')) :
    handleWorldPacket m b bufferLen =
      { ret := .validSession
        machine := m'
        buffer := replaceDstIpPort b (m'.heap s).clientIp (m'.heap s).clientPort
        rstSize := none
        clientIp := some (m'.heap s).clientIp } := by
  obtain ⟨tcp, htcp, rfl⟩ := Option.map_eq_some_iff.1 h
  rw [handleWorldPacket, htcp]
  dsimp only
  rw [hacc]

end Valid

/-- The session and the machine of a call, by what its segment leads to. -/
theorem client_of_accept {seg : Segment} {r : Option SessionPtr} {m' : Machine}
    (h : segmentOf b bufferLen = some seg) (hacc : acceptClient m count seg = (r, m')) :
    (Call.client count b bufferLen ip).session m = r ∧
      perform m (.client count b bufferLen ip) = m' := by
  constructor
  · rw [Call.session, h, Option.bind_some, hacc]
  · rcases r with _ | s
    · rw [perform, handleClientPacket_of_rejected h ip hacc]
      rfl
    · rw [perform, handleClientPacket_of_accepted h ip hacc]

theorem world_of_accept {seg : Segment} {r : Option SessionPtr} {m' : Machine}
    (h : segmentOf b bufferLen = some seg) (hacc : acceptWorld m seg = (r, m')) :
    (Call.world b bufferLen).session m = r ∧ perform m (.world b bufferLen) = m' := by
  constructor
  · rw [Call.session, h, Option.bind_some, hacc]
  · rcases r with _ | s
    · rw [perform, handleWorldPacket_of_rejected h hacc]
      rfl
    · rw [perform, handleWorldPacket_of_accepted h hacc]

/-- `VALID_SESSION` is returned exactly for a packet accepted for a session. -/
theorem handleClientPacket_ret_iff :
    (handleClientPacket m count b bufferLen ip).ret = .validSession ↔
      ((Call.client count b bufferLen ip).session m).isSome := by
  cases hseg : segmentOf b bufferLen with
  | none =>
      rw [handleClientPacket_of_none _ _ _ _ _ hseg, Call.session, hseg]
      simp [reject]
  | some seg =>
      rcases hacc : acceptClient m count seg with ⟨_ | s, m'⟩
      · obtain ⟨hses, -⟩ := client_of_accept m count b bufferLen ip hseg hacc
        rw [handleClientPacket_of_rejected hseg ip hacc, hses]
        simp [reject]
      · obtain ⟨hses, -⟩ := client_of_accept m count b bufferLen ip hseg hacc
        rw [handleClientPacket_of_accepted hseg ip hacc, hses]
        simp

theorem handleWorldPacket_ret_iff :
    (handleWorldPacket m b bufferLen).ret = .validSession ↔
      ((Call.world b bufferLen).session m).isSome := by
  cases hseg : segmentOf b bufferLen with
  | none =>
      rw [handleWorldPacket_of_none _ _ _ hseg, Call.session, hseg]
      simp [reject]
  | some seg =>
      rcases hacc : acceptWorld m seg with ⟨_ | s, m'⟩
      · obtain ⟨hses, -⟩ := world_of_accept m b bufferLen hseg hacc
        rw [handleWorldPacket_of_rejected hseg hacc, hses]
        simp [reject]
      · obtain ⟨hses, -⟩ := world_of_accept m b bufferLen hseg hacc
        rw [handleWorldPacket_of_accepted hseg hacc, hses]
        simp

end Packets

/-! ## Invariants of all calls -/

/-- A property of machines that survives each change a call makes survives every call. -/
theorem perform_preserves {P : Machine → Prop} {m : Machine} (c : Call)
    (htick : ∀ m n, P m → P (m.tick n))
    (hnext : ∀ m n, P m → P (m.setNextNum n))
    (hcreate : ∀ m ip port q timeout, P m → getTcpSessionByClient m ip port = none →
      getTcpSessionByServer m q = none → (∃ k, q = m.table.probedPort k) →
      P (createSession m ip port q timeout))
    (hstore : ∀ m s v, P m → SameIdentity v (m.heap s) → P (m.store s v))
    (hclean : c = .clean → P m → P (cleanExpiredSession m)) (hm : P m) : P (perform m c) := by
  have hcreated : ∀ count ip port q timeout n, getTcpSessionByClient m ip port = none →
      (searchPort m count m.table.nextNum).1 = some q →
      P (created m ip port q timeout n) := by
    intro count ip port q timeout n hs hq
    -- `next_num` moves first, then the session is created on the free port
    obtain ⟨hfree, hprobed⟩ := searchPort_some hq
    exact hcreate _ ip port q timeout (hnext m n hm) hs hfree hprobed
  cases c with
  | add count ip port timeout =>
      show P (addTcpSession m count ip port timeout).2
      rcases hadd : addTcpSession m count ip port timeout with ⟨r, m'⟩
      cases addTcpSession_outcome hadd with
      | found s hs => exact hm
      | exhausted n hs hq => exact hnext m n hm
      | created q n hs hq => exact hcreated count ip port q timeout n hs hq
  | client count b bufferLen ip =>
      cases hseg : segmentOf b bufferLen with
      | none =>
          rw [perform, handleClientPacket_of_none _ _ _ _ _ hseg]
          exact hm
      | some seg =>
          rcases hacc : acceptClient m count seg with ⟨r, m'⟩
          rw [(client_of_accept m count b bufferLen ip hseg hacc).2]
          cases acceptClient_outcome hacc with
          | unknown hsyn hs => exact hm
          | exhausted n hsyn hs hq => exact hnext m n hm
          | expired s hs hexp => exact htick m 1 hm
          | accepted s hs hexp =>
              exact hstore _ s _ (htick m 1 hm) (clientFlags_sameIdentity _ seg)
          | createdExpired q n hsyn hs hq hexp =>
              exact htick _ 1 (hcreated count _ _ q 10 n hs hq)
          | createdAccepted q n hsyn hs hq hexp =>
              refine hstore _ _ _ (htick _ 1 (hcreated count _ _ q 10 n hs hq)) ?_
              rw [Machine.tick_heap, created_heap_brk]
              exact clientFlags_sameIdentity _ seg
  | world b bufferLen =>
      cases hseg : segmentOf b bufferLen with
      | none =>
          rw [perform, handleWorldPacket_of_none _ _ _ hseg]
          exact hm
      | some seg =>
          rcases hacc : acceptWorld m seg with ⟨r, m'⟩
          rw [(world_of_accept m b bufferLen hseg hacc).2]
          cases acceptWorld_outcome hacc with
          | unknown hs => exact hm
          | expired s hs hexp => exact htick m 1 hm
          | accepted s hs hexp =>
              exact hstore _ s _ (htick m 1 hm) (worldFlags_sameIdentity _ seg)
  | clean => exact hclean rfl hm

end BenkerVpn

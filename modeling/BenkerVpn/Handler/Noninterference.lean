import BenkerVpn.Handler.Isolation
import BenkerVpn.Library.Observations

/-!
# Sessions do not interfere

What the handlers answer to the packets of a stored session depends on the contents of that session
and on its own packets only: not on the packets of other sessions that come in between, on what
else the tables hold, or on which object the session is (`noninterference`). The tables have to be
reached without a cleaning call that takes a session out of one index only.
-/

set_option autoImplicit false

namespace BenkerVpn

open Library.Observations Library.Runs

/-- A call and the readings of the clock that begin with it. -/
structure TimedCall where
  clock : Nat → Int
  call : Call

/-- The machine when the call is made. -/
def TimedCall.at (t : TimedCall) (m : Machine) : Machine := { m with clock := t.clock }

/-- The machine after the call. -/
def performTimed (m : Machine) (t : TimedCall) : Machine := perform (t.at m) t.call

/-- What the caller gets: the return value, the address stored through `client_ip`, the bytes in the
buffer and the reset length. -/
def answer (m : Machine) (t : TimedCall) :
    Option (Verdict × Option UInt32 × Buffer × Option Nat) :=
  (t.call.handled (t.at m)).map fun r => (r.ret, r.clientIp, r.buffer, r.rstSize)

/-- The packet is valid and belongs to the session. -/
def ownPacket (v : TcpSession) (t : TimedCall) : Bool := (t.call.ownSegment v).isSome

/-- A table in which the session is stored with the given identity. -/
structure HoldsSession (pool : PortPool) (v : TcpSession) (s : SessionPtr) (m : Machine) :
    Prop where
  nat : NatInvariant pool m
  stored : Stored v s m

section HoldsSession

variable {pool pool' : PortPool} {v : TcpSession} {s s' : SessionPtr} {m m' : Machine}
  {t : TimedCall}

theorem HoldsSession.at (h : HoldsSession pool v s m) (t : TimedCall) :
    HoldsSession pool v s (t.at m) :=
  ⟨⟨⟨h.nat.indexes.client, h.nat.indexes.server, h.nat.indexes.clientAllocated,
    h.nat.indexes.serverAllocated⟩,
    ⟨h.nat.configured.len, h.nat.configured.minPort, h.nat.configured.modNum⟩, h.nat.agree,
    h.nat.ports⟩, h.stored.inClient, h.stored.inServer, h.stored.identity⟩

theorem HoldsSession.performTimed (h : HoldsSession pool v s m) (ht : t.call.IsPacket) :
    HoldsSession pool v s (performTimed m t) where
  nat := (h.at t).nat.perform t.call (by intro e; rw [e] at ht; exact ht.elim)
  stored := (h.at t).stored.perform (h.at t).nat.indexes ht

/-- A packet of another session leaves the session as it was. -/
theorem HoldsSession.heap_of_other (h : HoldsSession pool v s m) (ht : t.call.IsPacket)
    (hother : ownPacket v t = false) : (BenkerVpn.performTimed m t).heap s = m.heap s :=
  (h.at t).stored.heap_of_not_own (h.at t).nat.indexes ht
    (Option.not_isSome_iff_eq_none.1 (Bool.eq_false_iff.1 hother))

/-- A packet of the session finds it. -/
theorem HoldsSession.lookedUp (h : HoldsSession pool v s m) (hown : ownPacket v t = true) :
    t.call.lookedUp (t.at m) = some s := by
  obtain ⟨⟨sender, seg⟩, hseg⟩ := Option.isSome_iff_exists.1 hown
  obtain ⟨hsegment, hbelongs⟩ := (t.call.ownSegment_eq_some_iff v sender seg).1 hseg
  rw [Call.lookedUp, hsegment, Option.bind_some]
  exact ((h.at t).stored.lookupSession_eq_some_iff (h.at t).nat.indexes sender seg).2 hbelongs

/-- A packet of the session does the same to its contents in both tables. -/
theorem HoldsSession.heap_of_own (h : HoldsSession pool v s m) (h' : HoldsSession pool' v s' m')
    (hsame : m.heap s = m'.heap s') (hown : ownPacket v t = true) :
    (BenkerVpn.performTimed m t).heap s = (BenkerVpn.performTimed m' t).heap s' := by
  obtain ⟨⟨sender, seg⟩, hseg⟩ := Option.isSome_iff_exists.1 hown
  obtain ⟨hsegment, -⟩ := (t.call.ownSegment_eq_some_iff v sender seg).1 hseg
  have hpacket := Call.isPacket_of_segment hsegment
  by_cases htime : t.clock 0 ≤ v.expire
  · have hheap := (h.at t).stored.heap_of_own (h.at t).nat.indexes hpacket hseg htime
    have hheap' := (h'.at t).stored.heap_of_own (h'.at t).nat.indexes hpacket hseg htime
    rw [BenkerVpn.performTimed, BenkerVpn.performTimed, hheap, hheap']
    exact congrArg (flags sender · seg) hsame
  · -- too late in both tables
    have hreject : ∀ {pool : PortPool} {s : SessionPtr} {m : Machine}, HoldsSession pool v s m →
        (BenkerVpn.performTimed m t).heap s = m.heap s := by
      intro pool s m h
      apply perform_heap_of_ne hpacket
        ((h.at t).nat.indexes.clientAllocated s (h.at t).stored.inClient)
      have hlate : ¬ (t.at m).clock 0 ≤ v.expire := htime
      rw [(h.at t).stored.session_eq (h.at t).nat.indexes hseg, if_neg hlate]
      exact (Option.some_ne_none s).symm
    rw [hreject h, hreject h', hsame]

/-- A packet of the session gets the same answer from both tables. -/
theorem HoldsSession.answer_eq (h : HoldsSession pool v s m) (h' : HoldsSession pool' v s' m')
    (hsame : m.heap s = m'.heap s') (ht : t.call.IsPacket) (hown : ownPacket v t = true) :
    answer m t = answer m' t := by
  have hpacket : SamePacket t.call t.call := by
    cases hc : t.call with
    | client count b bufferLen ip => exact .client count count b bufferLen ip
    | world b bufferLen => exact .world b bufferLen
    | add count ip port timeout => rw [hc] at ht; exact ht.elim
    | clean => rw [hc] at ht; exact ht.elim
  exact sameAnswer_of_lookedUp hpacket rfl (h.lookedUp hown) (h'.lookedUp hown) hsame

end HoldsSession

/-- Sessions do not interfere. Take a session that is stored with the same contents in two tables
that were reached without a cleaning call over which the clock has advanced. The answers to its
packets are the same in a run of the handlers on the first table and in the run on the second table
that is left when all other packets are taken away. -/
theorem noninterference {pool pool' : PortPool} {m₀ m₀' : Machine} (hfresh : Fresh pool m₀)
    (hfresh' : Fresh pool' m₀') {before before' : List Call}
    (hbefore : Permitted perform SteadyCall m₀ before)
    (hbefore' : Permitted perform SteadyCall m₀' before') {s s' : SessionPtr}
    (hs : InClient (exec perform m₀ before) s) (hs' : InClient (exec perform m₀' before') s')
    (hsame : (exec perform m₀ before).heap s = (exec perform m₀' before').heap s')
    {events : List TimedCall} (hevents : ∀ t ∈ events, t.call.IsPacket) :
    let own := ownPacket ((exec perform m₀ before).heap s)
    observe own performTimed answer (exec perform m₀ before) events =
      observe own performTimed answer (exec perform m₀' before') (events.filter own) := by
  intro own
  have hnat := natInvariant_of_run hfresh hbefore
  have hnat' := natInvariant_of_run hfresh' hbefore'
  apply observe_eq_filter (R := fun m m' =>
    HoldsSession pool ((exec perform m₀ before).heap s) s m ∧
    HoldsSession pool' ((exec perform m₀ before).heap s) s' m' ∧ m.heap s = m'.heap s')
  · rintro m m' t ht hown ⟨h, h', hcontents⟩
    have hpacket := hevents t ht
    exact ⟨h.answer_eq h' hcontents hpacket hown, h.performTimed hpacket, h'.performTimed hpacket,
      h.heap_of_own h' hcontents hown⟩
  · rintro m m' t ht hother ⟨h, h', hcontents⟩
    have hpacket := hevents t ht
    exact ⟨h.performTimed hpacket, h', (h.heap_of_other hpacket hother).trans hcontents⟩
  · refine ⟨⟨hnat, hs, (hnat.agree s).1 hs, SameIdentity.refl _⟩,
      ⟨hnat', hs', (hnat'.agree s').1 hs', ?_⟩, hsame⟩
    rw [hsame]
    exact SameIdentity.refl _

/-- Two clients, and the first of them alone: the end of its handshake is answered alike. -/
theorem noninterference_handshake :
    let both := [clientCall sampleSyn, clientCall { sampleSyn with source := 5001 }]
    let m := exec perform (freshMachine smallPool fun _ => 0) both
    let m' := exec perform (freshMachine smallPool fun _ => 0) [clientCall sampleSyn]
    let events := [worldCall sampleSynAck, clientCall { sampleAck with source := 5001 },
      clientCall sampleAck].map (TimedCall.mk fun _ => 3)
    observe (ownPacket (m.heap 0)) performTimed answer m events =
      observe (ownPacket (m.heap 0)) performTimed answer m'
        (events.filter (ownPacket (m.heap 0))) := by
  intro both m m' events
  have hpermitted : ∀ calls : List Call, (∀ c ∈ calls, c.IsPacket) →
      Permitted perform SteadyCall (freshMachine smallPool fun _ => 0) calls := by
    intro calls hcalls
    apply permitted_of_forall
    rintro m c hc rfl
    exact (hcalls _ hc).elim
  have hstored : InClient m 0 := ⟨m.table.clientBucket 167772161 5000, by decide +kernel⟩
  have hstored' : InClient m' 0 := ⟨m'.table.clientBucket 167772161 5000, by decide +kernel⟩
  refine noninterference (freshMachine_fresh smallPool _) (freshMachine_fresh smallPool _)
    (hpermitted both ?_) (hpermitted [clientCall sampleSyn] ?_) hstored hstored'
    (by decide +kernel) ?_
  · intro c hc
    simp only [both, List.mem_cons, List.not_mem_nil, or_false] at hc
    rcases hc with rfl | rfl <;> trivial
  · intro c hc
    obtain rfl := List.mem_singleton.1 hc
    trivial
  · intro t ht
    simp only [events, List.map_cons, List.map_nil, List.mem_cons, List.not_mem_nil,
      or_false] at ht
    rcases ht with rfl | rfl | rfl <;> trivial

end BenkerVpn

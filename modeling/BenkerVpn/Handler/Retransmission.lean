import BenkerVpn.Handler.Packets
import BenkerVpn.Handler.Translation

/-!
# Packets that arrive more than once

The UDP network and both ends of a connection repeat packets. Under a clock that never goes back,
however often a packet that was accepted is repeated, the table is left as two copies leave it, and
the second copy changes something exactly if it can record what the first one made possible
(`repeated_packet`): an acknowledgement that completes the handshake is taken for the answer to a
`FIN` when it comes again, and the second copy of a `SYN+ACK` is read for its other flags.
-/

set_option autoImplicit false

namespace BenkerVpn

open Library.Runs

/-- The machines differ at most in the readings of the clock. -/
def SameTable (m m' : Machine) : Prop := m.heap = m'.heap ∧ m.brk = m'.brk ∧ m.table = m'.table

theorem SameTable.refl (m : Machine) : SameTable m m := ⟨rfl, rfl, rfl⟩

theorem SameTable.trans {a b c : Machine} (h : SameTable a b) (h' : SameTable b c) :
    SameTable a c :=
  ⟨h.1.trans h'.1, h.2.1.trans h'.2.1, h.2.2.trans h'.2.2⟩

theorem store_sameTable_iff (m : Machine) (n : Nat) (s : SessionPtr) (v : TcpSession) :
    SameTable ((m.tick n).store s v) m ↔ v = m.heap s := by
  constructor
  · rintro ⟨hheap, -, -⟩
    rw [← hheap, Machine.store_heap_self]
  · rintro rfl
    exact ⟨Function.update_eq_self _ _, rfl, rfl⟩

/-! ## Two copies and three -/

/-- The second copy of the segment changes the session again. -/
def RecordsAgain : Sender → TcpSession → Segment → Prop
  | .client, v, seg =>
      v.synState = 2 ∧ v.clientFinState = 1 ∧ seg.ack = true ∧ v.serverLastStateSeq < seg.ackSeq
  | .world, v, seg =>
      (seg.syn = true ∧ v.synState = 0 ∧ seg.ack = true ∧ v.clientLastStateSeq < seg.ackSeq) ∧
        (v.serverFinState = 1 ∨ (seg.fin = true ∧ v.clientFinState = 0))

section Flags

variable (sender : Sender) (v : TcpSession) (seg : Segment)

theorem flags_twice_iff :
    flags sender (flags sender v seg) seg = flags sender v seg ↔ ¬ RecordsAgain sender v seg := by
  cases sender with
  | client =>
      simp only [flags, clientFlags, RecordsAgain]
      grind
  | world =>
      simp only [flags, worldFlags, RecordsAgain]
      grind

/-- The third copy finds nothing left to record. -/
theorem flags_thrice :
    flags sender (flags sender (flags sender v seg) seg) seg =
      flags sender (flags sender v seg) seg := by
  rw [flags_twice_iff]
  cases sender with
  | client =>
      simp only [flags, clientFlags, RecordsAgain]
      grind
  | world =>
      simp only [flags, worldFlags, RecordsAgain]
      grind

end Flags

/-! ## Repeated packets -/

section Copies

variable {m : Machine} {c : Call} {sender : Sender} {seg : Segment} {s : SessionPtr}

/-- What a packet does whose lookup finds a session. -/
theorem perform_of_lookup (hseg : c.segment = some (sender, seg))
    (hlook : lookupSession m sender seg = some s) :
    perform m c =
      if m.clock 0 ≤ (m.heap s).expire then (m.tick 1).store s (flags sender (m.heap s) seg)
      else m.tick 1 := by
  have hses := session_eq_of_lookup hseg hlook
  cases packet_outcome m (Call.isPacket_of_segment hseg) with
  | accepted sender' seg' hseg' p hp hexp hses' hper =>
      obtain ⟨rfl, rfl⟩ := Call.segment_unique hseg hseg'
      obtain rfl : s = p := Option.some.inj (hlook.symm.trans hp)
      rw [if_pos hexp, hper]
  | expired sender' seg' hseg' p hp hexp hses' hper =>
      obtain ⟨rfl, rfl⟩ := Call.segment_unique hseg hseg'
      obtain rfl : s = p := Option.some.inj (hlook.symm.trans hp)
      rw [if_neg (not_le.2 hexp), hper]
  | invalid hseg' => rw [hseg] at hseg'; cases hseg'
  | unknown sender' seg' hseg' hsyn hp =>
      obtain ⟨rfl, rfl⟩ := Call.segment_unique hseg hseg'
      rw [hlook] at hp
      cases hp
  | exhausted seg' hseg' hsyn hp =>
      obtain ⟨rfl, rfl⟩ := Call.segment_unique hseg hseg'
      rw [hlook] at hp
      cases hp
  | createdExpired seg' hseg' hsyn hp =>
      obtain ⟨rfl, rfl⟩ := Call.segment_unique hseg hseg'
      rw [hlook] at hp
      cases hp
  | createdAccepted seg' hseg' hsyn hp =>
      obtain ⟨rfl, rfl⟩ := Call.segment_unique hseg hseg'
      rw [hlook] at hp
      cases hp

/-- The packet finds its session, in a table that is in order. -/
structure Finds (m : Machine) (sender : Sender) (seg : Segment) (s : SessionPtr) : Prop where
  indexes : Indexes m
  monotone : Monotone m.clock
  lookup : lookupSession m sender seg = some s

theorem Finds.perform (h : Finds m sender seg s) (hseg : c.segment = some (sender, seg)) :
    Finds (perform m c) sender seg s := by
  have hpacket := Call.isPacket_of_segment hseg
  have hidx : Indexes (BenkerVpn.perform m c) := h.indexes.perform c
  obtain ⟨hin, hbel⟩ := (h.indexes.lookupSession_eq_some_iff sender seg s).1 h.lookup
  refine ⟨hidx, (perform_later m c).monotone h.monotone, ?_⟩
  rw [hidx.lookupSession_eq_some_iff]
  refine ⟨(perform_inIndex_iff hpacket sender s).2 (Or.inl hin), ?_⟩
  rwa [Belongs.congr (perform_sameIdentity hpacket (h.indexes.lt_brk hin))]

/-- Another copy of the packet changes nothing: it is too late, or there is nothing to record. -/
def Settled (m : Machine) (sender : Sender) (seg : Segment) (s : SessionPtr) : Prop :=
  m.clock 0 ≤ (m.heap s).expire → flags sender (m.heap s) seg = m.heap s

theorem Finds.sameTable_iff (h : Finds m sender seg s) (hseg : c.segment = some (sender, seg)) :
    SameTable (BenkerVpn.perform m c) m ↔ Settled m sender seg s := by
  rw [perform_of_lookup hseg h.lookup, Settled]
  split
  case isTrue htime =>
    rw [store_sameTable_iff]
    exact ⟨fun heq _ => heq, fun heq => heq htime⟩
  case isFalse htime =>
    exact iff_of_true ⟨rfl, rfl, rfl⟩ fun htime' => absurd htime' htime

theorem Finds.clock_le (h : Finds m sender seg s) (c : Call) :
    m.clock 0 ≤ (BenkerVpn.perform m c).clock 0 := by
  obtain ⟨n, hn⟩ := perform_later m c
  rw [hn]
  exact h.monotone (Nat.zero_le _)

/-- No copy changes anything any more. -/
theorem Finds.repeated (h : Finds m sender seg s) (hseg : c.segment = some (sender, seg))
    (hsettled : Settled m sender seg s) (n : Nat) :
    SameTable (exec BenkerVpn.perform m (List.replicate n c)) m := by
  induction n generalizing m with
  | zero => exact SameTable.refl m
  | succ n ih =>
      have hsame := (h.sameTable_iff hseg).2 hsettled
      rw [List.replicate_succ, exec_cons]
      refine (ih (h.perform hseg) ?_).trans hsame
      intro htime
      rw [hsame.1] at htime ⊢
      exact hsettled ((h.clock_le c).trans htime)

/-- After a copy whose session was updated, another one leaves nothing to record. -/
theorem Finds.settled (h : Finds m sender seg s) (hseg : c.segment = some (sender, seg))
    {v : TcpSession} (hv : m.heap s = flags sender v seg) :
    Settled (BenkerVpn.perform m c) sender seg s := by
  intro htime
  have hper := perform_of_lookup hseg h.lookup
  have hlater := h.clock_le c
  by_cases hnow : m.clock 0 ≤ (m.heap s).expire
  · rw [if_pos hnow] at hper
    rw [hper, Machine.store_heap_self, hv]
    exact flags_thrice sender v seg
  · rw [if_neg hnow] at hper
    rw [hper, Machine.tick_heap] at htime
    rw [hper] at hlater
    exact absurd (hlater.trans htime) hnow

/-- What the first copy leaves behind, when it is accepted. -/
theorem Finds.of_accepted (hidx : Indexes m) (hclock : Monotone m.clock)
    (hseg : c.segment = some (sender, seg)) (hses : c.session m = some s) :
    ∃ v, Finds (BenkerVpn.perform m c) sender seg s ∧
      (BenkerVpn.perform m c).heap s = flags sender v seg ∧
      (lookupSession m sender seg = some s → v = m.heap s) ∧
      (RecordsAgain sender v seg → lookupSession m sender seg = some s) := by
  have hpacket := Call.isPacket_of_segment hseg
  rcases session_cases hpacket hses with
    ⟨sender', seg', hseg', hlook, htime, hper⟩ |
      ⟨seg', q, n, hseg', hsyn, hnone, -, -, rfl, hper⟩
  · obtain ⟨rfl, rfl⟩ := Call.segment_unique hseg hseg'
    refine ⟨m.heap s, Finds.perform ⟨hidx, hclock, hlook⟩ hseg, ?_, fun _ => rfl, fun _ => hlook⟩
    rw [hper, Machine.store_heap_self]
  · obtain ⟨rfl, rfl⟩ := Call.segment_unique hseg hseg'
    have hidx' := hidx.perform c
    refine ⟨newSession seg.saddr seg.source q (m.clock 0 + 10), ⟨hidx', ?_, ?_⟩, ?_, ?_, ?_⟩
    · exact (perform_later m c).monotone hclock
    · -- the new session has the key of the segment
      rw [hidx'.lookupSession_eq_some_iff]
      constructor
      · refine (perform_inIndex_iff hpacket .client m.brk).2 (Or.inr ⟨rfl, ?_⟩)
        rw [hper]
        exact Nat.lt_succ_self _
      · rw [hper, Machine.store_heap_self, Belongs.congr (clientFlags_sameIdentity _ seg)]
        exact ⟨rfl, rfl⟩
    · rw [hper, Machine.store_heap_self, flags]
    · intro hlook
      rw [hnone] at hlook
      cases hlook
    · -- its handshake has not been answered
      rintro ⟨hstate, -⟩
      cases hstate

end Copies

theorem Call.exists_segment_of_session {m : Machine} {c : Call} {s : SessionPtr}
    (h : c.session m = some s) : ∃ sender seg, c.segment = some (sender, seg) := by
  cases hseg : c.segment with
  | some p => exact ⟨p.1, p.2, rfl⟩
  | none =>
      cases c with
      | add count ip port timeout => cases h
      | clean => cases h
      | client count b bufferLen ip =>
          rw [Call.segment, Option.map_eq_none_iff] at hseg
          rw [Call.session, hseg] at h
          cases h
      | world b bufferLen =>
          rw [Call.segment, Option.map_eq_none_iff] at hseg
          rw [Call.session, hseg] at h
          cases h

/-- Take a packet that is accepted in a table that any calls have led to, under a clock that never
goes back. Any further copies leave the table as the second one does, and the second one changes
something exactly if it comes in time, for a session the first one found, and can record more. -/
theorem repeated_packet {pool : PortPool} {m₀ : Machine} (hfresh : Fresh pool m₀)
    (hclock : Monotone m₀.clock) (calls : List Call) {c : Call} {s : SessionPtr}
    (hses : c.session (exec perform m₀ calls) = some s) :
    let m := exec perform m₀ calls
    (∀ n, SameTable (exec perform m (List.replicate (n + 2) c)) (exec perform m [c, c])) ∧
      (SameTable (exec perform m [c, c]) (perform m c) ↔
        ¬ ∃ sender seg, c.segment = some (sender, seg) ∧ lookupSession m sender seg = some s ∧
          (perform m c).clock 0 ≤ (m.heap s).expire ∧ RecordsAgain sender (m.heap s) seg) := by
  intro m
  obtain ⟨sender, seg, hseg⟩ := Call.exists_segment_of_session hses
  have hmonotone : Monotone m.clock := (later_exec m₀ calls).monotone hclock
  obtain ⟨v, hfinds, hheap, hold, hagain⟩ :=
    Finds.of_accepted (indexes_of_run hfresh calls) hmonotone hseg hses
  constructor
  · intro n
    exact (hfinds.perform hseg).repeated hseg (hfinds.settled hseg hheap) n
  · refine (hfinds.sameTable_iff hseg).trans ?_
    have hexpire : ((perform m c).heap s).expire = v.expire := by
      rw [hheap]
      exact (flags_sameIdentity sender v seg).2.2.2
    rw [Settled, hexpire, hheap, flags_twice_iff]
    constructor
    · rintro hsettled ⟨sender', seg', hseg', hlook, htime, hrecords⟩
      obtain ⟨rfl, rfl⟩ := Call.segment_unique hseg hseg'
      rw [← hold hlook] at htime hrecords
      exact hsettled htime hrecords
    · intro hnot htime hrecords
      have hlook := hagain hrecords
      rw [hold hlook] at htime hrecords
      exact hnot ⟨sender, seg, hseg, hlook, htime, hrecords⟩

/-- The world closes right after its `SYN+ACK`: the answer to the `SYN+ACK` is taken for the answer
to the `FIN` when it comes a second time, and no further copy matters. -/
theorem repeated_packet_ack :
    let m := exec perform (freshMachine smallPool fun _ => 0)
      [clientCall sampleSyn, worldCall sampleSynAck, worldCall { sampleSynAck with
        syn := false, fin := true }]
    let c := clientCall sampleAck
    (∀ n, SameTable (exec perform m (List.replicate (n + 2) c)) (exec perform m [c, c])) ∧
      ¬ SameTable (exec perform m [c, c]) (perform m c) := by
  intro m c
  obtain ⟨hmore, hiff⟩ := repeated_packet (c := c) (freshMachine_fresh smallPool fun _ => 0)
    monotone_const [clientCall sampleSyn, worldCall sampleSynAck, worldCall { sampleSynAck with
        syn := false, fin := true }] (show c.session m = some 0 by decide +kernel)
  refine ⟨hmore, fun hsame => hiff.1 hsame ⟨.client, sampleAck, ?_, ?_, ?_, ?_⟩⟩
  · exact Call.segment_client 0 _ (segmentOf_packetOf sampleAck (by decide) (by decide))
  · decide +kernel
  · decide +kernel
  · exact ⟨by decide +kernel, by decide +kernel, by decide, by decide +kernel⟩

end BenkerVpn

import BenkerVpn.Handler.Step
import BenkerVpn.Packet.Reset

/-!
# Does a rejected packet get its own reset?

Both handlers answer a packet they reject with the reset that `fillin_reset` makes from it
(`rejected_eq_reset`). The reset takes the ports and the numbers of the packet from the bytes behind
an IP header of five words, since the header length has been overwritten by then. For a packet with
options these are bytes of the options, so the reset answers the packet exactly if they happen to
read like its TCP header (`reject_answers_iff`,
`optionsPacket_misread`).
-/

set_option autoImplicit false

namespace BenkerVpn

open Library.Octets Library.Runs

/-- The buffer starts with a TCP reset that answers the packet `b`, whose TCP header is at index
`tcp`. -/
structure Answers (r b : Buffer) (tcp : Nat) : Prop where
  reset : ResetPacket r
  protocol_eq : protocol r = ipprotoTcp
  saddr_eq : saddr r = daddr b
  daddr_eq : daddr r = saddr b
  source_eq : source r 20 = dest b tcp
  dest_eq : dest r 20 = source b tcp
  seq_eq : seq r 20 = ackSeq b tcp
  ackSeq_eq : ackSeq r 20 = seq b tcp + 1

/-- The TCP header reads the same behind five words as where it is. -/
structure ReadsAlike (b : Buffer) (tcp : Nat) : Prop where
  source_eq : source b 20 = source b tcp
  dest_eq : dest b 20 = dest b tcp
  seq_eq : seq b 20 = seq b tcp
  ackSeq_eq : ackSeq b 20 = ackSeq b tcp

/-- The handler answered the packet with a reset of the length it stored through `rst_size`. -/
def Handled.Answered (h : Handled) (b : Buffer) : Prop :=
  h.rstSize = some 40 ∧ Answers h.buffer b (ihl b * 4)

/-- The reset answers the packet exactly if its TCP header reads alike. -/
theorem fillinReset_answers_iff {b : Buffer} (hprotocol : protocol b = ipprotoTcp) (tcp : Nat) :
    Answers (fillinReset b).1 b tcp ↔ ReadsAlike b tcp := by
  obtain ⟨hproto, hsaddr, hdaddr, hsource, hdest, hseq, hack⟩ := fillinReset_fields b
  constructor
  · intro h
    constructor
    case source_eq => exact hdest.symm.trans h.dest_eq
    case dest_eq => exact hsource.symm.trans h.source_eq
    case ackSeq_eq => exact hseq.symm.trans h.seq_eq
    case seq_eq => exact (UInt32.add_left_inj 1).1 (hack.symm.trans h.ackSeq_eq)
  · intro h
    constructor
    case reset => exact (fillinReset_resetPacket b).2.1
    case protocol_eq => exact hproto.trans hprotocol
    case saddr_eq => exact hsaddr
    case daddr_eq => exact hdaddr
    case source_eq => exact hsource.trans h.dest_eq
    case dest_eq => exact hdest.trans h.source_eq
    case seq_eq => exact hseq.trans h.ackSeq_eq
    case ackSeq_eq => rw [hack, h.seq_eq]

/-- Without options the TCP header is where it is read. -/
theorem readsAlike_of_ihl {b : Buffer} (h : ihl b = 5) : ReadsAlike b (ihl b * 4) := by
  rw [h]
  exact ⟨rfl, rfl, rfl, rfl⟩

theorem reject_answered_iff {b : Buffer} (hprotocol : protocol b = ipprotoTcp) (m : Machine) :
    (reject m b).Answered b ↔ ihl b = 5 ∨ ReadsAlike b (ihl b * 4) := by
  have hsize : (reject m b).rstSize = some 40 := congrArg some (fillinReset_resetPacket b).1
  rw [Handled.Answered, and_iff_right hsize]
  show Answers (fillinReset b).1 b (ihl b * 4) ↔ _
  rw [fillinReset_answers_iff hprotocol, or_iff_right_of_imp readsAlike_of_ihl]

/-- What a handler returns for a packet it rejects. -/
theorem rejected_eq_reset (m : Machine) (b : Buffer) (bufferLen : Int) :
    (∀ count ip, (handleClientPacket m count b bufferLen ip).ret = .invalidSession →
      ∃ m', handleClientPacket m count b bufferLen ip = reject m' b) ∧
    ((handleWorldPacket m b bufferLen).ret = .invalidSession →
      ∃ m', handleWorldPacket m b bufferLen = reject m' b) := by
  constructor
  · intro count ip hret
    have hnone : (Call.client count b bufferLen ip).session m = none := by
      rw [← Option.not_isSome_iff_eq_none, ← handleClientPacket_ret_iff, hret]
      decide
    exact ⟨_, handleClientPacket_of_session_none hnone⟩
  · intro hret
    have hnone : (Call.world b bufferLen).session m = none := by
      rw [← Option.not_isSome_iff_eq_none, ← handleWorldPacket_ret_iff, hret]
      decide
    exact ⟨_, handleWorldPacket_of_session_none hnone⟩

/-- A rejected packet is answered by its own reset exactly if it has no IP options or these read
like its TCP header. -/
theorem reject_answers_iff (m : Machine) {b : Buffer} {bufferLen : Int}
    (h : WellFormedTcp b bufferLen) :
    (∀ count ip, (handleClientPacket m count b bufferLen ip).ret = .invalidSession →
      ((handleClientPacket m count b bufferLen ip).Answered b ↔
        ihl b = 5 ∨ ReadsAlike b (ihl b * 4))) ∧
    ((handleWorldPacket m b bufferLen).ret = .invalidSession →
      ((handleWorldPacket m b bufferLen).Answered b ↔
        ihl b = 5 ∨ ReadsAlike b (ihl b * 4))) := by
  obtain ⟨hclient, hworld⟩ := rejected_eq_reset m b bufferLen
  constructor
  · intro count ip hret
    obtain ⟨m', hm'⟩ := hclient count ip hret
    rw [hm']
    exact reject_answered_iff h.protocol_eq m'
  · intro hret
    obtain ⟨m', hm'⟩ := hworld hret
    rw [hm']
    exact reject_answered_iff h.protocol_eq m'

theorem bareSegment_wellFormedTcp : WellFormedTcp bareSegment 40 :=
  ⟨by decide, by decide, by decide, bareSegment_wellFormed⟩

/-- A packet without options that belongs to no session gets its reset. -/
theorem bareSegment_answered :
    (handleClientPacket (freshMachine smallPool fun _ => 0) 0 bareSegment 40 3232266986).Answered
      bareSegment :=
  ((reject_answers_iff (freshMachine smallPool fun _ => 0) bareSegment_wellFormedTcp).1 0 3232266986
    (by decide +kernel)).2 (Or.inl (by decide))

/-- A packet from port 5000 to port 80 with one word of IP options. -/
def optionsPacket : Buffer :=
  let b := fun i =>
    if i = 0 then 0x46 else if i = 3 then 44 else if i = 9 then ipprotoTcp
    else if i = 36 then 0x50 else 0
  put16 (put16 b 24 5000) 26 80

/-- The reset for it comes from port 0, which is read from the options, and not from port 80. -/
theorem optionsPacket_misread :
    WellFormedTcp optionsPacket 44 ∧
      (handleClientPacket (freshMachine smallPool fun _ => 0) 0 optionsPacket 44 3232266986).ret =
        .invalidSession ∧
      ¬ (handleClientPacket (freshMachine smallPool fun _ => 0) 0 optionsPacket 44
        3232266986).Answered optionsPacket := by
  refine ⟨⟨by decide, by decide, by decide, by decide, by decide, by decide, by decide⟩,
    by decide +kernel, fun h => ?_⟩
  have hsource := h.2.source_eq
  revert hsource
  decide +kernel

end BenkerVpn

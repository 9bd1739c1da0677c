import BenkerVpn.Handler.Step

/-!
# What a segment does to each state

The flag handling of the two handlers, read field by field. The segments of a sender record its own
`FIN` (`RecordsFin`) and are taken for the acknowledgement of the `FIN` of the other side
(`TakenForAck`); `finState_flags_cases` says that nothing else moves a `FIN` state, and
`synState_flags_cases` what moves the state of the handshake.
-/

set_option autoImplicit false

namespace BenkerVpn

/-- The field that follows the `FIN` of a sender. -/
def finState : Sender → TcpSession → UInt8
  | .client, v => v.serverFinState
  | .world, v => v.clientFinState

/-- The `FIN` of the sender is recorded. -/
def RecordsFin : Sender → TcpSession → Segment → Prop
  | .client, v, seg =>
      seg.fin = true ∧ v.serverFinState = 0 ∧ ¬ (seg.syn = true ∧ v.synState = 0)
  | .world, v, seg =>
      seg.fin = true ∧ v.clientFinState = 0 ∧
        ¬ (seg.syn = true ∧ v.synState = 0 ∧ seg.ack = true ∧ v.clientLastStateSeq < seg.ackSeq)

/-- A packet of the other side is taken for the acknowledgement of the sender's `FIN`. -/
def TakenForAck : Sender → TcpSession → Segment → Prop
  | .client, v, seg =>
      seg.ack = true ∧ v.serverFinState = 1 ∧ v.clientLastStateSeq < seg.ackSeq ∧
        ¬ (seg.syn = true ∧ v.synState = 0)
  | .world, v, seg =>
      seg.ack = true ∧ v.clientFinState = 1 ∧ v.serverLastStateSeq < seg.ackSeq ∧
        v.synState ≠ 2 ∧ ¬ (seg.syn = true ∧ v.synState = 0)

instance (sender : Sender) (v : TcpSession) (seg : Segment) :
    Decidable (RecordsFin sender v seg) := by
  cases sender <;> unfold RecordsFin <;> infer_instance

instance (sender : Sender) (v : TcpSession) (seg : Segment) :
    Decidable (TakenForAck sender v seg) := by
  cases sender <;> unfold TakenForAck <;> infer_instance

section Guards

variable {sender : Sender} {v : TcpSession} {seg : Segment}

theorem RecordsFin.fin (h : RecordsFin sender v seg) : seg.fin = true := by
  cases sender with
  | client => exact h.1
  | world => exact h.1

theorem RecordsFin.finState_eq (h : RecordsFin sender v seg) : finState sender v = 0 := by
  cases sender with
  | client => exact h.2.1
  | world => exact h.2.1

theorem TakenForAck.ack (h : TakenForAck sender v seg) : seg.ack = true := by
  cases sender with
  | client => exact h.1
  | world => exact h.1

theorem TakenForAck.finState_eq (h : TakenForAck sender v seg) : finState sender v = 1 := by
  cases sender with
  | client => exact h.2.1
  | world => exact h.2.1

end Guards

/-! ## The `FIN` states -/

/-- The sender's own packets move its `FIN` state to `1`. -/
theorem finState_flags (sender : Sender) (v : TcpSession) (seg : Segment) :
    finState sender (flags sender v seg) =
      if RecordsFin sender v seg then 1 else finState sender v := by
  cases sender with
  | client =>
      simp only [finState, flags, clientFlags, RecordsFin]
      grind
  | world =>
      simp only [finState, flags, worldFlags, RecordsFin]
      grind

/-- The packets of the other side move it to `2`. -/
theorem finState_flags_peer (sender : Sender) (v : TcpSession) (seg : Segment) :
    finState sender (flags sender.peer v seg) =
      if TakenForAck sender v seg then 2 else finState sender v := by
  cases sender with
  | client =>
      simp only [finState, Sender.peer, flags, worldFlags, TakenForAck]
      grind
  | world =>
      simp only [finState, Sender.peer, flags, clientFlags, TakenForAck]
      grind

theorem Sender.eq_or_eq_peer (a b : Sender) : b = a ∨ b = a.peer := by
  cases a <;> cases b <;> simp [Sender.peer]

/-- Everything that a segment can do to a `FIN` state. -/
theorem finState_flags_cases (sender sender' : Sender) (v : TcpSession) (seg : Segment) :
    finState sender (flags sender' v seg) = finState sender v ∨
      (sender' = sender ∧ RecordsFin sender v seg ∧ finState sender (flags sender' v seg) = 1) ∨
      (sender' = sender.peer ∧ TakenForAck sender v seg ∧
        finState sender (flags sender' v seg) = 2) := by
  rcases sender.eq_or_eq_peer sender' with rfl | rfl
  · by_cases h : RecordsFin sender' v seg
    · exact Or.inr (Or.inl ⟨rfl, h, by rw [finState_flags, if_pos h]⟩)
    · exact Or.inl (by rw [finState_flags, if_neg h])
  · by_cases h : TakenForAck sender v seg
    · exact Or.inr (Or.inr ⟨rfl, h, by rw [finState_flags_peer, if_pos h]⟩)
    · exact Or.inl (by rw [finState_flags_peer, if_neg h])

/-! ## The state of the handshake -/

/-- Everything that a segment can do to the state of the handshake: the world's answer to the `SYN`
moves it to `2`, and the client's answer to that one to `3`. -/
theorem synState_flags_cases (sender : Sender) (v : TcpSession) (seg : Segment) :
    (flags sender v seg).synState = v.synState ∨
      (sender = .world ∧ (seg.syn = true ∧ seg.ack = true) ∧ v.synState = 0 ∧
        (flags sender v seg).synState = 2) ∨
      (sender = .client ∧ seg.ack = true ∧ v.synState = 2 ∧
        (flags sender v seg).synState = 3) := by
  cases sender with
  | client =>
      simp only [flags, clientFlags]
      grind
  | world =>
      simp only [flags, worldFlags]
      grind

end BenkerVpn

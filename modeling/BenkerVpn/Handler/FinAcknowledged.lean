import BenkerVpn.Handler.Edges

/-!
# When a `FIN` counts as acknowledged

The handlers take a packet for the acknowledgement of the other side's `FIN` if its acknowledgement
number exceeds the stored one, compared as plain numbers. What is stored is the number of the packet
with the `FIN`, not the one behind its data, and a `SYN` may overwrite it. A `FIN` state therefore
moves to `2` on a packet that covers the `FIN` (`Covers`) exactly if the packet taken for its
acknowledgement lies neither within its data nor behind it (`finAcknowledged_iff`); an
acknowledgement of part of the data is taken too (`partialAck_taken`).
-/

set_option autoImplicit false

namespace BenkerVpn

open Library.Octets Library.Buckets Library.Runs

/-! ## Steps of a `FIN` state -/

/-- A valid packet arrives in time for a stored session. -/
structure Arrives (m : Machine) (c : Call) (sender : Sender) (seg : Segment) (s : SessionPtr) :
    Prop where
  stored : InClient m s
  segment_eq : c.segment = some (sender, seg)
  found : lookupSession m sender seg = some s
  inTime : m.clock 0 ≤ (m.heap s).expire

theorem Arrives.session_eq {m : Machine} {c : Call} {sender : Sender} {seg : Segment}
    {s : SessionPtr} (h : Arrives m c sender seg s) : c.session m = some s := by
  rw [session_eq_of_lookup h.segment_eq h.found, if_pos h.inTime]

theorem Arrives.heap_eq {m : Machine} {c : Call} {sender : Sender} {seg : Segment}
    {s : SessionPtr} (h : Arrives m c sender seg s) :
    (perform m c).heap s = flags sender (m.heap s) seg :=
  perform_heap_of_lookup h.segment_eq h.found h.inTime

/-- The call moves the `FIN` state of the stored session from one value to another. -/
def MovesFin (sender : Sender) (a b : UInt8) (s : SessionPtr) (m : Machine) (c : Call) : Prop :=
  InClient m s ∧ finState sender (m.heap s) = a ∧ finState sender ((perform m c).heap s) = b

theorem Edges.finState {v w : TcpSession} (h : Edges v w) (sender : Sender) :
    FinEdge (finState sender v) (finState sender w) := by
  cases sender with
  | client => exact h.serverFin
  | world => exact h.clientFin

section Step

variable {m : Machine} {c : Call} (h : Indexes m) (hc : c.IsPacket) {sender : Sender}
  {s : SessionPtr}
include h hc

/-- Only a packet that arrives for the session moves its states, by its flags. -/
theorem MovesFin.arrives {a b : UInt8} (hmove : MovesFin sender a b s m c) (hne : b ≠ a) :
    ∃ sender' seg, Arrives m c sender' seg s ∧
      finState sender (flags sender' (m.heap s) seg) = b := by
  obtain ⟨hin, ha, hb⟩ := hmove
  have hlt := h.clientAllocated s hin
  by_cases hses : c.session m = some s
  · obtain ⟨sender', seg, hseg, hfound, htime, -⟩ := perform_heap_of_accepted hc hlt hses
    have harrives : Arrives m c sender' seg s := ⟨hin, hseg, hfound, htime⟩
    rw [harrives.heap_eq] at hb
    exact ⟨sender', seg, harrives, hb⟩
  · rw [perform_heap_of_ne hc hlt hses, ha] at hb
    exact absurd hb.symm hne

/-- A `FIN` state becomes `1` when a `FIN` is recorded. -/
theorem movesFin_zero_one_iff :
    MovesFin sender 0 1 s m c ↔
      ∃ seg, Arrives m c sender seg s ∧ RecordsFin sender (m.heap s) seg := by
  constructor
  · intro hmove
    obtain ⟨sender', seg, harrives, hone⟩ := hmove.arrives h hc (by decide)
    have hzero := hmove.2.1
    rcases finState_flags_cases sender sender' (m.heap s) seg with
      hsame | ⟨rfl, hrecords, -⟩ | ⟨-, -, htwo⟩
    · rw [hsame, hzero] at hone
      exact absurd hone (by decide)
    · exact ⟨seg, harrives, hrecords⟩
    · -- the other side does not move it to `1`
      rw [htwo] at hone
      exact absurd hone (by decide)
  · rintro ⟨seg, harrives, hrecords⟩
    refine ⟨harrives.stored, hrecords.finState_eq, ?_⟩
    rw [harrives.heap_eq, finState_flags, if_pos hrecords]

/-- It becomes `2` when a packet of the other side is taken for the acknowledgement. -/
theorem movesFin_one_two_iff :
    MovesFin sender 1 2 s m c ↔
      ∃ seg, Arrives m c sender.peer seg s ∧ TakenForAck sender (m.heap s) seg := by
  constructor
  · intro hmove
    obtain ⟨sender', seg, harrives, htwo⟩ := hmove.arrives h hc (by decide)
    have hone := hmove.2.1
    rcases finState_flags_cases sender sender' (m.heap s) seg with
      hsame | ⟨-, -, hset⟩ | ⟨rfl, htaken, -⟩
    · rw [hsame, hone] at htwo
      exact absurd htwo (by decide)
    · -- the sender itself does not move it to `2`
      rw [hset] at htwo
      exact absurd htwo (by decide)
    · exact ⟨seg, harrives, htaken⟩
  · rintro ⟨seg, harrives, htaken⟩
    refine ⟨harrives.stored, htaken.finState_eq, ?_⟩
    rw [harrives.heap_eq, finState_flags_peer, if_pos htaken]

end Step

/-- A `FIN` state that is not `0` was moved to `1` by some call of the run. -/
theorem occurs_movesFin {pool : PortPool} {m₀ : Machine} (hfresh : Fresh pool m₀)
    {calls : List Call} (hcalls : ∀ c ∈ calls, c.IsPacket) {sender : Sender} {s : SessionPtr}
    (hs : InClient (exec perform m₀ calls) s)
    (hne : finState sender ((exec perform m₀ calls).heap s) ≠ 0) :
    Occurs perform [MovesFin sender 0 1 s] m₀ calls := by
  have hstart : ¬ (InClient m₀ s ∧ finState sender (m₀.heap s) ≠ 0) := fun h =>
    hfresh.not_inClient s h.1
  obtain ⟨pre, c, post, rfl, ⟨hbefore, hin, hafter⟩, -⟩ :=
    occurs_of_exec (P := fun m => InClient m s ∧ finState sender (m.heap s) ≠ 0) hstart ⟨hs, hne⟩
  refine ⟨pre, c, post, rfl, ?_, trivial⟩
  have hidx : Indexes (exec perform m₀ pre) := indexes_of_run hfresh pre
  obtain ⟨hedges, hnew⟩ := hidx.moves (hcalls c (by simp)) hin
  by_cases hold : InClient (exec perform m₀ pre) s
  · have hzero : finState sender ((exec perform m₀ pre).heap s) = 0 := by
      by_contra hne'
      exact hbefore ⟨hold, hne'⟩
    refine ⟨hold, hzero, ?_⟩
    rcases (hedges hold).finState sender with hsame | ⟨-, hone⟩ | ⟨hone, -⟩
    · exact absurd (hsame.trans hzero) hafter
    · exact hone
    · rw [hzero] at hone
      exact absurd hone (by decide)
  · -- a new session starts with both states `0`
    obtain ⟨-, hclient, hserver⟩ := hnew hold
    cases sender with
    | client => exact absurd hserver hafter
    | world => exact absurd hclient hafter

/-! ## Covering -/

/-- The data bytes of the packet in a buffer. -/
def payloadLength (b : Buffer) : Nat := (totLen b).toNat - ihl b * 4 - doff b (ihl b * 4) * 4

/-- The data bytes of the packet of a call. -/
def Call.payloadLength : Call → Nat
  | .client _ b _ _ => BenkerVpn.payloadLength b
  | .world b _ => BenkerVpn.payloadLength b
  | _ => 0

/-- The acknowledgement number is at or after the number that follows a `FIN` with the number `seq`
and `payload` bytes of data, in the order of sequence numbers. -/
def Covers (ackSeq seq : UInt32) (payload : Nat) : Prop :=
  (ackSeq - (seq + UInt32.ofNat payload + 1)).toNat < 2147483648

/-- In other words, it lies behind the payload and at most half a turn ahead. -/
theorem covers_iff {payload : Nat} (hpayload : payload < 65536) (ackSeq seq : UInt32) :
    Covers ackSeq seq payload ↔
      payload < (ackSeq - seq).toNat ∧ (ackSeq - seq).toNat ≤ payload + 2147483648 := by
  have hack := ackSeq.toNat_lt
  have hseq := seq.toNat_lt
  have hone : (1 : UInt32).toNat = 1 := rfl
  rw [Covers, UInt32.toNat_sub, UInt32.toNat_sub, UInt32.toNat_add, UInt32.toNat_add,
    UInt32.toNat_ofNat', hone]
  omega

theorem Call.payloadLength_lt (c : Call) : c.payloadLength < 65536 := by
  have hlt : ∀ b, BenkerVpn.payloadLength b < 65536 := by
    intro b
    have htot := (totLen b).toNat_lt
    rw [BenkerVpn.payloadLength]
    omega
  cases c with
  | client count b bufferLen ip => exact hlt b
  | world b bufferLen => exact hlt b
  | add count ip port timeout => exact Nat.zero_lt_succ _
  | clean => exact Nat.zero_lt_succ _

/-- If the call moves a `FIN` state of a stored session from `1` to `2`, its packet is accepted for
the session, comes from the other side, has `ACK` set and covers the `FIN` that moved the state from
`0` to `1`. -/
def FinAcknowledged (m₀ : Machine) (pre : List Call) (c : Call) : Prop :=
  ∀ sender s, MovesFin sender 1 2 s (exec perform m₀ pre) c →
    ∃ seg, c.session (exec perform m₀ pre) = some s ∧ c.segment = some (sender.peer, seg) ∧
      seg.ack = true ∧ Occurs perform [MovesFin sender 0 1 s] m₀ pre ∧
      ∀ pre' f mid, pre = pre' ++ f :: mid → MovesFin sender 0 1 s (exec perform m₀ pre') f →
        ∃ fin, f.segment = some (sender, fin) ∧ fin.fin = true ∧
          Covers seg.ackSeq fin.seq f.payloadLength

/-- If the packet of the call is taken for the acknowledgement of a recorded `FIN`, then its number
lies neither within the payload of the `FIN` nor more than half a turn ahead. -/
def AckFits (m₀ : Machine) (pre : List Call) (c : Call) : Prop :=
  ∀ sender s seg, Arrives (exec perform m₀ pre) c sender.peer seg s →
    TakenForAck sender ((exec perform m₀ pre).heap s) seg →
      ∀ pre' f mid fin, pre = pre' ++ f :: mid →
        Arrives (exec perform m₀ pre') f sender fin s →
          RecordsFin sender ((exec perform m₀ pre').heap s) fin →
            f.payloadLength < (seg.ackSeq - fin.seq).toNat ∧
              (seg.ackSeq - fin.seq).toNat ≤ f.payloadLength + 2147483648

section Run

variable {pool : PortPool} {m₀ : Machine} (hfresh : Fresh pool m₀)
include hfresh

/-- One step of a run. -/
theorem finAcknowledged_iff_ackFits {pre : List Call} {c : Call} (hpre : ∀ c ∈ pre, c.IsPacket)
    (hc : c.IsPacket) : FinAcknowledged m₀ pre c ↔ AckFits m₀ pre c := by
  have hidx : ∀ calls, Indexes (exec perform m₀ calls) := indexes_of_run hfresh
  constructor
  · intro hstep sender s seg harrives htaken pre' f mid fin hsplit hfin hrecords
    have hf : f.IsPacket := hpre f (by simp [hsplit])
    have hmove := (movesFin_one_two_iff (hidx pre) hc).2 ⟨seg, harrives, htaken⟩
    have hset := (movesFin_zero_one_iff (hidx pre') hf).2 ⟨fin, hfin, hrecords⟩
    obtain ⟨seg', -, hseg', -, -, hcovers⟩ := hstep sender s hmove
    obtain ⟨fin', hfin', -, hcover⟩ := hcovers pre' f mid hsplit hset
    -- a call has one segment
    obtain ⟨-, rfl⟩ := Call.segment_unique harrives.segment_eq hseg'
    obtain ⟨-, rfl⟩ := Call.segment_unique hfin.segment_eq hfin'
    exact (covers_iff f.payloadLength_lt _ _).1 hcover
  · intro hfits sender s hmove
    obtain ⟨seg, harrives, htaken⟩ := (movesFin_one_two_iff (hidx pre) hc).1 hmove
    have hne : finState sender ((exec perform m₀ pre).heap s) ≠ 0 := by
      rw [hmove.2.1]
      decide
    refine ⟨seg, harrives.session_eq, harrives.segment_eq, htaken.ack,
      occurs_movesFin hfresh hpre hmove.1 hne, ?_⟩
    intro pre' f mid hsplit hset
    have hf : f.IsPacket := hpre f (by simp [hsplit])
    obtain ⟨fin, hfin, hrecords⟩ := (movesFin_zero_one_iff (hidx pre') hf).1 hset
    have hbounds := hfits sender s seg harrives htaken pre' f mid fin hsplit hfin hrecords
    exact ⟨fin, hfin.segment_eq, hrecords.fin, (covers_iff f.payloadLength_lt _ _).2 hbounds⟩

/-- In a run every `FIN` counts as acknowledged only when it is, exactly if every packet that is
taken for its acknowledgement fits. -/
theorem finAcknowledged_iff {calls : List Call} (hcalls : ∀ c ∈ calls, c.IsPacket) :
    Throughout (FinAcknowledged m₀) calls ↔ Throughout (AckFits m₀) calls := by
  apply throughout_congr
  rintro pre c post rfl
  exact finAcknowledged_iff_ackFits hfresh (fun c' hc' => hcalls c' (by simp [hc']))
    (hcalls c (by simp))

end Run

/-- A run in which every acknowledgement fits every `FIN` of the other side, whatever is stored. -/
theorem ackFits_of_segments {m₀ : Machine} {calls : List Call}
    (h : ∀ f ∈ calls, ∀ c ∈ calls, ∀ sender fin seg, f.segment = some (sender, fin) →
      fin.fin = true → c.segment = some (sender.peer, seg) → seg.ack = true →
        f.payloadLength < (seg.ackSeq - fin.seq).toNat ∧
          (seg.ackSeq - fin.seq).toNat ≤ f.payloadLength + 2147483648) :
    Throughout (AckFits m₀) calls := by
  rintro pre c post rfl sender s seg harrives htaken pre' f mid fin rfl hfin hrecords
  exact h f (by simp) c (by simp) sender fin seg hfin.segment_eq hrecords.fin harrives.segment_eq
    htaken.ack

/-! ## A `FIN` with data -/

/-- The `FIN` of the client behind the handshake. -/
def sampleFin : Segment := { sampleAck with seq := 2000, fin := true }

/-- An acknowledgement of the world. -/
def worldAck (ackSeq : UInt32) : Segment := { sampleSynAck with ackSeq := ackSeq, syn := false }

/-- The `FIN` with ten bytes of data. -/
def finWithData : Call := .client 0 (put16 (packetOf sampleFin) 2 50) 9000 3232266986

/-- The world acknowledges five of the ten bytes, and the `FIN` counts as acknowledged. -/
theorem partialAck_taken :
    let m₀ := freshMachine smallPool fun _ => 0
    let pre := [clientCall sampleSyn, worldCall sampleSynAck, clientCall sampleAck]
    let c := worldCall (worldAck 2005)
    Fresh smallPool m₀ ∧ (∀ c' ∈ pre ++ [finWithData] ++ [c], c'.IsPacket) ∧
      ¬ Throughout (FinAcknowledged m₀) (pre ++ [finWithData] ++ [c]) := by
  intro m₀ pre c
  refine ⟨freshMachine_fresh smallPool _, ?_, fun hall => ?_⟩
  · intro c' hc'
    simp only [pre, c, List.mem_append, List.mem_cons, List.not_mem_nil, or_false] at hc'
    rcases hc' with ((rfl | rfl | rfl) | rfl) | rfl <;> trivial
  · have hstep := ((throughout_concat c).1 hall).2
    have hset : MovesFin .client 0 1 0 (exec perform m₀ pre) finWithData :=
      ⟨⟨1, by decide +kernel⟩, by decide +kernel, by decide +kernel⟩
    obtain ⟨seg, -, hseg, -, -, hcovers⟩ := hstep .client 0
      ⟨⟨1, by decide +kernel⟩, by decide +kernel, by decide +kernel⟩
    obtain ⟨fin, hfin, -, hcover⟩ := hcovers pre finWithData [] rfl hset
    have hack : c.segment = some (.world, worldAck 2005) := callOf_segment (.world, worldAck 2005)
    have hsegment : finWithData.segment = some (.client, sampleFin) := by decide +kernel
    obtain ⟨-, rfl⟩ := Call.segment_unique hack hseg
    obtain ⟨-, rfl⟩ := Call.segment_unique hsegment hfin
    -- the number that follows the `FIN` is 2011
    have hbounds := ((covers_iff finWithData.payloadLength_lt _ _).1 hcover).1
    revert hbounds
    decide +kernel

/-- A `FIN` without data and its acknowledgement. -/
theorem plainFin_acknowledged :
    Throughout (FinAcknowledged (freshMachine smallPool fun _ => 0))
      ([(.client, sampleSyn), (.client, sampleFin), (.world, worldAck 2001)].map callOf) := by
  refine (finAcknowledged_iff (freshMachine_fresh smallPool fun _ => 0) ?_).2
    (ackFits_of_segments ?_)
  · intro c hc
    obtain ⟨p, -, rfl⟩ := List.mem_map.1 hc
    exact Call.isPacket_of_segment (callOf_segment p)
  · have hfits : ∀ p ∈ [(Sender.client, sampleSyn), (.client, sampleFin), (.world, worldAck 2001)],
        ∀ q ∈ [(Sender.client, sampleSyn), (.client, sampleFin), (.world, worldAck 2001)],
          p.2.fin = true → q.1 = p.1.peer → q.2.ack = true →
            (callOf p).payloadLength < (q.2.ackSeq - p.2.seq).toNat ∧
              (q.2.ackSeq - p.2.seq).toNat ≤ (callOf p).payloadLength + 2147483648 := by
      decide +kernel
    intro f hf c hc sender fin seg hfin hflag hseg hack
    obtain ⟨p, hp, rfl⟩ := List.mem_map.1 hf
    obtain ⟨q, hq, rfl⟩ := List.mem_map.1 hc
    rw [callOf_segment, Option.some.injEq] at hfin hseg
    subst hfin hseg
    have hpair := hfits (sender, fin) hp (sender.peer, seg) hq hflag rfl hack
    exact hpair

end BenkerVpn

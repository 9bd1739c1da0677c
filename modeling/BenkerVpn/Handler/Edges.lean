import BenkerVpn.Handler.Flags

/-!
# How the state of a session advances

The three state fields of a session move along fixed edges, each under flags of the packet that
moves them (`Advance`). `SessionHistory` follows a session through a run: every value of a field is
accounted for by packets accepted in the right order. The session itself was created by a `SYN`;
that packet was accepted, except that the clock may pass the expire time of the new session before
it is read again (`CreatedBySyn`). Then no later packet is accepted either, unless the clock goes
back (`session_advances`, `rejectedSyn_followed_by_synAck`).
-/

set_option autoImplicit false

namespace BenkerVpn

open Library.Buckets Library.Runs

/-! ## Edges -/

/-- The edges of `syn_state`. -/
def SynEdge (a b : UInt8) : Prop := b = a ∨ (a = 0 ∧ b = 2) ∨ (a = 2 ∧ b = 3)

/-- The edges of `client_fin_state` and of `server_fin_state`. -/
def FinEdge (a b : UInt8) : Prop := b = a ∨ (a = 0 ∧ b = 1) ∨ (a = 1 ∧ b = 2)

theorem SynEdge.le {a b : UInt8} (h : SynEdge a b) : a ≤ b := by
  rcases h with rfl | ⟨rfl, rfl⟩ | ⟨rfl, rfl⟩
  · exact UInt8.le_refl b
  · decide
  · decide

theorem FinEdge.le {a b : UInt8} (h : FinEdge a b) : a ≤ b := by
  rcases h with rfl | ⟨rfl, rfl⟩ | ⟨rfl, rfl⟩
  · exact UInt8.le_refl b
  · decide
  · decide

/-- The three state fields move along their edges, or stay. -/
structure Edges (v w : TcpSession) : Prop where
  syn : SynEdge v.synState w.synState
  clientFin : FinEdge v.clientFinState w.clientFinState
  serverFin : FinEdge v.serverFinState w.serverFinState

theorem Edges.refl (v : TcpSession) : Edges v v := ⟨Or.inl rfl, Or.inl rfl, Or.inl rfl⟩

/-- What a segment can move, by its sender and its flags. -/
structure Advance (sender : Sender) (seg : Segment) (v w : TcpSession) : Prop where
  syn : w.synState = v.synState ∨
    (sender = .world ∧ (seg.syn = true ∧ seg.ack = true) ∧ v.synState = 0 ∧ w.synState = 2) ∨
    (sender = .client ∧ seg.ack = true ∧ v.synState = 2 ∧ w.synState = 3)
  clientFin : w.clientFinState = v.clientFinState ∨
    (sender = .world ∧ seg.fin = true ∧ v.clientFinState = 0 ∧ w.clientFinState = 1) ∨
    (sender = .client ∧ seg.ack = true ∧ v.clientFinState = 1 ∧ w.clientFinState = 2)
  serverFin : w.serverFinState = v.serverFinState ∨
    (sender = .client ∧ seg.fin = true ∧ v.serverFinState = 0 ∧ w.serverFinState = 1) ∨
    (sender = .world ∧ seg.ack = true ∧ v.serverFinState = 1 ∧ w.serverFinState = 2)

theorem flags_advance (sender : Sender) (v : TcpSession) (seg : Segment) :
    Advance sender seg v (flags sender v seg) := by
  constructor
  case syn => exact synState_flags_cases sender v seg
  case clientFin =>
    rcases finState_flags_cases .world sender v seg with h | ⟨rfl, hfin, h⟩ | ⟨rfl, hack, h⟩
    · exact Or.inl h
    · exact Or.inr (Or.inl ⟨rfl, hfin.fin, hfin.finState_eq, h⟩)
    · exact Or.inr (Or.inr ⟨rfl, hack.ack, hack.finState_eq, h⟩)
  case serverFin =>
    rcases finState_flags_cases .client sender v seg with h | ⟨rfl, hfin, h⟩ | ⟨rfl, hack, h⟩
    · exact Or.inl h
    · exact Or.inr (Or.inl ⟨rfl, hfin.fin, hfin.finState_eq, h⟩)
    · exact Or.inr (Or.inr ⟨rfl, hack.ack, hack.finState_eq, h⟩)

theorem Advance.edges {sender : Sender} {seg : Segment} {v w : TcpSession}
    (h : Advance sender seg v w) : Edges v w := by
  refine ⟨?_, ?_, ?_⟩
  · rcases h.syn with h | ⟨-, -, h, h'⟩ | ⟨-, -, h, h'⟩
    · exact Or.inl h
    · exact Or.inr (Or.inl ⟨h, h'⟩)
    · exact Or.inr (Or.inr ⟨h, h'⟩)
  · rcases h.clientFin with h | ⟨-, -, h, h'⟩ | ⟨-, -, h, h'⟩
    · exact Or.inl h
    · exact Or.inr (Or.inl ⟨h, h'⟩)
    · exact Or.inr (Or.inr ⟨h, h'⟩)
  · rcases h.serverFin with h | ⟨-, -, h, h'⟩ | ⟨-, -, h, h'⟩
    · exact Or.inl h
    · exact Or.inr (Or.inl ⟨h, h'⟩)
    · exact Or.inr (Or.inr ⟨h, h'⟩)

/-- A packet moves every allocated object along the edges. -/
theorem perform_edges {m : Machine} {c : Call} (hc : c.IsPacket) {s : SessionPtr}
    (hs : s < m.brk) : Edges (m.heap s) ((perform m c).heap s) := by
  by_cases hses : c.session m = some s
  · obtain ⟨sender, seg, -, -, -, hper⟩ := perform_heap_of_accepted hc hs hses
    rw [hper, Machine.store_heap_self]
    exact (flags_advance sender (m.heap s) seg).edges
  · rw [perform_heap_of_ne hc hs hses]
    exact Edges.refl _

/-! ## The history of a session -/

/-- The call is a packet of the sender, with the property, that is accepted for the session. -/
def Accepted (sender : Sender) (P : Segment → Prop) (s : SessionPtr) (m : Machine) (c : Call) :
    Prop :=
  c.session m = some s ∧ ∃ seg, c.segment = some (sender, seg) ∧ P seg

/-- The call is a valid client `SYN` that creates the session. -/
def CreatedBySyn (s : SessionPtr) (m : Machine) (c : Call) : Prop :=
  (∃ seg, c.segment = some (.client, seg) ∧ seg.syn = true) ∧ m.brk = s ∧
    m.brk < (perform m c).brk

/-- A segment with `SYN`. -/
def HasSyn (seg : Segment) : Prop := seg.syn = true

/-- A segment with `SYN` and `ACK`. -/
def HasSynAck (seg : Segment) : Prop := seg.syn = true ∧ seg.ack = true

/-- A segment with `ACK`. -/
def HasAck (seg : Segment) : Prop := seg.ack = true

/-- A segment with `FIN`. -/
def HasFin (seg : Segment) : Prop := seg.fin = true

/-- The value of a `FIN` state is accounted for: `1` by a `FIN`, `2` by a `FIN` and an `ACK` after
it. -/
def FinHistory (fin ack : Machine → Call → Prop) (m₀ : Machine) (done : List Call) (a : UInt8) :
    Prop :=
  a = 0 ∨ (a = 1 ∧ Occurs perform [fin] m₀ done) ∨ (a = 2 ∧ Occurs perform [fin, ack] m₀ done)

section FinHistory

variable {fin ack : Machine → Call → Prop} {m₀ : Machine} {done : List Call} {a : UInt8}

theorem FinHistory.append_right (h : FinHistory fin ack m₀ done a) (more : List Call) :
    FinHistory fin ack m₀ (done ++ more) a :=
  h.imp_right (Or.imp (And.imp_right (·.append_right more)) (And.imp_right (·.append_right more)))

/-- A call that moves the value along an edge accounts for the new value. -/
theorem FinHistory.advance (h : FinHistory fin ack m₀ done a) {c : Call} {b : UInt8}
    (hb : b = a ∨ (fin (exec perform m₀ done) c ∧ a = 0 ∧ b = 1) ∨
      (ack (exec perform m₀ done) c ∧ a = 1 ∧ b = 2)) :
    FinHistory fin ack m₀ (done ++ [c]) b := by
  rcases hb with rfl | ⟨hfin, -, hb⟩ | ⟨hack, ha, hb⟩
  · exact h.append_right [c]
  · have hnil : Occurs perform [] m₀ done := trivial
    exact Or.inr (Or.inl ⟨hb, hnil.snoc hfin⟩)
  · -- only the account of the value `1` fits
    rcases h with h0 | ⟨-, hocc⟩ | ⟨h2, -⟩
    · rw [ha] at h0
      exact absurd h0 (by decide)
    · exact Or.inr (Or.inr ⟨hb, hocc.snoc hack⟩)
    · rw [ha] at h2
      exact absurd h2 (by decide)

end FinHistory

/-- Every value of a state field is accounted for by the packets of the run, and the handshake
started with `opening`. -/
structure SessionHistory (opening : Machine → Call → Prop) (m₀ : Machine) (done : List Call)
    (s : SessionPtr) (v : TcpSession) : Prop where
  syn : v.synState = 0 ∨
    (v.synState = 2 ∧ Occurs perform [opening, Accepted .world HasSynAck s] m₀ done) ∨
    (v.synState = 3 ∧
      Occurs perform [opening, Accepted .world HasSynAck s, Accepted .client HasAck s] m₀ done)
  clientFin : FinHistory (Accepted .world HasFin s) (Accepted .client HasAck s) m₀ done
    v.clientFinState
  serverFin : FinHistory (Accepted .client HasFin s) (Accepted .world HasAck s) m₀ done
    v.serverFinState

namespace SessionHistory

variable {opening : Machine → Call → Prop} {m₀ : Machine} {done : List Call} {s : SessionPtr}
  {v : TcpSession}

/-- What is accounted for stays accounted for. -/
theorem append_right (h : SessionHistory opening m₀ done s v) (more : List Call) :
    SessionHistory opening m₀ (done ++ more) s v := by
  refine ⟨?_, h.clientFin.append_right more, h.serverFin.append_right more⟩
  exact h.syn.imp_right (Or.imp (And.imp_right (·.append_right more))
    (And.imp_right (·.append_right more)))

/-- An accepted packet accounts for the edges it moves the session along. -/
theorem advance (h : SessionHistory opening m₀ done s v)
    (hopening : Occurs perform [opening] m₀ done) {c : Call} {sender : Sender} {seg : Segment}
    (hses : c.session (exec perform m₀ done) = some s) (hseg : c.segment = some (sender, seg))
    {w : TcpSession} (hw : Advance sender seg v w) :
    SessionHistory opening m₀ (done ++ [c]) s w := by
  have haccepted : ∀ {P : Segment → Prop}, P seg →
      Accepted sender P s (exec perform m₀ done) c := fun hP => ⟨hses, seg, hseg, hP⟩
  refine ⟨?_, h.clientFin.advance ?_, h.serverFin.advance ?_⟩
  · rcases hw.syn with hstay | ⟨rfl, hsyn, hv, hw2⟩ | ⟨rfl, hack, hv, hw3⟩
    · rw [hstay]
      exact (h.append_right [c]).syn
    · -- `0` to `2`: the packet answers the opening of the session
      exact Or.inr (Or.inl ⟨hw2, hopening.snoc (haccepted hsyn)⟩)
    · -- `2` to `3`: the packet follows the answer that led to `2`
      rcases h.syn with h0 | ⟨-, hocc⟩ | ⟨h3, -⟩
      · rw [hv] at h0
        exact absurd h0 (by decide)
      · exact Or.inr (Or.inr ⟨hw3, hocc.snoc (haccepted hack)⟩)
      · rw [hv] at h3
        exact absurd h3 (by decide)
  · rcases hw.clientFin with hstay | ⟨rfl, hfin, hv⟩ | ⟨rfl, hack, hv⟩
    · exact Or.inl hstay
    · exact Or.inr (Or.inl ⟨haccepted hfin, hv⟩)
    · exact Or.inr (Or.inr ⟨haccepted hack, hv⟩)
  · rcases hw.serverFin with hstay | ⟨rfl, hfin, hv⟩ | ⟨rfl, hack, hv⟩
    · exact Or.inl hstay
    · exact Or.inr (Or.inl ⟨haccepted hfin, hv⟩)
    · exact Or.inr (Or.inr ⟨haccepted hack, hv⟩)

/-- A new session needs no account. -/
theorem of_new (hsyn : v.synState = 0) (hcfin : v.clientFinState = 0)
    (hsfin : v.serverFinState = 0) : SessionHistory opening m₀ done s v :=
  ⟨Or.inl hsyn, Or.inl hcfin, Or.inl hsfin⟩

end SessionHistory

/-! ## The history of a run -/

/-- A created session starts with all its state fields `0`. -/
theorem perform_created_states {m : Machine} {c : Call} (hc : c.IsPacket)
    (hbrk : m.brk < (perform m c).brk) :
    ((perform m c).heap m.brk).synState = 0 ∧ ((perform m c).heap m.brk).clientFinState = 0 ∧
      ((perform m c).heap m.brk).serverFinState = 0 := by
  obtain ⟨seg, q, n, -, hsyn, -, -, ⟨-, -, hper⟩ | ⟨-, -, hper⟩⟩ := perform_created hc hbrk
  · rw [hper, Machine.tick_heap, created_heap_brk]
    exact ⟨rfl, rfl, rfl⟩
  · rw [hper, Machine.store_heap_self, clientFlags, if_pos ⟨hsyn, rfl⟩]
    exact ⟨rfl, rfl, rfl⟩

/-- A session stored before moves along the edges, and a new one starts with all its state fields
`0`. -/
def Moves (m m' : Machine) (s : SessionPtr) : Prop :=
  (InClient m s → Edges (m.heap s) (m'.heap s)) ∧
    (¬ InClient m s → (m'.heap s).synState = 0 ∧ (m'.heap s).clientFinState = 0 ∧
      (m'.heap s).serverFinState = 0)

theorem Indexes.moves {m : Machine} (h : Indexes m) {c : Call} (hc : c.IsPacket) {s : SessionPtr}
    (hs : InClient (BenkerVpn.perform m c) s) : Moves m (BenkerVpn.perform m c) s := by
  constructor
  · exact fun hold => perform_edges hc (h.clientAllocated s hold)
  · intro hnew
    rcases (perform_inIndex_iff hc .client s).1 hs with hold | ⟨rfl, hbrk⟩
    · exact absurd hold hnew
    · exact perform_created_states hc hbrk

/-- Every stored session was created by a `SYN`, and its state is accounted for. -/
structure RunHistory (m₀ : Machine) (done : List Call) (m : Machine) : Prop where
  reached : m = exec perform m₀ done
  indexes : Indexes m
  created : ∀ s, InClient m s → Occurs perform [CreatedBySyn s] m₀ done
  session : ∀ s, InClient m s → SessionHistory (CreatedBySyn s) m₀ done s (m.heap s)

theorem RunHistory.step {m₀ : Machine} {done : List Call} {m : Machine}
    (h : RunHistory m₀ done m) {c : Call} (hc : c.IsPacket) :
    RunHistory m₀ (done ++ [c]) (perform m c) := by
  have hcreated : m.brk < (perform m c).brk → CreatedBySyn m.brk m c := by
    intro hbrk
    obtain ⟨seg, q, hseg, hsyn, -, -⟩ := perform_created_identity hc hbrk
    exact ⟨⟨seg, hseg, hsyn⟩, rfl, hbrk⟩
  refine ⟨by rw [h.reached, exec_append]; rfl, h.indexes.perform c, ?_, ?_⟩
  · intro s hs
    rcases (perform_inIndex_iff hc .client s).1 hs with hold | ⟨rfl, hbrk⟩
    · exact (h.created s hold).append_right [c]
    · have hnil : Occurs perform [] m₀ done := trivial
      apply hnil.snoc
      rw [← h.reached]
      exact hcreated hbrk
  · intro s hs
    rcases (perform_inIndex_iff hc .client s).1 hs with hold | ⟨rfl, hbrk⟩
    · have hlt := h.indexes.clientAllocated s hold
      by_cases hses : c.session m = some s
      · -- the packet accounts for what it changes
        obtain ⟨sender, seg, hseg, -, -, hper⟩ := perform_heap_of_accepted hc hlt hses
        rw [hper, Machine.store_heap_self]
        rw [h.reached] at hses
        exact (h.session s hold).advance (h.created s hold) hses hseg (flags_advance sender _ seg)
      · rw [perform_heap_of_ne hc hlt hses]
        exact (h.session s hold).append_right [c]
    · obtain ⟨hsyn, hcfin, hsfin⟩ := perform_created_states hc hbrk
      exact SessionHistory.of_new hsyn hcfin hsfin

theorem runHistory_of_run {pool : PortPool} {m₀ : Machine} (hfresh : Fresh pool m₀)
    {calls : List Call} (hcalls : ∀ c ∈ calls, c.IsPacket) :
    RunHistory m₀ calls (exec perform m₀ calls) := by
  apply history_of_mem (RunHistory m₀)
  · exact fun done m c hc h => h.step (hcalls c hc)
  · exact ⟨rfl, hfresh.indexes, fun s hs => absurd hs (hfresh.not_inClient s),
      fun s hs => absurd hs (hfresh.not_inClient s)⟩

/-! ## Under a clock that never goes back -/

/-- Every reading of the clock still to come finds the session expired. -/
structure Lapsed (s : SessionPtr) (m : Machine) : Prop where
  allocated : s < m.brk
  late : ∀ k, (m.heap s).expire < m.clock k

theorem Lapsed.perform {s : SessionPtr} {m : Machine} (h : Lapsed s m) {c : Call}
    (hc : c.IsPacket) : Lapsed s (perform m c) := by
  refine ⟨lt_of_lt_of_le h.allocated (brk_le_perform m c), ?_⟩
  intro k
  obtain ⟨n, hn⟩ := perform_later m c
  rw [(perform_sameIdentity hc h.allocated).2.2.2, hn]
  exact h.late (n + k)

/-- No packet is accepted for a lapsed session. -/
theorem Lapsed.session_ne {s : SessionPtr} {m : Machine} (h : Lapsed s m) {c : Call}
    (hc : c.IsPacket) : c.session m ≠ some s := by
  intro hses
  obtain ⟨-, -, -, -, hlive, -⟩ := perform_heap_of_accepted hc h.allocated hses
  exact absurd hlive (not_le.2 (h.late 0))

/-- A session whose `SYN` was rejected has lapsed. -/
theorem lapsed_of_rejected {m : Machine} (hclock : Monotone m.clock) {c : Call} (hc : c.IsPacket)
    (hbrk : m.brk < (perform m c).brk) (hses : c.session m ≠ some m.brk) :
    Lapsed m.brk (perform m c) := by
  obtain ⟨seg, q, n, -, -, -, -, ⟨hexp, -, hper⟩ | ⟨-, hses', -⟩⟩ := perform_created hc hbrk
  · refine ⟨hbrk, ?_⟩
    intro k
    rw [hper, Machine.tick_heap, created_heap_brk]
    have hlate : m.clock 1 ≤ m.clock (1 + (1 + k)) := hclock (by omega)
    exact lt_of_lt_of_le hexp hlate
  · exact absurd hses' hses

/-- A session for which some packet is accepted later was opened by an accepted `SYN`. -/
theorem occurs_accepted_of_created {m₀ : Machine} (hclock : Monotone m₀.clock)
    {calls : List Call} (hcalls : ∀ c ∈ calls, c.IsPacket) {s : SessionPtr} {sender : Sender}
    {P : Segment → Prop} {more : List (Machine → Call → Prop)}
    (h : Occurs perform (CreatedBySyn s :: Accepted sender P s :: more) m₀ calls) :
    Occurs perform (Accepted .client HasSyn s :: Accepted sender P s :: more) m₀ calls := by
  obtain ⟨pre, c, post, rfl, ⟨⟨seg, hseg, hsyn⟩, rfl, hbrk⟩, hrest⟩ := h
  refine ⟨pre, c, post, rfl, ⟨?_, seg, hseg, hsyn⟩, hrest⟩
  by_contra hses
  -- otherwise the session had lapsed when the later packet was accepted for it
  obtain ⟨pre', e, post', rfl, ⟨haccepted, -⟩, -⟩ := hrest
  have hlapsed : Lapsed (exec perform m₀ pre).brk
      (exec perform (exec perform m₀ (pre ++ [c])) pre') := by
    apply invariant_of_mem (Lapsed _)
    · exact fun m c' hc' h => h.perform (hcalls c' (by simp [hc']))
    · rw [exec_append]
      exact lapsed_of_rejected ((later_exec m₀ pre).monotone hclock)
        (Call.isPacket_of_segment hseg) hbrk hses
  exact hlapsed.session_ne (hcalls e (by simp)) haccepted

theorem SessionHistory.accepted_of_created {m₀ : Machine} (hclock : Monotone m₀.clock)
    {calls : List Call} (hcalls : ∀ c ∈ calls, c.IsPacket) {s : SessionPtr} {v : TcpSession}
    (h : SessionHistory (CreatedBySyn s) m₀ calls s v) :
    SessionHistory (Accepted .client HasSyn s) m₀ calls s v :=
  ⟨h.syn.imp_right (Or.imp (And.imp_right (occurs_accepted_of_created hclock hcalls))
    (And.imp_right (occurs_accepted_of_created hclock hcalls))), h.clientFin, h.serverFin⟩

/-- The state of a session only advances, and every value is accounted for. In every run of the
two handlers from a fresh table, whatever the clock does, each call moves the stored sessions along
the edges and starts new ones at `0`, and every value of a state field is accounted for by accepted
packets in order, except that the `SYN` that created the session may itself have been rejected. If
the clock never goes back, that `SYN` was accepted too. -/
theorem session_advances {pool : PortPool} {m₀ : Machine} (hfresh : Fresh pool m₀)
    {calls : List Call} (hcalls : ∀ c ∈ calls, c.IsPacket) :
    (∀ pre c post, calls = pre ++ c :: post → ∀ s,
      InClient (exec perform m₀ (pre ++ [c])) s →
        Moves (exec perform m₀ pre) (exec perform m₀ (pre ++ [c])) s) ∧
    (∀ s, InClient (exec perform m₀ calls) s →
      SessionHistory (CreatedBySyn s) m₀ calls s ((exec perform m₀ calls).heap s)) ∧
    (Monotone m₀.clock → ∀ s, InClient (exec perform m₀ calls) s →
      SessionHistory (Accepted .client HasSyn s) m₀ calls s ((exec perform m₀ calls).heap s)) := by
  have hrun := runHistory_of_run hfresh hcalls
  refine ⟨?_, hrun.session, ?_⟩
  · rintro pre c post rfl s hs
    have hpre : RunHistory m₀ pre (exec perform m₀ pre) :=
      runHistory_of_run hfresh fun c' hc' => hcalls c' (by simp [hc'])
    rw [exec_append, exec_cons, exec_nil] at hs ⊢
    exact hpre.indexes.moves (hcalls c (by simp)) hs
  · exact fun hclock s hs => (hrun.session s hs).accepted_of_created hclock hcalls

/-- A completed handshake is accounted for by its three packets. -/
theorem handshake_accounted :
    let m₀ := freshMachine smallPool fun _ => 0
    let calls := [clientCall sampleSyn, worldCall sampleSynAck, clientCall sampleAck]
    Occurs perform [Accepted .client HasSyn 0, Accepted .world HasSynAck 0,
      Accepted .client HasAck 0] m₀ calls := by
  intro m₀ calls
  have hcalls : ∀ c ∈ calls, c.IsPacket := by
    intro c hc
    simp only [calls, List.mem_cons, List.not_mem_nil, or_false] at hc
    rcases hc with rfl | rfl | rfl <;> trivial
  have hthree : ((exec perform m₀ calls).heap 0).synState = 3 := by decide +kernel
  obtain ⟨-, -, hhistory⟩ := session_advances (freshMachine_fresh smallPool fun _ => 0) hcalls
  have h := hhistory (fun _ _ _ => le_refl _) 0 ⟨1, by decide +kernel⟩
  rcases h.syn with h0 | ⟨h2, -⟩ | ⟨-, hocc⟩
  · rw [hthree] at h0
    exact absurd h0 (by decide)
  · rw [hthree] at h2
    exact absurd h2 (by decide)
  · exact hocc

/-- A `SYN` at time `0` is rejected, because the clock shows `100` when it is read again; the clock
goes back to `5`, and the `SYN+ACK` for the new session is accepted. -/
theorem rejectedSyn_followed_by_synAck :
    let m₀ := freshMachine smallPool fun k => if k = 0 then 0 else if k = 1 then 100 else 5
    let calls := [clientCall sampleSyn, worldCall sampleSynAck]
    Fresh smallPool m₀ ∧ (∀ c ∈ calls, c.IsPacket) ∧ InClient (exec perform m₀ calls) 0 ∧
      ((exec perform m₀ calls).heap 0).synState = 2 ∧
      ¬ Occurs perform [Accepted .client HasSyn 0, Accepted .world HasSynAck 0] m₀ calls := by
  intro m₀ calls
  refine ⟨freshMachine_fresh smallPool _, ?_, ⟨1, by decide +kernel⟩, by decide +kernel, ?_⟩
  · intro c hc
    simp only [calls, List.mem_cons, List.not_mem_nil, or_false] at hc
    rcases hc with rfl | rfl <;> trivial
  · rintro ⟨pre, c, post, hsplit, ⟨hses, seg, hseg, -⟩, -⟩
    -- the first call is rejected, the second one is not from the client
    cases pre with
    | nil =>
        obtain ⟨rfl, -⟩ := List.cons.inj hsplit
        exact absurd hses (by decide +kernel)
    | cons c₁ pre =>
        cases pre with
        | nil =>
            obtain ⟨-, hsplit⟩ := List.cons.inj hsplit
            obtain ⟨rfl, -⟩ := List.cons.inj hsplit
            rw [worldCall, Call.segment, segmentOf_packetOf _ (by omega) (by omega)] at hseg
            cases hseg
        | cons c₂ pre =>
            have hlen := congrArg List.length hsplit
            simp [calls] at hlen

end BenkerVpn

import BenkerVpn.Handler.Flags

/-!
# Connection tracking

`Conversation` holds the packets of one TCP connection from its `SYN` to the acknowledgement of the
second `FIN`; its fields carry the flags and the acknowledgement numbers the packets must have. The
handlers compare acknowledgement numbers without regard to the wraparound of sequence numbers, so a
number that is acknowledged by `0` is never seen acknowledged. `Conversation.tracked_iff_trackable`
says exactly which conversations end in the closed state, and `connection_tracked_iff` carries it
over to runs of the two handlers in which the packets of other sessions are interleaved.
-/

set_option autoImplicit false

namespace BenkerVpn

open Library.Buckets Library.Runs

/-! ## The packets of a session change it in order -/

/-- A session after the segments accepted for it. -/
def track (v : TcpSession) (segs : List (Sender × Segment)) : TcpSession :=
  segs.foldl (fun v p => flags p.1 v p.2) v

@[simp] theorem track_nil (v : TcpSession) : track v [] = v := rfl

@[simp] theorem track_cons (v : TcpSession) (p : Sender × Segment)
    (segs : List (Sender × Segment)) :
    track v (p :: segs) = track (flags p.1 v p.2) segs := rfl

@[simp] theorem track_append (v : TcpSession) (as bs : List (Sender × Segment)) :
    track v (as ++ bs) = track (track v as) bs := List.foldl_append

/-- Along a run, a stored session is changed by its own segments only, as long as they arrive in
time. -/
theorem stored_exec {v : TcpSession} {s : SessionPtr} {m : Machine} (hs : Stored v s m)
    (h : Indexes m) {calls : List Call} (hcalls : ∀ c ∈ calls, c.IsPacket)
    (htime : Permitted perform (fun m c => c.OfSession v → m.clock 0 ≤ v.expire) m calls) :
    Indexes (exec perform m calls) ∧ Stored v s (exec perform m calls) ∧
      (exec perform m calls).heap s =
        track (m.heap s) (calls.filterMap (Call.ownSegment v)) := by
  induction calls generalizing m with
  | nil => exact ⟨h, hs, rfl⟩
  | cons c calls ih =>
      have hc := hcalls c List.mem_cons_self
      obtain ⟨hidx, hstored, hheap⟩ := ih (hs.perform h hc) (h.perform c)
        (fun c' hc' => hcalls c' (List.mem_cons_of_mem _ hc')) htime.2
      refine ⟨hidx, hstored, ?_⟩
      rw [exec_cons, hheap]
      -- a packet of another session leaves the object alone, an own one is applied to it
      cases hown : c.ownSegment v with
      | none => rw [List.filterMap_cons_none hown, hs.heap_of_not_own h hc hown]
      | some p =>
          obtain ⟨sender, seg⟩ := p
          have htime' : m.clock 0 ≤ v.expire := htime.1 (by rw [Call.OfSession, hown]; rfl)
          rw [List.filterMap_cons_some hown, track_cons, hs.heap_of_own h hc hown htime']

/-! ## A conversation -/

/-- A segment with the `ACK` flag and without `SYN` and `FIN`. -/
structure PlainAck (seg : Segment) : Prop where
  ack : seg.ack = true
  syn : seg.syn = false
  fin : seg.fin = false

/-- A segment with the `FIN` flag and without `SYN`; it may acknowledge anything. -/
structure PlainFin (seg : Segment) : Prop where
  fin : seg.fin = true
  syn : seg.syn = false

/-- The packets of a connection: the handshake, data in both directions, and the two `FIN`s with
their acknowledgements, the first `FIN` sent by `closer`. -/
structure Conversation where
  syn : Segment
  synAck : Segment
  ack : Segment
  data : List (Sender × Segment)
  closer : Sender
  fin₁ : Segment
  ack₁ : Segment
  fin₂ : Segment
  ack₂ : Segment
  syn_syn : syn.syn = true
  synAck_syn : synAck.syn = true
  synAck_ack : synAck.ack = true
  synAck_fin : synAck.fin = false
  synAck_ackSeq : synAck.ackSeq = syn.seq + 1
  ack_plain : PlainAck ack
  ack_ackSeq : ack.ackSeq = synAck.seq + 1
  data_plain : ∀ p ∈ data, PlainAck p.2
  fin₁_plain : PlainFin fin₁
  ack₁_plain : PlainAck ack₁
  ack₁_ackSeq : ack₁.ackSeq = fin₁.seq + 1
  fin₂_plain : PlainFin fin₂
  ack₂_plain : PlainAck ack₂
  ack₂_ackSeq : ack₂.ackSeq = fin₂.seq + 1

namespace Conversation

variable (k : Conversation)

/-- The closing packets in order. -/
def closing : List (Sender × Segment) :=
  [(k.closer, k.fin₁), (k.closer.peer, k.ack₁), (k.closer.peer, k.fin₂), (k.closer, k.ack₂)]

/-- The packets behind the `SYN` in order. -/
def segments : List (Sender × Segment) :=
  (.world, k.synAck) :: (.client, k.ack) :: (k.data ++ k.closing)

/-- The `FIN` of the client. -/
def clientFin : Segment :=
  match k.closer with
  | .client => k.fin₁
  | .world => k.fin₂

/-- The `FIN` of the world. -/
def worldFin : Segment :=
  match k.closer with
  | .client => k.fin₂
  | .world => k.fin₁

/-- No sequence number that must be seen acknowledged is the last one before the wraparound. The
world's initial number may be, if the world closes first and the `FIN` of the client acknowledges
something behind the world's `FIN`: that acknowledgement then completes the handshake late. -/
def Trackable : Prop :=
  k.syn.seq ≠ 4294967295 ∧ k.clientFin.seq ≠ 4294967295 ∧ k.worldFin.seq ≠ 4294967295 ∧
    (k.synAck.seq ≠ 4294967295 ∨
      (k.closer = .world ∧ k.fin₂.ack = true ∧ k.fin₁.seq < k.fin₂.ackSeq))

end Conversation

/-- The connection was established, and both directions are closed. -/
structure Tracked (v : TcpSession) : Prop where
  synState : v.synState = 3
  clientFinState : v.clientFinState = 2
  serverFinState : v.serverFinState = 2

theorem tracked_iff (v : TcpSession) :
    Tracked v ↔ v.synState = 3 ∧ v.clientFinState = 2 ∧ v.serverFinState = 2 :=
  ⟨fun h => ⟨h.1, h.2, h.3⟩, fun h => ⟨h.1, h.2.1, h.2.2⟩⟩

/-- The comparison of a number with its acknowledgement fails at the wraparound only. -/
theorem acks_iff {a x : UInt32} (h : a = x + 1) : a > x ↔ x ≠ 4294967295 := by
  have hx := x.toNat_lt
  rw [h, gt_iff_lt, UInt32.lt_iff_toNat_lt, UInt32.toNat_add, Ne, ← UInt32.toNat_inj]
  simp only [UInt32.reduceToNat]
  omega

theorem not_last_lt (x : UInt32) : ¬ 4294967295 < x := by
  have hx := x.toNat_lt
  rw [UInt32.lt_iff_toNat_lt]
  simp only [UInt32.reduceToNat]
  omega

/-! ## Steps of a conversation -/

/-- What `handle_client_packet` does about an acknowledgement, before it looks at `FIN`. -/
def clientAck (v : TcpSession) (seg : Segment) : TcpSession :=
  if seg.ack ∧ seg.ackSeq > v.serverLastStateSeq then
    if v.synState = 2 then { v with synState := 3 }
    else if v.clientFinState = 1 then { v with clientFinState := 2 }
    else v
  else v

section Steps

variable {v : TcpSession} {seg : Segment}

theorem clientAck_of_not (h : ¬ (seg.ack ∧ seg.ackSeq > v.serverLastStateSeq)) :
    clientAck v seg = v := if_neg h

/-- A session that waits for no acknowledgement by the client. -/
theorem clientAck_of_idle (hsyn : v.synState ≠ 2) (hcfin : v.clientFinState ≠ 1) (seg : Segment) :
    clientAck v seg = v := by
  rw [clientAck, if_neg hsyn, if_neg hcfin]
  exact ite_self v

theorem clientAck_serverFinState (v : TcpSession) (seg : Segment) :
    (clientAck v seg).serverFinState = v.serverFinState := by
  rw [clientAck]
  split_ifs <;> rfl

theorem clientFlags_of_not_syn (hsyn : seg.syn = false) (v : TcpSession) :
    clientFlags v seg =
      if seg.fin then
        if v.serverFinState = 0 then
          { clientAck v seg with serverFinState := 1, clientLastStateSeq := seg.seq }
        else clientAck v seg
      else clientAck v seg := by
  have h : clientFlags v seg =
      if seg.fin then
        if (clientAck v seg).serverFinState = 0 then
          { clientAck v seg with serverFinState := 1, clientLastStateSeq := seg.seq }
        else clientAck v seg
      else clientAck v seg := by
    rw [clientFlags, hsyn]
    simp only [Bool.false_eq_true, false_and, if_false]
    rfl
  rw [h, clientAck_serverFinState]

/-- A session that waits for no acknowledgement, or for one that cannot come. -/
structure Quiet (v : TcpSession) : Prop where
  clientFinState : v.clientFinState = 0
  serverFinState : v.serverFinState = 0
  handshake : v.synState = 2 → v.serverLastStateSeq = 4294967295

/-- A quiet session takes nothing for an acknowledgement. In the half-open state the number waited
for is the last one, which nothing exceeds. -/
theorem Quiet.clientAck (hv : Quiet v) (seg : Segment) : clientAck v seg = v := by
  by_cases hsyn : v.synState = 2
  · apply clientAck_of_not
    rintro ⟨-, hgt⟩
    rw [hv.handshake hsyn] at hgt
    exact not_last_lt _ hgt
  · exact clientAck_of_idle hsyn (by rw [hv.clientFinState]; decide) seg

/-- Data changes nothing in a quiet session. -/
theorem Quiet.flags_plainAck (hv : Quiet v) (hseg : PlainAck seg) (sender : Sender) :
    flags sender v seg = v := by
  cases sender with
  | client =>
      rw [flags, clientFlags_of_not_syn hseg.syn, hv.clientAck, hseg.fin]
      rfl
  | world =>
      simp [flags, worldFlags, hseg.syn, hseg.fin, hv.serverFinState]

theorem Quiet.track_data (hv : Quiet v) {data : List (Sender × Segment)}
    (hdata : ∀ p ∈ data, PlainAck p.2) : track v data = v := by
  induction data with
  | nil => rfl
  | cons p data ih =>
      rw [track_cons, hv.flags_plainAck (hdata p List.mem_cons_self)]
      exact ih fun p' hp' => hdata p' (List.mem_cons_of_mem _ hp')

/-- Without a `SYN` a connection stays unopened. -/
theorem flags_synState_zero (hv : v.synState = 0) (hsyn : seg.syn = false) (sender : Sender) :
    (flags sender v seg).synState = 0 := by
  rcases synState_flags_cases sender v seg with h | ⟨-, ⟨hset, -⟩, -⟩ | ⟨-, -, htwo, -⟩
  · exact h.trans hv
  · rw [hsyn] at hset
    cases hset
  · rw [hv] at htwo
    exact absurd htwo (by decide)

theorem track_synState_zero (hv : v.synState = 0) {segs : List (Sender × Segment)}
    (hsegs : ∀ p ∈ segs, p.2.syn = false) : (track v segs).synState = 0 := by
  induction segs generalizing v with
  | nil => exact hv
  | cons p segs ih =>
      apply ih (flags_synState_zero hv (hsegs p List.mem_cons_self) p.1)
      exact fun p' hp' => hsegs p' (List.mem_cons_of_mem _ hp')

end Steps

/-! ## A `FIN` and its acknowledgement -/

section Fin

variable {v : TcpSession} {fin ack : Segment}

/-- The client's `FIN` and the plain acknowledgement by the world. -/
theorem track_clientFin (hfin : PlainFin fin) (hack : PlainAck ack)
    (hseq : ack.ackSeq = fin.seq + 1) (hsfin : v.serverFinState = 0) :
    track v [(.client, fin), (.world, ack)] =
      { clientAck v fin with
        clientLastStateSeq := fin.seq
        serverFinState := if fin.seq = 4294967295 then 1 else 2 } := by
  have hafter : flags .client v fin =
      { clientAck v fin with serverFinState := 1, clientLastStateSeq := fin.seq } := by
    rw [flags, clientFlags_of_not_syn hfin.syn, if_pos hfin.fin, if_pos hsfin]
  have hgt : ack.ackSeq > fin.seq ↔ fin.seq ≠ 4294967295 := acks_iff hseq
  rw [track_cons, track_cons, track_nil, hafter, flags, worldFlags]
  simp only [hack.syn, hack.fin, hack.ack, hgt, Bool.false_eq_true, false_and, if_false, true_and]
  by_cases hlast : fin.seq = 4294967295
  · simp [hlast]
  · simp [hlast]

/-- The client's acknowledgement of the world's `FIN`. -/
theorem clientAck_worldFin (hack : PlainAck ack) (hseq : ack.ackSeq = fin.seq + 1)
    (v : TcpSession) :
    clientAck { v with clientFinState := 1, serverLastStateSeq := fin.seq } ack =
      if fin.seq = 4294967295 then
        { v with clientFinState := 1, serverLastStateSeq := fin.seq }
      else if v.synState = 2 then
        { v with clientFinState := 1, serverLastStateSeq := fin.seq, synState := 3 }
      else { v with clientFinState := 2, serverLastStateSeq := fin.seq } := by
  have hgt : ack.ackSeq > fin.seq ↔ fin.seq ≠ 4294967295 := acks_iff hseq
  rw [clientAck]
  simp only [hack.ack, hgt, true_and]
  by_cases hlast : fin.seq = 4294967295
  · simp [hlast]
  · simp [hlast]

/-- The world's `FIN`, which acknowledges nothing that was waited for, and the plain acknowledgement
by the client. -/
theorem track_worldFin (hfin : PlainFin fin) (hack : PlainAck ack)
    (hseq : ack.ackSeq = fin.seq + 1) (hcfin : v.clientFinState = 0)
    (hquiet : v.serverFinState = 1 → v.clientLastStateSeq = 4294967295) :
    track v [(.world, fin), (.client, ack)] =
      if fin.seq = 4294967295 then
        { v with clientFinState := 1, serverLastStateSeq := fin.seq }
      else if v.synState = 2 then
        { v with clientFinState := 1, serverLastStateSeq := fin.seq, synState := 3 }
      else { v with clientFinState := 2, serverLastStateSeq := fin.seq } := by
  have hnot : ¬ (fin.ack = true ∧ v.serverFinState = 1 ∧
      fin.ackSeq > v.clientLastStateSeq) := by
    rintro ⟨-, h1, hgt⟩
    rw [hquiet h1] at hgt
    exact not_last_lt _ hgt
  have hafter : flags .world v fin =
      { v with clientFinState := 1, serverLastStateSeq := fin.seq } := by
    rw [flags, worldFlags]
    simp [hfin.syn, hfin.fin, hnot, hcfin]
  rw [track_cons, track_cons, track_nil, hafter, flags, clientFlags_of_not_syn hack.syn, hack.fin,
    ← clientAck_worldFin hack hseq v]
  rfl

end Fin

/-! ## The end of a conversation -/

namespace Conversation

variable (k : Conversation) {v : TcpSession}

/-- Which closings are tracked. Where the client could not complete the handshake, its
acknowledgement of the world's `FIN` completes it instead of closing, and then the `FIN` of the
client may acknowledge once more. -/
theorem tracked_closing_iff (hv : Quiet v) :
    Tracked (track v k.closing) ↔
      k.clientFin.seq ≠ 4294967295 ∧ k.worldFin.seq ≠ 4294967295 ∧
        (v.synState = 3 ∨ (v.synState = 2 ∧
          k.closer = .world ∧ k.fin₂.ack = true ∧ k.fin₁.seq < k.fin₂.ackSeq)) := by
  rw [closing, clientFin, worldFin]
  cases k.closer with
  | client =>
      -- the client closes first: its `FIN` acknowledges nothing that was waited for
      show Tracked (track (track v [(.client, k.fin₁), (.world, k.ack₁)])
        [(.world, k.fin₂), (.client, k.ack₂)]) ↔ _
      rw [track_clientFin k.fin₁_plain k.ack₁_plain k.ack₁_ackSeq hv.serverFinState, hv.clientAck,
        track_worldFin k.fin₂_plain k.ack₂_plain k.ack₂_ackSeq, tracked_iff]
      · by_cases hs : k.fin₂.seq = 4294967295
        · simp [hs]
        · by_cases hsyn : v.synState = 2
          · simp [hs, hsyn]
          · simp [hs, hsyn, and_comm]
      · exact hv.clientFinState
      · simp
  | world =>
      have hquiet : v.serverFinState = 1 → v.clientLastStateSeq = 4294967295 := by
        rw [hv.serverFinState]
        exact fun h => absurd h (by decide)
      show Tracked (track (track v [(.world, k.fin₁), (.client, k.ack₁)])
        [(.client, k.fin₂), (.world, k.ack₂)]) ↔ _
      rw [track_worldFin k.fin₁_plain k.ack₁_plain k.ack₁_ackSeq hv.clientFinState hquiet]
      by_cases hs : k.fin₁.seq = 4294967295
      · -- the `FIN` of the world stays unacknowledged
        rw [if_pos hs, track_clientFin k.fin₂_plain k.ack₂_plain k.ack₂_ackSeq, clientAck_of_not,
          tracked_iff]
        · simp [hs]
        · exact fun h => not_last_lt k.fin₂.ackSeq (hs ▸ h.2)
        · exact hv.serverFinState
      · rw [if_neg hs]
        by_cases hsyn : v.synState = 2
        · -- the acknowledgement completed the handshake; that of the client's `FIN` may close
          rw [if_pos hsyn, track_clientFin k.fin₂_plain k.ack₂_plain k.ack₂_ackSeq, tracked_iff,
            clientAck]
          · by_cases hack : k.fin₂.ack = true ∧ k.fin₁.seq < k.fin₂.ackSeq
            · simp [hs, hsyn, hack]
            · simp [hs, hsyn, hack]
          · exact hv.serverFinState
        · -- acknowledged, so the session waits for nothing when the client sends its `FIN`
          rw [if_neg hsyn, track_clientFin k.fin₂_plain k.ack₂_plain k.ack₂_ackSeq,
            clientAck_of_idle, tracked_iff]
          · simp [hs, hsyn, and_comm]
          · exact hsyn
          · simp
          · exact hv.serverFinState

/-- Behind the handshake no packet carries `SYN`. -/
theorem syn_of_mem_data_closing {p : Sender × Segment} (hp : p ∈ k.data ++ k.closing) :
    p.2.syn = false := by
  rcases List.mem_append.1 hp with hp | hp
  · exact (k.data_plain p hp).syn
  · simp only [closing, List.mem_cons, List.not_mem_nil, or_false] at hp
    rcases hp with rfl | rfl | rfl | rfl
    · exact k.fin₁_plain.syn
    · exact k.ack₁_plain.syn
    · exact k.fin₂_plain.syn
    · exact k.ack₂_plain.syn

/-- The world's answer to the `SYN`. -/
theorem worldFlags_synAck (hsyn : v.synState = 0) (hsfin : v.serverFinState = 0)
    (hlast : v.clientLastStateSeq = k.syn.seq) :
    worldFlags v k.synAck =
      if k.syn.seq = 4294967295 then v
      else { v with synState := 2, serverLastStateSeq := k.synAck.seq } := by
  have hgt : k.synAck.ackSeq > k.syn.seq ↔ k.syn.seq ≠ 4294967295 := acks_iff k.synAck_ackSeq
  rw [worldFlags, hsyn, hsfin, hlast]
  simp only [k.synAck_syn, k.synAck_ack, k.synAck_fin, hgt, true_and]
  by_cases hx : k.syn.seq = 4294967295
  · simp [hx]
  · simp [hx]

/-- The client's acknowledgement of that answer. -/
theorem clientFlags_ack (hsyn : v.synState = 2) (hlast : v.serverLastStateSeq = k.synAck.seq) :
    clientFlags v k.ack =
      if k.synAck.seq = 4294967295 then v else { v with synState := 3 } := by
  have hgt : k.ack.ackSeq > k.synAck.seq ↔ k.synAck.seq ≠ 4294967295 := acks_iff k.ack_ackSeq
  rw [clientFlags_of_not_syn k.ack_plain.syn, k.ack_plain.fin, clientAck, hsyn, hlast]
  simp only [k.ack_plain.ack, hgt, true_and]
  by_cases hy : k.synAck.seq = 4294967295
  · simp [hy]
  · simp [hy]

/-- Which conversations are tracked to the end, from a new session. -/
theorem tracked_iff_trackable (hsyn : v.synState = 0) (hcfin : v.clientFinState = 0)
    (hsfin : v.serverFinState = 0) :
    Tracked (track (clientFlags v k.syn) k.segments) ↔ k.Trackable := by
  have hstart : clientFlags v k.syn = { v with clientLastStateSeq := k.syn.seq } := by
    rw [clientFlags, if_pos ⟨k.syn_syn, hsyn⟩]
  obtain ⟨w, hw, hwsyn, hwcfin, hwsfin, hwlast⟩ : ∃ w, clientFlags v k.syn = w ∧
      w.synState = 0 ∧ w.clientFinState = 0 ∧ w.serverFinState = 0 ∧
      w.clientLastStateSeq = k.syn.seq :=
    ⟨_, hstart, hsyn, hcfin, hsfin, rfl⟩
  rw [hw, segments, track_cons, track_cons]
  simp only [flags]
  rw [k.worldFlags_synAck hwsyn hwsfin hwlast, Trackable]
  by_cases hx : k.syn.seq = 4294967295
  · -- the `SYN` counts as unanswered, and nothing opens the connection any more
    rw [if_pos hx]
    apply iff_of_false
    · intro htracked
      have hzero := track_synState_zero (flags_synState_zero hwsyn k.ack_plain.syn .client)
        fun p hp => k.syn_of_mem_data_closing hp
      have hthree := htracked.synState
      rw [flags] at hzero
      rw [hzero] at hthree
      exact absurd hthree (by decide)
    · exact fun h => h.1 hx
  · rw [if_neg hx, k.clientFlags_ack rfl rfl, track_append]
    by_cases hy : k.synAck.seq = 4294967295
    · -- the `SYN+ACK` counts as unanswered: the connection is half open when it is closed
      have hquiet : Quiet { w with synState := 2, serverLastStateSeq := k.synAck.seq } :=
        ⟨hwcfin, hwsfin, fun _ => hy⟩
      rw [if_pos hy, hquiet.track_data k.data_plain, k.tracked_closing_iff hquiet]
      simp [hx, hy]
    · -- established
      have hquiet : Quiet { w with synState := 3, serverLastStateSeq := k.synAck.seq } :=
        ⟨hwcfin, hwsfin, by simp⟩
      rw [if_neg hy, hquiet.track_data k.data_plain, k.tracked_closing_iff hquiet]
      simp [hx, hy]

end Conversation

/-! ## Conversations in runs -/

/-- A `SYN` whose key has no session, received while the clock advances by at most ten seconds, is
accepted if and only if the port search succeeds. -/
theorem Indexes.freshSyn_outcome {m : Machine} (h : Indexes m) (count : Int) {b : Buffer}
    {bufferLen : Int} (ip : UInt32) {seg : Segment} (hseg : segmentOf b bufferLen = some seg)
    (hsyn : seg.syn = true)
    (hnew : getTcpSessionByClient m seg.saddr seg.source = none)
    (htime : m.clock 1 ≤ m.clock 0 + 10) :
    let c := Call.client count b bufferLen ip
    ((searchPort m count m.table.nextNum).1 = none ∧ ∃ n, BenkerVpn.perform m c = m.setNextNum n) ∨
      ((searchPort m count m.table.nextNum).1 ≠ none ∧ Opens m c m.brk ∧
        ∃ q, (searchPort m count m.table.nextNum).1 = some q ∧
          (BenkerVpn.perform m c).heap m.brk =
            clientFlags (newSession seg.saddr seg.source q (m.clock 0 + 10)) seg) := by
  intro c
  have hsegment : c.segment = some (.client, seg) := Call.segment_client count ip hseg
  rcases hacc : acceptClient m count seg with ⟨r, m'⟩
  obtain ⟨hses, hper⟩ := client_of_accept m count b bufferLen ip hseg hacc
  cases acceptClient_outcome hacc with
  | unknown hsyn' hs =>
      rw [hsyn] at hsyn'
      cases hsyn'
  | exhausted n hsyn' hs hq => exact Or.inl ⟨hq, n, hper⟩
  | expired s hs hexp =>
      rw [hnew] at hs
      cases hs
  | accepted s hs hexp =>
      rw [hnew] at hs
      cases hs
  | createdExpired q n hsyn' hs hq hexp => omega
  | createdAccepted q n hsyn' hs hq hexp =>
      refine Or.inr ⟨by rw [hq]; simp, ⟨⟨seg, hsegment⟩, hses, ?_⟩, q, hq, ?_⟩
      · exact fun hbrk => lt_irrefl _ (h.clientAllocated _ hbrk)
      · rw [hper, Machine.store_heap_self]

/-- The first call is the `SYN` of the conversation, received by a machine that has no session for
its client key; the other calls are packets, and those of the session are the other packets of the
conversation in order. All the packets of the session arrive within its lifetime. The port is the
one of the session, if the `SYN` creates one. -/
structure Carries (m : Machine) (k : Conversation) (count : Int) (q : UInt16) (first : Call)
    (rest : List Call) : Prop where
  syn : ∃ b bufferLen ip, first = .client count b bufferLen ip ∧ segmentOf b bufferLen = some k.syn
  unknown : getTcpSessionByClient m k.syn.saddr k.syn.source = none
  port : ∀ s, first.session m = some s → ((perform m first).heap s).serverPort = q
  packets : ∀ c ∈ rest, c.IsPacket
  own : rest.filterMap
    (Call.ownSegment (newSession k.syn.saddr k.syn.source q (m.clock 0 + 10))) = k.segments
  syn_in_time : m.clock 1 ≤ m.clock 0 + 10
  rest_in_time : Permitted perform
    (fun m' c => c.OfSession (newSession k.syn.saddr k.syn.source q (m.clock 0 + 10)) →
      m'.clock 0 ≤ m.clock 0 + 10) (perform m first) rest

namespace Carries

variable {m : Machine} {k : Conversation} {count : Int} {q : UInt16} {first : Call}
  {rest : List Call}

/-- Behind the first call no `SYN` carries the client key. -/
theorem not_syn (h : Carries m k count q first rest) {c : Call} (hc : c ∈ rest) {seg : Segment}
    (hseg : c.segment = some (.client, seg)) (hsyn : seg.syn = true) :
    ¬ (seg.saddr = k.syn.saddr ∧ seg.source = k.syn.source) := by
  intro hkey
  -- it would be a packet of the session, but only the `SYN` of the conversation has the flag
  have hmem : ((.client, seg) : Sender × Segment) ∈ k.segments := by
    rw [← h.own, List.mem_filterMap]
    exact ⟨c, hc, (Call.ownSegment_eq_some_iff _ _ _ _).2 ⟨hseg, hkey⟩⟩
  rw [Conversation.segments, List.mem_cons, List.mem_cons] at hmem
  rcases hmem with hmem | hmem | hmem
  · cases hmem
  · obtain ⟨-, rfl⟩ := Prod.mk.inj hmem
    rw [k.ack_plain.syn] at hsyn
    cases hsyn
  · have hno := k.syn_of_mem_data_closing hmem
    rw [hsyn] at hno
    cases hno

/-- If the search finds no port, the client key stays unknown to the end. -/
theorem unknown_of_exhausted (h : Carries m k count q first rest) (hidx : Indexes m) {n : UInt32}
    (hper : perform m first = m.setNextNum n) :
    getTcpSessionByClient (exec perform m (first :: rest)) k.syn.saddr k.syn.source = none := by
  have hrun : Indexes (exec perform m (first :: rest)) ∧
      getTcpSessionByClient (exec perform m (first :: rest)) k.syn.saddr k.syn.source = none := by
    rw [exec_cons]
    apply invariant_of_mem fun m' =>
      Indexes m' ∧ getTcpSessionByClient m' k.syn.saddr k.syn.source = none
    · rintro m' c hc ⟨hidx', hnone⟩
      exact ⟨hidx'.perform c, hidx'.getByClient_none_perform (h.packets c hc) hnone
        fun seg hseg hsyn => h.not_syn hc hseg hsyn⟩
    · rw [hper]
      exact ⟨hidx.setNextNum n, h.unknown⟩
  exact hrun.2

/-- If the `SYN` opens a session, the packets of the conversation reach it in order. -/
theorem tracked_of_opens (h : Carries m k count q first rest) (hidx : Indexes m) {s : SessionPtr}
    (hopens : Opens m first s) {q' : UInt16}
    (hheap : (perform m first).heap s =
      clientFlags (newSession k.syn.saddr k.syn.source q' (m.clock 0 + 10)) k.syn) :
    getTcpSessionByClient (exec perform m (first :: rest)) k.syn.saddr k.syn.source = some s ∧
      (exec perform m (first :: rest)).heap s =
        track (clientFlags (newSession k.syn.saddr k.syn.source q (m.clock 0 + 10)) k.syn)
          k.segments := by
  have hsame := clientFlags_sameIdentity
    (newSession k.syn.saddr k.syn.source q' (m.clock 0 + 10)) k.syn
  obtain rfl : q' = q := by
    rw [← h.port s hopens.2.1, hheap]
    exact hsame.2.2.1.symm
  have hstored := (hopens.stored hidx).1
  rw [hheap] at hstored
  have hv : Stored (newSession k.syn.saddr k.syn.source q' (m.clock 0 + 10)) s
      (perform m first) :=
    ⟨hstored.inClient, hstored.inServer, hstored.identity.trans hsame⟩
  obtain ⟨hidx', hstored', hend⟩ :=
    stored_exec hv (hidx.perform first) h.packets h.rest_in_time
  rw [exec_cons]
  refine ⟨(hidx'.getByClient_eq_some_iff _ _ s).2 ⟨hstored'.inClient, ?_⟩, ?_⟩
  · exact Prod.ext hstored'.identity.1 hstored'.identity.2.1
  · rw [hend, hheap, h.own]

/-- A carried conversation is tracked to the end exactly if the search finds a port and no number
that must be seen acknowledged wraps around. -/
theorem tracked_iff (h : Carries m k count q first rest) (hidx : Indexes m) :
    (∃ s, getTcpSessionByClient (exec perform m (first :: rest)) k.syn.saddr k.syn.source =
        some s ∧ Tracked ((exec perform m (first :: rest)).heap s)) ↔
      (∃ j < probeLimit m.table.modNum count,
        getTcpSessionByServer m (m.table.probedPort (m.table.nextNum + UInt32.ofNat j)) = none) ∧
      k.Trackable := by
  have hsearch : (searchPort m count m.table.nextNum).1 ≠ none ↔
      ∃ j < probeLimit m.table.modNum count,
        getTcpSessionByServer m (m.table.probedPort (m.table.nextNum + UInt32.ofNat j)) = none := by
    rw [Ne, searchPort_none_iff]
    simp only [not_forall, not_not, exists_prop]
  rw [← hsearch]
  obtain ⟨b, bufferLen, ip, rfl, hseg⟩ := h.syn
  rcases hidx.freshSyn_outcome count ip hseg k.syn_syn h.unknown h.syn_in_time with
    ⟨hnone, n, hper⟩ | ⟨hfound, hopens, q', -, hheap⟩
  · -- no port: the key never gets a session
    rw [h.unknown_of_exhausted hidx hper]
    simp [hnone]
  · -- the session of the key is the one that tracked the conversation
    obtain ⟨hget, hend⟩ := h.tracked_of_opens hidx hopens hheap
    rw [hget, ← k.tracked_iff_trackable (v := newSession k.syn.saddr k.syn.source q
      (m.clock 0 + 10)) rfl rfl rfl, ← hend]
    constructor
    · rintro ⟨s, hs, htracked⟩
      obtain rfl := Option.some.inj hs
      exact ⟨hfound, htracked⟩
    · rintro ⟨-, htracked⟩
      exact ⟨_, rfl, htracked⟩

end Carries

/-- A conversation that starts after any run is tracked to the end exactly if the search finds a
port and no number that must be seen acknowledged wraps around. -/
theorem connection_tracked_iff {pool : PortPool} {m₀ : Machine} (hfresh : Fresh pool m₀)
    (before : List Call) {k : Conversation} {count : Int} {q : UInt16} {first : Call}
    {rest : List Call} (h : Carries (exec perform m₀ before) k count q first rest) :
    let m := exec perform m₀ before
    let m' := exec perform m (first :: rest)
    (∃ s, getTcpSessionByClient m' k.syn.saddr k.syn.source = some s ∧ Tracked (m'.heap s)) ↔
      (∃ j < probeLimit m.table.modNum count,
        getTcpSessionByServer m (m.table.probedPort (m.table.nextNum + UInt32.ofNat j)) = none) ∧
      k.Trackable :=
  h.tracked_iff (indexes_of_run hfresh before)

/-! ## A concrete conversation -/

/-- A segment from the client of `sampleSyn`. -/
def fromClient (seq ackSeq : UInt32) (fin syn ack : Bool) : Segment :=
  { sampleSyn with seq := seq, ackSeq := ackSeq, fin := fin, syn := syn, ack := ack }

/-- A segment to the first port of the pool. -/
def fromWorld (seq ackSeq : UInt32) (fin syn ack : Bool) : Segment :=
  { sampleSynAck with seq := seq, ackSeq := ackSeq, fin := fin, syn := syn, ack := ack }

/-- The client opens with the initial sequence number `x` and closes first. -/
def sampleConversation (x : UInt32) : Conversation where
  syn := fromClient x 0 false true false
  synAck := fromWorld 7000 (x + 1) false true true
  ack := fromClient (x + 1) 7001 false false true
  data := [(.client, fromClient (x + 1) 7001 false false true),
    (.world, fromWorld 7001 (x + 1) false false true)]
  closer := .client
  fin₁ := fromClient 2000 7001 true false true
  ack₁ := fromWorld 7001 2001 false false true
  fin₂ := fromWorld 8000 2001 true false true
  ack₂ := fromClient 2001 8001 false false true
  syn_syn := rfl
  synAck_syn := rfl
  synAck_ack := rfl
  synAck_fin := rfl
  synAck_ackSeq := rfl
  ack_plain := ⟨rfl, rfl, rfl⟩
  ack_ackSeq := rfl
  data_plain := by
    intro p hp
    simp only [List.mem_cons, List.not_mem_nil, or_false] at hp
    rcases hp with rfl | rfl <;> exact ⟨rfl, rfl, rfl⟩
  fin₁_plain := ⟨rfl, rfl⟩
  ack₁_plain := ⟨rfl, rfl, rfl⟩
  ack₁_ackSeq := rfl
  fin₂_plain := ⟨rfl, rfl⟩
  ack₂_plain := ⟨rfl, rfl, rfl⟩
  ack₂_ackSeq := rfl

/-- The packets of the conversation behind its `SYN`, received without any other in between. -/
def sampleRun (x : UInt32) : List Call := (sampleConversation x).segments.map callOf

theorem mem_sampleRun {x : UInt32} {c : Call} (hc : c ∈ sampleRun x) :
    c.IsPacket ∧ c.ownSegment (newSession 167772161 5000 40000 10) = c.segment := by
  obtain ⟨p, hp, rfl⟩ := List.mem_map.1 hc
  refine ⟨Call.isPacket_of_segment (callOf_segment p), ?_⟩
  have hbelongs : Belongs (newSession 167772161 5000 40000 10) p.1 p.2 := by
    simp only [Conversation.segments, Conversation.closing, sampleConversation, Sender.peer,
      List.cons_append, List.nil_append, List.mem_cons, List.not_mem_nil, or_false] at hp
    rcases hp with rfl | rfl | rfl | rfl | rfl | rfl | rfl | rfl
    exacts [rfl, ⟨rfl, rfl⟩, ⟨rfl, rfl⟩, rfl, ⟨rfl, rfl⟩, rfl, rfl, ⟨rfl, rfl⟩]
  rw [callOf_segment]
  exact (Call.ownSegment_eq_some_iff _ _ _ _).2 ⟨callOf_segment p, hbelongs⟩

/-- While the clock stands still, a fresh table carries the conversation, whatever its initial
sequence number is. -/
theorem sampleRun_carries (x : UInt32) :
    Carries (freshMachine smallPool fun _ => 0) (sampleConversation x) 0 40000
      (clientCall (sampleConversation x).syn) (sampleRun x) := by
  have hfresh := freshMachine_fresh smallPool fun _ => 0
  have hseg : segmentOf (packetOf (sampleConversation x).syn) 9000 =
      some (sampleConversation x).syn := segmentOf_packetOf _ (by omega) (by omega)
  have hnew : getTcpSessionByClient (freshMachine smallPool fun _ => 0)
      (sampleConversation x).syn.saddr (sampleConversation x).syn.source = none :=
    (hfresh.indexes.getByClient_eq_none_iff _ _).2 fun s hs => absurd hs (hfresh.not_inClient s)
  constructor
  case syn => exact ⟨_, _, _, rfl, hseg⟩
  case unknown => exact hnew
  case port =>
    intro s hs
    rcases hfresh.indexes.freshSyn_outcome 0 3232266986 hseg rfl hnew (by decide) with
      ⟨hnone, -⟩ | ⟨-, hopens, q, hq, hheap⟩
    · exact absurd hnone (by decide +kernel)
    · obtain rfl := Option.some.inj (hopens.2.1.symm.trans hs)
      obtain rfl : 40000 = q := Option.some.inj (Eq.trans (by decide +kernel) hq)
      rw [clientCall, hheap]
      exact (clientFlags_sameIdentity _ _).2.2.1
  case packets => exact fun c hc => (mem_sampleRun hc).1
  case own =>
    have hown : (sampleRun x).filterMap (Call.ownSegment (newSession 167772161 5000 40000 10)) =
        (sampleRun x).filterMap Call.segment :=
      List.filterMap_congr fun c hc => (mem_sampleRun hc).2
    refine hown.trans ?_
    rw [sampleRun, List.filterMap_map]
    simp only [Function.comp_def, callOf_segment, List.filterMap_some]
  case syn_in_time => decide
  case rest_in_time =>
    apply permitted_of_invariant fun m' => ∀ n, m'.clock n = 0
    · intro m' c _ hm' n
      obtain ⟨j, hj⟩ := perform_later m' c
      rw [hj, hm']
    · intro m' c _ hm' _
      rw [hm']
      decide
    · intro n
      obtain ⟨j, hj⟩ := perform_later (freshMachine smallPool fun _ => 0)
        (clientCall (sampleConversation x).syn)
      rw [hj]
      rfl

/-- A conversation that starts at `1000` is tracked to the end. -/
theorem sampleConversation_tracked :
    let m' := exec perform (freshMachine smallPool fun _ => 0)
      (clientCall (sampleConversation 1000).syn :: sampleRun 1000)
    ∃ s, getTcpSessionByClient m' 167772161 5000 = some s ∧ Tracked (m'.heap s) := by
  apply (connection_tracked_iff (freshMachine_fresh smallPool _) [] (sampleRun_carries 1000)).2
  refine ⟨⟨0, by decide +kernel, by decide +kernel⟩, ?_, ?_, ?_, Or.inl ?_⟩ <;> decide

/-- The same conversation from the last sequence number: its `SYN` is never seen acknowledged. -/
theorem lastSequenceNumber_not_tracked :
    Fresh smallPool (freshMachine smallPool fun _ => 0) ∧
      Carries (freshMachine smallPool fun _ => 0) (sampleConversation 4294967295) 0 40000
        (clientCall (sampleConversation 4294967295).syn) (sampleRun 4294967295) ∧
      getTcpSessionByServer (freshMachine smallPool fun _ => 0) 40000 = none ∧
      ¬ ∃ s, getTcpSessionByClient (exec perform (freshMachine smallPool fun _ => 0)
            (clientCall (sampleConversation 4294967295).syn :: sampleRun 4294967295))
          (sampleConversation 4294967295).syn.saddr (sampleConversation 4294967295).syn.source =
          some s ∧
        Tracked ((exec perform (freshMachine smallPool fun _ => 0)
            (clientCall (sampleConversation 4294967295).syn :: sampleRun 4294967295)).heap s) := by
  have hfresh := freshMachine_fresh smallPool fun _ => 0
  refine ⟨hfresh, sampleRun_carries _, by decide +kernel, ?_⟩
  rw [(sampleRun_carries 4294967295).tracked_iff hfresh.indexes]
  exact fun h => h.2.1 rfl

end BenkerVpn

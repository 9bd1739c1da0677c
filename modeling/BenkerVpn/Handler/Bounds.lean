import BenkerVpn.Model.HandlerAccesses
import BenkerVpn.Handler.Outcome
import BenkerVpn.Packet.Bounds
import BenkerVpn.Packet.Reset

/-!
# Which bytes the handlers access

Whatever a packet holds, `validate_ip_tcp` and the handling of the flags stay within the buffer
(`reads_validateIpTcp`, `reads_clientFlags`, `reads_worldFlags`), so a handler leaves it at most
while it writes: a reset takes forty bytes (`inBounds_fillinReset_iff`), and a rewrite is bounded by
`Packet.Bounds`.
-/

set_option autoImplicit false

namespace BenkerVpn.Traced

open Library.Octets Library.Accesses

/-! ## Reading -/

section Reading

variable (b : Buffer) {n : Nat}

theorem reads_ihl (hn : 0 < n) : Reads ihl b n (BenkerVpn.ihl b) :=
  (reads_read8 hn).bind (reads_pure _)

theorem reads_totLen (hn : 4 ≤ n) : Reads totLen b n (BenkerVpn.totLen b) := reads_read16 hn

/-- `validate_ip_tcp` reads a field only if the checks before say that it is there. -/
theorem reads_validateIpTcp :
    Reads (validateIpTcp n) b n (BenkerVpn.validateIpTcp b n) := by
  have hle : toSizeT n ≤ n := by
    rw [toSizeT]
    omega
  rw [validateIpTcp, BenkerVpn.validateIpTcp, BenkerVpn.protocol]
  split
  case isTrue => exact reads_pure none
  case isFalse hsize =>
    refine (reads_read8 (by omega)).bind ?_
    split
    case isTrue => exact reads_pure none
    case isFalse =>
      refine (reads_ihl b (by omega)).bind ?_
      dsimp only
      split
      case isTrue => exact reads_pure none
      case isFalse hheader =>
        refine (reads_totLen b (by omega)).bind ?_
        split
        case isTrue => exact reads_pure none
        case isFalse =>
          refine (reads_totLen b (by omega)).bind ?_
          refine ((reads_read8 (by omega)).bind (reads_pure _) :
            Reads (doff (BenkerVpn.ihl b * 4)) b n _).bind ?_
          rw [← BenkerVpn.doff]
          split
          case isTrue => exact reads_pure none
          case isFalse => exact reads_pure _

section Segment

variable {tcp : Nat} (htcp : tcp + 20 ≤ n)
include htcp

theorem reads_flag (bit : Nat) :
    Reads (flag tcp bit) b n ((b (tcp + 13)).toNat.testBit bit) :=
  (reads_read8 (by omega)).bind (reads_pure _)

theorem reads_seq : Reads (seq tcp) b n (BenkerVpn.seq b tcp) := reads_read32 (by omega)

theorem reads_ackSeq : Reads (ackSeq tcp) b n (BenkerVpn.ackSeq b tcp) := reads_read32 (by omega)

/-- A computation that records a sequence number. -/
theorem reads_record (f : UInt32 → TcpSession) :
    Reads (do let seq ← seq tcp; return f seq) b n (f (BenkerVpn.seq b tcp)) :=
  (reads_seq b htcp).bind (reads_pure _)

theorem reads_clientAck (v : TcpSession) :
    Reads (clientAck v tcp) b n
      (if BenkerVpn.ack b tcp ∧ BenkerVpn.ackSeq b tcp > v.serverLastStateSeq then
        if v.synState = 2 then { v with synState := 3 }
        else if v.clientFinState = 1 then { v with clientFinState := 2 }
        else v
      else v) := by
  rw [ite_and]
  refine (reads_flag b htcp 4).bind (.ite Iff.rfl (fun _ => ?_) fun _ => reads_pure v)
  refine (reads_ackSeq b htcp).bind (.ite Iff.rfl (fun _ => ?_) fun _ => reads_pure v)
  refine .ite Iff.rfl (fun _ => reads_pure _) fun _ => ?_
  exact .ite Iff.rfl (fun _ => reads_pure _) fun _ => reads_pure v

/-- The flags are handled as the segment says. -/
theorem reads_clientFlags (v : TcpSession) :
    Reads (clientFlags v tcp) b n (BenkerVpn.clientFlags v (segmentAt b tcp)) := by
  refine (reads_flag b htcp 1).bind (.ite Iff.rfl (fun _ => reads_record b htcp _) fun _ => ?_)
  refine (reads_clientAck b htcp v).bind ?_
  refine (reads_flag b htcp 0).bind (.ite Iff.rfl (fun _ => ?_) fun _ => reads_pure _)
  exact .ite Iff.rfl (fun _ => reads_record b htcp _) fun _ => reads_pure _

theorem reads_answersSyn (v : TcpSession) :
    Reads (answersSyn v tcp) b n
      (if BenkerVpn.syn b tcp ∧ v.synState = 0 then
        if BenkerVpn.ack b tcp then decide (BenkerVpn.ackSeq b tcp > v.clientLastStateSeq)
        else false
      else false) := by
  refine (reads_flag b htcp 1).bind (.ite Iff.rfl (fun _ => ?_) fun _ => reads_pure false)
  refine (reads_flag b htcp 4).bind (.ite Iff.rfl (fun _ => ?_) fun _ => reads_pure false)
  exact (reads_ackSeq b htcp).bind (reads_pure _)

theorem reads_worldAck (v : TcpSession) :
    Reads (worldAck v tcp) b n
      (if BenkerVpn.ack b tcp ∧ v.serverFinState = 1 ∧
          BenkerVpn.ackSeq b tcp > v.clientLastStateSeq then { v with serverFinState := 2 }
      else v) := by
  have hnested : ∀ w : TcpSession,
      (if BenkerVpn.ack b tcp ∧ v.serverFinState = 1 ∧
        BenkerVpn.ackSeq b tcp > v.clientLastStateSeq then w else v) =
      if BenkerVpn.ack b tcp ∧ v.serverFinState = 1 then
        if BenkerVpn.ackSeq b tcp > v.clientLastStateSeq then w else v
      else v := fun w => by simp only [ite_and]
  rw [hnested]
  refine (reads_flag b htcp 4).bind (.ite Iff.rfl (fun _ => ?_) fun _ => reads_pure v)
  refine (reads_ackSeq b htcp).bind ?_
  exact .ite Iff.rfl (fun _ => reads_pure _) fun _ => reads_pure v

theorem reads_worldFlags (v : TcpSession) :
    Reads (worldFlags v tcp) b n (BenkerVpn.worldFlags v (segmentAt b tcp)) := by
  refine (reads_answersSyn b htcp v).bind (.ite ?_ (fun _ => reads_record b htcp _) fun _ => ?_)
  · -- the four conditions are those of the source, in its order
    simp [segmentAt, and_assoc]
  · refine (reads_worldAck b htcp v).bind ?_
    refine (reads_flag b htcp 0).bind ?_
    exact .ite Iff.rfl (fun _ => reads_record b htcp _) fun _ => reads_pure _

/-- The session is looked up by what the segment says. -/
theorem reads_clientSession (m : Machine) (count : Int) :
    Reads (clientSession m count tcp) b n (BenkerVpn.clientSession m count (segmentAt b tcp)) := by
  have hkey : ∀ f : UInt32 → UInt16 → Option SessionPtr × Machine,
      Reads (do let saddr ← read32 12; let source ← read16 tcp; return f saddr source) b n
        (f (saddr b) (source b tcp)) := fun f =>
    (reads_read32 (by omega)).bind ((reads_read16 (by omega)).bind (reads_pure _))
  exact (reads_flag b htcp 1).bind (.ite Iff.rfl (fun _ => hkey _) fun _ => hkey _)

end Segment

end Reading

/-! ## Writing a reset -/

section Reset

variable (b : Buffer)

/-- The fields of the IP header that are read and written. -/
def resetIpTouched : List Nat :=
  [0, 0, 2, 3, 4, 5, 4, 5, 6, 7, 8, 10, 11, 12, 13, 14, 15, 16, 17, 18, 19, 12, 13, 14, 15, 16, 17,
    18, 19, 0]

/-- The fields of the TCP header that are read and written. -/
def resetTcpTouched (tcp : Nat) : List Nat :=
  [0, tcp, tcp + 1, tcp + 2, tcp + 2 + 1, tcp, tcp + 1, tcp + 2, tcp + 2 + 1, tcp + 4, tcp + 4 + 1,
    tcp + 4 + 2, tcp + 4 + 3, tcp + 8, tcp + 8 + 1, tcp + 8 + 2, tcp + 8 + 3, tcp + 4, tcp + 4 + 1,
    tcp + 4 + 2, tcp + 4 + 3, tcp + 8, tcp + 8 + 1, tcp + 8 + 2, tcp + 8 + 3, tcp + 12, tcp + 12,
    tcp + 13, tcp + 16, tcp + 16 + 1]

theorem run_fillinResetIp :
    fillinResetIp.run b = ⟨(), BenkerVpn.fillinResetIp b,
      resetIpTouched ++ (List.range' 0 (BenkerVpn.ihl (resetHeader b) * 4) ++ [10, 11])⟩ := by
  simp only [fillinResetIp, run_bind, run_read8, run_write8, run_write16, run_readLe16,
    run_writeLe16, run_read32, run_write32, run_ipCsum]
  rfl

theorem run_fillinResetTcp {tcp : Nat} (htcp : BenkerVpn.ihl b * 4 = tcp) :
    fillinResetTcp.run b = ⟨(), BenkerVpn.fillinResetTcp b,
      resetTcpTouched tcp ++
        (tcpCsumTouched (resetSegment b tcp) tcp 0 ++ [tcp + 16, tcp + 16 + 1])⟩ := by
  subst htcp
  simp only [fillinResetTcp, run_bind, run_ihl, run_read8, run_write8, run_read16, run_write16, seq,
    ackSeq, run_read32, run_write32, run_tcpCsum]
  rfl

theorem run_fillinReset :
    (fillinReset.run b).value = (BenkerVpn.fillinReset b).2 ∧
      (fillinReset.run b).memory = (BenkerVpn.fillinReset b).1 := by
  rw [fillinReset, run_bind, run_fillinResetIp, run_bind, run_fillinResetTcp _ rfl, run_bind,
    run_totLen]
  exact ⟨rfl, rfl⟩

theorem inBounds_fillinResetIp {n : Nat} (hn : 20 ≤ n) : InBounds fillinResetIp b n := by
  have hfields : ∀ i ∈ resetIpTouched, i < 20 := by decide
  rw [InBounds, run_fillinResetIp, ihl_resetHeader]
  simp only [List.forall_mem_append, List.forall_mem_cons, forall_mem_range'_lt]
  refine ⟨fun i hi => (hfields i hi).trans_le hn, Or.inr (by omega), by omega, by omega, ?_⟩
  rintro i ⟨⟩

/-- The TCP header of a reset is summed to its end. -/
theorem inBounds_fillinResetTcp_iff (n : Nat) :
    InBounds fillinResetTcp (BenkerVpn.fillinResetIp b) n ↔ 40 ≤ n := by
  have htcp : BenkerVpn.ihl (BenkerVpn.fillinResetIp b) * 4 = 20 := by rw [ihl_fillinResetIp]
  have hdata : (tcpDataBytes (resetFields b) 20).toNat = 0 := by
    rw [tcpDataBytes, totLen_resetFields, ihl_resetFields, doff_resetFields]
    rfl
  have hfields : ∀ i ∈ resetTcpTouched 20, i < 38 := by decide
  have hsum : ∀ n, 32 < n → ((∀ i ∈ tcpCsumTouched (resetFields b) 20 0, i < n) ↔ 40 ≤ n) := by
    intro n hn
    rw [forall_mem_tcpCsumTouched_lt_iff (by omega) (by omega), doff_resetFields]
    exact and_iff_left (Or.inl hdata)
  rw [InBounds, run_fillinResetTcp _ htcp, ← resetFields]
  simp only [List.forall_mem_append, List.forall_mem_cons]
  constructor
  · rintro ⟨hall, htouched, -⟩
    have hdoff := hall 32 (by decide)
    exact (hsum n hdoff).1 htouched
  · intro hn
    refine ⟨fun i hi => (hfields i hi).trans_le (by omega), (hsum n (by omega)).2 hn, by omega,
      by omega, ?_⟩
    rintro i ⟨⟩

/-- A reset takes forty bytes. -/
theorem inBounds_fillinReset_iff (n : Nat) : InBounds fillinReset b n ↔ 40 ≤ n := by
  rw [fillinReset, inBounds_bind, run_fillinResetIp, inBounds_bind, inBounds_fillinResetTcp_iff,
    run_fillinResetTcp _ rfl]
  constructor
  · exact fun h => h.2.1
  · intro hn
    have hlength : Reads (do let length ← totLen; return length.toNat)
        (BenkerVpn.fillinResetTcp (BenkerVpn.fillinResetIp b)) n _ :=
      (reads_totLen _ (by omega)).bind (reads_pure _)
    exact ⟨inBounds_fillinResetIp b (by omega), hn, hlength.inBounds⟩

/-- A rejected packet becomes a reset. -/
theorem run_reject (m : Machine) :
    ((reject m).run b).value = ⟨.invalidSession, m, some (BenkerVpn.fillinReset b).2, none⟩ ∧
      ((reject m).run b).memory = (BenkerVpn.fillinReset b).1 := by
  obtain ⟨hvalue, hmemory⟩ := run_fillinReset b
  rw [reject, run_bind, hvalue, hmemory]
  exact ⟨rfl, rfl⟩

theorem inBounds_reject_iff (m : Machine) (n : Nat) : InBounds (reject m) b n ↔ 40 ≤ n := by
  rw [reject, inBounds_bind, inBounds_fillinReset_iff]
  exact and_iff_left (inBounds_pure _ _ _)

end Reset

/-! ## The handlers -/

/-- The computation gives the result of the handler. -/
structure Computes (x : Traced Answer) (b : Buffer) (r : Handled) : Prop where
  value : (x.run b).value = ⟨r.ret, r.machine, r.rstSize, r.clientIp⟩
  memory : (x.run b).memory = r.buffer

theorem computes_reject (m : Machine) (b : Buffer) :
    Computes (reject m) b (BenkerVpn.reject m b) :=
  ⟨(run_reject b m).1, (run_reject b m).2⟩

theorem computes_accept {x : Traced Unit} {b b' : Buffer} (h : (x.run b).memory = b') (m : Machine)
    (clientIp : Option UInt32) :
    Computes (do x; return ⟨.validSession, m, none, clientIp⟩) b
      { ret := .validSession, machine := m, buffer := b', rstSize := none, clientIp := clientIp } :=
  ⟨rfl, h⟩

theorem Computes.of_leadsTo {x y : Traced Answer} {b : Buffer} {n : Nat} {r : Handled}
    (h : LeadsTo x b n y) (hy : Computes y b r) : Computes x b r :=
  ⟨h.value.trans hy.value, h.memory.trans hy.memory⟩

/-- Behind a valid IP header there is room for a TCP header. -/
theorem room_of_valid {b : Buffer} {n tcp : Nat} (hmax : (n : Int) < 18446744073709551616)
    (h : BenkerVpn.validateIpTcp b n = some tcp) : tcp + 20 ≤ n := by
  obtain ⟨rfl, hvalid⟩ := (validateIpTcp_eq_some_iff hmax tcp).1 h
  have hheader := hvalid.header_le
  omega

section Handlers

variable {b : Buffer} {n : Nat} (hmax : (n : Int) < 18446744073709551616) (m : Machine)
include hmax

section Client

variable (count : Int) (ip : UInt32)

/-- What `handle_client_packet` does with a valid packet, once it has read its header. -/
theorem handleClientPacket_leadsTo {tcp : Nat} (h : BenkerVpn.validateIpTcp b n = some tcp) :
    LeadsTo (handleClientPacket m count n ip) b n
      (match acceptClient m count (segmentAt b tcp) with
      | (none, m') => reject m'
      | (some session, m') => do
          replaceSrcIpPort ip (m'.heap session).serverPort
          return ⟨.validSession, m', none, none⟩) := by
  have htcp := room_of_valid hmax h
  have hvalid := reads_validateIpTcp b (n := n)
  rw [h] at hvalid
  refine hvalid.leadsTo.trans ?_
  refine (reads_clientSession b htcp m count).leadsTo.trans ?_
  rw [acceptClient]
  rcases BenkerVpn.clientSession m count (segmentAt b tcp) with ⟨_ | s, m'⟩
  · exact .refl _ _ _
  · dsimp only
    rcases sessionExpired m' s with ⟨_ | _, m''⟩
    · exact (reads_clientFlags b htcp (m''.heap s)).leadsTo
    · exact .refl _ _ _

theorem handleClientPacket_computes :
    Computes (handleClientPacket m count n ip) b
      (BenkerVpn.handleClientPacket m count b n ip) := by
  rw [BenkerVpn.handleClientPacket]
  cases h : BenkerVpn.validateIpTcp b n with
  | none =>
      have hvalid := reads_validateIpTcp b (n := n)
      rw [h] at hvalid
      exact .of_leadsTo hvalid.leadsTo (computes_reject m b)
  | some tcp =>
      refine .of_leadsTo (handleClientPacket_leadsTo hmax m count ip h) ?_
      dsimp only
      rcases acceptClient m count (segmentAt b tcp) with ⟨_ | s, m'⟩
      · exact computes_reject m' b
      · exact computes_accept (memory_replaceSrcIpPort b ip _) m' none

/-- A packet from the client is handled in bounds exactly if a rejected one finds room for the reset
and an accepted one keeps to its lengths. -/
theorem inBounds_handleClientPacket_iff :
    InBounds (handleClientPacket m count n ip) b n ↔
      ((BenkerVpn.handleClientPacket m count b n ip).ret = .invalidSession → 40 ≤ n) ∧
        ((BenkerVpn.handleClientPacket m count b n ip).ret = .validSession → BenkerVpn.ihl b = 0 →
          ip.toNat / 268435456 * 4 ≤ n) := by
  rw [BenkerVpn.handleClientPacket]
  cases h : BenkerVpn.validateIpTcp b n with
  | none =>
      have hvalid := reads_validateIpTcp b (n := n)
      rw [h] at hvalid
      rw [handleClientPacket, hvalid.leadsTo.inBounds, inBounds_reject_iff]
      exact ⟨fun hn => ⟨fun _ => hn, by rintro ⟨⟩⟩, fun hn => hn.1 rfl⟩
  | some tcp =>
      rw [(handleClientPacket_leadsTo hmax m count ip h).inBounds]
      dsimp only
      rcases acceptClient m count (segmentAt b tcp) with ⟨_ | s, m'⟩
      · dsimp only
        rw [inBounds_reject_iff]
        exact ⟨fun hn => ⟨fun _ => hn, by rintro ⟨⟩⟩, fun hn => hn.1 rfl⟩
      · obtain ⟨-, hvalid⟩ := (validateIpTcp_eq_some_iff hmax tcp).1 h
        dsimp only
        rw [inBounds_bind, inBounds_replaceSrcIpPort_iff hvalid]
        exact ⟨fun hn => ⟨by rintro ⟨⟩, fun _ => hn.1⟩,
          fun hn => ⟨hn.2 rfl, inBounds_pure _ _ _⟩⟩

end Client

/-! ### Packets from the world -/

/-- What `handle_world_packet` does with a valid packet, once it has read its header. -/
theorem handleWorldPacket_leadsTo {tcp : Nat} (h : BenkerVpn.validateIpTcp b n = some tcp) :
    LeadsTo (handleWorldPacket m n) b n
      (match acceptWorld m (segmentAt b tcp) with
      | (none, m') => reject m'
      | (some session, m') => do
          replaceDstIpPort (m'.heap session).clientIp (m'.heap session).clientPort
          return ⟨.validSession, m', none, some (m'.heap session).clientIp⟩) := by
  have htcp := room_of_valid hmax h
  have hvalid := reads_validateIpTcp b (n := n)
  rw [h] at hvalid
  refine hvalid.leadsTo.trans ?_
  have hdest : Reads (read16 (tcp + 2)) b n (dest b tcp) := reads_read16 (by omega)
  refine hdest.leadsTo.trans (hdest.leadsTo.trans ?_)
  rw [acceptWorld]
  dsimp only [segmentAt]
  cases getTcpSessionByServer m (dest b tcp) with
  | none => exact .refl _ _ _
  | some s =>
      dsimp only
      rcases sessionExpired m s with ⟨_ | _, m'⟩
      · exact (reads_worldFlags b htcp (m'.heap s)).leadsTo
      · exact .refl _ _ _

theorem handleWorldPacket_computes :
    Computes (handleWorldPacket m n) b (BenkerVpn.handleWorldPacket m b n) := by
  rw [BenkerVpn.handleWorldPacket]
  cases h : BenkerVpn.validateIpTcp b n with
  | none =>
      have hvalid := reads_validateIpTcp b (n := n)
      rw [h] at hvalid
      exact .of_leadsTo hvalid.leadsTo (computes_reject m b)
  | some tcp =>
      refine .of_leadsTo (handleWorldPacket_leadsTo hmax m h) ?_
      dsimp only
      rcases acceptWorld m (segmentAt b tcp) with ⟨_ | s, m'⟩
      · exact computes_reject m' b
      · exact computes_accept (memory_replaceDstIpPort b _ _) m' _

/-- A packet from the world is handled in bounds exactly if a rejected one finds room for the reset
and no field of the session it is accepted for is written over one of its lengths and too large. -/
theorem inBounds_handleWorldPacket_iff :
    InBounds (handleWorldPacket m n) b n ↔
      ((BenkerVpn.handleWorldPacket m b n).ret = .invalidSession → 40 ≤ n) ∧
        ∀ s, (Call.world b n).session m = some s →
          (BenkerVpn.ihl b = 0 → (m.heap s).clientPort.toNat ≤ n) ∧
          (BenkerVpn.ihl b = 1 → 4 + (m.heap s).clientIp.toNat / 268435456 * 4 ≤ n) := by
  rw [BenkerVpn.handleWorldPacket, Call.session, segmentOf]
  cases h : BenkerVpn.validateIpTcp b n with
  | none =>
      have hvalid := reads_validateIpTcp b (n := n)
      rw [h] at hvalid
      rw [handleWorldPacket, hvalid.leadsTo.inBounds, inBounds_reject_iff]
      exact ⟨fun hn => ⟨fun _ => hn, by rintro s ⟨⟩⟩, fun hn => hn.1 rfl⟩
  | some tcp =>
      rw [(handleWorldPacket_leadsTo hmax m h).inBounds, Option.map_some, Option.bind_some]
      dsimp only
      rcases hacc : acceptWorld m (segmentAt b tcp) with ⟨_ | s, m'⟩
      · dsimp only
        rw [inBounds_reject_iff]
        exact ⟨fun hn => ⟨fun _ => hn, by rintro s ⟨⟩⟩, fun hn => hn.1 rfl⟩
      · -- the flags leave the identity of the session
        have hid : SameIdentity (m'.heap s) (m.heap s) := by
          cases acceptWorld_outcome hacc with
          | accepted s hs hexp =>
              exact store_sameIdentity (worldFlags_sameIdentity _ (segmentAt b tcp)) s
        obtain ⟨-, hvalid⟩ := (validateIpTcp_eq_some_iff hmax tcp).1 h
        dsimp only
        rw [inBounds_bind, inBounds_replaceDstIpPort_iff hvalid, hid.1, hid.2.1]
        constructor
        · rintro ⟨hn, -⟩
          refine ⟨by rintro ⟨⟩, fun s' hs' => ?_⟩
          obtain rfl := Option.some.inj hs'
          exact hn
        · exact fun hn => ⟨hn.2 s rfl, inBounds_pure _ _ _⟩

end Handlers

end BenkerVpn.Traced

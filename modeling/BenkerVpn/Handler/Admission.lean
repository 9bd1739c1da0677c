import BenkerVpn.Handler.Step
import BenkerVpn.Session.Coverage

/-!
# When a `SYN` is accepted

The server loop never calls `clean_expired_session`, so a session stays in the table after it has
expired, under its client key and on its port. `syn_accepted_iff_admits` says for every run of the
two handlers when the next `SYN` is accepted: the session of its key has not expired, or the key has
none and some port that `add_tcp_session` probes is held by no session, expired or not. Expired
sessions therefore block new ones (`expired_session_blocks_syn`).
-/

set_option autoImplicit false

namespace BenkerVpn

open Library.Buckets Library.Runs

/-- The session of the client key has not expired, or the key has no session, one of the ports
probed is held by no session, and the clock does not advance by more than ten seconds while the
session is created. -/
def Admits (m : Machine) (ip : UInt32) (port : UInt16) : Prop :=
  (∃ s, InClient m s ∧ clientKey m.heap s = (ip, port) ∧ m.clock 0 ≤ (m.heap s).expire) ∨
  ((∀ s, InClient m s → clientKey m.heap s ≠ (ip, port)) ∧
    (∃ k ≤ m.table.modNum.toNat, ∀ s, InServer m s →
      serverKey m.heap s ≠ m.table.probedPort (m.table.nextNum + UInt32.ofNat k)) ∧
    m.clock 1 ≤ m.clock 0 + 10)

/-- With `count` starting at `0`, the search probes `mod_num + 1` ports. -/
theorem Indexes.searchPort_isSome_iff {m : Machine} (h : Indexes m) :
    (searchPort m 0 m.table.nextNum).1 ≠ none ↔
      ∃ k ≤ m.table.modNum.toNat, ∀ s, InServer m s →
        serverKey m.heap s ≠ m.table.probedPort (m.table.nextNum + UInt32.ofNat k) := by
  rw [Ne, searchPort_none_iff, probeLimit_zero]
  simp only [not_forall, not_not, exists_prop, Nat.lt_succ_iff, h.getByServer_eq_none_iff]

/-- A stored session of the key decides by its expire time. -/
theorem Indexes.admits_iff_of_found {m : Machine} (h : Indexes m) {ip : UInt32} {port : UInt16}
    {s : SessionPtr} (hs : getTcpSessionByClient m ip port = some s) :
    Admits m ip port ↔ m.clock 0 ≤ (m.heap s).expire := by
  obtain ⟨hin, hkey⟩ := (h.getByClient_eq_some_iff _ _ s).1 hs
  constructor
  · rintro (⟨p, hp, hkey', hlive⟩ | ⟨hno, -⟩)
    · rwa [← h.client.key_injective hp hin (hkey'.trans hkey.symm)]
    · exact absurd hkey (hno s hin)
  · exact fun hlive => Or.inl ⟨s, hin, hkey, hlive⟩

/-- Without a session of the key, the search and the second reading of the clock decide. -/
theorem Indexes.admits_iff_of_unknown {m : Machine} (h : Indexes m) {ip : UInt32} {port : UInt16}
    (hs : getTcpSessionByClient m ip port = none) :
    Admits m ip port ↔
      (searchPort m 0 m.table.nextNum).1 ≠ none ∧ m.clock 1 ≤ m.clock 0 + 10 := by
  have hno := (h.getByClient_eq_none_iff _ _).1 hs
  rw [h.searchPort_isSome_iff]
  constructor
  · rintro (⟨p, hp, hkey, -⟩ | ⟨-, hport, hexp⟩)
    · exact absurd hkey (hno p hp)
    · exact ⟨hport, hexp⟩
  · rintro ⟨hport, hexp⟩
    exact Or.inr ⟨hno, hport, hexp⟩

/-- A `SYN` is accepted exactly if the machine admits it. -/
theorem Indexes.acceptClient_syn_iff {m : Machine} (h : Indexes m) {seg : Segment}
    (hsyn : seg.syn = true) :
    (acceptClient m 0 seg).1.isSome ↔ Admits m seg.saddr seg.source := by
  rcases hacc : acceptClient m 0 seg with ⟨r, m'⟩
  cases acceptClient_outcome hacc with
  | unknown hsyn' hs =>
      rw [hsyn] at hsyn'
      cases hsyn'
  | exhausted n hsyn' hs hq =>
      rw [h.admits_iff_of_unknown hs]
      simp [hq]
  | expired s hs hexp =>
      rw [h.admits_iff_of_found hs, ← expiredAt_eq_false_iff, hexp]
      simp
  | accepted s hs hexp =>
      rw [h.admits_iff_of_found hs, ← expiredAt_eq_false_iff, hexp]
      simp
  | createdExpired q n hsyn' hs hq hexp =>
      -- the session is there, but the packet that created it is rejected
      rw [h.admits_iff_of_unknown hs]
      simp only [Option.isSome_none, Bool.false_eq_true, false_iff, not_and, not_le]
      exact fun _ => hexp
  | createdAccepted q n hsyn' hs hq hexp =>
      rw [h.admits_iff_of_unknown hs]
      simp [hq, hexp]

/-- After every run of the two handlers, the next `SYN` is accepted exactly if the table admits
it. -/
theorem syn_accepted_iff_admits {pool : PortPool} {m₀ : Machine} (hfresh : Fresh pool m₀)
    (calls : List Call) {b : Buffer} {bufferLen : Int} {seg : Segment}
    (hseg : segmentOf b bufferLen = some seg) (hsyn : seg.syn = true) (ip : UInt32) :
    let m := exec perform m₀ calls
    (handleClientPacket m 0 b bufferLen ip).ret = .validSession ↔
      Admits m seg.saddr seg.source := by
  intro m
  have hidx : Indexes m := indexes_of_run hfresh calls
  rw [handleClientPacket_ret_iff, Call.session, hseg, Option.bind_some]
  exact hidx.acceptClient_syn_iff hsyn

/-- The handshake of one client and the `SYN` packets of two more, all in one bucket. -/
def earlierClients : List Call :=
  [clientCall sampleSyn, worldCall sampleSynAck, clientCall { sampleSyn with source := 5001 },
    clientCall { sampleSyn with source := 5002 }]

/-- A clock that stands at `0` for the calls of these clients and at `20` from then on. -/
def earlierClock (k : Nat) : Int := if k < 7 then 0 else 20

/-- A `SYN` of a fourth client. -/
def fourthSyn : Segment := { sampleSyn with source := 5003 }

/-- What these packets leave. -/
def earlierTable : Machine :=
  (acceptClient (acceptClient (acceptWorld
    (acceptClient (freshMachine sixPorts earlierClock) 0 sampleSyn).2 sampleSynAck).2
    0 { sampleSyn with source := 5001 }).2 0 { sampleSyn with source := 5002 }).2

theorem exec_earlierClients :
    exec perform (freshMachine sixPorts earlierClock) earlierClients = earlierTable := by
  unfold earlierClients earlierTable
  rw [exec_cons, exec_cons, exec_cons, exec_cons, exec_nil, perform_clientCall,
    perform_worldCall, perform_clientCall, perform_clientCall]

/-- Three expired sessions stand in the table, none of the fourth client, and the first port that
is probed is free. -/
theorem earlierTable_facts :
    getTcpSessionByClient earlierTable fourthSyn.saddr fourthSyn.source = none ∧
      getTcpSessionByServer earlierTable
        (earlierTable.table.probedPort (earlierTable.table.nextNum + UInt32.ofNat 0)) = none ∧
      earlierTable.clock 1 ≤ earlierTable.clock 0 + 10 ∧ earlierTable.clock 0 = 20 ∧
      (storedSessions earlierTable).map (fun s => (earlierTable.heap s).expire) =
        [10, 10, 10] := by
  decide +kernel

/-- At time `20` the sessions have expired and hold three of the six ports. The `SYN` of the fourth
client is accepted. -/
theorem fourth_syn_accepted :
    let m := exec perform (freshMachine sixPorts earlierClock) earlierClients
    m.clock 0 = 20 ∧ (storedSessions m).map (fun s => (m.heap s).expire) = [10, 10, 10] ∧
      (handleClientPacket m 0 (packetOf fourthSyn) 9000 3232266986).ret = .validSession := by
  intro m
  have hfresh := freshMachine_fresh sixPorts earlierClock
  have hidx : Indexes m := indexes_of_run hfresh earlierClients
  have hm : m = earlierTable := exec_earlierClients
  obtain ⟨hkey, hport, hreadings, hclock, hexpire⟩ := earlierTable_facts
  rw [← hm] at hkey hport hreadings hclock hexpire
  have hseg := segmentOf_packetOf fourthSyn (by decide : (40 : Int) ≤ 9000) (by decide)
  refine ⟨hclock, hexpire,
    (syn_accepted_iff_admits hfresh earlierClients hseg rfl 3232266986).2 (Or.inr ⟨?_, ?_, ?_⟩)⟩
  · exact (hidx.getByClient_eq_none_iff _ _).1 hkey
  · exact ⟨0, Nat.zero_le _, (hidx.getByServer_eq_none_iff _).1 hport⟩
  · exact hreadings

/-- A session is opened at time `0` and expires. At time `11` no session is unexpired, and the next
`SYN` of the same client is rejected because its expired session is still there. -/
theorem expired_session_blocks_syn :
    let m₀ := freshMachine smallPool fun k => if k < 2 then 0 else 11
    let m := exec perform m₀ [clientCall sampleSyn]
    let b := packetOf sampleSyn
    Fresh smallPool m₀ ∧ Monotone m₀.clock ∧ (∀ c ∈ [clientCall sampleSyn], c.IsPacket) ∧
      (validateIpTcp b 9000).isSome ∧ 5 ≤ ihl b ∧ 5 ≤ doff b (ihl b * 4) ∧
      syn b (ihl b * 4) = true ∧ m.clock 0 = 11 ∧
      ((storedSessions m).filter fun s => m.clock 0 ≤ (m.heap s).expire).length <
        m.table.modNum.toNat ∧
      (handleClientPacket m 0 b 9000 3232266986).ret = .invalidSession := by
  intro m₀ m b
  refine ⟨freshMachine_fresh smallPool _, ?_, ?_, by decide +kernel, by decide +kernel,
    by decide +kernel, by decide +kernel, by decide +kernel, by decide +kernel, by decide +kernel⟩
  · intro i j hij
    show (if i < 2 then (0 : Int) else 11) ≤ if j < 2 then (0 : Int) else 11
    split <;> split <;> omega
  · intro c hc
    obtain rfl := List.mem_singleton.1 hc
    trivial

end BenkerVpn

import BenkerVpn.Library.WrappingCounter
import BenkerVpn.Session.Bijection

/-!
# Which ports the search reaches

With `count` starting at `0`, the search probes at most `mod_num + 1` ports (`probes_le`). They are
the ports for as many consecutive values of `next_num`, a counter of 32 bits that wraps around at a
value `mod_num` need not divide. The search can then step over ports. It gives up exactly when every
port that it does not step over is held (`searchPort_none_iff_held`), so it gives up although a port
is free exactly if only such ports are free (`search_complete_iff`).
-/

set_option autoImplicit false

namespace BenkerVpn

open Library.BoundedSearch Library.Buckets Library.Runs Library.WrappingCounter

/-- The rounds that the loop of `add_tcp_session` makes. -/
def probes (m : Machine) (count : Int) (nextNum : UInt32) : Nat :=
  match getTcpSessionByServer m (m.table.probedPort nextNum) with
  | none => 1
  | some _ =>
      if m.table.modNum.toNat < incrementInt count then 1
      else probes m (incrementInt count) (nextNum + 1) + 1
termination_by probeLimit m.table.modNum count
decreasing_by
  rename_i h
  have hstep := probeLimit_incrementInt h
  omega

/-- The rounds are the questions of the search. -/
theorem probes_eq_tries (m : Machine) (count : Int) (n : UInt32) :
    probes m count n = tries (freeAt m n) (probeLimit m.table.modNum count) := by
  induction count, n using searchPort.induct m with
  | case1 count n port hnone =>
      have hfirst := firstHit_eq_zero (probeLimit_pos m.table.modNum count)
        (freeAt_zero_iff.2 hnone)
      rw [probes, hnone, tries_of_some hfirst]
  | case2 count n port s hsome hlt =>
      rw [probes, hsome, probeLimit_of_lt hlt, tries_succ, if_neg (not_freeAt_zero hsome)]
      simp only [hlt, if_true]
      rfl
  | case3 count n port s hsome hlt ih =>
      rw [probes, hsome, probeLimit_incrementInt hlt, tries_succ, if_neg (not_freeAt_zero hsome),
        freeAt_succ, ← ih]
      simp only [hlt, if_false]

/-- Every round moves `next_num` on by one. -/
theorem searchPort_nextNum (m : Machine) (count : Int) (n : UInt32) :
    (searchPort m count n).2 = n + UInt32.ofNat (probes m count n) := by
  rw [searchPort_eq_search, probes_eq_tries]

/-- The loop ends after as many rounds as `count` allows. -/
theorem probes_le (m : Machine) (count : Int) (n : UInt32) :
    probes m count n ≤ probeLimit m.table.modNum count := by
  rw [probes_eq_tries]
  exact tries_le _ _

/-- A stored session holds the port `min_port + j`. -/
def PortHeld (m : Machine) (j : Nat) : Prop :=
  ∃ s, InServer m s ∧ (m.heap s).serverPort.toNat = m.table.minPort.toNat + j

section Search

variable {m : Machine} (h : Indexes m) (hmod : 1 ≤ m.table.modNum.toNat)
  (hrange : m.table.minPort.toNat + m.table.modNum.toNat - 1 ≤ 65535)
include h hmod hrange

/-- A probe finds the session that holds the port of its residue. -/
theorem probe_ne_none_iff (n : UInt32) :
    getTcpSessionByServer m (m.table.probedPort n) ≠ none ↔
      PortHeld m (n.toNat % m.table.modNum.toNat) := by
  have hport := SessionHashTable.probedPort_toNat hmod hrange n
  rw [Ne, h.getByServer_eq_none_iff]
  push Not
  constructor
  · rintro ⟨s, hs, hkey⟩
    refine ⟨s, hs, ?_⟩
    rw [← serverKey, hkey, hport, Nat.add_comm]
  · rintro ⟨s, hs, hheld⟩
    refine ⟨s, hs, UInt16.toNat_inj.1 ?_⟩
    rw [serverKey, hheld, hport, Nat.add_comm]

/-- The search gives up exactly when every port that it does not step over is held. -/
theorem searchPort_none_iff_held (n : UInt32) :
    (searchPort m 0 n).1 = none ↔
      ∀ j < m.table.modNum.toNat, ¬ Skipped 4294967296 m.table.modNum.toNat n.toNat j →
        PortHeld m j := by
  have hmodlt := m.table.modNum.toNat_lt
  have hMW : m.table.modNum.toNat < 4294967296 := by omega
  rw [searchPort_none_iff, probeLimit_zero]
  simp only [probe_ne_none_iff h hmod hrange, UInt32.toNat_add, UInt32.toNat_ofNat',
    Nat.add_mod_mod, Nat.lt_succ_iff]
  constructor
  · intro hall j hj hreached
    obtain ⟨k, hk, rfl⟩ := (exists_residue_iff hMW n.toNat_lt hj).2 hreached
    exact hall k hk
  · intro hall k hk
    have hlt : (n.toNat + k) % 4294967296 % m.table.modNum.toNat < m.table.modNum.toNat :=
      Nat.mod_lt _ hmod
    exact hall _ hlt ((exists_residue_iff hMW n.toNat_lt hlt).1 ⟨k, hk, rfl⟩)

/-- For a new key `add_tcp_session` gives up when the search does. -/
theorem addTcpSession_none_iff_held {ip : UInt32} {port : UInt16}
    (hkey : ∀ s, InClient m s → clientKey m.heap s ≠ (ip, port)) (timeout : Int) :
    (addTcpSession m 0 ip port timeout).1 = none ↔
      ∀ j < m.table.modNum.toNat,
        ¬ Skipped 4294967296 m.table.modNum.toNat m.table.nextNum.toNat j → PortHeld m j := by
  rw [← searchPort_none_iff_held h hmod hrange, addTcpSession,
    (h.getByClient_eq_none_iff ip port).2 hkey]
  dsimp only
  split
  · next hnone => simp [hnone]
  · next hsome => simp [hsome]

end Search

/-- The search ends within `mod_num + 1` rounds, and no session is returned exactly if every port of
the range is held. -/
def SearchComplete (m : Machine) (ip : UInt32) (port : UInt16) (timeout : Int) : Prop :=
  probes m 0 m.table.nextNum ≤ m.table.modNum.toNat + 1 ∧
    ((addTcpSession m 0 ip port timeout).1 = none ↔ ∀ j < m.table.modNum.toNat, PortHeld m j)

/-- The port search is complete exactly if no port is free or some free port is not stepped
over. -/
theorem search_complete_iff {m : Machine} (h : Indexes m) (hmod : 1 ≤ m.table.modNum.toNat)
    (hrange : m.table.minPort.toNat + m.table.modNum.toNat - 1 ≤ 65535) {ip : UInt32}
    {port : UInt16} (hkey : ∀ s, InClient m s → clientKey m.heap s ≠ (ip, port))
    (timeout : Int) :
    SearchComplete m ip port timeout ↔
      ((∃ j < m.table.modNum.toNat, ¬ PortHeld m j) →
        ∃ j < m.table.modNum.toNat, ¬ PortHeld m j ∧
          ¬ Skipped 4294967296 m.table.modNum.toNat m.table.nextNum.toNat j) := by
  have hprobes := probes_le m 0 m.table.nextNum
  rw [probeLimit_zero] at hprobes
  rw [SearchComplete, and_iff_right hprobes, addTcpSession_none_iff_held h hmod hrange hkey]
  constructor
  · rintro hiff ⟨j, hj, hfree⟩
    by_contra hno
    push Not at hno
    exact hfree (hiff.1 (fun i hi hreached => not_not.1 fun hi' => hreached (hno i hi hi')) j hj)
  · intro hcond
    refine ⟨fun hreached j hj => ?_, fun hall j hj _ => hall j hj⟩
    by_contra hfree
    obtain ⟨i, hi, hifree, hireached⟩ := hcond ⟨j, hj, hfree⟩
    exact hifree (hreached i hi hireached)

/-- Nothing is stepped over if the number of counter values leaves at most one over when divided by
the number of ports, or the counter does not wrap around during the search. -/
theorem search_complete_of_counter {m : Machine} (h : Indexes m)
    (hmod : 1 ≤ m.table.modNum.toNat)
    (hrange : m.table.minPort.toNat + m.table.modNum.toNat - 1 ≤ 65535) {ip : UInt32}
    {port : UInt16} (hkey : ∀ s, InClient m s → clientKey m.heap s ≠ (ip, port))
    (timeout : Int)
    (hcounter : 4294967296 % m.table.modNum.toNat ≤ 1 ∨
      m.table.nextNum.toNat + m.table.modNum.toNat ≤ 4294967296) :
    (addTcpSession m 0 ip port timeout).1 = none ↔ ∀ j < m.table.modNum.toNat, PortHeld m j := by
  have hnone : ∀ j < m.table.modNum.toNat,
      ¬ Skipped 4294967296 m.table.modNum.toNat m.table.nextNum.toNat j := by
    intro j hj hskipped
    have hwraps := (exists_skipped_iff hmod).1 ⟨j, hj, hskipped⟩
    omega
  rw [addTcpSession_none_iff_held h hmod hrange hkey]
  exact ⟨fun hall j hj => hall j hj (hnone j hj), fun hall j hj _ => hall j hj⟩

/-! ## A table whose counter is about to wrap around -/

/-- One bucket and the ports 40000 to 40005. -/
def sixPorts : PortPool where
  numEntry := 1
  minPort := 40000
  maxPort := 40005
  numEntry_pos := by decide
  minPort_le := by decide
  size_le := by decide

/-- Four sessions hold the ports 40000 to 40003, and `next_num` is three before its end. -/
def aboutToWrap : Machine :=
  (exec perform (freshMachine sixPorts fun _ => 0)
    [.add 0 1 5000 10, .add 0 2 5000 10, .add 0 3 5000 10, .add 0 4 5000 10]).setNextNum 4294967293

theorem aboutToWrap_natInvariant : NatInvariant sixPorts aboutToWrap := by
  have hadds : Permitted perform SteadyCall (freshMachine sixPorts fun _ => 0)
      [.add 0 1 5000 10, .add 0 2 5000 10, .add 0 3 5000 10, .add 0 4 5000 10] :=
    ⟨fun h => (nomatch h), fun h => (nomatch h), fun h => (nomatch h), fun h => (nomatch h),
      trivial⟩
  exact (natInvariant_of_run (freshMachine_fresh sixPorts _) hadds).setNextNum _

/-- The seven probes reach the residues 1, 2, 3 before the wrap and 0, 1, 2, 3 behind it, so the
search gives up although the ports 40004 and 40005 are free. -/
theorem aboutToWrap_gives_up :
    NatInvariant sixPorts aboutToWrap ∧ 1 ≤ aboutToWrap.table.len ∧
      1 ≤ aboutToWrap.table.modNum.toNat ∧
      aboutToWrap.table.minPort.toNat + aboutToWrap.table.modNum.toNat - 1 ≤ 65535 ∧
      (∀ s, InClient aboutToWrap s → clientKey aboutToWrap.heap s ≠ (9, 5000)) ∧
      ¬ SearchComplete aboutToWrap 9 5000 10 := by
  have hidx := aboutToWrap_natInvariant.indexes
  have hkey := (hidx.getByClient_eq_none_iff 9 5000).1 (by decide +kernel)
  have hnone : (addTcpSession aboutToWrap 0 9 5000 10).1 = none := by decide +kernel
  have hfree := (hidx.getByServer_eq_none_iff 40004).1 (by decide +kernel)
  have hmin : aboutToWrap.table.minPort = 40000 := by decide +kernel
  refine ⟨aboutToWrap_natInvariant, by decide +kernel, by decide +kernel, by decide +kernel, hkey,
    fun hcomplete => ?_⟩
  obtain ⟨s, hs, hheld⟩ := hcomplete.2.1 hnone 4 (by decide +kernel)
  rw [hmin] at hheld
  exact hfree s hs (UInt16.toNat_inj.1 hheld)

/-- Two ports that are probed are held, and the third one is free. -/
theorem threeSessions_search_complete : SearchComplete (threeSessions 11 1) 9 5000 10 := by
  have h := threeSessions_twoIndexed 11 1
  have hkey := (h.indexes.getByClient_eq_none_iff 9 5000).1 (by decide)
  have hfree := (h.indexes.getByServer_eq_none_iff 40003).1 (by decide)
  refine (search_complete_iff h.indexes h.modNum_pos h.range_le hkey 10).2 fun _ => ?_
  refine ⟨3, by decide, ?_, by decide⟩
  rintro ⟨s, hs, hheld⟩
  exact hfree s hs (UInt16.toNat_inj.1 hheld)

end BenkerVpn

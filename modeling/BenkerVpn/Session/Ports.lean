import BenkerVpn.Library.BoundedSearch
import BenkerVpn.Session.Index

/-!
# The port pool and the port search

`PortPool` holds arguments of `init_hash_table` for which the range size fits its 16-bit field. For
such a table every probed port lies in the configured range (`PortPool.probedPort_mem`). The search
loop of `add_tcp_session` is a bounded search among them (`searchPort_eq_search`): it returns a free
port of the range (`searchPort_some`) and gives up exactly when all the ports it probes are held
(`searchPort_none_iff`).
-/

set_option autoImplicit false

namespace BenkerVpn

open Library.BoundedSearch

/-- Arguments of `init_hash_table`: at least one bucket and a non-empty range of at most 65535
ports. -/
structure PortPool where
  numEntry : Nat
  minPort : UInt16
  maxPort : UInt16
  numEntry_pos : 1 ≤ numEntry
  minPort_le : minPort ≤ maxPort
  size_le : maxPort.toNat - minPort.toNat + 1 ≤ 65535

namespace PortPool

variable (pool : PortPool)

/-- The table `init_hash_table` makes. -/
def table : SessionHashTable := initHashTable pool.numEntry pool.minPort pool.maxPort

/-- The number of ports of the range. -/
def size : Nat := pool.maxPort.toNat - pool.minPort.toNat + 1

theorem minPort_toNat_le : pool.minPort.toNat ≤ pool.maxPort.toNat :=
  UInt16.le_iff_toNat_le.1 pool.minPort_le

/-- `mod_num` is the number of ports of the range. -/
theorem modNum_toNat : pool.table.modNum.toNat = pool.size := by
  have hle := pool.minPort_toNat_le
  have hsize := pool.size_le
  have hmax := pool.maxPort.toNat_lt
  show (pool.maxPort - pool.minPort + 1).toNat = pool.size
  rw [UInt16.toNat_add, UInt16.toNat_sub_of_le _ _ pool.minPort_le]
  exact Nat.mod_eq_of_lt (by simp only [UInt16.reduceToNat]; omega)

end PortPool

/-- The machine's table was made from the pool; `next_num` and the lists may have changed since. -/
structure Configured (pool : PortPool) (m : Machine) : Prop where
  len : m.table.len = pool.numEntry
  minPort : m.table.minPort = pool.minPort
  modNum : m.table.modNum = pool.table.modNum

/-- The port probed for a counter value, without wraparound. -/
theorem SessionHashTable.probedPort_toNat {t : SessionHashTable} (hmod : 1 ≤ t.modNum.toNat)
    (hrange : t.minPort.toNat + t.modNum.toNat - 1 ≤ 65535) (n : UInt32) :
    (t.probedPort n).toNat = n.toNat % t.modNum.toNat + t.minPort.toNat := by
  have hlt : n.toNat % t.modNum.toNat < t.modNum.toNat := Nat.mod_lt _ hmod
  rw [probedPort, UInt32.toNat_toUInt16, UInt32.toNat_add, UInt32.toNat_mod,
    UInt16.toNat_toUInt32, UInt16.toNat_toUInt32]
  omega

namespace Configured

variable {pool : PortPool} {m : Machine}

theorem len_pos (h : Configured pool m) : 0 < m.table.len := by
  rw [h.len]
  exact pool.numEntry_pos

theorem modNum_toNat (h : Configured pool m) : m.table.modNum.toNat = pool.size := by
  rw [h.modNum, pool.modNum_toNat]

theorem probedPort_toNat (h : Configured pool m) (n : UInt32) :
    (m.table.probedPort n).toNat = n.toNat % pool.size + pool.minPort.toNat := by
  have hle := pool.minPort_toNat_le
  have hmax := pool.maxPort.toNat_lt
  have hsize : pool.size = pool.maxPort.toNat - pool.minPort.toNat + 1 := rfl
  have hmod := h.modNum_toNat
  rw [SessionHashTable.probedPort_toNat (by omega) (by rw [h.minPort]; omega), hmod, h.minPort]

/-- Every probed port lies in the range. -/
theorem probedPort_mem (h : Configured pool m) (n : UInt32) :
    pool.minPort.toNat ≤ (m.table.probedPort n).toNat ∧
      (m.table.probedPort n).toNat ≤ pool.maxPort.toNat := by
  have hle := pool.minPort_toNat_le
  have hlt : n.toNat % pool.size < pool.size := Nat.mod_lt _ (Nat.succ_pos _)
  have hsize : pool.size = pool.maxPort.toNat - pool.minPort.toNat + 1 := rfl
  rw [h.probedPort_toNat]
  omega

end Configured

/-! ## The search loop -/

/-- A `count` that starts at `0` allows one probe more than there are ports. -/
theorem probeLimit_zero (modNum : UInt16) : probeLimit modNum 0 = modNum.toNat + 1 := by
  simp [probeLimit]

theorem probeLimit_incrementInt {modNum : UInt16} {count : Int}
    (h : ¬ (modNum.toNat : Int) < incrementInt count) :
    probeLimit modNum count = probeLimit modNum (incrementInt count) + 1 := by
  have hlt := modNum.toNat_lt
  simp only [probeLimit, incrementInt] at *
  split <;> split <;> omega

theorem probeLimit_of_lt {modNum : UInt16} {count : Int}
    (h : (modNum.toNat : Int) < incrementInt count) : probeLimit modNum count = 1 := by
  have hlt := modNum.toNat_lt
  simp only [probeLimit, incrementInt] at *
  split
  · next hc => simp [hc] at h; omega
  · next hc => simp only [hc, if_false] at h; omega

theorem probeLimit_pos (modNum : UInt16) (count : Int) : 0 < probeLimit modNum count := by
  unfold probeLimit
  split <;> omega

/-- The port of probe `k` is free. -/
def freeAt (m : Machine) (n : UInt32) (k : Nat) : Bool :=
  (getTcpSessionByServer m (m.table.probedPort (n + UInt32.ofNat k))).isNone

section Probes

variable {m : Machine} {n : UInt32}

theorem freeAt_eq_true_iff {k : Nat} : freeAt m n k = true ↔
    getTcpSessionByServer m (m.table.probedPort (n + UInt32.ofNat k)) = none :=
  Option.isNone_iff_eq_none

/-- The first probe asks for the port of the counter itself. -/
theorem freeAt_zero_iff :
    freeAt m n 0 = true ↔ getTcpSessionByServer m (m.table.probedPort n) = none := by
  rw [freeAt_eq_true_iff, show n + UInt32.ofNat 0 = n from UInt32.add_zero n]

theorem not_freeAt_zero {s : SessionPtr}
    (h : getTcpSessionByServer m (m.table.probedPort n) = some s) : ¬ freeAt m n 0 = true := by
  rw [freeAt_zero_iff, h]
  exact Option.some_ne_none s

/-- The next counter value probes the ports behind the first one. -/
theorem add_one_add_ofNat (n : UInt32) (k : Nat) :
    n + 1 + UInt32.ofNat k = n + UInt32.ofNat (k + 1) := by
  rw [UInt32.ofNat_add, UInt32.add_assoc, UInt32.add_comm 1]
  rfl

theorem freeAt_succ : (fun k => freeAt m n (k + 1)) = freeAt m (n + 1) := by
  funext k
  rw [freeAt, freeAt, add_one_add_ofNat]

end Probes

/-- The loop searches among as many probes as `count` allows, and counts them in `next_num`. -/
theorem searchPort_eq_search (m : Machine) (count : Int) (n : UInt32) :
    searchPort m count n =
      ((firstHit (freeAt m n) (probeLimit m.table.modNum count)).map fun k =>
          m.table.probedPort (n + UInt32.ofNat k),
        n + UInt32.ofNat (tries (freeAt m n) (probeLimit m.table.modNum count))) := by
  induction count, n using searchPort.induct m with
  | case1 count n port hnone =>
      -- found at the first probe
      have hfirst := firstHit_eq_zero (probeLimit_pos m.table.modNum count)
        (freeAt_zero_iff.2 hnone)
      rw [searchPort, hnone, hfirst, tries_of_some hfirst]
      simp
  | case2 count n port s hsome hlt =>
      -- the only probe that was left is held
      have hheld := not_freeAt_zero hsome
      rw [searchPort, hsome, probeLimit_of_lt hlt, firstHit_succ, tries_succ, if_neg hheld,
        if_neg hheld]
      simp only [hlt, if_true]
      rfl
  | case3 count n port s hsome hlt ih =>
      -- the first probe is held; probe `k` of the rest is probe `k + 1`
      have hheld := not_freeAt_zero hsome
      rw [searchPort, hsome, probeLimit_incrementInt hlt, firstHit_succ, tries_succ, if_neg hheld,
        if_neg hheld, freeAt_succ]
      simp only [hlt, if_false]
      rw [ih, Option.map_map, add_one_add_ofNat]
      simp only [Function.comp_def, add_one_add_ofNat]

/-- The port the search returns was probed and is held by no session. -/
theorem searchPort_some {m : Machine} {count : Int} {n : UInt32} {q : UInt16}
    (h : (searchPort m count n).1 = some q) :
    getTcpSessionByServer m q = none ∧ ∃ k, q = m.table.probedPort k := by
  rw [searchPort_eq_search, Option.map_eq_some_iff] at h
  obtain ⟨k, hk, rfl⟩ := h
  exact ⟨freeAt_eq_true_iff.1 (firstHit_eq_some_iff.1 hk).2.1, _, rfl⟩

/-- The search gives up exactly when every port it may probe is held by a session. -/
theorem searchPort_none_iff (m : Machine) (count : Int) (n : UInt32) :
    (searchPort m count n).1 = none ↔
      ∀ k < probeLimit m.table.modNum count,
        getTcpSessionByServer m (m.table.probedPort (n + UInt32.ofNat k)) ≠ none := by
  rw [searchPort_eq_search, Option.map_eq_none_iff, firstHit_eq_none_iff]
  simp only [← Bool.not_eq_true, freeAt_eq_true_iff, ne_eq]

end BenkerVpn

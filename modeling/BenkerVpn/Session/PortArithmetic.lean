import BenkerVpn.Session.Bijection

/-!
# The arithmetic of the port range

`init_hash_table` stores the number of ports in 16 bits, and `add_tcp_session` divides by it. The
functions of the model return a value for every divisor; here are the same functions with divisions
that trap (`checkedAddTcpSession`). Additions to a table never trap and probe ports of its range
only, exactly if the range is not the whole of the 16-bit numbers (`additions_sound_iff`): their
number is stored as `0`, and the first addition traps (`additions_trap`).
-/

set_option autoImplicit false

namespace BenkerVpn

open Library.Buckets Library.Runs

/-! ## The functions with their divisions -/

/-- `(next_num % mod_num) + min_port` in 32 bits, before it is stored in 16; nothing if the divisor
is `0`. -/
def checkedPort (t : SessionHashTable) (nextNum : UInt32) : Option UInt32 :=
  if t.modNum = 0 then none else some (nextNum % t.modNum.toUInt32 + t.minPort.toUInt32)

/-- The loop of `add_tcp_session`, or nothing if its division traps. -/
def checkedSearchPort (m : Machine) (count : Int) (nextNum : UInt32) :
    Option (Option UInt16 × UInt32) :=
  match checkedPort m.table nextNum with
  | none => none
  | some value =>
      let serverPort := value.toUInt16
      match getTcpSessionByServer m serverPort with
      | none => some (some serverPort, nextNum + 1)
      | some _ =>
          if m.table.modNum.toNat < incrementInt count then some (none, nextNum + 1)
          else checkedSearchPort m (incrementInt count) (nextNum + 1)
termination_by probeLimit m.table.modNum count
decreasing_by
  rename_i h
  have hstep := probeLimit_incrementInt h
  omega

/-- `add_tcp_session`, or nothing if one of its divisions traps. -/
def checkedAddTcpSession (m : Machine) (count : Int) (clientIp : UInt32) (clientPort : UInt16)
    (timeout : Int) : Option (Option SessionPtr × Machine) :=
  -- the bucket of the key is computed first; the divisor of all buckets is `len`
  if m.table.len = 0 then none
  else
    match getTcpSessionByClient m clientIp clientPort with
    | some session => some (some session, m)
    | none =>
        match checkedSearchPort m count m.table.nextNum with
        | none => none
        | some (none, nextNum) => some (none, m.setNextNum nextNum)
        | some (some serverPort, nextNum) =>
            some (some m.brk,
              createSession (m.setNextNum nextNum) clientIp clientPort serverPort timeout)

/-- Arguments of `add_tcp_session`, with what the stack leaves in its `count`. -/
structure Addition where
  count : Int
  clientIp : UInt32
  clientPort : UInt16
  timeout : Int

/-- The machine after an addition, unless it traps. -/
def checkedAdd (m : Machine) (a : Addition) : Option Machine :=
  (checkedAddTcpSession m a.count a.clientIp a.clientPort a.timeout).map Prod.snd

/-- The call that makes the addition. -/
def Addition.call (a : Addition) : Call := .add a.count a.clientIp a.clientPort a.timeout

section NoTrap

variable {m : Machine}

/-- A round of the loop whose division does not trap. -/
theorem checkedSearchPort_round (hmod : m.table.modNum ≠ 0) (count : Int) (n : UInt32) :
    checkedSearchPort m count n =
      match getTcpSessionByServer m (m.table.probedPort n) with
      | none => some (some (m.table.probedPort n), n + 1)
      | some _ =>
          if m.table.modNum.toNat < incrementInt count then some (none, n + 1)
          else checkedSearchPort m (incrementInt count) (n + 1) := by
  rw [checkedSearchPort, checkedPort, if_neg hmod]
  rfl

/-- Without a trap the loop is the one of the model. -/
theorem checkedSearchPort_eq_some (hmod : m.table.modNum ≠ 0) (count : Int) (n : UInt32) :
    checkedSearchPort m count n = some (searchPort m count n) := by
  induction count, n using searchPort.induct m with
  | case1 count n port hnone =>
      rw [checkedSearchPort_round hmod, searchPort, hnone]
  | case2 count n port s hsome hlt =>
      rw [checkedSearchPort_round hmod, searchPort, hsome]
      simp only [hlt, if_true]
  | case3 count n port s hsome hlt ih =>
      rw [checkedSearchPort_round hmod, searchPort, hsome]
      simp only [hlt, if_false]
      exact ih

theorem checkedSearchPort_eq_none (hmod : m.table.modNum = 0) (count : Int) (n : UInt32) :
    checkedSearchPort m count n = none := by
  rw [checkedSearchPort, checkedPort, if_pos hmod]

/-- Without a trap an addition is the one of the model. -/
theorem checkedAdd_eq_some (hlen : m.table.len ≠ 0) (hmod : m.table.modNum ≠ 0) (a : Addition) :
    checkedAdd m a = some (perform m a.call) := by
  rw [checkedAdd, checkedAddTcpSession, if_neg hlen, Addition.call, perform, addTcpSession]
  cases getTcpSessionByClient m a.clientIp a.clientPort with
  | some s => rfl
  | none =>
      dsimp only
      rw [checkedSearchPort_eq_some hmod]
      rcases searchPort m a.count m.table.nextNum with ⟨_ | q, n⟩
      · rfl
      · rfl

end NoTrap

/-! ## Which ranges are sound -/

/-- The table of `init_hash_table` and what `add_tcp_session` computes from it: `mod_num` is the
number of ports, and for every value of `next_num` the division is defined, the sum does not exceed
16 bits, and the port lies in the range. -/
structure PortsSound (minPort maxPort : UInt16) (m : Machine) : Prop where
  modNum_ne_zero : m.table.modNum ≠ 0
  modNum_toNat : m.table.modNum.toNat = maxPort.toNat - minPort.toNat + 1
  probe : ∀ n : UInt32, ∃ value, checkedPort m.table n = some value ∧
    value.toNat = n.toNat % m.table.modNum.toNat + minPort.toNat ∧
    value.toUInt16.toNat = value.toNat ∧
    minPort.toNat ≤ value.toNat ∧ value.toNat ≤ maxPort.toNat

theorem Configured.portsSound {pool : PortPool} {m : Machine} (h : Configured pool m) :
    PortsSound pool.minPort pool.maxPort m := by
  have hmod := h.modNum_toNat
  have hsize : pool.size = pool.maxPort.toNat - pool.minPort.toNat + 1 := rfl
  have hne : m.table.modNum ≠ 0 := by
    intro hzero
    rw [hzero, hsize] at hmod
    cases hmod
  refine ⟨hne, hmod.trans hsize, fun n => ⟨_, if_neg hne, ?_⟩⟩
  -- the sum is smaller than `2 ^ 16`, so neither the sum nor its low half wraps around
  have hmem := h.probedPort_mem n
  have hport := h.probedPort_toNat n
  have hmax := pool.maxPort.toNat_lt
  have hvalue : (n % m.table.modNum.toUInt32 + m.table.minPort.toUInt32).toNat =
      n.toNat % m.table.modNum.toNat + pool.minPort.toNat := by
    rw [UInt32.toNat_add, UInt32.toNat_mod, UInt16.toNat_toUInt32, UInt16.toNat_toUInt32,
      h.minPort, hmod]
    omega
  rw [UInt32.toNat_toUInt16, hvalue, hmod]
  omega

/-- The pool of a range that is not all of the 16-bit numbers. -/
def PortPool.ofRange {numEntry : Nat} {minPort maxPort : UInt16} (hentry : 1 ≤ numEntry)
    (hle : minPort ≤ maxPort) (hrange : ¬ (minPort = 0 ∧ maxPort = 65535)) : PortPool where
  numEntry := numEntry
  minPort := minPort
  maxPort := maxPort
  numEntry_pos := hentry
  minPort_le := hle
  size_le := by
    have hmax := maxPort.toNat_lt
    by_contra hsize
    refine hrange ⟨UInt16.toNat_inj.1 ?_, UInt16.toNat_inj.1 ?_⟩
    · show minPort.toNat = 0
      omega
    · show maxPort.toNat = 65535
      omega

/-- Additions to the table of a pool do not trap. -/
theorem checkedExec_of_fresh {pool : PortPool} {m : Machine} (hfresh : Fresh pool m)
    (adds : List Addition) :
    checkedExec checkedAdd m adds =
      some (exec (fun m a => perform m (Addition.call a)) m adds) := by
  refine checkedExec_eq_some (Configured pool) (fun m a h => ?_) (fun m a h => h.perform a.call)
    hfresh.configured adds
  exact checkedAdd_eq_some h.len_pos.ne' h.portsSound.modNum_ne_zero a

/-- The number of all 16-bit ports does not fit into 16 bits. -/
theorem not_portsSound_full (m : Machine) : ¬ PortsSound 0 65535 m := by
  intro h
  have hlt := m.table.modNum.toNat_lt
  have hmod := h.modNum_toNat
  simp only [UInt16.reduceToNat] at hmod
  omega

/-- In a table over all ports, the first addition divides by `0`. -/
theorem additions_trap {numEntry : Nat} {m : Machine}
    (hinit : m.table = initHashTable numEntry 0 65535) (a : Addition) (adds : List Addition) :
    checkedExec checkedAdd m (a :: adds) = none := by
  have hmod : m.table.modNum = 0 := by
    rw [hinit]
    rfl
  have hnew : getTcpSessionByClient m a.clientIp a.clientPort = none := by
    rw [getTcpSessionByClient, hinit]
    rfl
  have hadd : checkedAdd m a = none := by
    rw [checkedAdd, checkedAddTcpSession, hnew]
    dsimp only
    rw [checkedSearchPort_eq_none hmod]
    split <;> rfl
  rw [checkedExec_cons, hadd, Option.bind_none]

/-- The ranges whose arithmetic is sound. Whatever additions are made to a table just made by
`init_hash_table`, they do not trap, and the port arithmetic is sound in the state that they reach,
exactly if the range is not the whole of the 16-bit numbers. -/
theorem additions_sound_iff {numEntry : Nat} (hentry : 1 ≤ numEntry) {minPort maxPort : UInt16}
    (hle : minPort ≤ maxPort) {m : Machine}
    (hinit : m.table = initHashTable numEntry minPort maxPort) (adds : List Addition) :
    (∃ m', checkedExec checkedAdd m adds = some m' ∧ PortsSound minPort maxPort m') ↔
      ¬ (minPort = 0 ∧ maxPort = 65535) := by
  constructor
  · rintro ⟨m', -, hsound⟩ ⟨rfl, rfl⟩
    exact not_portsSound_full m' hsound
  · intro hrange
    have hfresh : Fresh (PortPool.ofRange hentry hle hrange) m := hinit
    have hconfigured := invariant_of_mem (Configured (PortPool.ofRange hentry hle hrange))
      (fun m a (_ : a ∈ adds) h => h.perform a.call) hfresh.configured
    exact ⟨_, checkedExec_of_fresh hfresh adds, hconfigured.portsSound⟩

/-- Two additions to a table of two ports. -/
theorem smallPool_additions_sound :
    ∃ m', checkedExec checkedAdd (freshMachine smallPool fun _ => 0)
        [⟨0, 167772161, 5000, 10⟩, ⟨-3, 167772162, 5000, 10⟩] = some m' ∧
      PortsSound 40000 40001 m' :=
  (additions_sound_iff (show 1 ≤ 2 by decide) (by decide) rfl _).2 (by decide)

/-- A machine that has just called `init_hash_table` with one bucket and all ports. -/
def allPorts : Machine where
  heap := fun _ => newSession 0 0 0 0
  brk := 0
  table := initHashTable 1 0 65535
  clock := fun _ => 0

/-- All 65536 ports are counted as `0`, and the first addition divides by it. -/
theorem allPorts_unsound :
    allPorts.table.modNum = 0 ∧
      checkedExec checkedAdd allPorts [⟨0, 167772161, 5000, 10⟩] = none ∧
      ¬ ∃ m', checkedExec checkedAdd allPorts [] = some m' ∧ PortsSound 0 65535 m' :=
  ⟨rfl, additions_trap rfl _ _, fun ⟨m', _, h⟩ => not_portsSound_full m' h⟩

end BenkerVpn

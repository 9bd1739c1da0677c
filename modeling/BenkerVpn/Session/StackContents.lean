import BenkerVpn.Session.Coverage

/-!
# What the uninitialised counter decides

`count` counts the held ports that the search of `add_tcp_session` has met, and is never set to `0`.
What the stack left in it says how many ports the search probes. Two executions that differ only in
this value do the same unless one of them gives up before the first free port and the other one
finds it, or gives up later (`addTcpSession_sameAddition_iff`).
-/

set_option autoImplicit false

namespace BenkerVpn

open Library.BoundedSearch Library.Buckets Library.Runs

/-- The port of the session that `add_tcp_session` returns. -/
def returnedPort (r : Option SessionPtr × Machine) : Option UInt16 :=
  r.1.map fun s => (r.2.heap s).serverPort

/-- Two executions of `add_tcp_session` have the same result: `NULL` or a session with the same
port, and the same table of the same sessions. -/
structure SameAddition (r r' : Option SessionPtr × Machine) : Prop where
  port : returnedPort r = returnedPort r'
  table : r.2.table = r'.2.table
  sessions : ∀ s, InTable r.2 s → r.2.heap s = r'.2.heap s

theorem SameAddition.of_eq {r r' : Option SessionPtr × Machine} (h : r = r') :
    SameAddition r r' := by
  subst h
  exact ⟨rfl, rfl, fun _ _ => rfl⟩

/-! ## The two searches -/

/-- A value of `count` from which no search counts up to an overflow. -/
def Leftover (c : Int) : Prop := 0 ≤ c ∧ c ≤ 2147418111

section Limits

variable {c c' : Int} (hc : Leftover c) (hc' : Leftover c') (modNum : UInt16)

include hc in
theorem probeLimit_of_leftover : probeLimit modNum c = (modNum.toNat - c).toNat + 1 := by
  rw [Leftover] at hc
  rw [probeLimit, if_neg (by omega)]

include hc in
theorem probeLimit_le_of_leftover : probeLimit modNum c ≤ 65536 := by
  have hlt := modNum.toNat_lt
  rw [probeLimit_of_leftover hc]
  rw [Leftover] at hc
  omega

include hc in
/-- The first probe is always made, and another one as long as `count` is not above `mod_num`. -/
theorem lt_probeLimit_iff (k : Nat) :
    k < probeLimit modNum c ↔ k = 0 ∨ c + k ≤ modNum.toNat := by
  rw [probeLimit_of_leftover hc]
  omega

include hc hc' in
theorem probeLimit_eq_iff : probeLimit modNum c = probeLimit modNum c' ↔
    c = c' ∨ ((modNum.toNat : Int) ≤ c ∧ (modNum.toNat : Int) ≤ c') := by
  rw [probeLimit_of_leftover hc, probeLimit_of_leftover hc']
  omega

include hc hc' in
/-- The counters of two searches differ by less than `2 ^ 32`, so `next_num` tells how often they
asked, and thereby what they found. -/
theorem searchPort_eq_iff (m : Machine) (n : UInt32) :
    searchPort m c n = searchPort m c' n ↔
      firstHit (freeAt m n) (probeLimit m.table.modNum c) =
          firstHit (freeAt m n) (probeLimit m.table.modNum c') ∧
        tries (freeAt m n) (probeLimit m.table.modNum c) =
          tries (freeAt m n) (probeLimit m.table.modNum c') := by
  have hle := tries_le (freeAt m n) (probeLimit m.table.modNum c)
  have hle' := tries_le (freeAt m n) (probeLimit m.table.modNum c')
  have hlimit := probeLimit_le_of_leftover hc m.table.modNum
  have hlimit' := probeLimit_le_of_leftover hc' m.table.modNum
  rw [searchPort_eq_search, searchPort_eq_search, Prod.mk.injEq]
  constructor
  · rintro ⟨hport, hnext⟩
    have htries : tries (freeAt m n) (probeLimit m.table.modNum c) =
        tries (freeAt m n) (probeLimit m.table.modNum c') := by
      have hof := UInt32.toNat_inj.2 ((UInt32.add_right_inj n).1 hnext)
      rwa [UInt32.toNat_ofNat', UInt32.toNat_ofNat', Nat.mod_eq_of_lt (by omega),
        Nat.mod_eq_of_lt (by omega)] at hof
    refine ⟨?_, htries⟩
    cases h : firstHit (freeAt m n) (probeLimit m.table.modNum c) with
    | none =>
        rw [h, Option.map_none, eq_comm, Option.map_eq_none_iff] at hport
        exact hport.symm
    | some k =>
        rw [h, Option.map_some, eq_comm, Option.map_eq_some_iff] at hport
        obtain ⟨k', h', -⟩ := hport
        rw [tries_of_some h, tries_of_some h'] at htries
        rw [h', Nat.succ_injective htries]
  · rintro ⟨hhit, htries⟩
    rw [hhit, htries]
    exact ⟨rfl, rfl⟩

end Limits

/-! ## The two executions -/

section Executions

variable {m : Machine} {ip : UInt32} {port : UInt16}

/-- For a new key, `add_tcp_session` returns a session with the port that the search found. -/
theorem returnedPort_addTcpSession (hnew : getTcpSessionByClient m ip port = none) (c : Int)
    (timeout : Int) :
    returnedPort (addTcpSession m c ip port timeout) = (searchPort m c m.table.nextNum).1 := by
  rw [addTcpSession, hnew]
  dsimp only
  split
  · next hsearch => rw [hsearch, returnedPort, Option.map_none]
  · next q n hsearch =>
      rw [hsearch, returnedPort, Option.map_some]
      exact congrArg (fun s => some s.serverPort)
        (createSession_heap_brk (m := m.setNextNum n) ip port q timeout)

theorem nextNum_addTcpSession (hnew : getTcpSessionByClient m ip port = none) (c : Int)
    (timeout : Int) :
    (addTcpSession m c ip port timeout).2.table.nextNum = (searchPort m c m.table.nextNum).2 := by
  rw [addTcpSession, hnew]
  dsimp only
  split
  · next hsearch =>
      rw [hsearch]
      rfl
  · next hsearch =>
      rw [hsearch]
      rfl

/-- For a new key, two executions have the same result exactly if their searches have. -/
theorem sameAddition_iff_searchPort_eq (hnew : getTcpSessionByClient m ip port = none)
    (c c' : Int) (timeout : Int) :
    SameAddition (addTcpSession m c ip port timeout) (addTcpSession m c' ip port timeout) ↔
      searchPort m c m.table.nextNum = searchPort m c' m.table.nextNum := by
  constructor
  · intro h
    have hport := h.port
    have hnext := congrArg SessionHashTable.nextNum h.table
    rw [returnedPort_addTcpSession hnew, returnedPort_addTcpSession hnew] at hport
    rw [nextNum_addTcpSession hnew, nextNum_addTcpSession hnew] at hnext
    exact Prod.ext hport hnext
  · intro h
    refine SameAddition.of_eq ?_
    rw [addTcpSession, addTcpSession, h]

end Executions

/-- Exactly when what `add_tcp_session` does is independent of the stack. The key is known; or
both values allow equally many probes; or one of the ports that both executions may probe is
free. -/
theorem addTcpSession_sameAddition_iff {m : Machine} (h : TwoIndexed m) {c c' : Int}
    (hc : Leftover c) (hc' : Leftover c') (ip : UInt32) (port : UInt16) (timeout : Int) :
    SameAddition (addTcpSession m c ip port timeout) (addTcpSession m c' ip port timeout) ↔
      (∃ s, InClient m s ∧ clientKey m.heap s = (ip, port)) ∨
      c = c' ∨ ((m.table.modNum.toNat : Int) ≤ c ∧ (m.table.modNum.toNat : Int) ≤ c') ∨
      ∃ k : Nat, (k = 0 ∨ (c + k ≤ m.table.modNum.toNat ∧ c' + k ≤ m.table.modNum.toNat)) ∧
        ¬ PortHeld m ((m.table.nextNum.toNat + k) % 4294967296 % m.table.modNum.toNat) := by
  cases hs : getTcpSessionByClient m ip port with
  | some s =>
      have hstored := (h.indexes.getByClient_eq_some_iff ip port s).1 hs
      refine iff_of_true (SameAddition.of_eq ?_) (Or.inl ⟨s, hstored⟩)
      rw [addTcpSession, addTcpSession, hs]
  | none =>
      have hnew := (h.indexes.getByClient_eq_none_iff ip port).1 hs
      have hunknown : ¬ ∃ s, InClient m s ∧ clientKey m.heap s = (ip, port) := by
        rintro ⟨s, hin, hkey⟩
        exact hnew s hin hkey
      have hfree : ∀ k : Nat, freeAt m m.table.nextNum k = true ↔
          ¬ PortHeld m ((m.table.nextNum.toNat + k) % 4294967296 % m.table.modNum.toNat) := by
        intro k
        rw [freeAt_eq_true_iff, ← not_iff_not, not_not,
          ← Ne, probe_ne_none_iff h.indexes h.modNum_pos h.range_le, UInt32.toNat_add,
          UInt32.toNat_ofNat', Nat.add_mod_mod]
      rw [sameAddition_iff_searchPort_eq hs, searchPort_eq_iff hc hc', search_congr_iff,
        probeLimit_eq_iff hc hc', or_iff_right hunknown, or_assoc]
      refine or_congr_right (or_congr_right (exists_congr fun k => ?_))
      rw [lt_probeLimit_iff hc, lt_probeLimit_iff hc', hfree, ← and_assoc, ← or_and_left]

/-! ## A table in which the stack decides -/

/-- Two sessions were added, for 1000 and for 10 seconds, and the second one has been cleaned away:
port 40000 is held, 40001 is free, and 40000 is probed next. -/
def oneExpired : Machine :=
  exec perform (freshMachine smallPool fun k => if k < 2 then 0 else 100)
    [.add 0 1 5000 1000, .add 0 2 5000 10, .clean]

theorem oneExpired_twoIndexed : TwoIndexed oneExpired := by
  refine (natInvariant_of_run (freshMachine_fresh smallPool _) ?_).twoIndexed
  refine ⟨fun h => (nomatch h), fun h => (nomatch h), fun _ => ?_, trivial⟩
  unfold SteadyClean
  decide +kernel

/-- A `count` of `0` lets the second probe find port 40001; a `count` of `2` gives up before it. -/
theorem oneExpired_depends_on_count :
    TwoIndexed oneExpired ∧ Leftover 0 ∧ Leftover 2 ∧
      returnedPort (addTcpSession oneExpired 0 3 5000 10) = some 40001 ∧
      (addTcpSession oneExpired 2 3 5000 10).1 = none ∧
      ¬ SameAddition (addTcpSession oneExpired 0 3 5000 10)
        (addTcpSession oneExpired 2 3 5000 10) := by
  have hfound : returnedPort (addTcpSession oneExpired 0 3 5000 10) = some 40001 := by
    decide +kernel
  have hnone : (addTcpSession oneExpired 2 3 5000 10).1 = none := by decide +kernel
  refine ⟨oneExpired_twoIndexed, ⟨by decide, by decide⟩, ⟨by decide, by decide⟩, hfound, hnone,
    fun h => ?_⟩
  have hport := h.port
  rw [hfound, returnedPort, hnone] at hport
  cases hport

/-- In the same table two values that leave both probes agree: port 40001 is free. -/
theorem oneExpired_sameAddition :
    SameAddition (addTcpSession oneExpired 0 3 5000 10)
      (addTcpSession oneExpired 1 3 5000 10) := by
  refine (addTcpSession_sameAddition_iff oneExpired_twoIndexed ⟨by decide, by decide⟩
    ⟨by decide, by decide⟩ 3 5000 10).2 (Or.inr (Or.inr (Or.inr ⟨1, Or.inr ?_, ?_⟩)))
  · decide +kernel
  · rintro ⟨s, hs, hheld⟩
    have hfree := (oneExpired_twoIndexed.indexes.getByServer_eq_none_iff 40001).1
      (by decide +kernel)
    refine hfree s hs (UInt16.toNat_inj.1 (hheld.trans ?_))
    decide +kernel

end BenkerVpn

import BenkerVpn.Session.Clean
import Mathlib.Data.Int.ConditionallyCompleteOrder
import Mathlib.Order.Lattice.Nat

/-!
# Do the two indexes agree after cleaning?

A session is judged once in each index, by two different readings of the clock. The indexes agree
after a cleaning call exactly when no stored session has its expiry between the two readings that
judge it (`cleanExpiredSession_agree_iff`). A call that sees one clock value therefore keeps the
agreement (`agree_clean_of_steady`); one tick between the two judgements of a session can break it
(`tick_splits_indexes`).
-/

set_option autoImplicit false

namespace BenkerVpn

open Library.Buckets

/-- The two indexes hold the same sessions. -/
def Agree (m : Machine) : Prop := ∀ s, InClient m s ↔ InServer m s

theorem expiredAt_eq_true_iff (heap : SessionPtr → TcpSession) (now : Int) (s : SessionPtr) :
    expiredAt heap now s = true ↔ (heap s).expire < now := by
  rw [expiredAt, decide_eq_true_iff]
  omega

theorem expiredAt_eq_false_iff (heap : SessionPtr → TcpSession) (now : Int) (s : SessionPtr) :
    expiredAt heap now s = false ↔ now ≤ (heap s).expire := by
  rw [expiredAt, decide_eq_false_iff_not]
  omega

section Judged

variable {m : Machine} (h : Housed m)
include h

/-- The reading that judges a session in an index decides whether it stays there. -/
theorem inSide_clean_iff_of_judgedAt {side : Side} {s : SessionPtr} {k : Nat}
    (hk : JudgedAt m side s k) :
    InSide (cleanExpiredSession m) side s ↔ m.clock k ≤ (m.heap s).expire := by
  rw [cleanExpiredSession_inSide_iff h]
  constructor
  · rintro ⟨k', hk', hexp⟩
    rw [judgedAt_unique h hk hk']
    exact (expiredAt_eq_false_iff _ _ _).1 hexp
  · exact fun hle => ⟨k, hk, (expiredAt_eq_false_iff _ _ _).2 hle⟩

/-- If the two readings that judge a session always lie on the same side of its expiry, then the
indexes agree after cleaning. -/
theorem agree_clean_of_same_side (hagree : Agree m)
    (hside : ∀ s kc ks, JudgedAt m .client s kc → JudgedAt m .server s ks →
      ((m.heap s).expire < m.clock kc ↔ (m.heap s).expire < m.clock ks)) :
    Agree (cleanExpiredSession m) := by
  intro s
  by_cases hs : InClient m s
  · -- judged once on each side, with the same result
    obtain ⟨kc, hkc⟩ := exists_judgedAt h .client hs
    obtain ⟨ks, hks⟩ := exists_judgedAt h .server ((hagree s).1 hs)
    have hclient := inSide_clean_iff_of_judgedAt h hkc
    have hserver := inSide_clean_iff_of_judgedAt h hks
    rw [← not_lt] at hclient hserver
    exact hclient.trans ((not_congr (hside s kc ks hkc hks)).trans hserver.symm)
  · have hs' : ¬ InServer m s := fun hs' => hs ((hagree s).2 hs')
    -- cleaning adds nothing
    exact iff_of_false (fun hc => hs (inSide_of_clean .client hc))
      (fun hc => hs' (inSide_of_clean .server hc))

end Judged

/-- The indexes agree after cleaning exactly when the two readings that judge a session, one in each
index, lie on the same side of its expiry. -/
theorem cleanExpiredSession_agree_iff {m : Machine} (h : Housed m) (hagree : Agree m) :
    Agree (cleanExpiredSession m) ↔
      ∀ s kc ks, JudgedAt m .client s kc → JudgedAt m .server s ks →
        ((m.heap s).expire < m.clock kc ↔ (m.heap s).expire < m.clock ks) := by
  refine ⟨fun hafter s kc ks hkc hks => ?_, agree_clean_of_same_side h hagree⟩
  -- kept on both sides or on neither
  have e := (inSide_clean_iff_of_judgedAt h hkc).symm.trans
    ((hafter s).trans (inSide_clean_iff_of_judgedAt h hks))
  rw [← not_le, ← not_le, e]

/-- Every reading of the next cleaning call returns the same value. -/
def SteadyClean (m : Machine) : Prop := ∀ k < (schedule m).length, m.clock k = m.clock 0

theorem JudgedAt.lt {m : Machine} {side : Side} {s : SessionPtr} {k : Nat}
    (h : JudgedAt m side s k) : k < (schedule m).length := by
  by_contra hge
  rw [JudgedAt, List.getElem?_eq_none (by omega)] at h
  cases h

/-- A cleaning call that sees one clock value keeps the agreement of the indexes. -/
theorem agree_clean_of_steady {m : Machine} (h : Housed m) (hagree : Agree m)
    (hsteady : SteadyClean m) : Agree (cleanExpiredSession m) :=
  agree_clean_of_same_side h hagree fun s kc ks hkc hks => by
    rw [hsteady kc hkc.lt, hsteady ks hks.lt]

/-! ## Three sessions in one bucket -/

/-- A table of one bucket in which an unexpired session stands between two that expire at time `10`,
seen from time `start` by a clock that advances by `speed` seconds per reading. The next search
starts at the second port, which is held. -/
def threeSessions (start speed : Int) : Machine where
  heap := fun p =>
    newSession (UInt32.ofNat (p + 1)) 5000 (UInt16.ofNat (40000 + p)) (if p = 1 then 100 else 10)
  brk := 3
  table := { initHashTable 1 40000 40005 with
    listClientKey := fun i => if i = 0 then [2, 1, 0] else []
    listServerKey := fun i => if i = 0 then [2, 1, 0] else []
    nextNum := 1 }
  clock := fun k => start + speed * k

theorem threeSessions_housed (start speed : Int) : Housed (threeSessions start speed) := by
  refine ⟨Nat.one_pos, ?_, ?_, ?_, ?_⟩ <;> intro i
  · intro s hs
    by_cases hi : i = 0
    · rw [hi, clientHash]
      exact (Nat.mod_one _).symm
    · simp [threeSessions, hi] at hs
  · intro s hs
    by_cases hi : i = 0
    · rw [hi, serverHash]
      exact (Nat.mod_one _).symm
    · simp [threeSessions, hi] at hs
  · by_cases hi : i = 0 <;> simp [threeSessions, hi]
  · by_cases hi : i = 0 <;> simp [threeSessions, hi]

theorem threeSessions_agree (start speed : Int) : Agree (threeSessions start speed) :=
  fun _ => Iff.rfl

/-- The clock runs during the call, but no session expires meanwhile: both indexes keep the session
in the middle. -/
theorem threeSessions_clean_agree : Agree (cleanExpiredSession (threeSessions 11 1)) := by
  refine (cleanExpiredSession_agree_iff (threeSessions_housed 11 1)
    (threeSessions_agree 11 1)).2 fun s kc ks hkc hks => ?_
  have hlength : (schedule (threeSessions 11 1)).length = 6 := by decide
  have hlt := hkc.lt
  have hlt' := hks.lt
  rw [hlength] at hlt hlt'
  show (if s = 1 then (100 : Int) else 10) < 11 + 1 * kc ↔
    (if s = 1 then (100 : Int) else 10) < 11 + 1 * ks
  split <;> omega

/-! ## A clock tick between the two judgements -/

/-- One bucket with one session of expiry `10`, seen from time `start` by a clock that advances by
`speed` seconds per reading. -/
def oneSession (start speed : Int) : Machine where
  heap := fun _ => newSession 1 1 1 10
  brk := 1
  table := { initHashTable 1 1 1 with
    listClientKey := fun i => if i = 0 then [0] else []
    listServerKey := fun i => if i = 0 then [0] else [] }
  clock := fun k => start + speed * k

theorem oneSession_housed (start speed : Int) : Housed (oneSession start speed) := by
  refine ⟨Nat.one_pos, ?_, ?_, ?_, ?_⟩ <;> intro i
  · intro s hs
    by_cases hi : i = 0
    · rw [hi, clientHash]
      exact (Nat.mod_one _).symm
    · simp [oneSession, hi] at hs
  · intro s hs
    by_cases hi : i = 0
    · rw [hi, serverHash]
      exact (Nat.mod_one _).symm
    · simp [oneSession, hi] at hs
  · by_cases hi : i = 0 <;> simp [oneSession, hi]
  · by_cases hi : i = 0 <;> simp [oneSession, hi]

theorem oneSession_agree (start speed : Int) : Agree (oneSession start speed) := fun _ => Iff.rfl

/-- At time `10` the client node is kept, one second later the server node of the same session is
dropped: the clock never goes back and the indexes disagree afterwards. -/
theorem tick_splits_indexes :
    Housed (oneSession 10 1) ∧ Agree (oneSession 10 1) ∧ Monotone (oneSession 10 1).clock ∧
      (cleanExpiredSession (oneSession 10 1)).table.listClientKey 0 = [0] ∧
      (cleanExpiredSession (oneSession 10 1)).table.listServerKey 0 = [] ∧
      ¬ Agree (cleanExpiredSession (oneSession 10 1)) := by
  have hserver : ¬ InServer (cleanExpiredSession (oneSession 10 1)) 0 := by
    rintro ⟨i, hi⟩
    have hlt := (oneSession_housed 10 1).bucket_lt .server
      ((cleanExpiredSession_lists_sublist _ .server i).subset hi)
    obtain rfl : i = 0 := Nat.lt_one_iff.1 hlt
    exact absurd hi (by decide)
  refine ⟨oneSession_housed 10 1, oneSession_agree 10 1, ?_, by decide, by decide, ?_⟩
  · intro a b hab
    show (10 : Int) + 1 * a ≤ 10 + 1 * b
    omega
  · exact fun hagree => hserver ((hagree 0).1 ⟨0, by decide⟩)

end BenkerVpn

import BenkerVpn.Session.Bijection

/-!
# What cleaning removes

A node is judged by one of the readings of the call. If the clock does not go back while it is read,
all of them lie between the first and the last reading, so what has expired at the first one is
removed wherever it stands, and what has not at the last one stays (`cleanExpiredSession_cleaned`).
In between the readings decide (`cleanExpiredSession_inSide_iff`).
-/

set_option autoImplicit false

namespace BenkerVpn

open Library.Buckets Library.Runs

/-- The readings of the next cleaning call do not decrease. -/
def NondecreasingClean (m : Machine) : Prop :=
  ∀ i j, i ≤ j → j < (schedule m).length → m.clock i ≤ m.clock j

/-- The last reading of the next cleaning call. -/
def lastReading (m : Machine) : Int := m.clock ((schedule m).length - 1)

/-- What cleaning the table of `m` leaves: nothing that was expired at the first reading and
everything that was not at the last, in the order in which it was. -/
structure Cleaned (m m' : Machine) : Prop where
  removed : ∀ s, expiredAt m.heap (m.clock 0) s = true → ¬ InClient m' s ∧ ¬ InServer m' s
  kept : ∀ s, InTable m s → expiredAt m.heap (lastReading m) s = false →
    getTcpSessionByClient m' (m.heap s).clientIp (m.heap s).clientPort = some s ∧
      getTcpSessionByServer m' (m.heap s).serverPort = some s
  clientOrder : ∀ i, (m'.table.listClientKey i).Sublist (m.table.listClientKey i)
  serverOrder : ∀ i, (m'.table.listServerKey i).Sublist (m.table.listServerKey i)
  clientNodup : ∀ i, (m'.table.listClientKey i).Nodup
  serverNodup : ∀ i, (m'.table.listServerKey i).Nodup
  heap_eq : m'.heap = m.heap
  nextNum_eq : m'.table.nextNum = m.table.nextNum
  minPort_eq : m'.table.minPort = m.table.minPort
  modNum_eq : m'.table.modNum = m.table.modNum
  len_eq : m'.table.len = m.table.len

section Readings

variable {m : Machine} (h : Housed m) (hclock : NondecreasingClean m) {s : SessionPtr}
include h hclock

/-- What has expired at the first reading has expired at the one that judges it. -/
theorem not_inSide_clean_of_expired (hexp : expiredAt m.heap (m.clock 0) s = true) (side : Side) :
    ¬ InSide (cleanExpiredSession m) side s := by
  intro hs
  obtain ⟨k, hk, hlive⟩ := (cleanExpiredSession_inSide_iff h side s).1 hs
  have hfirst := hclock 0 k (Nat.zero_le k) hk.lt
  rw [expiredAt_eq_true_iff] at hexp
  rw [expiredAt_eq_false_iff] at hlive
  omega

/-- What has not expired at the last reading has not at the one that judges it. -/
theorem inSide_clean_of_live (side : Side) (hs : InSide m side s)
    (hlive : expiredAt m.heap (lastReading m) s = false) :
    InSide (cleanExpiredSession m) side s := by
  obtain ⟨k, hk⟩ := exists_judgedAt h side hs
  have hlt := hk.lt
  have hlast := hclock k ((schedule m).length - 1) (by omega) (by omega)
  rw [expiredAt_eq_false_iff, lastReading] at hlive
  rw [inSide_clean_iff_of_judgedAt h hk]
  omega

end Readings

/-- `clean_expired_session` removes what it should and nothing else. -/
theorem cleanExpiredSession_cleaned {m : Machine} (h : TwoIndexed m)
    (hclock : NondecreasingClean m) : Cleaned m (cleanExpiredSession m) := by
  have hhoused := h.indexes.housed h.len_pos
  have hidx := h.indexes.clean
  constructor
  case removed =>
    intro s hexp
    exact ⟨not_inSide_clean_of_expired hhoused hclock hexp .client,
      not_inSide_clean_of_expired hhoused hclock hexp .server⟩
  case kept =>
    intro s hs hlive
    have hclient : InClient (cleanExpiredSession m) s :=
      inSide_clean_of_live hhoused hclock .client (h.inClient_of_inTable hs) hlive
    have hserver : InServer (cleanExpiredSession m) s :=
      inSide_clean_of_live hhoused hclock .server (h.inServer_of_inTable hs) hlive
    -- the keys are read from the heap, which is not written
    rw [hidx.getByClient_eq_some_iff, hidx.getByServer_eq_some_iff, cleanExpiredSession_heap]
    exact ⟨⟨hclient, rfl⟩, hserver, rfl⟩
  case clientOrder => exact cleanExpiredSession_lists_sublist m .client
  case serverOrder => exact cleanExpiredSession_lists_sublist m .server
  case clientNodup => exact hidx.client.nodup
  case serverNodup => exact hidx.server.nodup
  case heap_eq => exact cleanExpiredSession_heap m
  case nextNum_eq => exact cleanExpiredSession_nextNum m
  case minPort_eq => exact cleanExpiredSession_minPort m
  case modNum_eq => exact cleanExpiredSession_modNum m
  case len_eq => exact cleanExpiredSession_len m

/-- The sessions at both ends are removed by a call that starts at time `11`. -/
theorem threeSessions_cleaned :
    Cleaned (threeSessions 11 1) (cleanExpiredSession (threeSessions 11 1)) := by
  apply cleanExpiredSession_cleaned (threeSessions_twoIndexed 11 1)
  intro i j hij _
  show (11 : Int) + 1 * i ≤ 11 + 1 * j
  omega

end BenkerVpn

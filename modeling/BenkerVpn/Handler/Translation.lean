import BenkerVpn.Handler.Step
import BenkerVpn.Library.PartialBijection

/-!
# The address translation behind the table

What the table is for is a partial bijection between client addresses and server ports. A machine
with the invariant denotes one (`NatInvariant.translation`). Every call but cleaning keeps it or
adds one pair with a port of the range (`translation_grows`), cleaning only removes pairs
(`translation_clean_le`), and the handlers rewrite packets by it: the source of an accepted client
packet to its image (`client_translated`), the destination of an accepted world packet to its
preimage (`world_translated`). As long as the table is not cleaned, the translation of an address
never changes (`translation_le_of_run`).
-/

set_option autoImplicit false

namespace BenkerVpn

open Library.Buckets Library.PartialBijection Library.Runs

/-- Address and port of a client. -/
abbrev ClientKey := UInt32 × UInt16

section Translation

variable {pool : PortPool} {m m' : Machine}

/-- The sessions as pairs of client key and server port. -/
def NatInvariant.translation (h : NatInvariant pool m) : ClientKey ≃. UInt16 where
  toFun k := (getTcpSessionByClient m k.1 k.2).map (serverKey m.heap)
  invFun q := (getTcpSessionByServer m q).map (clientKey m.heap)
  inv k q := by
    -- a session found through one index is found through the other, since both hold the same
    rw [Option.map_eq_some_iff, Option.map_eq_some_iff]
    constructor
    · rintro ⟨s, hs, hkey⟩
      obtain ⟨hin, hport⟩ := (h.indexes.getByServer_eq_some_iff q s).1 hs
      exact ⟨s, (h.indexes.getByClient_eq_some_iff k.1 k.2 s).2 ⟨(h.agree s).2 hin, hkey⟩, hport⟩
    · rintro ⟨s, hs, hport⟩
      obtain ⟨hin, hkey⟩ := (h.indexes.getByClient_eq_some_iff k.1 k.2 s).1 hs
      exact ⟨s, (h.indexes.getByServer_eq_some_iff q s).2 ⟨(h.agree s).1 hin, hport⟩, hkey⟩

/-- The pairs of the translation are those of the stored sessions. -/
theorem NatInvariant.translation_eq_some_iff (h : NatInvariant pool m) (k : ClientKey)
    (q : UInt16) :
    h.translation k = some q ↔
      ∃ s, InClient m s ∧ clientKey m.heap s = k ∧ serverKey m.heap s = q := by
  refine (Option.map_eq_some_iff).trans (exists_congr fun s => ?_)
  rw [h.indexes.getByClient_eq_some_iff, and_assoc]

theorem NatInvariant.translation_eq_none_iff (h : NatInvariant pool m) (k : ClientKey) :
    h.translation k = none ↔ getTcpSessionByClient m k.1 k.2 = none :=
  Option.map_eq_none_iff

theorem NatInvariant.translation_symm_eq_none_iff (h : NatInvariant pool m) (q : UInt16) :
    h.translation.symm q = none ↔ getTcpSessionByServer m q = none :=
  Option.map_eq_none_iff

theorem SameIdentity.keys {heap heap' : SessionPtr → TcpSession} {s : SessionPtr}
    (h : SameIdentity (heap' s) (heap s)) :
    clientKey heap' s = clientKey heap s ∧ serverKey heap' s = serverKey heap s :=
  ⟨Prod.ext h.1 h.2.1, h.2.2.1⟩

/-- Machines with the same sessions denote the same translation. -/
theorem NatInvariant.translation_of_same (h : NatInvariant pool m) (h' : NatInvariant pool m')
    (hin : ∀ s, InClient m' s ↔ InClient m s)
    (hid : ∀ s, InClient m s → SameIdentity (m'.heap s) (m.heap s)) :
    h'.translation = h.translation := by
  apply PEquiv.ext
  intro k
  apply Option.ext
  intro q
  rw [h'.translation_eq_some_iff, h.translation_eq_some_iff]
  apply exists_congr
  intro s
  rw [hin]
  apply and_congr_right
  intro hs
  rw [(hid s hs).keys.1, (hid s hs).keys.2]

/-- Reading the clock leaves the translation as it is. -/
theorem NatInvariant.translation_of_tick (h : NatInvariant pool m) (h' : NatInvariant pool m')
    {n : Nat} (htick : m' = m.tick n) : h'.translation = h.translation := by
  subst htick
  exact h.translation_of_same h' (fun _ => Iff.rfl) fun _ _ => SameIdentity.refl _

/-- One more session is one more pair. -/
theorem NatInvariant.translation_of_created (h : NatInvariant pool m) (h' : NatInvariant pool m')
    {p : SessionPtr} {k : ClientKey} {q : UInt16} (hin : ∀ s, InClient m' s ↔ InClient m s ∨ s = p)
    (hid : ∀ s, InClient m s → SameIdentity (m'.heap s) (m.heap s))
    (hkey : clientKey m'.heap p = k) (hport : serverKey m'.heap p = q)
    (hk : h.translation k = none) (hq : h.translation.symm q = none) :
    h'.translation = insertPair h.translation k q hk hq := by
  apply PEquiv.ext
  intro x
  apply Option.ext
  intro y
  rw [h'.translation_eq_some_iff, insertPair_eq_some_iff, h.translation_eq_some_iff]
  constructor
  · rintro ⟨s, hs, hx, hy⟩
    -- the pair belongs to an old session or to the new one
    rcases (hin s).1 hs with hold | rfl
    · rw [(hid s hold).keys.1] at hx
      rw [(hid s hold).keys.2] at hy
      exact Or.inr ⟨s, hold, hx, hy⟩
    · exact Or.inl ⟨hx.symm.trans hkey, hy.symm.trans hport⟩
  · rintro (⟨rfl, rfl⟩ | ⟨s, hs, hx, hy⟩)
    · exact ⟨p, (hin p).2 (Or.inr rfl), hkey, hport⟩
    · refine ⟨s, (hin s).2 (Or.inl hs), ?_, ?_⟩
      · rw [(hid s hs).keys.1, hx]
      · rw [(hid s hs).keys.2, hy]

end Translation

/-! ## Calls -/

/-- The port belongs to the range. -/
def InRange (pool : PortPool) (q : UInt16) : Prop := pool.minPort ≤ q ∧ q ≤ pool.maxPort

section Calls

variable {pool : PortPool} {m : Machine} {c : Call}

theorem NatInvariant.grows_of_same {m' : Machine} (h : NatInvariant pool m)
    (h' : NatInvariant pool m') (hin : ∀ s, InClient m' s ↔ InClient m s)
    (hid : ∀ s, InClient m s → SameIdentity (m'.heap s) (m.heap s)) :
    Grows (InRange pool) h.translation h'.translation := by
  rw [h.translation_of_same h' hin hid]
  exact .keep

/-- A created session adds a pair; its port lies in the range, since the invariant holds after the
call. -/
theorem NatInvariant.grows_of_created {m' : Machine} (h : NatInvariant pool m)
    (h' : NatInvariant pool m') {ip : UInt32} {port q : UInt16}
    (hs : getTcpSessionByClient m ip port = none) (hq : getTcpSessionByServer m q = none)
    (hin : ∀ s, InClient m' s ↔ InClient m s ∨ s = m.brk)
    (hid : ∀ s, InClient m s → SameIdentity (m'.heap s) (m.heap s))
    (hkey : clientKey m'.heap m.brk = (ip, port)) (hport : serverKey m'.heap m.brk = q) :
    Grows (InRange pool) h.translation h'.translation := by
  have hk := (h.translation_eq_none_iff (ip, port)).2 hs
  have hfree := (h.translation_symm_eq_none_iff q).2 hq
  rw [h.translation_of_created h' hin hid hkey hport hk hfree]
  apply Grows.pair
  obtain ⟨hmin, hmax⟩ := h'.ports m.brk ((h'.agree _).1 ((hin _).2 (Or.inr rfl)))
  rw [InRange, UInt16.le_iff_toNat_le, UInt16.le_iff_toNat_le, ← hport]
  exact ⟨hmin, hmax⟩

/-- Every call but cleaning keeps the translation or adds one pair with a port of the range. -/
theorem translation_grows (h : NatInvariant pool m) (hc : c ≠ .clean)
    (h' : NatInvariant pool (perform m c)) :
    Grows (InRange pool) h.translation h'.translation := by
  have hpacket : c.IsPacket → Grows (InRange pool) h.translation h'.translation := by
    intro hpkt
    have hid : ∀ s, InClient m s → SameIdentity ((perform m c).heap s) (m.heap s) :=
      fun s hs => perform_sameIdentity hpkt (h.indexes.clientAllocated s hs)
    -- a packet that creates a session moves `brk`
    by_cases hbrk : m.brk < (perform m c).brk
    · obtain ⟨seg, q, -, -, hs, hq, hip, hport, hserver, -⟩ := perform_created_identity hpkt hbrk
      apply h.grows_of_created h' hs hq _ hid (Prod.ext hip hport) hserver
      intro s
      exact (perform_inIndex_iff hpkt .client s).trans (or_congr_right (and_iff_left hbrk))
    · apply h.grows_of_same h' _ hid
      intro s
      exact (perform_inIndex_iff hpkt .client s).trans (or_iff_left fun hnew => hbrk hnew.2)
  cases c with
  | client count b bufferLen ip => exact hpacket trivial
  | world b bufferLen => exact hpacket trivial
  | clean => exact absurd rfl hc
  | add count ip port timeout =>
      rcases hadd : addTcpSession m count ip port timeout with ⟨r, m'⟩
      have hper : perform m (.add count ip port timeout) = m' := by
        rw [perform, hadd]
      clear hpacket
      revert h'
      rw [hper]
      intro h'
      cases addTcpSession_outcome hadd with
      | found s hs => exact h.grows_of_same h' (fun s => Iff.rfl) fun s _ => SameIdentity.refl _
      | exhausted n hs hq =>
          exact h.grows_of_same h' (fun s => Iff.rfl) fun s _ => SameIdentity.refl _
      | created q n hs hq =>
          have hnew := created_heap_brk m ip port q timeout n
          apply h.grows_of_created h' hs (searchPort_some hq).1
          · exact created_inIndex_iff m ip port q timeout n .client
          · intro s hs
            rw [created_heap_of_ne _ _ _ _ _ _ (h.indexes.clientAllocated s hs).ne]
            exact SameIdentity.refl _
          · rw [clientKey, hnew]
            rfl
          · rw [serverKey, hnew]
            rfl

/-- Cleaning removes pairs only. -/
theorem translation_clean_le (h : NatInvariant pool m)
    (h' : NatInvariant pool (cleanExpiredSession m)) : h'.translation ≤ h.translation := by
  rw [PEquiv.le_def]
  intro k q hkq
  obtain ⟨s, ⟨i, hi⟩, hkey, hport⟩ := (h'.translation_eq_some_iff k q).1 hkq
  rw [cleanExpiredSession_heap] at hkey hport
  exact (h.translation_eq_some_iff k q).2
    ⟨s, ⟨i, (cleanExpiredSession_lists_sublist m .client i).subset hi⟩, hkey, hport⟩

/-- As long as the table is not cleaned, a bound address keeps its port. -/
theorem translation_le_of_run (h : NatInvariant pool m) {calls : List Call}
    (hcalls : ∀ c ∈ calls, c ≠ .clean) (h' : NatInvariant pool (exec perform m calls)) :
    h.translation ≤ h'.translation := by
  induction calls generalizing m with
  | nil => exact le_refl _
  | cons c calls ih =>
      have hc := hcalls c List.mem_cons_self
      have hstep : NatInvariant pool (perform m c) := h.perform c fun e => absurd e hc
      exact (translation_grows h hc hstep).le.trans
        (ih hstep (fun c' hc' => hcalls c' (List.mem_cons_of_mem _ hc')) h')

theorem NatInvariant.inRange (h : NatInvariant pool m) {k : ClientKey} {q : UInt16}
    (hkq : h.translation k = some q) : InRange pool q := by
  obtain ⟨s, hs, -, hport⟩ := (h.translation_eq_some_iff k q).1 hkq
  obtain ⟨hmin, hmax⟩ := h.ports s ((h.agree s).1 hs)
  rw [InRange, UInt16.le_iff_toNat_le, UInt16.le_iff_toNat_le, ← hport]
  exact ⟨hmin, hmax⟩

/-- A pair that a packet adds to the translation was asked for by a `SYN` of its client. -/
theorem NatInvariant.pair_of_perform (h : NatInvariant pool m) {c : Call} (hc : c.IsPacket)
    (h' : NatInvariant pool (BenkerVpn.perform m c)) {k : ClientKey} {q : UInt16}
    (hkq : h'.translation k = some q) :
    h.translation k = some q ∨ ∃ seg, c.segment = some (.client, seg) ∧ seg.syn = true ∧
      (seg.saddr, seg.source) = k := by
  obtain ⟨s, hs, hkey, hport⟩ := (h'.translation_eq_some_iff k q).1 hkq
  rcases (perform_inIndex_iff hc .client s).1 hs with hold | ⟨rfl, hbrk⟩
  · -- a session that was stored before
    have hid := (perform_sameIdentity hc (h.indexes.clientAllocated s hold)).keys
    rw [hid.1] at hkey
    rw [hid.2] at hport
    exact Or.inl ((h.translation_eq_some_iff k q).2 ⟨s, hold, hkey, hport⟩)
  · obtain ⟨seg, q', hseg, hsyn, -, -, hip, hsource, -⟩ := perform_created_identity hc hbrk
    exact Or.inr ⟨seg, hseg, hsyn, (Prod.ext hip hsource).symm.trans hkey⟩

/-- A packet from the world adds no pair. -/
theorem NatInvariant.translation_world (h : NatInvariant pool m)
    {b : Buffer} {bufferLen : Int}
    (h' : NatInvariant pool (BenkerVpn.perform m (.world b bufferLen))) :
    h'.translation = h.translation := by
  apply le_antisymm
  · rw [PEquiv.le_def]
    intro k q hkq
    have hpkt : (Call.world b bufferLen).IsPacket := trivial
    rcases h.pair_of_perform hpkt h' hkq with hold | ⟨seg, hseg, -⟩
    · exact hold
    · obtain ⟨seg', -, hpair⟩ := Option.map_eq_some_iff.1 hseg
      cases hpair
  · exact (translation_grows h (by rintro ⟨⟩) h').le

end Calls

/-! ## Packets -/

section Packets

variable {pool : PortPool} {m : Machine} {b : Buffer} {bufferLen : Int} {seg : Segment}

/-- An accepted client packet gets the port that its source is translated to. -/
theorem client_translated (h : NatInvariant pool m) {count : Int} {ip : UInt32}
    (hseg : segmentOf b bufferLen = some seg)
    (hret : (handleClientPacket m count b bufferLen ip).ret = .validSession)
    (h' : NatInvariant pool (perform m (.client count b bufferLen ip))) :
    ∃ q, h'.translation (seg.saddr, seg.source) = some q ∧
      (handleClientPacket m count b bufferLen ip).buffer = replaceSrcIpPort b ip q := by
  have hpkt : (Call.client count b bufferLen ip).IsPacket := trivial
  have hsegment := Call.segment_client count ip hseg
  obtain ⟨s, hses⟩ := Option.isSome_iff_exists.1 ((handleClientPacket_ret_iff _ _ _ _ _).1 hret)
  refine ⟨((perform m (.client count b bufferLen ip)).heap s).serverPort, ?_, ?_⟩
  · rw [h'.translation_eq_some_iff]
    rcases session_cases hpkt hses with
      ⟨sender, seg', hseg', hlook, -, -⟩ | ⟨seg', q, n, hseg', -, hnone, -, -, rfl, hper⟩
    · -- the session was stored before and keeps its key
      obtain ⟨rfl, rfl⟩ := Call.segment_unique hsegment hseg'
      obtain ⟨hin, hsaddr, hsource⟩ := (h.indexes.lookupSession_eq_some_iff .client seg s).1 hlook
      obtain ⟨hip, hport, -, -⟩ := perform_sameIdentity hpkt (h.indexes.lt_brk hin)
      refine ⟨s, (perform_inIndex_iff hpkt .client s).2 (Or.inl hin), ?_, rfl⟩
      exact Prod.ext (hip.trans hsaddr.symm) (hport.trans hsource.symm)
    · -- the session is new
      obtain ⟨-, rfl⟩ := Call.segment_unique hsegment hseg'
      have hbrk : m.brk < (perform m (.client count b bufferLen ip)).brk := by
        rw [hper]
        exact Nat.lt_succ_self _
      obtain ⟨seg', q', hseg', -, -, -, hip, hport, -, -⟩ := perform_created_identity hpkt hbrk
      obtain ⟨-, rfl⟩ := Call.segment_unique hsegment hseg'
      exact ⟨m.brk, (perform_inIndex_iff hpkt .client m.brk).2 (Or.inr ⟨rfl, hbrk⟩),
        Prod.ext hip hport, rfl⟩
  · rw [handleClientPacket_of_session hses]

/-- An accepted world packet goes to the address that is translated to its destination port. -/
theorem world_translated (h : NatInvariant pool m) (hseg : segmentOf b bufferLen = some seg)
    (hret : (handleWorldPacket m b bufferLen).ret = .validSession) :
    ∃ k, h.translation.symm seg.dest = some k ∧
      (handleWorldPacket m b bufferLen).buffer = replaceDstIpPort b k.1 k.2 := by
  have hpkt : (Call.world b bufferLen).IsPacket := trivial
  have hsegment := Call.segment_world hseg
  obtain ⟨s, hses⟩ := Option.isSome_iff_exists.1 ((handleWorldPacket_ret_iff _ _ _).1 hret)
  rcases session_cases hpkt hses with
    ⟨sender, seg', hseg', hlook, -, -⟩ | ⟨seg', q, n, hseg', -⟩
  · obtain ⟨rfl, rfl⟩ := Call.segment_unique hsegment hseg'
    obtain ⟨hin, hdest⟩ := (h.indexes.lookupSession_eq_some_iff .world seg s).1 hlook
    obtain ⟨hip, hport, -, -⟩ := perform_sameIdentity hpkt (h.indexes.lt_brk hin)
    refine ⟨clientKey m.heap s, ?_, ?_⟩
    · rw [PEquiv.eq_some_iff, h.translation_eq_some_iff]
      exact ⟨s, (h.agree s).2 hin, rfl, hdest.symm⟩
    · rw [handleWorldPacket_of_session hses, hip, hport]
      rfl
  · rw [hsegment] at hseg'
    cases hseg'

end Packets

end BenkerVpn

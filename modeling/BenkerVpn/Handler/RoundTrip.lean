import BenkerVpn.Handler.Step
import BenkerVpn.Packet.Rewriting

/-!
# The translation round trip

A session is live as long as the clock has not passed its expire time. Under a clock that never goes
back, the two indexes agree on the live sessions although each cleaning call judges a session twice
(`LiveNat`), no call removes a live session (`Reserved`), and the last accepted client packet mapped
to the port of a live session carried the key of that session (`LastMapped`). Together they give the
round trip of the address translation over any interleaving (`translation_roundTrip`).
-/

set_option autoImplicit false

namespace BenkerVpn

open Library.Buckets Library.Runs

/-! ## Live sessions -/

/-- The next reading of the clock does not find the session expired. -/
def Live (m : Machine) (s : SessionPtr) : Prop := m.clock 0 ≤ (m.heap s).expire

/-- A session that is live later was live before. -/
theorem Later.live {m m' : Machine} (h : Later m m') (hm : Monotone m.clock) {s : SessionPtr}
    (hexpire : (m'.heap s).expire = (m.heap s).expire) (hs : Live m' s) : Live m s := by
  obtain ⟨n, hn⟩ := h
  rw [Live, hexpire, hn] at hs
  exact le_trans (hm (Nat.zero_le _)) hs

/-- Cleaning keeps the live sessions in both indexes. -/
theorem clean_inSide_iff_of_live {m : Machine} (h : Housed m) (hm : Monotone m.clock)
    {s : SessionPtr} (hs : Live (cleanExpiredSession m) s) (side : Side) :
    InSide (cleanExpiredSession m) side s ↔ InSide m side s := by
  constructor
  · exact inSide_of_clean side
  · intro hin
    obtain ⟨k, hk⟩ := exists_judgedAt h side hin
    apply (inSide_clean_iff_of_judgedAt h hk).2
    -- the judgement happens before the next reading after the call
    rw [Live, cleanExpiredSession_heap, cleanExpiredSession_clock] at hs
    exact le_trans (hm (by have := hk.lt; omega)) hs

/-- Both bucket arrays are indexes, and they agree on the live sessions. -/
structure LiveNat (m : Machine) : Prop where
  indexes : Indexes m
  len_pos : 0 < m.table.len
  monotone : Monotone m.clock
  agree : ∀ s, Live m s → (InClient m s ↔ InServer m s)

theorem Fresh.liveNat {pool : PortPool} {m : Machine} (h : Fresh pool m)
    (hm : Monotone m.clock) : LiveNat m :=
  ⟨h.indexes, h.configured.len_pos, hm,
    fun s _ => iff_of_false (h.not_inClient s) (h.not_inServer s)⟩

namespace LiveNat

variable {m : Machine}

theorem tick (h : LiveNat m) (n : Nat) : LiveNat (m.tick n) :=
  ⟨h.indexes.tick n, h.len_pos, (later_tick m n).monotone h.monotone,
    fun s hs => h.agree s ((later_tick m n).live h.monotone rfl hs)⟩

theorem createSession (h : LiveNat m) {ip : UInt32} {port q : UInt16} {timeout : Int}
    (hs : getTcpSessionByClient m ip port = none) (hq : getTcpSessionByServer m q = none) :
    LiveNat (createSession m ip port q timeout) := by
  have hlater := later_createSession m ip port q timeout
  refine ⟨h.indexes.createSession ip port q timeout hs hq, h.len_pos,
    hlater.monotone h.monotone, ?_⟩
  intro s hlive
  rw [createSession_inClient_iff, createSession_inServer_iff]
  by_cases hnew : s = m.brk
  · exact iff_of_true (Or.inr hnew) (Or.inr hnew)
  · have hheap := createSession_heap_of_ne ip port q timeout hnew
    rw [h.agree s (hlater.live h.monotone (by rw [hheap]) hlive)]

theorem store (h : LiveNat m) {s : SessionPtr} {v : TcpSession}
    (hv : SameIdentity v (m.heap s)) : LiveNat (m.store s v) := by
  refine ⟨h.indexes.store hv, h.len_pos, h.monotone, ?_⟩
  intro p hp
  rw [Live, (store_sameIdentity hv p).2.2.2] at hp
  exact h.agree p hp

theorem clean (h : LiveNat m) : LiveNat (cleanExpiredSession m) := by
  have hlater := later_clean m
  have hhoused := h.indexes.housed h.len_pos
  refine ⟨h.indexes.clean, by simpa using h.len_pos, hlater.monotone h.monotone, ?_⟩
  intro s hs
  have hlive := hlater.live h.monotone (by rw [cleanExpiredSession_heap]) hs
  exact (clean_inSide_iff_of_live hhoused h.monotone hs .client).trans
    ((h.agree s hlive).trans (clean_inSide_iff_of_live hhoused h.monotone hs .server).symm)

/-- Every call keeps the agreement on the live sessions; a cleaning call may see any number of
clock values. -/
theorem perform (h : LiveNat m) (c : Call) : LiveNat (perform m c) :=
  perform_preserves c (fun _ n h => h.tick n)
    (fun _ n h => ⟨h.indexes.setNextNum n, h.len_pos, h.monotone, h.agree⟩)
    (fun _ _ _ _ _ h hs hq _ => h.createSession hs hq) (fun _ _ _ h hv => h.store hv)
    (fun _ h => h.clean) h

end LiveNat

/-! ## The port of a live session stays reserved -/

/-- The session keeps its identity, and its place in both indexes as long as it is live. -/
structure Reserved (v : TcpSession) (s : SessionPtr) (m : Machine) : Prop where
  allocated : s < m.brk
  identity : SameIdentity (m.heap s) v
  stored : Live m s → InClient m s ∧ InServer m s

theorem Reserved.perform {v : TcpSession} {s : SessionPtr} {m : Machine} (hs : Reserved v s m)
    (h : LiveNat m) (c : Call) : Reserved v s (perform m c) := by
  suffices hboth : LiveNat (BenkerVpn.perform m c) ∧ Reserved v s (BenkerVpn.perform m c) from
    hboth.2
  refine perform_preserves (P := fun m => LiveNat m ∧ Reserved v s m) c ?_ ?_ ?_ ?_ ?_ ⟨h, hs⟩
  · rintro m n ⟨h, hs⟩
    exact ⟨h.tick n, hs.allocated, hs.identity,
      fun hlive => hs.stored ((later_tick m n).live h.monotone rfl hlive)⟩
  · rintro m n ⟨h, hs⟩
    exact ⟨⟨h.indexes.setNextNum n, h.len_pos, h.monotone, h.agree⟩, hs.allocated, hs.identity,
      hs.stored⟩
  · -- a new session is another object
    rintro m ip port q timeout ⟨h, hs⟩ hkey hport -
    have hheap := createSession_heap_of_ne ip port q timeout hs.allocated.ne
    refine ⟨h.createSession hkey hport, Nat.lt_succ_of_lt hs.allocated, ?_, ?_⟩
    · rw [hheap]
      exact hs.identity
    · intro hlive
      have hlive' := (later_createSession m ip port q timeout).live h.monotone (by rw [hheap]) hlive
      rw [createSession_inClient_iff, createSession_inServer_iff]
      exact ⟨Or.inl (hs.stored hlive').1, Or.inl (hs.stored hlive').2⟩
  · -- a write keeps the identity, the expire time included
    rintro m p w ⟨h, hs⟩ hw
    have hsame := store_sameIdentity hw s
    refine ⟨h.store hw, hs.allocated, hsame.trans hs.identity, ?_⟩
    intro hlive
    rw [Live, hsame.2.2.2] at hlive
    exact hs.stored hlive
  · -- cleaning keeps what is still live afterwards
    rintro - ⟨h, hs⟩
    have hhoused := h.indexes.housed h.len_pos
    refine ⟨h.clean, ?_, ?_, ?_⟩
    · rw [cleanExpiredSession_brk]
      exact hs.allocated
    · rw [cleanExpiredSession_heap]
      exact hs.identity
    · intro hlive
      have hin := hs.stored
        ((later_clean m).live h.monotone (by rw [cleanExpiredSession_heap]) hlive)
      exact ⟨(clean_inSide_iff_of_live hhoused h.monotone hlive .client).2 hin.1,
        (clean_inSide_iff_of_live hhoused h.monotone hlive .server).2 hin.2⟩

/-! ## Which client a port is mapped to -/

/-- A call of the two handlers or of `clean_expired_session`. -/
def Call.NotAdd (c : Call) : Prop := c.IsPacket ∨ c = .clean

/-- The client key of an accepted client packet and the server port it is mapped to, which is the
port passed to `replace_src_ip_port`. -/
def Call.mapping (m : Machine) (c : Call) : Option ((UInt32 × UInt16) × UInt16) :=
  match c.segment, c.session m with
  | some (.client, seg), some session =>
      some ((seg.saddr, seg.source), ((perform m c).heap session).serverPort)
  | _, _ => none

theorem Call.mapping_eq_some_iff (m : Machine) (c : Call) (key : UInt32 × UInt16) (q : UInt16) :
    c.mapping m = some (key, q) ↔
      ∃ seg s, c.segment = some (.client, seg) ∧ c.session m = some s ∧
        (seg.saddr, seg.source) = key ∧ ((perform m c).heap s).serverPort = q := by
  rw [Call.mapping]
  rcases hseg : c.segment with _ | ⟨_ | _, seg⟩
  · simp
  · rcases hses : c.session m with _ | s
    · simp
    · simp
  · simp

/-- The session of a mapped client packet is stored with its key and its port. -/
theorem LiveNat.mapping_session {m : Machine} (h : LiveNat m) {c : Call}
    {key : UInt32 × UInt16} {q : UInt16} (hmap : c.mapping m = some (key, q)) :
    ∃ s, c.session m = some s ∧ InServer (BenkerVpn.perform m c) s ∧
      clientKey (BenkerVpn.perform m c).heap s = key ∧
      serverKey (BenkerVpn.perform m c).heap s = q := by
  obtain ⟨seg, s, hseg, hses, rfl, rfl⟩ := (Call.mapping_eq_some_iff _ _ _ _).1 hmap
  refine ⟨s, hses, ?_, ?_, rfl⟩
  all_goals
    have hc := Call.isPacket_of_segment hseg
    by_cases hnew : InClient m s
  · -- an old session: it is live, so it stands in the server index too
    obtain ⟨sender, seg', hseg', hlook, hexp, -⟩ :=
      perform_heap_of_accepted hc (h.indexes.clientAllocated s hnew) hses
    exact (perform_inIndex_iff hc .world s).2 (Or.inl ((h.agree s hexp).1 hnew))
  · exact (Opens.stored ⟨⟨seg, hseg⟩, hses, hnew⟩ h.indexes).1.inServer
  · -- an old session was looked up under the key
    have hlt := h.indexes.clientAllocated s hnew
    obtain ⟨sender, seg', hseg', hlook, -, -⟩ := perform_heap_of_accepted hc hlt hses
    obtain ⟨rfl, rfl⟩ := Call.segment_unique hseg hseg'
    obtain ⟨hip, hport, -, -⟩ := perform_sameIdentity hc hlt
    obtain ⟨hip', hport'⟩ := ((h.indexes.lookupSession_eq_some_iff _ _ _).1 hlook).2
    rw [clientKey, hip, hport, hip', hport']
  · -- a new one was created with it
    obtain ⟨seg', q, n, hseg', -, -, -, -, rfl, hper⟩ :=
      Opens.created ⟨⟨seg, hseg⟩, hses, hnew⟩ h.indexes
    obtain ⟨-, rfl⟩ := Call.segment_unique hseg hseg'
    obtain ⟨hip, hport, -, -⟩ :=
      clientFlags_sameIdentity (newSession seg.saddr seg.source q (m.clock 0 + 10)) seg
    rw [hper, clientKey, Machine.store_heap_self, hip, hport]
    rfl

/-- In the run, the last accepted client packet that was mapped to the port had the key. -/
def LastMapped (m₀ : Machine) (calls : List Call) (q : UInt16) (key : UInt32 × UInt16) : Prop :=
  ∃ before c after, calls = before ++ c :: after ∧
    c.mapping (exec perform m₀ before) = some (key, q) ∧
    Permitted perform (fun m c' => ∀ key', c'.mapping m ≠ some (key', q))
      (exec perform m₀ (before ++ [c])) after

theorem LastMapped.snoc {m₀ : Machine} {calls : List Call} {q : UInt16} {key : UInt32 × UInt16}
    (h : LastMapped m₀ calls q key) {c : Call}
    (hc : ∀ key', c.mapping (exec perform m₀ calls) ≠ some (key', q)) :
    LastMapped m₀ (calls ++ [c]) q key := by
  obtain ⟨before, c', after, rfl, hmap, hafter⟩ := h
  refine ⟨before, c', after ++ [c], by simp, hmap, ?_⟩
  rw [permitted_append]
  refine ⟨hafter, ?_, trivial⟩
  simpa using hc

theorem lastMapped_snoc_self {m₀ : Machine} {calls : List Call} {q : UInt16}
    {key : UInt32 × UInt16} {c : Call} (hc : c.mapping (exec perform m₀ calls) = some (key, q)) :
    LastMapped m₀ (calls ++ [c]) q key :=
  ⟨calls, c, [], rfl, hc, trivial⟩

/-- Every live session is the one its port was last mapped to. -/
structure MappedHistory (m₀ : Machine) (done : List Call) (m : Machine) : Prop where
  reached : m = exec perform m₀ done
  liveNat : LiveNat m
  last : ∀ s, InServer m s → Live m s →
    LastMapped m₀ done (serverKey m.heap s) (clientKey m.heap s)

/-- A session that a packet leaves live and stored was stored before, or the packet was mapped to
it. -/
theorem LiveNat.stored_or_mapped {m : Machine} (h : LiveNat m) {c : Call} (hc : c.IsPacket)
    {s : SessionPtr} (hin : InServer (BenkerVpn.perform m c) s)
    (hlive : Live (BenkerVpn.perform m c) s) :
    InServer m s ∨ ∃ key, c.mapping m = some (key, serverKey (BenkerVpn.perform m c).heap s) := by
  rcases (perform_inIndex_iff hc .world s).1 hin with hold | ⟨rfl, hbrk⟩
  · exact Or.inl hold
  · refine Or.inr ?_
    obtain ⟨seg, q, n, hseg, -, -, -, ⟨hexp, -, hper⟩ | ⟨-, hses, -⟩⟩ := perform_created hc hbrk
    · -- the new session is past its expire time already
      rw [hper, Live, Machine.tick_heap, created_heap_brk] at hlive
      have hlate : m.clock 2 ≤ m.clock 0 + 10 := hlive
      have hmono : m.clock 1 ≤ m.clock 2 := h.monotone (by omega)
      omega
    · exact ⟨_, (Call.mapping_eq_some_iff _ _ _ _).2 ⟨seg, m.brk, hseg, hses, rfl, rfl⟩⟩

theorem MappedHistory.step {m₀ : Machine} {done : List Call} {m : Machine}
    (h : MappedHistory m₀ done m) {c : Call} (hc : c.NotAdd) :
    MappedHistory m₀ (done ++ [c]) (perform m c) := by
  have hnat := h.liveNat
  refine ⟨by rw [h.reached, exec_append]; rfl, hnat.perform c, ?_⟩
  intro s hin hlive
  rcases hc with hc | rfl
  · by_cases hmap : ∃ key, c.mapping m = some (key, serverKey (perform m c).heap s)
    · -- the packet is mapped to the port of `s`, so it was mapped to `s` itself
      obtain ⟨key, hmap⟩ := hmap
      obtain ⟨s', -, hin', rfl, hport⟩ := hnat.mapping_session hmap
      obtain rfl : s' = s := (hnat.perform c).indexes.server.key_injective hin' hin hport
      rw [h.reached] at hmap ⊢
      exact lastMapped_snoc_self hmap
    · -- the packet is mapped elsewhere or nowhere, so the last mapping stays the last one
      have hold : InServer m s := (hnat.stored_or_mapped hc hin hlive).resolve_right hmap
      obtain ⟨hip, hport, hserver, hexpire⟩ :=
        perform_sameIdentity hc (hnat.indexes.serverAllocated s hold)
      have hlast := h.last s hold ((perform_later m c).live hnat.monotone hexpire hlive)
      rw [clientKey, serverKey] at hlast ⊢
      rw [serverKey, hserver] at hmap
      rw [hip, hport, hserver]
      apply hlast.snoc
      rw [← h.reached]
      exact fun key' hkey' => hmap ⟨key', hkey'⟩
  · -- cleaning maps nothing
    have hold : InServer m s := inSide_of_clean .server hin
    have hheap : (perform m .clean).heap = m.heap := cleanExpiredSession_heap m
    have hlast := h.last s hold
      ((later_clean m).live hnat.monotone (by rw [cleanExpiredSession_heap]) hlive)
    rw [hheap]
    refine hlast.snoc fun key' hkey' => ?_
    cases hkey'

/-! ## The round trip -/

/-- The packet is accepted, the address is named to the caller, and the packet leaves with the
address and the port as its destination. -/
structure DeliversTo (r : Handled) (ip : UInt32) (port : UInt16) : Prop where
  ret : r.ret = .validSession
  clientIp : r.clientIp = some ip
  daddr : daddr r.buffer = ip
  dest : dest r.buffer (ihl r.buffer * 4) = port

/-- A packet to the port of a stored, unexpired session is delivered to its client. -/
theorem Stored.deliversTo {v : TcpSession} {s : SessionPtr} {m : Machine} (hs : Stored v s m)
    (h : Indexes m) {b : Buffer} {bufferLen : Int} {seg : Segment}
    (hseg : segmentOf b bufferLen = some seg) (hihl : 5 ≤ ihl b) (hdest : seg.dest = v.serverPort)
    (hlive : m.clock 0 ≤ v.expire) :
    DeliversTo (handleWorldPacket m b bufferLen) v.clientIp v.clientPort := by
  have hown : (Call.world b bufferLen).ownSegment v = some (.world, seg) := by
    rw [Call.ownSegment_eq_some_iff, Call.segment, hseg]
    exact ⟨rfl, hdest⟩
  have hses := hs.session_eq h hown
  rw [if_pos hlive] at hses
  obtain ⟨hip, hport, -, -⟩ := (hs.perform h (c := .world b bufferLen) trivial).identity
  rw [handleWorldPacket_of_session hses, hip, hport]
  exact ⟨rfl, rfl, daddr_replaceDstIpPort b hihl _ _, dest_replaceDstIpPort b _ _⟩

/-- The session a client packet is mapped to keeps its port as long as it is live. -/
theorem LiveNat.reserved_of_mapping {m : Machine} (h : LiveNat m) {c : Call} {s : SessionPtr}
    (hses : c.session m = some s) {key : UInt32 × UInt16} {q : UInt16}
    (hmap : c.mapping m = some (key, q)) :
    ∃ v, Reserved v s (BenkerVpn.perform m c) ∧ (v.clientIp, v.clientPort) = key ∧
      v.serverPort = q := by
  obtain ⟨s', hses', hin, hkey, hport⟩ := h.mapping_session hmap
  obtain rfl : s = s' := Option.some.inj (hses.symm.trans hses')
  have hnat := h.perform c
  refine ⟨(BenkerVpn.perform m c).heap s, ⟨?_, SameIdentity.refl _, ?_⟩, hkey, hport⟩
  · exact hnat.indexes.serverAllocated s hin
  · exact fun hlive => ⟨(hnat.agree s hlive).2 hin, hin⟩

theorem liveNat_of_run {pool : PortPool} {m₀ : Machine} (hfresh : Fresh pool m₀)
    (hclock : Monotone m₀.clock) (calls : List Call) : LiveNat (exec perform m₀ calls) :=
  invariant_of_mem LiveNat (fun _ c _ h => h.perform c) (hfresh.liveNat hclock)

theorem mappedHistory_of_run {pool : PortPool} {m₀ : Machine} (hfresh : Fresh pool m₀)
    (hclock : Monotone m₀.clock) {calls : List Call} (hcalls : ∀ c ∈ calls, c.NotAdd) :
    MappedHistory m₀ calls (exec perform m₀ calls) := by
  apply history_of_mem (MappedHistory m₀)
  · exact fun done m c hc h => h.step (hcalls c hc)
  · exact ⟨rfl, hfresh.liveNat hclock, fun s hs => absurd hs (hfresh.not_inServer s)⟩

section RoundTrip

variable {pool : PortPool} {m₀ : Machine} (hfresh : Fresh pool m₀) (hclock : Monotone m₀.clock)
include hfresh hclock

/-- A packet to the port that a client packet was mapped to is delivered to the client of that
packet, however many calls lie between, if its session is still live. -/
theorem deliversTo_of_mapping {before between : List Call} {c : Call} {s : SessionPtr}
    {ip : UInt32} {port q : UInt16} (hses : c.session (exec perform m₀ before) = some s)
    (hmap : c.mapping (exec perform m₀ before) = some ((ip, port), q))
    (hlive : Live (exec perform m₀ (before ++ c :: between)) s) {b : Buffer} {bufferLen : Int}
    {seg : Segment} (hseg : segmentOf b bufferLen = some seg) (hihl : 5 ≤ ihl b)
    (hdest : seg.dest = q) :
    DeliversTo (handleWorldPacket (exec perform m₀ (before ++ c :: between)) b bufferLen) ip
      port := by
  obtain ⟨v, hreserved, hkey, hport⟩ :=
    (liveNat_of_run hfresh hclock before).reserved_of_mapping hses hmap
  obtain ⟨rfl, rfl⟩ := Prod.mk.inj hkey
  -- between the two packets the session stays where it is as long as it is live
  have hrun : LiveNat (exec perform m₀ (before ++ c :: between)) ∧
      Reserved v s (exec perform m₀ (before ++ c :: between)) := by
    rw [exec_append, exec_cons]
    apply invariant_of_mem fun m => LiveNat m ∧ Reserved v s m
    · exact fun m' c' _ h => ⟨h.1.perform c', h.2.perform h.1 c'⟩
    · exact ⟨(liveNat_of_run hfresh hclock before).perform c, hreserved⟩
  obtain ⟨hnat, hreserved'⟩ := hrun
  have hstored := hreserved'.stored hlive
  apply Stored.deliversTo ⟨hstored.1, hstored.2, hreserved'.identity⟩ hnat.indexes hseg hihl
    (hdest.trans hport.symm)
  rw [← hreserved'.identity.2.2.2]
  exact hlive

/-- A packet that is accepted leaves for the client whose packet was the last one mapped to its
port. -/
theorem lastMapped_of_accepted {calls : List Call} (hcalls : ∀ c ∈ calls, c.NotAdd) {b : Buffer}
    {bufferLen : Int} {seg : Segment} (hseg : segmentOf b bufferLen = some seg) (hihl : 5 ≤ ihl b)
    (hret : (handleWorldPacket (exec perform m₀ calls) b bufferLen).ret = .validSession) :
    let r := handleWorldPacket (exec perform m₀ calls) b bufferLen
    LastMapped m₀ calls seg.dest (daddr r.buffer, dest r.buffer (ihl r.buffer * 4)) := by
  intro r
  have hnat := liveNat_of_run hfresh hclock calls
  obtain ⟨s, hses⟩ :=
    Option.isSome_iff_exists.1 ((handleWorldPacket_ret_iff _ b bufferLen).1 hret)
  have hsegment := Call.segment_world hseg
  rcases session_cases (c := .world b bufferLen) trivial hses with
    ⟨sender, seg', hseg', hlook, hlive, hper⟩ | ⟨seg', q, n, hseg', -⟩
  · -- it was accepted for a live session, which is the one the port was last mapped to
    obtain ⟨rfl, rfl⟩ := Call.segment_unique hsegment hseg'
    obtain ⟨hin, hdest⟩ := (hnat.indexes.lookupSession_eq_some_iff _ _ _).1 hlook
    have hlast := (mappedHistory_of_run hfresh hclock hcalls).last s hin hlive
    have hbuffer : r.buffer = replaceDstIpPort b ((exec perform m₀ calls).heap s).clientIp
        ((exec perform m₀ calls).heap s).clientPort := by
      obtain ⟨hip, hport, -, -⟩ := worldFlags_sameIdentity ((exec perform m₀ calls).heap s) seg
      show (handleWorldPacket (exec perform m₀ calls) b bufferLen).buffer = _
      rw [handleWorldPacket_of_session hses]
      dsimp only
      rw [hper, Machine.store_heap_self, flags, hip, hport]
    rw [hbuffer, daddr_replaceDstIpPort b hihl, dest_replaceDstIpPort b]
    rw [show seg.dest = serverKey (exec perform m₀ calls).heap s from hdest]
    exact hlast
  · -- a packet from the world creates no session
    rw [hsegment] at hseg'
    cases hseg'

end RoundTrip

/-- The translation round trip. After any run of the two handlers and of cleaning calls, take a
world packet that passes validation and has a full IP header. If it goes to the port some accepted
client packet was mapped to, and the session of that packet has not passed its expire time, then it
is delivered to the client that packet came from. If it is accepted and leaves for some client, then
the last accepted client packet that was mapped to its port came from that client. -/
theorem translation_roundTrip {pool : PortPool} {m₀ : Machine} (hfresh : Fresh pool m₀)
    (hclock : Monotone m₀.clock) {calls : List Call} (hcalls : ∀ c ∈ calls, c.NotAdd)
    {b : Buffer} {bufferLen : Int} {seg : Segment} (hseg : segmentOf b bufferLen = some seg)
    (hihl : 5 ≤ ihl b) :
    let m := exec perform m₀ calls
    let r := handleWorldPacket m b bufferLen
    (∀ before c between s ip port, calls = before ++ c :: between →
      c.session (exec perform m₀ before) = some s →
      c.mapping (exec perform m₀ before) = some ((ip, port), seg.dest) →
      m.clock 0 ≤ (m.heap s).expire → DeliversTo r ip port) ∧
    (∀ ip port, r.ret = .validSession → daddr r.buffer = ip →
      dest r.buffer (ihl r.buffer * 4) = port → LastMapped m₀ calls seg.dest (ip, port)) := by
  intro m r
  constructor
  · rintro before c between s ip port rfl hses hmap hlive
    exact deliversTo_of_mapping hfresh hclock hses hmap hlive hseg hihl rfl
  · rintro ip port hret rfl rfl
    exact lastMapped_of_accepted hfresh hclock hcalls hseg hihl hret

/-- A client opens a session, the table is cleaned, and the answer reaches the client. -/
theorem translation_syn_clean_answer :
    let m := exec perform (freshMachine smallPool fun k => k) [clientCall sampleSyn, .clean]
    DeliversTo (handleWorldPacket m (packetOf sampleSynAck) 9000) 167772161 5000 ∧
      LastMapped (freshMachine smallPool fun k => k) [clientCall sampleSyn, .clean] 40000
        (167772161, 5000) := by
  intro m
  have hclock : Monotone (freshMachine smallPool fun k => k).clock := fun a b hab => by
    show (a : Int) ≤ b
    omega
  have hcalls : ∀ c ∈ [clientCall sampleSyn, .clean], c.NotAdd := by
    intro c hc
    simp only [List.mem_cons, List.not_mem_nil, or_false] at hc
    rcases hc with rfl | rfl
    · exact Or.inl trivial
    · exact Or.inr rfl
  have hseg : segmentOf (packetOf sampleSynAck) 9000 = some sampleSynAck := by decide +kernel
  obtain ⟨hdelivers, hlast⟩ := translation_roundTrip (freshMachine_fresh smallPool _) hclock
    hcalls hseg (by decide +kernel)
  have h := hdelivers [] (clientCall sampleSyn) [.clean] 0 167772161 5000 rfl (by decide +kernel)
    (by decide +kernel) (by decide +kernel)
  exact ⟨h, hlast _ _ h.ret h.daddr h.dest⟩

end BenkerVpn

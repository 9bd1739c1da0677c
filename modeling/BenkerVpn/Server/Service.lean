import BenkerVpn.Server.Reply

/-!
# How long the server serves a client

A session expires ten seconds after its creation, no packet prolongs it, and the loop of the server
never removes it. So if the clock never goes back, over its whole life the server accepts packets of
at most as many client keys as it has ports, and all packets it accepts for one key come within ten
seconds (`service_bounded`). `acceptances` logs what a run accepts, `Witnessed` ties the log to the
sessions of the table.
-/

set_option autoImplicit false

namespace BenkerVpn

open Library.Runs

/-! ## What a run accepts -/

/-- The call of a handler that a half makes, if it has read something. -/
def Event.call (s : VpnServer) : Event → Option Call
  | .client input =>
      match input.recv with
      | .datagram _ payload =>
          if (payload.take s.bufLen).length = 0 then none
          else some (.client input.count (received s.buf s.bufLen payload) s.bufLen s.localIp)
      | _ => none
  | .world input =>
      if 0 < (rawRead s input).1 then some (.world (rawRead s input).2 s.bufLen) else none

/-- The client key of the session that a half accepts a packet for, and the reading of the clock. -/
def Event.accepted (s : VpnServer) (e : Event) : Option (ClientKey × Int) :=
  (e.call s).bind fun c =>
    (c.session s.machine).map fun p => (clientKey (perform s.machine c).heap p, s.machine.clock 0)

/-- What the server accepts in a run. -/
def acceptances : Option VpnServer → List Event → List (ClientKey × Int)
  | some s, e :: events => (e.accepted s).toList ++ acceptances (serve (some s) e) events
  | _, _ => []

theorem acceptances_nil (st : Option VpnServer) : acceptances st [] = [] := by
  cases st with
  | none => rfl
  | some s => rfl

theorem acceptances_none (events : List Event) : acceptances none events = [] := by
  cases events with
  | nil => rfl
  | cons e events => rfl

theorem Event.isPacket_of_call {s : VpnServer} {e : Event} {c : Call} (h : e.call s = some c) :
    c.IsPacket := by
  cases e with
  | client input =>
      rw [Event.call] at h
      split at h
      · split at h
        · cases h
        · obtain rfl := Option.some.inj h
          trivial
      · cases h
  | world input =>
      rw [Event.call] at h
      split at h
      · obtain rfl := Option.some.inj h
        trivial
      · cases h

/-- A half performs its call, and the server may read the clock afterwards. -/
theorem serve_call {s s' : VpnServer} {e : Event} (h : serve (some s) e = some s') :
    match e.call s with
    | none => s'.machine = s.machine
    | some c => ∃ n, s'.machine = (perform s.machine c).tick n := by
  cases e with
  | client input =>
      have hhalf := serveClient_half s input
      rw [show (serveClient s input).1 = some s' from h] at hhalf
      generalize (serveClient s input).2 = sent at hhalf
      cases hhalf with
      | idle buf raddr hraddr hnone =>
          have hcall : Event.call s (.client input) = none := by
            rw [Event.call]
            split
            next src payload hrecv => rw [if_pos (by rw [hnone src payload hrecv]; rfl)]
            · rfl
          rw [hcall]
      | rejected src payload hrecv hpos hret =>
          rw [Event.call, hrecv]
          dsimp only
          rw [if_neg fun hzero => hpos (List.length_eq_zero_iff.1 hzero)]
          exact ⟨0, (Machine.tick_zero _).symm⟩
      | accepted src payload hrecv hpos hret =>
          rw [Event.call, hrecv]
          dsimp only
          rw [if_neg fun hzero => hpos (List.length_eq_zero_iff.1 hzero)]
          exact ⟨_, rfl⟩
  | world input =>
      have hhalf := serveWorld_half s input
      rw [show (serveWorld s input).1 = some s' from h] at hhalf
      generalize (serveWorld s input).2 = sent at hhalf
      cases hhalf with
      | idle buf hnone => rw [Event.call, if_neg (by omega)]
      | rejected frame htaken hread hpos hret =>
          rw [Event.call, if_pos hread]
          exact ⟨0, (Machine.tick_zero _).symm⟩
      | accepted frame htaken hread hpos hret =>
          rw [Event.call, if_pos hread]
          exact ⟨0, (Machine.tick_zero _).symm⟩

/-! ## Sessions as leases -/

/-- No stored session lasts longer than ten seconds from now. -/
structure Leased (pool : PortPool) (m : Machine) : Prop where
  nat : NatInvariant pool m
  monotone : Monotone m.clock
  lease : ∀ p, InClient m p → (m.heap p).expire ≤ m.clock 0 + 10

/-- Every entry of the log belongs to a stored session, which had not expired and did not last
longer than ten seconds from then. -/
def Witnessed (m : Machine) (log : List (ClientKey × Int)) : Prop :=
  ∀ x ∈ log, ∃ p, InClient m p ∧ clientKey m.heap p = x.1 ∧
    x.2 ≤ (m.heap p).expire ∧ (m.heap p).expire ≤ x.2 + 10

section Leased

variable {pool : PortPool} {m : Machine} {c : Call} {log : List (ClientKey × Int)}

theorem Leased.tick (h : Leased pool m) (n : Nat) : Leased pool (m.tick n) where
  nat := h.nat.tick n
  monotone := (later_tick m n).monotone h.monotone
  lease p hp := (h.lease p hp).trans (add_le_add_left (h.monotone (Nat.zero_le _)) 10)

/-- The clock after a packet has not gone back. -/
theorem Leased.clock_le (h : Leased pool m) (c : Call) : m.clock 0 ≤ (perform m c).clock 0 := by
  obtain ⟨n, hn⟩ := perform_later m c
  rw [hn]
  exact h.monotone (Nat.zero_le _)

/-- A packet creates a session for ten seconds, and prolongs none. -/
theorem Leased.perform (h : Leased pool m) (hc : c.IsPacket) : Leased pool (perform m c) where
  nat := h.nat.perform c (by rintro rfl; exact hc.elim)
  monotone := (perform_later m c).monotone h.monotone
  lease p hp := by
    have hclock := h.clock_le c
    rcases (perform_inIndex_iff hc .client p).1 hp with hold | ⟨rfl, hbrk⟩
    · rw [(perform_sameIdentity hc (h.nat.indexes.clientAllocated p hold)).2.2.2]
      exact (h.lease p hold).trans (by omega)
    · obtain ⟨seg, q, -, -, -, -, -, -, -, hexpire⟩ := perform_created_identity hc hbrk
      rw [hexpire]
      show m.clock 0 + 10 ≤ _
      omega

/-- The log stays true. -/
theorem Witnessed.perform (hlog : Witnessed m log) (h : Leased pool m) (hc : c.IsPacket) :
    Witnessed (perform m c) log := by
  intro x hx
  obtain ⟨p, hp, hkey, hle, hlease⟩ := hlog x hx
  have hid := perform_sameIdentity hc (h.nat.indexes.clientAllocated p hp)
  refine ⟨p, (perform_inIndex_iff hc .client p).2 (Or.inl hp), ?_, ?_, ?_⟩
  · rw [hid.keys.1, hkey]
  · rwa [hid.2.2.2]
  · rwa [hid.2.2.2]

/-- A packet that is accepted now is accepted for such a session. -/
theorem Leased.witnessed (h : Leased pool m) (hc : c.IsPacket) {p : SessionPtr}
    (hses : c.session m = some p) :
    Witnessed (BenkerVpn.perform m c)
      [(clientKey (BenkerVpn.perform m c).heap p, m.clock 0)] := by
  intro x hx
  obtain rfl := List.mem_singleton.1 hx
  rcases session_cases hc hses with
    ⟨sender, seg, hseg, hlook, htime, hper⟩ | ⟨seg, q, n, hseg, -, -, -, -, rfl, hper⟩
  · -- the session was stored before
    have hin : InClient m p := by
      have hidx := ((h.nat.indexes.lookupSession_eq_some_iff sender seg p).1 hlook).1
      cases sender with
      | client => exact hidx
      | world => exact (h.nat.agree p).2 hidx
    have hid := perform_sameIdentity hc (h.nat.indexes.clientAllocated p hin)
    refine ⟨p, (perform_inIndex_iff hc .client p).2 (Or.inl hin), rfl, ?_, ?_⟩
    · rwa [hid.2.2.2]
    · rw [hid.2.2.2]
      exact h.lease p hin
  · -- the session is new
    have hbrk : m.brk < (BenkerVpn.perform m c).brk := by
      rw [hper]
      exact Nat.lt_succ_self _
    obtain ⟨seg', q', -, -, -, -, -, -, -, hexpire⟩ := perform_created_identity hc hbrk
    have hexpire' : ((BenkerVpn.perform m c).heap m.brk).expire = m.clock 0 + 10 := hexpire
    refine ⟨m.brk, (perform_inIndex_iff hc .client m.brk).2 (Or.inr ⟨rfl, hbrk⟩), rfl, ?_, ?_⟩
    · rw [hexpire']
      omega
    · exact hexpire'.le

theorem Witnessed.append {log' : List (ClientKey × Int)} (h : Witnessed m log)
    (h' : Witnessed m log') : Witnessed m (log ++ log') := by
  intro x hx
  rcases List.mem_append.1 hx with hx | hx
  · exact h x hx
  · exact h' x hx

/-- Entries of one key lie within ten seconds, since the key has one session. -/
theorem Witnessed.within (hlog : Witnessed m log) (h : NatInvariant pool m) {k : ClientKey}
    {t t' : Int} (ht : (k, t) ∈ log) (ht' : (k, t') ∈ log) : t' ≤ t + 10 := by
  obtain ⟨p, hp, hkey, -, hlease⟩ := hlog _ ht
  obtain ⟨p', hp', hkey', hle', -⟩ := hlog _ ht'
  obtain rfl : p = p' := h.indexes.client.key_injective hp hp' (hkey.trans hkey'.symm)
  exact hle'.trans hlease

/-- There are no more keys than ports. -/
theorem Witnessed.card_le (hlog : Witnessed m log) (h : NatInvariant pool m) :
    (log.map Prod.fst).toFinset.card ≤ pool.size := by
  have hsub : (log.map Prod.fst).toFinset ⊆
      ((storedSessions m).map (clientKey m.heap)).toFinset := by
    intro k hk
    obtain ⟨x, hx, rfl⟩ := List.mem_map.1 (List.mem_toFinset.1 hk)
    obtain ⟨p, hp, hkey, -⟩ := hlog x hx
    rw [List.mem_toFinset, ← hkey]
    apply List.mem_map_of_mem
    exact (mem_storedSessions_iff h.indexes h.configured.len_pos p).2 hp
  apply (Finset.card_le_card hsub).trans
  apply (List.toFinset_card_le _).trans
  rw [List.length_map]
  exact h.length_storedSessions_le

end Leased

/-! ## Runs -/

/-- What holds of the table and the log, and is kept by packets and by reading the clock, holds at
the end of a run. -/
theorem acceptances_rule {H : Machine → List (ClientKey × Int) → Prop}
    (htick : ∀ m log n, H m log → H (m.tick n) log)
    (hpacket : ∀ m log (c : Call), c.IsPacket → H m log →
      H (perform m c) (log ++ ((c.session m).map fun p =>
        (clientKey (perform m c).heap p, m.clock 0)).toList))
    {s : VpnServer} {log : List (ClientKey × Int)} (h : H s.machine log) (events : List Event) :
    ∃ m, H m (log ++ acceptances (some s) events) := by
  induction events generalizing s log with
  | nil => exact ⟨s.machine, by rwa [acceptances_nil, List.append_nil]⟩
  | cons e events ih =>
      have hserve := @serve_call s
      rw [acceptances, ← List.append_assoc, Event.accepted]
      cases hcall : e.call s with
      | none =>
          -- nothing was read
          rw [Option.bind_none, Option.toList_none, List.append_nil]
          cases hnext : serve (some s) e with
          | none => exact ⟨s.machine, by rwa [acceptances_none, List.append_nil]⟩
          | some s' =>
              have hm := serve_call hnext
              rw [hcall] at hm
              apply ih
              rw [hm]
              exact h
      | some c =>
          have hstep := hpacket s.machine log c (Event.isPacket_of_call hcall) h
          rw [Option.bind_some]
          cases hnext : serve (some s) e with
          | none => exact ⟨perform s.machine c, by rwa [acceptances_none, List.append_nil]⟩
          | some s' =>
              have hm := serve_call hnext
              rw [hcall] at hm
              obtain ⟨n, hn⟩ := hm
              apply ih
              rw [hn]
              exact htick _ _ n hstep

theorem Witnessed.tick {m : Machine} {log : List (ClientKey × Int)} (h : Witnessed m log)
    (n : Nat) : Witnessed (m.tick n) log := h

/-- A packet keeps the leases and the log, with the entry it adds. -/
theorem Leased.logged {pool : PortPool} {m : Machine} {log : List (ClientKey × Int)}
    (h : Leased pool m) (hlog : Witnessed m log) {c : Call} (hc : c.IsPacket) :
    Witnessed (BenkerVpn.perform m c) (log ++ ((c.session m).map fun p =>
      (clientKey (BenkerVpn.perform m c).heap p, m.clock 0)).toList) := by
  apply (hlog.perform h hc).append
  cases hses : c.session m with
  | none => exact fun x hx => absurd hx List.not_mem_nil
  | some p => exact h.witnessed hc hses

theorem Fresh.leased {pool : PortPool} {m : Machine} (h : Fresh pool m)
    (hclock : Monotone m.clock) : Leased pool m where
  nat := h.natInvariant
  monotone := hclock
  lease p hp := absurd hp (h.not_inClient p)

/-- The service of a client is bounded. If the clock never goes back, then over its whole life the
server accepts packets of at most 1001 client keys, and the packets it accepts for one key come
within ten seconds. -/
theorem service_bounded (s : VpnServer) (hclock : Monotone s.machine.clock) (events : List Event) :
    let log := acceptances (some (initVpnServer s)) events
    (∀ k t t', (k, t) ∈ log → (k, t') ∈ log → t' ≤ t + 10) ∧
      (log.map Prod.fst).toFinset.card ≤ 1001 := by
  intro log
  have hstart : Leased serverPool (initVpnServer s).machine :=
    (initVpnServer_fresh s).leased hclock
  obtain ⟨m, hleased, hlog⟩ := acceptances_rule
    (H := fun m log => Leased serverPool m ∧ Witnessed m log)
    (fun m log n h => ⟨Leased.tick h.1 n, h.2.tick n⟩)
    (fun m log c hc h => ⟨h.1.perform hc, h.1.logged h.2 hc⟩)
    (show Leased serverPool (initVpnServer s).machine ∧ Witnessed (initVpnServer s).machine [] from
      ⟨hstart, fun x hx => absurd hx List.not_mem_nil⟩) events
  rw [List.nil_append] at hlog
  exact ⟨fun k t t' ht ht' => hlog.within hleased.nat ht ht', hlog.card_le hleased.nat⟩

/-- A `SYN` and its answer are accepted for one key, at the same time. -/
theorem service_bounded_handshake :
    let log := acceptances (some (initVpnServer freshServer))
      [.client (datagramOf clientAddress (packetOf sampleSyn)),
        .world (frameOf (packetOf sampleSynAck))]
    log = [((167772161, 5000), 0), ((167772161, 5000), 0)] ∧
      (log.map Prod.fst).toFinset.card ≤ 1001 :=
  ⟨by decide +kernel, (service_bounded freshServer monotone_const _).2⟩

/-- The leases of a running server. -/
theorem leased_of_serve {s₀ s : VpnServer} (hclock : Monotone s₀.machine.clock)
    {events : List Event} (h : exec serve (some (initVpnServer s₀)) events = some s) :
    Leased serverPool s.machine := by
  refine invariant_serve (fun t => Leased serverPool t.machine) ?_
    ((initVpnServer_fresh s₀).leased hclock) h
  intro t e t' ht hserve
  have hm := serve_call hserve
  cases hcall : e.call t with
  | none =>
      rw [hcall] at hm
      rw [hm]
      exact ht
  | some c =>
      rw [hcall] at hm
      obtain ⟨n, hn⟩ := hm
      rw [hn]
      exact (ht.perform (Event.isPacket_of_call hcall)).tick n

end BenkerVpn

import BenkerVpn.Library.Observations
import BenkerVpn.Memory.Runs
import BenkerVpn.Model.ServerMemory
import BenkerVpn.Server.Reply

/-!
# The server in memory

The server with its table in memory sends what the server with a table of lists sends, whatever its
sockets deliver and whatever addresses `calloc` returns (`server_refines`). It never removes a
session, so it allocates at most one session object for each port, and no list grows longer: a walk
along a list ends within 1002 rounds, however long the server runs.
-/

set_option autoImplicit false

namespace BenkerVpn.Pointers

open Library.Chains Library.Observations Library.Outcomes Library.Runs

/-! ## What is allocated -/

/-- Every session object that was allocated is still stored. -/
structure Kept (m : Machine) : Prop where
  nat : NatInvariant serverPool m
  stored : ∀ p < m.brk, InClient m p

section Kept

variable {m : Machine}

theorem Kept.tick (h : Kept m) (n : Nat) : Kept (m.tick n) := ⟨h.nat.tick n, h.stored⟩

theorem Kept.perform (h : Kept m) {c : Call} (hc : c.IsPacket) : Kept (BenkerVpn.perform m c) where
  nat := h.nat.perform c (by rintro rfl; exact hc.elim)
  stored p hp := by
    refine (perform_inIndex_iff hc .client p).2 ?_
    by_cases hold : p < m.brk
    · exact Or.inl (h.stored p hold)
    · -- a call allocates one object, which it stores
      have hle := brk_perform_le m c
      have heq : p = m.brk :=
        Nat.le_antisymm (Nat.lt_succ_iff.1 (Nat.lt_of_lt_of_le hp hle)) (not_lt.1 hold)
      exact Or.inr ⟨heq, heq ▸ hp⟩

/-- There are no more session objects than ports. -/
theorem Kept.brk_le (h : Kept m) : m.brk ≤ 1001 := by
  have hsub : List.range m.brk ⊆ storedSessions m := by
    intro p hp
    exact (mem_storedSessions_iff h.nat.indexes h.nat.configured.len_pos p).2
      (h.stored p (List.mem_range.1 hp))
  have hle := (List.subperm_of_subset List.nodup_range hsub).length_le
  rw [List.length_range] at hle
  exact hle.trans h.nat.length_storedSessions_le

theorem Kept.ready (h : Kept m) {fuel : Nat} (hfuel : 1001 < fuel) : Ready fuel m :=
  ⟨h.nat.indexes, h.nat.configured.len_pos, Nat.lt_of_le_of_lt h.brk_le hfuel⟩

end Kept

/-! ## One half of the loop -/

/-- The server in memory holds what the server on lists says. -/
structure HoldsServer (p : VpnServer) (s : BenkerVpn.VpnServer) : Prop where
  localIp : p.localIp = s.localIp
  clientIp : p.clientIp = s.clientIp
  buf : p.buf = s.buf
  bufLen : p.bufLen = s.bufLen
  raddr : p.raddr = s.raddr
  memory : Holds p.memory s.machine
  kept : Kept s.machine

/-- The same where the program may have ended. -/
inductive HoldsState : Option VpnServer → Option BenkerVpn.VpnServer → Prop
  | ended : HoldsState none none
  | running {p : VpnServer} {s : BenkerVpn.VpnServer} (h : HoldsServer p s) :
      HoldsState (some p) (some s)

section Halves

variable {p : VpnServer} {s : BenkerVpn.VpnServer} (h : HoldsServer p s) (calloc : Calloc)
  {fuel : Nat} (hfuel : 1001 < fuel)
include h hfuel

theorem serveClient_ends (input : ClientInput) :
    Ends (OutOfMemory calloc) (serveClient calloc fuel p input) fun r =>
      r.2 = (BenkerVpn.serveClient s input).2 ∧
        HoldsState r.1 (BenkerVpn.serveClient s input).1 := by
  obtain ⟨localIp, clientIp, buf, bufLen, raddr, memory⟩ := p
  obtain ⟨rfl, rfl, rfl, rfl, rfl, hmemory, hkept⟩ := h
  rw [serveClient, BenkerVpn.serveClient]
  dsimp only
  obtain ⟨ret, buf, raddr⟩ := readMsgUdp s.buf s.bufLen s.raddr input.recv
  dsimp only
  split
  · exact ⟨rfl, .ended⟩
  · split
    · exact ⟨rfl, .running ⟨rfl, rfl, rfl, rfl, rfl, hmemory, hkept⟩⟩
    · obtain ⟨heads, cells, hrep⟩ := hmemory
      refine (hrep.handleClientPacket (hkept.ready hfuel) calloc input.count buf s.bufLen
        s.localIp).bind ?_
      rintro ⟨a, memory'⟩ ⟨rfl, hholds⟩
      have hkept' : Kept (BenkerVpn.handleClientPacket s.machine input.count buf s.bufLen
          s.localIp).machine := @Kept.perform _ hkept (.client _ _ _ _) trivial
      generalize BenkerVpn.handleClientPacket s.machine input.count buf s.bufLen s.localIp = r
        at hholds hkept' ⊢
      obtain ⟨verdict, machine', buf', rstSize, ip⟩ := r
      cases verdict with
      | invalidSession =>
        exact ⟨rfl, .running ⟨rfl, rfl, rfl, rfl, rfl, hholds, hkept'⟩⟩
      | validSession =>
        obtain ⟨heads', cells', hrep'⟩ := hholds
        refine (hrep'.printSessionHashTable (hkept'.ready hfuel) calloc).bind ?_
        intro memory'' hprinted
        dsimp only
        cases input.sendOk with
        | true => exact ⟨rfl, .running ⟨rfl, rfl, rfl, rfl, rfl, hprinted, hkept'.tick _⟩⟩
        | false => exact ⟨rfl, .ended⟩

theorem serveWorld_ends (input : WorldInput) :
    Ends (OutOfMemory calloc) (serveWorld fuel p input) fun r =>
      r.2 = (BenkerVpn.serveWorld s input).2 ∧
        HoldsState r.1 (BenkerVpn.serveWorld s input).1 := by
  obtain ⟨localIp, clientIp, buf, bufLen, raddr, memory⟩ := p
  obtain ⟨rfl, rfl, rfl, rfl, rfl, hmemory, hkept⟩ := h
  rw [serveWorld, BenkerVpn.serveWorld]
  dsimp only
  obtain ⟨ret, buf⟩ :=
    getIpPacket s.buf s.bufLen input.recvError input.sockLen input.ll input.frames
  dsimp only
  split
  · exact ⟨rfl, .ended⟩
  · split
    · exact ⟨rfl, .running ⟨rfl, rfl, rfl, rfl, rfl, hmemory, hkept⟩⟩
    · obtain ⟨heads, cells, hrep⟩ := hmemory
      refine (hrep.handleWorldPacket (hkept.ready hfuel) calloc buf s.bufLen).bind ?_
      rintro ⟨a, memory'⟩ ⟨rfl, hholds⟩
      have hkept' : Kept (BenkerVpn.handleWorldPacket s.machine buf s.bufLen).machine :=
        @Kept.perform _ hkept (.world _ _) trivial
      generalize BenkerVpn.handleWorldPacket s.machine buf s.bufLen = r at hholds hkept' ⊢
      obtain ⟨verdict, machine', buf', rstSize, ip⟩ := r
      cases verdict with
      | invalidSession => exact ⟨rfl, .running ⟨rfl, rfl, rfl, rfl, rfl, hholds, hkept'⟩⟩
      | validSession =>
        dsimp only [answerOf]
        cases input.sendOk with
        | true => exact ⟨rfl, .running ⟨rfl, rfl, rfl, rfl, rfl, hholds, hkept'⟩⟩
        | false => exact ⟨rfl, .ended⟩

end Halves

/-! ## Runs -/

theorem serve_ends {st : Option VpnServer} {st' : Option BenkerVpn.VpnServer}
    (h : HoldsState st st') (calloc : Calloc) {fuel : Nat} (hfuel : 1001 < fuel) (e : Event) :
    Ends (OutOfMemory calloc) (serve calloc fuel st e) fun r =>
      r.1 = transmitted st' e ∧ HoldsState r.2 (BenkerVpn.serve st' e) := by
  cases h with
  | ended => exact ⟨rfl, .ended⟩
  | running h =>
      cases e with
      | client input =>
          refine (serveClient_ends h calloc hfuel input).bind ?_
          rintro ⟨st, sent⟩ ⟨hsent, hstate⟩
          exact ⟨by rw [transmitted, ← hsent], hstate⟩
      | world input =>
          refine (serveWorld_ends h calloc hfuel input).bind ?_
          rintro ⟨st, sent⟩ ⟨hsent, hstate⟩
          exact ⟨by rw [transmitted, ← hsent], hstate⟩

theorem serveAll_ends {st : Option VpnServer} {st' : Option BenkerVpn.VpnServer}
    (h : HoldsState st st') (calloc : Calloc) {fuel : Nat} (hfuel : 1001 < fuel)
    (events : List Event) :
    Ends (OutOfMemory calloc) (serveAll calloc fuel st events) fun r =>
      r.1 = observe (fun _ => true) BenkerVpn.serve transmitted st' events ∧
        HoldsState r.2 (exec BenkerVpn.serve st' events) := by
  induction events generalizing st st' with
  | nil => exact ⟨rfl, h⟩
  | cons e events ih =>
      refine (serve_ends h calloc hfuel e).bind ?_
      rintro ⟨sent, st₁⟩ ⟨rfl, hstate⟩
      refine (ih hstate).bind ?_
      rintro ⟨rest, st₂⟩ ⟨rfl, hstate'⟩
      exact ⟨rfl, hstate'⟩

/-- The server in memory before `init_vpn_server`, with nothing allocated yet. -/
def startServer (s : BenkerVpn.VpnServer) : VpnServer where
  localIp := s.localIp
  clientIp := s.clientIp
  buf := s.buf
  bufLen := s.bufLen
  raddr := s.raddr
  memory := initMemory serverPool s.machine.clock

theorem startServer_holds (s : BenkerVpn.VpnServer) (hbrk : s.machine.brk = 0) :
    HoldsServer (initVpnServer (startServer s)) (BenkerVpn.initVpnServer s) := by
  have hfresh := initVpnServer_fresh s
  refine ⟨rfl, rfl, rfl, rfl, rfl, ?_, hfresh.natInvariant, ?_⟩
  · refine ⟨fun _ => none, fun _ => [], fun p => ?_, hbrk.symm, rfl, rfl, rfl, rfl, rfl,
      fun side => ?_, forest_empty, fun slot => ?_⟩
    · have hlt : ¬ p < (BenkerVpn.initVpnServer s).machine.brk := by
        rw [show (BenkerVpn.initVpnServer s).machine.brk = 0 from hbrk]
        exact Nat.not_lt_zero p
      rw [if_neg hlt]
      rfl
    · cases side <;> rfl
    · obtain ⟨side, i⟩ := slot
      cases side <;> rfl
  · intro p hp
    rw [show (BenkerVpn.initVpnServer s).machine.brk = 0 from hbrk] at hp
    exact absurd hp (Nat.not_lt_zero p)

theorem HoldsState.isSome_iff {st : Option VpnServer} {st' : Option BenkerVpn.VpnServer}
    (h : HoldsState st st') : st.isSome ↔ st'.isSome := by
  cases h with
  | ended => exact Iff.rfl
  | running _ => exact Iff.rfl

theorem HoldsState.brk_le {p : VpnServer} {st' : Option BenkerVpn.VpnServer}
    (h : HoldsState (some p) st') : p.memory.brk ≤ 1001 := by
  cases h with
  | running h =>
      obtain ⟨heads, cells, hrep⟩ := h.memory
      rw [hrep.brk]
      exact h.kept.brk_le

/-- The server in memory refines the server on lists. Whatever the sockets deliver and whatever
addresses `calloc` returns, every half sends what it sends on lists, to the same address, the
program ends when it ends there, and it never allocates more than 1001 session objects; or a
`calloc` has returned `NULL`. No address is used that is not in use, and no walk along a list takes
more than 1002 rounds. -/
theorem server_refines (s : BenkerVpn.VpnServer) (hbrk : s.machine.brk = 0) (calloc : Calloc)
    {fuel : Nat} (hfuel : 1001 < fuel) (events : List Event) :
    Ends (OutOfMemory calloc)
      (serveAll calloc fuel (some (initVpnServer (startServer s))) events) fun r =>
        r.1 = observe (fun _ => true) BenkerVpn.serve transmitted
            (some (BenkerVpn.initVpnServer s)) events ∧
          (r.2.isSome ↔
            (exec BenkerVpn.serve (some (BenkerVpn.initVpnServer s)) events).isSome) ∧
          ∀ p, r.2 = some p → p.memory.brk ≤ 1001 := by
  refine (serveAll_ends (.running (startServer_holds s hbrk)) calloc hfuel events).mono ?_
  rintro r ⟨hsent, hstate⟩
  refine ⟨hsent, hstate.isSome_iff, fun p hp => ?_⟩
  rw [hp] at hstate
  exact hstate.brk_le

/-- A `SYN` and its answer, with an allocator that always has memory. -/
theorem server_refines_handshake :
    let events := [.client (datagramOf clientAddress (packetOf sampleSyn)),
      .world (frameOf (packetOf sampleSynAck))]
    Ends (OutOfMemory firstFree)
      (serveAll firstFree 1002 (some (initVpnServer (startServer freshServer))) events) fun r =>
        r.1 = observe (fun _ => true) BenkerVpn.serve transmitted
            (some (BenkerVpn.initVpnServer freshServer)) events ∧
          (r.2.isSome ↔
            (exec BenkerVpn.serve (some (BenkerVpn.initVpnServer freshServer)) events).isSome) ∧
          ∀ p, r.2 = some p → p.memory.brk ≤ 1001 :=
  server_refines freshServer (by decide) firstFree (by decide) _

end BenkerVpn.Pointers

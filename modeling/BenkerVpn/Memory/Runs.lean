import BenkerVpn.Handler.Step
import BenkerVpn.Memory.Refinement

/-!
# Runs in memory

The handlers work on the session they find, which is in use (`Represents.useSession`), so every call
refines that on lists (`Represents.perform`), and so does every run of the programs from
`init_hash_table` (`run_refines`): the program gets the same responses, and the memory holds what
the machine says, unless a `calloc` returned `NULL`. A bound on the walks along the lists that is as
large as the number of operations suffices.
-/

set_option autoImplicit false

namespace BenkerVpn.Pointers

open Library.Chains Library.Outcomes Library.Runs

section Handlers

variable {mem : Memory} {m : Machine} {heads : Slot → Option NodePtr} {cells : Slot → Cells}
  {fuel : Nat}

/-! ## The handlers -/

theorem Represents.updateSession (h : Represents mem m heads cells) {s : SessionPtr}
    (hs : s < m.brk) (f : TcpSession → TcpSession) :
    ∃ mem', mem.updateSession s f = .ok mem' ∧
      Represents mem' (m.store s (f (m.heap s))) heads cells := by
  refine ⟨_, updateSession_eq (h.session hs) f, fun t => ?_, h.brk, h.clock, h.len, h.minPort,
    h.modNum, h.nextNum, fun side => ?_, h.forest, h.contents⟩
  · show Function.update mem.sessions s _ t =
      if t < m.brk then some (Function.update m.heap s _ t) else none
    by_cases ht : t = s
    · rw [ht, Function.update_self, Function.update_self, if_pos hs]
    · rw [Function.update_of_ne ht, Function.update_of_ne ht, h.sessions]
  · rw [← h.heads_eq side]
    cases side <;> rfl

/-- What both handlers do with the session found. -/
def useOn (m : Machine) (flags : TcpSession → TcpSession) :
    Option SessionPtr → Option SessionPtr × Machine
  | none => (none, m)
  | some s =>
      if expiredAt m.heap (m.clock 0) s then (none, m.tick 1)
      else (some s, (m.tick 1).store s (flags (m.heap s)))

theorem acceptClient_eq_useOn (m : Machine) (count : Int) (seg : Segment) :
    BenkerVpn.acceptClient m count seg =
      useOn (BenkerVpn.clientSession m count seg).2 (fun v => clientFlags v seg)
        (BenkerVpn.clientSession m count seg).1 := by
  rw [BenkerVpn.acceptClient]
  rcases BenkerVpn.clientSession m count seg with ⟨_ | s, m'⟩
  · rfl
  · simp only [BenkerVpn.sessionExpired, useOn]
    cases expiredAt m'.heap (m'.clock 0) s with
    | true => rfl
    | false => rfl

theorem acceptWorld_eq_useOn (m : Machine) (seg : Segment) :
    BenkerVpn.acceptWorld m seg =
      useOn m (fun v => worldFlags v seg) (BenkerVpn.getTcpSessionByServer m seg.dest) := by
  rw [BenkerVpn.acceptWorld]
  cases BenkerVpn.getTcpSessionByServer m seg.dest with
  | none => rfl
  | some s =>
      simp only [BenkerVpn.sessionExpired, useOn]
      cases expiredAt m.heap (m.clock 0) s with
      | true => rfl
      | false => rfl

/-- A result of the lower level that is the one of the upper level, its session in use. -/
def Agrees (r : Option SessionPtr × Memory) (r' : Option SessionPtr × Machine) : Prop :=
  r.1 = r'.1 ∧ Holds r.2 r'.2 ∧ ∀ s, r'.1 = some s → s < r'.2.brk

theorem Represents.useSession (h : Represents mem m heads cells) {found : Option SessionPtr}
    (hfound : ∀ s, found = some s → s < m.brk) (flags : TcpSession → TcpSession)
    (calloc : Calloc) :
    Ends (OutOfMemory calloc) (useSession mem flags found) fun r =>
      Agrees r (useOn m flags found) := by
  cases found with
  | none => exact ⟨rfl, ⟨heads, cells, h⟩, fun s hs => absurd hs (Option.some_ne_none s).symm⟩
  | some s =>
      have hs := hfound s rfl
      rw [Pointers.useSession, useOn]
      refine ends_bind_of_eq (sessionExpired_eq (h.session hs)) ?_
      rw [h.clock]
      cases expiredAt m.heap (m.clock 0) s with
      | true =>
          exact ⟨rfl, ⟨heads, cells, h.later 1⟩, fun t ht => absurd ht (Option.some_ne_none t).symm⟩
      | false =>
          obtain ⟨mem', heq, hrep⟩ := (h.later 1).updateSession hs flags
          refine ends_bind_of_eq heq ⟨rfl, ⟨heads, cells, hrep⟩, ?_⟩
          rintro t ht
          obtain rfl := Option.some.inj ht
          exact hs

theorem getByClient_lt (hr : Ready fuel m) {ip : UInt32} {port : UInt16} {s : SessionPtr}
    (hs : BenkerVpn.getTcpSessionByClient m ip port = some s) : s < m.brk :=
  hr.indexes.clientAllocated s ((hr.indexes.getByClient_eq_some_iff ip port s).1 hs).1

theorem getByServer_lt (hr : Ready fuel m) {port : UInt16} {s : SessionPtr}
    (hs : BenkerVpn.getTcpSessionByServer m port = some s) : s < m.brk :=
  hr.indexes.serverAllocated s ((hr.indexes.getByServer_eq_some_iff port s).1 hs).1

/-- The session that `add_tcp_session` returns is allocated. -/
theorem addTcpSession_lt (hr : Ready fuel m) {count : Int} {ip : UInt32} {port : UInt16}
    {timeout : Int} {s : SessionPtr}
    (hs : (BenkerVpn.addTcpSession m count ip port timeout).1 = some s) :
    s < (BenkerVpn.addTcpSession m count ip port timeout).2.brk := by
  rcases hadd : BenkerVpn.addTcpSession m count ip port timeout with ⟨r, m'⟩
  obtain rfl : r = some s := by rw [hadd] at hs; exact hs
  cases addTcpSession_outcome hadd with
  | found _ hfound => exact getByClient_lt hr hfound
  | created q n _ _ => exact Nat.lt_succ_self _

theorem Represents.clientSession (h : Represents mem m heads cells) (hr : Ready fuel m)
    (calloc : Calloc) (count : Int) (seg : Segment) :
    Ends (OutOfMemory calloc) (clientSession calloc fuel mem count seg) fun r =>
      Agrees r (BenkerVpn.clientSession m count seg) := by
  rw [Pointers.clientSession, BenkerVpn.clientSession]
  split
  · refine (h.addTcpSession hr calloc count seg.saddr seg.source 10).mono ?_
    rintro r ⟨hret, hholds⟩
    exact ⟨hret, hholds, fun s hs => addTcpSession_lt hr hs⟩
  · refine ends_bind_of_eq (h.getByClient hr seg.saddr seg.source) ?_
    exact ⟨rfl, ⟨heads, cells, h⟩, fun s hs => getByClient_lt hr hs⟩

theorem Represents.acceptClient (h : Represents mem m heads cells) (hr : Ready fuel m)
    (calloc : Calloc) (count : Int) (seg : Segment) :
    Ends (OutOfMemory calloc) (acceptClient calloc fuel mem count seg) fun r =>
      Agrees r (BenkerVpn.acceptClient m count seg) := by
  rw [acceptClient_eq_useOn]
  refine (h.clientSession hr calloc count seg).bind ?_
  rintro ⟨found, mem'⟩ ⟨hret, ⟨heads', cells', h'⟩, hlt⟩
  obtain rfl : found = _ := hret
  exact h'.useSession hlt _ calloc

theorem Represents.acceptWorld (h : Represents mem m heads cells) (hr : Ready fuel m)
    (calloc : Calloc) (seg : Segment) :
    Ends (OutOfMemory calloc) (acceptWorld fuel mem seg) fun r =>
      Agrees r (BenkerVpn.acceptWorld m seg) := by
  rw [acceptWorld_eq_useOn]
  refine ends_bind_of_eq (h.getByServer hr seg.dest) ?_
  exact h.useSession (fun s hs => getByServer_lt hr hs) _ calloc

theorem Represents.handleClientPacket (h : Represents mem m heads cells) (hr : Ready fuel m)
    (calloc : Calloc) (count : Int) (b : Buffer) (bufferLen : Int) (ip : UInt32) :
    Ends (OutOfMemory calloc) (handleClientPacket calloc fuel mem count b bufferLen ip) fun r =>
      r.1 = answerOf (BenkerVpn.handleClientPacket m count b bufferLen ip) ∧
        Holds r.2 (BenkerVpn.handleClientPacket m count b bufferLen ip).machine := by
  rw [Pointers.handleClientPacket, BenkerVpn.handleClientPacket]
  cases validateIpTcp b bufferLen with
  | none => exact ⟨rfl, heads, cells, h⟩
  | some tcp =>
      dsimp only
      have haccept := h.acceptClient hr calloc count (segmentAt b tcp)
      generalize BenkerVpn.acceptClient m count (segmentAt b tcp) = r' at haccept ⊢
      obtain ⟨found', m'⟩ := r'
      refine haccept.bind ?_
      rintro ⟨found, mem'⟩ ⟨hret, ⟨heads', cells', h'⟩, hlt⟩
      obtain rfl : found = found' := hret
      cases found with
      | none => exact ⟨rfl, heads', cells', h'⟩
      | some s =>
          exact ends_bind_of_eq (session_eq (h'.session (hlt s rfl))) ⟨rfl, heads', cells', h'⟩

theorem Represents.handleWorldPacket (h : Represents mem m heads cells) (hr : Ready fuel m)
    (calloc : Calloc) (b : Buffer) (bufferLen : Int) :
    Ends (OutOfMemory calloc) (handleWorldPacket fuel mem b bufferLen) fun r =>
      r.1 = answerOf (BenkerVpn.handleWorldPacket m b bufferLen) ∧
        Holds r.2 (BenkerVpn.handleWorldPacket m b bufferLen).machine := by
  rw [Pointers.handleWorldPacket, BenkerVpn.handleWorldPacket]
  cases validateIpTcp b bufferLen with
  | none => exact ⟨rfl, heads, cells, h⟩
  | some tcp =>
      dsimp only
      have haccept := h.acceptWorld hr calloc (segmentAt b tcp)
      generalize BenkerVpn.acceptWorld m (segmentAt b tcp) = r' at haccept ⊢
      obtain ⟨found', m'⟩ := r'
      refine haccept.bind ?_
      rintro ⟨found, mem'⟩ ⟨hret, ⟨heads', cells', h'⟩, hlt⟩
      obtain rfl : found = found' := hret
      cases found with
      | none => exact ⟨rfl, heads', cells', h'⟩
      | some s =>
          exact ends_bind_of_eq (session_eq (h'.session (hlt s rfl))) ⟨rfl, heads', cells', h'⟩

/-! ## Operations -/

/-- Every operation gives the response of the machine and keeps the relation. -/
theorem Represents.perform (h : Represents mem m heads cells) (hr : Ready fuel m)
    (calloc : Calloc) (op : Operation) :
    Ends (OutOfMemory calloc) (perform calloc fuel mem op) fun r =>
      r.1 = respondOn m op ∧ Holds r.2 (performOn m op) := by
  cases op with
  | print =>
      refine (h.printSessionHashTable hr calloc).bind ?_
      exact fun mem' hholds => ⟨rfl, hholds⟩
  | call c =>
      cases c with
      | add count ip port timeout =>
          refine (h.addTcpSession hr calloc count ip port timeout).bind ?_
          rintro ⟨s, mem'⟩ ⟨hret, hholds⟩
          exact ⟨congrArg Response.session hret, hholds⟩
      | client count b bufferLen ip =>
          refine (h.handleClientPacket hr calloc count b bufferLen ip).bind ?_
          rintro ⟨a, mem'⟩ ⟨hret, hholds⟩
          exact ⟨congrArg Response.answer hret, hholds⟩
      | world b bufferLen =>
          refine (h.handleWorldPacket hr calloc b bufferLen).bind ?_
          rintro ⟨a, mem'⟩ ⟨hret, hholds⟩
          exact ⟨congrArg Response.answer hret, hholds⟩
      | clean =>
          refine (h.cleanExpiredSession hr calloc).bind ?_
          exact fun mem' hholds => ⟨rfl, hholds⟩

end Handlers

/-! ## Runs -/

/-- A call allocates at most one session. -/
theorem brk_perform_le (m : Machine) (c : Call) : (BenkerVpn.perform m c).brk ≤ m.brk + 1 := by
  by_cases hc : c.IsPacket
  · cases packet_outcome m hc with
    | invalid hseg hses hper =>
        rw [hper]
        exact Nat.le_succ _
    | unknown sender seg hseg hsyn hp hses hper =>
        rw [hper]
        exact Nat.le_succ _
    | exhausted seg hseg hsyn hp n hses hper =>
        rw [hper]
        exact Nat.le_succ _
    | expired sender seg hseg p hp hexp hses hper =>
        rw [hper]
        exact Nat.le_succ _
    | accepted sender seg hseg p hp hexp hses hper =>
        rw [hper]
        exact Nat.le_succ _
    | createdExpired seg hseg hsyn hp q hq n hexp hses hper =>
        rw [hper]
        exact Nat.le_refl _
    | createdAccepted seg hseg hsyn hp q hq n hexp hses hper =>
        rw [hper]
        exact Nat.le_refl _
  · cases c with
    | add count ip port timeout =>
        rw [BenkerVpn.perform]
        rcases hadd : BenkerVpn.addTcpSession m count ip port timeout with ⟨r, m'⟩
        cases addTcpSession_outcome hadd with
        | found s hs => exact Nat.le_succ _
        | exhausted n hs hq => exact Nat.le_succ _
        | created q n hs hq => exact Nat.le_refl _
    | client count b bufferLen ip => exact absurd trivial hc
    | world b bufferLen => exact absurd trivial hc
    | clean =>
        rw [BenkerVpn.perform, cleanExpiredSession_brk]
        exact Nat.le_succ _

/-- What a run keeps: the indexes are proper and the table has its buckets. -/
theorem indexes_performOn {m : Machine} (h : Indexes m) (op : Operation) :
    Indexes (performOn m op) := by
  cases op with
  | call c => exact h.perform c
  | print => exact h.tick _

theorem len_performOn (m : Machine) (op : Operation) :
    (performOn m op).table.len = m.table.len := by
  cases op with
  | call c =>
      refine perform_preserves (P := fun m' => m'.table.len = m.table.len) c ?_ ?_ ?_ ?_ ?_ rfl
      · exact fun _ _ h => h
      · exact fun _ _ h => h
      · exact fun _ _ _ _ _ h _ _ _ => h
      · exact fun _ _ _ h _ => h
      · exact fun _ _ => cleanExpiredSession_len m
  | print => rfl

theorem brk_performOn_le (m : Machine) (op : Operation) : (performOn m op).brk ≤ m.brk + 1 := by
  cases op with
  | call c => exact brk_perform_le m c
  | print => exact Nat.le_succ _

/-- A run gives the responses of the machine and keeps the relation. -/
theorem run_ends (calloc : Calloc) {fuel : Nat} {mem : Memory} {m : Machine} (h : Holds mem m)
    (hm : Indexes m) (hlen : 0 < m.table.len) {ops : List Operation}
    (hfuel : m.brk + ops.length ≤ fuel) :
    Ends (OutOfMemory calloc) (run calloc fuel mem ops) fun r =>
      r.1 = respondAll m ops ∧ Holds r.2 (exec performOn m ops) := by
  induction ops generalizing mem m with
  | nil => exact ⟨rfl, h⟩
  | cons op ops ih =>
      obtain ⟨heads, cells, hrep⟩ := h
      rw [List.length_cons] at hfuel
      have hlt : m.brk < fuel :=
        Nat.lt_of_lt_of_le (Nat.lt_add_of_pos_right (Nat.succ_pos _)) hfuel
      have hr : Ready fuel m := ⟨hm, hlen, hlt⟩
      refine (hrep.perform hr calloc op).bind ?_
      rintro ⟨r, mem'⟩ ⟨rfl, hholds⟩
      have hfuel' : (performOn m op).brk + ops.length ≤ fuel := by
        refine Nat.le_trans (Nat.add_le_add_right (brk_performOn_le m op) _) ?_
        rwa [Nat.add_assoc, Nat.add_comm 1]
      refine (ih hholds (indexes_performOn hm op) (by rw [len_performOn]; exact hlen)
        hfuel').bind ?_
      rintro ⟨rs, mem''⟩ ⟨rfl, hholds'⟩
      exact ⟨rfl, hholds'⟩

/-- A memory after `init_hash_table`, with no node and no session object in use. -/
def initMemory (pool : PortPool) (clock : Nat → Int) : Memory where
  nodes := fun _ => none
  sessions := fun _ => none
  nodeCount := 0
  brk := 0
  table := initHashTable pool.numEntry pool.minPort pool.maxPort
  clock := clock

theorem initMemory_holds (pool : PortPool) (clock : Nat → Int) :
    Holds (initMemory pool clock) (freshMachine pool clock) := by
  refine ⟨fun _ => none, fun _ => [], fun s => rfl, rfl, rfl, rfl, rfl, rfl, rfl, fun side => ?_,
    forest_empty, fun slot => ?_⟩
  · cases side <;> rfl
  · obtain ⟨side, i⟩ := slot
    cases side <;> rfl

/-- The table in memory refines the table of lists. Whatever the programs do with a table, and
whatever addresses `calloc` returns, every operation gives the response it gives on lists and the
nodes form the lists, or the run ends because a `calloc` returned `NULL`: no freed node or session
is used, and every walk along a list ends within as many rounds as there are operations. -/
theorem run_refines (pool : PortPool) (clock : Nat → Int) (calloc : Calloc)
    (ops : List Operation) {fuel : Nat} (hfuel : ops.length ≤ fuel) :
    Ends (OutOfMemory calloc) (run calloc fuel (initMemory pool clock) ops) fun r =>
      r.1 = respondAll (freshMachine pool clock) ops ∧
        Holds r.2 (exec performOn (freshMachine pool clock) ops) :=
  run_ends calloc (initMemory_holds pool clock) (freshMachine_fresh pool clock).indexes
    pool.numEntry_pos (Nat.le_trans (Nat.zero_add _).le hfuel)

/-- An allocator that returns the first free address, and always has memory. -/
def firstFree : Calloc where
  session := fun _ => true
  node := fun n nodes => (List.range (n + 1)).find? fun p => (nodes p).isNone
  node_free := by
    intro n nodes p hp
    simpa using List.find?_some hp

/-- Two sessions, the first of which expires and is cleaned out before the second is added. -/
def addCleanAdd : List Operation :=
  [.call (.add 0 167772161 5000 10), .call .clean, .call (.add 0 167772162 5001 10)]

/-- The nodes of the session that was cleaned out are used again for the other one. -/
theorem run_refines_reused :
    (run firstFree 3 (initMemory smallPool fun k => 100 * k) addCleanAdd).toOption.map
        (fun r => (r.2.nodes 0, r.2.nodes 1, r.2.nodes 2)) =
      some (some ⟨1, none⟩, some ⟨1, none⟩, none) ∧
    Ends (OutOfMemory firstFree)
      (run firstFree 3 (initMemory smallPool fun k => 100 * k) addCleanAdd) fun r =>
        r.1 = respondAll (freshMachine smallPool fun k => 100 * k) addCleanAdd ∧
          Holds r.2 (exec performOn (freshMachine smallPool fun k => 100 * k) addCleanAdd) :=
  ⟨by decide +kernel, run_refines smallPool _ firstFree addCleanAdd (by decide)⟩

end BenkerVpn.Pointers

import BenkerVpn.Memory.Lists
import BenkerVpn.Session.Bijection

/-!
# The table in memory refines the table of lists

`Represents` relates a memory to a machine of `Model.SessionStruct`: the nodes form a forest with
one chain for each bucket of each index, whose nodes hold the sessions of the bucket in order, and
the session objects in use are those the machine has allocated. Every operation on the memory gives
the response of the machine and keeps the relation, or fails because a `calloc` returned `NULL`
(`Represents.addTcpSession`, `Represents.cleanExpiredSession`). So no run of the programs uses a
node or a session after it was freed, frees one twice, or follows a `next` pointer in a circle
(`run_refines`).
-/

set_option autoImplicit false

namespace BenkerVpn

/-- The machine with another list in a bucket. -/
def Machine.setList (m : Machine) (side : Side) (i : Nat) (l : List SessionPtr) : Machine :=
  match side with
  | .client =>
      { m with table :=
        { m.table with listClientKey := Function.update m.table.listClientKey i l } }
  | .server =>
      { m with table :=
        { m.table with listServerKey := Function.update m.table.listServerKey i l } }

namespace Pointers

open Library.Chains Library.Outcomes Library.Runs

/-- A bucket of one of the two arrays. -/
abbrev Slot := Side × Nat

/-- The list of a bucket. -/
def slotList (m : Machine) (slot : Slot) : List SessionPtr := lists m slot.1 slot.2

/-- The array of list heads of an index. -/
def Memory.heads (mem : Memory) : Side → Option (Nat → Option NodePtr)
  | .client => mem.table.listClientKey
  | .server => mem.table.listServerKey

/-- The memory after a write of a list head. -/
def Memory.setHead (mem : Memory) (side : Side) (i : Nat) (head : Option NodePtr) : Memory :=
  match side with
  | .client => mem.setClientHead i head
  | .server => mem.setServerHead i head

/-- The memory holds what the machine says: `heads` are the list heads, and `cells` the nodes of the
lists. -/
structure Represents (mem : Memory) (m : Machine) (heads : Slot → Option NodePtr)
    (cells : Slot → Cells) : Prop where
  sessions : ∀ s, mem.sessions s = if s < m.brk then some (m.heap s) else none
  brk : mem.brk = m.brk
  clock : mem.clock = m.clock
  len : mem.table.len = m.table.len
  minPort : mem.table.minPort = m.table.minPort
  modNum : mem.table.modNum = m.table.modNum
  nextNum : mem.table.nextNum = m.table.nextNum
  heads_eq : ∀ side, mem.heads side = some fun i => heads (side, i)
  forest : Forest mem.nodes heads cells
  contents : ∀ slot, values (cells slot) = slotList m slot

/-- A memory that holds what the machine says. -/
def Holds (mem : Memory) (m : Machine) : Prop := ∃ heads cells, Represents mem m heads cells

section Slot

variable {α : Type} (f : Slot → α) (side : Side) (i : Nat) (x : α)

/-- An update of a bucket is one of its array. -/
theorem update_slot_self :
    (fun j => Function.update f (side, i) x (side, j)) =
      Function.update (fun j => f (side, j)) i x := by
  funext j
  by_cases hj : j = i
  · rw [hj, Function.update_self, Function.update_self]
  · rw [Function.update_of_ne hj, Function.update_of_ne fun he => hj (Prod.mk.inj he).2]

/-- The other array is as it was. -/
theorem update_slot_of_ne {side' : Side} (h : side' ≠ side) :
    (fun j => Function.update f (side, i) x (side', j)) = fun j => f (side', j) := by
  funext j
  exact Function.update_of_ne (fun he => h (Prod.mk.inj he).1) ..

end Slot

theorem slotList_setList (m : Machine) (side : Side) (i : Nat) (l : List SessionPtr) :
    slotList (m.setList side i l) = Function.update (slotList m) (side, i) l := by
  have harray : ∀ side', (fun j => slotList (m.setList side i l) (side', j)) =
      fun j => Function.update (slotList m) (side, i) l (side', j) := by
    intro side'
    by_cases h : side' = side
    · rw [h, update_slot_self]
      cases side <;> rfl
    · rw [update_slot_of_ne _ _ _ _ h]
      cases side <;> cases side' <;> first | rfl | exact absurd rfl h
  funext ⟨side', j⟩
  exact congrFun (harray side') j

theorem heads_setHead {mem : Memory} {heads : Slot → Option NodePtr}
    (h : ∀ side, mem.heads side = some fun i => heads (side, i)) (side side' : Side) (i : Nat)
    (p : Option NodePtr) :
    (mem.setHead side i p).heads side' =
      some fun j => Function.update heads (side, i) p (side', j) := by
  by_cases hside : side' = side
  · rw [hside, update_slot_self]
    cases side with
    | client => exact congrArg (Option.map fun l => Function.update l i p) (h .client)
    | server => exact congrArg (Option.map fun l => Function.update l i p) (h .server)
  · rw [update_slot_of_ne _ _ _ _ hside, ← h side']
    cases side <;> cases side' <;> first | rfl | exact absurd rfl hside

section Represents

variable {mem : Memory} {m : Machine} {heads : Slot → Option NodePtr} {cells : Slot → Cells}

theorem Represents.session (h : Represents mem m heads cells) {s : SessionPtr} (hs : s < m.brk) :
    mem.sessions s = some (m.heap s) := by
  rw [h.sessions, if_pos hs]

/-- The sessions of the lists of an index are allocated. -/
theorem slotList_lt (h : Indexes m) {slot : Slot} {s : SessionPtr} (hs : s ∈ slotList m slot) :
    s < m.brk := by
  obtain ⟨side, i⟩ := slot
  cases side with
  | client => exact h.clientAllocated s ⟨i, hs⟩
  | server => exact h.serverAllocated s ⟨i, hs⟩

theorem slotList_nodup (h : Indexes m) (slot : Slot) : (slotList m slot).Nodup := by
  obtain ⟨side, i⟩ := slot
  cases side with
  | client => exact h.client.nodup i
  | server => exact h.server.nodup i

theorem Represents.live (h : Represents mem m heads cells) (hm : Indexes m) (slot : Slot) :
    Live mem m.heap (cells slot) := by
  intro s hs
  rw [h.contents] at hs
  exact h.session (slotList_lt hm hs)

/-- A list has at most as many nodes as sessions have been allocated. -/
theorem Represents.length_le (h : Represents mem m heads cells) (hm : Indexes m) (slot : Slot) :
    (cells slot).length ≤ m.brk := by
  have hlength : (cells slot).length = (slotList m slot).length := by
    rw [← h.contents, List.length_map]
  have hsub : slotList m slot ⊆ List.range m.brk :=
    fun s hs => List.mem_range.2 (slotList_lt hm hs)
  have hle := (List.subperm_of_subset (slotList_nodup hm slot) hsub).length_le
  rwa [List.length_range, ← hlength] at hle

theorem Represents.clientHead (h : Represents mem m heads cells) {i : Nat} (hi : i < m.table.len) :
    headAt mem.table.listClientKey mem.table.len i = .ok (heads (.client, i)) := by
  rw [show mem.table.listClientKey = _ from h.heads_eq .client, h.len]
  exact headAt_eq hi

theorem Represents.serverHead (h : Represents mem m heads cells) {i : Nat} (hi : i < m.table.len) :
    headAt mem.table.listServerKey mem.table.len i = .ok (heads (.server, i)) := by
  rw [show mem.table.listServerKey = _ from h.heads_eq .server, h.len]
  exact headAt_eq hi

theorem Represents.later (h : Represents mem m heads cells) (n : Nat) :
    Represents (mem.later n) (m.tick n) heads cells := by
  refine ⟨h.sessions, h.brk, ?_, h.len, h.minPort, h.modNum, h.nextNum, fun side => ?_, h.forest,
    h.contents⟩
  · rw [Memory.later, h.clock]
    rfl
  · rw [← h.heads_eq side]
    cases side <;> rfl

theorem Represents.setNextNum (h : Represents mem m heads cells) (n : UInt32) :
    Represents (mem.setNextNum n) (m.setNextNum n) heads cells := by
  refine ⟨h.sessions, h.brk, h.clock, h.len, h.minPort, h.modNum, rfl, fun side => ?_, h.forest,
    fun slot => ?_⟩
  · rw [← h.heads_eq side]
    cases side <;> rfl
  · rw [h.contents]
    rfl

/-- An operation on the list of a bucket whose new head is stored. -/
theorem Represents.setHead (h : Represents mem m heads cells) {side : Side} {i : Nat}
    {nodes : Heap SessionPtr} {p : Option NodePtr} {cells' : Cells} (hc : Chain nodes p cells')
    (ht : Touches mem.nodes nodes (cells (side, i)) cells') :
    Represents ((mem.setNodes nodes).setHead side i p) (m.setList side i (values cells'))
      (Function.update heads (side, i) p) (Function.update cells (side, i) cells') := by
  have hheads := fun side' => @heads_setHead (mem.setNodes nodes) heads
    (fun side'' => by rw [← h.heads_eq side'']; cases side'' <;> rfl) side side' i p
  have hforest := h.forest.update hc ht
  have hcontents : ∀ slot, values (Function.update cells (side, i) cells' slot) =
      slotList (m.setList side i (values cells')) slot := by
    intro slot
    rw [slotList_setList]
    by_cases hslot : slot = (side, i)
    · rw [hslot, Function.update_self, Function.update_self]
    · rw [Function.update_of_ne hslot, Function.update_of_ne hslot, h.contents]
  cases side with
  | client =>
      exact ⟨h.sessions, h.brk, h.clock, h.len, h.minPort, h.modNum, h.nextNum, hheads, hforest,
        hcontents⟩
  | server =>
      exact ⟨h.sessions, h.brk, h.clock, h.len, h.minPort, h.modNum, h.nextNum, hheads, hforest,
        hcontents⟩

/-! ## Looking up -/

/-- What the operations need: proper indexes, a table with buckets, and more rounds for the loops
than sessions have been allocated. -/
structure Ready (fuel : Nat) (m : Machine) : Prop where
  indexes : Indexes m
  len_pos : 0 < m.table.len
  brk_lt : m.brk < fuel

variable {fuel : Nat}

theorem Ready.clientBucket_lt (hr : Ready fuel m) (ip : UInt32) (port : UInt16) :
    m.table.clientBucket ip port < m.table.len := Nat.mod_lt _ hr.len_pos

theorem Ready.serverBucket_lt (hr : Ready fuel m) (port : UInt16) :
    m.table.serverBucket port < m.table.len := Nat.mod_lt _ hr.len_pos

theorem Represents.length_lt (h : Represents mem m heads cells) (hr : Ready fuel m) (slot : Slot) :
    (cells slot).length < fuel :=
  Nat.lt_of_le_of_lt (h.length_le hr.indexes slot) hr.brk_lt

theorem Represents.getByClient (h : Represents mem m heads cells) (hr : Ready fuel m) (ip : UInt32)
    (port : UInt16) :
    getTcpSessionByClient fuel mem ip port = .ok (BenkerVpn.getTcpSessionByClient m ip port) := by
  have hbucket : (ip + port.toUInt32).toNat % mem.table.len = m.table.clientBucket ip port := by
    rw [h.len]
    rfl
  have hsearch := searchList_eq (h.forest.chain (.client, m.table.clientBucket ip port))
    (h.live hr.indexes _) (fun s => decide (s.clientIp = ip ∧ s.clientPort = port))
    (h.length_lt hr _)
  rw [getTcpSessionByClient, hbucket, h.clientHead (hr.clientBucket_lt ip port)]
  show searchTcpSessionByClient fuel mem _ ip port = _
  rw [searchTcpSessionByClient, hsearch, h.contents, BenkerVpn.getTcpSessionByClient,
    searchTcpSessionByClient_eq_find]
  simp only [clientKey, Prod.mk.injEq]
  rfl

theorem Represents.getByServer (h : Represents mem m heads cells) (hr : Ready fuel m)
    (port : UInt16) :
    getTcpSessionByServer fuel mem port = .ok (BenkerVpn.getTcpSessionByServer m port) := by
  have hbucket : port.toNat % mem.table.len = m.table.serverBucket port := by
    rw [h.len]
    rfl
  have hsearch := searchList_eq (h.forest.chain (.server, m.table.serverBucket port))
    (h.live hr.indexes _) (fun s => decide (s.serverPort = port)) (h.length_lt hr _)
  rw [getTcpSessionByServer, hbucket, h.serverHead (hr.serverBucket_lt port)]
  show searchTcpSessionByServer fuel mem _ port = _
  rw [searchTcpSessionByServer, hsearch, h.contents, BenkerVpn.getTcpSessionByServer,
    searchTcpSessionByServer_eq_find]
  rfl

/-- The port search probes the same ports. -/
theorem Represents.searchPort (h : Represents mem m heads cells) (hr : Ready fuel m) (count : Int)
    (n : UInt32) : searchPort fuel mem count n = .ok (BenkerVpn.searchPort m count n) := by
  have hport : ∀ n : UInt32, (n % mem.table.modNum.toUInt32 + mem.table.minPort.toUInt32).toUInt16 =
      m.table.probedPort n := by
    intro n
    rw [h.modNum, h.minPort]
    rfl
  induction count, n using BenkerVpn.searchPort.induct m with
  | case1 count n port hnone =>
      rw [Pointers.searchPort, BenkerVpn.searchPort, hport, h.getByServer hr, hnone]
      rfl
  | case2 count n port s hsome hlt =>
      rw [Pointers.searchPort, BenkerVpn.searchPort, hport, h.getByServer hr, hsome, h.modNum]
      simp only [hlt, if_true]
      rfl
  | case3 count n port s hsome hlt ih =>
      rw [Pointers.searchPort, BenkerVpn.searchPort, hport, h.getByServer hr, hsome, h.modNum]
      simp only [hlt, if_false]
      exact ih

/-! ## Adding a session -/

/-- The machine with a new session object. -/
def allocated (m : Machine) (v : TcpSession) : Machine :=
  { m.tick 1 with heap := Function.update m.heap m.brk v, brk := m.brk + 1 }

theorem Represents.nodeCount (h : Represents mem m heads cells) (n : Nat) :
    Represents { mem with nodeCount := n } m heads cells :=
  ⟨h.sessions, h.brk, h.clock, h.len, h.minPort, h.modNum, h.nextNum,
    fun side => by rw [← h.heads_eq side]; cases side <;> rfl, h.forest, h.contents⟩

theorem Represents.allocateSession (h : Represents mem m heads cells) (calloc : Calloc)
    (ip : UInt32) (port q : UInt16) (timeout : Int) :
    Ends (OutOfMemory calloc) (allocateSession calloc mem ip port q timeout) fun r =>
      r.1 = m.brk ∧
        Represents r.2 (allocated m (newSession ip port q (m.clock 0 + timeout))) heads cells := by
  rw [Pointers.allocateSession]
  by_cases hmem : calloc.session mem.brk = true
  · rw [if_pos hmem]
    have hlater := h.later 1
    refine ⟨h.brk, ?_, congrArg (· + 1) h.brk, hlater.clock, h.len, h.minPort, h.modNum, h.nextNum,
      fun side => ?_, h.forest, h.contents⟩
    · intro s
      show Function.update mem.sessions mem.brk _ s =
        if s < m.brk + 1 then some (Function.update m.heap m.brk _ s) else none
      rw [h.brk, h.clock]
      by_cases hs : s = m.brk
      · rw [hs, Function.update_self, Function.update_self, if_pos (Nat.lt_succ_self _)]
      · rw [Function.update_of_ne hs, Function.update_of_ne hs, h.sessions]
        congr 1
        exact propext ⟨Nat.lt_succ_of_lt,
          fun hlt => (Nat.lt_succ_iff_lt_or_eq.1 hlt).resolve_right hs⟩
    · rw [← h.heads_eq side]
      cases side <;> rfl
  · rw [if_neg hmem]
    exact ⟨rfl, Or.inl ⟨_, by simpa using hmem⟩⟩

/-- A session inserted into the list of a bucket. -/
theorem Represents.insert (h : Represents mem m heads cells) (calloc : Calloc) (side : Side)
    (i : Nat) (s : SessionPtr) (hlength : (cells (side, i)).length < fuel) :
    Ends (OutOfMemory calloc) (insertTcpSession calloc fuel mem (heads (side, i)) s) fun r =>
      ∃ heads' cells',
        Represents (r.2.setHead side i r.1)
          (m.setList side i (BenkerVpn.insertTcpSession (lists m side i) s)) heads' cells' ∧
        ∀ slot, slot ≠ (side, i) → cells' slot = cells slot := by
  refine (insertTcpSession_ends calloc (h.forest.chain (side, i)) s hlength).mono ?_
  rintro ⟨p, mem'⟩ ⟨a, nodes, rfl, hc, ht⟩
  refine ⟨Function.update heads (side, i) p,
    Function.update cells (side, i) (cells (side, i) ++ [(a, s)]), ?_,
    fun slot hslot => Function.update_of_ne hslot ..⟩
  have hset := (h.setHead hc ht).nodeCount (mem.nodeCount + 1)
  have hvalues : values (cells (side, i) ++ [(a, s)]) =
      BenkerVpn.insertTcpSession (lists m side i) s := by
    rw [insertTcpSession_eq_append, values, List.map_append]
    exact congrArg (· ++ [s]) (h.contents (side, i))
  rw [hvalues] at hset
  cases side <;> exact hset

/-- `add_tcp_session` creates the same session. -/
theorem Represents.createSession (h : Represents mem m heads cells) (hr : Ready fuel m)
    (calloc : Calloc) (ip : UInt32) (port q : UInt16) (timeout : Int) :
    Ends (OutOfMemory calloc) (createSession calloc fuel mem ip port q timeout) fun r =>
      r.1 = m.brk ∧ Holds r.2 (BenkerVpn.createSession m ip port q timeout) := by
  have hclient : (ip + port.toUInt32).toNat % mem.table.len = m.table.clientBucket ip port := by
    rw [h.len]
    rfl
  have hserver : q.toNat % mem.table.len = m.table.serverBucket q := by
    rw [h.len]
    rfl
  rw [Pointers.createSession, hclient, hserver]
  refine (h.allocateSession calloc ip port q timeout).bind ?_
  rintro ⟨s, mem₁⟩ ⟨rfl, h₁⟩
  refine ends_bind_of_eq (h₁.clientHead (hr.clientBucket_lt ip port)) ?_
  refine (h₁.insert calloc .client _ m.brk (h.length_lt hr _)).bind ?_
  rintro ⟨p, mem₂⟩ ⟨heads₂, cells₂, h₂, hsame⟩
  refine ends_bind_of_eq (h₂.serverHead (hr.serverBucket_lt q)) ?_
  have hlength : (cells₂ (.server, m.table.serverBucket q)).length < fuel := by
    rw [hsame _ fun he => Side.noConfusion (Prod.mk.inj he).1]
    exact h.length_lt hr _
  refine (h₂.insert calloc .server _ m.brk hlength).bind ?_
  rintro ⟨p', mem₃⟩ ⟨heads₃, cells₃, h₃, -⟩
  exact ⟨rfl, heads₃, cells₃, h₃⟩

theorem Represents.addTcpSession (h : Represents mem m heads cells) (hr : Ready fuel m)
    (calloc : Calloc) (count : Int) (ip : UInt32) (port : UInt16) (timeout : Int) :
    Ends (OutOfMemory calloc) (addTcpSession calloc fuel mem count ip port timeout) fun r =>
      r.1 = (BenkerVpn.addTcpSession m count ip port timeout).1 ∧
        Holds r.2 (BenkerVpn.addTcpSession m count ip port timeout).2 := by
  rw [Pointers.addTcpSession, BenkerVpn.addTcpSession]
  refine ends_bind_of_eq (h.getByClient hr ip port) ?_
  cases BenkerVpn.getTcpSessionByClient m ip port with
  | some s => exact ⟨rfl, heads, cells, h⟩
  | none =>
      refine ends_bind_of_eq (h.searchPort hr count mem.table.nextNum) ?_
      rw [h.nextNum]
      rcases BenkerVpn.searchPort m count m.table.nextNum with ⟨_ | q, n⟩
      · exact ⟨rfl, heads, cells, h.setNextNum n⟩
      · have hready : Ready fuel (m.setNextNum n) :=
          ⟨hr.indexes.setNextNum n, hr.len_pos, hr.brk_lt⟩
        refine ((h.setNextNum n).createSession hready calloc ip port q timeout).bind ?_
        rintro ⟨s, mem'⟩ ⟨rfl, hholds⟩
        exact ⟨rfl, hholds⟩

/-! ## Cleaning and printing -/

theorem Represents.deleteExpiredSession (h : Represents mem m heads cells) (hr : Ready fuel m)
    (side : Side) (i : Nat) :
    ∃ p mem', deleteExpiredSession fuel mem (heads (side, i)) = .ok (p, mem') ∧
      Holds (mem'.setHead side i p) ((m.tick (lists m side i).length).setList side i
        (BenkerVpn.deleteExpiredSession m.heap m.clock (lists m side i))) := by
  obtain ⟨p, cells', nodes, heq, ht⟩ := deleteExpiredSession_eq (h.forest.chain (side, i))
    (h.live hr.indexes (side, i)) (h.length_lt hr (side, i))
  have hlength : (cells (side, i)).length = (lists m side i).length := by
    rw [show lists m side i = _ from (h.contents (side, i)).symm, List.length_map]
  have hset := (h.later (cells (side, i)).length).setHead ht.chain ht.touches
  rw [ht.values, h.clock, h.contents, hlength] at hset
  rw [hlength] at heq
  exact ⟨p, _, heq, _, _, hset⟩

/-- Dropping sessions from a list keeps the machine ready. -/
theorem Ready.setList (hr : Ready fuel m) (side : Side) (i : Nat) {l : List SessionPtr}
    (hsub : l.Sublist (lists m side i)) : Ready fuel (m.setList side i l) := by
  have hall : ∀ slot, (slotList (m.setList side i l) slot).Sublist (slotList m slot) := by
    intro slot
    rw [slotList_setList]
    by_cases hslot : slot = (side, i)
    · rw [hslot, Function.update_self]
      exact hsub
    · rw [Function.update_of_ne hslot]
  have hindexes : Indexes (m.setList side i l) :=
    hr.indexes.shrink (by cases side <;> rfl) (by cases side <;> rfl) (by cases side <;> rfl)
      (fun j => hall (.client, j)) fun j => hall (.server, j)
  cases side with
  | client => exact ⟨hindexes, hr.len_pos, hr.brk_lt⟩
  | server => exact ⟨hindexes, hr.len_pos, hr.brk_lt⟩

theorem Ready.tick (hr : Ready fuel m) (n : Nat) : Ready fuel (m.tick n) :=
  ⟨hr.indexes.tick n, hr.len_pos, hr.brk_lt⟩

/-- One round of the cleaning loop on the lists, one list after the other. -/
theorem cleanBucket_eq_setList (m : Machine) (i : Nat) :
    let m₁ := (m.tick (m.table.listClientKey i).length).setList .client i
      (BenkerVpn.deleteExpiredSession m.heap m.clock (m.table.listClientKey i))
    BenkerVpn.cleanBucket m i = (m₁.tick (m.table.listServerKey i).length).setList .server i
      (BenkerVpn.deleteExpiredSession m₁.heap m₁.clock (m.table.listServerKey i)) := by
  simp only [BenkerVpn.cleanBucket, Machine.setList, Machine.tick, Nat.add_assoc]

theorem Ready.cleanBucket (hr : Ready fuel m) (i : Nat) :
    Ready fuel (BenkerVpn.cleanBucket m i) := by
  rw [cleanBucket_eq_setList]
  refine Ready.setList (Ready.tick (Ready.setList (hr.tick _) .client i ?_) _) .server i ?_
  · exact deleteExpiredSession_sublist _ _ _
  · exact deleteExpiredSession_sublist _ _ _

theorem Represents.cleanBucket (h : Represents mem m heads cells) (hr : Ready fuel m) {i : Nat}
    (hi : i < m.table.len) :
    ∃ mem', cleanBucket fuel mem i = .ok mem' ∧ Holds mem' (BenkerVpn.cleanBucket m i) := by
  obtain ⟨p, mem₁, heq₁, heads₁, cells₁, h₁⟩ := h.deleteExpiredSession hr .client i
  have hr₁ := (hr.tick (lists m .client i).length).setList .client i
    (deleteExpiredSession_sublist m.heap m.clock (lists m .client i))
  obtain ⟨p', mem₂, heq₂, h₂⟩ := h₁.deleteExpiredSession hr₁ .server i
  refine ⟨mem₂.setServerHead i p', ?_, ?_⟩
  · rw [Pointers.cleanBucket, h.clientHead hi]
    show Pointers.deleteExpiredSession fuel mem _ >>= _ = _
    rw [heq₁]
    show headAt (mem₁.setClientHead i p).table.listServerKey _ i >>= _ = _
    rw [@Represents.serverHead (mem₁.setClientHead i p) _ _ _ h₁ _ hi]
    show Pointers.deleteExpiredSession fuel (mem₁.setHead .client i p) _ >>= _ = _
    rw [heq₂]
    rfl
  · rw [cleanBucket_eq_setList]
    exact h₂

theorem Represents.cleanExpiredSession (h : Represents mem m heads cells) (hr : Ready fuel m)
    (calloc : Calloc) :
    Ends (OutOfMemory calloc) (cleanExpiredSession fuel mem) fun mem' =>
      Holds mem' (BenkerVpn.cleanExpiredSession m) := by
  rw [Pointers.cleanExpiredSession, BenkerVpn.cleanExpiredSession, h.len]
  refine (Ends.range (fun i mem' => ∃ m', m' = (List.range i).foldl BenkerVpn.cleanBucket m ∧
    Holds mem' m' ∧ Ready fuel m' ∧ m'.table.len = m.table.len)
    ⟨m, rfl, ⟨heads, cells, h⟩, hr, rfl⟩ ?_).mono ?_
  · rintro i hi mem' ⟨m', rfl, ⟨heads', cells', h'⟩, hr', hlen⟩
    obtain ⟨mem₁, heq, hholds⟩ := h'.cleanBucket hr' (i := i) (by rw [hlen]; exact hi)
    rw [heq, List.range_succ, List.foldl_append]
    exact ⟨_, rfl, hholds, hr'.cleanBucket i, hlen⟩
  · rintro mem' ⟨m', rfl, hholds, -, -⟩
    exact hholds

theorem Represents.printSessionHashTable (h : Represents mem m heads cells) (hr : Ready fuel m)
    (calloc : Calloc) :
    Ends (OutOfMemory calloc) (printSessionHashTable fuel mem) fun mem' =>
      Holds mem' (BenkerVpn.printSessionHashTable m) := by
  rw [Pointers.printSessionHashTable, BenkerVpn.printSessionHashTable, h.len]
  refine (Ends.range (fun i mem' => mem' =
    mem.later ((List.range i).map fun i => (m.table.listClientKey i).length).sum)
    (later_zero mem).symm ?_).mono ?_
  · rintro i hi mem' rfl
    have hlater := h.later ((List.range i).map fun i => (m.table.listClientKey i).length).sum
    have hlength : (cells (.client, i)).length = (m.table.listClientKey i).length := by
      rw [show m.table.listClientKey i = _ from (h.contents (.client, i)).symm, List.length_map]
    have hprint := printSessionLinkedList_eq (hlater.forest.chain (.client, i))
      (hlater.live (hr.indexes.tick _) (.client, i)) (h.length_lt hr (.client, i))
    refine ends_bind_of_eq (hlater.clientHead hi) ?_
    rw [hprint, ends_ok, List.range_succ, List.map_append, List.sum_append, List.map_singleton,
      List.sum_singleton, hlength]
    simp only [Memory.later, Nat.add_assoc]
  · rintro mem' rfl
    exact ⟨heads, cells, h.later _⟩

end Represents

end Pointers

end BenkerVpn

import BenkerVpn.Memory.Runs

/-!
# Deleting the table

`delete_hash_table` frees every node, the session objects that stand in the server index, and the
two arrays; it frees nothing twice, since a session stands in one list of that index only
(`Represents.deleteHashTable`). `clean_expired_session` frees the nodes of expired sessions and not
their objects, so an object that has been cleaned out of the server index is no longer reached by
anything that frees objects. These are exactly the objects that a program leaks over the life of a
table (`lifetime_leaks_iff`).
-/

set_option autoImplicit false

namespace BenkerVpn.Pointers

open Library.Buckets Library.Chains Library.Outcomes Library.Runs

/-! ## One list -/

/-- The session objects after those of a list have been freed. -/
def freed (sessions : SessionPtr → Option TcpSession) (l : List SessionPtr) :
    SessionPtr → Option TcpSession :=
  fun s => if s ∈ l then none else sessions s

theorem freed_nil (sessions : SessionPtr → Option TcpSession) : freed sessions [] = sessions := by
  funext t
  exact if_neg (List.not_mem_nil)

theorem freed_freed (sessions : SessionPtr → Option TcpSession) (s : SessionPtr)
    (l : List SessionPtr) : freed (freed sessions [s]) l = freed sessions (s :: l) := by
  funext t
  by_cases ht : t = s
  · simp [freed, ht]
  · simp [freed, ht]

theorem update_none_eq_freed (sessions : SessionPtr → Option TcpSession) (s : SessionPtr) :
    Function.update sessions s none = freed sessions [s] := by
  funext t
  simp [freed, Function.update_apply]

/-- The memory after the given session objects have been freed. -/
def Memory.free (mem : Memory) (l : List SessionPtr) : Memory :=
  { mem with sessions := freed mem.sessions l }

theorem free_nil (mem : Memory) : mem.free [] = mem := by
  rw [Memory.free, freed_nil]

theorem free_free (mem : Memory) (s : SessionPtr) (l : List SessionPtr) :
    (mem.free [s]).free l = mem.free (s :: l) := by
  simp only [Memory.free, freed_freed]

theorem freeSession_eq_free {mem : Memory} {s : SessionPtr} (h : (mem.sessions s).isSome) :
    mem.freeSession s = .ok (mem.free [s]) := by
  obtain ⟨v, hv⟩ := Option.isSome_iff_exists.1 h
  rw [freeSession_eq hv, update_none_eq_freed]
  rfl

/-- `delete_all_session` frees the nodes of a list and, if asked to, the sessions they hold. -/
theorem deleteAllSession_eq {mem : Memory} {p : Option NodePtr} {cells : Cells}
    (hc : Chain mem.nodes p cells) {fuel : Nat} (hfuel : cells.length < fuel) (removeSession : Bool)
    (hlive : removeSession = true →
      (values cells).Nodup ∧ ∀ s ∈ values cells, (mem.sessions s).isSome) :
    ∃ nodes,
      deleteAllSession fuel mem p removeSession =
          .ok ((mem.free (if removeSession then values cells else [])).setNodes nodes) ∧
        Touches mem.nodes nodes cells [] := by
  induction cells generalizing mem p fuel with
  | nil =>
      obtain rfl : p = none := hc
      obtain ⟨fuel, rfl⟩ := Nat.exists_eq_add_of_lt hfuel
      refine ⟨mem.nodes, ?_, Touches.refl _ _⟩
      cases removeSession with
      | true => rfl
      | false => rfl
  | cons x cells ih =>
      obtain ⟨a, s⟩ := x
      obtain ⟨rfl, next, hcell, -⟩ := id hc
      have hrest := Chain.pop hc hcell
      cases fuel with
      | zero => cases hfuel
      | succ fuel =>
          have hfuel' := Nat.lt_of_succ_lt_succ hfuel
          rw [deleteAllSession, node_eq hcell]
          cases removeSession with
          | true =>
              obtain ⟨hnodup, hsome⟩ := hlive rfl
              obtain ⟨hs, hnodup'⟩ := List.nodup_cons.1 hnodup
              have hlive' : ∀ t ∈ values cells, ((mem.free [s]).sessions t).isSome := by
                -- the sessions behind are other ones, which have not been freed
                intro t ht
                have hne : t ≠ s := ne_of_mem_of_not_mem ht hs
                simpa [Memory.free, freed, hne] using hsome t (List.mem_cons_of_mem _ ht)
              obtain ⟨nodes, heq, ht⟩ := @ih
                ((mem.free [s]).setNodes (mem.nodes.erase a)) next hrest fuel hfuel'
                fun _ => ⟨hnodup', hlive'⟩
              refine ⟨nodes, ?_, touches_pop.trans ht (by simp) fun _ => List.mem_cons_of_mem _⟩
              show (mem.freeSession s >>= _) = _
              rw [freeSession_eq_free (hsome s List.mem_cons_self)]
              show ((mem.free [s]).freeNode a >>= _) = _
              rw [@freeNode_eq (mem.free [s]) _ _ hcell]
              refine heq.trans ?_
              simp only [if_true]
              rw [show values ((a, s) :: cells) = s :: values cells from rfl,
                ← free_free mem s (values cells)]
              rfl
          | false =>
              obtain ⟨nodes, heq, ht⟩ := @ih (mem.setNodes (mem.nodes.erase a)) next hrest fuel
                hfuel' fun hfalse => absurd hfalse Bool.false_ne_true
              refine ⟨nodes, ?_, touches_pop.trans ht (by simp) fun _ => List.mem_cons_of_mem _⟩
              show (mem.freeNode a >>= _) = _
              rw [freeNode_eq hcell]
              exact heq

/-! ## The table -/

section Table

variable {mem : Memory} {m : Machine} {heads : Slot → Option NodePtr} {cells : Slot → Cells}
  {fuel : Nat}

/-- The nodes that are left after the buckets below `n` have been deleted. -/
def cellsFrom (cells : Slot → Cells) (n : Nat) : Slot → Cells :=
  fun slot => if slot.2 < n then [] else cells slot

/-- What `delete_hash_table` has done after its first `n` rounds. -/
structure Deleted (mem : Memory) (m : Machine) (heads : Slot → Option NodePtr)
    (cells : Slot → Cells) (n : Nat) (mem' : Memory) : Prop where
  table : mem'.table = mem.table
  sessions : ∀ s, mem'.sessions s =
    if ∃ i < n, s ∈ m.table.listServerKey i then none else mem.sessions s
  forest : ∃ heads', (∀ slot, n ≤ slot.2 → heads' slot = heads slot) ∧
    Forest mem'.nodes heads' (cellsFrom cells n)

theorem cellsFrom_of_le (cells : Slot → Cells) {n : Nat} {slot : Slot} (h : n ≤ slot.2) :
    cellsFrom cells n slot = cells slot := if_neg (Nat.not_lt.2 h)

/-- Round `n` empties bucket `n` of both indexes. -/
theorem cellsFrom_succ (cells : Slot → Cells) (n : Nat) :
    cellsFrom cells (n + 1) = Function.update
      (Function.update (cellsFrom cells n) (.client, n) []) (.server, n) [] := by
  funext ⟨side, i⟩
  have hsame : i ≠ n → cellsFrom cells (n + 1) (side, i) = cellsFrom cells n (side, i) := by
    intro hi
    simp only [cellsFrom]
    congr 1
    exact propext ⟨fun hlt => by omega, fun hlt => by omega⟩
  by_cases hi : i = n
  · subst hi
    have hempty : cellsFrom cells (i + 1) (side, i) = [] := if_pos (Nat.lt_succ_self i)
    rw [hempty]
    cases side with
    | client =>
        rw [Function.update_of_ne fun he => Side.noConfusion (Prod.mk.inj he).1,
          Function.update_self]
    | server => rw [Function.update_self]
  · rw [hsame hi, Function.update_of_ne fun he => hi (Prod.mk.inj he).2,
      Function.update_of_ne fun he => hi (Prod.mk.inj he).2]

theorem Represents.deleteBucket (h : Represents mem m heads cells) (hr : Ready fuel m) {i : Nat}
    (hi : i < m.table.len) {mem' : Memory} (hd : Deleted mem m heads cells i mem') :
    ∃ mem'', deleteBucket fuel mem' i = .ok mem'' ∧ Deleted mem m heads cells (i + 1) mem'' := by
  obtain ⟨heads', hsame, hforest⟩ := hd.forest
  have hclient : Chain mem'.nodes (heads (.client, i)) (cells (.client, i)) := by
    rw [← hsame (.client, i) (Nat.le_refl i), ← cellsFrom_of_le cells (Nat.le_refl i)]
    exact hforest.chain (.client, i)
  obtain ⟨nodes₁, heq₁, ht₁⟩ := deleteAllSession_eq hclient (h.length_lt hr _) false
    fun hfalse => absurd hfalse Bool.false_ne_true
  rw [if_neg Bool.false_ne_true, free_nil] at heq₁
  have hforest₁ := hforest.update (i := (.client, i)) (chain_nil nodes₁)
    (by rw [cellsFrom_of_le cells (Nat.le_refl i)]; exact ht₁)
  have hne : ((Side.server, i) : Slot) ≠ (.client, i) := fun he =>
    Side.noConfusion (Prod.mk.inj he).1
  have hserver : Chain nodes₁ (heads (.server, i)) (cells (.server, i)) := by
    have hchain := hforest₁.chain (.server, i)
    rwa [Function.update_of_ne hne, Function.update_of_ne hne,
      hsame (.server, i) (Nat.le_refl i), cellsFrom_of_le cells (Nat.le_refl i)] at hchain
  have hvalues : values (cells (.server, i)) = m.table.listServerKey i := h.contents (.server, i)
  -- the sessions of this list stand in no list that has been deleted
  have hlive : (values (cells (.server, i))).Nodup ∧
      ∀ s ∈ values (cells (.server, i)), ((mem'.setNodes nodes₁).sessions s).isSome := by
    rw [hvalues]
    refine ⟨hr.indexes.server.nodup i, fun s hs => ?_⟩
    show (mem'.sessions s).isSome
    have hother : ¬ ∃ j < i, s ∈ m.table.listServerKey j := by
      rintro ⟨j, hj, hmem⟩
      have hj' := hr.indexes.server.placed j s hmem
      rw [← hr.indexes.server.placed i s hs] at hj'
      omega
    rw [hd.sessions, if_neg hother, h.session (hr.indexes.serverAllocated s ⟨i, hs⟩)]
    rfl
  obtain ⟨nodes₂, heq₂, ht₂⟩ := @deleteAllSession_eq (mem'.setNodes nodes₁) _ _ hserver _
    (h.length_lt hr _) true fun _ => hlive
  have hforest₂ := hforest₁.update (i := (.server, i)) (chain_nil nodes₂)
    (by rw [Function.update_of_ne hne, cellsFrom_of_le cells (Nat.le_refl i)]; exact ht₂)
  rw [← cellsFrom_succ] at hforest₂
  rw [if_pos rfl, hvalues] at heq₂
  refine ⟨((mem'.setNodes nodes₁).free (m.table.listServerKey i)).setNodes nodes₂, ?_, hd.table,
    fun s => ?_, _, fun slot hslot => ?_, hforest₂⟩
  · rw [Pointers.deleteBucket, hd.table, h.clientHead hi]
    show (Pointers.deleteAllSession fuel mem' _ false >>= _) = _
    rw [heq₁]
    show (headAt mem'.table.listServerKey mem'.table.len i >>= _) = _
    rw [hd.table, h.serverHead hi]
    exact heq₂
  · show freed mem'.sessions (m.table.listServerKey i) s = _
    rw [freed, hd.sessions]
    by_cases hs : s ∈ m.table.listServerKey i
    · rw [if_pos hs, if_pos ⟨i, Nat.lt_succ_self i, hs⟩]
    · rw [if_neg hs]
      congr 1
      apply propext
      constructor
      · rintro ⟨j, hj, hmem⟩
        exact ⟨j, Nat.lt_succ_of_lt hj, hmem⟩
      · rintro ⟨j, hj, hmem⟩
        rcases Nat.lt_succ_iff_lt_or_eq.1 hj with hj | rfl
        · exact ⟨j, hj, hmem⟩
        · exact absurd hmem hs
  · have hslot' : ∀ side : Side, slot ≠ (side, i) := by
      rintro side rfl
      exact absurd hslot (Nat.not_succ_le_self i)
    rw [Function.update_of_ne (hslot' .server), Function.update_of_ne (hslot' .client)]
    exact hsame slot (Nat.le_of_succ_le hslot)

/-- `delete_hash_table` frees every node, the arrays, and the sessions of the server index. -/
theorem Represents.deleteHashTable (h : Represents mem m heads cells) (hr : Ready fuel m)
    (calloc : Calloc) :
    Ends (OutOfMemory calloc) (deleteHashTable fuel mem) fun mem' =>
      (∀ a, mem'.nodes a = none) ∧ mem'.table.listClientKey = none ∧
        mem'.table.listServerKey = none ∧
        ∀ s, (mem'.sessions s).isSome ↔ s < m.brk ∧ ¬ InServer m s := by
  have hinit : Deleted mem m heads cells 0 mem := by
    refine ⟨rfl, fun s => (if_neg ?_).symm, heads, fun _ _ => rfl, ?_⟩
    · rintro ⟨j, hj, -⟩
      exact Nat.not_lt_zero j hj
    · rw [show cellsFrom cells 0 = cells from
        funext fun slot => cellsFrom_of_le cells (Nat.zero_le _)]
      exact h.forest
  rw [Pointers.deleteHashTable, h.len]
  refine (Ends.range (Deleted mem m heads cells) hinit fun i hi mem' hd => ?_).bind ?_
  · obtain ⟨mem'', heq, hd'⟩ := h.deleteBucket hr hi hd
    rw [heq]
    exact hd'
  · intro mem' hd
    obtain ⟨heads', -, hforest⟩ := hd.forest
    refine ends_bind_of_eq (a := fun i => heads (.client, i)) ?_
      (ends_bind_of_eq (a := fun i => heads (.server, i)) ?_ ⟨?_, rfl, rfl, fun s => ?_⟩)
    · rw [hd.table, show mem.table.listClientKey = _ from h.heads_eq .client]
      rfl
    · rw [hd.table, show mem.table.listServerKey = _ from h.heads_eq .server]
      rfl
    · -- no bucket is left
      intro a
      refine hforest.free fun slot hmem => ?_
      by_cases hslot : slot.2 < m.table.len
      · rw [cellsFrom, if_pos hslot] at hmem
        cases hmem
      · rw [cellsFrom, if_neg hslot] at hmem
        obtain ⟨⟨b, s⟩, hmem, -⟩ := List.mem_map.1 hmem
        have hs : s ∈ slotList m slot := by
          rw [← h.contents]
          exact List.mem_map.2 ⟨(b, s), hmem, rfl⟩
        exact hslot ((hr.indexes.housed hr.len_pos).bucket_lt slot.1 hs)
    · show (mem'.sessions s).isSome ↔ _
      rw [hd.sessions, h.sessions]
      have hiff : (∃ i < m.table.len, s ∈ m.table.listServerKey i) ↔ InServer m s := by
        constructor
        · rintro ⟨i, -, hs⟩
          exact ⟨i, hs⟩
        · rintro ⟨i, hs⟩
          exact ⟨i, (hr.indexes.housed hr.len_pos).bucket_lt .server hs, hs⟩
      by_cases hs : InServer m s
      · rw [if_pos (hiff.2 hs)]
        exact iff_of_false (by simp) fun hleft => hleft.2 hs
      · rw [if_neg fun hleft => hs (hiff.1 hleft)]
        by_cases hlt : s < m.brk
        · rw [if_pos hlt]
          exact iff_of_true rfl ⟨hlt, hs⟩
        · rw [if_neg hlt]
          exact iff_of_false (by simp) fun hleft => hlt hleft.1

end Table

/-! ## The life of a table -/

/-- A table that is used and then deleted. -/
def lifetime (calloc : Calloc) (fuel : Nat) (mem : Memory) (ops : List Operation) :
    Except Fault Memory := do
  let (_, mem) ← run calloc fuel mem ops
  deleteHashTable fuel mem

/-- A session object exists that the server index does not hold. -/
def Lost (s : SessionPtr) (m : Machine) : Prop := s < m.brk ∧ ¬ InServer m s

/-- A cleaning call takes the session out of the server index. -/
def CleanedOut (s : SessionPtr) (m : Machine) (op : Operation) : Prop :=
  op = .call .clean ∧ InServer m s ∧ ¬ InServer (performOn m op) s

section Lost

variable {m : Machine} {s : SessionPtr}

/-- No operation but cleaning loses a session. -/
theorem not_lost_performOn {op : Operation} (hop : op ≠ .call .clean)
    (h : ¬ Lost s m) : ¬ Lost s (performOn m op) := by
  cases op with
  | print => exact h
  | call c =>
      refine perform_preserves (P := fun m' => ¬ Lost s m') c ?_ ?_ ?_ ?_ ?_ h
      · exact fun _ _ h => h
      · exact fun _ _ h => h
      · rintro m' ip port q timeout h - - - ⟨hlt, hout⟩
        -- the new session is stored, and the others are as they were
        rw [createSession_inServer_iff, not_or] at hout
        exact h ⟨(Nat.lt_succ_iff_lt_or_eq.1 hlt).resolve_right hout.2, hout.1⟩
      · exact fun _ _ _ h _ => h
      · rintro rfl
        exact absurd rfl hop

/-- A lost session stays lost: only new objects are inserted. -/
theorem Lost.performOn (h : Lost s m) (op : Operation) : Lost s (performOn m op) := by
  cases op with
  | print => exact h
  | call c =>
      refine perform_preserves (P := Lost s) c ?_ ?_ ?_ ?_ ?_ h
      · exact fun _ _ h => h
      · exact fun _ _ h => h
      · rintro m' ip port q timeout ⟨hlt, hout⟩ - - -
        refine ⟨Nat.lt_succ_of_lt hlt, ?_⟩
        rw [createSession_inServer_iff]
        rintro (hin | rfl)
        · exact hout hin
        · exact lt_irrefl _ hlt
      · exact fun _ _ _ h _ => h
      · rintro - ⟨hlt, hout⟩
        rw [Lost, cleanExpiredSession_brk]
        exact ⟨hlt, fun hin => hout (inSide_of_clean .server hin)⟩

theorem lost_exec (h : Lost s m) (ops : List Operation) : Lost s (exec Pointers.performOn m ops) :=
  invariant_of_mem (Lost s) (fun _ op _ h => h.performOn op) h

theorem len_exec (m : Machine) (ops : List Operation) :
    (exec Pointers.performOn m ops).table.len = m.table.len :=
  invariant_of_mem (fun m' => m'.table.len = m.table.len)
    (fun m' op _ h => (len_performOn m' op).trans h) rfl

theorem brk_exec_le (m : Machine) (ops : List Operation) :
    (exec Pointers.performOn m ops).brk ≤ m.brk + ops.length := by
  induction ops generalizing m with
  | nil => exact Nat.le_refl _
  | cons op ops ih =>
      refine Nat.le_trans (ih _) ?_
      rw [List.length_cons, Nat.add_comm ops.length, ← Nat.add_assoc]
      exact Nat.add_le_add_right (brk_performOn_le m op) _

theorem indexes_exec (hm : Indexes m) (ops : List Operation) :
    Indexes (exec Pointers.performOn m ops) :=
  invariant_of_mem Indexes (fun _ op _ h => indexes_performOn h op) hm

/-- A session is lost in the end exactly if a cleaning call took it out of the server index. -/
theorem lost_exec_iff (hm : Indexes m) (hs : ¬ Lost s m) (ops : List Operation) :
    Lost s (exec Pointers.performOn m ops) ↔ Occurs Pointers.performOn [CleanedOut s] m ops := by
  constructor
  · intro hlost
    obtain ⟨pre, op, post, rfl, ⟨hbefore, hafter⟩, -⟩ := occurs_of_exec hs hlost
    refine ⟨pre, op, post, rfl, ?_, trivial⟩
    have hclean : op = .call .clean := by
      by_contra hop
      exact not_lost_performOn hop hbefore hafter
    have hlt : s < (exec Pointers.performOn m pre).brk := by
      have hlt := hafter.1
      rw [hclean] at hlt
      rwa [← cleanExpiredSession_brk]
    refine ⟨hclean, ?_, hafter.2⟩
    by_contra hout
    exact hbefore ⟨hlt, hout⟩
  · rintro ⟨pre, op, post, rfl, ⟨hop, hin, hout⟩, -⟩
    rw [exec_append, exec_cons]
    refine lost_exec ⟨?_, hout⟩ post
    have hlt := (indexes_exec hm pre).serverAllocated s hin
    rw [hop]
    show s < (BenkerVpn.cleanExpiredSession _).brk
    rwa [cleanExpiredSession_brk]

end Lost

/-- A table that is deleted leaks exactly the session objects that a cleaning call took out of the
server index. Every node and both arrays are freed, and nothing is freed twice. -/
theorem lifetime_leaks_iff (pool : PortPool) (clock : Nat → Int) (calloc : Calloc)
    (ops : List Operation) {fuel : Nat} (hfuel : ops.length < fuel) :
    Ends (OutOfMemory calloc) (lifetime calloc fuel (initMemory pool clock) ops) fun mem =>
      (∀ a, mem.nodes a = none) ∧ mem.table.listClientKey = none ∧
        mem.table.listServerKey = none ∧
        ∀ s, (mem.sessions s).isSome ↔
          Occurs performOn [CleanedOut s] (freshMachine pool clock) ops := by
  have hm := (freshMachine_fresh pool clock).indexes
  have hbrk := brk_exec_le (freshMachine pool clock) ops
  refine (run_ends calloc (initMemory_holds pool clock) hm pool.numEntry_pos
    (Nat.le_trans (Nat.zero_add _).le hfuel.le)).bind ?_
  rintro ⟨rs, mem⟩ ⟨-, heads, cells, h⟩
  have hready : Ready fuel (exec performOn (freshMachine pool clock) ops) := by
    refine ⟨indexes_exec hm ops, ?_, ?_⟩
    · rw [len_exec]
      exact pool.numEntry_pos
    · exact Nat.lt_of_le_of_lt (Nat.le_trans hbrk (Nat.zero_add _).le) hfuel
  refine (h.deleteHashTable hready calloc).mono ?_
  rintro mem' ⟨hnodes, hclient, hserver, hsessions⟩
  refine ⟨hnodes, hclient, hserver, fun s => (hsessions s).trans ?_⟩
  -- no object exists in the fresh machine
  exact lost_exec_iff hm (fun hlost => Nat.not_lt_zero s hlost.1) ops

/-- The session that is cleaned out is leaked, the other one is freed. -/
theorem lifetime_leaks_first :
    (lifetime firstFree 4 (initMemory smallPool fun k => 100 * k) addCleanAdd).toOption.map
        (fun mem => ((mem.sessions 0).isSome, (mem.sessions 1).isSome)) = some (true, false) ∧
    Ends (OutOfMemory firstFree)
      (lifetime firstFree 4 (initMemory smallPool fun k => 100 * k) addCleanAdd) fun mem =>
        (∀ a, mem.nodes a = none) ∧ mem.table.listClientKey = none ∧
          mem.table.listServerKey = none ∧
          ∀ s, (mem.sessions s).isSome ↔ Occurs performOn [CleanedOut s]
            (freshMachine smallPool fun k => 100 * k) addCleanAdd :=
  ⟨by decide +kernel, lifetime_leaks_iff smallPool _ firstFree addCleanAdd (by decide)⟩

end BenkerVpn.Pointers

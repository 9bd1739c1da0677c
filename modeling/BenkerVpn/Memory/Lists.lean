import BenkerVpn.Library.Outcomes
import BenkerVpn.Model.SessionMemory
import BenkerVpn.Session.Clean

/-!
# Linked lists in memory

What each function on a linked list of `Pointers` does to a chain of nodes: the searches find what a
search of the list finds (`searchList_eq`), `insert_tcp_session` links a new node behind the last
one (`insertTcpSession_ends`), and `delete_expired_session` keeps the nodes that the same function
on lists keeps (`deleteExpiredSession_eq`). The bound on the rounds has to exceed the length of
the list.
-/

set_option autoImplicit false

namespace BenkerVpn.Pointers

open Library.Chains Library.Outcomes

/-- The only reason for which an operation may fail: a `calloc` that returned `NULL`. -/
def OutOfMemory (calloc : Calloc) (fault : Fault) : Prop :=
  fault = .outOfMemory ∧
    ((∃ n, calloc.session n = false) ∨ ∃ n nodes, calloc.node n nodes = none)

/-- The nodes of a list, with their addresses. -/
abbrev Cells := List (NodePtr × SessionPtr)

/-- The sessions of a list are in use and hold what the heap says. -/
def Live (mem : Memory) (heap : SessionPtr → TcpSession) (cells : Cells) : Prop :=
  ∀ s ∈ values cells, mem.sessions s = some (heap s)

section Accesses

variable {mem : Memory}

theorem node_eq {p : NodePtr} {c : SessionLinkedList} (h : mem.nodes p = some c) :
    mem.node p = .ok c := by
  rw [Memory.node, h]
  rfl

theorem session_eq {s : SessionPtr} {v : TcpSession} (h : mem.sessions s = some v) :
    mem.session s = .ok v := by
  rw [Memory.session, h]
  rfl

theorem setNext_eq {p : NodePtr} {c : SessionLinkedList} (h : mem.nodes p = some c)
    (next : Option NodePtr) :
    mem.setNext p next = .ok { mem with nodes := mem.nodes.write p ⟨c.value, next⟩ } := by
  rw [Memory.setNext, node_eq h]
  rfl

theorem freeNode_eq {p : NodePtr} {c : SessionLinkedList} (h : mem.nodes p = some c) :
    mem.freeNode p = .ok { mem with nodes := mem.nodes.erase p } := by
  rw [Memory.freeNode, node_eq h]
  rfl

theorem freeSession_eq {s : SessionPtr} {v : TcpSession} (h : mem.sessions s = some v) :
    mem.freeSession s =
      .ok { mem with sessions := Function.update mem.sessions s none } := by
  rw [Memory.freeSession, session_eq h]
  rfl

theorem updateSession_eq {s : SessionPtr} {v : TcpSession} (h : mem.sessions s = some v)
    (f : TcpSession → TcpSession) :
    mem.updateSession s f =
      .ok { mem with sessions := Function.update mem.sessions s (some (f v)) } := by
  rw [Memory.updateSession, session_eq h]
  rfl

theorem sessionExpired_eq {heap : SessionPtr → TcpSession} {s : SessionPtr}
    (h : mem.sessions s = some (heap s)) :
    sessionExpired mem s = .ok (expiredAt heap (mem.clock 0) s, mem.tick) := by
  rw [sessionExpired, session_eq h]
  rfl

theorem headAt_eq {heads : Nat → Option NodePtr} {len i : Nat} (hi : i < len) :
    headAt (some heads) len i = .ok (heads i) := by
  show (if i < len then _ else _) = _
  rw [if_pos hi]
  rfl

end Accesses

/-! ## Searching -/

/-- The search finds the first session of the list that is wanted. -/
theorem searchList_eq {mem : Memory} {heap : SessionPtr → TcpSession} {p : Option NodePtr}
    {cells : Cells} (hc : Chain mem.nodes p cells) (hlive : Live mem heap cells)
    (found : TcpSession → Bool) {fuel : Nat} (hfuel : cells.length < fuel) :
    searchList mem found fuel p = .ok ((values cells).find? fun s => found (heap s)) := by
  induction cells generalizing p fuel with
  | nil =>
      obtain rfl : p = none := hc
      obtain ⟨fuel, rfl⟩ := Nat.exists_eq_add_of_lt hfuel
      rfl
  | cons x cells ih =>
      obtain ⟨a, s⟩ := x
      obtain ⟨rfl, next, hcell, hrest⟩ := hc
      cases fuel with
      | zero => cases hfuel
      | succ fuel =>
          have hrec := ih hrest (fun t ht => hlive t (List.mem_cons_of_mem _ ht))
            (Nat.lt_of_succ_lt_succ hfuel)
          rw [searchList, node_eq hcell]
          show mem.session s >>= _ = _
          rw [session_eq (hlive s List.mem_cons_self)]
          show (if found (heap s) then _ else searchList mem found fuel next) =
            .ok (List.find? _ (s :: values cells))
          rw [hrec, List.find?_cons]
          cases found (heap s) with
          | true => rfl
          | false => rfl

/-! ## Inserting -/

theorem lastNode_eq {mem : Memory} {p : Option NodePtr} {xs : Cells} {b : NodePtr} {s : SessionPtr}
    (hc : Chain mem.nodes p (xs ++ [(b, s)])) {fuel : Nat} (hfuel : xs.length < fuel) {a : NodePtr}
    (hp : p = some a) : lastNode mem fuel a = .ok b := by
  subst hp
  induction xs generalizing a fuel with
  | nil =>
      obtain ⟨hab, next, hcell, rfl⟩ := hc
      obtain rfl := Option.some.inj hab
      obtain ⟨fuel, rfl⟩ := Nat.exists_eq_add_of_lt hfuel
      rw [lastNode, node_eq hcell]
      rfl
  | cons x xs ih =>
      obtain ⟨c, t⟩ := x
      obtain ⟨hac, next, hcell, hrest⟩ := hc
      obtain rfl := Option.some.inj hac
      cases fuel with
      | zero => cases hfuel
      | succ fuel =>
          -- the node is not the last one, so its `next` is not `NULL`
          cases next with
          | none =>
              obtain ⟨r, hxs, hlast⟩ := segment_append.1 hrest
              cases xs with
              | nil =>
                  obtain rfl : none = r := hxs
                  cases hlast.1
              | cons y ys => cases hxs.1
          | some next =>
              rw [lastNode, node_eq hcell]
              exact ih (Nat.lt_of_succ_lt_succ hfuel) hrest

theorem newNode_ends (calloc : Calloc) (mem : Memory) (s : SessionPtr) :
    Ends (OutOfMemory calloc) (newNode calloc mem s) fun r =>
      ∃ a, mem.nodes a = none ∧
        r = (a, { mem with
          nodes := mem.nodes.write a ⟨s, none⟩
          nodeCount := mem.nodeCount + 1 }) := by
  rw [newNode]
  cases hnode : calloc.node mem.nodeCount mem.nodes with
  | none => exact ⟨rfl, Or.inr ⟨_, _, hnode⟩⟩
  | some a => exact ⟨a, calloc.node_free _ _ _ hnode, rfl⟩

/-- A new node is linked behind the last one. -/
theorem insertTcpSession_ends (calloc : Calloc) {mem : Memory} {p : Option NodePtr} {cells : Cells}
    (hc : Chain mem.nodes p cells) (s : SessionPtr) {fuel : Nat} (hfuel : cells.length < fuel) :
    Ends (OutOfMemory calloc) (insertTcpSession calloc fuel mem p s) fun r =>
      ∃ a nodes, r.2 = { mem with nodes := nodes, nodeCount := mem.nodeCount + 1 } ∧
        Chain nodes r.1 (cells ++ [(a, s)]) ∧
        Touches mem.nodes nodes cells (cells ++ [(a, s)]) := by
  cases p with
  | none =>
      obtain rfl : cells = [] := Chain.unique hc rfl
      refine (newNode_ends calloc mem s).bind ?_
      rintro r ⟨a, ha, rfl⟩
      exact ⟨a, _, rfl, Chain.single (write_self ..), touches_single ha⟩
  | some head =>
      rcases List.eq_nil_or_concat' cells with rfl | ⟨xs, ⟨b, t⟩, rfl⟩
      · cases hc
      · rw [List.length_append] at hfuel
        refine ends_bind_of_eq (lastNode_eq hc (by simpa using Nat.lt_of_succ_lt hfuel) rfl) ?_
        refine (newNode_ends calloc mem s).bind ?_
        rintro r ⟨a, ha, rfl⟩
        obtain ⟨next, hcell⟩ := hc.lookup (a := b) (v := t) (by simp)
        have hne : b ≠ a := by
          rintro rfl
          rw [ha] at hcell
          cases hcell
        have hwritten : (mem.nodes.write a ⟨s, none⟩) b = some ⟨t, next⟩ := by
          rw [write_of_ne _ _ hne, hcell]
        refine ends_bind_of_eq (setNext_eq hwritten (some a)) ?_
        exact ⟨a, _, rfl, Chain.link hc ha, touches_link ha⟩

/-! ## Reading the clock -/

/-- The memory after `n` calls of `time(NULL)`. -/
def Memory.later (mem : Memory) (n : Nat) : Memory :=
  { mem with clock := fun k => mem.clock (n + k) }

/-- The memory with other nodes. -/
def Memory.setNodes (mem : Memory) (nodes : Heap SessionPtr) : Memory := { mem with nodes := nodes }

theorem later_zero (mem : Memory) : mem.later 0 = mem := by
  simp only [Memory.later, Nat.zero_add]

theorem tick_later (mem : Memory) (n : Nat) : mem.tick.later n = mem.later (n + 1) := by
  simp only [Memory.later, Memory.tick, ← Nat.add_assoc, Nat.add_comm 1 n]

theorem tick_clock (mem : Memory) : mem.tick.clock = fun k => mem.clock (k + 1) := by
  simp only [Memory.tick, Nat.add_comm 1]

/-- Printing reads every session of the list. -/
theorem printSessionLinkedList_eq {mem : Memory} {heap : SessionPtr → TcpSession}
    {p : Option NodePtr} {cells : Cells} (hc : Chain mem.nodes p cells)
    (hlive : Live mem heap cells) {fuel : Nat} (hfuel : cells.length < fuel) :
    printSessionLinkedList fuel mem p = .ok (mem.later cells.length) := by
  induction cells generalizing mem p fuel with
  | nil =>
      obtain rfl : p = none := hc
      obtain ⟨fuel, rfl⟩ := Nat.exists_eq_add_of_lt hfuel
      rw [List.length_nil, later_zero]
      rfl
  | cons x cells ih =>
      obtain ⟨a, s⟩ := x
      obtain ⟨rfl, next, hcell, hrest⟩ := hc
      cases fuel with
      | zero => cases hfuel
      | succ fuel =>
          have hnext : Chain mem.tick.nodes next cells := hrest
          have hrec := ih hnext (fun t ht => hlive t (List.mem_cons_of_mem _ ht))
            (Nat.lt_of_succ_lt_succ hfuel)
          rw [printSessionLinkedList, node_eq hcell]
          show sessionExpired mem s >>= _ = _
          rw [sessionExpired_eq (hlive s List.mem_cons_self)]
          show printSessionLinkedList fuel mem.tick next = _
          rw [hrec, tick_later, List.length_cons]

/-! ## Deleting expired sessions -/

/-- What is left of a list of nodes after an operation that only deletes: the nodes that hold the
given sessions. -/
structure Trimmed (h h' : Heap SessionPtr) (p : Option NodePtr) (cells cells' : Cells)
    (left : List SessionPtr) : Prop where
  chain : Chain h' p cells'
  sublist : cells'.Sublist cells
  values : values cells' = left
  touches : Touches h h' cells cells'

theorem Trimmed.addresses_subset {h h' : Heap SessionPtr} {p : Option NodePtr}
    {cells cells' : Cells} {left : List SessionPtr} (ht : Trimmed h h' p cells cells' left) :
    ∀ a ∈ addresses cells', a ∈ addresses cells :=
  fun _ ha => (ht.sublist.map Prod.fst).subset ha

theorem Trimmed.after {h₁ h₂ h₃ : Heap SessionPtr} {p q : Option NodePtr} {xs ys zs : Cells}
    {l l' : List SessionPtr} (h : Trimmed h₁ h₂ p xs ys l) (h' : Trimmed h₂ h₃ q ys zs l') :
    Trimmed h₁ h₃ q xs zs l' :=
  ⟨h'.chain, h'.sublist.trans h.sublist, h'.values,
    h.touches.trans h'.touches h'.addresses_subset h.addresses_subset⟩

section Loop

variable {mem : Memory} {heap : SessionPtr → TcpSession} {a b : NodePtr} {s w : SessionPtr}
  {next : Option NodePtr} (fuel : Nat)

theorem deleteExpiredLoop_end (hb : mem.nodes b = some ⟨w, none⟩) :
    deleteExpiredLoop (fuel + 1) mem b = .ok mem := by
  rw [deleteExpiredLoop, node_eq hb]
  rfl

/-- An expired node is unlinked and freed, and the loop stays where it is. -/
theorem deleteExpiredLoop_unlink (hb : mem.nodes b = some ⟨w, some a⟩)
    (ha : mem.nodes a = some ⟨s, next⟩) (hne : a ≠ b) (hs : mem.sessions s = some (heap s))
    (hexp : expiredAt heap (mem.clock 0) s = true) :
    deleteExpiredLoop (fuel + 1) mem b =
      deleteExpiredLoop fuel (mem.tick.setNodes ((mem.nodes.write b ⟨w, next⟩).erase a)) b := by
  rw [deleteExpiredLoop, node_eq hb]
  show (mem.node a >>= _) = _
  rw [node_eq ha]
  show (sessionExpired mem s >>= _) = _
  rw [sessionExpired_eq hs, hexp]
  show (mem.tick.setNext b next >>= _) = _
  rw [@setNext_eq mem.tick _ _ hb]
  show (Memory.freeNode _ a >>= _) = _
  rw [freeNode_eq (c := ⟨s, next⟩) (by rw [← ha]; exact write_of_ne _ _ hne)]
  rfl

/-- A node that is not expired stays, and the loop goes on from it. -/
theorem deleteExpiredLoop_pass (hb : mem.nodes b = some ⟨w, some a⟩)
    (ha : mem.nodes a = some ⟨s, next⟩) (hs : mem.sessions s = some (heap s))
    (hexp : expiredAt heap (mem.clock 0) s = false) :
    deleteExpiredLoop (fuel + 1) mem b = deleteExpiredLoop fuel mem.tick a := by
  rw [deleteExpiredLoop, node_eq hb]
  show (mem.node a >>= _) = _
  rw [node_eq ha]
  show (sessionExpired mem s >>= _) = _
  rw [sessionExpired_eq hs, hexp]
  rfl

end Loop

/-- The loop over the nodes behind `b` keeps those that are judged unexpired. The nodes `xs` before
it have been judged already. -/
theorem deleteExpiredLoop_eq {heap : SessionPtr → TcpSession} {p : Option NodePtr} {rest : Cells}
    {mem : Memory} {xs : Cells} {b : NodePtr} {w : SessionPtr}
    (hc : Chain mem.nodes p (xs ++ (b, w) :: rest)) (hlive : Live mem heap rest) {fuel : Nat}
    (hfuel : rest.length < fuel) :
    ∃ rest' nodes,
      deleteExpiredLoop fuel mem b = .ok ((mem.later rest.length).setNodes nodes) ∧
        Trimmed mem.nodes nodes p (xs ++ (b, w) :: rest) (xs ++ (b, w) :: rest')
          (values xs ++ w :: deleteExpiredBehind heap mem.clock (values rest)) := by
  induction rest generalizing mem xs b w fuel with
  | nil =>
      obtain ⟨r, -, -, next, hcell, rfl⟩ := segment_append.1 hc
      obtain ⟨fuel, rfl⟩ := Nat.exists_eq_add_of_lt hfuel
      refine ⟨[], mem.nodes, ?_, hc, List.Sublist.refl _, ?_, Touches.refl _ _⟩
      · rw [deleteExpiredLoop_end _ hcell, List.length_nil, later_zero]
        rfl
      · simp [deleteExpiredBehind]
  | cons x rest ih =>
      obtain ⟨a, s⟩ := x
      obtain ⟨r, -, -, next', hb, hbehind⟩ := segment_append.1 hc
      obtain ⟨rfl, next, ha, -⟩ := hbehind
      have hs : mem.sessions s = some (heap s) := hlive s List.mem_cons_self
      have hrest : Live mem heap rest := fun t ht => hlive t (List.mem_cons_of_mem _ ht)
      cases fuel with
      | zero => cases hfuel
      | succ fuel =>
          have hfuel' := Nat.lt_of_succ_lt_succ hfuel
          rw [List.length_cons, ← tick_later,
            show values ((a, s) :: rest) = s :: values rest from rfl, deleteExpiredBehind,
            ← tick_clock]
          cases hexp : expiredAt heap (mem.clock 0) s with
          | true =>
              have hne : a ≠ b := by
                have hnodup := hc.nodup
                simp only [addresses, List.map_append, List.map_cons, List.nodup_append,
                  List.nodup_cons, List.mem_cons, not_or] at hnodup
                exact fun heq => hnodup.2.1.1.1 heq.symm
              rw [deleteExpiredLoop_unlink fuel hb ha hne hs hexp]
              have htrim : Trimmed mem.nodes ((mem.nodes.write b ⟨w, next⟩).erase a) p
                  (xs ++ (b, w) :: (a, s) :: rest) (xs ++ (b, w) :: rest)
                  (values (xs ++ (b, w) :: rest)) :=
                ⟨Chain.unlink hc ha, by simp, rfl, touches_unlink next⟩
              obtain ⟨rest', nodes, heq, hrec⟩ := @ih
                (mem.tick.setNodes ((mem.nodes.write b ⟨w, next⟩).erase a)) xs b w
                htrim.chain hrest fuel hfuel'
              exact ⟨rest', nodes, heq, htrim.after hrec⟩
          | false =>
              rw [deleteExpiredLoop_pass fuel hb ha hs hexp]
              -- the nodes judged are those before it and the node itself
              have hassoc : ∀ zs : Cells, xs ++ (b, w) :: (a, s) :: zs =
                  (xs ++ [(b, w)]) ++ (a, s) :: zs := by simp
              rw [hassoc] at hc
              obtain ⟨rest', nodes, heq, hrec⟩ := @ih mem.tick _ _ _ hc hrest fuel hfuel'
              have hvalues : ∀ l : List SessionPtr,
                  values (xs ++ [(b, w)]) ++ l = values xs ++ w :: l := by simp
              rw [hvalues] at hrec
              refine ⟨(a, s) :: rest', nodes, heq, ?_⟩
              rw [hassoc, hassoc]
              exact hrec

/-- `delete_expired_session` keeps the nodes that the function on lists keeps, and frees the
others. -/
theorem deleteExpiredSession_eq {heap : SessionPtr → TcpSession} {p : Option NodePtr}
    {cells : Cells} {mem : Memory} (hc : Chain mem.nodes p cells) (hlive : Live mem heap cells)
    {fuel : Nat} (hfuel : cells.length < fuel) :
    ∃ p' cells' nodes,
      deleteExpiredSession fuel mem p = .ok (p', (mem.later cells.length).setNodes nodes) ∧
        Trimmed mem.nodes nodes p' cells cells'
          (BenkerVpn.deleteExpiredSession heap mem.clock (values cells)) := by
  cases cells with
  | nil =>
      obtain rfl : p = none := hc
      refine ⟨none, [], mem.nodes, ?_, rfl, List.Sublist.refl _, rfl, Touches.refl _ _⟩
      rw [List.length_nil, later_zero]
      rfl
  | cons x rest =>
      obtain ⟨b, w⟩ := x
      obtain ⟨rfl, -⟩ := id hc
      have hrest : Live mem heap rest := fun t ht => hlive t (List.mem_cons_of_mem _ ht)
      obtain ⟨rest', nodes, heq, htrim⟩ := @deleteExpiredLoop_eq heap (some b) rest mem [] b w hc
        hrest fuel (Nat.lt_of_succ_lt hfuel)
      obtain ⟨-, next, hcell, -⟩ := id htrim.chain
      have hw : mem.sessions w = some (heap w) := hlive w List.mem_cons_self
      have hjudge := @sessionExpired_eq ((mem.later rest.length).setNodes nodes) heap w hw
      have hlater : ((mem.later rest.length).setNodes nodes).tick =
          (mem.later (rest.length + 1)).setNodes nodes := by
        simp only [Memory.later, Memory.setNodes, Memory.tick, Nat.add_assoc]
      rw [hlater] at hjudge
      rw [deleteExpiredSession, heq]
      show ∃ _ _ _, (Memory.node _ b >>= _) = _ ∧ _
      rw [@node_eq ((mem.later rest.length).setNodes nodes) _ _ hcell]
      show ∃ _ _ _, (sessionExpired _ w >>= _) = _ ∧ _
      rw [hjudge, List.length_cons,
        show values ((b, w) :: rest) = w :: values rest from rfl, BenkerVpn.deleteExpiredSession,
        show (values rest).length = rest.length from List.length_map _]
      -- the head takes the reading behind those of the other nodes
      cases hexp : expiredAt heap (((mem.later rest.length).setNodes nodes).clock 0) w with
      | true =>
          have hexp' : expiredAt heap (mem.clock rest.length) w = true := hexp
          rw [hexp']
          show ∃ _ _ _, (Memory.freeNode _ b >>= _) = _ ∧ _
          rw [@freeNode_eq ((mem.later (rest.length + 1)).setNodes nodes) _ _ hcell]
          refine ⟨next, rest', nodes.erase b, rfl, htrim.after ?_⟩
          have hleft := (List.cons.inj htrim.values).2
          exact ⟨Chain.pop htrim.chain hcell, by simp, hleft, touches_pop⟩
      | false =>
          have hexp' : expiredAt heap (mem.clock rest.length) w = false := hexp
          rw [hexp']
          exact ⟨some b, (b, w) :: rest', nodes, rfl, htrim⟩

end BenkerVpn.Pointers

import BenkerVpn.Session.Ports
import Mathlib.Data.List.Flatten

/-!
# Cleaning expired sessions

`clean_expired_session` visits the buckets in order, in each bucket the client list and then the
server list, and judges every node by a fresh reading of the clock: the nodes behind the head of a
list first, its head last. `schedule` lists the nodes in the order in which they are judged, so that
the node at position `k` is judged by reading `k`. A session stays in an index exactly when it is
judged unexpired there (`cleanExpiredSession_inSide_iff`).
-/

set_option autoImplicit false

namespace BenkerVpn

open Library.Buckets

/-! ## One list -/

/-- The nodes of a list in the order in which `delete_expired_session` judges them. -/
def judged : List SessionPtr → List SessionPtr
  | [] => []
  | head :: next => next ++ [head]

theorem judged_length (l : List SessionPtr) : (judged l).length = l.length := by
  cases l <;> simp [judged]

theorem judged_perm (l : List SessionPtr) : (judged l).Perm l := by
  cases l with
  | nil => exact List.Perm.refl _
  | cons head next => exact List.perm_append_singleton head next

theorem mem_judged {l : List SessionPtr} {s : SessionPtr} : s ∈ judged l ↔ s ∈ l :=
  (judged_perm l).mem_iff

/-- In a list without repetition a session is judged once. -/
theorem judged_position_unique {l : List SessionPtr} (hl : l.Nodup) {s : SessionPtr} {j j' : Nat}
    (hj : (judged l)[j]? = some s) (hj' : (judged l)[j']? = some s) : j = j' := by
  have hlt : j < (judged l).length := by
    by_contra hge
    rw [List.getElem?_eq_none (by omega)] at hj
    cases hj
  exact (List.getElem?_inj hlt ((judged_perm l).nodup_iff.2 hl)).1 (hj.trans hj'.symm)

/-- A position of a concatenation lies in its first part or, shifted, in its second. -/
theorem getElem?_append_eq_some_iff {α : Type} (xs ys : List α) (a : α) (k : Nat) :
    (xs ++ ys)[k]? = some a ↔
      xs[k]? = some a ∨ ∃ j, ys[j]? = some a ∧ k = xs.length + j := by
  by_cases h : k < xs.length
  · rw [List.getElem?_append_left h]
    constructor
    · exact Or.inl
    · rintro (h' | ⟨j, -, rfl⟩)
      · exact h'
      · omega
  · rw [List.getElem?_append_right (by omega)]
    have hnone : xs[k]? = none := List.getElem?_eq_none (by omega)
    rw [hnone]
    constructor
    · exact fun h' => Or.inr ⟨k - xs.length, h', by omega⟩
    · rintro (h' | ⟨j, hj, rfl⟩)
      · cases h'
      · rwa [Nat.add_sub_cancel_left]

theorem getElem?_concat_eq_some_iff {α : Type} (l : List α) (a b : α) (k : Nat) :
    (l ++ [a])[k]? = some b ↔ l[k]? = some b ∨ (k = l.length ∧ a = b) := by
  rw [getElem?_append_eq_some_iff]
  constructor
  · rintro (h | ⟨j, hj, rfl⟩)
    · exact Or.inl h
    · cases j with
      | zero => exact Or.inr ⟨rfl, by simpa using hj⟩
      | succ j => simp at hj
  · rintro (h | ⟨rfl, rfl⟩)
    · exact Or.inl h
    · exact Or.inr ⟨0, rfl, rfl⟩

section List

variable (heap : SessionPtr → TcpSession)

theorem deleteExpiredBehind_sublist (clock : Nat → Int) (l : List SessionPtr) :
    (deleteExpiredBehind heap clock l).Sublist l := by
  induction l generalizing clock with
  | nil => exact List.Sublist.refl _
  | cons node next ih =>
      rw [deleteExpiredBehind]
      split
      · exact (ih _).cons node
      · exact (ih _).cons_cons node

theorem deleteExpiredSession_sublist (clock : Nat → Int) (l : List SessionPtr) :
    (deleteExpiredSession heap clock l).Sublist l := by
  cases l with
  | nil => exact List.Sublist.refl _
  | cons head next =>
      rw [deleteExpiredSession]
      split
      · exact (deleteExpiredBehind_sublist heap clock next).cons head
      · exact (deleteExpiredBehind_sublist heap clock next).cons_cons head

/-- What is left of a list whose first judgement falls on the given node. -/
theorem mem_keepUnless (expired : Bool) (node s : SessionPtr) (rest : List SessionPtr) :
    s ∈ (if expired then rest else node :: rest) ↔ (node = s ∧ expired = false) ∨ s ∈ rest := by
  cases expired with
  | true => simp
  | false => simp [eq_comm]

/-- Behind the head, node `k` is judged by reading `k`. -/
theorem mem_deleteExpiredBehind (clock : Nat → Int) (l : List SessionPtr) (s : SessionPtr) :
    s ∈ deleteExpiredBehind heap clock l ↔
      ∃ k, l[k]? = some s ∧ expiredAt heap (clock k) s = false := by
  induction l generalizing clock with
  | nil => simp [deleteExpiredBehind]
  | cons node next ih =>
      rw [deleteExpiredBehind, mem_keepUnless, ih]
      -- reading `0` judges the first node, reading `k + 1` the node `k` of the rest
      constructor
      · rintro (⟨rfl, hs⟩ | ⟨k, hk, hs⟩)
        · exact ⟨0, by simp, hs⟩
        · exact ⟨k + 1, by simpa using hk, hs⟩
      · rintro ⟨k, hk, hs⟩
        cases k with
        | zero =>
            obtain rfl : node = s := by simpa using hk
            exact Or.inl ⟨rfl, hs⟩
        | succ k => exact Or.inr ⟨k, by simpa using hk, hs⟩

/-- A session stays in a list exactly when one of its nodes is judged unexpired. -/
theorem mem_deleteExpiredSession (clock : Nat → Int) (l : List SessionPtr) (s : SessionPtr) :
    s ∈ deleteExpiredSession heap clock l ↔
      ∃ k, (judged l)[k]? = some s ∧ expiredAt heap (clock k) s = false := by
  cases l with
  | nil => simp [deleteExpiredSession, judged]
  | cons head next =>
      rw [deleteExpiredSession, mem_keepUnless, mem_deleteExpiredBehind]
      -- the head is judged last
      constructor
      · rintro (⟨rfl, hs⟩ | ⟨k, hk, hs⟩)
        · exact ⟨next.length, (getElem?_concat_eq_some_iff _ _ _ _).2 (Or.inr ⟨rfl, rfl⟩), hs⟩
        · exact ⟨k, (getElem?_concat_eq_some_iff _ _ _ _).2 (Or.inl hk), hs⟩
      · rintro ⟨k, hk, hs⟩
        rcases (getElem?_concat_eq_some_iff next head s k).1 hk with hk | ⟨rfl, rfl⟩
        · exact Or.inr ⟨k, hk, hs⟩
        · exact Or.inl ⟨rfl, hs⟩

end List

/-! ## The whole table -/

/-- The two bucket arrays. -/
inductive Side where
  | client
  | server
  deriving DecidableEq, Repr

/-- The lists of a side. -/
def lists (m : Machine) : Side → Nat → List SessionPtr
  | .client => m.table.listClientKey
  | .server => m.table.listServerKey

/-- The session stands in a list of the side. -/
def InSide (m : Machine) (side : Side) (s : SessionPtr) : Prop := Held (lists m side) s

/-- How many nodes of bucket `i` are judged before the list of the side. -/
def judgedBefore (m : Machine) : Side → Nat → Nat
  | .client, _ => 0
  | .server, i => (m.table.listClientKey i).length

/-- The nodes judged in bucket `i`, in order. -/
def judgedBucket (m : Machine) (i : Nat) : List (Side × SessionPtr) :=
  (judged (m.table.listClientKey i)).map (Prod.mk .client) ++
    (judged (m.table.listServerKey i)).map (Prod.mk .server)

/-- The nodes judged in the buckets below `n`, in order. -/
def judgedBelow (m : Machine) (n : Nat) : List (Side × SessionPtr) :=
  (List.range n).flatMap (judgedBucket m)

/-- The nodes `clean_expired_session` judges, in order: node `k` is judged by reading `k`. -/
def schedule (m : Machine) : List (Side × SessionPtr) := judgedBelow m m.table.len

theorem judgedBelow_succ (m : Machine) (n : Nat) :
    judgedBelow m (n + 1) = judgedBelow m n ++ judgedBucket m n := by
  simp [judgedBelow, List.range_succ]

theorem judgedBucket_length (m : Machine) (i : Nat) :
    (judgedBucket m i).length =
      (m.table.listClientKey i).length + (m.table.listServerKey i).length := by
  simp [judgedBucket, judged_length]

/-- The machine after the first `n` rounds of the cleaning loop. -/
theorem foldl_cleanBucket (m : Machine) (n : Nat) :
    let m' := (List.range n).foldl cleanBucket m
    m'.heap = m.heap ∧ m'.brk = m.brk ∧
      m'.clock = (fun k => m.clock ((judgedBelow m n).length + k)) ∧
      m'.table = { m.table with
        listClientKey := fun i =>
          if i < n then deleteExpiredSession m.heap
            (fun k => m.clock ((judgedBelow m i).length + k)) (m.table.listClientKey i)
          else m.table.listClientKey i
        listServerKey := fun i =>
          if i < n then deleteExpiredSession m.heap
            (fun k => m.clock ((judgedBelow m i).length + (m.table.listClientKey i).length + k))
            (m.table.listServerKey i)
          else m.table.listServerKey i } := by
  induction n with
  | zero => simp [judgedBelow]
  | succ n ih =>
      dsimp only at ih ⊢
      rw [List.range_succ, List.foldl_append, List.foldl_cons, List.foldl_nil]
      generalize (List.range n).foldl cleanBucket m = m' at ih ⊢
      -- bucket `n` is as it was, and the clock stands behind the buckets before it
      obtain ⟨hheap, hbrk, hclock, htable⟩ := ih
      refine ⟨hheap, hbrk, ?_, ?_⟩
      · funext k
        simp only [cleanBucket, Machine.tick, hclock, htable, Nat.lt_irrefl, if_false,
          judgedBelow_succ, List.length_append, judgedBucket_length]
        congr 1
        omega
      · simp only [cleanBucket, Machine.tick, hclock, htable, hheap, Nat.lt_irrefl, if_false]
        congr 1 <;>
        · funext i
          rw [Function.update_apply]
          -- a bucket already cleaned, the one cleaned in this round, or a later one
          rcases Nat.lt_trichotomy i n with hi | rfl | hi
          · simp [hi, hi.ne, Nat.lt_succ_of_lt hi]
          · simp [Nat.add_assoc]
          · simp [hi.ne', Nat.not_lt.2 hi.le, show ¬ i < n + 1 by omega]

section Clean

variable (m : Machine)

@[simp] theorem cleanExpiredSession_heap : (cleanExpiredSession m).heap = m.heap :=
  (foldl_cleanBucket m m.table.len).1

@[simp] theorem cleanExpiredSession_brk : (cleanExpiredSession m).brk = m.brk :=
  (foldl_cleanBucket m m.table.len).2.1

theorem cleanExpiredSession_clock (k : Nat) :
    (cleanExpiredSession m).clock k = m.clock ((schedule m).length + k) :=
  congrFun (foldl_cleanBucket m m.table.len).2.2.1 k

@[simp] theorem cleanExpiredSession_len : (cleanExpiredSession m).table.len = m.table.len := by
  rw [cleanExpiredSession, (foldl_cleanBucket m m.table.len).2.2.2]

@[simp] theorem cleanExpiredSession_minPort :
    (cleanExpiredSession m).table.minPort = m.table.minPort := by
  rw [cleanExpiredSession, (foldl_cleanBucket m m.table.len).2.2.2]

@[simp] theorem cleanExpiredSession_modNum :
    (cleanExpiredSession m).table.modNum = m.table.modNum := by
  rw [cleanExpiredSession, (foldl_cleanBucket m m.table.len).2.2.2]

@[simp] theorem cleanExpiredSession_nextNum :
    (cleanExpiredSession m).table.nextNum = m.table.nextNum := by
  rw [cleanExpiredSession, (foldl_cleanBucket m m.table.len).2.2.2]

/-- What is left of a list of a side, and which readings decide it. -/
theorem cleanExpiredSession_lists (side : Side) {i : Nat} (hi : i < m.table.len) :
    lists (cleanExpiredSession m) side i =
      deleteExpiredSession m.heap
        (fun k => m.clock ((judgedBelow m i).length + judgedBefore m side i + k))
        (lists m side i) := by
  cases side with
  | client =>
      rw [lists, cleanExpiredSession, (foldl_cleanBucket m m.table.len).2.2.2]
      exact if_pos hi
  | server =>
      rw [lists, cleanExpiredSession, (foldl_cleanBucket m m.table.len).2.2.2]
      exact if_pos hi

theorem cleanExpiredSession_lists_sublist (side : Side) (i : Nat) :
    (lists (cleanExpiredSession m) side i).Sublist (lists m side i) := by
  by_cases hi : i < m.table.len
  · rw [cleanExpiredSession_lists m side hi]
    exact deleteExpiredSession_sublist _ _ _
  · -- the loop does not reach the bucket
    have hsame : lists (cleanExpiredSession m) side i = lists m side i := by
      cases side with
      | client =>
          rw [lists, cleanExpiredSession, (foldl_cleanBucket m m.table.len).2.2.2]
          exact if_neg hi
      | server =>
          rw [lists, cleanExpiredSession, (foldl_cleanBucket m m.table.len).2.2.2]
          exact if_neg hi
    rw [hsame]

variable {m}

theorem inSide_of_clean (side : Side) {s : SessionPtr}
    (h : InSide (cleanExpiredSession m) side s) : InSide m side s := by
  obtain ⟨i, hi⟩ := h
  exact ⟨i, (cleanExpiredSession_lists_sublist m side i).subset hi⟩

end Clean

/-- Cleaning keeps the indexes, whatever the clock does. -/
theorem Indexes.clean {m : Machine} (h : Indexes m) : Indexes (cleanExpiredSession m) :=
  h.shrink (cleanExpiredSession_heap m) (cleanExpiredSession_brk m) (cleanExpiredSession_len m)
    (cleanExpiredSession_lists_sublist m .client) (cleanExpiredSession_lists_sublist m .server)

/-! ## Who is judged when -/

/-- In the schedule of a cleaning call, the node for session `s` on the given side is judged by
reading `k`. -/
def JudgedAt (m : Machine) (side : Side) (s : SessionPtr) (k : Nat) : Prop :=
  (schedule m)[k]? = some (side, s)

theorem map_mk_getElem? (side side' : Side) (l : List SessionPtr) (s : SessionPtr) (j : Nat) :
    (l.map (Prod.mk side))[j]? = some (side', s) ↔ side = side' ∧ l[j]? = some s := by
  rw [List.getElem?_map, Option.map_eq_some_iff]
  constructor
  · rintro ⟨a, ha, he⟩
    obtain ⟨rfl, rfl⟩ := Prod.mk.inj he
    exact ⟨rfl, ha⟩
  · rintro ⟨rfl, hs⟩
    exact ⟨s, hs, rfl⟩

/-- Where the sessions of a side stand in the schedule of a bucket. -/
theorem judgedBucket_getElem? (m : Machine) (side : Side) (i k : Nat) (s : SessionPtr) :
    (judgedBucket m i)[k]? = some (side, s) ↔
      ∃ j, (judged (lists m side i))[j]? = some s ∧ k = judgedBefore m side i + j := by
  rw [judgedBucket, getElem?_append_eq_some_iff, map_mk_getElem?, List.length_map, judged_length]
  simp only [map_mk_getElem?]
  cases side with
  | client => simp [lists, judgedBefore]
  | server => simp [lists, judgedBefore]

/-- Where the sessions of a side stand in the schedule. -/
theorem judgedBelow_getElem? (m : Machine) (side : Side) (n k : Nat) (s : SessionPtr) :
    (judgedBelow m n)[k]? = some (side, s) ↔
      ∃ i < n, ∃ j, (judged (lists m side i))[j]? = some s ∧
        k = (judgedBelow m i).length + judgedBefore m side i + j := by
  induction n with
  | zero => simp [judgedBelow]
  | succ n ih =>
      rw [judgedBelow_succ, getElem?_append_eq_some_iff, ih]
      simp only [judgedBucket_getElem?]
      -- the last bucket is bucket `n`
      constructor
      · rintro (⟨i, hi, h⟩ | ⟨l, ⟨j, hj, rfl⟩, rfl⟩)
        · exact ⟨i, Nat.lt_succ_of_lt hi, h⟩
        · exact ⟨n, Nat.lt_succ_self n, j, hj, (Nat.add_assoc _ _ _).symm⟩
      · rintro ⟨i, hi, j, hj, rfl⟩
        rcases Nat.lt_succ_iff_lt_or_eq.1 hi with hi | rfl
        · exact Or.inl ⟨i, hi, j, hj, rfl⟩
        · exact Or.inr ⟨_, ⟨j, hj, rfl⟩, Nat.add_assoc _ _ _⟩

/-- The nodes of both indexes stand in their proper buckets, and no bucket holds a session twice. -/
structure Housed (m : Machine) : Prop where
  len_pos : 0 < m.table.len
  clientPlaced : ∀ i, ∀ s ∈ m.table.listClientKey i,
    i = clientHash m.table.len (clientKey m.heap s)
  serverPlaced : ∀ i, ∀ s ∈ m.table.listServerKey i,
    i = serverHash m.table.len (serverKey m.heap s)
  clientNodup : ∀ i, (m.table.listClientKey i).Nodup
  serverNodup : ∀ i, (m.table.listServerKey i).Nodup

theorem Indexes.housed {m : Machine} (h : Indexes m) (hlen : 0 < m.table.len) : Housed m :=
  ⟨hlen, h.client.placed, h.server.placed, h.client.nodup, h.server.nodup⟩

section Judged

variable {m : Machine} (h : Housed m) (side : Side)
include h

/-- The sessions of a side stand in the buckets the cleaning loop visits. -/
theorem Housed.bucket_lt {i : Nat} {s : SessionPtr} (hs : s ∈ lists m side i) :
    i < m.table.len := by
  cases side with
  | client =>
      rw [h.clientPlaced i s hs]
      exact Nat.mod_lt _ h.len_pos
  | server =>
      rw [h.serverPlaced i s hs]
      exact Nat.mod_lt _ h.len_pos

/-- A session stands in one bucket of a side only. -/
theorem Housed.bucket_unique {i i' : Nat} {s : SessionPtr} (hs : s ∈ lists m side i)
    (hs' : s ∈ lists m side i') : i = i' := by
  cases side with
  | client => exact (h.clientPlaced i s hs).trans (h.clientPlaced i' s hs').symm
  | server => exact (h.serverPlaced i s hs).trans (h.serverPlaced i' s hs').symm

theorem Housed.nodup (i : Nat) : (lists m side i).Nodup := by
  cases side with
  | client => exact h.clientNodup i
  | server => exact h.serverNodup i

/-- A session stays in an index exactly when it is judged unexpired there. -/
theorem cleanExpiredSession_inSide_iff (s : SessionPtr) :
    InSide (cleanExpiredSession m) side s ↔
      ∃ k, JudgedAt m side s k ∧ expiredAt m.heap (m.clock k) s = false := by
  simp only [JudgedAt, schedule, judgedBelow_getElem?]
  constructor
  · rintro ⟨i, hi⟩
    have hlt := h.bucket_lt side ((cleanExpiredSession_lists_sublist m side i).subset hi)
    rw [cleanExpiredSession_lists m side hlt, mem_deleteExpiredSession] at hi
    obtain ⟨j, hj, hexp⟩ := hi
    exact ⟨_, ⟨i, hlt, j, hj, rfl⟩, hexp⟩
  · rintro ⟨k, ⟨i, hlt, j, hj, rfl⟩, hexp⟩
    refine ⟨i, ?_⟩
    rw [cleanExpiredSession_lists m side hlt, mem_deleteExpiredSession]
    exact ⟨j, hj, hexp⟩

/-- Every session of an index is judged there. -/
theorem exists_judgedAt {s : SessionPtr} (hs : InSide m side s) : ∃ k, JudgedAt m side s k := by
  obtain ⟨i, hi⟩ := hs
  obtain ⟨j, hj⟩ := List.mem_iff_getElem?.1 (mem_judged.2 hi)
  exact ⟨_, (judgedBelow_getElem? _ _ _ _ _).2 ⟨i, h.bucket_lt side hi, j, hj, rfl⟩⟩

variable {side}

/-- A session is judged once on each side. -/
theorem judgedAt_unique {s : SessionPtr} {k k' : Nat} (hk : JudgedAt m side s k)
    (hk' : JudgedAt m side s k') : k = k' := by
  obtain ⟨i, -, j, hj, rfl⟩ := (judgedBelow_getElem? _ _ _ _ _).1 hk
  obtain ⟨i', -, j', hj', rfl⟩ := (judgedBelow_getElem? _ _ _ _ _).1 hk'
  have hi := mem_judged.1 (List.mem_iff_getElem?.2 ⟨j, hj⟩)
  have hi' := mem_judged.1 (List.mem_iff_getElem?.2 ⟨j', hj'⟩)
  -- one bucket, and one place in its list
  obtain rfl := h.bucket_unique side hi hi'
  rw [judged_position_unique (h.nodup side i) hj hj']

end Judged

end BenkerVpn

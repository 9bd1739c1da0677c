import Mathlib.Data.Set.Function
import Mathlib.Order.Interval.Set.Defs
import Mathlib.Tactic.Common

/-!
# Byte memory and network byte order

A memory gives every index an octet. `be16` and `be32` read a number in network byte order,
`put16` and `put32` write one; `le16` is the order of a little-endian host. Each write comes with
what it reads back, with its frame (`put16_of_ne`, `be16_put16_of_disjoint` and so on) and with the
fact that the same write keeps two memories equal wherever they were (`eqOn_put16`). `octets` reads
a stretch of memory as a list.
-/

set_option autoImplicit false

namespace Library.Octets

/-- Octets by index. -/
abbrev Memory := Nat → UInt8

/-- Two octets in network byte order. -/
def be16 (m : Memory) (i : Nat) : UInt16 :=
  UInt16.ofNat ((m i).toNat * 256 + (m (i + 1)).toNat)

/-- Four octets in network byte order. -/
def be32 (m : Memory) (i : Nat) : UInt32 :=
  UInt32.ofNat ((be16 m i).toNat * 65536 + (be16 m (i + 2)).toNat)

/-- Two octets in the order of a little-endian host. -/
def le16 (m : Memory) (i : Nat) : UInt16 :=
  UInt16.ofNat ((m (i + 1)).toNat * 256 + (m i).toNat)

/-- One octet written. -/
def put8 (m : Memory) (i : Nat) (v : UInt8) : Memory := Function.update m i v

/-- Two octets written in network byte order. -/
def put16 (m : Memory) (i : Nat) (v : UInt16) : Memory :=
  put8 (put8 m i (UInt8.ofNat (v.toNat / 256))) (i + 1) (UInt8.ofNat v.toNat)

/-- Four octets written in network byte order. -/
def put32 (m : Memory) (i : Nat) (v : UInt32) : Memory :=
  put16 (put16 m i (UInt16.ofNat (v.toNat / 65536))) (i + 2) (UInt16.ofNat v.toNat)

/-- Two octets written in the order of a little-endian host. -/
def putLe16 (m : Memory) (i : Nat) (v : UInt16) : Memory :=
  put8 (put8 m i (UInt8.ofNat v.toNat)) (i + 1) (UInt8.ofNat (v.toNat / 256))

/-! ## Reading back -/

@[simp] theorem put8_self (m : Memory) (i : Nat) (v : UInt8) : put8 m i v i = v :=
  Function.update_self ..

theorem put8_of_ne (m : Memory) {i j : Nat} (v : UInt8) (h : j ≠ i) : put8 m i v j = m j :=
  Function.update_of_ne h ..

theorem put16_of_ne (m : Memory) {i j : Nat} (v : UInt16) (h : j ≠ i) (h' : j ≠ i + 1) :
    put16 m i v j = m j := by
  rw [put16, put8_of_ne _ _ h', put8_of_ne _ _ h]

theorem put32_of_ne (m : Memory) {i j : Nat} (v : UInt32) (h : j < i ∨ i + 4 ≤ j) :
    put32 m i v j = m j := by
  rw [put32, put16_of_ne _ _ (by omega) (by omega), put16_of_ne _ _ (by omega) (by omega)]

theorem putLe16_of_ne (m : Memory) {i j : Nat} (v : UInt16) (h : j ≠ i) (h' : j ≠ i + 1) :
    putLe16 m i v j = m j := by
  rw [putLe16, put8_of_ne _ _ h', put8_of_ne _ _ h]

theorem put16_high (m : Memory) (i : Nat) (v : UInt16) :
    put16 m i v i = UInt8.ofNat (v.toNat / 256) := by
  rw [put16, put8_of_ne _ _ (by omega), put8_self]

theorem put16_low (m : Memory) (i : Nat) (v : UInt16) :
    put16 m i v (i + 1) = UInt8.ofNat v.toNat := by
  rw [put16, put8_self]

/-- The same write makes two memories equal at its own octets, and leaves them so elsewhere. -/
theorem put16_congr {m m' : Memory} {i j : Nat} (v : UInt16)
    (h : j ≠ i → j ≠ i + 1 → m j = m' j) : put16 m i v j = put16 m' i v j := by
  rcases (by omega : j = i ∨ j = i + 1 ∨ (j ≠ i ∧ j ≠ i + 1)) with rfl | rfl | ⟨hhigh, hlow⟩
  · rw [put16_high, put16_high]
  · rw [put16_low, put16_low]
  · rw [put16_of_ne _ _ hhigh hlow, put16_of_ne _ _ hhigh hlow]
    exact h hhigh hlow

theorem toNat_be16 (m : Memory) (i : Nat) :
    (be16 m i).toNat = (m i).toNat * 256 + (m (i + 1)).toNat := by
  have h0 := (m i).toNat_lt
  have h1 := (m (i + 1)).toNat_lt
  rw [be16, UInt16.toNat_ofNat']
  omega

theorem toNat_be32 (m : Memory) (i : Nat) :
    (be32 m i).toNat = (be16 m i).toNat * 65536 + (be16 m (i + 2)).toNat := by
  have h0 := (be16 m i).toNat_lt
  have h1 := (be16 m (i + 2)).toNat_lt
  rw [be32, UInt32.toNat_ofNat']
  omega

theorem be16_congr {m m' : Memory} {i : Nat} (h : m i = m' i) (h' : m (i + 1) = m' (i + 1)) :
    be16 m i = be16 m' i := by
  rw [be16, be16, h, h']

theorem be32_congr {m m' : Memory} {i : Nat} (h : ∀ j, i ≤ j → j < i + 4 → m j = m' j) :
    be32 m i = be32 m' i := by
  rw [be32, be32, be16_congr (h i (by omega) (by omega)) (h (i + 1) (by omega) (by omega)),
    be16_congr (h (i + 2) (by omega) (by omega)) (h (i + 3) (by omega) (by omega))]

/-- What was written is read back. -/
@[simp] theorem be16_put16_self (m : Memory) (i : Nat) (v : UInt16) :
    be16 (put16 m i v) i = v := by
  have hv := v.toNat_lt
  apply UInt16.toNat_inj.1
  rw [toNat_be16, put16_high, put16_low, UInt8.toNat_ofNat', UInt8.toNat_ofNat']
  omega

theorem be16_put8_of_ne (m : Memory) {i j : Nat} (v : UInt8) (h : j ≠ i) (h' : j + 1 ≠ i) :
    be16 (put8 m i v) j = be16 m j :=
  be16_congr (put8_of_ne m v h) (put8_of_ne m v h')

theorem be32_put8_of_disjoint (m : Memory) {i j : Nat} (v : UInt8) (h : j + 3 < i ∨ i < j) :
    be32 (put8 m i v) j = be32 m j :=
  be32_congr fun _ _ _ => put8_of_ne m v (by omega)

theorem be16_put16_of_disjoint (m : Memory) {i j : Nat} (v : UInt16) (h : j + 1 < i ∨ i + 1 < j) :
    be16 (put16 m i v) j = be16 m j :=
  be16_congr (put16_of_ne m v (by omega) (by omega)) (put16_of_ne m v (by omega) (by omega))

theorem be16_put32_of_disjoint (m : Memory) {i j : Nat} (v : UInt32) (h : j + 1 < i ∨ i + 3 < j) :
    be16 (put32 m i v) j = be16 m j :=
  be16_congr (put32_of_ne m v (by omega)) (put32_of_ne m v (by omega))

theorem be16_putLe16_of_disjoint (m : Memory) {i j : Nat} (v : UInt16)
    (h : j + 1 < i ∨ i + 1 < j) : be16 (putLe16 m i v) j = be16 m j :=
  be16_congr (putLe16_of_ne m v (by omega) (by omega)) (putLe16_of_ne m v (by omega) (by omega))

theorem be32_putLe16_of_disjoint (m : Memory) {i j : Nat} (v : UInt16)
    (h : j + 3 < i ∨ i + 1 < j) : be32 (putLe16 m i v) j = be32 m j :=
  be32_congr fun _ _ _ => putLe16_of_ne m v (by omega) (by omega)

theorem be32_put16_of_disjoint (m : Memory) {i j : Nat} (v : UInt16) (h : j + 3 < i ∨ i + 1 < j) :
    be32 (put16 m i v) j = be32 m j :=
  be32_congr fun _ _ _ => put16_of_ne m v (by omega) (by omega)

theorem be32_put32_of_disjoint (m : Memory) {i j : Nat} (v : UInt32) (h : j + 3 < i ∨ i + 3 < j) :
    be32 (put32 m i v) j = be32 m j :=
  be32_congr fun _ _ _ => put32_of_ne m v (by omega)

/-- What was written is read back. -/
@[simp] theorem be32_put32_self (m : Memory) (i : Nat) (v : UInt32) :
    be32 (put32 m i v) i = v := by
  have hv := v.toNat_lt
  apply UInt32.toNat_inj.1
  rw [toNat_be32, put32, be16_put16_self, be16_put16_of_disjoint _ _ (by omega), be16_put16_self,
    UInt16.toNat_ofNat', UInt16.toNat_ofNat']
  omega

/-- The second of two writes to the same place stands. -/
theorem put16_put16 (m : Memory) (i : Nat) (v w : UInt16) :
    put16 (put16 m i v) i w = put16 m i w := by
  funext j
  exact put16_congr w (put16_of_ne m v)

/-- Writing what is read changes nothing. -/
theorem put16_be16 (m : Memory) (i : Nat) : put16 m i (be16 m i) = m := by
  have hhigh := (m i).toNat_lt
  have hlow := (m (i + 1)).toNat_lt
  funext j
  rcases (by omega : j = i ∨ j = i + 1 ∨ (j ≠ i ∧ j ≠ i + 1)) with rfl | rfl | ⟨hi, hi'⟩
  · rw [put16_high, toNat_be16]
    apply UInt8.toNat_inj.1
    rw [UInt8.toNat_ofNat']
    omega
  · rw [put16_low, toNat_be16]
    apply UInt8.toNat_inj.1
    rw [UInt8.toNat_ofNat']
    omega
  · exact put16_of_ne _ _ hi hi'

/-- A number determines its octets. -/
theorem octets_of_be16_eq {m m' : Memory} {i : Nat} (h : be16 m i = be16 m' i) :
    m i = m' i ∧ m (i + 1) = m' (i + 1) := by
  have h0 := (m (i + 1)).toNat_lt
  have h1 := (m' (i + 1)).toNat_lt
  have hnum := congrArg UInt16.toNat h
  rw [toNat_be16, toNat_be16] at hnum
  constructor
  · apply UInt8.toNat_inj.1
    omega
  · apply UInt8.toNat_inj.1
    omega

/-- The same for four octets. -/
theorem octets_of_be32_eq {m m' : Memory} {i : Nat} (h : be32 m i = be32 m' i) {j : Nat}
    (hij : i ≤ j) (hji : j < i + 4) : m j = m' j := by
  have h0 := (be16 m (i + 2)).toNat_lt
  have h1 := (be16 m' (i + 2)).toNat_lt
  have hnum := congrArg UInt32.toNat h
  rw [toNat_be32, toNat_be32] at hnum
  have hhigh : be16 m i = be16 m' i := UInt16.toNat_inj.1 (by omega)
  have hlow : be16 m (i + 2) = be16 m' (i + 2) := UInt16.toNat_inj.1 (by omega)
  obtain ⟨hzero, hone⟩ := octets_of_be16_eq hhigh
  obtain ⟨htwo, hthree⟩ := octets_of_be16_eq hlow
  rcases (by omega : j = i ∨ j = i + 1 ∨ j = i + 2 ∨ j = i + 2 + 1) with rfl | rfl | rfl | rfl
  · exact hzero
  · exact hone
  · exact htwo
  · exact hthree

/-- Memories that read the same number agree on its octets. -/
theorem eqOn_of_be16 {m m' : Memory} {s : Set Nat} {i : Nat} (h : be16 m i = be16 m' i)
    (hs : Set.EqOn m m' (s \ Set.Ico i (i + 2))) : Set.EqOn m m' s := by
  intro j hj
  obtain ⟨hhigh, hlow⟩ := octets_of_be16_eq h
  by_cases hin : j ∈ Set.Ico i (i + 2)
  · rcases (by have := hin.1; have := hin.2; omega : j = i ∨ j = i + 1) with rfl | rfl
    · exact hhigh
    · exact hlow
  · exact hs ⟨hj, hin⟩

theorem eqOn_of_be32 {m m' : Memory} {s : Set Nat} {i : Nat} (h : be32 m i = be32 m' i)
    (hs : Set.EqOn m m' (s \ Set.Ico i (i + 4))) : Set.EqOn m m' s := by
  intro j hj
  by_cases hin : j ∈ Set.Ico i (i + 4)
  · exact octets_of_be32_eq h hin.1 hin.2
  · exact hs ⟨hj, hin⟩

/-! ## Stretches of memory -/

/-- The `n` octets from index `i`. -/
def octets (m : Memory) : Nat → Nat → List UInt8
  | _, 0 => []
  | i, n + 1 => m i :: octets m (i + 1) n

theorem length_octets (m : Memory) (i n : Nat) : (octets m i n).length = n := by
  induction n generalizing i with
  | zero => rfl
  | succ n ih => rw [octets, List.length_cons, ih]

theorem octets_add (m : Memory) (i a n : Nat) :
    octets m i (a + n) = octets m i a ++ octets m (i + a) n := by
  induction a generalizing i with
  | zero => rw [Nat.zero_add, octets, List.nil_append, Nat.add_zero]
  | succ a ih =>
      rw [Nat.add_right_comm, octets, octets, ih, List.cons_append, Nat.add_right_comm i 1 a]
      rfl

/-- Equal octets are equal stretches, wherever they stand. -/
theorem octets_shift {m m' : Memory} {i i' n : Nat} (h : ∀ k < n, m (i + k) = m' (i' + k)) :
    octets m i n = octets m' i' n := by
  induction n generalizing i i' with
  | zero => rfl
  | succ n ih =>
      rw [octets, octets, show m i = m' i' from h 0 (Nat.succ_pos n)]
      congr 1
      apply ih
      intro k hk
      rw [Nat.add_assoc, Nat.add_assoc, Nat.add_comm 1 k]
      exact h (k + 1) (Nat.succ_lt_succ hk)

/-- The octets of the list stand in memory from index `i`. -/
abbrev Holds (m : Memory) (i : Nat) (l : List UInt8) : Prop := octets m i l.length = l

/-- The first octets of a list stand in front. -/
theorem Holds.take {m : Memory} {i : Nat} {l : List UInt8} (h : Holds m i l) {k : Nat}
    (hk : k ≤ l.length) : octets m i k = l.take k := by
  have hsplit := octets_add m i k (l.length - k)
  rw [Nat.add_sub_cancel' hk, h] at hsplit
  rw [hsplit, List.take_left' (length_octets m i k)]

/-! ## Equal writes on partly equal memories -/

theorem eqOn_put8 {m m' : Memory} {s : Set Nat} (h : Set.EqOn m m' s) (i : Nat) (v : UInt8) :
    Set.EqOn (put8 m i v) (put8 m' i v) s := by
  intro j hj
  by_cases e : j = i
  · subst e
    rw [put8_self, put8_self]
  · rw [put8_of_ne _ _ e, put8_of_ne _ _ e]
    exact h hj

theorem eqOn_put16 {m m' : Memory} {s : Set Nat} (h : Set.EqOn m m' s) (i : Nat) (v : UInt16) :
    Set.EqOn (put16 m i v) (put16 m' i v) s :=
  eqOn_put8 (eqOn_put8 h _ _) _ _

theorem eqOn_put32 {m m' : Memory} {s : Set Nat} (h : Set.EqOn m m' s) (i : Nat) (v : UInt32) :
    Set.EqOn (put32 m i v) (put32 m' i v) s :=
  eqOn_put16 (eqOn_put16 h _ _) _ _

end Library.Octets

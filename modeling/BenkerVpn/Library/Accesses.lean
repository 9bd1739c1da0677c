import BenkerVpn.Library.Octets

/-!
# Computations that record their memory accesses

A `Traced` computation runs on a memory and returns, besides its value, the memory it leaves and the
indices it read or wrote. The reads and writes below are the only way to the memory, so the indices
recorded by a program built from them are those it accesses. `InBounds` says that they all lie below
a bound; a sequence of computations is in bounds if each part is (`inBounds_bind`), and a block if
it ends in time (`forall_mem_range'_lt`).
-/

set_option autoImplicit false

namespace Library.Accesses

open Library.Octets

universe u

/-- A value, the memory after the computation, and the indices accessed. -/
structure Trace (α : Type u) where
  value : α
  memory : Memory
  touched : List Nat

/-- A computation on a memory. -/
structure Traced (α : Type u) where
  run : Memory → Trace α

instance : Monad Traced where
  pure a := ⟨fun m => ⟨a, m, []⟩⟩
  bind x f := ⟨fun m =>
    let r := x.run m
    let r' := (f r.value).run r.memory
    ⟨r'.value, r'.memory, r.touched ++ r'.touched⟩⟩

/-! ## Accesses -/

/-- Read an octet. -/
def read8 (i : Nat) : Traced UInt8 := ⟨fun m => ⟨m i, m, [i]⟩⟩

/-- Read two octets in network byte order. -/
def read16 (i : Nat) : Traced UInt16 := ⟨fun m => ⟨be16 m i, m, [i, i + 1]⟩⟩

/-- Read four octets in network byte order. -/
def read32 (i : Nat) : Traced UInt32 := ⟨fun m => ⟨be32 m i, m, [i, i + 1, i + 2, i + 3]⟩⟩

/-- Read two octets, the low one first. -/
def readLe16 (i : Nat) : Traced UInt16 := ⟨fun m => ⟨le16 m i, m, [i, i + 1]⟩⟩

/-- Read a block of octets; nothing is known of what lies behind it. -/
def readBlock (i n : Nat) : Traced Memory :=
  ⟨fun m => ⟨fun k => if k < n then m (i + k) else 0, m, List.range' i n⟩⟩

/-- Write an octet. -/
def write8 (i : Nat) (v : UInt8) : Traced Unit := ⟨fun m => ⟨(), put8 m i v, [i]⟩⟩

/-- Write two octets, the low one first. -/
def writeLe16 (i : Nat) (v : UInt16) : Traced Unit :=
  ⟨fun m => ⟨(), putLe16 m i v, [i, i + 1]⟩⟩

/-- Write two octets in network byte order. -/
def write16 (i : Nat) (v : UInt16) : Traced Unit :=
  ⟨fun m => ⟨(), put16 m i v, [i, i + 1]⟩⟩

/-- Write four octets in network byte order. -/
def write32 (i : Nat) (v : UInt32) : Traced Unit :=
  ⟨fun m => ⟨(), put32 m i v, [i, i + 1, i + 2, i + 3]⟩⟩

section Run

variable {α β : Type u} (m : Memory)

@[simp] theorem run_pure (a : α) : (pure a : Traced α).run m = ⟨a, m, []⟩ := rfl

@[simp] theorem run_bind (x : Traced α) (f : α → Traced β) :
    (x >>= f).run m =
      ⟨((f (x.run m).value).run (x.run m).memory).value,
        ((f (x.run m).value).run (x.run m).memory).memory,
        (x.run m).touched ++ ((f (x.run m).value).run (x.run m).memory).touched⟩ := rfl

@[simp] theorem run_read8 (i : Nat) : (read8 i).run m = ⟨m i, m, [i]⟩ := rfl

@[simp] theorem run_read16 (i : Nat) : (read16 i).run m = ⟨be16 m i, m, [i, i + 1]⟩ := rfl

@[simp] theorem run_read32 (i : Nat) :
    (read32 i).run m = ⟨be32 m i, m, [i, i + 1, i + 2, i + 3]⟩ := rfl

@[simp] theorem run_readLe16 (i : Nat) : (readLe16 i).run m = ⟨le16 m i, m, [i, i + 1]⟩ := rfl

@[simp] theorem run_readBlock (i n : Nat) :
    (readBlock i n).run m =
      ⟨fun k => if k < n then m (i + k) else 0, m, List.range' i n⟩ := rfl

@[simp] theorem run_write8 (i : Nat) (v : UInt8) :
    (write8 i v).run m = ⟨(), put8 m i v, [i]⟩ := rfl

@[simp] theorem run_writeLe16 (i : Nat) (v : UInt16) :
    (writeLe16 i v).run m = ⟨(), putLe16 m i v, [i, i + 1]⟩ := rfl

@[simp] theorem run_write16 (i : Nat) (v : UInt16) :
    (write16 i v).run m = ⟨(), put16 m i v, [i, i + 1]⟩ := rfl

@[simp] theorem run_write32 (i : Nat) (v : UInt32) :
    (write32 i v).run m = ⟨(), put32 m i v, [i, i + 1, i + 2, i + 3]⟩ := rfl

end Run

/-! ## Bounds -/

section InBounds

variable {α β : Type u}

/-- Every index that the computation accesses lies below the bound. -/
def InBounds (x : Traced α) (m : Memory) (n : Nat) : Prop := ∀ i ∈ (x.run m).touched, i < n

instance (x : Traced α) (m : Memory) (n : Nat) : Decidable (InBounds x m n) :=
  inferInstanceAs (Decidable (∀ i ∈ (x.run m).touched, i < n))

theorem inBounds_pure (a : α) (m : Memory) (n : Nat) : InBounds (pure a) m n := by
  rintro i ⟨⟩

/-- A sequence is in bounds if both parts are, the second one on the memory the first one leaves. -/
theorem inBounds_bind (x : Traced α) (f : α → Traced β) (m : Memory) (n : Nat) :
    InBounds (x >>= f) m n ↔ InBounds x m n ∧ InBounds (f (x.run m).value) (x.run m).memory n :=
  List.forall_mem_append

/-- A block is in bounds if it is empty or ends in time. -/
theorem forall_mem_range'_lt (i len n : Nat) :
    (∀ j ∈ List.range' i len, j < n) ↔ len = 0 ∨ i + len ≤ n := by
  constructor
  · intro h
    rcases Nat.eq_zero_or_pos len with hzero | hpos
    · exact Or.inl hzero
    · have hlast := h (i + len - 1) (List.mem_range'_1.2 (by omega))
      omega
  · intro h j hj
    have hin := List.mem_range'_1.1 hj
    omega

end InBounds

/-! ## Computations that only read -/

section Reads

variable {α β : Type u} {x y z : Traced α} {f : α → Traced β} {m : Memory} {n : Nat} {a : α}
  {c : β}

/-- The computation stays below the bound, leaves the memory as it is and returns the value. -/
structure Reads (x : Traced α) (m : Memory) (n : Nat) (a : α) : Prop where
  value : (x.run m).value = a
  memory : (x.run m).memory = m
  inBounds : InBounds x m n

/-- The first computation does what the second one does, apart from reads below the bound. -/
structure LeadsTo (x : Traced α) (m : Memory) (n : Nat) (y : Traced α) : Prop where
  value : (x.run m).value = (y.run m).value
  memory : (x.run m).memory = (y.run m).memory
  inBounds : InBounds x m n ↔ InBounds y m n

theorem LeadsTo.refl (x : Traced α) (m : Memory) (n : Nat) : LeadsTo x m n x :=
  ⟨rfl, rfl, Iff.rfl⟩

theorem LeadsTo.trans (h : LeadsTo x m n y) (h' : LeadsTo y m n z) : LeadsTo x m n z :=
  ⟨h.value.trans h'.value, h.memory.trans h'.memory, h.inBounds.trans h'.inBounds⟩

/-- What was read decides how it goes on. -/
theorem Reads.leadsTo (h : Reads x m n a) : LeadsTo (x >>= f) m n (f a) := by
  constructor
  · rw [run_bind, h.value, h.memory]
  · rw [run_bind, h.value, h.memory]
  · rw [inBounds_bind, h.value, h.memory]
    exact and_iff_right h.inBounds

theorem Reads.bind (h : Reads x m n a) (hf : Reads (f a) m n c) : Reads (x >>= f) m n c :=
  ⟨h.leadsTo.value.trans hf.value, h.leadsTo.memory.trans hf.memory,
    h.leadsTo.inBounds.2 hf.inBounds⟩

/-- A branch on what was read. -/
theorem Reads.ite {p q : Prop} [Decidable p] [Decidable q] {d : α} (hpq : p ↔ q)
    (hx : q → Reads x m n a) (hy : ¬ q → Reads y m n d) :
    Reads (if p then x else y) m n (if q then a else d) := by
  by_cases h : q
  · rw [if_pos (hpq.2 h), if_pos h]
    exact hx h
  · rw [if_neg fun hp => h (hpq.1 hp), if_neg h]
    exact hy h

theorem reads_pure (a : α) : Reads (pure a) m n a := ⟨rfl, rfl, inBounds_pure a m n⟩

theorem reads_read8 {i : Nat} (hi : i < n) : Reads (read8 i) m n (m i) :=
  ⟨rfl, rfl, List.forall_mem_singleton.2 hi⟩

theorem reads_read16 {i : Nat} (hi : i + 2 ≤ n) : Reads (read16 i) m n (be16 m i) := by
  refine ⟨rfl, rfl, fun j hj => ?_⟩
  simp only [run_read16, List.mem_cons, List.not_mem_nil, or_false] at hj
  omega

theorem reads_read32 {i : Nat} (hi : i + 4 ≤ n) : Reads (read32 i) m n (be32 m i) := by
  refine ⟨rfl, rfl, fun j hj => ?_⟩
  simp only [run_read32, List.mem_cons, List.not_mem_nil, or_false] at hj
  omega

end Reads

end Library.Accesses

import Mathlib.Data.List.Nodup
import Mathlib.Logic.Function.Basic
import Mathlib.Tactic.Common

/-!
# Linked lists in a heap

A heap holds cells at addresses; a cell holds a value and the address of the next cell. `Segment`
says that cells lead from one address to another, `Chain` that they lead to `NULL`. A chain visits
no address twice (`Chain.nodup`) and is not touched by writes elsewhere (`Segment.congr`). Its last
cell can be redirected (`Segment.redirect`), which is how a cell is linked behind it (`Chain.link`)
and how the cell behind another one is unlinked (`Chain.unlink`).

A `Forest` is a family of chains that share no cell and hold every cell in use. `Touches` says that
an operation changed one chain only and took new cells from the free ones; the other chains of a
forest are then as they were (`Forest.update`).
-/

set_option autoImplicit false

namespace Library.Chains

universe u v

variable {α : Type u}

/-- A cell of a linked list. -/
structure Cell (α : Type u) where
  value : α
  next : Option Nat
  deriving DecidableEq, Repr

/-- The cells in use, by their addresses. -/
abbrev Heap (α : Type u) := Nat → Option (Cell α)

/-- The heap after a write of a whole cell. -/
def Heap.write (h : Heap α) (a : Nat) (c : Cell α) : Heap α := Function.update h a (some c)

/-- The heap after a cell has been freed. -/
def Heap.erase (h : Heap α) (a : Nat) : Heap α := Function.update h a none

/-- The cells, with their addresses, lead from `p` to `q`. -/
def Segment (h : Heap α) : Option Nat → List (Nat × α) → Option Nat → Prop
  | p, [], q => p = q
  | p, (a, v) :: cells, q => p = some a ∧ ∃ next, h a = some ⟨v, next⟩ ∧ Segment h next cells q

/-- The cells lead from `p` to `NULL`. -/
def Chain (h : Heap α) (p : Option Nat) (cells : List (Nat × α)) : Prop := Segment h p cells none

/-- The addresses of the cells. -/
abbrev addresses (cells : List (Nat × α)) : List Nat := cells.map Prod.fst

/-- What the cells hold. -/
abbrev values (cells : List (Nat × α)) : List α := cells.map Prod.snd

section Heap

variable (h : Heap α)

@[simp] theorem write_self (a : Nat) (c : Cell α) : h.write a c a = some c :=
  Function.update_self ..

theorem write_of_ne {a b : Nat} (c : Cell α) (hne : b ≠ a) : h.write a c b = h b :=
  Function.update_of_ne hne ..

@[simp] theorem erase_self (a : Nat) : h.erase a a = none := Function.update_self ..

theorem erase_of_ne {a b : Nat} (hne : b ≠ a) : h.erase a b = h b := Function.update_of_ne hne ..

end Heap

/-! ## Segments -/

section Segment

variable {h h' : Heap α} {p q : Option Nat} {cells xs ys : List (Nat × α)}

@[simp] theorem segment_nil : Segment h p [] q ↔ p = q := Iff.rfl

theorem segment_cons (a : Nat) (v : α) :
    Segment h p ((a, v) :: cells) q ↔
      p = some a ∧ ∃ next, h a = some ⟨v, next⟩ ∧ Segment h next cells q := Iff.rfl

theorem segment_append :
    Segment h p (xs ++ ys) q ↔ ∃ r, Segment h p xs r ∧ Segment h r ys q := by
  induction xs generalizing p with
  | nil => simp
  | cons x xs ih =>
      obtain ⟨a, v⟩ := x
      simp only [List.cons_append, segment_cons, ih]
      constructor
      · rintro ⟨hp, next, hcell, r, hxs, hys⟩
        exact ⟨r, ⟨hp, next, hcell, hxs⟩, hys⟩
      · rintro ⟨r, ⟨hp, next, hcell, hxs⟩, hys⟩
        exact ⟨hp, next, hcell, r, hxs, hys⟩

/-- The empty list. -/
theorem chain_nil (h : Heap α) : Chain h none [] := rfl

/-- A heap that agrees on the cells has the same segment. -/
theorem Segment.congr (hs : Segment h p cells q) (heq : ∀ a ∈ addresses cells, h' a = h a) :
    Segment h' p cells q := by
  induction cells generalizing p with
  | nil => exact hs
  | cons x cells ih =>
      obtain ⟨a, v⟩ := x
      obtain ⟨hp, next, hcell, hrest⟩ := hs
      refine ⟨hp, next, ?_, ih hrest fun b hb => heq b (List.mem_cons_of_mem _ hb)⟩
      rw [heq a List.mem_cons_self, hcell]

/-- Every cell of a segment is in use and holds its value. -/
theorem Segment.lookup (hs : Segment h p cells q) {a : Nat} {v : α} (hmem : (a, v) ∈ cells) :
    ∃ next, h a = some ⟨v, next⟩ := by
  induction cells generalizing p with
  | nil => cases hmem
  | cons x cells ih =>
      obtain ⟨b, w⟩ := x
      obtain ⟨-, next, hcell, hrest⟩ := hs
      rcases List.mem_cons.1 hmem with heq | hmem
      · obtain ⟨rfl, rfl⟩ := Prod.mk.inj heq
        exact ⟨next, hcell⟩
      · exact ih hrest hmem

theorem Segment.isSome (hs : Segment h p cells q) {a : Nat} (ha : a ∈ addresses cells) :
    (h a).isSome := by
  obtain ⟨⟨b, v⟩, hmem, rfl⟩ := List.mem_map.1 ha
  obtain ⟨next, hcell⟩ := hs.lookup hmem
  rw [hcell]
  rfl

/-- A free address is not the address of a cell of a segment. -/
theorem Segment.not_mem_of_none (hs : Segment h p cells q) {a : Nat} (ha : h a = none) :
    a ∉ addresses cells := by
  intro hmem
  have hsome := hs.isSome hmem
  rw [ha] at hsome
  cases hsome

/-- The cells of a chain are determined by its first address. -/
theorem Chain.unique (hx : Chain h p xs) (hy : Chain h p ys) : xs = ys := by
  induction xs generalizing p ys with
  | nil =>
      obtain rfl : p = none := hx
      cases ys with
      | nil => rfl
      | cons y ys => cases hy.1
  | cons x xs ih =>
      obtain ⟨a, v⟩ := x
      obtain ⟨rfl, next, hcell, hrest⟩ := hx
      cases ys with
      | nil => cases hy
      | cons y ys =>
          obtain ⟨b, w⟩ := y
          obtain ⟨hab, next', hcell', hrest'⟩ := hy
          obtain rfl := Option.some.inj hab
          obtain ⟨rfl, rfl⟩ := Cell.mk.inj (Option.some.inj (hcell.symm.trans hcell'))
          rw [ih hrest hrest']

/-- A chain visits no address twice: what follows an address is determined by it, and a list is not
a part of itself. -/
theorem Chain.nodup (hc : Chain h p cells) : (addresses cells).Nodup := by
  induction cells generalizing p with
  | nil => exact List.nodup_nil
  | cons x cells ih =>
      obtain ⟨a, v⟩ := x
      obtain ⟨-, next, hcell, hrest⟩ := hc
      refine List.nodup_cons.2 ⟨?_, ih hrest⟩
      intro hmem
      obtain ⟨⟨b, w⟩, hmem', hab⟩ := List.mem_map.1 hmem
      obtain rfl : b = a := hab
      obtain ⟨before, after, rfl⟩ := List.append_of_mem hmem'
      obtain ⟨r, -, -, next', hcell', hafter⟩ := segment_append.1 hrest
      obtain ⟨rfl, rfl⟩ := Cell.mk.inj (Option.some.inj (hcell.symm.trans hcell'))
      -- the list behind the address contains the list behind the address
      have hlength := congrArg List.length (Chain.unique hrest hafter)
      simp only [List.length_append, List.length_cons] at hlength
      omega

/-- The last cell of a segment may be redirected. -/
theorem Segment.redirect {b : Nat} {w : α} (hs : Segment h p (xs ++ [(b, w)]) q)
    (hb : b ∉ addresses xs) (q' : Option Nat) :
    Segment (h.write b ⟨w, q'⟩) p (xs ++ [(b, w)]) q' := by
  obtain ⟨r, hxs, hlast⟩ := segment_append.1 hs
  obtain ⟨rfl, -⟩ := hlast
  refine segment_append.2 ⟨some b, hxs.congr ?_, rfl, q', write_self .., rfl⟩
  rintro a ha
  exact write_of_ne h _ (ne_of_mem_of_not_mem ha hb)

end Segment

/-! ## Operations on one chain -/

/-- An operation turned the cells of one chain into other ones: it took the new ones from the free
cells, freed those that are gone, and left all other cells as they were. -/
structure Touches (h h' : Heap α) (cells cells' : List (Nat × α)) : Prop where
  fresh : ∀ a ∈ addresses cells', a ∈ addresses cells ∨ h a = none
  freed : ∀ a ∈ addresses cells, a ∉ addresses cells' → h' a = none
  frame : ∀ a, a ∉ addresses cells → a ∉ addresses cells' → h' a = h a

theorem Touches.refl (h : Heap α) (cells : List (Nat × α)) : Touches h h cells cells :=
  ⟨fun _ ha => Or.inl ha, fun _ ha hn => absurd ha hn, fun _ _ _ => rfl⟩

/-- Freeing after freeing. -/
theorem Touches.trans {h₁ h₂ h₃ : Heap α} {xs ys zs : List (Nat × α)} (hxy : Touches h₁ h₂ xs ys)
    (hyz : Touches h₂ h₃ ys zs) (hsub : ∀ a ∈ addresses zs, a ∈ addresses ys)
    (hsub' : ∀ a ∈ addresses ys, a ∈ addresses xs) : Touches h₁ h₃ xs zs := by
  refine ⟨fun a ha => Or.inl (hsub' a (hsub a ha)), fun a ha hn => ?_, fun a ha hn => ?_⟩
  · by_cases hmem : a ∈ addresses ys
    · exact hyz.freed a hmem hn
    · rw [hyz.frame a hmem hn]
      exact hxy.freed a ha hmem
  · have hys : a ∉ addresses ys := fun hmem => ha (hsub' a hmem)
    rw [hyz.frame a hys hn, hxy.frame a ha hys]

/-! ## Linking and unlinking -/

section Linking

variable {h : Heap α} {p : Option Nat} {xs ys : List (Nat × α)} {a b : Nat} {v w : α}

/-- A cell that ends a list is the chain of a single cell. -/
theorem Chain.single (ha : h a = some ⟨v, none⟩) : Chain h (some a) [(a, v)] :=
  ⟨rfl, none, ha, rfl⟩

/-- A free cell linked behind the last one. -/
theorem Chain.link (hc : Chain h p (xs ++ [(b, w)])) (ha : h a = none) :
    Chain ((h.write a ⟨v, none⟩).write b ⟨w, some a⟩) p (xs ++ [(b, w)] ++ [(a, v)]) := by
  have hfree := hc.not_mem_of_none ha
  have hab : a ≠ b := by
    rintro rfl
    exact hfree (by simp)
  have hb : b ∉ addresses xs := by
    have hnodup := hc.nodup
    rw [addresses, List.map_append, List.nodup_append] at hnodup
    exact fun hmem => hnodup.2.2 b hmem b (by simp) rfl
  refine segment_append.2 ⟨some a, ?_, Chain.single ?_⟩
  · -- the cells before it do not see that the free cell is taken
    refine Segment.redirect (hc.congr fun c hmem => write_of_ne h _ ?_) hb (some a)
    exact ne_of_mem_of_not_mem hmem hfree
  · rw [write_of_ne _ _ hab, write_self]

/-- The cell behind another one unlinked and freed. -/
theorem Chain.unlink {next : Option Nat} (hc : Chain h p (xs ++ (b, w) :: (a, v) :: ys))
    (ha : h a = some ⟨v, next⟩) :
    Chain ((h.write b ⟨w, next⟩).erase a) p (xs ++ (b, w) :: ys) := by
  have hnodup := hc.nodup
  simp only [addresses, List.map_append, List.map_cons, List.nodup_append, List.nodup_cons,
    List.mem_cons, not_or] at hnodup
  obtain ⟨-, ⟨⟨hba, hbys⟩, hays, -⟩, hxs⟩ := hnodup
  rw [show xs ++ (b, w) :: (a, v) :: ys = (xs ++ [(b, w)]) ++ (a, v) :: ys by simp] at hc
  rw [show xs ++ (b, w) :: ys = (xs ++ [(b, w)]) ++ ys by simp]
  obtain ⟨r, hbefore, rfl, next', ha', hafter⟩ := segment_append.1 hc
  obtain ⟨-, rfl⟩ := Cell.mk.inj (Option.some.inj (ha.symm.trans ha'))
  refine segment_append.2 ⟨next, ?_, ?_⟩
  · refine (hbefore.redirect (fun hmem => hxs b hmem b (Or.inl rfl) rfl) next).congr ?_
    intro c hmem
    refine erase_of_ne _ ?_
    rintro rfl
    simp only [addresses, List.map_append, List.map_cons, List.map_nil, List.mem_append,
      List.mem_singleton] at hmem
    rcases hmem with hmem | rfl
    · exact hxs c hmem c (Or.inr (Or.inl rfl)) rfl
    · exact hba rfl
  · refine hafter.congr fun c hmem => ?_
    rw [erase_of_ne _ (ne_of_mem_of_not_mem hmem hays),
      write_of_ne _ _ (ne_of_mem_of_not_mem hmem hbys)]

/-- The first cell freed. -/
theorem Chain.pop {next : Option Nat} (hc : Chain h p ((a, v) :: ys)) (ha : h a = some ⟨v, next⟩) :
    Chain (h.erase a) next ys := by
  have hnodup := List.nodup_cons.1 hc.nodup
  obtain ⟨-, next', ha', hrest⟩ := hc
  obtain ⟨-, rfl⟩ := Cell.mk.inj (Option.some.inj (ha.symm.trans ha'))
  exact hrest.congr fun c hmem => erase_of_ne _ (ne_of_mem_of_not_mem hmem hnodup.1)

theorem touches_single (ha : h a = none) : Touches h (h.write a ⟨v, none⟩) [] [(a, v)] := by
  refine ⟨?_, by simp, ?_⟩
  · rintro c hc
    obtain rfl : c = a := by simpa using hc
    exact Or.inr ha
  · intro c _ hc
    exact write_of_ne h _ (by simpa using hc)

theorem touches_link (ha : h a = none) :
    Touches h ((h.write a ⟨v, none⟩).write b ⟨w, some a⟩) (xs ++ [(b, w)])
      (xs ++ [(b, w)] ++ [(a, v)]) := by
  refine ⟨fun c hc => ?_, fun c hc hn => absurd ?_ hn, fun c hc hn => ?_⟩
  · rw [addresses, List.map_append, List.mem_append] at hc
    refine hc.imp id fun hc => ?_
    obtain rfl : c = a := by simpa using hc
    exact ha
  · rw [addresses, List.map_append, List.mem_append]
    exact Or.inl hc
  · simp only [addresses, List.map_append, List.map_cons, List.map_nil, List.mem_append,
      List.mem_singleton, not_or] at hc hn
    rw [write_of_ne _ _ hc.2, write_of_ne _ _ hn.2]

theorem touches_unlink (next : Option Nat) :
    Touches h ((h.write b ⟨w, next⟩).erase a) (xs ++ (b, w) :: (a, v) :: ys)
      (xs ++ (b, w) :: ys) := by
  refine ⟨fun c hc => Or.inl ?_, fun c hc hn => ?_, fun c hc hn => ?_⟩
  · simp only [List.map_append, List.map_cons, List.mem_append, List.mem_cons] at hc ⊢
    tauto
  · -- the address that is gone is the one that was freed
    simp only [List.map_append, List.map_cons, List.mem_append, List.mem_cons] at hc hn
    obtain rfl : c = a := by tauto
    exact erase_self ..
  · simp only [List.map_append, List.map_cons, List.mem_append, List.mem_cons, not_or] at hc
    rw [erase_of_ne _ hc.2.2.1, write_of_ne _ _ hc.2.1]

theorem touches_pop : Touches h (h.erase a) ((a, v) :: ys) ys := by
  refine ⟨fun c hc => Or.inl (List.mem_cons_of_mem _ hc), fun c hc hn => ?_, fun c hc hn => ?_⟩
  · obtain rfl : c = a := (List.mem_cons.1 hc).resolve_right hn
    exact erase_self ..
  · exact erase_of_ne _ (List.ne_of_not_mem_cons hc)

end Linking

/-! ## Families of chains -/

/-- Chains that share no cell and hold all cells in use. -/
structure Forest {ι : Type v} (h : Heap α) (heads : ι → Option Nat) (cells : ι → List (Nat × α)) :
    Prop where
  chain : ∀ i, Chain h (heads i) (cells i)
  apart : ∀ i j a, a ∈ addresses (cells i) → a ∈ addresses (cells j) → i = j
  inUse : ∀ a, (h a).isSome → ∃ i, a ∈ addresses (cells i)

section Forest

variable {ι : Type v} {h h' : Heap α} {heads : ι → Option Nat} {cells : ι → List (Nat × α)}

theorem forest_empty : Forest (fun _ => none : Heap α) (fun _ : ι => none) fun _ => [] :=
  ⟨fun _ => rfl, by simp, by simp⟩

/-- An address of no chain is free. -/
theorem Forest.free (hf : Forest h heads cells) {a : Nat} (ha : ∀ i, a ∉ addresses (cells i)) :
    h a = none := by
  cases hcell : h a with
  | none => rfl
  | some c =>
      obtain ⟨i, hi⟩ := hf.inUse a (by rw [hcell]; rfl)
      exact absurd hi (ha i)

/-- An operation on one chain keeps the others. -/
theorem Forest.update [DecidableEq ι] (hf : Forest h heads cells) {i : ι} {p : Option Nat}
    {cells' : List (Nat × α)} (hc : Chain h' p cells') (ht : Touches h h' (cells i) cells') :
    Forest h' (Function.update heads i p) (Function.update cells i cells') := by
  -- the cells of another chain are none of the new ones
  have hother : ∀ j, j ≠ i → ∀ a ∈ addresses (cells j),
      a ∉ addresses (cells i) ∧ a ∉ addresses cells' := by
    intro j hj a ha
    have hi : a ∉ addresses (cells i) := fun hmem => hj (hf.apart j i a ha hmem)
    refine ⟨hi, fun hmem => ?_⟩
    rcases ht.fresh a hmem with hmem | hnone
    · exact hi hmem
    · exact (hf.chain j).not_mem_of_none hnone ha
  refine ⟨fun j => ?_, fun j k a hj hk => ?_, fun a ha => ?_⟩
  · by_cases hj : j = i
    · subst hj
      rw [Function.update_self, Function.update_self]
      exact hc
    · rw [Function.update_of_ne hj, Function.update_of_ne hj]
      refine (hf.chain j).congr fun a ha => ?_
      exact ht.frame a (hother j hj a ha).1 (hother j hj a ha).2
  · by_cases hji : j = i <;> by_cases hki : k = i
    · rw [hji, hki]
    · subst hji
      rw [Function.update_self] at hj
      rw [Function.update_of_ne hki] at hk
      exact absurd hj (hother k hki a hk).2
    · subst hki
      rw [Function.update_self] at hk
      rw [Function.update_of_ne hji] at hj
      exact absurd hk (hother j hji a hj).2
    · rw [Function.update_of_ne hji] at hj
      rw [Function.update_of_ne hki] at hk
      exact hf.apart j k a hj hk
  · by_cases hmem : a ∈ addresses cells'
    · exact ⟨i, by rwa [Function.update_self]⟩
    · -- a cell that was in use before, in another chain
      have hi : a ∉ addresses (cells i) := by
        intro hmem'
        rw [ht.freed a hmem' hmem] at ha
        cases ha
      rw [ht.frame a hi hmem] at ha
      obtain ⟨j, hj⟩ := hf.inUse a ha
      have hne : j ≠ i := by
        rintro rfl
        exact hi hj
      exact ⟨j, by rwa [Function.update_of_ne hne]⟩

end Forest

end Library.Chains

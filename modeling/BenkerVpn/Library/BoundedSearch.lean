import Mathlib.Tactic.Common

/-!
# Searches that give up

A search asks `p 0`, `p 1` and so on, and gives up after `limit` questions (`firstHit`); `tries`
counts its questions. Searches with different limits differ in the hit or in the number of
questions, unless both find the same hit (`search_congr_iff`).
-/

set_option autoImplicit false

namespace Library.BoundedSearch

/-- The first hit among `limit` candidates. -/
def firstHit (p : Nat → Bool) (limit : Nat) : Option Nat := (List.range limit).find? p

/-- The candidates that are looked at. -/
def tries (p : Nat → Bool) (limit : Nat) : Nat :=
  match firstHit p limit with
  | none => limit
  | some k => k + 1

variable {p : Nat → Bool} {limit limit' k : Nat}

theorem firstHit_eq_some_iff :
    firstHit p limit = some k ↔ k < limit ∧ p k = true ∧ ∀ j < k, p j = false := by
  rw [firstHit, List.find?_range_eq_some, List.mem_range]
  simp only [Bool.not_eq_true']
  exact ⟨fun ⟨hk, hlt, hbefore⟩ => ⟨hlt, hk, hbefore⟩, fun ⟨hlt, hk, hbefore⟩ => ⟨hk, hlt, hbefore⟩⟩

theorem firstHit_eq_none_iff : firstHit p limit = none ↔ ∀ k < limit, p k = false := by
  rw [firstHit, List.find?_range_eq_none]
  simp only [Bool.not_eq_true']

theorem firstHit_eq_zero (hpos : 0 < limit) (hp : p 0 = true) : firstHit p limit = some 0 :=
  firstHit_eq_some_iff.2 ⟨hpos, hp, fun j hj => absurd hj (Nat.not_lt_zero j)⟩

/-- A search with one more question asks the first one and goes on with the others. -/
theorem firstHit_succ (p : Nat → Bool) (limit : Nat) :
    firstHit p (limit + 1) =
      if p 0 = true then some 0 else (firstHit (fun k => p (k + 1)) limit).map (· + 1) := by
  rw [firstHit, List.range_succ_eq_map, List.find?_cons]
  cases hp : p 0 with
  | true => rfl
  | false =>
      rw [List.find?_map]
      rfl

theorem tries_of_none (h : firstHit p limit = none) : tries p limit = limit := by
  rw [tries, h]

theorem tries_of_some (h : firstHit p limit = some k) : tries p limit = k + 1 := by
  rw [tries, h]

theorem tries_le (p : Nat → Bool) (limit : Nat) : tries p limit ≤ limit := by
  cases h : firstHit p limit with
  | none => exact Nat.le_of_eq (tries_of_none h)
  | some k =>
      rw [tries_of_some h]
      exact (firstHit_eq_some_iff.1 h).1

theorem tries_succ (p : Nat → Bool) (limit : Nat) :
    tries p (limit + 1) = if p 0 = true then 1 else tries (fun k => p (k + 1)) limit + 1 := by
  have hsucc := firstHit_succ p limit
  by_cases hp : p 0 = true
  · rw [if_pos hp] at hsucc ⊢
    rw [tries_of_some hsucc]
  · rw [if_neg hp] at hsucc ⊢
    cases hrest : firstHit (fun k => p (k + 1)) limit with
    | none =>
        rw [hrest, Option.map_none] at hsucc
        rw [tries_of_none hsucc, tries_of_none hrest]
    | some k =>
        rw [hrest, Option.map_some] at hsucc
        rw [tries_of_some hsucc, tries_of_some hrest]

/-- The first hit is not behind a hit within the limit. -/
theorem exists_firstHit {j : Nat} (hj : j < limit) (hp : p j = true) :
    ∃ k ≤ j, firstHit p limit = some k := by
  cases h : firstHit p limit with
  | none =>
      have hfalse := firstHit_eq_none_iff.1 h j hj
      rw [hp] at hfalse
      cases hfalse
  | some k =>
      refine ⟨k, ?_, rfl⟩
      by_contra hlt
      have hfalse := (firstHit_eq_some_iff.1 h).2.2 j (by omega)
      rw [hp] at hfalse
      cases hfalse

/-- A hit within both limits makes both searches find the same. -/
theorem exists_firstHit_both {j : Nat} (hj : j < limit) (hj' : j < limit') (hp : p j = true) :
    ∃ k, firstHit p limit = some k ∧ firstHit p limit' = some k := by
  obtain ⟨k, hkj, h⟩ := exists_firstHit hj hp
  obtain ⟨-, hk, hbefore⟩ := firstHit_eq_some_iff.1 h
  exact ⟨k, h, firstHit_eq_some_iff.2 ⟨by omega, hk, hbefore⟩⟩

/-- Two searches of different limits find the same and ask as often exactly if there is a hit within
both limits. -/
theorem search_congr_iff :
    firstHit p limit = firstHit p limit' ∧ tries p limit = tries p limit' ↔
      limit = limit' ∨ ∃ k, k < limit ∧ k < limit' ∧ p k = true := by
  constructor
  · rintro ⟨hhit, htries⟩
    cases h : firstHit p limit with
    | none =>
        rw [tries_of_none h, tries_of_none (hhit.symm.trans h)] at htries
        exact Or.inl htries
    | some k =>
        obtain ⟨hlt, hk, -⟩ := firstHit_eq_some_iff.1 h
        obtain ⟨hlt', -, -⟩ := firstHit_eq_some_iff.1 (hhit.symm.trans h)
        exact Or.inr ⟨k, hlt, hlt', hk⟩
  · rintro (rfl | ⟨k, hlt, hlt', hk⟩)
    · exact ⟨rfl, rfl⟩
    · obtain ⟨j, h, h'⟩ := exists_firstHit_both hlt hlt' hk
      exact ⟨h.trans h'.symm, (tries_of_some h).trans (tries_of_some h').symm⟩

end Library.BoundedSearch

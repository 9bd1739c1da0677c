import Mathlib.Data.PEquiv

/-!
# Growing partial bijections

A partial bijection is a `PEquiv`. `insertPair` adds a pair whose two ends are still unbound
(`insertPair_self`, `insertPair_of_ne`). `Grows` is one step of a table of pairs that is never
shrunk: it stays or gets one such pair, whose second end is admissible. What was bound before a step
is bound alike after it (`Grows.le`).
-/

set_option autoImplicit false

namespace Library.PartialBijection

universe u v

variable {α : Type u} {β : Type v} [DecidableEq α] [DecidableEq β]

/-- The partial bijection with one more pair. -/
def insertPair (f : α ≃. β) (a : α) (b : β) (ha : f a = none) (hb : f.symm b = none) : α ≃. β where
  toFun := Function.update f a (some b)
  invFun := Function.update f.symm b (some a)
  inv x y := by
    by_cases hx : x = a
    · subst hx
      by_cases hy : y = b
      · subst hy
        simp
      · -- `x` is unbound in `f`, so no other `y` comes from it
        rw [Function.update_of_ne hy, Function.update_self, f.eq_some_iff, ha]
        simp [Ne.symm hy]
    · by_cases hy : y = b
      · subst hy
        rw [Function.update_self, Function.update_of_ne hx, ← f.eq_some_iff, hb]
        simp [Ne.symm hx]
      · rw [Function.update_of_ne hy, Function.update_of_ne hx]
        exact f.eq_some_iff

section InsertPair

variable {f : α ≃. β} {a : α} {b : β} (ha : f a = none) (hb : f.symm b = none)

theorem insertPair_self : insertPair f a b ha hb a = some b := Function.update_self ..

theorem insertPair_of_ne {x : α} (hx : x ≠ a) : insertPair f a b ha hb x = f x :=
  Function.update_of_ne hx ..

/-- The pairs after an insertion. -/
theorem insertPair_eq_some_iff (x : α) (y : β) :
    insertPair f a b ha hb x = some y ↔ (x = a ∧ y = b) ∨ f x = some y := by
  by_cases hx : x = a
  · subst hx
    rw [insertPair_self, ha]
    simp [eq_comm]
  · rw [insertPair_of_ne ha hb hx]
    simp [hx]

theorem le_insertPair : f ≤ insertPair f a b ha hb := by
  rw [PEquiv.le_def]
  intro x y hxy
  exact (insertPair_eq_some_iff ha hb x y).2 (Or.inr hxy)

end InsertPair

/-- The partial bijection stays, or gets one pair with an admissible second end. -/
inductive Grows (ok : β → Prop) (f : α ≃. β) : (α ≃. β) → Prop where
  | keep : Grows ok f f
  | pair (a : α) (b : β) (ha : f a = none) (hb : f.symm b = none) (hok : ok b) :
      Grows ok f (insertPair f a b ha hb)

theorem Grows.le {ok : β → Prop} {f g : α ≃. β} (h : Grows ok f g) : f ≤ g := by
  cases h with
  | keep => exact le_refl f
  | pair a b ha hb hok => exact le_insertPair ha hb

end Library.PartialBijection

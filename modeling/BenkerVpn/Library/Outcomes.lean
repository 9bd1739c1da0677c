import Mathlib.Tactic.Common

/-!
# Computations that may fail

`Ends allowed r post` says of a computation in `Except` that it returns a result with the property
`post` or fails for a reason that is allowed. The rules below follow the way such a computation is
put together: `ends_pure`, `Ends.bind`, a loop over a range with an invariant (`Ends.range`), and
the consequence rule `Ends.mono`.
-/

set_option autoImplicit false

namespace Library.Outcomes

universe u v w

variable {ε : Type u} {α : Type v} {β : Type v}

/-- The computation returns a result with the property, or fails for an allowed reason. -/
def Ends (allowed : ε → Prop) (r : Except ε α) (post : α → Prop) : Prop :=
  match r with
  | .ok a => post a
  | .error e => allowed e

section Rules

variable {allowed : ε → Prop} {r : Except ε α} {post post' : α → Prop}

@[simp] theorem ends_ok (a : α) : Ends allowed (.ok a) post ↔ post a := Iff.rfl

@[simp] theorem ends_pure (a : α) : Ends allowed (pure a : Except ε α) post ↔ post a := Iff.rfl

@[simp] theorem ends_error (e : ε) : Ends allowed (.error e : Except ε α) post ↔ allowed e :=
  Iff.rfl

theorem Ends.mono (h : Ends allowed r post) (hpost : ∀ a, post a → post' a) :
    Ends allowed r post' := by
  cases r with
  | ok a => exact hpost a h
  | error e => exact h

/-- One computation after the other. -/
theorem Ends.bind {f : α → Except ε β} {next : β → Prop} (h : Ends allowed r post)
    (hf : ∀ a, post a → Ends allowed (f a) next) : Ends allowed (r >>= f) next := by
  cases r with
  | ok a => exact hf a h
  | error e => exact h

/-- A computation known to return its result. -/
theorem ends_bind_of_eq {f : α → Except ε β} {next : β → Prop} {a : α} (h : r = .ok a)
    (hf : Ends allowed (f a) next) : Ends allowed (r >>= f) next := by
  rw [h]
  exact hf

/-- An invariant of the rounds of a loop holds behind it. -/
theorem Ends.range {f : α → Nat → Except ε α} (Inv : Nat → α → Prop) {n : Nat} {a : α}
    (hinit : Inv 0 a) (hround : ∀ i < n, ∀ a, Inv i a → Ends allowed (f a i) (Inv (i + 1))) :
    Ends allowed ((List.range n).foldlM f a) (Inv n) := by
  induction n with
  | zero => exact hinit
  | succ n ih =>
      rw [List.range_succ, List.foldlM_append]
      refine (ih fun i hi => hround i (Nat.lt_succ_of_lt hi)).bind fun a' ha' => ?_
      exact (hround n (Nat.lt_succ_self n) a' ha').bind fun a'' ha'' => ha''

end Rules

end Library.Outcomes

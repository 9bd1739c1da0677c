import Mathlib.Tactic.Common

/-!
# What is observed of a run

`observe` lists the outputs of those events of a run that somebody can see. If related states stay
related, whether or not the other events happen, and give the same outputs, then the others cannot
be noticed: the observer sees the same in the run without them (`observe_eq_filter`). With
everything visible this is the rule for two machines that simulate each other (`observe_eq`).
-/

set_option autoImplicit false

namespace Library.Observations

universe u v w

variable {σ τ : Type u} {ε : Type v} {ω : Type w}

/-- The outputs of the events that are seen. -/
def observe (seen : ε → Bool) (step : σ → ε → σ) (out : σ → ε → ω) : σ → List ε → List ω
  | _, [] => []
  | s, e :: es =>
      if seen e then out s e :: observe seen step out (step s e) es
      else observe seen step out (step s e) es

section Rules

variable {seen : ε → Bool} {step : σ → ε → σ} {step' : τ → ε → τ} {out : σ → ε → ω}
  {out' : τ → ε → ω} {R : σ → τ → Prop} {es : List ε}

/-- Events that are not seen and keep the relation can be left out. -/
theorem observe_eq_filter
    (hseen : ∀ s t, ∀ e ∈ es, seen e = true → R s t → out s e = out' t e ∧ R (step s e) (step' t e))
    (hother : ∀ s t, ∀ e ∈ es, seen e = false → R s t → R (step s e) t) {s : σ} {t : τ}
    (h : R s t) : observe seen step out s es = observe seen step' out' t (es.filter seen) := by
  induction es generalizing s t with
  | nil => rfl
  | cons e es ih =>
      have ih' := @ih (fun s t e' he' => hseen s t e' (List.mem_cons_of_mem _ he'))
        (fun s t e' he' => hother s t e' (List.mem_cons_of_mem _ he'))
      cases he : seen e with
      | true =>
          obtain ⟨hout, hnext⟩ := hseen s t e List.mem_cons_self he h
          rw [List.filter_cons_of_pos he, observe, observe, if_pos he, if_pos he, hout, ih' hnext]
      | false =>
          have hne : ¬ seen e = true := by rw [he]; exact Bool.false_ne_true
          rw [List.filter_cons_of_neg hne, observe, if_neg hne]
          exact ih' (hother s t e List.mem_cons_self he h)

/-- Machines that simulate each other in the events of a run cannot be told apart by it. -/
theorem observe_eq
    (hstep : ∀ s t, ∀ e ∈ es, R s t → out s e = out' t e ∧ R (step s e) (step' t e)) {s : σ} {t : τ}
    (h : R s t) :
    observe (fun _ => true) step out s es = observe (fun _ => true) step' out' t es := by
  have hfilter : es.filter (fun _ => true) = es := List.filter_eq_self.2 fun _ _ => rfl
  conv_rhs => rw [← hfilter]
  apply observe_eq_filter
  · exact fun s t e he _ => hstep s t e he
  · rintro s t e - ⟨⟩
  · exact h

end Rules

end Library.Observations

import Mathlib.Tactic.Common

/-!
# Runs of a deterministic machine

A machine is a step function `step : σ → ε → σ`. A run performs a list of events from a state
(`exec`); `Permitted` says that every event of the list is allowed in the state in which it
happens. The rules below are the ones a proof about runs uses: a state invariant
(`invariant_exec`), a relation between the ends of a run (`relation_exec`), a history invariant that
also speaks of the events performed so far (`history_exec`), `Occurs`, which says that events with
given properties happened in the given order, and `Throughout`, which says that each event fits the
events before it. What did not hold first and holds in the end came about at some event
(`occurs_of_exec`). A run whose steps may trap is that of a machine whose steps never do, if an
invariant keeps them from it (`checkedExec_eq_some`).
-/

set_option autoImplicit false

namespace Library.Runs

universe u v

variable {σ : Type u} {ε : Type v}

/-- The state after a list of events. -/
def exec (step : σ → ε → σ) (s : σ) (es : List ε) : σ := es.foldl step s

/-- Every event is allowed in the state in which it happens. -/
def Permitted (step : σ → ε → σ) (ok : σ → ε → Prop) : σ → List ε → Prop
  | _, [] => True
  | s, e :: es => ok s e ∧ Permitted step ok (step s e) es

instance Permitted.decidable (step : σ → ε → σ) (ok : σ → ε → Prop) [∀ s e, Decidable (ok s e)] :
    (s : σ) → (es : List ε) → Decidable (Permitted step ok s es)
  | _, [] => isTrue trivial
  | s, e :: es =>
      have := Permitted.decidable step ok (step s e) es
      inferInstanceAs (Decidable (ok s e ∧ Permitted step ok (step s e) es))

section Rules

variable {step : σ → ε → σ} {ok : σ → ε → Prop}

@[simp] theorem exec_nil (s : σ) : exec step s [] = s := rfl

@[simp] theorem exec_cons (s : σ) (e : ε) (es : List ε) :
    exec step s (e :: es) = exec step (step s e) es := rfl

@[simp] theorem exec_append (s : σ) (as bs : List ε) :
    exec step s (as ++ bs) = exec step (exec step s as) bs :=
  List.foldl_append

@[simp] theorem permitted_nil (s : σ) : Permitted step ok s [] := trivial

@[simp] theorem permitted_cons (s : σ) (e : ε) (es : List ε) :
    Permitted step ok s (e :: es) ↔ ok s e ∧ Permitted step ok (step s e) es := Iff.rfl

@[simp] theorem permitted_append (s : σ) (as bs : List ε) :
    Permitted step ok s (as ++ bs) ↔
      Permitted step ok s as ∧ Permitted step ok (exec step s as) bs := by
  induction as generalizing s with
  | nil => simp
  | cons a as ih => simp [ih, and_assoc]

/-- Events that are allowed in every state are allowed along every run. -/
theorem permitted_of_forall {s : σ} {es : List ε} (h : ∀ s, ∀ e ∈ es, ok s e) :
    Permitted step ok s es := by
  induction es generalizing s with
  | nil => trivial
  | cons e es ih =>
      exact ⟨h s e List.mem_cons_self, ih fun s e he => h s e (List.mem_cons_of_mem _ he)⟩

/-- Two conditions that mean the same in every invariant state allow the same runs. -/
theorem permitted_congr {ok' : σ → ε → Prop} (Inv : σ → Prop) {s : σ} {es : List ε}
    (hinv : ∀ s, ∀ e ∈ es, Inv s → Inv (step s e))
    (hiff : ∀ s, ∀ e ∈ es, Inv s → (ok s e ↔ ok' s e)) (hs : Inv s) :
    Permitted step ok s es ↔ Permitted step ok' s es := by
  induction es generalizing s with
  | nil => exact Iff.rfl
  | cons e es ih =>
      apply and_congr (hiff s e List.mem_cons_self hs)
      apply ih
      · exact fun s e' he' => hinv s e' (List.mem_cons_of_mem _ he')
      · exact fun s e' he' => hiff s e' (List.mem_cons_of_mem _ he')
      · exact hinv s e List.mem_cons_self hs

/-- A condition that holds in every invariant state allows every run that keeps the invariant. -/
theorem permitted_of_invariant (Inv : σ → Prop) {s : σ} {es : List ε}
    (hinv : ∀ s, ∀ e ∈ es, Inv s → Inv (step s e)) (hok : ∀ s, ∀ e ∈ es, Inv s → ok s e)
    (hs : Inv s) : Permitted step ok s es :=
  (permitted_congr Inv hinv (fun s e he h => iff_true_intro (hok s e he h)) hs).2
    (permitted_of_forall fun _ _ _ => trivial)

/-- An invariant of every allowed step is an invariant of every allowed run. -/
theorem invariant_exec {Inv : σ → Prop} (hstep : ∀ s e, Inv s → ok s e → Inv (step s e))
    {s : σ} {es : List ε} (hs : Inv s) (hok : Permitted step ok s es) :
    Inv (exec step s es) := by
  induction es generalizing s with
  | nil => exact hs
  | cons e es ih => exact ih (hstep s e hs hok.1) hok.2

/-- An invariant of the steps of a list of events is an invariant of the run. -/
theorem invariant_of_mem (Inv : σ → Prop) {s : σ} {es : List ε}
    (hstep : ∀ s, ∀ e ∈ es, Inv s → Inv (step s e)) (hs : Inv s) : Inv (exec step s es) :=
  invariant_exec (fun s e h (he : e ∈ es) => hstep s e he h) hs
    (permitted_of_forall fun _ _ he => he)

/-- A reflexive and transitive relation between the ends of every step relates the ends of every
run. -/
theorem relation_exec {R : σ → σ → Prop} (hrefl : ∀ s, R s s)
    (htrans : ∀ {a b c}, R a b → R b c → R a c) (hstep : ∀ s e, R s (step s e)) (s : σ)
    (es : List ε) : R s (exec step s es) := by
  induction es generalizing s with
  | nil => exact hrefl s
  | cons e es ih => exact htrans (hstep s e) (ih (step s e))

/-- A history invariant speaks of the events performed so far and of the state reached by them. -/
theorem history_exec {H : List ε → σ → Prop}
    (hstep : ∀ done s e, H done s → ok s e → H (done ++ [e]) (step s e))
    {done : List ε} {s : σ} {es : List ε} (hs : H done s) (hok : Permitted step ok s es) :
    H (done ++ es) (exec step s es) := by
  induction es generalizing done s with
  | nil => simpa using hs
  | cons e es ih =>
      have h := ih (hstep done s e hs hok.1) hok.2
      simpa using h

/-- A history invariant of the steps of a list of events holds after the run. -/
theorem history_of_mem (H : List ε → σ → Prop) {s : σ} {es : List ε}
    (hstep : ∀ done s, ∀ e ∈ es, H done s → H (done ++ [e]) (step s e)) (hs : H [] s) :
    H es (exec step s es) := by
  have h := history_exec (fun done s e h (he : e ∈ es) => hstep done s e he h) hs
    (permitted_of_forall fun _ _ he => he)
  rwa [List.nil_append] at h

end Rules

/-! ## Steps that may trap -/

/-- The state after a list of events, unless a step traps. -/
def checkedExec (checked : σ → ε → Option σ) (s : σ) (es : List ε) : Option σ :=
  es.foldlM checked s

section Checked

variable {checked : σ → ε → Option σ}

@[simp] theorem checkedExec_cons (s : σ) (e : ε) (es : List ε) :
    checkedExec checked s (e :: es) = (checked s e).bind fun s' => checkedExec checked s' es := rfl

/-- If no step traps from an invariant state, no run does, and it ends where the machine does. -/
theorem checkedExec_eq_some {step : σ → ε → σ} (Inv : σ → Prop)
    (hstep : ∀ s e, Inv s → checked s e = some (step s e)) (hinv : ∀ s e, Inv s → Inv (step s e))
    {s : σ} (hs : Inv s) (es : List ε) : checkedExec checked s es = some (exec step s es) := by
  induction es generalizing s with
  | nil => rfl
  | cons e es ih =>
      rw [checkedExec_cons, hstep s e hs, Option.bind_some, exec_cons]
      exact ih (hinv s e hs)

end Checked

/-! ## Events in order -/

/-- Events with the listed properties happen in this order during the run; a property speaks of an
event and of the state in which it happens. -/
def Occurs (step : σ → ε → σ) : List (σ → ε → Prop) → σ → List ε → Prop
  | [], _, _ => True
  | P :: Ps, s, es => ∃ pre e post, es = pre ++ e :: post ∧ P (exec step s pre) e ∧
      Occurs step Ps (exec step s (pre ++ [e])) post

section Occurs

variable {step : σ → ε → σ}

@[simp] theorem occurs_nil (s : σ) (es : List ε) : Occurs step [] s es := trivial

/-- What occurred still occurred after more events. -/
theorem Occurs.append_right {Ps : List (σ → ε → Prop)} {s : σ} {es : List ε}
    (h : Occurs step Ps s es) (more : List ε) : Occurs step Ps s (es ++ more) := by
  induction Ps generalizing s es with
  | nil => trivial
  | cons P Ps ih =>
      obtain ⟨pre, e, post, rfl, hP, hPs⟩ := h
      exact ⟨pre, e, post ++ more, by simp, hP, ih hPs⟩

/-- After the events `Ps`, one more event with the property `P`. -/
theorem Occurs.snoc {Ps : List (σ → ε → Prop)} {P : σ → ε → Prop} {s : σ} {es : List ε} {e : ε}
    (h : Occurs step Ps s es) (hP : P (exec step s es) e) :
    Occurs step (Ps ++ [P]) s (es ++ [e]) := by
  induction Ps generalizing s es with
  | nil => exact ⟨es, e, [], rfl, hP, trivial⟩
  | cons Q Ps ih =>
      obtain ⟨pre, e', post, rfl, hQ, hPs⟩ := h
      -- the first event stays where it was, the rest of the run gets the new one
      refine ⟨pre, e', post ++ [e], by simp, hQ, ih hPs ?_⟩
      simpa using hP

/-- What holds after a run but not before it came about at some event. -/
theorem occurs_of_exec {P : σ → Prop} {s : σ} {es : List ε} (hs : ¬ P s) (he : P (exec step s es)) :
    Occurs step [fun s e => ¬ P s ∧ P (step s e)] s es := by
  induction es generalizing s with
  | nil => exact absurd he hs
  | cons e es ih =>
      by_cases hfirst : P (step s e)
      · exact ⟨[], e, es, rfl, ⟨hs, hfirst⟩, trivial⟩
      · obtain ⟨pre, e', post, rfl, hstep, -⟩ := ih hfirst he
        exact ⟨e :: pre, e', post, rfl, hstep, trivial⟩

end Occurs

/-! ## Events and what was before them -/

/-- Every event of the list has the property, which may speak of the events before it. -/
def Throughout (P : List ε → ε → Prop) (es : List ε) : Prop :=
  ∀ pre e post, es = pre ++ e :: post → P pre e

section Throughout

variable {P Q : List ε → ε → Prop} {es : List ε}

theorem throughout_concat (e : ε) : Throughout P (es ++ [e]) ↔ Throughout P es ∧ P es e := by
  constructor
  · intro h
    refine ⟨?_, h es e [] rfl⟩
    rintro pre e' post rfl
    exact h pre e' (post ++ [e]) (by simp)
  · rintro ⟨hes, he⟩ pre e' post h
    -- the event is the last one, or one of those before it
    rcases List.eq_nil_or_concat post with rfl | ⟨post', e'', rfl⟩
    · obtain ⟨rfl, hlast⟩ := List.append_inj' h rfl
      obtain rfl := List.singleton_inj.1 hlast
      exact he
    · have hassoc : es ++ [e] = (pre ++ e' :: post') ++ [e''] := by simpa using h
      exact hes pre e' post' (List.append_inj' hassoc rfl).1

theorem throughout_congr (h : ∀ pre e post, es = pre ++ e :: post → (P pre e ↔ Q pre e)) :
    Throughout P es ↔ Throughout Q es :=
  forall_congr' fun pre => forall_congr' fun e => forall_congr' fun post =>
    forall_congr' fun heq => h pre e post heq

end Throughout

end Library.Runs

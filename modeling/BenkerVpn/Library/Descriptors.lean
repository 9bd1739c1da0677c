import Mathlib.Data.Finset.Basic
import Mathlib.Data.Finset.Max
import Mathlib.Order.Interval.Finset.Nat
import Mathlib.Data.Fintype.EquivFin
import Mathlib.Tactic.Common

/-!
# Descriptors and who owns them

A process makes calls that succeed or fail, takes descriptors and gives them back. `Triple own f
post` says what a computation does that owns the descriptors `own`: whatever else is in use stays in
use, and `post` holds of the result, of the descriptors owned afterwards and of the calls made with
their outcomes. So a descriptor that is owned at the end and not handed out is a leak, and the log
says which call it comes from. Triples are put together with `triple_pure`, `Triple.bind` and
`Triple.frame`, from `triple_call`, `triple_acquire` and `triple_release`.
-/

set_option autoImplicit false

namespace Library.Descriptors

variable {ρ : Type}

/-- How a call ends: it fails, it succeeds, or it succeeds and returns a descriptor. -/
inductive Outcome where
  | failed
  | done
  | opened (fd : Nat)
  deriving DecidableEq

/-- The outcome of a call that returns no descriptor. -/
def outcome : Bool → Outcome
  | true => .done
  | false => .failed

theorem outcome_eq_done_iff (ok : Bool) : outcome ok = .done ↔ ok = true := by
  cases ok with
  | true => exact iff_of_true rfl rfl
  | false => exact iff_of_false Outcome.noConfusion Bool.false_ne_true

/-- A process: the descriptors in use, which of its calls succeed, and the calls it has made. -/
structure Process (ρ : Type) where
  used : Finset Nat
  succeeds : Nat → Bool
  log : List (ρ × Outcome)

/-- The lowest descriptor that is not in use. -/
def lowest (used : Finset Nat) : Nat := Nat.find (Infinite.exists_notMem_finset used)

theorem lowest_notMem (used : Finset Nat) : lowest used ∉ used :=
  Nat.find_spec (Infinite.exists_notMem_finset used)

/-! ## Calls -/

/-- A call, and whether it succeeds. -/
def call (r : ρ) : StateM (Process ρ) Bool := fun p =>
  let ok := p.succeeds p.log.length
  (ok, { p with log := p.log ++ [(r, outcome ok)] })

/-- A call that returns the lowest free descriptor if it succeeds. -/
def acquire (r : ρ) : StateM (Process ρ) (Option Nat) := fun p =>
  if p.succeeds p.log.length then
    let fd := lowest p.used
    (some fd, { p with used := insert fd p.used, log := p.log ++ [(r, .opened fd)] })
  else (none, { p with log := p.log ++ [(r, .failed)] })

/-- Give a descriptor back. -/
def release (fd : Nat) : StateM (Process ρ) Unit := fun p =>
  ((), { p with used := p.used.erase fd })

/-! ## Ownership -/

/-- What a computation does that owns some descriptors. -/
def Triple {α : Type} (own : Finset Nat) (f : StateM (Process ρ) α)
    (post : α → Finset Nat → List (ρ × Outcome) → Prop) : Prop :=
  ∀ (p : Process ρ) (rest : Finset Nat), Disjoint own rest → p.used = own ∪ rest →
    ∃ own' calls, Disjoint own' rest ∧ (f p).2.used = own' ∪ rest ∧
      (f p).2.log = p.log ++ calls ∧ post (f p).1 own' calls

section Rules

variable {α β : Type} {own : Finset Nat} {f : StateM (Process ρ) α}
  {post post' : α → Finset Nat → List (ρ × Outcome) → Prop}

theorem triple_pure {a : α} (h : post a own []) : Triple own (pure a) post :=
  fun p _ hdisj hused => ⟨own, [], hdisj, hused, (List.append_nil p.log).symm, h⟩

theorem Triple.mono (h : Triple own f post)
    (hpost : ∀ a k calls, post a k calls → post' a k calls) : Triple own f post' := by
  intro p rest hdisj hused
  obtain ⟨own', calls, hdisj', hused', hlog, hpost'⟩ := h p rest hdisj hused
  exact ⟨own', calls, hdisj', hused', hlog, hpost _ _ _ hpost'⟩

/-- One computation after the other; the second owns what the first leaves. -/
theorem Triple.bind {g : α → StateM (Process ρ) β}
    {next : β → Finset Nat → List (ρ × Outcome) → Prop} (h : Triple own f post)
    (hg : ∀ a k calls, post a k calls →
      Triple k (g a) fun b k' calls' => next b k' (calls ++ calls')) :
    Triple own (f >>= g) next := by
  intro p rest hdisj hused
  obtain ⟨k, calls, hdisj', hused', hlog, hpost⟩ := h p rest hdisj hused
  obtain ⟨k', calls', hdisj'', hused'', hlog', hnext⟩ := hg _ k calls hpost _ rest hdisj' hused'
  refine ⟨k', calls ++ calls', hdisj'', hused'', ?_, hnext⟩
  rw [← List.append_assoc, ← hlog]
  exact hlog'

/-- Descriptors that a computation does not need stay owned. -/
theorem Triple.frame (h : Triple own f post) {extra : Finset Nat} (hextra : Disjoint own extra) :
    Triple (own ∪ extra) f fun a k calls =>
      ∃ k', k = k' ∪ extra ∧ Disjoint k' extra ∧ post a k' calls := by
  intro p rest hdisj hused
  rw [Finset.disjoint_union_left] at hdisj
  obtain ⟨k', calls, hdisj', hused', hlog, hpost⟩ := h p (extra ∪ rest)
    (Finset.disjoint_union_right.2 ⟨hextra, hdisj.1⟩) (by rw [hused, Finset.union_assoc])
  rw [Finset.disjoint_union_right] at hdisj'
  refine ⟨k' ∪ extra, calls, Finset.disjoint_union_left.2 ⟨hdisj'.2, hdisj.2⟩, ?_, hlog, k', rfl,
    hdisj'.1, hpost⟩
  rw [hused', Finset.union_assoc]

/-- A computation that starts with nothing, as a part of one that owns a descriptor. -/
theorem Triple.beside (h : Triple ∅ f post) (fd : Nat) :
    Triple {fd} f fun a k calls => ∃ k', k = insert fd k' ∧ fd ∉ k' ∧ post a k' calls := by
  have hframe := h.frame (Finset.disjoint_empty_left {fd})
  rw [Finset.empty_union] at hframe
  refine hframe.mono ?_
  rintro a k calls ⟨k', rfl, hdisj, hpost⟩
  rw [Finset.disjoint_singleton_right] at hdisj
  exact ⟨k', by rw [Finset.insert_eq, Finset.union_comm], hdisj, hpost⟩

theorem triple_call (r : ρ) :
    Triple own (call r) fun ok k calls => k = own ∧ calls = [(r, outcome ok)] :=
  fun _ _ hdisj hused => ⟨own, _, hdisj, hused, rfl, rfl, rfl⟩

/-- A new descriptor is owned, if the call succeeds. -/
theorem triple_acquire (r : ρ) :
    Triple own (acquire r) fun fd k calls =>
      fd = none ∧ k = own ∧ calls = [(r, .failed)] ∨
        ∃ n, fd = some n ∧ n ∉ own ∧ k = insert n own ∧ calls = [(r, .opened n)] := by
  intro p rest hdisj hused
  rw [acquire]
  split
  case isTrue hok =>
    have hnew := lowest_notMem p.used
    rw [hused, Finset.mem_union, not_or, ← hused] at hnew
    refine ⟨insert (lowest p.used) own, _, ?_, ?_, rfl,
      Or.inr ⟨lowest p.used, rfl, hnew.1, rfl, rfl⟩⟩
    · exact Finset.disjoint_insert_left.2 ⟨hnew.2, hdisj⟩
    · show insert (lowest p.used) p.used = insert (lowest p.used) own ∪ rest
      rw [Finset.insert_union, hused]
  case isFalse hfailed => exact ⟨own, _, hdisj, hused, rfl, Or.inl ⟨rfl, rfl, rfl⟩⟩

/-- Only what is owned is given back. -/
theorem triple_release {fd : Nat} (h : fd ∈ own) :
    Triple own (release fd : StateM (Process ρ) Unit) fun _ k calls =>
      k = own.erase fd ∧ calls = [] := by
  intro p rest hdisj hused
  refine ⟨own.erase fd, [], hdisj.mono_left (Finset.erase_subset fd own), ?_,
    (List.append_nil p.log).symm, rfl, rfl⟩
  show p.used.erase fd = own.erase fd ∪ rest
  rw [hused, Finset.erase_union_distrib,
    Finset.erase_eq_of_notMem (Finset.disjoint_left.1 hdisj h)]

/-- What a process without descriptors of its own leaves behind. -/
theorem Triple.run (h : Triple ∅ f post) (p : Process ρ) :
    ∃ kept calls, Disjoint kept p.used ∧ (f p).2.used = kept ∪ p.used ∧
      (f p).2.log = p.log ++ calls ∧ post (f p).1 kept calls :=
  h p p.used (Finset.disjoint_empty_left _) (Finset.empty_union _).symm

/-! ## Computations that return their descriptor -/

/-- The result is the only descriptor that is owned, if there is one. -/
def Only (fd : Option Nat) (k : Finset Nat) : Prop :=
  fd = none ∧ k = ∅ ∨ ∃ n, fd = some n ∧ k = {n}

/-- A call that takes a descriptor. -/
theorem triple_acquire_only (r : ρ) :
    Triple ∅ (acquire r) fun fd k calls =>
      fd = none ∧ k = ∅ ∧ calls = [(r, .failed)] ∨
        ∃ n, fd = some n ∧ k = {n} ∧ calls = [(r, .opened n)] := by
  refine (triple_acquire r).mono ?_
  rintro fd k calls (hfailed | ⟨n, hfd, -, hk, hcalls⟩)
  · exact Or.inl hfailed
  · exact Or.inr ⟨n, hfd, hk, hcalls⟩

/-- The end of a computation that closes one of its descriptors. -/
theorem triple_release_insert {n : Nat} {k : Finset Nat} (hn : n ∉ k) (a : α) :
    Triple (insert n k) (do release n; pure a : StateM (Process ρ) α) fun b k' calls =>
      b = a ∧ k' = k ∧ calls = [] := by
  refine (triple_release (Finset.mem_insert_self n k)).bind ?_
  rintro _ _ _ ⟨rfl, rfl⟩
  exact triple_pure ⟨rfl, Finset.erase_insert hn, rfl⟩

theorem triple_release_only (n : Nat) (a : α) :
    Triple {n} (do release n; pure a : StateM (Process ρ) α) fun b k calls =>
      b = a ∧ k = ∅ ∧ calls = [] :=
  triple_release_insert (Finset.notMem_empty n) a

end Rules

end Library.Descriptors

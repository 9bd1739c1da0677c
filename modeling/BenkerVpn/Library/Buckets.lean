import Mathlib.Data.Finset.Card
import Mathlib.Data.List.Nodup
import Mathlib.Logic.Function.Basic
import Mathlib.Tactic.Common

/-!
# Buckets of keyed objects

An index is an array of buckets of objects; `hash` places the key of an object in a bucket.
`Indexed` says that every object stands in the bucket of its key and that no two places of a bucket
hold objects with equal keys, so an object stands in one place only and a key has at most one
object. `lookup` is the search in the bucket of a key; it finds an object exactly if the object is
held and has the key (`Indexed.lookup_eq_some_iff`). Appending an object with a fresh key to its
bucket (`Indexed.insert`, `Indexed.insert_of_congr`) and removing objects (`Indexed.sublist`) keep
the property. `Indexed.lookup_insert` says what is found after the former.
-/

set_option autoImplicit false

namespace Library.Buckets

universe u v

variable {ι : Type u} {κ : Type v}

/-- The object stands in some bucket. -/
def Held (buckets : Nat → List ι) (x : ι) : Prop := ∃ i, x ∈ buckets i

/-- Objects stand in the bucket of their key, and keys are not repeated. -/
structure Indexed (hash : κ → Nat) (key : ι → κ) (buckets : Nat → List ι) : Prop where
  placed : ∀ i, ∀ x ∈ buckets i, i = hash (key x)
  keys_nodup : ∀ i, ((buckets i).map key).Nodup

/-- The search for a key in its bucket. -/
def lookup [DecidableEq κ] (hash : κ → Nat) (key : ι → κ) (buckets : Nat → List ι) (k : κ) :
    Option ι :=
  (buckets (hash k)).find? fun x => key x = k

/-- The object appended to a bucket. -/
def append (buckets : Nat → List ι) (i : Nat) (x : ι) : Nat → List ι :=
  Function.update buckets i (buckets i ++ [x])

theorem append_self (buckets : Nat → List ι) (i : Nat) (x : ι) :
    append buckets i x i = buckets i ++ [x] := Function.update_self ..

theorem append_of_ne (buckets : Nat → List ι) {i j : Nat} (x : ι) (h : j ≠ i) :
    append buckets i x j = buckets j := Function.update_of_ne h ..

theorem mem_append_iff (buckets : Nat → List ι) (i j : Nat) (x y : ι) :
    y ∈ append buckets i x j ↔ y ∈ buckets j ∨ (j = i ∧ y = x) := by
  by_cases h : j = i
  · subst h
    simp [append_self]
  · simp [append_of_ne buckets x h, h]

theorem held_append_iff (buckets : Nat → List ι) (i : Nat) (x y : ι) :
    Held (append buckets i x) y ↔ Held buckets y ∨ y = x := by
  simp only [Held, mem_append_iff, exists_or]
  simp

section Indexed

variable {hash : κ → Nat} {key : ι → κ} {buckets : Nat → List ι}

theorem indexed_empty (hash : κ → Nat) (key : ι → κ) : Indexed hash key fun _ => [] :=
  ⟨by simp, by simp⟩

theorem Indexed.nodup (h : Indexed hash key buckets) (i : Nat) : (buckets i).Nodup :=
  List.Nodup.of_map key (h.keys_nodup i)

/-- A held object stands in the bucket of its key. -/
theorem Indexed.mem_hash (h : Indexed hash key buckets) {x : ι} (hx : Held buckets x) :
    x ∈ buckets (hash (key x)) := by
  obtain ⟨i, hi⟩ := hx
  rwa [← h.placed i x hi]

/-- Held objects with the same key are the same object. -/
theorem Indexed.key_injective (h : Indexed hash key buckets) {x y : ι} (hx : Held buckets x)
    (hy : Held buckets y) (hk : key x = key y) : x = y := by
  have hx' := h.mem_hash hx
  have hy' := h.mem_hash hy
  rw [← hk] at hy'
  exact List.inj_on_of_nodup_map (h.keys_nodup _) hx' hy' hk

/-- An object occurs exactly once, in the bucket of its key. -/
theorem Indexed.count_eq [DecidableEq ι] (h : Indexed hash key buckets) {x : ι}
    (hx : Held buckets x) (i : Nat) :
    (buckets i).count x = if i = hash (key x) then 1 else 0 := by
  split
  · next hi =>
      subst hi
      exact List.count_eq_one_of_mem (h.nodup _) (h.mem_hash hx)
  · next hi =>
      exact List.count_eq_zero.2 fun hmem => hi (h.placed i x hmem)

/-- A bucket holds at most as many objects as there are keys for it. -/
theorem Indexed.length_le_card [DecidableEq κ] (h : Indexed hash key buckets) {keys : Finset κ}
    (hkeys : ∀ x, Held buckets x → key x ∈ keys) (i : Nat) :
    (buckets i).length ≤ (keys.filter fun k => hash k = i).card := by
  have hcard : ((buckets i).map key).toFinset.card = (buckets i).length := by
    rw [List.toFinset_card_of_nodup (h.keys_nodup i), List.length_map]
  rw [← hcard]
  apply Finset.card_le_card
  intro k hk
  obtain ⟨x, hx, rfl⟩ := List.mem_map.1 (List.mem_toFinset.1 hk)
  exact Finset.mem_filter.2 ⟨hkeys x ⟨i, hx⟩, (h.placed i x hx).symm⟩

variable [DecidableEq κ]

theorem Indexed.lookup_eq_some_iff (h : Indexed hash key buckets) (k : κ) (x : ι) :
    lookup hash key buckets k = some x ↔ Held buckets x ∧ key x = k := by
  constructor
  · intro hf
    have hk := List.find?_some hf
    exact ⟨⟨_, List.mem_of_find?_eq_some hf⟩, by simpa using hk⟩
  · rintro ⟨hx, rfl⟩
    cases hf : lookup hash key buckets (key x) with
    | none =>
        -- the search passes the bucket of the key, where the object stands
        have hnone := List.find?_eq_none.1 hf x (h.mem_hash hx)
        simp at hnone
    | some y =>
        have hk := List.find?_some hf
        have hy : Held buckets y := ⟨_, List.mem_of_find?_eq_some hf⟩
        rw [h.key_injective hy hx (by simpa using hk)]

theorem Indexed.lookup_eq_none_iff (h : Indexed hash key buckets) (k : κ) :
    lookup hash key buckets k = none ↔ ∀ x, Held buckets x → key x ≠ k := by
  constructor
  · intro hn x hx hk
    rw [(h.lookup_eq_some_iff k x).2 ⟨hx, hk⟩] at hn
    cases hn
  · intro hall
    cases hf : lookup hash key buckets k with
    | none => rfl
    | some x =>
        obtain ⟨hx, hk⟩ := (h.lookup_eq_some_iff k x).1 hf
        exact absurd hk (hall x hx)

omit [DecidableEq κ] in
/-- An object with a fresh key may be appended to the bucket of its key. -/
theorem Indexed.insert (h : Indexed hash key buckets) {x : ι}
    (hfresh : ∀ y, Held buckets y → key y ≠ key x) :
    Indexed hash key (append buckets (hash (key x)) x) := by
  refine ⟨?_, ?_⟩
  · intro i y hy
    rcases (mem_append_iff buckets _ i x y).1 hy with hy | ⟨rfl, rfl⟩
    · exact h.placed i y hy
    · rfl
  · intro i
    by_cases hi : i = hash (key x)
    · -- the bucket that grows gets a key no held object has
      subst hi
      rw [append_self, List.map_append, List.nodup_append]
      refine ⟨h.keys_nodup _, by simp, ?_⟩
      intro a ha b hb
      obtain ⟨y, hy, rfl⟩ := List.mem_map.1 ha
      simp only [List.map_cons, List.map_nil, List.mem_singleton] at hb
      subst hb
      exact hfresh y ⟨_, hy⟩
    · rw [append_of_ne buckets x hi]
      exact h.keys_nodup i

omit [DecidableEq κ] in
/-- Removing objects keeps an index. -/
theorem Indexed.sublist (h : Indexed hash key buckets) {buckets' : Nat → List ι}
    (hsub : ∀ i, (buckets' i).Sublist (buckets i)) : Indexed hash key buckets' :=
  ⟨fun i x hx => h.placed i x ((hsub i).subset hx),
    fun i => (h.keys_nodup i).sublist ((hsub i).map key)⟩

omit [DecidableEq κ] in
/-- Only the keys of the objects held matter. -/
theorem Indexed.congr_key (h : Indexed hash key buckets) {key' : ι → κ}
    (hkey : ∀ x, Held buckets x → key' x = key x) : Indexed hash key' buckets := by
  refine ⟨fun i x hx => ?_, fun i => ?_⟩
  · rw [hkey x ⟨i, hx⟩]
    exact h.placed i x hx
  · have e : (buckets i).map key' = (buckets i).map key :=
      List.map_congr_left fun x hx => hkey x ⟨i, hx⟩
    rw [e]
    exact h.keys_nodup i

omit [DecidableEq κ] in
/-- The same for an object that gets its key when it is appended, as long as the objects held keep
theirs. -/
theorem Indexed.insert_of_congr (h : Indexed hash key buckets) {key' : ι → κ} {x : ι} {k : κ}
    (hk : key' x = k) (hkey : ∀ y, Held buckets y → key' y = key y)
    (hfresh : ∀ y, Held buckets y → key y ≠ k) :
    Indexed hash key' (append buckets (hash k) x) := by
  rw [← hk] at hfresh ⊢
  apply (h.congr_key hkey).insert
  intro y hy
  rw [hkey y hy]
  exact hfresh y hy

/-- After such an insertion the key finds the new object, and every other key what it found
before, also in the bucket that grew. -/
theorem Indexed.lookup_insert (h : Indexed hash key buckets) {key' : ι → κ} {x : ι} {k : κ}
    (hk : key' x = k) (hkey : ∀ y, Held buckets y → key' y = key y)
    (hfresh : ∀ y, Held buckets y → key y ≠ k) (k' : κ) :
    lookup hash key' (append buckets (hash k) x) k' =
      if k' = k then some x else lookup hash key buckets k' := by
  have hafter := h.insert_of_congr hk hkey hfresh
  split
  · next heq =>
      rw [hafter.lookup_eq_some_iff, held_append_iff]
      exact ⟨Or.inr rfl, hk.trans heq.symm⟩
  · next hne =>
      apply Option.ext
      intro y
      rw [hafter.lookup_eq_some_iff, h.lookup_eq_some_iff, held_append_iff]
      constructor
      · rintro ⟨hy | rfl, hyk⟩
        · exact ⟨hy, (hkey y hy).symm.trans hyk⟩
        · exact absurd (hyk.symm.trans hk) hne
      · rintro ⟨hy, hyk⟩
        exact ⟨Or.inl hy, (hkey y hy).trans hyk⟩

end Indexed

end Library.Buckets

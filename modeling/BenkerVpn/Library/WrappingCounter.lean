import Mathlib.Tactic.Common

/-!
# Residues of a counter that wraps around

A counter runs modulo `W` and is reduced modulo `M`. Among `M + 1` consecutive values every residue
occurs as long as the counter does not wrap around. If it does and `M` does not divide `W`, the
residues behind the wrap start over at `0` and not where the ones before it end, so some may be
skipped: `exists_residue_iff` says which ones, `exists_skipped_iff` when there are any.
-/

set_option autoImplicit false

namespace Library.WrappingCounter

/-- The residue `j` modulo `M` does not occur among the `M + 1` values from `n` on of a counter
modulo `W`: it is too large to occur behind the wrap, and its last occurrence before the wrap lies
before `n`. -/
def Skipped (W M n j : Nat) : Prop :=
  W % M ≤ j ∧ M < j + (W - n) ∧ j + (W - n) < M + W % M

instance (W M n j : Nat) : Decidable (Skipped W M n j) :=
  inferInstanceAs (Decidable (_ ∧ _ ∧ _))

variable {W M n j : Nat}

/-- A skipped residue does not occur. -/
theorem Skipped.residue_ne (h : Skipped W M n j) (hMW : M < W) (hn : n < W) {k : Nat}
    (hk : k ≤ M) : (n + k) % W % M ≠ j := by
  obtain ⟨hlast, hfirst, hbefore⟩ := h
  intro heq
  have hW := Nat.div_add_mod W M
  rcases Nat.lt_or_ge (n + k) W with hlow | hhigh
  · -- before the wrap, at most at its last occurrence
    rw [Nat.mod_eq_of_lt hlow] at heq
    have hnk := Nat.div_add_mod (n + k) M
    rw [heq] at hnk
    rcases Nat.lt_or_ge ((n + k) / M) (W / M) with hquot | hquot
    · have hle := Nat.mul_le_mul_left M hquot
      rw [Nat.mul_succ] at hle
      omega
    · have hle := Nat.mul_le_mul_left M hquot
      omega
  · -- behind the wrap the residue is the value of the counter
    have hlow : n + k - W < M := by omega
    rw [Nat.mod_eq_sub_mod hhigh, Nat.mod_eq_of_lt (Nat.lt_trans hlow hMW),
      Nat.mod_eq_of_lt hlow] at heq
    omega

/-- A value before the wrap. -/
theorem residue_of_lt {k : Nat} (q : Nat) (hlow : n + k < W) (hvalue : n + k = M * q + j)
    (hj : j < M) : (n + k) % W % M = j := by
  rw [Nat.mod_eq_of_lt hlow, hvalue, Nat.mul_add_mod, Nat.mod_eq_of_lt hj]

/-- The other residues occur. -/
theorem exists_residue_of_not_skipped (h : ¬ Skipped W M n j) (hMW : M < W) (hn : n < W)
    (hj : j < M) : ∃ k ≤ M, (n + k) % W % M = j := by
  have hM : 0 < M := Nat.lt_of_le_of_lt (Nat.zero_le j) hj
  have hr := Nat.mod_lt W hM
  have hW := Nat.div_add_mod W M
  have hquot : 0 < W / M := Nat.div_pos (Nat.le_of_lt hMW) hM
  rcases Nat.lt_or_ge W (n + M) with hwraps | hroom
  · rcases Nat.lt_or_ge M (j + (W - n)) with hlarge | hsmall
    · by_cases hlast : j < W % M
      · -- in the incomplete turn before the wrap
        exact ⟨j + (W - n) - W % M, by omega, residue_of_lt (W / M) (by omega) (by omega) hj⟩
      · -- in the last complete turn
        have hbefore : M + W % M ≤ j + (W - n) := by
          by_contra hno
          exact h ⟨by omega, hlarge, by omega⟩
        have hturn : M * (W / M - 1) + M = M * (W / M) := by
          rw [← Nat.mul_succ, Nat.succ_eq_add_one, Nat.sub_add_cancel hquot]
        exact ⟨j + (W - n) - (M + W % M), by omega,
          residue_of_lt (W / M - 1) (by omega) (by omega) hj⟩
    · -- behind the wrap
      refine ⟨j + (W - n), hsmall, ?_⟩
      have hvalue : n + (j + (W - n)) = j + W := by omega
      have hjW : j < W := by omega
      rw [hvalue, Nat.add_mod_right, Nat.mod_eq_of_lt hjW, Nat.mod_eq_of_lt hj]
  · -- the first `M` values do not wrap around
    have hnM := Nat.div_add_mod n M
    rcases Nat.lt_or_ge j (n % M) with hbelow | habove
    · have hlt := Nat.mod_lt n hM
      have hturn := Nat.mul_succ M (n / M)
      exact ⟨M + j - n % M, by omega, residue_of_lt (n / M).succ (by omega) (by omega) hj⟩
    · exact ⟨j - n % M, by omega, residue_of_lt (n / M) (by omega) (by omega) hj⟩

/-- The residues that do not occur are the skipped ones. -/
theorem exists_residue_iff (hMW : M < W) (hn : n < W) (hj : j < M) :
    (∃ k ≤ M, (n + k) % W % M = j) ↔ ¬ Skipped W M n j := by
  constructor
  · rintro ⟨k, hk, heq⟩ hskipped
    exact hskipped.residue_ne hMW hn hk heq
  · exact fun h => exists_residue_of_not_skipped h hMW hn hj

/-- A residue is skipped if the last turn before the wrap is incomplete by more than one value and
the counter wraps around behind the first value and before the last but one. -/
theorem exists_skipped_iff (hM : 0 < M) :
    (∃ j < M, Skipped W M n j) ↔ 2 ≤ W % M ∧ 2 ≤ W - n ∧ W - n < M := by
  have hr := Nat.mod_lt W hM
  constructor
  · rintro ⟨j, hj, hlast, hfirst, hbefore⟩
    omega
  · rintro ⟨hrest, htwo, hwraps⟩
    refine ⟨max (W % M) (M - (W - n) + 1), by omega, ?_⟩
    exact ⟨by omega, by omega, by omega⟩

end Library.WrappingCounter

import BenkerVpn.Library.Octets
import Mathlib.Algebra.BigOperators.Group.Finset.Basic
import Mathlib.Algebra.BigOperators.Intervals
import Mathlib.Algebra.Order.BigOperators.Group.Finset
import Mathlib.Tactic.Ring

/-!
# Ones' complement sums of octets

`octetSum` adds the octets of a stretch of memory as 16-bit words in network byte order, a missing
last octet counting as zero: octets at even offsets have weight 256, the others weight 1. `wordSum`
is the same sum of a list of octets. `endAround` reduces a sum to 16 bits by adding the carries back
in, which is reduction modulo `65535` with `0` for the sum `0` alone (`standsFor_iff`). Sums may be
reduced in parts (`endAround_add`). Less than a full turn changes the reduction
(`endAround_add_ne`), half a turn changes its high octet (`endAround_high_ne`), and a sum with its
complement reduces to `65535` (`endAround_add_complement`).
-/

set_option autoImplicit false

namespace Library.OnesComplement

open Library.Octets

/-! ## Reduction -/

/-- The 16-bit ones' complement reduction of a sum. -/
def endAround (s : Nat) : Nat := if s = 0 then 0 else (s - 1) % 65535 + 1

theorem endAround_lt (s : Nat) : endAround s < 65536 := by
  rw [endAround]
  split
  · omega
  · have h := Nat.mod_lt (s - 1) (show 65535 > 0 by omega)
    omega

theorem endAround_pos {s : Nat} (h : 0 < s) : 0 < endAround s := by
  rw [endAround, if_neg (by omega)]
  omega

theorem endAround_of_le {s : Nat} (h : s ≤ 65535) : endAround s = s := by
  rw [endAround]
  split
  · omega
  · rw [Nat.mod_eq_of_lt (by omega)]
    omega

/-- The reduction keeps the sum modulo `65535`. -/
theorem endAround_mod (s : Nat) : endAround s % 65535 = s % 65535 := by
  rw [endAround]
  split
  · next h => rw [h]
  · omega

theorem endAround_congr {s t : Nat} (hs : 0 < s) (ht : 0 < t) (h : s % 65535 = t % 65535) :
    endAround s = endAround t := by
  rw [endAround, endAround, if_neg (by omega), if_neg (by omega)]
  omega

/-- One step of adding the carries back in. -/
theorem endAround_carry (s : Nat) : endAround (s / 65536 + s % 65536) = endAround s := by
  by_cases hs : s = 0
  · rw [hs]
  · apply endAround_congr
    · omega
    · omega
    · omega

/-- A sum may be reduced before more is added. -/
theorem endAround_add (s t : Nat) : endAround (endAround s + t) = endAround (s + t) := by
  by_cases hs : s = 0
  · rw [hs, show endAround 0 = 0 from rfl]
  · have hpos := endAround_pos (Nat.pos_of_ne_zero hs)
    apply endAround_congr
    · omega
    · omega
    · rw [Nat.add_mod, endAround_mod, ← Nat.add_mod]

/-- A sum and its complement add up to all ones. -/
theorem endAround_add_complement (s : Nat) : endAround (s + (65535 - endAround s)) = 65535 := by
  have hlt := endAround_lt s
  have hmod := endAround_mod s
  by_cases hs : s = 0
  · subst hs
    rfl
  · have hpos := endAround_pos (Nat.pos_of_ne_zero hs)
    have hsum : endAround (s + (65535 - endAround s)) = endAround 65535 := by
      apply endAround_congr
      · omega
      · omega
      · omega
    rw [hsum]
    rfl

/-- `r` stands for the sum in 16 bits: `0` for the sum `0` alone, and otherwise a positive number
with the same residue. -/
def StandsFor (s r : Nat) : Prop :=
  if s = 0 then r = 0 else 1 ≤ r ∧ r ≤ 65535 ∧ r % 65535 = s % 65535

/-- Exactly the reduction stands for a sum. -/
theorem standsFor_iff {s r : Nat} : StandsFor s r ↔ r = endAround s := by
  have hlt := endAround_lt s
  have hmod := endAround_mod s
  rw [StandsFor]
  split
  · next hs => rw [hs, show endAround 0 = 0 from rfl]
  · next hs =>
      have hpos := endAround_pos (Nat.pos_of_ne_zero hs)
      omega

/-- Less than a full turn added to a sum changes its reduction. -/
theorem endAround_add_ne {s d : Nat} (hd : 0 < d) (hlt : d < 65535) :
    endAround (s + d) ≠ endAround s := by
  intro h
  -- the reduction keeps the sum modulo 65535, and so the difference
  have hmod := congrArg (· % 65535) h
  simp only [endAround_mod] at hmod
  omega

/-- Half a turn added to a positive sum changes the high octet of its reduction. -/
theorem endAround_high_ne {s : Nat} (hs : 0 < s) :
    endAround (s + 32768) / 256 ≠ endAround s / 256 := by
  rw [endAround, endAround, if_neg (by omega), if_neg (by omega)]
  have h := Nat.mod_lt (s - 1) (show 65535 > 0 by omega)
  have hsum : (s + 32768 - 1) % 65535 = ((s - 1) % 65535 + 32768) % 65535 := by omega
  rw [hsum]
  generalize (s - 1) % 65535 = r at h
  rcases Nat.lt_or_ge (r + 32768) 65535 with hlt | hge
  · -- no carry: the high octet grows by 128
    rw [Nat.mod_eq_of_lt hlt]
    omega
  · -- one end-around carry: it falls by 127 or 128
    rw [Nat.mod_eq_sub_mod hge, Nat.mod_eq_of_lt (by omega)]
    omega

/-! ## Sums of octets -/

/-- The weight of an octet by its offset. -/
def weight (k : Nat) : Nat := if k % 2 = 0 then 256 else 1

theorem weight_add_two (k : Nat) : weight (k + 2) = weight k := by
  rw [weight, weight, Nat.add_mod_right]

theorem weight_add_even {a : Nat} (ha : a % 2 = 0) (k : Nat) : weight (a + k) = weight k := by
  rw [weight, weight]
  congr 1
  simp only [eq_iff_iff]
  omega

/-- The sum of `len` octets from index `i` as 16-bit words. -/
def octetSum (m : Memory) (i len : Nat) : Nat :=
  ∑ k ∈ Finset.range len, weight k * (m (i + k)).toNat

theorem octetSum_zero (m : Memory) (i : Nat) : octetSum m i 0 = 0 := rfl

theorem octetSum_one (m : Memory) (i : Nat) : octetSum m i 1 = 256 * (m i).toNat := by
  rw [octetSum, Finset.sum_range_one]
  rfl

/-- The first word is the first octet pair. -/
theorem octetSum_add_two (m : Memory) (i len : Nat) :
    octetSum m i (len + 2) =
      256 * (m i).toNat + (m (i + 1)).toNat + octetSum m (i + 2) len := by
  rw [octetSum, Finset.sum_range_succ', Finset.sum_range_succ', octetSum]
  -- the octets behind the first pair keep their weights
  have htail : ∑ k ∈ Finset.range len, weight (k + 1 + 1) * (m (i + (k + 1 + 1))).toNat =
      ∑ k ∈ Finset.range len, weight k * (m (i + 2 + k)).toNat := by
    apply Finset.sum_congr rfl
    intro k _
    rw [show k + 1 + 1 = k + 2 by omega, weight_add_two, show i + (k + 2) = i + 2 + k by omega]
  rw [htail]
  simp only [weight, Nat.zero_add, Nat.add_zero]
  simp
  ring

/-- Equal octets have equal sums, wherever they stand. -/
theorem octetSum_shift {m m' : Memory} {i i' len : Nat}
    (h : ∀ k < len, m (i + k) = m' (i' + k)) : octetSum m i len = octetSum m' i' len := by
  apply Finset.sum_congr rfl
  intro k hk
  rw [h k (Finset.mem_range.1 hk)]

theorem octetSum_congr {m m' : Memory} {i len : Nat}
    (h : ∀ j, i ≤ j → j < i + len → m j = m' j) : octetSum m i len = octetSum m' i len :=
  octetSum_shift fun k hk => h (i + k) (by omega) (by omega)

/-- Each octet is counted. -/
theorem weight_mul_le_octetSum (m : Memory) (i : Nat) {k len : Nat} (hk : k < len) :
    weight k * (m (i + k)).toNat ≤ octetSum m i len :=
  Finset.single_le_sum (f := fun k => weight k * (m (i + k)).toNat) (fun _ _ => Nat.zero_le _)
    (Finset.mem_range.2 hk)

/-- Two memories that differ in one octet of the stretch. -/
theorem octetSum_of_differ {m m' : Memory} {i len j : Nat} (hj : i ≤ j) (hlt : j < i + len)
    (h : ∀ k, k ≠ j → m' k = m k) :
    octetSum m' i len + weight (j - i) * (m j).toNat =
      octetSum m i len + weight (j - i) * (m' j).toNat := by
  have hmem : j - i ∈ Finset.range len := Finset.mem_range.2 (by omega)
  have hij : i + (j - i) = j := by omega
  -- take the octet that differs out of both sums
  rw [octetSum, octetSum, ← Finset.add_sum_erase _ _ hmem, ← Finset.add_sum_erase _ _ hmem, hij]
  have hrest : ∑ k ∈ (Finset.range len).erase (j - i), weight k * (m' (i + k)).toNat =
      ∑ k ∈ (Finset.range len).erase (j - i), weight k * (m (i + k)).toNat := by
    apply Finset.sum_congr rfl
    intro k hk
    have hne := (Finset.mem_erase.1 hk).1
    rw [h (i + k) (by omega)]
  rw [hrest]
  ring

/-- A sum may be split behind an even number of octets. -/
theorem octetSum_append (m : Memory) (i n : Nat) {a : Nat} (ha : a % 2 = 0) :
    octetSum m i (a + n) = octetSum m i a + octetSum m (i + a) n := by
  rw [octetSum, octetSum, octetSum, Finset.sum_range_add]
  congr 1
  apply Finset.sum_congr rfl
  intro k _
  rw [weight_add_even ha, Nat.add_assoc]

/-! ## Sums of lists -/

/-- The sum of a list of octets as 16-bit words. -/
def wordSum : List UInt8 → Nat
  | [] => 0
  -- padded with a zero
  | [high] => 256 * high.toNat
  | high :: low :: rest => 256 * high.toNat + low.toNat + wordSum rest

theorem octetSum_eq_wordSum (m : Memory) (i n : Nat) :
    octetSum m i n = wordSum (octets m i n) := by
  induction n using Nat.twoStepInduction generalizing i with
  | zero => rfl
  | one => exact octetSum_one m i
  | more n ih _ =>
      rw [octetSum_add_two, ih (i + 2)]
      rfl

/-- Behind an even number of octets the words start anew. -/
theorem wordSum_append {a : List UInt8} (b : List UInt8) (ha : a.length % 2 = 0) :
    wordSum (a ++ b) = wordSum a + wordSum b := by
  induction a using wordSum.induct with
  | case1 => rw [List.nil_append, wordSum, Nat.zero_add]
  | case2 high => cases ha
  | case3 high low rest ih =>
      rw [List.length_cons, List.length_cons] at ha
      rw [List.cons_append, List.cons_append, wordSum, wordSum, ih (by omega), ← Nat.add_assoc]

/-! ## Words written -/

/-- A word written at an even offset replaces the one that stood there. -/
theorem octetSum_put16 (m : Memory) (v : UInt16) {i j len : Nat} (hij : i ≤ j)
    (hlen : j + 2 ≤ i + len) (heven : (j - i) % 2 = 0) :
    octetSum (put16 m j v) i len + (be16 m j).toNat = octetSum m i len + v.toNat := by
  have hv := v.toNat_lt
  -- the word is written in two octets, of weight 256 and 1
  have hhigh : octetSum (put8 m j (UInt8.ofNat (v.toNat / 256))) i len +
        weight (j - i) * (m j).toNat =
      octetSum m i len +
        weight (j - i) * (put8 m j (UInt8.ofNat (v.toNat / 256)) j).toNat :=
    octetSum_of_differ hij (by omega) fun k hk => put8_of_ne _ _ hk
  have hlow : octetSum (put16 m j v) i len +
        weight (j + 1 - i) * (put8 m j (UInt8.ofNat (v.toNat / 256)) (j + 1)).toNat =
      octetSum (put8 m j (UInt8.ofNat (v.toNat / 256))) i len +
        weight (j + 1 - i) * (put16 m j v (j + 1)).toNat :=
    octetSum_of_differ (by omega) (by omega) fun k hk => put8_of_ne _ _ hk
  have hwhigh : weight (j - i) = 256 := if_pos heven
  have hwlow : weight (j + 1 - i) = 1 := if_neg (by omega)
  rw [hwhigh, put8_self, UInt8.toNat_ofNat'] at hhigh
  rw [hwlow, put8_of_ne _ _ (by omega), put16_low, UInt8.toNat_ofNat'] at hlow
  rw [toNat_be16]
  omega

end Library.OnesComplement

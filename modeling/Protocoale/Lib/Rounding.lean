import Mathlib.Data.Int.Log
import Mathlib.Tactic

/-!
Rounding to the nearest, and to the even one of two: to an integer, and to a number of binary digits. The
exponent is not bounded.
-/

namespace Protocoale.Lib.Rounding

/-! ### To an integer -/

/-- The nearest integer, the even one when there are two. -/
def roundEven (q : ℚ) : ℤ :=
  if q - ⌊q⌋ < 1 / 2 then ⌊q⌋
  else if 1 / 2 < q - ⌊q⌋ then ⌊q⌋ + 1
  else if Even ⌊q⌋ then ⌊q⌋ else ⌊q⌋ + 1

section Integer

variable {q : ℚ} {n : ℤ}

lemma abs_roundEven_sub_le (q : ℚ) : |(roundEven q : ℚ) - q| ≤ 1 / 2 := by
  have hfloor := Int.floor_le q
  have hlt := Int.lt_floor_add_one q
  rw [abs_le]
  unfold roundEven
  by_cases hlow : q - ⌊q⌋ < 1 / 2
  · rw [if_pos hlow]
    constructor <;> linarith
  · rw [if_neg hlow]
    by_cases hhigh : 1 / 2 < q - ⌊q⌋
    · rw [if_pos hhigh]
      push_cast
      constructor <;> linarith
    · rw [if_neg hhigh]
      split
      · constructor <;> linarith
      · push_cast
        constructor <;> linarith

/-- Closer than one half there is no other integer. -/
lemma roundEven_eq (h : |q - n| < 1 / 2) : roundEven q = n := by
  have hround := abs_roundEven_sub_le q
  have hdist : |(roundEven q : ℚ) - n| < 1 := by
    have := abs_sub_le (roundEven q : ℚ) q n
    linarith
  have hint : |roundEven q - n| < 1 := by exact_mod_cast hdist
  rw [Int.abs_lt_one_iff] at hint
  omega

lemma roundEven_intCast (n : ℤ) : roundEven n = n := roundEven_eq (by simp)

lemma roundEven_nonneg (h : 0 ≤ q) : 0 ≤ roundEven q := by
  have hfloor := Int.floor_nonneg.mpr h
  unfold roundEven
  split_ifs <;> omega

end Integer

/-! ### To a number of binary digits -/

section Digits

variable (P : ℕ)

/-- Half a unit in the last one of `P` digits. -/
def halfUlp (q : ℚ) : ℚ := 2 ^ (Int.log 2 q - P)

/-- The nearest number of `P` digits, for a number that is not negative. -/
def rnd (q : ℚ) : ℚ := roundEven (q / (2 * halfUlp P q)) * (2 * halfUlp P q)

/-- The natural numbers of `P` digits. -/
def Fits (n : ℕ) : Prop := 2 ^ (Nat.log 2 n + 1 - P) ∣ n

instance : DecidablePred (Fits P) := fun n => by unfold Fits; infer_instance

variable {P : ℕ} {q r : ℚ} {n m : ℕ} {e : ℤ}

lemma halfUlp_pos (q : ℚ) : 0 < halfUlp P q := zpow_pos two_pos _

lemma halfUlp_mono (hq : 0 < q) (h : q ≤ r) : halfUlp P q ≤ halfUlp P r :=
  zpow_le_zpow_right₀ one_le_two (Int.sub_le_sub_right (Int.log_mono_right hq h) _)

/-- The error is small beside the number. -/
lemma halfUlp_le (hq : 0 < q) : halfUlp P q ≤ q / 2 ^ P := by
  have hlog := Int.zpow_log_le_self one_lt_two hq
  rw [halfUlp, zpow_sub₀ two_ne_zero, zpow_natCast]
  exact div_le_div_of_nonneg_right hlog (by positivity)

lemma abs_rnd_sub_le (q : ℚ) : |rnd P q - q| ≤ halfUlp P q := by
  have hpos := halfUlp_pos (P := P) q
  have hround := abs_roundEven_sub_le (q / (2 * halfUlp P q))
  have hscale : rnd P q - q = (roundEven (q / (2 * halfUlp P q)) - q / (2 * halfUlp P q)) * (2 * halfUlp P q) := by
    rw [sub_mul, div_mul_cancel₀ _ (by positivity)]
    rfl
  calc |rnd P q - q|
      = |(roundEven (q / (2 * halfUlp P q)) : ℚ) - q / (2 * halfUlp P q)| * (2 * halfUlp P q) := by
        rw [hscale, abs_mul, abs_of_pos (by positivity : 0 < 2 * halfUlp P q)]
    _ ≤ 1 / 2 * (2 * halfUlp P q) := mul_le_mul_of_nonneg_right hround (by positivity)
    _ = halfUlp P q := by ring

lemma rnd_zero : rnd P 0 = 0 := by
  rw [rnd, zero_div, ← Int.cast_zero, roundEven_intCast, Int.cast_zero, zero_mul]

/-- The error of numbers up to a given one. -/
lemma abs_rnd_sub_le_of_le (hq : 0 ≤ q) (h : q ≤ r) : |rnd P q - q| ≤ halfUlp P r := by
  rcases hq.eq_or_lt with rfl | hpos
  · rw [rnd_zero, sub_zero, abs_zero]
    exact (halfUlp_pos r).le
  · exact le_trans (abs_rnd_sub_le q) (halfUlp_mono hpos h)

lemma rnd_nonneg (hq : 0 ≤ q) : 0 ≤ rnd P q := by
  have hpos := halfUlp_pos (P := P) q
  have hround : (0 : ℚ) ≤ roundEven (q / (2 * halfUlp P q)) := by
    exact_mod_cast roundEven_nonneg (by positivity)
  exact mul_nonneg hround (by positivity)

lemma two_mul_halfUlp (q : ℚ) : 2 * halfUlp P q = 2 ^ (Int.log 2 q + 1 - P) := by
  rw [halfUlp, add_sub_right_comm, zpow_add_one₀ two_ne_zero, mul_comm]

/-- A number of `P` digits stays as it is, whatever its exponent. -/
lemma rnd_eq_self (hm : m < 2 ^ P) (e : ℤ) : rnd P (m * 2 ^ e) = m * 2 ^ e := by
  rcases Nat.eq_zero_or_pos m with rfl | hpos
  · rw [Nat.cast_zero, zero_mul, rnd_zero]
  · have hq : (0 : ℚ) < m * 2 ^ e := by positivity
    have hlt : (m * 2 ^ e : ℚ) < ((2 : ℕ) : ℚ) ^ (P + e) := by
      rw [Nat.cast_ofNat, zpow_add₀ two_ne_zero, zpow_natCast]
      exact mul_lt_mul_of_pos_right (by exact_mod_cast hm) (by positivity)
    have hlog := (Int.lt_zpow_iff_log_lt one_lt_two hq).mp hlt
    obtain ⟨k, hk⟩ := Int.eq_ofNat_of_zero_le (a := P + e - (Int.log 2 (m * 2 ^ e : ℚ) + 1)) (by omega)
    have hunit : (m * 2 ^ e : ℚ) = ((m * 2 ^ k : ℕ) : ℤ) * (2 * halfUlp P (m * 2 ^ e)) := by
      rw [two_mul_halfUlp, Int.cast_natCast, Nat.cast_mul, Nat.cast_pow, Nat.cast_ofNat, mul_assoc, ← zpow_natCast,
        ← zpow_add₀ two_ne_zero, ← hk]
      congr 2
      ring
    rw [rnd, (div_eq_iff (ne_of_gt (by have := halfUlp_pos (P := P) (m * 2 ^ e : ℚ); positivity))).mpr hunit,
      roundEven_intCast, ← hunit]

/-- Only a number of more than `P` digits is changed. -/
lemma le_log_of_not_fits (h : ¬ Fits P n) : P ≤ Nat.log 2 n := by
  by_contra hlt
  rw [Fits, Nat.sub_eq_zero_of_le (by omega), pow_zero] at h
  exact h (one_dvd n)

/-- A natural number of at least `P` digits is rounded to a natural number. -/
lemma exists_rnd_natCast (h : P ≤ Nat.log 2 n + 1) :
    ∃ z : ℤ, rnd P n = (z * (2 ^ (Nat.log 2 n + 1 - P) : ℕ) : ℤ) := by
  have hunit : (2 * halfUlp P n : ℚ) = (2 ^ (Nat.log 2 n + 1 - P) : ℕ) := by
    rw [two_mul_halfUlp, Int.log_natCast, Nat.cast_pow, Nat.cast_ofNat, ← zpow_natCast, Nat.cast_sub h]
    rfl
  refine ⟨roundEven (n / (2 * halfUlp P n)), ?_⟩
  rw [rnd, Int.cast_mul, Int.cast_natCast, ← hunit]

lemma Fits.exists_mul (h : Fits P n) : ∃ m k, m < 2 ^ P ∧ n = m * 2 ^ k := by
  obtain ⟨m, hm⟩ := h
  refine ⟨m, Nat.log 2 n + 1 - P, ?_, hm.trans (mul_comm _ _)⟩
  have hlt : n < 2 ^ (Nat.log 2 n + 1) := Nat.lt_pow_succ_log_self one_lt_two n
  have hle : 2 ^ (Nat.log 2 n + 1) ≤ 2 ^ (Nat.log 2 n + 1 - P) * 2 ^ P := by
    rw [← pow_add]
    exact Nat.pow_le_pow_right two_pos (by omega)
  exact Nat.lt_of_mul_lt_mul_left (lt_of_eq_of_lt hm.symm (lt_of_lt_of_le hlt hle))

/-- A natural number of `P` digits, with any exponent. -/
lemma Fits.rnd_eq (h : Fits P n) (e : ℤ) : rnd P (n * 2 ^ e) = n * 2 ^ e := by
  obtain ⟨m, k, hm, rfl⟩ := h.exists_mul
  have hexp : ((m * 2 ^ k : ℕ) * 2 ^ e : ℚ) = m * 2 ^ (k + e) := by
    rw [Nat.cast_mul, Nat.cast_pow, Nat.cast_ofNat, mul_assoc, ← zpow_natCast, ← zpow_add₀ two_ne_zero]
  rw [hexp, rnd_eq_self hm]

/-- The natural numbers that stay as they are. -/
lemma rnd_natCast_eq_self_iff : rnd P n = n ↔ Fits P n := by
  constructor
  · intro h
    by_contra hfits
    obtain ⟨z, hz⟩ := exists_rnd_natCast (Nat.le_succ_of_le (le_log_of_not_fits hfits))
    have hn : (n : ℤ) = z * (2 ^ (Nat.log 2 n + 1 - P) : ℕ) := by exact_mod_cast h.symm.trans hz
    exact hfits (Int.natCast_dvd_natCast.mp ⟨z, hn.trans (mul_comm _ _)⟩)
  · intro h
    simpa using h.rnd_eq 0

end Digits

end Protocoale.Lib.Rounding

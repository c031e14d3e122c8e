import Mathlib.Data.Nat.ModEq
import Mathlib.Tactic

/-!
Ones' complement sums of 16-bit words, the arithmetic behind the Internet checksum.

A sum is folded into 16 bits by adding the carries back in (`fold16`); what comes out is the
representative `rep` of the sum modulo `65535` that lies in `1 .. 65535`. Exchanging the two bytes
of that representative is multiplication by `256` (`rep_mul_256`), which is why a checksum
computed over data that starts at an odd address can be corrected by one byte swap.
-/

namespace Protocoale.Lib.Ones

/-- The representative of `n` modulo `65535` in `1 .. 65535`. -/
def rep (n : ℕ) : ℕ := if n % 65535 = 0 then 65535 else n % 65535

/-- The sum of the big-endian 16-bit words of the data, an odd last byte padded with a zero. -/
def wordSum : List UInt8 → ℕ
  | [] => 0
  | [a] => a.toNat * 256
  | a :: b :: rest => a.toNat * 256 + b.toNat + wordSum rest

/-- The carries above 16 bits added back in until there are none. -/
def fold16 (acc : ℕ) : ℕ :=
  if acc >>> 16 = 0 then acc else fold16 ((acc &&& 0xffff) + (acc >>> 16))
termination_by acc
decreasing_by
  rw [Nat.shiftRight_eq_div_pow] at *
  have := Nat.and_two_pow_sub_one_eq_mod acc 16
  norm_num at this
  omega

/-- The two bytes of a 16-bit word exchanged. -/
def swap16 (x : ℕ) : ℕ := x % 256 * 256 + x / 256

/-! ### Representatives -/

lemma rep_pos (n : ℕ) : 0 < rep n := by
  unfold rep
  split <;> omega

lemma rep_le (n : ℕ) : rep n ≤ 65535 := by
  have := Nat.mod_lt n (show 0 < 65535 by omega)
  unfold rep
  split <;> omega

lemma rep_modEq (n : ℕ) : rep n ≡ n [MOD 65535] := by
  unfold Nat.ModEq rep
  split <;> omega

lemma rep_congr {n m : ℕ} (h : n ≡ m [MOD 65535]) : rep n = rep m := by
  unfold Nat.ModEq at h
  unfold rep
  rw [h]

lemma rep_of_le {n : ℕ} (h0 : 0 < n) (h : n ≤ 65535) : rep n = n := by
  unfold rep
  split <;> omega

/-- A sum is a multiple of `65535` exactly when its representative is `65535`. -/
lemma rep_eq_max_iff {n : ℕ} : rep n = 65535 ↔ n ≡ 0 [MOD 65535] := by
  unfold rep Nat.ModEq
  split <;> omega

/-- **A sum and the complement of its representative cancel.** -/
theorem rep_add_compl (n : ℕ) : rep (n + (65535 - rep n)) = 65535 := by
  rw [rep_eq_max_iff]
  have h := rep_modEq n
  have hle := rep_le n
  unfold Nat.ModEq at *
  omega

/-- **Multiplying by `256` exchanges the two bytes of the representative.** -/
theorem rep_mul_256 (n : ℕ) : rep (256 * n) = swap16 (rep n) := by
  have h1 : 256 * n ≡ 256 * rep n [MOD 65535] := (rep_modEq n).symm.mul_left 256
  have hpos := rep_pos n
  have hle := rep_le n
  rw [rep_congr h1]
  generalize rep n = r at *
  -- `256 * r = 65536 * (r / 256) + 256 * (r % 256)`, and `65536` is `1` modulo `65535`
  have h2 : 256 * r ≡ swap16 r [MOD 65535] := by
    unfold Nat.ModEq swap16
    omega
  rw [rep_congr h2]
  exact rep_of_le (by unfold swap16; omega) (by unfold swap16; omega)

/-! ### Folding -/

lemma and_ffff (n : ℕ) : n &&& 0xffff = n % 65536 := Nat.and_two_pow_sub_one_eq_mod n 16

lemma shiftRight_16 (n : ℕ) : n >>> 16 = n / 65536 := Nat.shiftRight_eq_div_pow n 16

/-- **Folding gives the representative.** -/
theorem fold16_eq_rep {n : ℕ} (h : 0 < n) : fold16 n = rep n := by
  fun_induction fold16 n with
  | case1 n hlt =>
    rw [shiftRight_16] at hlt
    exact (rep_of_le h (by omega)).symm
  | case2 n hge ih =>
    rw [and_ffff, shiftRight_16] at *
    rw [ih (by omega)]
    refine rep_congr ?_
    unfold Nat.ModEq
    omega

/-! ### Sums of words -/

lemma wordSum_append {xs : List UInt8} (ys : List UInt8) (h : xs.length % 2 = 0) :
    wordSum (xs ++ ys) = wordSum xs + wordSum ys := by
  induction xs using wordSum.induct with
  | case1 => simp [wordSum]
  | case2 a => simp at h
  | case3 a b rest ih =>
    simp only [List.cons_append, wordSum]
    rw [ih (by simp only [List.length_cons] at h; omega)]
    omega

/-- **Data shifted by one byte.** The words of the shifted data have their bytes exchanged. -/
theorem wordSum_zero_cons (xs : List UInt8) : 256 * wordSum (0 :: xs) ≡ wordSum xs [MOD 65535] := by
  induction xs using wordSum.induct with
  | case1 => rfl
  | case2 a =>
    simp only [wordSum, Nat.ModEq, UInt8.toNat_zero]
    omega
  | case3 a b rest ih =>
    have hshift : wordSum (0 :: a :: b :: rest) = a.toNat + b.toNat * 256 + wordSum (0 :: rest) := by
      cases rest with
      | nil => simp [wordSum]
      | cons c rest => simp [wordSum]; omega
    rw [hshift, wordSum]
    unfold Nat.ModEq at *
    omega

end Protocoale.Lib.Ones

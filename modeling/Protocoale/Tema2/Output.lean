import Protocoale.Lib.CText
import Protocoale.Lib.Rounding
import Protocoale.Tema2.Common

/-!
What the subscriber prints of a message (`print_output`). A number with a power of ten goes through a
`float`, which has 24 binary digits, and is divided by ten once for each power. Its digits are all printed
when the errors that its conversion and its divisions can make stay below one half of the last digit
(`printOutput_eq`).

A `float` is a rational number here, rounded after each operation.
-/

namespace Protocoale.Tema2

open Lib.Bytes Lib.CText Lib.Rounding Finset

namespace Subscriber

/-! ### Numbers as texts -/

/-- `cout << n` -/
def digits (n : ℕ) : List UInt8 := text (toString (n : ℤ))

/-- The last `p` digits of `n`. -/
def fraction (p n : ℕ) : List UInt8 :=
  List.replicate (p - (digits (n % 10 ^ p)).length) 48 ++ digits (n % 10 ^ p)

lemma length_fraction {p : ℕ} (h : 0 < p) (n : ℕ) : (fraction p n).length = p := by
  have hle := (length_text_natCast_le_iff h).mpr (Nat.mod_lt n (pow_pos (by norm_num : 0 < 10) p))
  rw [fraction, List.length_append, List.length_replicate]
  exact Nat.sub_add_cancel hle

lemma ofDigits_fraction (p n : ℕ) : ofDigits 10 (fraction p n) = n % 10 ^ p := by
  have hzeros : ∀ k ds, ofDigits 10 (List.replicate k 48 ++ ds) = ofDigits 10 ds := by
    intro k ds
    induction k with
    | zero => rfl
    | succ k ih => exact ih
  rw [fraction, hzeros]
  exact ofDigits_text _

/-- The decimal expansion of `n / 10 ^ p`, with `p` digits after the point. -/
def decimal (p n : ℕ) : List UInt8 :=
  digits (n / 10 ^ p) ++ if p = 0 then [] else text "." ++ fraction p n

/-- `cout << fixed << setprecision(p) << x`, for an `x` that is not negative. -/
def fixedText (p : ℕ) (x : ℚ) : List UInt8 := decimal p (roundEven (x * 10 ^ p)).toNat

/-- `inet_ntoa(station.sin_addr)` -/
def inetNtoa (station : SockaddrIn) : List UInt8 :=
  [46].intercalate [digits station[4].toNat, digits station[5].toNat, digits station[6].toNat, digits station[7].toNat]

/-! ### What the code prints -/

/-- The loop that divides by ten. -/
def divLoop (res : ℚ) : ℕ → ℚ
  | 0 => res
  | tmp + 1 => divLoop (rnd 24 (res / 10)) tmp

/-- The `switch` on the type of a message. -/
def printValue (m : UdpMessage) : List UInt8 :=
  if m.dataType = 0 then
    let intX := be32 m.content[1] m.content[2] m.content[3] m.content[4]
    if m.content[0] = 1 then text "INT - -" ++ digits intX ++ text "\n"
    else text "INT - " ++ digits intX ++ text "\n"
  else if m.dataType = 1 then
    let shortX := be16 m.content[0] m.content[1]
    text "SHORT_REAL - " ++ fixedText 2 (rnd 24 (rnd 24 shortX / 100)) ++ text "\n"
  else if m.dataType = 2 then
    let floatX := be32 m.content[1] m.content[2] m.content[3] m.content[4]
    let powerOfTen := m.content[5].toNat
    let res := divLoop (rnd 24 floatX) powerOfTen
    if m.content[0] = 1 then text "FLOAT - -" ++ fixedText powerOfTen res ++ text "\n"
    else text "FLOAT - " ++ fixedText powerOfTen res ++ text "\n"
  else if m.dataType = 3 then text "STRING - " ++ cstr m.content.toList ++ text "\n"
  else []

/-- The address, the port and the topic of a message, which are printed before its value. -/
def printSource (response : SubMessage) : List UInt8 :=
  inetNtoa response.fromStation ++ text ":" ++ digits (be16 response.fromStation[2] response.fromStation[3]) ++
    text " - " ++ response.message.topicStr ++ text " - "

/-- `print_output` -/
def printOutput (response : SubMessage) : List UInt8 :=
  printSource response ++ printValue response.message

/-! ### What a message says -/

/-- The sign of a number, the 32-bit and the 16-bit magnitude, and the power of ten. -/
def sign (m : UdpMessage) : List UInt8 := if m.content[0] = 1 then text "-" else []

def magnitude (m : UdpMessage) : ℕ := be32 m.content[1] m.content[2] m.content[3] m.content[4]

def hundredths (m : UdpMessage) : ℕ := be16 m.content[0] m.content[1]

def power (m : UdpMessage) : ℕ := m.content[5].toNat

/-- The value of a message, with all of its digits. -/
def exactValue (m : UdpMessage) : List UInt8 :=
  if m.dataType = 0 then text "INT - " ++ sign m ++ digits (magnitude m) ++ text "\n"
  else if m.dataType = 1 then text "SHORT_REAL - " ++ decimal 2 (hundredths m) ++ text "\n"
  else if m.dataType = 2 then text "FLOAT - " ++ sign m ++ decimal (power m) (magnitude m) ++ text "\n"
  else if m.dataType = 3 then text "STRING - " ++ m.content.toList.takeWhile (· ≠ 0) ++ text "\n"
  else []

/-- The largest error that the conversion (`k = 0`) or the division number `k` can make, in units of the last
digit printed. A result that 24 digits hold, after others that they hold, has none. -/
def maxError (n k : ℕ) : ℚ :=
  if 5 ^ k ∣ n ∧ ∀ i ≤ k, Fits 24 (n / 5 ^ i) then 0 else 10 ^ k * halfUlp 24 ((n + 1 / 2) / 10 ^ k)

/-- All errors together are less than one half of the last digit. -/
def Precise (n p : ℕ) : Prop := ∑ k ∈ range (p + 1), maxError n k < 1 / 2

instance (n p : ℕ) : Decidable (Precise n p) := by unfold Precise; infer_instance

/-! ### The divisions -/

section

variable {n p k t : ℕ} {res : ℚ}

lemma divLoop_succ (res : ℚ) (t : ℕ) : divLoop res (t + 1) = rnd 24 (divLoop res t / 10) := by
  induction t generalizing res with
  | zero => rfl
  | succ t ih => exact ih _

lemma divLoop_nonneg (h : 0 ≤ res) : 0 ≤ divLoop res t := by
  induction t with
  | zero => exact h
  | succ t ih =>
    rw [divLoop_succ]
    exact rnd_nonneg (by positivity)

lemma maxError_nonneg (n k : ℕ) : 0 ≤ maxError n k := by
  unfold maxError
  split
  · exact le_rfl
  · have := halfUlp_pos (P := 24) (((n : ℚ) + 1 / 2) / 10 ^ k)
    positivity

/-- While 24 digits are enough nothing is lost. -/
lemma divLoop_of_fits (hdvd : 5 ^ t ∣ n) (hfits : ∀ i ≤ t, Fits 24 (n / 5 ^ i)) :
    divLoop (rnd 24 n) t = n / 10 ^ t := by
  induction t with
  | zero =>
    have h0 := hfits 0 le_rfl
    rw [pow_zero, Nat.div_one] at h0
    rw [pow_zero, div_one]
    exact rnd_natCast_eq_self_iff.mpr h0
  | succ t ih =>
    have hprev := ih (dvd_trans (pow_dvd_pow 5 t.le_succ) hdvd) fun i hi => hfits i (Nat.le_succ_of_le hi)
    have hquot : (n : ℚ) / 10 ^ t / 10 = (n / 5 ^ (t + 1) : ℕ) * 2 ^ (-(t + 1 : ℕ) : ℤ) := by
      rw [Nat.cast_div_charZero hdvd, zpow_neg, zpow_natCast, div_div, ← pow_succ, Nat.cast_pow,
        show (10 : ℚ) = 5 * 2 by norm_num, mul_pow, ← div_eq_mul_inv, div_div]
      rfl
    rw [divLoop_succ, hprev, hquot, (hfits (t + 1) le_rfl).rnd_eq, ← hquot, div_div, ← pow_succ]

lemma Precise.of_le (h : Precise n p) (hk : k ≤ p) : Precise n k := by
  have hsub : range (k + 1) ⊆ range (p + 1) := range_subset_range.mpr (by omega)
  exact lt_of_le_of_lt (sum_le_sum_of_subset_of_nonneg hsub fun i _ _ => maxError_nonneg n i) h

/-- What is lost in the conversion and `t` divisions. -/
lemma abs_divLoop_sub_le (h : Precise n t) :
    |divLoop (rnd 24 n) t * 10 ^ t - n| ≤ ∑ k ∈ range (t + 1), maxError n k := by
  induction t with
  | zero =>
    rw [sum_range_one, pow_zero, mul_one, maxError]
    split
    case isTrue hfits => rw [divLoop_of_fits hfits.1 hfits.2, pow_zero, div_one, sub_self, abs_zero]
    case isFalse =>
      rw [pow_zero, one_mul, div_one]
      exact abs_rnd_sub_le_of_le (Nat.cast_nonneg n) (by linarith)
  | succ t ih =>
    have hprev := h.of_le t.le_succ
    rw [sum_range_succ, maxError]
    split
    case isTrue hfits =>
      rw [divLoop_of_fits hfits.1 hfits.2, div_mul_cancel₀ _ (by positivity), sub_self, abs_zero, add_zero]
      exact sum_nonneg fun k _ => maxError_nonneg n k
    case isFalse =>
      let res := divLoop (rnd 24 n) t
      have hres : 0 ≤ res := divLoop_nonneg (rnd_nonneg (Nat.cast_nonneg n))
      have hbound : res / 10 ≤ (n + 1 / 2) / 10 ^ (t + 1) := by
        have hlt := (abs_lt.mp (lt_of_le_of_lt (ih hprev) hprev)).2
        rw [pow_succ, ← div_div, div_le_div_iff_of_pos_right (by norm_num), le_div_iff₀ (by positivity)]
        linarith
      have hround := abs_rnd_sub_le_of_le (P := 24) (by positivity) hbound
      have hsplit : divLoop (rnd 24 n) (t + 1) * 10 ^ (t + 1) - n =
          (res * 10 ^ t - n) + 10 ^ (t + 1) * (rnd 24 (res / 10) - res / 10) := by
        rw [divLoop_succ]
        ring
      calc |divLoop (rnd 24 n) (t + 1) * 10 ^ (t + 1) - n|
          ≤ |res * 10 ^ t - n| + |10 ^ (t + 1) * (rnd 24 (res / 10) - res / 10)| := by
            rw [hsplit]
            exact abs_add_le _ _
        _ ≤ ∑ k ∈ range (t + 1), maxError n k + 10 ^ (t + 1) * halfUlp 24 ((n + 1 / 2) / 10 ^ (t + 1)) := by
            rw [abs_mul, abs_of_pos (by positivity : (0 : ℚ) < 10 ^ (t + 1))]
            exact add_le_add (ih hprev) (mul_le_mul_of_nonneg_left hround (by positivity))

/-- Every digit is printed. -/
lemma fixedText_divLoop (h : Precise n p) : fixedText p (divLoop (rnd 24 n) p) = decimal p n := by
  have hlt := lt_of_le_of_lt (abs_divLoop_sub_le h) h
  have hround : roundEven (divLoop (rnd 24 n) p * 10 ^ p) = (n : ℤ) := roundEven_eq (by exact_mod_cast hlt)
  rw [fixedText, hround, Int.toNat_natCast]

lemma precise_zero_iff : Precise n 0 ↔ Fits 24 n := by
  rw [Precise, sum_range_one, maxError, pow_zero, pow_zero, one_mul, div_one]
  have hfits : (1 ∣ n ∧ ∀ i ≤ 0, Fits 24 (n / 5 ^ i)) ↔ Fits 24 n := by simp
  rw [if_congr hfits rfl rfl]
  by_cases h : Fits 24 n
  · rw [if_pos h]
    simpa using h
  · rw [if_neg h]
    have hpow : ((2 : ℕ) : ℚ) ^ (24 : ℤ) ≤ n + 1 / 2 := by
      have hle : 2 ^ 24 ≤ n := le_trans (Nat.pow_le_pow_right two_pos (le_log_of_not_fits h))
        (Nat.pow_log_le_self 2 fun hn => h (by rw [hn]; exact dvd_zero _))
      have hcast : (2 ^ 24 : ℚ) ≤ n := by exact_mod_cast hle
      exact le_trans hcast (by norm_num)
    have hulp := halfUlp_mono (P := 24) (by positivity) hpow
    rw [halfUlp, Int.log_zpow one_lt_two] at hulp
    refine iff_of_false (not_lt.mpr ?_) h
    exact le_trans (by norm_num) hulp

lemma maxError_le (n k : ℕ) : maxError n k ≤ (n + 1 / 2) / 2 ^ 24 := by
  unfold maxError
  split
  · positivity
  · have hulp := halfUlp_le (P := 24) (by positivity : 0 < ((n : ℚ) + 1 / 2) / 10 ^ k)
    calc 10 ^ k * halfUlp 24 (((n : ℚ) + 1 / 2) / 10 ^ k)
        ≤ 10 ^ k * (((n : ℚ) + 1 / 2) / 10 ^ k / 2 ^ 24) := mul_le_mul_of_nonneg_left hulp (by positivity)
      _ = (n + 1 / 2) / 2 ^ 24 := by field_simp

/-- Small numbers, and not too many divisions. -/
lemma precise_of_lt (hfits : Fits 24 n) (h : p * (2 * n + 1) < 2 ^ 24) : Precise n p := by
  have h0 : maxError n 0 = 0 := by
    rw [maxError, if_pos]
    simpa using hfits
  have hcast : (p * (2 * n + 1) : ℚ) < 2 ^ 24 := by exact_mod_cast h
  calc ∑ k ∈ range (p + 1), maxError n k
      = ∑ k ∈ range p, maxError n (k + 1) := by rw [sum_range_succ', h0, add_zero]
    _ ≤ ∑ _k ∈ range p, ((n : ℚ) + 1 / 2) / 2 ^ 24 := sum_le_sum fun k _ => maxError_le n (k + 1)
    _ = p * (2 * n + 1) / 2 ^ 24 / 2 := by
      rw [sum_const, card_range, nsmul_eq_mul]
      ring
    _ < 1 / 2 := by
      rw [div_lt_div_iff_of_pos_right two_pos, div_lt_one (by positivity)]
      exact hcast

lemma digits_injective : Function.Injective digits := by
  intro m n h
  rw [← ofDigits_text m, ← ofDigits_text n]
  exact congrArg (ofDigits 10) h

lemma decimal_zero (n : ℕ) : decimal 0 n = digits n := by
  rw [decimal, if_pos rfl, pow_zero, Nat.div_one, List.append_nil]

/-- Without a power of ten no other digits are printed than those of the converted number. -/
lemma fits_of_fixedText (h : fixedText 0 (rnd 24 n) = decimal 0 n) : Fits 24 n := by
  by_contra hfits
  obtain ⟨z, hz⟩ := exists_rnd_natCast (Nat.le_succ_of_le (le_log_of_not_fits hfits))
  have hnonneg : (0 : ℚ) ≤ rnd 24 n := rnd_nonneg (Nat.cast_nonneg n)
  rw [fixedText, pow_zero, mul_one, hz, roundEven_intCast, decimal_zero, decimal_zero] at h
  rw [hz] at hnonneg
  have heq := Int.eq_natCast_toNat.mpr (by exact_mod_cast hnonneg)
  rw [digits_injective h] at heq
  rw [heq] at hz
  exact hfits (rnd_natCast_eq_self_iff.mp (by exact_mod_cast hz))

/-- Two digits after the point are never too many for a 16-bit number. -/
lemma fixedText_hundredths (h : n < 65536) : fixedText 2 (rnd 24 (rnd 24 n / 100)) = decimal 2 n := by
  have hself : rnd 24 (n : ℚ) = n := by simpa using rnd_eq_self (P := 24) (lt_trans h (by norm_num)) 0
  have hle : (n : ℚ) / 100 ≤ ((2 : ℕ) : ℚ) ^ (10 : ℤ) := by
    have : (n : ℚ) < 65536 := by exact_mod_cast h
    rw [div_le_iff₀ (by norm_num)]
    norm_num
    linarith
  have hround := abs_rnd_sub_le_of_le (P := 24) (by positivity) hle
  rw [halfUlp, Int.log_zpow one_lt_two] at hround
  have hscale : rnd 24 ((n : ℚ) / 100) * 10 ^ 2 - (n : ℤ) = (rnd 24 (n / 100) - n / 100) * 100 := by
    push_cast
    ring
  have hdigit : roundEven (rnd 24 ((n : ℚ) / 100) * 10 ^ 2) = n := by
    refine roundEven_eq ?_
    rw [hscale, abs_mul, abs_of_pos (by norm_num : (0 : ℚ) < 100)]
    have hsmall : (2 : ℚ) ^ ((10 : ℤ) - (24 : ℕ)) * 100 < 1 / 2 := by norm_num
    linarith
  rw [hself, fixedText, hdigit, Int.toNat_natCast]

end

/-! ### Messages -/

/-- The label of a number and its sign. -/
lemma label_sign (m : UdpMessage) (label : String) (value : List UInt8) :
    (if m.content[0] = 1 then text label ++ text "-" ++ value else text label ++ value) =
      text label ++ sign m ++ value := by
  unfold sign
  split
  · rfl
  · rw [List.append_nil]

variable {m : UdpMessage}

lemma printValue_int (h : m.dataType = 0) : printValue m = exactValue m := by
  have hlabel : text "INT - -" = text "INT - " ++ text "-" := rfl
  rw [printValue, exactValue, if_pos h, if_pos h, List.append_assoc, ← label_sign, hlabel]
  simp only [List.append_assoc]
  rfl

lemma printValue_shortReal (h : m.dataType = 1) : printValue m = exactValue m := by
  have h0 : ¬ m.dataType = 0 := by
    rw [h]
    decide
  have hlt : hundredths m < 65536 := by
    have hhigh := m.content[0].toNat_lt
    have hlow := m.content[1].toNat_lt
    rw [hundredths, be16]
    omega
  rw [printValue, exactValue, if_neg h0, if_neg h0, if_pos h, if_pos h, ← fixedText_hundredths hlt]
  rfl

lemma printValue_float (h : m.dataType = 2) : printValue m = text "FLOAT - " ++ sign m ++
    (fixedText (power m) (divLoop (rnd 24 (magnitude m)) (power m)) ++ text "\n") := by
  have hlabel : text "FLOAT - -" = text "FLOAT - " ++ text "-" := rfl
  rw [printValue, if_neg (by rw [h]; decide), if_neg (by rw [h]; decide), if_pos h, ← label_sign, hlabel]
  simp only [List.append_assoc]
  rfl

lemma exactValue_float (h : m.dataType = 2) : exactValue m =
    text "FLOAT - " ++ sign m ++ (decimal (power m) (magnitude m) ++ text "\n") := by
  rw [exactValue, if_neg (by rw [h]; decide), if_neg (by rw [h]; decide), if_pos h, List.append_assoc]

/-- Texts, and types that there are not. -/
lemma printValue_other (h0 : m.dataType ≠ 0) (h1 : m.dataType ≠ 1) (h2 : m.dataType ≠ 2) :
    printValue m = exactValue m := by
  rw [printValue, exactValue, if_neg h0, if_neg h0, if_neg h1, if_neg h1, if_neg h2, if_neg h2]
  rfl

/-- The text of a number with a power of ten is right when its digits are. -/
lemma printValue_float_iff (h : m.dataType = 2) : printValue m = exactValue m ↔
    fixedText (power m) (divLoop (rnd 24 (magnitude m)) (power m)) = decimal (power m) (magnitude m) := by
  rw [printValue_float h, exactValue_float h, List.append_cancel_left_eq, List.append_cancel_right_eq]

/-- **Every digit of a message is printed when the errors of the conversion and of the divisions are less than
one half of the last digit**; without a power of ten, only then. -/
theorem printOutput_eq (r : SubMessage) :
    ((r.message.dataType = 2 → Precise (magnitude r.message) (power r.message)) →
      printOutput r = printSource r ++ exactValue r.message) ∧
    (power r.message = 0 → printOutput r = printSource r ++ exactValue r.message →
      r.message.dataType = 2 → Precise (magnitude r.message) (power r.message)) := by
  rw [printOutput, List.append_cancel_left_eq]
  constructor
  · intro hprecise
    by_cases h2 : r.message.dataType = 2
    · exact (printValue_float_iff h2).mpr (fixedText_divLoop (hprecise h2))
    · by_cases h0 : r.message.dataType = 0
      · exact printValue_int h0
      · by_cases h1 : r.message.dataType = 1
        · exact printValue_shortReal h1
        · exact printValue_other h0 h1 h2
  · intro hpower hprint h2
    have hdigits := (printValue_float_iff h2).mp hprint
    rw [hpower] at hdigits ⊢
    exact precise_zero_iff.mpr (fits_of_fixedText hdigits)

/-- A message with a number of type 2. -/
def floatMessage (a b c d p : UInt8) : SubMessage where
  message := { topic := pad _ [], dataType := 2, content := pad _ [0, a, b, c, d, p] }
  fromStation := pad _ []

section

variable (a b c d p : UInt8)

lemma magnitude_floatMessage : magnitude (floatMessage a b c d p).message = be32 a b c d := by
  simp [magnitude, floatMessage]

lemma power_floatMessage : power (floatMessage a b c d p).message = p.toNat := by
  simp [power, floatMessage]

end

/-- The number 0.042. -/
theorem printOutput_eq_small : printOutput (floatMessage 0 0 0 42 3) =
    printSource (floatMessage 0 0 0 42 3) ++ exactValue (floatMessage 0 0 0 42 3).message := by
  refine (printOutput_eq _).1 fun _ => ?_
  rw [magnitude_floatMessage, power_floatMessage]
  exact precise_of_lt (by decide) (by decide)

/-- The last digit of `2 ^ 24 + 1` is lost. -/
theorem not_printOutput_eq : ¬ ∀ r, printOutput r = printSource r ++ exactValue r.message := by
  intro h
  have hvalue := h (floatMessage 1 0 0 1 0)
  rw [printOutput, List.append_cancel_left_eq, printValue_float_iff rfl, power_floatMessage,
    magnitude_floatMessage] at hvalue
  have hfits := fits_of_fixedText hvalue
  have hlog : Nat.log 2 (be32 1 0 0 1) = 24 := (Nat.log_eq_iff (by decide)).mpr (by decide)
  rw [Fits, hlog] at hfits
  exact absurd hfits (by decide)

end Subscriber

end Protocoale.Tema2

import Protocoale.Lib.Bytes
import Protocoale.Lib.Search

/-!
Text as the C library reads and writes it, in the C locale: character classes, numbers, the lines of
a stream and the tokens of a line, substrings and concatenation. A `long` has 64 bits and an `int` 32.
-/

namespace Protocoale.Lib.CText

open Bytes

/-- The characters of a string literal. -/
def text (s : String) : List UInt8 := s.toList.map fun c => UInt8.ofNat c.toNat

/-! ### Characters -/

/-- `isspace` -/
def isSpace (c : UInt8) : Bool := c = 32 || (9 ≤ c && c ≤ 13)

/-- `isdigit` -/
def isDigit (c : UInt8) : Bool := 48 ≤ c && c ≤ 57

/-- `tolower` -/
def toLower (c : UInt8) : UInt8 := if 65 ≤ c ∧ c ≤ 90 then c + 32 else c

/-- The value of a digit in base 16; a character that is none has a value of at least 16. -/
def digitVal (c : UInt8) : ℕ :=
  if isDigit c then c.toNat - 48
  else if 97 ≤ c ∧ c ≤ 102 then c.toNat - 87
  else if 65 ≤ c ∧ c ≤ 70 then c.toNat - 55
  else 16

/-- A digit in base `b`. -/
def isDigitIn (b : ℕ) (c : UInt8) : Bool := digitVal c < b

/-! ### Numbers -/

/-- The number that digits in base `b` stand for. -/
def ofDigits (b : ℕ) (ds : List UInt8) : ℕ := ds.foldl (fun n c => b * n + digitVal c) 0

/-- The sign of a number and what comes after it. -/
def sign : List UInt8 → Bool × List UInt8
  | 45 :: s => (true, s)
  | 43 :: s => (false, s)
  | s => (false, s)

/-- `strtol(s, NULL, 10)` -/
def strtol (s : List UInt8) : ℤ :=
  let r := sign (s.dropWhile isSpace)
  let n : ℤ := ofDigits 10 (r.2.takeWhile (isDigitIn 10))
  if r.1 then max (-n) (-2 ^ 63) else min n (2 ^ 63 - 1)

/-- Some character of the string ends the number that `strtol(s, NULL, 10)` reads. -/
def strtolEnds (s : List UInt8) : Bool :=
  !((sign (s.dropWhile isSpace)).2.dropWhile (isDigitIn 10)).isEmpty

/-- A `long` converted to an `int`. -/
def toInt (n : ℤ) : ℤ := n.bmod (2 ^ 32)

/-- What fits in an `int` is kept. -/
lemma toInt_of_lt {n : ℕ} (h : n < 2 ^ 31) : toInt n = n := by
  unfold toInt
  rw [Int.bmod_def]
  omega

/-- What does not fit in it, but in an `unsigned int`, becomes negative. -/
lemma toInt_of_ge {n : ℕ} (h : 2 ^ 31 ≤ n) (hlt : n < 2 ^ 32) : toInt n = n - 2 ^ 32 := by
  unfold toInt
  rw [Int.bmod_def]
  omega

/-- `atoi` -/
def atoi (s : List UInt8) : ℤ := toInt (strtol s)

section Reading

variable {blank digits rest : List UInt8} {c : UInt8}

lemma isDigit_iff : isDigit c = true ↔ 48 ≤ c.toNat ∧ c.toNat ≤ 57 := by
  simp [isDigit, UInt8.le_iff_toNat_le]

/-- A digit in base 10 is a digit. -/
lemma isDigitIn_ten (c : UInt8) : isDigitIn 10 c = isDigit c := by
  unfold isDigitIn digitVal
  split
  · next hd =>
    obtain ⟨-, hle⟩ := isDigit_iff.mp hd
    rw [hd, decide_eq_true_eq]
    omega
  · next hd =>
    rw [Bool.not_eq_true] at hd
    rw [hd, decide_eq_false_iff_not]
    simp only [UInt8.le_iff_toNat_le, UInt8.reduceToNat]
    split
    · omega
    · split
      · omega
      · omega

/-- A digit is neither white space nor a sign. -/
lemma of_isDigit (h : isDigit c = true) : isSpace c = false ∧ c ≠ 45 ∧ c ≠ 43 := by
  obtain ⟨hge, -⟩ := isDigit_iff.mp h
  refine ⟨?_, ?_, ?_⟩
  · unfold isSpace
    rw [Bool.or_eq_false_iff, decide_eq_false_iff_not, Bool.and_eq_false_iff,
      decide_eq_false_iff_not, decide_eq_false_iff_not, UInt8.le_iff_toNat_le, UInt8.le_iff_toNat_le]
    refine ⟨?_, Or.inr ?_⟩
    · rintro rfl
      simp at hge
    · simp
      omega
  · rintro rfl
    simp at hge
  · rintro rfl
    simp at hge

/-- A number without white space and sign starts with its digits. -/
lemma sign_dropWhile {d : UInt8} (h : isDigit d = true) (s : List UInt8) :
    sign ((d :: s).dropWhile isSpace) = (false, d :: s) := by
  obtain ⟨hspace, hminus, hplus⟩ := of_isDigit h
  rw [List.dropWhile_cons_of_neg (by rw [hspace]; simp)]
  unfold sign
  split
  · next h => exact absurd (List.cons.inj h).1 hminus
  · next h => exact absurd (List.cons.inj h).1 hplus
  · rfl

lemma isDigitIn_of_digits (hdigits : ∀ x ∈ digits, isDigit x) : ∀ x ∈ digits, isDigitIn 10 x = true := by
  intro x hx
  rw [isDigitIn_ten]
  exact hdigits x hx

/-- **A decimal number is read as its value**, after white space and in front of a character that is
no digit. -/
theorem strtol_digits (hblank : ∀ x ∈ blank, isSpace x) (hne : digits ≠ [])
    (hdigits : ∀ x ∈ digits, isDigit x) (hc : isDigit c = false) :
    strtol (blank ++ (digits ++ c :: rest)) = min (ofDigits 10 digits : ℤ) (2 ^ 63 - 1) ∧
      strtolEnds (blank ++ (digits ++ c :: rest)) = true := by
  obtain ⟨d, ds, rfl⟩ := List.exists_cons_of_ne_nil hne
  have hsign : sign ((blank ++ (d :: ds ++ c :: rest)).dropWhile isSpace) =
      (false, d :: ds ++ c :: rest) := by
    rw [List.dropWhile_append_of_pos hblank]
    exact sign_dropWhile (hdigits d List.mem_cons_self) (ds ++ c :: rest)
  have hall := isDigitIn_of_digits hdigits
  have hstop : ¬ isDigitIn 10 c = true := by
    rw [isDigitIn_ten, hc]
    simp
  unfold strtol strtolEnds
  rw [hsign]
  dsimp only
  rw [List.takeWhile_append_of_pos hall, List.dropWhile_append_of_pos hall,
    List.takeWhile_cons_of_neg hstop, List.dropWhile_cons_of_neg hstop, List.append_nil]
  exact ⟨rfl, rfl⟩

/-- So is one with nothing around it. -/
lemma strtol_digits_self (hne : digits ≠ []) (hdigits : ∀ x ∈ digits, isDigit x) :
    strtol digits = min (ofDigits 10 digits : ℤ) (2 ^ 63 - 1) := by
  obtain ⟨d, ds, rfl⟩ := List.exists_cons_of_ne_nil hne
  unfold strtol
  rw [sign_dropWhile (hdigits d List.mem_cons_self) ds]
  dsimp only
  rw [List.takeWhile_eq_self_iff.mpr (isDigitIn_of_digits hdigits)]
  rfl

end Reading

section Writing

variable {n k : ℕ}

/-- What `%d` writes of a number that is not negative. -/
lemma text_natCast (n : ℕ) :
    text (toString (n : ℤ)) = (Nat.toDigits 10 n).map fun c => UInt8.ofNat c.toNat := by
  have hrepr : toString (n : ℤ) = n.repr := rfl
  rw [text, hrepr, Nat.toList_repr]

lemma length_text_natCast_le_iff (h : 0 < k) : (text (toString (n : ℤ))).length ≤ k ↔ n < 10 ^ k := by
  rw [text_natCast, List.length_map]
  exact Nat.length_toDigits_le_iff (by norm_num) h

lemma text_natCast_ne_nil : text (toString (n : ℤ)) ≠ [] := by
  rw [text_natCast, Ne, List.map_eq_nil_iff]
  exact Nat.toDigits_ne_nil

/-- A decimal digit as a character and as a byte. -/
lemma isDigit_ofNat_toNat {c : Char} (h : c.isDigit) : isDigit (UInt8.ofNat c.toNat) = true ∧
    digitVal (UInt8.ofNat c.toNat) = c.toNat - '0'.toNat := by
  obtain ⟨hge, hle⟩ : 48 ≤ c.toNat ∧ c.toNat ≤ 57 := by
    simpa [Char.isDigit, UInt32.le_iff_toNat_le] using h
  have hval : (UInt8.ofNat c.toNat).toNat = c.toNat := by
    rw [UInt8.toNat_ofNat']
    omega
  have hdigit : isDigit (UInt8.ofNat c.toNat) = true := by
    rw [isDigit_iff, hval]
    exact ⟨hge, hle⟩
  refine ⟨hdigit, ?_⟩
  rw [digitVal, if_pos hdigit, hval]
  rfl

lemma isDigit_of_mem_text {c : UInt8} (hc : c ∈ text (toString (n : ℤ))) : isDigit c = true := by
  rw [text_natCast] at hc
  obtain ⟨d, hd, rfl⟩ := List.mem_map.mp hc
  exact (isDigit_ofNat_toNat (Nat.isDigit_of_mem_toDigits (by norm_num) (by norm_num) hd)).1

/-- **A number that is written is read back.** -/
theorem ofDigits_text (n : ℕ) : ofDigits 10 (text (toString (n : ℤ))) = n := by
  have hfold : ∀ (cs : List Char) (m : ℕ), (∀ c ∈ cs, c.isDigit) →
      (cs.map fun c => UInt8.ofNat c.toNat).foldl (fun n c => 10 * n + digitVal c) m =
        Nat.ofDigitChars 10 cs m := by
    intro cs
    induction cs with
    | nil => intro m _; rfl
    | cons c cs ih =>
      intro m h
      obtain ⟨hc, hcs⟩ := List.forall_mem_cons.mp h
      rw [List.map_cons, List.foldl_cons, ih _ hcs, (isDigit_ofNat_toNat hc).2]
      rfl
  rw [text_natCast, ofDigits, hfold]
  · exact Nat.ofDigitChars_ten_toDigits
  · intro c hc
    exact Nat.isDigit_of_mem_toDigits (by norm_num) (by norm_num) hc

/-- `atoi` of a number that is written and fits in an `int`. -/
lemma atoi_text (h : n < 2 ^ 31) : atoi (text (toString (n : ℤ))) = n := by
  have hlt : (n : ℤ) ≤ 2 ^ 63 - 1 := by omega
  rw [atoi, strtol_digits_self text_natCast_ne_nil fun c hc => isDigit_of_mem_text hc, ofDigits_text,
    min_eq_left hlt, toInt_of_lt h]

end Writing

/-- `strtoul(s, &end, 0)` of a string that starts with a digit: the number, in the base its first
characters say, and what is left. The number is not cut off at the largest `unsigned long`. -/
def strtoul : List UInt8 → ℕ × List UInt8
  | 48 :: x :: s =>
    if (x = 120 ∨ x = 88) ∧ (s.head?.any (isDigitIn 16)) then
      (ofDigits 16 (s.takeWhile (isDigitIn 16)), s.dropWhile (isDigitIn 16))
    else (ofDigits 8 ((x :: s).takeWhile (isDigitIn 8)), (x :: s).dropWhile (isDigitIn 8))
  | s => (ofDigits 10 (s.takeWhile (isDigitIn 10)), s.dropWhile (isDigitIn 10))

section Unsigned

variable {ds rest : List UInt8} {c x : UInt8} {n : ℕ}

lemma digitVal_of_not_isDigit (h : isDigit c = false) : 10 ≤ digitVal c := by
  unfold digitVal
  rw [h, if_neg (by simp)]
  simp only [UInt8.le_iff_toNat_le, UInt8.reduceToNat]
  split
  · omega
  · split
    · omega
    · omega

/-- Digits in front of something else are what is read of it. -/
lemma takeWhile_digits (hds : ∀ c ∈ ds, isDigit c) (hrest : ∀ c ∈ rest.head?, isDigit c = false) :
    (ds ++ rest).takeWhile (isDigitIn 10) = ds ∧ (ds ++ rest).dropWhile (isDigitIn 10) = rest := by
  have hall := isDigitIn_of_digits hds
  rw [List.takeWhile_append_of_pos hall, List.dropWhile_append_of_pos hall]
  cases rest with
  | nil => exact ⟨List.append_nil ds, rfl⟩
  | cons c rest =>
    have hc : ¬ isDigitIn 10 c = true := by
      rw [isDigitIn_ten, hrest c rfl]
      simp
    rw [List.takeWhile_cons_of_neg hc, List.dropWhile_cons_of_neg hc, List.append_nil]
    exact ⟨rfl, rfl⟩

lemma ofDigits_lt (h : ∀ c ∈ ds, isDigit c) : ofDigits 10 ds < 10 ^ ds.length := by
  have hfold : ∀ (ds : List UInt8) (n : ℕ), (∀ c ∈ ds, isDigit c) →
      ds.foldl (fun n c => 10 * n + digitVal c) n < (n + 1) * 10 ^ ds.length := by
    intro ds
    induction ds with
    | nil => intro n _; simp
    | cons c ds ih =>
      intro n h
      obtain ⟨hc, hds⟩ := List.forall_mem_cons.mp h
      have hlt : digitVal c < 10 := of_decide_eq_true ((isDigitIn_ten c).trans hc)
      calc ds.foldl (fun n c => 10 * n + digitVal c) (10 * n + digitVal c)
          < (10 * n + digitVal c + 1) * 10 ^ ds.length := ih _ hds
        _ ≤ (n + 1) * 10 * 10 ^ ds.length := Nat.mul_le_mul_right _ (by omega)
        _ = (n + 1) * 10 ^ (ds.length + 1) := by rw [pow_succ', mul_assoc]
  simpa [ofDigits] using hfold ds 0 h

/-- A number that is written has no digit 0 in front, unless it is 0. -/
lemma text_natCast_eq (n : ℕ) : text (toString (n : ℤ)) = [48] ∧ n = 0 ∨
    ∃ d ds, text (toString (n : ℤ)) = d :: ds ∧ d ≠ 48 := by
  obtain ⟨d, ds, hcons⟩ := List.exists_cons_of_ne_nil (text_natCast_ne_nil (n := n))
  have hn := ofDigits_text n
  rw [hcons] at hn ⊢
  by_cases hd : d = 48
  · subst hd
    have hzero : ofDigits 10 (48 :: ds) = ofDigits 10 ds := rfl
    rw [hzero] at hn
    by_cases hds : ds = []
    · subst hds
      exact Or.inl ⟨rfl, hn.symm⟩
    · -- the other digits would be enough
      have hlt : n < 10 ^ ds.length := by
        rw [← hn]
        refine ofDigits_lt fun c hc => isDigit_of_mem_text (n := n) ?_
        rw [hcons]
        exact List.mem_cons_of_mem _ hc
      have hle := (length_text_natCast_le_iff (List.length_pos_of_ne_nil hds)).mpr hlt
      rw [hcons, List.length_cons] at hle
      omega
  · exact Or.inr ⟨d, ds, rfl, hd⟩

/-- A number that is written is read back by `strtoul`, in front of what neither goes on with it nor
makes it hexadecimal. -/
theorem strtoul_text (n : ℕ) (hrest : ∀ c ∈ rest.head?, isDigit c = false ∧ c ≠ 120 ∧ c ≠ 88) :
    strtoul (text (toString (n : ℤ)) ++ rest) = (n, rest) := by
  have hdigits := takeWhile_digits (fun c (hc : c ∈ text (toString (n : ℤ))) => isDigit_of_mem_text hc)
    fun c hc => (hrest c hc).1
  have hn := ofDigits_text n
  rcases text_natCast_eq n with ⟨hzero, rfl⟩ | ⟨d, ds, hcons, hd⟩
  · rw [hzero, List.singleton_append]
    cases rest with
    | nil => rfl
    | cons x rest =>
      obtain ⟨hx, h120, h88⟩ := hrest x rfl
      have hoct : ¬ isDigitIn 8 x = true := by
        have hle := digitVal_of_not_isDigit hx
        unfold isDigitIn
        rw [decide_eq_true_eq]
        omega
      have hhex : ¬ ((x = 120 ∨ x = 88) ∧ rest.head?.any (isDigitIn 16)) :=
        fun h => h.1.elim h120 h88
      rw [strtoul, if_neg hhex, List.takeWhile_cons_of_neg hoct, List.dropWhile_cons_of_neg hoct]
      rfl
  · rw [hcons, List.cons_append] at hdigits
    rw [hcons, List.cons_append]
    unfold strtoul
    split
    · next heq => exact absurd (List.cons.inj heq).1 hd
    · rw [hdigits.1, hdigits.2, ← hcons, hn]

end Unsigned

/-! ### Lines and tokens -/

/-- The lines `fgets(line, size, f)` reads one after the other: a line ends after a newline, or when
it fills the array. `acc` is what is read of the first one. -/
def fgetsFrom (size : ℕ) : List UInt8 → List UInt8 → List (List UInt8)
  | [], [] => []
  | acc, [] => [acc]
  | acc, c :: bs =>
    if c = 10 ∨ acc.length + 2 = size then (acc ++ [c]) :: fgetsFrom size [] bs
    else fgetsFrom size (acc ++ [c]) bs

/-- The lines of a file. -/
def fgetsLines (size : ℕ) (file : List UInt8) : List (List UInt8) := fgetsFrom size [] file

/-- The tokens `strtok(s, delim)` gives one after the other, for one delimiter. -/
def strtok (delim : UInt8) (s : List UInt8) : List (List UInt8) :=
  (s.splitOn delim).filter (· ≠ [])

section Lines

variable {size : ℕ} {acc l rest : List UInt8} {a : UInt8}

/-- A line that fits is read whole. -/
lemma fgetsFrom_line (h : 10 ∉ l) (hlen : acc.length + l.length + 2 ≤ size) :
    fgetsFrom size acc (l ++ 10 :: rest) = (acc ++ l ++ [10]) :: fgetsFrom size [] rest := by
  induction l generalizing acc with
  | nil =>
    rw [List.nil_append, fgetsFrom, if_pos (Or.inl rfl), List.append_nil]
  | cons c l ih =>
    rw [List.mem_cons, not_or] at h
    rw [List.length_cons] at hlen
    have hgo : ¬ (c = 10 ∨ acc.length + 2 = size) := by
      rintro (rfl | hfull)
      · exact h.1 rfl
      · omega
    rw [List.cons_append, fgetsFrom, if_neg hgo, ih h.2 (by simp; omega)]
    simp

/-- So is the last one, without a newline. -/
lemma fgetsFrom_last (h : 10 ∉ l) (hne : acc ++ l ≠ []) (hlen : acc.length + l.length + 2 ≤ size) :
    fgetsFrom size acc l = [acc ++ l] := by
  induction l generalizing acc with
  | nil =>
    rw [List.append_nil] at hne ⊢
    rw [fgetsFrom]
    exact hne
  | cons c l ih =>
    rw [List.mem_cons, not_or] at h
    rw [List.length_cons] at hlen
    have hgo : ¬ (c = 10 ∨ acc.length + 2 = size) := by
      rintro (rfl | hfull)
      · exact h.1 rfl
      · omega
    rw [fgetsFrom, if_neg hgo, ih h.2 (by simp) (by simp; omega)]
    simp

/-- Nothing is lost between the lines. -/
lemma flatten_fgetsFrom (size : ℕ) (acc s : List UInt8) : (fgetsFrom size acc s).flatten = acc ++ s := by
  induction s generalizing acc with
  | nil =>
    cases acc with
    | nil => rfl
    | cons c acc => simp [fgetsFrom]
  | cons c s ih =>
    rw [fgetsFrom]
    split
    · rw [List.flatten_cons, ih, List.nil_append, List.append_assoc, List.singleton_append]
    · rw [ih, List.append_assoc, List.singleton_append]

/-- A newline is the last byte of a line. -/
lemma newline_of_mem_fgetsFrom {p s : List UInt8} (hacc : 10 ∉ acc) (hp : p ∈ fgetsFrom size acc s) :
    ∃ q, 10 ∉ q ∧ (p = q ∨ p = q ++ [10]) := by
  induction s generalizing acc with
  | nil =>
    cases acc with
    | nil => cases hp
    | cons c acc =>
      rw [fgetsFrom, List.mem_singleton] at hp
      · exact ⟨_, hacc, Or.inl hp⟩
      · exact List.cons_ne_nil _ _
  | cons c s ih =>
    have hsnoc : c ≠ 10 → 10 ∉ acc ++ [c] := by
      intro hc hmem
      rcases List.mem_append.mp hmem with h | h
      · exact hacc h
      · exact hc (List.mem_singleton.mp h).symm
    rw [fgetsFrom] at hp
    split at hp
    · rcases List.mem_cons.mp hp with rfl | hp
      · by_cases hc : c = 10
        · exact ⟨acc, hacc, Or.inr (by rw [hc])⟩
        · exact ⟨_, hsnoc hc, Or.inl rfl⟩
      · exact ih List.not_mem_nil hp
    · next hgo => exact ih (hsnoc fun hc => hgo (Or.inl hc)) hp

/-- A token is what comes before the delimiter. -/
lemma strtok_token (h : a ∉ l) (hne : l ≠ []) : strtok a (l ++ a :: rest) = l :: strtok a rest := by
  unfold strtok
  rw [List.splitOn_append_cons_self, List.splitOn_eq_singleton h, List.singleton_append,
    List.filter_cons_of_pos (by simpa using hne)]

lemma strtok_last (h : a ∉ l) (hne : l ≠ []) : strtok a l = [l] := by
  unfold strtok
  rw [List.splitOn_eq_singleton h, List.filter_cons_of_pos (by simpa using hne), List.filter_nil]

end Lines

/-- `strtok(s, delims)`, or `strtok(NULL, delims)` where `s` is left: the next token and what is left behind
the delimiter that ends it. -/
def token (delims s : List UInt8) : Option (List UInt8 × List UInt8) :=
  match s.dropWhile (· ∈ delims) with
  | [] => none
  | c :: s' => some ((c :: s').takeWhile (· ∉ delims), ((c :: s').dropWhile (· ∉ delims)).tail)

section Tokens

variable {delims sp t r s : List UInt8} {ts : List (List UInt8)} {a : UInt8}

lemma token_eq_none (h : ∀ c ∈ s, c ∈ delims) : token delims s = none := by
  have hnil : s.dropWhile (· ∈ delims) = [] := List.dropWhile_eq_nil_iff.mpr (by simpa using h)
  rw [token, hnil]

/-- A token between delimiters. -/
lemma token_eq (hsp : ∀ c ∈ sp, c ∈ delims) (ht : ∀ c ∈ t, c ∉ delims) (hne : t ≠ [])
    (hr : ∀ c ∈ r.head?, c ∈ delims) : token delims (sp ++ (t ++ r)) = some (t, r.tail) := by
  obtain ⟨c, t, rfl⟩ := List.exists_cons_of_ne_nil hne
  have hc := ht c List.mem_cons_self
  have hdrop : (sp ++ (c :: t ++ r)).dropWhile (· ∈ delims) = c :: (t ++ r) := by
    rw [List.dropWhile_append_of_pos (by simpa using hsp), List.cons_append,
      List.dropWhile_cons_of_neg (by simpa using hc)]
  have hrest : r.takeWhile (· ∉ delims) = [] ∧ r.dropWhile (· ∉ delims) = r := by
    cases r with
    | nil => exact ⟨rfl, rfl⟩
    | cons d r =>
      have hd : ¬ decide (d ∉ delims) = true := by simpa using hr d rfl
      exact ⟨List.takeWhile_cons_of_neg hd, List.dropWhile_cons_of_neg hd⟩
  rw [token, hdrop]
  dsimp only
  rw [← List.cons_append, List.takeWhile_append_of_pos (by simpa using ht),
    List.dropWhile_append_of_pos (by simpa using ht), hrest.1, hrest.2, List.append_nil]

/-- The tokens are what is not a delimiter. -/
lemma flatten_strtok (a : UInt8) (s : List UInt8) : (strtok a s).flatten = s.filter (· ≠ a) := by
  have hfilter (ls : List (List UInt8)) : (ls.filter (· ≠ [])).flatten = ls.flatten := by
    induction ls with
    | nil => rfl
    | cons l ls ih =>
      by_cases h : l = []
      · subst h
        rw [List.filter_cons_of_neg (by simp), ih, List.flatten_cons, List.nil_append]
      · rw [List.filter_cons_of_pos (by simpa using h), List.flatten_cons, ih, List.flatten_cons]
  rw [strtok, hfilter]
  induction s with
  | nil => rfl
  | cons c s ih =>
    rw [List.splitOn_cons_eq_if_modifyHead]
    by_cases h : c = a
    · rw [if_pos (by simpa using h), List.flatten_cons, List.nil_append, ih,
        List.filter_cons_of_neg (by simpa using h)]
    · rw [if_neg (by simpa using h), List.filter_cons_of_pos (by simpa using h), ← ih]
      cases hs : s.splitOn a with
      | nil => exact absurd hs (List.splitOn_ne_nil a s)
      | cons l ls => rfl

lemma strtok_cons_self (a : UInt8) (s : List UInt8) : strtok a (a :: s) = strtok a s := by
  unfold strtok
  rw [List.splitOn_cons_eq_if_modifyHead, if_pos (beq_self_eq_true a), List.filter_cons_of_neg (by simp)]

lemma strtok_blank (h : ∀ c ∈ sp, c = a) (s : List UInt8) : strtok a (sp ++ s) = strtok a s := by
  induction sp with
  | nil => rfl
  | cons c sp ih =>
    obtain ⟨rfl, hsp⟩ := List.forall_mem_cons.mp h
    rw [List.cons_append, strtok_cons_self, ih hsp]

/-- A string is blank, or has a first token and others behind the delimiter that ends it. -/
lemma strtok_cases (a : UInt8) (s : List UInt8) : (strtok a s = [] ∧ ∀ c ∈ s, c = a) ∨
    ∃ sp t r, s = sp ++ (t ++ r) ∧ (∀ c ∈ sp, c = a) ∧ a ∉ t ∧ t ≠ [] ∧ (∀ c ∈ r.head?, c = a) ∧
      strtok a s = t :: strtok a r.tail := by
  have hsp : ∀ c ∈ s.takeWhile (· = a), c = a := fun c hc => by simpa using List.mem_takeWhile_imp hc
  have hs := List.takeWhile_append_dropWhile (p := (· = a)) (l := s)
  have htok := strtok_blank hsp (s.dropWhile (· = a))
  rw [hs] at htok
  match hrest : s.dropWhile (· = a) with
  | [] =>
    rw [hrest] at htok
    exact Or.inl ⟨htok, by simpa using List.dropWhile_eq_nil_iff.mp hrest⟩
  | c :: s' =>
    have hc : c ≠ a := by
      have hhead := List.head_dropWhile_not (p := (· = a)) (l := s) (by rw [hrest]; simp)
      simp only [hrest] at hhead
      exact of_decide_eq_false hhead
    have ht : a ∉ (c :: s').takeWhile (· ≠ a) := by
      intro hmem
      simpa using List.mem_takeWhile_imp hmem
    have hne : (c :: s').takeWhile (· ≠ a) ≠ [] := by
      rw [List.takeWhile_cons_of_pos (by simpa using hc)]
      exact List.cons_ne_nil _ _
    have hsplit := List.takeWhile_append_dropWhile (p := (· ≠ a)) (l := c :: s')
    refine Or.inr ⟨_, _, (c :: s').dropWhile (· ≠ a), ?_, hsp, ht, hne, ?_, ?_⟩
    · rw [hsplit, ← hrest, hs]
    · intro d hd
      have hhead := List.head?_dropWhile_not (· ≠ a) (c :: s')
      rw [Option.mem_def.mp hd] at hhead
      simpa using hhead
    · rw [htok, hrest]
      conv_lhs => rw [← hsplit]
      cases hr : (c :: s').dropWhile (· ≠ a) with
      | nil =>
        rw [List.append_nil]
        exact strtok_last ht hne
      | cons d r =>
        have hhead := List.head?_dropWhile_not (· ≠ a) (c :: s')
        rw [hr] at hhead
        obtain rfl : d = a := by simpa using hhead
        exact strtok_token ht hne

end Tokens

/-- No piece of a split list has the separator. -/
lemma notMem_of_mem_splitOn {l x : List UInt8} {a : UInt8} (h : x ∈ l.splitOn a) : a ∉ x := by
  induction l generalizing x with
  | nil =>
    rw [List.splitOn_nil, List.mem_singleton] at h
    simp [h]
  | cons b l ih =>
    rw [List.splitOn_cons_eq_if_modifyHead] at h
    split at h
    · rcases List.mem_cons.mp h with rfl | h
      · exact List.not_mem_nil
      · exact ih h
    · next hb =>
      cases hl : l.splitOn a with
      | nil => exact absurd hl (List.splitOn_ne_nil a l)
      | cons p ps =>
        rw [hl, List.modifyHead_cons] at h
        rcases List.mem_cons.mp h with rfl | h
        · intro hmem
          rcases List.mem_cons.mp hmem with rfl | hmem
          · exact hb (beq_self_eq_true a)
          · exact ih (hl ▸ List.mem_cons_self) hmem
        · exact ih (hl ▸ List.mem_cons_of_mem p h)

/-- **Lines that are written one after the other**, each with its terminator, are read back exactly
when none of them has it inside. -/
theorem splitOn_lines_iff {ls : List (List UInt8)} {a : UInt8} :
    (ls.flatMap (· ++ [a])).splitOn a = ls ++ [[]] ↔ ∀ l ∈ ls, a ∉ l := by
  have hsplit (ls : List (List UInt8)) :
      (ls.flatMap (· ++ [a])).splitOn a = ls.flatMap (·.splitOn a) ++ [[]] := by
    induction ls with
    | nil => rfl
    | cons l ls ih =>
      rw [List.flatMap_cons, List.append_assoc, List.singleton_append, List.splitOn_append_cons_self,
        ih, List.flatMap_cons, List.append_assoc]
  rw [hsplit, List.append_left_inj]
  constructor
  · intro h l hl
    rw [← h] at hl
    obtain ⟨l', -, hl'⟩ := List.mem_flatMap.mp hl
    exact notMem_of_mem_splitOn hl'
  · intro h
    induction ls with
    | nil => rfl
    | cons l ls ih =>
      obtain ⟨hl, hls⟩ := List.forall_mem_cons.mp h
      rw [List.flatMap_cons, List.splitOn_eq_singleton hl, ih hls, List.singleton_append]

/-! ### Substrings and concatenation -/

/-- `strstr(s, pat)` as an index, `s` being the C string that starts at the first byte. -/
def strstr (s pat : List UInt8) : Option ℕ := Search.find pat (cstr s)

/-- `strcat(dst, src)` on C strings, for a destination with room for `cap` bytes. It is not defined
when the terminator does not fit. -/
def strcat (cap : ℕ) (dst src : List UInt8) : Option (List UInt8) :=
  if dst.length + src.length < cap then some (dst ++ src) else none

lemma strcat_eq_some_iff {cap : ℕ} {dst src s : List UInt8} :
    strcat cap dst src = some s ↔ s = dst ++ src ∧ s.length < cap := by
  unfold strcat
  split
  · next h =>
    rw [Option.some.injEq]
    constructor
    · rintro rfl
      exact ⟨rfl, by rwa [List.length_append]⟩
    · rintro ⟨rfl, -⟩
      rfl
  · next h =>
    refine iff_of_false (by simp) ?_
    rintro ⟨rfl, hlen⟩
    rw [List.length_append] at hlen
    exact h hlen

/-- Two strings added one after the other: there is room for both when there is for the result. -/
lemma strcat_strcat {cap : ℕ} {dst a b : List UInt8} :
    ((strcat cap dst a).bind fun s => strcat cap s b) = strcat cap dst (a ++ b) := by
  by_cases h : dst.length + (a ++ b).length < cap
  · have ha : dst.length + a.length < cap := by
      rw [List.length_append] at h
      omega
    have hb : (dst ++ a).length + b.length < cap := by
      rwa [List.length_append, Nat.add_assoc, ← List.length_append]
    rw [strcat, if_pos ha, Option.bind_some, strcat, if_pos hb, strcat, if_pos h, List.append_assoc]
  · rw [strcat, strcat, if_neg h]
    split
    · rw [Option.bind_some, strcat, if_neg]
      rwa [List.length_append, Nat.add_assoc, ← List.length_append]
    · rfl

lemma strcat_strcat_eq_some_iff {cap : ℕ} {dst a b s : List UInt8} :
    ((strcat cap dst a).bind fun s => strcat cap s b) = some s ↔
      s = dst ++ a ++ b ∧ s.length < cap := by
  rw [strcat_strcat, strcat_eq_some_iff, List.append_assoc]

/-- A loop that adds a string in each round adds them all. -/
lemma foldlM_strcat {α : Type*} {cap : ℕ} (f : α → List UInt8) (xs : List α) {dst : List UInt8}
    (h : dst.length < cap) :
    xs.foldlM (fun s x => strcat cap s (f x)) dst = strcat cap dst (xs.flatMap f) := by
  induction xs generalizing dst with
  | nil =>
    rw [List.flatMap_nil, strcat, if_pos (by simpa using h), List.append_nil]
    rfl
  | cons x xs ih =>
    rw [List.foldlM_cons, List.flatMap_cons, ← strcat_strcat]
    cases hs : strcat cap dst (f x) with
    | none => rfl
    | some s => exact ih (strcat_eq_some_iff.mp hs).2

end Protocoale.Lib.CText

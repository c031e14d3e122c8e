import Protocoale.Tema1.Skel

/-!
The two checksum routines beside each other. `icmp_checksum` sums the host's words, so that its sum
is that of the big-endian words multiplied by `256`; `ip_checksum` exchanges the two bytes of its
result, which is the same multiplication. For an even number of bytes the two therefore agree
(`icmpChecksum_eq_ipChecksum`). For an odd number `icmp_checksum` reads a whole word at the last
byte, and the byte behind the buffer comes into the sum.
-/

namespace Protocoale.Tema1

open Lib.Bytes Lib.Ones

/-! ### The sum -/

/-- A host word is the big-endian word with its bytes exchanged. -/
lemma le16_modEq (a b : UInt8) : le16 a b ≡ 256 * (a.toNat * 256 + b.toNat) [MOD 65535] := by
  unfold le16 be16 Nat.ModEq
  omega

lemma le16_le (a b : UInt8) : le16 a b ≤ 65535 := by
  have := a.toNat_lt
  have := b.toNat_lt
  unfold le16 be16
  omega

lemma icmpSum_modEq {buffer : List UInt8} (h : buffer.length % 2 = 0) (behind : UInt8) :
    icmpSum behind buffer ≡ 256 * wordSum buffer [MOD 65535] := by
  induction buffer using wordSum.induct with
  | case1 => rfl
  | case2 a => simp at h
  | case3 a b rest ih =>
    have hrest : rest.length % 2 = 0 := by
      simp only [List.length_cons] at h
      omega
    simp only [icmpSum, wordSum, Nat.mul_add 256 _ (wordSum rest)]
    exact (le16_modEq a b).add (ih hrest)

lemma icmpSum_le (behind : UInt8) (buffer : List UInt8) :
    icmpSum behind buffer ≤ 65535 * buffer.length := by
  induction buffer using wordSum.induct with
  | case1 => exact le_rfl
  | case2 a => exact le16_le a behind
  | case3 a b rest ih =>
    have := le16_le a b
    simp only [icmpSum, List.length_cons]
    omega

/-- A buffer that is not all zeros has a sum. -/
lemma icmpSum_pos {buffer : List UInt8} (h : ∃ x ∈ buffer, x ≠ 0) (behind : UInt8) :
    0 < icmpSum behind buffer := by
  have hpos : ∀ x : UInt8, x ≠ 0 → 0 < x.toNat := by
    intro x hx
    exact Nat.pos_of_ne_zero fun h0 => hx (UInt8.toNat_inj.mp h0)
  obtain ⟨x, hx, hx0⟩ := h
  have hx1 := hpos x hx0
  induction buffer using wordSum.induct with
  | case1 => simp at hx
  | case2 a =>
    obtain rfl := List.mem_singleton.mp hx
    simp only [icmpSum, le16, be16]
    omega
  | case3 a b rest ih =>
    simp only [icmpSum, le16, be16]
    rcases List.mem_cons.mp hx with rfl | hx
    · omega
    · rcases List.mem_cons.mp hx with rfl | hx
      · omega
      · have := ih hx
        omega

/-- The byte behind an odd number of bytes is the high byte of the last word. -/
lemma icmpSum_behind {buffer : List UInt8} (h : buffer.length % 2 = 1) (behind : UInt8) :
    icmpSum behind buffer = icmpSum 0 buffer + 256 * behind.toNat := by
  induction buffer using wordSum.induct with
  | case1 => simp at h
  | case2 a =>
    simp only [icmpSum, le16, be16, UInt8.toNat_zero]
    omega
  | case3 a b rest ih =>
    have hrest : rest.length % 2 = 1 := by
      simp only [List.length_cons] at h
      omega
    simp only [icmpSum]
    rw [ih hrest]
    omega

/-! ### The routine -/

/-- Two folds are enough for what fits a frame. -/
lemma fold_twice {n : ℕ} (hpos : 0 < n) (hle : n < 2 ^ 32) :
    (n / 65536 + n % 65536 + (n / 65536 + n % 65536) / 65536) % 65536 = rep n := by
  have hmod : n / 65536 + n % 65536 ≡ n [MOD 65535] := by
    unfold Nat.ModEq
    omega
  have hf0 : 0 < n / 65536 + n % 65536 := by omega
  have hf1 : n / 65536 + n % 65536 < 131071 := by omega
  rw [← rep_congr hmod]
  generalize n / 65536 + n % 65536 = f at *
  rcases Nat.lt_or_ge f 65536 with hlow | hhigh
  · rw [rep_of_le hf0 (by omega)]
    omega
  · -- the second carry is one
    have hcarry : rep f = rep (f - 65535) := by
      refine rep_congr ?_
      unfold Nat.ModEq
      omega
    rw [hcarry, rep_of_le (by omega) (by omega)]
    omega

lemma icmpChecksum_eq {buffer : List UInt8} (hlen : buffer.length ≤ 1600)
    (hne : ∃ x ∈ buffer, x ≠ 0) (behind : UInt8) :
    icmpChecksum buffer behind = 65535 - rep (icmpSum behind buffer) := by
  have hle := icmpSum_le behind buffer
  have hcompl : ∀ x < 2 ^ 64, (2 ^ 64 - 1 - x) % 65536 = 65535 - x % 65536 := by
    intro x hx
    omega
  rw [← fold_twice (icmpSum_pos hne behind) (by omega)]
  unfold icmpChecksum
  simp only [and_ffff, shiftRight_16]
  exact hcompl _ (by omega)

/-- **The two routines agree on an even number of bytes.** -/
theorem icmpChecksum_eq_ipChecksum {buffer : List UInt8} (heven : buffer.length % 2 = 0)
    (hlen : buffer.length ≤ 1600) (hne : ∃ x ∈ buffer, x ≠ 0) (behind : UInt8) (addr : ℕ) :
    icmpChecksum buffer behind = ipChecksum addr buffer := by
  have hle := rep_le (wordSum buffer)
  rw [icmpChecksum_eq hlen hne, ipChecksum_eq, rep_congr (icmpSum_modEq heven behind), rep_mul_256]
  unfold swap16
  omega

/-- On an odd number of bytes the byte behind them counts. -/
lemma icmpChecksum_behind {buffer : List UInt8} (hodd : buffer.length % 2 = 1)
    (hlen : buffer.length ≤ 1600) (hne : ∃ x ∈ buffer, x ≠ 0) :
    icmpChecksum buffer 1 ≠ icmpChecksum buffer 0 := by
  have hle := rep_le (icmpSum 0 buffer)
  have hle1 := rep_le (icmpSum 0 buffer + 256)
  have hsum : icmpSum 1 buffer = icmpSum 0 buffer + 256 := icmpSum_behind hodd 1
  rw [icmpChecksum_eq hlen hne, icmpChecksum_eq hlen hne, hsum]
  intro h
  have hrep : rep (icmpSum 0 buffer + 256) = rep (icmpSum 0 buffer) := by omega
  have h0 := rep_modEq (icmpSum 0 buffer)
  have h1 := rep_modEq (icmpSum 0 buffer + 256)
  unfold Nat.ModEq at h0 h1
  omega

/-- **`icmp_checksum` is `ip_checksum`, and a function of the bytes it is given, exactly for even
sizes.** -/
theorem icmpChecksum_agrees_iff {buffer : List UInt8} (hlen : buffer.length ≤ 1600)
    (hne : ∃ x ∈ buffer, x ≠ 0) :
    ((∀ behind addr, bytes16 (icmpChecksum buffer behind) = bytes16 (ipChecksum addr buffer)) ∧
      ∀ behind behind', icmpChecksum buffer behind = icmpChecksum buffer behind') ↔
    buffer.length % 2 = 0 := by
  constructor
  · rintro ⟨-, hbehind⟩
    rcases Nat.mod_two_eq_zero_or_one buffer.length with heven | hodd
    · exact heven
    · exact (icmpChecksum_behind hodd hlen hne (hbehind 1 0)).elim
  · intro heven
    have hip := icmpChecksum_eq_ipChecksum heven hlen hne
    refine ⟨fun behind addr => congrArg bytes16 (hip behind addr), fun behind behind' => ?_⟩
    rw [hip behind 0, hip behind' 0]

/-- The header of an echo request, followed by a byte of data. -/
theorem icmpChecksum_agrees_header : bytes16 (icmpChecksum [8, 0, 0, 0, 1, 2, 3, 4] 5) =
    bytes16 (ipChecksum 2 [8, 0, 0, 0, 1, 2, 3, 4]) :=
  ((icmpChecksum_agrees_iff (by decide) ⟨8, by decide⟩).mpr rfl).1 5 2

/-- A single byte: the routines agree when there is a zero behind it, and not when there is a one. -/
theorem icmpChecksum_odd :
    icmpChecksum [1] 0 = ipChecksum 0 [1] ∧ icmpChecksum [1] 1 ≠ ipChecksum 0 [1] := by
  have h0 : icmpChecksum [1] 0 = ipChecksum 0 [1] := by
    rw [ipChecksum_eq]
    rfl
  refine ⟨h0, ?_⟩
  rw [← h0]
  exact icmpChecksum_behind rfl (by decide) ⟨1, by decide⟩

/-! ### Generated headers -/

lemma sums_zeros {buffer : List UInt8} (h : ∀ x ∈ buffer, x = 0) :
    wordSum buffer = 0 ∧ icmpSum 0 buffer = 0 := by
  induction buffer using wordSum.induct with
  | case1 => exact ⟨rfl, rfl⟩
  | case2 a =>
    obtain rfl := h a (by simp)
    exact ⟨rfl, rfl⟩
  | case3 a b rest ih =>
    obtain rfl := h a (by simp)
    obtain rfl := h b (by simp)
    obtain ⟨hword, hicmp⟩ := ih fun x hx => h x (by simp [hx])
    rw [wordSum, icmpSum, hword, hicmp]
    exact ⟨rfl, rfl⟩

/-- A buffer of zeros has the checksum `0xffff`. -/
lemma icmpChecksum_zeros {buffer : List UInt8} (h : ∀ x ∈ buffer, x = 0) :
    icmpChecksum buffer 0 = 65535 := by
  unfold icmpChecksum
  rw [(sums_zeros h).2]
  rfl

/-- **A header with the checksum of `icmp_checksum` in its field verifies**, also when the rest of it
is zero. -/
theorem icmpChecksum_verifies (pre post : List UInt8) (hpre : pre.length % 2 = 0)
    (hpost : post.length % 2 = 0) (hlen : pre.length + post.length ≤ 1598) (addr : ℕ) :
    ipChecksum addr (pre ++ (bytes16 (icmpChecksum (pre ++ (bytes16 0 ++ post)) 0) ++ post)) = 0 := by
  have htotal : (pre ++ (bytes16 0 ++ post)).length = pre.length + (2 + post.length) := by
    simp [bytes16]
    omega
  by_cases hne : ∃ x ∈ pre ++ (bytes16 0 ++ post), x ≠ 0
  · rw [icmpChecksum_eq_ipChecksum (by omega) (by omega) hne 0 0]
    exact ipChecksum_verifies pre post hpre addr 0
  · have hzero : ∀ x ∈ pre ++ (bytes16 0 ++ post), x = 0 := by
      intro x hx
      by_contra h0
      exact hne ⟨x, hx, h0⟩
    have hpre0 := (sums_zeros fun x hx => hzero x (List.mem_append_left _ hx)).1
    have hpost0 := (sums_zeros fun x hx =>
      hzero x (List.mem_append_right _ (List.mem_append_right _ hx))).1
    have hones : wordSum (bytes16 65535) = 65535 := rfl
    rw [ipChecksum_eq_zero_iff, icmpChecksum_zeros hzero, wordSum_append _ hpre,
      wordSum_append post (show (bytes16 65535).length % 2 = 0 from rfl), hpre0, hpost0, hones]
    exact rep_of_le (by omega) (by omega)

/-- The IP header of a generated message verifies. -/
lemma icmpIpHdr_verifies (daddr saddr : UInt32) (addr : ℕ) :
    ipChecksum addr (icmpIpHdr daddr saddr) = 0 := by
  have h := ipChecksum_verifies ([0x45, 0] ++ (bytes16 (htons 28) ++ (bytes16 (htons 1) ++
    [0, 0, 64, IPPROTO_ICMP]))) (bytes32 saddr ++ bytes32 daddr) (by rfl) addr 0
  unfold icmpIpHdr
  simp only [List.append_assoc] at h ⊢
  exact h

lemma icmpIpHdr_length (daddr saddr : UInt32) : (icmpIpHdr daddr saddr).length = 20 := rfl

/-- So does its ICMP header. -/
lemma icmpHdr_verifies (type code : UInt8) {un : List UInt8} (hun : un.length = 4) (addr : ℕ) :
    ipChecksum addr (icmpHdr type code un) = 0 := by
  have h := icmpChecksum_verifies [type, code] un (by simp) (by omega) (by simp [hun]) addr
  unfold icmpHdr
  simp only [List.append_assoc]
  exact h

end Protocoale.Tema1

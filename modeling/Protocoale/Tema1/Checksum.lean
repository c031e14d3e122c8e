import Protocoale.Lib.Bytes
import Protocoale.Lib.Ones

/-!
The checksum of the IP header (`ip_checksum`). The routine sums 32-bit blocks at aligned addresses,
with a partial block at each end, and swaps the bytes of the result when the data starts at an odd
address. Whatever the address, what comes out is the Internet checksum (`ipChecksum_eq`): the
complement of the ones' complement sum of the 16-bit words of the data.

Values are those of a little-endian host: `htons` exchanges two bytes, and a 16-bit value is stored
low byte first.
-/

namespace Protocoale.Tema1

open Lib.Bytes Lib.Ones

/-! ### The routine -/

/-- `htons`, and `ntohs`. -/
def htons (x : ℕ) : ℕ := swap16 (x % 65536)

/-- The two bytes of a `uint16_t` in memory. -/
def bytes16 (x : ℕ) : List UInt8 := [UInt8.ofNat x, UInt8.ofNat (x / 256)]

/-- `ntohl` of a word whose first bytes are copied from `bs`, the others being zero. -/
def ntohlWord (bs : List UInt8) : ℕ := be32 (bs.getD 0 0) (bs.getD 1 0) (bs.getD 2 0) (bs.getD 3 0)

/-- The complete 32-bit blocks and the partial block at the end. -/
def addBlocks (acc : ℕ) : List UInt8 → ℕ
  | a :: b :: c :: d :: rest => addBlocks (acc + be32 a b c d) rest
  | [] => acc
  | rest => acc + ntohlWord rest

/-- The accumulator when all the data is summed: the partial block at the start comes first. -/
def sumData (offset : ℕ) (data : List UInt8) : ℕ :=
  if offset = 0 then addBlocks 0xffff data
  else
    let count := min (4 - offset) data.length
    addBlocks (0xffff + ntohlWord (List.replicate offset 0 ++ data.take count)) (data.drop count)

/-- `ip_checksum`, for data that starts at the address `addr`. -/
def ipChecksum (addr : ℕ) (data : List UInt8) : ℕ :=
  let offset := addr % 4
  let acc := sumData offset data
  let acc := fold16 ((acc &&& 0xffffffff) + (acc >>> 32))
  let acc := if offset &&& 1 = 1 then ((acc &&& 0xff00) >>> 8) ||| ((acc &&& 0x00ff) <<< 8) else acc
  htons (2 ^ 64 - 1 - acc)

/-! ### What it computes -/

lemma be32_modEq (a b c d : UInt8) : be32 a b c d ≡ be16 a b + be16 c d [MOD 65535] := by
  unfold be32 Nat.ModEq
  omega

lemma ntohlWord_modEq {bs : List UInt8} (h : bs.length ≤ 4) :
    ntohlWord bs ≡ wordSum bs [MOD 65535] := by
  unfold ntohlWord
  refine (be32_modEq _ _ _ _).trans ?_
  match bs, h with
  | [], _ => rfl
  | [a], _ => simp [wordSum, be16, Nat.ModEq]
  | [a, b], _ => simp [wordSum, be16, Nat.ModEq]
  | [a, b, c], _ => simp [wordSum, be16, Nat.ModEq]
  | [a, b, c, d], _ => simp [wordSum, be16, Nat.ModEq, Nat.add_assoc]

lemma addBlocks_modEq (acc : ℕ) (data : List UInt8) :
    addBlocks acc data ≡ acc + wordSum data [MOD 65535] := by
  fun_induction addBlocks acc data with
  | case1 acc a b c d rest ih =>
    refine ih.trans ?_
    have := be32_modEq a b c d
    simp only [wordSum]
    unfold be16 Nat.ModEq at *
    omega
  | case2 => rfl
  | case3 acc rest hlong hne =>
    refine Nat.ModEq.add_left acc (ntohlWord_modEq ?_)
    rcases rest with _ | ⟨a, _ | ⟨b, _ | ⟨c, _ | ⟨d, rest⟩⟩⟩⟩
    · simp
    · simp
    · simp
    · simp
    · exact (hlong a b c d rest rfl).elim

lemma le_addBlocks (acc : ℕ) (data : List UInt8) : acc ≤ addBlocks acc data := by
  fun_induction addBlocks acc data with
  | case1 acc a b c d rest ih => omega
  | case2 => exact le_rfl
  | case3 => omega

/-- The data is summed as if zeros filled the block it starts in. -/
lemma sumData_modEq {offset : ℕ} (h : offset < 4) (data : List UInt8) :
    sumData offset data ≡ wordSum (List.replicate offset 0 ++ data) [MOD 65535] := by
  unfold sumData
  split
  · next h0 =>
    subst h0
    refine (addBlocks_modEq _ _).trans ?_
    simp [Nat.ModEq]
  · have hsplit : List.replicate offset 0 ++ data = (List.replicate offset 0 ++
        data.take (min (4 - offset) data.length)) ++ data.drop (min (4 - offset) data.length) := by
      rw [List.append_assoc, List.take_append_drop]
    have hlen : (List.replicate offset (0 : UInt8) ++
        data.take (min (4 - offset) data.length)).length ≤ 4 := by
      simp only [List.length_append, List.length_replicate, List.length_take]
      omega
    refine (addBlocks_modEq _ _).trans ?_
    have hhead := ntohlWord_modEq hlen
    have hsum : wordSum (List.replicate offset 0 ++ data) =
        wordSum (List.replicate offset 0 ++ data.take (min (4 - offset) data.length)) +
          wordSum (data.drop (min (4 - offset) data.length)) := by
      rcases Nat.lt_or_ge data.length (4 - offset) with hshort | hlong
      · rw [Nat.min_eq_right hshort.le, List.take_length, List.drop_length]
        simp [wordSum]
      · conv_lhs => rw [hsplit]
        refine wordSum_append _ ?_
        simp only [List.length_append, List.length_replicate, List.length_take]
        omega
    rw [hsum]
    unfold Nat.ModEq at *
    omega

lemma sumData_pos (offset : ℕ) (data : List UInt8) : 0 < sumData offset data := by
  unfold sumData
  split
  · have := le_addBlocks 0xffff data
    omega
  · have := le_addBlocks (0xffff + ntohlWord (List.replicate offset 0 ++
      data.take (min (4 - offset) data.length))) (data.drop (min (4 - offset) data.length))
    dsimp only
    omega

/-- The carries above 32 bits, and then those above 16 bits, are added back in. -/
lemma fold_eq_rep {acc : ℕ} (h : 0 < acc) :
    fold16 ((acc &&& 0xffffffff) + (acc >>> 32)) = rep acc := by
  have hand : acc &&& 0xffffffff = acc % 4294967296 := Nat.and_two_pow_sub_one_eq_mod acc 32
  have hshift : acc >>> 32 = acc / 4294967296 := Nat.shiftRight_eq_div_pow acc 32
  rw [hand, hshift, fold16_eq_rep (by omega)]
  refine rep_congr ?_
  unfold Nat.ModEq
  omega

lemma swap_bytes {acc : ℕ} (h : acc < 65536) :
    ((acc &&& 0xff00) >>> 8) ||| ((acc &&& 0x00ff) <<< 8) = swap16 acc := by
  have hlow : acc &&& 0x00ff = acc % 256 := Nat.and_two_pow_sub_one_eq_mod acc 8
  have hhigh : (acc &&& 0xff00) >>> 8 = acc / 256 := by
    rw [Nat.shiftRight_and_distrib, show (0xff00 : ℕ) >>> 8 = 2 ^ 8 - 1 by rfl,
      Nat.and_two_pow_sub_one_eq_mod, Nat.shiftRight_eq_div_pow]
    omega
  rw [hhigh, hlow, Nat.or_comm, ← Nat.shiftLeft_add_eq_or_of_lt (by omega), Nat.shiftLeft_eq]
  rfl

/-- Zeros before the data, up to the start of its block. -/
lemma wordSum_replicate_zero {offset : ℕ} (h : offset < 4) (data : List UInt8) :
    wordSum (List.replicate offset 0 ++ data) =
      if offset &&& 1 = 1 then wordSum (0 :: data) else wordSum data := by
  match offset, h with
  | 0, _ => simp
  | 1, _ => simp
  | 2, _ => simp [List.replicate_succ, wordSum]
  | 3, _ => simp [List.replicate_succ, wordSum]

/-- **At every alignment, `ip_checksum` is the complement of the ones' complement sum.** -/
theorem ipChecksum_eq (addr : ℕ) (data : List UInt8) :
    ipChecksum addr data = swap16 (65535 - rep (wordSum data)) := by
  have hoff : addr % 4 < 4 := Nat.mod_lt _ (by omega)
  have hcompl : ∀ acc, acc ≤ 65535 → (2 ^ 64 - 1 - acc) % 65536 = 65535 - acc := by
    intro acc hacc
    omega
  have hrep := rep_congr (sumData_modEq hoff data)
  rw [wordSum_replicate_zero hoff] at hrep
  unfold ipChecksum htons
  dsimp only
  rw [fold_eq_rep (sumData_pos _ _), hrep]
  split
  · rw [swap_bytes (Nat.lt_succ_of_le (rep_le _)), ← rep_mul_256,
      rep_congr (wordSum_zero_cons data), hcompl _ (rep_le _)]
  · rw [hcompl _ (rep_le _)]

/-- The checksum verifies when the sum of the words is zero, as ones' complement knows it. -/
lemma ipChecksum_eq_zero_iff {addr : ℕ} {data : List UInt8} :
    ipChecksum addr data = 0 ↔ rep (wordSum data) = 65535 := by
  have hle := rep_le (wordSum data)
  rw [ipChecksum_eq]
  unfold swap16
  omega

/-- The checksum as it is stored. -/
lemma bytes16_ipChecksum (addr : ℕ) (data : List UInt8) :
    wordSum (bytes16 (ipChecksum addr data)) = 65535 - rep (wordSum data) := by
  have hle := rep_le (wordSum data)
  have hx : 65535 - rep (wordSum data) < 65536 := by omega
  rw [ipChecksum_eq]
  generalize 65535 - rep (wordSum data) = x at *
  have hhi : swap16 x / 256 = x % 256 := by
    unfold swap16
    omega
  have hlo : swap16 x % 256 = x / 256 := by
    unfold swap16
    omega
  simp only [bytes16, wordSum, UInt8.toNat_ofNat', Nat.reducePow, hhi, hlo]
  omega

/-- **A header verifies at every alignment when its checksum field holds the checksum of the header
with a zero in that field.** -/
theorem ipChecksum_verifies (pre post : List UInt8) (hpre : pre.length % 2 = 0) (addr addr' : ℕ) :
    ipChecksum addr (pre ++ (bytes16 (ipChecksum addr' (pre ++ (bytes16 0 ++ post))) ++ post)) = 0 := by
  have hsum (check : ℕ) : wordSum (pre ++ (bytes16 check ++ post)) =
      wordSum pre + wordSum post + wordSum (bytes16 check) := by
    have heven : (bytes16 check).length % 2 = 0 := by simp [bytes16]
    rw [wordSum_append _ hpre, wordSum_append _ heven]
    omega
  have hzero : wordSum (bytes16 0) = 0 := rfl
  rw [ipChecksum_eq_zero_iff, hsum, bytes16_ipChecksum, hsum, hzero, Nat.add_zero, rep_add_compl]

/-! ### The routine as a whole -/

lemma be32_lt (a b c d : UInt8) : be32 a b c d < 2 ^ 32 := by
  have := a.toNat_lt
  have := b.toNat_lt
  have := c.toNat_lt
  have := d.toNat_lt
  unfold be32 be16
  omega

lemma addBlocks_le (acc : ℕ) (data : List UInt8) : addBlocks acc data ≤ acc + 2 ^ 32 * data.length := by
  fun_induction addBlocks acc data with
  | case1 acc a b c d rest ih =>
    have := be32_lt a b c d
    simp only [List.length_cons]
    omega
  | case2 => simp
  | case3 acc rest hlong hne =>
    have hpos := List.length_pos_of_ne_nil hne
    have hword : ntohlWord rest < 2 ^ 32 := be32_lt _ _ _ _
    omega

/-- The accumulator does not overflow: the data would have to be `2 ^ 32` bytes long. -/
lemma sumData_lt {data : List UInt8} (offset : ℕ) (h : data.length < 2 ^ 16) :
    sumData offset data < 2 ^ 64 := by
  unfold sumData
  split
  · have := addBlocks_le 0xffff data
    omega
  · have hword : ∀ bs, ntohlWord bs < 2 ^ 32 := fun bs => be32_lt _ _ _ _
    have hhead := hword (List.replicate offset 0 ++ data.take (min (4 - offset) data.length))
    have := addBlocks_le (0xffff + ntohlWord (List.replicate offset 0 ++
      data.take (min (4 - offset) data.length))) (data.drop (min (4 - offset) data.length))
    rw [List.length_drop] at this
    dsimp only
    omega

/-- **`ip_checksum` is the Internet checksum**, wherever the data starts: nothing overflows, the two
bytes stored are the complement of the ones' complement sum, and data of even length with these bytes
in a 16-bit field that was zero has the checksum zero. -/
theorem ipChecksum_internet {data : List UInt8} (hlen : data.length < 2 ^ 16) (addr : ℕ) :
    sumData (addr % 4) data < 2 ^ 64 ∧
    wordSum (bytes16 (ipChecksum addr data)) = 65535 - rep (wordSum data) ∧
    (∀ addr', ipChecksum addr' data = ipChecksum addr data) ∧
    ∀ pre post, data = pre ++ (bytes16 0 ++ post) → data.length % 2 = 0 → pre.length % 2 = 0 →
      ∀ addr', ipChecksum addr' (pre ++ (bytes16 (ipChecksum addr data) ++ post)) = 0 := by
  refine ⟨sumData_lt _ hlen, bytes16_ipChecksum addr data, ?_, ?_⟩
  · intro addr'
    rw [ipChecksum_eq, ipChecksum_eq]
  · rintro pre post rfl - hpre addr'
    exact ipChecksum_verifies pre post hpre addr' addr

/-- Three bytes at an odd address. -/
theorem ipChecksum_internet_odd :
    wordSum (bytes16 (ipChecksum 1 [1, 2, 3])) = 65535 - rep (wordSum [1, 2, 3]) :=
  (ipChecksum_internet (by decide) 1).2.1

end Protocoale.Tema1

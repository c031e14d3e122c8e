import Mathlib.Data.List.GetD
import Mathlib.Data.List.TakeWhile
import Mathlib.Tactic

/-!
Byte buffers: a buffer is a function from indices to bytes, `read` and `write` move lists of
bytes out of and into it. Beside them, the byte orders of 16 and 32 bit words, the zero padding
of a short receive, and C strings.
-/

namespace Protocoale.Lib.Bytes

/-- A buffer, byte by byte. -/
abbrev Buf := ℕ → UInt8

/-- The `n` bytes from index `off` on. -/
def read (b : Buf) (off n : ℕ) : List UInt8 := (List.range n).map fun i => b (off + i)

/-- The buffer with `bs` copied to index `off`. -/
def write (b : Buf) (off : ℕ) (bs : List UInt8) : Buf := fun i =>
  if off ≤ i ∧ i < off + bs.length then bs.getD (i - off) 0 else b i

section Buffers

variable {b b' : Buf} {off n m i : ℕ} {bs : List UInt8}

@[simp] lemma read_length : (read b off n).length = n := by simp [read]

@[simp] lemma read_zero : read b off 0 = [] := rfl

lemma read_congr (h : ∀ i, off ≤ i → i < off + n → b i = b' i) : read b off n = read b' off n := by
  apply List.map_congr_left
  intro i hi
  have := List.mem_range.mp hi
  exact h _ (by omega) (by omega)

lemma read_getElem? (h : i < n) : (read b off n)[i]? = some (b (off + i)) := by
  simp [read, h]

/-- The bytes read are those of a list. -/
lemma read_eq_of_getD (h : ∀ i < n, b (off + i) = bs.getD i 0) (hlen : bs.length = n) :
    read b off n = bs := by
  apply List.ext_getElem?
  intro i
  rcases Nat.lt_or_ge i n with hi | hi
  · rw [read_getElem? hi, h i hi, List.getElem?_eq_getElem (by omega),
      List.getD_eq_getElem _ _ (by omega)]
  · rw [List.getElem?_eq_none (by simpa using hi), List.getElem?_eq_none (by omega)]

lemma read_add : read b off (n + m) = read b off n ++ read b (off + n) m := by
  unfold read
  rw [List.range_add, List.map_append, List.map_map]
  congr 2
  funext i
  simp [Nat.add_assoc]

lemma drop_read : (read b off n).drop m = read b (off + m) (n - m) := by
  rcases Nat.le_total m n with h | h
  · obtain ⟨k, rfl⟩ := Nat.exists_eq_add_of_le h
    rw [read_add, List.drop_left' read_length, Nat.add_sub_cancel_left]
  · rw [List.drop_of_length_le (by simpa using h), Nat.sub_eq_zero_of_le h, read_zero]

lemma take_read (h : m ≤ n) : (read b off n).take m = read b off m := by
  obtain ⟨k, rfl⟩ := Nat.exists_eq_add_of_le h
  rw [read_add, List.take_left' read_length]

lemma write_of_lt (h : i < off) : write b off bs i = b i := if_neg (by omega)

lemma write_of_ge (h : off + bs.length ≤ i) : write b off bs i = b i := if_neg (by omega)

lemma write_apply (h : i < bs.length) : write b off bs (off + i) = bs.getD i 0 := by
  unfold write
  rw [if_pos (by omega), Nat.add_sub_cancel_left]

/-- What was written is read back. -/
@[simp] lemma read_write_self : read (write b off bs) off bs.length = bs := by
  apply read_eq_of_getD _ rfl
  intro i hi
  exact write_apply hi

/-- Two writes, the second behind the first. -/
lemma write_append (b : Buf) (off : ℕ) (bs cs : List UInt8) :
    write (write b off bs) (off + bs.length) cs = write b off (bs ++ cs) := by
  funext i
  unfold write
  rw [List.length_append]
  by_cases hi : off + bs.length ≤ i
  · rw [List.getD_append_right _ _ _ _ (by omega), Nat.sub_sub]
    split_ifs <;> first | rfl | omega
  · rw [if_neg (by omega)]
    by_cases hoff : off ≤ i
    · rw [if_pos (by omega), if_pos (by omega), List.getD_append _ _ _ _ (by omega)]
    · rw [if_neg (by omega), if_neg (by omega)]

@[simp] lemma write_nil : write b off [] = b := by
  funext i
  exact if_neg (by simp)

/-- A write elsewhere is not seen. -/
lemma read_write_disjoint {off' : ℕ} (h : off + n ≤ off' ∨ off' + bs.length ≤ off) :
    read (write b off' bs) off n = read b off n := by
  apply read_congr
  intro i h1 h2
  rcases h with h | h
  · exact write_of_lt (by omega)
  · exact write_of_ge (by omega)

/-- A field of what is read is overwritten. -/
lemma read_write_field {pre mid post : List UInt8} (h : read b off n = pre ++ (mid ++ post))
    (hbs : bs.length = mid.length) : read (write b (off + pre.length) bs) off n = pre ++ (bs ++ post) := by
  have hlen := congrArg List.length h
  rw [read_length, List.length_append, List.length_append, ← hbs] at hlen
  subst hlen
  rw [read_add, read_add] at h ⊢
  obtain ⟨hpre, hrest⟩ := List.append_inj h read_length
  obtain ⟨-, hpost⟩ := List.append_inj hrest (read_length.trans hbs)
  rw [read_write_disjoint (.inl le_rfl), read_write_self, read_write_disjoint (.inr le_rfl), hpre, hpost]

end Buffers

/-! ### Words -/

/-- The big-endian 16-bit word of two bytes, as `ntohs` gives it. -/
def be16 (a b : UInt8) : ℕ := a.toNat * 256 + b.toNat

/-- The big-endian 32-bit word of four bytes, as `ntohl` gives it. -/
def be32 (a b c d : UInt8) : ℕ := be16 a b * 65536 + be16 c d

/-- The little-endian 32-bit word of four bytes: the value a `uint32_t` in memory has on the
little-endian machines the programs run on. -/
def le32 (a b c d : UInt8) : UInt32 := UInt32.ofNat (be32 d c b a)

/-- The four bytes of a `uint32_t` in memory. -/
def bytes32 (x : UInt32) : List UInt8 :=
  [UInt8.ofNat x.toNat, UInt8.ofNat (x.toNat / 256), UInt8.ofNat (x.toNat / 65536),
    UInt8.ofNat (x.toNat / 16777216)]

/-- A word is read back from its bytes. -/
lemma le32_bytes (x : UInt32) : le32 (UInt8.ofNat x.toNat) (UInt8.ofNat (x.toNat / 256))
    (UInt8.ofNat (x.toNat / 65536)) (UInt8.ofNat (x.toNat / 16777216)) = x := by
  apply UInt32.toNat_inj.mp
  have hx := x.toNat_lt
  simp only [le32, be32, be16, UInt8.toNat_ofNat', UInt32.toNat_ofNat']
  omega

lemma bytes32_injective : Function.Injective bytes32 := by
  intro x y h
  simp only [bytes32, List.cons.injEq, and_true] at h
  obtain ⟨h0, h1, h2, h3⟩ := h
  rw [← le32_bytes x, h0, h1, h2, h3, le32_bytes]

/-- The bytes of a word are its bytes in memory. -/
lemma bytes32_le32 (a b c d : UInt8) : bytes32 (le32 a b c d) = [a, b, c, d] := by
  have := a.toNat_lt
  have := b.toNat_lt
  have := c.toNat_lt
  have := d.toNat_lt
  simp only [bytes32, le32, be32, be16, UInt32.toNat_ofNat', List.cons.injEq, and_true]
  refine ⟨?_, ?_, ?_, ?_⟩
  all_goals
    apply UInt8.toNat_inj.mp
    rw [UInt8.toNat_ofNat']
    omega

/-! ### Receiving into a zeroed array, C strings -/

/-- The first `n` bytes of `bs`, with zeros after its end: an array of `n` bytes cleared by
`memset` into which at most `n` bytes were received. -/
def pad (n : ℕ) (bs : List UInt8) : Vector UInt8 n := Vector.ofFn fun i : Fin n => bs.getD i 0

@[simp] lemma pad_getElem {n i : ℕ} {bs : List UInt8} (h : i < n) : (pad n bs)[i] = bs.getD i 0 := by
  simp [pad]

/-- What fits is followed by zeros. -/
lemma pad_toList {n : ℕ} {bs : List UInt8} (h : bs.length ≤ n) :
    (pad n bs).toList = bs ++ List.replicate (n - bs.length) 0 := by
  apply List.ext_getElem
  · simp
    omega
  · intro i h1 h2
    rw [Vector.getElem_toList, pad_getElem]
    rcases Nat.lt_or_ge i bs.length with hi | hi
    · rw [List.getElem_append_left hi, List.getD_eq_getElem _ _ hi]
    · rw [List.getElem_append_right hi, List.getD_eq_default _ _ hi, List.getElem_replicate]

/-- A receive that fills the array is read back, whatever follows it. -/
lemma pad_toList_append {n : ℕ} (v : Vector UInt8 n) (rest : List UInt8) :
    pad n (v.toList ++ rest) = v := by
  apply Vector.ext
  intro i hi
  rw [pad_getElem, List.getD_append _ _ _ _ (by simpa using hi),
    List.getD_eq_getElem _ _ (by simpa using hi)]
  simp

section Delimited

variable {a : UInt8} {bs rest : List UInt8}

/-- What comes before the first delimiter. -/
lemma takeWhile_ne_append (h : a ∉ bs) (rest : List UInt8) :
    (bs ++ rest).takeWhile (· ≠ a) = bs ++ rest.takeWhile (· ≠ a) := by
  refine List.takeWhile_append_of_pos fun c hc => decide_eq_true ?_
  rintro rfl
  exact h hc

lemma takeWhile_ne_self (h : a ∉ bs) : bs.takeWhile (· ≠ a) = bs := by
  have happ := takeWhile_ne_append h []
  rwa [List.takeWhile_nil, List.append_nil] at happ

lemma takeWhile_ne_delimited (h : a ∉ bs) : (bs ++ a :: rest).takeWhile (· ≠ a) = bs := by
  rw [takeWhile_ne_append h, List.takeWhile_cons_of_neg (by simp), List.append_nil]

end Delimited

/-- The C string that starts at the first byte: the bytes before the first NUL. -/
def cstr (bs : List UInt8) : List UInt8 := bs.takeWhile (· ≠ 0)

lemma zero_notMem_cstr (bs : List UInt8) : 0 ∉ cstr bs := by
  intro h
  have := List.mem_takeWhile_imp h
  simp at this

/-- A string is the beginning of the array it is in. -/
lemma cstr_isPrefix (bs : List UInt8) : cstr bs <+: bs := List.takeWhile_prefix _

/-- Bytes without a NUL are a C string as they are. -/
lemma cstr_append {bs rest : List UInt8} (h : ∀ c ∈ bs, c ≠ 0) : cstr (bs ++ rest) = bs ++ cstr rest :=
  takeWhile_ne_append (fun hmem => h 0 hmem rfl) rest

lemma cstr_eq_self {bs : List UInt8} (h : ∀ c ∈ bs, c ≠ 0) : cstr bs = bs :=
  takeWhile_ne_self fun hmem => h 0 hmem rfl

/-- What follows a NUL is not seen. -/
lemma cstr_append_nul (bs rest : List UInt8) : cstr (bs ++ 0 :: rest) = cstr bs := by
  induction bs with
  | nil => rfl
  | cons b bs ih =>
    unfold cstr at ih ⊢
    rw [List.cons_append, List.takeWhile_cons, List.takeWhile_cons, ih]

/-- A string followed by its terminator is read back. -/
lemma cstr_append_zero {bs rest : List UInt8} (h : 0 ∉ bs) : cstr (bs ++ 0 :: rest) = bs :=
  takeWhile_ne_delimited h

/-- A string in a buffer ends at its first NUL. -/
lemma cstr_read {b : Buf} {k n : ℕ} (hk : k < n) (h : b k = 0) :
    cstr (read b 0 n) = cstr (read b 0 k) := by
  have hn : n = k + (1 + (n - (k + 1))) := by omega
  have hone : read b k 1 = [0] := by simp [read, h]
  rw [hn, read_add, Nat.zero_add, read_add, hone, List.singleton_append, cstr_append_nul]

/-- The zeros after a string end it. -/
lemma cstr_append_zeros (bs : List UInt8) (n : ℕ) : cstr (bs ++ List.replicate n 0) = cstr bs := by
  cases n with
  | zero => rw [List.replicate_zero, List.append_nil]
  | succ n => rw [List.replicate_succ, cstr_append_nul]

/-- A string received into a zeroed array is read back. -/
lemma cstr_pad {n : ℕ} {bs : List UInt8} (h : bs.length ≤ n) : cstr (pad n bs).toList = cstr bs := by
  rw [pad_toList h, cstr_append_zeros]

end Protocoale.Lib.Bytes

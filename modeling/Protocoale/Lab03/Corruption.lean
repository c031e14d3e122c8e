import Protocoale.Lab03.Window

/-!
What the link of the third laboratory does to a frame (`run_forwarding` of the emulator) and what the
receiver makes of it. A flipped bit of a sealed payload either goes through the exclusive or of the
checksum or is in the checksum itself; in both cases the receiver finds the two apart.
-/

namespace Protocoale.Lab03

open Lib Lib.Bytes Lib.CText

/-- The sender's lines before `send_message`, for any payload. -/
def Msg.seal (t : Msg) : Msg where
  len := MSGSIZE
  payload := Function.update t.payload (MSGSIZE - 1) (checksum t.payload)

/-- The corruption in `run_forwarding`; `r` and `r'` are what `rand` returns. -/
def Msg.flip (m : Msg) (r r' : ℕ) : Msg where
  len := m.len
  payload := Function.update m.payload (r % m.len).toNat
    (m.payload (r % m.len).toNat ^^^ UInt8.ofNat (1 <<< (r' % 8)))

/-- As long as a frame of the sender, with the checksum of the other bytes in the last one. -/
structure Msg.Sealed (m : Msg) : Prop where
  len : m.len = MSGSIZE
  eq : m.payload (MSGSIZE - 1) = checksum m.payload

/-- The string at the start of the payload. -/
def Msg.response (m : Msg) : List UInt8 := cstr (read m.payload 0 MSGSIZE)

section

variable {m : Msg} {b b' : Buf} {mask x y : UInt8} {s : List UInt8} {i k n : ℕ}

/-! ### The checksum -/

/-- The loop of `checksum` over `n` bytes from the third on. -/
def xorFrom (b : Buf) (n : ℕ) : UInt8 :=
  (List.range n).foldl (fun result i => result ^^^ b (i + 2)) (b 0 ^^^ b 1)

lemma checksum_eq (b : Buf) : checksum b = xorFrom b (MSGSIZE - 3) := rfl

lemma xorFrom_succ (b : Buf) (n : ℕ) : xorFrom b (n + 1) = xorFrom b n ^^^ b (n + 2) := by
  unfold xorFrom
  rw [List.range_succ, List.foldl_append]
  rfl

/-- The bytes after those it has read do not count. -/
lemma xorFrom_congr (h : ∀ i < n + 2, b i = b' i) : xorFrom b n = xorFrom b' n := by
  induction n with
  | zero =>
    unfold xorFrom
    rw [h 0 (by omega), h 1 (by omega)]
    rfl
  | succ n ih => rw [xorFrom_succ, xorFrom_succ, h (n + 2) (by omega), ih fun i hi => h i (by omega)]

lemma update_of_lt (h : i < k) : Function.update b k x i = b i :=
  Function.update_of_ne (Nat.ne_of_lt h) x b

/-- What is put into one of the bytes it has read goes through to the end. -/
lemma xorFrom_update (hk : k < n + 2) :
    xorFrom (Function.update b k (b k ^^^ mask)) n = xorFrom b n ^^^ mask := by
  induction n with
  | zero =>
    have h01 : k = 0 ∨ k = 1 := by omega
    rcases h01 with rfl | rfl
    · unfold xorFrom
      rw [Function.update_self, Function.update_of_ne (by decide), List.range_zero, List.foldl_nil,
        List.foldl_nil, UInt8.xor_assoc, UInt8.xor_comm mask, UInt8.xor_assoc]
    · unfold xorFrom
      rw [Function.update_self, Function.update_of_ne (by decide), List.range_zero, List.foldl_nil,
        List.foldl_nil, UInt8.xor_assoc]
  | succ n ih =>
    rw [xorFrom_succ, xorFrom_succ]
    by_cases hlast : k = n + 2
    · subst hlast
      rw [Function.update_self, xorFrom_congr fun i hi => update_of_lt hi, UInt8.xor_assoc]
    · rw [Function.update_of_ne (Ne.symm hlast), ih (by omega), UInt8.xor_assoc, UInt8.xor_comm mask,
        UInt8.xor_assoc]

lemma xor_ne_self (h : mask ≠ 0) : x ^^^ mask ≠ x := by
  intro heq
  refine h ?_
  calc mask = x ^^^ (x ^^^ mask) := by rw [← UInt8.xor_assoc, UInt8.xor_self, UInt8.zero_xor]
    _ = x ^^^ x := by rw [heq]
    _ = 0 := UInt8.xor_self

lemma bit_ne_zero (r : ℕ) : UInt8.ofNat (1 <<< (r % 8)) ≠ 0 := by
  have hr : r % 8 < 8 := Nat.mod_lt r (by norm_num)
  have hlt : 2 ^ (r % 8) < 2 ^ 8 := Nat.pow_lt_pow_right (by norm_num) hr
  have hpos : 0 < 2 ^ (r % 8) := Nat.two_pow_pos _
  rw [Nat.one_shiftLeft]
  intro h
  have hn := congrArg UInt8.toNat h
  rw [UInt8.toNat_ofNat', Nat.mod_eq_of_lt hlt, UInt8.toNat_zero] at hn
  omega

/-! ### Sealing and flipping -/

lemma seal_sealed (t : Msg) : t.seal.Sealed := by
  have hpayload : t.seal.payload = Function.update t.payload (MSGSIZE - 1) (checksum t.payload) := rfl
  refine ⟨rfl, ?_⟩
  rw [hpayload, Function.update_self, checksum_eq, checksum_eq]
  refine xorFrom_congr ?_
  intro i hi
  exact (update_of_lt hi).symm

/-- The sender seals the empty payload. -/
lemma frame_eq_seal : frame = Msg.seal ⟨0, fun _ => 0⟩ := by
  have hpayload : (fun i => if i = MSGSIZE - 1 then checksum fun _ => 0 else 0) =
      Function.update (fun _ => 0) (MSGSIZE - 1) (checksum fun _ => 0) := by
    funext i
    rw [Function.update_apply]
  exact congrArg (Msg.mk MSGSIZE) hpayload

/-- A flipped bit, wherever it is, leaves the last byte apart from the checksum. -/
lemma flip_ne (h : m.Sealed) (r r' : ℕ) :
    (m.flip r r').payload (MSGSIZE - 1) ≠ checksum (m.flip r r').payload := by
  obtain ⟨hlen, heq⟩ := h
  unfold Msg.flip
  simp only [hlen, checksum_eq]
  have hk : ((r : ℤ) % (MSGSIZE : ℕ)).toNat < MSGSIZE := by simp; omega
  generalize ((r : ℤ) % (MSGSIZE : ℕ)).toNat = k at hk
  rw [checksum_eq] at heq
  by_cases hlast : k = MSGSIZE - 1
  · -- the checksum itself is hit
    subst hlast
    have hrest : ∀ x, xorFrom (Function.update m.payload (MSGSIZE - 1) x) (MSGSIZE - 3) =
        xorFrom m.payload (MSGSIZE - 3) := fun x => xorFrom_congr fun i hi => update_of_lt hi
    rw [Function.update_self, hrest, ← heq]
    exact xor_ne_self (bit_ne_zero r')
  · rw [Function.update_of_ne (Ne.symm hlast), xorFrom_update (by simp at hk hlast ⊢; omega), heq]
    exact (xor_ne_self (bit_ne_zero r')).symm

/-! ### The answer -/

lemma respond_response (hs : 0 ∉ s) (hlen : s.length < MSGSIZE) : (m.respond s).response = s := by
  have hsplit : MSGSIZE = (s ++ [0]).length + (MSGSIZE - (s.length + 1)) := by simp at hlen ⊢; omega
  unfold Msg.response Msg.respond
  rw [hsplit, read_add, read_write_self, List.append_assoc]
  exact cstr_append_zero hs

/-- A sealed payload is answered `ACK`, and `NACK` whichever bit of it the link has flipped. -/
theorem Msg.Sealed.response_answer (h : m.Sealed) :
    m.answer.response = text "ACK" ∧ ∀ r r', (m.flip r r').answer.response = text "NACK" := by
  refine ⟨?_, ?_⟩
  · unfold Msg.answer
    rw [if_pos h.eq]
    exact respond_response (by decide) (by decide)
  · intro r r'
    unfold Msg.answer
    rw [if_neg (flip_ne h r r')]
    exact respond_response (by decide) (by decide)

theorem frame_response_answer :
    frame.answer.response = text "ACK" ∧ ∀ r r', (frame.flip r r').answer.response = text "NACK" :=
  Msg.Sealed.response_answer (frame_eq_seal ▸ seal_sealed _)

end

end Protocoale.Lab03

import Protocoale.Practic.Server

/-!
The commands of the chat client (`test_practic/client.cpp`) and what the server makes of them. The
number of a `MSG` line is a token of any length, but the text is taken at a fixed place of the line,
two bytes after the number starts. The number `-1` stands for `LIST` on the wire, and nothing keeps a
`MSG` line from having it.
-/

namespace Protocoale.Practic

open Lib Lib.Bytes Lib.CText

namespace Client

/-! ### The commands -/

/-- `strtok(s, " ")` on the string at the offset `off` of a memory: the token, and the memory with its
end overwritten. There is none when nothing but spaces is left. -/
def strtokAt (mem : List UInt8) (off : ℕ) : Option (List UInt8 × List UInt8) :=
  let blanks := (mem.drop off).takeWhile (· = 32)
  let nr := ((mem.drop off).drop blanks.length).takeWhile fun c => c ≠ 32 && c ≠ 0
  if nr = [] then none else some (nr, mem.set (off + blanks.length + nr.length) 0)

/-- What a line read from the standard input does. -/
inductive Typed where
  | exit
  | send (toSend : Message)
  | nothing
  deriving DecidableEq

/-- `handle_stdin_message`, not defined where the line is read past its end, where `atoi` gets a null
pointer, and where `strcpy` writes past `msg`. -/
def handleStdinMessage (buffer : List UInt8) : Option Typed :=
  if buffer = text "exit" then some .exit
  else if (text "MSG").isPrefixOf buffer then
    if buffer.length < 6 then none
    else do
      let (nr, mem) ← strtokAt (buffer ++ [0]) 4
      let msg := cstr (mem.drop 6)
      if msg.length < MAX_LEN then
        some (.send { nrDest := Int32.ofInt (atoi nr), msg := pad MAX_LEN msg })
      else none
  else if (text "LIST").isPrefixOf buffer then
    some (.send { nrDest := -1, msg := pad MAX_LEN (text "LIST") })
  else some .nothing

/-- The line `MSG n x`. -/
def msgLine (n : ℕ) (x : List UInt8) : List UInt8 :=
  text "MSG " ++ (text (toString (n : ℤ)) ++ 32 :: x)

/-- The line makes the client send the number and the text. -/
def Sends (line : List UInt8) (n : ℕ) (x : List UInt8) : Prop :=
  ∃ m, handleStdinMessage line = some (.send m) ∧ m.nrDest.toInt = n ∧ m.msg = pad MAX_LEN x

/-- The number of a `MSG` line, as the client reads it. -/
def number (line : List UInt8) : Option ℤ := (strtokAt (line ++ [0]) 4).map fun r => atoi r.1

/-- The server answers the message with the list of clients. -/
def TreatedAsList (m : Message) : Prop :=
  ∀ (s : Server) (i : ℕ) (order : Server.Order), s.handleTcpMessage i m.enc order =
    (Server.listReply order).map fun buffer => (s, [.send i (pad BUFLEN buffer).toList])

variable {n : ℕ} {x digits rest line : List UInt8} {m : Message}

/-! ### The number -/

lemma digit_ne {c : UInt8} (h : isDigit c = true) : c ≠ 32 ∧ c ≠ 0 := by
  constructor <;> rintro rfl <;> cases h

/-- The token of a line is the number when a space follows it. -/
lemma strtokAt_digits (hne : digits ≠ []) (hdigits : ∀ c ∈ digits, isDigit c) :
    strtokAt (text "MSG " ++ (digits ++ 32 :: rest)) 4 =
      some (digits, text "MSG " ++ (digits ++ 0 :: rest)) := by
  have hdrop : (text "MSG " ++ (digits ++ 32 :: rest)).drop 4 = digits ++ 32 :: rest := rfl
  have hblanks : (digits ++ 32 :: rest).takeWhile (· = 32) = [] := by
    obtain ⟨d, ds, rfl⟩ := List.exists_cons_of_ne_nil hne
    exact List.takeWhile_cons_of_neg (by simp [(digit_ne (hdigits d List.mem_cons_self)).1])
  have htoken : (digits ++ 32 :: rest).takeWhile (fun c => c ≠ 32 && c ≠ 0) = digits := by
    rw [List.takeWhile_append_of_pos, List.takeWhile_cons_of_neg (by simp), List.append_nil]
    intro c hc
    simp [digit_ne (hdigits c hc)]
  have hset : (text "MSG " ++ (digits ++ 32 :: rest)).set (4 + digits.length) 0 =
      text "MSG " ++ (digits ++ 0 :: rest) := by
    have hlen : (text "MSG ").length = 4 := rfl
    rw [← hlen, List.set_append_right _ _ (by omega), Nat.add_sub_cancel_left,
      List.set_append_right _ _ le_rfl, Nat.sub_self, List.set_cons_zero]
  unfold strtokAt
  rw [hdrop, hblanks]
  simp only [List.length_nil, List.drop_zero, htoken, if_neg hne, Nat.add_zero, hset]

/-- What is copied from the line `MSG n x`. -/
lemma copied_eq (hx : 0 ∉ x) (hne : digits ≠ []) (hdigits : ∀ c ∈ digits, isDigit c) :
    cstr ((text "MSG " ++ (digits ++ 0 :: (x ++ [0]))).drop 6) =
      if digits.length = 1 then x else digits.drop 2 := by
  have hdrop : (text "MSG " ++ (digits ++ 0 :: (x ++ [0]))).drop 6 =
      (digits ++ 0 :: (x ++ [0])).drop 2 := rfl
  rw [hdrop]
  match digits, hne with
  | [d], _ => exact cstr_append_zero hx
  | d :: e :: ds, _ =>
    rw [if_neg (by simp)]
    refine cstr_append_zero fun hmem => ?_
    exact (digit_ne (hdigits 0 (by simp [hmem]))).2 rfl

/-- The text the client takes from the line `MSG n x`. -/
def copied (n : ℕ) (x : List UInt8) : List UInt8 :=
  if (text (toString (n : ℤ))).length = 1 then x else (text (toString (n : ℤ))).drop 2

lemma handleStdinMessage_msgLine (hx : 0 ∉ x) : handleStdinMessage (msgLine n x) =
    if (copied n x).length < MAX_LEN then
      some (.send { nrDest := Int32.ofInt (atoi (text (toString (n : ℤ)))), msg := pad MAX_LEN (copied n x) })
    else none := by
  have hdigits : ∀ c ∈ text (toString (n : ℤ)), isDigit c := fun c hc => isDigit_of_mem_text hc
  have hne : text (toString (n : ℤ)) ≠ [] := text_natCast_ne_nil
  have hpos := List.length_pos_of_ne_nil hne
  have hexit : msgLine n x ≠ text "exit" := by
    intro h
    cases (List.cons.inj h).1
  have hmsg : (text "MSG").isPrefixOf (msgLine n x) = true := rfl
  have hlen : ¬ (msgLine n x).length < 6 := by
    have htext : (text "MSG ").length = 4 := rfl
    rw [msgLine, List.length_append, List.length_append, List.length_cons]
    omega
  have hline : msgLine n x ++ [0] =
      text "MSG " ++ (text (toString (n : ℤ)) ++ 32 :: (x ++ [0])) := by
    simp [msgLine]
  unfold handleStdinMessage
  rw [if_neg hexit, if_pos hmsg, if_neg hlen, hline, strtokAt_digits hne hdigits]
  simp only [Option.bind_eq_bind, Option.bind_some, copied_eq hx hne hdigits]
  rfl

lemma zero_notMem_copied (hx : 0 ∉ x) : 0 ∉ copied n x := by
  unfold copied
  split
  · exact hx
  · intro hmem
    exact (digit_ne (isDigit_of_mem_text (List.mem_of_mem_drop hmem))).2 rfl

/-- Texts that fit are told apart in their arrays. -/
lemma eq_of_pad_eq {y : List UInt8} (hx : x.length ≤ MAX_LEN) (hy : y.length ≤ MAX_LEN) (hx0 : 0 ∉ x)
    (hy0 : 0 ∉ y) (h : pad MAX_LEN x = pad MAX_LEN y) : x = y := by
  have hcstr := congrArg (fun v => cstr (Vector.toList v)) h
  simp only [cstr_pad hx, cstr_pad hy] at hcstr
  rwa [cstr_eq_self fun c hc h0 => hx0 (h0 ▸ hc), cstr_eq_self fun c hc h0 => hy0 (h0 ▸ hc)] at hcstr

/-- The text is taken as it is when the number has one digit, and by accident when it repeats the
number from its third digit on. -/
lemma copied_eq_self_iff : copied n x = x ↔ n < 10 ∨ x = (text (toString (n : ℤ))).drop 2 := by
  have hone : (text (toString (n : ℤ))).length = 1 ↔ n < 10 := by
    have hpos := List.length_pos_of_ne_nil (text_natCast_ne_nil (n := n))
    have hle := length_text_natCast_le_iff (n := n) (k := 1) (by omega)
    omega
  unfold copied
  by_cases h : (text (toString (n : ℤ))).length = 1
  · rw [if_pos h]
    exact iff_of_true rfl (Or.inl (hone.mp h))
  · rw [if_neg h, eq_comm, or_iff_right fun hn => h (hone.mpr hn)]

/-- The line is encoded as it reads exactly when the text is, and the number fits in an `int`. -/
lemma sends_iff_copied (hlen : x.length < MAX_LEN) (hx : 0 ∉ x) :
    Sends (msgLine n x) n x ↔ copied n x = x ∧ n < 2 ^ 31 := by
  unfold Sends
  rw [handleStdinMessage_msgLine hx]
  constructor
  · rintro ⟨m, hm, hnr, hmsg⟩
    have hlt := m.nrDest.toInt_lt
    by_cases hfits : (copied n x).length < MAX_LEN
    · rw [if_pos hfits] at hm
      cases hm
      exact ⟨eq_of_pad_eq hfits.le hlen.le (zero_notMem_copied hx) hx hmsg, by omega⟩
    · rw [if_neg hfits] at hm
      cases hm
  · rintro ⟨hc, hn⟩
    rw [hc, if_pos hlen]
    refine ⟨_, rfl, ?_, rfl⟩
    rw [atoi_text hn]
    exact Int32.toInt_ofInt_of_le (by omega) (by omega)

/-- **The line is encoded as it reads exactly when the number has one digit**, or when the text is
what comes after the second digit. -/
theorem sends_msgLine_iff (hlen : x.length < MAX_LEN) (hx : 0 ∉ x) :
    Sends (msgLine n x) n x ↔
      n < 10 ∨ n < 2 ^ 31 ∧ x = (text (toString (n : ℤ))).drop 2 := by
  rw [sends_iff_copied hlen hx, copied_eq_self_iff]
  constructor
  · rintro ⟨hn | he, hlt⟩
    · exact Or.inl hn
    · exact Or.inr ⟨hlt, he⟩
  · rintro (hn | ⟨hlt, he⟩)
    · exact ⟨Or.inl hn, by omega⟩
    · exact ⟨Or.inr he, hlt⟩

/-! ### The marker of `LIST` -/

lemma treatedAsList_iff : TreatedAsList m ↔ m.nrDest = -1 := by
  have hroute (s : Server) (i : ℕ) (order : Server.Order) :
      s.handleTcpMessage i m.enc order = s.route i m order := by
    rw [Server.handleTcpMessage, if_neg (Server.enc_ne_nil m), Server.received_enc,
      Option.bind_some]
  unfold TreatedAsList
  simp only [hroute]
  constructor
  · intro h
    by_contra hnr
    -- a server without clients does not know the number
    have hinit := h (Server.init 3) 4 []
    rw [Server.route, if_neg hnr] at hinit
    cases hinit
  · intro hnr s i order
    rw [Server.route, if_pos hnr]

/-- The number of a message that a `MSG` line sends. -/
lemma nrDest_eq (hmsg : text "MSG" <+: line) (h : handleStdinMessage line = some (.send m)) :
    ∃ k, number line = some k ∧ (m.nrDest = -1 ↔ k = -1) := by
  unfold handleStdinMessage at h
  rw [if_pos (List.isPrefixOf_iff_prefix.mpr hmsg)] at h
  split at h
  · cases h
  · split at h
    · cases h
    · obtain ⟨⟨nr, mem⟩, htoken, hsend⟩ := Option.bind_eq_some_iff.mp h
      dsimp only at hsend
      split at hsend
      · cases hsend
        refine ⟨atoi nr, by rw [number, htoken, Option.map_some], ?_⟩
        have hone : (-1 : Int32).toInt = -1 := rfl
        rw [← Int32.toInt_inj, Int32.toInt_ofInt, hone, atoi, toInt]
        exact iff_of_eq (congrArg (· = -1) Int.bmod_bmod)
      · cases hsend

/-- **What a `MSG` line means to the server.** The line `MSG n x` is encoded as it reads exactly when
the number has one digit, or fits in an `int` and the text is what comes after its second digit. A
message of a `MSG` line is taken for a `LIST` exactly when its number is read as `-1`. -/
theorem encodes_iff (line : List UInt8) :
    (∀ n x, line = msgLine n x → 0 < n → 1 ≤ x.length → x.length ≤ 50 → 0 ∉ x →
      (Sends line n x ↔ n < 10 ∨ n < 2 ^ 31 ∧ x = (text (toString (n : ℤ))).drop 2)) ∧
    ∀ m, text "MSG" <+: line → handleStdinMessage line = some (.send m) →
      (¬ TreatedAsList m ↔ number line ≠ some (-1)) := by
  constructor
  · rintro n x rfl - - hlen hx
    exact sends_msgLine_iff (Nat.lt_succ_of_le hlen) hx
  · intro m hmsg h
    obtain ⟨k, hk, hnr⟩ := nrDest_eq hmsg h
    rw [treatedAsList_iff, hnr, hk, ne_eq, Option.some_inj]

theorem encodes_iff_five : Sends (msgLine 5 (text "hi")) 5 (text "hi") :=
  ((encodes_iff (msgLine 5 (text "hi"))).1 5 (text "hi") rfl (by decide) (by decide) (by decide)
    (by decide)).mpr (Or.inl (by decide))

/-- With a number of two digits the text is empty, and a negative number asks for the list. -/
theorem not_encodes : ¬ Sends (msgLine 12 (text "hello")) 12 (text "hello") ∧
    ∃ m, handleStdinMessage (text "MSG -1 hi") = some (.send m) ∧ TreatedAsList m := by
  constructor
  · rintro ⟨m, hm, -, hmsg⟩
    have hempty : handleStdinMessage (msgLine 12 (text "hello")) =
        some (.send { nrDest := 12, msg := pad MAX_LEN [] }) := by decide +kernel
    rw [hempty] at hm
    cases hm
    exact absurd hmsg (by decide)
  · exact ⟨_, rfl, treatedAsList_iff.mpr (by decide +kernel)⟩

end Client

end Protocoale.Practic

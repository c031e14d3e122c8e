import Protocoale.Practic.Server

/-!
What the chat server makes of the bytes of one connection. The first receive is taken for the
nickname and every other one for a message (`exec_receives`). They are what the client sent when the
first receive ends where the nickname does and every other one is a message, and in no other case
(`framed_iff`), but for messages of zeros only right after the nickname: the pieces these arrive in
all look like messages of zeros.
-/

namespace Protocoale.Practic

open Lib Lib.Bytes Lib.CText Lib.Cuts

namespace Server

variable {s : Server} {nickname : List UInt8} {messages : List Message} {first : List UInt8}
  {rest : List (List UInt8)} {fd : ℕ} {orders : List Order}

/-- What a client sends: its nickname, without a terminator, and the messages. -/
def sent (nickname : List UInt8) (messages : List Message) : List UInt8 :=
  nickname ++ messageCodec.stream messages

/-- The results of the receives on a connection, until all of what the client sent was received. -/
structure Receives (nickname : List UInt8) (messages : List Message) (first : List UInt8)
    (rest : List (List UInt8)) : Prop where
  flatten : first ++ rest.flatten = sent nickname messages
  first_ne_nil : first ≠ []
  first_le : first.length ≤ MAX_LEN
  ne_nil : ∀ c ∈ rest, c ≠ []
  le_max : ∀ c ∈ rest, c.length ≤ BUFLEN

/-- The nickname and the messages the server takes the receives for. -/
def taken (first : List UInt8) (rest : List (List UInt8)) : Option (Nickname × List Message) :=
  (newClientNickname first).bind fun nickname =>
    (rest.mapM received).map fun messages => (nickname, messages)

/-- The server registers a client and then routes its messages. -/
def serve (s : Server) (fd : ℕ) (nickname : Nickname) (messages : List (Message × Order)) :
    Option (Server × List Output) :=
  (s.acceptClient fd nickname).bind fun r =>
    (Run.exec (fun s m => s.route fd m.1 m.2) r.1 messages).map fun q => (q.1, r.2 ++ q.2)

/-- The receives are taken for what was sent, and none of them is larger than the structure. -/
def Framed (nickname : List UInt8) (messages : List Message) (first : List UInt8)
    (rest : List (List UInt8)) : Prop :=
  (∃ n : Nickname, n.1 = nickname ∧ taken first rest = some (n, messages)) ∧
    ∀ c ∈ rest, c.length ≤ messageCodec.size

lemma exec_tcp (hne : ∀ c ∈ rest, c ≠ []) (hlen : orders.length = rest.length) :
    Run.exec step s (List.zipWith (.tcp fd) rest orders) = (rest.mapM received).bind fun messages =>
      Run.exec (fun s m => s.route fd m.1 m.2) s (messages.zip orders) := by
  induction rest generalizing s orders with
  | nil => rfl
  | cons c rest ih =>
    obtain ⟨order, orders, rfl⟩ := List.exists_of_length_succ orders hlen
    have hstep : step s (.tcp fd c order) =
        (received c).bind fun message => s.route fd message order := by
      simp [step, handleTcpMessage, hne c]
    have hrest : ∀ d ∈ rest, d ≠ [] := by
      intro d hd
      exact hne d (List.mem_cons_of_mem c hd)
    have hlen' : orders.length = rest.length := by simpa using hlen
    rw [List.zipWith_cons_cons, Run.exec, hstep, List.mapM_cons]
    cases received c with
    | none => rfl
    | some message =>
      cases hm : rest.mapM received with
      | none => simp [ih hrest hlen', hm]
      | some messages => simp [ih hrest hlen', hm, Run.exec]

/-- The server serves the nickname and the messages it takes the receives for, whatever its
state. -/
lemma exec_receives (h : Receives nickname messages first rest) (hlen : orders.length = rest.length) :
    Run.exec step s (.connection fd first :: List.zipWith (.tcp fd) rest orders) =
      (taken first rest).bind fun t => s.serve fd t.1 (t.2.zip orders) := by
  simp only [Run.exec, step, handleConnectionRequest, taken, serve]
  cases newClientNickname first with
  | none => rfl
  | some n =>
    simp only [Option.bind_some, exec_tcp h.ne_nil hlen]
    cases rest.mapM received with
    | none => simp
    | some messages => simp

/-! ### Messages in pieces -/

/-- The message with the number 0 and no text: zeros only. -/
def blank : Message := ⟨0, pad _ []⟩

/-- Behind some messages of zeros, that may come in any pieces, every receive is one message. -/
def AfterBlanks (messages : List Message) (rest : List (List UInt8)) : Prop :=
  ∃ k, (∀ m ∈ messages.take k, m = blank) ∧ (∀ c ∈ rest.take k, ∀ x ∈ c, x = 0) ∧
    rest.drop k = (messages.drop k).map Message.enc

lemma enc_length (m : Message) : (Message.enc m).length = 56 := messageCodec.enc_length m

/-- A piece is a message as far as it goes, and zeros after that. -/
lemma enc_dec_getD (c : List UInt8) {i : ℕ} (h : i < 55) :
    (Message.enc (Message.dec c)).getD i 0 = c.getD i 0 := by
  have henc : Message.enc (Message.dec c) = [c.getD 0 0, c.getD 1 0, c.getD 2 0, c.getD 3 0] ++
      ((pad MAX_LEN (c.drop 4)).toList ++ [0]) := by
    rw [← bytes32_le32]
    rfl
  rw [henc]
  rcases Nat.lt_or_ge i 4 with hi | hi
  · rw [List.getD_append _ _ _ _ (by simpa using hi)]
    interval_cases i <;> rfl
  · obtain ⟨j, rfl⟩ := Nat.exists_eq_add_of_le hi
    have hj : j < (pad MAX_LEN (c.drop 4)).toList.length := by simpa using by omega
    rw [List.getD_append_right _ _ _ _ hi]
    show ((pad MAX_LEN (c.drop 4)).toList ++ [0]).getD (4 + j - 4) 0 = _
    rw [Nat.add_sub_cancel_left, List.getD_append _ _ _ _ hj, List.getD_eq_getElem _ _ hj,
      Vector.getElem_toList, pad_getElem]
    simp [List.getD_eq_getElem?_getD]

lemma getD_of_zeros {c : List UInt8} (h : ∀ x ∈ c, x = 0) (i : ℕ) : c.getD i 0 = 0 := by
  rcases Nat.lt_or_ge i c.length with hi | hi
  · rw [List.getD_eq_getElem _ _ hi]
    exact h _ (List.getElem_mem hi)
  · exact List.getD_eq_default _ _ hi

/-- Zeros are taken for a message of zeros, however many they are. -/
lemma dec_of_zeros {c : List UInt8} (h : ∀ x ∈ c, x = 0) : Message.dec c = blank := by
  have hmsg : pad MAX_LEN (c.drop 4) = pad MAX_LEN [] := by
    apply Vector.ext
    intro i hi
    rw [pad_getElem, pad_getElem, getD_of_zeros fun x hx => h x (List.mem_of_mem_drop hx)]
    rfl
  unfold Message.dec
  simp only [getD_of_zeros h, hmsg]
  rfl

/-- What is zero from some place on, and before it the same as some places further on, is zero. -/
lemma eq_zero_of_shift {f : ℕ → UInt8} {p n : ℕ} (hp : 0 < p) (hshift : ∀ i < n, f i = f (i + p))
    (hbehind : ∀ i, n ≤ i → f i = 0) (i : ℕ) : f i = 0 := by
  rcases Nat.lt_or_ge i n with hlt | hge
  · rw [hshift i hlt]
    exact eq_zero_of_shift hp hshift hbehind (i + p)
  · exact hbehind i hge
termination_by n - i

/-- A message that some bytes and the piece after them add up to, and that the piece is taken for, when
what the piece has of the next message is zeros: all of it is zeros, since every byte is the one as
many places further on as there are bytes before the piece. -/
lemma zeros_of_shift {zs c : List UInt8} (hzs : zs ≠ [])
    (hm : Message.enc (Message.dec c) = (zs ++ c).take 56)
    (htail : ∀ x ∈ (zs ++ c).drop 56, x = 0) : ∀ x ∈ zs ++ c, x = 0 := by
  have hshift : ∀ i < 55, (zs ++ c).getD i 0 = (zs ++ c).getD (i + zs.length) 0 := by
    intro i hi
    calc (zs ++ c).getD i 0
        = ((zs ++ c).take 56).getD i 0 := by
          simp [List.getD_eq_getElem?_getD, show i < 56 by omega]
      _ = c.getD i 0 := by rw [← hm, enc_dec_getD c hi]
      _ = (zs ++ c).getD (i + zs.length) 0 := by
          rw [List.getD_append_right _ _ _ _ (by omega), Nat.add_sub_cancel]
  have hlast : (zs ++ c).getD 55 0 = 0 := by
    calc (zs ++ c).getD 55 0
        = ((zs ++ c).take 56).getD 55 0 := by
          simp [List.getD_eq_getElem?_getD]
      _ = 0 := by
          rw [← hm, Message.enc, List.getD_append_right _ _ _ _ (by simp [bytes32]),
            List.getD_append_right _ _ _ _ (by simp [bytes32])]
          simp [bytes32]
  have hbehind : ∀ i, 55 ≤ i → (zs ++ c).getD i 0 = 0 := by
    intro i hi
    rcases Nat.eq_or_lt_of_le hi with rfl | hi
    · exact hlast
    · have := getD_of_zeros htail (i - 56)
      rwa [List.getD_eq_getElem?_getD, List.getElem?_drop, Nat.add_sub_cancel' hi,
        ← List.getD_eq_getElem?_getD] at this
  intro x hx
  obtain ⟨i, hi, rfl⟩ := List.getElem_of_mem hx
  rw [← List.getD_eq_getElem _ 0 hi]
  exact eq_zero_of_shift (List.length_pos_of_ne_nil hzs) hshift hbehind i

/-- The first message ends in the piece that is taken for it, when some bytes came before the piece. -/
lemma take_of_dec {zs c : List UInt8} (hlen : ∀ d ∈ rest, d.length ≤ 56)
    (hflat : zs ++ (c :: rest).flatten = messageCodec.stream ((c :: rest).map Message.dec)) :
    Message.enc (Message.dec c) = (zs ++ c).take 56 ∧
      (zs ++ c).drop 56 ++ rest.flatten = messageCodec.stream (rest.map Message.dec) := by
  have hsplit : (zs ++ c) ++ rest.flatten =
      Message.enc (Message.dec c) ++ messageCodec.stream (rest.map Message.dec) := by
    rw [List.append_assoc]
    exact hflat
  -- the other pieces hold at most what the other messages need
  have hge : 56 ≤ (zs ++ c).length := by
    have hl := congrArg List.length hsplit
    have hle := Codec.length_flatten_le hlen
    simp only [List.length_append, enc_length, messageCodec.stream_length, List.length_map,
      show messageCodec.size = 56 from rfl] at hl ⊢
    omega
  constructor
  · have := congrArg (List.take 56) hsplit
    rw [List.take_append_of_le_length hge, List.take_left' (enc_length _)] at this
    exact this.symm
  · have := congrArg (List.drop 56) hsplit
    rwa [List.drop_append_of_le_length hge, List.drop_left' (enc_length _)] at this

/-- Receives that are taken for the messages sent, when some bytes of these were received before. -/
lemma afterBlanks_of_dec {zs : List UInt8} (hlen : ∀ c ∈ rest, c.length ≤ 56)
    (hflat : zs ++ rest.flatten = messageCodec.stream messages)
    (hdec : rest.map Message.dec = messages) :
    (∀ x ∈ zs, x = 0) ∧ AfterBlanks messages rest := by
  induction rest generalizing zs messages with
  | nil =>
    subst hdec
    have hnil : zs = [] := by simpa [Codec.stream] using hflat
    subst hnil
    exact ⟨by simp, 0, by simp⟩
  | cons c rest ih =>
    subst hdec
    by_cases hzs : zs = []
    · subst hzs
      refine ⟨by simp, 0, by simp, by simp, ?_⟩
      have hfull : ∀ d ∈ c :: rest, d.length = 56 := by
        refine Codec.full_of_sum hlen ?_
        rw [← List.nil_append (c :: rest).flatten, hflat, messageCodec.stream_length,
          List.length_map]
        exact le_rfl
      exact messageCodec.eq_map_enc_of_full hfull (by simp) (by simpa using hflat)
    · have hrest : ∀ d ∈ rest, d.length ≤ 56 := by
        intro d hd
        exact hlen d (List.mem_cons_of_mem c hd)
      obtain ⟨htake, hdrop⟩ := take_of_dec hrest hflat
      obtain ⟨hzeros, k, hm, hc, hk⟩ := ih hrest hdrop rfl
      have hall := zeros_of_shift hzs htake hzeros
      have hcz : ∀ x ∈ c, x = 0 := fun x hx => hall x (List.mem_append_right zs hx)
      refine ⟨fun x hx => hall x (List.mem_append_left c hx), k + 1, ?_, ?_, ?_⟩
      · simpa using ⟨dec_of_zeros hcz, hm⟩
      · simpa using ⟨hcz, hc⟩
      · simpa using hk

/-- Conversely, pieces of zeros are taken for as many messages of zeros. -/
lemma dec_of_afterBlanks (hlen : rest.length = messages.length) (h : AfterBlanks messages rest) :
    rest.map Message.dec = messages := by
  obtain ⟨k, hm, hc, hk⟩ := h
  have hzeros : (rest.take k).map Message.dec = List.replicate (rest.take k).length blank := by
    refine List.eq_replicate_iff.mpr ⟨List.length_map _, ?_⟩
    intro m hmem
    obtain ⟨c, hc', rfl⟩ := List.mem_map.mp hmem
    exact dec_of_zeros (hc c hc')
  have hcount : (rest.take k).length = (messages.take k).length := by simp [hlen]
  calc rest.map Message.dec
      = (rest.take k).map Message.dec ++ (rest.drop k).map Message.dec := by
        rw [← List.map_append, List.take_append_drop]
    _ = messages.take k ++ messages.drop k := by
        rw [hzeros, hcount, ← List.eq_replicate_of_mem hm, hk]
        exact congrArg _ (messageCodec.map_dec_enc _)
    _ = messages := List.take_append_drop k messages

/-! ### When the receives are taken for what was sent -/

lemma mapM_received : rest.mapM received = some messages ↔
    (∀ c ∈ rest, c.length ≤ messageCodec.size) ∧ rest.map Message.dec = messages := by
  have hreceived : ∀ c, c.length ≤ messageCodec.size → received c = some (Message.dec c) := fun c hc => if_pos hc
  constructor
  · intro h
    have hall : ∀ c ∈ rest, c.length ≤ messageCodec.size := by
      intro c hc
      obtain ⟨m, -, hm⟩ := Run.mem_of_mapM h c hc
      by_contra hlt
      rw [received, if_neg hlt] at hm
      cases hm
    rw [Run.mapM_eq_some_map fun c hc => hreceived c (hall c hc), Option.some.injEq] at h
    exact ⟨hall, h⟩
  · rintro ⟨hall, rfl⟩
    exact Run.mapM_eq_some_map fun c hc => hreceived c (hall c hc)

lemma newClientNickname_eq_some (hle : first.length ≤ MAX_LEN) {n : Nickname} :
    newClientNickname first = some n ↔ cstr first = n.1 := by
  unfold newClientNickname
  simp only [cstr_pad hle]
  by_cases hlt : (cstr first).length < MAX_LEN
  · rw [dif_pos hlt]
    exact ⟨fun h => congrArg Subtype.val (Option.some.inj h), fun h => congrArg some (Subtype.ext h)⟩
  · rw [dif_neg hlt]
    refine iff_of_false (by simp) ?_
    intro h
    exact hlt (h ▸ n.2.1)

/-- The bytes of the first receive begin with the string in it. -/
lemma exists_append_of_cstr (h : cstr first = nickname) : ∃ zs, first = nickname ++ zs := by
  refine ⟨first.drop nickname.length, ?_⟩
  rw [← h]
  exact (List.prefix_iff_eq_append.mp (cstr_isPrefix first)).symm

/-- **The server registers the nickname of the client and routes its messages, each once and in order,
and no receive is larger than the structure, exactly when** the nickname fits its array, the first
receive returns the nickname and every other one a message; messages of zeros right after the nickname
may come in any pieces, some of them with the nickname, as long as these are as many. -/
theorem framed_iff (h0 : 0 ∉ nickname) (h : Receives nickname messages first rest) :
    (∀ s fd orders, orders.length = rest.length →
      Run.exec step s (.connection fd first :: List.zipWith (.tcp fd) rest orders) =
        (taken first rest).bind fun t => s.serve fd t.1 (t.2.zip orders)) ∧
    (Framed nickname messages first rest ↔ nickname.length < MAX_LEN ∧
      (∀ c ∈ rest, c.length ≤ messageCodec.size) ∧ rest.length = messages.length ∧
      (∃ k, first = nickname ++ List.replicate k 0) ∧ AfterBlanks messages rest) := by
  refine ⟨fun s fd orders hlen => exec_receives h hlen, ?_⟩
  constructor
  · rintro ⟨⟨n, rfl, htaken⟩, hsize⟩
    obtain ⟨n', hn', hms⟩ := Option.bind_eq_some_iff.mp htaken
    obtain ⟨ms, hm, he⟩ := Option.map_eq_some_iff.mp hms
    cases he
    obtain ⟨-, hdec⟩ := mapM_received.mp hm
    obtain ⟨zs, rfl⟩ := exists_append_of_cstr ((newClientNickname_eq_some h.first_le).mp hn')
    have hflat : zs ++ rest.flatten = messageCodec.stream messages := by
      have := h.flatten
      rw [List.append_assoc] at this
      exact List.append_cancel_left this
    obtain ⟨hzeros, hblanks⟩ := afterBlanks_of_dec hsize hflat hdec
    refine ⟨n.2.1, hsize, by rw [← hdec, List.length_map], ⟨zs.length, ?_⟩, hblanks⟩
    rw [← List.eq_replicate_of_mem hzeros]
  · rintro ⟨hnick, hsize, hlen, ⟨z, hfirst⟩, hblanks⟩
    refine ⟨⟨⟨nickname, hnick, h0⟩, rfl, ?_⟩, hsize⟩
    have hn : newClientNickname first = some ⟨nickname, hnick, h0⟩ := by
      rw [newClientNickname_eq_some h.first_le, hfirst, cstr_append_zeros]
      exact cstr_eq_self fun x hx hz => h0 (hz ▸ hx)
    have hdec := dec_of_afterBlanks hlen hblanks
    rw [taken, hn, Option.bind_some, mapM_received.mpr ⟨hsize, hdec⟩, Option.map_some]

/-- `LIST`, as the client sends it. -/
def listMessage : Message := ⟨-1, pad _ (text "LIST")⟩

/-- The nickname and one `LIST` in two receives. -/
theorem framed_list : Framed [97] [listMessage] [97] [Message.enc listMessage] := by
  refine ((framed_iff (by decide) ?_).2).mpr ⟨by decide, ?_, rfl, ⟨0, rfl⟩, 0, ?_⟩
  · exact ⟨rfl, by decide, by decide, by decide +kernel, by decide +kernel⟩
  · decide +kernel
  · simp

/-- When the message comes together with the nickname, its number becomes a part of the nickname. -/
theorem not_framed : ¬ ∀ nickname messages first rest, 0 ∉ nickname →
    Receives nickname messages first rest → Framed nickname messages first rest := by
  intro h
  have hcut : Receives [97] [listMessage] ((sent [97] [listMessage]).take 51)
      [(sent [97] [listMessage]).drop 51] :=
    ⟨by rw [List.flatten_singleton, List.take_append_drop], by decide +kernel, by decide +kernel,
      by decide +kernel, by decide +kernel⟩
  obtain ⟨⟨n, hn, htaken⟩, -⟩ := h _ _ _ _ (by decide) hcut
  obtain ⟨n', hn', hms⟩ := Option.bind_eq_some_iff.mp htaken
  obtain ⟨_, -, he⟩ := Option.map_eq_some_iff.mp hms
  cases he
  have hstr := (newClientNickname_eq_some hcut.first_le).mp hn'
  rw [hn] at hstr
  revert hstr
  decide +kernel

end Server

end Protocoale.Practic

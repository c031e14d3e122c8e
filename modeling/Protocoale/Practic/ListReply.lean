import Protocoale.Practic.Invariant

/-!
The reply to `LIST` of the chat server: a line for each active client, written one after the other
into a buffer of a fixed size. Nothing limits the number of clients, and a nickname may have a line
end inside; the reply lists the active clients exactly when their lines fit and none of them does
(`lists_iff`).
-/

namespace Protocoale.Practic

open Lib Lib.Bytes Lib.CText

namespace Server

variable {s : Server} {order : Order} {client : TcpClient} {i : ℕ} {data : List UInt8} {m : Message}

/-- The line of a client. -/
def line (client : TcpClient) : List UInt8 :=
  text (toString client.number) ++ (text " - " ++ client.nickname.1)

/-- A `LIST` is answered, and the text of the answer is the lines of the active clients, in the order
the loop goes in, and nothing else. -/
def Lists (s : Server) : Prop :=
  ∀ (i : ℕ) (data : List UInt8) (m : Message) (order : Order), data ≠ [] →
    received data = some m → m.nrDest = -1 → order.Perm s.activeClients.toList →
    ∃ reply, s.handleTcpMessage i data order = some (s, [.send i reply]) ∧ reply.length = BUFLEN ∧
      (cstr reply).splitOn 10 = (order.map fun e => line e.2) ++ [[]]

/-- The bytes of the lines: a number, a nickname and four more each. -/
def needed (order : Order) : ℕ :=
  (order.map fun e => (text (toString e.2.number)).length + e.2.nickname.1.length + 4).sum

/-- There is room for the lines of the active clients and the terminator, and no nickname has a line
end inside. -/
def ListFits (s : Server) : Prop :=
  needed s.activeClients.toList < BUFLEN ∧ ∀ e ∈ s.activeClients.toList, 10 ∉ e.2.nickname.1

instance : DecidablePred ListFits := fun _ => inferInstanceAs (Decidable (_ ∧ _))

/-! ### The lines -/

/-- The lines as the loop writes them. -/
def written (order : Order) : List UInt8 := (order.map fun e => line e.2).flatMap (· ++ [10])

lemma length_written : (written order).length = needed order := by
  have hdash : (text " - ").length = 3 := rfl
  rw [written, needed, List.length_flatMap, List.map_map]
  refine congrArg List.sum (List.map_congr_left fun e _ => ?_)
  simp only [Function.comp_apply, line, List.length_append, List.length_singleton, hdash]
  omega

/-- What is no digit is in no number that is not negative. -/
lemma notMem_number {c : UInt8} (hpos : 0 < client.number) (hc : isDigit c = false) :
    c ∉ text (toString client.number) := by
  obtain ⟨n, hn⟩ := Int.eq_ofNat_of_zero_le hpos.le
  rw [hn]
  intro hmem
  rw [isDigit_of_mem_text hmem] at hc
  cases hc

/-- Beyond the digits and the dash, a line holds what the nickname holds. -/
lemma notMem_line_iff {c : UInt8} (hpos : 0 < client.number) (hc : isDigit c = false)
    (hdash : c ∉ text " - ") : c ∉ line client ↔ c ∉ client.nickname.1 := by
  simp only [line, List.mem_append, notMem_number hpos hc, hdash, false_or]

lemma newline_notMem_line_iff (hpos : 0 < client.number) :
    10 ∉ line client ↔ 10 ∉ client.nickname.1 := notMem_line_iff hpos rfl (by decide)

/-- The pairs of `active_clients`: the key is the nickname, and the number was given. -/
lemma Inv.of_mem_order (hinv : Inv s) (hperm : order.Perm s.activeClients.toList)
    {e : Nickname × TcpClient} (he : e ∈ order) : e.2.nickname = e.1 ∧ 0 < e.2.number := by
  have hfind : s.activeClients.find e.1 = some e.2 := UMap.mem_toList.mp (hperm.mem_iff.mp he)
  have hall := hinv.active _ _ hfind
  exact ⟨hinv.numbered.nickname _ _ hall, hinv.numbered.pos _ _ hall⟩

/-- The loop writes the lines, when there is room for them. -/
lemma Inv.listReply_eq (hinv : Inv s) (hperm : order.Perm s.activeClients.toList) :
    listReply order = strcat BUFLEN [] (written order) := by
  have hround (buffer : List UInt8) (e : Nickname × TcpClient) : (do
      let buffer ← strcat BUFLEN buffer (text (toString e.2.number))
      let buffer ← strcat BUFLEN buffer (text " - ")
      let buffer ← strcat BUFLEN buffer e.1.1
      strcat BUFLEN buffer (text "\n")) =
      strcat BUFLEN buffer (text (toString e.2.number) ++ (text " - " ++ (e.1.1 ++ [10]))) := by
    simp only [Option.bind_eq_bind, strcat_strcat]
    rfl
  unfold listReply
  simp only [hround]
  rw [foldlM_strcat _ order (by decide), written, List.flatMap_map]
  refine congrArg (strcat BUFLEN []) (List.flatMap_congr fun e he => ?_)
  rw [line, (hinv.of_mem_order hperm he).1]
  simp only [List.append_assoc]

/-- The answer to a `LIST`. -/
lemma Inv.handle_list (hinv : Inv s) (hperm : order.Perm s.activeClients.toList) (hne : data ≠ [])
    (hrec : received data = some m) (hlist : m.nrDest = -1) : s.handleTcpMessage i data order =
      (strcat BUFLEN [] (written order)).map fun buffer =>
        (s, [.send i (pad BUFLEN buffer).toList]) := by
  rw [handleTcpMessage, if_neg hne, hrec, Option.bind_some, route, if_pos hlist,
    hinv.listReply_eq hperm]

/-- The text of the buffer is all that was written. -/
lemma Inv.cstr_written (hinv : Inv s) (hperm : order.Perm s.activeClients.toList)
    (hroom : (written order).length < BUFLEN) :
    cstr (pad BUFLEN (written order)).toList = written order := by
  rw [cstr_pad hroom.le]
  refine cstr_eq_self fun c hc => ?_
  rintro rfl
  obtain ⟨l, hl, hmem⟩ := List.mem_flatMap.mp hc
  obtain ⟨e, he, rfl⟩ := List.mem_map.mp hl
  obtain ⟨-, hpos⟩ := hinv.of_mem_order hperm he
  rcases List.mem_append.mp hmem with hline | hend
  · exact absurd hline ((notMem_line_iff hpos rfl (by decide)).mpr e.2.nickname.2.2)
  · simp at hend

/-- The lines are read back when no nickname has a line end inside. -/
lemma Inv.splitOn_written (hinv : Inv s) (hperm : order.Perm s.activeClients.toList) :
    (written order).splitOn 10 = (order.map fun e => line e.2) ++ [[]] ↔
      ∀ e ∈ s.activeClients.toList, 10 ∉ e.2.nickname.1 := by
  rw [written, splitOn_lines_iff, List.forall_mem_map]
  constructor
  · intro h e he
    have he' := hperm.mem_iff.mpr he
    exact (newline_notMem_line_iff (hinv.of_mem_order hperm he').2).mp (h e he')
  · intro h e he
    exact (newline_notMem_line_iff (hinv.of_mem_order hperm he).2).mpr (h e (hperm.mem_iff.mp he))

/-- The order makes no difference to the room. -/
lemma room_iff (hperm : order.Perm s.activeClients.toList) :
    (written order).length < BUFLEN ↔ needed s.activeClients.toList < BUFLEN := by
  rw [length_written, needed, (hperm.map _).sum_eq, needed]

theorem Inv.lists_iff_listFits (hinv : Inv s) : Lists s ↔ ListFits s := by
  constructor
  · intro h
    have hperm := List.Perm.refl s.activeClients.toList
    obtain ⟨reply, hreply, -, hlines⟩ := h 4 _ _ _ (enc_ne_nil ⟨-1, pad MAX_LEN []⟩) (received_enc _)
      rfl hperm
    rw [hinv.handle_list hperm (enc_ne_nil _) (received_enc _) rfl] at hreply
    obtain ⟨buffer, hbuffer, he⟩ := Option.map_eq_some_iff.mp hreply
    obtain ⟨rfl, hroom⟩ := strcat_eq_some_iff.mp hbuffer
    rw [List.nil_append] at hroom he
    simp only [Prod.mk.injEq, List.cons.injEq, Output.send.injEq, true_and, and_true] at he
    rw [← he, hinv.cstr_written hperm hroom] at hlines
    exact ⟨(room_iff hperm).mp hroom, (hinv.splitOn_written hperm).mp hlines⟩
  · rintro ⟨hfits, hnewline⟩ i data m order hne hrec hlist hperm
    have hroom := (room_iff hperm).mpr hfits
    refine ⟨(pad BUFLEN (written order)).toList, ?_, Vector.length_toList, ?_⟩
    · rw [hinv.handle_list hperm hne hrec hlist, strcat_eq_some_iff.mpr ⟨rfl, hroom⟩]
      rfl
    · rw [hinv.cstr_written hperm hroom]
      exact (hinv.splitOn_written hperm).mpr hnewline

/-! ### How many clients fit -/

variable {s' : Server} {e : Event} {out : List Output}

lemma addNewClient_currId {fd : ℕ} {nickname : Nickname}
    (h : s.addNewClient fd nickname = some (s', out)) :
    s.currId ≠ 2 ^ 31 - 1 ∧ s'.currId = s.currId + 1 := by
  unfold addNewClient at h
  split at h
  · cases h
  · next hne =>
    cases h
    exact ⟨hne, rfl⟩

/-- The counter stays an `int`. -/
lemma currId_step (hle : s.currId ≤ 2 ^ 31 - 1)
    (h : step s e = some (s', out)) : s'.currId ≤ 2 ^ 31 - 1 := by
  cases e with
  | connection fd data =>
    rw [step_connection] at h
    obtain ⟨nickname, -, hacc⟩ := Option.bind_eq_some_iff.mp h
    unfold acceptClient at hacc
    split at hacc
    · cases hacc
      exact hle
    · split at hacc
      · cases hacc
        exact hle
      · obtain ⟨hne, hid⟩ := addNewClient_currId hacc
        rw [hid]
        exact Int.add_one_le_of_lt (lt_of_le_of_ne hle hne)
  | tcp i data order =>
    rcases handleTcpMessage_cases h with ⟨-, _, -, rfl⟩ | ⟨-, rfl⟩ <;> exact hle

lemma Reachable.currId_le (h : Reachable s) : s.currId ≤ 2 ^ 31 - 1 := by
  obtain ⟨sockTcp, h⟩ := h
  exact h.inv (P := fun s => s.currId ≤ 2 ^ 31 - 1) (by simp [init]) fun _ _ _ _ hle _ => currId_step hle

/-- **Twenty-four clients fit**, whatever their numbers and nicknames. -/
theorem Reachable.room (h : Reachable s) (hlen : s.activeClients.toList.length ≤ 24) :
    needed s.activeClients.toList < BUFLEN := by
  have hline : ∀ k ∈ s.activeClients.toList.map (fun e =>
      (text (toString e.2.number)).length + e.2.nickname.1.length + 4), k ≤ 64 := by
    intro k hk
    obtain ⟨⟨nickname, c⟩, he, rfl⟩ := List.mem_map.mp hk
    have hall := h.inv.active _ _ (UMap.mem_toList.mp he)
    have hlt := h.inv.numbered.lt _ _ hall
    have hle := h.currId_le
    obtain ⟨n, hn⟩ := Int.eq_ofNat_of_zero_le (h.inv.numbered.pos _ _ hall).le
    -- the largest `int` has ten digits
    have hdigits : (text (toString c.number)).length ≤ 10 := by
      rw [hn]
      exact (length_text_natCast_le_iff (by decide)).mpr (by omega)
    have hnick := c.nickname.2.1
    dsimp only [MAX_LEN] at hnick ⊢
    omega
  have hsum := List.sum_le_card_nsmul _ _ hline
  rw [List.length_map, smul_eq_mul] at hsum
  simp only [needed, BUFLEN]
  omega

/-! ### What the reply lists -/

/-- **What a `LIST` is answered.** In every reachable state, the answer has a line for each active
client and nothing else, and its construction stays inside the buffer, exactly when the lines fit and
no active client has a line end in its nickname. -/
theorem lists_iff (h : Reachable s) : Lists s ↔ ListFits s := h.inv.lists_iff_listFits

theorem lists_iff_comesBack : ∃ r, Run.exec step (init 3) comesBack = some r ∧ Lists r.1 := by
  have hfits : (Run.exec step (init 3) comesBack).map (fun r => decide (ListFits r.1)) = some true := by
    decide +kernel
  obtain ⟨r, hr, hdecide⟩ := Option.map_eq_some_iff.mp hfits
  have hreach : Reachable r.1 := ⟨3, Run.Reach.of_exec Run.Reach.init legal_comesBack hr⟩
  exact ⟨r, hr, (lists_iff hreach).mpr (of_decide_eq_true hdecide)⟩

/-- Clients that connect one after the other, with nicknames of the largest size. -/
def crowd (n : ℕ) : List Event :=
  (List.range n).map fun k => .connection (k + 4) (UInt8.ofNat (97 + k) :: List.replicate 49 97)

lemma legal_crowd : Run.Along step Legal (init 3) (crowd 29) := by decide +kernel

/-- The lines of twenty-nine clients do not fit. -/
theorem not_lists : Run.Along step Legal (init 3) (crowd 29) ∧
    ∃ r, Run.exec step (init 3) (crowd 29) = some r ∧ ¬ Lists r.1 := by
  have hfits : (Run.exec step (init 3) (crowd 29)).map (fun r => decide (ListFits r.1)) =
      some false := by decide +kernel
  obtain ⟨r, hr, hdecide⟩ := Option.map_eq_some_iff.mp hfits
  have hreach : Reachable r.1 := ⟨3, Run.Reach.of_exec Run.Reach.init legal_crowd hr⟩
  refine ⟨legal_crowd, r, hr, ?_⟩
  rw [hreach.inv.lists_iff_listFits]
  exact of_decide_eq_false hdecide

end Server

end Protocoale.Practic

import Protocoale.Lab02.Processes

/-!
The transfer is exact and does not get stuck. One run of the two processes is written out, the one in
which each message is received before the next one is sent: an exchange for the name and for the size of
a file (`run_name`, `run_size`), one for each part of its content (`run_content`), and so on for all the
files (`run_files`). Every other run is a beginning of one that ends in the same state, by
`Duet.run_final`.
-/

namespace Protocoale.Lab02

open Lib Lib.Bytes Lib.CText Lib.Duet

variable {m t r : Msg} {c : Received} {source : Source} {sources : List Source} {file : File}
  {files : List File} {filename copyFilename copied name : List UInt8} {count : ℤ} {k n : ℕ}

/-- A string is read back from the message it was put in. -/
lemma Msg.str_put {len : ℤ} (h0 : 0 ∉ name) (hlen : name.length < MAX_LEN) :
    (m.put len name).str = name := by
  have hread : read (write m.payload 0 (name ++ [0])) 0 (name.length + 1) = name ++ [0] := by
    have hself : read (write m.payload 0 (name ++ [0])) 0 (name ++ [0]).length = name ++ [0] :=
      read_write_self
    rwa [List.length_append] at hself
  obtain ⟨rest, hrest⟩ := Nat.exists_eq_add_of_le (show name.length + 1 ≤ MAX_LEN from hlen)
  unfold Msg.str Msg.put
  rw [hrest, read_add, hread, List.append_assoc, List.singleton_append, cstr_append_zero h0]

/-- The system of both processes, with nothing on the way. -/
abbrev quiet (s : Sender) (r : Receiver) : Sys Sender Receiver Msg := ⟨s, r, [], []⟩

/-- A message of the sender and the reply to it. -/
def exchange : List Side := [.left, .right, .right, .left]

/-- The sender sends a message, the receiver takes it and replies, and the sender takes the reply. -/
lemma run_exchange {s s₁ s₂ : Sender} {r r₂ : Receiver} {k : Msg → Receiver} {k' : Msg → Sender}
    {reply : Msg} (hs : s.next = .send m s₁) (hr : r.next = .recv k)
    (hk : (k m).next = .send reply r₂) (hs₁ : s₁.next = .recv k') (hs₂ : k' reply = s₂) :
    run Sender.next Receiver.next (quiet s r) exchange = some (quiet s₂ r₂) := by
  simp [exchange, run_cons, step, move, hs, hr, hk, hs₁, hs₂]

/-- The name of a file is exchanged. -/
lemma run_name (source : Source) {s : Sender} {r : Receiver} (hs : s.next = Sender.sendName t (source :: sources))
    (hr : r.next = Receiver.recvName c) (hi : c.i < c.filesNumber) (hname : source.name.length ≤ 31) :
    ∃ t' r', run Sender.next Receiver.next (quiet s r) exchange = some
      (quiet (.size t' source sources) (.size { c with r := r' } source.name)) := by
  have hlen : source.name.length < MAX_LEN := by simp; omega
  have hstr : (t.put (source.name.length + 1) source.name).str = source.name :=
    Msg.str_put source.name_ok hlen
  let m := t.put (source.name.length + 1) source.name
  have hack : (Receiver.nameAck { c with r := m }).next =
      .send m.ack (.size { c with r := m.ack } source.name) := by
    simp only [Receiver.next, m, hstr]
    rw [if_pos (by omega)]
  exact ⟨_, _, run_exchange (hs.trans (if_pos hlen)) (hr.trans (if_pos hi)) hack rfl rfl⟩

/-- The size of a file is exchanged, and the copy opened. -/
lemma run_size (t : Msg) (source : Source) (sources : List Source) (c : Received) (hname : filename.length ≤ 31) :
    ∃ t' r', run Sender.next Receiver.next
      (quiet (.size t source sources) (.size c filename)) exchange = some
      (quiet (.content t' source sources 0)
        (.content { c with r := r' } (text "copy_" ++ filename) [] (chunks source.size))) := by
  have hcopy : strcat 38 (text "copy_") filename = some (text "copy_" ++ filename) := by
    refine strcat_eq_some_iff.mpr ⟨rfl, ?_⟩
    rw [List.length_append, show (text "copy_").length = 5 from rfl]
    omega
  let m := t.put source.size (text "file size")
  have hack : (Receiver.sizeAck { c with r := m } filename).next = .send m.ack
      (.content { c with r := m.ack } (text "copy_" ++ filename) [] (chunks source.size)) := by
    simp only [Receiver.next, hcopy]
    rfl
  exact ⟨_, _, run_exchange rfl rfl hack rfl rfl⟩

/-- A part of the content is exchanged, and written. -/
lemma run_part (t : Msg) (c : Received) (sources : List Source) (copyFilename copied : List UInt8)
    {bytes : List UInt8} (hread : source.read k = some bytes) (hne : bytes ≠ [])
    (hcount : 0 < count) :
    ∃ t' r', run Sender.next Receiver.next (quiet (.content t source sources k)
      (.content c copyFilename copied count)) exchange = some
      (quiet (.content t' source sources (k + 1))
        (.content { c with r := r' } copyFilename (copied ++ bytes) (count - 1))) := by
  obtain ⟨b, bs, rfl⟩ := List.exists_cons_of_ne_nil hne
  have hle := source.read_le _ _ hread
  let m : Msg := ⟨(b :: bs).length, write t.payload 0 (b :: bs)⟩
  have hsend : (Sender.content t source sources k).next =
      .send m (.contentReply m source sources (k + 1)) := by
    simp only [Sender.next, hread, m]
  have hack : (Receiver.contentAck { c with r := m } copyFilename copied count).next = .send m.ack
      (.content { c with r := m.ack } copyFilename (copied ++ b :: bs) (count - 1)) := by
    simp only [Receiver.next, m, Int.toNat_natCast, read_write_self]
    rw [if_pos ⟨by omega, by exact_mod_cast hle⟩]
  exact ⟨_, _, run_exchange hsend (if_pos hcount) hack rfl rfl⟩

/-- The content is exchanged to its end: what is left of it comes in as many parts as the receiver
still waits for. -/
lemma run_content (t : Msg) (source : Source) (sources : List Source) (c : Received)
    (copyFilename : List UInt8) (k : ℕ) {content : List UInt8}
    (hread : ∀ j, source.read j = some ((content.drop (MAX_LEN * j)).take MAX_LEN))
    (hn : n = (content.length - MAX_LEN * k + (MAX_LEN - 1)) / MAX_LEN) :
    ∃ sides t' r' k', run Sender.next Receiver.next (quiet (.content t source sources k)
      (.content c copyFilename (content.take (MAX_LEN * k)) n)) sides = some
      (quiet (.content t' source sources k') (.content { c with r := r' } copyFilename content 0)) ∧
      source.read k' = some [] := by
  simp only [MAX_LEN] at hread hn ⊢
  induction n generalizing t c k with
  | zero =>
    have hle : content.length ≤ 1400 * k := by omega
    refine ⟨[], t, c.r, k, ?_, ?_⟩
    · rw [List.take_of_length_le hle]
      rfl
    · rw [hread, List.drop_of_length_le hle, List.take_nil]
  | succ n ih =>
    have hlt : 1400 * k < content.length := by omega
    have hne : (content.drop (1400 * k)).take 1400 ≠ [] := by
      apply List.ne_nil_of_length_pos
      rw [List.length_take, List.length_drop]
      omega
    obtain ⟨t₁, r₁, h₁⟩ := run_part t c sources copyFilename (content.take (1400 * k)) (hread k) hne
      (Int.natCast_pos.mpr n.succ_pos)
    rw [← List.take_add, Nat.cast_succ, add_sub_cancel_right, ← Nat.mul_succ] at h₁
    obtain ⟨sides, t₂, r₂, k', h₂, hend⟩ := ih t₁ { c with r := r₁ } (k + 1) (by omega)
    exact ⟨_, t₂, r₂, k', run_trans h₁ h₂, hend⟩

/-- The receiver waits for as many parts as there are. -/
lemma chunks_natCast (n : ℕ) : chunks n = ((n + (MAX_LEN - 1)) / MAX_LEN : ℕ) := by
  unfold chunks
  rw [Int.tmod_eq_emod_of_nonneg (Int.natCast_nonneg n), Int.tdiv_eq_ediv_of_nonneg (Int.natCast_nonneg n)]
  simp only [MAX_LEN]
  split <;> omega

/-- The copy of a file, with all of its content. -/
def File.copy (file : File) : List UInt8 × List UInt8 := (text "copy_" ++ file.name, file.content)

/-- The files are exchanged one after the other. -/
lemma run_files (files : List File) {s : Sender} {r : Receiver} (hs : s.next = Sender.sendName t (files.map File.source))
    (hr : r.next = Receiver.recvName c) (hcopies : r.copies = c.written)
    (hi : c.i + files.length = c.filesNumber) :
    ∃ sides s' r', run Sender.next Receiver.next (quiet s r) sides = some (quiet s' r') ∧
      s'.next = .done ∧ r'.next = .done ∧ r'.copies = c.written ++ files.map File.copy := by
  induction files generalizing t c s r with
  | nil =>
    have hend : ¬ c.i < c.filesNumber := by simp at hi; omega
    exact ⟨[], s, r, rfl, hs, hr.trans (if_neg hend), by simp [hcopies]⟩
  | cons file files ih =>
    rw [List.length_cons] at hi
    obtain ⟨t₁, r₁, h₁⟩ := run_name file.source hs hr (by omega) file.name_le
    obtain ⟨t₂, r₂, h₂⟩ := run_size t₁ file.source (files.map File.source) { c with r := r₁ }
      file.name_le
    obtain ⟨sides, t₃, r₃, k, h₃, hend⟩ := run_content t₂ file.source (files.map File.source)
      { c with r := r₂ } (text "copy_" ++ file.name) 0 (fun _ => rfl) rfl
    rw [show file.source.size = (file.content.length : ℤ) from rfl, chunks_natCast] at h₂
    have hs₃ : (Sender.content t₃ file.source (files.map File.source) k).next =
        Sender.sendName t₃ (files.map File.source) := by
      simp only [Sender.next, hend]
    have hr₃ : (Receiver.content { c with r := r₃ } (text "copy_" ++ file.name) file.content 0).next =
        Receiver.recvName ⟨r₃, c.filesNumber, c.i + 1, c.written ++ [file.copy]⟩ := by
      simp only [Receiver.next, lt_irrefl, if_false]
      rfl
    obtain ⟨sides', s', r', h₄, hdone, hdone', hcopies'⟩ := ih hs₃ hr₃ rfl (by simp; omega)
    refine ⟨_, s', r', run_trans h₁ (run_trans h₂ (run_trans h₃ h₄)), hdone, hdone', ?_⟩
    rw [hcopies', List.map_cons, List.append_assoc]
    rfl

/-- One run of the whole transfer, in which both return. -/
lemma run_transfer (files : List File) (t r : Msg) : ∃ sides s' r',
    run Sender.next Receiver.next (start t r (files.map File.source)) sides = some (quiet s' r') ∧
      Final Sender.next Receiver.next (quiet s' r') ∧ r'.copies = files.map File.copy := by
  let sources := files.map File.source
  let t' := t.put sources.length (text "number of files")
  have hstart : run Sender.next Receiver.next (start t r sources) [.left, .right] =
      some (quiet (.name t' sources) (.name ⟨t', sources.length, 0, []⟩)) := rfl
  obtain ⟨sides, s', r', hrun, hdone, hdone', hcopies⟩ := run_files files (t := t')
    (s := .name t' sources) (r := .name ⟨t', sources.length, 0, []⟩)
    (c := ⟨t', sources.length, 0, []⟩) rfl rfl rfl (by simp [sources])
  exact ⟨_, s', r', run_trans hstart hrun, ⟨hdone, hdone'⟩, hcopies⟩

/-- **The transfer is exact and does not get stuck.** For every list of readable files, all runs of the
sender and the receiver are beginnings of runs that end in one state, after the same number of steps:
no run is longer, none stops before. There both have returned, nothing is on the way, and the copies the
receiver wrote are the files that were sent. -/
theorem transfer_exact (files : List File) (t r : Msg) :
    ∃ f n, Final Sender.next Receiver.next f ∧ f.toRight = [] ∧ f.toLeft = [] ∧
      f.right.copies = files.map File.copy ∧
      ∀ sides s, run Sender.next Receiver.next (start t r (files.map File.source)) sides = some s →
        sides.length ≤ n ∧
        (∃ rest, run Sender.next Receiver.next s rest = some f ∧ sides.length + rest.length = n) ∧
        ((∀ side, step Sender.next Receiver.next s side = none) → s = f) := by
  obtain ⟨sides, s', r', hall, hfinal, hcopies⟩ := run_transfer files t r
  refine ⟨quiet s' r', sides.length, hfinal, rfl, rfl, hcopies, ?_⟩
  intro sides' s hs
  obtain ⟨rest, hrest, hlen⟩ := run_final hfinal hall hs
  exact ⟨by omega, ⟨rest, hrest, hlen⟩, eq_of_blocked hfinal hall hs⟩

end Protocoale.Lab02

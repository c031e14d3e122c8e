import Protocoale.Lab11.Mail

/-!
The answer of the mail server (`read_line` and `send_command` of `send_mail.c`). One counter is the bound of
the loop and the number that is returned. It starts at one and counts the calls of `read`, so that it is the
number of bytes stored when the last of them is a newline and none was interrupted (`readLine_iff`).
-/

namespace Protocoale.Lab11

open Lib.Bytes

/-- What `read` returns for one byte, as long as the stream has not ended. -/
inductive ReadResult where
  | byte (c : UInt8)
  | eintr
  | error
  deriving DecidableEq

/-- What `read_line` leaves: the number returned, how far `buffer` has moved, and the array. -/
structure ReadLine where
  ret : ℤ
  stored : ℕ
  array : Buf

/-- The loop of `read_line`, with `n`, the number of bytes stored and the array. -/
def readLoop (maxlen : ℕ) (reads : List ReadResult) (n stored : ℕ) (b : Buf) : ReadLine :=
  if n < maxlen then
    match reads with
    | .byte c :: rest =>
      if c = 10 then ⟨n, stored + 1, write (write b stored [c]) (stored + 1) [0]⟩
      else readLoop maxlen rest (n + 1) (stored + 1) (write b stored [c])
    | [] => if n = 1 then ⟨0, stored, b⟩ else ⟨n, stored, write b stored [0]⟩
    | .eintr :: rest => readLoop maxlen rest (n + 1) stored b
    | .error :: _ => ⟨-1, stored, b⟩
  else ⟨n, stored, write b stored [0]⟩

/-- `read_line`, on an array with anything in it. -/
def readLine (maxlen : ℕ) (reads : List ReadResult) (b : Buf) : ReadLine := readLoop maxlen reads 1 0 b

/-- What `send_command` leaves in `recvbuf`; with `-1` it writes in front of the array, which is not
defined. -/
def recvReply (reads : List ReadResult) (recvbuf : Buf) : Option Buf :=
  let r := readLine (MAXLEN - 1) reads recvbuf
  if 0 ≤ r.ret then some (write r.array r.ret.toNat [0]) else none

/-- The bytes of the stream. -/
def bytes (reads : List ReadResult) : List UInt8 := reads.filterMap fun
  | .byte c => some c
  | _ => none

/-- **The line that should be returned**: what is stored is counted, it is the beginning of the stream up to
the first newline, its end or `maxlen - 1` bytes, a NUL follows it, and nothing is written at `maxlen` or
behind. -/
structure Returned (maxlen : ℕ) (reads : List ReadResult) (b : Buf) (r : ReadLine) : Prop where
  ret : r.ret = r.stored
  line : read r.array 0 r.stored = (bytes reads).take (min ((bytes reads).idxOf 10 + 1) (maxlen - 1))
  nul : r.array r.stored = 0
  room : ∀ i, maxlen ≤ i → r.array i = b i

namespace ReadResult

/-- The loop goes on after it. -/
def goesOn (r : ReadResult) : Bool := r ≠ .byte 10 && r ≠ .error

end ReadResult

/-- The reads before the first newline or error. -/
def leading (reads : List ReadResult) : List ReadResult := reads.takeWhile ReadResult.goesOn

/-- The first newline or error, if any. -/
def stop (reads : List ReadResult) : Option ReadResult := reads.find? fun r => !r.goesOn

/-- An error comes first, and in time. -/
def Fails (maxlen : ℕ) (reads : List ReadResult) : Prop :=
  (leading reads).length + 1 < maxlen ∧ stop reads = some .error

/-- **The number returned is right** when a newline comes in time and no read before it is interrupted, when
an error comes first, and when the stream is at its end and the array starts with a NUL. -/
def Counted (maxlen : ℕ) (reads : List ReadResult) (b : Buf) : Prop :=
  ((leading reads).length + 1 < maxlen ∧ stop reads = some (.byte 10) ∧ .eintr ∉ leading reads) ∨
    Fails maxlen reads ∨ (reads = [] ∧ b 0 = 0)

variable {maxlen n k : ℕ} {reads pre rest : List ReadResult} {b : Buf} {c : UInt8}

@[simp] lemma bytes_nil : bytes [] = [] := rfl

@[simp] lemma bytes_byte : bytes (.byte c :: rest) = c :: bytes rest := rfl

@[simp] lemma bytes_eintr : bytes (.eintr :: rest) = bytes rest := rfl

@[simp] lemma bytes_append : bytes (pre ++ rest) = bytes pre ++ bytes rest := by simp [bytes]

lemma length_bytes_le (reads : List ReadResult) : (bytes reads).length ≤ reads.length :=
  List.length_filterMap_le _ _

/-! ### The exits of the loop -/

lemma readLoop_byte (hn : n < maxlen) (hc : c ≠ 10) : readLoop maxlen (.byte c :: rest) n k b =
    readLoop maxlen rest (n + 1) (k + 1) (write b k [c]) := by
  rw [readLoop.eq_def, if_pos hn]
  exact if_neg hc

lemma readLoop_eintr (hn : n < maxlen) :
    readLoop maxlen (.eintr :: rest) n k b = readLoop maxlen rest (n + 1) k b := by
  rw [readLoop.eq_def, if_pos hn]

lemma readLoop_newline (hn : n < maxlen) :
    readLoop maxlen (.byte 10 :: rest) n k b = ⟨n, k + 1, write b k [10, 0]⟩ := by
  rw [readLoop.eq_def, if_pos hn]
  exact congrArg _ (write_append b k [10] [0])

lemma readLoop_error (hn : n < maxlen) : readLoop maxlen (.error :: rest) n k b = ⟨-1, k, b⟩ := by
  rw [readLoop.eq_def, if_pos hn]

lemma readLoop_end (hn : n < maxlen) (h1 : n ≠ 1) :
    readLoop maxlen [] n k b = ⟨n, k, write b k [0]⟩ := by
  rw [readLoop.eq_def, if_pos hn]
  exact if_neg h1

lemma readLoop_full (hn : maxlen ≤ n) : readLoop maxlen rest n k b = ⟨n, k, write b k [0]⟩ := by
  rw [readLoop.eq_def, if_neg (by omega)]

/-- **While the loop goes on** every read is counted, and its byte stored if it has one. -/
lemma readLoop_leading (hpre : ∀ r ∈ pre, r.goesOn) (hlen : n + pre.length ≤ maxlen) :
    readLoop maxlen (pre ++ rest) n k b =
      readLoop maxlen rest (n + pre.length) (k + (bytes pre).length) (write b k (bytes pre)) := by
  induction pre generalizing n k b with
  | nil => simp
  | cons r pre ih =>
    rw [List.forall_mem_cons] at hpre
    rw [List.length_cons] at hlen
    have hn : n + (r :: pre).length = n + 1 + pre.length := by
      rw [List.length_cons]
      omega
    rw [List.cons_append, hn]
    cases r with
    | byte c =>
      have hc : c ≠ 10 := by
        rintro rfl
        cases hpre.1
      have hk : k + (bytes (.byte c :: pre)).length = k + 1 + (bytes pre).length := by
        rw [bytes_byte, List.length_cons]
        omega
      rw [readLoop_byte (by omega) hc, ih hpre.2 (by omega), hk, bytes_byte]
      exact congrArg _ (write_append b k [c] (bytes pre))
    | eintr =>
      rw [readLoop_eintr (by omega), ih hpre.2 (by omega), bytes_eintr]
    | error => cases hpre.1

lemma goesOn_leading : ∀ r ∈ leading reads, r.goesOn := fun _ hr => List.mem_takeWhile_imp hr

lemma leading_of_stop_none (h : stop reads = none) : leading reads = reads :=
  List.takeWhile_eq_self_iff.mpr fun r hr => by simpa using List.find?_eq_none.mp h r hr

lemma leading_of_stop {r : ReadResult} (h : stop reads = some r) :
    (r = .byte 10 ∨ r = .error) ∧ ∃ rest, reads = leading reads ++ r :: rest := by
  obtain ⟨hr, pre, rest, rfl, hpre⟩ := List.find?_eq_some_iff_append.mp h
  have hlead : leading (pre ++ r :: rest) = pre := by
    rw [leading, List.takeWhile_append_of_pos (by simpa using hpre),
      List.takeWhile_cons_of_neg (by simpa using hr), List.append_nil]
  refine ⟨?_, rest, by rw [hlead]⟩
  cases r with
  | byte c => exact Or.inl (by simpa [ReadResult.goesOn] using hr)
  | eintr => cases hr
  | error => exact Or.inr rfl

lemma readLine_leading (hpre : ∀ r ∈ pre, r.goesOn) (hlen : pre.length + 1 ≤ maxlen) :
    readLine maxlen (pre ++ rest) b =
      readLoop maxlen rest (pre.length + 1) (bytes pre).length (write b 0 (bytes pre)) := by
  rw [readLine, readLoop_leading hpre (by omega), Nat.add_comm 1, Nat.zero_add]

lemma write_behind (b : Buf) (bs cs : List UInt8) :
    write (write b 0 bs) bs.length cs = write b 0 (bs ++ cs) := by
  simpa only [Nat.zero_add] using write_append b 0 bs cs

/-- The array is filled before the line ends. -/
lemma readLine_full (hmax : 1 ≤ maxlen) (h : maxlen ≤ (leading reads).length + 1) :
    ∃ pre rest, reads = pre ++ rest ∧ pre.length + 1 = maxlen ∧
      readLine maxlen reads b = ⟨maxlen, (bytes pre).length, write b 0 (bytes pre ++ [0])⟩ := by
  obtain ⟨rest, hrest⟩ : (leading reads).take (maxlen - 1) <+: reads :=
    (List.take_prefix ..).trans (List.takeWhile_prefix _)
  have hlen : ((leading reads).take (maxlen - 1)).length = maxlen - 1 := by
    rw [List.length_take]
    omega
  have hpre : ∀ r ∈ (leading reads).take (maxlen - 1), r.goesOn :=
    fun r hr => goesOn_leading r (List.mem_of_mem_take hr)
  refine ⟨_, rest, hrest.symm, by omega, ?_⟩
  conv_lhs => rw [← hrest]
  rw [readLine_leading hpre (by omega), readLoop_full (by omega), write_behind, hlen,
    Nat.sub_add_cancel hmax]

/-- The line ends with a newline. -/
lemma readLine_newline (hstop : stop reads = some (.byte 10)) (h : (leading reads).length + 1 < maxlen) :
    readLine maxlen reads b = ⟨((leading reads).length + 1 : ℕ), (bytes (leading reads) ++ [10]).length,
      write b 0 (bytes (leading reads) ++ [10] ++ [0])⟩ := by
  obtain ⟨-, rest, hrest⟩ := leading_of_stop hstop
  conv_lhs => rw [hrest]
  rw [readLine_leading goesOn_leading (by omega), readLoop_newline h, write_behind, List.append_assoc,
    List.length_append, List.length_singleton, List.singleton_append]

lemma readLine_error (hstop : stop reads = some .error) (h : (leading reads).length + 1 < maxlen) :
    readLine maxlen reads b =
      ⟨-1, (bytes (leading reads)).length, write b 0 (bytes (leading reads))⟩ := by
  obtain ⟨-, rest, hrest⟩ := leading_of_stop hstop
  conv_lhs => rw [hrest]
  rw [readLine_leading goesOn_leading (by omega), readLoop_error h]

/-- The stream ends at once: nothing is written. -/
lemma readLine_nil (h : 1 < maxlen) : readLine maxlen [] b = ⟨0, 0, b⟩ := by
  rw [readLine, readLoop.eq_def, if_pos h]
  rfl

/-- The stream ends later: the call of `read` that finds the end is counted as well. -/
lemma readLine_end (hstop : stop reads = none) (hne : reads ≠ []) (h : reads.length + 1 < maxlen) :
    readLine maxlen reads b =
      ⟨(reads.length + 1 : ℕ), (bytes reads).length, write b 0 (bytes reads ++ [0])⟩ := by
  have hall : ∀ r ∈ reads, r.goesOn := by
    rw [← leading_of_stop_none hstop]
    exact goesOn_leading
  have hone : reads.length + 1 ≠ 1 := by simpa using hne
  conv_lhs => rw [← List.append_nil reads]
  rw [readLine_leading hall (by omega), readLoop_end h hone, write_behind]

/-- The exits: the array is full, or there is no stop, or the first one is a newline or an error. -/
lemma exits (maxlen : ℕ) (reads : List ReadResult) : maxlen ≤ (leading reads).length + 1 ∨
    (reads.length + 1 < maxlen ∧ stop reads = none) ∨
    ((leading reads).length + 1 < maxlen ∧ stop reads = some (.byte 10)) ∨
    ((leading reads).length + 1 < maxlen ∧ stop reads = some .error) := by
  rcases Nat.lt_or_ge ((leading reads).length + 1) maxlen with hlt | hge
  · refine Or.inr ?_
    cases hstop : stop reads with
    | none =>
      rw [leading_of_stop_none hstop] at hlt
      exact Or.inl ⟨hlt, rfl⟩
    | some r =>
      refine Or.inr ?_
      rcases (leading_of_stop hstop).1 with rfl | rfl
      · exact Or.inl ⟨hlt, rfl⟩
      · exact Or.inr ⟨hlt, rfl⟩
  · exact Or.inl hge

/-! ### What is stored -/

lemma read_write_append (b : Buf) (bs cs : List UInt8) :
    read (write b 0 (bs ++ cs)) 0 bs.length = bs := by
  rw [← write_behind, read_write_disjoint (Or.inl (by omega)), read_write_self]

lemma write_apply_nul (b : Buf) (bs : List UInt8) : write b 0 (bs ++ [0]) bs.length = 0 := by
  have happly : write b 0 (bs ++ [0]) (0 + bs.length) = _ := write_apply (by simp)
  rw [Nat.zero_add] at happly
  rw [happly]
  simp

lemma bytes_of_stop (hstop : stop reads = some (.byte 10)) :
    ∃ rest, bytes reads = bytes (leading reads) ++ 10 :: rest := by
  obtain ⟨-, rest, hrest⟩ := leading_of_stop hstop
  refine ⟨bytes rest, ?_⟩
  conv_lhs => rw [hrest]
  rw [bytes_append, bytes_byte]

/-- The bytes of the reads before the first newline are the line without it. -/
lemma line_of_stop (hstop : stop reads = some (.byte 10)) (h : (leading reads).length + 1 < maxlen) :
    (bytes reads).take (min ((bytes reads).idxOf 10 + 1) (maxlen - 1)) =
      bytes (leading reads) ++ [10] := by
  obtain ⟨rest, hbytes⟩ := bytes_of_stop hstop
  have hmem : (10 : UInt8) ∉ bytes (leading reads) := by
    intro h10
    obtain ⟨r, hr, hc⟩ := List.mem_filterMap.mp h10
    have hgo := goesOn_leading r hr
    cases r with
    | byte c =>
      cases hc
      cases hgo
    | eintr => cases hc
    | error => cases hc
  have hlen := length_bytes_le (leading reads)
  rw [hbytes, List.idxOf_append_of_notMem hmem, List.idxOf_cons_self, Nat.add_zero,
    Nat.min_eq_left (by omega), List.take_length_add_append]
  rfl

/-- Every read has stored a byte exactly when none was interrupted. -/
lemma length_bytes_leading : (bytes (leading reads)).length = (leading reads).length ↔
    .eintr ∉ leading reads := by
  unfold bytes
  rw [List.filterMap_length_eq_length]
  constructor
  · intro hall hmem
    cases hall _ hmem
  · intro hmem r hr
    have hgo := goesOn_leading r hr
    cases r with
    | byte c => rfl
    | eintr => exact absurd hr hmem
    | error => cases hgo

/-- **What `read_line` does** in any call: it fails, it finds the end of the stream at once, or it writes a
beginning of the stream and a NUL, and returns a number that is not less than that of the bytes. -/
theorem readLine_cases (hmax : 2 ≤ maxlen) (reads : List ReadResult) (b : Buf) :
    (Fails maxlen reads ∧ readLine maxlen reads b =
      ⟨-1, (bytes (leading reads)).length, write b 0 (bytes (leading reads))⟩) ∨
    (reads = [] ∧ readLine maxlen reads b = ⟨0, 0, b⟩) ∨
    (¬ Fails maxlen reads ∧ ∃ (n : ℕ) (bs : List UInt8),
      readLine maxlen reads b = ⟨n, bs.length, write b 0 (bs ++ [0])⟩ ∧ bs <+: bytes reads ∧
      bs.length < maxlen ∧ bs.length ≤ n ∧ n ≤ maxlen) := by
  unfold Fails
  rcases exits maxlen reads with hfull | ⟨hlen, hstop⟩ | ⟨hlen, hstop⟩ | ⟨hlen, hstop⟩
  · obtain ⟨pre, rest, rfl, hpre, hline⟩ := readLine_full (b := b) (by omega) hfull
    have hle := length_bytes_le pre
    refine Or.inr (Or.inr ⟨fun h => absurd h.1 (by omega), maxlen, bytes pre, hline, ?_, by omega,
      by omega, le_rfl⟩)
    rw [bytes_append]
    exact List.prefix_append ..
  · have hle := length_bytes_le reads
    by_cases hne : reads = []
    · subst hne
      exact Or.inr (Or.inl ⟨rfl, readLine_nil (by omega)⟩)
    · refine Or.inr (Or.inr ⟨?_, reads.length + 1, bytes reads, readLine_end hstop hne hlen,
        List.prefix_rfl, by omega, by omega, by omega⟩)
      rw [hstop]
      simp
  · obtain ⟨rest, hbytes⟩ := bytes_of_stop hstop
    have hle := length_bytes_le (leading reads)
    have hsnoc : (bytes (leading reads) ++ [10]).length = (bytes (leading reads)).length + 1 := by simp
    refine Or.inr (Or.inr ⟨?_, (leading reads).length + 1, _, readLine_newline hstop hlen, ?_, by omega,
      by omega, by omega⟩)
    · rw [hstop]
      simp
    · rw [hbytes, List.prefix_append_right_inj]
      exact List.prefix_append [10] rest
  · exact Or.inl ⟨⟨hlen, hstop⟩, readLine_error hstop hlen⟩

/-- What is stored is a beginning of the stream, and nothing is written at `maxlen` or behind. -/
theorem readLine_stored (hmax : 2 ≤ maxlen) (reads : List ReadResult) (b : Buf) :
    read (readLine maxlen reads b).array 0 (readLine maxlen reads b).stored <+: bytes reads ∧
      ∀ i, maxlen ≤ i → (readLine maxlen reads b).array i = b i := by
  rcases readLine_cases hmax reads b with ⟨⟨hlen, -⟩, h⟩ | ⟨rfl, h⟩ | ⟨-, n, bs, h, hbs, hlt, -, -⟩
  · have hle := length_bytes_le (leading reads)
    rw [h]
    refine ⟨?_, fun i hi => write_of_ge (by omega)⟩
    rw [read_write_self]
    exact (List.takeWhile_prefix _).filterMap _
  · rw [h]
    exact ⟨List.nil_prefix, fun _ _ => rfl⟩
  · rw [h]
    refine ⟨by rwa [read_write_append], fun i hi => write_of_ge ?_⟩
    rw [List.length_append, List.length_singleton]
    omega

/-! ### The number returned -/

lemma returned_newline (hstop : stop reads = some (.byte 10)) (h : (leading reads).length + 1 < maxlen) :
    Returned maxlen reads b (readLine maxlen reads b) ↔ .eintr ∉ leading reads := by
  have hle := length_bytes_le (leading reads)
  rw [readLine_newline hstop h, ← length_bytes_leading]
  constructor
  · intro hr
    have hret := hr.ret
    rw [List.length_append, List.length_singleton] at hret
    dsimp only at hret
    omega
  · intro heq
    refine ⟨by simp [heq], ?_, write_apply_nul .., fun i hi => write_of_ge ?_⟩
    · rw [line_of_stop hstop h]
      exact read_write_append ..
    · simp only [List.length_append, List.length_singleton]
      omega

/-- At the end of the stream right away nothing is written, the NUL neither. -/
lemma returned_nil (hmax : 2 ≤ maxlen) : Returned maxlen [] b (readLine maxlen [] b) ↔ b 0 = 0 := by
  rw [readLine_nil (by omega)]
  exact ⟨fun h => h.nul, fun h => ⟨rfl, by simp, h, fun _ _ => rfl⟩⟩

lemma ret_ne {a : Buf} (h : readLine maxlen reads b = ⟨n, k, a⟩) : (readLine maxlen reads b).ret ≠ -1 := by
  rw [h]
  dsimp only
  omega

/-- A number greater than that of the bytes is wrong. -/
lemma not_returned {a : Buf} (h : readLine maxlen reads b = ⟨n, k, a⟩) (hlt : k < n) :
    ¬ ((readLine maxlen reads b).ret ≠ -1 → Returned maxlen reads b (readLine maxlen reads b)) := by
  rw [forall_prop_of_true (ret_ne h), h]
  intro hr
  have hret := hr.ret
  dsimp only at hret
  omega

/-- **`read_line` returns what it stored** exactly in the calls that are `Counted`. -/
theorem readLine_iff (hmax : 2 ≤ maxlen) : ((readLine maxlen reads b).ret ≠ -1 →
    Returned maxlen reads b (readLine maxlen reads b)) ↔ Counted maxlen reads b := by
  unfold Counted Fails
  rcases exits maxlen reads with hfull | ⟨hlen, hstop⟩ | ⟨hlen, hstop⟩ | ⟨hlen, hstop⟩
  · -- `maxlen` is returned, with fewer bytes stored
    obtain ⟨pre, rest, -, hpre, hline⟩ := readLine_full (b := b) (by omega) hfull
    have hle := length_bytes_le pre
    refine iff_of_false (not_returned hline (by omega)) ?_
    rintro (⟨hlt, -⟩ | ⟨hlt, -⟩ | ⟨rfl, -⟩)
    · omega
    · omega
    · have hzero : (leading []).length = 0 := rfl
      omega
  · rw [hstop]
    by_cases hne : reads = []
    · subst hne
      rw [forall_prop_of_true (ret_ne (readLine_nil (by omega))), returned_nil hmax]
      simp
    · -- the read that finds the end is counted, and stores nothing
      have hle := length_bytes_le reads
      exact iff_of_false (not_returned (readLine_end hstop hne hlen) (by omega)) (by simp [hne])
  · have hne : reads ≠ [] := by
      rintro rfl
      cases hstop
    rw [forall_prop_of_true (ret_ne (readLine_newline hstop hlen)), returned_newline hstop hlen]
    simp [hlen, hstop, hne]
  · refine iff_of_true (fun hret => absurd ?_ hret) (Or.inr (Or.inl ⟨hlen, hstop⟩))
    rw [readLine_error hstop hlen]

/-- A line of two bytes and a newline. -/
theorem readLine_iff_line : Returned 499 [.byte 79, .byte 75, .byte 10] (fun _ => 1)
    (readLine 499 [.byte 79, .byte 75, .byte 10] fun _ => 1) := by
  refine (readLine_iff (by omega)).mpr (Or.inl ⟨?_, rfl, ?_⟩) ?_
  · simp [leading, ReadResult.goesOn]
  · simp [leading, ReadResult.goesOn]
  · simp [readLine, readLoop]

/-- Two bytes and the end of the stream: three are returned. -/
theorem not_readLine_counts : ¬ ∀ (maxlen : ℕ) (reads : List ReadResult) (b : Buf), 2 ≤ maxlen →
    (readLine maxlen reads b).ret ≠ -1 → Returned maxlen reads b (readLine maxlen reads b) := by
  intro h
  have hret := (h 499 [.byte 97, .byte 98] (fun _ => 0) (by omega) (by simp [readLine, readLoop])).ret
  simp [readLine, readLoop] at hret

/-! ### The reply in `send_command` -/

/-- `send_command` writes in front of `recvbuf` exactly when `read` fails. -/
theorem recvReply_eq_none_iff : recvReply reads b = none ↔ Fails (MAXLEN - 1) reads := by
  unfold recvReply
  dsimp only
  rcases readLine_cases (show 2 ≤ MAXLEN - 1 by decide) reads b with
    ⟨hfails, h⟩ | ⟨rfl, h⟩ | ⟨hfails, n, bs, h, -⟩
  · rw [h]
    exact iff_of_true rfl hfails
  · rw [h]
    refine iff_of_false (by simp) ?_
    rintro ⟨-, hstop⟩
    cases hstop
  · rw [h]
    exact iff_of_false (by simp) hfails

/-- Otherwise the string in `recvbuf` is the line that was read, although the number may be too great. -/
theorem recvReply_text {b' : Buf} (h : recvReply reads b = some b') :
    cstr (read b' 0 MAXLEN) = cstr (read (readLine (MAXLEN - 1) reads b).array 0
      (readLine (MAXLEN - 1) reads b).stored) := by
  unfold recvReply at h
  dsimp only at h
  rcases readLine_cases (show 2 ≤ MAXLEN - 1 by decide) reads b with
    ⟨-, hr⟩ | ⟨rfl, hr⟩ | ⟨-, n, bs, hr, -, hlt, hle, -⟩
  · rw [hr] at h
    cases h
  · rw [hr] at h ⊢
    cases h
    exact cstr_read (k := 0) (by decide) rfl
  · rw [hr, if_pos (by dsimp only; omega)] at h
    cases h
    rw [hr, read_write_append, Int.toNat_natCast]
    -- the second NUL is written on the first one or behind it
    have hline : read (write (write b 0 (bs ++ [0])) n [0]) 0 bs.length = bs := by
      rw [read_write_disjoint (Or.inl (by omega)), read_write_append]
    have hnul : write (write b 0 (bs ++ [0])) n [0] bs.length = 0 := by
      rcases Nat.eq_or_lt_of_le hle with rfl | hlt
      · exact write_apply (b := write b 0 (bs ++ [0])) (i := 0) (by simp)
      · rw [write_of_lt hlt, write_apply_nul]
    rw [cstr_read (show bs.length < MAXLEN by omega) hnul, hline]

end Protocoale.Lab11

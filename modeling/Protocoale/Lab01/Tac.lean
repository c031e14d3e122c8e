import Mathlib.Tactic

/-!
The lines of a file in reverse order (`tac.c` of the first laboratory). The loop reads the file backwards,
one byte at a time, and prints a line when it has found the newline before it. When it has passed the
start of the file its `lseek` fails, and the two reads that are left go forward from where the file
position happens to be: the first line is printed when one of them says so (`tac_iff`).
-/

namespace Protocoale.Lab01

/-- The state of the loop: the position in the file, the variables, and what has been written. -/
structure State where
  pos : ℕ
  i : ℕ
  stop : ℤ
  out : List UInt8

/-- `lseek(source, offset, SEEK_SET)`, which fails on a negative offset. -/
def seekSet (pos : ℕ) (offset : ℤ) : ℕ := if 0 ≤ offset then offset.toNat else pos

/-- `lseek(source, -i, SEEK_END)`, which fails before the start of the file. -/
def seekEnd (content : List UInt8) (pos i : ℕ) : ℕ := if i ≤ content.length then content.length - i else pos

/-- `read(source, buf, count)`; a negative count is a very large one. -/
def readAt (content : List UInt8) (pos : ℕ) (count : ℤ) : List UInt8 :=
  if 0 ≤ count then (content.drop pos).take count.toNat else content.drop pos

/-- `print_from_start_to_stop`, and the assignment to `stop` behind its calls. It is not defined when more is
read than the buffer holds. -/
def State.print (content : List UInt8) (s : State) (start : ℤ) : Option State :=
  let pos := seekSet s.pos start
  let buf := readAt content pos (s.stop - start + 1)
  if buf.length ≤ 1024 then
    some { s with pos := pos + buf.length, stop := content.length - s.i + 1, out := s.out ++ buf }
  else none

/-- The body of the loop, for the byte that was read. -/
def State.body (content : List UInt8) (s : State) (c : UInt8) : Option State :=
  let s := { s with pos := s.pos + 1 }
  let size : ℤ := content.length
  let printed :=
    if c = 10 then s.print content (size - s.i + 2)
    else if size - s.i + 3 = 0 then s.print content (size - s.i + 3)
    else some s
  printed.map fun s => { s with pos := seekEnd content s.pos s.i, i := s.i + 1 }

/-- The loop, with the number of iterations for which `i <= size + 3` still holds: what has been written at
its end. -/
def loop (content : List UInt8) : ℕ → State → Option (List UInt8)
  | 0, s => some s.out
  | k + 1, s =>
    match content[s.pos]? with
    | none => some s.out
    | some c => (s.body content c).bind (loop content k)

/-- `main`: what is written for a file. A size with `size + 3` above the largest `int` is left out. -/
def tac (content : List UInt8) : Option (List UInt8) :=
  let size := content.length
  if size + 3 < 2 ^ 31 then
    loop content (size + 2)
      { pos := seekEnd content size 2, i := 2, stop := if 2 ≤ size then size - 1 else 0, out := [] }
  else none

/-! ### Lines -/

/-- The lines of a file, each with its newline. -/
def lines : List UInt8 → List (List UInt8)
  | [] => []
  | c :: content =>
    if c = 10 then [c] :: lines content
    else
      match lines content with
      | [] => [[c]]
      | l :: ls => (c :: l) :: ls

/-- The first line. -/
def line (content : List UInt8) : List UInt8 := (lines content).headD []

/-- What is ahead of the position when the loop has passed the start of the file: the file without its first
byte, or what comes behind its second line when the first one is empty. -/
def ahead : List UInt8 → List UInt8
  | [] => []
  | c :: content => if c = 10 then content.drop (line content).length else content

/-- The two reads at the end have the first line printed once, and nothing else: neither of them finds a
newline, or the first one does and the byte behind the first line is no newline with something behind it,
or the second one does and the file goes on with just the bytes of its first line. -/
def Ends (content : List UInt8) : Prop :=
  (∃ a b rest, ahead content = a :: b :: rest ∧ a ≠ 10 ∧ b ≠ 10) ∨
  (∃ rest, ahead content = 10 :: rest ∧
    ∀ rest, content.drop (line content).length = 10 :: rest → rest = []) ∨
  ∃ a, ahead content = a :: 10 :: line content ∧ a ≠ 10

section

variable {content t buf out : List UInt8} {c : UInt8} {s : State} {i j k n pos : ℕ} {start stop : ℤ}

lemma lines_newline (t : List UInt8) : lines (10 :: t) = [10] :: lines t := if_pos rfl

lemma lines_cons (h : c ≠ 10) (t : List UInt8) : lines (c :: t) = (c :: line t) :: (lines t).tail := by
  rw [lines, if_neg h, line]
  cases lines t with
  | nil => rfl
  | cons l ls => rfl

/-- The first line and the others. -/
lemma line_append (t : List UInt8) : line t ++ (lines t).tail.flatten = t := by
  induction t with
  | nil => rfl
  | cons c t ih =>
    by_cases h : c = 10
    · subst h
      have hflat : (lines t).flatten = line t ++ (lines t).tail.flatten := by
        unfold line
        cases lines t with
        | nil => rfl
        | cons l ls => rfl
      rw [line, lines_newline, List.headD_cons, List.tail_cons, hflat, ih]
      rfl
    · rw [line, lines_cons h, List.headD_cons, List.tail_cons, List.cons_append, ih]

lemma take_line (t : List UInt8) : t.take (line t).length = line t :=
  (List.prefix_iff_eq_take.mp ⟨_, line_append t⟩).symm

lemma line_ne_nil (h : content ≠ []) : line content ≠ [] := by
  obtain ⟨c, t, rfl⟩ := List.exists_cons_of_ne_nil h
  by_cases hc : c = 10
  · subst hc
    rw [line, lines_newline]
    exact List.cons_ne_nil _ _
  · rw [line, lines_cons hc]
    exact List.cons_ne_nil _ _

/-- The lines in reverse order, and the first one after the others. -/
lemma reverse_lines (t : List UInt8) : (lines t).tail.reverse.flatten ++ line t = (lines t).reverse.flatten := by
  unfold line
  cases lines t with
  | nil => rfl
  | cons l ls => simp

/-- No line is longer than the buffer. -/
def Short (content : List UInt8) : Prop := ∀ l ∈ lines content, l.length ≤ 1024

lemma Short.tail (h : Short (c :: t)) : Short t := by
  intro l hl
  by_cases hc : c = 10
  · subst hc
    exact h l (by rw [lines_newline]; exact List.mem_cons_of_mem _ hl)
  · unfold Short at h
    rw [lines_cons hc, List.forall_mem_cons] at h
    obtain ⟨hhead, htail⟩ := h
    unfold line at hhead
    cases hlines : lines t with
    | nil =>
      rw [hlines] at hl
      cases hl
    | cons l' ls =>
      rw [hlines] at hl hhead htail
      rcases List.mem_cons.mp hl with rfl | hl
      · exact le_trans (Nat.le_succ _) hhead
      · exact htail l hl

lemma Short.drop (h : Short content) (j : ℕ) : Short (content.drop j) := by
  induction j generalizing content with
  | zero => exact h
  | succ j ih =>
    cases content with
    | nil => exact h
    | cons c t => exact ih h.tail

lemma Short.line (h : Short content) : (line content).length ≤ 1024 := by
  unfold Lab01.line
  cases hlines : lines content with
  | nil => exact Nat.zero_le _
  | cons l ls => exact h l (hlines ▸ List.mem_cons_self)

/-- Lines of at most 1023 bytes before the newline. -/
lemma short_of_takeWhile (h : ∀ l ∈ lines content, (l.takeWhile (· ≠ 10)).length ≤ 1023) : Short content := by
  have hlen : ∀ content, ∀ l ∈ lines content, l.length ≤ (l.takeWhile (· ≠ 10)).length + 1 := by
    intro content
    induction content with
    | nil => exact fun l hl => absurd hl List.not_mem_nil
    | cons c t ih =>
      by_cases hc : c = 10
      · subst hc
        rw [lines_newline, List.forall_mem_cons]
        exact ⟨by decide, ih⟩
      · rw [lines_cons hc, List.forall_mem_cons]
        refine ⟨?_, fun l hl => ih l (List.mem_of_mem_tail hl)⟩
        rw [List.takeWhile_cons_of_pos (by simpa using hc), List.length_cons, List.length_cons]
        unfold line
        cases hlines : lines t with
        | nil => simp
        | cons l ls => exact Nat.succ_le_succ (ih l (hlines ▸ List.mem_cons_self))
  intro l hl
  exact le_trans (hlen content l hl) (Nat.succ_le_succ (h l hl))

/-! ### The loop -/

lemma readAt_natCast (content : List UInt8) (pos k : ℕ) : readAt content pos k = (content.drop pos).take k := by
  rw [readAt, if_pos (Int.natCast_nonneg k), Int.toNat_natCast]

/-- A newline: the bytes from `start` to `stop` are written. -/
lemma body_newline (hstart : content.length - s.i + 2 = start)
    (hbuf : readAt content (seekSet (s.pos + 1) start) (s.stop - start + 1) = buf) :
    s.body content 10 = if buf.length ≤ 1024 then some
      { pos := seekEnd content (seekSet (s.pos + 1) start + buf.length) s.i
        i := s.i + 1
        stop := start - 1
        out := s.out ++ buf } else none := by
  subst hbuf hstart
  have hstop : (content.length : ℤ) - s.i + 2 - 1 = content.length - s.i + 1 := by omega
  unfold State.body State.print
  dsimp only
  rw [if_pos rfl, hstop]
  split
  · rfl
  · rfl

/-- Any other byte, in the last iteration. -/
lemma body_start (hc : c ≠ 10) (hi : (content.length : ℤ) - s.i + 3 = 0)
    (hbuf : readAt content 0 (s.stop + 1) = buf) (hlen : buf.length ≤ 1024) :
    (s.body content c).map State.out = some (s.out ++ buf) := by
  subst hbuf
  unfold State.body State.print
  dsimp only
  rw [if_neg hc, if_pos hi, hi, show seekSet (s.pos + 1) 0 = 0 from rfl, sub_zero, if_pos hlen]
  rfl

/-- Any other byte, before it. -/
lemma body_other (hc : c ≠ 10) (hi : (content.length : ℤ) - s.i + 3 ≠ 0) : s.body content c = some
    { s with pos := seekEnd content (s.pos + 1) s.i, i := s.i + 1 } := by
  unfold State.body
  dsimp only
  rw [if_neg hc, if_neg hi]
  rfl

lemma loop_some (h : content[s.pos]? = some c) : loop content (k + 1) s = (s.body content c).bind (loop content k) := by
  rw [loop, h]

lemma loop_none (h : content[s.pos]? = none) : loop content (k + 1) s = some s.out := by
  rw [loop, h]

/-- Before the byte at `j` is read: what is behind it has been written, but for its first line. -/
def before (content : List UInt8) (i j : ℕ) : State where
  pos := j
  i := i
  stop := j + (line (content.drop (j + 1))).length
  out := (lines (content.drop (j + 1))).tail.reverse.flatten

/-- The position after the byte at `j`, or after the line behind it. -/
def behind (content : List UInt8) (j : ℕ) (c : UInt8) : ℕ :=
  if c = 10 then j + 1 + (line (content.drop (j + 1))).length else j + 1

/-- One byte further to the front. -/
lemma body_before (hshort : Short content) (hi : i + j = content.length + 1) (hc : content[j]? = some c) :
    (before content i j).body content c = some
      { pos := seekEnd content (behind content j c) i
        i := i + 1
        stop := j - 1 + (line (content.drop j)).length
        out := (lines (content.drop j)).tail.reverse.flatten } := by
  obtain ⟨hj, hget⟩ := List.getElem?_eq_some_iff.mp hc
  have hdrop : content.drop j = c :: content.drop (j + 1) := by rw [← hget, List.drop_eq_getElem_cons hj]
  have hcast : (i : ℤ) + j = content.length + 1 := by exact_mod_cast hi
  rw [hdrop]
  unfold behind
  by_cases hnl : c = 10
  · subst hnl
    have hstart : (content.length : ℤ) - i + 2 = (j + 1 : ℕ) := by push_cast; omega
    have hbuf : readAt content (seekSet (j + 1) (j + 1 : ℕ))
        (j + (line (content.drop (j + 1))).length - (j + 1 : ℕ) + 1) = line (content.drop (j + 1)) := by
      rw [show (j + (line (content.drop (j + 1))).length - (j + 1 : ℕ) + 1 : ℤ) =
        (line (content.drop (j + 1))).length by push_cast; omega, readAt_natCast]
      exact take_line _
    have hstep := body_newline (s := before content i j) hstart hbuf
    rw [hstep, if_pos (hshort.drop _).line, if_pos rfl, lines_newline, List.tail_cons, ← reverse_lines]
    simp only [before, line, lines_newline, List.headD_cons, List.length_singleton, seekSet]
    congr 2
    push_cast
    omega
  · have hgo : (content.length : ℤ) - i + 3 ≠ 0 := by omega
    rw [body_other hnl hgo, if_neg hnl, line, lines_cons hnl]
    simp only [before, List.tail_cons, List.headD_cons, List.length_cons]
    congr 2
    push_cast
    omega

/-- The loop has passed the start of the file: everything is written but the first line. -/
def passed (content : List UInt8) (c : UInt8) : State where
  pos := behind content 0 c
  i := content.length + 2
  stop := (line content).length - 1
  out := (lines content).tail.reverse.flatten

/-- From any place to the start of the file. -/
lemma loop_before (hshort : Short content) (hi : i + j = content.length + 1) (hj : j < content.length)
    (hc : content[0]? = some c) :
    loop content (k + j + 1) (before content i j) = loop content k (passed content c) := by
  induction j generalizing i with
  | zero =>
    rw [Nat.add_zero, loop_some hc, body_before hshort hi hc, Option.bind_some]
    have hpos : seekEnd content (behind content 0 c) i = behind content 0 c := if_neg (by omega)
    rw [hpos]
    have hstate : (⟨behind content 0 c, i + 1, ((0 : ℕ) : ℤ) - 1 + (line (content.drop 0)).length,
        (lines (content.drop 0)).tail.reverse.flatten⟩ : State) = passed content c := by
      simp only [passed, List.drop_zero, State.mk.injEq, true_and, and_true]
      refine ⟨by omega, ?_⟩
      push_cast
      omega
    rw [hstate]
  | succ j ih =>
    have hc' : content[j + 1]? = some content[j + 1] := List.getElem?_eq_getElem hj
    have hpos : seekEnd content (behind content (j + 1) content[j + 1]) i = j := by
      rw [seekEnd, if_pos (by omega)]
      omega
    have hstate : (⟨j, i + 1, ((j + 1 : ℕ) : ℤ) - 1 + (line (content.drop (j + 1))).length,
        (lines (content.drop (j + 1))).tail.reverse.flatten⟩ : State) = before content (i + 1) j := by
      simp only [before, State.mk.injEq, true_and, and_true]
      push_cast
      omega
    rw [← Nat.add_assoc, loop_some hc', body_before hshort hi hc', Option.bind_some, hpos, hstate]
    exact ih (by omega) (by omega)

/-- The first iteration goes back by two bytes, and leaves the last line to the others. -/
lemma loop_first (hn : 2 ≤ content.length) :
    loop content (k + 1) ⟨content.length - 2, 2, content.length - 1, []⟩ =
      loop content k (before content 3 (content.length - 2)) := by
  have hlt : content.length - 2 < content.length := by omega
  have hc := List.getElem?_eq_getElem hlt
  have hlast : line (content.drop (content.length - 2 + 1)) = content.drop (content.length - 2 + 1) ∧
      (lines (content.drop (content.length - 2 + 1))).tail = [] := by
    obtain ⟨x, hx⟩ := List.length_eq_one_iff.mp
      (show (content.drop (content.length - 2 + 1)).length = 1 by rw [List.length_drop]; omega)
    rw [hx]
    by_cases h : x = 10
    · subst h
      exact ⟨rfl, rfl⟩
    · rw [line, lines_cons h]
      exact ⟨rfl, rfl⟩
  have hseek : ∀ pos, seekEnd content pos 2 = content.length - 2 := fun pos => if_pos hn
  have hstate : (⟨content.length - 2, 3, content.length - 1, []⟩ : State) =
      before content 3 (content.length - 2) := by
    rw [before, hlast.1, hlast.2, List.length_drop]
    simp only [List.reverse_nil, List.flatten_nil, State.mk.injEq, true_and, and_true]
    omega
  rw [loop_some hc]
  by_cases hnl : content[content.length - 2] = 10
  · have hbuf : readAt content (seekSet (content.length - 2 + 1) content.length)
        ((content.length : ℤ) - 1 - content.length + 1) = [] := by
      rw [show (content.length : ℤ) - 1 - content.length + 1 = (0 : ℕ) by push_cast; omega, readAt_natCast]
      rfl
    have hstep := body_newline (s := ⟨content.length - 2, 2, content.length - 1, []⟩)
      (by push_cast; omega) hbuf
    rw [hnl, hstep, if_pos (by decide), Option.bind_some, hseek, List.append_nil, hstate]
  · rw [body_other hnl (by push_cast; omega), Option.bind_some, hseek, hstate]

/-! ### The two reads at the end -/

lemma loop_one (h : content[s.pos]? = some c) : loop content 1 s = (s.body content c).map State.out := by
  rw [loop_some h]
  cases s.body content c <;> rfl

/-- What is at the position, and behind it. -/
lemma getElem?_ahead {rest : List UInt8} (h : content.drop pos = c :: rest) :
    content[pos]? = some c ∧ content.drop (pos + 1) = rest := by
  refine ⟨?_, ?_⟩
  · rw [← List.head?_drop, h]
    rfl
  · rw [← List.drop_drop, h]
    rfl

lemma getElem?_end (h : content.drop pos = []) : content[pos]? = none := by
  rw [← List.head?_drop, h]
  rfl

/-- The states with two iterations left. -/
structure Last (content : List UInt8) (s : State) : Prop where
  i : s.i = content.length + 2
  stop : s.stop = (line content).length - 1

/-- A newline is read: the first line is written, and one byte more when the file goes on behind it with a
newline and something else. -/
lemma loop_newline (hs : Last content s) (hshort : Short content) {rest : List UInt8}
    (hpos : content.drop s.pos = 10 :: rest) :
    loop content 2 s = some (s.out ++ line content ++
      if content[(line content).length]? = some 10 then (content.drop ((line content).length + 1)).take 1
      else []) := by
  have hstart : (content.length : ℤ) - s.i + 2 = 0 := by rw [hs.i]; push_cast; omega
  have hbuf : readAt content (seekSet (s.pos + 1) 0) (s.stop - 0 + 1) = line content := by
    rw [hs.stop, sub_zero, sub_add_cancel, readAt_natCast]
    exact take_line content
  have hseek : seekEnd content (seekSet (s.pos + 1) 0 + (line content).length) s.i = (line content).length := by
    rw [seekEnd, if_neg (by rw [hs.i]; omega)]
    exact Nat.zero_add _
  rw [loop_some (getElem?_ahead hpos).1, body_newline hstart hbuf, if_pos hshort.line, Option.bind_some, hseek]
  match hnext : content[(line content).length]? with
  | none =>
    rw [loop_none hnext, if_neg (by simp), List.append_nil]
  | some c =>
    rw [loop_one hnext]
    by_cases hc : c = 10
    · subst hc
      have hbuf' : readAt content (seekSet ((line content).length + 1) (-1)) (0 - 1 - -1 + 1) =
          (content.drop ((line content).length + 1)).take 1 := readAt_natCast content _ 1
      have hle : ((content.drop ((line content).length + 1)).take 1).length ≤ 1024 :=
        le_trans (List.length_take_le _ _) (by norm_num)
      rw [body_newline (by rw [hs.i]; push_cast; omega) hbuf', if_pos hle, if_pos rfl]
      rfl
    · have hbuf' : readAt content 0 (0 - 1 + 1) = [] := readAt_natCast content 0 0
      rw [body_start hc (by rw [hs.i]; push_cast; omega) hbuf' (by decide), if_neg (by simpa using hc)]

/-- Another byte is read: what happens depends on the one behind it. -/
lemma loop_other (hs : Last content s) (hshort : Short content) {rest : List UInt8}
    (hpos : content.drop s.pos = c :: rest) (hc : c ≠ 10) :
    loop content 2 s = match rest with
      | [] => some s.out
      | b :: rest =>
        if b = 10 then
          if (rest.take ((line content).length + 1)).length ≤ 1024 then
            some (s.out ++ rest.take ((line content).length + 1))
          else none
        else some (s.out ++ line content) := by
  obtain ⟨hget, hdrop⟩ := getElem?_ahead hpos
  have hseek : seekEnd content (s.pos + 1) s.i = s.pos + 1 := if_neg (by rw [hs.i]; omega)
  rw [loop_some hget, body_other hc (by rw [hs.i]; push_cast; omega), Option.bind_some, hseek]
  match rest with
  | [] => rw [loop_none (getElem?_end hdrop)]
  | b :: rest =>
    obtain ⟨hget', hdrop'⟩ := getElem?_ahead hdrop
    rw [loop_one hget']
    dsimp only
    by_cases hb : b = 10
    · subst hb
      have hbuf : readAt content (seekSet (s.pos + 1 + 1) (-1)) (s.stop - -1 + 1) =
          rest.take ((line content).length + 1) := by
        rw [hs.stop, show ((line content).length : ℤ) - 1 - -1 + 1 = ((line content).length + 1 : ℕ) by push_cast; omega,
          readAt_natCast, ← hdrop']
        rfl
      rw [body_newline (by rw [hs.i]; push_cast; omega) hbuf, if_pos rfl]
      split
      · rfl
      · rfl
    · have hbuf : readAt content 0 (s.stop + 1) = line content := by
        rw [hs.stop, sub_add_cancel, readAt_natCast]
        exact take_line content
      have hi : (content.length : ℤ) - (s.i + 1 : ℕ) + 3 = 0 := by rw [hs.i]; push_cast; omega
      rw [if_neg hb]
      exact body_start hb hi hbuf hshort.line

/-- A newline at a place, and what is one byte long behind it. -/
lemma next_eq_nil_iff (content : List UInt8) (n : ℕ) :
    (if content[n]? = some 10 then (content.drop (n + 1)).take 1 else []) = [] ↔
      ∀ rest, content.drop n = 10 :: rest → rest = [] := by
  match hdrop : content.drop n with
  | [] => simp [getElem?_end hdrop]
  | b :: v =>
    obtain ⟨hget, hdrop'⟩ := getElem?_ahead hdrop
    rw [hget, hdrop']
    by_cases hb : b = 10
    · simp [hb]
    · simp [hb]

/-- One byte more than a line is read, and it is the line. -/
lemma take_succ_eq_iff {l v : List UInt8} : v.take (l.length + 1) = l ↔ v = l := by
  constructor
  · intro h
    have hlen := congrArg List.length h
    rw [List.length_take] at hlen
    rwa [List.take_of_length_le (by omega)] at h
  · rintro rfl
    exact List.take_of_length_le (Nat.le_succ _)

/-- The same, with the buffer. -/
lemma write_take_iff {l v : List UInt8} (hl : l.length ≤ 1024) :
    (if (v.take (l.length + 1)).length ≤ 1024 then some (out ++ v.take (l.length + 1)) else none) =
      some (out ++ l) ↔ v = l := by
  rw [← take_succ_eq_iff]
  split
  · rw [Option.some_inj, List.append_right_inj]
  · next hlong =>
    refine iff_of_false (by simp) fun h => hlong ?_
    rw [h]
    exact hl

/-- The two reads write the first line exactly when `Ends` says so. -/
lemma loop_two_iff (hs : Last content s) (hshort : Short content) (hne : content ≠ [])
    (hpos : content.drop s.pos = ahead content) :
    loop content 2 s = some (s.out ++ line content) ↔ Ends content := by
  have hline := line_ne_nil hne
  unfold Ends
  match hahead : ahead content with
  | [] =>
    rw [hahead] at hpos
    rw [loop_none (getElem?_end hpos)]
    simpa using hline
  | a :: rest =>
    rw [hahead] at hpos
    by_cases ha : a = 10
    · subst ha
      rw [loop_newline hs hshort hpos, Option.some_inj, List.append_right_eq_self, next_eq_nil_iff]
      simp
    · rw [loop_other hs hshort hpos ha]
      match rest with
      | [] => simpa [ha] using hline
      | b :: v =>
        dsimp only
        by_cases hb : b = 10
        · subst hb
          rw [if_pos rfl, write_take_iff hshort.line]
          simp [ha]
        · rw [if_neg hb]
          simp [ha, hb]

/-- A file of one byte has nothing ahead. -/
lemma ahead_singleton (x : UInt8) : ahead [x] = [] := by
  rw [ahead]
  split
  · exact List.drop_nil
  · rfl

/-- What is ahead of the position when the loop has passed the start. -/
lemma drop_passed (t : List UInt8) : (c :: t).drop (passed (c :: t) c).pos = ahead (c :: t) := by
  rw [ahead]
  unfold passed behind
  by_cases hc : c = 10
  · rw [if_pos hc, if_pos hc, Nat.zero_add, ← List.drop_drop]
    rfl
  · rw [if_neg hc, if_neg hc]
    rfl

/-- **The reversal.** For a file whose lines have at most 1023 bytes before the newline, the program ends and
writes the lines in reverse order, each once and complete, exactly when the file is empty, or its size fits
and the two reads at the end have the first line printed. -/
theorem tac_iff (content : List UInt8) (hlines : ∀ l ∈ lines content, (l.takeWhile (· ≠ 10)).length ≤ 1023) :
    tac content = some (lines content).reverse.flatten ↔
      content = [] ∨ content.length + 3 < 2 ^ 31 ∧ Ends content := by
  have hshort := short_of_takeWhile hlines
  match content with
  | [] => exact iff_of_true rfl (Or.inl rfl)
  | [x] =>
    refine iff_of_false ?_ ?_
    · intro h
      have hempty : tac [x] = some [] := rfl
      rw [hempty, ← reverse_lines] at h
      exact line_ne_nil (List.cons_ne_nil x []) (List.append_eq_nil_iff.mp (Option.some.inj h).symm).2
    · rintro (h | ⟨-, h⟩)
      · cases h
      · unfold Ends at h
        rw [ahead_singleton] at h
        simp at h
  | c :: d :: t =>
    have hn : 2 ≤ (c :: d :: t).length := by simp
    have hpos := drop_passed (c := c) (d :: t)
    generalize hcontent : c :: d :: t = content at *
    have hne : content ≠ [] := by
      rw [← hcontent]
      exact List.cons_ne_nil _ _
    have hhead : content[0]? = some c := by
      rw [← hcontent]
      rfl
    by_cases hsize : content.length + 3 < 2 ^ 31
    · have hseek : seekEnd content content.length 2 = content.length - 2 := if_pos hn
      have hrun : tac content = loop content 2 (passed content c) := by
        rw [tac, if_pos hsize, if_pos hn, hseek, loop_first hn,
          ← loop_before hshort (show 3 + (content.length - 2) = content.length + 1 by omega) (by omega) hhead]
        congr 1
        omega
      rw [hrun, ← reverse_lines, or_iff_right hne, and_iff_right hsize]
      exact loop_two_iff ⟨rfl, rfl⟩ hshort hne hpos
    · refine iff_of_false ?_ ?_
      · rw [tac, if_neg hsize]
        exact Option.some_ne_none _ |>.symm
      · rintro (h | h)
        · exact hne h
        · exact hsize h.1

lemma forall_lines_abc : ∀ l ∈ lines [97, 98, 99], (l.takeWhile (· ≠ 10)).length ≤ 1023 := by
  rw [show lines [97, 98, 99] = [[97, 98, 99]] from rfl, List.forall_mem_singleton]
  decide

theorem tac_iff_abc : tac [97, 98, 99] = some (lines [97, 98, 99]).reverse.flatten ↔
    [97, 98, 99] = ([] : List UInt8) ∨ [(97 : UInt8), 98, 99].length + 3 < 2 ^ 31 ∧ Ends [97, 98, 99] :=
  tac_iff _ forall_lines_abc

/-- Nothing is written for a file of one byte. -/
theorem not_tac : ¬ ∀ content, (∀ l ∈ lines content, (l.takeWhile (· ≠ 10)).length ≤ 1023) →
    tac content = some (lines content).reverse.flatten := by
  intro h
  have hlines : ∀ l ∈ lines [97], (l.takeWhile (· ≠ 10)).length ≤ 1023 := by
    rw [show lines [97] = [[97]] from rfl, List.forall_mem_singleton]
    decide
  have hempty : tac [97] = some [] := rfl
  have hone := h [97] hlines
  rw [hempty] at hone
  cases hone

end

end Protocoale.Lab01

import Mathlib.Data.List.TakeWhile
import Mathlib.Tactic

/-!
Mail as it is transferred. The data of a mail are lines that end in CR LF; the line with a single dot ends
them, and a dot that starts any other line is taken away. A message of several parts has lines that delimit
the parts, and a part has header lines, an empty line and a body.

Only CR and LF together end a line; each of them alone is a character of one.
-/

namespace Protocoale.Lib.Mail

/-! ### Lines -/

/-- The end of a line. -/
abbrev CRLF : List UInt8 := [13, 10]

/-- The lines of a text, without the CR LF between them. -/
def lines : List UInt8 → List (List UInt8)
  | [] => [[]]
  | 13 :: 10 :: s => [] :: lines s
  | c :: s => (lines s).modifyHead (c :: ·)

/-- The text with these lines. -/
def join (ls : List (List UInt8)) : List UInt8 := CRLF.intercalate ls

section Lines

variable {s t l : List UInt8} {ls : List (List UInt8)} {c : UInt8}

lemma lines_crlf (s : List UInt8) : lines (13 :: 10 :: s) = [] :: lines s := by rw [lines]

lemma lines_cons (h : c = 13 → s.head? ≠ some 10) : lines (c :: s) = (lines s).modifyHead (c :: ·) := by
  rw [lines]
  rintro s' rfl rfl
  exact h rfl rfl

lemma lines_ne_nil (s : List UInt8) : lines s ≠ [] := by
  induction s using lines.induct with
  | case1 => exact List.cons_ne_nil _ _
  | case2 s _ => rw [lines_crlf]; exact List.cons_ne_nil _ _
  | case3 c s _ ih => rw [lines]; simpa using ih; assumption

/-- Two texts with the end of a line between them. -/
lemma lines_append (s t : List UInt8) : lines (s ++ CRLF ++ t) = lines s ++ lines t := by
  induction s using lines.induct with
  | case1 => exact lines_crlf t
  | case2 s ih =>
    have hcons : lines (13 :: 10 :: s ++ CRLF ++ t) = [] :: lines (s ++ CRLF ++ t) := lines_crlf _
    rw [hcons, ih, lines_crlf, List.cons_append]
  | case3 c s hs ih =>
    have hc : c = 13 → s.head? ≠ some 10 := by
      rintro rfl hhead
      obtain ⟨s', rfl⟩ := List.head?_eq_some_iff.mp hhead
      exact hs s' rfl rfl
    have hc' : c = 13 → (s ++ CRLF ++ t).head? ≠ some 10 := by
      intro h
      cases s with
      | nil => simp
      | cons d s => simpa using hc h
    obtain ⟨l, ls, hl⟩ := List.exists_cons_of_ne_nil (lines_ne_nil s)
    rw [lines_cons hc, List.cons_append, List.cons_append, lines_cons hc', ih, hl]
    rfl

lemma lines_end (s : List UInt8) : lines (s ++ CRLF) = lines s ++ [[]] := by
  rw [← List.append_nil (s ++ CRLF), lines_append]
  rfl

lemma join_cons (h : ls ≠ []) : join (l :: ls) = l ++ CRLF ++ join ls := by
  obtain ⟨m, ms, rfl⟩ := List.exists_cons_of_ne_nil h
  exact List.intercalate_cons_cons

lemma join_singleton (l : List UInt8) : join [l] = l := List.intercalate_singleton

/-- The lines joined give the text back. -/
lemma join_lines (s : List UInt8) : join (lines s) = s := by
  induction s using lines.induct with
  | case1 => rfl
  | case2 s ih =>
    rw [lines_crlf, join_cons (lines_ne_nil s), ih]
    rfl
  | case3 c s hs ih =>
    rw [lines]
    · obtain ⟨l, ls, hl⟩ := List.exists_cons_of_ne_nil (lines_ne_nil s)
      rw [hl] at ih ⊢
      rw [List.modifyHead_cons, ← ih]
      cases ls with
      | nil => rfl
      | cons m ms => rw [join_cons (List.cons_ne_nil _ _), join_cons (List.cons_ne_nil _ _)]; rfl
    · exact hs

/-- A text of one line. -/
def IsLine (l : List UInt8) : Prop := lines l = [l]

/-- The lines of a text are its lines. -/
lemma isLine_of_mem (h : l ∈ lines s) : IsLine l := by
  induction s using lines.induct generalizing l with
  | case1 =>
    rw [List.mem_singleton.mp h]
    rfl
  | case2 s ih =>
    rw [lines_crlf] at h
    rcases List.mem_cons.mp h with rfl | h
    · rfl
    · exact ih h
  | case3 c s hs ih =>
    obtain ⟨m, ms, hm⟩ := List.exists_cons_of_ne_nil (lines_ne_nil s)
    rw [lines.eq_3 _ _ hs, hm, List.modifyHead_cons] at h
    rcases List.mem_cons.mp h with rfl | h
    · have hline : IsLine m := ih (by rw [hm]; exact List.mem_cons_self)
      have hhead : c = 13 → m.head? ≠ some 10 := by
        rintro rfl hhead
        obtain ⟨m', rfl⟩ := List.head?_eq_some_iff.mp hhead
        have hjoin := join_lines s
        rw [hm] at hjoin
        cases ms with
        | nil => exact hs m' rfl (by rw [← hjoin]; exact join_singleton _)
        | cons m₁ ms => exact hs _ rfl (by rw [← hjoin, join_cons (List.cons_ne_nil _ _)]; rfl)
      rw [IsLine, lines_cons hhead, hline]
      rfl
    · exact ih (by rw [hm]; exact List.mem_cons_of_mem _ h)

/-- Joining lines and taking the text apart again. -/
lemma lines_join (h : ls ≠ []) (hls : ∀ l ∈ ls, IsLine l) : lines (join ls) = ls := by
  induction ls with
  | nil => exact absurd rfl h
  | cons l ls ih =>
    obtain ⟨hl, hls⟩ := List.forall_mem_cons.mp hls
    by_cases hnil : ls = []
    · subst hnil
      rw [join_singleton]
      exact hl
    · rw [join_cons hnil, lines_append, ih hnil hls, hl]
      rfl

lemma isLine_cons : IsLine (c :: l) ↔ (c = 13 → l.head? ≠ some 10) ∧ IsLine l := by
  by_cases hc : c = 13 ∧ l.head? = some 10
  · obtain ⟨rfl, hhead⟩ := hc
    refine ⟨fun h => ?_, fun h => absurd hhead (h.1 rfl)⟩
    obtain ⟨l, rfl⟩ := List.head?_eq_some_iff.mp hhead
    rw [IsLine, lines_crlf] at h
    cases h
  · have hc' : c = 13 → l.head? ≠ some 10 := by simpa using hc
    obtain ⟨m, ms, hm⟩ := List.exists_cons_of_ne_nil (lines_ne_nil l)
    rw [IsLine, IsLine, lines_cons hc', hm, List.modifyHead_cons]
    simpa using fun _ _ => hc'

lemma IsLine.append_left (h : IsLine l) (hs : 13 ∉ s) : IsLine (s ++ l) := by
  induction s with
  | nil => exact h
  | cons c s ih =>
    obtain ⟨hc, hs⟩ := List.ne_and_not_mem_of_not_mem_cons hs
    exact isLine_cons.mpr ⟨fun h => absurd h.symm hc, ih hs⟩

lemma IsLine.append_right (h : IsLine l) (hs : IsLine s) (hhead : s.head? ≠ some 10) : IsLine (l ++ s) := by
  induction l with
  | nil => exact hs
  | cons c l ih =>
    obtain ⟨hc, hl⟩ := isLine_cons.mp h
    refine isLine_cons.mpr ⟨fun hcr => ?_, ih hl⟩
    cases l with
    | nil => exact hhead
    | cons c' l => exact hc hcr

lemma IsLine.take (h : IsLine l) (n : ℕ) : IsLine (l.take n) := by
  induction l generalizing n with
  | nil => simpa using h
  | cons c l ih =>
    obtain ⟨hc, hl⟩ := isLine_cons.mp h
    cases n with
    | zero => rfl
    | succ n =>
      refine isLine_cons.mpr ⟨fun hcr => ?_, ih hl n⟩
      cases n with
      | zero => simp
      | succ n =>
        cases l with
        | nil => simp
        | cons c' l => exact hc hcr

/-- The last character of a text is the last one of its last line. -/
lemma getLast?_of_lines (h : lines s = ls ++ [l ++ [c]]) : s.getLast? = some c := by
  rw [← join_lines s, h]
  clear h
  induction ls with
  | nil => rw [List.nil_append, join_singleton, List.getLast?_concat]
  | cons m ms ih =>
    rw [List.cons_append, join_cons (by simp), List.getLast?_append, ih]
    rfl

/-- Lines before the last one. -/
lemma lines_flatMap (hls : ∀ l ∈ ls, IsLine l) (s : List UInt8) :
    lines (ls.flatMap (· ++ CRLF) ++ s) = ls ++ lines s := by
  induction ls with
  | nil => rfl
  | cons l ls ih =>
    obtain ⟨hl, hls⟩ := List.forall_mem_cons.mp hls
    rw [List.flatMap_cons, List.append_assoc, lines_append, ih hls, hl]
    rfl

end Lines

/-! ### The data -/

abbrev DOT : UInt8 := 46

/-- The dot that starts a line is taken away. -/
def unstuff (l : List UInt8) : List UInt8 := if l.head? = some DOT then l.tail else l

/-- The lines of a mail, when the line with a single dot ends what was sent. -/
def data (wire : List UInt8) : Option (List (List UInt8)) :=
  let ls := (lines wire).takeWhile (· ≠ [DOT])
  if lines wire = ls ++ [[DOT], []] then some (ls.map unstuff) else none

section Data

variable {wire l : List UInt8} {ls ms msg : List (List UInt8)}

lemma IsLine.unstuff (h : IsLine l) : IsLine (unstuff l) := by
  unfold Mail.unstuff
  split
  · cases l with
    | nil => exact h
    | cons c l => exact (isLine_cons.mp h).2
  · exact h

lemma unstuff_eq_self : unstuff l = l ↔ l.head? ≠ some DOT := by
  unfold unstuff
  cases l with
  | nil => simp
  | cons c l =>
    by_cases hc : c = DOT
    · simp [hc]
    · simp [hc]

lemma map_unstuff_eq_self : ls.map unstuff = ls ↔ ∀ l ∈ ls, l.head? ≠ some DOT := by
  have hid : ls.map unstuff = ls ↔ ls.map unstuff = ls.map id := by rw [List.map_id]
  rw [hid, List.map_inj_left]
  exact forall₂_congr fun l _ => unstuff_eq_self

lemma takeWhile_dot (h : [DOT] ∉ ls) : (ls ++ [DOT] :: ms).takeWhile (· ≠ [DOT]) = ls := by
  have hls : ∀ l ∈ ls, decide (l ≠ [DOT]) = true := fun l hl => decide_eq_true (ne_of_mem_of_not_mem hl h)
  rw [List.takeWhile_append_of_pos hls, List.takeWhile_cons_of_neg (by simp), List.append_nil]

lemma data_eq_some_iff :
    data wire = some msg ↔ ∃ ls, lines wire = ls ++ [[DOT], []] ∧ [DOT] ∉ ls ∧ msg = ls.map unstuff := by
  unfold data
  constructor
  · intro h
    dsimp only at h
    split at h
    case isTrue hls =>
      refine ⟨_, hls, fun hmem => ?_, (Option.some.inj h).symm⟩
      simpa using List.mem_takeWhile_imp hmem
    case isFalse => cases h
  · rintro ⟨ls, hls, hdot, rfl⟩
    have htake : (lines wire).takeWhile (· ≠ [DOT]) = ls := by rw [hls, takeWhile_dot hdot]
    dsimp only
    rw [htake, if_pos hls]

/-- Lines in front that do not start with a dot. -/
lemma data_append {F : List (List UInt8)} (hF : ∀ l ∈ F, l.head? ≠ some DOT) (hwire : lines wire = F ++ ls) :
    data wire = some msg ↔
      ∃ cs, ls = cs ++ [[DOT], []] ∧ [DOT] ∉ cs ∧ msg = F ++ cs.map unstuff := by
  have hdot : [DOT] ∉ F := fun h => hF _ h rfl
  have hmap := map_unstuff_eq_self.mpr hF
  rw [data_eq_some_iff, hwire]
  constructor
  · rintro ⟨ms, heq, hms, rfl⟩
    rcases List.append_eq_append_iff.mp heq with ⟨cs, rfl, rfl⟩ | ⟨cs, rfl, hcs⟩
    · exact ⟨cs, rfl, fun h => hms (List.mem_append_right _ h), by rw [List.map_append, hmap]⟩
    · cases cs with
      | nil =>
        rw [List.append_nil] at hmap ⊢
        exact ⟨[], hcs.symm, List.not_mem_nil, hmap.trans (List.append_nil _).symm⟩
      | cons l cs =>
        rw [List.cons_append, List.cons.injEq] at hcs
        exact absurd (hcs.1 ▸ by simp) hdot
  · rintro ⟨cs, rfl, hcs, rfl⟩
    refine ⟨F ++ cs, (List.append_assoc _ _ _).symm, ?_, ?_⟩
    · rw [List.mem_append, not_or]
      exact ⟨hdot, hcs⟩
    · rw [List.map_append, hmap]

end Data

/-! ### The parts -/

/-- The lines that delimit the parts: the delimiter itself, and only lines that start with it. -/
structure Boundary (delimiter : List UInt8) where
  delims : List UInt8 → Bool
  delims_self : delims delimiter = true
  delimiter_isPrefix : ∀ l, delims l = true → delimiter <+: l

/-- The body of a part, behind its first empty line. -/
def body (part : List (List UInt8)) : List UInt8 := join (part.dropWhile (· ≠ [])).tail

/-- What ends in another character does not have the dot for its last line. -/
lemma lines_ne_of_not_mem {t : List UInt8} (ht : t ≠ []) (hdot : DOT ∉ t) (s : List UInt8)
    (ls : List (List UInt8)) : lines (s ++ t) ≠ ls ++ [[DOT]] := by
  intro h
  have hlast := getLast?_of_lines (l := []) h
  rw [List.getLast?_append_of_ne_nil _ ht] at hlast
  exact hdot (List.mem_of_getLast? hlast)

namespace Boundary

variable {d : List UInt8}

/-- Only the delimiter itself. -/
def exactly (d : List UInt8) : Boundary d where
  delims l := l = d
  delims_self := decide_eq_true rfl
  delimiter_isPrefix l h := by rw [of_decide_eq_true h]

/-- The body of the part behind the delimiter line number `n`, of a mail as it is sent. -/
def part (B : Boundary d) (n : ℕ) (wire : List UInt8) : Option (List UInt8) :=
  (data wire).bind fun msg => (msg.splitOnP B.delims)[n]?.map body

/-- The last line of what was sent is the dot. -/
lemma exists_lines_of_part {B : Boundary d} {n : ℕ} {s x : List UInt8} (h : B.part n (s ++ CRLF) = some x) :
    ∃ ls, lines s = ls ++ [[DOT]] := by
  obtain ⟨msg, hmsg, -⟩ := Option.bind_eq_some_iff.mp h
  obtain ⟨ls, hls, -, -⟩ := data_eq_some_iff.mp hmsg
  have hsplit : ls ++ [[DOT], []] = (ls ++ [[DOT]]) ++ [[]] := by simp
  rw [lines_end, hsplit] at hls
  exact ⟨ls, List.append_cancel_right hls⟩

/-- A line that the ending of the data and the splitting leave alone. -/
def Plain (B : Boundary d) (l : List UInt8) : Prop := l.head? ≠ some DOT ∧ B.delims l = false

instance (B : Boundary d) : DecidablePred B.Plain := fun l => by unfold Plain; infer_instance

variable {B : Boundary d} {wire s l x : List UInt8} {ls cs hs P Q : List (List UInt8)}

lemma not_delims (hne : d ≠ []) (h : l.head? ≠ d.head?) : B.delims l = false := by
  by_contra hl
  obtain ⟨t, rfl⟩ := B.delimiter_isPrefix l (by simpa using hl)
  obtain ⟨c, d', rfl⟩ := List.exists_cons_of_ne_nil hne
  exact h rfl

/-- What stands before the first delimiter. -/
lemma getElem?_zero_splitOnP (ls : List (List UInt8)) :
    (ls.splitOnP B.delims)[0]? = some (ls.takeWhile (! B.delims ·)) := by
  induction ls with
  | nil => rfl
  | cons l ls ih =>
    rw [List.splitOnP_cons_eq_if_modifyHead]
    by_cases hl : B.delims l = true
    · rw [if_pos hl, List.takeWhile_cons_of_neg (by simpa using hl)]
      rfl
    · rw [if_neg hl, List.takeWhile_cons_of_pos (by simpa using hl)]
      simp [ih]

/-- The lines of a mail up to the body of its second part: what stands before the parts, the first part, and
the header lines of the second one. -/
def opening (d : List UInt8) (P Q hs : List (List UInt8)) : List (List UInt8) :=
  P ++ d :: (Q ++ d :: (hs ++ [[]]))

section Opening

variable (hne : d ≠ []) (hdot : d.head? ≠ some DOT) (hP : ∀ l ∈ P, B.Plain l)
  (hQ : ∀ l ∈ Q, B.Plain l) (hhs : ∀ l ∈ hs, B.Plain l) (hbody : [] ∉ hs)
include hne

variable (B) in
lemma plain_nil : B.Plain [] := by
  refine ⟨by simp, not_delims hne ?_⟩
  obtain ⟨c, d', rfl⟩ := List.exists_cons_of_ne_nil hne
  simp

include hdot hP hQ hhs in
lemma head?_of_mem_opening : ∀ l ∈ opening d P Q hs, l.head? ≠ some DOT := by
  simp only [opening, List.mem_append, List.mem_cons, List.not_mem_nil, or_false]
  rintro l (hl | rfl | hl | rfl | hl | rfl)
  · exact (hP l hl).1
  · exact hdot
  · exact (hQ l hl).1
  · exact hdot
  · exact (hhs l hl).1
  · exact (B.plain_nil hne).1

include hP hQ hhs hbody in
/-- The body of the second part ends before the next delimiter. -/
lemma body_opening (cs : List (List UInt8)) :
    ((opening d P Q hs ++ cs).splitOnP B.delims)[2]?.map body = some (join (cs.takeWhile (! B.delims ·))) := by
  have hassoc : opening d P Q hs ++ cs = P ++ d :: (Q ++ d :: ((hs ++ [[]]) ++ cs)) := by
    simp [opening]
  have hall : ∀ l ∈ hs ++ [[]], (! B.delims l) = true := by
    simp only [List.mem_append, List.mem_singleton]
    rintro l (hl | rfl)
    · rw [(hhs l hl).2]
      rfl
    · rw [(B.plain_nil hne).2]
      rfl
  have hheader : ∀ l ∈ hs, decide (l ≠ []) = true := fun l hl => decide_eq_true (ne_of_mem_of_not_mem hl hbody)
  rw [hassoc, List.splitOnP_append_cons_of_forall_mem (fun l hl => (hP l hl).2) _ B.delims_self,
    List.splitOnP_append_cons_of_forall_mem (fun l hl => (hQ l hl).2) _ B.delims_self,
    List.getElem?_cons_succ, List.getElem?_cons_succ, getElem?_zero_splitOnP, List.takeWhile_append_of_pos hall,
    Option.map_some, body, List.append_assoc, List.dropWhile_append_of_pos hheader]
  rfl

include hdot hP hQ hhs hbody in
/-- The body of the second part, of a mail whose lines before it are left alone. -/
lemma part_two (hwire : lines wire = opening d P Q hs ++ ls) :
    B.part 2 wire = some x ↔ ∃ cs, ls = cs ++ [[DOT], []] ∧ [DOT] ∉ cs ∧
      x = join ((cs.map unstuff).takeWhile (! B.delims ·)) := by
  have hhead := head?_of_mem_opening hne hdot hP hQ hhs
  rw [part, Option.bind_eq_some_iff]
  constructor
  · rintro ⟨msg, hmsg, hx⟩
    obtain ⟨cs, rfl, hcs, rfl⟩ := (data_append hhead hwire).mp hmsg
    rw [body_opening hne hP hQ hhs hbody, Option.some.injEq] at hx
    exact ⟨cs, rfl, hcs, hx.symm⟩
  · rintro ⟨cs, hls, hcs, rfl⟩
    exact ⟨_, (data_append hhead hwire).mpr ⟨cs, hls, hcs, rfl⟩, body_opening hne hP hQ hhs hbody _⟩

end Opening

lemma isLine_takeWhile (hcs : ∀ l ∈ cs, IsLine l) :
    ∀ l ∈ (cs.map unstuff).takeWhile (! B.delims ·), IsLine l := by
  intro l hl
  obtain ⟨m, hm, rfl⟩ := List.mem_map.mp ((List.takeWhile_sublist _).subset hl)
  exact (hcs m hm).unstuff

/-- The lines of a text, with dots taken away and up to a delimiter, give the text when nothing was taken away
and there is no delimiter. -/
lemma join_takeWhile_eq_iff (hne : d ≠ []) :
    join (((lines s).map unstuff).takeWhile (! B.delims ·)) = s ↔ ∀ l ∈ lines s, B.Plain l := by
  constructor
  · intro h
    have htake : ((lines s).map unstuff).takeWhile (! B.delims ·) = lines s := by
      by_cases hnil : ((lines s).map unstuff).takeWhile (! B.delims ·) = []
      · rw [hnil] at h
        subst h
        have hplain := (B.plain_nil hne).2
        simp [join, lines, unstuff, hplain] at hnil
      · rw [← lines_join hnil (isLine_takeWhile fun l hl => isLine_of_mem hl), h]
    have hmap : (lines s).map unstuff = lines s := by
      have hpre := List.takeWhile_prefix (! B.delims ·) (l := (lines s).map unstuff)
      rw [htake] at hpre
      exact (hpre.eq_of_length (List.length_map _).symm).symm
    rw [hmap, List.takeWhile_eq_self_iff] at htake
    intro l hl
    exact ⟨map_unstuff_eq_self.mp hmap l hl, by simpa using htake l hl⟩
  · intro h
    have hmap := map_unstuff_eq_self.mpr fun l hl => (h l hl).1
    have htake : (lines s).takeWhile (! B.delims ·) = lines s :=
      List.takeWhile_eq_self_iff.mpr fun l hl => by rw [(h l hl).2]; rfl
    rw [hmap, htake, join_lines]

/-- They do not give the text when its last line is left out. -/
lemma join_takeWhile_ne (hs : lines s = cs ++ [l]) (hl : l ≠ []) :
    join ((cs.map unstuff).takeWhile (! B.delims ·)) ≠ s := by
  intro h
  have hcs : ∀ m ∈ cs, IsLine m := fun m hm => isLine_of_mem (hs ▸ List.mem_append_left _ hm)
  by_cases hnil : (cs.map unstuff).takeWhile (! B.delims ·) = []
  · rw [hnil] at h
    subst h
    cases cs with
    | nil => exact hl (List.cons.inj hs).1.symm
    | cons m cs => simp [join, lines] at hs
  · have hlines := lines_join hnil (isLine_takeWhile hcs)
    rw [h, hs] at hlines
    have hlen := (List.takeWhile_prefix (! B.delims ·) (l := cs.map unstuff)).length_le
    rw [← hlines, List.length_map, List.length_append, List.length_singleton] at hlen
    omega

section Opening

variable (hne : d ≠ []) (hdot : d.head? ≠ some DOT) (hP : ∀ l ∈ P, B.Plain l)
  (hQ : ∀ l ∈ Q, B.Plain l) (hhs : ∀ l ∈ hs, B.Plain l) (hbody : [] ∉ hs)
include hne hdot hP hQ hhs hbody

/-- A mail that ends as it should. -/
lemma part_two_closed (hwire : lines wire = opening d P Q hs ++ (lines s ++ [d, [DOT], []])) :
    B.part 2 wire = some s ↔ ∀ l ∈ lines s, B.Plain l := by
  have hstop : (! B.delims d) = false := by rw [B.delims_self, Bool.not_true]
  have htake : ((lines s ++ [d]).map unstuff).takeWhile (! B.delims ·) =
      ((lines s).map unstuff).takeWhile (! B.delims ·) := by
    rw [List.map_append, List.map_singleton, unstuff_eq_self.mpr hdot, List.takeWhile_append,
      List.takeWhile_cons_of_neg (by simpa using hstop), List.append_nil, ite_eq_right_iff]
    intro hlen
    exact ((List.takeWhile_prefix _).eq_of_length hlen).symm
  have hassoc : lines s ++ [d, [DOT], []] = (lines s ++ [d]) ++ [[DOT], []] := by
    rw [List.append_assoc, List.singleton_append]
  rw [part_two hne hdot hP hQ hhs hbody hwire, hassoc]
  constructor
  · rintro ⟨cs, hcs, -, hs⟩
    rw [← List.append_cancel_right hcs, htake] at hs
    exact (join_takeWhile_eq_iff hne).mp hs.symm
  · intro hplain
    refine ⟨lines s ++ [d], rfl, fun h => ?_, ?_⟩
    · rcases List.mem_append.mp h with h | h
      · exact (hplain _ h).1 rfl
      · rw [← List.mem_singleton.mp h] at hdot
        exact hdot rfl
    · rw [htake, (join_takeWhile_eq_iff hne).mpr hplain]

/-- A mail that ends behind the body of its second part. -/
lemma part_two_open (hwire : lines wire = opening d P Q hs ++ (lines s ++ [[]])) :
    B.part 2 wire ≠ some s := by
  intro h
  obtain ⟨cs, hcs, -, hs⟩ := (part_two hne hdot hP hQ hhs hbody hwire).mp h
  rw [show [[DOT], []] = [[DOT]] ++ [[]] from rfl, ← List.append_assoc] at hcs
  exact join_takeWhile_ne (List.append_cancel_right hcs) (List.cons_ne_nil _ _) hs.symm

end Opening

end Boundary

end Protocoale.Lib.Mail

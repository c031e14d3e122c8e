import Protocoale.Lib.CText
import Protocoale.Lib.Mail

/-!
A mail with a file attached to it (`send_mail.c` of the eleventh laboratory). All of it is written into one
array of `MAXLEN` characters, and the file as it is, so that it arrives when there is room for it and no
line of it is one that the mail gives a meaning to (`roundTrip_iff`).
-/

namespace Protocoale.Lab11

open Lib.Bytes Lib.CText Lib.Mail

def MAXLEN : ℕ := 500

/-- `snprintf(buffer + strlen(buffer), size, "%s", s)`. -/
def snprintf (buffer : List UInt8) (size : ℕ) (s : List UInt8) : List UInt8 := buffer ++ s.take (size - 1)

/-- The texts `write_data` starts with; the name is a C string. -/
def headers (fineName : List UInt8) : List (List UInt8) :=
  [text "MIME-Version: 1.0\r\n",
    text "FROM: adresademain@email.com\r\n",
    text "To: lucrariLaBloc@bormasina.ro\r\n",
    text "Subject: Bormasina\r\n",
    text "Content-Type: multipart/mixed; boundary=bor\r\n\r\n",
    text "--bor\r\n",
    text "Content-Type: text/plain\r\n\r\n",
    text "Incredibil, pauza de 2 ore.\r\n\r\n",
    text "--bor\r\n",
    text "Content-Type: text/plain\r\n",
    text "Content-Disposition: attachment; filename=\"" ++ fineName ++ text "\"\r\n\r\n"]

/-- The loop over the file. A chunk of 200 bytes has its NUL written behind `aux_buff`, and the size given to
`snprintf` is not the room that `buffer` has: what is written outside an array is not defined. -/
def appendFile (buffer content : List UInt8) : Option (List UInt8) :=
  match content with
  | [] => some buffer
  | c :: rest =>
    let auxBuff := (c :: rest).take 200
    let buffer := snprintf buffer 200 (cstr auxBuff)
    if auxBuff.length < 200 ∧ buffer.length < MAXLEN then appendFile buffer ((c :: rest).drop 200) else none
termination_by content.length
decreasing_by simp

/-- `write_data`, on an array of zeros: the string in it. -/
def writeData (fineName content : List UInt8) : Option (List UInt8) :=
  let buffer := (headers fineName).foldl (fun buffer s => snprintf buffer (MAXLEN - buffer.length) s) []
  (appendFile buffer content).map fun buffer =>
    snprintf buffer (MAXLEN - buffer.length) (text "\r\n--bor\r\n.")

/-- What `send_command` writes for a string. -/
def sendCommand (sendbuf : List UInt8) : List UInt8 := sendbuf ++ CRLF

/-- What the mail should be: it fits its array, and its second part arrives as the content. -/
def RoundTrip (B : Boundary (text "--bor")) (fineName content : List UInt8) : Prop :=
  ∃ mail, writeData fineName content = some mail ∧ mail.length < MAXLEN ∧
    B.part 2 (sendCommand mail) = some content

/-! ### What is written -/

variable {fineName content buffer mail s : List UInt8} {ls : List (List UInt8)} {size : ℕ}

/-- A text is cut off where the array ends. -/
lemma snprintf_eq_take (h : buffer.length < MAXLEN) (s : List UInt8) :
    snprintf buffer (MAXLEN - buffer.length) s = (buffer ++ s).take (MAXLEN - 1) := by
  rw [snprintf, List.take_append, List.take_of_length_le (Nat.le_sub_one_of_lt h), Nat.sub_right_comm]

/-- Texts written one behind the other. -/
lemma foldl_snprintf (h : buffer.length < MAXLEN) :
    ls.foldl (fun buffer s => snprintf buffer (MAXLEN - buffer.length) s) buffer =
      (buffer ++ ls.flatten).take (MAXLEN - 1) := by
  induction ls generalizing buffer with
  | nil =>
    rw [List.flatten_nil, List.append_nil, List.take_of_length_le (Nat.le_sub_one_of_lt h)]
    rfl
  | cons s ls ih =>
    have hlen : ((buffer ++ s).take (MAXLEN - 1)).length < MAXLEN :=
      lt_of_le_of_lt (List.length_take_le _ _) (by decide)
    have hmin : MAXLEN - 1 - min (MAXLEN - 1) (buffer ++ s).length = MAXLEN - 1 - (buffer ++ s).length := by omega
    rw [List.foldl_cons, snprintf_eq_take h, ih hlen, List.flatten_cons, ← List.append_assoc, List.take_append,
      List.take_take, min_self, List.length_take, hmin, ← List.take_append]

/-- The content is written when there is room for it, in one chunk. -/
lemma appendFile_eq_some_iff (h0 : 0 ∉ content) (hbuffer : buffer.length < MAXLEN) :
    appendFile buffer content = some mail ↔
      mail = buffer ++ content ∧ content.length < 200 ∧ mail.length < MAXLEN := by
  cases content with
  | nil =>
    rw [appendFile, List.append_nil, Option.some.injEq, eq_comm]
    exact ⟨fun h => ⟨h, Nat.zero_lt_succ _, h ▸ hbuffer⟩, fun h => h.1⟩
  | cons c rest =>
    rw [appendFile]
    by_cases hlen : (c :: rest).length < 200
    · have hchunk : (c :: rest).take 200 = c :: rest := List.take_of_length_le hlen.le
      have hcopy : snprintf buffer 200 (cstr (c :: rest)) = buffer ++ c :: rest := by
        rw [cstr_eq_self fun c hc => ne_of_mem_of_not_mem hc h0, snprintf, List.take_of_length_le (Nat.le_sub_one_of_lt hlen)]
      rw [hchunk, hcopy, List.drop_eq_nil_of_le hlen.le, appendFile]
      by_cases hroom : (buffer ++ c :: rest).length < MAXLEN
      · rw [if_pos ⟨hlen, hroom⟩, Option.some.injEq, eq_comm]
        exact ⟨fun h => ⟨h, hlen, h ▸ hroom⟩, fun h => h.1⟩
      · rw [if_neg fun h => hroom h.2]
        refine ⟨(nomatch ·), ?_⟩
        rintro ⟨rfl, -, h⟩
        exact absurd h hroom
    · have hchunk : ¬ ((c :: rest).take 200).length < 200 := by
        rw [List.length_take]
        omega
      rw [if_neg fun h => hchunk h.1]
      exact ⟨(nomatch ·), fun h => absurd h.2.1 hlen⟩

/-- `write_data`: everything up to the end of the array. -/
lemma writeData_eq_some_iff (h0 : 0 ∉ content) :
    writeData fineName content = some mail ↔ content.length < 200 ∧
      ((headers fineName).flatten.take (MAXLEN - 1) ++ content).length < MAXLEN ∧
      mail = ((headers fineName).flatten.take (MAXLEN - 1) ++ content ++ text "\r\n--bor\r\n.").take (MAXLEN - 1) := by
  have hlen : ((headers fineName).flatten.take (MAXLEN - 1)).length < MAXLEN :=
    lt_of_le_of_lt (List.length_take_le _ _) (by decide)
  rw [writeData, foldl_snprintf (by decide), List.nil_append, Option.map_eq_some_iff]
  constructor
  · rintro ⟨b, hb, rfl⟩
    obtain ⟨rfl, hcontent, hroom⟩ := (appendFile_eq_some_iff h0 hlen).mp hb
    exact ⟨hcontent, hroom, snprintf_eq_take hroom _⟩
  · rintro ⟨hcontent, hroom, rfl⟩
    exact ⟨_, (appendFile_eq_some_iff h0 hlen).mpr ⟨rfl, hcontent, hroom⟩, snprintf_eq_take hroom _⟩

/-! ### The lines of the mail -/

/-- The lines before the parts. -/
def preamble : List (List UInt8) :=
  [text "MIME-Version: 1.0", text "FROM: adresademain@email.com", text "To: lucrariLaBloc@bormasina.ro",
    text "Subject: Bormasina", text "Content-Type: multipart/mixed; boundary=bor", []]

/-- The first part, which is the text of the mail. -/
def message : List (List UInt8) :=
  [text "Content-Type: text/plain", [], text "Incredibil, pauza de 2 ore.", []]

/-- The line with the name of the file. -/
def disposition (fineName : List UInt8) : List UInt8 :=
  text "Content-Disposition: attachment; filename=\"" ++ (fineName ++ text "\"")

/-- The header lines of the attachment. -/
def attachment (fineName : List UInt8) : List (List UInt8) := [text "Content-Type: text/plain", disposition fineName]

lemma headers_eq : headers fineName =
    [text "MIME-Version: 1.0" ++ CRLF, text "FROM: adresademain@email.com" ++ CRLF,
      text "To: lucrariLaBloc@bormasina.ro" ++ CRLF, text "Subject: Bormasina" ++ CRLF,
      text "Content-Type: multipart/mixed; boundary=bor" ++ CRLF ++ CRLF, text "--bor" ++ CRLF,
      text "Content-Type: text/plain" ++ CRLF ++ CRLF, text "Incredibil, pauza de 2 ore." ++ CRLF ++ CRLF,
      text "--bor" ++ CRLF, text "Content-Type: text/plain" ++ CRLF,
      text "Content-Disposition: attachment; filename=\"" ++ fineName ++ (text "\"" ++ CRLF ++ CRLF)] := by
  simp [headers, text]

lemma flatten_headers : (headers fineName).flatten =
    (Boundary.opening (text "--bor") preamble message (attachment fineName)).flatMap (· ++ CRLF) := by
  rw [headers_eq]
  simp only [Boundary.opening, preamble, message, attachment, disposition, List.flatten_cons, List.flatten_nil,
    List.flatMap_cons, List.flatMap_nil, List.cons_append, List.nil_append, List.append_assoc, List.append_nil]

lemma length_headers : (headers fineName).flatten.length = 295 + fineName.length := by
  have hname : (headers fineName).flatten.length = (headers []).flatten.length + fineName.length := by
    simp only [headers, List.flatten_cons, List.flatten_nil, List.length_append, List.length_nil]
    omega
  have hnil : (headers []).flatten.length = 295 := by
    simp only [headers, List.flatten_cons, List.flatten_nil, List.length_append]
    rfl
  rw [hname, hnil]

lemma isLine_disposition (hname : IsLine fineName) : IsLine (disposition fineName) := by
  have hquote : IsLine (text "\"") := rfl
  exact (hname.append_right hquote (by decide)).append_left (by decide)

/-- The lines before the one with the name. -/
def beginning : List (List UInt8) :=
  preamble ++ text "--bor" :: (message ++ [text "--bor", text "Content-Type: text/plain"])

lemma isLine_beginning : ∀ l ∈ beginning, IsLine l := by
  simp only [beginning, preamble, message, List.cons_append, List.nil_append, List.forall_mem_cons,
    List.not_mem_nil, false_imp_iff, implies_true, and_true]
  exact ⟨rfl, rfl, rfl, rfl, rfl, rfl, rfl, rfl, rfl, rfl, rfl, rfl, rfl⟩

lemma opening_eq : Boundary.opening (text "--bor") preamble message (attachment fineName) =
    beginning ++ [disposition fineName, []] := by
  simp only [Boundary.opening, beginning, attachment, List.append_assoc, List.cons_append, List.nil_append]

lemma isLine_opening (hname : IsLine fineName) :
    ∀ l ∈ Boundary.opening (text "--bor") preamble message (attachment fineName), IsLine l := by
  rw [opening_eq]
  simp only [List.forall_mem_append, List.forall_mem_cons, List.not_mem_nil, false_imp_iff, implies_true, and_true]
  exact ⟨isLine_beginning, isLine_disposition hname, rfl⟩

lemma delimiter_ne_nil : text "--bor" ≠ [] := List.cons_ne_nil _ _

lemma delimiter_head : (text "--bor").head? ≠ some DOT := by decide

section

variable {B : Boundary (text "--bor")} {l : List UInt8}

lemma plain_of_head (hdot : l.head? ≠ some DOT) (hhyphen : l.head? ≠ some 45) : B.Plain l :=
  ⟨hdot, Boundary.not_delims delimiter_ne_nil hhyphen⟩

lemma plain_preamble : ∀ l ∈ preamble, B.Plain l := by
  simp only [preamble, List.forall_mem_cons, List.not_mem_nil, false_imp_iff, implies_true, and_true]
  refine ⟨?_, ?_, ?_, ?_, ?_, ?_⟩ <;> exact plain_of_head (by decide) (by decide)

lemma plain_message : ∀ l ∈ message, B.Plain l := by
  simp only [message, List.forall_mem_cons, List.not_mem_nil, false_imp_iff, implies_true, and_true]
  refine ⟨?_, ?_, ?_, ?_⟩ <;> exact plain_of_head (by decide) (by decide)

lemma plain_attachment : ∀ l ∈ attachment fineName, B.Plain l := by
  simp only [attachment, List.forall_mem_cons, List.not_mem_nil, false_imp_iff, implies_true, and_true]
  refine ⟨plain_of_head (by decide) (by decide), plain_of_head ?_ ?_⟩
  · exact fun h => by cases h
  · exact fun h => by cases h

lemma nil_not_mem_attachment : [] ∉ attachment fineName := by
  simp only [attachment, List.mem_cons, List.not_mem_nil, or_false, not_or]
  exact ⟨by decide, (nomatch ·)⟩

end

/-! ### The round trip -/

section

variable {B : Boundary (text "--bor")} (hname : IsLine fineName)
include hname

/-- The lines of what is sent, behind the lines that are always the same. -/
lemma lines_sendCommand (t : List UInt8) : lines (sendCommand ((headers fineName).flatten ++ t)) =
    Boundary.opening (text "--bor") preamble message (attachment fineName) ++ (lines t ++ [[]]) := by
  rw [sendCommand, lines_end, flatten_headers, lines_flatMap (isLine_opening hname), List.append_assoc]

/-- A mail that was written to its end. -/
lemma part_whole : B.part 2 (sendCommand ((headers fineName).flatten ++ (content ++ text "\r\n--bor\r\n."))) =
    some content ↔ ∀ l ∈ lines content, B.Plain l := by
  have htail : lines (content ++ text "\r\n--bor\r\n.") = lines content ++ [text "--bor", [DOT]] := by
    have htext : text "\r\n--bor\r\n." = CRLF ++ (text "--bor" ++ CRLF ++ [DOT]) := rfl
    rw [htext, ← List.append_assoc, lines_append, lines_append]
    rfl
  have hwire := lines_sendCommand hname (content ++ text "\r\n--bor\r\n.")
  rw [htail, List.append_assoc] at hwire
  exact Boundary.part_two_closed delimiter_ne_nil delimiter_head plain_preamble plain_message plain_attachment
    nil_not_mem_attachment hwire

/-- The array ends behind the content or in the text after it. -/
lemma part_cut {k : ℕ} (hk : k < 10) :
    B.part 2 (sendCommand ((headers fineName).flatten ++ (content ++ (text "\r\n--bor\r\n.").take k))) ≠
      some content := by
  cases k with
  | zero =>
    have hwire := lines_sendCommand hname content
    rw [List.take_zero, List.append_nil]
    exact Boundary.part_two_open delimiter_ne_nil delimiter_head plain_preamble plain_message plain_attachment
      nil_not_mem_attachment hwire
  | succ k =>
    intro h
    obtain ⟨ls, hls⟩ := Boundary.exists_lines_of_part h
    have hdot : DOT ∉ (text "\r\n--bor\r\n.").take (k + 1) := by
      have hnine : DOT ∉ (text "\r\n--bor\r\n.").take 9 := by decide
      exact fun hmem => hnine ((List.take_prefix_take_left (Nat.le_of_lt_succ hk)).subset hmem)
    rw [← List.append_assoc] at hls
    exact lines_ne_of_not_mem (List.cons_ne_nil _ _) hdot _ ls hls

/-- The array ends in the line with the name, or right behind it. -/
lemma part_headers {n : ℕ} (hn : 295 ≤ n) :
    B.part 2 (sendCommand ((headers fineName).flatten.take n)) = none := by
  have hsplit : (headers fineName).flatten =
      beginning.flatMap (· ++ CRLF) ++ (disposition fineName ++ (CRLF ++ CRLF)) := by
    rw [flatten_headers, opening_eq]
    simp only [List.flatMap_append, List.flatMap_cons, List.flatMap_nil, List.nil_append, List.append_nil,
      List.append_assoc]
  have hdisposition : (disposition fineName).length = 44 + fineName.length := by
    simp [disposition, text]
    omega
  have hbeginning : (beginning.flatMap (· ++ CRLF)).length = 247 := by
    have h := congrArg List.length hsplit
    rw [length_headers, List.length_append, List.length_append, hdisposition] at h
    simp only [List.length_append, List.length_cons, List.length_nil] at h
    omega
  obtain ⟨m, hm⟩ : ∃ m, n = 247 + (m + 1) := ⟨n - 248, by omega⟩
  have htake : (headers fineName).flatten.take n =
      beginning.flatMap (· ++ CRLF) ++ (disposition fineName ++ (CRLF ++ CRLF)).take (m + 1) := by
    rw [hsplit, hm, ← hbeginning, List.take_length_add_append]
  rw [htake, Option.eq_none_iff_forall_ne_some]
  intro x hx
  obtain ⟨ls, hls⟩ := Boundary.exists_lines_of_part hx
  by_cases hcut : m + 1 ≤ (disposition fineName).length
  -- One line, which does not start with a dot.
  · rw [List.take_append_of_le_length hcut, lines_flatMap isLine_beginning, (isLine_disposition hname).take] at hls
    cases List.append_inj_right' hls rfl
  -- The last character is one of CR LF.
  · obtain ⟨j, hj⟩ : ∃ j, m + 1 = (disposition fineName).length + (j + 1) :=
      ⟨m - (disposition fineName).length, by omega⟩
    have hdot : DOT ∉ (CRLF ++ CRLF).take (j + 1) := by
      have hcrlf : DOT ∉ CRLF ++ CRLF := by decide
      exact fun hmem => hcrlf (List.mem_of_mem_take hmem)
    rw [hj, List.take_length_add_append, ← List.append_assoc] at hls
    exact lines_ne_of_not_mem (List.cons_ne_nil _ _) hdot _ ls hls

/-- The array has room for all of the mail. -/
lemma roundTrip_of_fits (h0 : 0 ∉ content)
    (hfits : (headers fineName).flatten.length + content.length + 10 < MAXLEN) :
    RoundTrip B fineName content ↔ ∀ l ∈ lines content, B.Plain l := by
  have hmax : MAXLEN = 500 := rfl
  have hlen : (headers fineName).flatten.length = 295 + fineName.length := length_headers
  have hmail : ((headers fineName).flatten ++ (content ++ text "\r\n--bor\r\n.")).length < MAXLEN := by
    rw [List.length_append, List.length_append]
    exact lt_of_eq_of_lt (Nat.add_assoc _ _ _).symm hfits
  have hwrite : writeData fineName content =
      some ((headers fineName).flatten ++ (content ++ text "\r\n--bor\r\n.")) := by
    rw [writeData_eq_some_iff h0, List.take_of_length_le (l := (headers fineName).flatten) (by omega),
      List.append_assoc, List.take_of_length_le (Nat.le_sub_one_of_lt hmail), List.length_append]
    exact ⟨by omega, by omega, rfl⟩
  rw [← part_whole hname]
  constructor
  · rintro ⟨mail, hmail, -, hpart⟩
    rw [hwrite, Option.some.injEq] at hmail
    rw [hmail]
    exact hpart
  · exact fun hpart => ⟨_, hwrite, hmail, hpart⟩

/-- The array ends before the mail does. -/
lemma fits_of_roundTrip (h0 : 0 ∉ content) (h : RoundTrip B fineName content) :
    (headers fineName).flatten.length + content.length + 10 < MAXLEN := by
  by_contra hfits
  have hmax : MAXLEN = 500 := rfl
  obtain ⟨mail, hmail, -, hpart⟩ := h
  obtain ⟨-, hroom, rfl⟩ := (writeData_eq_some_iff h0).mp hmail
  by_cases hheaders : (headers fineName).flatten.length < MAXLEN
  · rw [List.take_of_length_le (Nat.le_sub_one_of_lt hheaders), List.length_append] at hroom
    rw [List.take_of_length_le (Nat.le_sub_one_of_lt hheaders), List.take_append,
      List.take_of_length_le (by rw [List.length_append]; omega), List.append_assoc] at hpart
    exact part_cut hname (by rw [List.length_append]; omega) hpart
  · rw [List.length_append, List.length_take] at hroom
    obtain rfl : content = [] := List.length_eq_zero_iff.mp (by omega)
    have hfull : ((headers fineName).flatten.take (MAXLEN - 1)).length = MAXLEN - 1 := by
      rw [List.length_take]
      omega
    rw [List.append_nil, List.take_left' hfull, part_headers hname (by decide)] at hpart
    cases hpart

end

/-- **A file arrives as it is when the mail fits its array and no line of the file starts with a dot or is a
delimiter**, and only then. -/
theorem roundTrip_iff (B : Boundary (text "--bor")) (fineName content : List UInt8) (hname : IsLine fineName)
    (h0 : 0 ∉ content) : RoundTrip B fineName content ↔
      (headers fineName).flatten.length + content.length + 10 < MAXLEN ∧ ∀ l ∈ lines content, B.Plain l := by
  constructor
  · intro h
    have hfits := fits_of_roundTrip hname h0 h
    exact ⟨hfits, (roundTrip_of_fits hname h0 hfits).mp h⟩
  · rintro ⟨hfits, hplain⟩
    exact (roundTrip_of_fits hname h0 hfits).mpr hplain

theorem roundTrip_iff_hi : RoundTrip (Boundary.exactly (text "--bor")) (text "a.txt") (text "hi") := by
  have hname : IsLine (text "a.txt") := rfl
  refine (roundTrip_iff _ _ _ hname (by decide)).mpr ⟨by rw [length_headers]; decide, ?_⟩
  have hlines : lines (text "hi") = [text "hi"] := rfl
  rw [hlines, List.forall_mem_singleton]
  exact plain_of_head (by decide) (by decide)

/-- The dot that the file consists of ends the mail. -/
theorem not_roundTrip : ¬ RoundTrip (Boundary.exactly (text "--bor")) (text "a.txt") (text ".") := by
  have hname : IsLine (text "a.txt") := rfl
  rw [roundTrip_of_fits hname (by decide) (by rw [length_headers]; decide)]
  intro h
  exact (h _ (List.mem_singleton_self _)).1 rfl

end Protocoale.Lab11

import Protocoale.Tema3.Client

/-!
What the handlers take out of a response: the text they give to the JSON library, and the cookie. Both
are searched from the first byte of the response on, and neither search knows where the header block
ends or where a field does. `parsed_eq_body_iff` and `yields_iff` say for which responses they come out
right.
-/

namespace Protocoale.Tema3

open Lib Lib.Bytes Lib.CText Lib.Search

/-- A response: a status line, the lines of the header fields, and a body. -/
structure Reply where
  status : List UInt8
  fields : List (List UInt8)
  body : List UInt8
  status_space : 32 ∈ status
  status_line : ∀ c ∈ status, c ≠ 0 ∧ c ≠ 13 ∧ c ≠ 10
  fields_line : ∀ f ∈ fields, ∀ c ∈ f, c ≠ 0 ∧ c ≠ 13 ∧ c ≠ 10

namespace Reply

/-- The header block, with the empty line. -/
def head (r : Reply) : List UInt8 := linesText (r.status :: r.fields) ++ text "\r\n"

/-- The response as `receive_from_server` returns it. -/
def received (r : Reply) : List UInt8 := r.head ++ (r.body ++ [0])

end Reply

variable {r : Reply} {command : Command} {lib : JsonLib} {h : Handler} {response : List UInt8}

/-! ### The body -/

/-- What a handler gives to `json::parse`, nothing when it does not call it or has no text for it. -/
def parsed : Command → List UInt8 → Option (List UInt8)
  | .getBooks, response | .getBook _, response => bodyData response
  | _, response => responseData response

/-- The JSON library, for one text only. -/
def JsonLib.only (lib : JsonLib) (t : Option (List UInt8)) : JsonLib :=
  { lib with
    parse := fun s => if t = some s then lib.parse s else none
    dump_string := by
      intro s j key t' hj hfind ht
      split at hj
      · exact lib.dump_string s j key t' hj hfind ht
      · cases hj }

lemma parse_only {t : List UInt8} : (lib.only (some t)).parse t = lib.parse t := if_pos rfl

lemma request_only {t : Option (List UInt8)} : request (lib.only t) h command = request lib h command := by
  cases command <;> rfl

lemma hasError_only (response : List UInt8) :
    hasError (lib.only (responseData response)) response = hasError lib response := by
  unfold hasError
  cases responseData response with
  | none => rfl
  | some data =>
    dsimp only
    rw [parse_only]
    rfl

lemma printed_only (response : List UInt8) :
    printed (lib.only (responseData response)) response = printed lib response := by
  unfold printed
  rw [hasError_only]

/-- **No handler parses another text**: with a library that knows this one only, it does the same. -/
theorem step_only (h : Handler) (command : Command) (response : List UInt8) :
    step (lib.only (parsed command response)) h (command, response) = step lib h (command, response) := by
  cases command with
  | register username password =>
    show handleRegister (lib.only (responseData response)) h _ _ _ = handleRegister lib h _ _ _
    unfold handleRegister
    rw [request_only, printed_only]
  | login username password =>
    show handleLogin (lib.only (responseData response)) h _ _ _ = handleLogin lib h _ _ _
    unfold handleLogin
    rw [request_only, hasError_only]
  | enterLibrary =>
    show handleEnterLibrary (lib.only (responseData response)) h _ = handleEnterLibrary lib h _
    unfold handleEnterLibrary
    rw [request_only]
    cases responseData response with
    | none => rfl
    | some data =>
      simp only [Option.bind_eq_bind, Option.bind_some, parse_only]
      refine Option.bind_congr fun message _ => Option.bind_congr fun j _ =>
        Option.bind_congr fun _ _ => ?_
      have hfind : (lib.only (some data)).find j (text "token") = lib.find j (text "token") := rfl
      rw [hfind]
      cases lib.find j (text "token") <;> rfl
  | getBooks =>
    show handleGetBooks (lib.only (bodyData response)) h _ = handleGetBooks lib h _
    unfold handleGetBooks
    rw [request_only]
    cases bodyData response with
    | none => rfl
    | some data =>
      simp only [Option.bind_eq_bind, Option.bind_some, parse_only]
      rfl
  | getBook id =>
    show handleGetBook (lib.only (bodyData response)) h _ _ = handleGetBook lib h _ _
    unfold handleGetBook
    rw [request_only]
    cases bodyData response with
    | none => rfl
    | some data =>
      simp only [Option.bind_eq_bind, Option.bind_some, parse_only]
      rfl
  | addBook title author genre pageCount publisher =>
    show handleAddBook (lib.only (responseData response)) h _ _ _ _ _ _ = handleAddBook lib h _ _ _ _ _ _
    unfold handleAddBook
    rw [request_only, printed_only]
  | deleteBook id =>
    show handleDeleteBook (lib.only (responseData response)) h _ _ = handleDeleteBook lib h _ _
    unfold handleDeleteBook
    rw [request_only, printed_only]
  | logout =>
    show handleLogout (lib.only (responseData response)) h _ = handleLogout lib h _
    unfold handleLogout
    rw [request_only, printed_only]

lemma Reply.zero_notMem_head (r : Reply) : 0 ∉ r.head := by
  have hend : (0 : UInt8) ∉ text "\r\n" := by decide
  unfold Reply.head linesText
  rw [List.mem_append, List.mem_flatMap]
  rintro (⟨l, hl, hmem⟩ | hmem)
  · rcases List.mem_append.mp hmem with hmem | hmem
    · rcases List.mem_cons.mp hl with rfl | hl
      · exact (r.status_line 0 hmem).1 rfl
      · exact (r.fields_line l hl 0 hmem).1 rfl
    · exact hend hmem
  · exact hend hmem

/-- The response is a C string up to the end of its body. -/
lemma Reply.cstr_received (h0 : 0 ∉ r.body) : cstr r.received = r.head ++ r.body := by
  unfold Reply.received
  rw [← List.append_assoc]
  refine cstr_append_zero ?_
  rw [List.mem_append]
  exact not_or.mpr ⟨r.zero_notMem_head, h0⟩

/-- The first byte of the body is where the search ends. -/
def Extracts (r : Reply) : Command → Prop
  | .getBooks | .getBook _ => r.body.head? = some 91 ∧ 91 ∉ r.head ∨
      r.body.head? = some 123 ∧ 123 ∉ r.head ∧ 91 ∉ r.head ++ r.body
  | _ => r.body.head? = some 123 ∧ 123 ∉ r.head

lemma responseData_eq_body_iff (h0 : 0 ∉ r.body) : responseData r.received = some r.body ↔
    r.body.head? = some 123 ∧ 123 ∉ r.head := by
  unfold responseData strstr
  rw [Reply.cstr_received h0]
  exact drop_find_eq_some_iff

lemma bodyData_eq_body_iff (h0 : 0 ∉ r.body) : bodyData r.received = some r.body ↔
    r.body.head? = some 91 ∧ 91 ∉ r.head ∨
      r.body.head? = some 123 ∧ 123 ∉ r.head ∧ 91 ∉ r.head ++ r.body := by
  unfold bodyData
  by_cases hmem : 91 ∈ r.head ++ r.body
  · obtain ⟨i, hi⟩ : ∃ i, strstr r.received (text "[") = some i := by
      rw [strstr, Reply.cstr_received h0]
      obtain ⟨pre, post, htext, hpre⟩ := List.eq_append_cons_of_mem hmem
      exact ⟨pre.length, htext ▸ find_singleton hpre⟩
    have hbracket : some ((cstr r.received).drop i) = some r.body ↔
        r.body.head? = some 91 ∧ 91 ∉ r.head := by
      rw [← drop_find_eq_some_iff, ← Reply.cstr_received h0]
      unfold strstr at hi
      rw [show [91] = text "[" from rfl, hi, Option.map_some]
    rw [hi, hbracket]
    exact ⟨Or.inl, fun hor => hor.resolve_right fun hno => hno.2.2 hmem⟩
  · have hi : strstr r.received (text "[") = none := by
      rw [strstr, Reply.cstr_received h0]
      exact find_eq_none_of_not_mem hmem
    rw [hi, responseData_eq_body_iff h0]
    constructor
    · intro hdata
      exact Or.inr ⟨hdata.1, hdata.2, hmem⟩
    · rintro (⟨hhead, -⟩ | ⟨hhead, hbrace, -⟩)
      · exact (hmem (List.mem_append_right _ (List.mem_of_mem_head? hhead))).elim
      · exact ⟨hhead, hbrace⟩

/-- **A handler parses exactly the body when nothing in front of the body, and for an object nothing in
it, ends its search.** The handlers of books look for a bracket first; the others never do. -/
theorem parsed_eq_body_iff (h0 : 0 ∉ r.body) (command : Command) :
    parsed command r.received = some r.body ↔ Extracts r command := by
  cases command
  case getBooks => exact bodyData_eq_body_iff h0
  case getBook => exact bodyData_eq_body_iff h0
  all_goals exact responseData_eq_body_iff h0

/-- A text without line ends, for a line of a response. -/
def isPlain (l : List UInt8) : Bool := l.all fun c => c ≠ 0 && c ≠ 13 && c ≠ 10

lemma of_isPlain {l : List UInt8} (h : isPlain l = true) : ∀ c ∈ l, c ≠ 0 ∧ c ≠ 13 ∧ c ≠ 10 := by
  intro c hc
  simpa [and_assoc] using List.all_eq_true.mp h c hc

/-- A response to an accepted command. -/
def okReply (fields : List (List UInt8)) (body : List UInt8) (hfields : fields.all isPlain = true) :
    Reply where
  status := text "HTTP/1.1 200 OK"
  fields := fields
  body := body
  status_space := by decide
  status_line := of_isPlain rfl
  fields_line f hf := of_isPlain (List.all_eq_true.mp hfields f hf)

theorem parsed_eq_body_none : parsed .getBooks (okReply [] (text "[]") rfl).received =
    some (text "[]") :=
  (parsed_eq_body_iff (r := okReply [] (text "[]") rfl) (by decide) .getBooks).mpr
    (Or.inl ⟨rfl, by decide +kernel⟩)

/-- An error with a bracket in its text, and a header field with a brace in its value. -/
theorem not_parsed_eq_body :
    (∃ r : Reply, r.body = text "\x7b\"error\":\"no [x]\"\x7d" ∧
      parsed .getBooks r.received = some (text "[x]\"\x7d")) ∧
    ∃ r : Reply, r.body = text "\x7b\"error\":\"no\"\x7d" ∧
      parsed .logout r.received = some (text "\x7b\r\n\r\n\x7b\"error\":\"no\"\x7d") :=
  ⟨⟨okReply [] _ rfl, rfl, by decide +kernel⟩,
    ⟨okReply [text "X: \x7b"] _ rfl, rfl, by decide +kernel⟩⟩

/-! ### The cookie -/

namespace Reply

/-- The line of a field `Set-Cookie`. -/
def isCookie (f : List UInt8) : Bool := SET_COOKIE.isPrefixOf f

/-- The fields before the first one of them. -/
def before (r : Reply) : List (List UInt8) := r.fields.takeWhile fun f => !isCookie f

/-- The value of the first one. -/
def cookieValue (r : Reply) : Option (List UInt8) :=
  (r.fields.find? isCookie).map (·.drop SET_COOKIE.length)

/-- The cookie the server sets: the value without its attributes. -/
def cookie (r : Reply) : Option (List UInt8) := r.cookieValue.map (·.takeWhile (· ≠ 59))

/-- Where the field starts in the response. -/
def offset (r : Reply) : ℕ := (linesText (r.status :: r.before)).length

end Reply

/-- `take_cookie` comes to an end in the response, at the field and with the cookie of the server. It
always reports a cookie, so that it never reports that there is none. -/
def Yields (r : Reply) : Prop :=
  ∃ cut, cutStatus r.received = some cut ∧ (takeCookie cut).map some = some r.cookie ∧
    ∀ cookie, r.cookie = some cookie →
      find SET_COOKIE cut = some r.offset ∧ 13 ∉ cookie ∧ 10 ∉ cookie

variable {lines : List (List UInt8)} {rest value more : List UInt8} {j : ℕ}

/-- A name that is in no line is nowhere in the lines. -/
lemma not_occurs_lines (hl : ∀ l ∈ lines, ¬ SET_COOKIE <:+: l) (hj : j < (linesText lines).length) :
    ¬ Occurs SET_COOKIE (linesText lines ++ rest) j := by
  induction lines generalizing j with
  | nil => simp [linesText] at hj
  | cons l lines ih =>
    intro hocc
    obtain ⟨hl0, hrest⟩ := List.forall_mem_cons.mp hl
    rw [linesText_cons, List.append_assoc, List.append_assoc] at hocc
    have hgap : ∀ c ∈ text "\r\n", c ∉ SET_COOKIE :=
      List.forall_mem_cons.mpr ⟨by decide, List.forall_mem_singleton.mpr (by decide)⟩
    rcases hocc.of_gap (by decide) (by decide) hgap with hbefore | hafter
    · exact hl0 (exists_occurs_iff.mp ⟨j, hocc.of_append hbefore⟩)
    · obtain ⟨k, rfl⟩ := Nat.exists_eq_add_of_le hafter
      rw [linesText_cons, List.length_append, List.length_append] at hj
      rw [← List.append_assoc, ← List.length_append, occurs_append_left_iff] at hocc
      exact ih hrest (by omega) hocc

/-- A name that is in a line is somewhere in the lines. -/
lemma occurs_lines {l : List UInt8} (hl : l ∈ lines) (hocc : SET_COOKIE <:+: l) :
    ∃ j < (linesText lines).length, Occurs SET_COOKIE (linesText lines ++ rest) j := by
  obtain ⟨pre, post, rfl⟩ := List.append_of_mem hl
  obtain ⟨j, hj⟩ := exists_occurs_iff.mpr hocc
  have hlen := hj.1
  have hpos : 0 < SET_COOKIE.length := by decide
  refine ⟨(linesText pre).length + j, ?_, ?_⟩
  · rw [linesText_append, linesText_cons]
    simp only [List.length_append]
    omega
  · rw [linesText_append, linesText_cons, List.append_assoc, List.append_assoc, List.append_assoc]
    exact occurs_append_left_iff.mpr hj.append

/-- What is taken from a value is the cookie exactly when a semicolon ends it in its line. -/
lemma take_value_iff (hline : ∀ c ∈ value, c ≠ 0 ∧ c ≠ 13 ∧ c ≠ 10) :
    ((find [59] (value ++ 13 :: 10 :: more)).map fun stop =>
      cstr ((value ++ 13 :: 10 :: more).take stop)) = some (value.takeWhile (· ≠ 59)) ↔
    59 ∈ value := by
  constructor
  · intro h
    by_contra hno
    obtain ⟨stop, hstop, htake⟩ := Option.map_eq_some_iff.mp h
    -- the semicolon is after the line, so that the end of the line is taken too
    have hsemi := (find_eq_some_iff.mp hstop).1.getElem (k := 0) (by simp)
    rw [Nat.add_zero] at hsemi
    obtain ⟨k, rfl⟩ : ∃ k, stop = value.length + (k + 1) := by
      rcases Nat.lt_trichotomy stop value.length with hlt | rfl | hgt
      · rw [List.getElem?_append_left hlt] at hsemi
        exact (hno (List.mem_of_getElem? hsemi)).elim
      · simp at hsemi
      · exact ⟨stop - value.length - 1, by omega⟩
    rw [takeWhile_ne_self hno, List.take_length_add_append, List.take_succ_cons,
      cstr_append fun c hc => (hline c hc).1] at htake
    have hlen := congrArg List.length htake
    simp [cstr] at hlen
  · intro hmem
    obtain ⟨pre, post, rfl, hpre⟩ := List.eq_append_cons_of_mem hmem
    have hfind : find [59] (pre ++ 59 :: post ++ 13 :: 10 :: more) = some pre.length := by
      rw [List.append_assoc]
      exact find_singleton hpre
    rw [hfind, takeWhile_ne_delimited hpre, Option.map_some, List.append_assoc, List.take_left]
    exact congrArg some (cstr_eq_self fun c hc => (hline c (List.mem_append_left _ hc)).1)

namespace Reply

/-- The end of the status line is overwritten. -/
lemma cutStatus_received (r : Reply) : cutStatus r.received =
    some (r.status ++ [13] ++ 0 :: (linesText r.fields ++ (text "\r\n" ++ (r.body ++ [0])))) := by
  have hreceived : r.received =
      r.status ++ [13] ++ 10 :: (linesText r.fields ++ (text "\r\n" ++ (r.body ++ [0]))) := by
    rw [received, head, linesText_cons]
    simp [text]
  rw [hreceived]
  refine cutStatus_eq (List.mem_append_left _ r.status_space) ?_
  intro c hc
  rcases List.mem_append.mp hc with hc | hc
  · exact ⟨(r.status_line c hc).1, (r.status_line c hc).2.2⟩
  · rw [List.mem_singleton.mp hc]
    decide

lemma fields_eq (hvalue : r.cookieValue = some value) :
    ∃ after, r.fields = r.before ++ (SET_COOKIE ++ value) :: after := by
  obtain ⟨f, hf, rfl⟩ := Option.map_eq_some_iff.mp hvalue
  obtain ⟨hcookie, before, after, hsplit, hbefore⟩ := List.find?_eq_some_iff_append.mp hf
  obtain ⟨value, rfl⟩ := List.isPrefixOf_iff_prefix.mp hcookie
  refine ⟨after, ?_⟩
  have hstop : ((SET_COOKIE ++ value) :: after).takeWhile (fun f => !isCookie f) = [] :=
    List.takeWhile_cons_of_neg (by simp [hcookie])
  rw [Reply.before, List.drop_left, hsplit, List.takeWhile_append_of_pos hbefore, hstop,
    List.append_nil]

lemma value_line (hvalue : r.cookieValue = some value) : ∀ c ∈ value, c ≠ 0 ∧ c ≠ 13 ∧ c ≠ 10 := by
  obtain ⟨after, hfields⟩ := fields_eq hvalue
  intro c hc
  refine r.fields_line (SET_COOKIE ++ value) ?_ c (List.mem_append_right _ hc)
  rw [hfields]
  exact List.mem_append_right _ List.mem_cons_self

/-- The response around the value, with the end of the status line overwritten. -/
lemma cutStatus_value (hvalue : r.cookieValue = some value) : ∃ more, cutStatus r.received =
    some ((r.status ++ [13] ++ 0 :: linesText r.before) ++
      (SET_COOKIE ++ (value ++ 13 :: 10 :: more))) := by
  obtain ⟨after, hfields⟩ := fields_eq hvalue
  refine ⟨linesText after ++ (text "\r\n" ++ (r.body ++ [0])), ?_⟩
  rw [cutStatus_received, hfields, linesText_append, linesText_cons]
  simp [text]

lemma front_length : (r.status ++ [13] ++ 0 :: linesText r.before).length = r.offset := by
  rw [offset, linesText_cons]
  simp [text]

/-- The name is found where it was in the response. -/
lemma find_cut : find SET_COOKIE ((r.status ++ [13] ++ 0 :: linesText r.before) ++
    (SET_COOKIE ++ rest)) =
      find SET_COOKIE (linesText (r.status :: r.before) ++ (SET_COOKIE ++ rest)) := by
  have hlines : linesText (r.status :: r.before) = r.status ++ [13] ++ 10 :: linesText r.before := by
    rw [linesText_cons]
    simp [text]
  rw [hlines, List.append_assoc _ (0 :: _), List.append_assoc _ (10 :: _)]
  exact (find_replace (by decide) (by decide) (by decide)).symm

/-- The name is found at the field exactly when it is in no line before it. -/
lemma find_offset_iff : find SET_COOKIE (linesText (r.status :: r.before) ++ (SET_COOKIE ++ rest)) =
    some r.offset ↔ ∀ l ∈ r.status :: r.before, ¬ SET_COOKIE <:+: l := by
  constructor
  · intro hfind l hl hocc
    obtain ⟨j, hj, hocc⟩ := occurs_lines hl hocc
    exact (find_eq_some_iff.mp hfind).2 j hj hocc
  · intro hno
    refine find_eq_some_iff.mpr ⟨?_, fun j hj => not_occurs_lines hno hj⟩
    refine ⟨by simp [offset], ?_⟩
    rw [offset, List.drop_left]
    exact List.prefix_append _ _

end Reply

/-- **`take_cookie` stays in the response and takes the cookie exactly when** there is a field
`Set-Cookie` with a semicolon in its value, and the name of the field is in no line before it. -/
theorem yields_iff (r : Reply) : Yields r ↔ ∃ value, r.cookieValue = some value ∧ 59 ∈ value ∧
    ∀ l ∈ r.status :: r.before, ¬ SET_COOKIE <:+: l := by
  constructor
  · rintro ⟨cut, hcut, htake, hcookie⟩
    obtain ⟨c, hc, hreported⟩ := Option.map_eq_some_iff.mp htake
    obtain ⟨value, hvalue, rfl⟩ := Option.map_eq_some_iff.mp hreported.symm
    obtain ⟨more, hcut'⟩ := Reply.cutStatus_value hvalue
    obtain rfl := Option.some.inj (hcut.symm.trans hcut')
    have hfind := (hcookie _ hreported.symm).1
    refine ⟨value, hvalue, ?_, ?_⟩
    · rw [← Reply.front_length] at hfind
      rw [takeCookie_at hfind] at hc
      exact (take_value_iff (Reply.value_line hvalue)).mp hc
    · rw [Reply.find_cut] at hfind
      exact Reply.find_offset_iff.mp hfind
  · rintro ⟨value, hvalue, hsemi, hno⟩
    obtain ⟨more, hcut⟩ := Reply.cutStatus_value hvalue
    have hline := Reply.value_line hvalue
    have hcookie : r.cookie = some (value.takeWhile (· ≠ 59)) := by rw [Reply.cookie, hvalue]; rfl
    have hfind : find SET_COOKIE (linesText (r.status :: r.before) ++
        (SET_COOKIE ++ (value ++ 13 :: 10 :: more))) = some r.offset := Reply.find_offset_iff.mpr hno
    rw [← Reply.find_cut] at hfind
    refine ⟨_, hcut, ?_, ?_⟩
    · rw [← Reply.front_length] at hfind
      rw [takeCookie_at hfind, (take_value_iff hline).mpr hsemi, hcookie, Option.map_some]
    · rintro cookie hc
      obtain rfl := Option.some.inj (hcookie.symm.trans hc)
      have hmem : ∀ c ∈ value.takeWhile (· ≠ 59), c ∈ value :=
        fun c hc => (List.takeWhile_prefix _).subset hc
      exact ⟨hfind, fun h13 => (hline 13 (hmem 13 h13)).2.1 rfl,
        fun h10 => (hline 10 (hmem 10 h10)).2.2 rfl⟩

/-- A login that is accepted, with a cookie that has no attributes: the semicolon is looked for after
the end of the response. -/
theorem not_yields : ∃ r : Reply, hasError testLib r.received = some false ∧
    r.cookie = some (text "id=7") ∧ (cutStatus r.received).bind takeCookie = none ∧ ¬ Yields r := by
  refine ⟨okReply [text "Set-Cookie: id=7"] [] rfl, by decide +kernel, by decide +kernel, ?_⟩
  have hnone : (cutStatus (okReply [text "Set-Cookie: id=7"] [] rfl).received).bind
      takeCookie = none := by decide +kernel
  refine ⟨hnone, ?_⟩
  rintro ⟨cut, hcut, htake, -⟩
  rw [hcut, Option.bind_some] at hnone
  rw [hnone] at htake
  cases htake

end Protocoale.Tema3

import Protocoale.Tema3.Client

/-!
The sizes of the arrays that paths and requests are written into. Only the lengths of the id, of the
token, of the cookie and of the JSON text decide whether something is written past an end
(`stays_iff`).
-/

namespace Protocoale.Tema3

open Lib.Bytes Lib.CText

section Length

variable {host url contentType bodyData method message m l : List UInt8} {lines : List (List UInt8)}
  {cookies : Option (List (List UInt8))} {authorization : Option (List UInt8)} {cookiesCount : ℕ}

/-! ### The length of a request -/

lemma length_linesText_cons :
    (linesText (l :: lines)).length = l.length + 2 + (linesText lines).length := by
  rw [linesText_cons, List.length_append, List.length_append]
  rfl

lemma length_linesText_append {rest : List (List UInt8)} :
    (linesText (lines ++ rest)).length = (linesText lines).length + (linesText rest).length := by
  rw [linesText_append, List.length_append]

/-- A builder that adds lines succeeds when these fit. -/
lemma Adds.isSome_iff {x : Option (List UInt8)} (h : Adds x message lines) :
    x.isSome = true ↔ Fits message lines := by
  rw [Option.isSome_iff_exists]
  constructor
  · rintro ⟨m, hm⟩
    exact ((h m).mp hm).2
  · intro hfits
    exact ⟨_, (h _).mpr ⟨rfl, hfits⟩⟩

/-- The length of the line with the token, with its end. -/
def tokenLength (authorization : Option (List UInt8)) : ℕ :=
  (authorization.map (·.length + 24)).getD 0

lemma tokenLength_le (h : ∀ token ∈ authorization, token.length ≤ 977) :
    tokenLength authorization ≤ 1001 := by
  cases authorization with
  | none => simp [tokenLength]
  | some token =>
    have := h token rfl
    simp [tokenLength]
    omega

lemma length_credentialLines :
    (linesText (credentialLines none authorization)).length = tokenLength authorization := by
  cases authorization with
  | none => rfl
  | some token =>
    simp [credentialLines, linesText, text, tokenLength]

/-- The line with the token fits its array. -/
lemma forall_mem_credentialLines : (∀ l ∈ credentialLines cookies authorization, l.length < LINELEN) ↔
    (∀ token ∈ authorization, token.length ≤ 977) ∧ ∀ cs ∈ cookies, (cookieText cs).length ≤ 999 := by
  unfold credentialLines
  rw [List.forall_mem_append]
  refine and_congr ?_ ?_
  · cases authorization with
    | none => simp
    | some token =>
      simp [text, LINELEN]
      omega
  · cases cookies with
    | none => simp
    | some cs =>
      simp [LINELEN]
      omega

/-- Lines that fit their array are at most this long together. -/
lemma length_linesText_le (h : ∀ l ∈ lines, l.length < LINELEN) :
    (linesText lines).length ≤ lines.length * 1001 := by
  induction lines with
  | nil => exact le_rfl
  | cons l lines ih =>
    obtain ⟨hl, hlines⟩ := List.forall_mem_cons.mp h
    have hrest := ih hlines
    rw [length_linesText_cons, List.length_cons]
    unfold LINELEN at hl
    omega

lemma length_credentialLines_le (cookies : Option (List (List UInt8)))
    (authorization : Option (List UInt8)) : (credentialLines cookies authorization).length ≤ 2 := by
  cases cookies <;> cases authorization <;> simp [credentialLines]

lemma counted_none (n : ℕ) : Counted none n := by
  rintro cs ⟨⟩

/-- **A request without a body fits the buffers** when its lines fit theirs. -/
theorem computeBodyless_isSome_iff {queryParams : Option (List UInt8)}
    (hc : Counted cookies cookiesCount) (hhost : host.length ≤ 993) :
    (computeBodyless method host url queryParams cookies cookiesCount authorization).isSome = true ↔
      method.length + (target url queryParams).length ≤ 989 ∧
        (∀ token ∈ authorization, token.length ≤ 977) ∧
        ∀ cs ∈ cookies, (cookieText cs).length ≤ 999 := by
  have hlines : (∀ l ∈ bodylessLines method host url queryParams cookies authorization,
      l.length < LINELEN) ↔ method.length + (target url queryParams).length ≤ 989 ∧
        (∀ token ∈ authorization, token.length ≤ 977) ∧
        ∀ cs ∈ cookies, (cookieText cs).length ≤ 999 := by
    rw [bodylessLines, List.forall_mem_append, forall_mem_credentialLines]
    refine and_congr_left fun _ => ?_
    simp [requestLine, text, LINELEN]
    omega
  rw [(adds_computeBodyless hc).isSome_iff, ← hlines, Fits, List.forall_mem_append]
  constructor
  · rintro ⟨⟨hl, -⟩, -⟩
    exact hl
  · intro hl
    -- at most four lines of at most 999 bytes each, and an empty one
    have hsum := length_linesText_le hl
    have hcount : (bodylessLines method host url queryParams cookies authorization).length ≤ 4 := by
      have := length_credentialLines_le cookies authorization
      rw [bodylessLines, List.length_append, List.length_cons, List.length_singleton]
      omega
    have hempty : (linesText [[]]).length = 2 := rfl
    refine ⟨⟨hl, by simp [LINELEN]⟩, ?_⟩
    rw [List.nil_append, length_linesText_append, hempty]
    unfold BUFLEN
    omega

/-! ### The length of a number -/

/-- A number with its decimal digits fits into `r` bytes, when it is at most 4 less than that. -/
lemma digits_add_le_iff {n r : ℕ} (hr : 1003 ≤ r) (hr' : r < 10000) :
    (text (toString (toInt n))).length + n ≤ r ↔ n + 4 ≤ r := by
  rcases Nat.lt_or_ge n 10000 with hn | hn
  · have hint : toInt n = n := toInt_of_lt (by omega)
    have hfour := (length_text_natCast_le_iff (n := n) (k := 4) (by norm_num)).mpr (by omega)
    have hthree := length_text_natCast_le_iff (n := n) (k := 3) (by norm_num)
    rw [hint]
    omega
  · exact iff_of_false (by omega) (by omega)

/-- The lines in front of a body fit their array. -/
lemma forall_mem_postLines (hshort : url.length + host.length + contentType.length ≤ 900)
    (hbody : bodyData.length < 10000) :
    (∀ l ∈ postLines host url contentType bodyData none authorization, l.length < LINELEN) ↔
      ∀ token ∈ authorization, token.length ≤ 977 := by
  have hint : toInt bodyData.length = bodyData.length := toInt_of_lt (by omega)
  have hfour := (length_text_natCast_le_iff (k := 4) (by norm_num)).mpr hbody
  have hline : (requestLine (text "POST") (target url none)).length < LINELEN := by
    simp [requestLine, target, text, LINELEN]
    omega
  have hhost : (text "Host: " ++ host).length < LINELEN := by
    simp [text, LINELEN]
    omega
  have htype : (text "Content-Type: " ++ contentType).length < LINELEN := by
    simp [text, LINELEN]
    omega
  have hsize : (text "Content-Length: " ++ text (toString (toInt bodyData.length))).length <
      LINELEN := by
    have hname : (text "Content-Length: ").length = 16 := rfl
    rw [List.length_append, hint, hname]
    unfold LINELEN
    omega
  rw [postLines, List.forall_mem_append, forall_mem_credentialLines]
  simp only [List.forall_mem_cons, hline, hhost, htype, hsize, true_and]
  simp

/-- **A request with a body fits the buffers** when its lines do, and the body behind them. -/
theorem computePostRequest_isSome_iff
    (hshort : url.length + host.length + contentType.length ≤ 900) :
    (computePostRequest host url contentType bodyData none 0 authorization).isSome = true ↔
      (∀ token ∈ authorization, token.length ≤ 977) ∧ url.length + host.length +
        contentType.length + tokenLength authorization + bodyData.length ≤ 4031 := by
  have hlength : (linesText (postLines host url contentType bodyData none authorization ++
      [[]])).length = url.length + host.length + contentType.length + tokenLength authorization + 60 +
        (text (toString (toInt bodyData.length))).length := by
    have hempty : (linesText [[]]).length = 2 := rfl
    have hname : (text "Content-Length: ").length = 16 := rfl
    rw [postLines, length_linesText_append, length_linesText_append, hempty, length_credentialLines]
    simp only [length_linesText_cons, List.length_append, hname]
    simp [requestLine, target, text, linesText]
    omega
  -- what is left of the buffer for the body and the digits of its length
  have hroom : (∀ token ∈ authorization, token.length ≤ 977) →
      ((text (toString (toInt bodyData.length))).length + bodyData.length ≤
        4035 - (url.length + host.length + contentType.length + tokenLength authorization) ↔
      bodyData.length + 4 ≤
        4035 - (url.length + host.length + contentType.length + tokenLength authorization)) := by
    intro ht
    have htoken := tokenLength_le ht
    exact digits_add_le_iff (by omega) (by omega)
  rw [Option.isSome_iff_exists]
  simp only [computePostRequest_eq_some_iff (counted_none 0), exists_eq_left, List.length_append, hlength]
  unfold BUFLEN
  constructor
  · rintro ⟨hl, hlen⟩
    have ht := (forall_mem_postLines hshort (by omega)).mp hl
    have := hroom ht
    exact ⟨ht, by omega⟩
  · rintro ⟨ht, hlen⟩
    have := hroom ht
    exact ⟨(forall_mem_postLines hshort (by omega)).mpr ht, by omega⟩

end Length

/-! ### The handlers -/

section Handlers

variable (lib : JsonLib)

/-- The JSON text that a command sends, for those that send one. -/
def jsonOf : Command → Option (List UInt8)
  | .register username password | .login username password =>
    dataOf lib [(text "username", username), (text "password", password)]
  | .addBook title author genre pageCount publisher =>
    dataOf lib [(text "title", title), (text "author", author), (text "genre", genre),
      (text "page_count", pageCount), (text "publisher", publisher)]
  | _ => some []

/-- Nothing is written past the end of an array while the path and the request of a command are
built, unless the JSON library has thrown before. -/
def Stays (h : Handler) (command : Command) : Prop :=
  (jsonOf lib command).isSome = true → (request lib h command).isSome = true

/-- The lengths that the arrays are large enough for. -/
def Short (h : Handler) (command : Command) : Prop :=
  match command with
  | .register _ _ => ∀ data ∈ jsonOf lib command, data.length ≤ 3976
  | .login _ _ => ∀ data ∈ jsonOf lib command, data.length ≤ 3979
  | .enterLibrary | .logout => ∀ cookie ∈ h.cookies, cookie.length ≤ 991
  | .getBooks => ∀ token ∈ h.tokenAccess, token.length ≤ 977
  | .getBook id => (cstr id).length ≤ 959 ∧ ∀ token ∈ h.tokenAccess, token.length ≤ 977
  | .addBook _ _ _ _ _ => ∀ data ∈ jsonOf lib command, (∀ token ∈ h.tokenAccess, token.length ≤ 977) ∧
      tokenLength h.tokenAccess + data.length ≤ 3976
  | .deleteBook id => (cstr id).length ≤ 956 ∧ ∀ token ∈ h.tokenAccess, token.length ≤ 977

end Handlers

variable {lib : JsonLib} {h : Handler} {command : Command} {id path url : List UInt8}
  {authorization : Option (List UInt8)}

lemma counted_singleton : Counted (h.cookies.map ([·])) 1 := by
  intro cs hcs
  obtain ⟨cookie, -, rfl⟩ := Option.map_eq_some_iff.mp hcs
  exact ⟨List.cons_ne_nil _ _, rfl⟩

lemma bookPath_eq_some_iff :
    bookPath id = some path ↔ path = booksPath ++ text "/" ++ cstr id ∧ path.length < BUFLEN := by
  have hstart : strcat BUFLEN [] booksPath = some booksPath := by decide
  unfold bookPath
  rw [hstart]
  simp only [Option.bind_eq_bind, Option.bind_some]
  exact strcat_strcat_eq_some_iff

/-- The request that is about a book: its path fits where the request line does. -/
lemma book_isSome_iff (method : List UInt8) : ((bookPath id).bind fun getBookPath =>
      computeBodyless method host getBookPath none none 0 authorization).isSome = true ↔
    method.length + (cstr id).length ≤ 962 ∧ ∀ token ∈ authorization, token.length ≤ 977 := by
  have hlen : (booksPath ++ text "/" ++ cstr id).length = 27 + (cstr id).length := by
    rw [List.length_append]
    rfl
  have hbodyless : (computeBodyless method host (booksPath ++ text "/" ++ cstr id) none none 0
      authorization).isSome = true ↔ _ := computeBodyless_isSome_iff (counted_none 0) (by decide)
  have htarget : (target (booksPath ++ text "/" ++ cstr id) none).length = 27 + (cstr id).length := by
    rw [← hlen]
    simp [target]
  rw [htarget] at hbodyless
  constructor
  · intro hsome
    obtain ⟨m, hm⟩ := Option.isSome_iff_exists.mp hsome
    obtain ⟨path, hpath, hm⟩ := Option.bind_eq_some_iff.mp hm
    obtain ⟨rfl, -⟩ := bookPath_eq_some_iff.mp hpath
    obtain ⟨hline, htoken, -⟩ := hbodyless.mp (Option.isSome_iff_exists.mpr ⟨m, hm⟩)
    exact ⟨by omega, htoken⟩
  · rintro ⟨hline, htoken⟩
    have hpath : bookPath id = some (booksPath ++ text "/" ++ cstr id) := by
      refine bookPath_eq_some_iff.mpr ⟨rfl, ?_⟩
      rw [hlen]
      unfold BUFLEN
      omega
    rw [hpath]
    exact hbodyless.mpr ⟨by omega, htoken, by simp⟩

/-- The commands that send a JSON text. -/
lemma stays_post_iff (url : List UInt8) (authorization : Option (List UInt8)) (hurl : url.length ≤ 800) (hrequest : request lib h command =
      (jsonOf lib command).bind fun data =>
        computePostRequest host url contentType data none 0 authorization) :
    Stays lib h command ↔ ∀ data ∈ jsonOf lib command, (∀ token ∈ authorization, token.length ≤ 977) ∧
      tokenLength authorization + data.length ≤ 4002 - url.length := by
  have hhost : host.length = 13 := rfl
  have htype : contentType.length = 16 := rfl
  unfold Stays
  rw [hrequest]
  cases jsonOf lib command with
  | none => simp
  | some data =>
    have hpost : (computePostRequest host url contentType data none 0 authorization).isSome = true ↔ _ :=
      computePostRequest_isSome_iff (by omega)
    rw [Option.bind_some, hpost, hhost, htype]
    simp
    intro _
    omega

/-- The commands without a body. -/
lemma stays_bodyless_iff (hjson : jsonOf lib command = some []) :
    Stays lib h command ↔ (request lib h command).isSome = true := by
  rw [Stays, hjson]
  exact imp_iff_right rfl

/-- The requests with the cookie. -/
lemma cookie_isSome_iff (url : List UInt8) (hurl : url.length ≤ 900) :
    (computeGetRequest host url none (h.cookies.map ([·])) 1 none).isSome = true ↔
      ∀ cookie ∈ h.cookies, cookie.length ≤ 991 := by
  have hbodyless : (computeGetRequest host url none (h.cookies.map ([·])) 1 none).isSome = true ↔ _ :=
    computeBodyless_isSome_iff counted_singleton (by decide)
  rw [hbodyless]
  cases h.cookies with
  | none =>
    simp [target, text]
    omega
  | some cookie =>
    simp [target, text, cookieText]
    omega

/-- **Nothing is written past the end of an array exactly for short inputs.** -/
theorem stays_iff : Stays lib h command ↔ Short lib h command := by
  cases command with
  | register username password =>
    rw [stays_post_iff registerPath none (by decide) rfl]
    simp [Short, tokenLength, registerPath, text]
  | login username password =>
    rw [stays_post_iff loginPath none (by decide) rfl]
    simp [Short, tokenLength, loginPath, text]
  | enterLibrary =>
    rw [stays_bodyless_iff rfl]
    exact cookie_isSome_iff enterLibraryPath (by decide)
  | getBooks =>
    have hbodyless : (computeGetRequest host booksPath none none 0 h.tokenAccess).isSome = true ↔ _ :=
      computeBodyless_isSome_iff (counted_none 0) (by decide)
    rw [stays_bodyless_iff rfl]
    refine hbodyless.trans ?_
    simp [Short, target, text, booksPath]
  | getBook id =>
    rw [stays_bodyless_iff rfl]
    refine (book_isSome_iff (text "GET")).trans (and_congr_left fun _ => ?_)
    have hmethod : (text "GET").length = 3 := rfl
    omega
  | addBook title author genre pageCount publisher =>
    exact stays_post_iff booksPath h.tokenAccess (by decide) rfl
  | deleteBook id =>
    rw [stays_bodyless_iff rfl]
    refine (book_isSome_iff (text "DELETE")).trans (and_congr_left fun _ => ?_)
    have hmethod : (text "DELETE").length = 6 := rfl
    omega
  | logout =>
    rw [stays_bodyless_iff rfl]
    exact cookie_isSome_iff logoutPath (by decide)

/-- The request line with an id of 960 bytes does not fit its array. -/
theorem not_stays : ¬ ∀ (lib : JsonLib) (h : Handler) (command : Command), Stays lib h command := by
  intro hclaim
  have hsome := hclaim testLib Handler.init (.getBook (List.replicate 960 49)) rfl
  have hnone : (request testLib Handler.init (.getBook (List.replicate 960 49))).isSome = false := by
    decide +kernel
  rw [hnone] at hsome
  cases hsome

end Protocoale.Tema3

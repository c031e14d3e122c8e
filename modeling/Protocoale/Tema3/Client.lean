import Protocoale.Lib.Run
import Protocoale.Tema3.Requests

/-!
The library client (`client.cpp`): the cookie and the token of a `Handler`, and what each command
sends and does with the response. A handler is not defined where it dereferences a null pointer,
leaves a buffer, or ends with an exception of the JSON library.

A login command starts a new session and a logout command ends it, whatever the server answers; the
last one of them decides the cookie, and the token is that of the last access to the library since
(`session`).
-/

namespace Protocoale.Tema3

open Lib Lib.Bytes Lib.CText Lib.Search

/-! ### The JSON library -/

/-- The characters of a JSON string that are written without an escape: all but the control
characters, the quotation mark and the backslash. -/
def Plain (s : List UInt8) : Prop := ∀ c ∈ s, 32 ≤ c ∧ c ≠ 34 ∧ c ≠ 92

/-- What the client uses of the JSON library. -/
structure JsonLib where
  Json : Type
  string : List UInt8 → Json
  /-- An object with string values, in this order. -/
  object : List (List UInt8 × List UInt8) → Json
  /-- `json::parse`, nothing when it throws. -/
  parse : List UInt8 → Option Json
  /-- `find`, nothing when it gives `end()`. -/
  find : Json → List UInt8 → Option Json
  /-- `operator[]` with a key and with an index, nothing when they throw. -/
  atKey : Json → List UInt8 → Option Json
  atIndex : Json → ℕ → Option Json
  /-- What a loop over the value goes through. -/
  items : Json → List Json
  /-- `dump`, nothing when it throws. -/
  dump : Json → Option (List UInt8)
  /-- A string that was read is written between quotation marks. -/
  dump_string : ∀ s j key t, parse s = some j → find j key = some (string t) → Plain t →
    dump (string t) = some (34 :: (t ++ [34]))

/-! ### The handlers -/

/-- The fields of `Handler` that change. -/
structure Handler where
  cookies : Option (List UInt8)
  tokenAccess : Option (List UInt8)
  deriving DecidableEq

/-- The commands, with the lines that are read after them. -/
inductive Command where
  | register (username password : List UInt8)
  | login (username password : List UInt8)
  | enterLibrary
  | getBooks
  | getBook (id : List UInt8)
  | addBook (title author genre pageCount publisher : List UInt8)
  | deleteBook (id : List UInt8)
  | logout

def host : List UInt8 := text "34.118.48.238"
def contentType : List UInt8 := text "application/json"
def registerPath : List UInt8 := text "/api/v1/tema/auth/register"
def loginPath : List UInt8 := text "/api/v1/tema/auth/login"
def enterLibraryPath : List UInt8 := text "/api/v1/tema/library/access"
def booksPath : List UInt8 := text "/api/v1/tema/library/books"
def logoutPath : List UInt8 := text "/api/v1/tema/auth/logout"

abbrev SET_COOKIE : List UInt8 := text "Set-Cookie: "

/-- `take_cookie`: it looks on in the whole response, over the zeros in it. The result is the C string
that is left at the place when the semicolon after it is overwritten. -/
def takeCookie (response : List UInt8) : Option (List UInt8) := do
  let start ← find SET_COOKIE response
  let stop ← find [59] (response.drop (start + SET_COOKIE.length))
  return cstr ((response.drop (start + SET_COOKIE.length)).take stop)

/-- The end of the status line is overwritten, to print what comes after its first space. -/
def cutStatus (response : List UInt8) : Option (List UInt8) := do
  let responseData ← strstr response (text " ")
  let fine ← find [10] ((cstr response).drop responseData)
  return response.set (responseData + fine) 0

/-- The text from the first brace on. -/
def responseData (response : List UInt8) : Option (List UInt8) :=
  (strstr response (text "\x7b")).map fun i => (cstr response).drop i

/-- The text from the first bracket on, or else from the first brace on. -/
def bodyData (response : List UInt8) : Option (List UInt8) :=
  match strstr response (text "[") with
  | some i => some ((cstr response).drop i)
  | none => responseData response

namespace Handler

def init : Handler := ⟨none, none⟩

/-- `free_stored_data` -/
def freeStoredData (_ : Handler) : Handler := ⟨none, none⟩

end Handler

section Handlers

variable (lib : JsonLib)

/-- The response has an `error`. A response without a brace has none. -/
def hasError (response : List UInt8) : Option Bool :=
  match responseData response with
  | none => some false
  | some data => (lib.parse data).map fun j => (lib.find j (text "error")).isSome

/-- What is printed of a response: nothing but its error, or else its status line. -/
def printed (response : List UInt8) : Option Unit := do
  if ← hasError lib response then return ()
  else
    let _ ← cutStatus response
    return ()

/-- The lines read after a command as a JSON text. -/
def dataOf (fields : List (List UInt8 × List UInt8)) : Option (List UInt8) :=
  (lib.dump (lib.object fields)).map cstr

/-- The path of a book. -/
def bookPath (id : List UInt8) : Option (List UInt8) := do
  let path ← strcat BUFLEN [] booksPath
  let path ← strcat BUFLEN path (text "/")
  strcat BUFLEN path (cstr id)

/-- The message that each handler sends. -/
def request (h : Handler) : Command → Option (List UInt8)
  | .register username password => do
    let data ← dataOf lib [(text "username", username), (text "password", password)]
    computePostRequest host registerPath contentType data none 0 none
  | .login username password => do
    let data ← dataOf lib [(text "username", username), (text "password", password)]
    computePostRequest host loginPath contentType data none 0 none
  | .enterLibrary => computeGetRequest host enterLibraryPath none (h.cookies.map ([·])) 1 none
  | .getBooks => computeGetRequest host booksPath none none 0 h.tokenAccess
  | .getBook id => do
    let getBookPath ← bookPath id
    computeGetRequest host getBookPath none none 0 h.tokenAccess
  | .addBook title author genre pageCount publisher => do
    let data ← dataOf lib [(text "title", title), (text "author", author), (text "genre", genre),
      (text "page_count", pageCount), (text "publisher", publisher)]
    computePostRequest host booksPath contentType data none 0 h.tokenAccess
  | .deleteBook id => do
    let getBookPath ← bookPath id
    computeDeleteRequest host getBookPath none none 0 h.tokenAccess
  | .logout => computeGetRequest host logoutPath none (h.cookies.map ([·])) 1 none

/-- `handle_auth`, for `register`. -/
def handleRegister (h : Handler) (username password response : List UInt8) :
    Option (Handler × List (List UInt8)) := do
  let message ← request lib h (.register username password)
  let _ ← printed lib response
  return (h, [message])

/-- `handle_auth`, for `login`. -/
def handleLogin (h : Handler) (username password response : List UInt8) :
    Option (Handler × List (List UInt8)) := do
  let message ← request lib h (.login username password)
  let h := h.freeStoredData
  if ← hasError lib response then return (h, [message])
  else
    let response ← cutStatus response
    if cstr response = [] then return (h, [message])
    else
      let cookie ← takeCookie response
      if cookie.length < BUFLEN then return ({ h with cookies := some cookie }, [message])
      else none

/-- The characters of a dumped value but the first one and the last one. -/
def unquoted (dumped : List UInt8) : Option (List UInt8) :=
  match cstr dumped with
  | [] => none
  | [_] => none
  | _ :: token => some token.dropLast

/-- `handle_enter_library` -/
def handleEnterLibrary (h : Handler) (response : List UInt8) :
    Option (Handler × List (List UInt8)) := do
  let message ← request lib h .enterLibrary
  let bodyData ← responseData response
  let data ← lib.parse bodyData
  let _ ← cutStatus response
  match lib.find data (text "token") with
  | none => return (h, [message])
  | some token =>
    let dumped ← lib.dump token
    let token ← unquoted dumped
    return ({ h with tokenAccess := some token }, [message])

/-- The keys of a value are read. -/
def readKeys (keys : List (List UInt8)) (book : lib.Json) : Option Unit :=
  if keys.all fun key => (lib.atKey book key).isSome then some () else none

/-- `handle_get_books` -/
def handleGetBooks (h : Handler) (response : List UInt8) : Option (Handler × List (List UInt8)) := do
  let message ← request lib h .getBooks
  let bodyData ← bodyData response
  let data ← lib.parse bodyData
  let _ ← cutStatus response
  if (lib.find data (text "error")).isSome then return (h, [message])
  else
    let _ ← (lib.items data).mapM (readKeys lib [text "id", text "title"])
    return (h, [message])

/-- `handle_get_book` -/
def handleGetBook (h : Handler) (id response : List UInt8) : Option (Handler × List (List UInt8)) := do
  let message ← request lib h (.getBook id)
  let bodyData ← bodyData response
  let data ← lib.parse bodyData
  let _ ← cutStatus response
  if (lib.find data (text "error")).isSome then return (h, [message])
  else
    let book ← lib.atIndex data 0
    let _ ← readKeys lib
      [text "title", text "author", text "publisher", text "genre", text "page_count"] book
    return (h, [message])

/-- `handle_add_book` -/
def handleAddBook (h : Handler) (title author genre pageCount publisher response : List UInt8) :
    Option (Handler × List (List UInt8)) := do
  let message ← request lib h (.addBook title author genre pageCount publisher)
  let _ ← printed lib response
  return (h, [message])

/-- `handle_delete_book` -/
def handleDeleteBook (h : Handler) (id response : List UInt8) :
    Option (Handler × List (List UInt8)) := do
  let message ← request lib h (.deleteBook id)
  let _ ← printed lib response
  return (h, [message])

/-- `handle_logout` -/
def handleLogout (h : Handler) (response : List UInt8) : Option (Handler × List (List UInt8)) := do
  let message ← request lib h .logout
  let _ ← printed lib response
  return (h.freeStoredData, [message])

/-- A command and the response to its request. -/
def step (h : Handler) : Command × List UInt8 → Option (Handler × List (List UInt8))
  | (.register username password, response) => handleRegister lib h username password response
  | (.login username password, response) => handleLogin lib h username password response
  | (.enterLibrary, response) => handleEnterLibrary lib h response
  | (.getBooks, response) => handleGetBooks lib h response
  | (.getBook id, response) => handleGetBook lib h id response
  | (.addBook title author genre pageCount publisher, response) =>
    handleAddBook lib h title author genre pageCount publisher response
  | (.deleteBook id, response) => handleDeleteBook lib h id response
  | (.logout, response) => handleLogout lib h response

end Handlers

/-! ### The session -/

/-- What a command and its response are to the session: a login, with the cookie if it was accepted;
a logout; an access to the library that gave a token; anything else. -/
inductive Event where
  | login (cookie : Option (List UInt8))
  | logout
  | entered (token : List UInt8)
  | other

/-- The cookie of the session: the last login or logout decides. -/
def lastCookie (es : List Event) : Option (List UInt8) :=
  (es.reverse.findSome? fun
    | .login cookie => some cookie
    | .logout => some none
    | _ => none).join

/-- The token of the session: that of the last access to the library since then. -/
def lastToken (es : List Event) : Option (List UInt8) :=
  (es.reverse.findSome? fun
    | .entered token => some (some token)
    | .login _ => some none
    | .logout => some none
    | .other => none).join

/-- The response starts with a status line, in which there is a space. -/
def HasStatus (response : List UInt8) : Prop :=
  ∃ line rest, response = line ++ 10 :: rest ∧ 32 ∈ line ∧ ∀ c ∈ line, c ≠ 0 ∧ c ≠ 10

/-- After the status line, the first occurrence of `Set-Cookie: ` is followed by the cookie and a
semicolon. -/
def Grants (response cookie : List UInt8) : Prop :=
  ∃ line fields rest, response = line ++ 10 :: (fields ++ (SET_COOKIE ++ (cookie ++ 59 :: rest))) ∧
    (32 ∈ line ∧ ∀ c ∈ line, c ≠ 0 ∧ c ≠ 10) ∧
    find SET_COOKIE response = some (line.length + 1 + fields.length) ∧ ∀ c ∈ cookie, c ≠ 0 ∧ c ≠ 59

section Session

variable (lib : JsonLib)

/-- The response is an error or has a status line. -/
def Answered (response : List UInt8) : Prop :=
  hasError lib response = some true ∨ hasError lib response = some false ∧ HasStatus response

/-- What can be read of the books of a response. -/
def Readable (keys : List (List UInt8)) (book : lib.Json) : Prop :=
  ∀ key ∈ keys, (lib.atKey book key).isSome

/-- What commands and responses are to the session. -/
inductive Means : Command × List UInt8 → Event → Prop
  | register {username password response} : Answered lib response →
      Means (.register username password, response) .other
  | refused {username password response} : hasError lib response = some true →
      Means (.login username password, response) (.login none)
  | granted {username password response cookie} : hasError lib response = some false →
      Grants response cookie → cookie.length < BUFLEN →
      Means (.login username password, response) (.login (some cookie))
  | entered {response data j token} : responseData response = some data → lib.parse data = some j →
      HasStatus response → lib.find j (text "token") = some (lib.string token) → Plain token →
      Means (.enterLibrary, response) (.entered token)
  | notEntered {response data j} : responseData response = some data → lib.parse data = some j →
      HasStatus response → lib.find j (text "token") = none → Means (.enterLibrary, response) .other
  | getBooks {response data j} : bodyData response = some data → lib.parse data = some j →
      HasStatus response → ((lib.find j (text "error")).isSome ∨
        ∀ book ∈ lib.items j, Readable lib [text "id", text "title"] book) →
      Means (.getBooks, response) .other
  | getBook {id response data j} : bodyData response = some data → lib.parse data = some j →
      HasStatus response → ((lib.find j (text "error")).isSome ∨ ∃ book, lib.atIndex j 0 = some book ∧
        Readable lib [text "title", text "author", text "publisher", text "genre", text "page_count"]
          book) →
      Means (.getBook id, response) .other
  | addBook {title author genre pageCount publisher response} : Answered lib response →
      Means (.addBook title author genre pageCount publisher, response) .other
  | deleteBook {id response} : Answered lib response → Means (.deleteBook id, response) .other
  | logout {response} : Answered lib response → Means (.logout, response) .logout

end Session

/-! ### Responses -/

variable {lib : JsonLib} {h h' : Handler} {line rest fields cookie token response : List UInt8}

/-- The end of the status line becomes its terminator. -/
lemma cutStatus_eq (hspace : 32 ∈ line) (hline : ∀ c ∈ line, c ≠ 0 ∧ c ≠ 10) :
    cutStatus (line ++ 10 :: rest) = some (line ++ 0 :: rest) := by
  obtain ⟨pre, post, rfl, hpre⟩ := List.eq_append_cons_of_mem hspace
  have hcstr : cstr (pre ++ 32 :: post ++ 10 :: rest) = pre ++ 32 :: (post ++ 10 :: cstr rest) := by
    rw [cstr_append fun c hc => (hline c hc).1]
    have htail : cstr (10 :: rest) = 10 :: cstr rest := rfl
    rw [htail]
    simp
  have hfind : strstr (pre ++ 32 :: post ++ 10 :: rest) (text " ") = some pre.length := by
    rw [strstr, hcstr]
    exact find_singleton hpre
  have hend : find [10] ((pre ++ 32 :: (post ++ 10 :: cstr rest)).drop pre.length) =
      some (32 :: post).length := by
    have hpost : 10 ∉ 32 :: post := fun hmem => (hline 10 (List.mem_append_right pre hmem)).2 rfl
    rw [List.drop_left]
    exact find_singleton hpost
  have hlen : pre.length + (32 :: post).length = (pre ++ 32 :: post).length := List.length_append.symm
  unfold cutStatus
  rw [hfind, hcstr]
  simp only [Option.bind_eq_bind, Option.bind_some, hend]
  rw [hlen, List.set_append_right _ _ le_rfl, Nat.sub_self]
  rfl

lemma cutStatus_isSome (hs : HasStatus response) : ∃ cut, cutStatus response = some cut := by
  obtain ⟨line, rest, rfl, hspace, hline⟩ := hs
  exact ⟨_, cutStatus_eq hspace hline⟩

/-- What is taken at the first occurrence of the name of the field. -/
lemma takeCookie_at {front tail : List UInt8}
    (hfind : find SET_COOKIE (front ++ (SET_COOKIE ++ tail)) = some front.length) :
    takeCookie (front ++ (SET_COOKIE ++ tail)) =
      (find [59] tail).map fun stop => cstr (tail.take stop) := by
  have hdrop : (front ++ (SET_COOKIE ++ tail)).drop (front.length + SET_COOKIE.length) = tail := by
    rw [← List.append_assoc, ← List.length_append, List.drop_left]
  unfold takeCookie
  rw [hfind]
  simp only [Option.bind_eq_bind, Option.bind_some, hdrop]
  cases find [59] tail <;> rfl

/-- **The cookie that is taken is the one that the response grants**, although the status line was
cut off before. -/
theorem takeCookie_eq (hg : Grants response cookie) : ∃ cut, cutStatus response = some cut ∧
    cstr cut ≠ [] ∧ takeCookie cut = some cookie := by
  obtain ⟨line, fields, rest, rfl, ⟨hspace, hline⟩, hfind, hcookie⟩ := hg
  refine ⟨_, cutStatus_eq hspace hline, ?_, ?_⟩
  · rw [cstr_append fun c hc => (hline c hc).1]
    intro hnil
    rw [(List.append_eq_nil_iff.mp hnil).1] at hspace
    cases hspace
  · have hassoc : line ++ 0 :: (fields ++ (SET_COOKIE ++ (cookie ++ 59 :: rest))) =
        (line ++ 0 :: fields) ++ (SET_COOKIE ++ (cookie ++ 59 :: rest)) := by
      simp
    have hfront : line.length + 1 + fields.length = (line ++ 0 :: fields).length := by
      simp only [List.length_append, List.length_cons]
      omega
    have hstop : find [59] (cookie ++ 59 :: rest) = some cookie.length :=
      find_singleton fun hmem => (hcookie 59 hmem).2 rfl
    rw [find_replace (b := 0) (by decide) (by decide) (by decide), hassoc, hfront] at hfind
    rw [hassoc, takeCookie_at hfind, hstop, Option.map_some, List.take_left]
    exact congrArg some (cstr_eq_self fun c hc => (hcookie c hc).1)

/-- A token without escapes is what is between the quotation marks. -/
lemma unquoted_eq (ht : Plain token) : unquoted (34 :: (token ++ [34])) = some token := by
  have hcstr : cstr (34 :: (token ++ [34])) = 34 :: (token ++ [34]) := by
    have hall : ∀ c ∈ 34 :: (token ++ [34]), c ≠ 0 := by
      intro c hc
      rcases List.mem_cons.mp hc with rfl | hc
      · decide
      · rcases List.mem_append.mp hc with hc | hc
        · rintro rfl
          exact absurd (ht 0 hc).1 (by decide)
        · rw [List.mem_singleton.mp hc]
          decide
    exact cstr_eq_self hall
  unfold unquoted
  rw [hcstr]
  cases token with
  | nil => rfl
  | cons c token =>
    show some ((c :: token) ++ [34]).dropLast = _
    rw [List.dropLast_concat]

lemma printed_isSome (ha : Answered lib response) : printed lib response = some () := by
  unfold printed
  rcases ha with he | ⟨he, hs⟩
  · rw [he]
    rfl
  · obtain ⟨cut, hcut⟩ := cutStatus_isSome hs
    rw [he, hcut]
    rfl

/-! ### Commands -/

variable {x : Command × List UInt8} {xs : List (Command × List UInt8)} {e : Event} {es : List Event}

/-- What an event does to the session. -/
def Handler.apply (h : Handler) : Event → Handler
  | .login cookie => ⟨cookie, none⟩
  | .logout => ⟨none, none⟩
  | .entered token => { h with tokenAccess := some token }
  | .other => h

section Specs

variable {username password title author genre pageCount publisher id message data : List UInt8}
  {j : lib.Json} {keys : List (List UInt8)} {book : lib.Json} {books : List lib.Json}

/-- A handler that has nothing to do with the response but to print it. -/
lemma message_printed {command : Command} (hm : request lib h command = some message)
    (ha : Answered lib response) (h' : Handler) :
    (do
      let message ← request lib h command
      let _ ← printed lib response
      return (h', [message])) = some (h', [message]) := by
  rw [hm, printed_isSome ha]
  rfl

lemma handleRegister_eq (hm : request lib h (.register username password) = some message)
    (ha : Answered lib response) :
    handleRegister lib h username password response = some (h, [message]) := by
  exact message_printed hm ha h

/-- A login that is refused leaves no session. -/
lemma handleLogin_refused (hm : request lib h (.login username password) = some message)
    (he : hasError lib response = some true) :
    handleLogin lib h username password response = some (⟨none, none⟩, [message]) := by
  unfold handleLogin
  rw [hm, he]
  rfl

lemma handleLogin_granted (hm : request lib h (.login username password) = some message)
    (he : hasError lib response = some false) (hg : Grants response cookie)
    (hlen : cookie.length < BUFLEN) :
    handleLogin lib h username password response = some (⟨some cookie, none⟩, [message]) := by
  obtain ⟨cut, hcut, hne, hcookie⟩ := takeCookie_eq hg
  unfold handleLogin
  rw [hm, he, hcut]
  simp only [Option.bind_eq_bind, Option.bind_some, if_neg hne, hcookie, if_pos hlen]
  rfl

lemma handleEnterLibrary_entered (hm : request lib h .enterLibrary = some message)
    (hd : responseData response = some data) (hj : lib.parse data = some j) (hs : HasStatus response)
    (ht : lib.find j (text "token") = some (lib.string token)) (hp : Plain token) :
    handleEnterLibrary lib h response = some ({ h with tokenAccess := some token }, [message]) := by
  obtain ⟨cut, hcut⟩ := cutStatus_isSome hs
  unfold handleEnterLibrary
  rw [hm, hd, hcut]
  simp only [Option.bind_eq_bind, Option.bind_some, hj, ht, lib.dump_string _ _ _ _ hj ht hp,
    unquoted_eq hp]
  rfl

lemma handleEnterLibrary_refused (hm : request lib h .enterLibrary = some message)
    (hd : responseData response = some data) (hj : lib.parse data = some j) (hs : HasStatus response)
    (ht : lib.find j (text "token") = none) :
    handleEnterLibrary lib h response = some (h, [message]) := by
  obtain ⟨cut, hcut⟩ := cutStatus_isSome hs
  unfold handleEnterLibrary
  rw [hm, hd, hcut]
  simp only [Option.bind_eq_bind, Option.bind_some, hj, ht]
  rfl

lemma readKeys_eq (hread : Readable lib keys book) : readKeys lib keys book = some () :=
  if_pos (List.all_eq_true.mpr hread)

lemma readBooks_isSome (hread : ∀ book ∈ books, Readable lib keys book) :
    ∃ l, books.mapM (readKeys lib keys) = some l := by
  induction books with
  | nil => exact ⟨[], rfl⟩
  | cons book books ih =>
    obtain ⟨l, hl⟩ := ih fun b hb => hread b (List.mem_cons_of_mem book hb)
    rw [List.mapM_cons, readKeys_eq (hread book List.mem_cons_self), hl]
    exact ⟨_, rfl⟩

lemma handleGetBooks_eq (hm : request lib h .getBooks = some message)
    (hd : bodyData response = some data) (hj : lib.parse data = some j) (hs : HasStatus response)
    (hread : (lib.find j (text "error")).isSome ∨
      ∀ book ∈ lib.items j, Readable lib [text "id", text "title"] book) :
    handleGetBooks lib h response = some (h, [message]) := by
  obtain ⟨cut, hcut⟩ := cutStatus_isSome hs
  unfold handleGetBooks
  rw [hm, hd, hcut]
  simp only [Option.bind_eq_bind, Option.bind_some, hj]
  split
  · rfl
  · next hno =>
    obtain ⟨l, hl⟩ := readBooks_isSome (hread.resolve_left hno)
    rw [hl]
    rfl

lemma handleGetBook_eq (hm : request lib h (.getBook id) = some message)
    (hd : bodyData response = some data) (hj : lib.parse data = some j) (hs : HasStatus response)
    (hread : (lib.find j (text "error")).isSome ∨ ∃ book, lib.atIndex j 0 = some book ∧
      Readable lib [text "title", text "author", text "publisher", text "genre", text "page_count"]
        book) :
    handleGetBook lib h id response = some (h, [message]) := by
  obtain ⟨cut, hcut⟩ := cutStatus_isSome hs
  unfold handleGetBook
  rw [hm, hd, hcut]
  simp only [Option.bind_eq_bind, Option.bind_some, hj]
  split
  · rfl
  · next hno =>
    obtain ⟨book, hbook, hkeys⟩ := hread.resolve_left hno
    rw [hbook, Option.bind_some, readKeys_eq hkeys]
    rfl

lemma handleAddBook_eq
    (hm : request lib h (.addBook title author genre pageCount publisher) = some message)
    (ha : Answered lib response) :
    handleAddBook lib h title author genre pageCount publisher response = some (h, [message]) := by
  exact message_printed hm ha h

lemma handleDeleteBook_eq (hm : request lib h (.deleteBook id) = some message)
    (ha : Answered lib response) : handleDeleteBook lib h id response = some (h, [message]) := by
  exact message_printed hm ha h

/-- A logout leaves no session, refused or not. -/
lemma handleLogout_eq (hm : request lib h .logout = some message) (ha : Answered lib response) :
    handleLogout lib h response = some (⟨none, none⟩, [message]) := by
  exact message_printed hm ha h.freeStoredData

end Specs

/-- **A command does to the fields what its event does to the session**, when its message fits. -/
theorem step_means (hm : Means lib x e) (hfit : (request lib h x.1).isSome) :
    ∃ out, step lib h x = some (h.apply e, out) := by
  obtain ⟨message, hmessage⟩ := Option.isSome_iff_exists.mp hfit
  refine ⟨[message], ?_⟩
  cases hm with
  | register ha => exact handleRegister_eq hmessage ha
  | refused he => exact handleLogin_refused hmessage he
  | granted he hg hlen => exact handleLogin_granted hmessage he hg hlen
  | entered hd hj hs ht hp => exact handleEnterLibrary_entered hmessage hd hj hs ht hp
  | notEntered hd hj hs ht => exact handleEnterLibrary_refused hmessage hd hj hs ht
  | getBooks hd hj hs hread => exact handleGetBooks_eq hmessage hd hj hs hread
  | getBook hd hj hs hread => exact handleGetBook_eq hmessage hd hj hs hread
  | addBook ha => exact handleAddBook_eq hmessage ha
  | deleteBook ha => exact handleDeleteBook_eq hmessage ha
  | logout ha => exact handleLogout_eq hmessage ha

/-- A run of commands does what their events do one after the other. -/
theorem exec_means (hm : List.Forall₂ (Means lib) xs es)
    (hfit : Run.Along (step lib) (fun h x => (request lib h x.1).isSome) h xs) :
    ∃ out, Run.exec (step lib) h xs = some (es.foldl Handler.apply h, out) := by
  induction hm generalizing h with
  | nil => exact ⟨[], rfl⟩
  | cons hx _ ih =>
    obtain ⟨out, hstep⟩ := step_means hx hfit.head
    rw [Run.along_cons hstep] at hfit
    obtain ⟨out', hrest⟩ := ih hfit.2
    refine ⟨out ++ out', ?_⟩
    rw [Run.exec_cons hstep, hrest]
    rfl

/-- The last events decide. -/
lemma foldl_apply (es : List Event) : es.foldl Handler.apply Handler.init =
    ⟨lastCookie es, lastToken es⟩ := by
  induction es using List.reverseRecOn with
  | nil => rfl
  | append_singleton es e ih =>
    rw [List.foldl_append, ih]
    unfold lastCookie lastToken
    rw [List.reverse_append]
    cases e with
    | login cookie => rfl
    | logout => rfl
    | entered token => rfl
    | other => rfl

/-- **The session of the client**: for every sequence of commands and responses, the cookie is that
of the last login or logout command, and the token that of the last access to the library since. -/
theorem session (hm : List.Forall₂ (Means lib) xs es)
    (hfit : Run.Along (step lib) (fun h x => (request lib h x.1).isSome) Handler.init xs) :
    ∃ h out, Run.exec (step lib) Handler.init xs = some (h, out) ∧ h.cookies = lastCookie es ∧
      h.tokenAccess = lastToken es := by
  obtain ⟨out, hexec⟩ := exec_means hm hfit
  rw [foldl_apply] at hexec
  exact ⟨_, out, hexec, rfl, rfl⟩

/-! ### A run -/

/-- Strings and objects with string values. -/
inductive TestJson where
  | string (s : List UInt8)
  | object (fields : List (List UInt8 × List UInt8))
  deriving DecidableEq

namespace TestJson

/-- A string as it is written: quotation marks and backslashes follow a backslash. -/
def quote (s : List UInt8) : List UInt8 :=
  34 :: ((s.flatMap fun c => if c = 34 ∨ c = 92 then [92, c] else [c]) ++ [34])

def dump : TestJson → List UInt8
  | string s => quote s
  | object fields => text "\x7b" ++
      List.intercalate (text ",") (fields.map fun x => quote x.1 ++ text ":" ++ quote x.2) ++ text "\x7d"

def find : TestJson → List UInt8 → Option TestJson
  | string _, _ => none
  | object fields, key => (fields.lookup key).map string

/-- The bodies of the responses below. -/
def bodies : List TestJson := [object [(text "error", text "no")], object [(text "token", text "a\"b")]]

lemma quote_eq {s : List UInt8} (h : Plain s) : quote s = 34 :: (s ++ [34]) := by
  have hflat : (s.flatMap fun c => if c = 34 ∨ c = 92 then [92, c] else [c]) = s := by
    induction s with
    | nil => rfl
    | cons c s ih =>
      have hc := (h c List.mem_cons_self).2
      rw [List.flatMap_cons, ih fun x hx => h x (List.mem_cons_of_mem c hx), if_neg (by simp [hc])]
      rfl
  rw [quote, hflat]

end TestJson

def testLib : JsonLib where
  Json := TestJson
  string := .string
  object := .object
  parse s := TestJson.bodies.find? fun j => j.dump = s
  find := TestJson.find
  atKey := TestJson.find
  atIndex _ _ := none
  items _ := []
  dump j := some j.dump
  dump_string _ _ _ _ _ _ ht := congrArg some (TestJson.quote_eq ht)

/-- A login that is accepted. -/
def accepted : Command × List UInt8 := (.login (text "ana") (text "pw"),
  text "HTTP/1.1 200 OK\r\nSet-Cookie: id=7; Path=/\r\n\r\n" ++ [0])

/-- The response to a command that is refused. -/
def refusal : List UInt8 :=
  text "HTTP/1.1 400 Bad Request\r\n\r\n\x7b\"error\":\"no\"\x7d" ++ [0]

lemma means_accepted : Means testLib accepted (.login (some (text "id=7"))) := by
  refine Means.granted (by decide +kernel) ?_ (by decide +kernel)
  exact ⟨text "HTTP/1.1 200 OK\r", [], text " Path=/\r\n\r\n" ++ [0], by decide +kernel,
    by decide +kernel, by decide +kernel, by decide +kernel⟩

theorem session_accepted : ∃ h out, Run.exec (step testLib) Handler.init
    [accepted, (.register (text "ana") (text "pw"), refusal)] = some (h, out) ∧
      h.cookies = some (text "id=7") ∧ h.tokenAccess = none := by
  refine session (List.Forall₂.cons means_accepted
    (List.Forall₂.cons (Means.register (Or.inl (by decide +kernel))) List.Forall₂.nil)) ?_
  decide +kernel

/-- A token with a quotation mark, and the response to an access to the library that gives it. -/
def quotedBody : List UInt8 := text "\x7b\"token\":\"a\\\"b\"\x7d"

def quotedToken : List UInt8 := text "HTTP/1.1 200 OK\r\n\r\n" ++ (quotedBody ++ [0])

/-- A login and a logout that are refused end the session all the same, and a token with a quotation
mark is kept as it is written. -/
theorem not_session :
    (¬ ∀ (lib : JsonLib) xs h out username password response h' out',
      Run.exec (step lib) Handler.init xs = some (h, out) → hasError lib response = some true →
      step lib h (.login username password, response) = some (h', out') → h' = h) ∧
    (¬ ∀ (lib : JsonLib) xs h out response h' out',
      Run.exec (step lib) Handler.init xs = some (h, out) → hasError lib response = some true →
      step lib h (.logout, response) = some (h', out') → h' = h) ∧
    (¬ ∀ (lib : JsonLib) response data j token h' out', responseData response = some data →
      lib.parse data = some j → lib.find j (text "token") = some (lib.string token) →
      step lib Handler.init (.enterLibrary, response) = some (h', out') →
      h'.tokenAccess = some token) := by
  have hrun : (Run.exec (step testLib) Handler.init [accepted]).map (·.1) =
      some ⟨some (text "id=7"), none⟩ := by decide +kernel
  obtain ⟨⟨h, out⟩, hexec, rfl⟩ := Option.map_eq_some_iff.mp hrun
  have hrefused : hasError testLib refusal = some true := by decide +kernel
  refine ⟨?_, ?_, ?_⟩
  · intro hclaim
    have hstep : (step testLib ⟨some (text "id=7"), none⟩
        (.login (text "ana") (text "pw"), refusal)).map (·.1) = some ⟨none, none⟩ := by decide +kernel
    obtain ⟨⟨h', out'⟩, hs, rfl⟩ := Option.map_eq_some_iff.mp hstep
    have hsame := hclaim testLib _ _ _ _ _ _ _ _ hexec hrefused hs
    cases hsame
  · intro hclaim
    have hstep : (step testLib ⟨some (text "id=7"), none⟩ (.logout, refusal)).map (·.1) =
        some ⟨none, none⟩ := by decide +kernel
    obtain ⟨⟨h', out'⟩, hs, rfl⟩ := Option.map_eq_some_iff.mp hstep
    have hsame := hclaim testLib _ _ _ _ _ _ hexec hrefused hs
    cases hsame
  · intro hclaim
    have hstep : (step testLib Handler.init (.enterLibrary, quotedToken)).map (·.1.tokenAccess) =
        some (some (text "a\\\"b")) := by decide +kernel
    obtain ⟨⟨h', out'⟩, hs, htoken⟩ := Option.map_eq_some_iff.mp hstep
    have hdata : responseData quotedToken = some quotedBody := by decide +kernel
    have hparse : TestJson.bodies.find? (fun j => j.dump = quotedBody) =
        some (.object [(text "token", text "a\"b")]) := by decide +kernel
    have hfind : testLib.find (TestJson.object [(text "token", text "a\"b")]) (text "token") =
        some (testLib.string (text "a\"b")) := rfl
    have hsame := hclaim testLib quotedToken _ _ _ h' out' hdata hparse hfind hs
    rw [htoken] at hsame
    exact absurd hsame (by decide +kernel)

end Protocoale.Tema3

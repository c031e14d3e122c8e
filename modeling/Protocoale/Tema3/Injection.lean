import Protocoale.Lib.Http
import Protocoale.Lib.Uri
import Protocoale.Tema3.Buffers

/-!
The id that a user types in the requests about a book. It is put into the target of the request as it
is, and nowhere else; so the header fields never depend on it, but the target is the path of the book
only for an id whose characters stand for themselves in a segment (`addresses_iff`).
-/

namespace Protocoale.Tema3

open Lib.Bytes Lib.CText Lib.Http Lib.Search Lib.Uri

/-- What a request about a book has after its first line. -/
def headers (h : Handler) : List UInt8 :=
  linesText ([text "Host: " ++ host] ++ credentialLines none h.tokenAccess ++ [[]])

/-- A request line of three parts, the second of which is the path of the books with one more segment,
that stands for the id. -/
def Addresses (line id : List UInt8) : Prop :=
  ∃ method segment version, line.splitOn 32 = [method, booksPath ++ text "/" ++ segment, version] ∧
    decodeSegment segment = some id

variable {lib : JsonLib} {h : Handler} {command : Command} {id m method line : List UInt8}

/-- The line of the request about a book. -/
def bookLine (method id : List UInt8) : List UInt8 :=
  requestLine method (booksPath ++ text "/" ++ cstr id)

lemma bookLine_eq (method id : List UInt8) : bookLine method id =
    method ++ 32 :: (booksPath ++ text "/" ++ cstr id ++ 32 :: text "HTTP/1.1") := by
  simp [bookLine, requestLine, text]

/-- The bytes of a request about a book. -/
lemma eq_of_book_request (method : List UInt8) (hm : ((bookPath id).bind fun getBookPath =>
      computeBodyless method host getBookPath none none 0 h.tokenAccess) = some m) :
    m = bookLine method id ++ (CRLF ++ headers h) := by
  obtain ⟨path, hpath, hm⟩ := Option.bind_eq_some_iff.mp hm
  obtain ⟨rfl, -⟩ := bookPath_eq_some_iff.mp hpath
  obtain ⟨rfl, -⟩ := (adds_computeBodyless (counted_none 0) m).mp hm
  rw [bodylessLines, headers, List.cons_append, List.cons_append, linesText_cons]
  simp [bookLine, target, text]

/-- A line without a line feed ends where the header fields begin. -/
lemma cut_bookLine (hmethod : 10 ∉ method) (hid : 10 ∉ id) (rest : List UInt8) :
    cut CRLF (bookLine method id ++ (CRLF ++ rest)) = some (bookLine method id, rest) := by
  have hbooks : 10 ∉ booksPath ++ text "/" := by decide
  have hversion : 10 ∉ text "HTTP/1.1" := by decide
  have hcstr : 10 ∉ cstr id := fun hmem => hid ((cstr_isPrefix id).subset hmem)
  refine cut_of_find (find_pair ?_ (by decide))
  rw [bookLine_eq]
  simp only [List.mem_append, List.mem_cons] at hbooks ⊢
  rintro (hmem | hmem | ((hmem | hmem) | hmem | hmem))
  · exact hmethod hmem
  · exact absurd hmem (by decide)
  · exact hbooks hmem
  · exact hcstr hmem
  · exact absurd hmem (by decide)
  · exact hversion hmem

/-- The id is read back when its characters stand for themselves, and only then. -/
lemma addresses_bookLine_iff (hmethod : 32 ∉ method) :
    Addresses (bookLine method id) id ↔ ∀ c ∈ id, isPchar c = true := by
  have hversion : 32 ∉ text "HTTP/1.1" := by decide
  rw [bookLine_eq]
  constructor
  · rintro ⟨method', segment, version, hsplit, hdecode⟩
    obtain ⟨-, htarget, -⟩ := eq_of_splitOn_line hmethod hversion hsplit
    obtain rfl := List.append_cancel_left htarget
    -- what is decoded is the whole id only when nothing was decoded
    obtain ⟨hle, heq⟩ := of_decodeSegment hdecode
    have hge : (cstr id).length ≤ id.length := (cstr_isPrefix id).length_le
    obtain ⟨hself, hall⟩ := heq (by omega)
    rwa [hself]
  · intro hall
    have hself : cstr id = id := by
      refine cstr_eq_self ?_
      rintro c hc rfl
      exact absurd (hall 0 hc) (by decide)
    have htarget : 32 ∉ booksPath ++ text "/" ++ id := by
      have hbooks : 32 ∉ booksPath ++ text "/" := by decide
      rw [List.mem_append]
      rintro (hmem | hmem)
      · exact hbooks hmem
      · exact absurd (hall 32 hmem) (by decide)
    rw [hself]
    exact ⟨method, id, text "HTTP/1.1", splitOn_line hmethod htarget hversion,
      decodeSegment_eq_self hall⟩

/-- **The header fields do not depend on the id**, and the request line is that of the book with this
id exactly when its characters stand for themselves in a segment. -/
theorem addresses_iff (hcommand : command = .getBook id ∨ command = .deleteBook id) (hid : 10 ∉ id)
    (hm : request lib h command = some m) : ∃ line, cut CRLF m = some (line, headers h) ∧
      (Addresses line id ↔ ∀ c ∈ id, isPchar c = true) := by
  rcases hcommand with rfl | rfl
  · obtain rfl := eq_of_book_request (text "GET") hm
    exact ⟨_, cut_bookLine (by decide) hid _, addresses_bookLine_iff (by decide)⟩
  · obtain rfl := eq_of_book_request (text "DELETE") hm
    exact ⟨_, cut_bookLine (by decide) hid _, addresses_bookLine_iff (by decide)⟩

theorem addresses_iff_seven : ∃ m, request testLib Handler.init (.getBook (text "7")) = some m ∧
    ∃ line, cut CRLF m = some (line, headers Handler.init) ∧
      (Addresses line (text "7") ↔ ∀ c ∈ text "7", isPchar c = true) := by
  have hsome : (request testLib Handler.init (.getBook (text "7"))).isSome = true := by
    decide +kernel
  obtain ⟨m, hm⟩ := Option.isSome_iff_exists.mp hsome
  exact ⟨m, hm, addresses_iff (Or.inl rfl) (by decide) hm⟩

/-- With a space in the id, the request line has four parts. -/
theorem not_addresses : ¬ ∀ (lib : JsonLib) (h : Handler) (id m : List UInt8), 10 ∉ id →
    request lib h (.getBook id) = some m →
    ∃ line rest, cut CRLF m = some (line, rest) ∧ Addresses line id := by
  intro hclaim
  have hparts : (request testLib Handler.init (.getBook (text "a b"))).map
      (fun m => (cut CRLF m).map fun p => (p.1.splitOn 32).length) = some (some 4) := by
    decide +kernel
  obtain ⟨m, hm, hcut⟩ := Option.map_eq_some_iff.mp hparts
  obtain ⟨line, rest, hline, method, segment, version, hsplit, -⟩ :=
    hclaim testLib Handler.init _ m (by decide) hm
  rw [hline, Option.map_some, hsplit] at hcut
  cases hcut

end Protocoale.Tema3

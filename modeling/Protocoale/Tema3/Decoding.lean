import Protocoale.Lib.Http
import Protocoale.Tema3.Requests

/-!
What a server reads in the requests of the client. Every field of a request is read back, and nothing
is left over (`decode_requests`).
-/

namespace Protocoale.Tema3

open Lib Lib.CText Lib.Http Lib.Search

/-- What the builders put into a request. -/
structure Parts where
  method : List UInt8
  url : List UInt8
  query : Option (List UInt8)
  host : Option (List UInt8)
  contentType : Option (List UInt8)
  token : Option (List UInt8)
  cookies : Option (List (List UInt8))
  body : List UInt8
  deriving DecidableEq

/-- The token in the value of an `Authorization` field. -/
def bearer (value : List UInt8) : Option (List UInt8) := do
  let (scheme, token) ← cut (text " ") value
  if scheme = text "Bearer" then some token else none

/-- The parts of a request that was read. -/
def partsOf (r : Request) : Parts where
  method := r.method
  url := ((cut (text "?") r.target).map Prod.fst).getD r.target
  query := (cut (text "?") r.target).map Prod.snd
  host := field (text "Host") r.fields
  contentType := field (text "Content-Type") r.fields
  token := (field (text "Authorization") r.fields).bind bearer
  cookies := (field (text "Cookie") r.fields).map (·.splitOn 59)
  body := r.body

/-- The parts of the first request in the bytes, and what is left over. -/
def decode (bytes : List UInt8) : Option (Parts × List UInt8) := do
  let (r, rest) ← parse bytes
  if r.version = text "HTTP/1.1" then some (partsOf r, rest) else none

/-! ### Requests as header fields -/

/-- The fields with the token and the cookies, where there are any. -/
def credentialFields (cookies : Option (List (List UInt8))) (authorization : Option (List UInt8)) :
    List Field :=
  (authorization.map fun token => (text "Authorization", text "Bearer " ++ token)).toList ++
    (cookies.map fun cs => (text "Cookie", [59].intercalate cs)).toList

/-- A request without a body. -/
def bodylessRequest (method host url : List UInt8) (queryParams : Option (List UInt8))
    (cookies : Option (List (List UInt8))) (authorization : Option (List UInt8)) : Request where
  method := method
  target := target url queryParams
  version := text "HTTP/1.1"
  fields := (text "Host", host) :: credentialFields cookies authorization
  body := []

/-- A request with a body. -/
def postRequest (host url contentType bodyData : List UInt8) (cookies : Option (List (List UInt8)))
    (authorization : Option (List UInt8)) : Request where
  method := text "POST"
  target := target url none
  version := text "HTTP/1.1"
  fields := (text "Host", host) :: (text "Content-Type", contentType) ::
    (text "Content-Length", text (toString (toInt bodyData.length))) ::
      credentialFields cookies authorization
  body := bodyData

variable {host url contentType bodyData method m : List UInt8} {queryParams : Option (List UInt8)}
  {cookies : Option (List (List UInt8))} {authorization : Option (List UInt8)} {cookiesCount : ℕ}
  {fields : List Field}

/-- Header fields are written as lines. -/
lemma linesText_fields :
    linesText (fields.map fun f => f.1 ++ (SEP ++ f.2)) = fields.flatMap fieldBytes := by
  unfold linesText fieldBytes
  rw [List.flatMap_map]
  rfl

lemma credentialLines_eq : credentialLines cookies authorization =
    (credentialFields cookies authorization).map fun f => f.1 ++ (SEP ++ f.2) := by
  unfold credentialLines credentialFields
  cases authorization <;> cases cookies <;> simp [cookieText, text]

/-- **The builders write a request**, when it fits the buffers. -/
lemma eq_bytes_of_computeBodyless (hc : Counted cookies cookiesCount)
    (hm : computeBodyless method host url queryParams cookies cookiesCount authorization = some m) :
    m = (bodylessRequest method host url queryParams cookies authorization).bytes := by
  obtain ⟨rfl, -⟩ := (adds_computeBodyless hc m).mp hm
  have hlines : bodylessLines method host url queryParams cookies authorization =
      requestLine method (target url queryParams) ::
        ((text "Host", host) :: credentialFields cookies authorization).map
          fun f => f.1 ++ (SEP ++ f.2) := by
    rw [bodylessLines, credentialLines_eq]
    simp [text]
  rw [hlines, linesText_append, linesText_cons, linesText_fields]
  simp [Request.bytes, Request.line, bodylessRequest, requestLine, linesText, text]

lemma eq_bytes_of_computePostRequest (hc : Counted cookies cookiesCount)
    (hm : computePostRequest host url contentType bodyData cookies cookiesCount authorization =
      some m) :
    m = (postRequest host url contentType bodyData cookies authorization).bytes := by
  obtain ⟨rfl, -, -⟩ := (computePostRequest_eq_some_iff hc).mp hm
  have hlines : postLines host url contentType bodyData cookies authorization =
      requestLine (text "POST") (target url none) ::
        ((text "Host", host) :: (text "Content-Type", contentType) ::
          (text "Content-Length", text (toString (toInt bodyData.length))) ::
            credentialFields cookies authorization).map fun f => f.1 ++ (SEP ++ f.2) := by
    have hlength : text "Content-Length: " = text "Content-Length" ++ SEP := by decide
    have htype : text "Content-Type: " = text "Content-Type" ++ SEP := by decide
    have hhost : text "Host: " = text "Host" ++ SEP := by decide
    rw [postLines, credentialLines_eq, hlength, htype, hhost]
    simp
  rw [hlines, linesText_append, linesText_cons, linesText_fields]
  simp [Request.bytes, Request.line, postRequest, requestLine, linesText, text]

/-! ### Reading the fields -/

/-- The fields of a request can be told apart: they have no carriage return, the URL and the query no
space, and the URL no question mark; and the cookies have no semicolon. -/
structure Legible (host url contentType : List UInt8) (queryParams : Option (List UInt8))
    (cookies : Option (List (List UInt8))) (authorization : Option (List UInt8)) : Prop where
  host : 13 ∉ host
  url : 13 ∉ url ∧ 32 ∉ url ∧ 63 ∉ url
  contentType : 13 ∉ contentType
  queryParams : ∀ q ∈ queryParams, 13 ∉ q ∧ 32 ∉ q
  cookies : ∀ cs ∈ cookies, cs ≠ [] ∧ ∀ c ∈ cs, 13 ∉ c ∧ 59 ∉ c
  authorization : ∀ token ∈ authorization, 13 ∉ token

lemma not_mem_intercalate {cs : List (List UInt8)} (h : ∀ c ∈ cs, 13 ∉ c) :
    13 ∉ [59].intercalate cs := by
  induction cs with
  | nil => simp
  | cons c cs ih =>
    obtain ⟨hc, hcs⟩ := List.forall_mem_cons.mp h
    cases cs with
    | nil => simpa using hc
    | cons d cs =>
      rw [List.intercalate_cons_cons]
      simp [hc, ih hcs]

section Fields

variable (hl : Legible host url contentType queryParams cookies authorization)
include hl

lemma credentialFields_legible :
    ∀ f ∈ credentialFields cookies authorization, 58 ∉ f.1 ∧ 13 ∉ f.1 ∧ 13 ∉ f.2 := by
  unfold credentialFields
  rw [List.forall_mem_append]
  constructor
  · intro f hf
    obtain ⟨token, htoken, rfl⟩ := Option.map_eq_some_iff.mp (Option.mem_toList.mp hf)
    have hname : 58 ∉ text "Authorization" ∧ 13 ∉ text "Authorization" := by decide
    have hscheme : 13 ∉ text "Bearer " := by decide
    refine ⟨hname.1, hname.2, ?_⟩
    simp [hscheme, hl.authorization token htoken]
  · intro f hf
    obtain ⟨cs, hcs, rfl⟩ := Option.map_eq_some_iff.mp (Option.mem_toList.mp hf)
    have hname : 58 ∉ text "Cookie" ∧ 13 ∉ text "Cookie" := by decide
    exact ⟨hname.1, hname.2, not_mem_intercalate fun c hc => ((hl.cookies cs hcs).2 c hc).1⟩

lemma target_legible : 32 ∉ target url queryParams ∧ 13 ∉ target url queryParams := by
  obtain ⟨hcr, hspace, -⟩ := hl.url
  cases queryParams with
  | none => simp [target, hcr, hspace]
  | some q =>
    obtain ⟨hq, hq'⟩ := hl.queryParams q rfl
    simp [target, text, hcr, hspace, hq, hq']

/-- The target is read as the URL and the query. -/
lemma cut_target : ((cut (text "?") (target url queryParams)).map Prod.fst).getD
      (target url queryParams) = url ∧
    (cut (text "?") (target url queryParams)).map Prod.snd = queryParams := by
  cases queryParams with
  | none =>
    have hcut : cut (text "?") (target url none) = none := by
      have hurl : target url none = url := List.append_nil url
      rw [hurl]
      exact cut_eq_none_of_not_mem hl.url.2.2
    rw [hcut]
    exact ⟨List.append_nil url, rfl⟩
  | some q =>
    have hcut : cut (text "?") (target url (some q)) = some (url, q) := cut_cons hl.url.2.2
    rw [hcut]
    exact ⟨rfl, rfl⟩

omit hl in
/-- The token that was put into its field. -/
lemma bearer_eq (authorization : Option (List UInt8)) :
    (authorization.map (text "Bearer " ++ ·)).bind bearer = authorization := by
  cases authorization with
  | none => rfl
  | some token =>
    have hcut : cut (text " ") (text "Bearer " ++ token) = some (text "Bearer", token) := by
      have hscheme : 32 ∉ text "Bearer" := by decide
      exact cut_cons hscheme
    have hbearer : bearer (text "Bearer " ++ token) = some token := by
      rw [bearer, hcut]
      rfl
    exact hbearer

/-- The cookies that were put into their field. -/
lemma splitOn_cookies :
    (cookies.map ([59].intercalate ·)).map (·.splitOn (59 : UInt8)) = cookies := by
  cases cookies with
  | none => rfl
  | some cs =>
    obtain ⟨hne, hcs⟩ := hl.cookies cs rfl
    exact congrArg some (List.splitOn_intercalate 59 (fun c hc => (hcs c hc).2) hne)

/-! ### Requests without a body -/

omit hl in
lemma field_bodyless (host : List UInt8) (cookies : Option (List (List UInt8)))
    (authorization : Option (List UInt8)) :
    let fields := (text "Host", host) :: credentialFields cookies authorization
    field (text "Content-Type") fields = none ∧
      field (text "Authorization") fields = authorization.map (text "Bearer " ++ ·) ∧
      field (text "Cookie") fields = cookies.map ([59].intercalate ·) ∧
      field (text "Content-Length") fields = none := by
  cases authorization <;> cases cookies <;> exact ⟨rfl, rfl, rfl, rfl⟩

lemma partsOf_bodyless : partsOf (bodylessRequest method host url queryParams cookies authorization) =
    ⟨method, url, queryParams, some host, none, authorization, cookies, []⟩ := by
  obtain ⟨hurl, hquery⟩ := cut_target hl
  obtain ⟨htype, hauth, hcookie, -⟩ := field_bodyless host cookies authorization
  unfold partsOf bodylessRequest
  dsimp only
  rw [hurl, hquery, htype, hauth, hcookie, bearer_eq, splitOn_cookies hl]
  rfl

lemma wellFormed_bodyless (hmethod : 32 ∉ method ∧ 13 ∉ method) :
    (bodylessRequest method host url queryParams cookies authorization).WellFormed where
  line := by
    have hversion : 32 ∉ text "HTTP/1.1" ∧ 13 ∉ text "HTTP/1.1" := by decide
    simp only [List.forall_mem_cons]
    exact ⟨hmethod, target_legible hl, hversion, by simp⟩
  fields := by
    have hname : 58 ∉ text "Host" ∧ 13 ∉ text "Host" := by decide
    exact List.forall_mem_cons.mpr ⟨⟨hname.1, hname.2, hl.host⟩, credentialFields_legible hl⟩
  length := by
    have hlength := (field_bodyless host cookies authorization).2.2.2
    unfold bodylessRequest
    dsimp only at hlength ⊢
    rw [contentLength, hlength]
    rfl

lemma decode_bodyless (hmethod : 32 ∉ method ∧ 13 ∉ method) (hc : Counted cookies cookiesCount)
    (hm : computeBodyless method host url queryParams cookies cookiesCount authorization = some m) :
    decode m =
      some (⟨method, url, queryParams, some host, none, authorization, cookies, []⟩, []) := by
  have hparse : parse ((bodylessRequest method host url queryParams cookies authorization).bytes ++
      []) = _ := parse_bytes (wellFormed_bodyless hl hmethod)
  rw [List.append_nil, ← eq_bytes_of_computeBodyless hc hm] at hparse
  unfold decode
  rw [hparse, ← partsOf_bodyless hl]
  rfl

end Fields

/-! ### Requests with a body -/

section Post

variable (hl : Legible host url contentType none cookies authorization)

lemma field_post (host contentType length : List UInt8) (cookies : Option (List (List UInt8)))
    (authorization : Option (List UInt8)) :
    let fields := (text "Host", host) :: (text "Content-Type", contentType) ::
      (text "Content-Length", length) :: credentialFields cookies authorization
    field (text "Authorization") fields = authorization.map (text "Bearer " ++ ·) ∧
      field (text "Cookie") fields = cookies.map ([59].intercalate ·) ∧
      field (text "Content-Length") fields = some length := by
  cases authorization <;> cases cookies <;> exact ⟨rfl, rfl, rfl⟩

include hl

lemma partsOf_post : partsOf (postRequest host url contentType bodyData cookies authorization) =
    ⟨text "POST", url, none, some host, some contentType, authorization, cookies, bodyData⟩ := by
  obtain ⟨hurl, hquery⟩ := cut_target hl
  obtain ⟨hauth, hcookie, -⟩ := field_post host contentType
    (text (toString (toInt bodyData.length))) cookies authorization
  unfold partsOf postRequest
  dsimp only
  rw [hurl, hquery, hauth, hcookie, bearer_eq, splitOn_cookies hl]
  rfl

lemma wellFormed_post (hlen : bodyData.length < BUFLEN) :
    (postRequest host url contentType bodyData cookies authorization).WellFormed where
  line := by
    have hmethod : 32 ∉ text "POST" ∧ 13 ∉ text "POST" := by decide
    have hversion : 32 ∉ text "HTTP/1.1" ∧ 13 ∉ text "HTTP/1.1" := by decide
    simp only [List.forall_mem_cons]
    exact ⟨hmethod, target_legible hl, hversion, by simp⟩
  fields := by
    have hhost : 58 ∉ text "Host" ∧ 13 ∉ text "Host" := by decide
    have htype : 58 ∉ text "Content-Type" ∧ 13 ∉ text "Content-Type" := by decide
    have hlength : 58 ∉ text "Content-Length" ∧ 13 ∉ text "Content-Length" := by decide
    have hint : toInt bodyData.length = bodyData.length := toInt_of_lt (hlen.trans (by decide))
    have hdigits : 13 ∉ text (toString (toInt bodyData.length)) := by
      rw [hint]
      intro hmem
      exact absurd (isDigit_of_mem_text hmem) (by decide)
    simp only [postRequest, List.forall_mem_cons]
    exact ⟨⟨hhost.1, hhost.2, hl.host⟩, ⟨htype.1, htype.2, hl.contentType⟩,
      ⟨hlength.1, hlength.2, hdigits⟩, credentialFields_legible hl⟩
  length := by
    have hint : toInt bodyData.length = bodyData.length := toInt_of_lt (hlen.trans (by decide))
    have hfield := (field_post host contentType (text (toString (toInt bodyData.length))) cookies
      authorization).2.2
    unfold postRequest
    dsimp only at hfield ⊢
    rw [contentLength, hfield, hint]
    simp only
    rw [if_pos ⟨text_natCast_ne_nil, List.all_eq_true.mpr fun c hc => isDigit_of_mem_text hc⟩,
      ofDigits_text]

lemma decode_post (hc : Counted cookies cookiesCount)
    (hm : computePostRequest host url contentType bodyData cookies cookiesCount authorization =
      some m) :
    decode m = some (⟨text "POST", url, none, some host, some contentType, authorization, cookies,
      bodyData⟩, []) := by
  have hlen : bodyData.length < BUFLEN := by
    obtain ⟨rfl, -, hlen⟩ := (computePostRequest_eq_some_iff hc).mp hm
    rw [List.length_append] at hlen
    omega
  have hparse : parse ((postRequest host url contentType bodyData cookies authorization).bytes ++
      []) = _ := parse_bytes (wellFormed_post hl hlen)
  rw [List.append_nil, ← eq_bytes_of_computePostRequest hc hm] at hparse
  unfold decode
  rw [hparse, ← partsOf_post hl]
  rfl

end Post

end Protocoale.Tema3

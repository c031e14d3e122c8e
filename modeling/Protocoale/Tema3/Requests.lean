import Protocoale.Tema3.Receive

/-!
The requests of the client (`requests.cpp`, and `compute_message` in `helpers.cpp`). A request is
written line by line into an array of `BUFLEN` bytes, and every line into one of `LINELEN` bytes
first; it is not defined where one of them is too small.
-/

namespace Protocoale.Tema3

open Lib Lib.CText

abbrev LINELEN : ℕ := 1000

/-- `compute_message` -/
def computeMessage (message line : List UInt8) : Option (List UInt8) := do
  let message ← strcat BUFLEN message line
  strcat BUFLEN message (text "\r\n")

/-- A line is added with its end, when there is room for both. -/
lemma computeMessage_eq_some_iff {message line m : List UInt8} :
    computeMessage message line = some m ↔ m = message ++ line ++ text "\r\n" ∧ m.length < BUFLEN :=
  strcat_strcat_eq_some_iff

/-- The line with the cookies: all but the last one are followed by a semicolon. -/
def cookieLine (cookies : List (List UInt8)) (cookiesCount : ℕ) : Option (List UInt8) := do
  let line ← strcat LINELEN [] (text "Cookie: ")
  let line ← (List.range (cookiesCount - 1)).foldlM (fun line i => do
    let cookie ← cookies[i]?
    let line ← strcat LINELEN line cookie
    strcat LINELEN line (text ";")) line
  if cookiesCount = 0 then none
  else
    let cookie ← cookies[cookiesCount - 1]?
    strcat LINELEN line cookie

/-- The lines with the token and the cookies, where there are any. -/
def addCredentials (message : List UInt8) (cookies : Option (List (List UInt8))) (cookiesCount : ℕ)
    (authorization : Option (List UInt8)) : Option (List UInt8) := do
  let message ← match authorization with
    | none => some message
    | some authorization => do
      let line ← strcat LINELEN [] (text "Authorization: Bearer ")
      let line ← strcat LINELEN line authorization
      computeMessage message line
  match cookies with
  | none => some message
  | some cookies => do
    let line ← cookieLine cookies cookiesCount
    computeMessage message line

/-- A request without a body: `compute_get_request` and `compute_delete_request` differ in the
method. -/
def computeBodyless (method host url : List UInt8) (queryParams : Option (List UInt8))
    (cookies : Option (List (List UInt8))) (cookiesCount : ℕ) (authorization : Option (List UInt8)) :
    Option (List UInt8) := do
  let line ← match queryParams with
    | some queryParams =>
      strcat LINELEN [] (method ++ text " " ++ url ++ text "?" ++ queryParams ++ text " HTTP/1.1")
    | none => strcat LINELEN [] (method ++ text " " ++ url ++ text " HTTP/1.1")
  let message ← computeMessage [] line
  let line ← strcat LINELEN [] (text "Host: " ++ host)
  let message ← computeMessage message line
  let message ← addCredentials message cookies cookiesCount authorization
  computeMessage message []

/-- `compute_get_request` -/
def computeGetRequest := computeBodyless (text "GET")

/-- `compute_delete_request` -/
def computeDeleteRequest := computeBodyless (text "DELETE")

/-- `compute_post_request` -/
def computePostRequest (host url contentType bodyData : List UInt8)
    (cookies : Option (List (List UInt8))) (cookiesCount : ℕ) (authorization : Option (List UInt8)) :
    Option (List UInt8) := do
  let line ← strcat LINELEN [] (text "POST " ++ url ++ text " HTTP/1.1")
  let message ← computeMessage [] line
  let line ← strcat LINELEN [] (text "Host: " ++ host)
  let message ← computeMessage message line
  let line ← strcat LINELEN [] (text "Content-Type: " ++ contentType)
  let message ← computeMessage message line
  let bodyDataSize := toInt bodyData.length
  let line ← strcat LINELEN [] (text "Content-Length: " ++ text (toString bodyDataSize))
  let message ← computeMessage message line
  let message ← addCredentials message cookies cookiesCount authorization
  let message ← computeMessage message []
  strcat BUFLEN message bodyData

/-! ### The bytes of a request -/

/-- Lines, each with its end. -/
def linesText (lines : List (List UInt8)) : List UInt8 := lines.flatMap (· ++ text "\r\n")

/-- A message of these lines behind `message` fits the two buffers. -/
def Fits (message : List UInt8) (lines : List (List UInt8)) : Prop :=
  (∀ l ∈ lines, l.length < LINELEN) ∧ (message ++ linesText lines).length < BUFLEN

/-- The line with all the cookies. -/
def cookieText (cookies : List (List UInt8)) : List UInt8 :=
  text "Cookie: " ++ [59].intercalate cookies

/-- The lines with the token and the cookies, where there are any. -/
def credentialLines (cookies : Option (List (List UInt8))) (authorization : Option (List UInt8)) :
    List (List UInt8) :=
  (authorization.map (text "Authorization: Bearer " ++ ·)).toList ++ (cookies.map cookieText).toList

section Lines

variable {message m line l c host url queryParams contentType bodyData : List UInt8}
  {lines cs rest : List (List UInt8)} {cookies : Option (List (List UInt8))} {cookiesCount : ℕ}
  {authorization : Option (List UInt8)}

lemma linesText_cons : linesText (l :: lines) = l ++ text "\r\n" ++ linesText lines :=
  List.flatMap_cons

lemma linesText_append (lines rest : List (List UInt8)) :
    linesText (lines ++ rest) = linesText lines ++ linesText rest := List.flatMap_append

/-- What a part of a builder does: it adds lines to the message, when these fit the buffers. -/
def Adds (x : Option (List UInt8)) (message : List UInt8) (lines : List (List UInt8)) : Prop :=
  ∀ m, x = some m ↔ m = message ++ linesText lines ∧ Fits message lines

lemma adds_nil (h : message.length < BUFLEN) : Adds (some message) message [] := by
  intro m
  simp [Fits, linesText, h, eq_comm]

/-- A line that is written into its array, and then added. -/
lemma adds_line {x : Option (List UInt8)} (hx : ∀ t, x = some t ↔ t = l ∧ t.length < LINELEN) :
    Adds (x.bind fun line => computeMessage message line) message [l] := by
  intro m
  have htext : linesText [l] = l ++ text "\r\n" := List.flatMap_singleton _ _
  rw [Option.bind_eq_some_iff, Fits, htext, List.forall_mem_singleton]
  constructor
  · rintro ⟨t, ht, hm⟩
    obtain ⟨rfl, hlen⟩ := (hx t).mp ht
    obtain ⟨rfl, hfit⟩ := computeMessage_eq_some_iff.mp hm
    rw [List.append_assoc] at hfit ⊢
    exact ⟨rfl, hlen, hfit⟩
  · rintro ⟨rfl, hlen, hfit⟩
    refine ⟨l, (hx l).mpr ⟨rfl, hlen⟩, computeMessage_eq_some_iff.mpr ⟨?_, hfit⟩⟩
    rw [List.append_assoc]

/-- What two parts of a builder add one after the other. -/
lemma Adds.bind {x : Option (List UInt8)} {y : List UInt8 → Option (List UInt8)}
    (hx : Adds x message lines) (hy : ∀ m, m.length < BUFLEN → Adds (y m) m rest) :
    Adds (x.bind y) message (lines ++ rest) := by
  intro m
  have hlen : (message ++ linesText lines).length ≤ (message ++ linesText (lines ++ rest)).length := by
    rw [linesText_append, ← List.append_assoc]
    exact (List.prefix_append _ _).length_le
  rw [Option.bind_eq_some_iff]
  constructor
  · rintro ⟨t, ht, hm⟩
    obtain ⟨rfl, hfit⟩ := (hx t).mp ht
    obtain ⟨rfl, hfit'⟩ := (hy _ hfit.2 m).mp hm
    rw [linesText_append, ← List.append_assoc]
    refine ⟨rfl, List.forall_mem_append.mpr ⟨hfit.1, hfit'.1⟩, ?_⟩
    rw [linesText_append, ← List.append_assoc]
    exact hfit'.2
  · rintro ⟨rfl, hfit⟩
    obtain ⟨hl, hr⟩ := List.forall_mem_append.mp hfit.1
    have hmid := hlen.trans_lt hfit.2
    refine ⟨_, (hx _).mpr ⟨rfl, hl, hmid⟩, (hy _ hmid _).mpr ⟨?_, hr, ?_⟩⟩
    · rw [linesText_append, List.append_assoc]
    · have := hfit.2
      rwa [linesText_append, ← List.append_assoc] at this

/-- The loop over all but the last of the cookies. -/
lemma foldlM_cookies (line : List UInt8) (hline : line.length < LINELEN) :
    (List.range cs.length).foldlM (fun line i => (cs ++ rest)[i]?.bind fun cookie =>
      (strcat LINELEN line cookie).bind fun line => strcat LINELEN line (text ";")) line = some l ↔
    l = line ++ cs.flatMap (· ++ text ";") ∧ l.length < LINELEN := by
  induction cs using List.reverseRecOn generalizing rest l with
  | nil =>
    simp only [List.length_nil, List.range_zero, List.foldlM_nil, List.flatMap_nil, List.append_nil]
    constructor
    · rintro ⟨⟩
      exact ⟨rfl, hline⟩
    · rintro ⟨rfl, -⟩
      rfl
  | append_singleton cs c ih =>
    have hlast : (cs ++ ([c] ++ rest))[cs.length]? = some c := by
      rw [List.getElem?_append_right le_rfl, Nat.sub_self]
      rfl
    rw [List.length_append, List.length_singleton, List.range_succ, List.foldlM_append,
      List.append_assoc, Option.bind_eq_bind, Option.bind_eq_some_iff]
    simp only [List.foldlM_cons, List.foldlM_nil, ih, hlast, Option.bind_eq_bind, Option.bind_some,
      Option.pure_def, Option.bind_fun_some, strcat_strcat_eq_some_iff]
    rw [List.flatMap_append, List.flatMap_singleton]
    constructor
    · rintro ⟨l', ⟨rfl, -⟩, rfl, hlen⟩
      exact ⟨by simp, hlen⟩
    · rintro ⟨rfl, hlen⟩
      refine ⟨_, ⟨rfl, ?_⟩, by simp, hlen⟩
      simp only [List.length_append] at hlen ⊢
      omega

/-- The cookies but for the last, each with a semicolon, and the last one. -/
lemma intercalate_snoc (cs : List (List UInt8)) (c : List UInt8) :
    [59].intercalate (cs ++ [c]) = cs.flatMap (· ++ text ";") ++ c := by
  induction cs with
  | nil => simp
  | cons d cs ih =>
    rw [List.cons_append, List.intercalate_cons_of_ne_nil (by simp), ih, List.flatMap_cons]
    simp only [List.append_assoc]
    rfl

/-- The line with the cookies, for as many cookies as there are. -/
lemma cookieLine_eq_some_iff (hne : cs ≠ []) :
    cookieLine cs cs.length = some l ↔ l = cookieText cs ∧ l.length < LINELEN := by
  obtain ⟨cs, c, rfl⟩ := (List.eq_nil_or_concat cs).resolve_left hne
  rw [List.concat_eq_append] at hne ⊢
  have hstart : strcat LINELEN [] (text "Cookie: ") = some (text "Cookie: ") := by decide
  have hlast : (cs ++ [c])[cs.length]? = some c := by simp
  unfold cookieLine cookieText
  simp only [List.length_append, List.length_singleton, Nat.add_sub_cancel, Nat.add_one_ne_zero,
    if_false, hstart, hlast, intercalate_snoc, Option.bind_eq_bind, Option.bind_some]
  rw [Option.bind_eq_some_iff]
  simp only [foldlM_cookies (text "Cookie: ") (by decide), strcat_eq_some_iff]
  constructor
  · rintro ⟨l', ⟨rfl, -⟩, rfl, hlen⟩
    exact ⟨by simp, hlen⟩
  · rintro ⟨rfl, hlen⟩
    refine ⟨_, ⟨rfl, ?_⟩, by simp, hlen⟩
    simp only [List.length_append] at hlen ⊢
    omega

/-- There are as many cookies as the builders are told, and at least one. -/
def Counted (cookies : Option (List (List UInt8))) (cookiesCount : ℕ) : Prop :=
  ∀ cs, cookies = some cs → cs ≠ [] ∧ cs.length = cookiesCount

lemma adds_cookies (hc : Counted cookies cookiesCount) (hlen : message.length < BUFLEN) :
    Adds (addCredentials message cookies cookiesCount none) message
      (cookies.map cookieText).toList := by
  cases cookies with
  | none => exact adds_nil hlen
  | some cs =>
    obtain ⟨hne, rfl⟩ := hc cs rfl
    exact adds_line fun t => cookieLine_eq_some_iff hne

lemma adds_addCredentials (hc : Counted cookies cookiesCount) (hlen : message.length < BUFLEN) :
    Adds (addCredentials message cookies cookiesCount authorization) message
      (credentialLines cookies authorization) := by
  cases authorization with
  | none => exact adds_cookies hc hlen
  | some token =>
    have hstart : strcat LINELEN [] (text "Authorization: Bearer ") =
        some (text "Authorization: Bearer ") := by decide
    have hsplit : addCredentials message cookies cookiesCount (some token) =
        ((strcat LINELEN (text "Authorization: Bearer ") token).bind fun line =>
          computeMessage message line).bind fun m => addCredentials m cookies cookiesCount none := by
      unfold addCredentials
      rw [hstart, Option.bind_assoc]
      rfl
    rw [hsplit]
    exact (adds_line fun t => strcat_eq_some_iff).bind fun m hm => adds_cookies hc hm

/-- The target of a request. -/
def target (url : List UInt8) (queryParams : Option (List UInt8)) : List UInt8 :=
  url ++ (queryParams.map (text "?" ++ ·)).getD []

/-- The request line. -/
def requestLine (method target : List UInt8) : List UInt8 :=
  method ++ text " " ++ target ++ text " HTTP/1.1"

/-- The lines of a request without a body, but for the empty one. -/
def bodylessLines (method host url : List UInt8) (queryParams : Option (List UInt8))
    (cookies : Option (List (List UInt8))) (authorization : Option (List UInt8)) :
    List (List UInt8) :=
  [requestLine method (target url queryParams), text "Host: " ++ host] ++
    credentialLines cookies authorization

/-- The lines of a request with a body, but for the empty one. -/
def postLines (host url contentType bodyData : List UInt8) (cookies : Option (List (List UInt8)))
    (authorization : Option (List UInt8)) : List (List UInt8) :=
  [requestLine (text "POST") (target url none), text "Host: " ++ host,
    text "Content-Type: " ++ contentType,
    text "Content-Length: " ++ text (toString (toInt bodyData.length))] ++
    credentialLines cookies authorization

/-- A line that is written in one piece. -/
lemma adds_piece : Adds ((strcat LINELEN [] l).bind fun line => computeMessage message line) message
    [l] := adds_line fun _ => strcat_eq_some_iff

/-- The empty line. -/
lemma adds_empty : Adds (computeMessage message []) message [[]] := by
  have hx : ∀ t, (some [] : Option (List UInt8)) = some t ↔ t = [] ∧ t.length < LINELEN := by
    intro t
    rw [Option.some.injEq]
    constructor
    · rintro rfl
      exact ⟨rfl, by decide⟩
    · rintro ⟨rfl, -⟩
      rfl
  exact adds_line hx

/-- **A request without a body is its lines and an empty one**, when all fit the buffers. -/
theorem adds_computeBodyless {method : List UInt8} {queryParams : Option (List UInt8)}
    (hc : Counted cookies cookiesCount) :
    Adds (computeBodyless method host url queryParams cookies cookiesCount authorization) []
      (bodylessLines method host url queryParams cookies authorization ++ [[]]) := by
  have hsplit : computeBodyless method host url queryParams cookies cookiesCount authorization =
      ((strcat LINELEN [] (requestLine method (target url queryParams))).bind fun line =>
        computeMessage [] line).bind fun m => ((strcat LINELEN [] (text "Host: " ++ host)).bind
        fun line => computeMessage m line).bind fun m =>
        (addCredentials m cookies cookiesCount authorization).bind fun m => computeMessage m [] := by
    unfold computeBodyless requestLine target
    cases queryParams <;> simp [Option.bind_assoc]
  have hlines : bodylessLines method host url queryParams cookies authorization ++ [[]] =
      [requestLine method (target url queryParams)] ++ ([text "Host: " ++ host] ++
        (credentialLines cookies authorization ++ [[]])) := by
    simp [bodylessLines]
  rw [hsplit, hlines]
  exact adds_piece.bind fun m _ => adds_piece.bind fun m hm =>
    (adds_addCredentials hc hm).bind fun m _ => adds_empty

/-- A request with a body up to the empty line. -/
def postHead (host url contentType bodyData : List UInt8) (cookies : Option (List (List UInt8)))
    (cookiesCount : ℕ) (authorization : Option (List UInt8)) : Option (List UInt8) :=
  ((strcat LINELEN [] (requestLine (text "POST") (target url none))).bind fun line =>
    computeMessage [] line).bind fun m => ((strcat LINELEN [] (text "Host: " ++ host)).bind
    fun line => computeMessage m line).bind fun m =>
    ((strcat LINELEN [] (text "Content-Type: " ++ contentType)).bind
    fun line => computeMessage m line).bind fun m =>
    ((strcat LINELEN [] (text "Content-Length: " ++
      text (toString (toInt bodyData.length)))).bind
    fun line => computeMessage m line).bind fun m =>
    (addCredentials m cookies cookiesCount authorization).bind fun m => computeMessage m []

lemma computePostRequest_eq :
    computePostRequest host url contentType bodyData cookies cookiesCount authorization =
      (postHead host url contentType bodyData cookies cookiesCount authorization).bind fun m =>
        strcat BUFLEN m bodyData := by
  have hmethod : text "POST " = text "POST" ++ text " " := by decide
  unfold computePostRequest postHead requestLine target
  simp [hmethod, Option.bind_assoc]

lemma adds_postHead (hc : Counted cookies cookiesCount) :
    Adds (postHead host url contentType bodyData cookies cookiesCount authorization) []
      (postLines host url contentType bodyData cookies authorization ++ [[]]) := by
  have hlines : postLines host url contentType bodyData cookies authorization ++ [[]] =
      [requestLine (text "POST") (target url none)] ++ ([text "Host: " ++ host] ++
        ([text "Content-Type: " ++ contentType] ++ ([text "Content-Length: " ++
          text (toString (toInt bodyData.length))] ++
          (credentialLines cookies authorization ++ [[]])))) := by
    simp [postLines]
  rw [hlines]
  exact adds_piece.bind fun m _ => adds_piece.bind fun m _ => adds_piece.bind fun m _ =>
    adds_piece.bind fun m hm => (adds_addCredentials hc hm).bind fun m _ => adds_empty

/-- **A request with a body is its lines, an empty one and the body**, when all fit the buffers. -/
theorem computePostRequest_eq_some_iff (hc : Counted cookies cookiesCount) :
    computePostRequest host url contentType bodyData cookies cookiesCount authorization = some m ↔
      m = linesText (postLines host url contentType bodyData cookies authorization ++ [[]]) ++
          bodyData ∧
        (∀ l ∈ postLines host url contentType bodyData cookies authorization, l.length < LINELEN) ∧
        m.length < BUFLEN := by
  have hempty : ([] : List UInt8).length < LINELEN := by decide
  rw [computePostRequest_eq, Option.bind_eq_some_iff]
  constructor
  · rintro ⟨t, ht, hm⟩
    obtain ⟨rfl, hfits⟩ := (adds_postHead hc t).mp ht
    obtain ⟨rfl, hlen⟩ := strcat_eq_some_iff.mp hm
    exact ⟨rfl, (List.forall_mem_append.mp hfits.1).1, hlen⟩
  · rintro ⟨rfl, hlines, hlen⟩
    refine ⟨_, (adds_postHead hc _).mpr ⟨rfl, ?_, ?_⟩, strcat_eq_some_iff.mpr ⟨rfl, hlen⟩⟩
    · exact List.forall_mem_append.mpr ⟨hlines, List.forall_mem_singleton.mpr hempty⟩
    · rw [List.length_append] at hlen
      rw [List.nil_append]
      omega

end Lines

end Protocoale.Tema3

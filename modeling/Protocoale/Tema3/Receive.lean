import Protocoale.Lib.CText
import Protocoale.Lib.Search

/-!
How the client receives a response (`buffer.cpp` and `receive_from_server` in `helpers.cpp`). A first
loop reads until the header block and its Content-Length field are in the buffer, a second one until
the body is; both search the whole buffer after each read. The result does not depend on how the
response is cut into reads (`receiveFromServer_response`), as long as its sizes fit in an `int`.
-/

namespace Protocoale.Tema3

open Lib Lib.CText Lib.Search

/-! ### The buffer -/

/-- `buffer`: its data, as many bytes as its size says. -/
abbrev Buffer := List UInt8

def bufferInit : Buffer := []

/-- `buffer_add` -/
def bufferAdd (buffer : Buffer) (data : List UInt8) : Buffer := buffer ++ data

/-- The index of an occurrence as it is returned, `-1` when there is none. -/
def position : Option ℕ → ℤ
  | none => -1
  | some i => toInt i

/-- `buffer_find` -/
def bufferFind (buffer : Buffer) (data : List UInt8) : ℤ := position (find data buffer)

/-- `buffer_find_insensitive` -/
def bufferFindInsensitive (buffer : Buffer) (data : List UInt8) : ℤ :=
  position (find (data.map toLower) (buffer.map toLower))

/-! ### Receiving -/

abbrev BUFLEN : ℕ := 4096

/-- Two line ends. -/
abbrev HEADER_TERMINATOR : List UInt8 := [13, 10, 13, 10]

abbrev CONTENT_LENGTH : List UInt8 := text "Content-Length: "

/-- What a `read` gives: an error, or bytes, none when the other side has closed the connection. -/
abbrev Read := Option (List UInt8)

/-- Why nothing is returned: a `read` waits for bytes that do not come, the process exits after an
error, or the buffer is read outside its bounds. -/
inductive Stop where
  | blocked | exited | undefined
  deriving DecidableEq

/-- `strtol(buffer.data + start, NULL, 10)` as an `int`. -/
def contentLengthAt (buffer : Buffer) (start : ℤ) : Except Stop ℤ :=
  if 0 ≤ start ∧ strtolEnds (buffer.drop start.toNat) then
    .ok (toInt (strtol (buffer.drop start.toNat)))
  else .error .undefined

/-- The first loop of `receive_from_server`: the buffer, `header_end`, `content_length`, and the reads
that are left. -/
def receiveHeader (buffer : Buffer) (headerEnd : ℤ) :
    List Read → Except Stop (Buffer × ℤ × ℤ × List Read)
  | [] => .error .blocked
  | none :: _ => .error .exited
  | some [] :: reads => .ok (buffer, headerEnd, 0, reads)
  | some bytes :: reads =>
    let buffer := bufferAdd buffer bytes
    let headerEnd := bufferFind buffer HEADER_TERMINATOR
    if 0 ≤ headerEnd then
      let headerEnd := toInt (headerEnd + HEADER_TERMINATOR.length)
      let contentLengthStart := bufferFindInsensitive buffer CONTENT_LENGTH
      if contentLengthStart < 0 then receiveHeader buffer headerEnd reads
      else
        (contentLengthAt buffer (toInt (contentLengthStart + CONTENT_LENGTH.length))).map
          fun contentLength => (buffer, headerEnd, contentLength, reads)
    else receiveHeader buffer headerEnd reads

/-- The second loop. -/
def receiveBody (total : ℕ) (buffer : Buffer) : List Read → Except Stop (Buffer × List Read)
  | [] => if buffer.length < total then .error .blocked else .ok (buffer, [])
  | read :: reads =>
    if buffer.length < total then
      match read with
      | none => .error .exited
      | some [] => .ok (buffer, reads)
      | some bytes => receiveBody total (bufferAdd buffer bytes) reads
    else .ok (buffer, read :: reads)

/-- The sum of an `int` and another one that is converted to `size_t`. -/
def totalSize (contentLength headerEnd : ℤ) : ℕ := ((contentLength + headerEnd) % 2 ^ 64).toNat

/-- `receive_from_server`: the bytes returned, and the reads that were not made. -/
def receiveFromServer (reads : List Read) : Except Stop (List UInt8 × List Read) := do
  let (buffer, headerEnd, contentLength, reads) ← receiveHeader bufferInit 0 reads
  let (buffer, reads) ← receiveBody (totalSize contentLength headerEnd) buffer reads
  return (bufferAdd buffer [0], reads)

/-! ### Responses -/

/-- A header block with a field `Content-Length: `, in whatever case, whose value is a decimal
number. -/
structure Header where
  before : List UInt8
  name : List UInt8
  blank : List UInt8
  digits : List UInt8
  after : List UInt8
  name_eq : name.map toLower = CONTENT_LENGTH.map toLower
  blank_eq : ∀ c ∈ blank, c = 32 ∨ c = 9
  digits_ne : digits ≠ []
  digits_eq : ∀ c ∈ digits, isDigit c
  after_eq : ∃ c rest, after = c :: rest ∧ isDigit c = false

namespace Header

def bytes (h : Header) : List UInt8 :=
  h.before ++ (h.name ++ (h.blank ++ (h.digits ++ h.after)))

/-- The value of the field. -/
def value (h : Header) : ℕ := ofDigits 10 h.digits

end Header

/-- A response: the header block ends with the first empty line, the field is the first occurrence of
its name in the whole response, and the body has as many bytes as it says. -/
structure Response where
  header : Header
  body : List UInt8
  ends : find HEADER_TERMINATOR (header.bytes ++ body) = some (header.bytes.length - 4)
  first : find (CONTENT_LENGTH.map toLower) ((header.bytes ++ body).map toLower) =
    some header.before.length
  body_eq : body.length = header.value

def Response.bytes (r : Response) : List UInt8 := r.header.bytes ++ r.body

variable {h : Header} {r : Response} {b rest : List UInt8}

lemma Header.name_length (h : Header) : h.name.length = 16 := by
  have hlen := congrArg List.length h.name_eq
  rwa [List.length_map, List.length_map] at hlen

lemma Header.length_eq (h : Header) : h.bytes.length =
    h.before.length + (16 + (h.blank.length + (h.digits.length + h.after.length))) := by
  simp only [Header.bytes, List.length_append, h.name_length]

lemma Header.field_le (h : Header) : h.before.length + 16 ≤ h.bytes.length := by
  rw [h.length_eq]
  omega

/-- The value is read from the header block, whatever follows it. -/
lemma Header.strtol_eq (h : Header) (rest : List UInt8) :
    strtol ((h.bytes ++ rest).drop (h.before.length + 16)) = min (h.value : ℤ) (2 ^ 63 - 1) ∧
      strtolEnds ((h.bytes ++ rest).drop (h.before.length + 16)) = true := by
  obtain ⟨c, cs, hafter, hc⟩ := h.after_eq
  have hdrop : (h.bytes ++ rest).drop (h.before.length + 16) =
      h.blank ++ (h.digits ++ c :: (cs ++ rest)) := by
    rw [← h.name_length, ← List.length_append, Header.bytes, hafter, ← List.append_assoc h.before,
      List.append_assoc, List.drop_left]
    simp
  rw [hdrop]
  refine strtol_digits ?_ h.digits_ne h.digits_eq hc
  intro x hx
  rcases h.blank_eq x hx with rfl | rfl <;> rfl

namespace Response

/-- The end of the header block is seen as soon as it is in the buffer. -/
lemma find_terminator (hb : b ++ rest = r.bytes) : find HEADER_TERMINATOR b =
    if r.header.bytes.length ≤ b.length then some (r.header.bytes.length - 4) else none := by
  have hlen := r.header.length_eq
  have hfind : find HEADER_TERMINATOR (b ++ rest) = some (r.header.bytes.length - 4) := by
    rw [hb]
    exact r.ends
  have hsum : r.header.bytes.length - 4 + HEADER_TERMINATOR.length = r.header.bytes.length :=
    Nat.sub_add_cancel (by omega)
  rw [find_of_append hfind, hsum]

/-- Then the field is in the buffer too. -/
lemma find_field (hb : b ++ rest = r.bytes) (hle : r.header.bytes.length ≤ b.length) :
    find (CONTENT_LENGTH.map toLower) (b.map toLower) = some r.header.before.length := by
  have hfind : find (CONTENT_LENGTH.map toLower) (b.map toLower ++ rest.map toLower) =
      some r.header.before.length := by
    rw [← List.map_append, hb]
    exact r.first
  rw [find_of_append hfind, if_pos]
  rw [List.length_map, List.length_map]
  exact r.header.field_le.trans hle

end Response

/-! ### The two loops -/

variable {chunks : List (List UInt8)} {more reads : List Read} {bytes : List UInt8} {headerEnd : ℤ}
  {total : ℕ}

lemma receiveHeader_cons (hne : bytes ≠ []) : receiveHeader b headerEnd (some bytes :: reads) =
    if 0 ≤ bufferFind (b ++ bytes) HEADER_TERMINATOR then
      if bufferFindInsensitive (b ++ bytes) CONTENT_LENGTH < 0 then
        receiveHeader (b ++ bytes) (toInt (bufferFind (b ++ bytes) HEADER_TERMINATOR + 4)) reads
      else
        (contentLengthAt (b ++ bytes)
          (toInt (bufferFindInsensitive (b ++ bytes) CONTENT_LENGTH + 16))).map
          fun contentLength => (b ++ bytes, toInt (bufferFind (b ++ bytes) HEADER_TERMINATOR + 4),
            contentLength, reads)
    else receiveHeader (b ++ bytes) (bufferFind (b ++ bytes) HEADER_TERMINATOR) reads := by
  obtain ⟨x, xs, rfl⟩ := List.exists_cons_of_ne_nil hne
  rfl

/-- Both searches succeed, which ends the first loop. -/
def Stops (b : Buffer) : Prop :=
  0 ≤ bufferFind b HEADER_TERMINATOR ∧ 0 ≤ bufferFindInsensitive b CONTENT_LENGTH

lemma position_nonneg {x : Option ℕ} (h : 0 ≤ position x) : ∃ i, x = some i := by
  cases x with
  | none => exact absurd h (by decide)
  | some i => exact ⟨i, rfl⟩

/-- What was found does not change any more. -/
lemma bufferFind_append {data : List UInt8} (h : 0 ≤ bufferFind b data) :
    bufferFind (b ++ rest) data = bufferFind b data := by
  obtain ⟨i, hi⟩ := position_nonneg h
  rw [bufferFind, bufferFind, hi, find_append hi]

lemma bufferFindInsensitive_append {data : List UInt8} (h : 0 ≤ bufferFindInsensitive b data) :
    bufferFindInsensitive (b ++ rest) data = bufferFindInsensitive b data := by
  obtain ⟨i, hi⟩ := position_nonneg h
  rw [bufferFindInsensitive, bufferFindInsensitive, List.map_append, hi, find_append hi]

lemma Stops.append (h : Stops b) : Stops (b ++ rest) := by
  obtain ⟨hterm, hfield⟩ := h
  rw [Stops, bufferFind_append hterm, bufferFindInsensitive_append hfield]
  exact ⟨hterm, hfield⟩

/-- One read of the first loop that does not end it. -/
lemma receiveHeader_step {c : List UInt8} (hc : c ≠ []) (hno : ¬ Stops (b ++ c)) (headerEnd : ℤ) :
    ∃ headerEnd', ∀ reads, receiveHeader b headerEnd (some c :: reads) =
      receiveHeader (b ++ c) headerEnd' reads := by
  by_cases hterm : 0 ≤ bufferFind (b ++ c) HEADER_TERMINATOR
  · have hfield : bufferFindInsensitive (b ++ c) CONTENT_LENGTH < 0 := by
      by_contra hfield
      exact hno ⟨hterm, not_lt.mp hfield⟩
    refine ⟨toInt (bufferFind (b ++ c) HEADER_TERMINATOR + 4), fun reads => ?_⟩
    rw [receiveHeader_cons hc, if_pos hterm, if_pos hfield]
  · refine ⟨bufferFind (b ++ c) HEADER_TERMINATOR, fun reads => ?_⟩
    rw [receiveHeader_cons hc, if_neg hterm]

/-- **The first loop reads everything** when the searches do not succeed in the whole. -/
lemma receiveHeader_skip (hne : ∀ c ∈ chunks, c ≠ []) (hno : ¬ Stops (b ++ chunks.flatten))
    (headerEnd : ℤ) : ∃ headerEnd', ∀ reads, receiveHeader b headerEnd (chunks.map some ++ reads) =
      receiveHeader (b ++ chunks.flatten) headerEnd' reads := by
  induction chunks generalizing b headerEnd with
  | nil =>
    rw [List.flatten_nil, List.append_nil]
    exact ⟨headerEnd, fun _ => rfl⟩
  | cons c chunks ih =>
    obtain ⟨hc, hchunks⟩ := List.forall_mem_cons.mp hne
    rw [List.flatten_cons, ← List.append_assoc] at hno ⊢
    obtain ⟨headerEnd', hstep⟩ := receiveHeader_step hc (fun h => hno h.append) headerEnd
    obtain ⟨headerEnd'', hrest⟩ := ih hchunks hno headerEnd'
    refine ⟨headerEnd'', fun reads => ?_⟩
    rw [List.map_cons, List.cons_append, hstep, hrest]

/-- **The first loop ends with the first read** after which the searches succeed. -/
lemma receiveHeader_stops (hne : ∀ c ∈ chunks, c ≠ []) (hstart : ¬ Stops b)
    (hstops : Stops (b ++ chunks.flatten)) (headerEnd : ℤ) (more : List Read) :
    ∃ (b' : Buffer) (rest : List (List UInt8)), rest <:+ chunks ∧ Stops b' ∧
      b' ++ rest.flatten = b ++ chunks.flatten ∧
      receiveHeader b headerEnd (chunks.map some ++ more) =
        (contentLengthAt b' (toInt (bufferFindInsensitive b' CONTENT_LENGTH + 16))).map
          fun n => (b', toInt (bufferFind b' HEADER_TERMINATOR + 4), n, rest.map some ++ more) := by
  induction chunks generalizing b headerEnd with
  | nil =>
    rw [List.flatten_nil, List.append_nil] at hstops
    exact absurd hstops hstart
  | cons c chunks ih =>
    obtain ⟨hc, hchunks⟩ := List.forall_mem_cons.mp hne
    rw [List.flatten_cons, ← List.append_assoc] at hstops ⊢
    by_cases hnow : Stops (b ++ c)
    · refine ⟨b ++ c, chunks, List.suffix_cons c chunks, hnow, rfl, ?_⟩
      rw [List.map_cons, List.cons_append, receiveHeader_cons hc, if_pos hnow.1,
        if_neg (not_lt.mpr hnow.2)]
    · obtain ⟨headerEnd', hstep⟩ := receiveHeader_step hc hnow headerEnd
      obtain ⟨b', rest, hsuffix, hb', hrest, hloop⟩ := ih hchunks hnow hstops headerEnd'
      refine ⟨b', rest, hsuffix.trans (List.suffix_cons c chunks), hb', hrest, ?_⟩
      rw [List.map_cons, List.cons_append, hstep, hloop]

/-- What the first loop finds once the header block is in the buffer. -/
lemma contentLengthAt_response (hsize : r.header.bytes.length < 2 ^ 31) (hb : b ++ rest = r.bytes)
    (hle : r.header.bytes.length ≤ b.length) :
    bufferFind b HEADER_TERMINATOR = (r.header.bytes.length - 4 : ℕ) ∧
      bufferFindInsensitive b CONTENT_LENGTH = r.header.before.length ∧
      contentLengthAt b (r.header.before.length + 16 : ℕ) =
        .ok (toInt (min (r.header.value : ℤ) (2 ^ 63 - 1))) := by
  have hlen := r.header.length_eq
  refine ⟨?_, ?_, ?_⟩
  · rw [bufferFind, Response.find_terminator hb, if_pos hle]
    exact toInt_of_lt (by omega)
  · rw [bufferFindInsensitive, Response.find_field hb hle]
    exact toInt_of_lt (by omega)
  · have hpre : r.header.bytes <+: b := by
      refine List.prefix_of_prefix_length_le (List.prefix_append _ r.body) ?_ hle
      exact ⟨rest, hb⟩
    obtain ⟨tail, rfl⟩ := hpre
    obtain ⟨hvalue, hends⟩ := r.header.strtol_eq tail
    unfold contentLengthAt
    rw [Int.toNat_natCast, if_pos ⟨Int.natCast_nonneg _, hends⟩, hvalue]

/-- For a response, this is when the header block is in the buffer. -/
lemma Response.stops_iff (hsize : r.header.bytes.length < 2 ^ 31) (hb : b ++ rest = r.bytes) :
    Stops b ↔ r.header.bytes.length ≤ b.length := by
  have hlen := r.header.length_eq
  rw [Stops, bufferFind, Response.find_terminator hb]
  by_cases hle : r.header.bytes.length ≤ b.length
  · have hend : (0 : ℤ) ≤ toInt (r.header.bytes.length - 4 : ℕ) := by
      rw [toInt_of_lt (by omega)]
      exact Int.natCast_nonneg _
    have hfield : (0 : ℤ) ≤ toInt r.header.before.length := by
      rw [toInt_of_lt (by omega)]
      exact Int.natCast_nonneg _
    rw [bufferFindInsensitive, Response.find_field hb hle, if_pos hle]
    exact iff_of_true ⟨hend, hfield⟩ hle
  · rw [if_neg hle]
    refine iff_of_false ?_ hle
    rintro ⟨hend, -⟩
    exact absurd hend (by decide)

/-- **The first loop stops with the header block in the buffer**, wherever it is cut. -/
theorem receiveHeader_response (hsize : r.header.bytes.length < 2 ^ 31) (hne : ∀ c ∈ chunks, c ≠ [])
    (hlt : b.length < r.header.bytes.length) (hb : b ++ chunks.flatten = r.bytes) (headerEnd : ℤ)
    (more : List Read) :
    ∃ (b' : Buffer) (rest : List (List UInt8)), receiveHeader b headerEnd (chunks.map some ++ more) =
        .ok (b', r.header.bytes.length, toInt (min (r.header.value : ℤ) (2 ^ 63 - 1)),
          rest.map some ++ more) ∧
      b' ++ rest.flatten = r.bytes ∧ ∀ c ∈ rest, c ≠ [] := by
  have hlong : Stops (b ++ chunks.flatten) := by
    rw [Response.stops_iff hsize ((List.append_nil _).trans hb), hb, Response.bytes,
      List.length_append]
    exact Nat.le_add_right _ _
  have hshort : ¬ Stops b := fun h => not_lt.mpr ((Response.stops_iff hsize hb).mp h) hlt
  obtain ⟨b', rest, hsuffix, hstops, hrest, hloop⟩ :=
    receiveHeader_stops hne hshort hlong headerEnd more
  have hb' : b' ++ rest.flatten = r.bytes := hrest.trans hb
  have hle := (Response.stops_iff hsize hb').mp hstops
  obtain ⟨hterm, hfield, hvalue⟩ := contentLengthAt_response hsize hb' hle
  have hlen := r.header.length_eq
  have hend : toInt (((r.header.bytes.length - 4 : ℕ) : ℤ) + 4) = r.header.bytes.length := by
    have hadd : ((r.header.bytes.length - 4 : ℕ) : ℤ) + 4 = (r.header.bytes.length : ℕ) := by
      omega
    rw [hadd]
    exact toInt_of_lt hsize
  have hstart : toInt ((r.header.before.length : ℤ) + 16) = (r.header.before.length + 16 : ℕ) := by
    have hadd : (r.header.before.length : ℤ) + 16 = (r.header.before.length + 16 : ℕ) := by
      omega
    rw [hadd]
    exact toInt_of_lt (r.header.field_le.trans_lt hsize)
  rw [hterm, hfield, hend, hstart, hvalue] at hloop
  exact ⟨b', rest, hloop, hb', fun c hc => hne c (hsuffix.subset hc)⟩

/-- **The second loop reads what is left of the response**, and no more. -/
theorem receiveBody_response (hne : ∀ c ∈ chunks, c ≠ []) (hb : b ++ chunks.flatten = bytes) :
    receiveBody bytes.length b (chunks.map some ++ more) = .ok (bytes, more) := by
  induction chunks generalizing b with
  | nil =>
    rw [List.flatten_nil, List.append_nil] at hb
    subst hb
    cases more with
    | nil => exact if_neg (lt_irrefl _)
    | cons read reads => exact if_neg (lt_irrefl _)
  | cons c chunks ih =>
    obtain ⟨x, xs, rfl⟩ := List.exists_cons_of_ne_nil (hne c List.mem_cons_self)
    rw [List.flatten_cons, ← List.append_assoc] at hb
    have hlt : b.length < bytes.length := by
      rw [← hb, List.length_append, List.length_append, List.length_cons]
      omega
    have hstep : receiveBody bytes.length b (some (x :: xs) :: (chunks.map some ++ more)) =
        receiveBody bytes.length (b ++ (x :: xs)) (chunks.map some ++ more) := if_pos hlt
    rw [List.map_cons, List.cons_append, hstep]
    exact ih (fun c hc => hne c (List.mem_cons_of_mem _ hc)) hb

/-- It waits for ever when the total is larger than the response. -/
lemma receiveBody_blocked (hne : ∀ c ∈ chunks, c ≠ []) (hlt : (b ++ chunks.flatten).length < total) :
    receiveBody total b (chunks.map some) = .error .blocked := by
  induction chunks generalizing b with
  | nil =>
    rw [List.flatten_nil, List.append_nil] at hlt
    exact if_pos hlt
  | cons c chunks ih =>
    obtain ⟨x, xs, rfl⟩ := List.exists_cons_of_ne_nil (hne c List.mem_cons_self)
    rw [List.flatten_cons, ← List.append_assoc] at hlt
    have hnow : b.length < total := by
      rw [List.length_append, List.length_append] at hlt
      omega
    have hstep : receiveBody total b (some (x :: xs) :: chunks.map some) =
        receiveBody total (b ++ (x :: xs)) (chunks.map some) := if_pos hnow
    rw [List.map_cons, hstep]
    exact ih (fun c hc => hne c (List.mem_cons_of_mem _ hc)) hlt

/-! ### The result -/

/-- The second loop goes on where the first one stops. -/
lemma receiveFromServer_eq {contentLength : ℤ} {left : List Read}
    (h : receiveHeader bufferInit 0 reads = .ok (b, headerEnd, contentLength, left)) :
    receiveFromServer reads = (receiveBody (totalSize contentLength headerEnd) b left).map
      fun x => (bufferAdd x.1 [0], x.2) := by
  unfold receiveFromServer
  rw [h]
  show (receiveBody (totalSize contentLength headerEnd) b left >>= fun x =>
    Except.ok (bufferAdd x.1 [0], x.2)) = _
  cases receiveBody (totalSize contentLength headerEnd) b left with
  | error e => rfl
  | ok x => rfl

lemma totalSize_natCast {n m : ℕ} (h : n + m < 2 ^ 64) : totalSize n m = n + m := by
  unfold totalSize
  rw [← Int.natCast_add, Int.emod_eq_of_lt (Int.natCast_nonneg _) (by exact_mod_cast h),
    Int.toNat_natCast]

lemma Response.header_pos (r : Response) : 0 < r.header.bytes.length := by
  rw [r.header.length_eq]
  omega

/-- **A response is received whole, however it is cut into reads**, and nothing is read after it. -/
theorem receiveFromServer_response (r : Response) (hsize : r.header.bytes.length < 2 ^ 31)
    (hbody : r.body.length < 2 ^ 31) (hne : ∀ c ∈ chunks, c ≠ []) (hcut : chunks.flatten = r.bytes)
    (more : List Read) :
    receiveFromServer (chunks.map some ++ more) = .ok (r.bytes ++ [0], more) := by
  have hstart : bufferInit.length < r.header.bytes.length := r.header_pos
  have hall : bufferInit ++ chunks.flatten = r.bytes := hcut
  obtain ⟨b, rest, hheader, hb, hrest⟩ := receiveHeader_response hsize hne hstart hall 0 more
  have hvalue : toInt (min (r.header.value : ℤ) (2 ^ 63 - 1)) = r.body.length := by
    rw [← r.body_eq, min_eq_left (by omega)]
    exact toInt_of_lt hbody
  have htotal : totalSize r.body.length r.header.bytes.length = r.bytes.length := by
    rw [totalSize_natCast (by omega), Response.bytes, List.length_append, Nat.add_comm]
  rw [receiveFromServer_eq hheader, hvalue, htotal, receiveBody_response hrest hb]
  rfl

/-- The first loop does not find an end of the header block that is too far away for an `int`. -/
lemma receiveHeader_blocked (hbig : 2 ^ 31 ≤ r.header.bytes.length - 4)
    (hlt : r.header.bytes.length - 4 < 2 ^ 32) (hne : ∀ c ∈ chunks, c ≠ [])
    (hb : b ++ chunks.flatten = r.bytes) (headerEnd : ℤ) :
    receiveHeader b headerEnd (chunks.map some) = .error .blocked := by
  have hno : ¬ Stops (b ++ chunks.flatten) := by
    rintro ⟨hend, -⟩
    rw [hb, bufferFind, Response.find_terminator (r := r) (List.append_nil r.bytes)] at hend
    split at hend
    · rw [position, toInt_of_ge hbig hlt] at hend
      omega
    · exact absurd hend (by decide)
  obtain ⟨headerEnd', hskip⟩ := receiveHeader_skip hne hno headerEnd
  rw [← List.append_nil (chunks.map some), hskip]
  rfl

/-- **A response with such a header block is waited for for ever.** -/
theorem receiveFromServer_blocked_header (hbig : 2 ^ 31 ≤ r.header.bytes.length - 4)
    (hlt : r.header.bytes.length - 4 < 2 ^ 32) (hne : ∀ c ∈ chunks, c ≠ [])
    (hcut : chunks.flatten = r.bytes) :
    receiveFromServer (chunks.map some) = .error .blocked := by
  have hall : bufferInit ++ chunks.flatten = r.bytes := hcut
  unfold receiveFromServer
  rw [receiveHeader_blocked hbig hlt hne hall 0]
  rfl

/-- **So is a body whose length does not fit in an `int`**: it becomes negative, and the total, an
unsigned number, close to `2 ^ 64`. -/
theorem receiveFromServer_blocked_body (hbody : 2 ^ 31 ≤ r.body.length)
    (hsum : r.header.bytes.length + r.body.length < 2 ^ 32) (hne : ∀ c ∈ chunks, c ≠ [])
    (hcut : chunks.flatten = r.bytes) :
    receiveFromServer (chunks.map some) = .error .blocked := by
  have hstart : bufferInit.length < r.header.bytes.length := r.header_pos
  have hall : bufferInit ++ chunks.flatten = r.bytes := hcut
  obtain ⟨b, rest, hheader, hb, hrest⟩ := receiveHeader_response (by omega) hne hstart hall 0 []
  rw [List.append_nil, List.append_nil] at hheader
  have hvalue : toInt (min (r.header.value : ℤ) (2 ^ 63 - 1)) = r.body.length - 2 ^ 32 := by
    rw [← r.body_eq, min_eq_left (by omega)]
    exact toInt_of_ge hbody (by omega)
  have hbytes : r.bytes.length = r.header.bytes.length + r.body.length := by
    rw [Response.bytes, List.length_append]
  have htotal : (b ++ rest.flatten).length <
      totalSize (r.body.length - 2 ^ 32) r.header.bytes.length := by
    rw [hb, hbytes]
    unfold totalSize
    omega
  rw [receiveFromServer_eq hheader, hvalue, receiveBody_blocked hrest htotal]
  rfl

def statusLine : List UInt8 := text "HTTP/1.1 200 OK\r\n"

/-- The header block with these digits in the field and this field after it. -/
def testHeader (digits field : List UInt8) (hne : digits ≠ []) (hdigits : ∀ c ∈ digits, isDigit c) :
    Header where
  before := statusLine
  name := CONTENT_LENGTH
  blank := []
  digits := digits
  after := [13, 10] ++ (field ++ HEADER_TERMINATOR)
  name_eq := rfl
  blank_eq _ hc := (List.not_mem_nil hc).elim
  digits_ne := hne
  digits_eq := hdigits
  after_eq := ⟨13, 10 :: (field ++ HEADER_TERMINATOR), rfl, rfl⟩

section Test

variable {digits field body : List UInt8} {hne : digits ≠ []} {hdigits : ∀ c ∈ digits, isDigit c}

lemma testHeader_length :
    (testHeader digits field hne hdigits).bytes.length = digits.length + field.length + 39 := by
  have hstatus : statusLine.length = 17 := rfl
  have hname : CONTENT_LENGTH.length = 16 := rfl
  simp only [Header.bytes, testHeader, List.length_append, List.length_cons, List.length_nil, hstatus,
    hname]
  omega

/-- The header block does not end before its last empty line. -/
lemma testHeader_ends (hfield : field ≠ []) (hline : ∀ c ∈ field, c ≠ 13 ∧ c ≠ 10) :
    find HEADER_TERMINATOR ((testHeader digits field hne hdigits).bytes ++ body) =
      some ((testHeader digits field hne hdigits).bytes.length - 4) := by
  have hmem (c : UInt8) (h13 : c ≠ 13) (h10 : c ≠ 10) : c ∉ HEADER_TERMINATOR := by
    simp [h13, h10]
  have hbytes : (testHeader digits field hne hdigits).bytes ++ body = statusLine ++
      ((CONTENT_LENGTH ++ digits) ++ ([13, 10] ++ (field ++ (HEADER_TERMINATOR ++ body)))) := by
    simp [Header.bytes, testHeader]
  have hfront : (testHeader digits field hne hdigits).bytes.length - 4 =
      (statusLine ++ (CONTENT_LENGTH ++ digits) ++ [13, 10]).length + field.length := by
    simp [Header.bytes, testHeader]
    omega
  rw [hfront, hbytes, find_eq_some_iff]
  constructor
  · have hassoc : statusLine ++ ((CONTENT_LENGTH ++ digits) ++ ([13, 10] ++
        (field ++ (HEADER_TERMINATOR ++ body)))) = (statusLine ++ (CONTENT_LENGTH ++ digits) ++
        [13, 10] ++ field) ++ (HEADER_TERMINATOR ++ body) := by
      simp only [List.append_assoc]
    rw [hassoc, ← List.length_append, Occurs, List.drop_left]
    refine ⟨?_, List.prefix_append _ _⟩
    simp only [List.length_append]
    omega
  · intro i hi h
    -- the name and the digits, and the field after them, have no part in an occurrence
    have hgap : ∀ c ∈ CONTENT_LENGTH ++ digits, c ∉ HEADER_TERMINATOR := by
      intro c hc
      have hname : ∀ c ∈ CONTENT_LENGTH, c ∉ HEADER_TERMINATOR := by decide +kernel
      rcases List.mem_append.mp hc with hc | hc
      · exact hname c hc
      · have hd := isDigit_iff.mp (hdigits c hc)
        refine hmem c ?_ ?_
        · rintro rfl
          simp at hd
        · rintro rfl
          simp at hd
    have hassoc : statusLine ++ ((CONTENT_LENGTH ++ digits) ++ ([13, 10] ++
        (field ++ (HEADER_TERMINATOR ++ body)))) = (statusLine ++ (CONTENT_LENGTH ++ digits) ++
        [13, 10]) ++ (field ++ (HEADER_TERMINATOR ++ body)) := by
      simp only [List.append_assoc]
    rcases h.of_gap (by simp) (by simp [hne]) hgap with hle | hge
    · have hstatus : find HEADER_TERMINATOR statusLine = none := by decide +kernel
      exact find_eq_none_iff.mp hstatus i (h.of_append hle)
    · rw [hassoc] at h
      rcases h.of_gap (by simp) hfield (fun c hc => hmem c (hline c hc).1 (hline c hc).2) with hle | hge'
      · simp only [List.length_append, List.length_cons, List.length_nil] at hle hge
        omega
      · omega

/-- The field comes right after the status line. -/
lemma testHeader_first : find (CONTENT_LENGTH.map toLower)
    (((testHeader digits field hne hdigits).bytes ++ body).map toLower) =
      some (testHeader digits field hne hdigits).before.length := by
  have hfind : find (CONTENT_LENGTH.map toLower) ((statusLine ++ CONTENT_LENGTH).map toLower) =
      some statusLine.length := by decide +kernel
  have hbytes : (testHeader digits field hne hdigits).bytes ++ body = (statusLine ++ CONTENT_LENGTH) ++
      (digits ++ ([13, 10] ++ (field ++ HEADER_TERMINATOR)) ++ body) := by
    simp [Header.bytes, testHeader]
  rw [hbytes, List.map_append]
  exact find_append hfind

end Test

/-- The response with this header block and a body of zeros. -/
def testResponse (digits field : List UInt8) (hne : digits ≠ []) (hdigits : ∀ c ∈ digits, isDigit c)
    (hfield : field ≠ []) (hline : ∀ c ∈ field, c ≠ 13 ∧ c ≠ 10) : Response where
  header := testHeader digits field hne hdigits
  body := List.replicate (ofDigits 10 digits) 0
  ends := testHeader_ends hfield hline
  first := testHeader_first
  body_eq := List.length_replicate

lemma testResponse_length {digits field : List UInt8} {hne : digits ≠ []}
    {hdigits : ∀ c ∈ digits, isDigit c} {hfield : field ≠ []} {hline : ∀ c ∈ field, c ≠ 13 ∧ c ≠ 10} :
    (testResponse digits field hne hdigits hfield hline).header.bytes.length =
      digits.length + field.length + 39 := testHeader_length

theorem receiveFromServer_response_cut : ∃ r : Response, r.bytes.length = 43 ∧
    receiveFromServer ([r.bytes.take 20, r.bytes.drop 20].map some ++ [none]) =
      .ok (r.bytes ++ [0], [none]) := by
  refine ⟨testResponse [50] [88] (by simp) (by decide +kernel) (by simp) (by simp), by decide +kernel, ?_⟩
  refine receiveFromServer_response _ (by decide +kernel) (by decide +kernel) ?_ ?_ [none]
  · decide +kernel
  · simp

/-- A response that comes in byte by byte. -/
def oneByOne (bytes : List UInt8) : List (List UInt8) := bytes.map fun c => [c]

lemma oneByOne_ne {bytes : List UInt8} : ∀ c ∈ oneByOne bytes, c ≠ [] ∧ c.length ≤ BUFLEN := by
  intro c hc
  obtain ⟨x, -, rfl⟩ := List.mem_map.mp hc
  exact ⟨List.cons_ne_nil x [], by simp⟩

lemma oneByOne_flatten (bytes : List UInt8) : (oneByOne bytes).flatten = bytes := by
  unfold oneByOne
  rw [← List.flatMap_def, List.flatMap_singleton']

/-- A body of `2 ^ 31` bytes, or a header block that is as long, is waited for for ever. -/
theorem not_receiveFromServer_response :
    (¬ ∀ (r : Response) (chunks : List (List UInt8)), r.header.bytes.length < 2 ^ 31 →
      (∀ c ∈ chunks, c ≠ [] ∧ c.length ≤ BUFLEN) → chunks.flatten = r.bytes →
        receiveFromServer (chunks.map some) = .ok (r.bytes ++ [0], [])) ∧
    (¬ ∀ (r : Response) (chunks : List (List UInt8)), r.body.length < 2 ^ 31 →
      (∀ c ∈ chunks, c ≠ [] ∧ c.length ≤ BUFLEN) → chunks.flatten = r.bytes →
        receiveFromServer (chunks.map some) = .ok (r.bytes ++ [0], [])) := by
  constructor
  · intro h
    obtain ⟨r, hlen, hbody⟩ : ∃ r : Response, r.header.bytes.length = 50 ∧
        r.body.length = 2 ^ 31 := by
      refine ⟨testResponse [50, 49, 52, 55, 52, 56, 51, 54, 52, 56] [88] (by simp) (by decide +kernel)
        (by simp) (by simp), testResponse_length, ?_⟩
      exact List.length_replicate
    have hne : ∀ c ∈ oneByOne r.bytes, c ≠ [] := fun c hc => (oneByOne_ne c hc).1
    have hresult := h r (oneByOne r.bytes) (by omega) oneByOne_ne (oneByOne_flatten _)
    rw [receiveFromServer_blocked_body (by omega) (by omega) hne (oneByOne_flatten _)] at hresult
    cases hresult
  · intro h
    obtain ⟨r, hlen, hbody⟩ : ∃ r : Response, r.header.bytes.length - 4 = 2 ^ 31 + 36 ∧
        r.body.length = 0 := by
      refine ⟨testResponse [48] (List.replicate (2 ^ 31) 97) (by simp) (by decide +kernel) ?_ ?_,
        ?_, ?_⟩
      · intro hnil
        rw [List.replicate_eq_nil_iff] at hnil
        exact absurd hnil (by simp)
      · intro c hc
        rw [List.eq_of_mem_replicate hc]
        simp
      · rw [testResponse_length, List.length_replicate]
        rfl
      · exact List.length_replicate
    have hne : ∀ c ∈ oneByOne r.bytes, c ≠ [] := fun c hc => (oneByOne_ne c hc).1
    have hresult := h r (oneByOne r.bytes) (by omega) oneByOne_ne (oneByOne_flatten _)
    rw [receiveFromServer_blocked_header (by omega) (by omega) hne (oneByOne_flatten _)] at hresult
    cases hresult

end Protocoale.Tema3

import Protocoale.Tema3.Requests

/-!
Where the client gets the length of a response from. The name of the field is searched in everything
that was received, so it is the field of the header block that is read exactly when its name occurs
nowhere before it (`measures_iff`).
-/

namespace Protocoale.Tema3

open Lib Lib.CText Lib.Search

/-! ### Responses of a server -/

/-- A field `Content-Length`, in whatever case. Its value is a decimal number, between blanks. -/
structure LengthField where
  name : List UInt8
  blank : List UInt8
  digits : List UInt8
  tail : List UInt8
  name_eq : name.map toLower = (text "Content-Length").map toLower
  blank_eq : ∀ c ∈ blank, c = 32 ∨ c = 9
  digits_ne : digits ≠ []
  digits_eq : ∀ c ∈ digits, isDigit c
  tail_eq : ∀ c ∈ tail, c = 32 ∨ c = 9

/-- The line of the field. -/
def LengthField.line (l : LengthField) : List UInt8 :=
  l.name ++ 58 :: (l.blank ++ (l.digits ++ l.tail))

def LengthField.value (l : LengthField) : ℕ := ofDigits 10 l.digits

/-- A header field: its name, and what comes after the colon. -/
abbrev HeaderField := List UInt8 × List UInt8

def fieldLine (f : HeaderField) : List UInt8 := f.1 ++ 58 :: f.2

/-- A field that can be told apart from the others, and is none with the length. -/
def Other (f : HeaderField) : Prop :=
  58 ∉ f.1 ∧ 13 ∉ f.1 ∧ 13 ∉ f.2 ∧ f.1.map toLower ≠ (text "Content-Length").map toLower

/-- A response: a status line, header fields with at most one field for the length among them, an
empty line and a body. -/
structure HttpResponse where
  status : List UInt8
  before : List HeaderField
  length : Option LengthField
  after : List HeaderField
  body : List UInt8
  status_eq : 13 ∉ status
  before_eq : ∀ f ∈ before, Other f
  after_eq : ∀ f ∈ after, Other f

namespace HttpResponse

/-- The lines of the header block, but for the empty one. -/
def lines (r : HttpResponse) : List (List UInt8) :=
  r.status :: (r.before.map fieldLine ++ (r.length.map LengthField.line).toList ++
    r.after.map fieldLine)

/-- The header block. -/
def header (r : HttpResponse) : List UInt8 := linesText r.lines ++ text "\r\n"

def bytes (r : HttpResponse) : List UInt8 := r.header ++ r.body

/-- Where the field with the length starts, when there is one. -/
def offset (r : HttpResponse) : ℕ := (linesText (r.status :: r.before.map fieldLine)).length

end HttpResponse

/-- The name that is searched, and the text in which it is searched. -/
def lookup (bytes : List UInt8) : Option ℕ := find (CONTENT_LENGTH.map toLower) (bytes.map toLower)

/-- The reads that give these bytes. -/
def IsReads (chunks : List (List UInt8)) (bytes : List UInt8) : Prop :=
  (∀ c ∈ chunks, c ≠ [] ∧ c.length ≤ BUFLEN) ∧ chunks.flatten = bytes

/-- **The length comes from the header block.** However the response is cut, the number that ends the
first loop is the value of the field, and was read behind its name; where there is no such field, the
first loop goes on until the other side closes the connection, and all that was sent is returned. -/
def Measures (r : HttpResponse) : Prop :=
  match r.length with
  | some field => ∀ chunks more, IsReads chunks r.bytes → ∃ b headerEnd left,
      receiveHeader bufferInit 0 (chunks.map some ++ more) = .ok (b, headerEnd, field.value, left) ∧
      lookup b = some r.offset ∧ bufferFindInsensitive b CONTENT_LENGTH = r.offset
  | none => ∀ chunks more, IsReads chunks r.bytes →
      (∃ headerEnd, receiveHeader bufferInit 0 (chunks.map some ++ some [] :: more) =
        .ok (r.bytes, headerEnd, 0, more)) ∧
      ∃ left, receiveFromServer (chunks.map some ++ some [] :: some [] :: more) =
        .ok (r.bytes ++ [0], left)

/-- An index that does not become negative as an `int`. -/
def Fits32 (i : ℕ) : Prop := i % 2 ^ 32 < 2 ^ 31

/-- The first occurrence of the name is the field itself, near enough for an `int`, and so is its
value; without the field, the name occurs nowhere, or too far away. -/
def Anchored (r : HttpResponse) : Prop :=
  match r.length with
  | some field => lookup r.bytes = some r.offset ∧ r.offset + 16 < 2 ^ 31 ∧
      Fits32 (r.header.length - 4) ∧ field.value < 2 ^ 31
  | none => ∀ i, lookup r.bytes = some i → ¬ (Fits32 (r.header.length - 4) ∧ Fits32 i)

/-! ### Where the field is found -/

variable {r : HttpResponse} {field : LengthField} {b rest body l : List UInt8}
  {chunks lines : List (List UInt8)} {more reads : List Read} {i : ℕ}

lemma toInt_nonneg_iff : 0 ≤ toInt i ↔ Fits32 i := by
  unfold toInt Fits32
  rw [Int.bmod_def]
  split <;> omega

lemma bufferFindInsensitive_eq (h : lookup b = some i) :
    bufferFindInsensitive b CONTENT_LENGTH = toInt i := by
  unfold lookup at h
  rw [bufferFindInsensitive, h]
  rfl

lemma lookup_append (h : lookup b = some i) : lookup (b ++ rest) = some i := by
  unfold lookup at h ⊢
  rw [List.map_append]
  exact find_append h

/-! ### The end of the header block -/

/-- The first empty line comes after the others. -/
lemma find_terminator_lines (hl : 13 ∉ l) (hlines : ∀ x ∈ lines, x ≠ [] ∧ 13 ∉ x) :
    find HEADER_TERMINATOR (linesText (l :: lines) ++ (text "\r\n" ++ body)) =
      some ((linesText (l :: lines)).length - 2) := by
  induction lines generalizing l with
  | nil =>
    have htext : linesText [l] ++ (text "\r\n" ++ body) = l ++ (HEADER_TERMINATOR ++ body) := by
      simp [linesText, text]
    have hlen : (linesText [l]).length - 2 = l.length := by
      simp [linesText, text]
    rw [htext, hlen]
    exact find_cons hl
  | cons x lines ih =>
    obtain ⟨⟨hne, hx⟩, hrest⟩ := List.forall_mem_cons.mp hlines
    obtain ⟨y, ys, rfl⟩ := List.exists_cons_of_ne_nil hne
    have htext : linesText (l :: (y :: ys) :: lines) ++ (text "\r\n" ++ body) =
        (l ++ [13, 10]) ++ (linesText ((y :: ys) :: lines) ++ (text "\r\n" ++ body)) := by
      rw [linesText_cons, List.append_assoc]
      rfl
    have hlen : (linesText (l :: (y :: ys) :: lines)).length - 2 =
        (l ++ [13, 10]).length + ((linesText ((y :: ys) :: lines)).length - 2) := by
      simp [linesText, text]
      omega
    rw [htext, hlen]
    refine find_append_left (ih hx hrest) ?_
    intro j hj hocc
    -- neither in the line nor in its end, since the next line does not start with a line end
    have hthird := hocc.getElem (k := 2) (by simp)
    have hfirst := hocc.getElem (k := 0) (by simp)
    rw [List.length_append, List.length_cons, List.length_singleton] at hj
    rcases Nat.lt_trichotomy j l.length with hlt | rfl | hgt
    · rw [List.append_assoc, Nat.add_zero, List.getElem?_append_left hlt] at hfirst
      exact hl (List.mem_of_getElem? hfirst)
    · simp [linesText, List.append_assoc] at hthird
      exact hx (hthird ▸ List.mem_cons_self)
    · have he : j = l.length + 1 := by omega
      simp [he, List.append_assoc] at hfirst

lemma Other.line {f : HeaderField} (h : Other f) : fieldLine f ≠ [] ∧ 13 ∉ fieldLine f := by
  obtain ⟨-, hname, hvalue, -⟩ := h
  simp [fieldLine, hname, hvalue]

lemma LengthField.name_length (field : LengthField) : field.name.length = 14 := by
  have hlen := congrArg List.length field.name_eq
  rwa [List.length_map, List.length_map] at hlen

lemma LengthField.line_ne (field : LengthField) : field.line ≠ [] ∧ 13 ∉ field.line := by
  have hname : 13 ∉ field.name := by
    intro hmem
    have hlower := List.mem_map_of_mem (f := toLower) hmem
    rw [field.name_eq] at hlower
    exact absurd hlower (by decide)
  have hblank : 13 ∉ field.blank := by
    intro hmem
    rcases field.blank_eq 13 hmem with h | h <;> cases h
  have hdigits : 13 ∉ field.digits := by
    intro hmem
    exact absurd (field.digits_eq 13 hmem) (by decide)
  have htail : 13 ∉ field.tail := by
    intro hmem
    rcases field.tail_eq 13 hmem with h | h <;> cases h
  simp [LengthField.line, hname, hblank, hdigits, htail]

namespace HttpResponse

/-- The header block ends at its own empty line. -/
lemma find_terminator (r : HttpResponse) :
    find HEADER_TERMINATOR r.bytes = some (r.header.length - 4) := by
  have hlines : ∀ x ∈ r.before.map fieldLine ++ (r.length.map LengthField.line).toList ++
      r.after.map fieldLine, x ≠ [] ∧ 13 ∉ x := by
    intro x hx
    rcases List.mem_append.mp hx with hx | hx
    · rcases List.mem_append.mp hx with hx | hx
      · obtain ⟨f, hf, rfl⟩ := List.mem_map.mp hx
        exact (r.before_eq f hf).line
      · obtain ⟨field, -, rfl⟩ := Option.map_eq_some_iff.mp (Option.mem_toList.mp hx)
        exact field.line_ne
    · obtain ⟨f, hf, rfl⟩ := List.mem_map.mp hx
      exact (r.after_eq f hf).line
  have hlen : r.header.length - 4 = (linesText r.lines).length - 2 := by
    rw [header, List.length_append]
    simp [text]
  rw [bytes, header, List.append_assoc, ← header, hlen]
  exact find_terminator_lines r.status_eq hlines

/-- The searches only succeed when the header block is in the buffer. -/
lemma header_le (hb : b ++ rest = r.bytes) (hstops : Stops b) : r.header.length ≤ b.length := by
  obtain ⟨i, hi⟩ := position_nonneg hstops.1
  have hend := r.find_terminator
  have hi' : find HEADER_TERMINATOR (b ++ rest) = some i := find_append hi
  rw [hb, hend, Option.some.injEq] at hi'
  have hlen := (find_eq_some_iff.mp hi).1.1
  have hterm : HEADER_TERMINATOR.length = 4 := rfl
  omega

/-- The header block around the field with the length. -/
lemma header_eq (hfield : r.length = some field) : ∃ front back, front.length = r.offset ∧
    r.header = front ++ (field.name ++ 58 :: (field.blank ++ (field.digits ++
      (field.tail ++ 13 :: back)))) := by
  refine ⟨linesText (r.status :: r.before.map fieldLine),
    10 :: (linesText (r.after.map fieldLine) ++ text "\r\n"), rfl, ?_⟩
  have hlines : r.lines = (r.status :: r.before.map fieldLine) ++ (field.line :: r.after.map fieldLine) := by
    simp [lines, hfield]
  rw [header, hlines, linesText_append, linesText_cons]
  simp [LengthField.line, text, linesText]

/-- When the field is where the name is found, a space comes after its colon. -/
lemma blank_eq_cons (hfield : r.length = some field) (h : lookup r.bytes = some r.offset) :
    ∃ blank, field.blank = 32 :: blank := by
  obtain ⟨front, back, hfront, hheader⟩ := r.header_eq hfield
  have hbytes : r.bytes.map toLower = (front ++ (field.name ++ [58])).map toLower ++
      (field.blank ++ (field.digits ++ (field.tail ++ 13 :: (back ++ r.body)))).map toLower := by
    rw [bytes, hheader, ← List.map_append]
    simp
  have hlen : r.offset + 15 = ((front ++ (field.name ++ [58])).map toLower).length := by
    simp [hfront, field.name_length]
  have hget := (find_eq_some_iff.mp h).1.getElem (k := 15) (by decide)
  rw [hbytes, hlen, List.getElem?_append_right le_rfl, Nat.sub_self] at hget
  cases hblank : field.blank with
  | nil =>
    obtain ⟨d, ds, hdigits⟩ := List.exists_cons_of_ne_nil field.digits_ne
    have hd := isDigit_iff.mp (field.digits_eq d (hdigits ▸ List.mem_cons_self))
    rw [hblank, hdigits] at hget
    have hlower : toLower d = 32 := Option.some.inj hget
    unfold toLower at hlower
    split at hlower
    · next hupper =>
      have := UInt8.le_iff_toNat_le.mp hupper.1
      simp at this
      omega
    · subst hlower
      simp at hd
  | cons c blank =>
    rw [hblank] at hget
    have hc : toLower c = 32 := Option.some.inj hget
    rcases field.blank_eq c (hblank ▸ List.mem_cons_self) with rfl | rfl
    · exact ⟨blank, rfl⟩
    · exact absurd hc (by decide)

/-- The value is read from the field. -/
lemma contentLengthAt_field (hfield : r.length = some field)
    (h : lookup r.bytes = some r.offset) (hb : b ++ rest = r.bytes) (hle : r.header.length ≤ b.length) :
    contentLengthAt b (r.offset + 16 : ℕ) = .ok (toInt (min (field.value : ℤ) (2 ^ 63 - 1))) := by
  obtain ⟨blank, hblank⟩ := blank_eq_cons hfield h
  obtain ⟨front, back, hfront, hheader⟩ := r.header_eq hfield
  obtain ⟨more, rfl⟩ : r.header <+: b := by
    refine List.prefix_of_prefix_length_le (List.prefix_append _ r.body) ?_ hle
    exact ⟨rest, hb⟩
  have hdrop : (r.header ++ more).drop (r.offset + 16) =
      blank ++ (field.digits ++ (field.tail ++ 13 :: (back ++ more))) := by
    have hfirst : r.header ++ more = (front ++ (field.name ++ [58, 32])) ++
        (blank ++ (field.digits ++ (field.tail ++ 13 :: (back ++ more)))) := by
      rw [hheader, hblank]
      simp
    have hlen : r.offset + 16 = (front ++ (field.name ++ [58, 32])).length := by
      simp [hfront, field.name_length]
    rw [hfirst, hlen, List.drop_left]
  have hspace : ∀ x ∈ blank, isSpace x := by
    intro x hx
    rcases field.blank_eq x (hblank ▸ List.mem_cons_of_mem 32 hx) with rfl | rfl <;> rfl
  -- the digits end at a blank or at the end of the line
  obtain ⟨c, cs, htail, hc⟩ : ∃ c cs, field.tail ++ 13 :: (back ++ more) = c :: cs ∧
      isDigit c = false := by
    cases htail : field.tail with
    | nil => exact ⟨13, back ++ more, rfl, rfl⟩
    | cons c tail =>
      refine ⟨c, tail ++ 13 :: (back ++ more), rfl, ?_⟩
      rcases field.tail_eq c (htail ▸ List.mem_cons_self) with rfl | rfl <;> rfl
  rw [htail] at hdrop
  have hread : strtol (blank ++ (field.digits ++ c :: cs)) = _ ∧ _ :=
    strtol_digits hspace field.digits_ne field.digits_eq hc
  obtain ⟨hvalue, hends⟩ := hread
  unfold contentLengthAt
  rw [Int.toNat_natCast, hdrop, if_pos ⟨Int.natCast_nonneg _, hends⟩, hvalue]
  rfl

/-- Both searches succeed in the whole response. -/
lemma stops_iff : Stops r.bytes ↔
    ∃ i, lookup r.bytes = some i ∧ Fits32 (r.header.length - 4) ∧ Fits32 i := by
  have hterm : 0 ≤ bufferFind r.bytes HEADER_TERMINATOR ↔ Fits32 (r.header.length - 4) := by
    rw [bufferFind, r.find_terminator]
    exact toInt_nonneg_iff
  rw [Stops, hterm]
  constructor
  · rintro ⟨hend, hfield⟩
    obtain ⟨i, hi⟩ := position_nonneg hfield
    rw [bufferFindInsensitive_eq hi] at hfield
    exact ⟨i, hi, hend, toInt_nonneg_iff.mp hfield⟩
  · rintro ⟨i, hi, hend, hfits⟩
    rw [bufferFindInsensitive_eq hi]
    exact ⟨hend, toInt_nonneg_iff.mpr hfits⟩

end HttpResponse

lemma not_stops_nil : ¬ Stops bufferInit := by
  rintro ⟨h, -⟩
  exact absurd h (by decide)

/-! ### With the field -/

lemma measures_of_anchored_field (hfield : r.length = some field)
    (hlookup : lookup r.bytes = some r.offset) (hoffset : r.offset + 16 < 2 ^ 31)
    (hend : Fits32 (r.header.length - 4)) (hvalue : field.value < 2 ^ 31)
    (hreads : IsReads chunks r.bytes) (more : List Read) : ∃ b headerEnd left,
      receiveHeader bufferInit 0 (chunks.map some ++ more) = .ok (b, headerEnd, field.value, left) ∧
      lookup b = some r.offset ∧ bufferFindInsensitive b CONTENT_LENGTH = r.offset := by
  obtain ⟨hne, hflat⟩ := hreads
  have hfits : Fits32 r.offset := by
    unfold Fits32
    omega
  have hstops : Stops (bufferInit ++ chunks.flatten) := by
    have hall : bufferInit ++ chunks.flatten = r.bytes := hflat
    rw [hall]
    exact HttpResponse.stops_iff.mpr ⟨r.offset, hlookup, hend, hfits⟩
  obtain ⟨b, rest, -, hb, hrest, hloop⟩ :=
    receiveHeader_stops (fun c hc => (hne c hc).1) not_stops_nil hstops 0 more
  have hwhole : b ++ rest.flatten = r.bytes := hrest.trans hflat
  -- the name is already found in what was read
  have hfound : lookup b = some r.offset := by
    obtain ⟨i, hi⟩ := position_nonneg hb.2
    have hi' : lookup (b ++ rest.flatten) = some i := lookup_append hi
    rw [hwhole, hlookup, Option.some.injEq] at hi'
    exact hi' ▸ hi
  have hposition : bufferFindInsensitive b CONTENT_LENGTH = r.offset := by
    rw [bufferFindInsensitive_eq hfound]
    exact toInt_of_lt (by omega)
  have hstart : toInt ((r.offset : ℤ) + 16) = (r.offset + 16 : ℕ) := by
    have hadd : (r.offset : ℤ) + 16 = (r.offset + 16 : ℕ) := by omega
    rw [hadd]
    exact toInt_of_lt hoffset
  have hcontent := HttpResponse.contentLengthAt_field hfield hlookup hwhole
    (HttpResponse.header_le hwhole hb)
  have hmin : toInt (min (field.value : ℤ) (2 ^ 63 - 1)) = field.value := by
    rw [min_eq_left (by omega)]
    exact toInt_of_lt hvalue
  rw [hposition, hstart, hcontent, hmin] at hloop
  exact ⟨b, _, _, hloop, hfound, hposition⟩

lemma toInt_range (n : ℤ) : -2 ^ 31 ≤ toInt n ∧ toInt n < 2 ^ 31 := by
  unfold toInt
  rw [Int.bmod_def]
  split <;> omega

lemma of_contentLengthAt {start n : ℤ} (h : contentLengthAt b start = .ok n) :
    0 ≤ start ∧ n < 2 ^ 31 := by
  unfold contentLengthAt at h
  split at h
  · next hs =>
    rw [Except.ok.injEq] at h
    rw [← h]
    exact ⟨hs.1, (toInt_range _).2⟩
  · cases h

/-- A response that comes in byte by byte comes in by reads. -/
lemma isReads_oneByOne (bytes : List UInt8) : IsReads (oneByOne bytes) bytes :=
  ⟨oneByOne_ne, oneByOne_flatten bytes⟩

/-- What the first loop does with the bytes one by one. -/
lemma receiveHeader_oneByOne (hstops : Stops r.bytes) (more : List Read) :
    ∃ (b : Buffer) (rest : List (List UInt8)) (headerEnd : ℤ), Stops b ∧
      b ++ rest.flatten = r.bytes ∧
      receiveHeader bufferInit 0 ((oneByOne r.bytes).map some ++ more) =
        (contentLengthAt b (toInt (bufferFindInsensitive b CONTENT_LENGTH + 16))).map
          fun n => (b, headerEnd, n, rest.map some ++ more) := by
  have hall : bufferInit ++ (oneByOne r.bytes).flatten = r.bytes := oneByOne_flatten r.bytes
  obtain ⟨b, rest, -, hb, hrest, hloop⟩ := receiveHeader_stops
    (fun c hc => (oneByOne_ne c hc).1) not_stops_nil (hall ▸ hstops) 0 more
  exact ⟨b, rest, _, hb, hrest.trans hall, hloop⟩

/-- And when the searches do not succeed. -/
lemma receiveHeader_all (hreads : IsReads chunks r.bytes) (hno : ¬ Stops r.bytes) :
    ∃ headerEnd, ∀ reads, receiveHeader bufferInit 0 (chunks.map some ++ reads) =
      receiveHeader r.bytes headerEnd reads := by
  obtain ⟨hne, hflat⟩ := hreads
  have hall : bufferInit ++ chunks.flatten = r.bytes := hflat
  have hskip := receiveHeader_skip (fun c hc => (hne c hc).1) (hall ▸ hno) 0
  rwa [hall] at hskip

lemma anchored_of_measures_field (h : ∃ b headerEnd left,
      receiveHeader bufferInit 0 ((oneByOne r.bytes).map some ++ []) =
        .ok (b, headerEnd, field.value, left) ∧
      lookup b = some r.offset ∧ bufferFindInsensitive b CONTENT_LENGTH = r.offset) :
    lookup r.bytes = some r.offset ∧ r.offset + 16 < 2 ^ 31 ∧ Fits32 (r.header.length - 4) ∧
      field.value < 2 ^ 31 := by
  obtain ⟨b, headerEnd, left, hloop, hlookup, hposition⟩ := h
  by_cases hstops : Stops r.bytes
  · obtain ⟨b', rest, headerEnd', hb', hrest, hloop'⟩ := receiveHeader_oneByOne hstops []
    rw [hloop'] at hloop
    cases hcontent : contentLengthAt b' (toInt (bufferFindInsensitive b' CONTENT_LENGTH + 16)) with
    | error e =>
      rw [hcontent] at hloop
      cases hloop
    | ok n =>
      rw [hcontent] at hloop
      obtain ⟨rfl, -, rfl, -⟩ : b' = b ∧ headerEnd' = headerEnd ∧ n = field.value ∧ _ = left := by
        simpa [Except.map] using hloop
      obtain ⟨hstart, hvalue⟩ := of_contentLengthAt hcontent
      rw [hposition] at hstart
      have hsmall : (r.offset : ℤ) < 2 ^ 31 := by
        rw [← hposition, bufferFindInsensitive_eq hlookup]
        exact (toInt_range _).2
      have hfound : lookup r.bytes = some r.offset := hrest ▸ lookup_append hlookup
      obtain ⟨-, -, hend, -⟩ := HttpResponse.stops_iff.mp hstops
      refine ⟨hfound, ?_, hend, by omega⟩
      by_contra hbig
      have hneg : toInt (r.offset + 16 : ℕ) = (r.offset + 16 : ℕ) - 2 ^ 32 :=
        toInt_of_ge (by omega) (by omega)
      rw [Nat.cast_add, Nat.cast_ofNat] at hneg
      omega
  · -- otherwise the loop would wait for more
    obtain ⟨headerEnd', hall⟩ := receiveHeader_all (isReads_oneByOne r.bytes) hstops
    rw [hall] at hloop
    cases hloop

/-! ### Without the field -/

/-- The second loop returns what is in the buffer when the connection is closed. -/
lemma receiveBody_closed (total : ℕ) (b : Buffer) (more : List Read) :
    ∃ left, receiveBody total b (some [] :: more) = .ok (b, left) := by
  unfold receiveBody
  split
  · exact ⟨more, rfl⟩
  · exact ⟨some [] :: more, rfl⟩

lemma measures_of_not_stops (hno : ¬ Stops r.bytes) (hreads : IsReads chunks r.bytes)
    (more : List Read) : (∃ headerEnd, receiveHeader bufferInit 0 (chunks.map some ++ some [] :: more) =
        .ok (r.bytes, headerEnd, 0, more)) ∧
      ∃ left, receiveFromServer (chunks.map some ++ some [] :: some [] :: more) =
        .ok (r.bytes ++ [0], left) := by
  obtain ⟨headerEnd, hall⟩ := receiveHeader_all hreads hno
  refine ⟨⟨headerEnd, hall _⟩, ?_⟩
  have hheader := hall (some [] :: some [] :: more)
  obtain ⟨left, hbody⟩ := receiveBody_closed (totalSize 0 headerEnd) r.bytes more
  refine ⟨left, ?_⟩
  rw [receiveFromServer_eq hheader, hbody]
  rfl

lemma not_stops_of_measures (h : ∃ headerEnd, receiveHeader bufferInit 0
      ((oneByOne r.bytes).map some ++ some [] :: []) = .ok (r.bytes, headerEnd, 0, [])) :
    ¬ Stops r.bytes := by
  intro hstops
  obtain ⟨headerEnd, hloop⟩ := h
  obtain ⟨b, rest, headerEnd', -, -, hloop'⟩ := receiveHeader_oneByOne hstops (some [] :: [])
  rw [hloop'] at hloop
  cases hcontent : contentLengthAt b (toInt (bufferFindInsensitive b CONTENT_LENGTH + 16)) with
  | error e =>
    rw [hcontent] at hloop
    cases hloop
  | ok n =>
    -- the loop has stopped before the connection is closed
    rw [hcontent] at hloop
    simp [Except.map] at hloop

/-- **The length comes from the header block exactly when its name is found there first.** -/
theorem measures_iff : Measures r ↔ Anchored r := by
  unfold Measures Anchored
  cases hfield : r.length with
  | some field =>
    constructor
    · intro h
      exact anchored_of_measures_field (h _ [] (isReads_oneByOne r.bytes))
    · rintro ⟨hlookup, hoffset, hend, hvalue⟩ chunks more hreads
      exact measures_of_anchored_field hfield hlookup hoffset hend hvalue hreads more
  | none =>
    constructor
    · intro h i hi hfits
      refine not_stops_of_measures (h _ [] (isReads_oneByOne r.bytes)).1 ?_
      exact HttpResponse.stops_iff.mpr ⟨i, hi, hfits⟩
    · intro h chunks more hreads
      refine measures_of_not_stops ?_ hreads more
      intro hstops
      obtain ⟨i, hi, hfits⟩ := HttpResponse.stops_iff.mp hstops
      exact h i hi hfits

/-- A field that says 5, with a blank behind it. -/
def fiveField : LengthField where
  name := text "Content-Length"
  blank := [32]
  digits := text "5"
  tail := [32]
  name_eq := rfl
  blank_eq := List.forall_mem_singleton.mpr (Or.inl rfl)
  digits_ne := List.cons_ne_nil _ _
  digits_eq := List.forall_mem_singleton.mpr rfl
  tail_eq := List.forall_mem_singleton.mpr (Or.inl rfl)

/-- A response with another field in front, whose name ends like that of the field. -/
def suffixed : HttpResponse where
  status := text "HTTP/1.1 200 OK"
  before := [(text "X-Content-Length", text " 3")]
  length := some fiveField
  after := []
  body := text "hello"
  status_eq := by decide
  before_eq := by
    intro f hf
    rw [List.mem_singleton.mp hf, Other]
    decide
  after_eq _ hf := (List.not_mem_nil hf).elim

/-- The length is taken from the field in front. -/
theorem not_measures : ¬ ∀ r : HttpResponse, Measures r := by
  intro hclaim
  have hreads : IsReads [suffixed.bytes] suffixed.bytes := by
    rw [IsReads]
    decide +kernel
  obtain ⟨b, headerEnd, left, hloop, -, -⟩ := hclaim suffixed [suffixed.bytes] [] hreads
  have hthree : (receiveHeader bufferInit 0 [some suffixed.bytes]).toOption.map (·.2.2.1) =
      some 3 := by
    decide +kernel
  have hfive : (receiveHeader bufferInit 0 [some suffixed.bytes]).toOption.map (·.2.2.1) =
      some (fiveField.value : ℤ) := congrArg (fun x => x.toOption.map (·.2.2.1)) hloop
  rw [hthree] at hfive
  exact absurd hfive (by decide)

end Protocoale.Tema3

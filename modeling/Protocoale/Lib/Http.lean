import Protocoale.Lib.CText

/-!
HTTP/1.1 requests as bytes. A request is read as a request line of three parts, header fields up to
an empty line, and as many bytes of body as the field `Content-Length` says; whatever comes after is
left over. What a well-formed request is written as is read back, in front of anything (`parse_bytes`).
-/

namespace Protocoale.Lib.Http

open Search CText

abbrev CRLF : List UInt8 := [13, 10]

/-- What stands between the name and the value of a field. -/
abbrev SEP : List UInt8 := [58, 32]

/-- A header field: its name and its value. -/
abbrev Field := List UInt8 × List UInt8

structure Request where
  method : List UInt8
  target : List UInt8
  version : List UInt8
  fields : List Field
  body : List UInt8
  deriving DecidableEq

/-- The value of the first field with a name; upper and lower case letters are the same. -/
def field (name : List UInt8) (fields : List Field) : Option (List UInt8) :=
  (fields.find? fun f => f.1.map toLower = name.map toLower).map Prod.snd

/-- The length of the body: none without the field, and no request when its value is not a number. -/
def contentLength (fields : List Field) : Option ℕ :=
  match field (text "Content-Length") fields with
  | none => some 0
  | some value => if value ≠ [] ∧ value.all isDigit then some (ofDigits 10 value) else none

/-- The fields up to the empty line, and what comes after it. -/
def parseFields : ℕ → List UInt8 → Option (List Field × List UInt8)
  | 0, _ => none
  | n + 1, bytes => do
    let (line, rest) ← cut CRLF bytes
    if line = [] then some ([], rest)
    else
      let field ← cut SEP line
      let (fields, rest) ← parseFields n rest
      some (field :: fields, rest)

/-- The first request in the bytes, and what is left over. -/
def parse (bytes : List UInt8) : Option (Request × List UInt8) := do
  let (line, rest) ← cut CRLF bytes
  match line.splitOn 32 with
  | [method, target, version] =>
    let (fields, rest) ← parseFields bytes.length rest
    let length ← contentLength fields
    if rest.length < length then none
    else some (⟨method, target, version, fields, rest.take length⟩, rest.drop length)
  | _ => none

/-! ### Writing a request -/

/-- A field, with the end of its line. -/
def fieldBytes (f : Field) : List UInt8 := f.1 ++ (SEP ++ f.2) ++ CRLF

/-- The request line, without the end of the line. -/
def Request.line (r : Request) : List UInt8 := r.method ++ 32 :: (r.target ++ 32 :: r.version)

def Request.bytes (r : Request) : List UInt8 :=
  r.line ++ (CRLF ++ (r.fields.flatMap fieldBytes ++ (CRLF ++ r.body)))

/-- What can be read back: no part contains what ends it, and the length of the body is stated. -/
structure Request.WellFormed (r : Request) : Prop where
  line : ∀ part ∈ [r.method, r.target, r.version], 32 ∉ part ∧ 13 ∉ part
  fields : ∀ f ∈ r.fields, 58 ∉ f.1 ∧ 13 ∉ f.1 ∧ 13 ∉ f.2
  length : contentLength r.fields = some r.body.length

variable {r : Request} {f : Field} {fields : List Field} {rest more : List UInt8} {n : ℕ}

/-- A line ends where its end was put. -/
lemma cut_line {line : List UInt8} (h : 13 ∉ line) :
    cut CRLF (line ++ (CRLF ++ rest)) = some (line, rest) := cut_cons h

lemma parseFields_bytes (h : ∀ f ∈ fields, 58 ∉ f.1 ∧ 13 ∉ f.1 ∧ 13 ∉ f.2) (hn : fields.length < n) :
    parseFields n (fields.flatMap fieldBytes ++ (CRLF ++ rest)) = some (fields, rest) := by
  induction fields generalizing n with
  | nil =>
    obtain ⟨n, rfl⟩ := Nat.exists_eq_add_of_lt hn
    have hempty : 13 ∉ ([] : List UInt8) := by simp
    have hcut : cut CRLF ([].flatMap fieldBytes ++ (CRLF ++ rest)) = some ([], rest) :=
      cut_line hempty
    rw [parseFields, hcut]
    rfl
  | cons f fields ih =>
    obtain ⟨m, rfl⟩ := Nat.exists_eq_add_of_lt (Nat.zero_lt_of_lt hn)
    obtain ⟨⟨hname, hcr, hvalue⟩, hfields⟩ := List.forall_mem_cons.mp h
    have hcut : cut CRLF (fieldBytes f ++ (fields.flatMap fieldBytes ++ (CRLF ++ rest))) =
        some (f.1 ++ (SEP ++ f.2), fields.flatMap fieldBytes ++ (CRLF ++ rest)) := by
      rw [fieldBytes, List.append_assoc]
      refine cut_line ?_
      simp [hcr, hvalue]
    have hsep : cut SEP (f.1 ++ (SEP ++ f.2)) = some f := cut_cons hname
    have hne : f.1 ++ (SEP ++ f.2) ≠ [] := by simp
    have hm : fields.length < m := by simpa using hn
    rw [Nat.zero_add, List.flatMap_cons, List.append_assoc, parseFields, hcut]
    simp only [Option.bind_eq_bind, Option.bind_some, if_neg hne, hsep, ih hfields hm]

/-- A line with three parts is split into them. -/
lemma splitOn_line {a b c : List UInt8} (ha : 32 ∉ a) (hb : 32 ∉ b) (hc : 32 ∉ c) :
    (a ++ 32 :: (b ++ 32 :: c)).splitOn 32 = [a, b, c] := by
  rw [List.splitOn_append_cons_self_of_not_mem ha, List.splitOn_append_cons_self_of_not_mem hb,
    List.splitOn_eq_singleton hc]

/-- A line that is split into three parts has no space inside the second one. -/
lemma eq_of_splitOn_line {a b c x y z : List UInt8} (ha : 32 ∉ a) (hc : 32 ∉ c)
    (h : (a ++ 32 :: (b ++ 32 :: c)).splitOn 32 = [x, y, z]) : x = a ∧ y = b ∧ z = c := by
  rw [List.splitOn_append_cons_self_of_not_mem ha, List.splitOn_append_cons_self,
    List.splitOn_eq_singleton hc, List.cons.injEq] at h
  obtain ⟨rfl, h⟩ := h
  by_cases hb : 32 ∈ b
  · -- the second part alone would be split into two
    obtain ⟨p, q, rfl⟩ := List.append_of_mem hb
    rw [List.splitOn_append_cons_self] at h
    have hlen := congrArg List.length h
    have hp := List.length_pos_of_ne_nil (List.splitOn_ne_nil 32 p)
    have hq := List.length_pos_of_ne_nil (List.splitOn_ne_nil 32 q)
    simp only [List.length_append, List.length_cons, List.length_nil] at hlen
    omega
  · rw [List.splitOn_eq_singleton hb] at h
    simp only [List.singleton_append, List.cons.injEq, and_true] at h
    exact ⟨rfl, h.1.symm, h.2.symm⟩

/-- There are fewer fields than bytes. -/
lemma length_fields_le (fields : List Field) : fields.length ≤ (fields.flatMap fieldBytes).length := by
  induction fields with
  | nil => exact le_rfl
  | cons f fields ih =>
    rw [List.flatMap_cons, List.length_cons, List.length_append]
    have : 0 < (fieldBytes f).length := by simp [fieldBytes]
    omega

/-- **A well-formed request is read back**, in front of anything. -/
theorem parse_bytes (h : r.WellFormed) : parse (r.bytes ++ more) = some (r, more) := by
  obtain ⟨hline, hfields, hlength⟩ := h
  simp only [List.forall_mem_cons] at hline
  obtain ⟨⟨hm, hm'⟩, ⟨ht, ht'⟩, ⟨hv, hv'⟩, -⟩ := hline
  have hbytes : r.bytes ++ more =
      r.line ++ (CRLF ++ (r.fields.flatMap fieldBytes ++ (CRLF ++ (r.body ++ more)))) := by
    simp only [Request.bytes, List.append_assoc]
  have hcut : cut CRLF (r.bytes ++ more) =
      some (r.line, r.fields.flatMap fieldBytes ++ (CRLF ++ (r.body ++ more))) := by
    rw [hbytes]
    refine cut_line ?_
    simp [Request.line, hm', ht', hv']
  have hn : r.fields.length < (r.bytes ++ more).length := by
    have := length_fields_le r.fields
    rw [hbytes]
    simp only [List.length_append, CRLF, List.length_cons, List.length_nil]
    omega
  unfold parse
  rw [hcut]
  simp only [Option.bind_eq_bind, Option.bind_some, Request.line, splitOn_line hm ht hv,
    parseFields_bytes hfields hn, hlength, List.take_left, List.drop_left]
  rw [if_neg]
  rw [List.length_append]
  omega

end Protocoale.Lib.Http

import Protocoale.Tema1.Parser

/-!
A routing table that is printed is read back. `count_rtable_entries` and `read_rtable` go through the
file with an array of the same size each, and a line with three addresses in dotted notation and the
number of an interface is shorter than it; each token reaches the function that reads it. Both loops
count in an `int`.
-/

namespace Protocoale.Tema1

open Lib Lib.Bytes Lib.CText

/-- A number in decimal. -/
def decimal (n : ℕ) : List UInt8 := text (toString (n : ℤ))

/-- An address in dotted notation, the byte that comes first in memory first. -/
def dotted (x : UInt32) : List UInt8 := [46].intercalate ((bytes32 x).map fun b => decimal b.toNat)

/-- A line of the file, without its end: `prefix next_hop mask interface`. -/
def RouteTableEntry.line (r : RouteTableEntry) : List UInt8 :=
  dotted r.routePrefix ++ 32 :: (dotted r.nextHop ++ 32 :: (dotted r.mask ++ 32 :: decimal r.interface.toNat))

/-- The file, with a newline after the last line. -/
def terminated (routes : List RouteTableEntry) : List UInt8 := routes.flatMap fun r => r.line ++ [10]

/-- The file, without it. -/
def unterminated (routes : List RouteTableEntry) : List UInt8 := [10].intercalate (routes.map (·.line))

variable {routes : List RouteTableEntry} {r : RouteTableEntry} {x : UInt32} {s rest : List UInt8} {c : UInt8}
  {n a b d room dots : ℕ}

/-! ### Addresses -/

lemma head?_decimal (n : ℕ) (s : List UInt8) : (decimal n ++ s).head?.any isDigit = true := by
  obtain ⟨d, ds, hcons⟩ := List.exists_cons_of_ne_nil (text_natCast_ne_nil (n := n))
  have hd : isDigit d = true := isDigit_of_mem_text (n := n) (hcons ▸ List.mem_cons_self)
  rw [decimal, hcons]
  exact hd

/-- A byte in front of a dot. -/
lemma inetParts_dot (hn : n < 256) :
    inetParts (dots + 1) (decimal n ++ 46 :: s) = (inetParts dots s).map (n :: ·) := by
  have hstrtoul : strtoul (decimal n ++ 46 :: s) = (n, 46 :: s) := by
    refine strtoul_text n ?_
    intro c hc
    cases hc
    decide
  rw [inetParts, if_pos (head?_decimal n _), hstrtoul]
  dsimp only
  rw [if_neg (by omega)]
  exact if_neg (by omega)

/-- The number at the end. -/
lemma inetParts_last (hn : n < 256) : inetParts dots (decimal n) = some [n] := by
  have hstrtoul : strtoul (decimal n) = (n, []) := by
    have h : strtoul (decimal n ++ []) = (n, []) := strtoul_text n (by simp)
    rwa [List.append_nil] at h
  have hhead := head?_decimal n []
  rw [List.append_nil] at hhead
  unfold inetParts
  rw [if_pos hhead, hstrtoul]
  dsimp only
  rw [if_neg (by omega)]

lemma inetWord_four (hd : d < 256) : inetWord (2 ^ 32) [n, a, b, d] =
    some (n * 16777216 + (a * 65536 + (b * 256 + d))) := by
  simp [inetWord, hd]

/-- The bytes of the number that four bytes make. -/
lemma le32_ofNat (a b c d : UInt8) {n : ℕ}
    (hn : n = a.toNat * 16777216 + (b.toNat * 65536 + (c.toNat * 256 + d.toNat))) :
    le32 (UInt8.ofNat (n / 16777216)) (UInt8.ofNat (n / 65536)) (UInt8.ofNat (n / 256)) (UInt8.ofNat n) =
      le32 a b c d := by
  have ha := a.toNat_lt
  have hb := b.toNat_lt
  have hc := c.toNat_lt
  have hd := d.toNat_lt
  congr 1
  all_goals
    apply UInt8.toNat_inj.mp
    rw [UInt8.toNat_ofNat']
    omega

lemma dotted_eq (x : UInt32) : ∃ a b c d : UInt8, le32 a b c d = x ∧ dotted x = decimal a.toNat ++ 46 ::
    (decimal b.toNat ++ 46 :: (decimal c.toNat ++ 46 :: decimal d.toNat)) := by
  refine ⟨_, _, _, _, le32_bytes x, ?_⟩
  unfold dotted bytes32
  simp [List.intercalate, List.intersperse]

/-- **An address that is written is read back.** -/
theorem inetAddr_dotted (x : UInt32) : inetAddr (dotted x) = x := by
  obtain ⟨a, b, c, d, rfl, hdotted⟩ := dotted_eq x
  rw [hdotted, inetAddr, inetParts_dot a.toNat_lt, inetParts_dot b.toNat_lt, inetParts_dot c.toNat_lt,
    inetParts_last d.toNat_lt]
  simp only [Option.map_some, Option.bind_some]
  rw [inetWord_four d.toNat_lt]
  exact le32_ofNat a b c d rfl

/-! ### Lines -/

lemma decimal_ne_nil (n : ℕ) : decimal n ≠ [] := text_natCast_ne_nil

lemma mem_decimal (h : c ∈ decimal n) : isDigit c = true := isDigit_of_mem_text h

lemma length_decimal_le {k : ℕ} (hk : 0 < k) (hn : n < 10 ^ k) : (decimal n).length ≤ k :=
  (length_text_natCast_le_iff hk).mpr hn

lemma mem_dotted (h : c ∈ dotted x) : isDigit c = true ∨ c = 46 := by
  obtain ⟨a, b, d, e, -, hdotted⟩ := dotted_eq x
  rw [hdotted] at h
  simp only [List.mem_append, List.mem_cons] at h
  rcases h with h | h | h | h | h | h | h
  · exact Or.inl (mem_decimal h)
  · exact Or.inr h
  · exact Or.inl (mem_decimal h)
  · exact Or.inr h
  · exact Or.inl (mem_decimal h)
  · exact Or.inr h
  · exact Or.inl (mem_decimal h)

lemma dotted_ne_nil (x : UInt32) : dotted x ≠ [] := by
  obtain ⟨a, b, c, d, -, hdotted⟩ := dotted_eq x
  rw [hdotted]
  exact List.append_ne_nil_of_left_ne_nil (decimal_ne_nil _) _

lemma length_dotted_le (x : UInt32) : (dotted x).length ≤ 15 := by
  obtain ⟨a, b, c, d, -, hdotted⟩ := dotted_eq x
  have hbyte (a : UInt8) : (decimal a.toNat).length ≤ 3 :=
    length_decimal_le (by norm_num) (lt_trans a.toNat_lt (by norm_num))
  have ha := hbyte a
  have hb := hbyte b
  have hc := hbyte c
  have hd := hbyte d
  rw [hdotted]
  simp only [List.length_append, List.length_cons]
  omega

/-- A character of a line. -/
lemma mem_line (h : c ∈ r.line) : isDigit c = true ∨ c = 46 ∨ c = 32 := by
  unfold RouteTableEntry.line at h
  simp only [List.mem_append, List.mem_cons] at h
  rcases h with h | h | h | h | h | h | h
  · exact (mem_dotted h).imp_right Or.inl
  · exact Or.inr (Or.inr h)
  · exact (mem_dotted h).imp_right Or.inl
  · exact Or.inr (Or.inr h)
  · exact (mem_dotted h).imp_right Or.inl
  · exact Or.inr (Or.inr h)
  · exact Or.inl (mem_decimal h)

lemma notMem_line (hdigit : isDigit c = false) (hdot : c ≠ 46) (hspace : c ≠ 32) : c ∉ r.line := by
  intro h
  rcases mem_line h with h | h | h
  · rw [hdigit] at h
    cases h
  · exact hdot h
  · exact hspace h

/-- A line and its end fit the arrays. -/
lemma length_line (h : r.interface < 2 ^ 31) : r.line.length + 2 ≤ MAX_LINE_LEN := by
  have ha := length_dotted_le r.routePrefix
  have hb := length_dotted_le r.nextHop
  have hc := length_dotted_le r.mask
  have hd : (decimal r.interface.toNat).length ≤ 10 := length_decimal_le (by norm_num) (by omega)
  unfold RouteTableEntry.line
  simp only [List.length_append, List.length_cons, MAX_LINE_LEN]
  omega

lemma atoi_decimal (hn : n < 2 ^ 31) (hs : s = [] ∨ s = [10]) : atoi (decimal n ++ s) = n := by
  rcases hs with rfl | rfl
  · rw [List.append_nil]
    exact atoi_text hn
  · have hlt : (n : ℤ) ≤ 2 ^ 63 - 1 := by omega
    have h : strtol ([] ++ (decimal n ++ [10])) = min (ofDigits 10 (decimal n) : ℤ) (2 ^ 63 - 1) :=
      (strtol_digits (by simp) (decimal_ne_nil n) (fun c hc => mem_decimal hc) rfl).1
    rw [List.nil_append, decimal, ofDigits_text, min_eq_left hlt] at h
    rw [atoi, decimal, h, toInt_of_lt hn]

/-- A route is read back from its line, with or without a newline. -/
lemma parseRoute_line (h0 : 0 ≤ r.interface) (h : r.interface < 2 ^ 31) (hs : s = [] ∨ s = [10]) :
    parseRoute (r.line ++ s) = some r := by
  have hzero : ∀ c ∈ r.line ++ s, c ≠ 0 := by
    intro c hc
    rcases List.mem_append.mp hc with hc | hc
    · rintro rfl
      exact notMem_line (by decide) (by decide) (by decide) hc
    · rcases hs with rfl | rfl
      · cases hc
      · rw [List.mem_singleton.mp hc]
        decide
  have hspace (x : UInt32) : 32 ∉ dotted x := by
    intro hmem
    rcases mem_dotted hmem with h | h
    · cases h
    · cases h
  have hlast : 32 ∉ decimal r.interface.toNat ++ s := by
    intro hmem
    rcases List.mem_append.mp hmem with hmem | hmem
    · cases mem_decimal hmem
    · rcases hs with rfl | rfl
      · cases hmem
      · cases List.mem_singleton.mp hmem
  have hne : decimal r.interface.toNat ++ s ≠ [] := List.append_ne_nil_of_left_ne_nil (decimal_ne_nil _) _
  have htokens : strtok 32 (cstr (r.line ++ s)) = [dotted r.routePrefix, dotted r.nextHop, dotted r.mask,
      decimal r.interface.toNat ++ s] := by
    rw [cstr_eq_self hzero]
    unfold RouteTableEntry.line
    simp only [List.append_assoc, List.cons_append]
    rw [strtok_token (hspace _) (dotted_ne_nil _), strtok_token (hspace _) (dotted_ne_nil _),
      strtok_token (hspace _) (dotted_ne_nil _), strtok_last hlast hne]
  unfold parseRoute
  rw [htokens]
  dsimp only
  rw [inetAddr_dotted, inetAddr_dotted, inetAddr_dotted, atoi_decimal (by omega) hs, Int.toNat_of_nonneg h0]

/-! ### The file -/

/-- The lines of a file with routes ahead of something else. -/
lemma fgetsLines_terminated (h : ∀ r ∈ routes, r.interface < 2 ^ 31) (rest : List UInt8) :
    fgetsLines MAX_LINE_LEN (terminated routes ++ rest) =
      routes.map (fun r => r.line ++ [10]) ++ fgetsLines MAX_LINE_LEN rest := by
  induction routes with
  | nil => rfl
  | cons r routes ih =>
    obtain ⟨hr, hroutes⟩ := List.forall_mem_cons.mp h
    have hnl : 10 ∉ r.line := notMem_line (by decide) (by decide) (by decide)
    have hfile : terminated (r :: routes) ++ rest = r.line ++ 10 :: (terminated routes ++ rest) := by
      simp [terminated]
    have hlen := length_line hr
    rw [hfile, fgetsLines, fgetsFrom_line hnl (by simpa using hlen), List.nil_append, List.map_cons,
      List.cons_append]
    exact congrArg _ (ih hroutes)

lemma unterminated_concat (routes : List RouteTableEntry) (last : RouteTableEntry) :
    unterminated (routes ++ [last]) = terminated routes ++ last.line := by
  induction routes with
  | nil => exact List.intercalate_singleton
  | cons r routes ih =>
    have hne : (routes ++ [last]).map (·.line) ≠ [] := by simp
    unfold unterminated terminated at ih ⊢
    rw [List.cons_append, List.map_cons, List.intercalate_cons_of_ne_nil hne, ih, List.flatMap_cons]
    simp only [List.append_assoc]

lemma mapM_parseRoute {f : RouteTableEntry → List UInt8} (h : ∀ r ∈ routes, parseRoute (f r) = some r) :
    (routes.map f).mapM parseRoute = some routes := by
  rw [Run.mapM_eq_some_iff, List.forall₂_map_left_iff]
  exact List.forall₂_same.mpr h

section Printed

variable {file : List UInt8}

/-- The lines of a printed table are those of its routes, with or without a newline after the last
one. -/
lemma mapM_parseRoute_printed (h : ∀ r ∈ routes, 0 ≤ r.interface ∧ r.interface < 2 ^ 31)
    (hfile : file = terminated routes ∨ file = unterminated routes) :
    (fgetsLines MAX_LINE_LEN file).mapM parseRoute = some routes := by
  have hparse {s : List UInt8} (hs : s = [] ∨ s = [10]) (r) (hr : r ∈ routes) :
      parseRoute (r.line ++ s) = some r := parseRoute_line (h r hr).1 (h r hr).2 hs
  rcases hfile with rfl | rfl
  · have hlines := fgetsLines_terminated (fun r hr => (h r hr).2) []
    rw [List.append_nil] at hlines
    rw [hlines, show fgetsLines MAX_LINE_LEN [] = [] from rfl, List.append_nil]
    exact mapM_parseRoute (hparse (Or.inr rfl))
  · rcases List.eq_nil_or_concat routes with rfl | ⟨init, last, rfl⟩
    · rfl
    · rw [List.concat_eq_append] at h hparse ⊢
      have hlast : last ∈ init ++ [last] := List.mem_append_right _ List.mem_cons_self
      have hlen := length_line (h last hlast).2
      have hlines : fgetsLines MAX_LINE_LEN last.line = [last.line] := by
        have hne : last.line ≠ [] := List.append_ne_nil_of_left_ne_nil (dotted_ne_nil _) _
        rw [fgetsLines, fgetsFrom_last (notMem_line (by decide) (by decide) (by decide))
          (by simpa using hne) (by simpa using hlen), List.nil_append]
      rw [unterminated_concat, fgetsLines_terminated
        (fun r hr => (h r (List.mem_append_left _ hr)).2), hlines]
      have hinit := mapM_parseRoute fun r hr => hparse (Or.inr rfl) r (List.mem_append_left _ hr)
      have hlast' : parseRoute last.line = some last := by
        simpa using hparse (Or.inl rfl) last hlast
      rw [List.mapM_append, hinit, List.mapM_cons, hlast']
      rfl

/-- There are as many lines as routes. -/
lemma length_fgetsLines_printed (h : ∀ r ∈ routes, 0 ≤ r.interface ∧ r.interface < 2 ^ 31)
    (hfile : file = terminated routes ∨ file = unterminated routes) :
    (fgetsLines MAX_LINE_LEN file).length = routes.length :=
  (Run.mapM_eq_some_iff.mp (mapM_parseRoute_printed h hfile)).length_eq

/-- **A routing table is loaded as it was printed**, if an `int` counts its routes. Both loops see as
many lines as there are routes, and the entries are the routes. -/
theorem readRtable_printed (routes : List RouteTableEntry) (hlen : routes.length < 2 ^ 31)
    (h : ∀ r ∈ routes, 0 ≤ r.interface ∧ r.interface < 2 ^ 31)
    (hfile : file = terminated routes ∨ file = unterminated routes) :
    countRtableEntries file = some routes.length ∧ readRtable file = some routes := by
  have hread : readRtable file = some routes := by
    refine readRtable_eq_some_iff.mpr ⟨?_, mapM_parseRoute_printed h hfile⟩
    rw [length_fgetsLines_printed h hfile, INT_LIMIT]
    omega
  exact ⟨countRtableEntries_of_readRtable hread, hread⟩

/-- Two networks and a host. -/
def officeRoutes : List RouteTableEntry :=
  [⟨le32 192 168 0 0, le32 192 168 0 2, le32 255 255 255 0, 0⟩,
    ⟨le32 10 0 0 0, le32 192 168 1 2, le32 255 0 0 0, 1⟩,
    ⟨le32 172 16 5 129, le32 192 168 2 2, le32 255 255 255 255, 2⟩]

theorem readRtable_printed_office : countRtableEntries (terminated officeRoutes) = some 3 ∧
    readRtable (unterminated officeRoutes) = some officeRoutes :=
  ⟨(readRtable_printed officeRoutes (by decide) (by decide) (Or.inl rfl)).1,
    (readRtable_printed officeRoutes (by decide) (by decide) (Or.inr rfl)).2⟩

/-- More routes are not counted. -/
lemma countRtableEntries_printed_of_le (h : ∀ r ∈ routes, 0 ≤ r.interface ∧ r.interface < 2 ^ 31)
    (hfile : file = terminated routes ∨ file = unterminated routes) (hlen : 2 ^ 31 ≤ routes.length) :
    countRtableEntries file = none := by
  unfold countRtableEntries
  dsimp only
  rw [length_fgetsLines_printed h hfile, if_neg]
  rw [INT_LIMIT]
  omega

/-- A table of `2 ^ 31` equal routes. -/
theorem not_readRtable_printed : ¬ ∀ (routes : List RouteTableEntry) (file : List UInt8),
    (∀ r ∈ routes, 0 ≤ r.interface ∧ r.interface < 2 ^ 31) →
      (file = terminated routes ∨ file = unterminated routes) →
      countRtableEntries file = some routes.length ∧ readRtable file = some routes := by
  intro hclaim
  have hroutes : ∀ r ∈ List.replicate (2 ^ 31) (⟨0, 0, 0, 0⟩ : RouteTableEntry),
      0 ≤ r.interface ∧ r.interface < 2 ^ 31 := by
    intro r hr
    rw [List.eq_of_mem_replicate hr]
    decide
  have hnone := countRtableEntries_printed_of_le hroutes (Or.inl rfl) (by rw [List.length_replicate])
  rw [(hclaim _ _ hroutes (Or.inl rfl)).1] at hnone
  cases hnone

end Printed

end Protocoale.Tema1

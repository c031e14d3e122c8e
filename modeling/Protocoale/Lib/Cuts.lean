import Mathlib.Data.List.Flatten
import Mathlib.Tactic

/-!
Records of a fixed size on a byte stream that arrives in pieces. A stream of records is cut into
the results of successive receives of at most one record each; a reader that takes every piece
for a record gets the records sent exactly when the cuts fall on the record boundaries
(`Codec.map_dec_eq_iff`).
-/

namespace Protocoale.Lib.Cuts

/-- The results of receives of at most `max` bytes each, none of them empty, that together
deliver a stream. -/
structure IsCut (max : ℕ) (cuts : List (List UInt8)) (stream : List UInt8) : Prop where
  flatten : cuts.flatten = stream
  ne_nil : ∀ c ∈ cuts, c ≠ []
  le_max : ∀ c ∈ cuts, c.length ≤ max

/-- Records written as a fixed number of bytes. `dec` may be applied to any piece; it gives a
record back from the bytes the record was written as. -/
structure Codec (ρ : Type*) where
  size : ℕ
  enc : ρ → List UInt8
  dec : List UInt8 → ρ
  enc_length : ∀ r, (enc r).length = size
  dec_enc : ∀ r, dec (enc r) = r

namespace Codec

variable {ρ : Type*} (C : Codec ρ) {cuts : List (List UInt8)} {rs : List ρ}

/-- The bytes of a sequence of records. -/
def stream (rs : List ρ) : List UInt8 := (rs.map C.enc).flatten

lemma stream_length (rs : List ρ) : (C.stream rs).length = rs.length * C.size := by
  induction rs with
  | nil => simp [stream]
  | cons r rs ih =>
    simp only [stream, List.map_cons, List.flatten_cons, List.length_append, C.enc_length,
      List.length_cons] at ih ⊢
    rw [ih]
    ring

@[simp] lemma map_dec_enc (rs : List ρ) : (rs.map C.enc).map C.dec = rs := by
  rw [List.map_map]
  conv_rhs => rw [← List.map_id rs]
  apply List.map_congr_left
  intro r _
  exact C.dec_enc r

/-- Receives that return one record each. -/
lemma isCut_map_enc (hpos : 0 < C.size) (rs : List ρ) :
    IsCut C.size (rs.map C.enc) (C.stream rs) where
  flatten := rfl
  ne_nil c hc := by
    obtain ⟨r, -, rfl⟩ := List.mem_map.mp hc
    exact List.ne_nil_of_length_pos (C.enc_length r ▸ hpos)
  le_max c hc := by
    obtain ⟨r, -, rfl⟩ := List.mem_map.mp hc
    exact (C.enc_length r).le

/-- Two receives that return the two parts of a record. -/
lemma isCut_split {k : ℕ} (h0 : 0 < k) (hk : k < C.size) (r : ρ) :
    IsCut C.size [(C.enc r).take k, (C.enc r).drop k] (C.stream [r]) where
  flatten := by simp [stream]
  ne_nil c hc := by
    refine List.ne_nil_of_length_pos ?_
    have := C.enc_length r
    rcases List.mem_pair.mp hc with rfl | rfl
    · rw [List.length_take]
      omega
    · rw [List.length_drop]
      omega
  le_max c hc := by
    have := C.enc_length r
    rcases List.mem_pair.mp hc with rfl | rfl
    · rw [List.length_take]
      omega
    · rw [List.length_drop]
      omega

/-- Pieces no longer than `n` add up to at most `n` bytes a piece. -/
lemma length_flatten_le {n : ℕ} (h : ∀ c ∈ cuts, c.length ≤ n) :
    cuts.flatten.length ≤ cuts.length * n := by
  rw [List.length_flatten, ← List.length_map (f := List.length), ← smul_eq_mul]
  exact List.sum_le_card_nsmul _ _ (by simpa using h)

/-- Pieces no longer than `n` that add up to `n` bytes a piece all have `n` bytes. -/
lemma full_of_sum {n : ℕ} : ∀ {cuts : List (List UInt8)}, (∀ c ∈ cuts, c.length ≤ n) →
    cuts.length * n ≤ cuts.flatten.length → ∀ c ∈ cuts, c.length = n
  | [], _, _ => by simp
  | c :: cs, hle, hsum => by
    have hc := hle c (by simp)
    have hcs : ∀ d ∈ cs, d.length ≤ n := by
      intro d hd
      exact hle d (List.mem_cons_of_mem c hd)
    have hub := length_flatten_le hcs
    simp only [List.length_cons, List.flatten_cons, List.length_append, Nat.succ_mul] at hsum
    intro d hd
    rcases List.mem_cons.mp hd with rfl | hd
    · omega
    · exact full_of_sum hcs (by omega) d hd

/-- Full pieces of a stream of records are the records. -/
theorem eq_map_enc_of_full (hfull : ∀ c ∈ cuts, c.length = C.size) (hlen : cuts.length = rs.length)
    (hflat : cuts.flatten = C.stream rs) : cuts = rs.map C.enc := by
  rw [List.eq_iff_flatten_eq]
  refine ⟨hflat, ?_⟩
  apply List.ext_getElem
  · simpa using hlen
  · intro i h1 h2
    simp [C.enc_length, hfull]

/-- Full pieces of the beginning of a stream of records are its first records. -/
lemma eq_map_enc_of_prefix (hpos : 0 < C.size) (hfull : ∀ c ∈ cuts, c.length = C.size)
    (h : cuts.flatten <+: C.stream rs) : cuts = (rs.take cuts.length).map C.enc := by
  induction cuts generalizing rs with
  | nil => rfl
  | cons c cs ih =>
    have hc := hfull c List.mem_cons_self
    cases rs with
    | nil =>
      have hnil : (c :: cs).flatten = [] := List.prefix_nil.mp h
      have : c = [] := (List.append_eq_nil_iff.mp hnil).1
      rw [this] at hc
      exact absurd hc.symm hpos.ne'
    | cons r rs =>
      obtain ⟨tail, htail⟩ := h
      have hcons : c ++ (cs.flatten ++ tail) = C.enc r ++ C.stream rs := by
        rw [← List.append_assoc]
        exact htail
      obtain ⟨rfl, hrest⟩ := List.append_inj hcons (by rw [hc, C.enc_length])
      rw [List.length_cons, List.take_succ_cons, List.map_cons,
        ← ih (fun d hd => hfull d (List.mem_cons_of_mem _ hd)) ⟨tail, hrest⟩]

/-- **Framing.** Reading every piece as one record gives the records that were sent exactly when
every piece is one record. -/
theorem map_dec_eq_iff (h : IsCut C.size cuts (C.stream rs)) :
    cuts.map C.dec = rs ↔ cuts = rs.map C.enc := by
  constructor
  · intro hdec
    have hlen : cuts.length = rs.length := by rw [← hdec, List.length_map]
    refine C.eq_map_enc_of_full (full_of_sum h.le_max ?_) hlen h.flatten
    rw [h.flatten, C.stream_length, hlen]
  · rintro rfl
    exact C.map_dec_enc rs

end Codec

end Protocoale.Lib.Cuts

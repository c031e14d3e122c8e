import Protocoale.Lib.CText

/-!
The segments of a path in a URI. A byte of a segment stands for itself, or is written as a percent
sign and two digits in base 16. What is decoded is shorter than the segment wherever it differs from
it (`of_decodeSegment`).
-/

namespace Protocoale.Lib.Uri

open CText

/-- The characters that stand for themselves in a segment. -/
def isPchar (c : UInt8) : Bool :=
  isDigit c || (65 ≤ c && c ≤ 90) || (97 ≤ c && c ≤ 122) || (text "-._~!$&'()*+,;=:@").contains c

/-- What a segment stands for; nothing, when it is none. -/
def decodeSegment : List UInt8 → Option (List UInt8)
  | [] => some []
  | 37 :: a :: b :: s =>
    if isDigitIn 16 a ∧ isDigitIn 16 b then
      (decodeSegment s).map (UInt8.ofNat (16 * digitVal a + digitVal b) :: ·)
    else none
  | c :: s => if isPchar c then (decodeSegment s).map (c :: ·) else none

variable {s t : List UInt8}

/-- Characters that stand for themselves are decoded to themselves. -/
lemma decodeSegment_eq_self (h : ∀ c ∈ s, isPchar c = true) : decodeSegment s = some s := by
  induction s using decodeSegment.induct with
  | case1 => rfl
  | case2 a b s hdigits ih => exact absurd (h 37 List.mem_cons_self) (by decide)
  | case3 a b s hdigits => exact absurd (h 37 List.mem_cons_self) (by decide)
  | case4 c s hne hc ih =>
    rw [decodeSegment, if_pos hc, ih fun x hx => h x (List.mem_cons_of_mem c hx)]
    · rfl
    · exact hne
  | case5 c s hne hc => exact absurd (h c List.mem_cons_self) hc

/-- **What is decoded is at most as long as the segment**, and as long only when it is the segment. -/
theorem of_decodeSegment (h : decodeSegment s = some t) :
    t.length ≤ s.length ∧ (t.length = s.length → t = s ∧ ∀ c ∈ s, isPchar c = true) := by
  induction s using decodeSegment.induct generalizing t with
  | case1 =>
    cases h
    exact ⟨le_rfl, fun _ => ⟨rfl, by simp⟩⟩
  | case2 a b s hdigits ih =>
    rw [decodeSegment, if_pos hdigits] at h
    obtain ⟨u, hu, rfl⟩ := Option.map_eq_some_iff.mp h
    obtain ⟨hle, -⟩ := ih hu
    simp only [List.length_cons]
    exact ⟨by omega, by omega⟩
  | case3 a b s hdigits =>
    rw [decodeSegment, if_neg hdigits] at h
    cases h
  | case4 c s hne hc ih =>
    rw [decodeSegment, if_pos hc] at h
    · obtain ⟨u, hu, rfl⟩ := Option.map_eq_some_iff.mp h
      obtain ⟨hle, heq⟩ := ih hu
      simp only [List.length_cons]
      refine ⟨by omega, ?_⟩
      intro hlen
      obtain ⟨rfl, hall⟩ := heq (by omega)
      exact ⟨rfl, List.forall_mem_cons.mpr ⟨hc, hall⟩⟩
    · exact hne
  | case5 c s hne hc =>
    rw [decodeSegment, if_neg hc] at h
    · cases h
    · exact hne

end Protocoale.Lib.Uri

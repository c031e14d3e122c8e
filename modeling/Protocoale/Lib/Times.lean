import Mathlib.Tactic

/-!
Times in order, each at least a gap after the one before: from one to another there are as many gaps
as there are steps between them (`Spaced.span`), so not many of them fit into a short time
(`Spaced.gaps_lt`).
-/

namespace Protocoale.Lib.Times

variable {α : Type*} [AddCommGroup α] [LinearOrder α] {gap a b c : α} {l l₁ l₂ : List α}

/-- Each time is at least `gap` after the one before. -/
def Spaced (gap : α) (l : List α) : Prop := l.IsChain fun a b => a + gap ≤ b

@[simp] lemma spaced_nil : Spaced gap ([] : List α) := List.isChain_nil

/-- One more time at the end. -/
lemma spaced_snoc : Spaced gap (l ++ [a]) ↔ Spaced gap l ∧ ∀ b ∈ l.getLast?, b + gap ≤ a := by
  unfold Spaced
  rw [List.isChain_append]
  simp

lemma Spaced.left (h : Spaced gap (l₁ ++ l₂)) : Spaced gap l₁ := (List.isChain_append.mp h).1

lemma Spaced.right (h : Spaced gap (l₁ ++ l₂)) : Spaced gap l₂ := (List.isChain_append.mp h).2.1

variable [IsOrderedAddMonoid α]

/-- From the first to the last of `l.length + 2` times there are `l.length + 1` gaps. -/
theorem Spaced.span (h : Spaced gap (a :: l ++ [b])) : a + (l.length + 1) • gap ≤ b := by
  induction l generalizing a with
  | nil =>
    have hab : a + gap ≤ b := (List.isChain_cons_cons.mp h).1
    simpa using hab
  | cons c l ih =>
    obtain ⟨hac, hrest⟩ := List.isChain_cons_cons.mp h
    calc a + ((c :: l).length + 1) • gap = a + gap + (l.length + 1) • gap := by
          rw [List.length_cons, succ_nsmul _ (l.length + 1)]
          abel
      _ ≤ c + (l.length + 1) • gap := by gcongr
      _ ≤ b := ih hrest

/-- All the gaps together are less than the time from before the first to the last. -/
lemma Spaced.gaps_lt (h : Spaced gap l) (hfirst : ∀ x ∈ l.head?, a < x) (hlast : ∀ x ∈ l.getLast?, x ≤ b)
    (hlen : 2 ≤ l.length) : a + (l.length - 1) • gap < b := by
  match l, hlen with
  | x :: y :: l, _ =>
    obtain ⟨mid, z, hmid⟩ := (List.eq_nil_or_concat' (y :: l)).resolve_left (List.cons_ne_nil y l)
    rw [hmid] at h hlast ⊢
    have hspan : x + (mid.length + 1) • gap ≤ z := h.span
    have hz : z ≤ b := hlast z (by rw [← List.cons_append, List.getLast?_append]; simp)
    calc a + ((x :: (mid ++ [z])).length - 1) • gap = a + (mid.length + 1) • gap := by simp
      _ < x + (mid.length + 1) • gap := by gcongr; exact hfirst x rfl
      _ ≤ b := hspan.trans hz

end Protocoale.Lib.Times

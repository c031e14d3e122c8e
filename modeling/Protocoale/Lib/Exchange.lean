import Mathlib.Tactic

/-!
Exchange sort, the two nested loops that exchange an element with every later one that goes before
it, and the first match in a list in order.

The inner loop brings to its index an element that none of the later ones goes before, and leaves what
is in front of it alone (`sortFrom_settled`); so the outer loop settles one index after the other
(`exchangeSort_descending`). In a list in order the first element with a property is the greatest one
with it (`find?_greatest`).
-/

namespace Protocoale.Lib.Exchange

variable {α κ : Type*} {n : ℕ}

/-! ### The loops -/

/-- The body of the inner loop: the elements at `i` and `j` change places when the one at `j` goes
before. -/
def exchange (before : α → α → Bool) (i : ℕ) (xs : Vector α n) (j : ℕ) : Vector α n :=
  if h : i < n ∧ j < n then if before xs[j] xs[i] then xs.swap i j else xs else xs

/-- The inner loop, over the indices after `i`. -/
def sortFrom (before : α → α → Bool) (xs : Vector α n) (i : ℕ) : Vector α n :=
  (List.range' (i + 1) (n - (i + 1))).foldl (exchange before i) xs

/-- The outer loop, over the indices but the last. -/
def exchangeSort (before : α → α → Bool) (xs : Vector α n) : Vector α n :=
  (List.range (n - 1)).foldl (sortFrom before) xs

/-! ### A permutation -/

section Perm

variable {before : α → α → Bool} {xs : Vector α n} {i j : ℕ}

lemma exchange_perm : (exchange before i xs j).Perm xs := by
  unfold exchange
  split
  · next h =>
    split
    · exact Vector.swap_perm h.1 h.2
    · exact Vector.Perm.refl xs
  · exact Vector.Perm.refl xs

/-- A loop of permutations permutes. -/
lemma foldl_perm {β : Type*} {f : Vector α n → β → Vector α n} (h : ∀ xs b, (f xs b).Perm xs)
    (bs : List β) (xs : Vector α n) : (bs.foldl f xs).Perm xs := by
  induction bs generalizing xs with
  | nil => exact Vector.Perm.refl xs
  | cons b bs ih => exact (ih (f xs b)).trans (h xs b)

theorem exchangeSort_perm (xs : Vector α n) : (exchangeSort before xs).Perm xs := by
  apply foldl_perm
  intro ys i
  exact foldl_perm (fun _ _ => exchange_perm) _ ys

end Perm

/-! ### In order -/

section Order

variable [LinearOrder κ] {key : α → κ} {xs : Vector α n} {i j : ℕ}

/-- The element with the greater key goes before. -/
def greater (key : α → κ) (x y : α) : Bool := key y < key x

/-- What is in front of `i` is in order, and nothing from `i` on goes before any of it. -/
def Settled (key : α → κ) (i : ℕ) (xs : Vector α n) : Prop :=
  ∀ a b (hab : a < b) (hb : b < n), a < i → key xs[b] ≤ key xs[a]

/-- Nothing between `i` and `j` goes before the element at `i`. -/
def Leads (key : α → κ) (i j : ℕ) (xs : Vector α n) : Prop :=
  ∀ b (hib : i < b) (hb : b < n), b < j → key xs[b] ≤ key xs[i]

lemma Settled.exchange (h : Settled key i xs) (hij : i < j) :
    Settled key i (exchange (greater key) i xs j) := by
  unfold Exchange.exchange
  split
  · next hbound =>
    split
    · -- both elements come from behind what is settled
      intro a b hab hb ha
      have hai := h a i ha hbound.1 ha
      have haj := h a j (by omega) hbound.2 ha
      have hb' := h a b hab hb ha
      rw [Vector.getElem_swap, Vector.getElem_swap]
      grind
    · exact h
  · exact h

lemma Leads.exchange (h : Leads key i j xs) (hij : i < j) :
    Leads key i (j + 1) (exchange (greater key) i xs j) := by
  unfold Exchange.exchange
  intro b hib hb hbj
  split
  · next hbound =>
    split
    · next hlt =>
      have hlt' : key xs[i] < key xs[j] := of_decide_eq_true hlt
      have hb' := h b hib hb
      rw [Vector.getElem_swap, Vector.getElem_swap]
      grind
    · next hge =>
      have hge' : key xs[j] ≤ key xs[i] := not_lt.mp fun hlt => hge (decide_eq_true hlt)
      have hb' := h b hib hb
      grind
  · next hbound => exact h b hib hb (by omega)

/-- The inner loop settles one index more. -/
theorem sortFrom_settled (h : Settled key i xs) : Settled key (i + 1) (sortFrom (greater key) xs i) := by
  have hloop (m j : ℕ) (ys : Vector α n) (hij : i < j) (hs : Settled key i ys)
      (hl : Leads key i j ys) : Settled key i ((List.range' j m).foldl (exchange (greater key) i) ys) ∧
        Leads key i (j + m) ((List.range' j m).foldl (exchange (greater key) i) ys) := by
    induction m generalizing j ys with
    | zero => exact ⟨hs, hl⟩
    | succ m ih =>
      have := ih (j + 1) (Exchange.exchange (greater key) i ys j) (by omega) (hs.exchange hij) (hl.exchange hij)
      rwa [Nat.add_assoc, Nat.add_comm 1 m] at this
  obtain ⟨hs, hl⟩ := hloop (n - (i + 1)) (i + 1) xs (by omega) h fun b _ _ _ => by omega
  intro a b hab hb ha
  rcases Nat.lt_or_eq_of_le (Nat.le_of_lt_succ ha) with hlt | rfl
  · exact hs a b hab hb hlt
  · exact hl b hab hb (by omega)

/-- **Exchange sort puts the elements in order**, the greatest key first. -/
theorem exchangeSort_descending (key : α → κ) (xs : Vector α n) :
    (exchangeSort (greater key) xs).toList.Pairwise fun a b => key b ≤ key a := by
  have hloop (m : ℕ) : Settled key m ((List.range m).foldl (sortFrom (greater key)) xs) := by
    induction m with
    | zero => intro a b _ _ ha; omega
    | succ m ih =>
      rw [List.range_succ, List.foldl_append]
      exact sortFrom_settled ih
  rw [List.pairwise_iff_getElem]
  intro a b ha hb hab
  rw [Vector.length_toList] at ha hb
  rw [Vector.getElem_toList, Vector.getElem_toList]
  exact hloop (n - 1) a b hab hb (by omega)

/-- The first match in a list in order. -/
theorem find?_greatest {l : List α} (h : l.Pairwise fun a b => key b ≤ key a) {p : α → Bool} {a : α}
    (hfind : l.find? p = some a) : a ∈ l ∧ p a = true ∧ ∀ b ∈ l, p b = true → key b ≤ key a := by
  obtain ⟨hp, before, after, rfl, hbefore⟩ := List.find?_eq_some_iff_append.mp hfind
  refine ⟨by simp, hp, fun b hb hpb => ?_⟩
  rcases List.mem_append.mp hb with hb | hb
  · have := hbefore b hb
    rw [hpb] at this
    cases this
  · rcases List.mem_cons.mp hb with rfl | hb
    · exact le_rfl
    · exact (List.pairwise_cons.mp (List.pairwise_append.mp h).2.1).1 b hb

end Order

end Protocoale.Lib.Exchange

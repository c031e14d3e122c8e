import Mathlib.Tactic
import Mathlib.Data.Fintype.Card

/-!
Orbits of a partial function: a deterministic process that goes from a state to the next one or ends.
On finitely many states it ends within as many steps as there are states, or never
(`iter_card_eq_none_iff`): the states before the end are distinct. A process that is simulated by
another one, several steps for each of the other's, comes to an end exactly when the other one does
(`reaches_iff_of_sim`).
-/

namespace Protocoale.Lib.Orbit

variable {α : Type*} (f : α → Option α)

/-- The state after `n` steps, none when the process ended before. -/
def iter : ℕ → α → Option α
  | 0, a => some a
  | n + 1, a => (f a).bind (iter n)

variable {f} {a b : α} {m n : ℕ}

@[simp] lemma iter_zero : iter f 0 a = some a := rfl

lemma iter_succ_of_some (h : f a = some b) : iter f (n + 1) a = iter f n b := by
  rw [iter, h, Option.bind_some]

lemma iter_one (h : f a = some b) : iter f 1 a = some b := iter_succ_of_some h

lemma iter_succ_of_none (h : f a = none) : iter f (n + 1) a = none := by
  rw [iter, h, Option.bind_none]

lemma iter_add : iter f (m + n) a = (iter f m a).bind (iter f n) := by
  induction m generalizing a with
  | zero => rw [Nat.zero_add, iter_zero, Option.bind_some]
  | succ m ih =>
    rw [Nat.add_right_comm, iter, iter]
    cases f a with
    | none => rfl
    | some b => exact ih

/-- Once ended, the process stays so. -/
lemma iter_eq_none_of_le (h : iter f m a = none) (hmn : m ≤ n) : iter f n a = none := by
  obtain ⟨k, rfl⟩ := Nat.exists_eq_add_of_le hmn
  rw [iter_add, h, Option.bind_none]

/-- Before the first end no state comes back. -/
lemma iter_injOn (hend : iter f n a = none) (hfirst : ∀ k < n, iter f k a ≠ none) {i j : ℕ}
    (hij : i < j) (hj : j < n) : iter f i a ≠ iter f j a := by
  intro he
  -- what follows the later occurrence follows the earlier one too
  have hrest : iter f (j + (n - j)) a = none := by rwa [Nat.add_sub_cancel' hj.le]
  rw [iter_add, ← he, ← iter_add] at hrest
  exact hfirst (i + (n - j)) (by omega) hrest

/-- **On finitely many states, a process that ends does so within as many steps as there are
states.** -/
theorem iter_card_eq_none_iff [Fintype α] :
    iter f (Fintype.card α) a = none ↔ ∃ n, iter f n a = none := by
  constructor
  · intro h
    exact ⟨_, h⟩
  · intro hex
    classical
    let n := Nat.find hex
    have hend : iter f n a = none := Nat.find_spec hex
    have hfirst : ∀ k < n, iter f k a ≠ none := fun k hk => Nat.find_min hex hk
    refine iter_eq_none_of_le hend ?_
    have hsome (k : Fin n) : ∃ b, iter f k a = some b := Option.ne_none_iff_exists'.mp (hfirst k k.2)
    choose state hstate using hsome
    have hinj : Function.Injective state := by
      intro i j he
      have heq : iter f i a = iter f j a := by rw [hstate, hstate, he]
      rcases Nat.lt_trichotomy i j with hlt | hij | hlt
      · exact absurd heq (iter_injOn hend hfirst hlt j.2)
      · exact Fin.ext hij
      · exact absurd heq.symm (iter_injOn hend hfirst hlt i.2)
    have hcard := Fintype.card_le_of_injective state hinj
    rwa [Fintype.card_fin] at hcard

/-! ### Final states and simulations -/

section Reaches

variable {β : Type*} {P : α → Prop} {g : β → Option β} {R : α → β → Prop} {x y : β}

/-- The process gets to a state with the property. -/
def Reaches (f : α → Option α) (P : α → Prop) (a : α) : Prop := ∃ n b, iter f n a = some b ∧ P b

lemma Reaches.of_iter (hab : iter f m a = some b) (h : Reaches f P b) : Reaches f P a := by
  obtain ⟨n, c, hbc, hc⟩ := h
  refine ⟨m + n, c, ?_, hc⟩
  rw [iter_add, hab, Option.bind_some, hbc]

/-- A state that is final is reached no sooner than one that is not. -/
lemma iter_le_of_final (hP : ∀ a, P a → f a = none) (hab : iter f m a = some b) {c : α}
    (hac : iter f n a = some c) (hc : P c) : m ≤ n ∧ iter f (n - m) b = some c := by
  have hle : m ≤ n := by
    by_contra hlt
    have hend : iter f (n + 1) a = none := by
      rw [iter_add, hac, Option.bind_some, iter_succ_of_none (hP c hc)]
    rw [iter_eq_none_of_le hend (by omega)] at hab
    cases hab
  refine ⟨hle, ?_⟩
  rw [← Nat.add_sub_cancel' hle, iter_add, hab, Option.bind_some] at hac
  exact hac

/-- **A process gets to its final states exactly when the process that it is simulated by ends**:
where the other one ends it gets to a final state, and to each step of the other one it takes at
least one. -/
theorem reaches_iff_of_sim (hP : ∀ a, P a → f a = none)
    (hstop : ∀ a x, R a x → g x = none → Reaches f P a)
    (hstep : ∀ a x y, R a x → g x = some y → ∃ n b, 0 < n ∧ iter f n a = some b ∧ R b y)
    (h : R a x) : Reaches f P a ↔ ∃ k, iter g k x = none := by
  constructor
  · rintro ⟨n, c, hac, hc⟩
    induction n using Nat.strong_induction_on generalizing a x with
    | _ n ih =>
      cases hg : g x with
      | none => exact ⟨1, iter_succ_of_none hg⟩
      | some y =>
        obtain ⟨m, b, hm, hab, hR⟩ := hstep a x y h hg
        obtain ⟨hle, hbc⟩ := iter_le_of_final hP hab hac hc
        obtain ⟨k, hk⟩ := ih (n - m) (by omega) hR hbc
        exact ⟨k + 1, (iter_succ_of_some hg).trans hk⟩
  · rintro ⟨k, hk⟩
    induction k generalizing a x with
    | zero => cases hk
    | succ k ih =>
      cases hg : g x with
      | none => exact hstop a x h hg
      | some y =>
        obtain ⟨m, b, -, hab, hR⟩ := hstep a x y h hg
        rw [iter_succ_of_some hg] at hk
        exact Reaches.of_iter hab (ih hR hk)

end Reaches

end Protocoale.Lib.Orbit

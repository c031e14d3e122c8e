import Mathlib.Tactic

/-!
Bisection of an integer range by a three-way probe. The midpoints visited on the way to an index
depend on the index and the range only (`path`), so the search ends at an index exactly when
the probe stops there and every midpoint on the path sends the search to that side
(`bisect_eq_some_iff`). Nothing is assumed about the probe there: no order, no uniqueness.

When the probe is that of a sorted range (`Sorted`), the search finds whatever there is to be found
(`bisect_eq_none_iff`). A search that adds its bounds in a machine integer (`bisectBelow`) fails where
the sum does not fit, and `bisectBelow_eq_none_iff` says for which probes that is, in any order.
-/

namespace Protocoale.Lib.Bisect

/-- What a probe says: stop here, or go on to one side. -/
inductive Dir where
  | here | left | right
  deriving DecidableEq

/-- The search of `lo .. hi`. -/
def bisect (probe : ℤ → Dir) (lo hi : ℤ) : Option ℤ :=
  if hi < lo then none
  else
    match probe ((lo + hi) / 2) with
    | .here => some ((lo + hi) / 2)
    | .left => bisect probe lo ((lo + hi) / 2 - 1)
    | .right => bisect probe ((lo + hi) / 2 + 1) hi
termination_by (hi + 1 - lo).toNat
decreasing_by all_goals omega

/-- The midpoints before `j` on the way to `j`. -/
def path (lo hi j : ℤ) : List ℤ :=
  if hi < lo then []
  else if j = (lo + hi) / 2 then []
  else if j < (lo + hi) / 2 then (lo + hi) / 2 :: path lo ((lo + hi) / 2 - 1) j
  else (lo + hi) / 2 :: path ((lo + hi) / 2 + 1) hi j
termination_by (hi + 1 - lo).toNat
decreasing_by all_goals omega

/-- The side of `m` that `j` is on. -/
def side (m j : ℤ) : Dir := if j < m then .left else .right

variable {probe : ℤ → Dir} {lo hi j : ℤ}

/-- A search that stops, stops inside the range at an index where the probe says so. -/
lemma bisect_sound (h : bisect probe lo hi = some j) : lo ≤ j ∧ j ≤ hi ∧ probe j = .here := by
  fun_induction bisect probe lo hi with
  | case1 => cases h
  | case2 lo hi hlt hhere =>
    cases h
    exact ⟨by omega, by omega, hhere⟩
  | case3 lo hi hlt hleft ih =>
    obtain ⟨h1, h2, h3⟩ := ih h
    exact ⟨h1, by omega, h3⟩
  | case4 lo hi hlt hright ih =>
    obtain ⟨h1, h2, h3⟩ := ih h
    exact ⟨by omega, h2, h3⟩

/-- **Where the search ends.** -/
theorem bisect_eq_some_iff (hlo : lo ≤ j) (hhi : j ≤ hi) : bisect probe lo hi = some j ↔
    probe j = .here ∧ ∀ m ∈ path lo hi j, probe m = side m j := by
  fun_induction path lo hi j with
  | case1 => omega
  | case2 lo hi hlt heq =>
    subst heq
    rw [bisect, if_neg hlt]
    constructor
    · intro h
      have hsound : bisect probe lo hi = some ((lo + hi) / 2) := by
        rw [bisect, if_neg hlt]
        exact h
      exact ⟨(bisect_sound hsound).2.2, by simp⟩
    · rintro ⟨h, -⟩
      rw [h]
  | case3 lo hi hlt hne hj ih =>
    have hs : side ((lo + hi) / 2) j = .left := if_pos hj
    rw [bisect, if_neg hlt]
    simp only [List.mem_cons, forall_eq_or_imp, hs]
    cases hp : probe ((lo + hi) / 2) with
    | here => simp [Ne.symm hne]
    | left => simp [ih hlo (by omega)]
    | right =>
      simp only [reduceCtorEq, false_and, and_false, iff_false]
      intro h
      have := (bisect_sound h).1
      omega
  | case4 lo hi hlt hne hj ih =>
    have hs : side ((lo + hi) / 2) j = .right := if_neg hj
    rw [bisect, if_neg hlt]
    simp only [List.mem_cons, forall_eq_or_imp, hs]
    cases hp : probe ((lo + hi) / 2) with
    | here => simp [Ne.symm hne]
    | left =>
      simp only [reduceCtorEq, false_and, and_false, iff_false]
      intro h
      have := (bisect_sound h).2.1
      omega
    | right => simp [ih (by omega) hhi]

/-! ### Sorted ranges -/

/-- Every index after one that sends the search to the left does so as well, and every index before
one that sends it to the right. -/
structure Sorted (probe : ℤ → Dir) (lo hi : ℤ) : Prop where
  left : ∀ i j, lo ≤ i → i ≤ j → j ≤ hi → probe i = .left → probe j = .left
  right : ∀ i j, lo ≤ i → i ≤ j → j ≤ hi → probe j = .right → probe i = .right

lemma Sorted.mono {lo' hi' : ℤ} (h : Sorted probe lo hi) (hlo : lo ≤ lo') (hhi : hi' ≤ hi) :
    Sorted probe lo' hi' :=
  ⟨fun i j h1 h2 h3 => h.left i j (by omega) h2 (by omega),
    fun i j h1 h2 h3 => h.right i j (by omega) h2 (by omega)⟩

/-- **The search of a sorted range finds what there is.** -/
theorem bisect_eq_none_iff (h : Sorted probe lo hi) :
    bisect probe lo hi = none ↔ ∀ j, lo ≤ j → j ≤ hi → probe j ≠ .here := by
  constructor
  · fun_induction bisect probe lo hi with
    | case1 lo hi hlt => omega
    | case2 => simp
    | case3 lo hi hlt hleft ih =>
      intro hnone j h1 h2
      rcases lt_or_ge j ((lo + hi) / 2) with hj | hj
      · exact ih (h.mono le_rfl (by omega)) hnone j h1 (by omega)
      · rw [h.left _ j (by omega) hj h2 hleft]
        simp
    | case4 lo hi hlt hright ih =>
      intro hnone j h1 h2
      rcases lt_or_ge ((lo + hi) / 2) j with hj | hj
      · exact ih (h.mono (by omega) le_rfl) hnone j (by omega) h2
      · rw [h.right j _ h1 hj (by omega) hright]
        simp
  · intro hnone
    by_contra hsome
    obtain ⟨j, hj⟩ := Option.ne_none_iff_exists'.mp hsome
    obtain ⟨h1, h2, hhere⟩ := bisect_sound hj
    exact hnone j h1 h2 hhere

/-! ### Sums that do not fit -/

/-- The search with bounds whose sum must be less than `limit`. -/
def bisectBelow (limit : ℤ) (probe : ℤ → Dir) (lo hi : ℤ) : Option (Option ℤ) :=
  if hi < lo then some none
  else if limit ≤ lo + hi then none
  else
    match probe ((lo + hi) / 2) with
    | .here => some (some ((lo + hi) / 2))
    | .left => bisectBelow limit probe lo ((lo + hi) / 2 - 1)
    | .right => bisectBelow limit probe ((lo + hi) / 2 + 1) hi
termination_by (hi + 1 - lo).toNat
decreasing_by all_goals omega

/-- Where the search begins the last time when it always goes to the right: the range is empty then,
or the sum does not fit. -/
def rightEnd (limit lo hi : ℤ) : ℤ :=
  if hi < lo ∨ limit ≤ lo + hi then lo else rightEnd limit ((lo + hi) / 2 + 1) hi
termination_by (hi + 1 - lo).toNat
decreasing_by omega

variable {limit : ℤ}

/-- A search that comes to an end is the search. -/
lemma bisect_of_bisectBelow {answer : Option ℤ} (h : bisectBelow limit probe lo hi = some answer) :
    bisect probe lo hi = answer := by
  fun_induction bisectBelow limit probe lo hi with
  | case1 lo hi hlt =>
    rw [bisect, if_pos hlt]
    exact Option.some.inj h
  | case2 => cases h
  | case3 lo hi hlt hfit hhere =>
    rw [bisect, if_neg hlt, hhere]
    exact Option.some.inj h
  | case4 lo hi hlt hfit hleft ih =>
    rw [bisect, if_neg hlt, hleft]
    exact ih h
  | case5 lo hi hlt hfit hright ih =>
    rw [bisect, if_neg hlt, hright]
    exact ih h

/-- Every sum in a range that ends below half the limit fits. -/
lemma bisectBelow_ne_none (h : 2 * hi < limit) : bisectBelow limit probe lo hi ≠ none := by
  fun_induction bisectBelow limit probe lo hi with
  | case1 => simp
  | case2 => omega
  | case3 => simp
  | case4 lo hi hlt hfit hleft ih => exact ih (by omega)
  | case5 lo hi hlt hfit hright ih => exact ih h

lemma le_rightEnd : lo ≤ rightEnd limit lo hi := by
  fun_induction rightEnd limit lo hi with
  | case1 => exact le_rfl
  | case2 => omega

lemma lt_rightEnd_iff : hi < rightEnd limit lo hi ↔ hi < lo ∨ 2 * hi < limit := by
  fun_induction rightEnd limit lo hi with
  | case1 => omega
  | case2 lo hgo ih =>
    rw [ih]
    omega

lemma rightEnd_step (hlt : ¬ hi < lo) (hfit : ¬ limit ≤ lo + hi) :
    rightEnd limit lo hi = rightEnd limit ((lo + hi) / 2 + 1) hi := by
  rw [rightEnd, if_neg (by omega)]

/-- The midpoints of a search that always goes to the right, as long as the sum fits. -/
def rights (limit lo hi : ℤ) : List ℤ :=
  if hi < lo ∨ limit ≤ lo + hi then []
  else (lo + hi) / 2 :: rights limit ((lo + hi) / 2 + 1) hi
termination_by (hi + 1 - lo).toNat
decreasing_by omega

lemma rights_step (hlt : ¬ hi < lo) (hfit : ¬ limit ≤ lo + hi) :
    rights limit lo hi = (lo + hi) / 2 :: rights limit ((lo + hi) / 2 + 1) hi := by
  rw [rights, if_neg (by omega)]

/-- **The search fails exactly when it goes to the right until the sum does not fit.** Once it has gone
to the left, everything fits. -/
theorem bisectBelow_eq_none_iff : bisectBelow limit probe lo hi = none ↔
    rightEnd limit lo hi ≤ hi ∧ ∀ m ∈ rights limit lo hi, probe m = .right := by
  fun_induction bisectBelow limit probe lo hi with
  | case1 lo hi hlt =>
    rw [rightEnd, if_pos (Or.inl hlt)]
    refine iff_of_false (by simp) ?_
    omega
  | case2 lo hi hlt hsum =>
    rw [rightEnd, if_pos (Or.inr hsum), rights, if_pos (Or.inr hsum)]
    exact iff_of_true rfl ⟨by omega, by simp⟩
  | case3 lo hi hlt hfit hhere =>
    rw [rights_step hlt hfit]
    refine iff_of_false (by simp) ?_
    rintro ⟨-, hright⟩
    rw [hright _ List.mem_cons_self] at hhere
    cases hhere
  | case4 lo hi hlt hfit hleft ih =>
    rw [rights_step hlt hfit]
    refine iff_of_false (bisectBelow_ne_none (by omega)) ?_
    rintro ⟨-, hright⟩
    rw [hright _ List.mem_cons_self] at hleft
    cases hleft
  | case5 lo hi hlt hfit hright ih =>
    rw [ih, ← rightEnd_step hlt hfit, rights_step hlt hfit, List.forall_mem_cons]
    simp only [hright, true_and]

lemma lt_rightEnd_of_mem {m : ℤ} (h : m ∈ rights limit lo hi) : lo ≤ m ∧ m < rightEnd limit lo hi := by
  fun_induction rights limit lo hi with
  | case1 => simp at h
  | case2 lo hgo ih =>
    rw [rightEnd_step (by omega) (by omega)]
    rcases List.mem_cons.mp h with rfl | h
    · have hge : (lo + hi) / 2 + 1 ≤ rightEnd limit ((lo + hi) / 2 + 1) hi := le_rightEnd
      omega
    · have hm := ih h
      omega

/-- The last midpoint is the one before the end. -/
lemma rightEnd_sub_one_mem (h : lo < rightEnd limit lo hi) :
    rightEnd limit lo hi - 1 ∈ rights limit lo hi := by
  fun_induction rights limit lo hi with
  | case1 lo hgo =>
    rw [rightEnd, if_pos hgo] at h
    omega
  | case2 lo hgo ih =>
    have hstep : rightEnd limit lo hi = rightEnd limit ((lo + hi) / 2 + 1) hi :=
      rightEnd_step (by omega) (by omega)
    have hge : (lo + hi) / 2 + 1 ≤ rightEnd limit ((lo + hi) / 2 + 1) hi := le_rightEnd
    rw [hstep]
    rcases hge.lt_or_eq with hgt | heq
    · exact List.mem_cons_of_mem _ (ih hgt)
    · rw [← heq, add_sub_cancel_right]
      exact List.mem_cons_self

/-- In a sorted range the last midpoint tells. -/
theorem Sorted.bisectBelow_eq_none_iff (h : Sorted probe lo hi) :
    bisectBelow limit probe lo hi = none ↔
      rightEnd limit lo hi ≤ hi ∧
        (lo < rightEnd limit lo hi → probe (rightEnd limit lo hi - 1) = .right) := by
  rw [Bisect.bisectBelow_eq_none_iff]
  refine and_congr_right fun hend => ⟨fun hall hlt => hall _ (rightEnd_sub_one_mem hlt), ?_⟩
  intro hlast m hm
  obtain ⟨hlo, hlt⟩ := lt_rightEnd_of_mem hm
  exact h.right m _ hlo (by omega) (by omega) (hlast (by omega))

end Protocoale.Lib.Bisect

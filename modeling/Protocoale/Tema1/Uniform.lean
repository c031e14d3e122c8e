import Protocoale.Tema1.RTable

/-!
The search of a table whose entries all have one mask. In such a table, ordered by its keys, an
entry that does not match tells which side the matches are on, so that the search finds one whenever
there is one, and with one mask every match is a longest one (`longestMatch_of_mask_eq`).

What it does not survive is a large table: `start + end` is an `int`, and from `2 ^ 30` entries on a
search that keeps going to the end of the table adds two indices whose sum does not fit.
-/

namespace Protocoale.Tema1

open Lib.Bisect

variable {rtable : List RouteTableEntry} {d : UInt32} {e : RouteTableEntry} {start stop i j : ℤ}

/-! ### One mask -/

/-- Keys in order and one mask. -/
structure Uniform (rtable : List RouteTableEntry) : Prop where
  descending : KeysDescending rtable
  mask_eq : ∀ a ∈ rtable, ∀ b ∈ rtable, a.mask = b.mask

lemma Uniform.key_le (h : Uniform rtable) {a b : RouteTableEntry} {m n : ℕ} (hmn : m ≤ n)
    (ha : rtable[m]? = some a) (hb : rtable[n]? = some b) : b.key ≤ a.key := by
  obtain ⟨hm, rfl⟩ := List.getElem?_eq_some_iff.mp ha
  obtain ⟨hn, rfl⟩ := List.getElem?_eq_some_iff.mp hb
  rcases hmn.lt_or_eq with hlt | rfl
  · exact List.pairwise_iff_getElem.mp h.descending m n hm hn hlt
  · exact UInt32.le_refl _

lemma dir_eq_left_iff : e.dir d = .left ↔ e.key < d &&& e.mask := by
  unfold RouteTableEntry.dir
  split
  · next h =>
    have heq : d &&& e.mask = e.key := h
    refine iff_of_false (by simp) ?_
    rw [heq]
    exact UInt32.lt_irrefl _
  · split
    · next hgt => exact iff_of_true rfl hgt
    · next hle => exact iff_of_false (by simp) hle

lemma dir_eq_right_iff : e.dir d = .right ↔ d &&& e.mask < e.key := by
  unfold RouteTableEntry.dir
  split
  · next h =>
    have heq : d &&& e.mask = e.key := h
    refine iff_of_false (by simp) ?_
    rw [heq]
    exact UInt32.lt_irrefl _
  · next h =>
    have hne : d &&& e.mask ≠ e.key := h
    split
    · next hgt => exact iff_of_false (by simp) (UInt32.not_lt.mpr (UInt32.le_of_lt hgt))
    · next hle => exact iff_of_true rfl (UInt32.lt_of_le_of_ne (UInt32.not_lt.mp hle) hne)

/-- The probes of a table with one mask are those of a sorted range. -/
lemma Uniform.sorted (h : Uniform rtable) (h0 : 0 ≤ start) (h1 : stop < rtable.length) :
    Sorted (probe rtable d) start stop := by
  have hentry : ∀ i, start ≤ i → i ≤ stop → ∃ e ∈ rtable, rtable[i.toNat]? = some e := by
    intro i h2 h3
    exact ⟨_, List.getElem_mem (by omega), List.getElem?_eq_getElem (by omega)⟩
  have hpair : ∀ i j, start ≤ i → i ≤ j → j ≤ stop → ∃ a b : RouteTableEntry, probe rtable d i = a.dir d ∧
      probe rtable d j = b.dir d ∧ b.key ≤ a.key ∧ a.mask = b.mask := by
    intro i j h2 h3 h4
    obtain ⟨a, ha, hai⟩ := hentry i h2 (by omega)
    obtain ⟨b, hb, hbj⟩ := hentry j (by omega) h4
    exact ⟨a, b, probe_eq hai, probe_eq hbj, h.key_le (by omega) hai hbj, h.mask_eq a ha b hb⟩
  constructor
  · intro i j h2 h3 h4 hleft
    obtain ⟨a, b, ha, hb, hkey, hmask⟩ := hpair i j h2 h3 h4
    rw [ha, dir_eq_left_iff, hmask] at hleft
    rw [hb, dir_eq_left_iff]
    exact UInt32.lt_of_le_of_lt hkey hleft
  · intro i j h2 h3 h4 hright
    obtain ⟨a, b, ha, hb, hkey, hmask⟩ := hpair i j h2 h3 h4
    rw [hb, dir_eq_right_iff, ← hmask] at hright
    rw [ha, dir_eq_right_iff]
    exact UInt32.lt_of_lt_of_le hright hkey

/-- The search of the entries from `start` to `stop` comes to an end without reading another one. It
answers with one of them that matches, and with none when there is none. -/
def FindsMatch (rtable : List RouteTableEntry) (d : UInt32) (start stop : ℤ) : Prop :=
  ∃ answer, getBestRouteAt (slice rtable start stop) d start stop = some answer ∧
    (answer = none ↔ ∀ i, start ≤ i → i ≤ stop → ∀ e, rtable[i.toNat]? = some e → ¬ e.Matches d) ∧
    ∀ e, answer = some e → e.Matches d ∧ ∃ i, start ≤ i ∧ i ≤ stop ∧ rtable[i.toNat]? = some e

/-- What the search finds when nothing keeps it from its end. -/
lemma Uniform.findsMatch_iff_fits (h : Uniform rtable) (h0 : 0 ≤ start) (h1 : stop < rtable.length) :
    FindsMatch rtable d start stop ↔ bisectBelow INT_LIMIT (probe rtable d) start stop ≠ none := by
  unfold FindsMatch
  rw [getBestRouteAt_slice h0 h1]
  constructor
  · rintro ⟨answer, hans, -⟩ hnone
    rw [hnone] at hans
    cases hans
  · intro hne
    obtain ⟨found, hfound⟩ := Option.ne_none_iff_exists'.mp hne
    have hbis := bisect_of_bisectBelow hfound
    refine ⟨_, by rw [hfound, Option.map_some], ?_⟩
    cases found with
    | none =>
      have hno := (bisect_eq_none_iff (h.sorted h0 h1)).mp hbis
      refine ⟨iff_of_true rfl ?_, ?_⟩
      · intro i h2 h3 e he hmatch
        refine hno i h2 h3 ?_
        rw [probe_eq he, dir_eq_here_iff]
        exact hmatch
      · intro e he
        cases he
    | some j =>
      obtain ⟨h2, h3, hhere⟩ := bisect_sound hbis
      have he : rtable[j.toNat]? = some (rtable.get ⟨j.toNat, by omega⟩) :=
        List.getElem?_eq_getElem _
      rw [probe_eq he, dir_eq_here_iff] at hhere
      rw [Option.bind_some, he]
      refine ⟨iff_of_false (by simp) ?_, ?_⟩
      · intro hno
        exact hno j h2 h3 _ he hhere
      · rintro e' he'
        cases he'
        exact ⟨hhere, j, h2, h3, he⟩

/-- **Where the search is right.** In a table of at most `2 ^ 30` routes with one mask, whose keys are
less than half the range apart, the search answers with a longest match. -/
theorem longestMatch_of_mask_eq (q : Qsort RouteTableEntry) (hlen : rtable.length ≤ 2 ^ 30)
    (hmask : ∀ a ∈ rtable, ∀ b ∈ rtable, a.mask = b.mask)
    (hnear : ∀ a ∈ rtable, ∀ b ∈ rtable, a.key.toNat < b.key.toNat + 2 ^ 31) (d : UInt32) :
    ∃ answer, searchTable (sortRtable q rtable) d = some answer ∧ LongestMatch rtable d answer := by
  have hperm : (sortRtable q rtable).Perm rtable := q.perm compar rtable
  have huniform : Uniform (sortRtable q rtable) := by
    refine ⟨sortRtable_keysDescending q hnear, ?_⟩
    intro a ha b hb
    exact hmask a (hperm.mem_iff.mp ha) b (hperm.mem_iff.mp hb)
  have hlt : rtable.length < INT_LIMIT := by
    simp only [INT_LIMIT]
    omega
  have hfits : bisectBelow INT_LIMIT (probe (sortRtable q rtable) d) 0 (rtable.length - 1) ≠ none :=
    bisectBelow_ne_none (by simp only [INT_LIMIT]; omega)
  obtain ⟨answer, hans, hnone, hsome⟩ :=
    (huniform.findsMatch_iff_fits le_rfl (by rw [hperm.length_eq]; omega)).mpr hfits
  refine ⟨answer, ?_, ?_⟩
  · rw [searchTable_of_lt (by rwa [hperm.length_eq]), hperm.length_eq, hans]
  · rw [← longestMatch_congr hperm]
    constructor
    case none_iff =>
      rw [hnone]
      constructor
      · intro hno e he
        obtain ⟨i, hi, rfl⟩ := List.getElem_of_mem he
        have hlt : i < rtable.length := hperm.length_eq ▸ hi
        exact hno i (by omega) (by omega) _ (List.getElem?_eq_getElem hi)
      · intro hno i _ _ e he
        exact hno e (List.mem_of_getElem? he)
    case some_longest =>
      intro e he
      obtain ⟨hmatch, i, -, -, hi⟩ := hsome e he
      refine ⟨List.mem_of_getElem? hi, hmatch, ?_⟩
      intro e' he' _
      rw [huniform.mask_eq e' he' e (List.mem_of_getElem? hi)]

/-- **The search of a table with one mask is right exactly when it does not go to the right until the
sum does not fit**: the range is empty, it ends below `2 ^ 30`, or the last midpoint on the way to the
right is an entry that matches or sends the search to the left. -/
theorem findsMatch_iff (h : Uniform rtable) (h0 : 0 ≤ start) (h1 : stop < rtable.length)
    (d : UInt32) : FindsMatch rtable d start stop ↔
      (stop < start ∨ stop < 2 ^ 30) ∨
        start < rightEnd INT_LIMIT start stop ∧
          ∀ e, rtable[(rightEnd INT_LIMIT start stop - 1).toNat]? = some e →
            e.key ≤ d &&& e.mask := by
  have hfit : (stop < start ∨ stop < 2 ^ 30) ↔ stop < rightEnd INT_LIMIT start stop := by
    rw [lt_rightEnd_iff]
    simp only [INT_LIMIT]
    omega
  rw [h.findsMatch_iff_fits h0 h1, ne_eq, (h.sorted h0 h1).bisectBelow_eq_none_iff, hfit]
  have hge : start ≤ rightEnd INT_LIMIT start stop := le_rightEnd
  rw [not_and_or, not_le]
  refine or_congr_right' fun hend => ?_
  rw [Classical.not_imp]
  refine and_congr_right fun hlt => ?_
  have he : rtable[(rightEnd INT_LIMIT start stop - 1).toNat]? =
      some (rtable.get ⟨(rightEnd INT_LIMIT start stop - 1).toNat, by omega⟩) :=
    List.getElem?_eq_getElem _
  rw [probe_eq he, dir_eq_right_iff, he, UInt32.not_lt]
  simp

/-- A table of one route. -/
theorem findsMatch_one : FindsMatch [⟨1, 2, 255, 0⟩] 1 0 0 :=
  (findsMatch_iff ⟨List.pairwise_singleton _ _, by simp⟩ le_rfl (by decide) 1).mpr
    (Or.inl (Or.inr (by decide)))

/-- A table of `2 ^ 30 + 1` equal routes, the last of which is searched. -/
theorem not_findsMatch : ∃ e : RouteTableEntry, Uniform (List.replicate (2 ^ 30 + 1) e) ∧
    ¬ FindsMatch (List.replicate (2 ^ 30 + 1) e) 1 (2 ^ 30) (2 ^ 30) := by
  refine ⟨⟨1, 2, 255, 0⟩, ⟨?_, ?_⟩, ?_⟩
  · exact List.pairwise_replicate.mpr (Or.inr (UInt32.le_refl _))
  · intro a ha b hb
    rw [List.eq_of_mem_replicate ha, List.eq_of_mem_replicate hb]
  · rintro ⟨answer, hans, -⟩
    rw [getBestRouteAt, if_neg (by decide), if_pos (by decide)] at hans
    cases hans

end Protocoale.Tema1

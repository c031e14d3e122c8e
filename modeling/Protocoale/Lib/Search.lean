import Mathlib.Data.List.Infix
import Mathlib.Tactic

/-!
The first occurrence of a pattern in a text. Where a text is only known up to some point, the first
occurrence is found as soon as it is complete, and nothing before (`find_of_append`).
-/

namespace Protocoale.Lib.Search

variable {α : Type*}

/-- The pattern occurs at the index `i` of the text. -/
def Occurs (data text : List α) (i : ℕ) : Prop := i + data.length ≤ text.length ∧ data <+: text.drop i

variable {data text rest : List α} {i : ℕ}

lemma Occurs.append (h : Occurs data text i) : Occurs data (text ++ rest) i := by
  obtain ⟨hlen, hpre⟩ := h
  refine ⟨by rw [List.length_append]; omega, ?_⟩
  rw [List.drop_append_of_le_length (by omega)]
  exact hpre.trans (List.prefix_append _ rest)

/-- An occurrence that is complete does not depend on what comes after. -/
lemma Occurs.of_append (h : Occurs data (text ++ rest) i) (hlen : i + data.length ≤ text.length) :
    Occurs data text i := by
  obtain ⟨-, hpre⟩ := h
  rw [List.drop_append_of_le_length (by omega)] at hpre
  refine ⟨hlen, List.prefix_of_prefix_length_le hpre (List.prefix_append _ rest) ?_⟩
  rw [List.length_drop]
  omega

lemma occurs_append_left_iff {xs ys : List α} :
    Occurs data (xs ++ ys) (xs.length + i) ↔ Occurs data ys i := by
  unfold Occurs
  rw [List.drop_length_add_append, List.length_append, Nat.add_assoc, Nat.add_le_add_iff_left]

/-- A pattern occurs in a text that contains it. -/
lemma exists_occurs_iff : (∃ i, Occurs data text i) ↔ data <:+: text := by
  constructor
  · rintro ⟨i, -, hpre⟩
    exact hpre.isInfix.trans (List.drop_suffix i text).isInfix
  · rintro ⟨xs, ys, rfl⟩
    refine ⟨xs.length, by simp, ?_⟩
    rw [List.append_assoc, List.drop_left]
    exact List.prefix_append data ys

/-- An occurrence shows the pattern's elements. -/
lemma Occurs.getElem (h : Occurs data text i) {k : ℕ} (hk : k < data.length) :
    text[i + k]? = some (data[k]) := by
  obtain ⟨tail, htail⟩ := h.2
  rw [← List.getElem?_drop, ← htail, List.getElem?_append_left hk, List.getElem?_eq_getElem hk]

/-- A pattern does not occur across elements that are not in it. -/
lemma Occurs.of_gap {xs gap ys : List α} (h : Occurs data (xs ++ (gap ++ ys)) i) (hdata : data ≠ [])
    (hne : gap ≠ []) (hgap : ∀ c ∈ gap, c ∉ data) :
    i + data.length ≤ xs.length ∨ xs.length + gap.length ≤ i := by
  by_contra hcontra
  rw [not_or, not_le, not_le] at hcontra
  obtain ⟨hafter, hbefore⟩ := hcontra
  have hpos := List.length_pos_of_ne_nil hne
  have hpos' := List.length_pos_of_ne_nil hdata
  -- the first index that is both in the occurrence and among those elements
  obtain ⟨k, p, hk, hp, he⟩ : ∃ k p, k < data.length ∧ p < gap.length ∧ i + k = xs.length + p := by
    rcases Nat.le_total i xs.length with hle | hle
    · exact ⟨xs.length - i, 0, by omega, hpos, by omega⟩
    · exact ⟨0, i - xs.length, by omega, by omega, by omega⟩
  have hget := h.getElem hk
  rw [he, List.getElem?_append_right (by omega), Nat.add_sub_cancel_left,
    List.getElem?_append_left hp, List.getElem?_eq_getElem hp] at hget
  have hmem : gap[p] ∈ data := by
    rw [Option.some.inj hget]
    exact List.getElem_mem hk
  exact hgap _ (List.getElem_mem hp) hmem

/-- An element that is not in the pattern can be replaced by another one. -/
lemma Occurs.replace {a b : α} {xs ys : List α} (h : Occurs data (xs ++ a :: ys) i) (hdata : data ≠ [])
    (ha : a ∉ data) : Occurs data (xs ++ b :: ys) i := by
  have hgap : ∀ c ∈ [a], c ∉ data := by
    intro c hc
    rwa [List.mem_singleton.mp hc]
  have hcons : Occurs data (xs ++ ([a] ++ ys)) i := h
  rcases hcons.of_gap hdata (List.cons_ne_nil a []) hgap with hle | hge
  · exact (h.of_append hle).append
  · obtain ⟨hlen, hpre⟩ := h
    obtain ⟨k, rfl⟩ := Nat.exists_eq_add_of_le hge
    refine ⟨by simpa using hlen, ?_⟩
    have hdrop (c : α) : (xs ++ c :: ys).drop (xs.length + [a].length + k) = ys.drop k := by
      rw [List.length_singleton, Nat.add_assoc, List.drop_length_add_append, Nat.add_comm 1,
        List.drop_succ_cons]
    rwa [hdrop] at hpre ⊢

variable [BEq α] [LawfulBEq α]

/-- The index of the first occurrence of a pattern. -/
def find (data text : List α) : Option ℕ :=
  (List.range (text.length + 1 - data.length)).find? fun i => data.isPrefixOf (text.drop i)

lemma occurs_iff : Occurs data text i ↔
    i < text.length + 1 - data.length ∧ data.isPrefixOf (text.drop i) = true := by
  rw [List.isPrefixOf_iff_prefix, Occurs]
  exact and_congr_left fun _ => ⟨fun h => by omega, fun h => by omega⟩

theorem find_eq_some_iff :
    find data text = some i ↔ Occurs data text i ∧ ∀ j < i, ¬ Occurs data text j := by
  unfold find
  rw [List.find?_range_eq_some, occurs_iff, List.mem_range]
  constructor
  · rintro ⟨hpre, hlt, hfirst⟩
    refine ⟨⟨hlt, hpre⟩, ?_⟩
    intro j hj h
    have hno := hfirst j hj
    rw [(occurs_iff.mp h).2] at hno
    cases hno
  · rintro ⟨⟨hlt, hpre⟩, hfirst⟩
    refine ⟨hpre, hlt, ?_⟩
    intro j hj
    rw [Bool.not_eq_true', Bool.eq_false_iff]
    intro h
    exact hfirst j hj (occurs_iff.mpr ⟨by omega, h⟩)

theorem find_eq_none_iff : find data text = none ↔ ∀ i, ¬ Occurs data text i := by
  unfold find
  rw [List.find?_range_eq_none]
  constructor
  · intro h i hi
    obtain ⟨hlt, hpre⟩ := occurs_iff.mp hi
    have hno := h i hlt
    rw [hpre] at hno
    cases hno
  · intro h i hlt
    rw [Bool.not_eq_true', Bool.eq_false_iff]
    intro hpre
    exact h i (occurs_iff.mpr ⟨hlt, hpre⟩)

/-- What was found stays the first occurrence. -/
lemma find_append (h : find data text = some i) : find data (text ++ rest) = some i := by
  rw [find_eq_some_iff] at h ⊢
  obtain ⟨hocc, hfirst⟩ := h
  refine ⟨hocc.append, ?_⟩
  intro j hj h
  have hlen := hocc.1
  exact hfirst j hj (h.of_append (by omega))

/-- **The first occurrence is found in every prefix that contains it, and nothing in the others.** -/
theorem find_of_append (h : find data (text ++ rest) = some i) :
    find data text = if i + data.length ≤ text.length then some i else none := by
  obtain ⟨hocc, hfirst⟩ := find_eq_some_iff.mp h
  split
  · next hlen =>
    rw [find_eq_some_iff]
    exact ⟨hocc.of_append hlen, fun j hj hj' => hfirst j hj hj'.append⟩
  · next hlen =>
    rw [find_eq_none_iff]
    intro j hj
    -- an occurrence in the prefix ends before this one does, so it starts before it too
    have hlt := hj.1
    exact hfirst j (by omega) hj.append

/-- What is found in the rest of a text, when the pattern does not start before. -/
lemma find_append_left {xs ys : List α} (h : find data ys = some i)
    (hno : ∀ j < xs.length, ¬ Occurs data (xs ++ ys) j) :
    find data (xs ++ ys) = some (xs.length + i) := by
  obtain ⟨hocc, hfirst⟩ := find_eq_some_iff.mp h
  rw [find_eq_some_iff]
  refine ⟨occurs_append_left_iff.mpr hocc, ?_⟩
  intro j hj hj'
  rcases Nat.lt_or_ge j xs.length with hlt | hge
  · exact hno j hlt hj'
  · obtain ⟨k, rfl⟩ := Nat.exists_eq_add_of_le hge
    exact hfirst k (by omega) (occurs_append_left_iff.mp hj')

/-- A pattern is found behind elements its first one is not among. -/
lemma find_cons {a : α} {as xs ys : List α} (h : a ∉ xs) :
    find (a :: as) (xs ++ (a :: as ++ ys)) = some xs.length := by
  rw [find_eq_some_iff]
  constructor
  · refine ⟨by simp, ?_⟩
    rw [List.drop_left]
    exact List.prefix_append _ _
  · intro j hj hocc
    have hget := hocc.getElem (k := 0) (by simp)
    rw [Nat.add_zero, List.getElem?_append_left hj, List.getElem?_eq_getElem hj] at hget
    have he : xs[j] = a := Option.some.inj hget
    rw [← he] at h
    exact h (List.getElem_mem hj)

/-- A pattern of two elements is found behind elements its second one is not among. -/
lemma find_pair {a b : α} {xs ys : List α} (h : b ∉ xs) (hab : a ≠ b) :
    find [a, b] (xs ++ ([a, b] ++ ys)) = some xs.length := by
  rw [find_eq_some_iff]
  constructor
  · refine ⟨by simp, ?_⟩
    rw [List.drop_left]
    exact List.prefix_append _ _
  · intro j hj hocc
    have hget := hocc.getElem (k := 1) (by simp)
    rcases Nat.lt_or_ge (j + 1) xs.length with hlt | hge
    · rw [List.getElem?_append_left hlt] at hget
      exact h (List.mem_of_getElem? hget)
    · have he : j + 1 = xs.length := by omega
      rw [he, List.getElem?_append_right le_rfl, Nat.sub_self] at hget
      exact hab (Option.some.inj hget)

/-- A pattern is not found where its first element is not. -/
lemma find_eq_none_of_not_mem {a : α} {as : List α} (h : a ∉ text) : find (a :: as) text = none := by
  rw [find_eq_none_iff]
  intro i hocc
  have hget := hocc.getElem (k := 0) (by simp)
  exact h (List.mem_of_getElem? hget)

/-- The first occurrence of one element. -/
lemma find_singleton {a : α} {xs ys : List α} (h : a ∉ xs) :
    find [a] (xs ++ a :: ys) = some xs.length :=
  find_cons h

/-- What comes from the first occurrence of an element on is a given end of the text exactly when
the end starts with the element and nothing before it is one. -/
lemma drop_find_eq_some_iff {a : α} {xs ys : List α} :
    ((find [a] (xs ++ ys)).map fun i => (xs ++ ys).drop i) = some ys ↔
      ys.head? = some a ∧ a ∉ xs := by
  constructor
  · intro h
    obtain ⟨i, hi, hdrop⟩ := Option.map_eq_some_iff.mp h
    have hocc := (find_eq_some_iff.mp hi).1
    have hlen := congrArg List.length hdrop
    rw [List.length_drop, List.length_append] at hlen
    have hbound := hocc.1
    rw [List.length_append, List.length_singleton] at hbound
    obtain rfl : i = xs.length := by omega
    constructor
    · rw [← hdrop, List.head?_drop]
      exact hocc.getElem (k := 0) (by simp)
    · intro hmem
      obtain ⟨pre, post, rfl, hpre⟩ := List.eq_append_cons_of_mem hmem
      have hfind : find [a] (pre ++ a :: (post ++ ys)) = some pre.length := find_singleton hpre
      rw [List.append_assoc, List.cons_append, hfind] at hi
      have hne := Option.some.inj hi
      simp at hne
  · rintro ⟨hhead, hmem⟩
    obtain ⟨tail, rfl⟩ := List.head?_eq_some_iff.mp hhead
    rw [find_singleton hmem, Option.map_some, List.drop_left]

/-- A text cut at the first occurrence of a pattern, without the pattern. -/
def cut (data text : List α) : Option (List α × List α) :=
  (find data text).map fun i => (text.take i, text.drop (i + data.length))

omit [LawfulBEq α] in
/-- A text is cut where the pattern was put. -/
lemma cut_of_find {xs ys : List α} (h : find data (xs ++ (data ++ ys)) = some xs.length) :
    cut data (xs ++ (data ++ ys)) = some (xs, ys) := by
  rw [cut, h, Option.map_some, List.take_left, List.drop_length_add_append, List.drop_left]

lemma cut_cons {a : α} {as xs ys : List α} (h : a ∉ xs) :
    cut (a :: as) (xs ++ (a :: as ++ ys)) = some (xs, ys) :=
  cut_of_find (find_cons h)

lemma cut_eq_none_of_not_mem {a : α} {as : List α} (h : a ∉ text) : cut (a :: as) text = none := by
  rw [cut, find_eq_none_of_not_mem h, Option.map_none]

theorem find_replace {a b : α} {xs ys : List α} (hdata : data ≠ []) (ha : a ∉ data) (hb : b ∉ data) :
    find data (xs ++ a :: ys) = find data (xs ++ b :: ys) := by
  apply Option.ext
  intro i
  rw [find_eq_some_iff, find_eq_some_iff]
  constructor
  · rintro ⟨hocc, hfirst⟩
    exact ⟨hocc.replace hdata ha, fun j hj h => hfirst j hj (h.replace hdata hb)⟩
  · rintro ⟨hocc, hfirst⟩
    exact ⟨hocc.replace hdata hb, fun j hj h => hfirst j hj (h.replace hdata ha)⟩

end Protocoale.Lib.Search

import Mathlib.Data.List.Sort
import Protocoale.Lib.Bisect
import Protocoale.Lib.Bytes

/-!
The routing table: its order (`compar`, `sort_rtable`) and the search in it (`get_best_route`).

The search bisects the table, but every probe compares the destination under the mask of the entry
it probes. It stops at the first entry that matches, and nothing makes that one the longest or
keeps the search on the side of a match; and it adds two indices in an `int`, which does not hold the
sums of a table of more than `2 ^ 30` entries. `longestMatch_iff` says what the search needs to answer
with a longest match: sums that fit, and a longest match on which every probe before it steers the
search.
-/

namespace Protocoale.Tema1

open Lib.Bytes Lib.Bisect

/-- `route_table_entry`. Addresses and masks are the host's values of words in network byte order;
`routePrefix` is the field `prefix`. -/
structure RouteTableEntry where
  routePrefix : UInt32
  nextHop : UInt32
  mask : UInt32
  interface : ℤ
  deriving DecidableEq

/-! ### Sorting -/

/-- A comparator that orders the elements of a list. -/
structure Consistent {α : Type*} (cmp : α → α → ℤ) (l : List α) : Prop where
  total : ∀ a ∈ l, ∀ b ∈ l, cmp a b ≤ 0 ∨ cmp b a ≤ 0
  trans : ∀ a ∈ l, ∀ b ∈ l, ∀ c ∈ l, cmp a b ≤ 0 → cmp b c ≤ 0 → cmp a c ≤ 0

/-- The library's `qsort`: a permutation, and a sorted one when the comparator orders the
elements. -/
structure Qsort (α : Type*) where
  sort : (α → α → ℤ) → List α → List α
  perm : ∀ cmp l, (sort cmp l).Perm l
  sorted : ∀ cmp l, Consistent cmp l → (sort cmp l).Pairwise fun a b => cmp a b ≤ 0

/-- Insertion sort. -/
def insertionQsort (α : Type*) : Qsort α where
  sort cmp l := (l.attach.insertionSort fun a b => cmp a.1 b.1 ≤ 0).map Subtype.val
  perm cmp l := by
    have h := (List.perm_insertionSort (fun a b : { x // x ∈ l } => cmp a.1 b.1 ≤ 0) l.attach).map
      Subtype.val
    rwa [List.attach_map_subtype_val] at h
  sorted cmp l hc := by
    have : Std.Total fun a b : { x // x ∈ l } => cmp a.1 b.1 ≤ 0 :=
      ⟨fun a b => hc.total a.1 a.2 b.1 b.2⟩
    have : IsTrans { x // x ∈ l } fun a b => cmp a.1 b.1 ≤ 0 :=
      ⟨fun a b c => hc.trans a.1 a.2 b.1 b.2 c.1 c.2⟩
    rw [List.pairwise_map]
    exact List.pairwise_insertionSort _ _

/-- `compar`: the difference of two unsigned words, as an `int`. -/
def compar (r1 r2 : RouteTableEntry) : ℤ :=
  ((r2.mask &&& r2.routePrefix) - (r1.mask &&& r1.routePrefix)).toBitVec.toInt

/-- `sort_rtable`. -/
def sortRtable (q : Qsort RouteTableEntry) (rtable : List RouteTableEntry) : List RouteTableEntry :=
  q.sort compar rtable

/-! ### The order -/

/-- The prefix under the mask, by which the table is ordered. -/
def RouteTableEntry.key (e : RouteTableEntry) : UInt32 := e.mask &&& e.routePrefix

/-- The sign of `compar` says how the keys compare as unsigned numbers, the greater one first. -/
structure ComparesKeys (a b : RouteTableEntry) : Prop where
  neg_iff : compar a b < 0 ↔ b.key < a.key
  zero_iff : compar a b = 0 ↔ a.key = b.key
  pos_iff : 0 < compar a b ↔ a.key < b.key

/-- The order the search goes by: the keys do not increase. -/
def KeysDescending (rtable : List RouteTableEntry) : Prop :=
  rtable.Pairwise fun a b => b.key ≤ a.key

lemma compar_eq_bmod (a b : RouteTableEntry) :
    compar a b = Int.bmod ((b.key.toNat : ℤ) - a.key.toNat) (2 ^ 32) := by
  have hsub : compar a b = (b.key.toBitVec - a.key.toBitVec).toInt := rfl
  rw [hsub, BitVec.toInt_sub, BitVec.toInt_eq_toNat_bmod, BitVec.toInt_eq_toNat_bmod]
  simp

/-- The difference of two keys that are less than half the range apart does not wrap. -/
lemma comparesKeys_of_near {a b : RouteTableEntry} (hab : a.key.toNat < b.key.toNat + 2 ^ 31)
    (hba : b.key.toNat < a.key.toNat + 2 ^ 31) : ComparesKeys a b := by
  have hdiff : compar a b = (b.key.toNat : ℤ) - a.key.toNat := by
    rw [compar_eq_bmod]
    apply Int.bmod_eq_of_le <;> omega
  constructor
  · rw [hdiff, UInt32.lt_iff_toNat_lt]
    omega
  · rw [hdiff, ← UInt32.toNat_inj]
    omega
  · rw [hdiff, UInt32.lt_iff_toNat_lt]
    omega

/-- Otherwise the difference wraps. -/
lemma near_of_comparesKeys {a b : RouteTableEntry} (h : ComparesKeys b a) :
    a.key.toNat < b.key.toNat + 2 ^ 31 := by
  by_contra hfar
  have ha := a.key.toNat_lt
  have hlt : b.key < a.key := by
    rw [UInt32.lt_iff_toNat_lt]
    omega
  have hpos := h.pos_iff.mpr hlt
  have hwrap : compar b a = (a.key.toNat : ℤ) - b.key.toNat - 2 ^ 32 := by
    rw [compar_eq_bmod, ← Int.sub_bmod_right]
    apply Int.bmod_eq_of_le <;> omega
  omega

lemma compar_le_zero_iff {a b : RouteTableEntry} (h : ComparesKeys a b) :
    compar a b ≤ 0 ↔ b.key ≤ a.key := by
  rw [← Int.not_lt, h.pos_iff, UInt32.not_lt]

section Near

variable {rtable : List RouteTableEntry}

/-- A table in which no two keys are half the range or more apart. -/
lemma consistent_of_near (hnear : ∀ a ∈ rtable, ∀ b ∈ rtable, a.key.toNat < b.key.toNat + 2 ^ 31) :
    Consistent compar rtable := by
  have hle : ∀ a ∈ rtable, ∀ b ∈ rtable, (compar a b ≤ 0 ↔ b.key ≤ a.key) := by
    intro a ha b hb
    exact compar_le_zero_iff (comparesKeys_of_near (hnear a ha b hb) (hnear b hb a ha))
  constructor
  · intro a ha b hb
    rw [hle a ha b hb, hle b hb a ha]
    exact UInt32.le_total _ _
  · intro a ha b hb c hc hab hbc
    rw [hle _ ‹_› _ ‹_›] at *
    exact UInt32.le_trans hbc hab

lemma sortRtable_keysDescending (q : Qsort RouteTableEntry)
    (hnear : ∀ a ∈ rtable, ∀ b ∈ rtable, a.key.toNat < b.key.toNat + 2 ^ 31) :
    KeysDescending (sortRtable q rtable) := by
  refine (q.sorted compar rtable (consistent_of_near hnear)).imp_of_mem ?_
  intro a b ha hb hab
  have hmem : ∀ {x}, x ∈ sortRtable q rtable → x ∈ rtable := (q.perm compar rtable).mem_iff.mp
  have hcmp := comparesKeys_of_near (hnear a (hmem ha) b (hmem hb)) (hnear b (hmem hb) a (hmem ha))
  exact (compar_le_zero_iff hcmp).mp hab

end Near

/-- **`compar` compares keys, and `sort_rtable` puts them in order, exactly when no two keys are half
the range or more apart.** -/
theorem sortRtable_descending_iff (q : Qsort RouteTableEntry) (rtable : List RouteTableEntry) :
    ((∀ a ∈ rtable, ∀ b ∈ rtable, ComparesKeys a b) ∧ Consistent compar rtable ∧
      KeysDescending (sortRtable q rtable)) ↔
    ∀ a ∈ rtable, ∀ b ∈ rtable, a.key.toNat < b.key.toNat + 2 ^ 31 := by
  constructor
  · rintro ⟨hcmp, -, -⟩ a ha b hb
    exact near_of_comparesKeys (hcmp b hb a ha)
  · intro hnear
    refine ⟨?_, consistent_of_near hnear, sortRtable_keysDescending q hnear⟩
    intro a ha b hb
    exact comparesKeys_of_near (hnear a ha b hb) (hnear b hb a ha)

/-- The routes to `10.0.0.0/8` and to the host `10.0.0.129`: the greater key comes last. -/
theorem sortRtable_not_descending : ∃ a b : RouteTableEntry, a.key < b.key ∧ compar a b < 0 ∧
    ¬ KeysDescending (sortRtable (insertionQsort _) [a, b]) := by
  refine ⟨⟨le32 10 0 0 0, le32 10 0 0 1, le32 255 0 0 0, 0⟩,
    ⟨le32 10 0 0 129, le32 10 0 0 2, le32 255 255 255 255, 1⟩, by decide, by decide, ?_⟩
  unfold KeysDescending
  decide +kernel

/-! ### Searching -/

/-- `get_best_route`, with the entry for the pointer to it and integers that do not overflow. The
entries from `start` to `stop` are entries of the table. In a table of at most `2 ^ 30` entries this is
the search with the sums of an `int` (`getBestRouteAt_of_lt`, `searchTable_eq`). -/
def getBestRoute (rtable : List RouteTableEntry) (destIp : UInt32) (start stop : ℤ) :
    Option RouteTableEntry :=
  if stop < start then none
  else
    let mid := (start + stop) / 2
    match rtable[mid.toNat]? with
    | none => none
    | some e =>
      if destIp &&& e.mask = e.mask &&& e.routePrefix then some e
      else if destIp &&& e.mask > e.mask &&& e.routePrefix then
        getBestRoute rtable destIp start (mid - 1)
      else getBestRoute rtable destIp (mid + 1) stop
termination_by (stop + 1 - start).toNat
decreasing_by all_goals omega

/-- The entry is a route to the destination. -/
def RouteTableEntry.Matches (e : RouteTableEntry) (d : UInt32) : Prop :=
  d &&& e.mask = e.mask &&& e.routePrefix

instance (e : RouteTableEntry) (d : UInt32) : Decidable (e.Matches d) :=
  inferInstanceAs (Decidable (_ = _))

/-- Where the search goes from an entry. -/
def RouteTableEntry.dir (e : RouteTableEntry) (d : UInt32) : Dir :=
  if e.Matches d then .here
  else if d &&& e.mask > e.mask &&& e.routePrefix then .left
  else .right

/-- Where the search goes from the index `i`. -/
def probe (rtable : List RouteTableEntry) (d : UInt32) (i : ℤ) : Dir :=
  match rtable[i.toNat]? with
  | none => .here
  | some e => e.dir d

variable {rtable : List RouteTableEntry} {d : UInt32} {e : RouteTableEntry}

lemma probe_eq {i : ℤ} (he : rtable[i.toNat]? = some e) : probe rtable d i = e.dir d := by
  rw [probe, he]

lemma dir_eq_here_iff : e.dir d = .here ↔ e.Matches d := by
  unfold RouteTableEntry.dir
  split
  · next h => simp [h]
  · next h =>
    refine iff_of_false ?_ h
    split <;> simp

/-- `get_best_route` is a bisection. -/
lemma getBestRoute_eq (start stop : ℤ) : getBestRoute rtable d start stop =
    (bisect (probe rtable d) start stop).bind fun j => rtable[j.toNat]? := by
  fun_induction getBestRoute rtable d start stop with
  | case1 start stop hlt => rw [bisect, if_pos hlt]; rfl
  | case2 start stop hlt mid hnone =>
    have hp : probe rtable d mid = .here := by rw [probe, hnone]
    rw [bisect, if_neg hlt, hp, Option.bind_some, hnone]
  | case3 start stop hlt mid e he hm =>
    have hp : probe rtable d mid = .here := by rw [probe_eq he, dir_eq_here_iff]; exact hm
    rw [bisect, if_neg hlt, hp, Option.bind_some, he]
  | case4 start stop hlt mid e he hm hgt ih =>
    have hm' : ¬ e.Matches d := hm
    have hp : probe rtable d mid = .left := by
      rw [probe_eq he, RouteTableEntry.dir, if_neg hm', if_pos hgt]
    rw [bisect, if_neg hlt, hp, ih]
  | case5 start stop hlt mid e he hm hgt ih =>
    have hm' : ¬ e.Matches d := hm
    have hp : probe rtable d mid = .right := by
      rw [probe_eq he, RouteTableEntry.dir, if_neg hm', if_neg hgt]
    rw [bisect, if_neg hlt, hp, ih]

/-- The search answers with the entry at index `j`. -/
lemma getBestRoute_of_bisect {j : ℤ} {stop : ℤ} (h : bisect (probe rtable d) 0 stop = some j) :
    getBestRoute rtable d 0 stop = rtable[j.toNat]? := by
  rw [getBestRoute_eq, h, Option.bind_some]

/-- A route found in the whole table is an entry at some index, where the bisection ended. -/
lemma exists_of_getBestRoute (h : getBestRoute rtable d 0 (rtable.length - 1) = some e) :
    ∃ j : ℤ, 0 ≤ j ∧ j ≤ rtable.length - 1 ∧ rtable[j.toNat]? = some e ∧ e.Matches d ∧
      bisect (probe rtable d) 0 (rtable.length - 1) = some j := by
  rw [getBestRoute_eq] at h
  obtain ⟨j, hj, he⟩ := Option.bind_eq_some_iff.mp h
  obtain ⟨h0, h1, hhere⟩ := bisect_sound hj
  rw [probe_eq he, dir_eq_here_iff] at hhere
  exact ⟨j, h0, h1, he, hhere, hj⟩

/-! ### The sums of an `int` -/

/-- The sums an `int` does not hold. -/
@[simp] abbrev INT_LIMIT : ℤ := 2 ^ 31

/-- `get_best_route` on a memory that holds an entry at some indices only. Nothing comes of a sum
that does not fit, or of an entry that is read where there is none. -/
def getBestRouteAt (rtable : ℤ → Option RouteTableEntry) (destIp : UInt32) (start stop : ℤ) :
    Option (Option RouteTableEntry) :=
  if stop < start then some none
  else if INT_LIMIT ≤ start + stop then none
  else
    let mid := (start + stop) / 2
    match rtable mid with
    | none => none
    | some e =>
      if destIp &&& e.mask = e.mask &&& e.routePrefix then some (some e)
      else if destIp &&& e.mask > e.mask &&& e.routePrefix then
        getBestRouteAt rtable destIp start (mid - 1)
      else getBestRouteAt rtable destIp (mid + 1) stop
termination_by (stop + 1 - start).toNat
decreasing_by all_goals omega

/-- The entries from `start` to `stop`, and nothing else. -/
def slice (rtable : List RouteTableEntry) (start stop : ℤ) : ℤ → Option RouteTableEntry := fun i =>
  if start ≤ i ∧ i ≤ stop then rtable[i.toNat]? else none

/-- `rtable_size`, if an `int` counts the entries. -/
def rtableSize (rtable : List RouteTableEntry) : Option ℤ :=
  if rtable.length < INT_LIMIT then some rtable.length else none

/-- `get_best_route(dest_ip, 0, rtable_size - 1)`, on a memory that holds the table. -/
def searchTable (rtable : List RouteTableEntry) (destIp : UInt32) :
    Option (Option RouteTableEntry) :=
  (rtableSize rtable).bind fun n => getBestRouteAt (slice rtable 0 (n - 1)) destIp 0 (n - 1)

section IntSums

variable {start stop : ℤ}

/-- The search reads the midpoints only. -/
lemma getBestRouteAt_eq {mem : ℤ → Option RouteTableEntry}
    (hmem : ∀ i, start ≤ i → i ≤ stop → mem i = rtable[i.toNat]?) (h0 : 0 ≤ start)
    (h1 : stop < rtable.length) : getBestRouteAt mem d start stop =
      (bisectBelow INT_LIMIT (probe rtable d) start stop).map
        (·.bind fun j => rtable[j.toNat]?) := by
  fun_induction getBestRouteAt mem d start stop with
  | case1 start stop hlt => rw [bisectBelow, if_pos hlt]; rfl
  | case2 start stop hlt hsum => rw [bisectBelow, if_neg hlt, if_pos hsum]; rfl
  | case3 start stop hlt hfit mid hnone =>
    rw [hmem mid (by omega) (by omega), List.getElem?_eq_none_iff] at hnone
    omega
  | case4 start stop hlt hfit mid e he hm =>
    rw [hmem mid (by omega) (by omega)] at he
    have hp : probe rtable d mid = .here := by rw [probe_eq he, dir_eq_here_iff]; exact hm
    rw [bisectBelow, if_neg hlt, if_neg hfit, hp, Option.map_some, Option.bind_some, he]
  | case5 start stop hlt hfit mid e he hm hgt ih =>
    rw [hmem mid (by omega) (by omega)] at he
    have hm' : ¬ e.Matches d := hm
    have hp : probe rtable d mid = .left := by
      rw [probe_eq he, RouteTableEntry.dir, if_neg hm', if_pos hgt]
    rw [bisectBelow, if_neg hlt, if_neg hfit, hp]
    exact ih (fun i h2 h3 => hmem i h2 (by omega)) h0 (by omega)
  | case6 start stop hlt hfit mid e he hm hgt ih =>
    rw [hmem mid (by omega) (by omega)] at he
    have hm' : ¬ e.Matches d := hm
    have hp : probe rtable d mid = .right := by
      rw [probe_eq he, RouteTableEntry.dir, if_neg hm', if_neg hgt]
    rw [bisectBelow, if_neg hlt, if_neg hfit, hp]
    exact ih (fun i h2 h3 => hmem i (by omega) h3) (by omega) h1

lemma getBestRouteAt_slice (h0 : 0 ≤ start) (h1 : stop < rtable.length) :
    getBestRouteAt (slice rtable start stop) d start stop =
      (bisectBelow INT_LIMIT (probe rtable d) start stop).map
        (·.bind fun j => rtable[j.toNat]?) := by
  refine getBestRouteAt_eq ?_ h0 h1
  intro i h2 h3
  exact if_pos ⟨h2, h3⟩

/-- In a table of less than `2 ^ 30` entries every sum fits, and the search is the one on unbounded
integers. -/
theorem getBestRouteAt_of_lt (h0 : 0 ≤ start) (h1 : stop < rtable.length) (h2 : stop < 2 ^ 30) :
    getBestRouteAt (slice rtable start stop) d start stop = some (getBestRoute rtable d start stop) := by
  have hne : bisectBelow INT_LIMIT (probe rtable d) start stop ≠ none :=
    bisectBelow_ne_none (by simp only [INT_LIMIT]; omega)
  obtain ⟨answer, hans⟩ := Option.ne_none_iff_exists'.mp hne
  rw [getBestRouteAt_slice h0 h1, hans, getBestRoute_eq, bisect_of_bisectBelow hans, Option.map_some]

lemma searchTable_of_lt (h : rtable.length < INT_LIMIT) : searchTable rtable d =
    getBestRouteAt (slice rtable 0 (rtable.length - 1)) d 0 (rtable.length - 1) := by
  have hsize : rtableSize rtable = some (rtable.length : ℤ) := if_pos h
  rw [searchTable, hsize, Option.bind_some]

/-- The search of the whole table is the one on unbounded integers, or a sum does not fit. -/
lemma searchTable_eq_some_iff {answer : Option RouteTableEntry} :
    searchTable rtable d = some answer ↔ rtable.length < INT_LIMIT ∧
      bisectBelow INT_LIMIT (probe rtable d) 0 (rtable.length - 1) ≠ none ∧
      getBestRoute rtable d 0 (rtable.length - 1) = answer := by
  by_cases hlt : rtable.length < INT_LIMIT
  · rw [searchTable_of_lt hlt, getBestRouteAt_slice le_rfl (by omega), getBestRoute_eq]
    cases hb : bisectBelow INT_LIMIT (probe rtable d) 0 (rtable.length - 1) with
    | none => simp
    | some found =>
      rw [bisect_of_bisectBelow hb, Option.map_some, Option.some_inj]
      exact ⟨fun h => ⟨hlt, by simp, h⟩, fun h => h.2.2⟩
  · have hsize : rtableSize rtable = none := if_neg hlt
    rw [searchTable, hsize, Option.bind_none]
    exact iff_of_false (by simp) fun h => hlt h.1

/-- **In a table of at most `2 ^ 30` entries the search is the one on unbounded integers.** -/
theorem searchTable_eq (h : rtable.length ≤ 2 ^ 30) (d : UInt32) :
    searchTable rtable d = some (getBestRoute rtable d 0 (rtable.length - 1)) := by
  refine searchTable_eq_some_iff.mpr ⟨?_, bisectBelow_ne_none ?_, rfl⟩
  · simp only [INT_LIMIT]
    omega
  · simp only [INT_LIMIT]
    omega

/-- The sums of the search fit in an `int`: the table has at most `2 ^ 30` entries, or an `int` counts
them and one of the midpoints on the way to the right does not send the search to the right. -/
def SumsFit (rtable : List RouteTableEntry) (d : UInt32) : Prop :=
  rtable.length ≤ 2 ^ 30 ∨ rtable.length < INT_LIMIT ∧
    ∃ m ∈ rights INT_LIMIT 0 (rtable.length - 1), probe rtable d m ≠ .right

lemma sumsFit_iff : SumsFit rtable d ↔ rtable.length < INT_LIMIT ∧
    bisectBelow INT_LIMIT (probe rtable d) 0 (rtable.length - 1) ≠ none := by
  have hend : rightEnd INT_LIMIT 0 (rtable.length - 1) ≤ (rtable.length : ℤ) - 1 ↔
      ¬ rtable.length ≤ 2 ^ 30 := by
    rw [← not_lt, lt_rightEnd_iff]
    simp only [INT_LIMIT]
    omega
  unfold SumsFit
  rw [ne_eq, bisectBelow_eq_none_iff, hend, not_and_or, not_not]
  push Not
  simp only [INT_LIMIT]
  constructor
  · rintro (hle | ⟨hlt, hm⟩)
    · exact ⟨by omega, Or.inl hle⟩
    · exact ⟨hlt, Or.inr hm⟩
  · rintro ⟨hlt, hle | hm⟩
    · exact Or.inl hle
    · exact Or.inr ⟨hlt, hm⟩

end IntSums

/-! ### The longest match -/

/-- The number of one bits. -/
def ones (m : UInt32) : ℕ := (List.range 32).countP fun i => m.toNat.testBit i

/-- The mask of a prefix of `k` bits: the `k` highest bits of the address in network byte order. -/
def prefixMask (k : ℕ) : UInt32 :=
  let x := 2 ^ 32 - 2 ^ (32 - k)
  le32 (UInt8.ofNat (x / 16777216)) (UInt8.ofNat (x / 65536)) (UInt8.ofNat (x / 256))
    (UInt8.ofNat x)

/-- An entry with a contiguous mask. -/
def RouteTableEntry.Contiguous (e : RouteTableEntry) : Prop := ∃ k ≤ 32, e.mask = prefixMask k

/-- An entry of the table that matches, with a mask no shorter than that of any other one. -/
structure Longest (rtable : List RouteTableEntry) (d : UInt32) (e : RouteTableEntry) : Prop where
  mem : e ∈ rtable
  isMatch : e.Matches d
  longest : ∀ e' ∈ rtable, e'.Matches d → ones e'.mask ≤ ones e.mask

/-- What a longest-prefix match answers. -/
structure LongestMatch (rtable : List RouteTableEntry) (d : UInt32)
    (answer : Option RouteTableEntry) : Prop where
  none_iff : answer = none ↔ ∀ e ∈ rtable, ¬ e.Matches d
  some_longest : ∀ e, answer = some e → Longest rtable d e

/-- The entry at index `j` is a longest match, and the entry at each midpoint before it on the
way there sends the search to its side. -/
def Steered (rtable : List RouteTableEntry) (d : UInt32) (j : ℤ) : Prop :=
  (∃ e, rtable[j.toNat]? = some e ∧ Longest rtable d e) ∧
    ∀ m ∈ path 0 (rtable.length - 1) j, probe rtable d m = side m j

/-- The search of one table, in whatever order it is. -/
lemma longestMatch_getBestRoute_iff :
    LongestMatch rtable d (getBestRoute rtable d 0 (rtable.length - 1)) ↔
      (∀ e ∈ rtable, ¬ e.Matches d) ∨
        ∃ j : ℤ, 0 ≤ j ∧ j ≤ rtable.length - 1 ∧ Steered rtable d j := by
  constructor
  · intro h
    by_cases hnone : ∀ e ∈ rtable, ¬ e.Matches d
    · exact Or.inl hnone
    · obtain ⟨e, he⟩ := Option.ne_none_iff_exists'.mp fun hn => hnone (h.none_iff.mp hn)
      obtain ⟨j, h0, h1, hj, hm, hb⟩ := exists_of_getBestRoute he
      have hpath := ((bisect_eq_some_iff h0 h1).mp hb).2
      exact Or.inr ⟨j, h0, h1, ⟨e, hj, h.some_longest e he⟩, hpath⟩
  · rintro (hnone | ⟨j, h0, h1, ⟨e, hj, hlong⟩, hpath⟩)
    · have hnil : getBestRoute rtable d 0 (rtable.length - 1) = none := by
        by_contra hne
        obtain ⟨e, he⟩ := Option.ne_none_iff_exists'.mp hne
        obtain ⟨j, -, -, hj, hm, -⟩ := exists_of_getBestRoute he
        exact hnone e (List.mem_of_getElem? hj) hm
      rw [hnil]
      refine ⟨iff_of_true rfl hnone, ?_⟩
      intro e he
      cases he
    · have hhere : probe rtable d j = .here := by
        rw [probe_eq hj, dir_eq_here_iff]
        exact hlong.isMatch
      have hsome := getBestRoute_of_bisect ((bisect_eq_some_iff h0 h1).mpr ⟨hhere, hpath⟩)
      rw [hsome, hj]
      constructor
      · show some e = none ↔ _
        refine iff_of_false (by simp) ?_
        intro hnone
        exact hnone e hlong.mem hlong.isMatch
      · intro e' he'
        cases he'
        exact hlong

section Perm

variable {rtable' : List RouteTableEntry}

lemma Longest.of_perm (h : rtable.Perm rtable') (hl : Longest rtable d e) :
    Longest rtable' d e := by
  refine ⟨h.mem_iff.mp hl.mem, hl.isMatch, ?_⟩
  intro e' he'
  exact hl.longest e' (h.mem_iff.mpr he')

lemma noMatch_congr (h : rtable.Perm rtable') :
    (∀ e ∈ rtable, ¬ e.Matches d) ↔ ∀ e ∈ rtable', ¬ e.Matches d := by
  apply forall_congr'
  intro e
  rw [h.mem_iff]

/-- What a longest match is does not depend on the order of the table. -/
lemma longestMatch_congr {answer : Option RouteTableEntry} (h : rtable.Perm rtable') :
    LongestMatch rtable d answer ↔ LongestMatch rtable' d answer := by
  constructor
  · rintro ⟨hnone, hlongest⟩
    exact ⟨hnone.trans (noMatch_congr h), fun e he => (hlongest e he).of_perm h⟩
  · rintro ⟨hnone, hlongest⟩
    exact ⟨hnone.trans (noMatch_congr h).symm, fun e he => (hlongest e he).of_perm h.symm⟩

end Perm

/-- **The search of the sorted table answers with a longest match exactly when its sums fit in an
`int`, and there is no match or one of the longest ones is where every probe before it steers the
search.** -/
theorem longestMatch_iff (q : Qsort RouteTableEntry) (rtable : List RouteTableEntry) (d : UInt32) :
    (∃ answer, searchTable (sortRtable q rtable) d = some answer ∧ LongestMatch rtable d answer) ↔
      SumsFit (sortRtable q rtable) d ∧
        ((∀ e ∈ rtable, ¬ e.Matches d) ∨
          ∃ j : ℤ, 0 ≤ j ∧ j ≤ rtable.length - 1 ∧ Steered (sortRtable q rtable) d j) := by
  have hperm : (sortRtable q rtable).Perm rtable := q.perm compar rtable
  have hsearch := @longestMatch_getBestRoute_iff (sortRtable q rtable) d
  rw [longestMatch_congr hperm, noMatch_congr hperm, hperm.length_eq] at hsearch
  rw [← hsearch, sumsFit_iff, ← hperm.length_eq]
  constructor
  · rintro ⟨answer, hans, hlongest⟩
    obtain ⟨hlt, hfit, rfl⟩ := searchTable_eq_some_iff.mp hans
    exact ⟨⟨hlt, hfit⟩, hlongest⟩
  · rintro ⟨⟨hlt, hfit⟩, hlongest⟩
    exact ⟨_, searchTable_eq_some_iff.mpr ⟨hlt, hfit, rfl⟩, hlongest⟩

/-- With a route to `10.0.0.0/8` and one to `11.5.0.0/16`, there is none to `10.200.0.0`. -/
theorem not_longestMatch : ¬ ∀ (q : Qsort RouteTableEntry) (rtable : List RouteTableEntry)
    (d : UInt32), (∀ e ∈ rtable, e.Contiguous) →
      ∃ answer, searchTable (sortRtable q rtable) d = some answer ∧
        LongestMatch rtable d answer := by
  intro h
  have hmatch := h (insertionQsort _) [⟨le32 10 0 0 0, le32 10 0 0 1, prefixMask 8, 0⟩,
    ⟨le32 11 5 0 0, le32 11 5 0 1, prefixMask 16, 1⟩] (le32 10 200 0 0) ?_
  · obtain ⟨answer, hans, hlongest⟩ := hmatch
    obtain ⟨-, -, rfl⟩ := searchTable_eq_some_iff.mp hans
    have hnone := hlongest.none_iff.mp (by decide +kernel)
      ⟨le32 10 0 0 0, le32 10 0 0 1, prefixMask 8, 0⟩
    exact hnone (by simp) (by decide)
  · simp only [List.mem_cons, List.not_mem_nil, or_false, forall_eq_or_imp, forall_eq]
    exact ⟨⟨8, by decide, rfl⟩, ⟨16, by decide, rfl⟩⟩

end Protocoale.Tema1

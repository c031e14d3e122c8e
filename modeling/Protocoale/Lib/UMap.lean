import Mathlib.Data.List.AList
import Mathlib.Tactic

/-!
The map of a program whose `insert` keeps the value that is already there, such as
`std::unordered_map`: `find`, `insert`, `assign` (a write through the reference or iterator of a
stored value) and `erase`, over Mathlib's association lists with distinct keys. Every lemma says
what `find` gives after an operation, so that a proof about a map is a case split on its keys.
-/

namespace Protocoale.Lib

/-- A finite map with distinct keys. -/
abbrev UMap (κ α : Type*) := AList fun _ : κ => α

namespace UMap

variable {κ α : Type*} [DecidableEq κ]

/-- The value stored under a key, if there is one. -/
def find (m : UMap κ α) (k : κ) : Option α := m.lookup k

/-- `insert({k, v})`: nothing happens when the key is already there. -/
def insert (m : UMap κ α) (k : κ) (v : α) : UMap κ α := if k ∈ m then m else AList.insert k v m

/-- `m[k] = v`, for a key that may be there. -/
def assign (m : UMap κ α) (k : κ) (v : α) : UMap κ α := AList.insert k v m

/-- `erase(k)`. -/
def erase (m : UMap κ α) (k : κ) : UMap κ α := AList.erase k m

/-- The pairs of the map, in some order. -/
def toList (m : UMap κ α) : List (κ × α) := m.entries.map fun e => (e.1, e.2)

variable {m : UMap κ α} {k k' : κ} {v w : α}

@[simp] lemma find_empty : find (∅ : UMap κ α) k = none := AList.lookup_empty k

lemma mem_iff_find : k ∈ m ↔ ∃ v, find m k = some v := by
  rw [← AList.lookup_isSome, Option.isSome_iff_exists]; rfl

lemma find_eq_none : find m k = none ↔ k ∉ m := AList.lookup_eq_none

@[simp] lemma find_assign_self : find (assign m k v) k = some v := AList.lookup_insert m

@[simp] lemma find_assign_ne (h : k' ≠ k) : find (assign m k v) k' = find m k' :=
  AList.lookup_insert_ne h

lemma find_assign : find (assign m k v) k' = if k' = k then some v else find m k' := by
  split
  · next h => subst h; exact find_assign_self
  · next h => exact find_assign_ne h

lemma insert_of_find (h : find m k = some w) : insert m k v = m :=
  if_pos (mem_iff_find.mpr ⟨w, h⟩)

lemma insert_of_none (h : find m k = none) : insert m k v = assign m k v :=
  if_neg (find_eq_none.mp h)

@[simp] lemma find_insert_ne (h : k' ≠ k) : find (insert m k v) k' = find m k' := by
  unfold insert
  split
  · rfl
  · exact find_assign_ne h

lemma find_insert : find (insert m k v) k' = if k' = k then some ((find m k).getD v) else find m k' := by
  split
  · next h =>
    subst h
    cases hf : find m k' with
    | none => rw [insert_of_none hf]; simp
    | some w => rw [insert_of_find hf, hf]; rfl
  · next h => exact find_insert_ne h

@[simp] lemma find_erase_self : find (erase m k) k = none := AList.lookup_erase k m

@[simp] lemma find_erase_ne (h : k' ≠ k) : find (erase m k) k' = find m k' :=
  AList.lookup_erase_ne h

lemma find_erase : find (erase m k) k' = if k' = k then none else find m k' := by
  split
  · next h => subst h; exact find_erase_self
  · next h => exact find_erase_ne h

/-- A key that is not there may be said not to be there. -/
lemma find_eq_ite (h : find m k = none) : find m k' = if k' = k then none else find m k' := by
  split
  · next hk => rw [hk, h]
  · rfl

lemma find_insert_of_none (h : find m k = none) :
    find (insert m k v) k' = if k' = k then some v else find m k' := by
  rw [find_insert, h, Option.getD_none]

/-- The pairs of a map are its keys with what is stored under them. -/
lemma mem_toList : (k, v) ∈ toList m ↔ find m k = some v := by
  rw [toList, List.mem_map, find, ← Option.mem_def, AList.mem_lookup_iff]
  constructor
  · rintro ⟨⟨k', v'⟩, hmem, he⟩
    cases he
    exact hmem
  · intro hmem
    exact ⟨⟨k, v⟩, hmem, rfl⟩

/-- Erasing a key before inserting it makes the insertion an assignment. -/
lemma find_insert_erase : find (insert (erase m k) k v) k' = if k' = k then some v else find m k' := by
  rw [find_insert_of_none find_erase_self]
  split
  · rfl
  · next h => exact find_erase_ne h

end UMap

end Protocoale.Lib

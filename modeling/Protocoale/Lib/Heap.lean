import Mathlib.Tactic

/-!
Programs on a heap of cells, and the chains of cells in it.

A program allocates cells, frees them, reads and changes them through pointers. It is not defined when
it follows a pointer that is null or whose cell is not allocated, and the addresses it follows are
logged. `Chain` lists the cells between two pointers: what happens at other addresses does not touch it
(`Chain.frame`), a chain up to null is determined by where it starts (`Chain.unique`) and goes through
no cell twice (`Chain.nodup`). The two rules at the end are for a cell linked to the last one
(`Chain.link`) and for the first one freed (`Chain.free_head`).
-/

namespace Protocoale.Lib.Heap

/-- The cells that are allocated, by address. -/
abbrev Cells (C : Type) := ℕ → Option C

/-- The heap, with the addresses followed so far. -/
structure Memory (C : Type) where
  cells : Cells C
  log : List ℕ

/-- Programs on the heap: nothing where the behaviour is not defined. -/
abbrev Prog (C α : Type) := StateT (Memory C) Option α

variable {C : Type} {m : Memory C} {a b : ℕ} {c d : C} {f : C → C}

/-! ### Access to the heap -/

/-- `malloc`, with its answer: null, or the address of a block and what is in it. -/
def malloc (block : Option (ℕ × C)) : Prog C (Option ℕ) := fun m =>
  match block with
  | none => some (none, m)
  | some (a, c) => some (some a, { m with cells := Function.update m.cells a (some c) })

/-- What a pointer points to. -/
def load (p : Option ℕ) : Prog C C := fun m =>
  p.bind fun a => (m.cells a).map fun c => (c, { m with log := m.log ++ [a] })

/-- A change to what a pointer points to. -/
def modifyCell (p : Option ℕ) (f : C → C) : Prog C Unit := fun m =>
  p.bind fun a => (m.cells a).map fun c => ((),
    { cells := Function.update m.cells a (some (f c)), log := m.log ++ [a] })

/-- `free`, which does nothing with null. -/
def free (p : Option ℕ) : Prog C Unit := fun m =>
  match p with
  | none => some ((), m)
  | some a => (m.cells a).map fun _ => ((),
      { cells := Function.update m.cells a none, log := m.log ++ [a] })

section Rules

variable {α β : Type} {cells : Cells C} {log : List ℕ} {x : Prog C α} {v : α} {g : α → Prog C β}

/-- A program goes on where its first part ends. -/
lemma run_bind {m' : Memory C} (hx : x.run m = some (v, m')) : (x >>= g).run m = (g v).run m' := by
  rw [StateT.run_bind, hx]
  rfl

lemma run_bind_none (hx : x.run m = none) : (x >>= g).run m = none := by
  rw [StateT.run_bind, hx]
  rfl

lemma malloc_null : (malloc none : Prog C (Option ℕ)).run m = some (none, m) := rfl

lemma malloc_run : (malloc (some (a, c))).run ⟨cells, log⟩ =
    some (some a, ⟨Function.update cells a (some c), log⟩) := rfl

lemma load_run (h : cells a = some c) :
    (load (some a)).run ⟨cells, log⟩ = some (c, ⟨cells, log ++ [a]⟩) := by
  simp [load, StateT.run, h]

lemma modifyCell_null : (modifyCell none f).run m = none := rfl

lemma modifyCell_run (h : cells a = some c) : (modifyCell (some a) f).run ⟨cells, log⟩ =
    some ((), ⟨Function.update cells a (some (f c)), log ++ [a]⟩) := by
  simp [modifyCell, StateT.run, h]

lemma free_run (h : cells a = some c) : (free (some a)).run ⟨cells, log⟩ =
    some ((), ⟨Function.update cells a none, log ++ [a]⟩) := by
  simp [free, StateT.run, h]

end Rules

/-! ### Chains -/

section Chain

variable {next : C → Option ℕ} {h h' : Cells C} {p q : Option ℕ} {x : ℕ × C} {xs ys : List (ℕ × C)}

/-- The cells, with their addresses, that are passed from one pointer to another. -/
def Chain (next : C → Option ℕ) (h : Cells C) : Option ℕ → List (ℕ × C) → Option ℕ → Prop
  | p, [], q => p = q
  | p, x :: xs, q => p = some x.1 ∧ h x.1 = some x.2 ∧ Chain next h (next x.2) xs q

@[simp] lemma chain_nil : Chain next h p [] q ↔ p = q := Iff.rfl

@[simp] lemma chain_cons : Chain next h p (x :: xs) q ↔
    p = some x.1 ∧ h x.1 = some x.2 ∧ Chain next h (next x.2) xs q := Iff.rfl

/-- A chain can be cut anywhere. -/
lemma chain_append : Chain next h p (xs ++ ys) q ↔
    ∃ r, Chain next h p xs r ∧ Chain next h r ys q := by
  induction xs generalizing p with
  | nil => simp
  | cons x xs ih => simp [ih, and_assoc]

/-- The cells of a chain are allocated. -/
lemma Chain.allocated (hc : Chain next h p xs q) (hx : x ∈ xs) : h x.1 = some x.2 := by
  obtain ⟨us, vs, rfl⟩ := List.append_of_mem hx
  obtain ⟨r, -, hr⟩ := chain_append.mp hc
  exact hr.2.1

lemma Chain.notMem_of_free (hc : Chain next h p xs q) (ha : h a = none) : a ∉ xs.map Prod.fst := by
  intro hmem
  obtain ⟨x, hx, rfl⟩ := List.mem_map.mp hmem
  have hsome := hc.allocated hx
  rw [ha] at hsome
  cases hsome

/-- What happens at other addresses does not change a chain. -/
lemma Chain.frame (hc : Chain next h p xs q) (hsame : ∀ a ∈ xs.map Prod.fst, h' a = h a) :
    Chain next h' p xs q := by
  induction xs generalizing p with
  | nil => exact hc
  | cons x xs ih =>
    obtain ⟨hp, hx, hrest⟩ := hc
    rw [List.map_cons, List.forall_mem_cons] at hsame
    exact ⟨hp, hsame.1.trans hx, ih hrest hsame.2⟩

lemma Chain.update (hc : Chain next h p xs q) (ha : a ∉ xs.map Prod.fst) {o : Option C} :
    Chain next (Function.update h a o) p xs q := by
  refine hc.frame fun b hb => Function.update_of_ne ?_ _ _
  rintro rfl
  exact ha hb

lemma Chain.eq_none_iff (hc : Chain next h p xs none) : p = none ↔ xs = [] := by
  cases xs with
  | nil => exact iff_of_true hc rfl
  | cons x xs => simp [hc.1]

/-- Where a chain up to null starts determines it. -/
theorem Chain.unique (hx : Chain next h p xs none) (hy : Chain next h p ys none) : xs = ys := by
  induction xs generalizing p ys with
  | nil => exact (hy.eq_none_iff.mp hx).symm
  | cons x xs ih =>
    obtain ⟨hp, hcell, hrest⟩ := hx
    cases ys with
    | nil => exact absurd (hp.symm.trans hy) (by simp)
    | cons y ys =>
      obtain ⟨hp', hcell', hrest'⟩ := hy
      have hfst : x.1 = y.1 := Option.some.inj (hp.symm.trans hp')
      rw [← hfst] at hcell'
      have hsnd : x.2 = y.2 := Option.some.inj (hcell.symm.trans hcell')
      rw [← hsnd] at hrest'
      rw [Prod.ext hfst hsnd, ih hrest hrest']

/-- A chain up to null goes through no cell twice: what follows the cell would be what follows it
the second time, and longer. -/
theorem Chain.nodup (hc : Chain next h p xs none) : (xs.map Prod.fst).Nodup := by
  induction xs generalizing p with
  | nil => exact List.nodup_nil
  | cons x xs ih =>
    obtain ⟨-, hx, hrest⟩ := hc
    rw [List.map_cons, List.nodup_cons]
    refine ⟨?_, ih hrest⟩
    intro hmem
    obtain ⟨y, hy, hyx⟩ := List.mem_map.mp hmem
    obtain ⟨us, vs, rfl⟩ := List.append_of_mem hy
    obtain ⟨r, -, hr⟩ := chain_append.mp hrest
    have hcell : y.2 = x.2 := by
      have hy' := hr.2.1
      rw [hyx, hx] at hy'
      exact (Option.some.inj hy').symm
    have hsame : vs = us ++ y :: vs := hr.2.2.unique (hcell ▸ hrest)
    have hlen := congrArg List.length hsame
    rw [List.length_append, List.length_cons] at hlen
    omega

/-- **Linking a cell to the last one.** A free address gets a cell that ends the chain, and the cell
that was the last one is changed to point to it. -/
theorem Chain.link (hc : Chain next h p (xs ++ [(a, c)]) none) (hb : h b = none)
    (hnext : next (f c) = some b) (hend : next d = none) :
    Chain next (Function.update (Function.update h b (some d)) a (some (f c))) p
      (xs ++ [(a, f c), (b, d)]) none := by
  have hfree := hc.notMem_of_free hb
  have hnodup := hc.nodup
  rw [List.map_append, List.map_singleton, List.nodup_append] at hnodup
  rw [List.map_append, List.map_singleton, List.mem_append, List.mem_singleton, not_or] at hfree
  obtain ⟨r, hxs, hr⟩ := chain_append.mp hc
  have ha : a ∉ xs.map Prod.fst := fun hmem => hnodup.2.2 a hmem a List.mem_cons_self rfl
  refine chain_append.mpr ⟨r, (hxs.update hfree.1).update ha, ?_⟩
  simp [hr.1, hnext, hend, Function.update_of_ne hfree.2]

/-- **Freeing the first cell.** What follows it is still a chain. -/
theorem Chain.free_head (hc : Chain next h p (x :: xs) none) :
    Chain next (Function.update h x.1 none) (next x.2) xs none := by
  have hnodup := hc.nodup
  rw [List.map_cons, List.nodup_cons] at hnodup
  exact hc.2.2.update hnodup.1

end Chain

end Protocoale.Lib.Heap

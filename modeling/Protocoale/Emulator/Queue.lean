import Protocoale.Emulator.Pace
import Protocoale.Lib.Heap

/-!
The queues of the link emulator (`link_emulator/queue.c`): entries on the heap, linked from the oldest
one on, with a count. The emulator has two of them, the buffer and the messages in flight; any number
of them on one heap, with calls in any order, are as many lists (`queues_are_lists`), and the lists of the
link are such queues (`link_queues`).
-/

namespace Protocoale.Emulator

open Lib Lib.Heap Lib.Run

/-- `queue_entry` -/
structure QueueEntry (E : Type) where
  crt : E
  prev : Option ℕ

/-- `queue` -/
structure Queue where
  size : ℤ
  first : Option ℕ
  last : Option ℕ

variable {E : Type}

/-! ### `queue.c` -/

def createQueue : Queue := ⟨0, none, none⟩

namespace Queue

/-- `enqueue`, with the block that its `malloc` gets; not defined when its assertion fails. -/
def enqueue (q : Queue) (block : Option (ℕ × QueueEntry E)) (m : E) : Prog (QueueEntry E) Queue :=
  if q.first.isNone then
    if q.last.isSome then failure
    else do
      let first ← malloc block
      modifyCell first fun c => { c with prev := none }
      modifyCell first fun c => { c with crt := m }
      return { size := q.size + 1, first := first, last := first }
  else do
    let t ← malloc block
    modifyCell q.first fun c => { c with prev := t }
    modifyCell t fun c => { c with prev := none }
    modifyCell t fun c => { c with crt := m }
    return { q with size := q.size + 1, first := t }

/-- `dequeue`; not defined when one of its assertions fails. -/
def dequeue (q : Queue) : Prog (QueueEntry E) (Option E × Queue) :=
  if q.first.isNone then
    if q.size = 0 then return (none, q) else failure
  else if q.first = q.last then do
    let t := q.last
    let first ← load q.first
    if first.prev.isSome then failure
    else do
      let c ← load t
      let m := c.crt
      free t
      return (some m, { size := q.size - 1, first := none, last := none })
  else do
    let t := q.last
    let last ← load q.last
    let c ← load t
    let m := c.crt
    free t
    return (some m, { q with size := q.size - 1, last := last.prev })

/-- The entries of a queue, from the oldest to the newest. -/
structure Represents (q : Queue) (heap : Cells (QueueEntry E)) (cells : List (ℕ × QueueEntry E)) :
    Prop where
  chain : Chain QueueEntry.prev heap q.last cells none
  first : q.first = cells.getLast?.map Prod.fst
  size : q.size = cells.length

section

variable {q : Queue} {heap : Cells (QueueEntry E)} {cells : List (ℕ × QueueEntry E)}
  {x : ℕ × QueueEntry E} {log : List ℕ} {a b l : ℕ} {c d : QueueEntry E} {e : E}

/-! ### One call -/

lemma enqueue_empty (hf : q.first = none) (hl : q.last = none) :
    (q.enqueue (some (b, c)) e).run ⟨heap, log⟩ = some (⟨q.size + 1, some b, some b⟩,
      ⟨Function.update heap b (some ⟨e, none⟩), log ++ [b, b]⟩) := by
  unfold enqueue
  rw [if_pos (by simp [hf]), if_neg (by simp [hl]), run_bind malloc_run,
    run_bind (modifyCell_run (Function.update_self ..)), run_bind (modifyCell_run (Function.update_self ..))]
  simp

lemma enqueue_nonempty (hf : q.first = some a) (hcell : heap a = some d) (hb : heap b = none) :
    (q.enqueue (some (b, c)) e).run ⟨heap, log⟩ = some ({ q with size := q.size + 1, first := some b },
      ⟨Function.update (Function.update heap b (some ⟨e, none⟩)) a (some { d with prev := some b }),
        log ++ [a, b, b]⟩) := by
  have hab : a ≠ b := by
    rintro rfl
    rw [hb] at hcell
    cases hcell
  have hcell' : Function.update heap b (some c) a = some d := by rw [Function.update_of_ne hab, hcell]
  have hblock : Function.update (Function.update heap b (some c)) a (some { d with prev := some b }) b =
      some c := by
    rw [Function.update_of_ne hab.symm, Function.update_self]
  unfold enqueue
  rw [if_neg (by simp [hf]), hf, run_bind malloc_run, run_bind (modifyCell_run hcell'),
    run_bind (modifyCell_run hblock), run_bind (modifyCell_run (Function.update_self ..))]
  simp [Function.update_comm hab]

lemma dequeue_single (hf : q.first = some a) (hl : q.last = some a) (hcell : heap a = some c)
    (hc : c.prev = none) : q.dequeue.run ⟨heap, log⟩ = some ((some c.crt, ⟨q.size - 1, none, none⟩),
      ⟨Function.update heap a none, log ++ [a, a, a]⟩) := by
  unfold dequeue
  rw [if_neg (by simp [hf]), if_pos (by rw [hf, hl]), hf, hl, run_bind (load_run hcell),
    if_neg (by simp [hc]), run_bind (load_run hcell), run_bind (free_run hcell)]
  simp

lemma dequeue_many (hf : q.first = some a) (hl : q.last = some l) (hne : a ≠ l)
    (hcell : heap l = some c) : q.dequeue.run ⟨heap, log⟩ =
      some ((some c.crt, { q with size := q.size - 1, last := c.prev }),
        ⟨Function.update heap l none, log ++ [l, l, l]⟩) := by
  unfold dequeue
  rw [if_neg (by simp [hf]), if_neg (by simpa [hf, hl] using hne), hl, run_bind (load_run hcell),
    run_bind (load_run hcell), run_bind (free_run hcell)]
  simp

/-! ### A call on entries

What a call does to a queue that represents entries: it keeps to them and to its block.
-/

/-- The elements of entries. -/
def elements (cells : List (ℕ × QueueEntry E)) : List E := cells.map fun x => x.2.crt

/-- A call leaves a queue that represents entries; what is no entry is not changed, what is no longer one
is free, and a new one is where the heap was free. -/
structure Leaves (heap : Cells (QueueEntry E)) (cells : List (ℕ × QueueEntry E)) (q' : Queue)
    (heap' : Cells (QueueEntry E)) (cells' : List (ℕ × QueueEntry E)) : Prop where
  represents : q'.Represents heap' cells'
  frame : ∀ a, a ∉ cells.map Prod.fst → a ∉ cells'.map Prod.fst → heap' a = heap a
  freed : ∀ a ∈ cells.map Prod.fst, a ∉ cells'.map Prod.fst → heap' a = none
  fresh : ∀ a ∈ cells'.map Prod.fst, a ∈ cells.map Prod.fst ∨ heap a = none

/-- A message goes to the end of the queue. -/
lemma Represents.enqueue (hr : q.Represents heap cells) (hb : heap b = none) (c : QueueEntry E) (e : E)
    (log : List ℕ) :
    ∃ q' heap' log' cells', (q.enqueue (some (b, c)) e).run ⟨heap, log⟩ = some (q', ⟨heap', log'⟩) ∧
      Leaves heap cells q' heap' cells' ∧ elements cells' = elements cells ++ [e] := by
  rcases List.eq_nil_or_concat' cells with rfl | ⟨xs, ⟨a, d⟩, rfl⟩
  · refine ⟨_, _, _, [(b, ⟨e, none⟩)], enqueue_empty hr.first hr.chain,
      ⟨⟨by simp, rfl, ?_⟩, ?_, ?_, ?_⟩, rfl⟩
    · simp [hr.size]
    · intro a _ hnot
      exact Function.update_of_ne (by simpa using hnot) _ _
    · intro a ha
      cases ha
    · intro a ha
      rw [List.map_singleton, List.mem_singleton] at ha
      exact .inr (ha ▸ hb)
  · have hcell : heap a = some d := hr.chain.allocated (x := (a, d)) (by simp)
    have hfirst : q.first = some a := by rw [hr.first]; simp
    refine ⟨_, _, _, xs ++ [(a, { d with prev := some b }), (b, ⟨e, none⟩)],
      enqueue_nonempty hfirst hcell hb, ⟨⟨?_, by simp, ?_⟩, ?_, ?_, ?_⟩, by simp [elements]⟩
    · exact hr.chain.link (f := fun d => { d with prev := some b }) (d := ⟨e, none⟩) hb rfl rfl
    · have hsize := hr.size
      simp only [List.length_append, List.length_cons, List.length_nil] at hsize ⊢
      omega
    · intro a' _ hnot
      simp only [List.map_append, List.map_cons, List.mem_append, List.mem_cons, not_or] at hnot
      rw [Function.update_of_ne hnot.2.1, Function.update_of_ne hnot.2.2.1]
    · intro a' ha hnot
      refine absurd ?_ hnot
      simp only [List.map_append, List.map_cons, List.mem_append] at ha ⊢
      exact ha.imp_right fun h => List.mem_cons.mpr (.inl (List.mem_singleton.mp h))
    · intro a' ha
      simp only [List.map_append, List.map_cons, List.map_nil, List.mem_append, List.mem_cons,
        List.not_mem_nil, or_false] at ha ⊢
      rcases ha with ha | rfl | rfl
      · exact .inl (.inl ha)
      · exact .inl (.inr rfl)
      · exact .inr hb

/-- Without memory `enqueue` follows a null pointer. -/
lemma Represents.enqueue_null (hr : q.Represents heap cells) (e : E) :
    (q.enqueue none e).run ⟨heap, log⟩ = none := by
  unfold Queue.enqueue
  rcases List.eq_nil_or_concat' cells with rfl | ⟨xs, ⟨a, d⟩, rfl⟩
  · have hlast : q.last = none := hr.chain
    rw [hr.first, if_pos (by simp), if_neg (by simp [hlast]), run_bind malloc_null,
      run_bind_none modifyCell_null]
  · have hcell : heap a = some d := hr.chain.allocated (x := (a, d)) (by simp)
    have hfirst : q.first = some a := by rw [hr.first]; simp
    rw [hfirst, if_neg (by simp), run_bind malloc_null, run_bind (modifyCell_run hcell),
      run_bind_none modifyCell_null]

/-- The oldest message is taken out, and its entry freed. -/
lemma Represents.dequeue (hr : q.Represents heap (x :: cells)) (log : List ℕ) :
    ∃ q' heap' log', q.dequeue.run ⟨heap, log⟩ = some ((some x.2.crt, q'), ⟨heap', log'⟩) ∧
      Leaves heap (x :: cells) q' heap' cells := by
  obtain ⟨hlast, hcell, hrest⟩ := hr.chain
  have hleaves : ∀ q' : Queue, q'.last = x.2.prev → q'.size = q.size - 1 →
      q'.first = cells.getLast?.map Prod.fst →
      Leaves heap (x :: cells) q' (Function.update heap x.1 none) cells := by
    intro q' hq' hsize hfirst
    refine ⟨⟨?_, hfirst, ?_⟩, ?_, ?_, ?_⟩
    · rw [hq']
      exact hr.chain.free_head
    · have hsize' := hr.size
      rw [List.length_cons] at hsize'
      omega
    · intro a hnot _
      refine Function.update_of_ne ?_ _ _
      rintro rfl
      exact hnot (by simp)
    · intro a ha hnot
      obtain rfl := (List.mem_cons.mp ha).resolve_right hnot
      exact Function.update_self ..
    · intro a ha
      exact .inl (List.mem_cons_of_mem _ ha)
  rcases List.eq_nil_or_concat' cells with rfl | ⟨xs, y, rfl⟩
  · have hfirst : q.first = some x.1 := by rw [hr.first]; rfl
    exact ⟨_, _, _, dequeue_single hfirst hlast hcell hrest, hleaves _ hrest.symm rfl rfl⟩
  · have hfirst : q.first = some y.1 := by rw [hr.first, List.getLast?_cons]; simp
    have hne : y.1 ≠ x.1 := by
      have hnodup := hr.chain.nodup
      rw [List.map_cons, List.nodup_cons] at hnodup
      intro heq
      exact hnodup.1 (heq ▸ by simp)
    exact ⟨_, _, _, dequeue_many hfirst hlast hne hcell, hleaves _ rfl rfl (by simp [hfirst])⟩

lemma Represents.dequeue_empty (hr : q.Represents heap []) :
    (q.dequeue : Prog (QueueEntry E) _).run ⟨heap, log⟩ = some ((none, q), ⟨heap, log⟩) := by
  unfold Queue.dequeue
  rw [hr.first, if_pos (by simp), if_pos (by simp [hr.size])]
  rfl

end

end Queue

/-! ### Queues on one heap -/

/-- Queues with their heap. -/
structure Queues (ι E : Type) where
  queue : ι → Queue
  heap : Cells (QueueEntry E)

/-- A call of `enqueue`, with what `malloc` returns in it, or of `dequeue`. -/
inductive Call (ι E : Type) where
  | enqueue (i : ι) (m : E) (block : Option (ℕ × QueueEntry E))
  | dequeue (i : ι)

variable {ι : Type} [DecidableEq ι]

/-- The same calls on lists; with no memory for an entry nothing is defined. -/
def lists (l : ι → List E) : Call ι E → Option ((ι → List E) × List (ι × Option E))
  | .enqueue i m block => block.map fun _ => (Function.update l i (l i ++ [m]), [])
  | .dequeue i => some (Function.update l i (l i).tail, [(i, (l i).head?)])

namespace Queues

def create (heap : Cells (QueueEntry E)) : Queues ι E := ⟨fun _ => createQueue, heap⟩

/-- A call, with what `dequeue` returns. -/
def step (s : Queues ι E) : Call ι E → Option (Queues ι E × List (ι × Option E))
  | .enqueue i m block => (((s.queue i).enqueue block m).run ⟨s.heap, []⟩).map fun r =>
      (⟨Function.update s.queue i r.1, r.2.cells⟩, [])
  | .dequeue i => ((s.queue i).dequeue.run ⟨s.heap, []⟩).map fun r =>
      (⟨Function.update s.queue i r.1.2, r.2.cells⟩, [(i, r.1.1)])

/-- `malloc` returns null or a free block. -/
def Legal (s : Queues ι E) : Call ι E → Prop
  | .enqueue _ _ block => ∀ x ∈ block, s.heap x.1 = none
  | .dequeue _ => True

/-- The queues are lists, no two of them share an entry, and the rest of the heap is as it was. -/
structure Represents (s : Queues ι E) (heap₀ : Cells (QueueEntry E))
    (cells : ι → List (ℕ × QueueEntry E)) : Prop where
  queue : ∀ i, (s.queue i).Represents s.heap (cells i)
  disjoint : ∀ i j, i ≠ j → ∀ a ∈ (cells i).map Prod.fst, a ∉ (cells j).map Prod.fst
  rest : ∀ a, (∀ i, a ∉ (cells i).map Prod.fst) → s.heap a = heap₀ a
  free : ∀ i, ∀ a ∈ (cells i).map Prod.fst, heap₀ a = none

def AreLists (heap₀ : Cells (QueueEntry E)) (s : Queues ι E) (l : ι → List E) : Prop :=
  ∃ cells, s.Represents heap₀ cells ∧ ∀ i, Queue.elements (cells i) = l i

variable {s s' : Queues ι E} {i : ι} {cells : ι → List (ℕ × QueueEntry E)}
  {cells' : List (ℕ × QueueEntry E)} {q' : Queue} {heap₀ heap' : Cells (QueueEntry E)} {l : ι → List E}
  {call : Call ι E} {calls : List (Call ι E)} {out : List (ι × Option E)}

/-- A call of one queue leaves the others alone. -/
lemma Represents.leaves (hr : s.Represents heap₀ cells)
    (h : Queue.Leaves s.heap (cells i) q' heap' cells') :
    Represents ⟨Function.update s.queue i q', heap'⟩ heap₀ (Function.update cells i cells') := by
  have hother : ∀ j, j ≠ i → ∀ a ∈ (cells j).map Prod.fst, a ∉ (cells i).map Prod.fst ∧
      a ∉ cells'.map Prod.fst := by
    intro j hj a ha
    have hnot := hr.disjoint j i hj a ha
    have halloc : s.heap a ≠ none := fun hnone => (hr.queue j).chain.notMem_of_free hnone ha
    exact ⟨hnot, fun hmem => (h.fresh a hmem).elim hnot halloc⟩
  constructor
  · intro j
    by_cases hj : j = i
    · subst hj
      simpa using h.represents
    · obtain ⟨hchain, hfirst, hsize⟩ := hr.queue j
      simp only [Function.update_of_ne hj]
      refine ⟨hchain.frame fun a ha => ?_, hfirst, hsize⟩
      exact h.frame a (hother j hj a ha).1 (hother j hj a ha).2
  · intro j k hjk a ha
    by_cases hj : j = i
    · subst hj
      rw [Function.update_self] at ha
      rw [Function.update_of_ne hjk.symm]
      exact fun hmem => (hother k hjk.symm a hmem).2 ha
    · rw [Function.update_of_ne hj] at ha
      by_cases hk : k = i
      · subst hk
        rw [Function.update_self]
        exact (hother j hj a ha).2
      · rw [Function.update_of_ne hk]
        exact hr.disjoint j k hjk a ha
  · intro a hno
    have hnot : a ∉ cells'.map Prod.fst := by simpa using hno i
    have hrest : ∀ j, j ≠ i → a ∉ (cells j).map Prod.fst := by
      intro j hj
      simpa [Function.update_of_ne hj] using hno j
    by_cases hold : a ∈ (cells i).map Prod.fst
    · rw [hr.free i a hold]
      exact h.freed a hold hnot
    · refine (h.frame a hold hnot).trans (hr.rest a fun j => ?_)
      by_cases hj : j = i
      · exact hj ▸ hold
      · exact hrest j hj
  · intro j a ha
    by_cases hj : j = i
    · subst hj
      rw [Function.update_self] at ha
      by_cases hold : ∃ k, a ∈ (cells k).map Prod.fst
      · obtain ⟨k, hk⟩ := hold
        exact hr.free k a hk
      · push Not at hold
        rw [← hr.rest a hold]
        exact (h.fresh a ha).resolve_left (hold j)
    · rw [Function.update_of_ne hj] at ha
      exact hr.free j a ha

lemma elements_update (hl : ∀ j, Queue.elements (cells j) = l j) {xs : List E}
    (hxs : Queue.elements cells' = xs) (j : ι) :
    Queue.elements (Function.update cells i cells' j) = Function.update l i xs j := by
  by_cases hj : j = i
  · subst hj
    simp [hxs]
  · simp [Function.update_of_ne hj, hl j]

/-- **One call** fails for want of memory, or does to the queues what it does to the lists. -/
lemma step_lists (hs : AreLists heap₀ s l) (hi : s.Legal call) :
    (step s call = none ∧ lists l call = none) ∨
      ∃ s' out l', step s call = some (s', out) ∧ lists l call = some (l', out) ∧ AreLists heap₀ s' l' := by
  obtain ⟨cells, hr, hl⟩ := hs
  cases call with
  | enqueue i m block =>
    cases block with
    | none => exact .inl ⟨by rw [step, (hr.queue i).enqueue_null]; rfl, rfl⟩
    | some x =>
      obtain ⟨b, c⟩ := x
      obtain ⟨q', heap', log', cells', hrun, hleaves, helem⟩ :=
        (hr.queue i).enqueue (hi (b, c) rfl) c m []
      refine .inr ⟨_, _, _, by rw [step, hrun]; rfl, rfl, ⟨_, hr.leaves hleaves, ?_⟩⟩
      exact elements_update hl (helem.trans (by rw [hl i]))
  | dequeue i =>
    cases hcells : cells i with
    | nil =>
      have hq := hr.queue i
      rw [hcells] at hq
      have hnil : l i = [] := by rw [← hl i, hcells]; rfl
      refine .inr ⟨s, [(i, none)], l, ?_, ?_, ⟨cells, hr, hl⟩⟩
      · rw [step, hq.dequeue_empty]
        simp
      · have htail : (l i).tail = l i := by rw [hnil]; rfl
        rw [lists, htail, Function.update_eq_self, hnil]
        rfl
    | cons x xs =>
      have hq := hr.queue i
      rw [hcells] at hq
      obtain ⟨q', heap', log', hrun, hleaves⟩ := hq.dequeue []
      have hcons : l i = x.2.crt :: Queue.elements xs := by rw [← hl i, hcells]; rfl
      refine .inr ⟨_, _, _, by rw [step, hrun]; rfl, by rw [lists, hcons]; rfl,
        ⟨_, hr.leaves (hcells ▸ hleaves), elements_update hl rfl⟩⟩

omit [DecidableEq ι] in
lemma areLists_create : AreLists heap₀ (create heap₀ : Queues ι E) fun _ => [] := by
  refine ⟨fun _ => [], ⟨fun _ => ⟨rfl, rfl, rfl⟩, ?_, fun _ _ => rfl, ?_⟩, fun _ => rfl⟩
  · intro _ _ _ a ha
    cases ha
  · intro _ a ha
    cases ha

lemma exec_lists_eq_none_iff : exec lists l calls = none ↔ ∃ i m, .enqueue i m none ∈ calls := by
  induction calls generalizing l with
  | nil => simp
  | cons call calls ih =>
    cases call with
    | enqueue i m block =>
      cases block with
      | none => exact iff_of_true (exec_cons_none rfl) ⟨i, m, List.mem_cons_self⟩
      | some x =>
        have hstep : lists l (.enqueue i m (some x)) = some (_, []) := rfl
        rw [exec_cons hstep, Option.map_eq_none_iff, ih]
        simp
    | dequeue i =>
      have hstep : lists l (.dequeue i) = some (_, _) := rfl
      rw [exec_cons hstep, Option.map_eq_none_iff, ih]
      simp

/-- A run of calls is a run of the lists. -/
lemma exec_rel (hok : Along step Legal (create heap₀ : Queues ι E) calls) :
    Option.Rel (fun r q => AreLists heap₀ r.1 q.1 ∧ r.2 = q.2)
      (exec step (create heap₀ : Queues ι E) calls) (exec lists (fun _ => []) calls) := by
  have hsim : ∀ (s : Queues ι E) l call, AreLists heap₀ s l → s.Legal call →
      Option.Rel (fun r q => AreLists heap₀ r.1 q.1 ∧ r.2.filterMap some = q.2) (step s call)
        (lists l (id call)) := by
    intro s l call hs hi
    rcases step_lists hs hi with ⟨hstep, hlists⟩ | ⟨s', out, l', hstep, hlists, hs'⟩
    · rw [hstep, id, hlists]
      exact Option.Rel.none
    · rw [hstep, id, hlists]
      exact Option.Rel.some ⟨hs', List.filterMap_some⟩
  have hrel := exec_sim id some hsim areLists_create hok
  rw [List.map_id] at hrel
  simpa only [List.filterMap_some] using hrel

omit [DecidableEq ι] in
lemma AreLists.size (h : AreLists heap₀ s l) (i : ι) : (s.queue i).size = (l i).length := by
  obtain ⟨cells, hr, helem⟩ := h
  rw [(hr.queue i).size, ← helem i, Queue.elements, List.length_map]

omit [DecidableEq ι] in
lemma AreLists.heap_eq (h : AreLists heap₀ s l) (hl : ∀ i, l i = []) : s.heap = heap₀ := by
  obtain ⟨cells, hr, helem⟩ := h
  funext a
  refine hr.rest a fun i => ?_
  have hnil : cells i = [] := List.map_eq_nil_iff.mp ((helem i).trans (hl i))
  simp [hnil]

/-- **The queues are lists.** In every run of calls on queues that share a heap, the queues do what as many
lists do, each with its own: `dequeue` returns the oldest message of its queue, or null. The run is
defined, with no assertion failing and no pointer followed to what is not allocated, unless `malloc`
returns null; the count of each queue is the length of its list, and once all are empty the heap is as it
was before. -/
theorem queues_are_lists (hok : Along step Legal (create heap₀ : Queues ι E) calls) :
    (exec step (create heap₀ : Queues ι E) calls = none ↔ ∃ i m, .enqueue i m none ∈ calls) ∧
    ∀ s out, exec step (create heap₀) calls = some (s, out) →
      ∃ l, exec lists (fun _ => []) calls = some (l, out) ∧ (∀ i, (s.queue i).size = (l i).length) ∧
        ((∀ i, l i = []) → s.heap = heap₀) := by
  have hrel := exec_rel hok
  constructor
  · rw [← exec_lists_eq_none_iff (l := fun _ => [])]
    constructor
    · intro h
      rw [h] at hrel
      exact eq_none_of_rel hrel
    · intro h
      rw [h] at hrel
      cases hexec : exec step (create heap₀ : Queues ι E) calls with
      | none => rfl
      | some r =>
        rw [hexec] at hrel
        cases hrel
  · intro s out h
    rw [h] at hrel
    obtain ⟨⟨l, o⟩, hl, hs, rfl⟩ := exists_of_rel_some hrel
    exact ⟨l, hl, hs.size, hs.heap_eq⟩

/-- A message goes through one queue. -/
theorem queues_are_lists_one : ∃ s, exec step (create (fun _ => none) : Queues Unit ℕ)
    [.enqueue () 7 (some (1, ⟨0, none⟩)), .dequeue ()] = some (s, [((), some 7)]) ∧
      s.heap = fun _ => none := by
  have hok : Along step Legal (create (fun _ => none) : Queues Unit ℕ)
      [.enqueue () 7 (some (1, ⟨0, none⟩)), .dequeue ()] := by
    refine (along_cons rfl).mpr ⟨?_, (along_cons rfl).mpr ⟨trivial, along_nil⟩⟩
    rintro _ ⟨⟩
    rfl
  obtain ⟨l, hl, -, hheap⟩ := (queues_are_lists hok).2 _ _ rfl
  cases hl
  exact ⟨_, rfl, hheap fun _ => rfl⟩

end Queues

/-! ### The queues of the link -/

inductive Line
  | buffer
  | inFlight
  deriving DecidableEq

/-- The queue that a call is made on, and what `enqueue` is given. -/
def Call.op : Call ι E → ι × Option E
  | .enqueue i m _ => (i, some m)
  | .dequeue i => (i, none)

/-- What `dequeue` has returned of the messages in flight. -/
def leaving (rets : List (Line × Option E)) : List (Option E) := rets.filterMap fun
  | (.inFlight, m) => some m
  | (.buffer, _) => none

lemma exec_dequeues {l : ι → List E} {i : ι} {xs ys : List E} {calls : List (Call ι E)}
    (hl : l i = xs ++ ys) (hops : calls.map Call.op = xs.map fun _ => (i, none)) :
    exec lists l calls = some (Function.update l i ys, xs.map fun m => (i, some m)) := by
  induction xs generalizing l calls with
  | nil =>
    obtain rfl := List.map_eq_nil_iff.mp hops
    rw [← show l i = ys from hl, Function.update_eq_self]
    rfl
  | cons x xs ih =>
    obtain ⟨call, rest, rfl, hcall, hrest⟩ := List.map_eq_cons_iff.mp hops
    cases call with
    | enqueue j m block => cases hcall
    | dequeue j =>
      cases hcall
      have hstep : lists l (.dequeue i) = some (Function.update l i (xs ++ ys), [(i, some x)]) := by
        rw [lists, hl]
        rfl
      rw [exec_cons hstep, ih (Function.update_self ..) hrest, Function.update_idem]
      rfl

namespace Link

variable {μ : Type} {cfg : Settings μ} {s s' : Link μ} {e : Event μ} {is : List (Event μ)}
  {out : List (Effect μ)} {calls : List (Call Line (μ ⊕ MsgInFlight μ))}

/-- What the queues hold. -/
def lines (s : Link μ) : Line → List (μ ⊕ MsgInFlight μ)
  | .buffer => s.buffer.map .inl
  | .inFlight => s.inFlight.map .inr

/-- The calls on the queues in an event. -/
def ops (cfg : Settings μ) (s : Link μ) : Event μ → List (Line × Option (μ ⊕ MsgInFlight μ))
  | .put =>
    match s.forwarding with
    | .put m => [(.buffer, some (.inl m))]
    | _ => []
  | .now crtTime =>
    (s.inFlight.takeWhile fun mif => mif.finishTime ≤ crtTime).map fun _ => (.inFlight, none)
  | .take =>
    match s.scheduler, s.buffer with
    | .take crtTime, m :: _ =>
      [(.buffer, none), (.inFlight, some (.inr ⟨m, crtTime + cfg.serializationDelay + cfg.delay⟩))]
    | _, _ => [(.buffer, none)]
  | _ => []

/-- The calls in a run. -/
def opsRun (cfg : Settings μ) (is : List (Event μ)) : List (Line × Option (μ ⊕ MsgInFlight μ)) :=
  (visited (step cfg) start is).flatMap fun x => x.1.ops cfg x.2

lemma lines_congr (hb : s'.buffer = s.buffer) (hf : s'.inFlight = s.inFlight) : s'.lines = s.lines := by
  funext i
  cases i with
  | buffer => rw [lines, lines, hb]
  | inFlight => rw [lines, lines, hf]

/-- What has arrived has left the queue of the messages in flight. -/
lemma sendArrived_lines {t : ℤ} (hops : calls.map Call.op = s.ops cfg (.now t)) :
    ∃ rets, exec lists s.lines calls = some ((s.sendArrived t).1.lines, rets) ∧
      leaving rets = (arrivals (s.sendArrived t).2).map fun x => some (.inr x.1) := by
  have hlines : s.lines .inFlight = (s.inFlight.takeWhile fun mif => mif.finishTime ≤ t).map .inr ++
      (s.inFlight.dropWhile fun mif => mif.finishTime ≤ t).map .inr := by
    rw [← List.map_append, List.takeWhile_append_dropWhile, lines]
  have hline : (s.sendArrived t).1.lines = Function.update s.lines .inFlight
      ((s.inFlight.dropWhile fun mif => mif.finishTime ≤ t).map .inr) := by
    funext i
    cases i <;> simp [lines, sendArrived]
  rw [hline, exec_dequeues hlines (by rw [hops, ops, List.map_map]; rfl), sendArrived_arrivals]
  exact ⟨_, rfl, by simp [leaving, List.filterMap_map, Function.comp_def]⟩

/-- A message goes from the buffer to the messages in flight. -/
lemma take_lines {t : ℤ} (ht : s.scheduler = .take t) (hops : calls.map Call.op = s.ops cfg .take)
    (hblock : ∀ i m, .enqueue i m none ∉ calls) :
    ∃ rets, exec lists s.lines calls = some ((s.take cfg t).1.lines, rets) ∧ leaving rets = [] := by
  unfold take
  split
  · next hbuffer =>
    simp only [ops, ht, hbuffer] at hops
    obtain ⟨call, rfl, hcall⟩ := List.map_eq_singleton_iff.mp hops
    cases call with
    | enqueue i x block => cases hcall
    | dequeue i =>
      cases hcall
      have hempty : s.lines .buffer = [] := by rw [lines, hbuffer]; rfl
      have hstep : lists s.lines (.dequeue .buffer) = some (s.lines, [(.buffer, none)]) := by
        have htail : (s.lines .buffer).tail = s.lines .buffer := by rw [hempty]; rfl
        rw [lists, htail, Function.update_eq_self, hempty]
        rfl
      exact ⟨_, by rw [exec_cons hstep]; rfl, rfl⟩
  · next m buffer hbuffer =>
    simp only [ops, ht, hbuffer] at hops
    obtain ⟨call, rest, rfl, hcall, hrest⟩ := List.map_eq_cons_iff.mp hops
    obtain ⟨call', rfl, hcall'⟩ := List.map_eq_singleton_iff.mp hrest
    cases call with
    | enqueue i x block => cases hcall
    | dequeue i =>
      cases hcall
      cases call' with
      | dequeue i => cases hcall'
      | enqueue i x block =>
        cases hcall'
        cases block with
        | none => exact absurd (List.mem_cons_of_mem _ List.mem_cons_self) (hblock _ _)
        | some b =>
          refine ⟨[(.buffer, some (.inl m))], ?_, rfl⟩
          have hcons : s.lines .buffer = .inl m :: buffer.map .inl := by rw [lines, hbuffer]; rfl
          have htake : lists s.lines (.dequeue .buffer) =
              some (Function.update s.lines .buffer (buffer.map .inl), [(.buffer, some (.inl m))]) := by
            rw [lists, hcons]
            rfl
          rw [exec_cons htake, exec_cons rfl]
          simp only [exec_nil, Option.map_some, Option.some.injEq, Prod.mk.injEq]
          refine ⟨?_, rfl⟩
          funext j
          cases j <;> simp [lines, rest]

/-- The calls in an event do to the lines of the link what the event does. -/
lemma step_lines (h : step cfg s e = some (s', out)) (hops : calls.map Call.op = s.ops cfg e)
    (hblock : ∀ i m, .enqueue i m none ∉ calls) :
    ∃ rets, exec lists s.lines calls = some (s'.lines, rets) ∧
      leaving rets = (arrivals out).map fun x => some (.inr x.1) := by
  obtain ⟨-, h⟩ := step_does h
  have hno : ∀ {s' : Link μ} {out : List (Effect μ)}, calls.map Call.op = [] →
      s'.buffer = s.buffer → s'.inFlight = s.inFlight → arrivals out = [] →
      ∃ rets, exec lists s.lines calls = some (s'.lines, rets) ∧
        leaving rets = (arrivals out).map fun x => some (.inr x.1) := by
    intro s' out hnil hb hf harr
    rw [List.map_eq_nil_iff.mp hnil, harr, lines_congr hb hf]
    exact ⟨[], rfl, rfl⟩
  cases e with
  | receive1 | check | receive2 | forward1 =>
    have hsame := same_of_outside rfl h
    exact hno hops hsame.buffer hsame.inFlight hsame.arrivals_nil
  | put =>
    obtain ⟨m, hm, rfl, rfl⟩ := h
    rw [ops, hm] at hops
    obtain ⟨call, rfl, hcall⟩ := List.map_eq_singleton_iff.mp hops
    cases call with
    | dequeue i => cases hcall
    | enqueue i x block =>
      cases hcall
      cases block with
      | none => exact absurd List.mem_cons_self (hblock _ _)
      | some b =>
        refine ⟨[], ?_, rfl⟩
        have hstep : lists s.lines (.enqueue .buffer (.inl m) (some b)) = some ((s.put m).lines, []) := by
          rw [lists]
          simp only [Option.map_some, Option.some.injEq, Prod.mk.injEq, and_true]
          funext j
          cases j <;> simp [lines, put]
        rw [exec_cons hstep]
        rfl
  | now t =>
    obtain ⟨-, h⟩ := h
    cases h
    exact sendArrived_lines hops
  | look =>
    obtain ⟨t, -, rfl, rfl⟩ := h
    refine hno hops ?_ ?_ rfl
    · unfold look
      split <;> rfl
    · unfold look
      split <;> rfl
  | take =>
    obtain ⟨t, ht, h⟩ := h
    obtain ⟨rets, hexec, hleave⟩ := take_lines ht hops hblock
    have harr : arrivals (s.take cfg t).2 = [] := by
      unfold take
      split <;> rfl
    rw [h] at hexec harr
    exact ⟨rets, hexec, by rw [hleave, harr]; rfl⟩
  | park =>
    obtain ⟨-, h⟩ := h
    unfold park at h
    split at h <;> cases h <;> exact hno hops rfl rfl rfl
  | wake =>
    obtain ⟨signalled, -, rfl, rfl⟩ := h
    exact hno hops rfl rfl rfl

lemma leaving_append {rets rets' : List (Line × Option E)} :
    leaving (rets ++ rets') = leaving rets ++ leaving rets' := List.filterMap_append

/-- The calls in a run do to lists what the run does to the lines. -/
lemma run_lines (h : exec (step cfg) start is = some (s, out)) (hops : calls.map Call.op = opsRun cfg is)
    (hblock : ∀ i m, .enqueue i m none ∉ calls) :
    ∃ rets, exec lists (fun _ => []) calls = some (s.lines, rets) ∧
      leaving rets = (arrivals out).map fun x => some (.inr x.1) := by
  have hok : Along (step cfg) (fun _ _ => True) start is := fun _ _ => trivial
  have hrun := exec_trace (P := fun xs s acc => ∀ calls : List (Call Line (μ ⊕ MsgInFlight μ)),
      calls.map Call.op = (xs.flatMap fun x => x.1.ops cfg x.2) → (∀ i m, .enqueue i m none ∉ calls) →
      ∃ rets, exec lists (fun _ => []) calls = some (s.lines, rets) ∧
        leaving rets = (arrivals acc).map fun x => some (.inr x.1)) ?_ hok ?_ h
  · exact hrun calls hops hblock
  · intro xs acc s e s' out ih _ hstep calls hops hblock
    rw [List.flatMap_append, List.flatMap_singleton] at hops
    obtain ⟨before, after, rfl, hbefore, hafter⟩ := List.map_eq_append_iff.mp hops
    obtain ⟨rets, hexec, hleave⟩ := ih before hbefore
      fun i m hmem => hblock i m (List.mem_append_left _ hmem)
    obtain ⟨rets', hexec', hleave'⟩ := step_lines hstep hafter
      fun i m hmem => hblock i m (List.mem_append_right _ hmem)
    refine ⟨rets ++ rets', ?_, ?_⟩
    · rw [exec_append, hexec, Option.bind_some, hexec']
      rfl
    · rw [leaving_append, hleave, hleave', arrivals_append, List.map_append]
  · intro calls hops _
    obtain rfl := List.map_eq_nil_iff.mp hops
    have hnil : (start : Link μ).lines = fun _ => [] := by
      funext i
      cases i <;> rfl
    rw [hnil]
    exact ⟨[], rfl, rfl⟩

/-- **The queues of the link.** In every run of the link its calls on two queues of one heap, where
`malloc` never returns null, are defined; they leave the queues with its messages, and what has left the
queue of the messages in flight is what has been sent, in that order. -/
theorem link_queues {heap : Cells (QueueEntry (μ ⊕ MsgInFlight μ))}
    (h : exec (step cfg) start is = some (s, out))
    (hok : Along Queues.step Queues.Legal (Queues.create heap) calls)
    (hops : calls.map Call.op = opsRun cfg is) (hblock : ∀ i m, .enqueue i m none ∉ calls) :
    ∃ q rets, exec Queues.step (Queues.create heap) calls = some (q, rets) ∧
      Queues.AreLists heap q s.lines ∧
      leaving rets = (arrivals out).map fun x => some (.inr x.1) := by
  obtain ⟨rets, hexec, hleave⟩ := run_lines h hops hblock
  have hrel := Queues.exec_rel hok
  rw [hexec] at hrel
  cases hrun : exec Queues.step (Queues.create heap) calls with
  | none =>
    rw [hrun] at hrel
    cases hrel
  | some r =>
    rw [hrun] at hrel
    obtain ⟨⟨l, o⟩, hr, hs, ho⟩ := exists_of_rel_some hrel
    cases hr
    exact ⟨r.1, r.2, rfl, hs, ho ▸ hleave⟩

/-- A message goes into the buffer. -/
theorem link_queues_put : ∃ q rets, exec Queues.step
    (Queues.create (fun _ => none) : Queues Line (ℕ ⊕ MsgInFlight ℕ))
      [.enqueue .buffer (.inl 7) (some (1, ⟨.inl 0, none⟩))] = some (q, rets) ∧
        (q.queue .buffer).size = 1 := by
  have h : exec (step (⟨1, 1, 0, 0, fun m _ _ => some m⟩ : Settings ℕ)) start
      [.receive1 (some 0), .receive1 (some 7), .check 0 0 0 0, .put] = some (_, _) := rfl
  have hok : Along Queues.step Queues.Legal
      (Queues.create (fun _ => none) : Queues Line (ℕ ⊕ MsgInFlight ℕ))
        [.enqueue .buffer (.inl 7) (some (1, ⟨.inl 0, none⟩))] := by
    refine (along_cons rfl).mpr ⟨?_, along_nil⟩
    rintro _ ⟨⟩
    rfl
  obtain ⟨q, rets, hexec, hlists, -⟩ := link_queues h hok rfl (by simp)
  exact ⟨q, rets, hexec, hlists.size .buffer⟩

end Link

end Protocoale.Emulator

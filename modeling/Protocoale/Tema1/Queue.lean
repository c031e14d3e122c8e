import Protocoale.Lib.Heap
import Protocoale.Tema1.Storage

/-!
The queue of `queue.c`: two pointers to the ends of a list of cells on the heap. When the last cell is
taken out it is freed, but `tail` keeps its address. The run of the queue is a run of an abstract one, a
list of elements, and no operation follows a pointer to anything else than the queue's own cells
(`queue_refines`).
-/

namespace Protocoale.Tema1

open Lib Lib.Heap Lib.Run

/-- `struct cell`. -/
structure Cell (E : Type) where
  element : E
  next : Option ℕ

/-- `struct queue`. -/
structure Queue where
  head : Option ℕ
  tail : Option ℕ

variable {E : Type}

/-! ### `list.c` -/

/-- `cons`, with the block that its `malloc` gets. -/
def cons (block : Option (ℕ × Cell E)) (element : E) (l : Option ℕ) : Prog (Cell E) (Option ℕ) := do
  let temp ← malloc block
  modifyCell temp fun c => { c with element }
  modifyCell temp fun c => { c with next := l }
  return temp

def cdrAndFree (l : Option ℕ) : Prog (Cell E) (Option ℕ) := do
  let c ← load l
  let temp := c.next
  free l
  return temp

section List

variable {m : Memory (Cell E)} {cells : Cells (Cell E)} {log : List ℕ} {b a : ℕ} {c : Cell E} {e : E}
  {l : Option ℕ}

lemma cons_run : (cons (some (b, c)) e l).run ⟨cells, log⟩ =
    some (some b, ⟨Function.update cells b (some ⟨e, l⟩), log ++ [b, b]⟩) := by
  unfold cons
  rw [run_bind malloc_run, run_bind (modifyCell_run (Function.update_self ..)),
    run_bind (modifyCell_run (Function.update_self ..))]
  simp

/-- Without memory `cons` follows a null pointer. -/
lemma cons_null : (cons none e l).run m = none := by
  unfold cons
  rw [run_bind malloc_null, run_bind_none modifyCell_null]

lemma cdrAndFree_run (h : cells a = some c) : (cdrAndFree (some a)).run ⟨cells, log⟩ =
    some (c.next, ⟨Function.update cells a none, log ++ [a, a]⟩) := by
  unfold cdrAndFree
  rw [run_bind (load_run h), run_bind (free_run h)]
  simp

end List

/-! ### `queue.c` -/

namespace Queue

def queueCreate : Queue := ⟨none, none⟩

def queueEmpty (q : Queue) : Bool := q.head.isNone

/-- `queue_enq`, with the block that `cons` gets. -/
def queueEnq (q : Queue) (block : Option (ℕ × Cell E)) (element : E) : Prog (Cell E) Queue :=
  if q.queueEmpty then do
    let l ← cons block element none
    return { head := l, tail := l }
  else do
    let l ← cons block element none
    modifyCell q.tail fun c => { c with next := l }
    let c ← load q.tail
    return { q with tail := c.next }

/-- `queue_deq`: not defined when its assertion fails. -/
def queueDeq (q : Queue) : Prog (Cell E) (E × Queue) :=
  if q.queueEmpty then failure
  else do
    let c ← load q.head
    let temp := c.element
    let head ← cdrAndFree q.head
    return (temp, { q with head })

@[simp] lemma queueEmpty_iff {q : Queue} : q.queueEmpty = true ↔ q.head = none := by
  simp [queueEmpty]

section Operations

variable {q : Queue} {m : Memory (Cell E)} {cells : Cells (Cell E)} {log : List ℕ} {a b t : ℕ}
  {c d : Cell E} {e : E}

lemma queueEnq_null : (q.queueEnq none e).run m = none := by
  unfold queueEnq
  split <;> exact run_bind_none cons_null

/-- On an empty queue both ends are reset to the new cell, whatever `tail` was. -/
lemma queueEnq_empty (hq : q.head = none) : (q.queueEnq (some (b, c)) e).run ⟨cells, log⟩ =
    some (⟨some b, some b⟩, ⟨Function.update cells b (some ⟨e, none⟩), log ++ [b, b]⟩) := by
  unfold queueEnq
  rw [if_pos (queueEmpty_iff.mpr hq), run_bind cons_run]
  rfl

lemma queueEnq_nonempty (hq : q.head = some a) (ht : q.tail = some t) (hcell : cells t = some d)
    (hb : cells b = none) : (q.queueEnq (some (b, c)) e).run ⟨cells, log⟩ =
    some ({ q with tail := some b }, ⟨Function.update (Function.update cells b (some ⟨e, none⟩)) t
      (some { d with next := some b }), log ++ [b, b, t, t]⟩) := by
  have htb : t ≠ b := by
    rintro rfl
    rw [hb] at hcell
    cases hcell
  have hcell' : Function.update cells b (some ⟨e, none⟩) t = some d := by
    rw [Function.update_of_ne htb, hcell]
  unfold queueEnq
  rw [if_neg (by simp [hq]), ht, run_bind cons_run, run_bind (modifyCell_run hcell'),
    run_bind (load_run (Function.update_self ..))]
  simp

lemma queueDeq_nonempty (hq : q.head = some a) (hcell : cells a = some c) :
    q.queueDeq.run ⟨cells, log⟩ = some ((c.element, { q with head := c.next }),
      ⟨Function.update cells a none, log ++ [a, a, a]⟩) := by
  unfold queueDeq
  rw [if_neg (by simp [hq]), hq, run_bind (load_run hcell), run_bind (cdrAndFree_run hcell)]
  simp

end Operations

end Queue

/-! ### Calls

The abstract queue is the list of its elements; with no memory for a cell nothing is defined.
-/

/-- A queue and the heap. -/
structure LinkedQueue (E : Type) where
  q : Queue
  heap : Cells (Cell E)

/-- A call of `queue_enq`, with what `malloc` returns in it, or of `queue_deq`; or the rest of the
program, which leaves some other heap. -/
inductive Call (E : Type) where
  | enq (element : E) (block : Option (ℕ × Cell E))
  | deq
  | other (heap : Cells (Cell E))

/-- What a call does: addresses followed, and the element that `queue_deq` returns. -/
inductive QueueEffect (E : Type) where
  | access (a : ℕ)
  | deq (element : E)

/-- What `queue_deq` returns. -/
def QueueEffect.returned : QueueEffect E → Option E
  | .access _ => none
  | .deq element => some element

/-- The elements that go into the queue. -/
def enqueued (is : List (Call E)) : List E := is.filterMap fun
  | .enq element _ => some element
  | _ => none

/-- The abstract queue: elements are added at the end and taken out at the front. -/
def fifo (l : List E) : Call E → Option (List E × List E)
  | .enq element block => block.map fun _ => (l ++ [element], [])
  | .deq =>
    match l with
    | [] => none
    | e :: l => some (l, [e])
  | .other _ => some (l, [])

namespace LinkedQueue

def create (heap : Cells (Cell E)) : LinkedQueue E := ⟨Queue.queueCreate, heap⟩

def step (s : LinkedQueue E) : Call E → Option (LinkedQueue E × List (QueueEffect E))
  | .enq element block => ((s.q.queueEnq block element).run ⟨s.heap, []⟩).map fun r =>
      (⟨r.1, r.2.cells⟩, r.2.log.map .access)
  | .deq => (s.q.queueDeq.run ⟨s.heap, []⟩).map fun r =>
      (⟨r.1.2, r.2.cells⟩, r.2.log.map .access ++ [.deq r.1.1])
  | .other heap => some (⟨s.q, heap⟩, [])

/-- The elements of cells. -/
def elements (cells : List (ℕ × Cell E)) : List E := cells.map fun x => x.2.element

/-- The cells of a queue, from the first to the last: `tail` points to the last one, and anywhere when
there are none. -/
structure Represents (s : LinkedQueue E) (cells : List (ℕ × Cell E)) : Prop where
  chain : Chain Cell.next s.heap s.q.head cells none
  tail : ∀ x ∈ cells.getLast?, s.q.tail = some x.1

/-- The linked queue is a list of elements. -/
def IsQueue (s : LinkedQueue E) (l : List E) : Prop := ∃ cells, s.Represents cells ∧ elements cells = l

/-- `malloc` returns null or a free block, `queue_deq` is not called on an empty queue, and the rest of
the program does not change the queue's cells. -/
def Legal (s : LinkedQueue E) : Call E → Prop
  | .enq _ block => ∀ x ∈ block, s.heap x.1 = none
  | .deq => s.q.queueEmpty = false
  | .other heap => ∀ cells, s.Represents cells → ∀ x ∈ cells, heap x.1 = s.heap x.1

/-- The addresses a call follows are those of the queue's cells, if it has any, and of the block the
call has got. -/
def Safe (s : LinkedQueue E) (i : Call E) : Prop :=
  ∀ s' out a, step s i = some (s', out) → .access a ∈ out →
    (s.q.queueEmpty = false ∧ ∃ cells, s.Represents cells ∧ a ∈ cells.map Prod.fst) ∨
      ∃ e c, i = .enq e (some (a, c))

variable {s s' : LinkedQueue E} {i : Call E} {is : List (Call E)} {heap : Cells (Cell E)}
  {cells cells' : List (ℕ × Cell E)} {out : List (QueueEffect E)} {e : E} {b : ℕ} {c : Cell E}

/-! ### One call -/

lemma Represents.empty_iff (hr : s.Represents cells) : s.q.queueEmpty = true ↔ cells = [] := by
  rw [Queue.queueEmpty_iff]
  exact hr.chain.eq_none_iff

lemma IsQueue.empty_iff {l : List E} (h : s.IsQueue l) : s.q.queueEmpty = true ↔ l = [] := by
  obtain ⟨cells, hr, rfl⟩ := h
  rw [hr.empty_iff, elements, List.map_eq_nil_iff]

/-- A call on a queue that represents cells leaves one that represents cells, their elements are those
the abstract queue has, and it follows only pointers to the cells there were and to its block. A call
of the queue changes nothing else on the heap. -/
structure Does (s : LinkedQueue E) (cells : List (ℕ × Cell E)) (i : Call E) (s' : LinkedQueue E)
    (out : List (QueueEffect E)) (cells' : List (ℕ × Cell E)) : Prop where
  represents : s'.Represents cells'
  fifo : fifo (elements cells) i = some (elements cells', out.filterMap QueueEffect.returned)
  access : ∀ a, .access a ∈ out → a ∈ cells.map Prod.fst ∨ ∃ e c, i = .enq e (some (a, c))
  frame : (∃ heap, i = .other heap) ∨ ∀ a, a ∉ cells.map Prod.fst →
    (∀ e c, i ≠ .enq e (some (a, c))) → s'.heap a = s.heap a

/-- An empty queue gets a first cell. -/
lemma enq_empty (hr : s.Represents []) :
    ∃ s' out cells', step s (.enq e (some (b, c))) = some (s', out) ∧
      Does s [] (.enq e (some (b, c))) s' out cells' := by
  have hrun : (s.q.queueEnq (some (b, c)) e).run ⟨s.heap, []⟩ = _ := Queue.queueEnq_empty hr.chain
  refine ⟨_, _, [(b, ⟨e, none⟩)], by rw [step, hrun]; rfl, ⟨by simp, by simp⟩, rfl, by simp, ?_⟩
  refine Or.inr fun a _ ha => Function.update_of_ne ?_ _ _
  rintro rfl
  exact ha e c rfl

/-- The cell `tail` points to is linked to the new one. -/
lemma enq_nonempty {xs : List (ℕ × Cell E)} {x : ℕ × Cell E} (hr : s.Represents (xs ++ [x]))
    (hb : s.heap b = none) : ∃ s' out cells', step s (.enq e (some (b, c))) = some (s', out) ∧
      Does s (xs ++ [x]) (.enq e (some (b, c))) s' out cells' := by
  obtain ⟨t, d⟩ := x
  have htail : s.q.tail = some t := hr.tail (t, d) (by simp)
  have hcell : s.heap t = some d := hr.chain.allocated (x := (t, d)) (by simp)
  obtain ⟨a, hhead⟩ : ∃ a, s.q.head = some a := by
    rw [← Option.ne_none_iff_exists', Ne, hr.chain.eq_none_iff]
    simp
  have hrun : (s.q.queueEnq (some (b, c)) e).run ⟨s.heap, []⟩ = _ :=
    Queue.queueEnq_nonempty hhead htail hcell hb
  refine ⟨_, _, xs ++ [(t, { d with next := some b }), (b, ⟨e, none⟩)], by rw [step, hrun]; rfl,
    ⟨?_, by simp⟩, ?_, by simp, Or.inr fun a hcells ha => ?_⟩
  · exact hr.chain.link (f := fun d => { d with next := some b }) (d := ⟨e, none⟩) hb rfl rfl
  · simp [fifo, elements, QueueEffect.returned]
  · have hat : a ≠ t := by
      rintro rfl
      exact hcells (by simp)
    have hab : a ≠ b := by
      rintro rfl
      exact ha e c rfl
    exact (Function.update_of_ne hat _ _).trans (Function.update_of_ne hab _ _)

/-- The first cell is freed; `tail` stays as it is, also when this was the last one. -/
lemma deq_nonempty {x : ℕ × Cell E} (hr : s.Represents (x :: cells)) :
    ∃ s' out cells', step s .deq = some (s', out) ∧ Does s (x :: cells) .deq s' out cells' := by
  obtain ⟨hhead, hcell, -⟩ := hr.chain
  have hrun : s.q.queueDeq.run ⟨s.heap, []⟩ = _ := Queue.queueDeq_nonempty hhead hcell
  refine ⟨_, _, cells, by rw [step, hrun]; rfl, ⟨hr.chain.free_head, ?_⟩, rfl, by simp, ?_⟩
  · intro y hy
    refine hr.tail y ?_
    rw [List.getLast?_cons, Option.mem_def.mp hy]
    rfl
  · refine Or.inr fun a ha _ => Function.update_of_ne ?_ _ _
    rintro rfl
    exact ha (by simp)

lemma other_does (hr : s.Represents cells) (hi : s.Legal (.other heap)) :
    Does s cells (.other heap) ⟨s.q, heap⟩ [] cells := by
  refine ⟨⟨hr.chain.frame ?_, hr.tail⟩, rfl, by simp, Or.inl ⟨heap, rfl⟩⟩
  intro a ha
  obtain ⟨x, hx, rfl⟩ := List.mem_map.mp ha
  exact hi cells hr x hx

/-- **One call.** A legal call on a queue that represents cells fails for want of memory, or does what
the abstract queue does. -/
lemma step_does (hr : s.Represents cells) (hi : s.Legal i) :
    (∃ e, i = .enq e none ∧ step s i = none) ∨
      ∃ s' out cells', step s i = some (s', out) ∧ Does s cells i s' out cells' := by
  cases i with
  | enq e block =>
    cases block with
    | none =>
      refine Or.inl ⟨e, rfl, ?_⟩
      rw [step, Queue.queueEnq_null]
      rfl
    | some x =>
      obtain ⟨b, c⟩ := x
      refine Or.inr ?_
      rcases List.eq_nil_or_concat' cells with rfl | ⟨xs, x, rfl⟩
      · exact enq_empty hr
      · exact enq_nonempty hr (hi (b, c) rfl)
  | deq =>
    cases cells with
    | nil => exact absurd (hr.empty_iff.mpr rfl) (by simp [show s.q.queueEmpty = false from hi])
    | cons x cells => exact Or.inr (deq_nonempty hr)
  | other heap => exact Or.inr ⟨_, _, cells, rfl, other_does hr hi⟩

lemma represents_create : (create heap).Represents [] := by
  constructor
  · rfl
  · simp

/-- There are always cells that the queue represents. -/
lemma represents_step (hr : ∃ cells, s.Represents cells) (hi : s.Legal i)
    (h : step s i = some (s', out)) : ∃ cells, s'.Represents cells := by
  obtain ⟨cells, hr⟩ := hr
  rcases step_does hr hi with ⟨e, -, hnone⟩ | ⟨t, o, cells', hs, hdoes⟩
  · rw [hnone] at h
    cases h
  · rw [hs] at h
    cases h
    exact ⟨cells', hdoes.represents⟩

/-! ### Runs -/

/-- A legal run of the queue is a run of the abstract one. -/
theorem exec_fifo (hr : s.Represents cells) (hok : Along step Legal s is) :
    Option.Rel (fun r q => r.1.IsQueue q.1 ∧ r.2.filterMap QueueEffect.returned = q.2)
      (exec step s is) (exec fifo (elements cells) is) := by
  have hsim : ∀ (s : LinkedQueue E) l i, s.IsQueue l → s.Legal i →
      Option.Rel (fun r q => r.1.IsQueue q.1 ∧ r.2.filterMap QueueEffect.returned = q.2)
        (step s i) (fifo l (id i)) := by
    rintro s l i ⟨cells, hr, rfl⟩ hi
    rcases step_does hr hi with ⟨e, rfl, hnone⟩ | ⟨s', out, cells', hs, hdoes⟩
    · rw [hnone]
      exact Option.Rel.none
    · rw [hs, id, hdoes.fifo]
      exact Option.Rel.some ⟨⟨cells', hdoes.represents, rfl⟩, rfl⟩
  simpa only [List.map_id] using exec_sim id QueueEffect.returned hsim ⟨cells, hr, rfl⟩ hok

/-- **First in, first out**: what was in the abstract queue and what goes in is what comes out and what
is in it at the end. -/
lemma fifo_order {l l' out : List E} (h : exec fifo l is = some (l', out)) :
    l ++ enqueued is = out ++ l' := by
  induction is generalizing l out with
  | nil =>
    cases h
    simp [enqueued]
  | cons i is ih =>
    obtain ⟨l₁, o, o', hi, hrest, rfl⟩ := exec_cons_eq_some h
    have hrest := ih hrest
    cases i with
    | enq e block => 
      obtain ⟨x, -, hx⟩ := Option.map_eq_some_iff.mp hi
      cases hx
      simpa [enqueued] using hrest
    | deq =>
      cases l with
      | nil => cases hi
      | cons e l =>
        cases hi
        simpa [enqueued] using hrest
    | other heap =>
      cases hi
      simpa [enqueued] using hrest

/-- A legal run fails only for want of memory. -/
lemma exec_eq_none_iff (hr : s.Represents cells) (hok : Along step Legal s is) :
    exec step s is = none ↔ ∃ e, .enq e none ∈ is := by
  induction is generalizing s cells with
  | nil => simp
  | cons i is ih =>
    rcases step_does hr hok.head with ⟨e, rfl, hnone⟩ | ⟨s', out, cells', hs, hdoes⟩
    · exact iff_of_true (exec_cons_none hnone) ⟨e, List.mem_cons_self⟩
    · rw [along_cons hs] at hok
      rw [exec_cons hs, Option.map_eq_none_iff, ih hdoes.represents hok.2]
      refine exists_congr fun e => ?_
      rw [List.mem_cons]
      refine (or_iff_right ?_).symm
      rintro rfl
      rw [step, Queue.queueEnq_null] at hs
      cases hs

/-- No call follows a pointer to a cell that is not in the queue. -/
lemma along_safe (hr : s.Represents cells) (hok : Along step Legal s is) : Along step Safe s is := by
  intro x hx s' out a hs ha
  obtain ⟨pre, o, hpre, hexec⟩ := exists_prefix_of_mem_visited hx
  have hvis := (prefix_visited hexec ((List.prefix_append pre _).trans hpre)).subset
  have hpre_ok : Along step Legal s pre := fun y hy => hok y (hvis hy)
  obtain ⟨cells', hr'⟩ := exec_inv (P := fun s => ∃ cells, Represents s cells)
    (fun _ _ _ _ hr hi => represents_step hr hi) hpre_ok ⟨cells, hr⟩ hexec
  rcases step_does hr' (hok x hx) with ⟨e, -, hnone⟩ | ⟨t, o, cells₁, hs', hdoes⟩
  · rw [hnone] at hs
    cases hs
  · rw [hs'] at hs
    cases hs
    refine (hdoes.access a ha).imp_left fun hmem => ⟨?_, cells', hr', hmem⟩
    rw [Bool.eq_false_iff, Ne, hr'.empty_iff]
    rintro rfl
    cases hmem

/-- **The queue is a FIFO list.** In every run of calls from `queue_create`, with `queue_deq` never
called on an empty queue, the queue does what the list does, and fails only where `malloc` does. It
returns the elements in the order in which they went in, each once, `queue_empty` tells whether the
list is empty, and no call follows the pointer that `tail` keeps to a freed cell: the addresses it
follows are those of cells in the queue and of its new block. -/
theorem queue_refines (hok : Along step Legal (create heap) is) :
    Option.Rel (fun r q => r.1.IsQueue q.1 ∧ r.2.filterMap QueueEffect.returned = q.2)
      (exec step (create heap) is) (exec fifo [] is) ∧
    (exec step (create heap) is = none ↔ ∃ e, .enq e none ∈ is) ∧
    (∀ s out, exec step (create heap) is = some (s, out) → ∃ l, s.IsQueue l ∧
      (s.q.queueEmpty = true ↔ l = []) ∧ out.filterMap QueueEffect.returned ++ l = enqueued is) ∧
    Along step Safe (create heap) is := by
  have hrel := exec_fifo represents_create hok
  refine ⟨hrel, exec_eq_none_iff represents_create hok, ?_, along_safe represents_create hok⟩
  intro s out h
  rw [h] at hrel
  obtain ⟨⟨l, o⟩, hq, hl, rfl⟩ := exists_of_rel_some hrel
  exact ⟨l, hl, hl.empty_iff, (fifo_order hq).symm⟩

/-- The freed cell is handed out again for the next element. -/
theorem queue_refines_reused : ∃ s out, exec step (create fun _ => none)
    [.enq 5 (some (0, ⟨0, none⟩)), .deq, .enq 7 (some (0, ⟨5, none⟩)), .enq 8 (some (1, ⟨0, none⟩)),
      .deq] = some (s, out) ∧ ∃ l, s.IsQueue l ∧ out.filterMap QueueEffect.returned ++ l = [5, 7, 8] := by
  have hok : Along step Legal (create fun _ => none) [.enq 5 (some (0, ⟨0, none⟩)), .deq,
      .enq 7 (some (0, ⟨5, none⟩)), .enq 8 (some (1, ⟨0, none⟩)), .deq] := by
    refine (along_cons rfl).mpr ⟨?_, (along_cons rfl).mpr ⟨?_, (along_cons rfl).mpr ⟨?_,
      (along_cons rfl).mpr ⟨?_, (along_cons rfl).mpr ⟨?_, along_nil⟩⟩⟩⟩⟩
    · rintro x ⟨⟩
      rfl
    · rfl
    · rintro x ⟨⟩
      rfl
    · rintro x ⟨⟩
      rfl
    · rfl
  obtain ⟨-, hnone, hqueue, -⟩ := queue_refines hok
  obtain ⟨⟨s, out⟩, hexec⟩ := Option.ne_none_iff_exists'.mp (hnone.not.mpr (by simp))
  obtain ⟨l, hl, -, hout⟩ := hqueue s out hexec
  exact ⟨s, out, hexec, l, hl, hout⟩

/-! ### The queue of the router

The router keeps the addresses of packets in its queue. While there is room on the heap, every run of
the router with a list is one with calls of the linked queue.
-/

/-- Memory does not run out. -/
def Room (s : LinkedQueue E) : Prop := {a | s.heap a = none}.Infinite

/-- Calls of the queue that are legal, and leave it as a list `l`, with room. -/
structure Calls (s : LinkedQueue E) (is : List (Call E)) (s' : LinkedQueue E)
    (out : List (QueueEffect E)) (l : List E) : Prop where
  legal : Along step Legal s is
  exec : exec step s is = some (s', out)
  queue : s'.IsQueue l
  room : s'.Room

lemma Does.room (h : Does s cells i s' out cells') (hi : ∀ heap, i ≠ .other heap) (hroom : s.Room) :
    s'.Room := by
  have hframe := h.frame.resolve_left fun ⟨heap, he⟩ => hi heap he
  have hblock : {a | ∃ e c, i = .enq e (some (a, c))}.Finite := by
    refine Set.Subsingleton.finite ?_
    rintro a ⟨e, c, rfl⟩ b ⟨e', c', hb⟩
    cases hb
    rfl
  refine (hroom.sdiff ((cells.map Prod.fst).finite_toSet.union hblock)).mono ?_
  rintro a ⟨ha, hnot⟩
  rw [Set.mem_union, not_or] at hnot
  exact (hframe a hnot.1 fun e c he => hnot.2 ⟨e, c, he⟩).trans ha

lemma calls_nil {l : List E} (h : s.IsQueue l) (hroom : s.Room) : Calls s [] s [] l :=
  ⟨along_nil, rfl, h, hroom⟩

/-- Calls after calls. -/
lemma Calls.append {t : LinkedQueue E} {js : List (Call E)} {o : List (QueueEffect E)} {l l' : List E}
    (h : Calls s is s' out l) (h' : Calls s' js t o l') : Calls s (is ++ js) t (out ++ o) l' := by
  refine ⟨?_, ?_, h'.queue, h'.room⟩
  · intro x hx
    rw [visited_append h.exec, List.mem_append] at hx
    exact hx.elim (h.legal x) (h'.legal x)
  · rw [exec_append, h.exec, Option.bind_some, h'.exec]
    rfl

lemma calls_singleton (hi : s.Legal i) (hs : step s i = some (s', out))
    (hdoes : Does s cells i s' out cells') (hother : ∀ heap, i ≠ .other heap) (hroom : s.Room) :
    Calls s [i] s' out (elements cells') := by
  refine ⟨(along_cons hs).mpr ⟨hi, along_nil⟩, ?_, ⟨cells', hdoes.represents, rfl⟩,
    hdoes.room hother hroom⟩
  rw [exec_cons hs]
  simp

/-- An element goes in, in a cell at a free address. -/
lemma exists_enq {l : List E} (h : s.IsQueue l) (hroom : s.Room) (e : E) :
    ∃ i s' out, Calls s [i] s' out (l ++ [e]) ∧ enqueued [i] = [e] ∧
      out.filterMap QueueEffect.returned = [] := by
  obtain ⟨b, hb⟩ := hroom.nonempty
  obtain ⟨cells, hr, rfl⟩ := h
  have hi : s.Legal (.enq e (some (b, ⟨e, none⟩))) := by
    rintro x ⟨⟩
    exact hb
  rcases step_does hr hi with ⟨e', he, -⟩ | ⟨s', out, cells', hs, hdoes⟩
  · cases he
  · have hcalls := calls_singleton hi hs hdoes (by simp) hroom
    obtain ⟨hcells, hret⟩ := Prod.mk.inj (Option.some.inj hdoes.fifo)
    rw [← hcells] at hcalls
    exact ⟨_, s', out, hcalls, rfl, hret.symm⟩

/-- The first element is taken out. -/
lemma exists_deq {l : List E} (h : s.IsQueue (e :: l)) (hroom : s.Room) :
    ∃ s' out, Calls s [.deq] s' out l ∧ out.filterMap QueueEffect.returned = [e] := by
  obtain ⟨cells, hr, hcells⟩ := h
  have hi : s.Legal .deq := by
    have hne : ¬ s.q.queueEmpty = true := by
      rw [hr.empty_iff]
      rintro rfl
      cases hcells
    exact Bool.eq_false_iff.mpr hne
  rcases step_does hr hi with ⟨e', he, -⟩ | ⟨s', out, cells', hs, hdoes⟩
  · cases he
  · have hcalls := calls_singleton hi hs hdoes (by simp) hroom
    have hfifo := hdoes.fifo
    rw [hcells] at hfifo
    obtain ⟨hl, hret⟩ := Prod.mk.inj (Option.some.inj hfifo)
    rw [← hl] at hcalls
    exact ⟨s', out, hcalls, hret.symm⟩

section Router

variable {env : Env} {r r' : PtrRouter} {m m' : Packet} {a : ℕ} {x : Frame × ℕ} {o : List Effect}
  {s : LinkedQueue ℕ}

/-- `forward_packet` makes a call when it parks the packet. -/
lemma exists_calls_forward (h : PtrRouter.forwardPacket env r m a = some (r', m', o))
    (hq : s.IsQueue r.queue) (hroom : s.Room) : ∃ is s' out, Calls s is s' out r'.queue ∧
      (enqueued is).length = (PtrRouter.enqueued o).length ∧
      out.filterMap QueueEffect.returned = [] ∧ PtrRouter.dequeued o = [] := by
  rcases PtrRouter.forwardPacket_parks h with ⟨-, rfl, henq, hdeq⟩ | ⟨-, -, henq, hdeq, rfl⟩
  · exact ⟨[], s, [], calls_nil hq hroom, by rw [henq]; rfl, rfl, hdeq⟩
  · obtain ⟨i, s', out, hcalls, hi, hret⟩ := exists_enq hq hroom a
    exact ⟨[i], s', out, hcalls, by rw [henq, hi]; rfl, hret, hdeq⟩

/-- **An iteration of the router** with the linked queue: the pointers that come out are those to the
packets that the router takes out, and as many go in. -/
theorem exists_calls (h : PtrRouter.step env r x = some (r', o)) (hq : s.IsQueue r.queue)
    (hroom : s.Room) : ∃ is s' out, Calls s is s' out r'.queue ∧
      (enqueued is).length = (PtrRouter.enqueued o).length ∧
      (out.filterMap QueueEffect.returned).map r.cells = PtrRouter.dequeued o := by
  rcases PtrRouter.step_cases h with ⟨-, -, hqueue, -, henq, hdeq⟩ | ⟨router, m, t, m', -, -, hf, rfl⟩ |
    ⟨router, a, q, t, m', o', -, hqueue, -, hf, rfl, rfl⟩
  · refine ⟨[], s, [], hqueue ▸ calls_nil hq hroom, by rw [henq]; rfl, by rw [hdeq]; rfl⟩
  · obtain ⟨is, s', out, hcalls, henq, hret, hdeq⟩ := exists_calls_forward hf hq hroom
    exact ⟨is, s', out, hcalls, henq, by rw [hret, hdeq]; rfl⟩
  · rw [hqueue] at hq
    obtain ⟨s₁, out₁, hcalls₁, hret₁⟩ := exists_deq hq hroom
    obtain ⟨is, s', out, hcalls, henq, hret, hdeq⟩ :=
      exists_calls_forward hf hcalls₁.queue hcalls₁.room
    refine ⟨.deq :: is, s', out₁ ++ out, hcalls₁.append hcalls, henq, ?_⟩
    rw [List.filterMap_append, hret₁, hret, List.append_nil]
    show [r.cells a] = r.cells a :: PtrRouter.dequeued o'
    rw [hdeq]

/-- The router's queue is the linked one after some calls, in which as many elements went in and came
out as packets. -/
def Implements (heap : Cells (Cell ℕ)) (r : PtrRouter) (o : List Effect) : Prop :=
  ∃ is s out, Calls (create heap) is s out r.queue ∧
    (enqueued is).length = (PtrRouter.enqueued o).length ∧
    (out.filterMap QueueEffect.returned).length = (PtrRouter.dequeued o).length

/-- **The router's queue is the linked one**, in every run from the start. -/
theorem router_queue {rtable : List RouteTableEntry} {p : Packet} {packets : ℕ → Packet}
    {heap : Cells (Cell ℕ)} {xs : List (Frame × ℕ)} (hroom : {a | heap a = none}.Infinite)
    (h : exec (PtrRouter.step env) (PtrRouter.init rtable p packets) xs = some (r, o)) :
    Implements heap r o := by
  have hok : Along (PtrRouter.step env) (fun _ _ => True) (PtrRouter.init rtable p packets) xs :=
    fun _ _ => trivial
  refine exec_trace (P := fun _ r o => Implements heap r o) ?_ hok ?_ h
  · rintro - acc r x r' o ⟨is, s, out, hcalls, henq, hret⟩ - hs
    obtain ⟨js, s', out', hcalls', henq', hret'⟩ := exists_calls hs hcalls.queue hcalls.room
    refine ⟨is ++ js, s', out ++ out', hcalls.append hcalls', ?_, ?_⟩
    · simpa [enqueued] using congrArg₂ (· + ·) henq henq'
    · have hlen := congrArg List.length hret'
      rw [List.length_map] at hlen
      simp [hret, hlen]
  · exact ⟨[], create heap, [], calls_nil ⟨[], represents_create, rfl⟩ hroom, rfl, rfl⟩

end Router

end LinkedQueue

end Protocoale.Tema1

import Mathlib.Tactic

/-!
Runs of a partial state machine: a step function that takes a state and an input to the next
state and the outputs emitted, or to nothing when the behaviour is not defined.

`exec` runs a list of inputs and concatenates the outputs, `visited` lists every input with the
state it was consumed in, and `Reach` collects the states some legal run ends in. The rules at the
end are the ones the developments above use: what one step keeps holds in the reachable states and
along every run, of the state, of what the run has visited and of what it has sent; a property that
a step keeps under a condition holds all along a run exactly when every step meets the condition;
machines that go step by step together do so for whole runs. Last, what may fail and is done on every
element of a list.
-/

namespace Protocoale.Lib.Run

variable {σ ι ο : Type*} (step : σ → ι → Option (σ × List ο))

/-- The run on a list of inputs: the state it ends in and the outputs of all its steps. -/
def exec (s : σ) : List ι → Option (σ × List ο)
  | [] => some (s, [])
  | i :: is => (step s i).bind fun r => (exec r.1 is).map fun q => (q.1, r.2 ++ q.2)

/-- The inputs of a run, each with the state it was consumed in. -/
def visited (s : σ) : List ι → List (σ × ι)
  | [] => []
  | i :: is => (s, i) :: (match step s i with
    | none => []
    | some r => visited r.1 is)

/-- Every input of the run satisfies `ok` in the state it is consumed in. -/
def Along (ok : σ → ι → Prop) (s : σ) (is : List ι) : Prop := ∀ x ∈ visited step s is, ok x.1 x.2

instance {ok : σ → ι → Prop} [∀ s i, Decidable (ok s i)] {s : σ} {is : List ι} :
    Decidable (Along step ok s is) :=
  inferInstanceAs (Decidable (∀ x ∈ visited step s is, ok x.1 x.2))

/-- The states a run from `s₀` with legal inputs can end in. -/
inductive Reach (ok : σ → ι → Prop) (s₀ : σ) : σ → Prop
  | init : Reach ok s₀ s₀
  | step {s s' : σ} {i : ι} {out : List ο} : Reach ok s₀ s → ok s i → step s i = some (s', out) →
      Reach ok s₀ s'

variable {step} {ok : σ → ι → Prop} {s s' : σ} {i : ι} {is js : List ι} {out : List ο}

@[simp] lemma exec_nil : exec step s [] = some (s, []) := rfl

lemma exec_cons (h : step s i = some (s', out)) :
    exec step s (i :: is) = (exec step s' is).map fun q => (q.1, out ++ q.2) := by
  simp [exec, h]

lemma exec_cons_none (h : step s i = none) : exec step s (i :: is) = none := by
  simp [exec, h]

/-- A run of at least one step, taken apart at its first step. -/
lemma exec_cons_eq_some {t : σ} (h : exec step s (i :: is) = some (t, out)) :
    ∃ s' o o', step s i = some (s', o) ∧ exec step s' is = some (t, o') ∧ out = o ++ o' := by
  cases hs : step s i with
  | none => rw [exec_cons_none hs] at h; cases h
  | some r =>
    obtain ⟨s₁, o₁⟩ := r
    rw [exec_cons hs] at h
    obtain ⟨q, hq, he⟩ := Option.map_eq_some_iff.mp h
    cases he
    exact ⟨s₁, o₁, q.2, rfl, hq, rfl⟩

lemma exec_append (s : σ) (is js : List ι) : exec step s (is ++ js) =
    (exec step s is).bind fun r => (exec step r.1 js).map fun q => (q.1, r.2 ++ q.2) := by
  induction is generalizing s with
  | nil => simp
  | cons i is ih =>
    rw [List.cons_append]
    cases hs : step s i with
    | none => rw [exec_cons_none hs, exec_cons_none hs]; rfl
    | some r =>
      obtain ⟨s₁, o₁⟩ := r
      rw [exec_cons hs, exec_cons hs, ih]
      cases exec step s₁ is with
      | none => rfl
      | some q => cases hj : exec step q.1 js <;> simp [hj]

/-- A run of at least one step, taken apart at its last step. -/
lemma exec_snoc_eq_some {t : σ} (h : exec step s (is ++ [i]) = some (t, out)) :
    ∃ s' o o', exec step s is = some (s', o) ∧ step s' i = some (t, o') ∧ out = o ++ o' := by
  rw [exec_append] at h
  obtain ⟨r, hr, hq⟩ := Option.bind_eq_some_iff.mp h
  obtain ⟨q, hq, he⟩ := Option.map_eq_some_iff.mp hq
  obtain ⟨s'', o', o'', hs, hnil, ho⟩ := exec_cons_eq_some hq
  cases he
  cases hnil
  exact ⟨r.1, r.2, o', hr, hs, by rw [ho]; simp⟩

/-! ### The inputs and the states along a run -/

@[simp] lemma visited_nil : visited step s [] = [] := rfl

lemma visited_cons (h : step s i = some (s', out)) :
    visited step s (i :: is) = (s, i) :: visited step s' is := by
  simp [visited, h]

lemma visited_cons_none (h : step s i = none) : visited step s (i :: is) = [(s, i)] := by
  simp [visited, h]

/-- While the run is defined, what it visits grows by its last input. -/
lemma visited_append (h : exec step s is = some (s', out)) :
    visited step s (is ++ js) = visited step s is ++ visited step s' js := by
  induction is generalizing s out with
  | nil => cases h; rfl
  | cons i is ih =>
    obtain ⟨s₁, o, o', hs, hr, -⟩ := exec_cons_eq_some h
    rw [List.cons_append, visited_cons hs, visited_cons hs, ih hr, List.cons_append]

lemma visited_snoc (h : exec step s is = some (s', out)) :
    visited step s (is ++ [i]) = visited step s is ++ [(s', i)] := by
  rw [visited_append h]
  cases hs : step s' i with
  | none => rw [visited_cons_none hs]
  | some r =>
    obtain ⟨t, o⟩ := r
    rw [visited_cons hs, visited_nil]

/-- What a prefix of a run visits is visited by the run. -/
lemma prefix_visited (h : exec step s is = some (s', out)) (hpre : is <+: js) :
    visited step s is <+: visited step s js := by
  obtain ⟨ks, rfl⟩ := hpre
  rw [visited_append h]
  exact List.prefix_append _ _

/-- An input that is visited comes after a prefix of the run. -/
lemma exists_prefix_of_mem_visited {x : σ × ι} (h : x ∈ visited step s is) :
    ∃ pre out, pre ++ [x.2] <+: is ∧ exec step s pre = some (x.1, out) := by
  induction is generalizing s with
  | nil => simp at h
  | cons i is ih =>
    rcases List.mem_cons.mp h with rfl | h
    · exact ⟨[], [], by simp, rfl⟩
    · cases hs : step s i with
      | none => simp [hs] at h
      | some r =>
        obtain ⟨s₁, o₁⟩ := r
        rw [hs] at h
        obtain ⟨pre, out, hpre, hexec⟩ := ih h
        refine ⟨i :: pre, o₁ ++ out, ?_, ?_⟩
        · exact List.cons_prefix_cons.mpr ⟨rfl, hpre⟩
        · rw [exec_cons hs, hexec]
          rfl

/-- An input of a run, with the part of the run before it. -/
lemma exec_of_visited_eq {pre post : List (σ × ι)} {x : σ × ι} (h : exec step s is = some (s', out))
    (hv : visited step s is = pre ++ x :: post) : ∃ js o t o', exec step s js = some (x.1, o) ∧
      visited step s js = pre ∧ step x.1 x.2 = some (t, o') := by
  induction is generalizing s pre out with
  | nil => simp at hv
  | cons i is ih =>
    obtain ⟨s₁, o₁, o₂, hs, hr, -⟩ := exec_cons_eq_some h
    rw [visited_cons hs] at hv
    cases pre with
    | nil =>
      obtain ⟨rfl, -⟩ := List.cons.inj hv
      exact ⟨[], [], s₁, o₁, rfl, rfl, hs⟩
    | cons z pre =>
      obtain ⟨rfl, htail⟩ := List.cons.inj hv
      obtain ⟨js, o, t, o', hexec, hvis, hstep⟩ := ih hr htail
      refine ⟨i :: js, o₁ ++ o, t, o', ?_, ?_, hstep⟩
      · rw [exec_cons hs, hexec]
        rfl
      · rw [visited_cons hs, hvis]

@[simp] lemma along_nil : Along step ok s [] := by simp [Along]

lemma along_cons (h : step s i = some (s', out)) :
    Along step ok s (i :: is) ↔ ok s i ∧ Along step ok s' is := by
  simp [Along, visited_cons h]

lemma Along.head (h : Along step ok s (i :: is)) : ok s i := by
  refine h (s, i) ?_
  unfold visited
  exact List.mem_cons_self

/-- What holds along a run holds along a part of it. -/
lemma Along.of_prefix (h : Along step ok s js) (hpre : is <+: js)
    (hexec : exec step s is = some (s', out)) : Along step ok s is :=
  fun x hx => h x ((prefix_visited hexec hpre).subset hx)

/-- What holds along a run holds at each of its inputs. -/
lemma Along.at_input (h : Along step ok s js) (hpre : is ++ [i] <+: js)
    (hexec : exec step s is = some (s', out)) : ok s' i := by
  obtain ⟨ks, rfl⟩ := hpre
  refine h (s', i) ?_
  rw [List.append_assoc, visited_append hexec, List.singleton_append]
  exact List.mem_append_right _ List.mem_cons_self

lemma along_of_forall {P : ι → Prop} (h : ∀ i ∈ is, P i) : Along step (fun _ i => P i) s is := by
  intro x hx
  obtain ⟨pre, out, hpre, -⟩ := exists_prefix_of_mem_visited hx
  exact h x.2 (hpre.subset (by simp))

/-! ### Invariants -/

/-- **An invariant of the legal steps holds in every reachable state.** -/
theorem Reach.inv {P : σ → Prop} {s₀ : σ} (h₀ : P s₀)
    (hstep : ∀ s i s' out, P s → ok s i → step s i = some (s', out) → P s')
    (h : Reach step ok s₀ s) : P s := by
  induction h with
  | init => exact h₀
  | step _ hok hs ih => exact hstep _ _ _ _ ih hok hs

/-- **Invariants of a run.** A property of what the run has visited so far, of the state and of all the
outputs, kept by every legal step, holds where the run ends. -/
theorem exec_trace {P : List (σ × ι) → σ → List ο → Prop}
    (hstep : ∀ xs acc s i s' out, P xs s acc → ok s i → step s i = some (s', out) →
      P (xs ++ [(s, i)]) s' (acc ++ out))
    (hok : Along step ok s is) (h₀ : P [] s []) (h : exec step s is = some (s', out)) :
    P (visited step s is) s' out := by
  induction is using List.reverseRecOn generalizing s' out with
  | nil => cases h; exact h₀
  | append_singleton is i ih =>
    obtain ⟨t, o, o', hpre, hs, rfl⟩ := exec_snoc_eq_some h
    have hvis : visited step s (is ++ [i]) = visited step s is ++ [(t, i)] := visited_snoc hpre
    have hi : ok t i := hok (t, i) (by simp [hvis])
    have hpre_ok : Along step ok s is := fun x hx => hok x (by simp [hvis, hx])
    rw [hvis]
    exact hstep _ _ _ _ _ _ (ih hpre_ok hpre) hi hs

/-- The same for a property of the inputs so far, of the state and of all the outputs. -/
theorem exec_inputs {P : List ι → σ → List ο → Prop}
    (hstep : ∀ is acc s i s' out, P is s acc → step s i = some (s', out) →
      P (is ++ [i]) s' (acc ++ out))
    (h₀ : P [] s []) (h : exec step s is = some (s', out)) : P is s' out := by
  induction is using List.reverseRecOn generalizing s' out with
  | nil => cases h; exact h₀
  | append_singleton is i ih =>
    obtain ⟨t, o, o', hpre, hs, rfl⟩ := exec_snoc_eq_some h
    exact hstep _ _ _ _ _ _ (ih hpre) hs

/-- The invariant of the reachable states along one run. -/
theorem exec_inv {P : σ → Prop} (hstep : ∀ s i s' out, P s → ok s i → step s i = some (s', out) → P s')
    (hok : Along step ok s is) (h₀ : P s) (h : exec step s is = some (s', out)) : P s' := by
  refine exec_trace (P := fun _ s _ => P s) ?_ hok h₀ h
  intro _ _ s i s' out hs
  exact hstep s i s' out hs

/-- **Invariants with a history.** A property of the state and of what the run has visited so far. -/
theorem exec_history {P : List (σ × ι) → σ → Prop}
    (hstep : ∀ xs s i s' out, P xs s → ok s i → step s i = some (s', out) → P (xs ++ [(s, i)]) s')
    (hok : Along step ok s is) (h₀ : P [] s) (h : exec step s is = some (s', out)) :
    P (visited step s is) s' := by
  refine exec_trace (P := fun xs s _ => P xs s) ?_ hok h₀ h
  intro xs _ s i s' out hs
  exact hstep xs s i s' out hs

/-- **When a property holds all along a run.** In a run with an invariant, a property that a step keeps
exactly when it is `ok`, and that is only lost by a step that is defined, holds after every prefix of
the run if and only if every step of the run is `ok`. -/
theorem forall_prefix_iff_along {legal : σ → ι → Prop} {Q : σ → Prop}
    {P : List (σ × ι) → σ → List ο → Prop}
    (hQ : ∀ s i s' out, Q s → legal s i → step s i = some (s', out) → Q s')
    (hstep : ∀ xs acc s i s' out, Q s → legal s i → P xs s acc → step s i = some (s', out) →
      (P (xs ++ [(s, i)]) s' (acc ++ out) ↔ ok s i))
    (hnone : ∀ s i, Q s → legal s i → step s i = none → ok s i)
    (hlegal : Along step legal s is) (hQ₀ : Q s) (h₀ : P [] s []) :
    (∀ pre s' out, pre <+: is → exec step s pre = some (s', out) → P (visited step s pre) s' out) ↔
      Along step ok s is := by
  constructor
  · intro hall x hx
    obtain ⟨pre, out, hpre, hexec⟩ := exists_prefix_of_mem_visited hx
    have hpre' : pre <+: is := (List.prefix_append pre _).trans hpre
    have hinv : Q x.1 := exec_inv hQ (hlegal.of_prefix hpre' hexec) hQ₀ hexec
    cases hs : step x.1 x.2 with
    | none => exact hnone x.1 x.2 hinv (hlegal x hx) hs
    | some r =>
      obtain ⟨s', o⟩ := r
      have hexec' : exec step s (pre ++ [x.2]) = some (s', out ++ o) := by
        rw [exec_append, hexec, Option.bind_some, exec_cons hs]
        simp
      have hnow := hall pre x.1 out hpre' hexec
      have hnext := hall _ s' _ hpre hexec'
      rw [visited_snoc hexec] at hnext
      exact (hstep _ _ _ _ _ _ hinv (hlegal x hx) hnow hs).mp hnext
  · intro hok pre s' out hpre hexec
    have hboth : Along step (fun s i => legal s i ∧ ok s i) s pre := by
      intro x hx
      have hx' := (prefix_visited hexec hpre).subset hx
      exact ⟨hlegal x hx', hok x hx'⟩
    have hall : Q s' ∧ P (visited step s pre) s' out := by
      refine exec_trace (P := fun xs s acc => Q s ∧ P xs s acc) ?_ hboth ⟨hQ₀, h₀⟩ hexec
      rintro xs acc s i s' out ⟨hq, hp⟩ ⟨hl, hi⟩ hs
      exact ⟨hQ s i s' out hq hl hs, (hstep _ _ _ _ _ _ hq hl hp hs).mpr hi⟩
    exact hall.2

/-! ### Related runs -/

section Rel

variable {α β γ δ : Type*} {A : α → β → Prop} {C : γ → δ → Prop} {x : Option α} {y : Option β}

lemma rel_bind {f : α → Option γ} {g : β → Option δ} (h : Option.Rel A x y)
    (hfg : ∀ a b, A a b → Option.Rel C (f a) (g b)) : Option.Rel C (x.bind f) (y.bind g) := by
  cases h with
  | some h => exact hfg _ _ h
  | none => exact Option.Rel.none

lemma rel_map {f : α → γ} {g : β → δ} (h : Option.Rel A x y) (hfg : ∀ a b, A a b → C (f a) (g b)) :
    Option.Rel C (x.map f) (y.map g) := by
  cases h with
  | some h => exact Option.Rel.some (hfg _ _ h)
  | none => exact Option.Rel.none

lemma eq_none_of_rel (h : Option.Rel A none y) : y = none := by
  cases h
  rfl

lemma exists_of_rel_some {a : α} (h : Option.Rel A (some a) y) : ∃ b, y = some b ∧ A a b := by
  cases h with
  | some h => exact ⟨_, rfl, h⟩

end Rel

section Simulation

variable {τ κ π : Type*} {step' : τ → κ → Option (τ × List π)}

/-- **Simulation by a relation.** When the legal steps are, up to a relation between the states, steps
of another machine, a legal run is a run of that machine. -/
theorem exec_sim {R : σ → τ → Prop} (f : ι → κ) (g : ο → Option π)
    (hstep : ∀ s t i, R s t → ok s i →
      Option.Rel (fun r q => R r.1 q.1 ∧ r.2.filterMap g = q.2) (step s i) (step' t (f i)))
    {t : τ} (h : R s t) (hok : Along step ok s is) :
    Option.Rel (fun r q => R r.1 q.1 ∧ r.2.filterMap g = q.2) (exec step s is)
      (exec step' t (is.map f)) := by
  induction is generalizing s t with
  | nil => exact Option.Rel.some ⟨h, rfl⟩
  | cons i is ih =>
    have hi := hstep s t i h hok.head
    rw [List.map_cons]
    cases hs : step s i with
    | none =>
      rw [hs] at hi
      rw [exec_cons_none hs, exec_cons_none (eq_none_of_rel hi)]
      exact Option.Rel.none
    | some r =>
      obtain ⟨s₁, o₁⟩ := r
      rw [hs] at hi
      obtain ⟨⟨t₁, o₂⟩, ht, hR, ho⟩ := exists_of_rel_some hi
      rw [along_cons hs] at hok
      rw [exec_cons hs, exec_cons ht]
      refine rel_map (ih hR hok.2) ?_
      rintro r' q' ⟨hR', ho'⟩
      exact ⟨hR', by rw [List.filterMap_append, ho, ho']⟩

/-- **Two runs of related states.** When related states answer an input with equal outputs and go on
to related states, so do the runs on the same inputs. -/
theorem exec_rel {R : σ → σ → Prop} {P : ι → Prop}
    (hstep : ∀ s t i, R s t → P i →
      Option.Rel (fun r q => R r.1 q.1 ∧ r.2 = q.2) (step s i) (step t i))
    {t : σ} (h : R s t) (his : ∀ i ∈ is, P i) :
    Option.Rel (fun r q => R r.1 q.1 ∧ r.2 = q.2) (exec step s is) (exec step t is) := by
  have hok : Along step (fun _ i => P i) s is := along_of_forall his
  have hsim : ∀ s t i, R s t → P i →
      Option.Rel (fun r q => R r.1 q.1 ∧ r.2.filterMap some = q.2) (step s i) (step t (id i)) := by
    simpa only [List.filterMap_some, id] using hstep
  simpa only [List.map_id, List.filterMap_some] using exec_sim id some hsim h hok

/-- **Simulation.** When the legal steps from states that satisfy an invariant are, seen through
`view`, steps of another machine, a legal run is a run of that machine. -/
theorem exec_view {P : σ → Prop} (view : σ → τ) (f : ι → κ) (g : ο → Option π)
    (hP : ∀ s i s' out, P s → ok s i → step s i = some (s', out) → P s')
    (hstep : ∀ s i, P s → ok s i →
      (step s i).map (fun r => (view r.1, r.2.filterMap g)) = step' (view s) (f i))
    (h : P s) (hok : Along step ok s is) :
    (exec step s is).map (fun r => (view r.1, r.2.filterMap g)) =
      exec step' (view s) (is.map f) := by
  have hsim : ∀ s t i, (P s ∧ view s = t) → ok s i → Option.Rel
      (fun r q => (P r.1 ∧ view r.1 = q.1) ∧ r.2.filterMap g = q.2) (step s i) (step' t (f i)) := by
    rintro s t i ⟨hs, rfl⟩ hi
    rw [← hstep s i hs hi]
    cases hr : step s i with
    | none => exact Option.Rel.none
    | some r => exact Option.Rel.some ⟨⟨hP s i _ _ hs hi hr, rfl⟩, rfl⟩
  have hrel := exec_sim f g hsim ⟨h, rfl⟩ hok
  cases hs : exec step s is with
  | none =>
    rw [hs] at hrel
    exact (eq_none_of_rel hrel).symm
  | some r =>
    rw [hs] at hrel
    obtain ⟨q, hq, hR, ho⟩ := exists_of_rel_some hrel
    rw [hq, Option.map_some, hR.2, ho]

end Simulation

/-- The end of a legal run is reachable. -/
theorem Reach.of_exec {s₀ : σ} (hr : Reach step ok s₀ s) (hok : Along step ok s is)
    (h : exec step s is = some (s', out)) : Reach step ok s₀ s' := by
  refine exec_inv (P := Reach step ok s₀) ?_ hok hr h
  intro s i s' out hs hi hstep
  exact Reach.step hs hi hstep

/-! ### The same on every input

What may fail is done on every element of a list, and succeeds when it does on each. -/

section MapM

variable {α β : Type*} {f : α → Option β} {xs : List α} {ys : List β}

theorem mapM_eq_some_iff : xs.mapM f = some ys ↔ List.Forall₂ (fun x y => f x = some y) xs ys := by
  induction xs generalizing ys with
  | nil =>
    rw [List.forall₂_nil_left_iff, eq_comm]
    exact Option.some_inj
  | cons x xs ih =>
    rw [List.mapM_cons, List.forall₂_cons_left_iff]
    constructor
    · intro h
      obtain ⟨y, hy, h⟩ := Option.bind_eq_some_iff.mp h
      obtain ⟨ys', hys, h⟩ := Option.bind_eq_some_iff.mp h
      exact ⟨y, ys', hy, ih.mp hys, (Option.some.inj h).symm⟩
    · rintro ⟨y, ys', hy, hys, rfl⟩
      rw [hy, ih.mpr hys]
      rfl

lemma mem_of_mapM (h : xs.mapM f = some ys) : ∀ x ∈ xs, ∃ y ∈ ys, f x = some y := by
  have hall := mapM_eq_some_iff.mp h
  clear h
  induction hall with
  | nil => exact fun x hx => absurd hx List.not_mem_nil
  | cons hxy _ ih =>
    intro x hx
    rcases List.mem_cons.mp hx with rfl | hx
    · exact ⟨_, List.mem_cons_self, hxy⟩
    · obtain ⟨y, hy, hfx⟩ := ih x hx
      exact ⟨y, List.mem_cons_of_mem _ hy, hfx⟩

lemma mapM_eq_some_map {g : α → β} (h : ∀ x ∈ xs, f x = some (g x)) : xs.mapM f = some (xs.map g) := by
  rw [mapM_eq_some_iff, List.forall₂_map_right_iff]
  exact List.forall₂_same.mpr h

end MapM

end Protocoale.Lib.Run

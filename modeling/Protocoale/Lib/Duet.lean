import Mathlib.Tactic

/-!
Two deterministic processes and the queues between them. A process is a state and what it does next
in it: it sends a message, waits for one, has returned, or does something that has no meaning. A run is
a list of choices of the process that moves.

What one process does to the queues does not get in the way of the other (`diamond`). So if some run
ends where both processes have returned, every run is a beginning of one that ends there, after as many
steps (`run_final`): no run is longer, and none stops anywhere else (`eq_of_blocked`).
-/

namespace Protocoale.Lib.Duet

/-- What a process does next. -/
inductive Act (σ μ : Type*)
  /-- It has returned. -/
  | done
  /-- It sends a message. -/
  | send (m : μ) (s : σ)
  /-- It waits for a message. -/
  | recv (k : μ → σ)
  /-- What it does is not defined. -/
  | fault

inductive Side
  | left
  | right
  deriving DecidableEq

/-- The states of the two processes, and the messages on the way to each of them. -/
structure Sys (σ τ μ : Type*) where
  left : σ
  right : τ
  toRight : List μ
  toLeft : List μ

section Move

variable {σ μ : Type*} {a : Act σ μ} {inbox outbox : List μ} {r : σ × List μ × List μ}

/-- The state of a process after its next action, with the queue it reads from and the queue it
writes to. -/
def move : Act σ μ → List μ → List μ → Option (σ × List μ × List μ)
  | .send m s, inbox, outbox => some (s, inbox, outbox ++ [m])
  | .recv k, m :: inbox, outbox => some (k m, inbox, outbox)
  | _, _, _ => none

/-- An action takes messages off the front of one queue and puts messages at the end of the other,
whatever else is in the queues. -/
lemma move_eq_some (h : move a inbox outbox = some r) : ∃ taken put, inbox = taken ++ r.2.1 ∧
    r.2.2 = outbox ++ put ∧ ∀ i o, move a (taken ++ i) o = some (r.1, i, o ++ put) := by
  cases a with
  | send m s =>
    cases h
    exact ⟨[], [m], rfl, rfl, fun i o => rfl⟩
  | recv k =>
    cases inbox with
    | nil => cases h
    | cons m inbox =>
      cases h
      exact ⟨[m], [], rfl, by simp, fun i o => by simp [move]⟩
  | done => cases h
  | fault => cases h

end Move

variable {σ τ μ : Type*} (next : σ → Act σ μ) (next' : τ → Act τ μ)

/-- One process moves. -/
def step (s : Sys σ τ μ) : Side → Option (Sys σ τ μ)
  | .left => (move (next s.left) s.toLeft s.toRight).map fun r => ⟨r.1, s.right, r.2.2, r.2.1⟩
  | .right => (move (next' s.right) s.toRight s.toLeft).map fun r => ⟨s.left, r.1, r.2.1, r.2.2⟩

/-- The processes move in turns as chosen; a run is not defined when the one chosen cannot move. -/
def run (s : Sys σ τ μ) (sides : List Side) : Option (Sys σ τ μ) := sides.foldlM (step next next') s

/-- Both processes have returned. -/
def Final (s : Sys σ τ μ) : Prop := next s.left = .done ∧ next' s.right = .done

variable {next next'} {s s₁ s₂ f : Sys σ τ μ} {side : Side} {sides rest : List Side}

@[simp] lemma run_nil : run next next' s [] = some s := rfl

lemma run_cons : run next next' s (side :: sides) =
    (step next next' s side).bind fun t => run next next' t sides := List.foldlM_cons

lemma run_append (h : run next next' s sides = some s₁) :
    run next next' s (sides ++ rest) = run next next' s₁ rest := by
  unfold run at h ⊢
  rw [List.foldlM_append, h]
  rfl

lemma run_trans (h : run next next' s sides = some s₁) (h' : run next next' s₁ rest = some s₂) :
    run next next' s (sides ++ rest) = some s₂ := by
  rw [run_append h, h']

/-- A run, taken apart at its first step. -/
lemma run_cons_eq_some (h : run next next' s (side :: sides) = some s₂) :
    ∃ t, step next next' s side = some t ∧ run next next' t sides = some s₂ := by
  rw [run_cons] at h
  exact Option.bind_eq_some_iff.mp h

/-- What every step keeps holds where a run ends. -/
theorem run_inv {P : Sys σ τ μ → Prop}
    (hstep : ∀ s side t, P s → step next next' s side = some t → P t) (h₀ : P s)
    (h : run next next' s sides = some s₁) : P s₁ := by
  induction sides generalizing s with
  | nil => cases h; exact h₀
  | cons side sides ih =>
    obtain ⟨t, hs, hr⟩ := run_cons_eq_some h
    exact ih (hstep _ _ _ h₀ hs) hr

/-- What every action of a process keeps holds after it. -/
lemma move_inv {P : σ → Prop} (hsend : ∀ s m t, P s → next s = .send m t → P t)
    (hrecv : ∀ s k m, P s → next s = .recv k → P (k m)) {s : σ} (h₀ : P s) {inbox outbox : List μ}
    {r : σ × List μ × List μ} (h : move (next s) inbox outbox = some r) : P r.1 := by
  cases ha : next s with
  | send m t =>
    rw [ha] at h
    cases h
    exact hsend _ _ _ h₀ ha
  | recv k =>
    rw [ha] at h
    cases inbox with
    | nil => cases h
    | cons m inbox =>
      cases h
      exact hrecv _ _ _ h₀ ha
  | done => rw [ha] at h; cases h
  | fault => rw [ha] at h; cases h

/-- What every action of a process keeps holds of its state where a run ends. -/
theorem run_left_inv {P : σ → Prop} (hsend : ∀ s m t, P s → next s = .send m t → P t)
    (hrecv : ∀ s k m, P s → next s = .recv k → P (k m)) (h₀ : P s.left)
    (h : run next next' s sides = some s₁) : P s₁.left := by
  refine run_inv (P := fun s => P s.left) ?_ h₀ h
  intro s side t hs ht
  cases side with
  | left =>
    obtain ⟨r, hr, rfl⟩ := Option.map_eq_some_iff.mp ht
    exact move_inv hsend hrecv hs hr
  | right =>
    obtain ⟨r, -, rfl⟩ := Option.map_eq_some_iff.mp ht
    exact hs

theorem run_right_inv {P : τ → Prop} (hsend : ∀ s m t, P s → next' s = .send m t → P t)
    (hrecv : ∀ s k m, P s → next' s = .recv k → P (k m)) (h₀ : P s.right)
    (h : run next next' s sides = some s₁) : P s₁.right := by
  refine run_inv (P := fun s => P s.right) ?_ h₀ h
  intro s side t hs ht
  cases side with
  | left =>
    obtain ⟨r, -, rfl⟩ := Option.map_eq_some_iff.mp ht
    exact hs
  | right =>
    obtain ⟨r, hr, rfl⟩ := Option.map_eq_some_iff.mp ht
    exact move_inv hsend hrecv hs hr

/-- Nobody moves after both processes have returned. -/
lemma Final.step_eq_none (h : Final next next' s) (side : Side) : step next next' s side = none := by
  cases side with
  | left => simp [step, h.1, move]
  | right => simp [step, h.2, move]

/-- The two processes may move in either order. -/
theorem diamond (hl : step next next' s .left = some s₁) (hr : step next next' s .right = some s₂) :
    ∃ t, step next next' s₁ .right = some t ∧ step next next' s₂ .left = some t := by
  obtain ⟨⟨l, inl, outl⟩, hml, rfl⟩ := Option.map_eq_some_iff.mp hl
  obtain ⟨⟨r, inr, outr⟩, hmr, rfl⟩ := Option.map_eq_some_iff.mp hr
  obtain ⟨takenl, putl, hinl, houtl, hl'⟩ := move_eq_some hml
  obtain ⟨takenr, putr, hinr, houtr, hr'⟩ := move_eq_some hmr
  dsimp only at hinl houtl hinr houtr hl' hr'
  refine ⟨⟨l, r, inr ++ putl, inl ++ putr⟩, ?_, ?_⟩
  · simp only [step, houtl]
    rw [hinr, List.append_assoc, hr']
    rfl
  · simp only [step, houtr]
    rw [hinl, List.append_assoc, hl']
    rfl

lemma diamond_ne {side' : Side} (hne : side ≠ side') (h : step next next' s side = some s₁)
    (h' : step next next' s side' = some s₂) :
    ∃ t, step next next' s₁ side' = some t ∧ step next next' s₂ side = some t := by
  cases side with
  | left =>
    cases side' with
    | left => exact absurd rfl hne
    | right => exact diamond h h'
  | right =>
    cases side' with
    | left =>
      obtain ⟨t, h₁, h₂⟩ := diamond h' h
      exact ⟨t, h₂, h₁⟩
    | right => exact absurd rfl hne

/-- After a step the end is one step nearer. -/
lemma step_final (hf : Final next next' f) (h : run next next' s sides = some f)
    (hs : step next next' s side = some s₁) :
    ∃ rest, run next next' s₁ rest = some f ∧ rest.length + 1 = sides.length := by
  induction sides generalizing s s₁ with
  | nil =>
    cases h
    rw [hf.step_eq_none] at hs
    cases hs
  | cons side' sides ih =>
    obtain ⟨t, ht, hr⟩ := run_cons_eq_some h
    by_cases hside : side' = side
    · subst hside
      rw [hs] at ht
      cases ht
      exact ⟨sides, hr, rfl⟩
    · obtain ⟨u, hu, hu'⟩ := diamond_ne hside ht hs
      obtain ⟨rest, hrest, hlen⟩ := ih hr hu
      refine ⟨side' :: rest, ?_, by simp [hlen]⟩
      rw [run_cons, hu', Option.bind_some, hrest]

/-- **If one run ends where both processes have returned, every run goes on to the same end**, in as
many steps all together. -/
theorem run_final (hf : Final next next' f) (h : run next next' s sides = some f)
    {sides' : List Side} (h' : run next next' s sides' = some s₁) :
    ∃ rest, run next next' s₁ rest = some f ∧ sides'.length + rest.length = sides.length := by
  induction sides' generalizing s sides with
  | nil => cases h'; exact ⟨sides, h, by simp⟩
  | cons side sides' ih =>
    obtain ⟨t, ht, hr⟩ := run_cons_eq_some h'
    obtain ⟨rest, hrest, hlen⟩ := step_final hf h ht
    obtain ⟨rest', hrest', hlen'⟩ := ih hrest hr
    refine ⟨rest', hrest', ?_⟩
    rw [List.length_cons]
    omega

/-- A run that cannot go on has ended there. -/
theorem eq_of_blocked (hf : Final next next' f) (h : run next next' s sides = some f)
    {sides' : List Side} (h' : run next next' s sides' = some s₁)
    (hblocked : ∀ side, step next next' s₁ side = none) : s₁ = f := by
  obtain ⟨rest, hrest, -⟩ := run_final hf h h'
  cases rest with
  | nil => cases hrest; rfl
  | cons side rest => simp [run_cons, hblocked] at hrest

/-- One run cannot end in two places where both processes have returned. -/
lemma eq_of_final {f' : Sys σ τ μ} (hf : Final next next' f) (hf' : Final next next' f')
    (h : run next next' s sides = some f) (h' : run next next' s rest = some f') : f' = f :=
  eq_of_blocked hf h h' hf'.step_eq_none

/-! ### A process that does more

A process with more in its state than another, which sends, takes and ends as the other does. -/

section Map

variable {τ' : Type*} {g : τ' → τ} {nextMore : τ' → Act τ' μ} {S S' : Sys σ τ' μ} {a : Act τ' μ}
  {inbox outbox : List μ}

/-- The same action on other states. -/
def Act.map (g : τ' → τ) : Act τ' μ → Act τ μ
  | .done => .done
  | .send m t => .send m (g t)
  | .recv k => .recv fun m => g (k m)
  | .fault => .fault

/-- The same system with another right process. -/
def Sys.mapRight (g : τ' → τ) (S : Sys σ τ' μ) : Sys σ τ μ := ⟨S.left, g S.right, S.toRight, S.toLeft⟩

lemma Act.map_eq_done : a.map g = .done ↔ a = .done := by
  cases a <;> simp [Act.map]

lemma move_map : move (a.map g) inbox outbox =
    (move a inbox outbox).map fun r => (g r.1, r.2) := by
  cases a with
  | recv k =>
    cases inbox with
    | nil => rfl
    | cons m inbox => rfl
  | done => rfl
  | send m t => rfl
  | fault => rfl

lemma step_mapRight (hg : ∀ t, next' (g t) = (nextMore t).map g) :
    step next next' (S.mapRight g) side = (step next nextMore S side).map (Sys.mapRight g) := by
  cases side with
  | left =>
    simp only [step, Option.map_map]
    rfl
  | right =>
    simp only [step, Sys.mapRight, hg, move_map, Option.map_map]
    rfl

/-- A run of the system with more is a run of the other, and the other way round. -/
theorem run_mapRight (hg : ∀ t, next' (g t) = (nextMore t).map g) :
    run next next' (S.mapRight g) sides = (run next nextMore S sides).map (Sys.mapRight g) := by
  induction sides generalizing S with
  | nil => rfl
  | cons side sides ih =>
    rw [run_cons, run_cons, step_mapRight hg]
    cases step next nextMore S side with
    | none => rfl
    | some T => exact ih

lemma final_mapRight (hg : ∀ t, next' (g t) = (nextMore t).map g) :
    Final next next' (S.mapRight g) ↔ Final next nextMore S := by
  unfold Final Sys.mapRight
  rw [hg, Act.map_eq_done]

end Map

/-! ### A process behind a link that changes messages -/

section Noisy

variable {c : ℕ → μ → μ} {i : ℕ} {t u : τ} {m : μ} {k : μ → τ}

/-- A process that receives what `c` makes of the messages; it counts them. -/
def noisy (c : ℕ → μ → μ) (next' : τ → Act τ μ) (t : ℕ × τ) : Act (ℕ × τ) μ :=
  match next' t.2 with
  | .done => .done
  | .send m u => .send m (t.1, u)
  | .recv k => .recv fun m => (t.1 + 1, k (c t.1 m))
  | .fault => .fault

lemma noisy_send (h : next' t = .send m u) : noisy c next' (i, t) = .send m (i, u) := by
  rw [noisy, h]

lemma noisy_recv (h : next' t = .recv k) :
    noisy c next' (i, t) = .recv fun m => (i + 1, k (c i m)) := by
  rw [noisy, h]

lemma noisy_eq_done : noisy c next' (i, t) = .done ↔ next' t = .done := by
  unfold noisy
  cases next' t <;> simp

/-- A link that changes nothing. -/
lemma noisy_id (t : ℕ × τ) : next' t.2 = (noisy (fun _ m => m) next' t).map Prod.snd := by
  unfold noisy
  cases next' t.2 <;> rfl

end Noisy

/-! ### A process alone -/

section Alone

variable {P : σ → μ → Prop} {s t : σ} {m : μ} {n n' : ℕ}

/-- What it sends is right and leads on, or what it waits for leads on whatever it is, or it has
returned. -/
def Act.All (P : μ → Prop) (Q : σ → Prop) : Act σ μ → Prop
  | .done => True
  | .send m s => P m ∧ Q s
  | .recv k => ∀ m, Q (k m)
  | .fault => False

/-- Whatever it receives, a process returns after fewer than `n` actions, and each message it sends on
the way is right for the state it is sent in. -/
def ReturnsIn (next : σ → Act σ μ) (P : σ → μ → Prop) : ℕ → σ → Prop
  | 0, _ => False
  | n + 1, s => (next s).All (P s) (ReturnsIn next P n)

/-- It returns after a bounded number of actions. -/
def Returns (next : σ → Act σ μ) (P : σ → μ → Prop) (s : σ) : Prop := ∃ n, ReturnsIn next P n s

lemma not_returnsIn_zero : ¬ ReturnsIn next P 0 s := id

lemma returns_done (h : next s = .done) : Returns next P s := by
  refine ⟨1, ?_⟩
  rw [ReturnsIn, h]
  trivial

lemma not_returnsIn_fault (h : next s = .fault) : ¬ ReturnsIn next P n s := by
  cases n with
  | zero => exact not_returnsIn_zero
  | succ n =>
    rw [ReturnsIn, h]
    exact id

lemma returnsIn_send (h : next s = .send m t) :
    ReturnsIn next P (n + 1) s ↔ P s m ∧ ReturnsIn next P n t := by
  rw [ReturnsIn, h]
  rfl

/-- What it receives makes no difference. -/
lemma returnsIn_recv [Nonempty μ] (h : next s = .recv fun _ => t) :
    ReturnsIn next P (n + 1) s ↔ ReturnsIn next P n t := by
  rw [ReturnsIn, h]
  exact forall_const μ

lemma returns_send (h : next s = .send m t) : Returns next P s ↔ P s m ∧ Returns next P t := by
  refine ⟨?_, ?_⟩
  · rintro ⟨n, hn⟩
    cases n with
    | zero => exact absurd hn not_returnsIn_zero
    | succ n =>
      obtain ⟨hm, ht⟩ := (returnsIn_send h).mp hn
      exact ⟨hm, n, ht⟩
  · rintro ⟨hm, n, hn⟩
    exact ⟨n + 1, (returnsIn_send h).mpr ⟨hm, hn⟩⟩

lemma returns_recv [Nonempty μ] (h : next s = .recv fun _ => t) :
    Returns next P s ↔ Returns next P t := by
  refine ⟨?_, ?_⟩
  · rintro ⟨n, hn⟩
    cases n with
    | zero => exact absurd hn not_returnsIn_zero
    | succ n => exact ⟨n, (returnsIn_recv h).mp hn⟩
  · rintro ⟨n, hn⟩
    exact ⟨n + 1, (returnsIn_recv h).mpr hn⟩

end Alone

end Protocoale.Lib.Duet

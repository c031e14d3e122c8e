import Protocoale.Emulator.Waiting
import Protocoale.Lib.Duet

/-!
Two processes with the link emulator between them. The datagrams between a process and the emulator stay
in order and none is lost; the second process was started first, and the first one sends a datagram
before its messages, as the scripts and `init` of the laboratories have it.

When the link is set to lose nothing and its buffer is large enough for what the processes have on the
way, the emulator cannot be told from two queues: a run with it is a run of the two processes on queues,
where the second one receives what the link makes of the messages (`exists_sim`). When nothing moves any
more with the emulator, nothing moves there either (`Still.blocked`).
-/

namespace Protocoale.Emulator

open Lib Lib.Run Lib.Duet

structure Net (σ τ μ : Type*) where
  left : σ
  right : τ
  link : Link μ
  /-- the datagrams on the way to the emulator and from it to the processes -/
  toLink1 : List μ
  toLink2 : List μ
  toLeft : List μ
  toRight : List μ

inductive Move (μ : Type*)
  | left
  | right
  | link (e : Event μ)

variable {σ τ μ : Type*}

/-- The messages that reach the second process. -/
def Effect.reached2 : Effect μ → Option μ
  | .sendMessage2 true mif _ => some mif.m
  | _ => none

/-- The messages that reach the first process. -/
def Effect.reached1 : Effect μ → Option μ
  | .sendMessage1 true m => some m
  | _ => none

namespace Net

def start (left : σ) (right : τ) (hello : μ) : Net σ τ μ where
  left := left
  right := right
  link := { Link.start with linkUp2 := true }
  toLink1 := [hello]
  toLink2 := []
  toLeft := []
  toRight := []

/-- What `recvfrom` gives is the first datagram on the way. -/
def feed (n : Net σ τ μ) : Event μ → Option (Event μ × Net σ τ μ)
  | .receive1 _ =>
    match n.toLink1 with
    | [] => none
    | m :: toLink1 => some (.receive1 (some m), { n with toLink1 })
  | .receive2 _ =>
    match n.toLink2 with
    | [] => none
    | m :: toLink2 => some (.receive2 (some m), { n with toLink2 })
  | e => some (e, n)

/-- The link after an event, with what it has sent. -/
def deliver (n : Net σ τ μ) (link : Link μ) (out : List (Effect μ)) : Net σ τ μ :=
  { n with
    link
    toLeft := n.toLeft ++ out.filterMap Effect.reached1
    toRight := n.toRight ++ out.filterMap Effect.reached2 }

def step (cfg : Settings μ) (next : σ → Act σ μ) (next' : τ → Act τ μ) (n : Net σ τ μ) :
    Move μ → Option (Net σ τ μ × List (Effect μ))
  | .left => (move (next n.left) n.toLeft n.toLink1).map fun r =>
      ({ n with left := r.1, toLeft := r.2.1, toLink1 := r.2.2 }, [])
  | .right => (move (next' n.right) n.toRight n.toLink2).map fun r =>
      ({ n with right := r.1, toRight := r.2.1, toLink2 := r.2.2 }, [])
  | .link e => (n.feed e).bind fun r => (Link.step cfg r.2.link r.1).map fun q =>
      (r.2.deliver q.1 q.2, q.2)

/-- The moves of the processes. -/
def sides (moves : List (Move μ)) : List Side := moves.filterMap fun
  | .left => some .left
  | .right => some .right
  | .link _ => none

/-- Nothing moves any more, except that `pthread_cond_wait` may return without a signal. -/
def Still (cfg : Settings μ) (next : σ → Act σ μ) (next' : τ → Act τ μ) (n : Net σ τ μ) : Prop :=
  n.link.ended = false ∧ n.link.scheduler ≠ .wait true ∧
    ∀ mv, mv ≠ .link .wake → step cfg next next' n mv = none

end Net

variable {cfg : Settings μ} {s s' : Link μ} {e : Event μ} {out acc : List (Effect μ)} {m : μ}

/-! ### What the link does to the second process's messages -/

namespace Link

/-- What an event does to the messages of the second process. -/
lemma step_back (hup : s.linkUp2 = true) (h : step cfg s e = some (s', out)) : s'.linkUp2 = true ∧
    ((∃ m, e = .receive2 (some m) ∧ s.reverse = none ∧ s'.reverse = some m ∧ out = []) ∨
      (∃ m, e = .forward1 ∧ s.reverse = some m ∧ s'.reverse = none ∧
        out = [.sendMessage1 s.linkUp1 m]) ∨
      (∀ m, e ≠ .receive2 (some m)) ∧ s'.reverse = s.reverse ∧
        out.filterMap Effect.reached1 = []) := by
  obtain ⟨-, h⟩ := step_does h
  cases e with
  | receive1 o =>
    obtain ⟨-, h⟩ := h
    cases o with
    | none =>
      cases h
      exact ⟨hup, .inr (.inr ⟨by simp, rfl, rfl⟩)⟩
    | some m =>
      simp only [receiveMessage1] at h
      split at h <;> cases h <;> exact ⟨hup, .inr (.inr ⟨by simp, rfl, rfl⟩)⟩
  | check roll roll' r r' =>
    obtain ⟨m, -, h⟩ := h
    unfold checkSpace at h
    split at h
    · cases h
      exact ⟨hup, .inr (.inr ⟨by simp, rfl, rfl⟩)⟩
    · split at h
      · split at h <;> cases h <;> exact ⟨hup, .inr (.inr ⟨by simp, rfl, rfl⟩)⟩
      · cases h
        exact ⟨hup, .inr (.inr ⟨by simp, rfl, rfl⟩)⟩
  | put =>
    obtain ⟨m, -, rfl, rfl⟩ := h
    exact ⟨hup, .inr (.inr ⟨by simp, rfl, rfl⟩)⟩
  | receive2 o =>
    obtain ⟨hnone, h⟩ := h
    cases o with
    | none =>
      cases h
      exact ⟨hup, .inr (.inr ⟨by simp, rfl, rfl⟩)⟩
    | some m =>
      simp only [receiveMessage2, if_pos hup] at h
      cases h
      exact ⟨hup, .inl ⟨m, rfl, hnone, rfl, rfl⟩⟩
  | forward1 =>
    obtain ⟨m, hm, rfl, rfl⟩ := h
    exact ⟨hup, .inr (.inl ⟨m, rfl, hm, rfl, rfl⟩)⟩
  | now t =>
    obtain ⟨-, h⟩ := h
    cases h
    refine ⟨hup, .inr (.inr ⟨by simp, rfl, ?_⟩)⟩
    rw [List.filterMap_map]
    exact List.filterMap_eq_nil_iff.mpr fun _ _ => rfl
  | look =>
    obtain ⟨t, -, rfl, rfl⟩ := h
    unfold look
    split <;> exact ⟨hup, .inr (.inr ⟨by simp, rfl, rfl⟩)⟩
  | take =>
    obtain ⟨t, -, h⟩ := h
    unfold take at h
    split at h <;> cases h <;> exact ⟨hup, .inr (.inr ⟨by simp, rfl, rfl⟩)⟩
  | park =>
    obtain ⟨-, h⟩ := h
    unfold park at h
    split at h <;> cases h <;> exact ⟨hup, .inr (.inr ⟨by simp, rfl, rfl⟩)⟩
  | wake =>
    obtain ⟨signalled, -, rfl, rfl⟩ := h
    exact ⟨hup, .inr (.inr ⟨by simp, rfl, rfl⟩)⟩

/-- What is sent to the second process reaches it. -/
lemma reached2_of_up (hup : s.linkUp2 = true) (h : step cfg s e = some (s', out)) :
    out.filterMap Effect.reached2 = forwarded out := by
  obtain ⟨-, h⟩ := step_does h
  cases e with
  | receive1 | check | receive2 | forward1 =>
    refine List.filterMap_congr fun x hx => ?_
    rcases (same_of_outside rfl h).effects x hx with rfl | rfl | rfl | ⟨up, m, rfl⟩ <;> rfl
  | now t =>
    obtain ⟨-, h⟩ := h
    cases h
    unfold forwarded
    rw [List.filterMap_map, List.filterMap_map]
    refine List.filterMap_congr fun mif _ => ?_
    simp [Effect.reached2, Effect.forwarded, hup]
  | put | look | wake =>
    obtain ⟨x, -, -, rfl⟩ := h
    rfl
  | take =>
    obtain ⟨t, -, h⟩ := h
    unfold take at h
    split at h <;> cases h <;> rfl
  | park =>
    obtain ⟨-, h⟩ := h
    unfold park at h
    split at h <;> cases h <;> rfl

/-- How the emulator ends. -/
lemma step_ended (h : step cfg s e = some (s', out)) (hend : s'.ended = true) :
    .abort ∈ out ∨ e = .receive1 none ∨ e = .receive2 none ∨
      0 < cfg.corrupt ∧ ∃ m r r', s.forwarding.unchecked = [m] ∧ cfg.damage m r r' = none := by
  obtain ⟨hrun, h⟩ := step_does h
  have hno : ∀ {s' : Link μ}, s'.ended = s.ended → s'.ended ≠ true := by
    intro s' hsame
    rw [hsame, hrun]
    exact Bool.false_ne_true
  cases e with
  | receive1 o =>
    obtain ⟨-, h⟩ := h
    cases o with
    | none => exact .inr (.inl rfl)
    | some m =>
      simp only [receiveMessage1] at h
      split at h <;> cases h <;> exact absurd hend (hno rfl)
  | check roll roll' r r' =>
    obtain ⟨m, hm, h⟩ := h
    unfold checkSpace at h
    split at h
    · cases h
      exact absurd hend (hno rfl)
    · split at h
      · next hroll =>
        split at h
        · cases h
          exact absurd hend (hno rfl)
        · next hnone =>
          have hpos : 0 < cfg.corrupt := (Int.natCast_nonneg _).trans_lt hroll
          exact .inr (.inr (.inr ⟨hpos, m, r, r', by rw [hm]; rfl, hnone⟩))
      · cases h
        exact absurd hend (hno rfl)
  | receive2 o =>
    obtain ⟨-, h⟩ := h
    cases o with
    | none => exact .inr (.inr (.inl rfl))
    | some m =>
      simp only [receiveMessage2] at h
      split at h <;> cases h <;> exact absurd hend (hno rfl)
  | put | forward1 | wake =>
    obtain ⟨x, -, rfl, -⟩ := h
    exact absurd hend (hno rfl)
  | now t =>
    obtain ⟨-, h⟩ := h
    cases h
    exact absurd hend (hno rfl)
  | look =>
    obtain ⟨t, -, rfl, -⟩ := h
    refine absurd hend (hno ?_)
    unfold look
    split <;> rfl
  | take =>
    obtain ⟨t, -, h⟩ := h
    unfold take at h
    split at h <;> cases h
    · exact .inl (by simp)
    · exact absurd hend (hno rfl)
  | park =>
    obtain ⟨-, h⟩ := h
    unfold park at h
    split at h <;> cases h
    · exact absurd hend (hno rfl)
    · exact .inl (by simp)

end Link

/-! ### The system without the emulator -/

namespace Net

variable {next : σ → Act σ μ} {next' : τ → Act τ μ} {n n' : Net σ τ μ} {l₀ : σ} {r₀ : τ} {hello : μ}
  {moves : List (Move μ)} {mv : Move μ} {ks : List (μ × μ)} {x : μ × μ} {c : ℕ → μ → μ} {i : ℕ}
  {P : μ → Prop}

/-- The datagrams on the way to the emulator, without the first one. -/
def pending (n : Net σ τ μ) : List μ := if n.link.linkUp1 then n.toLink1 else n.toLink1.tail

/-- The processes on two queues. Of the messages `ks` that the link has put into its buffer, `i` have been
received, and the others are still on the way, as they were sent. -/
def view (n : Net σ τ μ) (ks : List (μ × μ)) (i : ℕ) : Sys σ (ℕ × τ) μ where
  left := n.left
  right := (i, n.right)
  toRight := (ks.drop i).map Prod.fst ++ n.link.forwarding.unchecked ++ n.pending
  toLeft := n.toLeft ++ n.link.reverse.toList ++ n.toLink2

/-- `c` makes of the messages what the link has made of them. -/
def Compatible (c : ℕ → μ → μ) (ks : List (μ × μ)) : Prop := ∀ j x, ks[j]? = some x → c j x.1 = x.2

lemma Compatible.of_append {ls : List (μ × μ)} (h : Compatible c (ks ++ ls)) : Compatible c ks := by
  intro j x hx
  refine h j x ?_
  obtain ⟨hj, -⟩ := List.getElem?_eq_some_iff.mp hx
  rw [List.getElem?_append_left hj, hx]

lemma exists_compatible (ks : List (μ × μ)) : ∃ c, Compatible c ks := by
  refine ⟨fun j m => (ks[j]?.map Prod.snd).getD m, ?_⟩
  intro j x hx
  simp [hx]

/-- Where the first datagram has not been received, only the first process has moved. Its messages
satisfy `P`. -/
structure Sim (P : μ → Prop) (cfg : Settings μ) (next : σ → Act σ μ) (next' : τ → Act τ μ) (l₀ : σ)
    (r₀ : τ) (moves : List (Move μ)) (n : Net σ τ μ) (out : List (Effect μ)) (ks : List (μ × μ))
    (i : ℕ) : Prop where
  run : ∀ c, Compatible c ks →
    Duet.run next (noisy c next') ⟨l₀, (0, r₀), [], []⟩ (sides moves) = some (n.view ks i)
  le : i ≤ ks.length
  line : n.toRight ++ n.link.carried = (ks.drop i).map Prod.snd
  sent : ks.map Prod.snd = forwarded out ++ n.link.carried
  passes : ∀ x ∈ ks, cfg.Passes x.1 x.2
  source : ∀ m ∈ ks.map Prod.fst ++ (n.link.forwarding.unchecked ++ n.pending), P m
  up : n.link.linkUp2 = true
  down : n.link.linkUp1 = false → n.toLink1 ≠ [] ∧ n.right = r₀ ∧ n.toLink2 = [] ∧
    n.link.reverse = none ∧ n.link.forwarding.unchecked = [] ∧ ks = []

lemma sides_append {moves' : List (Move μ)} : sides (moves ++ moves') = sides moves ++ sides moves' :=
  List.filterMap_append

lemma sim_start : Sim P cfg next next' l₀ r₀ [] (start l₀ r₀ hello) [] [] 0 := by
  refine ⟨fun c _ => rfl, le_rfl, rfl, rfl, by simp, ?_, rfl, ?_⟩
  · simp [start, Link.start, Forwarding.unchecked, pending]
  · intro _
    exact ⟨by simp [start], rfl, rfl, rfl, rfl, rfl⟩

/-- What the first process sends is the last thing on the way to the emulator. -/
lemma pending_snoc (hne : n.link.linkUp1 = false → n.toLink1 ≠ []) {l : σ} {toLeft put : List μ} :
    pending { n with left := l, toLeft, toLink1 := n.toLink1 ++ put } = n.pending ++ put := by
  unfold pending
  dsimp only
  split
  · rfl
  · next hdown => exact List.tail_append_of_ne_nil (hne (by simpa using hdown))

/-- A move of the first process is one without the emulator. -/
lemma Sim.left (hP : ∀ l m u, next l = .send m u → P m)
    (hs : Sim P cfg next next' l₀ r₀ moves n acc ks i)
    (h : step cfg next next' n .left = some (n', out)) :
    Sim P cfg next next' l₀ r₀ (moves ++ [.left]) n' (acc ++ out) ks i := by
  obtain ⟨r, hr, he⟩ := Option.map_eq_some_iff.mp h
  cases he
  obtain ⟨taken, put, hin, hout, hmove⟩ := move_eq_some hr
  have hput : ∀ m ∈ put, P m := by
    cases hact : next n.left with
    | done => rw [hact] at hr; cases hr
    | fault => rw [hact] at hr; cases hr
    | send m u =>
      rw [hact] at hr
      cases hr
      rw [← List.append_cancel_left hout]
      simpa using hP _ m u hact
    | recv k =>
      rw [hact] at hr hmove
      cases hto : n.toLeft with
      | nil => rw [hto] at hr; cases hr
      | cons m rest =>
        rw [hto] at hr
        cases hr
        rw [List.append_right_eq_self.mp hout.symm]
        simp
  have hpending : pending { n with left := r.1, toLeft := r.2.1, toLink1 := r.2.2 } =
      n.pending ++ put := by
    rw [hout]
    exact pending_snoc fun hdown => (hs.down hdown).1
  refine ⟨?_, hs.le, hs.line, by rw [List.append_nil]; exact hs.sent, hs.passes, ?_, hs.up, ?_⟩
  · intro c hc
    rw [sides_append]
    refine run_trans (hs.run c hc) ?_
    have hleft : Duet.step next (noisy c next') (n.view ks i) .left =
        some (view { n with left := r.1, toLeft := r.2.1, toLink1 := r.2.2 } ks i) := by
      have hm := hmove (r.2.1 ++ n.link.reverse.toList ++ n.toLink2)
        ((ks.drop i).map Prod.fst ++ n.link.forwarding.unchecked ++ n.pending)
      simp only [Duet.step, view, hin, hpending, List.append_assoc] at hm ⊢
      rw [hm]
      rfl
    rw [show sides [Move.left (μ := μ)] = [.left] from rfl, run_cons, hleft]
    rfl
  · intro m hm
    rw [hpending, ← List.append_assoc, ← List.append_assoc, List.mem_append, List.append_assoc] at hm
    exact hm.elim (hs.source m) (hput m)
  · intro hdown
    obtain ⟨hne, hrest⟩ := hs.down hdown
    refine ⟨?_, hrest⟩
    rw [hout]
    simp [hne]

/-- A move of the second process is one without the emulator, on the message as it was sent. -/
lemma Sim.right (hfirst : ∃ k, next' r₀ = .recv k) (hs : Sim P cfg next next' l₀ r₀ moves n acc ks i)
    (h : step cfg next next' n .right = some (n', out)) :
    ∃ i', Sim P cfg next next' l₀ r₀ (moves ++ [.right]) n' (acc ++ out) ks i' := by
  obtain ⟨r, hr, he⟩ := Option.map_eq_some_iff.mp h
  cases he
  have hup : n.link.linkUp1 = true := by
    -- before the first datagram is received there is nothing to receive
    by_contra hdown
    obtain ⟨-, hright, -, -, -, hks⟩ := hs.down (by simpa using hdown)
    obtain ⟨k, hk⟩ := hfirst
    have hline := hs.line
    rw [hks, List.drop_nil, List.map_nil] at hline
    rw [hright, hk, (List.append_eq_nil_iff.mp hline).1] at hr
    cases hr
  cases hact : next' n.right with
  | done => rw [hact] at hr; cases hr
  | fault => rw [hact] at hr; cases hr
  | send m u =>
    rw [hact] at hr
    cases hr
    refine ⟨i, ?_, hs.le, hs.line, by rw [List.append_nil]; exact hs.sent, hs.passes, hs.source,
      hs.up, ?_⟩
    · intro c hc
      rw [sides_append]
      refine run_trans (hs.run c hc) ?_
      rw [show sides [Move.right (μ := μ)] = [.right] from rfl, run_cons]
      simp [Duet.step, view, noisy_send hact, move, pending]
    · intro hdown
      rw [hup] at hdown
      cases hdown
  | recv k =>
    rw [hact] at hr
    cases htoRight : n.toRight with
    | nil => rw [htoRight] at hr; cases hr
    | cons d toRight =>
      rw [htoRight] at hr
      cases hr
      have hline := hs.line
      rw [htoRight, List.cons_append] at hline
      cases hdrop : ks.drop i with
      | nil => rw [hdrop] at hline; cases hline
      | cons x rest =>
        rw [hdrop, List.map_cons] at hline
        obtain ⟨hd, hrest⟩ := List.cons.inj hline
        have hi : i < ks.length := by
          by_contra hle
          rw [List.drop_eq_nil_of_le (not_lt.mp hle)] at hdrop
          cases hdrop
        have hget : ks[i]? = some x := by
          rw [← List.head?_drop, hdrop]
          rfl
        have hnext : ks.drop (i + 1) = rest := by
          rw [← List.tail_drop, hdrop]
          rfl
        refine ⟨i + 1, ?_, hi, by rw [hnext]; exact hrest, by rw [List.append_nil]; exact hs.sent,
          hs.passes, hs.source, hs.up, ?_⟩
        · intro c hc
          rw [sides_append]
          refine run_trans (hs.run c hc) ?_
          rw [show sides [Move.right (μ := μ)] = [.right] from rfl, run_cons]
          simp [Duet.step, view, noisy_recv hact, move, pending, hdrop, hnext, hc i x hget, hd]
        · intro hdown
          rw [hup] at hdown
          cases hdown

/-- What an event takes from the datagrams on the way. -/
structure Feeds (n : Net σ τ μ) (e : Event μ) (n' : Net σ τ μ) : Prop where
  same : n'.left = n.left ∧ n'.right = n.right ∧ n'.link = n.link ∧ n'.toLeft = n.toLeft ∧
    n'.toRight = n.toRight
  read : e ≠ .receive1 none ∧ e ≠ .receive2 none
  toLink1 : e.datagram1 = none ∧ n'.toLink1 = n.toLink1 ∨
    ∃ m, e = .receive1 (some m) ∧ n.toLink1 = m :: n'.toLink1
  toLink2 : (∀ m, e ≠ .receive2 (some m)) ∧ n'.toLink2 = n.toLink2 ∨
    ∃ m, e = .receive2 (some m) ∧ n.toLink2 = m :: n'.toLink2

lemma feeds_of_feed {e' : Event μ} (h : n.feed e = some (e', n')) : Feeds n e' n' := by
  cases e with
  | receive1 o =>
    simp only [feed] at h
    split at h
    · cases h
    · next m toLink1 hm =>
      cases h
      exact ⟨⟨rfl, rfl, rfl, rfl, rfl⟩, by simp, .inr ⟨m, rfl, hm⟩, .inl ⟨by simp, rfl⟩⟩
  | receive2 o =>
    simp only [feed] at h
    split at h
    · cases h
    · next m toLink2 hm =>
      cases h
      exact ⟨⟨rfl, rfl, rfl, rfl, rfl⟩, by simp, .inl ⟨rfl, rfl⟩, .inr ⟨m, rfl, hm⟩⟩
  | _ =>
    cases h
    exact ⟨⟨rfl, rfl, rfl, rfl, rfl⟩, by simp, .inl ⟨rfl, rfl⟩, .inl ⟨by simp, rfl⟩⟩

/-- The messages of the second process move on towards the first one. -/
lemma toLeft_link (hup : n.link.linkUp2 = true)
    (hdown : n.link.linkUp1 = false → n.link.reverse = none) (hf : Feeds n e n')
    (h : Link.step cfg n.link e = some (s', out)) :
    n'.toLeft ++ out.filterMap Effect.reached1 ++ s'.reverse.toList ++ n'.toLink2 =
      n.toLeft ++ n.link.reverse.toList ++ n.toLink2 := by
  obtain ⟨-, -, -, htoLeft, -⟩ := hf.same
  rcases (Link.step_back hup h).2 with ⟨m, rfl, hnone, hsome, rfl⟩ | ⟨m, rfl, hsome, hnone, rfl⟩ |
    ⟨hne, hsame, hout⟩
  · obtain ⟨m', hm', hcons⟩ := hf.toLink2.resolve_left fun hno => hno.1 m rfl
    cases hm'
    simp [htoLeft, hnone, hsome, hcons]
  · have hup1 : n.link.linkUp1 = true := by
      by_contra hno
      rw [hdown (by simpa using hno)] at hsome
      cases hsome
    obtain ⟨-, hsame⟩ := hf.toLink2.resolve_right fun ⟨m', hm', _⟩ => by cases hm'
    simp [htoLeft, hnone, hsome, hsame, hup1, Effect.reached1]
  · obtain ⟨-, hlink2⟩ := hf.toLink2.resolve_right fun ⟨m', hm', _⟩ => hne m' hm'
    simp [htoLeft, hsame, hout, hlink2]

/-- The messages of the first process move on towards the second one, when none is dropped. -/
lemma toRight_link (hs : Sim P cfg next next' l₀ r₀ moves n acc ks i) (hf : Feeds n e n')
    (hflow : Flow cfg n.link e s' out)
    (hkeep : n.link.forwarding.unchecked ≠ [] → ¬ (BUFFER_SIZE ≤ n.link.buffer.length ∨ 0 < cfg.loss)) :
    ∃ ls : List (μ × μ), (∀ x ∈ ls, cfg.Passes x.1 x.2 ∧ n.link.forwarding.unchecked ≠ []) ∧
      ls.map Prod.fst ++ s'.forwarding.unchecked ++ (n'.deliver s' out).pending =
        n.link.forwarding.unchecked ++ n.pending ∧
      forwarded out ++ s'.carried = n.link.carried ++ ls.map Prod.snd ∧
      (s'.linkUp1 = false → n.link.linkUp1 = false ∧ n'.toLink1 = n.toLink1 ∧
        s'.forwarding.unchecked = [] ∧ ls = []) := by
  unfold pending deliver
  cases hflow with
  | linkUp m he hdown hup hun hcar hout =>
    obtain ⟨m', hm', hcons⟩ := hf.toLink1.resolve_left fun hno => by
      rw [he] at hno
      cases hno.1
    refine ⟨[], by simp, by simp [hun, hdown, hup, hcons], by simp [hcar, hout, forwarded], ?_⟩
    intro hno
    rw [hup] at hno
    cases hno
  | received m he hup hup' hun hun' hcar hout =>
    obtain ⟨m', hm', hcons⟩ := hf.toLink1.resolve_left fun hno => by
      rw [he] at hno
      cases hno.1
    rw [he] at hm'
    cases hm'
    refine ⟨[], by simp, by simp [hun, hun', hup, hup', hcons], by simp [hcar, hout, forwarded], ?_⟩
    intro hno
    rw [hup'] at hno
    cases hno
  | kept m m' he hup hun hun' hcar hpass hout =>
    have hno : ¬ ∃ m, e = .receive1 (some m) ∧ n.toLink1 = m :: n'.toLink1 := by
      rintro ⟨m', hm', -⟩
      rw [hm'] at he
      cases he
    obtain ⟨-, hsame⟩ := hf.toLink1.resolve_right hno
    refine ⟨[(m, m')], ?_, by simp [hun, hun', hup, hsame], by simp [hcar, hout, forwarded], ?_⟩
    · intro x hx
      rw [List.mem_singleton.mp hx, hun]
      exact ⟨hpass, by simp⟩
    · intro hno
      rw [hup] at hno
      have := (hs.down hno).2.2.2.2.1
      rw [hun] at this
      cases this
  | dropped m he hup hun hun' hcar hout hwhy => exact absurd hwhy (hkeep (by simp [hun]))
  | moved he hup hun hcar hdrop =>
    have hno : ¬ ∃ m, e = .receive1 (some m) ∧ n.toLink1 = m :: n'.toLink1 := by
      rintro ⟨m', hm', -⟩
      rw [hm'] at he
      cases he
    obtain ⟨-, hsame⟩ := hf.toLink1.resolve_right hno
    refine ⟨[], by simp, by simp [hun, hup, hsame], by simp [hcar], ?_⟩
    intro hno
    rw [hup] at hno
    exact ⟨hno, hsame, hun.trans (hs.down hno).2.2.2.2.1, rfl⟩

/-- A move of the emulator is not seen. -/
lemma Sim.link (hs : Sim P cfg next next' l₀ r₀ moves n acc ks i)
    (hkeep : n.link.forwarding.unchecked ≠ [] → ¬ (BUFFER_SIZE ≤ n.link.buffer.length ∨ 0 < cfg.loss))
    (h : step cfg next next' n (.link e) = some (n', out)) :
    ∃ ls, Sim P cfg next next' l₀ r₀ (moves ++ [.link e]) n' (acc ++ out) (ks ++ ls) i := by
  obtain ⟨⟨e', n₁⟩, hfeed, h⟩ := Option.bind_eq_some_iff.mp h
  obtain ⟨⟨s', o⟩, hstep, he⟩ := Option.map_eq_some_iff.mp h
  cases he
  have hf := feeds_of_feed hfeed
  obtain ⟨hleft, hright, hlink, htoLeft, htoRight⟩ := hf.same
  dsimp only at hstep
  rw [hlink] at hstep
  have hreach := Link.reached2_of_up hs.up hstep
  have hback := toLeft_link hs.up (fun hno => (hs.down hno).2.2.2.1) hf hstep
  obtain ⟨ls, hpass, hun, hcar, hdown⟩ := toRight_link hs hf (Link.step_flow hstep) hkeep
  refine ⟨ls, ?_, ?_, ?_, ?_, ?_, ?_, (Link.step_back hs.up hstep).1, ?_⟩
  · intro c hc
    have hview : view (n₁.deliver s' o) (ks ++ ls) i = n.view ks i := by
      have hright' : ((ks ++ ls).drop i).map Prod.fst ++ s'.forwarding.unchecked ++
          (n₁.deliver s' o).pending =
            (ks.drop i).map Prod.fst ++ n.link.forwarding.unchecked ++ n.pending := by
        rw [List.drop_append_of_le_length hs.le, List.map_append]
        simp only [List.append_assoc] at hun ⊢
        rw [hun]
      unfold view
      rw [← hright', ← hback, ← hleft, ← hright]
      rfl
    rw [sides_append, show sides [Move.link e] = [] from rfl, List.append_nil, hs.run c hc.of_append,
      ← hview]
  · rw [List.length_append]
    exact hs.le.trans (Nat.le_add_right _ _)
  · show n₁.toRight ++ o.filterMap Effect.reached2 ++ s'.carried = _
    rw [htoRight, hreach, List.append_assoc, hcar, List.drop_append_of_le_length hs.le, List.map_append,
      ← hs.line, List.append_assoc]
  · show _ = forwarded (acc ++ o) ++ s'.carried
    rw [forwarded_append, List.append_assoc, hcar, List.map_append, hs.sent, List.append_assoc]
  · intro x hx
    rcases List.mem_append.mp hx with hx | hx
    · exact hs.passes x hx
    · exact (hpass x hx).1
  · intro m hm
    refine hs.source m ?_
    rw [List.map_append, List.append_assoc, ← List.append_assoc (ls.map Prod.fst)] at hm
    exact hun ▸ hm
  · intro hno
    obtain ⟨hold, hlink1, hun', rfl⟩ := hdown hno
    obtain ⟨hne, hr, hlink2, hrev, -, hks⟩ := hs.down hold
    have hback' : n₁.toLink2 = [] := by
      rcases hf.toLink2 with ⟨-, hsame⟩ | ⟨m, -, hcons⟩
      · rw [hsame, hlink2]
      · rw [hlink2] at hcons
        cases hcons
    have hrev' : s'.reverse = none := by
      rcases (Link.step_back hs.up hstep).2 with ⟨m, rfl, -, -, -⟩ | ⟨m, -, hsome, -, -⟩ | ⟨-, hsame, -⟩
      · rcases hf.toLink2 with ⟨hno', -⟩ | ⟨m', -, hcons⟩
        · exact absurd rfl (hno' m)
        · rw [hlink2] at hcons
          cases hcons
      · rw [hrev] at hsome
        cases hsome
      · rw [hsame, hrev]
    exact ⟨by rw [deliver]; simpa [hlink1] using hne, hright.trans hr, hback', hrev', hun', by simp [hks]⟩

/-! ### Runs -/

/-- What `c` makes of the messages is within the settings. -/
def Damages (cfg : Settings μ) (c : ℕ → μ → μ) : Prop := cfg.corrupt ≤ 0 → c = fun _ m => m

lemma Sim.exists_damages (hs : Sim P cfg next next' l₀ r₀ moves n acc ks i) :
    ∃ c, Damages cfg c ∧ Compatible c ks := by
  by_cases hcorrupt : cfg.corrupt ≤ 0
  · refine ⟨fun _ m => m, fun _ => rfl, ?_⟩
    intro j x hx
    rcases hs.passes x (List.mem_of_getElem? hx) with heq | ⟨hpos, -⟩
    · exact heq.symm
    · omega
  · obtain ⟨c, hc⟩ := exists_compatible ks
    exact ⟨c, fun hle => absurd hle hcorrupt, hc⟩

section Run

variable (hP : ∀ l m u, next l = .send m u → P m) (hloss : cfg.loss ≤ 0)
  (hfirst : ∃ k, next' r₀ = .recv k)
  (hroom : ∀ c, Damages cfg c → ∀ sides S,
    Duet.run next (noisy c next') ⟨l₀, (0, r₀), [], []⟩ sides = some S → S.toRight.length ≤ BUFFER_SIZE)

include hloss hroom in
/-- There is room in the buffer for a message that is looked at: it is on its way, beside those in the
buffer. -/
lemma Sim.keeps (hs : Sim P cfg next next' l₀ r₀ moves n acc ks i)
    (hun : n.link.forwarding.unchecked ≠ []) :
    ¬ (BUFFER_SIZE ≤ n.link.buffer.length ∨ 0 < cfg.loss) := by
  obtain ⟨c, hdam, hc⟩ := hs.exists_damages
  have hle := hroom c hdam _ _ (hs.run c hc)
  have hline := congrArg List.length hs.line
  have hpos := List.length_pos_iff.mpr hun
  simp only [view, Link.carried, List.length_append, List.length_map] at hle hline
  rintro (hfull | hpos')
  · omega
  · omega

include hP hloss hfirst hroom in
/-- **The emulator is two queues.** Every run with the emulator is a run of the two processes on queues,
where the second one receives what the link has made of the messages. -/
theorem exists_sim (h : exec (step cfg next next') (start l₀ r₀ hello) moves = some (n, out)) :
    ∃ ks i, Sim P cfg next next' l₀ r₀ moves n out ks i := by
  refine exec_inputs (P := fun moves n out => ∃ ks i, Sim P cfg next next' l₀ r₀ moves n out ks i) ?_
    ⟨[], 0, sim_start⟩ h
  rintro moves acc n mv n' out ⟨ks, i, hs⟩ hstep
  cases mv with
  | left => exact ⟨ks, i, hs.left hP hstep⟩
  | right => exact ⟨ks, hs.right hfirst hstep⟩
  | link e =>
    obtain ⟨ls, hs'⟩ := hs.link (hs.keeps hloss hroom) hstep
    exact ⟨ks ++ ls, i, hs'⟩

include hP hloss hfirst hroom in
/-- The emulator ends only when an assertion fails. -/
theorem abort_of_ended (hdamage : 0 < cfg.corrupt → ∀ m, P m → ∀ r r', cfg.damage m r r' ≠ none)
    (h : exec (step cfg next next') (start l₀ r₀ hello) moves = some (n, out))
    (hend : n.link.ended = true) : .abort ∈ out := by
  refine (exec_inputs (P := fun moves n out => (∃ ks i, Sim P cfg next next' l₀ r₀ moves n out ks i) ∧
    (n.link.ended = true → .abort ∈ out)) ?_ ⟨⟨[], 0, sim_start⟩, fun hno => by cases hno⟩ h).2 hend
  rintro moves acc n mv n' out ⟨⟨ks, i, hs⟩, hold⟩ hstep
  cases mv with
  | left =>
    refine ⟨⟨ks, i, hs.left hP hstep⟩, ?_⟩
    obtain ⟨r, -, he⟩ := Option.map_eq_some_iff.mp hstep
    cases he
    simpa using hold
  | right =>
    refine ⟨⟨ks, hs.right hfirst hstep⟩, ?_⟩
    obtain ⟨r, -, he⟩ := Option.map_eq_some_iff.mp hstep
    cases he
    simpa using hold
  | link e =>
    obtain ⟨ls, hs'⟩ := hs.link (hs.keeps hloss hroom) hstep
    refine ⟨⟨ks ++ ls, i, hs'⟩, ?_⟩
    intro hend
    obtain ⟨⟨e', n₁⟩, hfeed, hlink⟩ := Option.bind_eq_some_iff.mp hstep
    obtain ⟨⟨s', o⟩, hact, he⟩ := Option.map_eq_some_iff.mp hlink
    cases he
    have hf := feeds_of_feed hfeed
    dsimp only at hact
    rw [hf.same.2.2.1] at hact
    rw [List.mem_append]
    rcases Link.step_ended hact hend with
      habort | rfl | rfl | ⟨hpos, m, r, r', hun, hnone⟩
    · exact .inr habort
    · exact absurd rfl hf.read.1
    · exact absurd rfl hf.read.2
    · refine absurd hnone (hdamage hpos m (hs.source m ?_) r r')
      simp [hun]

end Run

/-- The emulator between the processes keeps its invariant. -/
theorem inv_link (hpos : 0 < cfg.serializationDelay + cfg.delay)
    (h : exec (step cfg next next') (start l₀ r₀ hello) moves = some (n, out)) : Link.Inv n.link := by
  have h₀ : Link.Inv (start l₀ r₀ hello).link := ⟨Link.inv_start.room, trivial⟩
  refine exec_inputs (P := fun _ n _ => Link.Inv n.link) ?_ h₀ h
  intro _ _ n mv n' out hs hstep
  cases mv with
  | left =>
    obtain ⟨r, -, he⟩ := Option.map_eq_some_iff.mp hstep
    cases he
    exact hs
  | right =>
    obtain ⟨r, -, he⟩ := Option.map_eq_some_iff.mp hstep
    cases he
    exact hs
  | link e =>
    obtain ⟨⟨e', n₁⟩, hfeed, hlink⟩ := Option.bind_eq_some_iff.mp hstep
    obtain ⟨⟨s', o⟩, hact, he⟩ := Option.map_eq_some_iff.mp hlink
    cases he
    dsimp only at hact
    rw [(feeds_of_feed hfeed).same.2.2.1] at hact
    exact Link.inv_step hpos hs hact

/-- When nothing moves any more, nothing is left with the emulator. -/
lemma Still.quiet (hinv : Link.Inv n.link) (h : Still cfg next next' n) :
    n.toLink1 = [] ∧ n.toLink2 = [] ∧ n.link.reverse = none ∧ n.link.forwarding = .receive ∧
      n.link.carried = [] := by
  obtain ⟨hrun, hsignal, hnone⟩ := h
  have hact : ∀ e e' n₁, n.feed e = some (e', n₁) → n₁.link = n.link → e ≠ .wake →
      Link.act cfg n.link e' = none := by
    intro e e' n₁ hfeed hlink hwake
    have hno := hnone (.link e) (by simpa using hwake)
    simpa [step, hfeed, Link.step, hlink, hrun] using hno
  have hforward : n.link.forwarding = .receive := by
    cases hf : n.link.forwarding with
    | receive => rfl
    | check m =>
      have hno := hact (.check 0 0 0 0) _ _ rfl rfl (by simp)
      simp [Link.act, hf] at hno
    | put m =>
      have hno := hact .put _ _ rfl rfl (by simp)
      simp [Link.act, hf] at hno
  have hreverse : n.link.reverse = none := by
    by_contra hne
    obtain ⟨m, hm⟩ := Option.ne_none_iff_exists'.mp hne
    have hno := hact .forward1 _ _ rfl rfl (by simp)
    simp [Link.act, hm] at hno
  have hwait : n.link.scheduler = .wait false := by
    cases hsch : n.link.scheduler with
    | top =>
      have hno := hact (.now 0) _ _ rfl rfl (by simp)
      simp [Link.act, hsch] at hno
    | look t =>
      have hno := hact .look _ _ rfl rfl (by simp)
      simp [Link.act, hsch] at hno
    | take t =>
      have hno := hact .take _ _ rfl rfl (by simp)
      simp [Link.act, hsch] at hno
    | park =>
      have hno := hact .park _ _ rfl rfl (by simp)
      simp [Link.act, hsch] at hno
    | wait signalled =>
      cases signalled with
      | false => rfl
      | true => exact absurd hsch hsignal
  refine ⟨?_, ?_, hreverse, hforward, ?_⟩
  · cases hto : n.toLink1 with
    | nil => rfl
    | cons m rest =>
      have hno := hact (.receive1 none) (.receive1 (some m)) { n with toLink1 := rest }
        (by simp [feed, hto]) rfl (by simp)
      simp [Link.act, hforward] at hno
  · cases hto : n.toLink2 with
    | nil => rfl
    | cons m rest =>
      have hno := hact (.receive2 none) (.receive2 (some m)) { n with toLink2 := rest }
        (by simp [feed, hto]) rfl (by simp)
      simp [Link.act, hreverse] at hno
  · rw [Link.carried_of_wait hinv hwait, hforward]
    rfl

/-- **Nothing gets stuck in the emulator**: when nothing moves any more with it, neither of the processes
moves without it. -/
theorem Still.blocked (hinv : Link.Inv n.link) (h : Still cfg next next' n)
    (hs : Sim P cfg next next' l₀ r₀ moves n out ks i) (side : Side) :
    Duet.step next (noisy c next') (n.view ks i) side = none := by
  obtain ⟨hlink1, hlink2, hrev, hfwd, hcar⟩ := h.quiet hinv
  have hline := hs.line
  rw [hcar, List.append_nil] at hline
  cases side with
  | left =>
    have hno := h.2.2 .left (by simp)
    rw [step, Option.map_eq_none_iff] at hno
    rw [Duet.step, Option.map_eq_none_iff]
    cases hact : next n.left with
    | done => simp [view, hact, move]
    | fault => simp [view, hact, move]
    | send m u => simp [hact, move] at hno
    | recv k =>
      cases hto : n.toLeft with
      | nil => simp [view, hact, move, hto, hrev, hlink2]
      | cons m rest => simp [hact, move, hto] at hno
  | right =>
    have hno := h.2.2 .right (by simp)
    rw [step, Option.map_eq_none_iff] at hno
    rw [Duet.step, Option.map_eq_none_iff]
    cases hact : next' n.right with
    | done => simp [view, noisy, hact, move]
    | fault => simp [view, noisy, hact, move]
    | send m u => simp [hact, move] at hno
    | recv k =>
      cases hto : n.toRight with
      | nil =>
        rw [hto] at hline
        have hnil : ks.drop i = [] := List.map_eq_nil_iff.mp hline.symm
        simp [view, noisy, hact, move, hnil, hfwd, Forwarding.unchecked, pending, hlink1]
      | cons m rest => simp [hact, move, hto] at hno

end Net

end Protocoale.Emulator

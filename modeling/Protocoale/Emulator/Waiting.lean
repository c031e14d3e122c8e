import Protocoale.Emulator.Flow

/-!
The buffer of the link and its scheduler. The buffer does not overflow although the thread that fills it
gives the lock back between the look at its size and the message going in, and the scheduler does not
wait while there is something to send (`link_keeps`). What can go wrong is the assertion
before it waits, exactly when a message has gone into the buffer since it looked (`aborts_iff`).
-/

namespace Protocoale.Emulator

open Lib Lib.Run

variable {μ : Type*} {cfg : Settings μ} {s s' : Link μ} {e : Event μ} {is : List (Event μ)}
  {out acc : List (Effect μ)} {m : μ} {t : ℤ}

namespace Link

/-- What holds where the scheduler is. -/
def Place (s : Link μ) : Prop :=
  match s.scheduler with
  | .top => True
  | .look crtTime => ∀ mif ∈ s.inFlight.head?, crtTime < mif.finishTime
  | .take crtTime => s.buffer ≠ [] ∧ ∀ mif ∈ s.inFlight.head?, crtTime < mif.finishTime
  | .park => s.inFlight = []
  | .wait signalled => s.inFlight = [] ∧ (signalled = false → s.buffer = [])

lemma Same.place (h : Same s s' out) (hs : Place s) : Place s' := by
  unfold Place at *
  rw [h.scheduler, h.inFlight, h.buffer]
  exact hs

/-- There is room for the message that is about to go into the buffer. -/
structure Inv (s : Link μ) : Prop where
  room : s.buffer.length + s.forwarding.held.length ≤ BUFFER_SIZE
  place : Place s

/-- The scheduler goes to wait when nothing is in flight and the link is idle. -/
lemma rest_cases (h : ∀ mif ∈ s.inFlight.head?, t < mif.finishTime) :
    (s.rest t).scheduler = .top ∨
      (s.rest t).scheduler = .park ∧ s.inFlight = [] ∧ s.idleTime ≤ t := by
  unfold rest
  cases hfl : s.inFlight with
  | nil =>
    by_cases hidle : 0 < s.idleTime - t
    · exact .inl (if_pos (.inl hidle))
    · exact .inr ⟨if_neg (by simp at hidle ⊢; exact hidle), rfl, by omega⟩
  | cons mif inFlight =>
    have hlt : 0 < mif.finishTime - t := sub_pos.mpr (h mif (by rw [hfl]; rfl))
    exact .inl (if_pos (.inr hlt))

lemma place_rest (h : ∀ mif ∈ s.inFlight.head?, t < mif.finishTime) : Place (s.rest t) := by
  unfold Place
  rcases rest_cases h with hsch | ⟨hsch, hnil, -⟩
  · rw [hsch]
    trivial
  · rw [hsch]
    exact hnil

lemma inv_start : Inv (start : Link μ) := by
  refine ⟨?_, ?_⟩
  · simp [start, Forwarding.held]
  · trivial

/-- The buffer only shrinks between the look at its size and the message going in. -/
lemma room_of_outside (hs : s.buffer.length + s.forwarding.held.length ≤ BUFFER_SIZE)
    (he : e.outside = true) (h : Does cfg s e s' out) :
    s'.buffer.length + s'.forwarding.held.length ≤ BUFFER_SIZE := by
  cases e with
  | receive1 o =>
    obtain ⟨hf, h⟩ := h
    rw [hf] at hs
    cases o with
    | none =>
      cases h
      rwa [hf]
    | some m =>
      simp only [receiveMessage1] at h
      split at h <;> cases h
      · exact hs
      · rwa [hf]
  | check roll roll' r r' =>
    obtain ⟨m, hf, h⟩ := h
    rw [hf] at hs
    unfold checkSpace at h
    split at h
    · cases h
      exact hs
    · next hkeep =>
      have hlt : s.buffer.length < BUFFER_SIZE := not_le.mp fun hle => hkeep (.inl hle)
      split at h
      · split at h <;> cases h
        · exact hlt
        · rwa [hf]
      · cases h
        exact hlt
  | receive2 o =>
    obtain ⟨-, h⟩ := h
    cases o with
    | none =>
      cases h
      exact hs
    | some m =>
      simp only [receiveMessage2] at h
      split at h <;> cases h <;> exact hs
  | forward1 =>
    obtain ⟨m, -, rfl, rfl⟩ := h
    exact hs
  | _ => cases he

/-- Who puts a message into the buffer signals the scheduler. -/
lemma put_inv (hs : Inv s) (hf : s.forwarding = .put m) : Inv (s.put m) := by
  refine ⟨?_, ?_⟩
  · have hroom := hs.room
    rw [hf] at hroom
    simpa [put, Forwarding.held] using hroom
  · have hplace := hs.place
    unfold Place put at *
    cases hsch : s.scheduler with
    | top => trivial
    | look t => simpa [hsch, signal] using hplace
    | take t =>
      rw [hsch] at hplace
      exact ⟨by simp, hplace.2⟩
    | park => simpa [hsch, signal] using hplace
    | wait signalled =>
      rw [hsch] at hplace
      exact ⟨hplace.1, fun h => by cases h⟩

lemma look_inv (hs : Inv s) (hsch : s.scheduler = .look t) : Inv (s.look cfg t) := by
  have hplace : ∀ mif ∈ s.inFlight.head?, t < mif.finishTime := by
    have h := hs.place
    unfold Place at h
    rwa [hsch] at h
  unfold look
  split
  · next hstuff => exact ⟨hs.room, hstuff.1, hplace⟩
  · exact ⟨hs.room, place_rest hplace⟩

/-- There is a message to take, and it is on the way for some time. -/
lemma take_inv (hpos : 0 < cfg.serializationDelay + cfg.delay) (hs : Inv s)
    (hsch : s.scheduler = .take t) (h : s.take cfg t = (s', out)) : Inv s' ∧ out = [] := by
  obtain ⟨hne, hplace⟩ : s.buffer ≠ [] ∧ ∀ mif ∈ s.inFlight.head?, t < mif.finishTime := by
    have h := hs.place
    unfold Place at h
    rwa [hsch] at h
  have hroom := hs.room
  unfold take at h
  split at h
  · next hnil => exact absurd hnil hne
  · next m buffer hbuffer =>
    cases h
    refine ⟨⟨?_, place_rest ?_⟩, rfl⟩
    · rw [hbuffer, List.length_cons] at hroom
      simp only [rest_forwarding]
      exact le_trans (by simp [rest]) hroom
    · intro mif hmif
      cases hfl : s.inFlight with
      | nil =>
        rw [hfl] at hmif
        cases hmif
        show t < t + cfg.serializationDelay + cfg.delay
        omega
      | cons mif' inFlight =>
        rw [hfl] at hmif hplace
        exact hplace mif hmif

/-- **The invariant of the link.** -/
theorem inv_step (hpos : 0 < cfg.serializationDelay + cfg.delay) (hs : Inv s)
    (h : step cfg s e = some (s', out)) : Inv s' := by
  obtain ⟨-, h⟩ := step_does h
  have hplace := hs.place
  cases e with
  | receive1 | check | receive2 | forward1 =>
    exact ⟨room_of_outside hs.room rfl h, (same_of_outside rfl h).place hplace⟩
  | put =>
    obtain ⟨m, hm, rfl, rfl⟩ := h
    exact put_inv hs hm
  | now t =>
    obtain ⟨-, h⟩ := h
    cases h
    refine ⟨hs.room, ?_⟩
    intro mif hmif
    have hnot := List.head?_dropWhile_not (fun mif : MsgInFlight μ => mif.finishTime ≤ t) s.inFlight
    rw [Option.mem_def.mp hmif] at hnot
    simpa using hnot
  | look =>
    obtain ⟨t, ht, rfl, rfl⟩ := h
    exact look_inv hs ht
  | take =>
    obtain ⟨t, ht, h⟩ := h
    exact (take_inv hpos hs ht h).1
  | park =>
    obtain ⟨hsch, h⟩ := h
    unfold park at h
    rw [Place, hsch] at hplace
    split at h
    · next hempty =>
      cases h
      exact ⟨hs.room, hplace, fun _ => List.isEmpty_iff.mp hempty⟩
    · cases h
      refine ⟨hs.room, ?_⟩
      rw [Place, hsch]
      exact hplace
  | wake =>
    obtain ⟨signalled, -, rfl, rfl⟩ := h
    exact ⟨hs.room, trivial⟩

theorem inv_run (hpos : 0 < cfg.serializationDelay + cfg.delay)
    (h : exec (step cfg) start is = some (s, out)) : Inv s := by
  refine exec_inputs (P := fun _ s _ => Inv s) ?_ inv_start h
  intro _ _ s e s' _ hs h
  exact inv_step hpos hs h

/-- While the scheduler waits and has not been signalled, the link carries nothing but the message that
is about to go into the buffer. -/
theorem carried_of_wait (hs : Inv s) (hsch : s.scheduler = .wait false) :
    s.carried = s.forwarding.held := by
  have hplace := hs.place
  rw [Place, hsch] at hplace
  simp [carried, hplace.1, hplace.2 rfl]

/-- **No overflow and no message left behind.** In every run the buffer stays within its size, with the
message that is about to go into it, and a scheduler that waits without a signal leaves nothing
unsent. -/
theorem link_keeps (hpos : 0 < cfg.serializationDelay + cfg.delay)
    (h : exec (step cfg) start is = some (s, out)) :
    s.buffer.length + s.forwarding.held.length ≤ BUFFER_SIZE ∧
      (s.scheduler = .wait false → s.carried = s.forwarding.held) := by
  have hinv := inv_run hpos h
  exact ⟨hinv.room, carried_of_wait hinv⟩

theorem link_keeps_waiting : ∃ s out, exec (step (⟨1, 1, 0, 0, fun m _ _ => some m⟩ : Settings ℕ)) start
    [.receive1 (some 0), .receive1 (some 7), .check 0 0 0 0, .now 0, .look, .park] = some (s, out) ∧
      s.carried = [7] := by
  have h : exec (step (⟨1, 1, 0, 0, fun m _ _ => some m⟩ : Settings ℕ)) start
      [.receive1 (some 0), .receive1 (some 7), .check 0 0 0 0, .now 0, .look, .park] = some (_, _) := rfl
  exact ⟨_, _, h, (link_keeps (by norm_num) h).2 rfl⟩

end Link

/-! ### The assertion before the scheduler waits -/

def Event.isLook : Event μ → Bool
  | .look => true
  | _ => false

def Event.isPut : Event μ → Bool
  | .put => true
  | _ => false

/-- The events since the scheduler last looked at the buffer, the latest first. -/
def sinceLook (es : List (Event μ)) : List (Event μ) := es.reverse.takeWhile fun e => !e.isLook

/-- A message has gone into the buffer since the scheduler looked at it. -/
def Missed (es : List (Event μ)) : Prop := ∃ e ∈ sinceLook es, e.isPut

lemma missed_snoc : Missed (is ++ [e]) ↔ e.isLook = false ∧ (e.isPut = true ∨ Missed is) := by
  unfold Missed sinceLook
  rw [List.reverse_append, List.reverse_singleton, List.singleton_append, List.takeWhile_cons]
  cases e.isLook <;> simp

namespace Link

/-- How the scheduler comes to stand before the assertion, and what happens while it is there. -/
lemma step_park (hpos : 0 < cfg.serializationDelay + cfg.delay) (hs : Inv s)
    (h : step cfg s e = some (s', out)) (hsch : s'.scheduler = .park) :
    e.isLook = true ∧ s'.buffer = [] ∨ e.isLook = false ∧ s.scheduler = .park ∧
      (e.isPut = true ∧ s'.buffer ≠ [] ∨ e.isPut = false ∧ s'.buffer = s.buffer) := by
  obtain ⟨-, h⟩ := step_does h
  have hplace := hs.place
  cases e with
  | receive1 | check | receive2 | forward1 =>
    have hsame := same_of_outside rfl h
    exact .inr ⟨rfl, hsame.scheduler ▸ hsch, .inr ⟨rfl, hsame.buffer⟩⟩
  | put =>
    obtain ⟨m, -, rfl, rfl⟩ := h
    refine .inr ⟨rfl, ?_, .inl ⟨rfl, by simp [put]⟩⟩
    cases hold : s.scheduler <;> simp_all [put, signal]
  | now t =>
    obtain ⟨-, h⟩ := h
    cases h
    cases hsch
  | look =>
    obtain ⟨t, ht, rfl, rfl⟩ := h
    rw [Place, ht] at hplace
    refine .inl ⟨rfl, ?_⟩
    unfold look at hsch ⊢
    split at hsch
    · cases hsch
    · next hstuff =>
      rcases rest_cases hplace with htop | ⟨-, -, hidle⟩
      · rw [htop] at hsch
        cases hsch
      · rw [if_neg hstuff]
        by_contra hne
        exact hstuff ⟨hne, hidle⟩
  | take =>
    obtain ⟨t, ht, h⟩ := h
    rw [Place, ht] at hplace
    -- what is taken is on the way, and the scheduler sleeps
    have hinv := (take_inv hpos hs ht h).1.place
    unfold take at h
    split at h
    · next hnil => exact absurd hnil hplace.1
    · cases h
      rw [Place, hsch] at hinv
      simp [rest] at hinv
  | park =>
    obtain ⟨hold, h⟩ := h
    unfold park at h
    split at h
    · cases h
      cases hsch
    · cases h
      exact .inr ⟨rfl, hsch, .inr ⟨rfl, rfl⟩⟩
  | wake =>
    obtain ⟨signalled, -, rfl, rfl⟩ := h
    cases hsch

/-- An assertion that fails is the one before the scheduler waits. -/
lemma step_abort (hpos : 0 < cfg.serializationDelay + cfg.delay) (hs : Inv s)
    (h : step cfg s e = some (s', out)) :
    (.abort ∈ out → s'.ended = true) ∧
      (.abort ∈ out ↔ e = .park ∧ s.scheduler = .park ∧ s.buffer ≠ []) := by
  obtain ⟨-, h⟩ := step_does h
  cases e with
  | receive1 | check | receive2 | forward1 =>
    have hnot : .abort ∉ out := fun hmem => by simpa using (same_of_outside rfl h).effects _ hmem
    simp [hnot]
  | put => obtain ⟨m, -, rfl, rfl⟩ := h; simp
  | now t => obtain ⟨-, h⟩ := h; cases h; simp
  | look => obtain ⟨t, -, rfl, rfl⟩ := h; simp
  | take =>
    obtain ⟨t, ht, h⟩ := h
    rw [(take_inv hpos hs ht h).2]
    simp
  | park =>
    obtain ⟨hsch, h⟩ := h
    unfold park at h
    split at h
    · next hempty => cases h; simp_all
    · next hempty => cases h; simp_all
  | wake => obtain ⟨signalled, -, rfl, rfl⟩ := h; simp

/-- While the scheduler stands before the assertion, the buffer is what has come since it looked. -/
def Watched (is : List (Event μ)) (s : Link μ) (acc : List (Effect μ)) : Prop :=
  Inv s ∧ (.abort ∈ acc → s.ended = true) ∧ (s.scheduler = .park → (s.buffer ≠ [] ↔ Missed is))

lemma watched_run (hpos : 0 < cfg.serializationDelay + cfg.delay)
    (h : exec (step cfg) start is = some (s, out)) : Watched is s out := by
  refine exec_inputs (P := Watched) ?_ ⟨inv_start, by simp, by simp [start]⟩ h
  rintro is acc s e s' out ⟨hs, hend, hpark⟩ hstep
  refine ⟨inv_step hpos hs hstep, ?_, ?_⟩
  · intro hmem
    rcases List.mem_append.mp hmem with hmem | hmem
    · rw [(step_does hstep).1] at hend
      exact absurd (hend hmem) (by simp)
    · exact (step_abort hpos hs hstep).1 hmem
  · intro hsch
    rw [missed_snoc]
    rcases step_park hpos hs hstep hsch with ⟨hlook, hnil⟩ | ⟨hlook, hold, ⟨hput, hne⟩ | ⟨hput, hsame⟩⟩
    · simp [hlook, hnil]
    · simp [hlook, hput, hne]
    · rw [hsame, hpark hold]
      simp [hlook, hput]

/-- **When an assertion of the link fails**: exactly when the scheduler comes to wait after a message has
gone into the buffer since it looked. -/
theorem aborts_iff (hpos : 0 < cfg.serializationDelay + cfg.delay)
    (h : exec (step cfg) start is = some (s, out)) :
    .abort ∈ out ↔ ∃ pre, is = pre ++ [.park] ∧ Missed pre := by
  rcases List.eq_nil_or_concat' is with rfl | ⟨pre, e, rfl⟩
  · cases h
    simp
  · obtain ⟨t, o, o', hpre, hstep, rfl⟩ := exec_snoc_eq_some h
    obtain ⟨hs, hend, hpark⟩ := watched_run hpos hpre
    have hnot : .abort ∉ o := fun hmem => by
      rw [(step_does hstep).1] at hend
      exact absurd (hend hmem) (by simp)
    rw [List.mem_append, or_iff_right hnot, (step_abort hpos hs hstep).2]
    constructor
    · rintro ⟨rfl, hsch, hne⟩
      exact ⟨pre, rfl, (hpark hsch).mp hne⟩
    · rintro ⟨pre', heq, hmiss⟩
      obtain ⟨rfl, he⟩ := List.append_inj' heq rfl
      obtain rfl := List.singleton_injective he
      have hsch : t.scheduler = .park := (step_does hstep).2.1
      exact ⟨rfl, hsch, (hpark hsch).mpr hmiss⟩

/-- A message comes in between the look at the buffer and the assertion. -/
theorem aborts_iff_missed : ∃ s out, exec (step (⟨1, 1, 0, 0, fun m _ _ => some m⟩ : Settings ℕ)) start
    [.receive1 (some 0), .receive1 (some 7), .check 0 0 0 0, .now 0, .look, .put, .park] =
      some (s, out) ∧ .abort ∈ out := by
  have h : exec (step (⟨1, 1, 0, 0, fun m _ _ => some m⟩ : Settings ℕ)) start
      ([.receive1 (some 0), .receive1 (some 7), .check 0 0 0 0, .now 0, .look, .put] ++ [.park]) =
        some (_, _) := rfl
  exact ⟨_, _, h, (aborts_iff (by norm_num) h).mpr ⟨_, rfl, .put, by simp [sinceLook, Event.isLook], rfl⟩⟩

end Link

end Protocoale.Emulator

import Mathlib.Data.List.TakeWhile
import Protocoale.Emulator.Waiting

/-!
The pace of the link: messages arrive in order with the serialization delay between them, none before
its time, and what is in flight at once is bounded by the product of bandwidth and delay (`link_pace`).
Nothing is assumed of the clock.
-/

namespace Protocoale.Emulator

open Lib Lib.Run Lib.Times

variable {μ : Type*} {cfg : Settings μ} {s s' : Link μ} {e : Event μ} {is : List (Event μ)}
  {out acc : List (Effect μ)} {m : μ} {t : ℤ}

def Effect.arrival : Effect μ → Option (MsgInFlight μ × ℤ)
  | .sendMessage2 _ mif crtTime => some (mif, crtTime)
  | _ => none

/-- What is sent to the second peer, with the times at which it is sent. -/
def arrivals (out : List (Effect μ)) : List (MsgInFlight μ × ℤ) := out.filterMap Effect.arrival

@[simp] lemma arrivals_append : arrivals (acc ++ out) = arrivals acc ++ arrivals out :=
  List.filterMap_append

namespace Link

/-- The times at which messages are to arrive, from the first message taken from the buffer on. -/
def finishTimes (s : Link μ) (acc : List (Effect μ)) : List ℤ :=
  ((arrivals acc).map Prod.fst ++ s.inFlight).map MsgInFlight.finishTime

/-- The last time is not after that of a message taken when the link became idle. -/
structure Timed (cfg : Settings μ) (s : Link μ) (acc : List (Effect μ)) : Prop where
  spaced : Spaced cfg.serializationDelay (finishTimes s acc)
  last : ∀ f ∈ (finishTimes s acc).getLast?, f ≤ s.idleTime + cfg.delay
  taking : ∀ crtTime, s.scheduler = .take crtTime → s.idleTime = crtTime + cfg.serializationDelay ∧
    ∀ f ∈ (finishTimes s acc).getLast?, f ≤ crtTime + cfg.delay
  late : ∀ x ∈ arrivals acc, x.1.finishTime ≤ x.2
  room : 2 ≤ s.inFlight.length →
    (s.inFlight.length - 1) • cfg.serializationDelay < cfg.serializationDelay + cfg.delay

lemma Same.arrivals_nil (h : Same s s' out) : arrivals out = [] := by
  refine List.filterMap_eq_nil_iff.mpr fun x hx => ?_
  rcases h.effects x hx with rfl | rfl | rfl | ⟨up, m, rfl⟩ <;> rfl

lemma finishTimes_congr (harr : arrivals out = []) (hfl : s'.inFlight = s.inFlight) :
    finishTimes s' (acc ++ out) = finishTimes s acc := by
  unfold finishTimes
  rw [arrivals_append, harr, List.append_nil, hfl]

/-- A step that neither takes a message nor sends one. -/
lemma Timed.same (hs : Timed cfg s acc) (harr : arrivals out = []) (hfl : s'.inFlight = s.inFlight)
    (hidle : s'.idleTime = s.idleTime)
    (hsch : ∀ t, s'.scheduler = .take t → s.scheduler = .take t) : Timed cfg s' (acc ++ out) := by
  have htimes : finishTimes s' (acc ++ out) = finishTimes s acc := finishTimes_congr harr hfl
  refine ⟨htimes ▸ hs.spaced, ?_, ?_, ?_, ?_⟩
  · rw [htimes, hidle]
    exact hs.last
  · intro t ht
    rw [htimes, hidle]
    exact hs.taking t (hsch t ht)
  · rw [arrivals_append, harr, List.append_nil]
    exact hs.late
  · rw [hfl]
    exact hs.room

lemma rest_ne_take {t' : ℤ} : (s.rest t).scheduler ≠ .take t' := by
  unfold rest
  dsimp only
  split <;> split <;> simp

lemma sendArrived_arrivals : arrivals (s.sendArrived t).2 =
    (s.inFlight.takeWhile fun mif => mif.finishTime ≤ t).map fun mif => (mif, t) := by
  unfold arrivals sendArrived
  rw [List.filterMap_map]
  exact congrFun (List.filterMap_eq_map (f := fun mif : MsgInFlight μ => (mif, t))) _

/-- What has arrived is sent. -/
lemma Timed.sendArrived (hser : 0 ≤ cfg.serializationDelay) (hs : Timed cfg s acc) :
    Timed cfg (s.sendArrived t).1 (acc ++ (s.sendArrived t).2) := by
  have htimes : finishTimes (s.sendArrived t).1 (acc ++ (s.sendArrived t).2) = finishTimes s acc := by
    have hsent : (arrivals (s.sendArrived t).2).map Prod.fst =
        s.inFlight.takeWhile fun mif => mif.finishTime ≤ t := by
      rw [sendArrived_arrivals, List.map_map]
      exact List.map_id _
    unfold finishTimes
    rw [arrivals_append, List.map_append, List.map_append, hsent, ← List.map_append, List.append_assoc]
    unfold Link.sendArrived
    rw [List.takeWhile_append_dropWhile]
  refine ⟨htimes ▸ hs.spaced, ?_, ?_, ?_, ?_⟩
  · rw [htimes]
    exact hs.last
  · intro t' ht'
    cases ht'
  · intro x hx
    rw [arrivals_append, sendArrived_arrivals] at hx
    rcases List.mem_append.mp hx with hx | hx
    · exact hs.late x hx
    · obtain ⟨mif, hmif, rfl⟩ := List.mem_map.mp hx
      simpa using List.mem_takeWhile_imp hmif
  · intro hlen
    have hle : (s.sendArrived t).1.inFlight.length ≤ s.inFlight.length :=
      (List.dropWhile_sublist _).length_le
    calc ((s.sendArrived t).1.inFlight.length - 1) • cfg.serializationDelay
        ≤ (s.inFlight.length - 1) • cfg.serializationDelay := nsmul_le_nsmul_left hser (by omega)
      _ < cfg.serializationDelay + cfg.delay := hs.room (by omega)

/-- The message that is taken arrives the serialization delay after the one before at the earliest. -/
lemma Timed.take (hpos : 0 < cfg.serializationDelay + cfg.delay) (hinv : Inv s) (hs : Timed cfg s acc)
    (hsch : s.scheduler = .take t) (h : s.take cfg t = (s', out)) : Timed cfg s' (acc ++ out) := by
  obtain ⟨hidle, hlast⟩ := hs.taking t hsch
  have hplace := hinv.place
  rw [Place, hsch] at hplace
  unfold Link.take at h
  split at h
  · next hnil => exact absurd hnil hplace.1
  · next m buffer hbuffer =>
    cases h
    have htimes : finishTimes (rest { s with buffer, inFlight := s.inFlight ++
        [⟨m, t + cfg.serializationDelay + cfg.delay⟩] } t) (acc ++ []) =
          finishTimes s acc ++ [t + cfg.serializationDelay + cfg.delay] := by
      simp [finishTimes, rest]
    have hspaced : Spaced cfg.serializationDelay
        (finishTimes s acc ++ [t + cfg.serializationDelay + cfg.delay]) := by
      refine spaced_snoc.mpr ⟨hs.spaced, fun f hf => ?_⟩
      have := hlast f hf
      omega
    refine ⟨htimes ▸ hspaced, ?_, ?_, ?_, ?_⟩
    · rw [htimes]
      intro f hf
      rw [List.getLast?_append, List.getLast?_singleton, Option.some_or, Option.mem_some_iff] at hf
      rw [← hf]
      show t + cfg.serializationDelay + cfg.delay ≤ s.idleTime + cfg.delay
      omega
    · intro t' ht'
      exact absurd ht' rest_ne_take
    · rw [List.append_nil]
      exact hs.late
    · intro hlen
      have hflight : Spaced cfg.serializationDelay (s.inFlight.map MsgInFlight.finishTime ++
          [t + cfg.serializationDelay + cfg.delay]) := by
        rw [finishTimes, List.map_append, List.append_assoc] at hspaced
        exact hspaced.right
      have hgaps := hflight.gaps_lt (a := t) (b := t + (cfg.serializationDelay + cfg.delay)) ?_ ?_ ?_
      · simp [rest] at hgaps ⊢
        exact hgaps
      · cases hfl : s.inFlight with
        | nil => simp; omega
        | cons mif inFlight =>
          intro x hx
          cases hx
          exact hplace.2 mif (by rw [hfl]; rfl)
      · simp; omega
      · simpa [rest] using hlen

lemma Timed.step (hser : 0 ≤ cfg.serializationDelay) (hpos : 0 < cfg.serializationDelay + cfg.delay)
    (hinv : Inv s) (hs : Timed cfg s acc) (h : step cfg s e = some (s', out)) :
    Timed cfg s' (acc ++ out) := by
  obtain ⟨-, h⟩ := step_does h
  cases e with
  | receive1 | check | receive2 | forward1 =>
    have hsame := same_of_outside rfl h
    exact hs.same hsame.arrivals_nil hsame.inFlight hsame.idleTime fun t ht => hsame.scheduler ▸ ht
  | put =>
    obtain ⟨m, -, rfl, rfl⟩ := h
    refine hs.same rfl rfl rfl fun t ht => ?_
    cases hold : s.scheduler <;> simp_all [put, signal]
  | now t =>
    obtain ⟨-, h⟩ := h
    cases h
    exact hs.sendArrived hser
  | look =>
    obtain ⟨t, ht, rfl, rfl⟩ := h
    unfold look
    split
    · next hstuff =>
      have htimes : ∀ f ∈ (finishTimes s acc).getLast?, f ≤ t + cfg.delay := fun f hf => by
        have := hs.last f hf
        omega
      rw [List.append_nil]
      refine ⟨hs.spaced, ?_, ?_, hs.late, hs.room⟩
      · intro f hf
        have := htimes f hf
        show f ≤ t + cfg.serializationDelay + cfg.delay
        omega
      · rintro _ ⟨⟩
        exact ⟨rfl, htimes⟩
    · exact hs.same rfl rfl rfl fun t' ht' => absurd ht' rest_ne_take
  | take =>
    obtain ⟨t, ht, h⟩ := h
    exact hs.take hpos hinv ht h
  | park =>
    obtain ⟨hsch, h⟩ := h
    unfold park at h
    split at h
    · cases h
      exact hs.same rfl rfl rfl fun t ht => by cases ht
    · cases h
      exact hs.same rfl rfl rfl fun t ht => ht
  | wake =>
    obtain ⟨signalled, -, rfl, rfl⟩ := h
    exact hs.same rfl rfl rfl fun t ht => by cases ht

lemma timed_start : Timed cfg (start : Link μ) [] := by
  constructor <;> simp [start, finishTimes, arrivals]

/-- **The pace of the link.** A message is sent after the time at which it arrives, and as many
serialization delays after an earlier one has arrived as there are messages between them and one more;
what is in flight at once takes less time on the link than one message takes from end to end. -/
theorem link_pace (hser : 0 ≤ cfg.serializationDelay) (hpos : 0 < cfg.serializationDelay + cfg.delay)
    (h : exec (Link.step cfg) start is = some (s, out)) :
    (∀ x ∈ arrivals out, x.1.finishTime ≤ x.2) ∧
    (∀ pre x mid y post, arrivals out = pre ++ x :: mid ++ y :: post →
      x.1.finishTime + (mid.length + 1) * cfg.serializationDelay ≤ y.2) ∧
    (2 ≤ s.inFlight.length →
      (s.inFlight.length - 1) * cfg.serializationDelay < cfg.serializationDelay + cfg.delay) := by
  obtain ⟨-, ht⟩ : Inv s ∧ Timed cfg s out := by
    refine exec_inputs (P := fun _ s acc => Inv s ∧ Timed cfg s acc) ?_ ⟨inv_start, timed_start⟩ h
    rintro _ acc s e s' out ⟨hinv, hs⟩ hstep
    exact ⟨inv_step hpos hinv hstep, hs.step hser hpos hinv hstep⟩
  refine ⟨ht.late, ?_, ?_⟩
  · intro pre x mid y post heq
    have hspaced := ht.spaced
    rw [finishTimes, heq] at hspaced
    have hsplit : (((pre ++ x :: mid ++ y :: post).map Prod.fst ++ s.inFlight).map
        MsgInFlight.finishTime) = (pre.map fun x => x.1.finishTime) ++ ((x.1.finishTime ::
          (mid.map fun x => x.1.finishTime) ++ [y.1.finishTime]) ++
          ((post.map fun x => x.1.finishTime) ++ s.inFlight.map MsgInFlight.finishTime)) := by
      simp [Function.comp_def]
    rw [hsplit] at hspaced
    have hspan := hspaced.right.left.span
    rw [List.length_map, nsmul_eq_mul, Nat.cast_add, Nat.cast_one] at hspan
    exact hspan.trans (ht.late y (by rw [heq]; simp))
  · intro hlen
    have hroom := ht.room hlen
    rw [nsmul_eq_mul, Nat.cast_sub (by omega)] at hroom
    simpa using hroom

/-- Two messages, one serialization delay after the other. -/
theorem link_pace_two : ∃ s out x y, exec (Link.step (⟨3, 1, 0, 0, fun m _ _ => some m⟩ : Settings ℕ)) start
    [.receive1 (some 0), .receive1 (some 7), .check 0 0 0 0, .put, .now 0, .look, .take,
      .receive1 (some 8), .check 0 0 0 0, .put, .now 3, .look, .take, .now 9] = some (s, out) ∧
    arrivals out = [x, y] ∧ x.1.finishTime + (0 + 1) * 3 ≤ y.2 := by
  have h : exec (Link.step (⟨3, 1, 0, 0, fun m _ _ => some m⟩ : Settings ℕ)) start
    [.receive1 (some 0), .receive1 (some 7), .check 0 0 0 0, .put, .now 0, .look, .take,
      .receive1 (some 8), .check 0 0 0 0, .put, .now 3, .look, .take, .now 9] = some (_, _) := rfl
  exact ⟨_, _, _, _, h, rfl, (link_pace (by norm_num) (by norm_num) h).2.1 [] _ [] _ [] rfl⟩

end Link

end Protocoale.Emulator

import Protocoale.Emulator.Net
import Protocoale.Lab02.Transfer

/-!
The file transfer of the second laboratory over the link emulator, as `run_experiment.sh` starts them:
nothing is lost or corrupted. A message is sent after the answer to the one before it, except for the
second one, so two are on the way at most (`Waits.toRight_le`).
-/

namespace Protocoale.Lab02

open Lib Lib.Bytes Lib.CText Lib.Run Lib.Duet Emulator

/-- The corruption in `run_forwarding` of this laboratory's emulator. -/
def Msg.damage (m : Msg) (r r' : ℕ) : Option Msg :=
  if m.len ≠ 0 ∧ (r % m.len).toNat < MAX_LEN then
    some { m with payload := Function.update m.payload (r % m.len).toNat (UInt8.ofNat (r' % 128)) }
  else none

/-- The sender waits for an answer. -/
def Sender.waiting : Sender → ℕ
  | .nameReply .. | .sizeReply .. | .contentReply .. => 1
  | _ => 0

/-- The sender has sent the number of files. -/
def Sender.started : Sender → ℕ
  | .number .. => 0
  | _ => 1

/-- The receiver is about to answer. -/
def Receiver.acking : Receiver → ℕ
  | .nameAck _ | .sizeAck .. | .contentAck .. => 1
  | _ => 0

/-- The receiver has received the number of files. -/
def Receiver.started : Receiver → ℕ
  | .number _ => 0
  | _ => 1

variable {S S' : Sys Sender Receiver Msg} {side : Side} {sides : List Side} {s s' : Sender}
  {r r' : Receiver} {m t : Msg} {k : Msg → Sender} {k' : Msg → Receiver} {sources : List Source}

/-- A message waits for its answer, except for the number of files. -/
structure Waits (S : Sys Sender Receiver Msg) : Prop where
  number : S.left.started = 0 → S.right.started = 0
  eq : S.toRight.length + S.right.acking + S.toLeft.length + S.right.started =
    S.left.waiting + S.left.started

lemma Waits.toRight_le (h : Waits S) : S.toRight.length ≤ 2 := by
  have heq := h.eq
  have hwait : S.left.waiting ≤ 1 := by cases S.left <;> simp [Sender.waiting]
  have hstart : S.left.started ≤ 1 := by cases S.left <;> simp [Sender.started]
  omega

lemma sendName_send (h : Sender.sendName t sources = .send m s') : s'.waiting = 1 ∧ s'.started = 1 := by
  unfold Sender.sendName at h
  split at h
  · cases h
  · split at h <;> cases h
    exact ⟨rfl, rfl⟩

/-- What sending does to the sender. -/
lemma next_send (h : s.next = .send m s') :
    s.waiting = 0 ∧ s'.started = 1 ∧ s'.waiting + 1 = s.started + 1 := by
  cases s with
  | number t sources => cases h; exact ⟨rfl, rfl, rfl⟩
  | name t sources =>
    obtain ⟨hwait, hstart⟩ := sendName_send h
    exact ⟨rfl, hstart, by rw [hwait]; rfl⟩
  | size t source sources => cases h; exact ⟨rfl, rfl, rfl⟩
  | content t source sources k =>
    simp only [Sender.next] at h
    split at h
    · obtain ⟨hwait, hstart⟩ := sendName_send h
      exact ⟨rfl, hstart, by rw [hwait]; rfl⟩
    · cases h; exact ⟨rfl, rfl, rfl⟩
    · cases h; exact ⟨rfl, rfl, rfl⟩
  | nameReply t source sources => cases h
  | sizeReply t source sources => cases h
  | contentReply t source sources k => cases h

lemma sendName_ne_recv : Sender.sendName t sources ≠ .recv k := by
  unfold Sender.sendName
  split
  · simp
  · split <;> simp

/-- What an answer does to it. -/
lemma next_recv (h : s.next = .recv k) : s.waiting = 1 ∧ s.started = 1 ∧ ∀ m, (k m).waiting = 0 ∧
    (k m).started = 1 := by
  cases s with
  | number t sources => cases h
  | name t sources => exact absurd h sendName_ne_recv
  | size t source sources => cases h
  | content t source sources k =>
    simp only [Sender.next] at h
    split at h
    · exact absurd h sendName_ne_recv
    · cases h
    · cases h
  | nameReply t source sources => cases h; exact ⟨rfl, rfl, fun _ => ⟨rfl, rfl⟩⟩
  | sizeReply t source sources => cases h; exact ⟨rfl, rfl, fun _ => ⟨rfl, rfl⟩⟩
  | contentReply t source sources k => cases h; exact ⟨rfl, rfl, fun _ => ⟨rfl, rfl⟩⟩

lemma recvName_recv {c : Received} (h : Receiver.recvName c = .recv k') (m : Msg) :
    (k' m).acking = 1 ∧ (k' m).started = 1 := by
  unfold Receiver.recvName at h
  split at h <;> cases h
  exact ⟨rfl, rfl⟩

lemma recvName_ne_send {c : Received} : Receiver.recvName c ≠ .send m r' := by
  unfold Receiver.recvName
  split <;> simp

/-- What answering does to the receiver. -/
lemma receiver_send (h : r.next = .send m r') :
    r.acking = 1 ∧ r'.acking = 0 ∧ r.started = 1 ∧ r'.started = 1 := by
  cases r with
  | number r => cases h
  | name c => exact absurd h recvName_ne_send
  | nameAck c =>
    simp only [Receiver.next] at h
    split at h <;> cases h
    exact ⟨rfl, rfl, rfl, rfl⟩
  | size c filename => cases h
  | sizeAck c filename =>
    simp only [Receiver.next] at h
    split at h <;> cases h
    exact ⟨rfl, rfl, rfl, rfl⟩
  | content c copyFilename copied count =>
    simp only [Receiver.next] at h
    split at h
    · cases h
    · exact absurd h recvName_ne_send
  | contentAck c copyFilename copied count =>
    simp only [Receiver.next] at h
    split at h <;> cases h
    exact ⟨rfl, rfl, rfl, rfl⟩

/-- What a message does to it. -/
lemma receiver_recv (h : r.next = .recv k') (m : Msg) :
    r.acking = 0 ∧ (k' m).started = 1 ∧ (k' m).acking = r.started := by
  cases r with
  | number r => cases h; exact ⟨rfl, rfl, rfl⟩
  | name c =>
    obtain ⟨hack, hstart⟩ := recvName_recv h m
    exact ⟨rfl, hstart, hack⟩
  | nameAck c =>
    simp only [Receiver.next] at h
    split at h <;> cases h
  | size c filename => cases h; exact ⟨rfl, rfl, rfl⟩
  | sizeAck c filename =>
    simp only [Receiver.next] at h
    split at h <;> cases h
  | content c copyFilename copied count =>
    simp only [Receiver.next] at h
    split at h
    · cases h; exact ⟨rfl, rfl, rfl⟩
    · obtain ⟨hack, hstart⟩ := recvName_recv h m
      exact ⟨rfl, hstart, hack⟩
  | contentAck c copyFilename copied count =>
    simp only [Receiver.next] at h
    split at h <;> cases h

lemma Waits.step (h : Waits S) (hs : step Sender.next Receiver.next S side = some S') : Waits S' := by
  obtain ⟨hnum, heq⟩ := h
  cases side with
  | left =>
    obtain ⟨q, hq, rfl⟩ := Option.map_eq_some_iff.mp hs
    cases hact : S.left.next with
    | done => rw [hact] at hq; cases hq
    | fault => rw [hact] at hq; cases hq
    | send m t =>
      rw [hact] at hq
      cases hq
      obtain ⟨hwait, hstart, hsum⟩ := next_send hact
      refine ⟨fun hno => ?_, ?_⟩
      · dsimp only at hno
        omega
      · simp only [List.length_append, List.length_singleton]
        omega
    | recv k =>
      rw [hact] at hq
      cases hto : S.toLeft with
      | nil => rw [hto] at hq; cases hq
      | cons m rest =>
        rw [hto] at hq heq
        cases hq
        obtain ⟨hwait, hstart, hk⟩ := next_recv hact
        obtain ⟨hwait', hstart'⟩ := hk m
        refine ⟨fun hno => ?_, ?_⟩
        · dsimp only at hno
          omega
        · rw [List.length_cons] at heq
          dsimp only
          omega
  | right =>
    obtain ⟨q, hq, rfl⟩ := Option.map_eq_some_iff.mp hs
    cases hact : S.right.next with
    | done => rw [hact] at hq; cases hq
    | fault => rw [hact] at hq; cases hq
    | send m t =>
      rw [hact] at hq
      cases hq
      obtain ⟨hack, hack', hstart, hstart'⟩ := receiver_send hact
      refine ⟨fun hno => ?_, ?_⟩
      · have := hnum hno
        omega
      · simp only [List.length_append, List.length_singleton]
        omega
    | recv k =>
      rw [hact] at hq
      cases hto : S.toRight with
      | nil => rw [hto] at hq; cases hq
      | cons m rest =>
        rw [hto, List.length_cons] at heq
        rw [hto] at hq
        cases hq
        obtain ⟨hack, hstart, hack'⟩ := receiver_recv hact m
        have hle : S.left.waiting ≤ S.left.started := by
          cases S.left <;> simp [Sender.waiting, Sender.started]
        refine ⟨fun hno => ?_, ?_⟩
        · dsimp only at hno
          omega
        · dsimp only
          omega

lemma waits_run {r : Msg} (h : run Sender.next Receiver.next (start t r sources) sides = some S) :
    Waits S := by
  refine run_inv (P := Waits) ?_ ⟨fun _ => rfl, rfl⟩ h
  intro S side S' hS hs
  exact hS.step hs

/-! ### Over the emulator -/

/-- A run on an emulator that changes nothing is one on queues. -/
lemma exists_uncounted {T : Sys Sender (ℕ × Receiver) Msg} {r : Msg}
    (h : run Sender.next (noisy (fun _ m => m) Receiver.next) ⟨.number t sources, (0, .number r), [], []⟩
      sides = some T) :
    run Sender.next Receiver.next (start t r sources) sides = some (T.mapRight Prod.snd) := by
  have hmap : run Sender.next Receiver.next
      (Sys.mapRight Prod.snd ⟨.number t sources, (0, .number r), [], []⟩) sides =
        (run Sender.next (noisy (fun _ m => m) Receiver.next)
          ⟨.number t sources, (0, .number r), [], []⟩ sides).map (Sys.mapRight Prod.snd) :=
    run_mapRight noisy_id
  rw [h] at hmap
  exact hmap

/-- **The transfer over the emulator.** When the emulator loses and corrupts nothing, whatever its threads
and the two processes do in which order: the two move a bounded number of times, the emulator ends only
when an assertion fails, and when nothing moves any more both have returned and the copies the receiver
wrote are the files that were sent. -/
theorem transfer_emulated {cfg : Settings Msg} (hloss : cfg.loss ≤ 0) (hcorrupt : cfg.corrupt ≤ 0)
    (hpos : 0 < cfg.serializationDelay + cfg.delay) (files : List File) (t r hello : Msg) :
    ∃ N, ∀ moves n out, exec (Net.step cfg Sender.next Receiver.next)
      (Net.start (.number t (files.map File.source)) (.number r) hello) moves = some (n, out) →
        (Net.sides moves).length ≤ N ∧ (n.link.ended = true → .abort ∈ out) ∧
        (Net.Still cfg Sender.next Receiver.next n → n.left.next = .done ∧ n.right.next = .done ∧
          n.right.copies = files.map File.copy) := by
  obtain ⟨sides, s', r', hall, hfinal, hcopies⟩ := run_transfer files t r
  refine ⟨sides.length, ?_⟩
  intro moves n out h
  have hP : ∀ l m u, Sender.next l = .send m u → True := fun _ _ _ _ => trivial
  have hfirst : ∃ k, (Receiver.number r).next = .recv k := ⟨_, rfl⟩
  have hroom : ∀ c, Net.Damages cfg c → ∀ sides S, Duet.run Sender.next (noisy c Receiver.next)
      ⟨.number t (files.map File.source), (0, .number r), [], []⟩ sides = some S →
        S.toRight.length ≤ Emulator.BUFFER_SIZE := by
    intro c hc sides S hS
    rw [hc hcorrupt] at hS
    exact (waits_run (exists_uncounted hS)).toRight_le.trans (by simp)
  obtain ⟨ks, i, hs⟩ := Net.exists_sim hP hloss hfirst hroom h
  obtain ⟨c, hc, hcompatible⟩ := hs.exists_damages
  have hrun := hs.run c hcompatible
  rw [hc hcorrupt] at hrun
  have hqueues := exists_uncounted hrun
  obtain ⟨rest, -, hlen⟩ := run_final hfinal hall hqueues
  refine ⟨by omega, Net.abort_of_ended hP hloss hfirst hroom (fun hno => by omega) h, ?_⟩
  intro hstill
  have hblocked : ∀ side, step Sender.next Receiver.next (Sys.mapRight Prod.snd (n.view ks i)) side =
      none := by
    intro side
    have hstep : step Sender.next Receiver.next (Sys.mapRight Prod.snd (n.view ks i)) side =
        (step Sender.next (noisy (fun _ m => m) Receiver.next) (n.view ks i) side).map
          (Sys.mapRight Prod.snd) := step_mapRight noisy_id
    rw [hstep, hstill.blocked (Net.inv_link hpos h) hs side]
    rfl
  have heq := eq_of_blocked hfinal hall hqueues hblocked
  have hleft : n.left = s' := congrArg Sys.left heq
  have hright : n.right = r' := congrArg Sys.right heq
  exact ⟨hleft ▸ hfinal.1, hright ▸ hfinal.2, hright ▸ hcopies⟩

/-- The emulator of `run_experiment.sh`, 1 Mb/s and a delay of 1 ms, and one file. -/
theorem transfer_emulated_experiment : ∃ file : File, file.name = text "a" ∧ file.content = text "x" ∧
    ∃ N, ∀ moves n out, exec (Net.step ⟨22400, 1000, 0, 0, Msg.damage⟩ Sender.next Receiver.next)
      (Net.start (.number ⟨0, fun _ => 0⟩ [file.source]) (.number ⟨0, fun _ => 0⟩) ⟨0, fun _ => 0⟩)
        moves = some (n, out) → (Net.sides moves).length ≤ N := by
  let file : File := ⟨text "a", text "x", by decide, by decide, by decide, by decide⟩
  have hloss : (⟨22400, 1000, 0, 0, Msg.damage⟩ : Settings Msg).loss ≤ 0 := le_rfl
  obtain ⟨N, hN⟩ := transfer_emulated hloss le_rfl (by norm_num) [file] ⟨0, fun _ => 0⟩ ⟨0, fun _ => 0⟩
    ⟨0, fun _ => 0⟩
  exact ⟨file, rfl, rfl, N, fun moves n out h => (hN moves n out h).1⟩

end Protocoale.Lab02

import Protocoale.Emulator.Net
import Protocoale.Lab03.Corruption

/-!
The sliding window of the third laboratory over the link emulator, as `run_experiment.sh` starts them:
no message is lost, and any share of them is corrupted. Whatever the threads of the emulator do, the
sender keeps its accounting, the emulator drops nothing and ends only when its assertion fails, and
when nothing moves any more every frame has been sent and answered: `ACK` as often as a frame has come
through as it was sent, and `NACK` as often as a bit of one was flipped (`window_emulated`).
-/

namespace Protocoale.Lab03

open Lib Lib.Bytes Lib.CText Lib.Run Lib.Duet Emulator

/-- The corruption in `run_forwarding`: not defined for an empty message, or past its payload. -/
def Msg.damage (m : Msg) (r r' : ℕ) : Option Msg :=
  if m.len ≠ 0 ∧ (r % m.len).toNat < MSGSIZE then some (m.flip r r') else none

/-- The last byte of the payload is the checksum of the others. -/
def Msg.intact (m : Msg) : Bool := m.payload (MSGSIZE - 1) == checksum m.payload

/-- The receiver, with a count of the messages it has received. -/
def Receiver.counted : Receiver → ℕ × Receiver
  | .head r i => (i, .head r i)
  | .reply r i => (i + 1, .reply r i)

/-- How many frames the receiver has answered. -/
def Receiver.answered : Receiver → ℕ
  | .head _ i | .reply _ i => i

/-- How many times it has moved. -/
def Receiver.moves : Receiver → ℕ
  | .head _ i => 2 * i
  | .reply _ i => 2 * i + 1

variable {w : ℤ} {c : ℕ → Msg → Msg} {s s' : Sender} {m r : Msg} {k : Msg → Sender} {i : ℕ}
  {S S' : Sys Sender Receiver Msg} {side : Side} {sides : List Side} {arg : List UInt8}

/-- The receiver on what the link makes of the frames is the one with `corrupt`. -/
lemma noisy_counted (t : Receiver) : noisy c (Receiver.next fun _ m => m) t.counted =
    (Receiver.next c t).map Receiver.counted := by
  cases t with
  | head r i =>
    by_cases hi : i < COUNT
    · simp [noisy, Receiver.counted, Receiver.next, hi, Act.map]
    · simp [noisy, Receiver.counted, Receiver.next, hi, Act.map]
  | reply r i => rfl

/-! ### The sender -/

lemma fromThird_counters {a : Counters} {j : ℤ} (h : Sender.fromThird w a j = .recv k) :
    (k m).counters = a.recv m := by
  unfold Sender.fromThird at h
  split at h
  · cases h
    exact Sender.counters_third _ _
  · cases h

lemma fromSecond_counters {a : Counters} {j : ℤ} (h : Sender.fromSecond w a j = .recv k) :
    (k m).counters = a.recv m := by
  unfold Sender.fromSecond at h
  split at h
  · cases h
    simp only [Sender.counters]
  · exact fromThird_counters h

lemma counters_recv (h : s.next w = .recv k) : (k m).counters = s.counters.recv m := by
  cases s with
  | first c i =>
    simp only [Sender.next] at h
    split at h
    · cases h
    · exact fromSecond_counters h
  | second c i => exact fromSecond_counters h
  | refill c i => cases h
  | third c i => exact fromThird_counters h

lemma counters_send (h : s.next w = .send m s') : m = frame ∧ s'.counters = s.counters.send := by
  cases s with
  | first c i =>
    simp only [Sender.next] at h
    split at h
    · cases h
      exact ⟨rfl, rfl⟩
    · exact absurd h fromSecond_ne_send
  | second c i => exact absurd h fromSecond_ne_send
  | refill c i =>
    cases h
    exact ⟨rfl, rfl⟩
  | third c i => exact absurd h fromThird_ne_send

/-- What the sender makes of the answer to a message. -/
lemma recv_answer (a : Counters) (m : Msg) : a.recv m.answer = { a with
    inQueue := a.inQueue - 1
    received := a.received + 1
    acks := a.acks + if m.intact then 1 else 0
    nacks := a.nacks + if m.intact then 0 else 1 } := by
  have hack : (m.respond (text "ACK")).response = text "ACK" := respond_response (by decide) (by decide)
  have hnack : (m.respond (text "NACK")).response = text "NACK" :=
    respond_response (by decide) (by decide)
  unfold Msg.response at hack hnack
  unfold Counters.recv Counters.handleResponse Msg.answer
  by_cases heq : m.payload (MSGSIZE - 1) = checksum m.payload
  · have hintact : m.intact = true := beq_iff_eq.mpr heq
    rw [if_pos heq, hack, if_neg (by decide), if_pos rfl, hintact]
    simp
  · have hintact : m.intact = false := beq_eq_false_iff_ne.mpr heq
    rw [if_neg heq, hnack, if_pos rfl, hintact]
    simp

/-! ### The tally -/

/-- How many messages the receiver has received. -/
def Receiver.taken (t : Receiver) : ℕ := t.counted.1

/-- Which frames are on the way to the receiver, which answers on the way back, and what the sender has
counted of them. -/
structure Tally (c : ℕ → Msg → Msg) (S : Sys Sender Receiver Msg) : Prop where
  toRight : ∀ m ∈ S.toRight, m = frame
  sent : S.toRight.length + S.right.taken = S.left.counters.sent
  reply : ∀ r i, S.right = .reply r i → r = c i frame ∧ i < COUNT
  answered_le : S.right.answered ≤ COUNT
  received_le : S.left.counters.received ≤ S.right.answered
  toLeft : S.toLeft = ((List.range S.right.answered).drop S.left.counters.received).map
    fun j => (c j frame).answer
  acks : S.left.counters.acks =
    ((List.range S.left.counters.received).countP fun j => (c j frame).intact : ℕ)
  nacks : S.left.counters.nacks =
    ((List.range S.left.counters.received).countP fun j => !(c j frame).intact : ℕ)

lemma tally_start : Tally c (start r) := by
  constructor <;> simp [start, Receiver.taken, Receiver.counted, Sender.counters, Receiver.answered]

lemma taken_ge (t : Receiver) : t.answered ≤ t.taken := by
  cases t <;> simp [Receiver.taken, Receiver.counted, Receiver.answered]

/-- A step of the sender or the receiver keeps the tally. -/
lemma Tally.step (h : Tally c S) (hs : step (Sender.next w) (Receiver.next c) S side = some S') :
    Tally c S' := by
  obtain ⟨hright, hsent, hreply, hle, hrec, hleft, hacks, hnacks⟩ := h
  cases side with
  | left =>
    obtain ⟨q, hq, rfl⟩ := Option.map_eq_some_iff.mp hs
    cases hact : S.left.next w with
    | done => rw [hact] at hq; cases hq
    | fault => rw [hact] at hq; cases hq
    | send m t =>
      rw [hact] at hq
      cases hq
      obtain ⟨rfl, hcount⟩ := counters_send hact
      refine ⟨?_, ?_, hreply, hle, ?_, ?_, ?_, ?_⟩
      · intro m hm
        rcases List.mem_append.mp hm with hm | hm
        · exact hright m hm
        · exact List.mem_singleton.mp hm
      · rw [hcount, Counters.send_sent, List.length_append, List.length_singleton]
        dsimp only
        omega
      · rwa [hcount, Counters.send_received]
      · rwa [hcount, Counters.send_received]
      · rw [hcount, Counters.send_received]
        exact hacks
      · rw [hcount, Counters.send_received]
        exact hnacks
    | recv k =>
      rw [hact] at hq
      cases hto : S.toLeft with
      | nil => rw [hto] at hq; cases hq
      | cons m rest =>
        rw [hto] at hq hleft
        cases hq
        have hlt : S.left.counters.received < S.right.answered := by
          by_contra hnot
          rw [List.drop_eq_nil_of_le (by simpa using hnot)] at hleft
          cases hleft
        rw [List.drop_eq_getElem_cons (by simpa using hlt), List.map_cons, List.getElem_range] at hleft
        obtain ⟨hm, hrest⟩ := List.cons.inj hleft
        have hcount := ((counters_recv (m := m) hact).trans (congrArg _ hm)).trans (recv_answer _ _)
        refine ⟨hright, ?_, hreply, hle, ?_, ?_, ?_, ?_⟩
        · rw [hcount]
          exact hsent
        · rw [hcount]
          exact hlt
        · rw [hcount]
          exact hrest
        · rw [hcount]
          dsimp only
          rw [List.range_succ, List.countP_append, List.countP_singleton, hacks]
          split <;> simp
        · rw [hcount]
          dsimp only
          rw [List.range_succ, List.countP_append, List.countP_singleton, hnacks]
          cases (c S.left.counters.received frame).intact <;> simp
  | right =>
    obtain ⟨q, hq, rfl⟩ := Option.map_eq_some_iff.mp hs
    cases hr : S.right with
    | head r i =>
      rw [hr] at hq hsent hle hrec hleft
      simp only [Receiver.next] at hq
      split at hq
      · next hi =>
        cases hto : S.toRight with
        | nil => rw [hto] at hq; cases hq
        | cons m rest =>
          rw [hto] at hq hright hsent
          cases hq
          rw [List.forall_mem_cons] at hright
          refine ⟨hright.2, ?_, ?_, hle, hrec, hleft, hacks, hnacks⟩
          · rw [← hsent]
            simp [Receiver.taken, Receiver.counted]
            omega
          · intro r' i' he
            cases he
            exact ⟨by rw [hright.1], hi⟩
      · cases hq
    | reply r i =>
      obtain ⟨rfl, hi⟩ := hreply r i hr
      rw [hr] at hq hsent hle hrec hleft
      cases hq
      refine ⟨hright, hsent, ?_, hi, hrec.trans (Nat.le_succ i), ?_, hacks, hnacks⟩
      · intro r i he
        cases he
      show S.toLeft ++ _ = ((List.range (i + 1)).drop _).map _
      rw [List.range_succ, List.drop_append_of_le_length (by rw [List.length_range]; exact hrec),
        List.map_append, hleft]
      rfl

lemma tally_run (h : run (Sender.next w) (Receiver.next c) (start r) sides = some S) : Tally c S := by
  refine run_inv (P := Tally c) ?_ tally_start h
  intro S side S' hS hs
  exact hS.step hs

/-- How many times the two have moved. -/
def movesMade (S : Sys Sender Receiver Msg) : ℕ :=
  S.left.counters.sent + S.left.counters.received + S.right.moves

lemma movesMade_step (hs : step (Sender.next w) (Receiver.next c) S side = some S') :
    movesMade S' = movesMade S + 1 := by
  unfold movesMade
  cases side with
  | left =>
    obtain ⟨q, hq, rfl⟩ := Option.map_eq_some_iff.mp hs
    cases hact : S.left.next w with
    | done => rw [hact] at hq; cases hq
    | fault => rw [hact] at hq; cases hq
    | send m t =>
      rw [hact] at hq
      cases hq
      rw [(counters_send hact).2, Counters.send_sent, Counters.send_received]
      dsimp only
      omega
    | recv k =>
      rw [hact] at hq
      cases hto : S.toLeft with
      | nil => rw [hto] at hq; cases hq
      | cons m rest =>
        rw [hto] at hq
        cases hq
        rw [counters_recv hact, Counters.recv_sent, Counters.recv_received]
        dsimp only
        omega
  | right =>
    obtain ⟨q, hq, rfl⟩ := Option.map_eq_some_iff.mp hs
    cases hr : S.right with
    | head r i =>
      rw [hr] at hq
      simp only [Receiver.next] at hq
      split at hq
      · cases hto : S.toRight with
        | nil => rw [hto] at hq; cases hq
        | cons m rest =>
          rw [hto] at hq
          cases hq
          rfl
      · cases hq
    | reply r i =>
      rw [hr] at hq
      cases hq
      simp only [Receiver.moves]
      omega

lemma movesMade_run (h : run (Sender.next w) (Receiver.next c) S sides = some S') :
    movesMade S' = movesMade S + sides.length := by
  induction sides generalizing S with
  | nil => cases h; rfl
  | cons side sides ih =>
    obtain ⟨T, hT, hrest⟩ := run_cons_eq_some h
    rw [ih hrest, movesMade_step hT, List.length_cons]
    omega

/-! ### Over the emulator -/

lemma windowSize_of_range (h : 12 ≤ atoi arg ∧ atoi arg ≤ 1131) :
    ∃ w, windowSize arg = some w ∧ 1 ≤ w ∧ w ≤ COUNT := by
  refine ⟨(atoi arg * 1000).tdiv (MSGSIZE * 8), if_pos (by omega), ?_⟩
  rw [Int.tdiv_eq_ediv_of_nonneg (by omega)]
  simp only [MSGSIZE, COUNT]
  omega

/-- In a run on queues no more frames are on the way than the window has. -/
lemma toRight_le (hw : 1 ≤ w) (hle : w ≤ COUNT)
    (h : run (Sender.next w) (Receiver.next c) (start r) sides = some S) :
    S.toRight.length ≤ COUNT := by
  have htally := tally_run h
  have hacc := (inv_run hw h).accounted hw
  have h₁ := htally.sent
  have h₂ := htally.received_le
  have h₃ := taken_ge S.right
  have h₄ := hacc.eq
  have h₅ := hacc.le
  omega

/-- Where neither moves, the frames are all sent and answered. -/
lemma done_of_blocked (hw : 1 ≤ w) (hle : w ≤ COUNT)
    (h : run (Sender.next w) (Receiver.next c) (start r) sides = some S)
    (hblocked : ∀ side, step (Sender.next w) (Receiver.next c) S side = none) :
    Final (Sender.next w) (Receiver.next c) S ∧ S.left.counters.sent = COUNT ∧
      S.left.counters.received = COUNT := by
  obtain ⟨sides', s', r', hrun, hdone, hsent, hrec⟩ := exists_run c r hw hle
  have hfinal : Final (Sender.next w) (Receiver.next c) (inFlight s' (.head r' COUNT) 0) :=
    ⟨hdone, by simp [Receiver.next]⟩
  have heq := eq_of_blocked hfinal hrun h hblocked
  rw [heq]
  exact ⟨hfinal, hsent, hrec⟩

/-- Every run takes `4 * COUNT` steps at most. -/
lemma length_run_le (hw : 1 ≤ w) (hle : w ≤ COUNT)
    (h : run (Sender.next w) (Receiver.next c) (start r) sides = some S) :
    sides.length ≤ 4 * COUNT := by
  obtain ⟨sides', s', r', hrun, hdone, hsent, hrec⟩ := exists_run c r hw hle
  have hfinal : Final (Sender.next w) (Receiver.next c) (inFlight s' (.head r' COUNT) 0) :=
    ⟨hdone, by simp [Receiver.next]⟩
  obtain ⟨rest, -, hlen⟩ := run_final hfinal hrun h
  have hmoves := movesMade_run hrun
  have hstart : movesMade (start r) = 0 := rfl
  rw [hstart] at hmoves
  simp only [movesMade, hsent, hrec, Receiver.moves] at hmoves
  omega

/-- A frame that is on its way is as it was sent, or a bit of it is flipped. -/
def Msg.Arrives (m : Msg) : Prop :=
  m.intact = true ∧ m = frame ∨ m.intact = false ∧ ∃ r r', m = frame.flip r r'

lemma arrives_of_passes {cfg : Settings Msg} (hdamage : cfg.damage = Msg.damage)
    (h : cfg.Passes frame m) : m.Arrives := by
  have hsealed : frame.Sealed := frame_eq_seal ▸ seal_sealed _
  rcases h with rfl | ⟨-, r, r', hr⟩
  · exact .inl ⟨beq_iff_eq.mpr hsealed.eq, rfl⟩
  · rw [hdamage] at hr
    unfold Msg.damage at hr
    split at hr
    · cases hr
      exact .inr ⟨beq_eq_false_iff_ne.mpr (flip_ne hsealed r r'), r, r', rfl⟩
    · cases hr

lemma damage_frame (r r' : ℕ) : frame.damage r r' ≠ none := by
  have hlt : ((r : ℤ) % frame.len).toNat < MSGSIZE := by
    simp only [frame, MSGSIZE]
    omega
  unfold Msg.damage
  rw [if_pos ⟨by simp [frame], hlt⟩]
  exact Option.some_ne_none _

/-- What the link has made of the frame number `j`. -/
def damaged (ks : List (Msg × Msg)) (j : ℕ) (m : Msg) : Msg := (ks[j]?.map Prod.snd).getD m

lemma damaged_compatible (ks : List (Msg × Msg)) : Net.Compatible (damaged ks) ks := by
  intro j x hx
  simp [damaged, hx]

lemma map_damaged (ks : List (Msg × Msg)) :
    (List.range ks.length).map (fun j => damaged ks j frame) = ks.map Prod.snd := by
  refine List.ext_getElem (by simp) ?_
  intro j hj hj'
  have hlt : j < ks.length := by simpa using hj
  simp [damaged, List.getElem?_eq_getElem hlt]

/-- A run with the count of the messages is one without. -/
lemma exists_uncounted {S' : Sys Sender (ℕ × Receiver) Msg}
    (h : run (Sender.next w) (noisy c (Receiver.next fun _ m => m))
      ⟨(start r).left, (0, (start r).right), [], []⟩ sides = some S') :
    ∃ S, run (Sender.next w) (Receiver.next c) (start r) sides = some S ∧
      S.mapRight Receiver.counted = S' := by
  have hmap : run (Sender.next w) (noisy c (Receiver.next fun _ m => m))
      ((start r).mapRight Receiver.counted) sides =
        (run (Sender.next w) (Receiver.next c) (start r) sides).map (Sys.mapRight Receiver.counted) :=
    run_mapRight noisy_counted
  exact Option.map_eq_some_iff.mp (hmap.symm.trans h)

/-- The sender, the emulator and the receiver, in a window of `w` frames. -/
abbrev emulated (cfg : Settings Msg) (w : ℤ) :
    Net Sender Receiver Msg → Move Msg → Option (Net Sender Receiver Msg × List (Effect Msg)) :=
  Net.step cfg (Sender.next w) (Receiver.next fun _ m => m)

section

variable {cfg : Settings Msg} {hello : Msg} {moves : List (Move Msg)} {n : Net Sender Receiver Msg}
  {out : List (Effect Msg)}

/-- What is known where a run with the emulator ends: the run on queues, and how the emulator ends. -/
lemma emulated_sim (hdamage : cfg.damage = Msg.damage) (hloss : cfg.loss ≤ 0) (hw : 1 ≤ w)
    (hle : w ≤ COUNT)
    (h : exec (emulated cfg w) (Net.start (start r).left (start r).right hello) moves = some (n, out)) :
    (∃ ks i, Net.Sim (· = frame) cfg (Sender.next w) (Receiver.next fun _ m => m) (start r).left
      (start r).right moves n out ks i) ∧ (n.link.ended = true → .abort ∈ out) := by
  have hP : ∀ l m u, Sender.next w l = .send m u → m = frame := fun l m u hact => (counters_send hact).1
  have hfirst : ∃ k, (Receiver.next fun _ m => m) (start r).right = .recv k := by
    refine ⟨fun m => .reply m 0, ?_⟩
    simp [start, Receiver.next]
  have hroom : ∀ c, Net.Damages cfg c → ∀ sides S, Duet.run (Sender.next w)
      (noisy c (Receiver.next fun _ m => m)) ⟨(start r).left, (0, (start r).right), [], []⟩ sides = some S →
        S.toRight.length ≤ Emulator.BUFFER_SIZE := by
    intro c _ sides S hS
    obtain ⟨S', hS', rfl⟩ := exists_uncounted hS
    exact (toRight_le hw hle hS').trans (by simp)
  refine ⟨Net.exists_sim hP hloss hfirst hroom h, ?_⟩
  refine Net.abort_of_ended hP hloss hfirst hroom ?_ h
  rintro - m rfl r r'
  rw [hdamage]
  exact damage_frame r r'

/-- **The sliding window over the emulator.** With an argument from 12 to 1131 and no loss, whatever the
threads of the emulator and the two processes do in which order: the sender keeps its accounting, the
two move `4 * COUNT` times at most, the emulator ends only when an assertion fails, and when nothing
moves any more both have returned, with `COUNT` frames sent and answered; the sender has counted an
`ACK` for each that came through as it was sent and a `NACK` for each other one. -/
theorem window_emulated (hdamage : cfg.damage = Msg.damage) (hloss : cfg.loss ≤ 0)
    (hpos : 0 < cfg.serializationDelay + cfg.delay) (harg : 12 ≤ atoi arg ∧ atoi arg ≤ 1131) :
    ∃ w, windowSize arg = some w ∧ ∀ r hello moves n out,
      exec (emulated cfg w) (Net.start (start r).left (start r).right hello) moves = some (n, out) →
        Accounted w n.left ∧ (Net.sides moves).length ≤ 4 * COUNT ∧
        (n.link.ended = true → .abort ∈ out) ∧
        (Net.Still cfg (Sender.next w) (Receiver.next fun _ m => m) n →
          n.left.next w = .done ∧ n.right.next (fun _ m => m) = .done ∧
          n.left.counters.sent = COUNT ∧ n.left.counters.received = COUNT ∧
          (forwarded out).length = COUNT ∧ (∀ m ∈ forwarded out, m.Arrives) ∧
          n.left.counters.acks = (forwarded out).countP Msg.intact ∧
          n.left.counters.nacks = (forwarded out).countP fun m => !m.intact) := by
  obtain ⟨w, hsize, hw, hle⟩ := windowSize_of_range harg
  refine ⟨w, hsize, ?_⟩
  intro r hello moves n out h
  obtain ⟨⟨ks, i, hs⟩, hend⟩ := emulated_sim hdamage hloss hw hle h
  obtain ⟨S, hS, hview⟩ := exists_uncounted (hs.run _ (damaged_compatible ks))
  have hleft : S.left = n.left := congrArg Sys.left hview
  refine ⟨hleft ▸ (inv_run hw hS).accounted hw, length_run_le hw hle hS, hend, ?_⟩
  intro hstill
  have hinv := Net.inv_link hpos h
  have hblocked : ∀ side, step (Sender.next w) (Receiver.next (damaged ks)) S side = none := by
    intro side
    have hno := hstill.blocked hinv hs (c := damaged ks) side
    rw [← hview, step_mapRight noisy_counted, Option.map_eq_none_iff] at hno
    exact hno
  obtain ⟨hfinal, hsent, hrec⟩ := done_of_blocked hw hle hS hblocked
  have htally := tally_run hS
  have hdone := (final_mapRight (g := Receiver.counted) noisy_counted).mpr hfinal
  rw [hview] at hdone
  -- everything has been received
  have hsum := htally.sent
  have hans := taken_ge S.right
  have hge := htally.received_le
  rw [hrec] at hge
  rw [hsent] at hsum
  have htaken : S.right.taken = i := congrArg (fun T : Sys Sender (ℕ × Receiver) Msg => T.right.1) hview
  have hcount : ks.length = COUNT := by
    have hlen := congrArg (fun T : Sys Sender (ℕ × Receiver) Msg => T.toRight.length) hview
    have hi := hs.le
    simp only [Sys.mapRight, Net.view, List.length_append, List.length_map, List.length_drop] at hlen
    omega
  have hforward : forwarded out = ks.map Prod.snd := by
    rw [hs.sent, (hstill.quiet hinv).2.2.2.2, List.append_nil]
  refine ⟨hleft ▸ hfinal.1, noisy_eq_done.mp hdone.2, hleft ▸ hsent, hleft ▸ hrec, ?_, ?_, ?_, ?_⟩
  · rw [hforward, List.length_map, hcount]
  · intro m hm
    rw [hforward] at hm
    obtain ⟨x, hx, rfl⟩ := List.mem_map.mp hm
    have hframe : x.1 = frame :=
      hs.source x.1 (List.mem_append_left _ (List.mem_map_of_mem hx))
    exact arrives_of_passes hdamage (hframe ▸ hs.passes x hx)
  · have hacks := htally.acks
    rw [hrec, ← hcount] at hacks
    rw [← hleft, hacks, hforward, ← map_damaged, List.countP_map, Function.comp_def]
  · have hnacks := htally.nacks
    rw [hrec, ← hcount] at hnacks
    rw [← hleft, hnacks, hforward, ← map_damaged, List.countP_map, Function.comp_def]

/-- The experiment of `run_experiment.sh`: 10 Mb/s, a delay of 10 ms, and 5 frames of 100 damaged. -/
theorem window_emulated_experiment : ∃ w, windowSize (text "100") = some w ∧ ∀ r hello moves n out,
    exec (emulated ⟨2240, 10000, 0, 5, Msg.damage⟩ w) (Net.start (start r).left (start r).right hello)
      moves = some (n, out) → Accounted w n.left ∧ (Net.sides moves).length ≤ 4 * COUNT := by
  have hdamage : (⟨2240, 10000, 0, 5, Msg.damage⟩ : Settings Msg).damage = Msg.damage := rfl
  have harg : 12 ≤ atoi (text "100") ∧ atoi (text "100") ≤ 1131 := by decide
  obtain ⟨w, hsize, hw⟩ := window_emulated hdamage le_rfl (by norm_num) harg
  refine ⟨w, hsize, fun r hello moves n out h => ?_⟩
  exact ⟨(hw r hello moves n out h).1, (hw r hello moves n out h).2.1⟩

end

end Protocoale.Lab03

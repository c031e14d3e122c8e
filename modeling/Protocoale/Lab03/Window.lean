import Protocoale.Lib.CText
import Protocoale.Lib.Duet

/-!
The sliding window of the third laboratory (`send.c`, `recv.c`, `lib.h`): the sender keeps as many frames
on the way as its argument, the product of bandwidth and delay, allows for, and the receiver answers each
of `COUNT` frames once. The link loses nothing and keeps the order; what it does to the bytes of a frame
is left open (`corrupt`).

The three loops of the sender add up to `COUNT` when the window is neither empty nor larger than
`COUNT`, and the code checks neither (`works_iff`).
-/

namespace Protocoale.Lab03

open Lib Lib.Bytes Lib.CText Lib.Duet

@[simp] abbrev MSGSIZE : ℕ := 1400
@[simp] abbrev COUNT : ℕ := 100

/-- `msg` -/
structure Msg where
  len : ℤ
  payload : Buf

/-- `checksum`: the last byte is reserved for it. -/
def checksum (msg : Buf) : UInt8 :=
  (List.range (MSGSIZE - 3)).foldl (fun result i => result ^^^ msg (i + 2)) (msg 0 ^^^ msg 1)

/-! ### The sender -/

/-- `window_size` for the argument of the program, where the multiplication does not overflow. -/
def windowSize (arg : List UInt8) : Option ℤ :=
  if -2 ^ 31 ≤ atoi arg * 1000 ∧ atoi arg * 1000 < 2 ^ 31 then
    some ((atoi arg * 1000).tdiv (MSGSIZE * 8))
  else none

/-- The empty message in a frame. -/
def frame : Msg where
  len := MSGSIZE
  payload i := if i = MSGSIZE - 1 then checksum fun _ => 0 else 0

/-- The counters of the sender, and beside them how many frames it sent and responses it received. -/
structure Counters where
  inQueue : ℤ
  acks : ℤ
  nacks : ℤ
  sent : ℕ
  received : ℕ

/-- `send_message` and the line after it. -/
def Counters.send (c : Counters) : Counters := { c with inQueue := c.inQueue + 1, sent := c.sent + 1 }

/-- `handle_response` -/
def Counters.handleResponse (c : Counters) (response : List UInt8) : Counters :=
  if response = text "NACK" then { c with nacks := c.nacks + 1 }
  else if response = text "ACK" then { c with acks := c.acks + 1 }
  else c

/-- `recv_message` and the lines after it. -/
def Counters.recv (c : Counters) (t : Msg) : Counters :=
  { c with inQueue := c.inQueue - 1, received := c.received + 1 }.handleResponse
    (cstr (read t.payload 0 MSGSIZE))

/-- The places of the sender before a `send_message` or a `recv_message`. -/
inductive Sender where
  /-- at the head of the first loop -/
  | first (c : Counters) (i : ℤ)
  /-- at the head of the second loop -/
  | second (c : Counters) (i : ℤ)
  /-- in the second loop, after the response -/
  | refill (c : Counters) (i : ℤ)
  /-- at the head of the third loop -/
  | third (c : Counters) (i : ℤ)

namespace Sender

/-- From the head of the third loop on. -/
def fromThird (windowSize : ℤ) (c : Counters) (i : ℤ) : Act Sender Msg :=
  if i < windowSize then .recv fun t => .third (c.recv t) (i + 1) else .done

/-- From the head of the second loop on. -/
def fromSecond (windowSize : ℤ) (c : Counters) (i : ℤ) : Act Sender Msg :=
  if i < COUNT - windowSize then .recv fun t => .refill (c.recv t) i
  else fromThird windowSize c 0

/-- `main` of the sender, from the first loop on. -/
def next (windowSize : ℤ) : Sender → Act Sender Msg
  | .first c i =>
    if i < windowSize then .send frame (.first c.send (i + 1)) else fromSecond windowSize c 0
  | .second c i => fromSecond windowSize c i
  | .refill c i => .send frame (.second c.send (i + 1))
  | .third c i => fromThird windowSize c i

def counters : Sender → Counters
  | .first c _ | .second c _ | .refill c _ | .third c _ => c

lemma counters_third (c : Counters) (i : ℤ) : (Sender.third c i).counters = c := rfl

end Sender

/-! ### The receiver -/

/-- The places of the receiver. -/
inductive Receiver where
  /-- at the head of the loop -/
  | head (r : Msg) (i : ℕ)
  /-- after the message -/
  | reply (r : Msg) (i : ℕ)

/-- The message with the string of a response at the start of the payload. -/
def Msg.respond (r : Msg) (s : List UInt8) : Msg := { r with payload := write r.payload 0 (s ++ [0]) }

/-- The answer to a message: the last byte is the checksum of the others, or not. -/
def Msg.answer (r : Msg) : Msg :=
  if r.payload (MSGSIZE - 1) = checksum r.payload then r.respond (text "ACK")
  else r.respond (text "NACK")

/-- `main` of the receiver; `corrupt i` is what the link made of the frame `i`. -/
def Receiver.next (corrupt : ℕ → Msg → Msg) : Receiver → Act Receiver Msg
  | .head _ i => if i < COUNT then .recv fun m => .reply (corrupt i m) i else .done
  | .reply r i => .send r.answer (.head r.answer (i + 1))

/-- Both started. -/
def start (r : Msg) : Sys Sender Receiver Msg := ⟨.first ⟨0, 0, 0, 0, 0⟩ 0, .head r 0, [], []⟩

/-! ### The accounting -/

/-- `in_queue` is the number of frames sent without a response, fits the window, and is positive where
the sender waits. -/
structure Accounted (windowSize : ℤ) (s : Sender) : Prop where
  eq : s.counters.inQueue = s.counters.sent - s.counters.received
  nonneg : 0 ≤ s.counters.inQueue
  le : s.counters.inQueue ≤ windowSize
  pos : ∀ k, s.next windowSize = .recv k → 1 ≤ s.counters.inQueue

/-- The window is defined, the accounting is right in every state, and every run goes on to one end,
and nowhere else, where `COUNT` frames were sent, `COUNT` responses received and both have returned. -/
def Works (corrupt : ℕ → Msg → Msg) (r : Msg) (arg : List UInt8) : Prop :=
  ∃ w f n, windowSize arg = some w ∧ Final (Sender.next w) (Receiver.next corrupt) f ∧
    f.left.counters.sent = COUNT ∧ f.left.counters.received = COUNT ∧
    f.left.counters.inQueue = 0 ∧
    ∀ sides s, run (Sender.next w) (Receiver.next corrupt) (start r) sides = some s →
      Accounted w s.left ∧ sides.length ≤ n ∧
      (∃ rest, run (Sender.next w) (Receiver.next corrupt) s rest = some f) ∧
      ((∀ side, step (Sender.next w) (Receiver.next corrupt) s side = none) → s = f)

section

variable {w : ℤ} {c : Counters} {i : ℤ} {s : Sender} {m t r : Msg} {k : Msg → Sender}
  {corrupt : ℕ → Msg → Msg} {j n : ℕ}

@[simp] lemma Counters.send_inQueue : c.send.inQueue = c.inQueue + 1 := rfl
@[simp] lemma Counters.send_sent : c.send.sent = c.sent + 1 := rfl
@[simp] lemma Counters.send_received : c.send.received = c.received := rfl

lemma Counters.handleResponse_eq (c : Counters) (response : List UInt8) :
    (c.handleResponse response).inQueue = c.inQueue ∧ (c.handleResponse response).sent = c.sent ∧
      (c.handleResponse response).received = c.received := by
  unfold handleResponse
  split
  · exact ⟨rfl, rfl, rfl⟩
  · split <;> exact ⟨rfl, rfl, rfl⟩

@[simp] lemma Counters.recv_inQueue : (c.recv t).inQueue = c.inQueue - 1 := (handleResponse_eq _ _).1
@[simp] lemma Counters.recv_sent : (c.recv t).sent = c.sent := (handleResponse_eq _ _).2.1
@[simp] lemma Counters.recv_received : (c.recv t).received = c.received + 1 := (handleResponse_eq _ _).2.2

/-- Where the sender is says how many frames are on the way. -/
def InQueue (w : ℤ) : Sender → Prop
  | .first c i => c.inQueue = i ∧ 0 ≤ i ∧ i ≤ w
  | .second c _ => c.inQueue = w
  | .refill c _ => c.inQueue = w - 1
  | .third c i => c.inQueue = w - i ∧ 0 ≤ i ∧ i ≤ w ∧ w ≤ c.sent

/-- The invariant of the sender, for a window that is not empty. -/
def Inv (w : ℤ) (s : Sender) : Prop :=
  InQueue w s ∧ s.counters.inQueue = s.counters.sent - s.counters.received

lemma fromThird_recv (hq : c.inQueue = w - i) (h0 : 0 ≤ i) (hsent : w ≤ c.sent)
    (heq : c.inQueue = c.sent - c.received) (h : Sender.fromThird w c i = .recv k) :
    1 ≤ c.inQueue ∧ ∀ t, Inv w (k t) := by
  unfold Sender.fromThird at h
  split at h
  · cases h
    refine ⟨by omega, ?_⟩
    intro t
    refine ⟨⟨?_, by omega, by omega, by rwa [Counters.recv_sent]⟩, ?_⟩
    · simp only [Counters.recv_inQueue]
      omega
    · simp only [Sender.counters, Counters.recv_inQueue, Counters.recv_sent, Counters.recv_received]
      push_cast
      omega
  · cases h

lemma fromSecond_recv (hw : 1 ≤ w) (hq : c.inQueue = w) (heq : c.inQueue = c.sent - c.received)
    (h : Sender.fromSecond w c i = .recv k) : 1 ≤ c.inQueue ∧ ∀ t, Inv w (k t) := by
  unfold Sender.fromSecond at h
  split at h
  · cases h
    refine ⟨by omega, ?_⟩
    intro t
    refine ⟨?_, ?_⟩
    · show (c.recv t).inQueue = w - 1
      rw [Counters.recv_inQueue, hq]
    · simp only [Sender.counters, Counters.recv_inQueue, Counters.recv_sent, Counters.recv_received]
      push_cast
      omega
  · exact fromThird_recv (by omega) le_rfl (by omega) heq h

/-- Where the sender waits, a response is due, and it keeps the invariant. -/
lemma Inv.recv (hw : 1 ≤ w) (hs : Inv w s) (h : s.next w = .recv k) :
    1 ≤ s.counters.inQueue ∧ ∀ t, Inv w (k t) := by
  obtain ⟨hq, heq⟩ := hs
  cases s with
  | first c i =>
    obtain ⟨hq, h0, hle⟩ := hq
    simp only [Sender.next] at h
    split at h
    · cases h
    · next hi => exact fromSecond_recv hw (hq.trans (le_antisymm hle (not_lt.mp hi))) heq h
  | second c i => exact fromSecond_recv hw hq heq h
  | refill c i => cases h
  | third c i => exact fromThird_recv hq.1 hq.2.1 hq.2.2.2 heq h

lemma fromThird_ne_send : Sender.fromThird w c i ≠ .send m s := by
  unfold Sender.fromThird
  split <;> simp

lemma fromSecond_ne_send : Sender.fromSecond w c i ≠ .send m s := by
  unfold Sender.fromSecond
  split
  · simp
  · exact fromThird_ne_send

/-- A frame that is sent keeps the invariant. -/
lemma Inv.send {s' : Sender} (hs : Inv w s) (h : s.next w = .send m s') : Inv w s' := by
  obtain ⟨hq, heq⟩ := hs
  cases s with
  | first c i =>
    obtain ⟨hq, h0, hle⟩ := hq
    simp only [Sender.counters] at heq
    simp only [Sender.next] at h
    split at h
    · cases h
      refine ⟨⟨by simp [hq], by omega, by omega⟩, ?_⟩
      simp only [Sender.counters, Counters.send_inQueue, Counters.send_sent, Counters.send_received]
      push_cast
      omega
    · exact absurd h fromSecond_ne_send
  | second c i => exact absurd h fromSecond_ne_send
  | refill c i =>
    simp only [Sender.counters] at heq
    cases h
    refine ⟨?_, ?_⟩
    · show c.inQueue + 1 = w
      rw [show c.inQueue = w - 1 from hq, sub_add_cancel]
    · simp only [Sender.counters, Counters.send_inQueue, Counters.send_sent, Counters.send_received]
      push_cast
      omega
  | third c i => exact absurd h fromThird_ne_send

/-- The accounting follows from the invariant. -/
lemma Inv.accounted (hw : 1 ≤ w) (hs : Inv w s) : Accounted w s := by
  have hrange : 0 ≤ s.counters.inQueue ∧ s.counters.inQueue ≤ w := by
    obtain ⟨hq, -⟩ := hs
    cases s <;> simp only [InQueue, Sender.counters] at hq ⊢ <;> omega
  refine ⟨hs.2, hrange.1, hrange.2, ?_⟩
  intro k hk
  exact (hs.recv hw hk).1

/-- A sender that has returned has sent a window at least. -/
lemma Inv.le_sent (hs : Inv w s) (h : s.next w = .done) : w ≤ s.counters.sent := by
  obtain ⟨hq, heq⟩ := hs
  cases s with
  | first c i =>
    obtain ⟨hq, -, -⟩ := hq
    simp only [Sender.next] at h
    split at h
    · cases h
    · simp only [Sender.counters] at heq ⊢
      omega
  | second c i =>
    simp only [InQueue, Sender.counters] at hq heq ⊢
    omega
  | refill c i => cases h
  | third c i => exact hq.2.2.2

/-! ### A run to the end -/

/-- The sender and the receiver, with frames on the way and no response. -/
abbrev inFlight (s : Sender) (r : Receiver) (n : ℕ) : Sys Sender Receiver Msg :=
  ⟨s, r, List.replicate n frame, []⟩

/-- The first window is sent. -/
lemma run_first (corrupt : ℕ → Msg → Msg) {r : Receiver} (hj : i + j = w) :
    ∃ sides c', run (Sender.next w) (Receiver.next corrupt) (inFlight (.first c i) r n) sides =
      some (inFlight (.first c' w) r (n + j)) ∧ c'.sent = c.sent + j ∧ c'.received = c.received := by
  induction j generalizing c i n with
  | zero =>
    refine ⟨[], c, ?_, rfl, rfl⟩
    rw [show w = i by omega]
    rfl
  | succ j ih =>
    have hi : i < w := by omega
    obtain ⟨sides, c', hrun, hsent, hrec⟩ := ih (c := c.send) (i := i + 1) (n := n + 1) (by omega)
    refine ⟨.left :: sides, c', ?_, by rw [hsent, Counters.send_sent]; omega, hrec⟩
    have hstep : step (Sender.next w) (Receiver.next corrupt) (inFlight (.first c i) r n) .left =
        some (inFlight (.first c.send (i + 1)) r (n + 1)) := by
      simp [step, Sender.next, if_pos hi, move, List.replicate_succ']
    rw [run_cons, hstep, Option.bind_some, hrun, show n + 1 + j = n + (j + 1) by omega]

/-- The receiver answers a frame. -/
lemma run_answer (corrupt : ℕ → Msg → Msg) (hj : j < COUNT) : ∃ r' m, run (Sender.next w) (Receiver.next corrupt)
    (inFlight s (.head r j) (n + 1)) [.right, .right] =
      some ⟨s, .head r' (j + 1), List.replicate n frame, [m]⟩ := by
  refine ⟨(corrupt j frame).answer, (corrupt j frame).answer, ?_⟩
  simp only [run_cons, step, Receiver.next, if_pos hj, List.replicate_succ, move, Option.map_some,
    Option.bind_some, List.nil_append, run_nil]

/-- As long as there are frames to send, a response makes room for the next one. -/
lemma run_second (corrupt : ℕ → Msg → Msg) (j' : ℕ) (hs : s.next w = Sender.fromSecond w c i) (hc : s.counters = c)
    (hi : i + j' = COUNT - w)
    (hj : j + j' + n < COUNT) :
    ∃ sides s' c' r', run (Sender.next w) (Receiver.next corrupt)
      (inFlight s (.head r j) (n + 1)) sides = some (inFlight s' (.head r' (j + j')) (n + 1)) ∧
      s'.next w = Sender.fromSecond w c' (COUNT - w) ∧ s'.counters = c' ∧
      c'.sent = c.sent + j' ∧ c'.received = c.received + j' := by
  induction j' generalizing s c i r j with
  | zero =>
    refine ⟨[], s, c, r, rfl, ?_, hc, rfl, rfl⟩
    rw [hs, ← hi, Nat.cast_zero, add_zero]
  | succ j' ih =>
    have hlt : i < COUNT - w := by omega
    obtain ⟨r₁, m, h₁⟩ := run_answer corrupt (w := w) (s := s) (r := r) (n := n)
      (show j < COUNT by omega)
    have h₂ : run (Sender.next w) (Receiver.next corrupt)
        ⟨s, .head r₁ (j + 1), List.replicate n frame, [m]⟩ [.left, .left] =
          some (inFlight (.second (c.recv m).send (i + 1)) (.head r₁ (j + 1)) (n + 1)) := by
      have hwait : s.next w = .recv fun t => .refill (c.recv t) i := hs.trans (if_pos hlt)
      have hsend : (Sender.refill (c.recv m) i).next w =
          .send frame (.second (c.recv m).send (i + 1)) := rfl
      simp only [run_cons, step, hwait, hsend, move, Option.map_some, Option.bind_some, run_nil]
      rw [inFlight, List.replicate_succ']
    obtain ⟨sides, s', c', r', h₃, hs', hc', hsent, hrec⟩ := ih
      (s := .second (c.recv m).send (i + 1)) (c := (c.recv m).send) (i := i + 1) (r := r₁)
      (j := j + 1) rfl rfl (by omega) (by omega)
    have hall := run_trans h₁ (run_trans h₂ h₃)
    rw [show j + 1 + j' = j + (j' + 1) by omega] at hall
    refine ⟨_, s', c', r', hall, hs', hc', ?_, ?_⟩
    · rw [hsent, Counters.send_sent, Counters.recv_sent]
      omega
    · rw [hrec, Counters.send_received, Counters.recv_received]
      omega

/-- The responses that are left are received. -/
lemma run_third (corrupt : ℕ → Msg → Msg) (hs : s.next w = Sender.fromThird w c i) (hc : s.counters = c) (hi : i + n = w)
    (hj : j + n ≤ COUNT) :
    ∃ sides s' r', run (Sender.next w) (Receiver.next corrupt) (inFlight s (.head r j) n) sides =
        some (inFlight s' (.head r' (j + n)) 0) ∧ s'.next w = .done ∧
      s'.counters.sent = c.sent ∧ s'.counters.received = c.received + n := by
  induction n generalizing s c i r j with
  | zero =>
    have hend : ¬ i < w := by omega
    refine ⟨[], s, r, rfl, hs.trans (if_neg hend), ?_, ?_⟩
    · rw [hc]
    · rw [hc, Nat.add_zero]
  | succ n ih =>
    have hlt : i < w := by omega
    obtain ⟨r₁, m, h₁⟩ := run_answer corrupt (w := w) (s := s) (r := r) (n := n)
      (show j < COUNT by omega)
    have h₂ : run (Sender.next w) (Receiver.next corrupt)
        ⟨s, .head r₁ (j + 1), List.replicate n frame, [m]⟩ [.left] =
          some (inFlight (.third (c.recv m) (i + 1)) (.head r₁ (j + 1)) n) := by
      have hwait : s.next w = .recv fun t => .third (c.recv t) (i + 1) := hs.trans (if_pos hlt)
      simp only [run_cons, step, hwait, move, Option.map_some, Option.bind_some, run_nil]
    obtain ⟨sides, s', r', h₃, hdone, hsent, hrec⟩ := ih (s := .third (c.recv m) (i + 1))
      (c := c.recv m) (i := i + 1) (r := r₁) (j := j + 1) rfl (Sender.counters_third _ _) (by omega) (by omega)
    have hall := run_trans h₁ (run_trans h₂ h₃)
    rw [show j + 1 + n = j + (n + 1) by omega] at hall
    refine ⟨_, s', r', hall, hdone, ?_, ?_⟩
    · rw [hsent, Counters.recv_sent]
    · rw [hrec, Counters.recv_received]
      omega

/-- With a window that is neither empty nor too large, one run goes to the end. -/
lemma exists_run (corrupt : ℕ → Msg → Msg) (r : Msg) (hw : 1 ≤ w) (hle : w ≤ COUNT) : ∃ sides s' r',
    run (Sender.next w) (Receiver.next corrupt) (start r) sides =
      some (inFlight s' (.head r' COUNT) 0) ∧ s'.next w = .done ∧
    s'.counters.sent = COUNT ∧ s'.counters.received = COUNT := by
  obtain ⟨n, rfl⟩ : ∃ n : ℕ, w = n + 1 := ⟨(w - 1).toNat, by omega⟩
  obtain ⟨m, hm⟩ : ∃ m : ℕ, m + (n + 1) = COUNT := ⟨COUNT - (n + 1), by omega⟩
  have hm' : (m : ℤ) = COUNT - (n + 1) := by rw [← hm]; push_cast; ring
  obtain ⟨sides₁, c₁, h₁, hsent₁, hrec₁⟩ := run_first corrupt (w := n + 1)
    (c := ⟨0, 0, 0, 0, 0⟩) (i := 0) (j := n + 1) (n := 0) (r := .head r 0) (by simp)
  have hfirst : (Sender.first c₁ (n + 1)).next (n + 1) = Sender.fromSecond (n + 1) c₁ 0 :=
    if_neg (lt_irrefl _)
  rw [Nat.zero_add] at h₁
  obtain ⟨sides₂, s₂, c₂, r₂, h₂, hs₂, hc₂, hsent₂, hrec₂⟩ := run_second corrupt m (r := r)
    (j := 0) (n := n) hfirst rfl (by rw [hm', zero_add]) (by omega)
  have hsecond : s₂.next (n + 1) = Sender.fromThird (n + 1) c₂ 0 := hs₂.trans (if_neg (lt_irrefl _))
  obtain ⟨sides₃, s₃, r₃, h₃, hdone, hsent₃, hrec₃⟩ := run_third corrupt (r := r₂)
    (j := 0 + m) (n := n + 1) hsecond hc₂ (by simp) (by omega)
  have hall := run_trans h₁ (run_trans h₂ h₃)
  rw [show 0 + m + (n + 1) = COUNT by omega] at hall
  refine ⟨_, s₃, r₃, hall, hdone, ?_, ?_⟩
  · rw [hsent₃, hsent₂, hsent₁]
    show 0 + (n + 1) + m = COUNT
    omega
  · rw [hrec₃, hrec₂, hrec₁]
    show 0 + m + (n + 1) = COUNT
    omega

/-! ### When the window works -/

variable {arg : List UInt8}

lemma inv_start (hw : 0 ≤ w) : Inv w (start r).left := ⟨⟨rfl, le_rfl, hw⟩, rfl⟩

/-- Every run keeps the invariant of the sender. -/
lemma inv_run {sides : List Side} {s : Sys Sender Receiver Msg} (hw : 1 ≤ w)
    (h : run (Sender.next w) (Receiver.next corrupt) (start r) sides = some s) : Inv w s.left := by
  refine run_left_inv (P := Inv w) ?_ ?_ (inv_start (by omega)) h
  · intro s m t hs hsend
    exact hs.send hsend
  · intro s k m hs hrecv
    exact (hs.recv hw hrecv).2 m

lemma works_of_range (h : 12 ≤ atoi arg ∧ atoi arg ≤ 1131) : Works corrupt r arg := by
  obtain ⟨w, hw⟩ : ∃ w, w = (atoi arg * 1000).tdiv (MSGSIZE * 8) := ⟨_, rfl⟩
  have hsize : windowSize arg = some w := by
    unfold windowSize
    rw [if_pos (by omega), hw]
  have hrange : 1 ≤ w ∧ w ≤ COUNT := by
    rw [Int.tdiv_eq_ediv_of_nonneg (by omega)] at hw
    simp only [MSGSIZE, COUNT] at hw ⊢
    omega
  obtain ⟨sides, s', r', hrun, hdone, hsent, hrec⟩ :=
    exists_run corrupt r hrange.1 hrange.2
  have hfinal : Final (Sender.next w) (Receiver.next corrupt) (inFlight s' (.head r' COUNT) 0) :=
    ⟨hdone, by simp [Receiver.next]⟩
  have heq := (inv_run hrange.1 hrun).2
  refine ⟨w, _, sides.length, hsize, hfinal, hsent, hrec, ?_, ?_⟩
  · rw [heq, hsent, hrec, sub_self]
  · intro sides' s hs
    obtain ⟨rest, hrest, hlen⟩ := run_final hfinal hrun hs
    exact ⟨(inv_run hrange.1 hs).accounted hrange.1, by omega, ⟨rest, hrest⟩,
      eq_of_blocked hfinal hrun hs⟩

lemma range_of_works (h : Works corrupt r arg) : 12 ≤ atoi arg ∧ atoi arg ≤ 1131 := by
  obtain ⟨w, f, n, hsize, hfinal, hsent, -, -, hall⟩ := h
  obtain ⟨hstart, -, ⟨rest, hrest⟩, -⟩ := hall [] (start r) rfl
  -- with an empty window the sender waits before it has sent anything
  have hpos : 1 ≤ w := by
    by_contra hw
    have hwait : (start r).left.next w = .recv fun t =>
        .refill ((⟨0, 0, 0, 0, 0⟩ : Counters).recv t) 0 := by
      show (if (0 : ℤ) < w then _ else Sender.fromSecond w _ 0) = _
      rw [if_neg (by omega)]
      exact if_pos (by simp; omega)
    have hempty : (start r).left.counters.inQueue = 0 := rfl
    have := hstart.pos _ hwait
    omega
  have hle : w ≤ COUNT := by
    rw [← hsent]
    exact (inv_run hpos hrest).le_sent hfinal.1
  unfold windowSize at hsize
  split at hsize
  · have hw := Option.some.inj hsize
    have hnonneg : 0 ≤ atoi arg * 1000 := by
      by_contra hneg
      have hdiv : 0 ≤ (-(atoi arg * 1000)).tdiv (MSGSIZE * 8) :=
        Int.tdiv_nonneg (by omega) (by decide)
      rw [Int.neg_tdiv, hw] at hdiv
      omega
    rw [Int.tdiv_eq_ediv_of_nonneg hnonneg] at hw
    simp only [MSGSIZE, COUNT] at hw hle
    omega
  · cases hsize

/-- **The window works exactly for the arguments from 12 to 1131**, where the window has at least one
frame and not more than `COUNT`. -/
theorem works_iff (corrupt : ℕ → Msg → Msg) (r : Msg) (arg : List UInt8) :
    Works corrupt r arg ↔ 12 ≤ atoi arg ∧ atoi arg ≤ 1131 :=
  ⟨range_of_works, works_of_range⟩

/-- With the argument 1 the window is empty, and the sender waits for a response to nothing. -/
theorem not_works : ¬ ∀ corrupt r arg, 0 < atoi arg → Works corrupt r arg := by
  intro h
  have hrange := range_of_works (h (fun _ m => m) ⟨0, fun _ => 0⟩ (text "1") (by decide))
  revert hrange
  decide

end

end Protocoale.Lab03

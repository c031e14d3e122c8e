import Protocoale.Tema2.Invariant

/-!
Where the messages of a publication go. A message is sent on the descriptor in the record kept
with the subscription, which is the one of the client's first connection, and reaches the client
only if that is the descriptor it has now (`socketsCurrent_iff`). `Isolated` says what a
publication should do for every client; `isolated_iff` shows that the descriptors are all it can
get wrong.
-/

namespace Protocoale.Tema2

open Lib Lib.Bytes

namespace Server

variable {s s' : Server} {c id : ClientId} {fd i : ℕ} {cliAddr fromStation : SockaddrIn}
  {data : List UInt8} {out : List Output} {t : Topic}

/-! ### What is sent, and to whom -/

/-- The messages among the outputs, with the descriptors they are sent on. -/
def sends (out : List Output) : List (ℕ × SubMessage) := out.filterMap fun
  | .send fd m => some (fd, m)
  | _ => none

/-- The messages sent on the descriptor that belongs to `c`, `s` being the state at the moment of
sending. -/
def sentTo (s : Server) (c : ClientId) (out : List Output) : List SubMessage :=
  (sends out).filterMap fun x => if s.activeIdsSockets.find c = some x.1 then some x.2 else none

def connected (s : Server) (c : ClientId) : Bool := (s.activeIdsSockets.find c).isSome

/-- The descriptors in the records of the connected subscribers of a topic. -/
def recordedSockets (s : Server) (t : Topic) : List ℕ :=
  ((s.subsOf t).filter fun sub => (s.activeIdsSockets.find sub.client.id).isSome).map
    (·.client.socket)

/-- The descriptors the connected subscribers of a topic have now. -/
def currentSockets (s : Server) (t : Topic) : List ℕ :=
  (s.subsOf t).filterMap fun sub => s.activeIdsSockets.find sub.client.id

/-- The sends of a publication go to the subscribers: the descriptors recorded for them are, up to
order, the ones they have. -/
def SocketsCurrent (s : Server) (t : Topic) : Prop :=
  (s.recordedSockets t).Perm (s.currentSockets t)

instance : Decidable (SocketsCurrent s t) := by unfold SocketsCurrent; infer_instance

@[simp] lemma sends_cons_send (m : SubMessage) : sends (.send fd m :: out) = (fd, m) :: sends out :=
  rfl

@[simp] lemma sends_newClient : sends (.newClient id cliAddr :: out) = sends out := rfl

lemma sends_map_send {α : Type*} (f : α → ℕ) (g : α → SubMessage) (l : List α) :
    sends (l.map fun x => .send (f x) (g x)) = l.map fun x => (f x, g x) := by
  induction l with
  | nil => rfl
  | cons x l ih => rw [List.map_cons, sends_cons_send, ih, List.map_cons]

/-- What a publication sends. -/
lemma handleUdpMessage_out : (s.handleUdpMessage fromStation data).2 =
    (s.recordedSockets (udpMessage data).topicStr).map
      fun fd => .send fd (published fromStation data) := by
  rw [handleUdpMessage_eq, recordedSockets, List.map_map]
  rfl

lemma sends_udp : sends (s.handleUdpMessage fromStation data).2 =
    (s.recordedSockets (udpMessage data).topicStr).map fun fd => (fd, published fromStation data) := by
  rw [handleUdpMessage_out, sends_map_send]

lemma filterMap_const (fds : List ℕ) (fd : ℕ) (m : SubMessage) :
    fds.filterMap (fun x => if fd = x then some m else none) = List.replicate (fds.count fd) m := by
  induction fds with
  | nil => rfl
  | cons x fds ih =>
    by_cases h : fd = x
    · subst h
      rw [List.count_cons_self, List.replicate_succ, ← ih]
      simp
    · rw [List.count_cons_of_ne (Ne.symm h), ← ih]
      simp [h]

/-- Copies of one message sent on several descriptors: a client gets one for each time its
descriptor is among them. -/
lemma sentTo_const {fds : List ℕ} {m : SubMessage} (hout : sends out = fds.map fun fd => (fd, m)) :
    sentTo s c out = match s.activeIdsSockets.find c with
      | some fd => List.replicate (fds.count fd) m
      | none => [] := by
  unfold sentTo
  rw [hout, List.filterMap_map]
  cases s.activeIdsSockets.find c with
  | none => simp
  | some fd => simpa [Function.comp_def] using filterMap_const fds fd m

/-- Several messages sent on one descriptor. -/
lemma sentTo_socket {msgs : List SubMessage} (hout : sends out = msgs.map fun m => (fd, m)) :
    sentTo s c out = if s.activeIdsSockets.find c = some fd then msgs else [] := by
  unfold sentTo
  rw [hout, List.filterMap_map]
  split
  · next h => simp [h]
  · next h => simp [h]

/-! ### The sends of a publication -/

/-- Lists of equal length are permutations of each other when they agree on how often each element
of one of them occurs. -/
lemma perm_of_count_eq {l₁ l₂ : List ℕ} (hlen : l₁.length = l₂.length)
    (h : ∀ x ∈ l₂, l₁.count x = l₂.count x) : l₁.Perm l₂ := by
  have hle : (l₂ : Multiset ℕ) ≤ (l₁ : Multiset ℕ) := by
    rw [Multiset.le_iff_count]
    intro x
    simp only [Multiset.coe_count]
    by_cases hx : x ∈ l₂
    · exact (h x hx).ge
    · simp [List.count_eq_zero_of_not_mem hx]
  exact Multiset.coe_eq_coe.mp (Multiset.eq_of_le_of_card_le hle (by simp [hlen])).symm

/-- The recorded descriptors, subscription by subscription as the current ones. -/
lemma recordedSockets_eq : s.recordedSockets t = (s.subsOf t).filterMap fun sub =>
    (s.activeIdsSockets.find sub.client.id).map fun _ => sub.client.socket := by
  unfold recordedSockets
  induction s.subsOf t with
  | nil => rfl
  | cons sub subs ih =>
    cases h : s.activeIdsSockets.find sub.client.id with
    | none => simpa [h] using ih
    | some fd => simpa [h] using ih

lemma length_recordedSockets : (s.recordedSockets t).length = (s.currentSockets t).length := by
  rw [recordedSockets_eq, currentSockets, List.length_filterMap_eq_countP,
    List.length_filterMap_eq_countP]
  apply List.countP_congr
  intro sub _
  rw [Option.isSome_map]

/-- When only elements with equal values of `f` satisfy `p` and the values of `f` are distinct, at
most one element satisfies `p`. -/
lemma countP_le_one {α β : Type*} {f : α → β} {p : α → Bool} {l : List α} (hnodup : (l.map f).Nodup)
    (hp : ∀ x ∈ l, ∀ y ∈ l, p x = true → p y = true → f x = f y) :
    l.countP p = if ∃ x ∈ l, p x = true then 1 else 0 := by
  induction l with
  | nil => simp
  | cons x l ih =>
    rw [List.map_cons, List.nodup_cons] at hnodup
    have ih' := ih hnodup.2 fun y hy z hz => hp y (by simp [hy]) z (by simp [hz])
    cases hx : p x with
    | false => simpa [hx] using ih'
    | true =>
      have hnone : ¬ ∃ y ∈ l, p y = true := by
        rintro ⟨y, hy, hpy⟩
        have := hp x List.mem_cons_self y (List.mem_cons_of_mem _ hy) hx hpy
        exact hnodup.1 (this ▸ List.mem_map_of_mem hy)
      rw [if_neg hnone] at ih'
      rw [List.countP_cons_of_pos hx, ih', if_pos ⟨x, List.mem_cons_self, hx⟩]

/-- The descriptor of a client is the current one of as many subscribers as `c` has
subscriptions: none or one. -/
lemma Inv.count_currentSockets (hinv : Inv s) (hc : s.activeIdsSockets.find c = some fd) :
    (s.currentSockets t).count fd = if ∃ sub ∈ s.subsOf t, sub.client.id = c then 1 else 0 := by
  have hiff : ∀ sub : Subscription, s.activeIdsSockets.find sub.client.id = some fd ↔
      sub.client.id = c := fun sub => ⟨fun h => hinv.socket_inj h hc, fun h => h ▸ hc⟩
  have hcount : (s.currentSockets t).count fd =
      (s.subsOf t).countP fun sub => decide (sub.client.id = c) := by
    unfold currentSockets List.count
    rw [List.countP_filterMap]
    apply List.countP_congr
    intro sub _
    rw [decide_eq_true_iff, ← hiff]
    cases s.activeIdsSockets.find sub.client.id <;> simp
  rw [hcount, countP_le_one (hinv.subs_nodup t) fun x _ y _ hx hy => ?_]
  · simp
  · simp only [decide_eq_true_eq] at hx hy
    rw [hx, hy]

/-- Every current descriptor of a subscriber is the descriptor of a connected client. -/
lemma mem_currentSockets (h : fd ∈ s.currentSockets t) :
    ∃ c, s.activeIdsSockets.find c = some fd := by
  obtain ⟨sub, -, hf⟩ := List.mem_filterMap.mp h
  exact ⟨sub.client.id, hf⟩

/-- **The sends of a publication reach the right clients exactly when the recorded descriptors are
the current ones.** -/
theorem socketsCurrent_iff : SocketsCurrent s t ↔ ∀ c fd, s.activeIdsSockets.find c = some fd →
    (s.recordedSockets t).count fd = (s.currentSockets t).count fd := by
  constructor
  · intro h c fd _
    exact h.count_eq fd
  · intro h
    apply perm_of_count_eq length_recordedSockets
    intro fd hfd
    obtain ⟨c, hc⟩ := mem_currentSockets hfd
    exact h c fd hc

/-! ### Isolation -/

/-- A subscription of `c` asks for what is published while `c` is away. -/
def Keeps (s : Server) (t : Topic) (c : ClientId) : Prop :=
  ∃ sub ∈ s.subsOf t, sub.client.id = c ∧ s.activeIdsSockets.find c = none ∧ sub.sf = SF_ON

instance : Decidable (Keeps s t c) := by unfold Keeps; infer_instance

/-- The publication of `m` gets to the subscribers of its topic and to nobody else. -/
structure Isolated (s : Server) (m : SubMessage) (r : Server × List Output) : Prop where
  /-- One send for each connected subscriber, on the descriptor it has, and no other output. -/
  sent : r.2.Perm ((s.currentSockets m.message.topicStr).map fun fd => .send fd m)
  /-- One copy is kept for each disconnected subscriber that asked for it. -/
  kept : ∀ c, r.1.storeAndForward.find c =
    if s.Keeps m.message.topicStr c then some (s.stored c ++ [m]) else s.storeAndForward.find c
  /-- A topic that was not known gets an empty list of subscriptions. -/
  topics : ∀ t, r.1.topicsSubs.find t =
    if t = m.message.topicStr ∧ s.topicsSubs.find t = none then some [] else s.topicsSubs.find t
  /-- Everything else stays as it was. -/
  frame : r.1 = { s with
    topicsSubs := r.1.topicsSubs
    storeAndForward := r.1.storeAndForward }

/-- At most one copy of a publication is kept for a client. -/
lemma Inv.countP_keepsFor (hinv : Inv s) : (s.subsOf t).countP (keepsFor s.activeIdsSockets c) =
    if s.Keeps t c then 1 else 0 := by
  have hkeep : ∀ sub : Subscription, keepsFor s.activeIdsSockets c sub = true ↔
      sub.client.id = c ∧ s.activeIdsSockets.find c = none ∧ sub.sf = SF_ON := by
    intro sub
    simp [keepsFor, and_assoc]
  rw [countP_le_one (hinv.subs_nodup t)]
  · simp only [hkeep, Keeps]
  · intro x _ y _ hx hy
    rw [((hkeep x).mp hx).1, ((hkeep y).mp hy).1]

@[simp] lemma published_message : (published fromStation data).message = udpMessage data := rfl

/-- **A publication is isolated exactly when the recorded descriptors of the connected subscribers
are the ones they have.** -/
theorem Inv.isolated_iff (hinv : Inv s) :
    Isolated s (published fromStation data) (s.handleUdpMessage fromStation data) ↔
      SocketsCurrent s (udpMessage data).topicStr := by
  have hinj : Function.Injective fun fd => Output.send fd (published fromStation data) := by
    intro fd fd' h
    cases h
    rfl
  constructor
  · intro h
    have hperm := h.sent
    rw [handleUdpMessage_out] at hperm
    exact (List.map_perm_map_iff hinj).mp hperm
  · intro h
    constructor
    case sent =>
      rw [handleUdpMessage_out]
      exact h.map _
    case kept =>
      intro c
      rw [handleUdpMessage_eq, published_message]
      dsimp only
      rw [sendToAll_find, hinv.countP_keepsFor]
      split
      · next hk => rw [if_neg one_ne_zero, List.replicate_one, stored]
      · next hk => rw [if_pos rfl]
    case topics =>
      intro t
      rw [handleUdpMessage_eq, published_message]
      dsimp only
      generalize (udpMessage data).topicStr = t'
      rw [UMap.find_insert]
      by_cases ht : t = t'
      · subst ht
        cases hf : s.topicsSubs.find t <;> simp
      · simp [ht]
    case frame => rw [handleUdpMessage_eq]

/-! ### Descriptors along a run -/

/-- A client that comes back is accepted on the descriptor of its first connection. -/
def SameSocket (s : Server) : Event → Prop
  | .connection newsockfd _ data => ∀ id ∈ newClientId data, s.activeIdsSockets.find id = none →
      ∀ client ∈ s.allClients.find id, client.socket = newsockfd
  | .udp _ _ => True
  | .tcp _ _ => True

instance (s : Server) : (e : Event) → Decidable (SameSocket s e)
  | .connection newsockfd _ data => inferInstanceAs (Decidable (∀ id ∈ newClientId data,
      s.activeIdsSockets.find id = none → ∀ client ∈ s.allClients.find id,
        client.socket = newsockfd))
  | .udp _ _ => inferInstanceAs (Decidable True)
  | .tcp _ _ => inferInstanceAs (Decidable True)

/-- The record of every connected client has the descriptor of the client. -/
def RecordsCurrent (s : Server) : Prop := ∀ id fd client,
  s.activeIdsSockets.find id = some fd → s.allClients.find id = some client → client.socket = fd

lemma RecordsCurrent.socketsCurrent (hinv : Inv s) (h : RecordsCurrent s) (t : Topic) :
    SocketsCurrent s t := by
  have heq : ∀ sub ∈ s.subsOf t, (s.activeIdsSockets.find sub.client.id).map
      (fun _ => sub.client.socket) = s.activeIdsSockets.find sub.client.id := by
    intro sub hsub
    cases hf : s.activeIdsSockets.find sub.client.id with
    | none => rfl
    | some fd => simp [h _ fd _ hf (hinv.subs_record t sub hsub)]
  rw [SocketsCurrent, recordedSockets_eq, List.filterMap_congr heq, currentSockets]

/-- As long as clients come back on the descriptor of their record, the records are current. -/
lemma recordsCurrent_step {e : Event} (hinv : Inv s) (hlegal : Legal s e) (hsame : SameSocket s e)
    (hrec : RecordsCurrent s) (h : step s e = some (s', out)) : RecordsCurrent s' := by
  cases e with
  | connection fd cliAddr data =>
    obtain ⟨hfd, hlen, h0⟩ := hlegal
    rcases connection_cases hinv hfd hlen h0 h with ⟨-, rfl, -⟩ | ⟨hnew, client, hid, hconn, -⟩
    · exact hrec
    · intro id' fd' client' hf hc
      rw [hconn.ids] at hf
      rw [hconn.all] at hc
      split at hf
      · next hk =>
        rw [if_pos hk] at hc
        cases hf
        cases hc
        rw [hconn.record]
        cases hall : s.allClients.find ⟨data, hlen, h0⟩ with
        | none => rfl
        | some client => exact hsame _ (newClientId_of_legal hlen h0) hnew client hall
      · next hk =>
        rw [if_neg hk] at hc
        exact hrec id' fd' client' hf hc
  | udp fromStation data =>
    rw [(step_udp h).1, handleUdpMessage_eq]
    exact hrec
  | tcp i data =>
    rcases handleTcpMessage_cases h with ⟨-, client, -, -, rfl⟩ | ⟨-, -, rfl | ⟨_, _, _, _, -, -, -, rfl⟩⟩
    · intro id' fd' client' hf hc
      rw [UMap.find_erase] at hf
      split at hf
      · cases hf
      · exact hrec id' fd' client' hf hc
    · exact hrec
    · exact hrec

/-- **Live delivery.** In the state a run ends in, a publication is isolated exactly when the
recorded descriptors of its connected subscribers are the ones they have; and every publication is,
when each client that came back was accepted on the descriptor of its first connection. -/
theorem publication_isolated {sockTcp sockUdp : ℕ} {es : List Event}
    (hlegal : Run.Along step Legal (init sockTcp sockUdp) es)
    (h : Run.exec step (init sockTcp sockUdp) es = some (s, out)) :
    (∀ fromStation data, Isolated s (published fromStation data)
        (s.handleUdpMessage fromStation data) ↔ SocketsCurrent s (udpMessage data).topicStr) ∧
      (Run.Along step SameSocket (init sockTcp sockUdp) es → ∀ fromStation data,
        Isolated s (published fromStation data) (s.handleUdpMessage fromStation data)) := by
  have hinv : Inv s := Run.exec_inv (fun _ _ _ _ => inv_step) hlegal (inv_init sockTcp sockUdp) h
  refine ⟨fun fromStation data => hinv.isolated_iff, ?_⟩
  intro hsame fromStation data
  have hboth : Run.Along step (fun s e => Legal s e ∧ SameSocket s e) (init sockTcp sockUdp) es := by
    intro x hx
    exact ⟨hlegal x hx, hsame x hx⟩
  have hrec : Inv s ∧ RecordsCurrent s := by
    refine Run.exec_inv (P := fun s => Inv s ∧ RecordsCurrent s) ?_ hboth ?_ h
    · rintro s e s' out ⟨hinv, hrec⟩ ⟨hl, hs⟩ hstep
      exact ⟨inv_step hinv hl hstep, recordsCurrent_step hinv hl hs hrec hstep⟩
    · refine ⟨inv_init sockTcp sockUdp, ?_⟩
      intro id fd client hf
      simp [init] at hf
  exact hinv.isolated_iff.mpr (hrec.2.socketsCurrent hinv _)

/-- A datagram on the topic `a`. -/
def datagramA : List UInt8 := (pad TOPIC_LEN [97]).toList ++ [3, 104, 105]

/-- A request for the topic `a`, what is published in the client's absence included. -/
def subscribeA : List UInt8 :=
  ClientRequest.enc { topic := pad _ [97], sf := SF_ON, reqType := SUBSCRIBE }

/-- The client `C1` subscribes and leaves, and the client `C2` gets its descriptor. -/
def takenOver : List Event :=
  [.connection 5 (pad _ []) [67, 49], .udp (pad _ []) datagramA, .tcp 5 subscribeA, .tcp 5 [],
    .connection 5 (pad _ []) [67, 50]]

theorem publication_isolated_takenOver : ∃ r, Run.exec step (init 3 4) takenOver = some r ∧
    Isolated r.1 (published (pad _ []) datagramA) (r.1.handleUdpMessage (pad _ []) datagramA) := by
  have hlegal : Run.Along step Legal (init 3 4) takenOver := by decide +kernel
  have hsame : Run.Along step SameSocket (init 3 4) takenOver := by decide +kernel
  have hr : (Run.exec step (init 3 4) takenOver).isSome := by decide +kernel
  obtain ⟨r, hr⟩ := Option.isSome_iff_exists.mp hr
  exact ⟨r, hr, (publication_isolated hlegal hr).2 hsame (pad _ []) datagramA⟩

/-- When `C1` is back on another descriptor, a publication goes to `C2`. -/
theorem not_publication_isolated : ¬ ∀ s, Reachable s → ∀ fromStation data,
    Isolated s (published fromStation data) (s.handleUdpMessage fromStation data) := by
  intro h
  have hlegal : Run.Along step Legal (init 3 4) (takenOver ++ [.connection 6 (pad _ []) [67, 49]]) := by
    decide +kernel
  obtain ⟨r, hr, hstale⟩ : ∃ r, Run.exec step (init 3 4)
      (takenOver ++ [.connection 6 (pad _ []) [67, 49]]) = some r ∧
      r.1.recordedSockets [97] = [5] ∧ r.1.currentSockets [97] = [6] := by
    refine ⟨_, (Option.some_get (by decide +kernel)).symm, ?_⟩
    decide +kernel
  have hreach : Reachable r.1 := ⟨3, 4, Run.Reach.init.of_exec hlegal hr⟩
  have htopic : (udpMessage datagramA).topicStr = [97] := by decide +kernel
  have hcurrent := hreach.inv.isolated_iff.mp (h r.1 hreach (pad _ []) datagramA)
  rw [htopic, SocketsCurrent, hstale.1, hstale.2] at hcurrent
  exact absurd hcurrent (by decide)

end Server

end Protocoale.Tema2

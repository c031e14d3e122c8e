import Protocoale.Lib.Mailbox
import Protocoale.Tema2.Delivery

/-!
Exactly-once delivery along a run. For one client the server is a store-and-forward mailbox:
`mailbox` and `mailEvents` read the mailbox and its events off a state and a step, and
`mailbox_step` says that a legal step of the server is one event of the mailbox of each client, or
none. What a step sends to the clients is what their mailboxes deliver exactly when it meets
`SendsCurrent` (`sentTo_iff`), so a run delivers everything exactly once when all its steps meet
it, and not otherwise (`exactlyOnce_iff`).
-/

namespace Protocoale.Tema2

open Lib Lib.Bytes

namespace Server

variable {s s' : Server} {c id : ClientId} {fd i : ℕ} {cliAddr fromStation : SockaddrIn}
  {data : List UInt8} {out : List Output} {t : Topic} {e : Event} {es : List Event}

/-- The sends of a step go to the clients they are for: the descriptors recorded for the subscribers
of a publication are the ones they have, and a client that messages were kept for comes back on the
descriptor of its record. -/
def SendsCurrent (s : Server) : Event → Prop
  | .connection newsockfd _ data => ∀ id ∈ newClientId data, s.activeIdsSockets.find id = none →
      ∀ client ∈ s.allClients.find id, s.stored id = [] ∨ client.socket = newsockfd
  | .udp _ data => SocketsCurrent s (udpMessage data).topicStr
  | .tcp _ _ => True

instance (s : Server) : (e : Event) → Decidable (SendsCurrent s e)
  | .connection newsockfd _ data => inferInstanceAs (Decidable (∀ id ∈ newClientId data,
      s.activeIdsSockets.find id = none → ∀ client ∈ s.allClients.find id,
        s.stored id = [] ∨ client.socket = newsockfd))
  | .udp _ data => inferInstanceAs (Decidable (SocketsCurrent s (udpMessage data).topicStr))
  | .tcp _ _ => inferInstanceAs (Decidable True)

/-! ### The server as a mailbox for each client -/

/-- The mailbox of a client. -/
def mailbox (s : Server) (c : ClientId) : Mailbox SubMessage := ⟨s.connected c, s.stored c⟩

/-- The message published by an event, when it is one that `c` must get: `c` has a subscription on
its topic, and is connected or has asked for it to be kept. -/
def due (s : Server) (c : ClientId) : Event → List SubMessage
  | .udp fromStation data =>
    if ∃ sub ∈ s.subsOf (udpMessage data).topicStr,
        sub.client.id = c ∧ (s.connected c ∨ sub.sf = SF_ON) then [published fromStation data]
    else []
  | _ => []

/-- What an event is for the mailbox of a client. -/
def mailEvents (s : Server) (c : ClientId) : Event → List (Mailbox.Event SubMessage)
  | .connection _ _ data =>
    if newClientId data = some c ∧ s.connected c = false then [.connect] else []
  | .udp fromStation data =>
    ((s.subsOf (udpMessage data).topicStr).filter fun sub => sub.client.id = c).map
      fun sub => .publish (published fromStation data) (sub.sf = SF_ON)
  | .tcp i data =>
    if data = [] ∧ (s.activeClients.find i).map (·.id) = some c then [.disconnect] else []

/-- The messages the mailbox of a client delivers on an event. -/
def deliveries (s : Server) (c : ClientId) (e : Event) : List SubMessage :=
  ((s.mailbox c).run (s.mailEvents c e)).2

lemma Inv.mailbox_ok (hinv : Inv s) : (s.mailbox c).Ok := by
  intro hon
  by_contra hne
  have hst : s.storeAndForward.find c ≠ none := by
    intro h
    exact hne (by simp [mailbox, stored, h])
  have := hinv.stored_offline c hst
  simp [mailbox, connected, this] at hon

/-- A client has no subscription on a topic, or exactly one. -/
lemma Inv.filter_subs (hinv : Inv s) (t : Topic) (c : ClientId) :
    ((s.subsOf t).filter fun sub => sub.client.id = c) = [] ∨
    ∃ sub, ((s.subsOf t).filter fun sub => sub.client.id = c) = [sub] := by
  have h := countP_le_one (p := fun sub : Subscription => decide (sub.client.id = c))
    (hinv.subs_nodup t) fun x _ y _ hx hy => by
      simp only [decide_eq_true_eq] at hx hy
      rw [hx, hy]
  rw [List.countP_eq_length_filter] at h
  split at h
  · exact Or.inr (List.length_eq_one_iff.mp h)
  · exact Or.inl (List.length_eq_zero_iff.mp h)

/-- A step is at most one event for the mailbox of a client. -/
lemma Inv.mailEvents_length (hinv : Inv s) : (s.mailEvents c e).length ≤ 1 := by
  cases e with
  | connection fd cliAddr data =>
    simp only [mailEvents]
    split <;> simp
  | udp fromStation data =>
    simp only [mailEvents, List.length_map]
    rcases hinv.filter_subs (udpMessage data).topicStr c with h | ⟨sub, h⟩ <;> simp [h]
  | tcp i data =>
    simp only [mailEvents]
    split <;> simp

/-- A property of the subscriptions of a client on a topic, read off the list of them. -/
lemma exists_sub_iff {l : List Subscription} {P : Subscription → Prop}
    (h : ((s.subsOf t).filter fun sub => sub.client.id = c) = l) :
    (∃ sub ∈ s.subsOf t, sub.client.id = c ∧ P sub) ↔ ∃ sub ∈ l, P sub := by
  simp [← h, and_assoc]

section Publication

variable (hinv : Inv s)
include hinv

/-- A publication is due to a client exactly when its mailbox accepts it. -/
lemma due_udp : s.due c (.udp fromStation data) =
    (s.mailbox c).accepted (s.mailEvents c (.udp fromStation data)) := by
  unfold due mailEvents
  rcases hinv.filter_subs (udpMessage data).topicStr c with h | ⟨sub, h⟩
  · simp only [exists_sub_iff h, h]
    simp [Mailbox.accepted]
  · simp only [exists_sub_iff h, h]
    simp [Mailbox.accepted, Mailbox.accepts, mailbox]

/-- What the mailbox of a client delivers on a publication: one message when the client is
connected and subscribed, as many as its descriptor is a current one of the topic. -/
lemma deliveries_udp : s.deliveries c (.udp fromStation data) =
    match s.activeIdsSockets.find c with
    | some fd => List.replicate ((s.currentSockets (udpMessage data).topicStr).count fd)
        (published fromStation data)
    | none => [] := by
  unfold deliveries mailEvents
  cases hc : s.activeIdsSockets.find c with
  | none =>
    rcases hinv.filter_subs (udpMessage data).topicStr c with h | ⟨sub, h⟩
    · simp [h, Mailbox.run]
    · simp only [h, List.map_cons, List.map_nil, Mailbox.run, Mailbox.step, mailbox, connected, hc]
      cases decide (sub.sf = SF_ON) <;> rfl
  | some fd =>
    have hcount := hinv.count_currentSockets (t := (udpMessage data).topicStr) hc
    have hex := exists_sub_iff (s := s) (t := (udpMessage data).topicStr) (c := c)
      (P := fun _ => True) rfl
    simp only [and_true] at hex
    dsimp only
    rw [hcount]
    rcases hinv.filter_subs (udpMessage data).topicStr c with h | ⟨sub, h⟩
    · rw [h] at hex ⊢
      rw [if_neg (by simpa using hex)]
      rfl
    · rw [h] at hex ⊢
      rw [if_pos (by simpa using hex)]
      simp [Mailbox.run, Mailbox.step, mailbox, connected, hc]

/-- A publication is the same event for the mailbox of a client. -/
lemma mailbox_udp : (s.handleUdpMessage fromStation data).1.mailbox c =
    ((s.mailbox c).run (s.mailEvents c (.udp fromStation data))).1 := by
  have hkeep : (s.subsOf (udpMessage data).topicStr).countP (keepsFor s.activeIdsSockets c) =
      (((s.subsOf (udpMessage data).topicStr).filter fun sub => sub.client.id = c).filter
        fun sub => (s.activeIdsSockets.find c).isNone && sub.sf = SF_ON).length := by
    rw [List.countP_eq_length_filter, List.filter_filter]
    congr 2
    funext sub
    by_cases hsub : sub.client.id = c <;> simp [keepsFor, hsub, Bool.and_comm]
  rw [handleUdpMessage_eq]
  simp only [mailbox, stored, connected, sendToAll_find, hkeep, mailEvents]
  rcases hinv.filter_subs (udpMessage data).topicStr c with h | ⟨sub, h⟩
  · simp [h, Mailbox.run]
  · rw [h]
    cases hc : s.activeIdsSockets.find c with
    | some fd => simp [Mailbox.run, Mailbox.step]
    | none => by_cases hon : sub.sf = SF_ON <;> simp [Mailbox.run, Mailbox.step, hon]

end Publication

/-! ### One step -/

/-- A request or the end of a connection delivers nothing. -/
lemma deliveries_tcp : s.deliveries c (.tcp i data) = [] := by
  simp only [deliveries, mailEvents]
  split <;> rfl

/-- A connection is an event for the client it is of, unless that one is connected already. -/
lemma mailEvents_connection (hid : newClientId data = some id) :
    s.mailEvents c (.connection fd cliAddr data) =
      if c = id ∧ s.connected c = false then [.connect] else [] := by
  simp only [mailEvents, hid, Option.some.injEq, eq_comm (a := id)]

/-- A connection delivers what was kept to the client it is of. -/
lemma deliveries_connection (hid : newClientId data = some id) :
    s.deliveries c (.connection fd cliAddr data) =
      if c = id ∧ s.connected c = false then s.stored c else [] := by
  rw [deliveries, mailEvents_connection hid]
  split
  · exact List.append_nil _
  · rfl

lemma mailEvents_tcp_of_ne (hd : data ≠ []) : s.mailEvents c (.tcp i data) = [] := by
  simp [mailEvents, hd]

/-- A client that is connected does not come back. -/
lemma not_comesBack (hon : s.activeIdsSockets.find id ≠ none) :
    ¬ (c = id ∧ s.connected c = false) := by
  rintro ⟨rfl, hc⟩
  rw [connected, Option.isSome_eq_false_iff, Option.isNone_iff_eq_none] at hc
  exact hon hc

/-- **A legal step of the server is one event of the mailbox of each client, or none.** -/
theorem mailbox_step (hinv : Inv s) (hlegal : Legal s e) (h : step s e = some (s', out)) :
    s'.mailbox c = ((s.mailbox c).run (s.mailEvents c e)).1 := by
  cases e with
  | connection fd cliAddr data =>
    obtain ⟨hfd, hlen, h0⟩ := hlegal
    have hid := newClientId_of_legal hlen h0
    rcases connection_cases hinv hfd hlen h0 h with ⟨hon, rfl, -⟩ | ⟨hoff, client, -, hconn, -⟩
    · rw [mailEvents_connection hid, if_neg (not_comesBack hon)]
      rfl
    · generalize (⟨data, hlen, h0⟩ : ClientId) = id at *
      rw [mailEvents_connection hid]
      by_cases hc : c = id
      · subst hc
        simp [mailbox, connected, stored, hoff, hconn.ids, hconn.store, Mailbox.run, Mailbox.step]
      · simp [mailbox, connected, stored, hconn.ids, hconn.store, hc, Mailbox.run]
  | udp fromStation data =>
    rw [(step_udp h).1]
    exact mailbox_udp hinv
  | tcp i data =>
    rcases handleTcpMessage_cases h with ⟨hd, client, hc, -, rfl⟩ | ⟨hd, -, hs⟩
    · by_cases hid : client.id = c
      · subst hid
        simp [mailEvents, hd, hc, mailbox, connected, stored, Mailbox.run, Mailbox.step]
      · have hid' : c ≠ client.id := fun h => hid h.symm
        simp [mailEvents, hd, hc, hid, hid', mailbox, connected, stored, Mailbox.run]
    · rw [mailEvents_tcp_of_ne hd]
      rcases hs with rfl | ⟨_, _, _, _, -, -, -, rfl⟩
      · rfl
      · rfl

/-- What must reach a client because of a step is what its mailbox accepts. -/
theorem due_eq_accepted (hinv : Inv s) :
    s.due c e = (s.mailbox c).accepted (s.mailEvents c e) := by
  cases e with
  | connection fd cliAddr data =>
    simp only [due, mailEvents]
    split <;> rfl
  | udp fromStation data => exact due_udp hinv
  | tcp i data =>
    simp only [due, mailEvents]
    split <;> rfl

/-- **What is kept for a client after a step**: nothing when it is connected, and otherwise what was
kept, followed by what the step adds. -/
theorem stored_step (hinv : Inv s) (hlegal : Legal s e) (h : step s e = some (s', out)) :
    s'.stored c = if s'.connected c then [] else s.stored c ++ s.due c e := by
  have hok : (s.mailbox c).Ok := hinv.mailbox_ok
  have hlen : (s.mailEvents c e).length ≤ 1 := hinv.mailEvents_length
  have hstep := Mailbox.run_pending hok hlen
  rwa [← mailbox_step hinv hlegal h, ← due_eq_accepted hinv] at hstep

/-- The sends of a publication. -/
lemma sentTo_udp_iff (hinv : Inv s) (h : step s (.udp fromStation data) = some (s', out)) :
    (∀ c, s'.sentTo c out = s.deliveries c (.udp fromStation data)) ↔
      SocketsCurrent s (udpMessage data).topicStr := by
  have hids : s'.activeIdsSockets = s.activeIdsSockets := by
    rw [(step_udp h).1, handleUdpMessage_eq]
  have hout : sends out = (s.recordedSockets (udpMessage data).topicStr).map
      fun fd => (fd, published fromStation data) := by
    rw [(step_udp h).2, sends_udp]
  rw [socketsCurrent_iff]
  apply forall_congr'
  intro c
  rw [sentTo_const hout, deliveries_udp hinv, hids]
  cases s.activeIdsSockets.find c with
  | none => simp
  | some fd => simp [List.replicate_inj]

/-- The client that was accepted is the one the descriptor belongs to. -/
lemma Connected.find_eq_some_iff {client : TcpClient} (h : Connected s s' id fd client)
    (hinv : Inv s) (hfd : fd ∉ s.readFds) : s'.activeIdsSockets.find c = some fd ↔ c = id := by
  rw [h.ids]
  split
  · next hc => simp [hc]
  · next hc =>
    refine iff_of_false ?_ hc
    intro hf
    obtain ⟨client', hclient', -⟩ := (hinv.ids c fd).mp hf
    rw [hinv.fresh hfd] at hclient'
    cases hclient'

/-- What `SendsCurrent` asks of a client that is accepted, said of the record it gets. -/
lemma Connected.current_iff {client : TcpClient} (h : Connected s s' id fd client) :
    (∀ client' ∈ s.allClients.find id, s.stored id = [] ∨ client'.socket = fd) ↔
      s.stored id = [] ∨ client.socket = fd := by
  rw [h.record]
  cases s.allClients.find id <;> simp

/-- The sends of a connection. -/
lemma sentTo_connection_iff (hinv : Inv s) (hlegal : Legal s (.connection fd cliAddr data))
    (h : step s (.connection fd cliAddr data) = some (s', out)) :
    (∀ c, s'.sentTo c out = s.deliveries c (.connection fd cliAddr data)) ↔
      SendsCurrent s (.connection fd cliAddr data) := by
  obtain ⟨hfd, hlen, h0⟩ := hlegal
  have hid := newClientId_of_legal hlen h0
  have hcur : SendsCurrent s (.connection fd cliAddr data) ↔
      (s.activeIdsSockets.find ⟨data, hlen, h0⟩ = none →
        ∀ client ∈ s.allClients.find ⟨data, hlen, h0⟩,
          s.stored ⟨data, hlen, h0⟩ = [] ∨ client.socket = fd) := by
    simp only [SendsCurrent, hid, Option.mem_some_iff, forall_eq']
  rw [hcur]
  simp only [deliveries_connection hid]
  rcases connection_cases hinv hfd hlen h0 h with ⟨hon, rfl, rfl⟩ | ⟨hoff, client, -, hconn, rfl⟩
  · generalize (⟨data, hlen, h0⟩ : ClientId) = id at *
    refine iff_of_true ?_ fun hoff => absurd hoff hon
    intro c
    rw [if_neg (not_comesBack hon)]
    rfl
  · generalize (⟨data, hlen, h0⟩ : ClientId) = id at *
    have hout : sends (.newClient id cliAddr :: (s.stored id).map (.send client.socket)) =
        (s.stored id).map fun m => (client.socket, m) := by
      rw [sends_newClient, ← sends_map_send (fun _ => client.socket)]
    have hsocket : ∀ c, s'.activeIdsSockets.find c = some fd ↔ c = id :=
      fun c => hconn.find_eq_some_iff hinv hfd
    have hof : ∀ c, c = id ∧ s.connected c = false ↔ c = id := by
      intro c
      refine and_iff_left_of_imp ?_
      rintro rfl
      rw [connected, hoff]
      rfl
    rw [forall_prop_of_true hoff, hconn.current_iff]
    simp only [sentTo_socket hout, hof]
    constructor
    · intro hall
      have hid' := hall id
      rw [(hsocket id).mpr rfl, if_pos rfl] at hid'
      by_cases hs : client.socket = fd
      · exact Or.inr hs
      · rw [if_neg fun h => hs (Option.some.inj h).symm] at hid'
        exact Or.inl hid'.symm
    · rintro (hnil | hfd') c
      · -- nothing was kept, so nothing is sent wherever it goes
        rw [hnil, ite_self]
        split
        · next hc => rw [hc, hnil]
        · rfl
      · rw [hfd']
        simp only [hsocket]
        split
        · next hc => rw [hc]
        · rfl

/-- **A step sends to every client what its mailbox delivers exactly when its sends go to the
clients they are for.** -/
theorem sentTo_iff (hinv : Inv s) (hlegal : Legal s e) (h : step s e = some (s', out)) :
    (∀ c, s'.sentTo c out = s.deliveries c e) ↔ SendsCurrent s e := by
  cases e with
  | connection fd cliAddr data => exact sentTo_connection_iff hinv hlegal h
  | udp fromStation data => exact sentTo_udp_iff hinv h
  | tcp i data =>
    refine iff_of_true ?_ trivial
    intro c
    rw [deliveries_tcp]
    rcases handleTcpMessage_cases h with ⟨-, client, -, rfl, -⟩ | ⟨-, rfl, -⟩ <;> rfl

/-! ### Whole runs -/

/-- What a run did for one client: the messages that must reach it, the messages sent on its
descriptor, and the messages of the time since it left. -/
structure Ledger where
  due : List SubMessage
  sent : List SubMessage
  held : List SubMessage
  deriving DecidableEq

/-- The ledger after one more step, from `s` to `s'`. -/
def Ledger.record (L : Ledger) (s : Server) (c : ClientId) (e : Event) (s' : Server)
    (out : List Output) : Ledger where
  due := L.due ++ s.due c e
  sent := L.sent ++ s'.sentTo c out
  held := if s'.connected c then [] else L.held ++ s.due c e

/-- The ledger of a client after a run. -/
def ledger (c : ClientId) (s : Server) (L : Ledger) : List Event → Ledger
  | [] => L
  | e :: es => match step s e with
    | none => L
    | some (s', out) => ledger c s' (L.record s c e s' out) es

/-- What must reach the client was sent, in this order and once, up to what is held for it. -/
def Ledger.Balanced (L : Ledger) : Prop := L.due = L.sent ++ L.held

instance (L : Ledger) : Decidable L.Balanced := inferInstanceAs (Decidable (_ = _))

/-- **Exactly-once delivery**: at every point of the run, for every client. What is held is emptied
when the client is back, so what was published in its absence is sent in that very step. -/
def ExactlyOnce (s : Server) (es : List Event) : Prop :=
  ∀ pre, pre <+: es → ∀ c, (ledger c s ⟨[], [], []⟩ pre).Balanced

lemma ledger_cons {L : Ledger} (h : step s e = some (s', out)) :
    ledger c s L (e :: es) = ledger c s' (L.record s c e s' out) es := by
  rw [ledger, h]

/-- What the ledger holds for a client is what the server keeps for it. -/
lemma held_record {L : Ledger} (hinv : Inv s) (hlegal : Legal s e)
    (h : step s e = some (s', out)) (hheld : L.held = s.stored c) :
    (L.record s c e s' out).held = s'.stored c := by
  rw [stored_step hinv hlegal h, ← hheld]
  rfl

/-- A step keeps the ledger balanced exactly when it sends what the mailbox delivers. -/
lemma balanced_record_iff {L : Ledger} (hinv : Inv s) (hlegal : Legal s e)
    (h : step s e = some (s', out)) (hheld : L.held = s.stored c) (hbal : L.Balanced) :
    (L.record s c e s' out).Balanced ↔ s'.sentTo c out = s.deliveries c e := by
  have hcons : s.stored c ++ s.due c e = s.deliveries c e ++ s'.stored c := by
    have hrun := Mailbox.run_conserves (hinv.mailbox_ok (c := c)) (s.mailEvents c e)
    rw [← mailbox_step hinv hlegal h, ← due_eq_accepted hinv] at hrun
    exact hrun
  have hheld' := held_record hinv hlegal h hheld
  unfold Ledger.Balanced at hbal ⊢
  rw [hheld']
  simp only [Ledger.record]
  rw [hbal, hheld, List.append_assoc, hcons, ← List.append_assoc, List.append_left_inj,
    List.append_right_inj, eq_comm]

/-- The ledgers stay balanced along a run exactly when all its sends go to the clients they are
for. -/
theorem balanced_iff {L : ClientId → Ledger} (hinv : Inv s)
    (hlegal : Run.Along step Legal s es) (hL : ∀ c, (L c).held = s.stored c ∧ (L c).Balanced) :
    (∀ pre, pre <+: es → ∀ c, (ledger c s (L c) pre).Balanced) ↔
      Run.Along step SendsCurrent s es := by
  induction es generalizing s L with
  | nil =>
    refine iff_of_true ?_ Run.along_nil
    intro pre hpre c
    rw [List.prefix_nil.mp hpre]
    exact (hL c).2
  | cons e es ih =>
    obtain ⟨⟨s', out⟩, h⟩ := step_isSome hinv hlegal.head
    have hlegal' := (Run.along_cons h).mp hlegal
    have hiff := sentTo_iff hinv hlegal'.1 h
    rw [Run.along_cons h, ← hiff]
    have hpre : (∀ pre, pre <+: e :: es → ∀ c, (ledger c s (L c) pre).Balanced) ↔
        ∀ pre, pre <+: es → ∀ c,
          (ledger c s' ((L c).record s c e s' out) pre).Balanced := by
      constructor
      · intro hall pre hpre c
        rw [← ledger_cons h]
        exact hall (e :: pre) (List.cons_prefix_cons.mpr ⟨rfl, hpre⟩) c
      · intro hall pre hpre c
        rcases List.prefix_cons_iff.mp hpre with rfl | ⟨pre', rfl, hpre'⟩
        · exact (hL c).2
        · rw [ledger_cons h]
          exact hall pre' hpre' c
    rw [hpre]
    -- the first step decides whether the induction hypothesis applies to the rest
    have hrec : ∀ c, s'.sentTo c out = s.deliveries c e →
        ((L c).record s c e s' out).held = s'.stored c ∧
          ((L c).record s c e s' out).Balanced := by
      intro c hc
      exact ⟨held_record hinv hlegal'.1 h (hL c).1,
        (balanced_record_iff hinv hlegal'.1 h (hL c).1 (hL c).2).mpr hc⟩
    have hinv' := inv_step hinv hlegal'.1 h
    constructor
    · intro hall
      have hsent : ∀ c, s'.sentTo c out = s.deliveries c e := by
        intro c
        apply (balanced_record_iff hinv hlegal'.1 h (hL c).1 (hL c).2).mp
        exact hall [] List.nil_prefix c
      exact ⟨hsent, (ih hinv' hlegal'.2 fun c => hrec c (hsent c)).mp hall⟩
    · rintro ⟨hsent, hrest⟩
      exact (ih hinv' hlegal'.2 fun c => hrec c (hsent c)).mpr hrest

/-- **A run of the server delivers every message exactly once if and only if each of its steps
sends to the clients its messages are for.** -/
theorem exactlyOnce_iff {sockTcp sockUdp : ℕ}
    (hlegal : Run.Along step Legal (init sockTcp sockUdp) es) :
    ExactlyOnce (init sockTcp sockUdp) es ↔
      Run.Along step SendsCurrent (init sockTcp sockUdp) es :=
  balanced_iff (L := fun _ => ⟨[], [], []⟩) (inv_init sockTcp sockUdp) hlegal fun c =>
    ⟨by simp [init, stored], rfl⟩

theorem exactlyOnce_comesBack : ExactlyOnce (init 3 4)
    (takenOver.take 4 ++ [.udp (pad _ []) datagramA, .connection 5 (pad _ []) [67, 49],
      .udp (pad _ []) datagramA]) := by
  refine (exactlyOnce_iff ?_).mpr ?_
  · decide +kernel
  · decide +kernel

/-- The message kept for `C1` is sent to `C2`, which has its first descriptor now, and never to
`C1`. -/
theorem not_exactlyOnce : ¬ ∀ sockTcp sockUdp es, Run.Along step Legal (init sockTcp sockUdp) es →
    ExactlyOnce (init sockTcp sockUdp) es := by
  intro h
  have hrun := h 3 4 (takenOver ++ [.udp (pad _ []) datagramA, .connection 6 (pad _ []) [67, 49]])
    (by decide +kernel) _ (List.prefix_refl _) ⟨[67, 49], by decide, by decide⟩
  revert hrun
  decide +kernel

end Server

end Protocoale.Tema2

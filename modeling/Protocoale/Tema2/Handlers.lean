import Protocoale.Tema2.Server

/-!
The handlers of the server taken apart into their outcomes, each stated by what `find` gives
afterwards and by what was sent: a connection (`reconnect_spec`, `addNewClient_spec`), a
publication (`handleUdpMessage_eq`, with `sendToAll_out` for what is sent and `sendToAll_find` for
what is kept), a request or the end of a connection (`handleTcpMessage_cases`). No proof about the
server unfolds a handler again.
-/

namespace Protocoale.Tema2

open Lib Lib.Bytes

namespace Server

variable {s s' : Server} {id : ClientId} {fd i : ℕ} {cliAddr fromStation : SockaddrIn}
  {data : List UInt8} {out : List Output}

/-! ### Connections -/

/-- A legal first `recv` brings the id itself. -/
lemma newClientId_of_legal (hlen : data.length < MAX_ID_LEN) (h0 : 0 ∉ data) :
    newClientId data = some ⟨data, hlen, h0⟩ := by
  have hstr : cstr (pad MAX_ID_LEN data).toList = data := by
    rw [cstr_pad hlen.le, cstr_eq_self fun c hc hc0 => h0 (hc0 ▸ hc)]
  unfold newClientId
  simp only [hstr]
  rw [dif_pos hlen]

/-- The state after `id` got the descriptor `fd`: `client` is the record kept for it. -/
structure Connected (s s' : Server) (id : ClientId) (fd : ℕ) (client : TcpClient) : Prop where
  sockTcp : s'.sockTcp = s.sockTcp
  sockUdp : s'.sockUdp = s.sockUdp
  readFds : s'.readFds = insert fd s.readFds
  fdMax : s'.fdMax = max s.fdMax fd
  active : ∀ k, s'.activeClients.find k = if k = fd then some client else s.activeClients.find k
  ids : ∀ k, s'.activeIdsSockets.find k = if k = id then some fd else s.activeIdsSockets.find k
  all : ∀ k, s'.allClients.find k = if k = id then some client else s.allClients.find k
  topics : s'.topicsSubs = s.topicsSubs
  store : ∀ k, s'.storeAndForward.find k = if k = id then none else s.storeAndForward.find k
  record : client = (s.allClients.find id).getD { id := id, socket := fd }

/-- The messages kept for a client. -/
def stored (s : Server) (c : ClientId) : List SubMessage := (s.storeAndForward.find c).getD []

lemma max_eq_ite (a b : ℕ) : max a b = if a < b then b else a := by
  split <;> omega

/-- A client that connected before gets its old record, and what was kept for it is sent on the
descriptor in that record. -/
lemma reconnect_spec {client : TcpClient} (hfd : s.activeClients.find fd = none)
    (hnew : s.activeIdsSockets.find id = none) (hc : s.allClients.find id = some client)
    (hid : client.id = id) (h : s.acceptClient fd cliAddr id = some (s', out)) :
    Connected s s' id fd client ∧
      out = .newClient id cliAddr :: (s.stored id).map (.send client.socket) := by
  subst hid
  simp only [acceptClient, hnew, hc, reconnect, Option.isSome_none, Option.isSome_some,
    Bool.false_eq_true, if_false, if_true, Option.map_some, Option.some.injEq] at h
  have key : ∀ store, (∀ k, UMap.find store k = if k = client.id then none
      else s.storeAndForward.find k) → Connected s { s with
        readFds := insert fd s.readFds
        fdMax := if s.fdMax < fd then fd else s.fdMax
        activeClients := s.activeClients.insert fd client
        activeIdsSockets := s.activeIdsSockets.insert client.id fd
        allClients := (s.allClients.erase client.id).insert client.id client
        storeAndForward := store } client.id fd client := by
    intro store hstore
    exact ⟨rfl, rfl, rfl, (max_eq_ite _ _).symm, fun k => UMap.find_insert_of_none hfd,
      fun k => UMap.find_insert_of_none hnew, fun k => UMap.find_insert_erase, rfl, hstore,
      by rw [hc]; rfl⟩
  cases hm : s.storeAndForward.find client.id with
  | none =>
    rw [hm] at h
    cases h
    exact ⟨key _ fun k => UMap.find_eq_ite hm, by simp [stored, hm]⟩
  | some msgs =>
    rw [hm] at h
    cases h
    exact ⟨key _ fun k => UMap.find_erase, by simp [stored, hm]⟩

/-- A client that never connected gets a record with the descriptor it connected on. -/
lemma addNewClient_spec (hfd : s.activeClients.find fd = none)
    (hnew : s.activeIdsSockets.find id = none) (hc : s.allClients.find id = none)
    (hst : s.storeAndForward.find id = none) (h : s.acceptClient fd cliAddr id = some (s', out)) :
    Connected s s' id fd { id := id, socket := fd } ∧ out = [.newClient id cliAddr] := by
  simp only [acceptClient, hnew, hc, addNewClient, Option.isSome_none, Bool.false_eq_true, if_false,
    Option.some.injEq] at h
  cases h
  exact ⟨⟨rfl, rfl, rfl, (max_eq_ite _ _).symm, fun k => UMap.find_insert_of_none hfd,
    fun k => UMap.find_insert_of_none hnew, fun k => UMap.find_insert_of_none hc, rfl,
    fun k => UMap.find_eq_ite hst, by rw [hc]; rfl⟩, rfl⟩

/-! ### Publications -/

section Publish

variable {toSend : SubMessage} {active : UMap ClientId ℕ} {subs : List Subscription}
  {store : UMap ClientId (List SubMessage)} {c : ClientId}

/-- The subscription makes the message be kept for the client `c`. -/
def keepsFor (active : UMap ClientId ℕ) (c : ClientId) (sub : Subscription) : Bool :=
  sub.client.id = c && (active.find c).isNone && sub.sf = SF_ON

/-- One subscription: the message is sent on the descriptor in the subscription's record when the
client is connected. -/
lemma sendToSubscribers_out {sub : Subscription} : (sendToSubscribers sub toSend active store).2 =
    if (active.find sub.client.id).isSome then [.send sub.client.socket toSend] else [] := by
  unfold sendToSubscribers
  dsimp only
  cases hc : active.find sub.client.id with
  | some fd => simp
  | none =>
    simp only [true_and, Option.isSome_none, Bool.false_eq_true, if_false]
    split
    · rfl
    · split
      · cases store.find sub.client.id <;> rfl
      · rfl

/-- One subscription: what is kept for a client afterwards. -/
lemma sendToSubscribers_find {sub : Subscription} :
    (sendToSubscribers sub toSend active store).1.find c =
      if keepsFor active c sub then some ((store.find c).getD [] ++ [toSend]) else store.find c := by
  unfold sendToSubscribers keepsFor
  dsimp only
  by_cases hc : sub.client.id = c
  · subst hc
    cases ha : active.find sub.client.id with
    | some fd => simp
    | none =>
      by_cases hon : sub.sf = SF_ON
      · have hoff : sub.sf ≠ SF_OFF := by rw [hon]; decide
        cases hst : store.find sub.client.id with
        | none => simp [hon, hst, UMap.find_insert, show SF_ON ≠ SF_OFF by decide]
        | some msgs => simp [hon, show SF_ON ≠ SF_OFF by decide]
      · simp [hon]
  · have hc' : c ≠ sub.client.id := fun h => hc h.symm
    simp only [hc, decide_false, Bool.false_and, Bool.false_eq_true, if_false]
    split
    · rfl
    · split
      · rfl
      · split
        · split
          · exact UMap.find_insert_ne hc'
          · exact UMap.find_assign_ne hc'
        · rfl

/-- **The messages sent for a publication**: one for each subscription of a connected client, on
the descriptor in the subscription's record. -/
theorem sendToAll_out : (sendToAll toSend active subs store).2 =
    (subs.filter fun sub => (active.find sub.client.id).isSome).map
      fun sub => .send sub.client.socket toSend := by
  induction subs generalizing store with
  | nil => rfl
  | cons sub subs ih =>
    simp only [sendToAll, sendToSubscribers_out, ih, List.filter_cons]
    split <;> simp

/-- **What is kept for a client after a publication.** -/
theorem sendToAll_find : (sendToAll toSend active subs store).1.find c =
    if subs.countP (keepsFor active c) = 0 then store.find c
    else some ((store.find c).getD [] ++ List.replicate (subs.countP (keepsFor active c)) toSend) := by
  induction subs generalizing store with
  | nil => simp [sendToAll]
  | cons sub subs ih =>
    simp only [sendToAll, ih, sendToSubscribers_find, List.countP_cons]
    cases hk : keepsFor active c sub with
    | false => simp
    | true =>
      by_cases hn : subs.countP (keepsFor active c) = 0
      · simp [hn]
      · simp [hn, List.replicate_succ]

end Publish

/-- The message a datagram is published as. -/
def published (fromStation : SockaddrIn) (data : List UInt8) : SubMessage :=
  { message := udpMessage data, fromStation }

/-- The subscriptions of a topic. -/
def subsOf (s : Server) (t : Topic) : List Subscription := (s.topicsSubs.find t).getD []

/-- **The outcome of a publication**, with an unknown topic taken as one without subscriptions. -/
theorem handleUdpMessage_eq : s.handleUdpMessage fromStation data =
    ({ s with
        topicsSubs := s.topicsSubs.insert (udpMessage data).topicStr []
        storeAndForward := (sendToAll (published fromStation data) s.activeIdsSockets
          (s.subsOf (udpMessage data).topicStr) s.storeAndForward).1 },
      ((s.subsOf (udpMessage data).topicStr).filter
        fun sub => (s.activeIdsSockets.find sub.client.id).isSome).map
          fun sub => .send sub.client.socket (published fromStation data)) := by
  unfold handleUdpMessage subsOf published
  dsimp only
  cases h : s.topicsSubs.find (udpMessage data).topicStr with
  | none => simp [sendToAll]
  | some subs => simp [UMap.insert_of_find h, sendToAll_out]

/-- A datagram is a publication. -/
lemma step_udp (h : step s (.udp fromStation data) = some (s', out)) :
    s' = (s.handleUdpMessage fromStation data).1 ∧
      out = (s.handleUdpMessage fromStation data).2 := by
  have hs : s.handleUdpMessage fromStation data = (s', out) := Option.some.inj h
  rw [hs]
  exact ⟨rfl, rfl⟩

/-! ### Requests -/

/-- The clients of a topic's subscriptions after one subscribed. -/
lemma map_client_subscribe (client : TcpClient) (sf : UInt8) (subs : List Subscription) :
    (subscribe client sf subs).map (·.client) =
      if client.id ∈ subs.map (·.client.id) then subs.map (·.client)
      else subs.map (·.client) ++ [client] := by
  induction subs with
  | nil => rfl
  | cons sub subs ih =>
    unfold subscribe
    by_cases h : sub.client.id = client.id
    · simp [h]
    · have h' : client.id ≠ sub.client.id := fun e => h e.symm
      simp only [h, if_false, List.map_cons, ih, List.mem_cons, h', false_or]
      split <;> rfl

/-- **The outcomes of `handle_tcp_message`**: the client leaves, nothing changes, or the list of
one known topic is replaced by what `subscribe` or `unsubscribe` makes of it. -/
theorem handleTcpMessage_cases (h : s.handleTcpMessage i data = some (s', out)) :
    (data = [] ∧ ∃ client, s.activeClients.find i = some client ∧
      out = [.disconnected client.id, .close i] ∧ s' = { s with
        readFds := s.readFds.erase i
        activeIdsSockets := s.activeIdsSockets.erase client.id
        activeClients := s.activeClients.erase i }) ∨
    (data ≠ [] ∧ out = [] ∧ (s' = s ∨ ∃ t subs subs' client, s.topicsSubs.find t = some subs ∧
      s.activeClients.find i = some client ∧
      (subs' = unsubscribe client subs ∨ ∃ sf, subs' = subscribe client sf subs) ∧
      s' = { s with topicsSubs := s.topicsSubs.assign t subs' })) := by
  unfold handleTcpMessage at h
  split at h
  · next hd =>
    left
    obtain ⟨client, hc, he⟩ := Option.map_eq_some_iff.mp h
    cases he
    exact ⟨hd, client, hc, rfl, rfl⟩
  · next hd =>
    right
    refine ⟨hd, ?_⟩
    unfold applyRequest at h
    cases ht : s.topicsSubs.find (topicStr (ClientRequest.dec data)) with
    | none =>
      rw [ht] at h
      cases h
      exact ⟨rfl, Or.inl rfl⟩
    | some subs =>
      rw [ht] at h
      obtain ⟨client, hc, he⟩ := Option.map_eq_some_iff.mp h
      split at he
      · cases he
        exact ⟨rfl, Or.inr ⟨_, subs, _, client, ht, hc, Or.inr ⟨_, rfl⟩, rfl⟩⟩
      · split at he
        · cases he
          exact ⟨rfl, Or.inr ⟨_, subs, _, client, ht, hc, Or.inl rfl, rfl⟩⟩
        · cases he
          exact ⟨rfl, Or.inl rfl⟩

end Server

end Protocoale.Tema2

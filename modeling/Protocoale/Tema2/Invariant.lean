import Protocoale.Tema2.Handlers

/-!
The invariant of the reachable states of the server. Its core is `Inv.subs_record`: every copy of
a client's record, in `active_clients` and in the subscriptions, is the one in `all_clients`, and
a reconnection does not change that one. The descriptor in it is the one the client first
connected on.
-/

namespace Protocoale.Tema2

open Lib Lib.Bytes

namespace Server

variable {s s' : Server} {id : ClientId} {fd i : ℕ} {cliAddr fromStation : SockaddrIn}
  {data : List UInt8} {out : List Output}

/-- What holds in every reachable state: the two maps of connected clients agree and describe the
descriptors of `read_fds`; the records of a client all are the one in `all_clients`; a topic has
at most one subscription of a client; messages are kept for disconnected clients only. -/
structure Inv (s : Server) : Prop where
  listening : 0 ∈ s.readFds ∧ s.sockTcp ∈ s.readFds ∧ s.sockUdp ∈ s.readFds
  ids : ∀ id fd, s.activeIdsSockets.find id = some fd ↔
    ∃ client, s.activeClients.find fd = some client ∧ client.id = id
  fds : ∀ fd, (∃ client, s.activeClients.find fd = some client) ↔
    fd ∈ s.readFds ∧ fd ≠ 0 ∧ fd ≠ s.sockTcp ∧ fd ≠ s.sockUdp
  fdMax : ∀ fd ∈ s.readFds, fd ≤ s.fdMax
  all_id : ∀ id client, s.allClients.find id = some client → client.id = id
  active_record : ∀ fd client, s.activeClients.find fd = some client →
    s.allClients.find client.id = some client
  subs_record : ∀ t, ∀ sub ∈ s.subsOf t, s.allClients.find sub.client.id = some sub.client
  subs_nodup : ∀ t, ((s.subsOf t).map (·.client.id)).Nodup
  stored_known : ∀ id, s.storeAndForward.find id ≠ none → s.allClients.find id ≠ none
  stored_offline : ∀ id, s.storeAndForward.find id ≠ none → s.activeIdsSockets.find id = none

/-- The server starts in a state that satisfies the invariant. -/
lemma inv_init (sockTcp sockUdp : ℕ) : Inv (init sockTcp sockUdp) where
  listening := by simp [init]
  ids := by simp [init]
  fds := by simp [init]
  fdMax := by simp [init]
  all_id := by simp [init]
  active_record := by simp [init]
  subs_record := by simp [init, subsOf]
  subs_nodup := by simp [init, subsOf]
  stored_known := by simp [init]
  stored_offline := by simp [init]

/-- A descriptor that `accept` may return belongs to no client. -/
lemma Inv.fresh (hinv : Inv s) (hfd : fd ∉ s.readFds) : s.activeClients.find fd = none := by
  cases h : s.activeClients.find fd with
  | none => rfl
  | some client => exact absurd ((hinv.fds fd).mp ⟨client, h⟩).1 hfd

/-- Two clients have two descriptors. -/
lemma Inv.socket_inj (hinv : Inv s) {id' : ClientId} (h : s.activeIdsSockets.find id = some fd)
    (h' : s.activeIdsSockets.find id' = some fd) : id = id' := by
  obtain ⟨client, hc, rfl⟩ := (hinv.ids _ _).mp h
  obtain ⟨client', hc', rfl⟩ := (hinv.ids _ _).mp h'
  rw [hc] at hc'
  cases hc'
  rfl

lemma inv_connected {client : TcpClient} (hinv : Inv s) (hfd : fd ∉ s.readFds)
    (hnew : s.activeIdsSockets.find id = none) (hid : client.id = id)
    (h : Connected s s' id fd client) : Inv s' := by
  have hfresh := hinv.fresh hfd
  have hsubs : ∀ t, s'.subsOf t = s.subsOf t := by
    intro t
    rw [subsOf, h.topics, ← subsOf]
  have hrecord : ∀ client', s.allClients.find id = some client' → client' = client := by
    intro client' hc
    rw [h.record, hc]
    rfl
  constructor
  case listening =>
    rw [h.readFds, h.sockTcp, h.sockUdp]
    obtain ⟨h1, h2, h3⟩ := hinv.listening
    exact ⟨Finset.mem_insert_of_mem h1, Finset.mem_insert_of_mem h2, Finset.mem_insert_of_mem h3⟩
  case ids =>
    intro id' fd'
    rw [h.ids, h.active]
    have := hinv.ids id' fd'
    have := hinv.ids id fd'
    grind
  case fds =>
    intro fd'
    rw [h.active, h.readFds, h.sockTcp, h.sockUdp]
    by_cases hk : fd' = fd
    · subst hk
      obtain ⟨h1, h2, h3⟩ := hinv.listening
      simp only [if_pos, Option.some.injEq, exists_eq', Finset.mem_insert_self, true_and, true_iff]
      exact ⟨fun h0 => hfd (h0 ▸ h1), fun h0 => hfd (h0 ▸ h2), fun h0 => hfd (h0 ▸ h3)⟩
    · simpa [hk] using hinv.fds fd'
  case fdMax =>
    intro fd' hfd'
    rw [h.readFds] at hfd'
    rw [h.fdMax]
    rcases Finset.mem_insert.mp hfd' with rfl | hold
    · exact le_max_right _ _
    · exact le_trans (hinv.fdMax _ hold) (le_max_left _ _)
  case all_id =>
    intro id' client' hc
    rw [h.all] at hc
    have := hinv.all_id id' client'
    grind
  case active_record =>
    intro fd' client' hc
    rw [h.active] at hc
    rw [h.all]
    have := hinv.active_record fd' client'
    grind
  case subs_record =>
    -- the record of `id`, if it had one, is the one it keeps
    intro t sub hsub
    rw [hsubs] at hsub
    rw [h.all]
    have := hinv.subs_record t sub hsub
    grind
  case subs_nodup =>
    intro t
    rw [hsubs]
    exact hinv.subs_nodup t
  case stored_known =>
    intro id' hst
    rw [h.store] at hst
    rw [h.all]
    have := hinv.stored_known id'
    grind
  case stored_offline =>
    intro id' hst
    rw [h.store] at hst
    rw [h.ids]
    have := hinv.stored_offline id'
    grind

/-- A topic that was not known has no subscriptions, known or not. -/
lemma getD_find_insert_nil (t t' : Topic) :
    ((s.topicsSubs.insert t []).find t').getD [] = s.subsOf t' := by
  unfold subsOf
  rw [UMap.find_insert]
  split
  · next h =>
    subst h
    cases s.topicsSubs.find t' <;> rfl
  · rfl

/-- Messages are kept for the client of a subscription, while it is not connected. -/
lemma exists_sub_of_countP {c : ClientId} {subs : List Subscription} {active : UMap ClientId ℕ}
    (h : subs.countP (keepsFor active c) ≠ 0) :
    active.find c = none ∧ ∃ sub ∈ subs, sub.client.id = c := by
  obtain ⟨sub, hmem, hk⟩ := List.countP_pos_iff.mp (Nat.pos_of_ne_zero h)
  simp only [keepsFor, Bool.and_eq_true, decide_eq_true_eq, Option.isNone_iff_eq_none] at hk
  exact ⟨hk.1.2, sub, hmem, hk.1.1⟩

lemma inv_published (hinv : Inv s) : Inv (s.handleUdpMessage fromStation data).1 := by
  rw [handleUdpMessage_eq]
  refine { hinv with subs_record := ?_, subs_nodup := ?_, stored_known := ?_, stored_offline := ?_ }
  · intro t sub hsub
    apply hinv.subs_record t sub
    simpa [subsOf, getD_find_insert_nil] using hsub
  · intro t
    have h := hinv.subs_nodup t
    rwa [← getD_find_insert_nil (s := s) (udpMessage data).topicStr t] at h
  · intro c hst
    rw [sendToAll_find] at hst
    split at hst
    · exact hinv.stored_known c hst
    · next hn =>
      obtain ⟨-, sub, hmem, rfl⟩ := exists_sub_of_countP hn
      rw [hinv.subs_record _ sub hmem]
      simp
  · intro c hst
    rw [sendToAll_find] at hst
    split at hst
    · exact hinv.stored_offline c hst
    · next hn => exact (exists_sub_of_countP hn).1

lemma inv_closed {client : TcpClient} (hinv : Inv s) (hc : s.activeClients.find i = some client)
    (hlegal : i ≠ 0 ∧ i ≠ s.sockTcp ∧ i ≠ s.sockUdp) : Inv { s with
      readFds := s.readFds.erase i
      activeIdsSockets := s.activeIdsSockets.erase client.id
      activeClients := s.activeClients.erase i } := by
  obtain ⟨h0, htcp, hudp⟩ := hlegal
  have hactive : ∀ fd client', (s.activeClients.erase i).find fd = some client' →
      fd ≠ i ∧ s.activeClients.find fd = some client' := by
    intro fd client' h
    rw [UMap.find_erase] at h
    split at h
    · cases h
    · next hne => exact ⟨hne, h⟩
  refine { hinv with
    listening := ?listening, ids := ?ids, fds := ?fds, fdMax := ?fdMax
    active_record := ?active_record, stored_offline := ?stored_offline }
  case listening =>
    show 0 ∈ s.readFds.erase i ∧ s.sockTcp ∈ s.readFds.erase i ∧ s.sockUdp ∈ s.readFds.erase i
    obtain ⟨h1, h2, h3⟩ := hinv.listening
    exact ⟨Finset.mem_erase.mpr ⟨h0.symm, h1⟩, Finset.mem_erase.mpr ⟨htcp.symm, h2⟩,
      Finset.mem_erase.mpr ⟨hudp.symm, h3⟩⟩
  case ids =>
    intro id fd
    have hi := (hinv.ids client.id i).mpr ⟨client, hc, rfl⟩
    rw [UMap.find_erase]
    constructor
    · intro h
      split at h
      · cases h
      · next hne =>
        obtain ⟨client', hc', rfl⟩ := (hinv.ids id fd).mp h
        refine ⟨client', ?_, rfl⟩
        rw [UMap.find_erase_ne, hc']
        rintro rfl
        rw [hc] at hc'
        cases hc'
        exact hne rfl
    · rintro ⟨client', hc', rfl⟩
      obtain ⟨hne, hc'⟩ := hactive fd client' hc'
      have hfd := (hinv.ids client'.id fd).mpr ⟨client', hc', rfl⟩
      rw [if_neg, hfd]
      intro he
      rw [he, hi] at hfd
      cases hfd
      exact hne rfl
  case fds =>
    intro fd
    rw [UMap.find_erase, Finset.mem_erase]
    split
    · next he => simp [he]
    · next hne => simpa [hne] using hinv.fds fd
  case fdMax =>
    intro fd hfd
    exact hinv.fdMax fd (Finset.mem_of_mem_erase hfd)
  case active_record =>
    intro fd client' h
    exact hinv.active_record fd client' (hactive fd client' h).2
  case stored_offline =>
    intro id hst
    show (s.activeIdsSockets.erase client.id).find id = none
    rw [UMap.find_erase]
    split
    · rfl
    · exact hinv.stored_offline id hst

lemma inv_topic {t : Topic} {subs : List Subscription} (hinv : Inv s)
    (hrec : ∀ sub ∈ subs, s.allClients.find sub.client.id = some sub.client)
    (hnodup : (subs.map (·.client.id)).Nodup) :
    Inv { s with topicsSubs := s.topicsSubs.assign t subs } := by
  have hsubs : ∀ t', ((s.topicsSubs.assign t subs).find t').getD [] =
      if t' = t then subs else s.subsOf t' := by
    intro t'
    rw [UMap.find_assign]
    split <;> rfl
  refine { hinv with subs_record := ?_, subs_nodup := ?_ }
  · intro t' sub hsub
    rw [subsOf, hsubs] at hsub
    split at hsub
    · exact hrec sub hsub
    · exact hinv.subs_record t' sub hsub
  · intro t'
    rw [subsOf, hsubs]
    split
    · exact hnodup
    · exact hinv.subs_nodup t'

/-- The list a request leaves for a topic keeps the records and has one subscription a client. -/
lemma request_subs_ok {client : TcpClient} {subs subs' : List Subscription}
    (hclient : s.allClients.find client.id = some client)
    (hrec : ∀ sub ∈ subs, s.allClients.find sub.client.id = some sub.client)
    (hnodup : (subs.map (·.client.id)).Nodup)
    (h : subs' = unsubscribe client subs ∨ ∃ sf, subs' = subscribe client sf subs) :
    (∀ sub ∈ subs', s.allClients.find sub.client.id = some sub.client) ∧
      (subs'.map (·.client.id)).Nodup := by
  rcases h with rfl | ⟨sf, rfl⟩
  · have hsub : List.Sublist (unsubscribe client subs) subs := List.eraseP_sublist
    refine ⟨?_, hnodup.sublist (hsub.map _)⟩
    intro sub h
    exact hrec sub (hsub.subset h)
  · have hmap := map_client_subscribe client sf subs
    constructor
    · intro sub hsub
      have hmem : sub.client ∈ (subscribe client sf subs).map (·.client) := List.mem_map_of_mem hsub
      rw [hmap] at hmem
      have hor : sub.client ∈ subs.map (·.client) ∨ sub.client = client := by
        split at hmem
        · exact Or.inl hmem
        · simpa using hmem
      rcases hor with hmem | he
      · obtain ⟨sub', hsub', he⟩ := List.mem_map.mp hmem
        rw [← he]
        exact hrec sub' hsub'
      · rw [he, hclient]
    · have hids : (subscribe client sf subs).map (·.client.id) =
          ((subscribe client sf subs).map (·.client)).map (·.id) := by rw [List.map_map]; rfl
      have hids' : subs.map (·.client.id) = (subs.map (·.client)).map (·.id) := by
        rw [List.map_map]; rfl
      rw [hids, hmap]
      split
      · rwa [← hids']
      · next hnot =>
        rw [List.map_append, ← hids', List.map_singleton]
        simpa using hnodup.concat hnot

/-- **The outcomes of a connection**: the id is connected already, or it gets the descriptor and
what was kept for it is sent on the descriptor of its record. -/
theorem connection_cases (hinv : Inv s) (hfd : fd ∉ s.readFds) (hlen : data.length < MAX_ID_LEN)
    (h0 : 0 ∉ data) (h : step s (.connection fd cliAddr data) = some (s', out)) :
    (s.activeIdsSockets.find ⟨data, hlen, h0⟩ ≠ none ∧ s' = s ∧
      out = [.alreadyConnected ⟨data, hlen, h0⟩, .close fd]) ∨
    (s.activeIdsSockets.find ⟨data, hlen, h0⟩ = none ∧ ∃ client, client.id = ⟨data, hlen, h0⟩ ∧
      Connected s s' ⟨data, hlen, h0⟩ fd client ∧
      out = .newClient ⟨data, hlen, h0⟩ cliAddr ::
        (s.stored ⟨data, hlen, h0⟩).map (.send client.socket)) := by
  have hfresh := hinv.fresh hfd
  simp only [step, handleConnectionRequest, newClientId_of_legal hlen h0, Option.bind_some] at h
  generalize (⟨data, hlen, h0⟩ : ClientId) = id at *
  cases hact : s.activeIdsSockets.find id with
  | some fd' =>
    left
    simp only [acceptClient, hact, Option.isSome_some, if_true, Option.some.injEq] at h
    cases h
    exact ⟨by simp, rfl, rfl⟩
  | none =>
    right
    refine ⟨rfl, ?_⟩
    cases hc : s.allClients.find id with
    | some client =>
      have hid := hinv.all_id id client hc
      exact ⟨client, hid, reconnect_spec hfresh hact hc hid h⟩
    | none =>
      have hst : s.storeAndForward.find id = none := by
        by_contra hne
        exact hinv.stored_known id hne hc
      obtain ⟨hconn, hout⟩ := addNewClient_spec hfresh hact hc hst h
      exact ⟨_, rfl, hconn, by rw [hout, stored, hst]; rfl⟩

/-- **The invariant is kept by every legal step.** -/
theorem inv_step {e : Event} (hinv : Inv s) (hlegal : Legal s e) (h : step s e = some (s', out)) :
    Inv s' := by
  cases e with
  | connection fd cliAddr data =>
    obtain ⟨hfd, hlen, h0⟩ := hlegal
    rcases connection_cases hinv hfd hlen h0 h with ⟨-, rfl, -⟩ | ⟨hnew, client, hid, hconn, -⟩
    · exact hinv
    · exact inv_connected hinv hfd hnew hid hconn
  | udp fromStation data =>
    rw [(step_udp h).1]
    exact inv_published hinv
  | tcp i data =>
    rcases handleTcpMessage_cases h with ⟨-, client, hc, -, rfl⟩ | ⟨-, -, rfl | hreq⟩
    · exact inv_closed hinv hc hlegal.2
    · exact hinv
    · obtain ⟨t, subs, subs', client, ht, hc, hsubs', rfl⟩ := hreq
      have hsubs : s.subsOf t = subs := by unfold subsOf; rw [ht]; rfl
      have hok := request_subs_ok (hinv.active_record i client hc)
        (fun sub h => hinv.subs_record t sub (hsubs ▸ h)) (hsubs ▸ hinv.subs_nodup t) hsubs'
      exact inv_topic hinv hok.1 hok.2

theorem Reachable.inv (h : Reachable s) : Inv s := by
  obtain ⟨sockTcp, sockUdp, hr⟩ := h
  exact hr.inv (inv_init sockTcp sockUdp) fun _ _ _ _ hinv hlegal hs => inv_step hinv hlegal hs

/-- **A legal step is defined**: no id overruns its array and no `at` throws. -/
theorem step_isSome {e : Event} (hinv : Inv s) (hlegal : Legal s e) : ∃ r, step s e = some r := by
  cases e with
  | connection fd cliAddr data =>
    obtain ⟨-, hlen, h0⟩ := hlegal
    simp only [step, handleConnectionRequest, newClientId_of_legal hlen h0, Option.bind_some,
      acceptClient]
    split
    · exact ⟨_, rfl⟩
    · split
      · next hsome =>
        obtain ⟨client, hc⟩ := Option.isSome_iff_exists.mp hsome
        simp only [reconnect, hc, Option.map_some]
        exact ⟨_, rfl⟩
      · exact ⟨_, rfl⟩
  | udp fromStation data => exact ⟨_, rfl⟩
  | tcp i data =>
    obtain ⟨client, hc⟩ := (hinv.fds i).mpr hlegal
    simp only [step, handleTcpMessage]
    split
    · simp only [closeClient, hc, Option.map_some]
      exact ⟨_, rfl⟩
    · unfold applyRequest
      split
      · exact ⟨_, rfl⟩
      · rw [hc]
        exact ⟨_, rfl⟩

end Server

end Protocoale.Tema2

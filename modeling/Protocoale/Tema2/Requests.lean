import Protocoale.Tema2.Delivery

/-!
Subscriptions and requests. What a client asked for is a map from clients and topics to flags: the
flag of the last request of the client that names the topic, none when that was to unsubscribe
(`lastFlag`). The server keeps it as lists of subscriptions (`flagOf`), and `flagOf_step` says how
each step changes them. A step follows the requests but for a subscription to a topic that nothing
was published on yet: `handle_tcp_message` returns early, and only `handle_udp_message` makes
topics known.
-/

namespace Protocoale.Tema2

open Lib Lib.Bytes

namespace Server

variable {s s' : Server} {c : ClientId} {t : Topic} {i : ℕ} {out : List Output} {e : Event}
  {es : List Event} {client : TcpClient} {subs : List Subscription} {sf : UInt8}

/-! ### Requests -/

/-- A request: whose it is, the topic it names and the flag it asks for, none to unsubscribe. -/
structure Request where
  client : ClientId
  topic : Topic
  flag : Option UInt8

/-- What a request of `client` asks for, when it is one of the two kinds. -/
def requestBy (client : TcpClient) (req : ClientRequest) : Option Request :=
  if req.reqType = SUBSCRIBE then some ⟨client.id, topicStr req, some req.sf⟩
  else if req.reqType = UNSUBSCRIBE then some ⟨client.id, topicStr req, none⟩
  else none

/-- The request an event brings. -/
def requestOf : Server × Event → Option Request
  | (s, .tcp i data) =>
    if data = [] then none
    else (s.activeClients.find i).bind fun client => requestBy client (ClientRequest.dec data)
  | _ => none

/-- The flag in the last request of `c` that names `t`, when that one was to subscribe. -/
def lastFlag (c : ClientId) (t : Topic) (xs : List (Server × Event)) : Option UInt8 :=
  ((xs.filterMap requestOf).filter fun r => r.client = c ∧ r.topic = t).getLast?.bind (·.flag)

/-- The subscriptions are what the requests of a history ask for. -/
def FollowsRequests (s : Server) (xs : List (Server × Event)) : Prop := ∀ c t f,
  (∃ sub ∈ s.subsOf t, sub.client.id = c ∧ sub.sf = f) ↔ lastFlag c t xs = some f

/-- A request to subscribe names a topic that a message was published on. -/
def TopicKnown (s : Server) (e : Event) : Prop :=
  ∀ r ∈ requestOf (s, e), r.flag ≠ none → s.topicsSubs.find r.topic ≠ none

instance (s : Server) (e : Event) : Decidable (TopicKnown s e) :=
  inferInstanceAs (Decidable (∀ r ∈ requestOf (s, e), r.flag ≠ none → s.topicsSubs.find r.topic ≠ none))

lemma topic_of_requestBy {req : ClientRequest} {r : Request} (h : requestBy client req = some r) :
    r.topic = topicStr req := by
  unfold requestBy at h
  split at h
  · cases h
    rfl
  · split at h
    · cases h
      rfl
    · cases h

lemma requestOf_tcp {data : List UInt8} (hd : data ≠ []) : requestOf (s, .tcp i data) =
    (s.activeClients.find i).bind fun client => requestBy client (ClientRequest.dec data) := by
  rw [requestOf, if_neg hd]

lemma lastFlag_snoc (xs : List (Server × Event)) (x : Server × Event) :
    lastFlag c t (xs ++ [x]) = match requestOf x with
      | some r => if r.client = c ∧ r.topic = t then r.flag else lastFlag c t xs
      | none => lastFlag c t xs := by
  unfold lastFlag
  rw [List.filterMap_append, List.filter_append]
  cases hr : requestOf x with
  | none => simp [hr]
  | some r => by_cases h : r.client = c ∧ r.topic = t <;> simp [hr, h]

/-! ### The subscription of a client on a topic -/

/-- The flag of the subscription of `c` in a list. -/
def flagIn (c : ClientId) (subs : List Subscription) : Option UInt8 :=
  (subs.find? fun sub => sub.client.id = c).map (·.sf)

/-- The flag of the subscription of `c` on `t`. -/
def flagOf (s : Server) (c : ClientId) (t : Topic) : Option UInt8 := flagIn c (s.subsOf t)

@[simp] lemma flagIn_nil : flagIn c [] = none := rfl

lemma flagIn_cons (sub : Subscription) :
    flagIn c (sub :: subs) = if sub.client.id = c then some sub.sf else flagIn c subs := by
  unfold flagIn
  rw [List.find?_cons]
  by_cases h : sub.client.id = c <;> simp [h]

lemma flagIn_eq_none (h : c ∉ subs.map (·.client.id)) : flagIn c subs = none := by
  induction subs with
  | nil => rfl
  | cons sub subs ih =>
    rw [List.map_cons, List.mem_cons, not_or] at h
    rw [flagIn_cons, if_neg (Ne.symm h.1), ih h.2]

/-- With one subscription a client, the flag tells which subscriptions there are. -/
lemma exists_sub_iff_flagIn (hnodup : (subs.map (·.client.id)).Nodup) {f : UInt8} :
    (∃ sub ∈ subs, sub.client.id = c ∧ sub.sf = f) ↔ flagIn c subs = some f := by
  induction subs with
  | nil => simp
  | cons sub subs ih =>
    rw [List.map_cons, List.nodup_cons] at hnodup
    rw [flagIn_cons]
    by_cases h : sub.client.id = c
    · rw [if_pos h, Option.some.injEq]
      constructor
      · rintro ⟨sub', hmem, hid, hf⟩
        rcases List.mem_cons.mp hmem with rfl | hmem
        · exact hf
        · refine absurd ?_ hnodup.1
          rw [h, ← hid]
          exact List.mem_map_of_mem hmem
      · intro hf
        exact ⟨sub, List.mem_cons_self, h, hf⟩
    · rw [if_neg h, ← ih hnodup.2]
      simp [h]

/-- `subscribe` sets the flag of the client and leaves the others. -/
lemma flagIn_subscribe : flagIn c (subscribe client sf subs) =
    if client.id = c then some sf else flagIn c subs := by
  induction subs with
  | nil => rw [subscribe, flagIn_cons]
  | cons sub subs ih =>
    unfold subscribe
    by_cases h : sub.client.id = client.id
    · rw [if_pos h, flagIn_cons, flagIn_cons, h]
      split <;> rfl
    · rw [if_neg h, flagIn_cons, flagIn_cons, ih]
      by_cases hc : sub.client.id = c
      · have hne : client.id ≠ c := fun hid => h (hc.trans hid.symm)
        rw [if_pos hc, if_neg hne, if_pos hc]
      · rw [if_neg hc, if_neg hc]

/-- `unsubscribe` clears the flag of the client and leaves the others. -/
lemma flagIn_unsubscribe (hnodup : (subs.map (·.client.id)).Nodup) :
    flagIn c (unsubscribe client subs) = if client.id = c then none else flagIn c subs := by
  induction subs with
  | nil => simp [unsubscribe]
  | cons sub subs ih =>
    rw [List.map_cons, List.nodup_cons] at hnodup
    have ih := ih hnodup.2
    unfold unsubscribe at ih ⊢
    rw [flagIn_cons]
    by_cases h : sub.client.id = client.id
    · rw [List.eraseP_cons_of_pos (by simpa using h), h]
      split
      · next hc =>
        apply flagIn_eq_none
        rw [← hc, ← h]
        exact hnodup.1
      · rfl
    · rw [List.eraseP_cons_of_neg (by simpa using h), flagIn_cons, ih]
      by_cases hc : sub.client.id = c
      · have hne : client.id ≠ c := fun hid => h (hc.trans hid.symm)
        rw [if_pos hc, if_neg hne, if_pos hc]
      · rw [if_neg hc, if_neg hc]

/-! ### One step -/

/-- One topic gets another list. -/
lemma subsOf_assign (t' : Topic) (subs' : List Subscription) :
    subsOf { s with topicsSubs := s.topicsSubs.assign t' subs' } t =
      if t' = t then subs' else s.subsOf t := by
  show ((s.topicsSubs.assign t' subs').find t).getD [] = _
  rw [UMap.find_assign]
  by_cases h : t' = t
  · rw [if_pos h.symm, if_pos h]
    rfl
  · rw [if_neg (Ne.symm h), if_neg h]
    rfl

/-- The subscriptions of a topic after a request of `client`. -/
lemma subsOf_applyRequest {req : ClientRequest} (hc : s.activeClients.find i = some client)
    (hknown : req.reqType = SUBSCRIBE → s.topicsSubs.find (topicStr req) ≠ none)
    (h : s.applyRequest i req = some (s', out)) : s'.subsOf t =
      if topicStr req = t then
        if req.reqType = SUBSCRIBE then subscribe client req.sf (s.subsOf t)
        else if req.reqType = UNSUBSCRIBE then unsubscribe client (s.subsOf t)
        else s.subsOf t
      else s.subsOf t := by
  unfold applyRequest at h
  cases ht : s.topicsSubs.find (topicStr req) with
  | none =>
    rw [ht] at h
    cases h
    have hsub : req.reqType ≠ SUBSCRIBE := fun hs => hknown hs ht
    have hnil : s.subsOf (topicStr req) = [] := by rw [subsOf, ht]; rfl
    rw [if_neg hsub]
    by_cases he : topicStr req = t
    · rw [if_pos he, ← he, hnil]
      split <;> rfl
    · rw [if_neg he]
  | some subs =>
    have hsubs : subs = s.subsOf (topicStr req) := by rw [subsOf, ht]; rfl
    rw [ht, hc, hsubs] at h
    simp only [Option.map_some, Option.some.injEq] at h
    split at h
    · next hs =>
      cases h
      rw [subsOf_assign, if_pos hs]
      split
      · next he => rw [he]
      · rfl
    · next hs =>
      split at h
      · next hu =>
        cases h
        rw [subsOf_assign, if_neg hs, if_pos hu]
        split
        · next he => rw [he]
        · rfl
      · next hu =>
        cases h
        rw [if_neg hs, if_neg hu, ite_self]

/-- The flag of a subscription after a request of `client`. -/
lemma flagIn_applyRequest {req : ClientRequest} (hc : s.activeClients.find i = some client)
    (hnodup : ((s.subsOf t).map (·.client.id)).Nodup)
    (hknown : ∀ r ∈ requestBy client req, r.flag ≠ none → s.topicsSubs.find r.topic ≠ none)
    (h : s.applyRequest i req = some (s', out)) : flagIn c (s'.subsOf t) =
      match requestBy client req with
      | some r => if r.client = c ∧ r.topic = t then r.flag else flagIn c (s.subsOf t)
      | none => flagIn c (s.subsOf t) := by
  rw [subsOf_applyRequest hc ?_ h]
  · by_cases hs : req.reqType = SUBSCRIBE
    · simp only [requestBy, if_pos hs]
      by_cases ht : topicStr req = t
      · simp [ht, flagIn_subscribe]
      · simp [ht]
    · by_cases hu : req.reqType = UNSUBSCRIBE
      · simp only [requestBy, if_neg hs, if_pos hu]
        by_cases ht : topicStr req = t
        · simp [ht, flagIn_unsubscribe hnodup]
        · simp [ht]
      · simp only [requestBy, if_neg hs, if_neg hu, ite_self]
  · intro hs
    apply hknown ⟨client.id, topicStr req, some req.sf⟩
    · rw [requestBy, if_pos hs]
      rfl
    · exact Option.some_ne_none _

/-- **A step changes the subscription that its request names, to what the request asks for, and no
other one.** -/
theorem flagOf_step (hinv : Inv s) (hlegal : Legal s e) (hknown : TopicKnown s e)
    (h : step s e = some (s', out)) : s'.flagOf c t = match requestOf (s, e) with
      | some r => if r.client = c ∧ r.topic = t then r.flag else s.flagOf c t
      | none => s.flagOf c t := by
  unfold flagOf
  cases e with
  | connection fd cliAddr data =>
    obtain ⟨hfd, hlen, h0⟩ := hlegal
    rcases connection_cases hinv hfd hlen h0 h with ⟨-, rfl, -⟩ | ⟨-, client, -, hconn, -⟩
    · rfl
    · rw [subsOf, hconn.topics]
      rfl
  | udp fromStation data =>
    rw [(step_udp h).1, handleUdpMessage_eq]
    show flagIn c (((s.topicsSubs.insert _ []).find t).getD []) = flagIn c (s.subsOf t)
    rw [getD_find_insert_nil]
  | tcp i data =>
    obtain ⟨client, hc⟩ := (hinv.fds i).mpr hlegal
    by_cases hd : data = []
    · have hreq : requestOf (s, .tcp i data) = none := by rw [requestOf, if_pos hd]
      rcases handleTcpMessage_cases h with ⟨-, client', -, -, rfl⟩ | ⟨hne, -, -⟩
      · rw [hreq]
        rfl
      · exact absurd hd hne
    · simp only [step, handleTcpMessage, if_neg hd] at h
      unfold TopicKnown at hknown
      rw [requestOf_tcp hd, hc, Option.bind_some] at hknown ⊢
      exact flagIn_applyRequest hc (hinv.subs_nodup t) hknown h

/-- A subscription to an unknown topic is lost. -/
lemma not_topicKnown_step (h : step s e = some (s', out)) (hknown : ¬ TopicKnown s e) :
    ∃ r, requestOf (s, e) = some r ∧ r.flag ≠ none ∧ s'.subsOf r.topic = [] := by
  simp only [TopicKnown, not_forall, Option.mem_def, not_not] at hknown
  obtain ⟨r, hr, hflag, ht⟩ := hknown
  refine ⟨r, hr, hflag, ?_⟩
  cases e with
  | connection fd cliAddr data => cases hr
  | udp fromStation data => cases hr
  | tcp i data =>
    have hd : data ≠ [] := by
      rintro rfl
      rw [requestOf, if_pos rfl] at hr
      cases hr
    rw [requestOf_tcp hd] at hr
    obtain ⟨client, -, hr⟩ := Option.bind_eq_some_iff.mp hr
    rw [topic_of_requestBy hr] at ht ⊢
    simp only [step, handleTcpMessage, if_neg hd, applyRequest, ht, Option.some.injEq,
      Prod.mk.injEq] at h
    rw [← h.1, subsOf, ht]
    rfl

/-- With one subscription a client, the subscriptions are what is asked for when the flags are. -/
lemma followsRequests_iff_flagOf (hinv : Inv s) {xs : List (Server × Event)} :
    FollowsRequests s xs ↔ ∀ c t, s.flagOf c t = lastFlag c t xs := by
  unfold FollowsRequests
  simp only [exists_sub_iff_flagIn (hinv.subs_nodup _)]
  constructor
  · intro h c t
    exact Option.ext fun f => h c t f
  · intro h c t f
    rw [← h c t, flagOf]

/-- **A step follows the requests exactly when the topic of its request is known.** -/
theorem followsRequests_step (hinv : Inv s) (hlegal : Legal s e) {xs : List (Server × Event)}
    (hfollows : FollowsRequests s xs) (h : step s e = some (s', out)) :
    FollowsRequests s' (xs ++ [(s, e)]) ↔ TopicKnown s e := by
  rw [followsRequests_iff_flagOf hinv] at hfollows
  rw [followsRequests_iff_flagOf (inv_step hinv hlegal h)]
  constructor
  · intro hall
    by_contra hknown
    obtain ⟨r, hr, hflag, hnil⟩ := not_topicKnown_step h hknown
    have hlast : lastFlag r.client r.topic (xs ++ [(s, e)]) = r.flag := by
      rw [lastFlag_snoc, hr]
      simp
    rw [← hlast, ← hall, flagOf, hnil] at hflag
    exact hflag rfl
  · intro hknown c t
    rw [flagOf_step hinv hlegal hknown h, lastFlag_snoc, hfollows]

/-! ### Whole runs -/

/-- **The subscriptions follow the requests all along a run if and only if every subscription is to
a topic that a message was published on before.** -/
theorem followsRequests_iff {sockTcp sockUdp : ℕ}
    (hlegal : Run.Along step Legal (init sockTcp sockUdp) es) :
    (∀ pre s out, pre <+: es → Run.exec step (init sockTcp sockUdp) pre = some (s, out) →
        FollowsRequests s (Run.visited step (init sockTcp sockUdp) pre)) ↔
      Run.Along step TopicKnown (init sockTcp sockUdp) es := by
  have hinit := inv_init sockTcp sockUdp
  refine Run.forall_prefix_iff_along (Q := Inv) (P := fun xs s _ => FollowsRequests s xs) ?_ ?_ ?_
    hlegal hinit ?_
  · intro s e s' out hinv hl hs
    exact inv_step hinv hl hs
  · intro xs _ s e s' out hinv hl hfollows hs
    exact followsRequests_step hinv hl hfollows hs
  · intro s e hinv hl hnone
    obtain ⟨r, hr⟩ := step_isSome hinv hl
    rw [hnone] at hr
    cases hr
  · rw [followsRequests_iff_flagOf hinit]
    intro c t
    rfl

theorem followsRequests_takenOver : ∃ r, Run.exec step (init 3 4) takenOver = some r ∧
    FollowsRequests r.1 (Run.visited step (init 3 4) takenOver) := by
  have hlegal : Run.Along step Legal (init 3 4) takenOver := by decide +kernel
  have hknown : Run.Along step TopicKnown (init 3 4) takenOver := by decide +kernel
  obtain ⟨r, hr⟩ := Option.isSome_iff_exists.mp
    (show (Run.exec step (init 3 4) takenOver).isSome by decide +kernel)
  exact ⟨r, hr, (followsRequests_iff hlegal).mpr hknown _ r.1 r.2 (List.prefix_refl _) hr⟩

/-- `C1` subscribes to a topic before anything is published on it, and has no subscription. -/
theorem not_followsRequests : ¬ ∀ sockTcp sockUdp es s out,
    Run.Along step Legal (init sockTcp sockUdp) es →
    Run.exec step (init sockTcp sockUdp) es = some (s, out) →
      FollowsRequests s (Run.visited step (init sockTcp sockUdp) es) := by
  intro h
  obtain ⟨r, hr, hlast, hnone⟩ : ∃ r, Run.exec step (init 3 4)
      [.connection 5 (pad _ []) [67, 49], .tcp 5 subscribeA] = some r ∧
      lastFlag ⟨[67, 49], by decide, by decide⟩ [97] (Run.visited step (init 3 4)
        [.connection 5 (pad _ []) [67, 49], .tcp 5 subscribeA]) = some SF_ON ∧
      r.1.subsOf [97] = [] := by
    refine ⟨_, (Option.some_get (by decide +kernel)).symm, ?_⟩
    decide +kernel
  obtain ⟨sub, hsub, -⟩ := (h 3 4 _ r.1 r.2 (by decide +kernel) hr _ _ _).mpr hlast
  rw [hnone] at hsub
  cases hsub

end Server

end Protocoale.Tema2

import Protocoale.Tema2.Requests
import Protocoale.Tema2.System

/-!
The subscriptions, from the lines typed at the subscribers to the lists of the server. A client is the
processes taken in under its id, one after the other, and of what was typed at each of them the server has
read the first requests. As long as a topic is only subscribed to after something was published on it, the
last of these requests that names the topic decides the subscription (`subscriptions_typed`).
-/

namespace Protocoale.Tema2

open Lib Lib.Bytes Lib.CText Lib.Cuts Lib.Run Lib.Sockets

namespace System

/-- The request sent for what `fgets` has read. -/
def request (buffer : List UInt8) : Option ClientRequest :=
  if (text "exit").isPrefixOf buffer then none else (Subscriber.handleCommand buffer).join

/-- The requests a move makes the process `k` send. -/
def typedBy (k : ℕ) : State × Move → List ClientRequest
  | (_, .stdin j buffer) => if j = k then (request buffer).toList else []
  | _ => []

/-- The requests typed at the process `k`. -/
def typed (k : ℕ) (xs : List (State × Move)) : List ClientRequest := xs.flatMap (typedBy k)

/-- How many requests of the process `k` the server has read: its first read was that of the id. -/
def readFrom (y : State) (k : ℕ) : ℕ := ((y.2.taken k).tail.filter (· ≠ [])).length

/-- A read of the server returns what the process has sent first, or a whole request. -/
def Whole (y : State) : Move → Prop
  | .loop (.event (.connection _ _ data)) => ∀ k ∈ y.2.backlog.head?, (y.2.put k).head? = some data
  | .loop (.event (.tcp _ data)) => data ≠ [] → data.length = clientRequestCodec.size
  | _ => True

instance (y : State) : (m : Move) → Decidable (Whole y m)
  | .loop (.event (.connection _ _ data)) =>
    inferInstanceAs (Decidable (∀ k ∈ y.2.backlog.head?, (y.2.put k).head? = some data))
  | .loop (.event (.tcp _ data)) => inferInstanceAs (Decidable (data ≠ [] → _))
  | .loop (.event (.udp _ _)) | .loop (.select _) | .loop (.stdin _) => inferInstanceAs (Decidable True)
  | .subscriber _ | .stdin _ _ | .message _ _ => inferInstanceAs (Decidable True)

/-- A topic that is subscribed to is known. -/
def TopicKnown (y : State) : Move → Prop
  | .loop (.event e) => Server.TopicKnown y.1.server e
  | _ => True

instance (y : State) : (m : Move) → Decidable (TopicKnown y m)
  | .loop (.event e) => inferInstanceAs (Decidable (Server.TopicKnown y.1.server e))
  | .loop (.select _) | .loop (.stdin _) => inferInstanceAs (Decidable True)
  | .subscriber _ | .stdin _ _ | .message _ _ => inferInstanceAs (Decidable True)

/-- The request is one of the two kinds and names the topic. -/
def Names (t : Topic) (req : ClientRequest) : Prop :=
  (req.reqType = SUBSCRIBE ∨ req.reqType = UNSUBSCRIBE) ∧ Server.topicStr req = t

instance (t : Topic) : DecidablePred (Names t) := fun _ => inferInstanceAs (Decidable (_ ∧ _))

/-- The flag in the last request that names a topic, when that one was to subscribe. -/
def wanted (t : Topic) (reqs : List ClientRequest) : Option UInt8 :=
  (reqs.filter (Names t)).getLast?.bind fun req => if req.reqType = SUBSCRIBE then some req.sf else none

/-- The requests of a client that the server has read. -/
def requests (c : ClientId) (y : State) (xs : List (State × Move)) : List ClientRequest :=
  (admitted c xs).flatMap fun k => (typed k xs).take (readFrom y k)

variable {y y' : State} {m : Move} {ms : List Move} {out : List Output} {e : Server.Event}
  {xs : List (State × Move)} {c : ClientId} {t : Topic} {k sockTcp sockUdp : ℕ} {req : ClientRequest}
  {reqs : List ClientRequest}

lemma wanted_snoc : wanted t (reqs ++ [req]) =
    if Names t req then (if req.reqType = SUBSCRIBE then some req.sf else none) else wanted t reqs := by
  unfold wanted
  rw [List.filter_append]
  by_cases h : Names t req <;> simp [h]

/-- What a request of a client asks for. -/
lemma wanted_requestBy (client : TcpClient) : wanted t (reqs ++ [req]) = match Server.requestBy client req with
    | some r => if r.topic = t then r.flag else wanted t reqs
    | none => wanted t reqs := by
  rw [wanted_snoc]
  unfold Server.requestBy Names
  by_cases hs : req.reqType = SUBSCRIBE
  · by_cases ht : Server.topicStr req = t <;> simp [hs, ht]
  · by_cases hu : req.reqType = UNSUBSCRIBE
    · by_cases ht : Server.topicStr req = t <;> simp [hu, ht, (by decide : UNSUBSCRIBE ≠ SUBSCRIBE)]
    · simp [hs, hu]

/-! ### What the processes write -/

/-- What a move writes: a new process its id, and a process that a line was typed at its request. -/
inductive Writes (y y' : State) (m : Move) : Prop
  | starts (id : List UInt8) (hm : m = .subscriber id) (hmade : y'.2.made = y.2.made + 1)
      (hput : y'.2.put = Function.update y.2.put y.2.made [id])
  | types (hmade : y'.2.made = y.2.made) (hput : ∀ k, ∃ pieces, y'.2.put k = y.2.put k ++ pieces ∧
        pieces.flatten = clientRequestCodec.stream (typedBy k (y, m)))
      (hopen : ∀ k, typedBy k (y, m) ≠ [] → k < y.2.made)

/-- A move that writes nothing. -/
lemma Writes.none (hmade : y'.2.made = y.2.made) (hput : y'.2.put = y.2.put)
    (htyped : ∀ k, typedBy k (y, m) = []) : Writes y y' m := by
  refine .types hmade (fun k => ⟨[], ?_, ?_⟩) fun k hk => absurd (htyped k) hk
  · rw [hput, List.append_nil]
  · rw [htyped]
    rfl

lemma step_writes (hinv : Inv y xs) (hlegal : Legal y m) (h : step y m = some (y', out)) :
    Writes y y' m := by
  have h' := h
  obtain ⟨m', hm', h'⟩ := Option.bind_eq_some_iff.mp h'
  cases m with
  | subscriber id =>
    cases hm'
    cases h'
    exact .starts id rfl rfl rfl
  | stdin j buffer =>
    simp only [onSockets] at hm'
    split at hm'
    · next hexit =>
      cases hm'
      simp only [Sockets.step] at h'
      split at h'
      · cases h'
        refine .none rfl rfl fun k => ?_
        simp [typedBy, request, hexit]
      · cases h'
    · next hexit =>
      obtain ⟨req, hreq, rfl⟩ := Option.map_eq_some_iff.mp hm'
      have hrequest : request buffer = req := by simp [request, hexit, hreq]
      simp only [Sockets.step] at h'
      split at h'
      · next hopen =>
        cases h'
        refine .types rfl (fun k => ?_) fun k hk => ?_
        · by_cases hk : k = j
          · subst hk
            refine ⟨[req.elim [] ClientRequest.enc], Function.update_self .., ?_⟩
            cases req <;> simp [typedBy, hrequest, Codec.stream, clientRequestCodec]
          · refine ⟨[], by simp [hk], ?_⟩
            simp [typedBy, Ne.symm hk, Codec.stream]
        · have hj : j = k := by
            by_contra hne
            exact hk (if_neg hne)
          exact hj ▸ hopen.1
      · cases h'
  | message k bytesRecv =>
    cases hm'
    obtain ⟨w, hw, he⟩ := Option.map_eq_some_iff.mp h'
    cases he
    unfold Wires.take at hw
    split at hw
    · cases hw
      exact .none rfl rfl fun k => rfl
    · cases hw
  | loop x =>
    by_cases hx : ∃ e, x = .event e
    · obtain ⟨e, rfl⟩ := hx
      have hserved := step_event hinv.loop hlegal.1 h
      exact .none hserved.made hserved.put fun k => rfl
    · have hidle := (step_idle (not_exists.mp hx) h).2
      exact .none (by rw [hidle]) (by rw [hidle]) fun k => rfl

lemma typed_snoc (x : State × Move) : typed k (xs ++ [x]) = typed k xs ++ typedBy k x := by
  simp [typed]

/-- What was typed at the processes is what they have written behind their ids, and the reads of the server
return the ids and whole requests. -/
structure Framed (y : State) (xs : List (State × Move)) : Prop where
  unmade : ∀ k, y.2.made ≤ k → typed k xs = []
  put : ∀ k < y.2.made, ∃ id pieces, y.2.put k = id :: pieces ∧
    pieces.flatten = clientRequestCodec.stream (typed k xs)
  taken : ∀ k, y.2.taken k = [] ∨ ∃ id rest, (y.2.put k).head? = some id ∧ y.2.taken k = id :: rest ∧
    ∀ data ∈ rest, data ≠ [] → data.length = clientRequestCodec.size
  /-- a connection that has a descriptor was read from -/
  begun : ∀ fd k, y.2.owner fd = some k → y.2.taken k ≠ []
  admitted : ∀ c, ∀ k ∈ admitted c xs, (y.2.put k).head? = some c.1

/-- The reads of the server, after that of the id, are the first requests typed. -/
lemma Framed.reads (hf : Framed y xs) (hok : y.2.Ok) (k : ℕ) : (y.2.taken k).tail.filter (· ≠ []) =
    ((typed k xs).take (readFrom y k)).map ClientRequest.enc := by
  unfold readFrom
  rcases hf.taken k with hnil | ⟨id, rest, hid, htaken, hfull⟩
  · simp [hnil]
  · have hlt : k < y.2.made := by
      by_contra hle
      have hearly := (hok.early k (.inl (not_lt.mp hle))).1
      rw [htaken] at hearly
      cases hearly
    obtain ⟨id', pieces, hput, hpieces⟩ := hf.put k hlt
    rw [hput, List.head?_cons, Option.some.injEq] at hid
    subst hid
    have hprefix := hok.taken k
    rw [htaken, hput, List.flatten_cons, List.flatten_cons, hpieces] at hprefix
    have hprefix := (List.prefix_append_right_inj _).mp hprefix
    have hflat : (rest.filter (· ≠ [])).flatten = rest.flatten := List.flatten_filter_ne_nil
    rw [htaken, List.tail_cons]
    refine clientRequestCodec.eq_map_enc_of_prefix (by decide) ?_ (hflat ▸ hprefix)
    intro data hd
    obtain ⟨hmem, hne⟩ := List.mem_filter.mp hd
    exact hfull data hmem (by simpa using hne)

lemma Framed.readFrom_le (hf : Framed y xs) (hok : y.2.Ok) (k : ℕ) :
    readFrom y k ≤ (typed k xs).length := by
  have hlen := congrArg List.length (hf.reads hok k)
  rw [List.length_map, List.length_take] at hlen
  unfold readFrom at hlen ⊢
  omega

/-- The first write of a process stays what it is. -/
lemma Writes.first (hw : Writes y y' m) (hlt : k < y.2.made) (hne : y.2.put k ≠ []) :
    (y'.2.put k).head? = (y.2.put k).head? := by
  cases hw with
  | starts id hm hmade hput => rw [hput, Function.update_of_ne hlt.ne]
  | types hmade hput hopen =>
    obtain ⟨pieces, hk, -⟩ := hput k
    rw [hk, List.head?_append_of_ne_nil _ hne]

lemma admittedBy_eq_some (h : admittedBy c (y, m) = some k) : ∃ fd cliAddr data,
    m = .loop (.event (.connection fd cliAddr data)) ∧ Server.newClientId data = some c ∧
      y.2.backlog.head? = some k := by
  cases m with
  | loop x =>
    cases x with
    | event e =>
      cases e with
      | connection fd cliAddr data =>
        simp only [admittedBy] at h
        split at h
        · next hid => exact ⟨fd, cliAddr, data, rfl, hid.1, h⟩
        · cases h
      | _ => cases h
    | _ => cases h
  | _ => cases h

/-- An event reads from at most one process, whose first read is the first write. -/
lemma Framed.takes (hinv : Inv y xs) (hwhole : Whole y (.loop (.event e))) (hf : Framed y xs)
    (hs : Served y y' e out) (k : ℕ) :
    y'.2.taken k = [] ∨ ∃ id rest, (y'.2.put k).head? = some id ∧ y'.2.taken k = id :: rest ∧
      ∀ data ∈ rest, data ≠ [] → data.length = clientRequestCodec.size := by
  rw [hs.put]
  have htakes := hs.takes
  cases e with
  | connection fd cliAddr data =>
    obtain ⟨j, hhead, htaken⟩ := htakes
    rw [htaken]
    by_cases hk : k = j
    · subst hk
      have hearly := (hinv.wires.early k (.inr (List.mem_of_mem_head? hhead))).1
      rw [Function.update_self, hearly]
      exact .inr ⟨data, [], hwhole k hhead, rfl, by simp⟩
    · rw [Function.update_of_ne hk]
      exact hf.taken k
  | udp fromStation data =>
    rw [show y'.2.taken = y.2.taken from htakes]
    exact hf.taken k
  | tcp i data =>
    obtain ⟨j, howner, htaken⟩ := htakes
    rw [htaken]
    by_cases hk : k = j
    · subst hk
      rw [Function.update_self]
      obtain ⟨id, rest, hid, hrest, hfull⟩ := (hf.taken k).resolve_left (hf.begun i k howner)
      refine .inr ⟨id, rest ++ [data], hid, by rw [hrest]; rfl, ?_⟩
      intro d hd
      rcases List.mem_append.mp hd with hd | hd
      · exact hfull d hd
      · rw [List.mem_singleton.mp hd]
        exact hwhole
    · rw [Function.update_of_ne hk]
      exact hf.taken k

/-- What was read stays read. -/
lemma Served.taken_ne_nil (hs : Served y y' e out) (h : y.2.taken k ≠ []) : y'.2.taken k ≠ [] := by
  have hupdate : ∀ j data, Function.update y.2.taken j (y.2.taken j ++ [data]) k ≠ [] := by
    intro j data
    by_cases hk : k = j
    · subst hk
      simp
    · rwa [Function.update_of_ne hk]
  have htakes := hs.takes
  cases e with
  | connection fd cliAddr data =>
    obtain ⟨j, -, htaken⟩ := htakes
    rw [htaken]
    exact hupdate j data
  | udp fromStation data => rwa [show y'.2.taken = y.2.taken from htakes]
  | tcp i data =>
    obtain ⟨j, -, htaken⟩ := htakes
    rw [htaken]
    exact hupdate j data

/-- A process that gets a descriptor is read from in the same step. -/
lemma Framed.owned (hf : Framed y xs) (hs : Served y y' e out) {fd : ℕ}
    (ho : y'.2.owner fd = some k) : y'.2.taken k ≠ [] := by
  have hold : y.2.owner fd = some k → y'.2.taken k ≠ [] := fun ho => hs.taken_ne_nil (hf.begun fd k ho)
  cases hs.changes with
  | none hids howner hbacklog hadm => exact hold (howner ▸ ho)
  | leaves c fd' hon hself hother howner hbacklog hadm =>
    rw [howner] at ho
    by_cases hfd : fd = fd'
    · subst hfd
      simp at ho
    · rw [Function.update_of_ne hfd] at ho
      exact hold ho
  | joins c fd' j hoff hself hother hno howner hbacklog hjoin hnone =>
    rw [howner] at ho
    by_cases hfd : fd = fd'
    · subst hfd
      rw [Function.update_self, Option.some.injEq] at ho
      subst ho
      obtain ⟨fd', cliAddr, data, he, -, hhead⟩ := admittedBy_eq_some hjoin
      cases he
      obtain ⟨i, hi, htaken⟩ := hs.takes
      rw [hhead, Option.some.injEq] at hi
      rw [htaken, hi, Function.update_self]
      simp
    · rw [Function.update_of_ne hfd] at ho
      exact hold ho

theorem framed_step (hinv : Inv y xs) (hlegal : Legal y m) (hwhole : Whole y m) (hf : Framed y xs)
    (h : step y m = some (y', out)) : Framed y' (xs ++ [(y, m)]) := by
  have hw := step_writes hinv hlegal h
  have hkept : ∀ k id, k < y.2.made → (y.2.put k).head? = some id → (y'.2.put k).head? = some id := by
    intro k id hlt hid
    rw [hw.first hlt, hid]
    rintro hnil
    rw [hnil] at hid
    cases hid
  have htaken : (∀ k, y'.2.taken k = [] ∨ ∃ id rest, (y'.2.put k).head? = some id ∧
      y'.2.taken k = id :: rest ∧ ∀ data ∈ rest, data ≠ [] → data.length = clientRequestCodec.size) ∧
      ∀ fd k, y'.2.owner fd = some k → y'.2.taken k ≠ [] := by
    by_cases hm : ∃ e, m = .loop (.event e)
    · obtain ⟨e, rfl⟩ := hm
      have hs := step_event hinv.loop hlegal.1 h
      exact ⟨hf.takes hinv hwhole hs, fun fd k => hf.owned hs⟩
    · have hquiet := step_quiet (not_exists.mp hm) h
      rw [hquiet.taken, hquiet.owner]
      refine ⟨fun k => ?_, hf.begun⟩
      rcases hf.taken k with hnil | ⟨id, rest, hid, htaken, hfull⟩
      · exact .inl hnil
      · refine .inr ⟨id, rest, hkept k id ?_ hid, htaken, hfull⟩
        by_contra hle
        rw [(hinv.wires.early k (.inl (not_lt.mp hle))).1] at htaken
        cases htaken
  constructor
  case unmade =>
    intro k hk
    rw [typed_snoc]
    cases hw with
    | starts id hm hmade hput =>
      subst hm
      rw [hf.unmade k (by omega)]
      rfl
    | types hmade hput hopen =>
      rw [hf.unmade k (hmade ▸ hk), List.nil_append]
      by_contra hne
      exact absurd (hopen k hne) (not_lt.mpr (hmade ▸ hk))
  case put =>
    intro k hk
    rw [typed_snoc]
    cases hw with
    | starts id hm hmade hput =>
      subst hm
      rw [hput]
      by_cases hk' : k = y.2.made
      · subst hk'
        refine ⟨id, [], Function.update_self .., ?_⟩
        rw [hf.unmade _ le_rfl]
        rfl
      · rw [Function.update_of_ne hk']
        obtain ⟨id', pieces, h₁, h₂⟩ := hf.put k (by omega)
        exact ⟨id', pieces, h₁, by rw [h₂]; simp [typedBy]⟩
    | types hmade hput hopen =>
      obtain ⟨pieces', hk', hpieces'⟩ := hput k
      obtain ⟨id', pieces, h₁, h₂⟩ := hf.put k (hmade ▸ hk)
      refine ⟨id', pieces ++ pieces', by rw [hk', h₁]; rfl, ?_⟩
      rw [List.flatten_append, h₂, hpieces']
      simp [Codec.stream]
  case taken => exact htaken.1
  case begun => exact htaken.2
  case admitted =>
    intro c k hk
    rw [admitted_snoc] at hk
    rcases List.mem_append.mp hk with hk | hk
    · exact hkept k c.1 (hinv.routes.accepted c k hk).1 (hf.admitted c k hk)
    · obtain ⟨fd, cliAddr, data, rfl, hid, hhead⟩ := admittedBy_eq_some (Option.mem_toList.mp hk)
      obtain ⟨-, hlen, h0⟩ := hinv.loop.legal hlegal.1
      have hc : c.1 = data := by
        rw [Server.newClientId_of_legal hlen h0, Option.some.injEq] at hid
        rw [← hid]
      rw [hc]
      exact hkept k data (hinv.wires.lt k (List.mem_of_mem_head? hhead)) (hwhole k hhead)

/-! ### Whole runs -/

lemma framed_start : Framed (start sockTcp sockUdp) [] where
  unmade _ _ := rfl
  put k hk := absurd hk (Nat.not_lt_zero k)
  taken _ := .inl rfl
  begun _ _ h := by cases h
  admitted _ _ h := by cases h

lemma readFrom_eq (h : y'.2.taken k = y.2.taken k) : readFrom y' k = readFrom y k := by
  unfold readFrom
  rw [h]

/-- A move that is no event, or that reads no request, leaves the requests as they are. -/
lemma requests_same (hf : Framed y xs) (hok : y.2.Ok)
    (hread : ∀ k ∈ admitted c xs, readFrom y' k = readFrom y k)
    (hnew : ∀ k ∈ admittedBy c (y, m), readFrom y' k = 0) :
    requests c y' (xs ++ [(y, m)]) = requests c y xs := by
  unfold requests
  rw [admitted_snoc, List.flatMap_append]
  have hold : (admitted c xs).flatMap (fun k => (typed k (xs ++ [(y, m)])).take (readFrom y' k)) =
      (admitted c xs).flatMap fun k => (typed k xs).take (readFrom y k) := by
    apply List.flatMap_congr
    intro k hk
    rw [hread k hk, typed_snoc, List.take_append_of_le_length (hf.readFrom_le hok k)]
  have hjoin : (admittedBy c (y, m)).toList.flatMap
      (fun k => (typed k (xs ++ [(y, m)])).take (readFrom y' k)) = [] := by
    cases hadm : admittedBy c (y, m) with
    | none => rfl
    | some k => simp [hnew k hadm]
  rw [hold, hjoin, List.append_nil]

/-- The server reads one more request of the last process of a client. -/
lemma requests_read (hinv : Inv y xs) (hf : Framed y xs) {i j : ℕ} {data : List UInt8}
    (hf' : Framed y' (xs ++ [(y, .loop (.event (.tcp i data)))])) (hok' : y'.2.Ok) (hd : data ≠ [])
    (hc : y.1.server.activeIdsSockets.find c = some i) (hj : y.2.owner i = some j)
    (htaken : y'.2.taken = Function.update y.2.taken j (y.2.taken j ++ [data])) :
    requests c y' (xs ++ [(y, .loop (.event (.tcp i data)))]) =
      requests c y xs ++ [ClientRequest.dec data] := by
  obtain ⟨pre, j', hadm, hj'⟩ := hinv.routes.current c i hc
  rw [hj, Option.some.injEq] at hj'
  subst hj'
  have hadm' : admitted c (xs ++ [(y, .loop (.event (.tcp i data)))]) = pre ++ [j] := by
    rw [admitted_snoc, hadm]
    exact List.append_nil _
  have htyped : ∀ k, typed k (xs ++ [(y, .loop (.event (.tcp i data)))]) = typed k xs := by
    intro k
    rw [typed_snoc]
    exact List.append_nil _
  have hpre : pre.flatMap (fun k => (typed k xs).take (readFrom y' k)) =
      pre.flatMap fun k => (typed k xs).take (readFrom y k) := by
    apply List.flatMap_congr
    intro k hk
    have hne : k ≠ j := by
      rintro rfl
      have hnodup := hinv.routes.nodup c
      rw [hadm] at hnodup
      exact (List.nodup_append.mp hnodup).2.2 k hk k List.mem_cons_self rfl
    have hsame : readFrom y' k = readFrom y k := readFrom_eq (by rw [htaken, Function.update_of_ne hne])
    rw [hsame]
  have hlast : (typed j xs).take (readFrom y' j) =
      (typed j xs).take (readFrom y j) ++ [ClientRequest.dec data] := by
    have hreads' := hf'.reads hok' j
    rw [htyped, htaken, Function.update_self, List.tail_append_of_ne_nil (hf.begun i j hj),
      List.filter_append, hf.reads hinv.wires j, List.filter_cons_of_pos (by simpa using hd),
      List.filter_nil] at hreads'
    have hdec := congrArg (List.map ClientRequest.dec) hreads'
    rw [List.map_append] at hdec
    have hid : ∀ rs : List ClientRequest, (rs.map ClientRequest.enc).map ClientRequest.dec = rs :=
      clientRequestCodec.map_dec_enc
    rw [hid, hid] at hdec
    exact hdec.symm
  unfold requests
  simp only [hadm', hadm, htyped, List.flatMap_append, List.flatMap_singleton, hpre, hlast,
    List.append_assoc]

lemma client_of_requestBy {client : TcpClient} {r : Server.Request} (h : Server.requestBy client req = some r) :
    r.client = client.id := by
  unfold Server.requestBy at h
  split at h
  · cases h
    rfl
  · split at h
    · cases h
      rfl
    · cases h

/-- The flag of a client on a topic after an event is the one wanted. -/
theorem wanted_event (hinv : Inv y xs) (hf : Framed y xs)
    (hf' : Framed y' (xs ++ [(y, .loop (.event e))])) (hok' : y'.2.Ok)
    (hlegal : Server.Legal y.1.server e) (hknown : Server.TopicKnown y.1.server e)
    (hs : Served y y' e out) (hflag : y.1.server.flagOf c t = wanted t (requests c y xs)) :
    y'.1.server.flagOf c t = wanted t (requests c y' (xs ++ [(y, .loop (.event e))])) := by
  have hserver := hinv.loop.reachable.inv
  rw [Server.flagOf_step hserver hlegal hknown hs.server, hflag]
  have htakes := hs.takes
  cases e with
  | connection fd cliAddr data =>
    obtain ⟨j, hhead, htaken⟩ := htakes
    have hzero : readFrom y' j = 0 := by
      have hearly := (hinv.wires.early j (.inr (List.mem_of_mem_head? hhead))).1
      simp [readFrom, htaken, hearly]
    rw [requests_same hf hinv.wires]
    · rfl
    · intro k hk
      refine readFrom_eq ?_
      rw [htaken, Function.update_of_ne]
      rintro rfl
      exact (hinv.routes.accepted c k hk).2 (List.mem_of_mem_head? hhead)
    · intro k hk
      obtain ⟨_, _, _, -, -, hhead'⟩ := admittedBy_eq_some hk
      rw [hhead, Option.some.injEq] at hhead'
      rw [← hhead', hzero]
  | udp fromStation data =>
    rw [requests_same hf hinv.wires]
    · rfl
    · intro k _
      exact readFrom_eq (by rw [show y'.2.taken = y.2.taken from htakes])
    · rintro k ⟨⟩
  | tcp i data =>
    obtain ⟨j, hj, htaken⟩ := htakes
    obtain ⟨client, hclient⟩ := (hserver.fds i).mpr hlegal
    have hids := (hserver.ids client.id i).mpr ⟨client, hclient, rfl⟩
    by_cases hd : data = []
    · subst hd
      rw [requests_same hf hinv.wires]
      · rfl
      · intro k _
        by_cases hk : k = j
        · subst hk
          have hne := hf.begun i k hj
          simp [readFrom, htaken, List.tail_append_of_ne_nil hne]
        · exact readFrom_eq (by rw [htaken, Function.update_of_ne hk])
      · rintro k ⟨⟩
    · rw [Server.requestOf_tcp hd, hclient, Option.bind_some]
      by_cases hc : client.id = c
      · subst hc
        rw [requests_read hinv hf hf' hok' hd hids hj htaken, wanted_requestBy client]
        cases hr : Server.requestBy client (ClientRequest.dec data) with
        | none => rfl
        | some r => simp [client_of_requestBy hr]
      · rw [requests_same hf hinv.wires]
        · cases hr : Server.requestBy client (ClientRequest.dec data) with
          | none => rfl
          | some r => simp [client_of_requestBy hr, hc]
        · intro k hk
          refine readFrom_eq ?_
          rw [htaken, Function.update_of_ne]
          rintro rfl
          exact hc (hserver.socket_inj hids (hinv.routes.owner c k hk i hj))
        · rintro k ⟨⟩

end System

end Protocoale.Tema2

import Protocoale.Tema2.Handlers
import Protocoale.Tema2.Subscriber

/-!
What the server makes of the bytes of one connection. The first receive is taken for the id of the
client and every other one for a request (`exec_receives`). They are what the subscriber sent when
the receives end where the id and the requests do, and in no other case (`served_iff`): a request
ends in a character, so that a receive that is short of it cannot be mistaken for it.
-/

namespace Protocoale.Tema2

open Lib Lib.Bytes Lib.Cuts

namespace Server

variable {s : Server} {id : ClientId} {reqs : List ClientRequest} {first : List UInt8}
  {rest : List (List UInt8)} {fd : ℕ} {cliAddr : SockaddrIn}

/-- The results of the receives on a connection, until all of what the subscriber sent was
received. -/
structure Receives (id : ClientId) (reqs : List ClientRequest) (first : List UInt8)
    (rest : List (List UInt8)) : Prop where
  flatten : first ++ rest.flatten = Subscriber.sent id reqs
  first_ne_nil : first ≠ []
  first_le : first.length ≤ MAX_ID_LEN
  ne_nil : ∀ c ∈ rest, c ≠ []
  le_max : ∀ c ∈ rest, c.length ≤ clientRequestCodec.size

/-- The id and the requests the server takes the receives for. -/
def taken (first : List UInt8) (rest : List (List UInt8)) :
    Option ClientId × List ClientRequest :=
  (newClientId first, rest.map ClientRequest.dec)

/-- The server registers a client and then applies its requests. -/
def serve (s : Server) (fd : ℕ) (cliAddr : SockaddrIn) (id : ClientId)
    (reqs : List ClientRequest) : Option (Server × List Output) :=
  (s.acceptClient fd cliAddr id).bind fun r =>
    (Run.exec (fun s req => s.applyRequest fd req) r.1 reqs).map fun q => (q.1, r.2 ++ q.2)

lemma exec_tcp (hne : ∀ c ∈ rest, c ≠ []) : Run.exec step s (rest.map (.tcp fd)) =
    Run.exec (fun s req => s.applyRequest fd req) s (rest.map ClientRequest.dec) := by
  induction rest generalizing s with
  | nil => rfl
  | cons c rest ih =>
    have hstep : step s (.tcp fd c) = s.applyRequest fd (ClientRequest.dec c) := by
      simp [step, handleTcpMessage, hne c]
    have hrest : ∀ d ∈ rest, d ≠ [] := by
      intro d hd
      exact hne d (List.mem_cons_of_mem c hd)
    simp only [List.map_cons, Run.exec, hstep, ih hrest]

/-- The server serves the id and the requests it takes the receives for, whatever its state. -/
lemma exec_receives (h : Receives id reqs first rest) :
    Run.exec step s (.connection fd cliAddr first :: rest.map (.tcp fd)) =
      (taken first rest).1.bind fun id' => s.serve fd cliAddr id' (taken first rest).2 := by
  simp only [Run.exec, step, handleConnectionRequest, Option.bind_assoc, exec_tcp h.ne_nil, taken,
    serve]

/-- A receive that is taken for a request of a subscriber is a full one. -/
lemma length_of_dec {c : List UInt8} (hle : c.length ≤ clientRequestCodec.size)
    (h : Subscriber.Sends (ClientRequest.dec c)) : c.length = clientRequestCodec.size := by
  have hlast : c.getD 52 0 ≠ 0 := h.reqType_ne_zero
  by_contra hne
  have hlt : c.length < 53 := lt_of_le_of_ne hle hne
  apply hlast
  exact List.getD_eq_default _ _ (Nat.le_of_lt_succ hlt)

/-- The receives are taken for what was sent when they return the id and the requests one by one. -/
lemma taken_eq_iff (hreqs : ∀ r ∈ reqs, Subscriber.Sends r) (h : Receives id reqs first rest) :
    taken first rest = (some id, reqs) ↔ first = id.1 ∧ rest = reqs.map ClientRequest.enc := by
  constructor
  · intro htaken
    have hdec : rest.map ClientRequest.dec = reqs := congrArg Prod.snd htaken
    have hlen : rest.length = reqs.length := by rw [← hdec, List.length_map]
    have hfull : ∀ c ∈ rest, c.length = clientRequestCodec.size := by
      intro c hc
      apply length_of_dec (h.le_max c hc)
      apply hreqs
      rw [← hdec]
      exact List.mem_map_of_mem hc
    have hrest : rest.flatten.length = (clientRequestCodec.stream reqs).length := by
      rw [clientRequestCodec.stream_length, ← hlen, List.length_flatten,
        List.map_congr_left hfull, List.map_const', List.sum_replicate, smul_eq_mul]
    obtain ⟨hfirst, hflat⟩ := List.append_inj' h.flatten hrest
    exact ⟨hfirst, clientRequestCodec.eq_map_enc_of_full hfull hlen hflat⟩
  · rintro ⟨rfl, rfl⟩
    rw [taken, newClientId_of_legal id.2.1 id.2.2]
    exact congrArg (Prod.mk (some id)) (clientRequestCodec.map_dec_enc reqs)

/-- **The server registers the id of the subscriber and applies its requests, each once and in
order, exactly when the receives return the id and the requests one by one.** -/
theorem served_iff (hreqs : ∀ r ∈ reqs, Subscriber.Sends r) (h : Receives id reqs first rest) :
    (∀ s fd cliAddr, Run.exec step s (.connection fd cliAddr first :: rest.map (.tcp fd)) =
      (taken first rest).1.bind fun id' => s.serve fd cliAddr id' (taken first rest).2) ∧
    (taken first rest = (some id, reqs) ↔ first = id.1 ∧ rest = reqs.map ClientRequest.enc) :=
  ⟨fun _ _ _ => exec_receives h, taken_eq_iff hreqs h⟩

/-- The id `C1` and a subscription to the topic `a`. -/
def clientC1 : ClientId := ⟨[67, 49], by decide, by decide⟩

def requestA : ClientRequest := Subscriber.subscribe [97] SF_ON

lemma sends_requestA : ∀ r ∈ [requestA], Subscriber.Sends r :=
  List.forall_mem_singleton.mpr (.subscribe _ _)

theorem served_one : taken clientC1.1 [ClientRequest.enc requestA] =
    (some clientC1, [requestA]) := by
  refine (served_iff sends_requestA ?_).2.mpr ⟨rfl, rfl⟩
  exact ⟨rfl, by decide, by decide, by decide +kernel, by decide +kernel⟩

/-- When the request is received together with the id, the id is taken for a longer one. -/
theorem not_served : ¬ ∀ id reqs first rest, (∀ r ∈ reqs, Subscriber.Sends r) →
    Receives id reqs first rest → taken first rest = (some id, reqs) := by
  intro h
  have hcut : Receives clientC1 [requestA] ((Subscriber.sent clientC1 [requestA]).take 11)
      [(Subscriber.sent clientC1 [requestA]).drop 11] :=
    ⟨by rw [List.flatten_singleton, List.take_append_drop], by decide +kernel, by decide +kernel,
      by decide +kernel, by decide +kernel⟩
  have hid := congrArg Prod.fst (h _ _ _ _ sends_requestA hcut)
  revert hid
  decide +kernel

end Server

end Protocoale.Tema2

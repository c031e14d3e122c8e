import Protocoale.Tema2.Invariant

/-!
The main loop of the server with its `select` (`server.cpp`). `select` takes a snapshot of the
descriptors that are ready, and the `for` then handles them one by one in increasing order, while
the handlers change `read_fds` under it. A descriptor of the snapshot that a handler had closed, or
that had been handed out again by `accept`, would be served from stale data; `server_invariant`
shows among the rest that this does not happen.
-/

namespace Protocoale.Tema2

open Lib Lib.Bytes

/-- The variables of `main`, and the descriptors of `tmp_fds` the `for` has still to look at. -/
structure Loop where
  server : Server
  tmpFds : List ℕ

namespace Loop

open Server

/-- `handle_stdin_message`: the process ends on this line. -/
def isExit (line : List UInt8) : Bool := (cstr line).take 4 = [101, 120, 105, 116]

/-- What the loop gets next from the kernel: the answer of `select`, a line of the standard input,
or what a socket that is ready brings. -/
inductive Input where
  | select (ready : Finset ℕ)
  | stdin (line : List UInt8)
  | event (e : Event)

/-- The branch of the loop body that the descriptor `i` takes, in the order of the source. -/
def Serves (s : Server) (i : ℕ) : Event → Prop
  | .connection _ _ _ => i ≠ 0 ∧ i = s.sockTcp
  | .udp _ _ => i ≠ 0 ∧ i ≠ s.sockTcp ∧ i = s.sockUdp
  | .tcp j _ => i ≠ 0 ∧ i ≠ s.sockTcp ∧ i ≠ s.sockUdp ∧ i = j

instance (s : Server) (i : ℕ) : (e : Event) → Decidable (Serves s i e)
  | .connection _ _ _ => inferInstanceAs (Decidable (_ ∧ _))
  | .udp _ _ => inferInstanceAs (Decidable (_ ∧ _ ∧ _))
  | .tcp _ _ => inferInstanceAs (Decidable (_ ∧ _ ∧ _ ∧ _))

/-- What the kernel and the clients guarantee of an event: `accept` returns a descriptor that is
not open and the first `recv` of a connection brings an id of at most ten bytes other than NUL. Of
a client's descriptor nothing is asked, it is the one the `for` has got to. -/
def FromKernel (s : Server) : Event → Prop
  | .connection newsockfd _ data => newsockfd ∉ s.readFds ∧ data.length < MAX_ID_LEN ∧ 0 ∉ data
  | .udp _ _ => True
  | .tcp _ _ => True

instance (s : Server) : (e : Event) → Decidable (FromKernel s e)
  | .connection _ _ _ => inferInstanceAs (Decidable (_ ∧ _ ∧ _))
  | .udp _ _ => inferInstanceAs (Decidable True)
  | .tcp _ _ => inferInstanceAs (Decidable True)

/-- One step of the loop. There is none when the process ends. -/
def step (l : Loop) : Input → Option (Loop × List Output)
  | .select ready =>
    some ({ l with tmpFds := (List.range (l.server.fdMax + 1)).filter (· ∈ ready) }, [])
  | .stdin line => if isExit line then none else some ({ l with tmpFds := l.tmpFds.tail }, [])
  | .event e => (l.server.step e).map fun r => (⟨r.1, l.tmpFds.tail⟩, r.2)

/-- `select` is called when the `for` is through and answers with descriptors of `read_fds`; the
`for` hands its next descriptor to the branch that serves it. -/
def Legal (l : Loop) : Input → Prop
  | .select ready => l.tmpFds = [] ∧ ready ⊆ l.server.readFds
  | .stdin _ => l.tmpFds.head? = some 0
  | .event e => (∃ i ∈ l.tmpFds.head?, Serves l.server i e) ∧ FromKernel l.server e

instance (l : Loop) : (x : Input) → Decidable (Legal l x)
  | .select _ => inferInstanceAs (Decidable (_ ∧ _))
  | .stdin _ => inferInstanceAs (Decidable (_ = _))
  | .event _ => inferInstanceAs (Decidable (_ ∧ _))

/-- The main loop when it is entered. -/
def init (sockTcp sockUdp : ℕ) : Loop := ⟨Server.init sockTcp sockUdp, []⟩

/-- The states the main loop can get into. -/
def Reachable (l : Loop) : Prop :=
  ∃ sockTcp sockUdp, Run.Reach step Legal (init sockTcp sockUdp) l

/-! ### The snapshot -/

/-- The server got where it is by legal events, and the descriptors of the snapshot that are still
to be handled are open. -/
structure Inv (l : Loop) : Prop where
  reachable : l.server.Reachable
  nodup : l.tmpFds.Nodup
  opened : ∀ i ∈ l.tmpFds, i ∈ l.server.readFds

variable {l l' : Loop} {s s' : Server} {x : Input} {e : Event} {out : List Output} {i : ℕ}

/-- A step of the server closes at most the descriptor it serves. -/
lemma mem_readFds_step (hinv : s.Inv) (hlegal : Server.Legal s e)
    (h : s.step e = some (s', out)) (hi : i ∈ s.readFds) (hne : ¬ Serves s i e) :
    i ∈ s'.readFds := by
  cases e with
  | connection fd cliAddr data =>
    obtain ⟨hfd, hlen, h0⟩ := hlegal
    rcases connection_cases hinv hfd hlen h0 h with ⟨-, rfl, -⟩ | ⟨-, client, -, hconn, -⟩
    · exact hi
    · rw [hconn.readFds]
      exact Finset.mem_insert_of_mem hi
  | udp fromStation data =>
    rw [(step_udp h).1, handleUdpMessage_eq]
    exact hi
  | tcp j data =>
    rcases handleTcpMessage_cases h with ⟨-, client, -, -, rfl⟩ | ⟨-, -, rfl | ⟨_, _, _, _, -, -, -, rfl⟩⟩
    · apply Finset.mem_erase.mpr
      refine ⟨?_, hi⟩
      rintro rfl
      exact hne ⟨hlegal.2.1, hlegal.2.2.1, hlegal.2.2.2, rfl⟩
    · exact hi
    · exact hi

/-- A descriptor is served by one event only. -/
lemma Serves.eq {j : ℕ} (h : Serves s i e) (h' : Serves s j e) : i = j := by
  cases e with
  | connection fd cliAddr data => exact h.2.trans h'.2.symm
  | udp fromStation data => exact h.2.2.trans h'.2.2.symm
  | tcp k data => exact h.2.2.2.trans h'.2.2.2.symm

/-- What the loop hands to the server is legal. -/
lemma Inv.legal (hinv : Inv l) (h : Legal l (.event e)) : Server.Legal l.server e := by
  obtain ⟨⟨i, hi, hserves⟩, hkernel⟩ := h
  cases e with
  | connection fd cliAddr data => exact hkernel
  | udp fromStation data => trivial
  | tcp j data =>
    obtain ⟨h0, htcp, hudp, rfl⟩ := hserves
    exact ⟨hinv.opened i (List.mem_of_mem_head? hi), h0, htcp, hudp⟩

/-- **The snapshot stays valid.** -/
theorem inv_step (hinv : Inv l) (hlegal : Legal l x) (h : step l x = some (l', out)) : Inv l' := by
  cases x with
  | select ready =>
    cases h
    refine ⟨hinv.reachable, List.nodup_range.filter _, ?_⟩
    intro i hi
    have hready : i ∈ ready := by simpa using (List.mem_filter.mp hi).2
    exact hlegal.2 hready
  | stdin line =>
    rw [step] at h
    split at h
    · cases h
    · cases h
      exact ⟨hinv.reachable, hinv.nodup.tail, fun i hi => hinv.opened i (List.mem_of_mem_tail hi)⟩
  | event e =>
    obtain ⟨⟨s', out'⟩, hs, he⟩ := Option.map_eq_some_iff.mp h
    cases he
    have hl := hinv.legal hlegal
    refine ⟨?_, hinv.nodup.tail, ?_⟩
    · obtain ⟨sockTcp, sockUdp, hr⟩ := hinv.reachable
      exact ⟨sockTcp, sockUdp, hr.step hl hs⟩
    · intro i hi
      obtain ⟨⟨j, hj, hserves⟩, -⟩ := hlegal
      apply mem_readFds_step hinv.reachable.inv hl hs (hinv.opened i (List.mem_of_mem_tail hi))
      -- `i` comes after the descriptor that is served
      intro hserves'
      have hnodup := hinv.nodup
      rw [← List.cons_head?_tail hj, List.nodup_cons, hserves.eq hserves'] at hnodup
      exact hnodup.1 hi

theorem Reachable.inv (h : Reachable l) : Inv l := by
  obtain ⟨sockTcp, sockUdp, hr⟩ := h
  apply hr.inv
  · exact ⟨⟨sockTcp, sockUdp, Run.Reach.init⟩, List.nodup_nil, by simp [init]⟩
  · intro l x l' out hinv hlegal h
    exact inv_step hinv hlegal h

/-! ### The state between two handlers -/

/-- The containers of the server fit together. -/
structure Consistent (s : Server) : Prop where
  /-- `active_ids_sockets` has the descriptor of a client exactly when `active_clients` has the
  client of the descriptor. -/
  ids : ∀ id fd, s.activeIdsSockets.find id = some fd ↔
    ∃ client, s.activeClients.find fd = some client ∧ client.id = id
  /-- A client has at most one live connection. -/
  one : ∀ fd fd' client client', s.activeClients.find fd = some client →
    s.activeClients.find fd' = some client' → client.id = client'.id → fd = fd'
  /-- The descriptors of the clients are those of `read_fds` that are no others. -/
  fds : ∀ fd, s.activeClients.find fd ≠ none ↔
    fd ∈ s.readFds ∧ fd ≠ 0 ∧ fd ≠ s.sockTcp ∧ fd ≠ s.sockUdp
  fdMax : ∀ fd, s.activeClients.find fd ≠ none → fd ≤ s.fdMax
  /-- Connected clients and subscribers are known. -/
  active_known : ∀ id, s.activeIdsSockets.find id ≠ none → s.allClients.find id ≠ none
  subs_known : ∀ t, ∀ sub ∈ s.subsOf t, s.allClients.find sub.client.id ≠ none
  /-- Messages are kept for clients that are not connected. -/
  stored_offline : ∀ id, s.storeAndForward.find id ≠ none → s.activeIdsSockets.find id = none
  /-- A client has at most one subscription on a topic. -/
  subs_nodup : ∀ t, ((s.subsOf t).map (·.client.id)).Nodup

lemma consistent (hinv : s.Inv) : Consistent s := by
  constructor
  case ids => exact hinv.ids
  case one =>
    intro fd fd' client client' h h' hid
    have hfd := (hinv.ids client.id fd).mpr ⟨client, h, rfl⟩
    have hfd' := (hinv.ids client.id fd').mpr ⟨client', h', hid.symm⟩
    rw [hfd] at hfd'
    exact Option.some.inj hfd'
  case fds =>
    intro fd
    rw [← hinv.fds fd, Option.ne_none_iff_exists']
  case fdMax =>
    intro fd hne
    obtain ⟨client, hc⟩ := Option.ne_none_iff_exists'.mp hne
    exact hinv.fdMax fd ((hinv.fds fd).mp ⟨client, hc⟩).1
  case active_known =>
    intro id hne
    obtain ⟨fd, hfd⟩ := Option.ne_none_iff_exists'.mp hne
    obtain ⟨client, hc, rfl⟩ := (hinv.ids id fd).mp hfd
    rw [hinv.active_record fd client hc]
    exact Option.some_ne_none client
  case subs_known =>
    intro t sub hsub
    rw [hinv.subs_record t sub hsub]
    exact Option.some_ne_none sub.client
  case stored_offline => exact hinv.stored_offline
  case subs_nodup => exact hinv.subs_nodup

/-- The loop goes on until `exit` is read. -/
lemma Inv.step_isSome (hinv : Inv l) (hlegal : Legal l x) :
    (∃ r, step l x = some r) ∨ ∃ line, x = .stdin line ∧ isExit line = true := by
  cases x with
  | select ready => exact Or.inl ⟨_, rfl⟩
  | stdin line =>
    cases hx : isExit line with
    | true => exact Or.inr ⟨line, rfl, hx⟩
    | false => exact Or.inl ⟨_, by rw [step, hx]; rfl⟩
  | event e =>
    obtain ⟨r, hr⟩ := Server.step_isSome hinv.reachable.inv (hinv.legal hlegal)
    exact Or.inl ⟨_, by rw [step, hr]; rfl⟩

/-- **The invariant of the main loop.** Between two handlers the containers fit together, and every
descriptor of the snapshot that `handle_tcp_message` will be called for has its client: no `at`
throws, so the loop goes on until `exit` is read. -/
theorem server_invariant (h : Reachable l) : Consistent l.server ∧
    (∀ i ∈ l.tmpFds, i ≠ 0 → i ≠ l.server.sockTcp → i ≠ l.server.sockUdp →
      ∃ client, l.server.activeClients.find i = some client) ∧
    ∀ x, Legal l x → (∃ r, step l x = some r) ∨ ∃ line, x = .stdin line ∧ isExit line = true := by
  have hinv := h.inv
  refine ⟨consistent hinv.reachable.inv, ?_, fun x hx => hinv.step_isSome hx⟩
  intro i hi h0 htcp hudp
  exact (hinv.reachable.inv.fds i).mpr ⟨hinv.opened i hi, h0, htcp, hudp⟩

/-- Two clients connect, and both are ready when the first one leaves. -/
def bothReady : List Input :=
  [.select {3}, .event (.connection 5 (pad _ []) [67, 49]),
    .select {3}, .event (.connection 6 (pad _ []) [67, 50]),
    .select {5, 6}, .event (.tcp 5 [])]

theorem server_invariant_bothReady : ∃ r, Run.exec step (init 3 4) bothReady = some r ∧
    r.1.tmpFds = [6] ∧ Consistent r.1.server := by
  have hlegal : Run.Along step Legal (init 3 4) bothReady := by decide +kernel
  obtain ⟨r, hr, htmp⟩ : ∃ r, Run.exec step (init 3 4) bothReady = some r ∧ r.1.tmpFds = [6] := by
    refine ⟨_, (Option.some_get (by decide +kernel)).symm, ?_⟩
    decide +kernel
  have hreach : Reachable r.1 := ⟨3, 4, Run.Reach.init.of_exec hlegal hr⟩
  exact ⟨r, hr, htmp, (server_invariant hreach).1⟩

end Loop

end Protocoale.Tema2

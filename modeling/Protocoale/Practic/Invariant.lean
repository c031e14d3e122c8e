import Protocoale.Practic.Server

/-!
The invariant of the reachable states of the chat server: the numbers of `all_clients` tell its
clients apart, and the three maps of active clients describe one set of connections. What the
handlers do to the maps is said by `Joined`, for a client that connects or comes back, and by
`handleTcpMessage_cases`; routing is a lookup in the state the invariant holds in.
-/

namespace Protocoale.Practic

open Lib Lib.Bytes Lib.CText

namespace Server

variable {s s' : Server} {nickname : Nickname} {fd i : ℕ} {data : List UInt8} {order : Order}
  {out : List Output} {e : Event} {es : List Event} {client : TcpClient}

/-! ### What the handlers do -/

/-- A client has become active on a descriptor. -/
structure Joined (s s' : Server) (fd : ℕ) (client : TcpClient) : Prop where
  clients : ∀ k, s'.activeClients.find k =
    if k = client.nickname then some client else s.activeClients.find k
  sockets : ∀ k, s'.activeSocketClient.find k =
    if k = fd then some client else s.activeSocketClient.find k
  nrs : ∀ n, s'.activeNrsSockets.find n =
    if n = client.number then some fd else s.activeNrsSockets.find n
  sockTcp : s'.sockTcp = s.sockTcp

lemma step_connection : step s (.connection fd data) =
    (newClientNickname data).bind (s.acceptClient fd) := rfl

/-- The handler has nothing to do with a nickname that is in use. -/
lemma acceptClient_active (hc : s.activeClients.find nickname = some client)
    (h : s.acceptClient fd nickname = some (s', out)) : s' = s := by
  rw [acceptClient, hc, Option.isSome_some, if_pos rfl] at h
  cases h
  rfl

/-- A known client that is not active. -/
lemma acceptClient_known (hoff : s.activeClients.find client.nickname = none)
    (hc : s.allClients.find client.nickname = some client)
    (hnr : s.activeNrsSockets.find client.number = none)
    (hfd : s.activeSocketClient.find fd = none)
    (h : s.acceptClient fd client.nickname = some (s', out)) :
    Joined s s' fd client ∧ s'.readFds = s.readFds ∧ s'.fdMax = s.fdMax ∧
      s'.allClients = s.allClients ∧ s'.currId = s.currId := by
  simp only [acceptClient, hoff, hc, Option.isSome_none, Bool.false_eq_true, if_false] at h
  cases h
  refine ⟨⟨?_, ?_, ?_, rfl⟩, rfl, rfl, rfl, rfl⟩
  · intro k
    exact UMap.find_insert_of_none hoff
  · intro k
    exact UMap.find_insert_of_none hfd
  · intro n
    exact UMap.find_insert_of_none hnr

/-- A client nobody has heard of. -/
lemma acceptClient_new (hoff : s.activeClients.find nickname = none)
    (hnew : s.allClients.find nickname = none)
    (hnr : s.activeNrsSockets.find s.currId = none)
    (hfd : s.activeSocketClient.find fd = none)
    (h : s.acceptClient fd nickname = some (s', out)) :
    Joined s s' fd ⟨s.currId, nickname⟩ ∧ s'.readFds = insert fd s.readFds ∧
      s'.fdMax = max s.fdMax fd ∧ s'.currId = s.currId + 1 ∧ ∀ k, s'.allClients.find k =
        if k = nickname then some ⟨s.currId, nickname⟩ else s.allClients.find k := by
  simp only [acceptClient, hoff, hnew, Option.isSome_none, Bool.false_eq_true, if_false,
    addNewClient] at h
  split at h
  · cases h
  · cases h
    refine ⟨⟨?_, ?_, ?_, rfl⟩, rfl, ?_, rfl, ?_⟩
    · intro k
      exact UMap.find_insert_of_none hoff
    · intro k
      exact UMap.find_insert_of_none hfd
    · intro n
      exact UMap.find_insert_of_none hnr
    · show (if s.fdMax < fd then fd else s.fdMax) = max s.fdMax fd
      split <;> omega
    · intro k
      exact UMap.find_insert_of_none hnew

/-- A message changes nothing; the end of a connection takes the client out of the maps. -/
lemma handleTcpMessage_cases (h : s.handleTcpMessage i data order = some (s', out)) :
    (data = [] ∧ ∃ client, s.activeSocketClient.find i = some client ∧ s' = { s with
      readFds := s.readFds.erase i
      activeNrsSockets := s.activeNrsSockets.erase client.number
      activeClients := s.activeClients.erase client.nickname
      activeSocketClient := s.activeSocketClient.erase i }) ∨
    (data ≠ [] ∧ s' = s) := by
  unfold handleTcpMessage at h
  split at h
  · next hdata =>
    obtain ⟨client, hc, he⟩ := Option.map_eq_some_iff.mp h
    cases he
    exact Or.inl ⟨hdata, client, hc, rfl⟩
  · next hdata =>
    obtain ⟨message, -, hroute⟩ := Option.bind_eq_some_iff.mp h
    unfold route at hroute
    split at hroute
    · obtain ⟨buffer, -, he⟩ := Option.map_eq_some_iff.mp hroute
      cases he
      exact Or.inr ⟨hdata, rfl⟩
    · split at hroute <;> cases hroute <;> exact Or.inr ⟨hdata, rfl⟩

/-! ### The invariant -/

/-- The numbers given so far tell the known clients apart. -/
structure Numbered (s : Server) : Prop where
  nickname : ∀ k c, s.allClients.find k = some c → c.nickname = k
  pos : ∀ k c, s.allClients.find k = some c → 0 < c.number
  lt : ∀ k c, s.allClients.find k = some c → c.number < s.currId
  inj : ∀ k k' c c', s.allClients.find k = some c → s.allClients.find k' = some c' →
    c.number = c'.number → k = k'
  currId_pos : 0 < s.currId

/-- The three maps of active clients describe one set of connections. -/
structure Connected (s : Server) : Prop where
  socket : ∀ k c, s.activeClients.find k = some c →
    ∃ fd, s.activeNrsSockets.find c.number = some fd
  record : ∀ fd c, s.activeSocketClient.find fd = some c →
    s.activeClients.find c.nickname = some c
  nrs : ∀ n fd, s.activeNrsSockets.find n = some fd ↔
    ∃ c, s.activeSocketClient.find fd = some c ∧ c.number = n

/-- What holds in every reachable state. -/
structure Inv (s : Server) : Prop where
  listening : 0 ∈ s.readFds ∧ s.sockTcp ∈ s.readFds
  numbered : Numbered s
  connected : Connected s
  active : ∀ k c, s.activeClients.find k = some c → s.allClients.find k = some c

/-- The server starts in a state that satisfies the invariant. -/
lemma inv_init (sockTcp : ℕ) : Inv (init sockTcp) where
  listening := by simp [init]
  numbered := by constructor <;> simp [init]
  connected := by constructor <;> simp [init]
  active := by simp [init]

/-- A number that leads to a socket is that of an active client. -/
lemma Connected.active_of_nrs (hconn : Connected s) {n : ℤ}
    (h : s.activeNrsSockets.find n = some fd) : ∃ c, s.activeSocketClient.find fd = some c ∧
      c.number = n ∧ s.activeClients.find c.nickname = some c := by
  obtain ⟨c, hc, hn⟩ := (hconn.nrs n fd).mp h
  exact ⟨c, hc, hn, hconn.record fd c hc⟩

/-- The number of a client that is not active leads nowhere. -/
lemma Inv.nrs_of_inactive (hinv : Inv s) (hc : s.allClients.find nickname = some client)
    (hoff : s.activeClients.find nickname = none) :
    s.activeNrsSockets.find client.number = none := by
  cases h : s.activeNrsSockets.find client.number with
  | none => rfl
  | some fd =>
    obtain ⟨c, -, hn, hact⟩ := hinv.connected.active_of_nrs h
    have hk : c.nickname = nickname := hinv.numbered.inj _ _ _ _ (hinv.active _ _ hact) hc hn
    rw [hk, hoff] at hact
    cases hact

/-- A number that was not given yet leads nowhere. -/
lemma Inv.nrs_currId (hinv : Inv s) : s.activeNrsSockets.find s.currId = none := by
  cases h : s.activeNrsSockets.find s.currId with
  | none => rfl
  | some fd =>
    obtain ⟨c, -, hn, hact⟩ := hinv.connected.active_of_nrs h
    have := hinv.numbered.lt _ _ (hinv.active _ _ hact)
    omega

/-! ### The handlers keep it -/

/-- A client becomes active under a number that led nowhere, on a descriptor that belonged to
nobody. -/
lemma Connected.joined (hconn : Connected s) (hoff : s.activeClients.find client.nickname = none)
    (hnr : s.activeNrsSockets.find client.number = none)
    (hfd : s.activeSocketClient.find fd = none) (hj : Joined s s' fd client) : Connected s' := by
  constructor
  · intro k c hk
    rw [hj.nrs]
    rw [hj.clients] at hk
    split
    · exact ⟨fd, rfl⟩
    · next hne =>
      split at hk
      · cases hk; exact absurd rfl hne
      · exact hconn.socket k c hk
  · intro fd' c
    rw [hj.sockets, hj.clients]
    have := hconn.record fd' c
    grind
  · intro n fd'
    rw [hj.nrs, hj.sockets]
    have := hconn.nrs n fd'
    have := hconn.nrs client.number fd'
    grind

lemma Inv.known (hinv : Inv s) (hoff : s.activeClients.find client.nickname = none)
    (hc : s.allClients.find client.nickname = some client)
    (hfd : s.activeSocketClient.find fd = none)
    (h : s.acceptClient fd client.nickname = some (s', out)) : Inv s' := by
  have hnr := hinv.nrs_of_inactive hc hoff
  obtain ⟨hj, hreads, -, hall, hid⟩ := acceptClient_known hoff hc hnr hfd h
  constructor
  case listening =>
    rw [hreads, hj.sockTcp]
    exact hinv.listening
  case numbered =>
    obtain ⟨h1, h2, h3, h4, h5⟩ := hinv.numbered
    constructor <;> simpa only [hall, hid]
  case connected => exact hinv.connected.joined hoff hnr hfd hj
  case active =>
    intro k c
    rw [hj.clients, hall]
    have := hinv.active k c
    grind

lemma Inv.new (hinv : Inv s) (hnew : s.allClients.find nickname = none)
    (hoff : s.activeClients.find nickname = none) (hfd : s.activeSocketClient.find fd = none)
    (h : s.acceptClient fd nickname = some (s', out)) : Inv s' := by
  obtain ⟨hj, hreads, -, hid, hall⟩ := acceptClient_new hoff hnew hinv.nrs_currId hfd h
  constructor
  case listening =>
    rw [hreads, hj.sockTcp]
    exact ⟨Finset.mem_insert_of_mem hinv.listening.1, Finset.mem_insert_of_mem hinv.listening.2⟩
  case numbered =>
    obtain ⟨h1, h2, h3, h4, h5⟩ := hinv.numbered
    constructor
    · intro k c
      rw [hall]
      have := h1 k c
      grind
    · intro k c
      rw [hall]
      have := h2 k c
      grind
    · intro k c
      rw [hall, hid]
      have := h3 k c
      grind
    · intro k k' c c'
      rw [hall, hall]
      have := h3 k c
      have := h3 k' c'
      have := h4 k k' c c'
      grind
    · omega
  case connected => exact hinv.connected.joined hoff hinv.nrs_currId hfd hj
  case active =>
    intro k c
    rw [hj.clients, hall]
    have := hinv.active k c
    grind

lemma Inv.close (hinv : Inv s) (hi : i ≠ 0 ∧ i ≠ s.sockTcp)
    (hc : s.activeSocketClient.find i = some client) : Inv { s with
      readFds := s.readFds.erase i
      activeNrsSockets := s.activeNrsSockets.erase client.number
      activeClients := s.activeClients.erase client.nickname
      activeSocketClient := s.activeSocketClient.erase i } := by
  have hrec := hinv.connected.record i client hc
  have hnr : s.activeNrsSockets.find client.number = some i :=
    (hinv.connected.nrs _ _).mpr ⟨client, hc, rfl⟩
  constructor
  case listening =>
    obtain ⟨h0, hsock⟩ := hinv.listening
    exact ⟨Finset.mem_erase.mpr ⟨hi.1.symm, h0⟩, Finset.mem_erase.mpr ⟨hi.2.symm, hsock⟩⟩
  case numbered =>
    obtain ⟨h1, h2, h3, h4, h5⟩ := hinv.numbered
    exact ⟨h1, h2, h3, h4, h5⟩
  case connected =>
    constructor
    · intro k c
      dsimp only
      rw [UMap.find_erase, UMap.find_erase]
      have := hinv.connected.socket k c
      have := hinv.numbered.inj k client.nickname c client
      have := hinv.active k c
      have := hinv.active _ _ hrec
      grind
    · -- another descriptor of the same client would be where its number leads to
      intro fd c
      dsimp only
      rw [UMap.find_erase, UMap.find_erase]
      have := hinv.connected.record fd c
      have := hinv.connected.nrs client.number fd
      grind
    · intro n fd
      dsimp only
      rw [UMap.find_erase, UMap.find_erase]
      have := hinv.connected.nrs n fd
      grind
  case active =>
    intro k c
    dsimp only
    rw [UMap.find_erase]
    have := hinv.active k c
    grind

/-- **Every step keeps the invariant.** -/
theorem inv_step (hinv : Inv s) (hlegal : Legal s e) (h : step s e = some (s', out)) : Inv s' := by
  cases e with
  | connection fd data =>
    rw [step_connection] at h
    obtain ⟨nickname, -, hacc⟩ := Option.bind_eq_some_iff.mp h
    obtain ⟨-, hfd, -⟩ := hlegal
    cases hoff : s.activeClients.find nickname with
    | some client => rw [acceptClient_active hoff hacc]; exact hinv
    | none =>
      cases hall : s.allClients.find nickname with
      | none => exact hinv.new hall hoff hfd hacc
      | some client =>
        obtain rfl := hinv.numbered.nickname _ _ hall
        exact hinv.known hoff hall hfd hacc
  | tcp i data order =>
    obtain ⟨-, h0, hsock, -, -⟩ := hlegal
    rcases handleTcpMessage_cases h with ⟨-, client, hc, rfl⟩ | ⟨-, rfl⟩
    · exact hinv.close ⟨h0, hsock⟩ hc
    · exact hinv

theorem Reachable.inv (h : Reachable s) : Inv s := by
  obtain ⟨sockTcp, h⟩ := h
  exact h.inv (inv_init sockTcp) fun _ _ _ _ => inv_step

/-! ### Numbers and routing -/

/-- A known client keeps its record. -/
lemma allClients_step (hinv : Inv s) (hlegal : Legal s e) (h : step s e = some (s', out))
    (hc : s.allClients.find nickname = some client) :
    s'.allClients.find nickname = some client := by
  cases e with
  | connection fd data =>
    rw [step_connection] at h
    obtain ⟨nickname', -, hacc⟩ := Option.bind_eq_some_iff.mp h
    obtain ⟨-, hfd, -⟩ := hlegal
    cases hoff : s.activeClients.find nickname' with
    | some client' => rw [acceptClient_active hoff hacc]; exact hc
    | none =>
      cases hall : s.allClients.find nickname' with
      | none =>
        obtain ⟨-, -, -, -, hkeep⟩ := acceptClient_new hoff hall hinv.nrs_currId hfd hacc
        rw [hkeep, if_neg]
        · exact hc
        · rintro rfl
          rw [hc] at hall
          cases hall
      | some client' =>
        obtain rfl := hinv.numbered.nickname _ _ hall
        obtain ⟨-, -, -, hkeep, -⟩ :=
          acceptClient_known hoff hall (hinv.nrs_of_inactive hall hoff) hfd hacc
        rw [hkeep]
        exact hc
  | tcp i data order =>
    rcases handleTcpMessage_cases h with ⟨-, _, -, rfl⟩ | ⟨-, rfl⟩
    · exact hc
    · exact hc

/-- Every run keeps the record of a known client. -/
lemma allClients_run (hinv : Inv s) (hlegal : Run.Along step Legal s es)
    (h : Run.exec step s es = some (s', out)) (hc : s.allClients.find nickname = some client) :
    s'.allClients.find nickname = some client := by
  have hboth : Inv s' ∧ s'.allClients.find nickname = some client := by
    refine Run.exec_inv (P := fun s => Inv s ∧ s.allClients.find nickname = some client) ?_ hlegal
      ⟨hinv, hc⟩ h
    rintro s e s' out ⟨hinv, hc⟩ hlegal h
    exact ⟨inv_step hinv hlegal h, allClients_step hinv hlegal h hc⟩
  exact hboth.2

/-- What is sent, and where to. -/
def sends (out : List Output) : List (ℕ × List UInt8) :=
  out.filterMap fun
    | .send fd bytes => some (fd, bytes)
    | _ => none

/-- A message goes where its number leads. -/
lemma sends_route {message : Message} (hnr : message.nrDest ≠ -1)
    (h : s.route i message order = some (s', out)) : sends out =
      ((s.activeNrsSockets.find message.nrDest.toInt).map fun fd => (fd, message.msg.toList)).toList := by
  unfold route at h
  rw [if_neg hnr] at h
  split at h
  · next hfind => cases h; rw [hfind]; rfl
  · next hfind => cases h; rw [hfind]; rfl

/-- The client with the number `n` is active: the message goes to its socket, and only there. -/
lemma Inv.sends_active (hinv : Inv s) {message : Message} (hnr : message.nrDest ≠ -1)
    (h : s.route i message order = some (s', out)) (hc : s.activeClients.find nickname = some client)
    (hn : client.number = message.nrDest.toInt) :
    ∃ fd, s.activeSocketClient.find fd = some client ∧
      (∀ fd', s.activeSocketClient.find fd' = some client → fd' = fd) ∧
      sends out = [(fd, message.msg.toList)] := by
  obtain ⟨fd, hfd⟩ := hinv.connected.socket _ _ hc
  obtain ⟨c, hsock, hcn, hact⟩ := hinv.connected.active_of_nrs hfd
  have hk : c.nickname = nickname :=
    hinv.numbered.inj _ _ _ _ (hinv.active _ _ hact) (hinv.active _ _ hc) hcn
  rw [hk, hc] at hact
  cases hact
  refine ⟨fd, hsock, ?_, ?_⟩
  · intro fd' hfd'
    have hfd'' := (hinv.connected.nrs client.number fd').mpr ⟨client, hfd', rfl⟩
    rw [hfd] at hfd''
    exact (Option.some.inj hfd'').symm
  · rw [sends_route hnr h, ← hn, hfd]
    rfl

/-- No active client has the number: nobody gets the message. -/
lemma Inv.sends_inactive (hinv : Inv s) {message : Message} (hnr : message.nrDest ≠ -1)
    (h : s.route i message order = some (s', out))
    (hoff : ∀ k c, s.activeClients.find k = some c → c.number ≠ message.nrDest.toInt) :
    sends out = [] := by
  rw [sends_route hnr h]
  cases hfind : s.activeNrsSockets.find message.nrDest.toInt with
  | none => rfl
  | some fd =>
    obtain ⟨c, -, hn, hact⟩ := hinv.connected.active_of_nrs hfind
    exact absurd hn (hoff _ _ hact)

/-- Two clients connect, the first one leaves and comes back on another descriptor. -/
def comesBack : List Event :=
  [.connection 4 [97], .connection 5 [98], .tcp 4 [] [(⟨[98], by decide, by decide⟩, ⟨2, ⟨[98], by decide, by decide⟩⟩),
    (⟨[97], by decide, by decide⟩, ⟨1, ⟨[97], by decide, by decide⟩⟩)], .connection 6 [97]]

lemma legal_comesBack : Run.Along step Legal (init 3) comesBack := by decide +kernel

end Server

end Protocoale.Practic

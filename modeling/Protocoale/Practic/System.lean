import Protocoale.Lib.Clients
import Protocoale.Practic.Client
import Protocoale.Practic.Invariant

/-!
The chat server and its clients together (`test_practic`): any number of client processes are started,
read lines and messages, and end, while the server handles the descriptors that are ready. `messages_arrive`
follows what is written to a nickname through all the processes that were taken in under it, and
`sends_open` says that the server sends to nobody else.
-/

namespace Protocoale.Practic

open Lib Lib.Bytes Lib.CText Lib.Cuts Lib.Run Lib.Sockets

namespace System

abbrev State := Server × Wires UInt8

inductive Move where
  /-- `./client <nickname>`: it connects and sends its nickname -/
  | client (nickname : List UInt8)
  /-- `handle_stdin_message` of the process `k`, on what `getline` has read -/
  | stdin (k : ℕ) (buffer : List UInt8)
  /-- `handle_server_message` of the process `k`, on what `recv` has returned -/
  | message (k : ℕ) (bytesRecv : List UInt8)
  /-- the server handles a descriptor that is ready -/
  | server (e : Server.Event)

/-- The calls that bring the server what its handlers work on. -/
def feeds : Server.Event → List (Call UInt8)
  | .connection newsockfd data => [.accept newsockfd, .recv newsockfd data]
  | .tcp i data _ => [.recv i data]

/-- The calls the handlers make. The server ends when a `send` fails. -/
def makes : Output → Option (Call UInt8)
  | .send fd bytes => some (.send fd bytes)
  | .close fd => some (.close fd)
  | _ => none

/-- A move as one on the sockets. There is none where the client crashes. -/
def onSockets : Move → Option (Sockets.Move Server.Event UInt8)
  | .client nickname => some (.connect nickname)
  | .stdin k buffer => (Client.handleStdinMessage buffer).map fun
    | .exit => .leave k
    | .send toSend => .put k toSend.enc
    | .nothing => .put k []
  | .message k bytesRecv => some (.take k bytesRecv)
  | .server e => some (.serve e)

def step (y : State) (m : Move) : Option (State × List Output) :=
  (onSockets m).bind (Sockets.step Server.step feeds makes y)

def start (sockTcp : ℕ) : State := (Server.init sockTcp, Wires.start)

def Legal (y : State) : Move → Prop
  | .server e => Server.Legal y.1 e
  | .message _ bytesRecv => bytesRecv.length ≤ BUFLEN
  | _ => True

instance (y : State) : (m : Move) → Decidable (Legal y m)
  | .server e => inferInstanceAs (Decidable (Server.Legal y.1 e))
  | .message _ _ => inferInstanceAs (Decidable (_ ≤ _))
  | .client _ | .stdin _ _ => inferInstanceAs (Decidable True)

/-- The process taken in under the nickname `c`, if this is what the move does. -/
def admittedBy (c : Nickname) : State × Move → Option ℕ
  | (y, .server (.connection _ data)) =>
    if Server.newClientNickname data = some c ∧ y.1.activeClients.find c = none then y.2.backlog.head?
    else none
  | _ => none

/-- The processes taken in under the nickname `c`, in their order. -/
def admitted (c : Nickname) (xs : List (State × Move)) : List ℕ := xs.filterMap (admittedBy c)

/-- What a message of the client on the descriptor `i` is for `c`: the list when `c` has asked for it, and
the text when it is addressed to the number of `c`, which is active. -/
def answer (s : Server) (c : Nickname) (i : ℕ) (order : Server.Order) (message : Message) :
    List (List UInt8) :=
  if message.nrDest = -1 then
    if (s.activeSocketClient.find i).map (·.nickname) = some c then
      ((Server.listReply order).map fun buffer => (pad BUFLEN buffer).toList).toList
    else []
  else if (s.activeClients.find c).map (·.number) = some message.nrDest.toInt then [message.msg.toList]
  else []

/-- What must get to `c` because of a move. -/
def dueBy (c : Nickname) : State × Move → List (List UInt8)
  | (y, .server (.tcp i data order)) =>
    if data = [] then [] else ((Server.received data).map (answer y.1 c i order)).getD []
  | _ => []

def due (c : Nickname) (xs : List (State × Move)) : List (List UInt8) := xs.flatMap (dueBy c)

/-- The descriptors of the clients. -/
def ids (s : Server) (c : Nickname) : Option ℕ :=
  (s.activeClients.find c).bind fun client => s.activeNrsSockets.find client.number

variable {y y' : State} {m : Move} {ms : List Move} {xs : List (State × Move)} {out : List Output}
  {s s' : Server} {w w' : Wires UInt8} {e : Server.Event} {c : Nickname} {sub : ℕ → List (List UInt8)}
  {sockTcp fd i : ℕ} {client : TcpClient}

/-! ### The descriptors of the clients -/

lemma ids_eq_some (hinv : s.Inv) : ids s c = some fd ↔
    ∃ client, s.activeSocketClient.find fd = some client ∧ client.nickname = c := by
  unfold ids
  constructor
  · intro h
    obtain ⟨client, hc, hfd⟩ := Option.bind_eq_some_iff.mp h
    obtain ⟨client', hsock, hn, hact⟩ := hinv.connected.active_of_nrs hfd
    exact ⟨client', hsock, hinv.numbered.inj _ _ _ _ (hinv.active _ _ hact) (hinv.active _ _ hc) hn⟩
  · rintro ⟨client, hsock, rfl⟩
    rw [hinv.connected.record fd client hsock, Option.bind_some]
    exact (hinv.connected.nrs client.number fd).mpr ⟨client, hsock, rfl⟩

lemma ids_eq_none (hinv : s.Inv) : ids s c = none ↔ s.activeClients.find c = none := by
  unfold ids
  cases hc : s.activeClients.find c with
  | none => simp
  | some client =>
    obtain ⟨fd, hfd⟩ := hinv.connected.socket c client hc
    simp [hfd]

lemma ids_inj (hinv : s.Inv) {c' : Nickname} (h : ids s c = some fd) (h' : ids s c' = some fd) :
    c = c' := by
  obtain ⟨client, hc, rfl⟩ := (ids_eq_some hinv).mp h
  obtain ⟨client', hc', rfl⟩ := (ids_eq_some hinv).mp h'
  rw [hc, Option.some.injEq] at hc'
  rw [hc']

/-- A client that becomes active gets the descriptor, and the others keep theirs. -/
lemma ids_joined (hinv : s.Inv) (hinv' : s'.Inv) (hfd : s.activeSocketClient.find fd = none)
    (hj : Server.Joined s s' fd client) :
    ids s' client.nickname = some fd ∧ ∀ c, c ≠ client.nickname → ids s' c = ids s c := by
  constructor
  · exact (ids_eq_some hinv').mpr ⟨client, by rw [hj.sockets, if_pos rfl], rfl⟩
  · intro c hc
    refine Option.ext fun fd' => ?_
    rw [ids_eq_some hinv', ids_eq_some hinv, hj.sockets]
    by_cases he : fd' = fd
    · subst he
      rw [if_pos rfl, hfd]
      simp [Ne.symm hc]
    · rw [if_neg he]

/-- A client that leaves loses its descriptor. -/
lemma ids_left (hinv : s.Inv) (hinv' : s'.Inv) (hc : s.activeSocketClient.find i = some client)
    (hs : s'.activeSocketClient = s.activeSocketClient.erase i) :
    ids s client.nickname = some i ∧ ids s' client.nickname = none ∧
      ∀ c, c ≠ client.nickname → ids s' c = ids s c := by
  have hon : ids s client.nickname = some i := (ids_eq_some hinv).mpr ⟨client, hc, rfl⟩
  refine ⟨hon, ?_, ?_⟩
  · rw [Option.eq_none_iff_forall_ne_some]
    intro fd hfd
    obtain ⟨client', hc', hn⟩ := (ids_eq_some hinv').mp hfd
    rw [hs, UMap.find_erase] at hc'
    split at hc'
    · cases hc'
    · next hne =>
      have hfd' := (ids_eq_some hinv).mpr ⟨client', hc', hn⟩
      rw [hon, Option.some.injEq] at hfd'
      exact hne hfd'.symm
  · intro c hne
    refine Option.ext fun fd => ?_
    rw [ids_eq_some hinv', ids_eq_some hinv, hs, UMap.find_erase]
    by_cases he : fd = i
    · subst he
      rw [if_pos rfl, hc]
      simp [Ne.symm hne]
    · rw [if_neg he]

/-! ### One step of the server -/

/-- **What a message sends** to each client is the answer for it. -/
theorem sentAt_route (hinv : s.Inv) {message : Message} {order : Server.Order}
    (h : s.route i message order = some (s', out)) :
    sentAt (ids s c) (Server.sends out) = answer s c i order message := by
  unfold answer
  by_cases hnr : message.nrDest = -1
  · rw [if_pos hnr]
    rw [Server.route, if_pos hnr] at h
    obtain ⟨buffer, hbuffer, he⟩ := Option.map_eq_some_iff.mp h
    cases he
    have hiff : ids s c = some i ↔ (s.activeSocketClient.find i).map (·.nickname) = some c := by
      rw [ids_eq_some hinv, Option.map_eq_some_iff]
    simp only [← hiff, hbuffer]
    by_cases hc : ids s c = some i <;> simp [sentAt, Server.sends, hc]
  · rw [if_neg hnr, Server.sends_route hnr h]
    cases hfind : s.activeNrsSockets.find message.nrDest.toInt with
    | none =>
      rw [if_neg]
      · rfl
      · intro hc
        obtain ⟨client, hc, hn⟩ := Option.map_eq_some_iff.mp hc
        obtain ⟨fd, hfd⟩ := hinv.connected.socket c client hc
        rw [hn, hfind] at hfd
        cases hfd
    | some fd =>
      have hiff : ids s c = some fd ↔ (s.activeClients.find c).map (·.number) =
          some message.nrDest.toInt := by
        unfold ids
        rw [Option.bind_eq_some_iff, Option.map_eq_some_iff]
        refine exists_congr fun client => and_congr_right fun hc => ?_
        constructor
        · intro hfd
          obtain ⟨_, hsock, hn⟩ := (hinv.connected.nrs _ fd).mp hfd
          obtain ⟨_, hsock', hn'⟩ := (hinv.connected.nrs _ fd).mp hfind
          rw [hsock, Option.some.injEq] at hsock'
          rw [← hn, ← hn', hsock']
        · intro hn
          rw [hn]
          exact hfind
      simp only [← hiff]
      by_cases hc : ids s c = some fd <;> simp [sentAt, hc]

lemma filterMap_makes (hclose : ∀ fd, .close fd ∉ out) : out.filterMap makes =
    (Server.sends out).map fun x => .send x.1 x.2 := by
  induction out with
  | nil => rfl
  | cons o out ih =>
    have ih := ih fun fd h => hclose fd (List.mem_cons_of_mem _ h)
    cases o with
    | send fd bytes => exact congrArg (List.cons _) ih
    | close fd => exact absurd List.mem_cons_self (hclose fd)
    | _ => exact ih

lemma calls_makes (hclose : ∀ fd, .close fd ∉ out) (h : w.calls (out.filterMap makes) = some w') :
    w' = { w with sent := fun k => w.sent k ++ (sentOn w.owner k (Server.sends out)).flatten } := by
  rw [filterMap_makes hclose] at h
  simp only [← List.flatMap_id]
  refine calls_map ?_ ?_ h
  · intro x
    exact trivial
  · intro owner k x
    rfl

/-- What an event does. -/
structure Served (y y' : State) (e : Server.Event) (out : List Output) : Prop where
  server : Server.step y.1 e = some (y'.1, out)
  changes : Changes (ids y.1) (ids y'.1) y.2 y'.2 fun c => admittedBy c (y, .server e)
  made : y'.2.made = y.2.made
  sent : ∀ k, y'.2.sent k = y.2.sent k ++ (sentOn y'.2.owner k (Server.sends out)).flatten
  due : ∀ c, sentAt (ids y'.1 c) (Server.sends out) = dueBy c (y, .server e)

/-- A nickname is taken in, or turned away when it is in use. -/
lemma acceptClient_out {nickname : Nickname} (h : s.acceptClient fd nickname = some (s', out)) :
    (s.activeClients.find nickname ≠ none ∧ s' = s ∧
      out = [.alreadyConnected nickname, .close fd]) ∨
    (s.activeClients.find nickname = none ∧ (∀ fd, .close fd ∉ out) ∧ Server.sends out = []) := by
  unfold Server.acceptClient at h
  split at h
  · next hon =>
    cases h
    exact .inl ⟨by simpa [Option.isSome_iff_ne_none] using hon, rfl, rfl⟩
  · next hoff =>
    refine .inr ⟨by simpa using hoff, ?_⟩
    split at h
    · cases h
      exact ⟨by simp, rfl⟩
    · dsimp only [Server.addNewClient] at h
      split at h
      · cases h
      · cases h
        exact ⟨by simp, rfl⟩

/-- A nickname that is not in use becomes active on the descriptor. -/
lemma acceptClient_joined (hinv : s.Inv) {nickname : Nickname}
    (hfd : s.activeSocketClient.find fd = none) (hoff : s.activeClients.find nickname = none)
    (h : s.acceptClient fd nickname = some (s', out)) :
    ∃ client, client.nickname = nickname ∧ Server.Joined s s' fd client := by
  cases hall : s.allClients.find nickname with
  | some client =>
    obtain rfl := hinv.numbered.nickname _ _ hall
    exact ⟨client, rfl, (Server.acceptClient_known hoff hall (hinv.nrs_of_inactive hall hoff) hfd h).1⟩
  | none => exact ⟨_, rfl, (Server.acceptClient_new hoff hall hinv.nrs_currId hfd h).1⟩

/-- What the handler of a connection that has ended does. -/
lemma closeClient_out (h : s.closeClient i = some (s', out)) : ∃ client,
    s.activeSocketClient.find i = some client ∧
      s'.activeSocketClient = s.activeSocketClient.erase i ∧
      out = [.disconnected client.nickname, .close i] := by
  obtain ⟨client, hc, he⟩ := Option.map_eq_some_iff.mp h
  cases he
  exact ⟨client, hc, rfl, rfl⟩

lemma close_notMem_route {message : Message} {order : Server.Order}
    (h : s.route i message order = some (s', out)) : s' = s ∧ ∀ fd, .close fd ∉ out := by
  unfold Server.route at h
  split at h
  · obtain ⟨buffer, -, he⟩ := Option.map_eq_some_iff.mp h
    cases he
    exact ⟨rfl, by simp⟩
  · split at h <;> cases h <;> exact ⟨rfl, by simp⟩

lemma step_server (h : step y (.server e) = some (y', out)) : ∃ w,
    y.2.calls (feeds e) = some w ∧ Server.step y.1 e = some (y'.1, out) ∧
      w.calls (out.filterMap makes) = some y'.2 :=
  step_serve h

lemma admittedBy_connection {data : List UInt8} {nickname : Nickname}
    (h : Server.newClientNickname data = some nickname) : admittedBy c (y, .server (.connection fd data)) =
      if nickname = c ∧ y.1.activeClients.find c = none then y.2.backlog.head? else none := by
  simp only [admittedBy, h, Option.some.injEq]

/-- A connection under a nickname that is in use: the descriptor is closed again. -/
lemma served_turnedAway {data : List UInt8} {nickname : Nickname} {k : ℕ} {ks : List ℕ}
    (hserver : Server.step y.1 (.connection fd data) =
      some (y'.1, [.alreadyConnected nickname, .close fd]))
    (hnick : Server.newClientNickname data = some nickname)
    (hon : y.1.activeClients.find nickname ≠ none) (hsame : y'.1 = y.1)
    (hb : y.2.backlog = k :: ks)
    (hw : y'.2 = { y.2 with
      backlog := ks
      taken := Function.update y.2.taken k (y.2.taken k ++ [data])
      closed := Function.update y.2.closed k true }) :
    Served y y' (.connection fd data) [.alreadyConnected nickname, .close fd] := by
  refine ⟨hserver, .none ?_ ?_ ?_ ?_, ?_, ?_, ?_⟩
  · rw [hsame]
  · rw [hw]
  · rw [hw, hb]
    exact List.suffix_cons k ks
  · intro c
    rw [admittedBy_connection hnick, if_neg]
    rintro ⟨rfl, hoff⟩
    exact hon hoff
  · rw [hw]
  · intro j
    rw [hw]
    exact (List.append_nil _).symm
  · intro c
    rfl

/-- A connection under a nickname that is not in use. -/
lemma served_takenIn {data : List UInt8} {k : ℕ} {ks : List ℕ} (hinv : y.1.Inv) (hinv' : y'.1.Inv)
    (hserver : Server.step y.1 (.connection fd data) = some (y'.1, out))
    (hnick : Server.newClientNickname data = some client.nickname)
    (hoff : y.1.activeClients.find client.nickname = none)
    (hfd : y.1.activeSocketClient.find fd = none) (hj : Server.Joined y.1 y'.1 fd client)
    (hsends : Server.sends out = []) (hb : y.2.backlog = k :: ks) (hno : y.2.owner fd = none)
    (hw : y'.2 = { y.2 with
      backlog := ks
      owner := Function.update y.2.owner fd (some k)
      taken := Function.update y.2.taken k (y.2.taken k ++ [data]) }) :
    Served y y' (.connection fd data) out := by
  obtain ⟨hself, hother⟩ := ids_joined hinv hinv' hfd hj
  refine ⟨hserver, .joins client.nickname fd k ?_ hself hother hno ?_ ?_ ?_ ?_, ?_, ?_, ?_⟩
  · exact (ids_eq_none hinv).mpr hoff
  · rw [hw]
  · rw [hw, hb]
  · rw [admittedBy_connection hnick, if_pos ⟨rfl, hoff⟩, hb]
    rfl
  · intro c hc
    rw [admittedBy_connection hnick, if_neg]
    rintro ⟨rfl, -⟩
    exact hc rfl
  · rw [hw]
  · intro j
    rw [hsends, hw]
    exact (List.append_nil _).symm
  · intro c
    rw [hsends]
    rfl

/-- The end of a connection. -/
lemma served_closed {order : Server.Order} {k : ℕ} (hinv : y.1.Inv) (hinv' : y'.1.Inv)
    (hserver : Server.step y.1 (.tcp i [] order) = some (y'.1, out))
    (hc : y.1.activeSocketClient.find i = some client)
    (hs : y'.1.activeSocketClient = y.1.activeSocketClient.erase i) (hsends : Server.sends out = [])
    (hw : y'.2 = { y.2 with
      owner := Function.update y.2.owner i none
      taken := Function.update y.2.taken k (y.2.taken k ++ [[]])
      closed := Function.update y.2.closed k true }) : Served y y' (.tcp i [] order) out := by
  obtain ⟨hon, hself, hother⟩ := ids_left hinv hinv' hc hs
  refine ⟨hserver, .leaves client.nickname i hon hself hother ?_ ?_ fun c => rfl, ?_, ?_, ?_⟩
  · rw [hw]
  · rw [hw]
  · rw [hw]
  · intro j
    rw [hsends, hw]
    exact (List.append_nil _).symm
  · intro c
    rw [hsends]
    rfl

/-- A message. -/
lemma served_message {data : List UInt8} {order : Server.Order} {message : Message} {k : ℕ}
    (hinv : y.1.Inv) (hserver : Server.step y.1 (.tcp i data order) = some (y'.1, out)) (hdata : data ≠ [])
    (hmessage : Server.received data = some message) (hroute : y.1.route i message order = some (y'.1, out))
    (hsame : y'.1 = y.1)
    (hw : y'.2 = { y.2 with
      taken := Function.update y.2.taken k (y.2.taken k ++ [data])
      sent := fun k => y.2.sent k ++ (sentOn y.2.owner k (Server.sends out)).flatten }) :
    Served y y' (.tcp i data order) out := by
  refine ⟨hserver, .none ?_ ?_ ?_ fun c => rfl, ?_, ?_, ?_⟩
  · rw [hsame]
  · rw [hw]
  · rw [hw]
  · rw [hw]
  · intro j
    rw [hw]
  · intro c
    rw [hsame, sentAt_route hinv hroute]
    simp only [dueBy, if_neg hdata, hmessage, Option.map_some, Option.getD_some]

/-- **An event of the server.** -/
theorem step_event (hinv : y.1.Inv) (hlegal : Server.Legal y.1 e)
    (h : step y (.server e) = some (y', out)) : Served y y' e out := by
  obtain ⟨w, hw, hserver, hw'⟩ := step_server h
  have hinv' := Server.inv_step hinv hlegal hserver
  cases e with
  | connection fd data =>
    obtain ⟨-, hfd, -⟩ := hlegal
    obtain ⟨k, ks, hb, hno, -, rfl⟩ := Wires.calls_accept hw
    have hacc := hserver
    rw [Server.step_connection] at hacc
    obtain ⟨nickname, hnick, hacc⟩ := Option.bind_eq_some_iff.mp hacc
    rcases acceptClient_out hacc with ⟨hon, hsame, rfl⟩ | ⟨hoff, hclose, hsends⟩
    · have hw' := Wires.calls_close hw' rfl rfl (Function.update_self fd (some k) y.2.owner)
      refine served_turnedAway hserver hnick hon hsame hb (hw'.trans ?_)
      have howner : Function.update (Function.update y.2.owner fd (some k)) fd none = y.2.owner := by
        rw [Function.update_idem, ← hno, Function.update_eq_self]
      rw [howner]
    · have hw' := calls_makes hclose hw'
      obtain ⟨client, rfl, hj⟩ := acceptClient_joined hinv hfd hoff hacc
      refine served_takenIn hinv hinv' hserver hnick hoff hfd hj hsends hb hno (hw'.trans ?_)
      rw [hsends]
      simp [sentOn]
  | tcp i data order =>
    have hw : y.2.calls [.recv i data] = some w := hw
    rw [Wires.calls_singleton] at hw
    obtain ⟨k, hk, -, rfl⟩ := Wires.call_recv hw
    have htcp : y.1.handleTcpMessage i data order = some (y'.1, out) := hserver
    by_cases hdata : data = []
    · subst hdata
      rw [Server.handleTcpMessage, if_pos rfl] at htcp
      obtain ⟨client, hc, hs', rfl⟩ := closeClient_out htcp
      exact served_closed hinv hinv' hserver hc hs' rfl (Wires.calls_close hw' rfl rfl hk)
    · rw [Server.handleTcpMessage, if_neg hdata] at htcp
      obtain ⟨message, hmessage, hroute⟩ := Option.bind_eq_some_iff.mp htcp
      obtain ⟨hsame, hclose⟩ := close_notMem_route hroute
      exact served_message hinv hserver hdata hmessage hroute hsame (calls_makes hclose hw')

/-! ### Whole runs -/

/-- A client's move leaves the server as it is. -/
lemma step_aside (hm : ∀ e, m ≠ .server e) (h : step y m = some (y', out)) : Aside y y' := by
  obtain ⟨m', hm', h⟩ := Option.bind_eq_some_iff.mp h
  have hserve : ∀ x, m' ≠ .serve x := by
    rintro x rfl
    cases m with
    | client nickname => cases hm'
    | message k bytesRecv => cases hm'
    | server e => exact hm e rfl
    | stdin k buffer =>
      obtain ⟨typed, -, he⟩ := Option.map_eq_some_iff.mp hm'
      cases typed <;> cases he
  exact (step_client hserve h).1

lemma admitted_snoc (xs : List (State × Move)) (x : State × Move) :
    admitted c (xs ++ [x]) = admitted c xs ++ (admittedBy c x).toList := by
  unfold admitted
  rw [List.filterMap_append]
  cases h : admittedBy c x <;> simp [h]

lemma due_snoc (xs : List (State × Move)) (x : State × Move) :
    due c (xs ++ [x]) = due c xs ++ dueBy c x := by
  simp [due]

/-- Only the server takes a process in, or makes something due. -/
lemma aside_by (hm : ∀ e, m ≠ .server e) :
    (∀ c, admittedBy c (y, m) = none) ∧ ∀ c, dueBy c (y, m) = [] := by
  cases m with
  | server e => exact absurd rfl (hm e)
  | _ => exact ⟨fun _ => rfl, fun _ => rfl⟩

lemma admitted_aside (hm : ∀ e, m ≠ .server e) : admitted c (xs ++ [(y, m)]) = admitted c xs := by
  rw [admitted_snoc, (aside_by hm).1]
  exact List.append_nil _

/-- The invariant of a run: `sub k` is what was sent to the process `k`, send by send. -/
structure Inv (y : State) (xs : List (State × Move)) (sub : ℕ → List (List UInt8)) : Prop where
  server : y.1.Inv
  wires : y.2.Ok
  routes : Routes (ids y.1) y.2 (admitted · xs)
  early : ∀ k, y.2.made ≤ k ∨ k ∈ y.2.backlog → sub k = []
  sent : ∀ k, y.2.sent k = (sub k).flatten
  due : ∀ c, due c xs = (admitted c xs).flatMap sub

lemma inv_start : Inv (start sockTcp) [] fun _ => [] where
  server := Server.inv_init sockTcp
  wires := Wires.ok_start
  routes := by
    have hids : ids (Server.init sockTcp) = fun _ => none := by
      funext c
      simp [ids, Server.init]
    exact hids ▸ routes_start
  early := fun _ _ => rfl
  sent := fun _ => rfl
  due := fun _ => rfl

lemma Inv.aside (hinv : Inv y xs sub) (hm : ∀ e, m ≠ .server e) (h : Aside y y') (hok : y'.2.Ok) :
    Inv y' (xs ++ [(y, m)]) sub := by
  have hbacklog : ∀ k, y'.2.made ≤ k ∨ k ∈ y'.2.backlog → y.2.made ≤ k ∨ k ∈ y.2.backlog := by
    rintro k (hk | hk)
    · exact .inl (h.made.trans hk)
    · exact (h.backlog k hk).symm
  constructor
  case server => exact h.server ▸ hinv.server
  case wires => exact hok
  case routes =>
    rw [h.server]
    simp only [admitted_aside hm]
    refine hinv.routes.same h.owner ?_
    rintro k ⟨hlt, hnot⟩
    have hno : ¬ (y'.2.made ≤ k ∨ k ∈ y'.2.backlog) := by
      intro hk
      rcases hbacklog k hk with hk | hk
      · omega
      · exact hnot hk
    exact ⟨Nat.lt_of_not_le fun hk => hno (.inl hk), fun hk => hno (.inr hk)⟩
  case early => exact fun k hk => hinv.early k (hbacklog k hk)
  case sent =>
    intro k
    rw [h.sent, hinv.sent]
  case due =>
    intro c
    rw [due_snoc, (aside_by hm).2, List.append_nil, admitted_aside hm, hinv.due]

lemma Inv.event (hinv : Inv y xs sub) (hlegal : Server.Legal y.1 e) (h : Served y y' e out)
    (hok : y'.2.Ok) : Inv y' (xs ++ [(y, .server e)])
      fun k => sub k ++ sentOn y'.2.owner k (Server.sends out) := by
  have hserver := Server.inv_step hinv.server hlegal h.server
  have hroutes : Routes (ids y'.1) y'.2 (admitted · (xs ++ [(y, .server e)])) := by
    simp only [admitted_snoc]
    exact hinv.routes.step hinv.wires (fun c c' fd => ids_inj hinv.server) h.made h.changes
  have hnew : ∀ k ∈ y.2.backlog, sub k = [] := fun k hk => hinv.early k (.inr hk)
  refine ⟨hserver, hok, hroutes, ?_, ?_, ?_⟩
  · -- a connection that is still waiting has no descriptor
    intro k hk
    have hsub : sub k = [] := by
      refine hinv.early k ?_
      rcases hk with hk | hk
      · exact .inl (h.made ▸ hk)
      · exact .inr (h.changes.backlog_subset hk)
    have hon : sentOn y'.2.owner k (Server.sends out) = [] := by
      refine List.filterMap_eq_nil_iff.mpr fun x _ => if_neg fun ho => ?_
      exact hok.not_early ho hk
    rw [hsub, hon]
    rfl
  · intro k
    rw [h.sent, hinv.sent, List.flatten_append]
  · intro c
    rw [hroutes.flatMap_sentOn, h.due, admitted_snoc, h.changes.flatMap_joined hnew, due_snoc, hinv.due]

theorem inv_step (hinv : Inv y xs sub) (hlegal : Legal y m) (h : step y m = some (y', out)) :
    ∃ sub', Inv y' (xs ++ [(y, m)]) sub' := by
  have hok : y'.2.Ok := by
    obtain ⟨m', -, h⟩ := Option.bind_eq_some_iff.mp h
    exact ok_step hinv.wires h
  by_cases hm : ∃ e, m = .server e
  · obtain ⟨e, rfl⟩ := hm
    exact ⟨_, hinv.event hlegal (step_event hinv.server hlegal h) hok⟩
  · exact ⟨sub, hinv.aside (not_exists.mp hm) (step_aside (not_exists.mp hm) h) hok⟩

lemma inv_exec (hlegal : Along step Legal (start sockTcp) ms)
    (h : exec step (start sockTcp) ms = some (y, out)) :
    ∃ sub, Inv y (visited step (start sockTcp) ms) sub := by
  refine exec_history (P := fun xs y => ∃ sub, Inv y xs sub) ?_ hlegal ⟨_, inv_start⟩ h
  rintro xs y m y' out ⟨sub, hinv⟩ hlegal hs
  exact inv_step hinv hlegal hs

/-- **What arrives at the clients.** In every run of the server and its clients, what is due to a nickname,
the texts addressed to its number while it is active and the lists it asks for, has been sent, each once and
in order, to the processes that were taken in under it, one process after the other; and a process has read
the first bytes of what was sent to it. -/
theorem messages_arrive (hlegal : Along step Legal (start sockTcp) ms)
    (h : exec step (start sockTcp) ms = some (y, out)) : ∃ sub : ℕ → List (List UInt8),
    (∀ c, due c (visited step (start sockTcp) ms) =
      (admitted c (visited step (start sockTcp) ms)).flatMap sub) ∧
    ∀ k, y.2.sent k = (sub k).flatten ∧ (y.2.got k).flatten <+: (sub k).flatten := by
  obtain ⟨sub, hinv⟩ := inv_exec hlegal h
  refine ⟨sub, hinv.due, fun k => ⟨hinv.sent k, ?_⟩⟩
  rw [← hinv.sent]
  exact hinv.wires.got k

def nicknameA : Nickname := ⟨[65], by decide, by decide⟩

def nicknameB : Nickname := ⟨[66], by decide, by decide⟩

def bothActive : Server.Order := [(nicknameA, ⟨1, nicknameA⟩), (nicknameB, ⟨2, nicknameB⟩)]

def textToB : Server.Event := .tcp 4 (Message.enc ⟨2, pad _ (text "hi")⟩) bothActive

/-- Two clients connect, and the first one sends a text to the second one and leaves. -/
def twoClients : List Move :=
  [.client nicknameA.1, .server (.connection 4 nicknameA.1), .client nicknameB.1,
    .server (.connection 5 nicknameB.1), .stdin 0 (text "MSG 2 hi"), .server textToB,
    .message 1 (text "hi"), .stdin 0 (text "exit"), .server (.tcp 4 [] bothActive)]

theorem messages_arrive_twoClients : ∃ r sub, exec step (start 3) twoClients = some r ∧
    due nicknameB (visited step (start 3) twoClients) =
      (admitted nicknameB (visited step (start 3) twoClients)).flatMap sub := by
  have hlegal : Along step Legal (start 3) twoClients := by decide +kernel
  obtain ⟨r, hr⟩ := Option.isSome_iff_exists.mp
    (show (exec step (start 3) twoClients).isSome by decide +kernel)
  obtain ⟨sub, hdue, -⟩ := messages_arrive hlegal hr
  exact ⟨r, sub, hr, hdue _⟩

/-- A send of the server is on the descriptor of a client. -/
lemma exists_ids_of_send (hinv : Inv y xs sub) (hw : y.2.calls (feeds e) = some w)
    (h : Server.step y.1 e = some (s', out)) {x : ℕ × List UInt8} (hx : x ∈ Server.sends out) :
    ∃ c, ids y.1 c = some x.1 := by
  cases e with
  | connection fd data =>
    rw [Server.step_connection] at h
    obtain ⟨nickname, -, hacc⟩ := Option.bind_eq_some_iff.mp h
    rcases acceptClient_out hacc with ⟨-, -, rfl⟩ | ⟨-, -, hsends⟩
    · cases hx
    · rw [hsends] at hx
      cases hx
  | tcp i data order =>
    have htcp : y.1.handleTcpMessage i data order = some (s', out) := h
    by_cases hdata : data = []
    · rw [Server.handleTcpMessage, if_pos hdata] at htcp
      obtain ⟨client, -, -, rfl⟩ := closeClient_out htcp
      cases hx
    · rw [Server.handleTcpMessage, if_neg hdata] at htcp
      obtain ⟨message, -, hroute⟩ := Option.bind_eq_some_iff.mp htcp
      by_cases hnr : message.nrDest = -1
      · -- the list goes back on the descriptor the message came from
        rw [Server.route, if_pos hnr] at hroute
        obtain ⟨buffer, -, he⟩ := Option.map_eq_some_iff.mp hroute
        cases he
        obtain rfl := List.mem_singleton.mp hx
        have hw : y.2.calls [.recv i data] = some w := hw
        rw [Wires.calls_singleton] at hw
        obtain ⟨k, hk, -, -⟩ := Wires.call_recv hw
        exact hinv.routes.served i k hk
      · rw [Server.sends_route hnr hroute, Option.mem_toList, Option.map_eq_some_iff] at hx
        obtain ⟨fd, hfd, rfl⟩ := hx
        obtain ⟨client, hsock, -⟩ := (hinv.server.connected.nrs _ fd).mp hfd
        exact ⟨client.nickname, (ids_eq_some hinv.server).mpr ⟨client, hsock, rfl⟩⟩

/-- A step of the server closes a descriptor and sends nothing, or it closes none. -/
lemma makes_cases (h : Server.step s e = some (s', out)) :
    (∃ o fd, out = [o, .close fd] ∧ makes o = none) ∨ ∀ fd, .close fd ∉ out := by
  cases e with
  | connection fd data =>
    rw [Server.step_connection] at h
    obtain ⟨nickname, -, hacc⟩ := Option.bind_eq_some_iff.mp h
    rcases acceptClient_out hacc with ⟨-, -, rfl⟩ | ⟨-, hclose, -⟩
    · exact .inl ⟨_, fd, rfl, rfl⟩
    · exact .inr hclose
  | tcp i data order =>
    have htcp : s.handleTcpMessage i data order = some (s', out) := h
    by_cases hdata : data = []
    · rw [Server.handleTcpMessage, if_pos hdata] at htcp
      obtain ⟨client, -, -, rfl⟩ := closeClient_out htcp
      exact .inl ⟨_, i, rfl, rfl⟩
    · rw [Server.handleTcpMessage, if_neg hdata] at htcp
      obtain ⟨message, -, hroute⟩ := Option.bind_eq_some_iff.mp htcp
      exact .inr (close_notMem_route hroute).2

/-- What brings an event leaves the open descriptors open. -/
lemma owner_feeds {k : ℕ} (hw : y.2.calls (feeds e) = some w) (hk : y.2.owner fd = some k) :
    w.owner fd = some k := by
  cases e with
  | connection newsockfd data =>
    obtain ⟨j, ks, -, hno, -, rfl⟩ := Wires.calls_accept hw
    have hne : fd ≠ newsockfd := by
      rintro rfl
      rw [hno] at hk
      cases hk
    exact (Function.update_of_ne hne ..).trans hk
  | tcp i data order =>
    have hw : y.2.calls [.recv i data] = some w := hw
    rw [Wires.calls_singleton] at hw
    obtain ⟨j, -, -, rfl⟩ := Wires.call_recv hw
    exact hk

/-- **The server sends only to clients that are there.** After every run, when an event gets its bytes and
its handler is defined, each of the handler's sends goes to the process that was taken in last under some
nickname, on a descriptor the server has open, so none of its calls fails on its descriptor. -/
theorem sends_open (hlegal : Along step Legal (start sockTcp) ms)
    (h : exec step (start sockTcp) ms = some (y, out)) (hw : y.2.calls (feeds e) = some w)
    {out' : List Output} (hs : Server.step y.1 e = some (s', out')) :
    (∀ x ∈ Server.sends out', ∃ c pre k,
      admitted c (visited step (start sockTcp) ms) = pre ++ [k] ∧ w.owner x.1 = some k) ∧
    ∃ w', step y (.server e) = some ((s', w'), out') := by
  obtain ⟨sub, hinv⟩ := inv_exec hlegal h
  have hopen : ∀ x ∈ Server.sends out', ∃ c pre k,
      admitted c (visited step (start sockTcp) ms) = pre ++ [k] ∧ w.owner x.1 = some k := by
    intro x hx
    obtain ⟨c, hc⟩ := exists_ids_of_send hinv hw hs hx
    obtain ⟨pre, k, hadm, hk⟩ := hinv.routes.current c x.1 hc
    exact ⟨c, pre, k, hadm, owner_feeds hw hk⟩
  refine ⟨hopen, ?_⟩
  have hcalls : ∃ w', w.calls (out'.filterMap makes) = some w' := by
    rcases makes_cases hs with ⟨o, fd, rfl, ho⟩ | hclose
    · rw [List.filterMap_cons_none ho, show [Output.close fd].filterMap makes = [.close fd] from rfl,
        Wires.calls_singleton]
      exact Wires.exists_call_close
    · rw [filterMap_makes hclose]
      refine Wires.exists_calls_of_sends ?_ ?_
      · intro c hc
        obtain ⟨x, -, rfl⟩ := List.mem_map.mp hc
        exact trivial
      · intro fd data hin
        obtain ⟨x, hx, he⟩ := List.mem_map.mp hin
        obtain ⟨c, pre, k, -, hk⟩ := hopen x hx
        cases he
        rw [hk]
        exact Option.some_ne_none k
  obtain ⟨w', hw'⟩ := hcalls
  refine ⟨w', ?_⟩
  show (y.2.calls (feeds e)).bind _ = _
  rw [hw, Option.bind_some, hs, Option.bind_some, hw', Option.map_some]

theorem sends_open_twoClients : ∃ r w', exec step (start 3) (twoClients.take 5) = some r ∧
    ∃ q : Server × List Output, step r.1 (.server textToB) = some ((q.1, w'), q.2) := by
  have hlegal : Along step Legal (start 3) (twoClients.take 5) := by decide +kernel
  have hsome : ((exec step (start 3) (twoClients.take 5)).bind fun r =>
      (r.1.2.calls (feeds textToB)).bind fun _ => Server.step r.1.1 textToB).isSome := by decide +kernel
  obtain ⟨q, hq⟩ := Option.isSome_iff_exists.mp hsome
  obtain ⟨r, hr, hq⟩ := Option.bind_eq_some_iff.mp hq
  obtain ⟨w, hw, hq⟩ := Option.bind_eq_some_iff.mp hq
  obtain ⟨-, w', hstep⟩ := sends_open hlegal hr hw hq
  exact ⟨r, w', hr, q, hstep⟩

end System

end Protocoale.Practic

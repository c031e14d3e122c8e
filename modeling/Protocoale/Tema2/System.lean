import Protocoale.Lib.Clients
import Protocoale.Tema2.Commands
import Protocoale.Tema2.ExactlyOnce
import Protocoale.Tema2.Framing
import Protocoale.Tema2.Loop

/-!
The server and its subscribers together (`server.cpp`, `subscriber.cpp`): any number of subscriber
processes are started, read lines from their standard inputs and messages from their sockets, and end,
while the server runs its main loop and datagrams arrive. What one process writes on a connection the
other one reads in the same order, in whatever pieces `recv` returns it.

A client may connect many times, each time with another process. `subscribers_get` follows its messages
through all of them.
-/

namespace Protocoale.Tema2

open Lib Lib.Bytes Lib.CText Lib.Cuts Lib.Run Lib.Sockets

namespace System

abbrev State := Loop × Wires UInt8

inductive Move where
  /-- `./subscriber <id>`: it connects and sends its id -/
  | subscriber (id : List UInt8)
  /-- `handle_stdin_message` of the process `k`, on what `fgets` has read -/
  | stdin (k : ℕ) (buffer : List UInt8)
  /-- `handle_server_message` of the process `k`, on what `recv` has returned -/
  | message (k : ℕ) (bytesRecv : List UInt8)
  /-- a step of the main loop of the server -/
  | loop (x : Loop.Input)

/-- The calls that bring the server what its handlers work on. -/
def feeds : Loop.Input → List (Call UInt8)
  | .event (.connection newsockfd _ data) => [.accept newsockfd, .recv newsockfd data]
  | .event (.tcp i data) => [.recv i data]
  | _ => []

/-- The calls the handlers make. No result of a `send` is looked at. -/
def makes : Output → Option (Call UInt8)
  | .send fd m => some (.trySend fd m.enc)
  | .close fd => some (.close fd)
  | _ => none

/-- A move as one on the sockets. There is none where the subscriber crashes. -/
def onSockets : Move → Option (Sockets.Move Loop.Input UInt8)
  | .subscriber id => some (.connect id)
  | .stdin k buffer =>
    if (text "exit").isPrefixOf buffer then some (.leave k)
    else (Subscriber.handleCommand buffer).map fun req => .put k (req.elim [] ClientRequest.enc)
  | .message k bytesRecv => some (.take k bytesRecv)
  | .loop x => some (.serve x)

def step (y : State) (m : Move) : Option (State × List Output) :=
  (onSockets m).bind (Sockets.step Loop.step feeds makes y)

/-- The server is in its main loop, and no subscriber has been started. -/
def start (sockTcp sockUdp : ℕ) : State := (Loop.init sockTcp sockUdp, Wires.start)

/-- What the `recv` of a request returns is no longer than a request. -/
def Asked : Loop.Input → Prop
  | .event (.tcp _ data) => data.length ≤ clientRequestCodec.size
  | _ => True

instance : (x : Loop.Input) → Decidable (Asked x)
  | .event (.tcp _ _) => inferInstanceAs (Decidable (_ ≤ _))
  | .event (.connection _ _ _) | .event (.udp _ _) => inferInstanceAs (Decidable True)
  | .select _ | .stdin _ => inferInstanceAs (Decidable True)

/-- What the kernel and the C library guarantee, and that the ids the server reads fit their array. -/
def Legal (y : State) : Move → Prop
  | .subscriber _ => True
  | .stdin _ buffer => buffer.length < BUFLEN - 1
  | .message _ bytesRecv => bytesRecv.length ≤ subMessageCodec.size
  | .loop x => Loop.Legal y.1 x ∧ Asked x

instance (y : State) : (m : Move) → Decidable (Legal y m)
  | .subscriber _ => inferInstanceAs (Decidable True)
  | .stdin _ _ => inferInstanceAs (Decidable (_ < _))
  | .message _ _ => inferInstanceAs (Decidable (_ ≤ _))
  | .loop _ => inferInstanceAs (Decidable (_ ∧ _))

/-- The sends of a step of the server go to the clients they are for. -/
def SendsCurrent (y : State) : Move → Prop
  | .loop (.event e) => Server.SendsCurrent y.1.server e
  | _ => True

instance (y : State) : (m : Move) → Decidable (SendsCurrent y m)
  | .loop (.event e) => inferInstanceAs (Decidable (Server.SendsCurrent y.1.server e))
  | .loop (.select _) | .loop (.stdin _) => inferInstanceAs (Decidable True)
  | .subscriber _ | .stdin _ _ | .message _ _ => inferInstanceAs (Decidable True)

/-- The process that is taken in under the id `c`, if this is what the move does. -/
def admittedBy (c : ClientId) : State × Move → Option ℕ
  | (y, .loop (.event (.connection _ _ data))) =>
    if Server.newClientId data = some c ∧ y.1.server.connected c = false then y.2.backlog.head? else none
  | _ => none

/-- The processes taken in under the id `c`, in their order. -/
def admitted (c : ClientId) (xs : List (State × Move)) : List ℕ := xs.filterMap (admittedBy c)

/-- The messages that must get to `c` because of a move. -/
def dueBy (c : ClientId) : State × Move → List SubMessage
  | (y, .loop (.event e)) => y.1.server.due c e
  | _ => []

def due (c : ClientId) (xs : List (State × Move)) : List SubMessage := xs.flatMap (dueBy c)

/-- The descriptors of the clients. -/
def ids (y : State) (c : ClientId) : Option ℕ := y.1.server.activeIdsSockets.find c

variable {y y' : State} {m : Move} {ms : List Move} {xs : List (State × Move)} {out : List Output}
  {s s' : Server} {w w' : Wires UInt8} {e : Server.Event} {c : ClientId} {sub : ℕ → List SubMessage}
  {sockTcp sockUdp : ℕ}

/-! ### One step of the server -/

lemma filterMap_makes (hclose : ∀ fd, .close fd ∉ out) : out.filterMap makes =
    (Server.sends out).map fun x => .trySend x.1 x.2.enc := by
  induction out with
  | nil => rfl
  | cons o out ih =>
    have ih := ih fun fd h => hclose fd (List.mem_cons_of_mem _ h)
    cases o with
    | send fd m =>
      rw [Server.sends_cons_send, List.map_cons, ← ih]
      rfl
    | close fd => exact absurd List.mem_cons_self (hclose fd)
    | _ => exact ih

/-- What a handler sends is written on the connections. -/
lemma calls_makes (hclose : ∀ fd, .close fd ∉ out) (h : w.calls (out.filterMap makes) = some w') :
    w' = { w with sent := fun k => w.sent k ++
      subMessageCodec.stream (sentOn w.owner k (Server.sends out)) } := by
  rw [filterMap_makes hclose] at h
  refine calls_map ?_ ?_ h
  · intro x
    exact trivial
  · intro owner k x
    rfl

/-- What an event reads. -/
def Takes (y y' : State) : Server.Event → Prop
  | .connection _ _ data => ∃ k, y.2.backlog.head? = some k ∧
      y'.2.taken = Function.update y.2.taken k (y.2.taken k ++ [data])
  | .udp _ _ => y'.2.taken = y.2.taken
  | .tcp i data => ∃ k, y.2.owner i = some k ∧
      y'.2.taken = Function.update y.2.taken k (y.2.taken k ++ [data])

/-- What an event does. -/
structure Served (y y' : State) (e : Server.Event) (out : List Output) : Prop where
  server : Server.step y.1.server e = some (y'.1.server, out)
  changes : Changes (ids y) (ids y') y.2 y'.2 fun c => admittedBy c (y, .loop (.event e))
  made : y'.2.made = y.2.made
  put : y'.2.put = y.2.put
  takes : Takes y y' e
  sent : ∀ k, y'.2.sent k =
    y.2.sent k ++ subMessageCodec.stream (sentOn y'.2.owner k (Server.sends out))

lemma step_loop {x : Loop.Input} (h : step y (.loop x) = some (y', out)) : ∃ w,
    y.2.calls (feeds x) = some w ∧ Loop.step y.1 x = some (y'.1, out) ∧
      w.calls (out.filterMap makes) = some y'.2 :=
  step_serve h

/-- A connection under an id that is in use: the descriptor is closed again. -/
lemma served_turnedAway {fd k : ℕ} {cliAddr : SockaddrIn} {data : List UInt8} {ks : List ℕ}
    (hserver : Server.step y.1.server (.connection fd cliAddr data) = some (y'.1.server, out))
    (hid : Server.newClientId data = some c) (hon : y.1.server.activeIdsSockets.find c ≠ none)
    (hsame : y'.1.server = y.1.server) (hsends : Server.sends out = []) (hb : y.2.backlog = k :: ks)
    (hw : y'.2 = { y.2 with
      backlog := ks
      taken := Function.update y.2.taken k (y.2.taken k ++ [data])
      closed := Function.update y.2.closed k true }) : Served y y' (.connection fd cliAddr data) out := by
  refine ⟨hserver, .none ?_ ?_ ?_ ?_, ?_, ?_, ⟨k, ?_, ?_⟩, ?_⟩
  · funext c'
    rw [ids, hsame]
    rfl
  · rw [hw]
  · rw [hw, hb]
    exact List.suffix_cons k ks
  · intro c'
    refine if_neg ?_
    rw [hid, Option.some.injEq, eq_comm (a := _) (b := c')]
    exact Server.not_comesBack hon
  · rw [hw]
  · rw [hw]
  · rw [hb]
    rfl
  · rw [hw]
  · intro j
    rw [hsends, hw]
    exact (List.append_nil _).symm

/-- A connection under an id that is not in use. -/
lemma served_takenIn {fd k : ℕ} {cliAddr : SockaddrIn} {data : List UInt8} {ks : List ℕ}
    (hserver : Server.step y.1.server (.connection fd cliAddr data) = some (y'.1.server, out))
    (hid : Server.newClientId data = some c) (hoff : y.1.server.activeIdsSockets.find c = none)
    (hids : ∀ c', y'.1.server.activeIdsSockets.find c' =
      if c' = c then some fd else y.1.server.activeIdsSockets.find c')
    (hb : y.2.backlog = k :: ks) (hno : y.2.owner fd = none)
    (hw : y'.2 = { y.2 with
      backlog := ks
      owner := Function.update y.2.owner fd (some k)
      taken := Function.update y.2.taken k (y.2.taken k ++ [data])
      sent := fun j => y.2.sent j ++ subMessageCodec.stream
        (sentOn (Function.update y.2.owner fd (some k)) j (Server.sends out)) }) :
    Served y y' (.connection fd cliAddr data) out := by
  refine ⟨hserver, .joins c fd k hoff ?_ ?_ hno ?_ ?_ ?_ ?_, ?_, ?_, ⟨k, ?_, ?_⟩, ?_⟩
  · exact (hids c).trans (if_pos rfl)
  · intro c' hc
    exact (hids c').trans (if_neg hc)
  · rw [hw]
  · rw [hw, hb]
  · simp [admittedBy, hid, Server.connected, hoff, hb]
  · intro c' hc
    simp [admittedBy, hid, Ne.symm hc]
  · rw [hw]
  · rw [hw]
  · rw [hb]
    rfl
  · rw [hw]
  · intro j
    rw [hw]

/-- A datagram. -/
lemma served_udp {fromStation : SockaddrIn} {data : List UInt8}
    (hserver : Server.step y.1.server (.udp fromStation data) = some (y'.1.server, out))
    (hids : y'.1.server.activeIdsSockets = y.1.server.activeIdsSockets)
    (hw : y'.2 = { y.2 with sent := fun k => y.2.sent k ++
      subMessageCodec.stream (sentOn y.2.owner k (Server.sends out)) }) :
    Served y y' (.udp fromStation data) out := by
  refine ⟨hserver, .none ?_ ?_ ?_ fun c => rfl, ?_, ?_, ?_, ?_⟩
  · funext c
    rw [ids, hids]
    rfl
  · rw [hw]
  · rw [hw]
  · rw [hw]
  · rw [hw]
  · show y'.2.taken = _
    rw [hw]
  · intro j
    rw [hw]

/-- The end of a connection. -/
lemma served_closed {i k : ℕ} {data : List UInt8}
    (hserver : Server.step y.1.server (.tcp i data) = some (y'.1.server, out))
    (hon : y.1.server.activeIdsSockets.find c = some i)
    (hids : y'.1.server.activeIdsSockets = y.1.server.activeIdsSockets.erase c)
    (hsends : Server.sends out = []) (hk : y.2.owner i = some k)
    (hw : y'.2 = { y.2 with
      owner := Function.update y.2.owner i none
      taken := Function.update y.2.taken k (y.2.taken k ++ [data])
      closed := Function.update y.2.closed k true }) : Served y y' (.tcp i data) out := by
  refine ⟨hserver, .leaves c i hon ?_ ?_ ?_ ?_ fun c => rfl, ?_, ?_, ⟨k, hk, ?_⟩, ?_⟩
  · rw [ids, hids]
    exact UMap.find_erase_self ..
  · intro c' hc
    rw [ids, hids]
    exact UMap.find_erase_ne hc
  · rw [hw]
  · rw [hw]
  · rw [hw]
  · rw [hw]
  · rw [hw]
  · intro j
    rw [hsends, hw]
    exact (List.append_nil _).symm

/-- A request. -/
lemma served_request {i k : ℕ} {data : List UInt8}
    (hserver : Server.step y.1.server (.tcp i data) = some (y'.1.server, out))
    (hids : y'.1.server.activeIdsSockets = y.1.server.activeIdsSockets)
    (hsends : Server.sends out = []) (hk : y.2.owner i = some k)
    (hw : y'.2 = { y.2 with taken := Function.update y.2.taken k (y.2.taken k ++ [data]) }) :
    Served y y' (.tcp i data) out := by
  refine ⟨hserver, .none ?_ ?_ ?_ fun c => rfl, ?_, ?_, ⟨k, hk, ?_⟩, ?_⟩
  · funext c
    rw [ids, hids]
    rfl
  · rw [hw]
  · rw [hw]
  · rw [hw]
  · rw [hw]
  · rw [hw]
  · intro j
    rw [hsends, hw]
    exact (List.append_nil _).symm

/-- **An event of the server.** -/
theorem step_event (hinv : y.1.Inv) (hlegal : Loop.Legal y.1 (.event e))
    (h : step y (.loop (.event e)) = some (y', out)) : Served y y' e out := by
  obtain ⟨w, hw, hloop, hw'⟩ := step_loop h
  have hserver : Server.step y.1.server e = some (y'.1.server, out) := by
    obtain ⟨r, hr, he⟩ := Option.map_eq_some_iff.mp hloop
    obtain ⟨hl, ho⟩ := Prod.mk.inj he
    rw [hr, ← hl, ← ho]
  have hlegal := hinv.legal hlegal
  have hinv := hinv.reachable.inv
  cases e with
  | connection fd cliAddr data =>
    obtain ⟨hfd, hlen, h0⟩ := hlegal
    have hid := Server.newClientId_of_legal hlen h0
    obtain ⟨k, ks, hb, hno, -, rfl⟩ := Wires.calls_accept hw
    rcases Server.connection_cases hinv hfd hlen h0 hserver with
      ⟨hon, hsame, rfl⟩ | ⟨hoff, client, -, hconn, rfl⟩
    · have hw' := Wires.calls_close hw' rfl rfl (Function.update_self fd (some k) y.2.owner)
      refine served_turnedAway hserver hid hon hsame rfl hb (hw'.trans ?_)
      have howner : Function.update (Function.update y.2.owner fd (some k)) fd none = y.2.owner := by
        rw [Function.update_idem, ← hno, Function.update_eq_self]
      rw [howner]
    · have hclose : ∀ fd', Output.close fd' ∉
          Output.newClient ⟨data, hlen, h0⟩ cliAddr ::
            (y.1.server.stored ⟨data, hlen, h0⟩).map (.send client.socket) := by simp
      exact served_takenIn hserver hid hoff hconn.ids hb hno (calls_makes hclose hw')
  | udp fromStation data =>
    cases hw
    obtain ⟨hs', hout⟩ := Server.step_udp hserver
    have hclose : ∀ fd, Output.close fd ∉ out := by
      rw [hout, Server.handleUdpMessage_out]
      simp
    refine served_udp hserver ?_ (calls_makes hclose hw')
    rw [hs', Server.handleUdpMessage_eq]
  | tcp i data =>
    obtain ⟨k, hk, -, rfl⟩ := Wires.call_recv (by simpa [feeds] using hw)
    rcases Server.handleTcpMessage_cases hserver with ⟨-, client, hc, rfl, hs'⟩ | ⟨-, rfl, hs'⟩
    · refine served_closed hserver ((hinv.ids client.id i).mpr ⟨client, hc, rfl⟩) ?_ rfl hk
        (Wires.calls_close hw' rfl rfl hk)
      rw [hs']
    · have hids : y'.1.server.activeIdsSockets = y.1.server.activeIdsSockets := by
        rcases hs' with hs' | ⟨_, _, _, _, -, -, -, hs'⟩ <;> rw [hs']
      exact served_request hserver hids rfl hk (Option.some.inj hw').symm

/-- A move that is no event of the server. -/
structure Quiet (y y' : State) : Prop where
  server : y'.1.server = y.1.server
  owner : y'.2.owner = y.2.owner
  sent : y'.2.sent = y.2.sent
  taken : y'.2.taken = y.2.taken
  accepted : ∀ k, k < y.2.made ∧ k ∉ y.2.backlog → k < y'.2.made ∧ k ∉ y'.2.backlog

/-- A move of a subscriber leaves the server as it is. -/
lemma step_subscriber (hm : ∀ x, m ≠ .loop x) (h : step y m = some (y', out)) : Aside y y' := by
  obtain ⟨m', hm', h⟩ := Option.bind_eq_some_iff.mp h
  have hserve : ∀ x, m' ≠ .serve x := by
    rintro x rfl
    cases m with
    | subscriber id => cases hm'
    | message k bytesRecv => cases hm'
    | loop x => exact hm x rfl
    | stdin k buffer =>
      simp only [onSockets] at hm'
      split at hm'
      · cases hm'
      · obtain ⟨req, -, he⟩ := Option.map_eq_some_iff.mp hm'
        cases he
  exact (step_client hserve h).1

/-- A step of the loop that is no event leaves the connections as they are. -/
lemma step_idle {x : Loop.Input} (hx : ∀ e, x ≠ .event e) (h : step y (.loop x) = some (y', out)) :
    y'.1.server = y.1.server ∧ y'.2 = y.2 := by
  obtain ⟨w, hw, hstep, hw'⟩ := step_loop h
  obtain ⟨hsame, rfl, rfl⟩ : y'.1.server = y.1.server ∧ out = [] ∧ w = y.2 := by
    cases x with
    | event e => exact absurd rfl (hx e)
    | select ready =>
      obtain ⟨hl, ho⟩ := Prod.mk.inj (Option.some.inj hstep)
      exact ⟨by rw [← hl], ho.symm, (Option.some.inj hw).symm⟩
    | stdin line =>
      simp only [Loop.step] at hstep
      split at hstep
      · cases hstep
      · obtain ⟨hl, ho⟩ := Prod.mk.inj (Option.some.inj hstep)
        exact ⟨by rw [← hl], ho.symm, (Option.some.inj hw).symm⟩
  exact ⟨hsame, (Option.some.inj hw').symm⟩

lemma step_quiet (hm : ∀ e, m ≠ .loop (.event e)) (h : step y m = some (y', out)) : Quiet y y' := by
  by_cases hloop : ∃ x, m = .loop x
  · obtain ⟨x, rfl⟩ := hloop
    obtain ⟨hserver, hwires⟩ := step_idle (fun e he => hm e (congrArg _ he)) h
    exact ⟨hserver, by rw [hwires], by rw [hwires], by rw [hwires], fun _ hk => hwires ▸ hk⟩
  · have haside := step_subscriber (not_exists.mp hloop) h
    refine ⟨by rw [haside.server], haside.owner, haside.sent, haside.taken, ?_⟩
    rintro k ⟨hlt, hnot⟩
    refine ⟨hlt.trans_le haside.made, fun hin => ?_⟩
    rcases haside.backlog k hin with hin | hle
    · exact hnot hin
    · omega

lemma admitted_snoc (xs : List (State × Move)) (x : State × Move) :
    admitted c (xs ++ [x]) = admitted c xs ++ (admittedBy c x).toList := by
  unfold admitted
  rw [List.filterMap_append]
  cases h : admittedBy c x <;> simp [h]

/-! ### Whole runs -/

/-- What the messages of a history have come to: `sub k` are the ones sent to the process `k`. -/
structure Account (y : State) (xs : List (State × Move)) (sub : ℕ → List SubMessage) : Prop where
  sent : ∀ k, y.2.sent k = subMessageCodec.stream (sub k)
  due : ∀ c, due c xs = (admitted c xs).flatMap sub ++ y.1.server.stored c

/-- The invariant of a run. -/
structure Inv (y : State) (xs : List (State × Move)) : Prop where
  loop : y.1.Inv
  wires : y.2.Ok
  routes : Routes (ids y) y.2 (admitted · xs)

lemma stream_append (ms ms' : List SubMessage) : subMessageCodec.stream (ms ++ ms') =
    subMessageCodec.stream ms ++ subMessageCodec.stream ms' := by
  simp [Codec.stream]

lemma stream_eq_nil {ms : List SubMessage} (h : subMessageCodec.stream ms = []) : ms = [] := by
  have hlen := subMessageCodec.stream_length ms
  rw [h] at hlen
  exact List.length_eq_zero_iff.mp (by simpa [subMessageCodec] using hlen.symm)

/-- What was kept and what is due is what is delivered and what is still kept. -/
lemma stored_conserves (hinv : s.Inv) (hlegal : Server.Legal s e)
    (h : Server.step s e = some (s', out)) :
    s.stored c ++ s.due c e = s.deliveries c e ++ s'.stored c := by
  have hrun := Mailbox.run_conserves (hinv.mailbox_ok (c := c)) (s.mailEvents c e)
  rw [← Server.mailbox_step hinv hlegal h, ← Server.due_eq_accepted hinv] at hrun
  exact hrun

lemma due_snoc (xs : List (State × Move)) (x : State × Move) :
    due c (xs ++ [x]) = due c xs ++ dueBy c x := by
  simp [due]

theorem Account.event (hinv : Inv y xs) (hinv' : Inv y' (xs ++ [(y, .loop (.event e))]))
    (hlegal : Server.Legal y.1.server e) (hcur : Server.SendsCurrent y.1.server e)
    (hacc : Account y xs sub) (h : Served y y' e out) : Account y' (xs ++ [(y, .loop (.event e))])
      fun k => sub k ++ sentOn y'.2.owner k (Server.sends out) := by
  have hs := hinv.loop.reachable.inv
  have hnew : ∀ k ∈ y.2.backlog, sub k = [] := fun k hk =>
    stream_eq_nil ((hacc.sent k).symm.trans (hinv.wires.early k (.inr hk)).2)
  constructor
  case sent =>
    intro k
    rw [h.sent, hacc.sent, stream_append]
  case due =>
    intro c
    have hsent : sentAt (ids y' c) (Server.sends out) = y.1.server.deliveries c e :=
      (Server.sentTo_iff hs hlegal h.server).mpr hcur c
    rw [hinv'.routes.flatMap_sentOn, admitted_snoc, h.changes.flatMap_joined hnew, hsent, due_snoc, hacc.due,
      List.append_assoc, List.append_assoc, ← stored_conserves hs hlegal h.server]
    rfl

lemma server_step {x : Loop.Input} (h : step y (.loop x) = some (y', out)) :
    Loop.step y.1 x = some (y'.1, out) :=
  (step_loop h).choose_spec.2.1

/-- Only an event takes a process in, or makes a message due. -/
lemma quiet_by (hm : ∀ e, m ≠ .loop (.event e)) :
    (∀ c, admittedBy c (y, m) = none) ∧ ∀ c, dueBy c (y, m) = [] := by
  cases m with
  | loop x =>
    cases x with
    | event e => exact absurd rfl (hm e)
    | _ => exact ⟨fun _ => rfl, fun _ => rfl⟩
  | _ => exact ⟨fun _ => rfl, fun _ => rfl⟩

lemma admitted_quiet (hm : ∀ e, m ≠ .loop (.event e)) :
    admitted c (xs ++ [(y, m)]) = admitted c xs := by
  rw [admitted_snoc, (quiet_by hm).1]
  exact List.append_nil _

theorem inv_step (hinv : Inv y xs) (hlegal : Legal y m)
    (h : step y m = some (y', out)) : Inv y' (xs ++ [(y, m)]) := by
  have hwires : y'.2.Ok := by
    obtain ⟨m', -, h⟩ := Option.bind_eq_some_iff.mp h
    exact ok_step hinv.wires h
  have hloop : y'.1.Inv := by
    by_cases hm : ∃ x, m = .loop x
    · obtain ⟨x, rfl⟩ := hm
      exact Loop.inv_step hinv.loop hlegal.1 (server_step h)
    · rw [(step_subscriber (not_exists.mp hm) h).server]
      exact hinv.loop
  by_cases hm : ∃ e, m = .loop (.event e)
  · obtain ⟨e, rfl⟩ := hm
    have hserved := step_event hinv.loop hlegal.1 h
    have hroutes := hinv.routes.step hinv.wires
      (fun c c' fd => hinv.loop.reachable.inv.socket_inj) hserved.made hserved.changes
    refine ⟨hloop, hwires, ?_⟩
    simpa only [admitted_snoc] using hroutes
  · have hquiet := step_quiet (not_exists.mp hm) h
    have hroutes := hinv.routes.same hquiet.owner hquiet.accepted
    have hids : ids y' = ids y := by
      funext c
      rw [ids, hquiet.server]
      rfl
    refine ⟨hloop, hwires, ?_⟩
    rw [hids]
    simpa only [admitted_quiet (not_exists.mp hm)] using hroutes

theorem account_step (hinv : Inv y xs) (hlegal : Legal y m)
    (hcur : SendsCurrent y m) (hacc : Account y xs sub) (h : step y m = some (y', out)) :
    ∃ sub', Account y' (xs ++ [(y, m)]) sub' := by
  by_cases hm : ∃ e, m = .loop (.event e)
  · obtain ⟨e, rfl⟩ := hm
    have hserved := step_event hinv.loop hlegal.1 h
    exact ⟨_, hacc.event hinv (inv_step hinv hlegal h) (hinv.loop.legal hlegal.1) hcur hserved⟩
  · have hquiet := step_quiet (not_exists.mp hm) h
    refine ⟨sub, ?_, ?_⟩
    · intro k
      rw [hquiet.sent]
      exact hacc.sent k
    · intro c
      rw [due_snoc, (quiet_by (not_exists.mp hm)).2, List.append_nil, admitted_quiet (not_exists.mp hm),
        hquiet.server]
      exact hacc.due c

lemma inv_start : Inv (start sockTcp sockUdp) [] where
  loop := Loop.Reachable.inv ⟨sockTcp, sockUdp, Reach.init⟩
  wires := Wires.ok_start
  routes := by
    have hids : ids (start sockTcp sockUdp) = fun _ => none := by
      funext c
      simp [ids, start, Loop.init, Server.init]
    rw [hids]
    exact routes_start

/-- An empty read prints nothing. -/
lemma printed_filter (cuts : List (List UInt8)) :
    Subscriber.printed cuts = (cuts.filter (· ≠ [])).map SubMessage.dec := by
  induction cuts with
  | nil => rfl
  | cons data cuts ih =>
    unfold Subscriber.printed at ih ⊢
    by_cases hd : data = []
    · subst hd
      rw [List.filterMap_cons_none (by rfl), List.filter_cons_of_neg (by simp), ih]
    · rw [List.filterMap_cons_some (b := SubMessage.dec data) (by simp [Subscriber.handleServerMessage, hd]),
        List.filter_cons_of_pos (by simp [hd]), List.map_cons, ih]

/-- What `print_output` is called with, when every `recv` returns a whole message. -/
lemma printed_prefix {cuts : List (List UInt8)} {ms : List SubMessage}
    (hfull : ∀ bytesRecv ∈ cuts, bytesRecv ≠ [] → bytesRecv.length = subMessageCodec.size)
    (h : cuts.flatten <+: subMessageCodec.stream ms) :
    Subscriber.printed cuts <+: ms ∧
      (cuts.flatten = subMessageCodec.stream ms → Subscriber.printed cuts = ms) := by
  have hflat : (cuts.filter (· ≠ [])).flatten = cuts.flatten := List.flatten_filter_ne_nil
  have hfull' : ∀ data ∈ cuts.filter (· ≠ []), data.length = subMessageCodec.size := by
    intro data hd
    obtain ⟨hmem, hne⟩ := List.mem_filter.mp hd
    exact hfull data hmem (by simpa using hne)
  rw [← hflat] at h ⊢
  rw [printed_filter]
  generalize cuts.filter (· ≠ []) = cs at *
  have hcs := subMessageCodec.eq_map_enc_of_prefix (by decide) hfull' h
  have hdec : cs.map SubMessage.dec = ms.take cs.length := by
    conv_lhs => rw [hcs]
    exact subMessageCodec.map_dec_enc _
  rw [hdec]
  refine ⟨List.take_prefix _ _, ?_⟩
  intro hall
  have hlen : cs.flatten.length = cs.length * subMessageCodec.size := by
    rw [List.length_flatten, List.map_congr_left hfull', List.map_const', List.sum_replicate, smul_eq_mul]
  rw [hall, subMessageCodec.stream_length] at hlen
  exact List.take_of_length_le (Nat.eq_of_mul_eq_mul_right (by decide) hlen).le

/-- `C1` subscribes to a topic, and the first bytes of what is published on it arrive. -/
def oneMessage : List Move :=
  [.subscriber [67, 49],
    .loop (.select {3}), .loop (.event (.connection 5 (pad _ []) [67, 49])),
    .loop (.select {4}), .loop (.event (.udp (pad _ []) Server.datagramA)),
    .stdin 0 (text "subscribe a 1\n"),
    .loop (.select {5}), .loop (.event (.tcp 5 Server.subscribeA)),
    .loop (.select {4}), .loop (.event (.udp (pad _ []) Server.datagramA)),
    .message 0 [97, 0]]

end System

end Protocoale.Tema2

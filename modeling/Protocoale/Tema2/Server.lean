import Protocoale.Lib.Run
import Protocoale.Lib.UMap
import Protocoale.Tema2.Common

/-!
The server of the publish/subscribe system (`server.cpp`, `server_helper.cpp`): its five maps and
descriptor set, the handlers, and one step of the main loop for each descriptor that is ready.

A step takes what the kernel hands to the handler: the descriptor `accept` returned, the peer's
address and the bytes of the `recv` after it; a datagram and its sender; the bytes of a `recv`
on a client's descriptor, none when the peer closed. A step is not defined (`none`) where
`at` throws for a missing key and where a client id fills its array without a terminator, so that
the string functions run past the array.
-/

namespace Protocoale.Tema2

open Lib Lib.Bytes

/-- The variables of `main` that the handlers share. -/
structure Server where
  sockTcp : ℕ
  sockUdp : ℕ
  readFds : Finset ℕ
  fdMax : ℕ
  activeClients : UMap ℕ TcpClient
  allClients : UMap ClientId TcpClient
  activeIdsSockets : UMap ClientId ℕ
  topicsSubs : UMap Topic (List Subscription)
  storeAndForward : UMap ClientId (List SubMessage)

/-- What a handler does besides changing the state: messages sent, the lines it prints, and
descriptors shut down and closed. -/
inductive Output where
  /-- `send(fd, &m, sizeof(sub_message), 0)` -/
  | send (fd : ℕ) (m : SubMessage)
  /-- `New client <id> connected from <address>.` -/
  | newClient (id : ClientId) (cliAddr : SockaddrIn)
  /-- `Client <id> already connected.` -/
  | alreadyConnected (id : ClientId)
  /-- `Client <id> disconnected.` -/
  | disconnected (id : ClientId)
  /-- `shutdown(fd, SHUT_RDWR); close(fd)` -/
  | close (fd : ℕ)
  deriving DecidableEq

namespace Server

/-! ### Connections -/

/-- The id in the bytes of the first `recv` of a connection. -/
def newClientId (data : List UInt8) : Option ClientId :=
  let s := cstr (pad MAX_ID_LEN data).toList
  if h : s.length < MAX_ID_LEN then some ⟨s, h, zero_notMem_cstr _⟩ else none

/-- `reconnect`: the record of the client is copied from `all_clients` as it is. -/
def reconnect (s : Server) (id : ClientId) (newsockfd : ℕ) (cliAddr : SockaddrIn) :
    Option (Server × List Output) :=
  (s.allClients.find id).map fun client =>
    let s' := { s with
      activeClients := s.activeClients.insert newsockfd client
      activeIdsSockets := s.activeIdsSockets.insert client.id newsockfd
      allClients := (s.allClients.erase id).insert id client }
    match s.storeAndForward.find client.id with
    | none => (s', [.newClient id cliAddr])
    | some msgs => ({ s' with storeAndForward := s.storeAndForward.erase client.id },
        .newClient id cliAddr :: msgs.map (.send client.socket))

/-- `add_new_client`. -/
def addNewClient (s : Server) (newsockfd : ℕ) (id : ClientId) (cliAddr : SockaddrIn) :
    Server × List Output :=
  let client : TcpClient := { id := id, socket := newsockfd }
  ({ s with
    allClients := s.allClients.insert id client
    activeClients := s.activeClients.insert newsockfd client
    activeIdsSockets := s.activeIdsSockets.insert id newsockfd }, [.newClient id cliAddr])

/-- `handle_connection_request`, from the id on. -/
def acceptClient (s : Server) (newsockfd : ℕ) (cliAddr : SockaddrIn) (id : ClientId) :
    Option (Server × List Output) :=
  if (s.activeIdsSockets.find id).isSome then some (s, [.alreadyConnected id, .close newsockfd])
  else
    let s' := { s with
      readFds := insert newsockfd s.readFds
      fdMax := if s.fdMax < newsockfd then newsockfd else s.fdMax }
    if (s'.allClients.find id).isSome then s'.reconnect id newsockfd cliAddr
    else some (s'.addNewClient newsockfd id cliAddr)

/-- `handle_connection_request`. -/
def handleConnectionRequest (s : Server) (newsockfd : ℕ) (cliAddr : SockaddrIn)
    (data : List UInt8) : Option (Server × List Output) :=
  (newClientId data).bind (s.acceptClient newsockfd cliAddr)

/-! ### Publications -/

/-- The message in a datagram of at most `UDP_LEN` bytes, received into a cleared buffer. -/
def udpMessage (data : List UInt8) : UdpMessage :=
  let buffer := data.take UDP_LEN
  { topic := pad _ (buffer.take TOPIC_LEN)
    dataType := buffer.getD TOPIC_LEN 0
    content := pad _ (buffer.drop (TOPIC_LEN + 1)) }

/-- `send_to_subscribers`, for one subscription. -/
def sendToSubscribers (sub : Subscription) (toSend : SubMessage) (active : UMap ClientId ℕ)
    (store : UMap ClientId (List SubMessage)) : UMap ClientId (List SubMessage) × List Output :=
  let client := sub.client
  if active.find client.id = none ∧ sub.sf = SF_OFF then (store, [])
  else if (active.find client.id).isSome then (store, [.send client.socket toSend])
  else if sub.sf = SF_ON then
    match store.find client.id with
    | none => (store.insert client.id [toSend], [])
    | some msgs => (store.assign client.id (msgs ++ [toSend]), [])
  else (store, [])

/-- The loop over the subscriptions of a topic. -/
def sendToAll (toSend : SubMessage) (active : UMap ClientId ℕ) :
    List Subscription → UMap ClientId (List SubMessage) →
      UMap ClientId (List SubMessage) × List Output
  | [], store => (store, [])
  | sub :: subs, store =>
    let r := sendToSubscribers sub toSend active store
    let q := sendToAll toSend active subs r.1
    (q.1, r.2 ++ q.2)

/-- `handle_udp_message`. -/
def handleUdpMessage (s : Server) (fromStation : SockaddrIn) (data : List UInt8) :
    Server × List Output :=
  let message := udpMessage data
  match s.topicsSubs.find message.topicStr with
  | none => ({ s with topicsSubs := s.topicsSubs.insert message.topicStr [] }, [])
  | some subs =>
    let r := sendToAll { message, fromStation } s.activeIdsSockets subs s.storeAndForward
    ({ s with storeAndForward := r.1 }, r.2)

/-! ### Requests -/

/-- The C string `req.topic`. It goes on into the fields after the array when the array holds no
NUL, and past the structure when these hold none either: longer than any key of `topics_subs`. -/
def topicStr (req : ClientRequest) : Topic := cstr req.enc

/-- The subscriptions of a topic after a client subscribed: its flag is updated in place, or the
subscription goes to the end. -/
def subscribe (client : TcpClient) (sf : UInt8) : List Subscription → List Subscription
  | [] => [{ client, sf }]
  | sub :: subs => if sub.client.id = client.id then { sub with sf } :: subs
    else sub :: subscribe client sf subs

/-- The subscriptions of a topic after a client unsubscribed: the first one of the client is
erased. -/
def unsubscribe (client : TcpClient) (subs : List Subscription) : List Subscription :=
  subs.eraseP fun sub => sub.client.id = client.id

/-- `handle_tcp_message`, for a request. -/
def applyRequest (s : Server) (i : ℕ) (req : ClientRequest) : Option (Server × List Output) :=
  match s.topicsSubs.find (topicStr req) with
  | none => some (s, [])
  | some subs => (s.activeClients.find i).map fun client =>
    if req.reqType = SUBSCRIBE then
      ({ s with topicsSubs := s.topicsSubs.assign (topicStr req) (subscribe client req.sf subs) }, [])
    else if req.reqType = UNSUBSCRIBE then
      ({ s with topicsSubs := s.topicsSubs.assign (topicStr req) (unsubscribe client subs) }, [])
    else (s, [])

/-- `handle_tcp_message`, when the peer has closed the connection. -/
def closeClient (s : Server) (i : ℕ) : Option (Server × List Output) :=
  (s.activeClients.find i).map fun client =>
    ({ s with
      readFds := s.readFds.erase i
      activeIdsSockets := s.activeIdsSockets.erase client.id
      activeClients := s.activeClients.erase i }, [.disconnected client.id, .close i])

/-- `handle_tcp_message`. -/
def handleTcpMessage (s : Server) (i : ℕ) (data : List UInt8) : Option (Server × List Output) :=
  if data = [] then s.closeClient i else s.applyRequest i (ClientRequest.dec data)

/-! ### The main loop -/

/-- What a ready descriptor brings. -/
inductive Event where
  /-- `sock_tcp` is ready: `accept` returns a descriptor, and the first `recv` on it some bytes. -/
  | connection (newsockfd : ℕ) (cliAddr : SockaddrIn) (data : List UInt8)
  /-- `sock_udp` is ready. -/
  | udp (fromStation : SockaddrIn) (data : List UInt8)
  /-- The descriptor `i` of a client is ready. -/
  | tcp (i : ℕ) (data : List UInt8)

/-- One ready descriptor in the main loop. -/
def step (s : Server) : Event → Option (Server × List Output)
  | .connection newsockfd cliAddr data => s.handleConnectionRequest newsockfd cliAddr data
  | .udp fromStation data => some (s.handleUdpMessage fromStation data)
  | .tcp i data => s.handleTcpMessage i data

/-- The server when it enters the main loop, with its two listening sockets. -/
def init (sockTcp sockUdp : ℕ) : Server where
  sockTcp := sockTcp
  sockUdp := sockUdp
  readFds := {0, sockTcp, sockUdp}
  fdMax := max sockTcp sockUdp
  activeClients := ∅
  allClients := ∅
  activeIdsSockets := ∅
  topicsSubs := ∅
  storeAndForward := ∅

/-- What the kernel and the clients guarantee: `accept` returns a descriptor that is not open,
the first `recv` of a connection brings an id of at most ten bytes other than NUL, and only
descriptors of `read_fds` become ready. -/
def Legal (s : Server) : Event → Prop
  | .connection newsockfd _ data => newsockfd ∉ s.readFds ∧ data.length < MAX_ID_LEN ∧ 0 ∉ data
  | .udp _ _ => True
  | .tcp i _ => i ∈ s.readFds ∧ i ≠ 0 ∧ i ≠ s.sockTcp ∧ i ≠ s.sockUdp

instance (s : Server) : (e : Event) → Decidable (Legal s e)
  | .connection _ _ _ => inferInstanceAs (Decidable (_ ∧ _ ∧ _))
  | .udp _ _ => inferInstanceAs (Decidable True)
  | .tcp _ _ => inferInstanceAs (Decidable (_ ∧ _ ∧ _ ∧ _))

/-- The states the server can get into. -/
def Reachable (s : Server) : Prop :=
  ∃ sockTcp sockUdp, Run.Reach step Legal (init sockTcp sockUdp) s

end Server

end Protocoale.Tema2

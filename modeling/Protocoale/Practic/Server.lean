import Protocoale.Lib.CText
import Protocoale.Lib.Cuts
import Protocoale.Lib.Run
import Protocoale.Lib.UMap

/-!
The chat server (`test_practic/server.cpp`, `helpers.h`): the message structure and its layout,
the four maps and the descriptor set, the handlers, and one step of the main loop for each
descriptor that is ready.

A step takes what the kernel hands to the handler: the descriptor `accept` returned and the bytes
of the `recv` after it; the bytes of a `recv` on a client's descriptor, none when the peer closed,
with the order a loop over `active_clients` would go in, which the language leaves open. A step is
not defined (`none`) where a nickname fills its array without a terminator, where `recv` writes past
the structure or `strcat` past the buffer, where `at` throws, and where the counter overflows.
-/

namespace Protocoale.Practic

open Lib Lib.Bytes Lib.CText Lib.Cuts

@[simp] abbrev BUFLEN : ℕ := 1568
@[simp] abbrev MAX_LEN : ℕ := 51

/-- A nickname: a C string that fits `char nickname[MAX_LEN]`, terminator included. -/
abbrev Nickname := { bs : List UInt8 // bs.length < MAX_LEN ∧ 0 ∉ bs }

structure TcpClient where
  number : ℤ
  nickname : Nickname
  deriving DecidableEq

structure Message where
  nrDest : Int32
  msg : Vector UInt8 MAX_LEN
  deriving DecidableEq

/-- The bytes of a message: the two fields, and one byte of padding that makes the size a multiple
of four. The client clears the structure first. -/
def Message.enc (m : Message) : List UInt8 := bytes32 m.nrDest.toUInt32 ++ (m.msg.toList ++ [0])

/-- A message received into a cleared structure. -/
def Message.dec (bs : List UInt8) : Message where
  nrDest := (le32 (bs.getD 0 0) (bs.getD 1 0) (bs.getD 2 0) (bs.getD 3 0)).toInt32
  msg := pad _ (bs.drop 4)

/-- `message` on the wire. -/
def messageCodec : Codec Message where
  size := 56
  enc := Message.enc
  dec := Message.dec
  enc_length m := by simp [Message.enc, bytes32]
  dec_enc m := by
    have hnr : (le32 ((Message.enc m).getD 0 0) ((Message.enc m).getD 1 0) ((Message.enc m).getD 2 0)
        ((Message.enc m).getD 3 0)).toInt32 = m.nrDest := by
      simp only [Message.enc, bytes32, List.cons_append, List.getD_cons_succ, List.getD_cons_zero]
      rw [le32_bytes]
      exact Int32.toInt32_toUInt32 _
    have hmsg : pad MAX_LEN ((Message.enc m).drop 4) = m.msg := pad_toList_append _ _
    rw [Message.dec, hnr, hmsg]

/-- The variables of `main` that the handlers share. -/
structure Server where
  sockTcp : ℕ
  readFds : Finset ℕ
  fdMax : ℕ
  activeClients : UMap Nickname TcpClient
  activeSocketClient : UMap ℕ TcpClient
  activeNrsSockets : UMap ℤ ℕ
  allClients : UMap Nickname TcpClient
  currId : ℤ

/-- What a handler does besides changing the state: bytes sent, the lines it prints, and descriptors
shut down and closed. -/
inductive Output where
  /-- `send(fd, bytes, bytes.length, 0)` -/
  | send (fd : ℕ) (bytes : List UInt8)
  /-- `S-a conectat un nou client, pe socket-ul <fd>.` -/
  | newClient (fd : ℕ)
  /-- `Client <nickname> aeste deja conectat.` -/
  | alreadyConnected (nickname : Nickname)
  /-- `Client <nickname> s-a reconectat.` -/
  | reconnected (nickname : Nickname)
  /-- `Client <nickname> disconnected.` -/
  | disconnected (nickname : Nickname)
  /-- `Clientul nu numarul <n> nu este activ!` -/
  | notActive (n : ℤ)
  /-- `shutdown(fd, SHUT_RDWR); close(fd)` -/
  | close (fd : ℕ)
  deriving DecidableEq

namespace Server

/-! ### Connections -/

/-- The nickname in the bytes of the first `recv` of a connection. -/
def newClientNickname (data : List UInt8) : Option Nickname :=
  let s := cstr (pad MAX_LEN data).toList
  if h : s.length < MAX_LEN then some ⟨s, h, zero_notMem_cstr _⟩ else none

/-- `add_new_client` -/
def addNewClient (s : Server) (newsockfd : ℕ) (nickname : Nickname) :
    Option (Server × List Output) :=
  if s.currId = 2 ^ 31 - 1 then none
  else
    let client : TcpClient := { number := s.currId, nickname }
    some ({ s with
      currId := s.currId + 1
      activeClients := s.activeClients.insert client.nickname client
      allClients := s.allClients.insert client.nickname client
      activeNrsSockets := s.activeNrsSockets.insert client.number newsockfd
      activeSocketClient := s.activeSocketClient.insert newsockfd client }, [.newClient newsockfd])

/-- `handle_connection_request`, from the nickname on. -/
def acceptClient (s : Server) (newsockfd : ℕ) (nickname : Nickname) :
    Option (Server × List Output) :=
  if (s.activeClients.find nickname).isSome then
    some (s, [.alreadyConnected nickname, .close newsockfd])
  else
    match s.allClients.find nickname with
    | some client =>
      -- the branch returns before the descriptor is added to `read_fds`
      some ({ s with
        activeClients := s.activeClients.insert client.nickname client
        activeNrsSockets := s.activeNrsSockets.insert client.number newsockfd
        activeSocketClient := s.activeSocketClient.insert newsockfd client }, [.reconnected nickname])
    | none =>
      let s' := { s with
        readFds := insert newsockfd s.readFds
        fdMax := if s.fdMax < newsockfd then newsockfd else s.fdMax }
      s'.addNewClient newsockfd nickname

/-- `handle_connection_request` -/
def handleConnectionRequest (s : Server) (newsockfd : ℕ) (data : List UInt8) :
    Option (Server × List Output) :=
  (newClientNickname data).bind (s.acceptClient newsockfd)

/-! ### Messages -/

/-- The message a `recv` of up to `BUFLEN` bytes leaves in the cleared structure, when it fits. -/
def received (data : List UInt8) : Option Message :=
  if data.length ≤ messageCodec.size then some (Message.dec data) else none

/-- The order a loop over `active_clients` goes in. -/
abbrev Order := List (Nickname × TcpClient)

/-- The reply to `LIST`: a line for each active client. -/
def listReply (order : Order) : Option (List UInt8) :=
  order.foldlM (fun buffer entry => do
    let buffer ← strcat BUFLEN buffer (text (toString entry.2.number))
    let buffer ← strcat BUFLEN buffer (text " - ")
    let buffer ← strcat BUFLEN buffer entry.1.1
    strcat BUFLEN buffer (text "\n")) []

/-- `handle_tcp_message`, for a message. -/
def route (s : Server) (i : ℕ) (message : Message) (order : Order) : Option (Server × List Output) :=
  if message.nrDest = -1 then
    (listReply order).map fun buffer => (s, [.send i (pad BUFLEN buffer).toList])
  else
    match s.activeNrsSockets.find message.nrDest.toInt with
    | none => some (s, [.notActive message.nrDest.toInt])
    | some sendToSocket => some (s, [.send sendToSocket message.msg.toList])

/-- `handle_tcp_message`, when the peer has closed the connection. -/
def closeClient (s : Server) (i : ℕ) : Option (Server × List Output) :=
  (s.activeSocketClient.find i).map fun clientToDelete =>
    ({ s with
      readFds := s.readFds.erase i
      activeNrsSockets := s.activeNrsSockets.erase clientToDelete.number
      activeClients := s.activeClients.erase clientToDelete.nickname
      activeSocketClient := s.activeSocketClient.erase i },
      [.disconnected clientToDelete.nickname, .close i])

/-- `handle_tcp_message` -/
def handleTcpMessage (s : Server) (i : ℕ) (data : List UInt8) (order : Order) :
    Option (Server × List Output) :=
  if data = [] then s.closeClient i
  else (received data).bind fun message => s.route i message order

/-- A message that arrives whole is received as it was sent. -/
lemma received_enc (m : Message) : received m.enc = some m := by
  have hlen : m.enc.length = messageCodec.size := messageCodec.enc_length m
  rw [received, if_pos hlen.le]
  exact congrArg some (messageCodec.dec_enc m)

lemma enc_ne_nil (m : Message) : m.enc ≠ [] := by simp [Message.enc, bytes32]

/-! ### The main loop -/

/-- What a ready descriptor brings. -/
inductive Event where
  /-- `sock_tcp` is ready: `accept` returns a descriptor, and the first `recv` on it some bytes. -/
  | connection (newsockfd : ℕ) (data : List UInt8)
  /-- The descriptor `i` of a client is ready. -/
  | tcp (i : ℕ) (data : List UInt8) (order : Order)

/-- One ready descriptor in the main loop. -/
def step (s : Server) : Event → Option (Server × List Output)
  | .connection newsockfd data => s.handleConnectionRequest newsockfd data
  | .tcp i data order => s.handleTcpMessage i data order

/-- The server when it enters the main loop, with its listening socket. -/
def init (sockTcp : ℕ) : Server where
  sockTcp := sockTcp
  readFds := {0, sockTcp}
  fdMax := sockTcp
  activeClients := ∅
  activeSocketClient := ∅
  activeNrsSockets := ∅
  allClients := ∅
  currId := 1

/-- What the kernel guarantees: `accept` returns a descriptor that is not open, so neither in
`read_fds` nor that of an active client; a `recv` brings no more bytes than it was asked for; only
descriptors of `read_fds` become ready. A loop over a map meets its pairs once each. -/
def Legal (s : Server) : Event → Prop
  | .connection newsockfd data => newsockfd ∉ s.readFds ∧
      s.activeSocketClient.find newsockfd = none ∧ data.length ≤ MAX_LEN
  | .tcp i data order => i ∈ s.readFds ∧ i ≠ 0 ∧ i ≠ s.sockTcp ∧ data.length ≤ BUFLEN ∧
      order.Perm s.activeClients.toList

instance (s : Server) : (e : Event) → Decidable (Legal s e)
  | .connection _ _ => inferInstanceAs (Decidable (_ ∧ _ ∧ _))
  | .tcp _ _ _ => inferInstanceAs (Decidable (_ ∧ _ ∧ _ ∧ _ ∧ _))

/-- The states the server can get into. -/
def Reachable (s : Server) : Prop := ∃ sockTcp, Run.Reach step Legal (init sockTcp) s

end Server

end Protocoale.Practic

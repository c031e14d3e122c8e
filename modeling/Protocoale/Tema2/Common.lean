import Protocoale.Lib.Bytes
import Protocoale.Lib.Cuts

/-!
The structures the server and the subscriber share (`common_stuff.h`), and the bytes they are
sent as.

The arrays of the source are vectors of bytes. A client id is a C string that fits its array of
`MAX_ID_LEN` bytes; the topic of a message or of a request is read as a C string out of its
array. The two structures that cross a TCP connection, `client_request` and `sub_message`, come
with the codec of their memory layout; a receive of fewer bytes leaves zeros behind, since both
receivers clear the structure first.
-/

namespace Protocoale.Tema2

open Lib.Bytes Lib.Cuts

@[simp] abbrev MAX_ID_LEN : ℕ := 11
@[simp] abbrev TOPIC_LEN : ℕ := 50
@[simp] abbrev CONTENT_LEN : ℕ := 1500
@[simp] abbrev UDP_LEN : ℕ := 1551

/-- The character `'0'`. -/
def SUBSCRIBE : UInt8 := 48
/-- The character `'1'`. -/
def UNSUBSCRIBE : UInt8 := 49
/-- The character `'0'`. -/
def SF_OFF : UInt8 := 48
/-- The character `'1'`. -/
def SF_ON : UInt8 := 49

/-- A client id: a C string that fits `char id[MAX_ID_LEN]`, terminator included. -/
abbrev ClientId := { bs : List UInt8 // bs.length < MAX_ID_LEN ∧ 0 ∉ bs }

/-- A topic as a key of `topics_subs`. -/
abbrev Topic := List UInt8

/-- The bytes of a `sockaddr_in`. -/
abbrev SockaddrIn := Vector UInt8 16

structure TcpClient where
  id : ClientId
  socket : ℕ
  deriving DecidableEq

structure UdpMessage where
  topic : Vector UInt8 (TOPIC_LEN + 1)
  dataType : UInt8
  content : Vector UInt8 CONTENT_LEN
  deriving DecidableEq

structure Subscription where
  client : TcpClient
  sf : UInt8
  deriving DecidableEq

structure ClientRequest where
  topic : Vector UInt8 (TOPIC_LEN + 1)
  sf : UInt8
  reqType : UInt8
  deriving DecidableEq

structure SubMessage where
  message : UdpMessage
  fromStation : SockaddrIn
  deriving DecidableEq

/-- The C string `message.topic`; its last byte is never written and stays NUL. -/
def UdpMessage.topicStr (m : UdpMessage) : Topic := cstr m.topic.toList

/-! ### Memory layouts -/

/-- The bytes of a request: the three fields, without padding between them. -/
def ClientRequest.enc (r : ClientRequest) : List UInt8 := r.topic.toList ++ [r.sf, r.reqType]

/-- A request received into a cleared structure. -/
def ClientRequest.dec (bs : List UInt8) : ClientRequest where
  topic := pad _ bs
  sf := bs.getD 51 0
  reqType := bs.getD 52 0

/-- `client_request` on the wire. -/
def clientRequestCodec : Codec ClientRequest where
  size := 53
  enc := ClientRequest.enc
  dec := ClientRequest.dec
  enc_length r := by simp [ClientRequest.enc]
  dec_enc r := by
    have h (i : ℕ) : (r.topic.toList ++ [r.sf, r.reqType]).getD (51 + i) 0 =
        [r.sf, r.reqType].getD i 0 := by
      rw [List.getD_append_right _ _ _ _ (by simp)]
      simp
    simp only [ClientRequest.dec, ClientRequest.enc, pad_toList_append]
    rw [h 0, h 1]
    rfl

/-- The bytes of a message to a subscriber: `udp_message` is made of characters only and ends at
a multiple of the alignment of `sockaddr_in`, so there is no padding. -/
def SubMessage.enc (m : SubMessage) : List UInt8 :=
  m.message.topic.toList ++ m.message.dataType :: (m.message.content.toList ++ m.fromStation.toList)

/-- A message received into a cleared structure. -/
def SubMessage.dec (bs : List UInt8) : SubMessage where
  message := { topic := pad _ bs, dataType := bs.getD 51 0, content := pad _ (bs.drop 52) }
  fromStation := pad _ (bs.drop 1552)

/-- `sub_message` on the wire. -/
def subMessageCodec : Codec SubMessage where
  size := 1568
  enc := SubMessage.enc
  dec := SubMessage.dec
  enc_length m := by simp [SubMessage.enc]
  dec_enc m := by
    have htype : (SubMessage.enc m).getD 51 0 = m.message.dataType := by
      rw [SubMessage.enc, List.getD_append_right _ _ _ _ (by simp)]
      simp
    have hcontent : (SubMessage.enc m).drop 52 =
        m.message.content.toList ++ m.fromStation.toList := by
      rw [SubMessage.enc, List.drop_append, List.drop_of_length_le (by simp)]
      simp
    have hstation : (SubMessage.enc m).drop 1552 = m.fromStation.toList := by
      rw [show (1552 : ℕ) = 52 + 1500 by rfl, ← List.drop_drop, hcontent, List.drop_left' (by simp)]
    have htopic : pad (TOPIC_LEN + 1) (SubMessage.enc m) = m.message.topic :=
      pad_toList_append _ _
    have hnil : pad 16 m.fromStation.toList = m.fromStation := by
      simpa using pad_toList_append m.fromStation []
    simp only [SubMessage.dec, htype, hcontent, hstation, htopic, hnil, pad_toList_append]

end Protocoale.Tema2

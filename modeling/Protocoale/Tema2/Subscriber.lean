import Protocoale.Tema2.Common

/-!
The subscriber (`subscriber.cpp`, `subscriber_helper.cpp`): what it sends on its connection and
what it does with what it receives. A message of the server is taken from one `recv`. The stream
of messages is printed as it was sent when every `recv` returns one message, and in no other case
(`printed_eq_iff`).
-/

namespace Protocoale.Tema2

open Lib.Bytes Lib.Cuts

namespace Subscriber

/-! ### Requests -/

/-- `subscribe`, for a topic that fits its array. -/
def subscribe (topic : List UInt8) (sf : UInt8) : ClientRequest where
  topic := pad _ topic
  sf := sf
  reqType := SUBSCRIBE

/-- `unsubscribe`, for a topic that fits its array. -/
def unsubscribe (topic : List UInt8) : ClientRequest where
  topic := pad _ topic
  sf := 0
  reqType := UNSUBSCRIBE

/-- The requests a subscriber sends. -/
inductive Sends : ClientRequest → Prop where
  | subscribe (topic : List UInt8) (sf : UInt8) : Sends (subscribe topic sf)
  | unsubscribe (topic : List UInt8) : Sends (unsubscribe topic)

/-- The bytes a subscriber sends: its id, without a terminator, then its requests. -/
def sent (id : ClientId) (reqs : List ClientRequest) : List UInt8 :=
  id.1 ++ clientRequestCodec.stream reqs

/-- The last byte of a request is not zero, so no shorter receive looks like it. -/
lemma Sends.reqType_ne_zero {r : ClientRequest} (h : Sends r) : r.reqType ≠ 0 := by
  cases h with
  | subscribe topic sf => exact (by decide : SUBSCRIBE ≠ 0)
  | unsubscribe topic => exact (by decide : UNSUBSCRIBE ≠ 0)

/-! ### Messages -/

/-- What `handle_server_message` does with what it received. -/
inductive Handled where
  /-- `print_output(response)` -/
  | print (response : SubMessage)
  /-- `shutdown(sockfd, SHUT_RDWR); close(sockfd)` -/
  | close

/-- `handle_server_message`. -/
def handleServerMessage (bytesRecv : List UInt8) : Handled :=
  if bytesRecv = [] then .close else .print (SubMessage.dec bytesRecv)

/-- The messages passed to `print_output` when the stream of the server arrives in these pieces. -/
def printed (cuts : List (List UInt8)) : List SubMessage :=
  cuts.filterMap fun bytesRecv => match handleServerMessage bytesRecv with
    | .print response => some response
    | .close => none

variable {cuts : List (List UInt8)} {msgs : List SubMessage}

/-- Every piece is printed as a message. -/
lemma printed_eq (hne : ∀ c ∈ cuts, c ≠ []) : printed cuts = cuts.map SubMessage.dec := by
  unfold printed
  rw [← List.filterMap_eq_map]
  apply List.filterMap_congr
  intro c hc
  simp [handleServerMessage, hne c hc]

/-- **The messages sent are the messages printed exactly when every piece is one message.** -/
theorem printed_eq_iff (h : IsCut subMessageCodec.size cuts (subMessageCodec.stream msgs)) :
    printed cuts = msgs ↔ cuts = msgs.map SubMessage.enc := by
  rw [printed_eq h.ne_nil]
  exact subMessageCodec.map_dec_eq_iff h

/-- A message with nothing in it. -/
def emptyMessage : SubMessage := SubMessage.dec []

theorem printed_eq_iff_two : printed (List.map SubMessage.enc [emptyMessage, emptyMessage]) =
    [emptyMessage, emptyMessage] :=
  (printed_eq_iff (subMessageCodec.isCut_map_enc (by decide) _)).mpr rfl

/-- One message that arrives in two pieces is printed as two messages. -/
theorem not_printed_eq : ¬ ∀ msgs cuts,
    IsCut subMessageCodec.size cuts (subMessageCodec.stream msgs) → printed cuts = msgs := by
  intro h
  have hcut := subMessageCodec.isCut_split (k := 1000) (by decide) (by decide) emptyMessage
  have hlen := congrArg List.length (h [emptyMessage] _ hcut)
  rw [printed_eq hcut.ne_nil] at hlen
  simp at hlen

end Subscriber

end Protocoale.Tema2

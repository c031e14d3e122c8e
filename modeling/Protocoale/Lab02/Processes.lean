import Protocoale.Lib.CText
import Protocoale.Lib.Duet

/-!
The file transfer of the second laboratory (`send.c`, `recv.c`, `link_emulator/lib.h`): two
processes over a link that keeps the order and loses nothing. A state of a process is a place of its
program before a `send_message` or a `recv_message`, with the variables that are used from there on.

The sender is given what the system calls on each file return: the offset of `lseek`, and the results
of the successive calls of `read`. What the receiver does is not defined where `strcpy` or `strcat`
run past an array, or `write` past the message.
-/

namespace Protocoale.Lab02

open Lib Lib.Bytes Lib.CText Lib.Duet

@[simp] abbrev MAX_LEN : ℕ := 1400

/-- `msg`. A message is sent whole; the bytes of the payload behind the text stay what they were. -/
structure Msg where
  len : ℤ
  payload : Buf

/-- The message with a string, terminator included, at the start of the payload. -/
def Msg.put (m : Msg) (len : ℤ) (s : List UInt8) : Msg :=
  { len, payload := write m.payload 0 (s ++ [0]) }

/-- The C string in the payload. -/
def Msg.str (m : Msg) : List UInt8 := cstr (read m.payload 0 MAX_LEN)

/-! ### The sender -/

/-- An argument of the sender, and what the system calls on the file of that name give. -/
structure Source where
  name : List UInt8
  /-- `lseek(source, 0, SEEK_END)` -/
  size : ℤ
  /-- The successive results of `read(source, t.payload, MAX_LEN)`, `none` for an error. -/
  read : ℕ → Option (List UInt8)
  name_ok : 0 ∉ name
  read_le : ∀ k bytes, read k = some bytes → bytes.length ≤ MAX_LEN

/-- The places of the sender; `t` is the message in `main`, which the replies do not change, and
`k` counts the calls of `read`. -/
inductive Sender where
  /-- before the number of files is sent -/
  | number (t : Msg) (sources : List Source)
  /-- at the head of the loop over the files -/
  | name (t : Msg) (sources : List Source)
  /-- in `handle_response`, after the name -/
  | nameReply (t : Msg) (source : Source) (sources : List Source)
  /-- before the size is sent -/
  | size (t : Msg) (source : Source) (sources : List Source)
  /-- in `handle_response`, after the size -/
  | sizeReply (t : Msg) (source : Source) (sources : List Source)
  /-- at the head of the loop over the content -/
  | content (t : Msg) (source : Source) (sources : List Source) (k : ℕ)
  /-- in `handle_response`, after a part of the content -/
  | contentReply (t : Msg) (source : Source) (sources : List Source) (k : ℕ)

/-- From the head of the loop over the files on. -/
def Sender.sendName (t : Msg) : List Source → Act Sender Msg
  | [] => .done
  | source :: sources =>
    if source.name.length < MAX_LEN then
      let t' := t.put (source.name.length + 1) source.name
      .send t' (.nameReply t' source sources)
    else .fault

/-- `main` of the sender. -/
def Sender.next : Sender → Act Sender Msg
  | .number t sources =>
    let t' := t.put sources.length (text "number of files")
    .send t' (.name t' sources)
  | .name t sources => sendName t sources
  | .nameReply t source sources => .recv fun _ => .size t source sources
  | .size t source sources =>
    let t' := t.put source.size (text "file size")
    .send t' (.sizeReply t' source sources)
  | .sizeReply t source sources => .recv fun _ => .content t source sources 0
  | .content t source sources k =>
    match source.read k with
    | some [] => sendName t sources
    | some bytes =>
      let t' : Msg := { len := bytes.length, payload := write t.payload 0 bytes }
      .send t' (.contentReply t' source sources (k + 1))
    | none =>
      -- the loop ends at 0 only, and an error is -1
      let t' : Msg := { t with len := -1 }
      .send t' (.contentReply t' source sources (k + 1))
  | .contentReply t source sources k => .recv fun _ => .content t source sources k

/-! ### The receiver -/

/-- The variables the receiver keeps from one file to the next, and the copies closed so far with the
bytes written to each. -/
structure Received where
  r : Msg
  filesNumber : ℤ
  i : ℤ
  written : List (List UInt8 × List UInt8)

/-- The places of the receiver. -/
inductive Receiver where
  /-- before the number of files is received -/
  | number (r : Msg)
  /-- at the head of the loop over the files -/
  | name (c : Received)
  /-- after the name -/
  | nameAck (c : Received)
  /-- before the size is received -/
  | size (c : Received) (filename : List UInt8)
  /-- after the size -/
  | sizeAck (c : Received) (filename : List UInt8)
  /-- at the head of the loop over the content, with the bytes written so far -/
  | content (c : Received) (copyFilename copied : List UInt8) (count : ℤ)
  /-- after a part of the content -/
  | contentAck (c : Received) (copyFilename copied : List UInt8) (count : ℤ)

/-- The message of an acknowledgement. -/
def Msg.ack (r : Msg) : Msg := r.put 4 (text "ACK")

/-- From the head of the loop over the files on. -/
def Receiver.recvName (c : Received) : Act Receiver Msg :=
  if c.i < c.filesNumber then .recv fun m => .nameAck { c with r := m } else .done

/-- The number of messages a content of some size comes in. -/
def chunks (size : ℤ) : ℤ :=
  if size.tmod MAX_LEN = 0 then size.tdiv MAX_LEN else size.tdiv MAX_LEN + 1

/-- `main` of the receiver. -/
def Receiver.next : Receiver → Act Receiver Msg
  | .number _ => .recv fun m => .name { r := m, filesNumber := m.len, i := 0, written := [] }
  | .name c => recvName c
  | .nameAck c =>
    if c.r.str.length < 32 then
      .send c.r.ack (.size { c with r := c.r.ack } c.r.str)
    else .fault
  | .size c filename => .recv fun m => .sizeAck { c with r := m } filename
  | .sizeAck c filename =>
    match strcat 38 (text "copy_") filename with
    | none => .fault
    | some copyFilename =>
      .send c.r.ack (.content { c with r := c.r.ack } copyFilename [] (chunks c.r.len))
  | .content c copyFilename copied count =>
    if 0 < count then .recv fun m => .contentAck { c with r := m } copyFilename copied count
    else recvName { c with i := c.i + 1, written := c.written ++ [(copyFilename, copied)] }
  | .contentAck c copyFilename copied count =>
    if 0 ≤ c.r.len ∧ c.r.len ≤ MAX_LEN then
      .send c.r.ack (.content { c with r := c.r.ack } copyFilename
        (copied ++ read c.r.payload 0 c.r.len.toNat) (count - 1))
    else .fault

/-- The copies opened so far, with the bytes written to each. -/
def Receiver.copies : Receiver → List (List UInt8 × List UInt8)
  | .number _ => []
  | .name c | .nameAck c | .size c _ | .sizeAck c _ => c.written
  | .content c copyFilename copied _ | .contentAck c copyFilename copied _ =>
    c.written ++ [(copyFilename, copied)]

/-! ### The two together -/

/-- `send` with its arguments and `recv`, started with any bytes in their messages. -/
def start (t r : Msg) (sources : List Source) : Sys Sender Receiver Msg :=
  ⟨.number t sources, .number r, [], []⟩

/-- A readable file in the current directory. -/
structure File where
  name : List UInt8
  content : List UInt8
  name_le : name.length ≤ 31
  name_ok : 0 ∉ name
  name_slash : 47 ∉ name
  size : content.length < 2 ^ 31

/-- What the system calls give on a readable file. -/
def File.source (file : File) : Source where
  name := file.name
  size := file.content.length
  read k := some ((file.content.drop (MAX_LEN * k)).take MAX_LEN)
  name_ok := file.name_ok
  read_le k bytes h := by
    cases h
    exact List.length_take_le _ _

end Protocoale.Lab02

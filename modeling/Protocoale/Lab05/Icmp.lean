import Protocoale.Lib.Session
import Protocoale.Tema1.Checksums

/-!
The ping and the traceroute of the laboratory on ICMP (`icmp.c`, `utils.c`). Their raw socket receives
every frame, so that `time_packet` receives until one is for this machine and carries ICMP; it compares
nothing with the request. A frame is received over what the reply held before, at first what was on the
stack.

The addresses of the interface and the hardware address of the gateway do not change, and the checksum
is the routine of the router. Times are left out.
-/

namespace Protocoale.Lab05

open Lib Lib.Bytes Lib.Session
open Tema1 (Mac bytes16 htons ipChecksum load32 ETHERTYPE_IP IPPROTO_ICMP ICMP_ECHO ICMP_ECHOREPLY)

@[simp] abbrev PACKET_LEN : ℕ := 1500

/-- `packet`. -/
structure Packet where
  payload : Buf
  size : ℕ

/-- `init_packet`. -/
def initPacket : Packet := ⟨fun _ => 0, 0⟩

/-- What `arp_resolve` finds for the default gateway, and `get_interface_mac` and `get_interface_ip`. -/
structure Env where
  gatewayMac : Mac
  mac : Mac
  ip : UInt32

/-! ### Requests -/

/-- What differs between the requests. -/
structure Request where
  ttl : UInt8
  id : ℕ
  sequence : ℕ

/-- `init_eth_hdr`. -/
def initEthHdr (env : Env) (b : Buf) : Buf :=
  let b := write b 0 env.gatewayMac.toList
  let b := write b 6 env.mac.toList
  write b 12 (bytes16 (htons ETHERTYPE_IP))

/-- The IP header of a request with no checksum, over the one of the request before. -/
def ipFields (env : Env) (ipAddr : UInt32) (ttl : UInt8) (b : Buf) : Buf :=
  let b := write b 14 [0x45]
  let b := write b 23 [IPPROTO_ICMP]
  let b := write b 15 [0]
  let b := write b 30 (bytes32 ipAddr)
  let b := write b 26 (bytes32 env.ip)
  let b := write b 16 (bytes16 (htons 28))
  let b := write b 22 [ttl]
  write b 24 (bytes16 0)

/-- The IP header of a request. -/
def setIpHdr (env : Env) (ipAddr : UInt32) (ttl : UInt8) (b : Buf) : Buf :=
  let b := ipFields env ipAddr ttl b
  write b 24 (bytes16 (ipChecksum 14 (read b 14 20)))

/-- The ICMP header of a request with no checksum. -/
def icmpFields (id sequence : ℕ) (b : Buf) : Buf :=
  let b := write b 35 [0]
  let b := write b 34 [ICMP_ECHO]
  let b := write b 38 (bytes16 id)
  let b := write b 40 (bytes16 (htons sequence))
  write b 36 (bytes16 0)

/-- The ICMP header of a request. -/
def setIcmpHdr (id sequence : ℕ) (b : Buf) : Buf :=
  let b := icmpFields id sequence b
  write b 36 (bytes16 (ipChecksum 34 (read b 34 8)))

/-- The packet of a request, over the one before. -/
def setHdrs (env : Env) (ipAddr : UInt32) (request : Request) (pkt : Packet) : Packet where
  payload := setIcmpHdr request.id request.sequence (setIpHdr env ipAddr request.ttl pkt.payload)
  size := 42

/-! ### Replies -/

/-- `recv` into the reply. -/
def recv (reply : Packet) (frame : List UInt8) : Packet where
  payload := write reply.payload 0 (frame.take PACKET_LEN)
  size := (frame.take PACKET_LEN).length

/-- `relevant_packet`. -/
def relevantPacket (env : Env) (reply : Packet) : Bool :=
  read reply.payload 0 6 = env.mac.toList ∧
    Bytes.be16 (reply.payload 12) (reply.payload 13) = ETHERTYPE_IP ∧ reply.payload 23 = IPPROTO_ICMP

/-- `time_packet`, from the first `recv` on: the reply, and the frames that are left. It waits for ever
when no frame is relevant. -/
def timePacket (env : Env) (reply : Packet) : List (List UInt8) → Option (Packet × List (List UInt8))
  | [] => none
  | frame :: frames =>
    let reply := recv reply frame
    if relevantPacket env reply then some (reply, frames) else timePacket env reply frames

/-- The loops of `ping` and `traceroute`: the frames sent, and the replies. Each request comes with what
is on the stack where its reply goes. -/
def requests (env : Env) (ipAddr : UInt32) (stop : Packet → Bool) :
    List (Request × Packet) → Packet → List (List UInt8) → List (List UInt8) × List Packet
  | [], _, _ => ([], [])
  | (request, reply) :: rs, pkt, frames =>
    let pkt := setHdrs env ipAddr request pkt
    let sent := read pkt.payload 0 pkt.size
    match timePacket env reply frames with
    | none => ([sent], [])
    | some (reply, frames) =>
      if stop reply then ([sent], [reply])
      else
        let q := requests env ipAddr stop rs pkt frames
        (sent :: q.1, reply :: q.2)

/-- The packet before the first request. -/
def firstPacket (env : Env) : Packet :=
  { initPacket with payload := initEthHdr env initPacket.payload }

/-- The first `n` requests of a loop, its `i`-th reply on the stack at `stack i`. -/
def numbered (request : ℕ → Request) (stack : ℕ → Packet) (n : ℕ) : List (Request × Packet) :=
  (List.range n).map fun i => (request i, stack i)

/-! ### Ping -/

/-- What `ping` prints of a reply. -/
structure PingLine where
  bytes : ℕ
  icmpSeq : ℕ
  ttl : UInt8
  deriving DecidableEq

def pingLine (reply : Packet) : PingLine where
  bytes := Bytes.be16 (reply.payload 16) (reply.payload 17)
  icmpSeq := Bytes.be16 (reply.payload 40) (reply.payload 41)
  ttl := reply.payload 22

/-- The count `ping` has in its loop: `-1` is converted to an `unsigned short`. -/
def pingCount (count : ℤ) : ℕ := if count = -1 then 65535 else count.toNat

/-- The requests of `ping`. -/
def pingRequest (i : ℕ) : Request := ⟨64, 0, i + 1⟩

/-- `ping`. -/
def ping (env : Env) (ipAddr : UInt32) (count : ℤ) (stack : ℕ → Packet) (frames : List (List UInt8)) :
    List (List UInt8) × List PingLine :=
  let q := requests env ipAddr (fun _ => false) (numbered pingRequest stack (pingCount count))
    (firstPacket env) frames
  (q.1, q.2.map pingLine)

/-! ### Traceroute -/

/-- What `traceroute` prints of a reply: the counter and the address it came from. -/
structure HopLine where
  counter : ℕ
  addr : UInt32
  deriving DecidableEq

/-- The requests of `traceroute`, where `counter` is `i + 1`. -/
def hopRequest (i : ℕ) : Request := ⟨UInt8.ofNat (i + 1), 42, i + 1⟩

/-- `traceroute`. -/
def traceroute (env : Env) (ipAddr : UInt32) (stack : ℕ → Packet) (frames : List (List UInt8)) :
    List (List UInt8) × List HopLine :=
  let q := requests env ipAddr (fun reply => reply.payload 34 = ICMP_ECHOREPLY)
    (numbered hopRequest stack 64) (firstPacket env) frames
  (q.1, q.2.zipIdx.map fun x => ⟨x.2 + 1, load32 x.1.payload 26⟩)

end Protocoale.Lab05

import Protocoale.Lib.Run
import Protocoale.Tema1.RTable
import Protocoale.Tema1.Skel

/-!
The router (`router.c`): its tables and its queue, `get_arp_entry`, `forward_packet`, and one
iteration of the main loop for each frame received.

The ARP table is the entries in use and the number of bytes of the block they lie in. A step is
not defined (`none`) where the table is read or written outside the block. The queue holds the
addresses of local copies of packets; here it holds the copies, as if their storage kept its bytes. The
router with the addresses is `PtrRouter`, and what is said of packets that wait is said of it: the two
agree as long as no storage in use is given out again (`PtrRouter.exec_view`).
-/

namespace Protocoale.Tema1

open Lib Lib.Bytes

@[simp] abbrev ARP_MAXSIZE : ℕ := 100

structure ArpTableEntry where
  ip : UInt32
  mac : Mac
  deriving DecidableEq

/-- `sizeof(struct arp_table_entry)`: ten bytes, padded to a multiple of four. -/
@[simp] abbrev arpEntrySize : ℕ := 12

/-- The variables of the router. -/
structure Router where
  rtable : List RouteTableEntry
  /-- The first `arp_table_size` entries of `arp_table`. -/
  arpTable : List ArpTableEntry
  arpMaxSize : ℕ
  /-- The bytes of the block `arp_table` points to. -/
  arpBlock : ℕ
  packets : List Packet
  m : Packet

namespace Router

/-- The router when it enters the main loop. -/
def init (rtable : List RouteTableEntry) (m : Packet) : Router where
  rtable := rtable
  arpTable := []
  arpMaxSize := ARP_MAXSIZE
  arpBlock := arpEntrySize * ARP_MAXSIZE
  packets := []
  m := m

/-! ### The ARP table -/

/-- `get_arp_entry`, from the index `i` on. -/
def findArp (block : ℕ) (ip : UInt32) (i : ℕ) :
    List ArpTableEntry → Option (Option ArpTableEntry)
  | [] => some none
  | e :: es =>
    if block < arpEntrySize * (i + 1) then none
    else if ip = e.ip then some (some e)
    else findArp block ip (i + 1) es

/-- `get_arp_entry`. -/
def getArpEntry (s : Router) (ip : UInt32) : Option (Option ArpTableEntry) :=
  findArp s.arpBlock ip 0 s.arpTable

/-- The ARP table gets a new entry, and a new block when the entries are as many as
`arp_max_size`. The new block is asked for in bytes. -/
def addArpEntry (s : Router) (e : ArpTableEntry) : Option Router :=
  if s.arpBlock < arpEntrySize * (s.arpTable.length + 1) then none
  else
    let s := { s with arpTable := s.arpTable ++ [e] }
    if s.arpTable.length = s.arpMaxSize then
      let arpMaxSize := s.arpMaxSize * 2
      some { s with arpMaxSize, arpBlock := arpMaxSize }
    else some s

/-! ### Forwarding -/

/-- The route of a packet. With more than `2 ^ 30` routes the search may overflow (`searchTable`), which
is left out here. -/
def bestRoute (s : Router) (m : Packet) : Option RouteTableEntry :=
  getBestRoute s.rtable m.daddr 0 (s.rtable.length - 1)

/-- The TTL lowered and the checksum recomputed. -/
def updateHdr (m : Packet) : Packet :=
  let p := write m.payload 22 [m.ttl - 1]
  let p := write p 24 (bytes16 0)
  let p := write p 24 (bytes16 (ipChecksum ipHdrAddr (read p 14 20)))
  { m with payload := p }

/-- The Ethernet addresses overwritten. -/
def setEther (m : Packet) (dhost shost : Mac) : Packet :=
  { m with payload := write (write m.payload 0 dhost.toList) 6 shost.toList }

/-- `send_packet`, called by `forward_packet`. -/
def sendPacket (interface : ℤ) (m : Packet) : Sent where
  via := .forwardPacket
  interface := interface
  data := read m.payload 0 m.len

def broadcastMac : Mac := Vector.replicate 6 0xff

/-- The answer to a packet that is not forwarded. -/
def icmpError (m : Packet) (type : UInt8) : Sent :=
  sendIcmpError m.saddr m.daddr m.etherDhost m.etherShost type 0 m.interface

/-- The request for the hardware address of the next hop. -/
def arpRequest (env : Env) (route : RouteTableEntry) : Sent :=
  sendArp route.nextHop (env.interfaceIp route.interface)
    (env.interfaceMac route.interface).toList broadcastMac.toList route.interface
    (htons ARPOP_REQUEST)

/-- `forward_packet`: the tables and the queue, the packet as it is left, and what is sent. -/
def forwardPacket (env : Env) (s : Router) (m : Packet) : Option (Router × Packet × List Sent) :=
  if ipChecksum ipHdrAddr m.ipHdr ≠ 0 then some (s, m, [])
  else if m.ttl ≤ 1 then some (s, m, [icmpError m ICMP_TIME_EXCEEDED])
  else
    match s.bestRoute m with
    | none => some (s, m, [icmpError m ICMP_DEST_UNREACH])
    | some route =>
      let m := updateHdr m
      (s.getArpEntry route.nextHop).map fun entry =>
        match entry with
        | none => ({ s with packets := s.packets ++ [m] }, m, [arpRequest env route])
        | some entry =>
          let m := setEther m entry.mac (env.interfaceMac route.interface)
          (s, m, [sendPacket route.interface m])

/-! ### The main loop -/

/-- An IP packet whose protocol is ICMP and whose destination is the interface it came in on. -/
def icmpForMe (env : Env) (m : Packet) : Bool :=
  m.protocol = IPPROTO_ICMP ∧ m.daddr = env.interfaceIp m.interface

/-- An IP packet. -/
def handleIp (env : Env) (s : Router) : Option (Router × List Sent) :=
  if icmpForMe env s.m then
    if s.m.icmpType = ICMP_ECHO then
      some (s, [sendIcmp s.m.saddr s.m.daddr s.m.etherDhost s.m.etherShost ICMP_ECHOREPLY 0
        s.m.interface s.m.icmpEcho])
    else some (s, [])
  else (forwardPacket env s s.m).map fun r => ({ r.1 with m := r.2.1 }, r.2.2)

/-- An ARP request: the Ethernet header is turned around in place before the reply is sent. -/
def handleArpRequest (env : Env) (s : Router) : Router × List Sent :=
  if s.m.arpTpa = env.interfaceIp s.m.interface then
    let mac := env.interfaceMac s.m.interface
    let shost := s.m.etherShost
    ({ s with m := { s.m with payload := write (write s.m.payload 0 shost) 6 mac.toList } },
      [sendArp s.m.arpSpa s.m.arpTpa mac.toList shost s.m.interface (htons ARPOP_REPLY)])
  else (s, [])

/-- An ARP packet that is not a request: its sender is entered in the table and the first packet
of the queue is forwarded. -/
def handleArpReply (env : Env) (s : Router) : Option (Router × List Sent) :=
  (s.addArpEntry { ip := s.m.arpSpa, mac := s.m.arpSha }).bind fun s =>
    match s.packets with
    | [] => some (s, [])
    | toSend :: packets =>
      (forwardPacket env { s with packets } toSend).map fun r => (r.1, r.2.2)

/-- One iteration of the main loop. -/
def step (env : Env) (s : Router) (f : Frame) : Option (Router × List Sent) :=
  let s := { s with m := getPacket s.m f }
  if s.m.etherType = ETHERTYPE_IP then handleIp env s
  else if s.m.etherType = ETHERTYPE_ARP then
    if s.m.arpOp = ARPOP_REQUEST then some (handleArpRequest env s)
    else handleArpReply env s
  else some (s, [])

end Router

end Protocoale.Tema1

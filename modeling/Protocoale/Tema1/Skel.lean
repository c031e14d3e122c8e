import Protocoale.Tema1.Checksum

/-!
The part of the router that came with the assignment (`skel.c`): packets, the interfaces, the
frames it builds and the headers it reads.

A received frame is written over what the buffer held before, so that a header that is read may
reach into the bytes of an earlier frame. What `ioctl` says about the interfaces does not change.
-/

namespace Protocoale.Tema1

open Lib.Bytes

@[simp] abbrev MAX_LEN : ℕ := 1600
@[simp] abbrev ROUTER_NUM_INTERFACES : ℕ := 3

instance : NeZero ROUTER_NUM_INTERFACES := ⟨by decide⟩

@[simp] abbrev ETHERTYPE_IP : ℕ := 0x0800
@[simp] abbrev ETHERTYPE_ARP : ℕ := 0x0806
@[simp] abbrev ARPOP_REQUEST : ℕ := 1
@[simp] abbrev ARPOP_REPLY : ℕ := 2
@[simp] abbrev IPPROTO_ICMP : UInt8 := 1
@[simp] abbrev ICMP_ECHOREPLY : UInt8 := 0
@[simp] abbrev ICMP_DEST_UNREACH : UInt8 := 3
@[simp] abbrev ICMP_ECHO : UInt8 := 8
@[simp] abbrev ICMP_TIME_EXCEEDED : UInt8 := 11

/-- A hardware address. -/
abbrev Mac := Vector UInt8 6

/-- `packet`. -/
structure Packet where
  len : ℕ
  payload : Buf
  interface : ℤ

/-- What the interfaces are configured to: `get_interface_ip` and `get_interface_mac`. -/
structure Env where
  interfaceIp : ℤ → UInt32
  interfaceMac : ℤ → Mac

/-- The functions that call `send_packet`. -/
inductive Via where
  | forwardPacket | sendIcmp | sendIcmpError | sendArp
  deriving DecidableEq

/-- A frame passed to `send_packet`, and by which function. -/
structure Sent where
  via : Via
  interface : ℤ
  data : List UInt8
  deriving DecidableEq

/-- A frame that arrives on an interface. -/
structure Frame where
  interface : Fin ROUTER_NUM_INTERFACES
  data : List UInt8

/-- `get_packet`: at most `MAX_LEN` bytes are read over the payload. -/
def getPacket (m : Packet) (f : Frame) : Packet where
  len := (f.data.take MAX_LEN).length
  payload := write m.payload 0 (f.data.take MAX_LEN)
  interface := f.interface

/-- What was received is what the frame holds. -/
lemma getPacket_payload {m : Packet} {f : Frame} {i : ℕ} (h : i < (getPacket m f).len) :
    (getPacket m f).payload i = f.data.getD i 0 := by
  have hlen : i < (f.data.take MAX_LEN).length := h
  have hw : write m.payload 0 (f.data.take MAX_LEN) (0 + i) = (f.data.take MAX_LEN).getD i 0 :=
    write_apply hlen
  rw [Nat.zero_add] at hw
  refine hw.trans ?_
  rw [List.getD_eq_getElem _ _ hlen, List.getElem_take, List.getD_eq_getElem]

/-! ### Headers -/

/-- The value of the `uint32_t` at an offset. -/
def load32 (b : Buf) (off : ℕ) : UInt32 := le32 (b off) (b (off + 1)) (b (off + 2)) (b (off + 3))

lemma load32_congr {b b' : Buf} {off : ℕ} (h : ∀ i, off ≤ i → i < off + 4 → b i = b' i) :
    load32 b off = load32 b' off := by
  unfold load32
  rw [h off (by omega) (by omega), h (off + 1) (by omega) (by omega),
    h (off + 2) (by omega) (by omega), h (off + 3) (by omega) (by omega)]

namespace Packet

/-- `ntohs(eth_hdr->ether_type)` -/
def etherType (m : Packet) : ℕ := be16 (m.payload 12) (m.payload 13)
def etherDhost (m : Packet) : List UInt8 := read m.payload 0 6
def etherShost (m : Packet) : List UInt8 := read m.payload 6 6

/-- The 20 bytes of `*ip_hdr`. -/
def ipHdr (m : Packet) : List UInt8 := read m.payload 14 20
def ttl (m : Packet) : UInt8 := m.payload 22
def protocol (m : Packet) : UInt8 := m.payload 23
def saddr (m : Packet) : UInt32 := load32 m.payload 26
def daddr (m : Packet) : UInt32 := load32 m.payload 30

def icmpType (m : Packet) : UInt8 := m.payload 34
/-- The bytes of `icmp_hdr->un.echo.id` and `icmp_hdr->un.echo.sequence`. -/
def icmpEcho (m : Packet) : List UInt8 := read m.payload 38 4

/-- `ntohs(arp_hdr->op)` -/
def arpOp (m : Packet) : ℕ := be16 (m.payload 20) (m.payload 21)
def arpSha (m : Packet) : Mac := Vector.ofFn fun i => m.payload (22 + i)
def arpSpa (m : Packet) : UInt32 := load32 m.payload 28
def arpTpa (m : Packet) : UInt32 := load32 m.payload 38

end Packet

/-- `ip_hdr` points 14 bytes into the payload, which is 4 bytes into the packet. -/
@[simp] abbrev ipHdrAddr : ℕ := 18

/-! ### Frames -/

/-- The word of two bytes as the host has it. -/
def le16 (a b : UInt8) : ℕ := be16 b a

/-- The sum of the host's 16-bit words. The last one of an odd number of bytes takes in the byte
behind them. -/
def icmpSum (behind : UInt8) : List UInt8 → ℕ
  | [] => 0
  | [a] => le16 a behind
  | a :: b :: rest => le16 a b + icmpSum behind rest

/-- `icmp_checksum`, for a buffer with the byte `behind` in the memory after it. -/
def icmpChecksum (buffer : List UInt8) (behind : UInt8) : ℕ :=
  let cksum := icmpSum behind buffer
  let cksum := (cksum >>> 16) + (cksum &&& 0xffff)
  let cksum := cksum + (cksum >>> 16)
  (2 ^ 64 - 1 - cksum) % 65536

/-- `build_ethhdr`. -/
def buildEthhdr (sha dha : List UInt8) (type : ℕ) : List UInt8 := dha ++ sha ++ bytes16 type

/-- The IP header of a generated message: no options, 28 bytes in all, TTL 64. -/
def icmpIpHdr (daddr saddr : UInt32) : List UInt8 :=
  let hdr (check : ℕ) := [0x45, 0] ++ bytes16 (htons 28) ++ bytes16 (htons 1) ++ [0, 0, 64, IPPROTO_ICMP] ++
    bytes16 check ++ bytes32 saddr ++ bytes32 daddr
  hdr (ipChecksum 0 (hdr 0))

/-- The ICMP header of a generated message; `un` is the four bytes after the checksum. The size is
even, so that it does not matter what is behind it. -/
def icmpHdr (type code : UInt8) (un : List UInt8) : List UInt8 :=
  let hdr (checksum : ℕ) := [type, code] ++ bytes16 checksum ++ un
  hdr (icmpChecksum (hdr 0) 0)

/-- `send_icmp`. -/
def sendIcmp (daddr saddr : UInt32) (sha dha : List UInt8) (type code : UInt8) (interface : ℤ)
    (echo : List UInt8) : Sent where
  via := .sendIcmp
  interface := interface
  data := buildEthhdr sha dha (htons ETHERTYPE_IP) ++ icmpIpHdr daddr saddr ++ icmpHdr type code echo

/-- `send_icmp_error`. -/
def sendIcmpError (daddr saddr : UInt32) (sha dha : List UInt8) (type code : UInt8)
    (interface : ℤ) : Sent where
  via := .sendIcmpError
  interface := interface
  data := buildEthhdr sha dha (htons ETHERTYPE_IP) ++ icmpIpHdr daddr saddr ++
    icmpHdr type code [0, 0, 0, 0]

/-- `send_arp`. -/
def sendArp (daddr saddr : UInt32) (sha dha : List UInt8) (interface : ℤ) (arpOp : ℕ) : Sent where
  via := .sendArp
  interface := interface
  data := buildEthhdr sha dha (htons ETHERTYPE_ARP) ++ bytes16 (htons 1) ++ bytes16 (htons 2048) ++
    [6, 4] ++ bytes16 arpOp ++ sha ++ bytes32 saddr ++ dha ++ bytes32 daddr

end Protocoale.Tema1

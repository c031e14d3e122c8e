import Protocoale.Lab04.Routes
import Protocoale.Tema1.Forward

/-!
The main loop of the router of the fourth laboratory (`router.c`, `skel.c`), the first version of the one
of the homework: messages, headers, the checksum and the update of the TTL are the same code. The tables
are read from files before the loop and do not change.

An iteration takes the frame received to the frames sent. It is not defined (`none`) where the route is
used without one, and where its interface is none of the router's. The code looks for the route before it
updates the TTL and for the hardware address after it, and checks the second result only; so it forwards
as it should exactly when a packet with a hardware address has a route as well, a TTL that can be lowered
to one, and all of its header (`safe_iff`).
-/

namespace Protocoale.Lab04

open Lib Lib.Bytes Tema1 Tema1.Router

@[simp] abbrev ROUTER_NUM_INTERFACES : ℕ := 4

/-- `arp_entry` -/
structure ArpEntry where
  ip : UInt32
  mac : Mac

/-- The tables, and the message of `main` with the bytes of the frames before. -/
structure Router where
  rtable : List RouteTableEntry
  arpTable : List ArpEntry
  m : Packet

/-- A frame that arrives on an interface. -/
structure Frame where
  interface : Fin ROUTER_NUM_INTERFACES
  data : List UInt8

/-- A frame passed to `send_packet`. -/
structure Sent where
  interface : ℤ
  data : List UInt8

namespace Router

/-- `get_packet` -/
def getPacket (m : Packet) (f : Frame) : Packet where
  len := (f.data.take MAX_LEN).length
  payload := write m.payload 0 (f.data.take MAX_LEN)
  interface := f.interface

/-- `get_arp_entry` -/
def getArpEntry (s : Router) (ip : UInt32) : Option ArpEntry := s.arpTable.find? fun e => ip = e.ip

/-- The packet with its new addresses, and the frame sent, for the result of `get_best_route`. -/
def forward (env : Env) (m : Packet) (mac : Mac) :
    Option RouteTableEntry → Option (Packet × List Sent)
  | none => none
  | some entry =>
    if 0 ≤ entry.interface ∧ entry.interface < ROUTER_NUM_INTERFACES then
      let m := setEther m mac (env.interfaceMac entry.interface)
      some (m, [⟨entry.interface, read m.payload 0 m.len⟩])
    else none

/-- The body of the main loop, after `get_packet`. -/
def body (env : Env) (s : Router) (m : Packet) : Option (Packet × List Sent) :=
  if m.etherType ≠ ETHERTYPE_IP then some (m, [])
  else if ipChecksum ipHdrAddr m.ipHdr ≠ 0 then some (m, [])
  else if m.ttl ≤ 0 then some (m, [])
  else
    let entry := getBestRoute s.rtable m.daddr
    let m := updateHdr m
    match s.getArpEntry m.daddr with
    | none => some (m, [])
    | some aEntry => forward env m aEntry.mac entry

/-- One iteration of the main loop. -/
def step (env : Env) (s : Router) (f : Frame) : Option (Router × List Sent) :=
  (body env s (getPacket s.m f)).map fun r => ({ s with m := r.1 }, r.2)

/-! ### What forwarding means -/

/-- The packet `m` is forwarded as the frame `x`. -/
structure Forwards (s : Router) (m : Packet) (x : Sent) : Prop where
  /-- A route was found, and the frame leaves on its interface. -/
  route : ∃ entry, getBestRoute s.rtable m.daddr = some entry ∧ entry ∈ s.rtable ∧
    isMatch m.daddr entry ∧ x.interface = entry.interface
  /-- There is a whole IP header in the frame. -/
  header : 34 ≤ x.data.length
  ttl : ∃ ttl, x.data[22]? = some ttl ∧ ttl.toNat = m.ttl.toNat - 1 ∧ 1 ≤ ttl.toNat
  /-- Its checksum verifies wherever it is stored. -/
  verifies : ∀ addr, ipChecksum addr ((x.data.drop 14).take 20) = 0

/-- The iteration is defined, and sends nothing or one frame, which is the packet forwarded. -/
def Safe (env : Env) (s : Router) (f : Frame) : Prop :=
  ∃ s' out, step env s f = some (s', out) ∧
    (out = [] ∨ ∃ x, out = [x] ∧ Forwards s (getPacket s.m f) x)

/-- The checks before the search. -/
def Passes (m : Packet) : Prop :=
  m.etherType = ETHERTYPE_IP ∧ ipChecksum ipHdrAddr m.ipHdr = 0 ∧ 1 ≤ m.ttl.toNat

variable {env : Env} {s : Router} {f : Frame} {m : Packet} {aEntry : ArpEntry} {mac : Mac}

lemma ttl_le_zero_iff : m.ttl ≤ 0 ↔ ¬ 1 ≤ m.ttl.toNat := by
  rw [UInt8.le_iff_toNat_le]
  exact Nat.not_lt.symm

/-- A packet that does not pass, or whose destination has no hardware address, is dropped. -/
lemma body_drops (env : Env) (h : ¬ (Passes m ∧ ∃ aEntry, s.getArpEntry m.daddr = some aEntry)) :
    ∃ m', body env s m = some (m', []) := by
  unfold body
  by_cases htype : m.etherType = ETHERTYPE_IP
  · by_cases hck : ipChecksum ipHdrAddr m.ipHdr = 0
    · by_cases httl : 1 ≤ m.ttl.toNat
      · rw [if_neg (not_not.mpr htype), if_neg (not_not.mpr hck), if_neg (by rwa [ttl_le_zero_iff, not_not])]
        dsimp only
        rw [daddr_updateHdr]
        cases harp : s.getArpEntry m.daddr with
        | none => exact ⟨_, rfl⟩
        | some aEntry => exact absurd ⟨⟨htype, hck, httl⟩, aEntry, harp⟩ h
      · rw [if_neg (not_not.mpr htype), if_neg (not_not.mpr hck), if_pos (ttl_le_zero_iff.mpr httl)]
        exact ⟨_, rfl⟩
    · rw [if_neg (not_not.mpr htype), if_pos hck]
      exact ⟨_, rfl⟩
  · rw [if_pos htype]
    exact ⟨_, rfl⟩

/-- One that passes is forwarded. -/
lemma body_passes (h : Passes m) (harp : s.getArpEntry m.daddr = some aEntry) :
    body env s m = forward env (updateHdr m) aEntry.mac (getBestRoute s.rtable m.daddr) := by
  obtain ⟨htype, hck, httl⟩ := h
  unfold body
  rw [if_neg (not_not.mpr htype), if_neg (not_not.mpr hck), if_neg (by rwa [ttl_le_zero_iff, not_not])]
  dsimp only
  rw [daddr_updateHdr, harp]

/-- The frame of a forwarded packet. -/
def forwarded (env : Env) (m : Packet) (mac : Mac) (entry : RouteTableEntry) : Sent where
  interface := entry.interface
  data := read (setEther (updateHdr m) mac (env.interfaceMac entry.interface)).payload 0 m.len

lemma length_forwarded (env : Env) (m : Packet) (mac : Mac) (entry : RouteTableEntry) :
    (forwarded env m mac entry).data.length = m.len := read_length

/-- The frame is as it should be exactly when it has all of the header and a TTL left. -/
lemma forwards_forwarded_iff {entry : RouteTableEntry} (hroute : getBestRoute s.rtable m.daddr = some entry) :
    Forwards s m (forwarded env m mac entry) ↔ 34 ≤ m.len ∧ 2 ≤ m.ttl.toNat := by
  have httl (hlen : 34 ≤ m.len) : (forwarded env m mac entry).data[22]? = some (m.ttl - 1) := by
    rw [forwarded, read_getElem? (by omega), Nat.zero_add, setEther_of_ge (by omega), updateHdr_22]
  constructor
  · intro h
    have hlen : 34 ≤ m.len := length_forwarded env m mac entry ▸ h.header
    obtain ⟨ttl, -, hpred, hpos⟩ := h.ttl
    exact ⟨hlen, by omega⟩
  · rintro ⟨hlen, hge⟩
    constructor
    case route =>
      exact ⟨entry, hroute, List.mem_of_find?_eq_some hroute, List.find?_some hroute, rfl⟩
    case header => rwa [length_forwarded]
    case ttl =>
      have hle : (1 : UInt8) ≤ m.ttl := UInt8.le_iff_toNat_le.mpr (show 1 ≤ m.ttl.toNat by omega)
      have hsub : (m.ttl - 1).toNat = m.ttl.toNat - 1 := UInt8.toNat_sub_of_le _ _ hle
      exact ⟨m.ttl - 1, httl hlen, hsub, by omega⟩
    case verifies => exact sendPacket_verifies entry.interface hlen

/-- With a route, a packet is forwarded on its interface when the router has it. -/
lemma forward_some (env : Env) (m : Packet) (mac : Mac) {entry : RouteTableEntry}
    (h : 0 ≤ entry.interface ∧ entry.interface < ROUTER_NUM_INTERFACES) :
    forward env (updateHdr m) mac (some entry) =
      some (setEther (updateHdr m) mac (env.interfaceMac entry.interface), [forwarded env m mac entry]) :=
  if_pos h

/-- **The loop body forwards as it should exactly when** a packet that passes the checks and has a
hardware address for its destination also has a route on one of the interfaces, all of its header, and a
TTL of two or more. -/
theorem safe_iff (env : Env) (s : Router) (f : Frame) : Safe env s f ↔
    let m := getPacket s.m f
    Passes m → (∃ aEntry, s.getArpEntry m.daddr = some aEntry) →
      (∃ entry, getBestRoute s.rtable m.daddr = some entry ∧ 0 ≤ entry.interface ∧
        entry.interface < ROUTER_NUM_INTERFACES) ∧ 34 ≤ f.data.length ∧ 2 ≤ m.ttl.toNat := by
  have hlen : 34 ≤ (getPacket s.m f).len ↔ 34 ≤ f.data.length := by
    show 34 ≤ (f.data.take MAX_LEN).length ↔ 34 ≤ f.data.length
    rw [List.length_take]
    exact le_min_iff.trans (and_iff_right (by decide))
  dsimp only
  rw [← hlen]
  generalize hm : getPacket s.m f = m
  constructor
  · rintro ⟨s', out, hstep, hout⟩ hpass ⟨aEntry, harp⟩
    obtain ⟨⟨m', out'⟩, hbody, he⟩ := Option.map_eq_some_iff.mp hstep
    cases he
    rw [hm] at hbody hout
    rw [body_passes hpass harp] at hbody
    cases hroute : getBestRoute s.rtable m.daddr with
    | none => rw [hroute] at hbody; cases hbody
    | some entry =>
      rw [hroute] at hbody
      by_cases hinterface : 0 ≤ entry.interface ∧ entry.interface < ROUTER_NUM_INTERFACES
      · rw [forward_some env m aEntry.mac hinterface] at hbody
        cases hbody
        obtain hnil | ⟨x, hx, hforwards⟩ := hout
        · cases hnil
        · cases hx
          exact ⟨⟨entry, rfl, hinterface⟩, (forwards_forwarded_iff hroute).mp hforwards⟩
      · rw [forward, if_neg hinterface] at hbody
        cases hbody
  · intro h
    by_cases hdrop : Passes m ∧ ∃ aEntry, s.getArpEntry m.daddr = some aEntry
    · obtain ⟨hpass, aEntry, harp⟩ := hdrop
      obtain ⟨⟨entry, hroute, hinterface⟩, hgood⟩ := h hpass ⟨aEntry, harp⟩
      refine ⟨{ s with m := setEther (updateHdr m) aEntry.mac (env.interfaceMac entry.interface) },
        [forwarded env m aEntry.mac entry], ?_, Or.inr ⟨_, rfl, ?_⟩⟩
      · rw [step, hm, body_passes hpass harp, hroute, forward_some env m aEntry.mac hinterface]
        rfl
      · rw [hm]
        exact (forwards_forwarded_iff hroute).mpr hgood
    · obtain ⟨m', hbody⟩ := body_drops env hdrop
      refine ⟨{ s with m := m' }, [], ?_, Or.inl rfl⟩
      rw [step, hm, hbody]
      rfl

/-- A packet with the TTL `ttl` and a right checksum for it, to `10.0.1.8`. -/
def frameTo8 (ttl checkHigh : UInt8) : Frame where
  interface := 0
  data := [2, 0, 0, 0, 0, 1, 2, 0, 0, 0, 0, 2, 8, 0, 0x45, 0, 0, 20, 0, 0, 0, 0, ttl, 17, checkHigh, 209,
    10, 0, 0, 1, 10, 0, 1, 8]

/-- A router that knows the hardware address of `10.0.1.8`. -/
def router8 (rtable : List RouteTableEntry) : Router :=
  ⟨rtable, [⟨le32 10 0 1 8, Vector.replicate 6 8⟩], ⟨0, fun _ => 0, 0⟩⟩

/-- Without a route the null pointer is used; with one, a packet leaves with a TTL of zero. -/
theorem not_safe : ¬ Safe testEnv (router8 []) (frameTo8 64 101) ∧
    ¬ Safe testEnv (router8 [⟨le32 10 0 1 8, le32 10 0 1 8, le32 255 255 255 255, 1⟩])
      (frameTo8 1 164) := by
  constructor
  · rintro ⟨s', out, hstep, -⟩
    have hnone : (step testEnv (router8 []) (frameTo8 64 101)).isSome = false := by decide +kernel
    rw [hstep] at hnone
    cases hnone
  · rintro ⟨s', out, hstep, hout⟩
    have hzero : (step testEnv (router8 [⟨le32 10 0 1 8, le32 10 0 1 8, le32 255 255 255 255, 1⟩])
        (frameTo8 1 164)).map (fun r => r.2.map fun x => x.data[22]?) = some [some 0] := by decide +kernel
    rw [hstep] at hzero
    obtain rfl | ⟨x, rfl, hforwards⟩ := hout
    · cases hzero
    · obtain ⟨ttl, httl, -, hpos⟩ := hforwards.ttl
      rw [Option.map_some, List.map_singleton, httl] at hzero
      cases hzero
      exact absurd hpos (by decide)

end Router

end Protocoale.Lab04

import Protocoale.Lib.Orbit
import Protocoale.Tema1.Checksums
import Protocoale.Tema1.Reception

/-!
Two routers on a common link. A frame that one of them puts on the link is received by the other
one, which may put a frame on the link in turn. A forwarded packet ends when its TTL does, but a
packet that is not forwarded is answered, an ICMP error is answered like any other packet, and every
answer starts with a TTL of 64. Between two addresses there are four kinds of answers, by the side
they go to and the address they go to (`next`); whether all the exchanges between the two addresses
end is decided by those (`quiesces_iff`).
-/

namespace Protocoale.Tema1

open Lib Lib.Bytes Lib.Ones

/-! ### The system -/

/-- Two routers' interfaces, and the one each of them is on the link with. -/
structure Link where
  env : Bool → Env
  port : Bool → Fin ROUTER_NUM_INTERFACES

/-- The index of the interface. -/
def Link.interface (L : Link) (b : Bool) : ℤ := (L.port b : ℕ)

/-- The routers, and the frames on the link with the side each of them goes to. -/
structure Exchange where
  routers : Bool → Router
  flight : List (Bool × List UInt8)

/-- The frames sent by a side that go over the link. -/
def Link.crossing (L : Link) (b : Bool) (out : List Sent) : List (Bool × List UInt8) :=
  (out.filter fun x => x.interface = L.interface b).map fun x => (!b, x.data)

namespace Exchange

/-- The first frame on the link is received. There is no step when the link is empty. -/
def step (L : Link) (c : Exchange) : Option Exchange :=
  match c.flight with
  | [] => none
  | (b, data) :: rest => ((c.routers b).step (L.env b) ⟨L.port b, data⟩).map fun r =>
      { routers := Function.update c.routers b r.1, flight := rest ++ L.crossing b r.2 }

/-- Only finitely many frames are exchanged: the link gets empty. -/
def Quiesces (L : Link) (c : Exchange) : Prop := Orbit.Reaches (step L) (fun c => c.flight = []) c

end Exchange

/-- The ARP table has the next hop of every route. -/
def Router.Resolved (s : Router) : Prop :=
  ∀ route ∈ s.rtable, ∃ entry, s.getArpEntry route.nextHop = some (some entry)

/-- What becomes of an ICMP message to an address on the side `b`: it is kept by the router or routed
to another network, it has no route and is answered, or it is routed back across the link. -/
inductive Fate where
  | kept | unroutable | across
  deriving DecidableEq

/-- The fate of messages to `d` on the side `b`, by the routing tables. -/
def fate (L : Link) (rtable : Bool → List RouteTableEntry) (b : Bool) (d : UInt32) : Fate :=
  if d = (L.env b).interfaceIp (L.interface b) then .kept
  else
    match getBestRoute (rtable b) d 0 ((rtable b).length - 1) with
    | none => .unroutable
    | some route => if route.interface = L.interface b then .across else .kept

/-- The address a message goes to: messages go between `x` and `y`, to `y` when `o` holds. -/
def target (x y : UInt32) (o : Bool) : UInt32 := if o then y else x

/-- The answer that an answer with a full TTL leads to, `(b, o)` being the side it goes to and
whether it goes to `y`. A message that both sides route across the link goes to and fro until its TTL
ends, on the other side. -/
def next (L : Link) (rtable : Bool → List RouteTableEntry) (x y : UInt32) :
    Bool × Bool → Option (Bool × Bool)
  | (b, o) =>
    match fate L rtable b (target x y o) with
    | .kept => none
    | .unroutable => some (!b, !o)
    | .across =>
      match fate L rtable (!b) (target x y o) with
      | .kept => none
      | _ => some (b, !o)

/-! ### Packets of an exchange -/

/-- The packet a frame on the link is received as. -/
def linkPacket (data : List UInt8) : Packet := Router.framePacket ⟨0, data⟩

namespace Packet

/-- An IPv4 packet from `src` to `dst` with a TTL of `t`, and a whole header. -/
structure Datagram (p : Packet) (src dst : UInt32) (t : ℕ) : Prop where
  len : 34 ≤ p.len
  etherType : p.etherType = ETHERTYPE_IP
  saddr : p.saddr = src
  daddr : p.daddr = dst
  ttl : p.ttl.toNat = t

/-- An ICMP message, not an echo request, whose header verifies. -/
structure Message (p : Packet) (src dst : UInt32) (t : ℕ) : Prop extends Datagram p src dst t where
  icmpLen : 35 ≤ p.len
  protocol : p.protocol = IPPROTO_ICMP
  icmpType : p.icmpType ≠ ICMP_ECHO
  verifies : ipChecksum ipHdrAddr p.ipHdr = 0

variable {p p' m : Packet} {src dst : UInt32} {t : ℕ} {data : List UInt8} {dhost shost : Mac}
  {j : Fin ROUTER_NUM_INTERFACES}

lemma Datagram.of_same (h : Datagram p src dst t) (hs : Same p.len p p') :
    Datagram p' src dst t where
  len := by
    rw [hs.len]
    exact h.len
  etherType := (hs.etherType (by have := h.len; omega)).trans h.etherType
  saddr := (hs.saddr h.len).trans h.saddr
  daddr := (hs.daddr h.len).trans h.daddr
  ttl := by
    rw [hs.ttl h.len]
    exact h.ttl

lemma Message.of_same (h : Message p src dst t) (hs : Same p.len p p') : Message p' src dst t where
  toDatagram := h.toDatagram.of_same hs
  icmpLen := by
    rw [hs.len]
    exact h.icmpLen
  protocol := (hs.protocol h.len).trans h.protocol
  icmpType := by
    rw [hs.icmpType h.icmpLen]
    exact h.icmpType
  verifies := by
    rw [hs.ipHdr h.len]
    exact h.verifies

/-- The interface does not matter. -/
lemma Datagram.withInterface (h : Datagram p src dst t) (i : ℤ) :
    Datagram { p with interface := i } src dst t :=
  ⟨h.len, h.etherType, h.saddr, h.daddr, h.ttl⟩

lemma Message.withInterface (h : Message p src dst t) (i : ℤ) :
    Message { p with interface := i } src dst t :=
  ⟨h.toDatagram.withInterface i, h.icmpLen, h.protocol, h.icmpType, h.verifies⟩

/-- A frame is received as the packet it holds. -/
lemma Datagram.received (h : Datagram (linkPacket data) src dst t) :
    Datagram (getPacket m ⟨j, data⟩) src dst t :=
  (h.withInterface (j : ℕ)).of_same (Router.getPacket_same _ m ⟨j, data⟩)

lemma Message.received (h : Message (linkPacket data) src dst t) :
    Message (getPacket m ⟨j, data⟩) src dst t :=
  (h.withInterface (j : ℕ)).of_same (Router.getPacket_same _ m ⟨j, data⟩)

/-- A packet is received as it was sent. -/
lemma Datagram.sent (h : Datagram p src dst t) (hlen : p.len ≤ MAX_LEN) :
    Datagram (linkPacket (read p.payload 0 p.len)) src dst t :=
  (h.withInterface 0).of_same (Router.getPacket_read _ p hlen 0)

lemma Message.sent (h : Message p src dst t) (hlen : p.len ≤ MAX_LEN) :
    Message (linkPacket (read p.payload 0 p.len)) src dst t :=
  (h.withInterface 0).of_same (Router.getPacket_read _ p hlen 0)

/-! ### Forwarded packets -/

/-- The packet as it is forwarded. -/
def forwarded (p : Packet) (dhost shost : Mac) : Packet :=
  Router.setEther (Router.updateHdr p) dhost shost

lemma forwarded_payload {i : ℕ} (h12 : 12 ≤ i) (h22 : i ≠ 22) (h24 : i < 24 ∨ 26 ≤ i) :
    (forwarded p dhost shost).payload i = p.payload i :=
  (Router.setEther_of_ge h12).trans (Router.updateHdr_of_ne h22 h24)

lemma ttl_forwarded : (forwarded p dhost shost).ttl = p.ttl - 1 :=
  (Router.setEther_of_ge (by omega)).trans Router.updateHdr_22

/-- A packet that is forwarded has a smaller TTL. -/
lemma Datagram.forwarded (h : Datagram p src dst (t + 1)) :
    Datagram (p.forwarded dhost shost) src dst t where
  len := h.len
  etherType := by
    rw [← h.etherType]
    unfold Packet.etherType
    rw [forwarded_payload (by omega) (by omega) (by omega),
      forwarded_payload (by omega) (by omega) (by omega)]
  saddr := by
    rw [← h.saddr]
    apply load32_congr
    intro i h1 h2
    exact forwarded_payload (by omega) (by omega) (by omega)
  daddr := by
    rw [← h.daddr]
    apply load32_congr
    intro i h1 h2
    exact forwarded_payload (by omega) (by omega) (by omega)
  ttl := by
    have httl := h.ttl
    rw [ttl_forwarded, UInt8.toNat_sub_of_le]
    · rw [httl]
      rfl
    · rw [UInt8.le_iff_toNat_le, httl]
      exact Nat.le_add_left 1 t

/-- It is a message if it was one. -/
lemma Message.forwarded (h : Message p src dst (t + 1)) :
    Message (p.forwarded dhost shost) src dst t where
  toDatagram := h.toDatagram.forwarded
  icmpLen := h.icmpLen
  protocol := (forwarded_payload (by omega) (by omega) (by omega)).trans h.protocol
  icmpType := by
    have h34 : (p.forwarded dhost shost).icmpType = p.icmpType :=
      forwarded_payload (by omega) (by omega) (by omega)
    rw [h34]
    exact h.icmpType
  verifies := by
    have hhdr : (p.forwarded dhost shost).ipHdr = (Router.updateHdr p).ipHdr :=
      Router.read_setEther_of_ge (by omega)
    rw [hhdr]
    exact Router.updateHdr_verifies ipHdrAddr

/-! ### Generated messages -/

/-- An element of the second of three lists. -/
lemma getD_middle {xs ys : List UInt8} (zs : List UInt8) {n i : ℕ} (hn : xs.length = n)
    (hi : i < ys.length) : (xs ++ (ys ++ zs)).getD (n + i) 0 = ys.getD i 0 := by
  rw [List.getD_append_right _ _ _ _ (by omega), hn, Nat.add_sub_cancel_left,
    List.getD_append _ _ _ _ hi]

variable {sha dha un : List UInt8} {type code : UInt8} {daddr saddr : UInt32}

/-- A packet with the type of an IP packet and the header that `send_icmp` makes. -/
lemma datagram_of_hdr (hlen : 34 ≤ p.len)
    (htype : ∀ i < 2, p.payload (12 + i) = (bytes16 (htons ETHERTYPE_IP)).getD i 0)
    (hip : ∀ i < 20, p.payload (14 + i) = (icmpIpHdr daddr saddr).getD i 0) :
    Datagram p saddr daddr 64 := by
  constructor
  case len => exact hlen
  case ttl =>
    have h22 : p.ttl = 64 := hip 8 (by omega)
    rw [h22]
    rfl
  case etherType =>
    rw [Packet.etherType, htype 0 (by omega), htype 1 (by omega)]
    rfl
  case saddr =>
    rw [Packet.saddr, load32, hip 12 (by omega), hip 13 (by omega), hip 14 (by omega),
      hip 15 (by omega)]
    exact le32_bytes saddr
  case daddr =>
    rw [Packet.daddr, load32, hip 16 (by omega), hip 17 (by omega), hip 18 (by omega),
      hip 19 (by omega)]
    exact le32_bytes daddr

/-- **The messages of `send_icmp` and `send_icmp_error` are messages with a full TTL.** -/
theorem message_generated (hsha : sha.length = 6) (hdha : dha.length = 6) (hun : un.length = 4)
    (htype : type ≠ ICMP_ECHO) :
    Message (linkPacket (buildEthhdr sha dha (htons ETHERTYPE_IP) ++ icmpIpHdr daddr saddr ++
      icmpHdr type code un)) saddr daddr 64 := by
  have haddrs : (dha ++ sha).length = 12 := by rw [List.length_append, hdha, hsha]
  have hether : (buildEthhdr sha dha (htons ETHERTYPE_IP)).length = 14 := by
    rw [buildEthhdr, List.length_append, haddrs, Router.bytes16_length]
  have hicmp : (icmpHdr type code un).length = 8 := by simp [icmpHdr, hun]
  rw [List.append_assoc]
  generalize hdata : buildEthhdr sha dha (htons ETHERTYPE_IP) ++ (icmpIpHdr daddr saddr ++
    icmpHdr type code un) = data
  have hlen : (linkPacket data).len = 42 := by
    show (data.take MAX_LEN).length = 42
    rw [← hdata, List.length_take, List.length_append, List.length_append, hether, hicmp,
      icmpIpHdr_length]
    rfl
  have hbyte : ∀ i < 42, (linkPacket data).payload i = data.getD i 0 := by
    intro i hi
    rw [← hlen] at hi
    exact getPacket_payload hi
  -- the two bytes of the Ethernet type, the twenty of the IP header, the first of the ICMP header
  have htypeBytes : ∀ i < 2, (linkPacket data).payload (12 + i) =
      (bytes16 (htons ETHERTYPE_IP)).getD i 0 := by
    intro i hi
    rw [hbyte _ (by omega), ← hdata, buildEthhdr, List.append_assoc]
    exact getD_middle _ haddrs hi
  have hip : ∀ i < 20, (linkPacket data).payload (14 + i) = (icmpIpHdr daddr saddr).getD i 0 := by
    intro i hi
    rw [hbyte _ (by omega), ← hdata]
    exact getD_middle _ hether hi
  have hicmpType : (linkPacket data).icmpType = type := by
    have hfront : (buildEthhdr sha dha (htons ETHERTYPE_IP) ++ icmpIpHdr daddr saddr).length = 34 := by
      rw [List.length_append, hether, icmpIpHdr_length]
    rw [Packet.icmpType, hbyte 34 (by omega), ← hdata, ← List.append_assoc,
      List.getD_append_right _ _ _ _ (by omega), hfront]
    rfl
  constructor
  case icmpLen => omega
  case protocol => exact hip 9 (by omega)
  case icmpType => rwa [hicmpType]
  case verifies =>
    have hread : (linkPacket data).ipHdr = icmpIpHdr daddr saddr := read_eq_of_getD hip rfl
    rw [hread]
    exact icmpIpHdr_verifies daddr saddr ipHdrAddr
  exact datagram_of_hdr (by omega) htypeBytes hip

end Packet

/-! ### What a router puts on the link -/

namespace Router

open Packet

variable {env : Env} {s : Router} {p : Packet} {src dst : UInt32} {t : ℕ} {data : List UInt8}
  {j : Fin ROUTER_NUM_INTERFACES} {type : UInt8} {route : RouteTableEntry}

/-- A packet is answered by a message to its sender. -/
lemma icmpError_message (h : Datagram p src dst t) (htype : type ≠ ICMP_ECHO) :
    Message (linkPacket (icmpError p type).data) dst src 64 := by
  rw [← h.saddr, ← h.daddr]
  exact message_generated read_length read_length rfl htype

/-- So is an echo request. -/
lemma echoReply_message (h : Datagram p src dst t) (interface : ℤ) :
    Message (linkPacket (sendIcmp p.saddr p.daddr p.etherDhost p.etherShost ICMP_ECHOREPLY 0
      interface p.icmpEcho).data) dst src 64 := by
  rw [← h.saddr, ← h.daddr]
  exact message_generated read_length read_length read_length (by decide)

/-- The receiver of a frame has no more than `MAX_LEN` bytes of it. -/
lemma getPacket_len_le {m : Packet} {f : Frame} : (getPacket m f).len ≤ MAX_LEN :=
  List.length_take_le MAX_LEN f.data

/-- `forward_packet` when the next hop is known. -/
lemma forwardPacket_route (hres : s.Resolved) (hck : ipChecksum ipHdrAddr p.ipHdr = 0)
    (httl : ¬ p.ttl ≤ 1) (hroute : s.bestRoute p = some route) : ∃ dhost shost,
      forwardPacket env s p = some (s, p.forwarded dhost shost,
        [sendPacket route.interface (p.forwarded dhost shost)]) := by
  obtain ⟨j, -, -, hj, -⟩ := exists_of_getBestRoute hroute
  obtain ⟨entry, hentry⟩ := hres route (List.mem_of_getElem? hj)
  refine ⟨entry.mac, env.interfaceMac route.interface, ?_⟩
  unfold forwardPacket
  rw [if_neg (not_not.mpr hck), if_neg httl, hroute]
  dsimp only
  rw [hentry]
  rfl

/-- The TTL of a packet that is forwarded. -/
lemma exists_ttl (h : Datagram p src dst t) (httl : ¬ p.ttl ≤ 1) : ∃ r, t = r + 1 ∧ 1 ≤ r := by
  rw [UInt8.le_iff_toNat_le, h.ttl] at httl
  have hlt : 1 < t := not_le.mp httl
  exact ⟨t - 1, by omega, by omega⟩

/-- **What becomes of an IPv4 packet**: nothing is sent, the packet is answered on the interface it
came in on, or it is forwarded with a smaller TTL. -/
theorem step_datagram (env : Env) (j : Fin ROUTER_NUM_INTERFACES) (hres : s.Resolved)
    (h : Datagram (linkPacket data) src dst t) :
    ∃ m out, step env s ⟨j, data⟩ = some ({ s with m }, out) ∧
      (out = [] ∨
      (∃ x, out = [x] ∧ x.interface = (j : ℕ) ∧ Message (linkPacket x.data) dst src 64) ∨
      ∃ x r, out = [x] ∧ t = r + 1 ∧ Datagram (linkPacket x.data) src dst r) := by
  have hp : Datagram (getPacket s.m ⟨j, data⟩) src dst t := h.received
  have hj : (getPacket s.m ⟨j, data⟩).interface = (j : ℕ) := rfl
  have hlen := getPacket_len_le (m := s.m) (f := ⟨j, data⟩)
  unfold step
  dsimp only
  rw [if_pos hp.etherType, handleIp]
  generalize getPacket s.m ⟨j, data⟩ = p at *
  dsimp only
  split
  · split
    · -- an echo request for the router itself
      exact ⟨p, _, rfl, Or.inr (Or.inl ⟨_, rfl, hj, echoReply_message hp _⟩)⟩
    · exact ⟨p, [], rfl, Or.inl rfl⟩
  · by_cases hck : ipChecksum ipHdrAddr p.ipHdr = 0
    · by_cases httl : p.ttl ≤ 1
      · rw [forwardPacket, if_neg (not_not.mpr hck), if_pos httl]
        exact ⟨p, _, rfl, Or.inr (Or.inl ⟨_, rfl, hj, icmpError_message hp (by decide)⟩)⟩
      · cases hroute : bestRoute { s with m := p } p with
        | none =>
          rw [forwardPacket, if_neg (not_not.mpr hck), if_neg httl, hroute]
          exact ⟨p, _, rfl, Or.inr (Or.inl ⟨_, rfl, hj, icmpError_message hp (by decide)⟩)⟩
        | some route =>
          obtain ⟨dhost, shost, hf⟩ := forwardPacket_route (s := { s with m := p }) hres hck httl hroute
          rw [hf]
          obtain ⟨r, rfl, -⟩ := exists_ttl hp httl
          exact ⟨_, _, rfl, Or.inr (Or.inr ⟨_, r, rfl, rfl, hp.forwarded.sent hlen⟩)⟩
    · rw [forwardPacket, if_pos hck]
      exact ⟨p, [], rfl, Or.inl rfl⟩

/-- A message for the router itself is kept. -/
lemma step_message_own (h : Message (linkPacket data) src dst t)
    (hown : dst = env.interfaceIp (j : ℕ)) :
    ∃ m, step env s ⟨j, data⟩ = some ({ s with m }, []) := by
  have hp : Message (getPacket s.m ⟨j, data⟩) src dst t := h.received
  have hme : icmpForMe env (getPacket s.m ⟨j, data⟩) = true :=
    decide_eq_true ⟨hp.protocol, hp.daddr.trans hown⟩
  refine ⟨getPacket s.m ⟨j, data⟩, ?_⟩
  unfold step
  dsimp only
  rw [if_pos hp.etherType, handleIp, if_pos hme, if_neg hp.icmpType]

/-- Any other one goes through `forward_packet`. -/
lemma step_message_forward (h : Message (linkPacket data) src dst t)
    (hown : dst ≠ env.interfaceIp (j : ℕ)) :
    step env s ⟨j, data⟩ = (forwardPacket env { s with m := getPacket s.m ⟨j, data⟩ }
      (getPacket s.m ⟨j, data⟩)).map fun r => ({ r.1 with m := r.2.1 }, r.2.2) := by
  have hp : Message (getPacket s.m ⟨j, data⟩) src dst t := h.received
  have hme : ¬ icmpForMe env (getPacket s.m ⟨j, data⟩) = true := by
    intro hme
    exact hown (hp.daddr.symm.trans (of_decide_eq_true hme).2)
  unfold step
  dsimp only
  rw [if_pos hp.etherType, handleIp, if_neg hme]

/-- A message whose TTL ends or that has no route is answered. -/
lemma step_message_answered (h : Message (linkPacket data) src dst t)
    (hown : dst ≠ env.interfaceIp (j : ℕ))
    (hend : t ≤ 1 ∨ getBestRoute s.rtable dst 0 (s.rtable.length - 1) = none) :
    ∃ m x, step env s ⟨j, data⟩ = some ({ s with m }, [x]) ∧ x.interface = (j : ℕ) ∧
      Message (linkPacket x.data) dst src 64 := by
  have hp : Message (getPacket s.m ⟨j, data⟩) src dst t := h.received
  rw [step_message_forward h hown, forwardPacket, if_neg (not_not.mpr hp.verifies)]
  by_cases httl : (getPacket s.m ⟨j, data⟩).ttl ≤ 1
  · rw [if_pos httl]
    exact ⟨_, _, rfl, rfl, icmpError_message hp.toDatagram (by decide)⟩
  · have hroute : bestRoute { s with m := getPacket s.m ⟨j, data⟩ } (getPacket s.m ⟨j, data⟩) =
        none := by
      obtain ⟨r, rfl, hr⟩ := exists_ttl hp.toDatagram httl
      rcases hend with hle | hnone
      · omega
      · rw [bestRoute, hp.daddr]
        exact hnone
    rw [if_neg httl, hroute]
    exact ⟨_, _, rfl, rfl, icmpError_message hp.toDatagram (by decide)⟩

/-- A message with a route is forwarded. -/
lemma step_message_routed (hres : s.Resolved) (h : Message (linkPacket data) src dst (t + 1))
    (hown : dst ≠ env.interfaceIp (j : ℕ)) (ht : 1 ≤ t)
    (hroute : getBestRoute s.rtable dst 0 (s.rtable.length - 1) = some route) :
    ∃ m x, step env s ⟨j, data⟩ = some ({ s with m }, [x]) ∧ x.interface = route.interface ∧
      Message (linkPacket x.data) src dst t := by
  have hp : Message (getPacket s.m ⟨j, data⟩) src dst (t + 1) := h.received
  have httl : ¬ (getPacket s.m ⟨j, data⟩).ttl ≤ 1 := by
    rw [UInt8.le_iff_toNat_le, hp.ttl]
    exact not_le.mpr (Nat.lt_add_of_pos_left ht)
  have hbest : bestRoute { s with m := getPacket s.m ⟨j, data⟩ } (getPacket s.m ⟨j, data⟩) =
      some route := by
    rw [bestRoute, hp.daddr]
    exact hroute
  obtain ⟨dhost, shost, hf⟩ := forwardPacket_route (s := { s with m := getPacket s.m ⟨j, data⟩ })
    hres hp.verifies httl hbest
  have hlen := getPacket_len_le (m := s.m) (f := ⟨j, data⟩)
  rw [step_message_forward h hown, hf]
  exact ⟨_, _, rfl, rfl, hp.forwarded.sent hlen⟩

end Router

/-! ### The exchange -/

namespace Exchange

open Packet

/-- The routers have these routing tables and know every next hop; one frame is on the link, which
the side `b` receives as a packet with the property. -/
structure Carries (rtable : Bool → List RouteTableEntry) (b : Bool) (P : Packet → Prop)
    (c : Exchange) : Prop where
  resolved : ∀ b, (c.routers b).Resolved
  rtable : ∀ b, (c.routers b).rtable = rtable b
  flight : ∃ data, c.flight = [(b, data)] ∧ P (linkPacket data)

/-- A message between `x` and `y` with a full TTL goes to the side and the address of `n`. -/
def Answering (rtable : Bool → List RouteTableEntry) (x y : UInt32) (c : Exchange)
    (n : Bool × Bool) : Prop :=
  Carries rtable n.1 (fun p => Message p (target x y (!n.2)) (target x y n.2) 64) c

variable {L : Link} {rtable : Bool → List RouteTableEntry} {b o : Bool} {P Q : Packet → Prop}
  {c : Exchange} {x y src dst : UInt32} {t : ℕ} {data : List UInt8} {m : Packet} {out : List Sent}
  {sent : Sent}

/-- The side `b` receives the frame and keeps its tables. -/
lemma step_eq (hflight : c.flight = [(b, data)])
    (hstep : (c.routers b).step (L.env b) ⟨L.port b, data⟩ = some ({ c.routers b with m }, out)) :
    step L c = some { routers := Function.update c.routers b { c.routers b with m }
                      flight := L.crossing b out } := by
  unfold step
  rw [hflight]
  dsimp only
  rw [hstep]
  rfl

/-- When nothing crosses the link, it is empty. -/
lemma quiesces_of_step (hflight : c.flight = [(b, data)])
    (hstep : (c.routers b).step (L.env b) ⟨L.port b, data⟩ = some ({ c.routers b with m }, out))
    (hout : L.crossing b out = []) : Quiesces L c := by
  refine ⟨1, _, Orbit.iter_one (step_eq hflight hstep), ?_⟩
  exact hout

/-- A frame that is sent over the link is received on the other side. -/
lemma Carries.crossed (h : Carries rtable b P c) (hflight : c.flight = [(b, data)])
    (hstep : (c.routers b).step (L.env b) ⟨L.port b, data⟩ = some ({ c.routers b with m }, [sent]))
    (hsent : sent.interface = L.interface b) (hQ : Q (linkPacket sent.data)) :
    ∃ c', step L c = some c' ∧ Carries rtable (!b) Q c' := by
  refine ⟨_, step_eq hflight hstep, ?_⟩
  have hcross : L.crossing b [sent] = [(!b, sent.data)] := by simp [Link.crossing, hsent]
  constructor
  case resolved =>
    intro a
    show Router.Resolved (Function.update c.routers b _ a)
    by_cases ha : a = b
    · rw [ha, Function.update_self]
      exact h.resolved b
    · rw [Function.update_of_ne ha]
      exact h.resolved a
  case rtable =>
    intro a
    show Router.rtable (Function.update c.routers b _ a) = rtable a
    by_cases ha : a = b
    · rw [ha, Function.update_self]
      exact h.rtable b
    · rw [Function.update_of_ne ha]
      exact h.rtable a
  case flight => exact ⟨sent.data, hcross, hQ⟩

/-- What the fate of the messages to an address says about the address. -/
lemma fate_cases (L : Link) (rtable : Bool → List RouteTableEntry) (b : Bool) (d : UInt32) :
    (fate L rtable b d = .kept ∧ (d = (L.env b).interfaceIp (L.interface b) ∨
      d ≠ (L.env b).interfaceIp (L.interface b) ∧ ∃ route,
        getBestRoute (rtable b) d 0 ((rtable b).length - 1) = some route ∧
          route.interface ≠ L.interface b)) ∨
    (fate L rtable b d = .unroutable ∧ d ≠ (L.env b).interfaceIp (L.interface b) ∧
      getBestRoute (rtable b) d 0 ((rtable b).length - 1) = none) ∨
    (fate L rtable b d = .across ∧ d ≠ (L.env b).interfaceIp (L.interface b) ∧ ∃ route,
      getBestRoute (rtable b) d 0 ((rtable b).length - 1) = some route ∧
        route.interface = L.interface b) := by
  unfold fate
  split
  · next hown => exact Or.inl ⟨rfl, Or.inl hown⟩
  · next hown =>
    cases hroute : getBestRoute (rtable b) d 0 ((rtable b).length - 1) with
    | none => exact Or.inr (Or.inl ⟨rfl, hown, rfl⟩)
    | some route =>
      dsimp only
      split
      · next hi => exact Or.inr (Or.inr ⟨rfl, hown, route, rfl, hi⟩)
      · next hi => exact Or.inl ⟨rfl, Or.inr ⟨hown, route, rfl, hi⟩⟩

/-! ### One message -/

/-- A message that is kept ends the exchange. -/
lemma Carries.kept (h : Carries rtable b (fun p => Message p src dst (t + 1)) c) (ht : 1 ≤ t)
    (hfate : fate L rtable b dst = .kept) : Quiesces L c := by
  obtain ⟨data, hflight, hm⟩ := h.flight
  rcases fate_cases L rtable b dst with ⟨-, hown | ⟨hown, route, hroute, hi⟩⟩ | ⟨hf, -⟩ | ⟨hf, -⟩
  · obtain ⟨m, hstep⟩ := Router.step_message_own hm hown
    exact quiesces_of_step hflight hstep rfl
  · rw [← h.rtable b] at hroute
    obtain ⟨m, sent, hstep, hsent, -⟩ := Router.step_message_routed (h.resolved b) hm hown ht hroute
    refine quiesces_of_step hflight hstep ?_
    rw [← hsent] at hi
    simp [Link.crossing, hi]
  · rw [hf] at hfate
    cases hfate
  · rw [hf] at hfate
    cases hfate

/-- A message without a route, or whose TTL ends, is answered. -/
lemma Carries.answered (h : Carries rtable b (fun p => Message p src dst t) c)
    (hfate : fate L rtable b dst ≠ .kept) (hend : t ≤ 1 ∨ fate L rtable b dst = .unroutable) :
    ∃ c', step L c = some c' ∧ Carries rtable (!b) (fun p => Message p dst src 64) c' := by
  obtain ⟨data, hflight, hm⟩ := h.flight
  obtain ⟨hown, hend⟩ : dst ≠ (L.env b).interfaceIp (L.interface b) ∧ (t ≤ 1 ∨
      getBestRoute (c.routers b).rtable dst 0 ((c.routers b).rtable.length - 1) = none) := by
    rw [h.rtable b]
    rcases fate_cases L rtable b dst with ⟨hf, -⟩ | ⟨-, hown, hnone⟩ | ⟨hf, hown, -⟩
    · exact absurd hf hfate
    · exact ⟨hown, Or.inr hnone⟩
    · refine ⟨hown, Or.inl (hend.resolve_right ?_)⟩
      rw [hf]
      simp
  obtain ⟨m, sent, hstep, hsent, hanswer⟩ := Router.step_message_answered hm hown hend
  exact h.crossed hflight hstep hsent hanswer

/-- A message that is routed across the link goes on with a smaller TTL. -/
lemma Carries.across (h : Carries rtable b (fun p => Message p src dst (t + 1)) c) (ht : 1 ≤ t)
    (hfate : fate L rtable b dst = .across) :
    ∃ c', step L c = some c' ∧ Carries rtable (!b) (fun p => Message p src dst t) c' := by
  obtain ⟨data, hflight, hm⟩ := h.flight
  rcases fate_cases L rtable b dst with ⟨hf, -⟩ | ⟨hf, -⟩ | ⟨-, hown, route, hroute, hi⟩
  · rw [hf] at hfate
    cases hfate
  · rw [hf] at hfate
    cases hfate
  · rw [← h.rtable b] at hroute
    obtain ⟨m, sent, hstep, hsent, hnext⟩ :=
      Router.step_message_routed (h.resolved b) hm hown ht hroute
    exact h.crossed hflight hstep (hsent.trans hi) hnext

/-- A message that both sides route across the link goes to and fro until its TTL ends. -/
lemma Carries.bounced (hfate : ∀ a, fate L rtable a dst = .across)
    (h : Carries rtable b (fun p => Message p src dst (t + 1)) c) :
    ∃ c', Orbit.iter (step L) (t + 1) c = some c' ∧
      Carries rtable (if t % 2 = 0 then !b else b) (fun p => Message p dst src 64) c' := by
  induction t generalizing b c with
  | zero =>
    obtain ⟨c', hstep, hc'⟩ := h.answered (L := L) (by rw [hfate b]; simp) (Or.inl le_rfl)
    exact ⟨c', Orbit.iter_one hstep, hc'⟩
  | succ t ih =>
    obtain ⟨c1, hstep, h1⟩ := h.across (Nat.le_add_left 1 t) (hfate b)
    obtain ⟨c', hiter, hc'⟩ := ih h1
    refine ⟨c', (Orbit.iter_succ_of_some hstep).trans hiter, ?_⟩
    rw [Bool.not_not] at hc'
    -- the sides alternate
    rcases Nat.mod_two_eq_zero_or_one t with h0 | h1
    · rw [if_pos h0] at hc'
      rwa [if_neg (by omega)]
    · rw [if_neg (by omega)] at hc'
      rwa [if_pos (by omega)]

/-! ### Answers -/

/-- Where the rule ends, so does the exchange. -/
lemma Answering.quiesces (h : Answering rtable x y c (b, o))
    (hnext : next L rtable x y (b, o) = none) : Quiesces L c := by
  unfold next at hnext
  dsimp only at hnext
  cases hfate : fate L rtable b (target x y o) with
  | kept => exact Carries.kept h (by omega) hfate
  | unroutable =>
    rw [hfate] at hnext
    cases hnext
  | across =>
    obtain ⟨c', hstep, hc'⟩ := Carries.across h (by omega) hfate
    cases hother : fate L rtable (!b) (target x y o) with
    | kept =>
      have hq : Quiesces L c' := hc'.kept (by omega) hother
      exact hq.of_iter (Orbit.iter_one hstep)
    | unroutable =>
      rw [hfate, hother] at hnext
      cases hnext
    | across =>
      rw [hfate, hother] at hnext
      cases hnext

/-- Where the rule goes on, the exchange gets to the next answer. -/
lemma Answering.next {n n' : Bool × Bool} (h : Answering rtable x y c n)
    (hnext : next L rtable x y n = some n') :
    ∃ k c', 0 < k ∧ Orbit.iter (step L) k c = some c' ∧ Answering rtable x y c' n' := by
  obtain ⟨b, o⟩ := n
  -- an answer has the addresses swapped
  have hswap {a : Bool} {c' : Exchange} (hc' : Carries rtable a
      (fun p => Message p (target x y o) (target x y !o) 64) c') :
      Answering rtable x y c' (a, !o) := by
    unfold Answering
    rw [Bool.not_not]
    exact hc'
  unfold Tema1.next at hnext
  dsimp only at hnext
  cases hfate : fate L rtable b (target x y o) with
  | kept =>
    rw [hfate] at hnext
    cases hnext
  | unroutable =>
    rw [hfate] at hnext
    cases hnext
    obtain ⟨c', hstep, hc'⟩ := Carries.answered h (by rw [hfate]; simp) (Or.inr hfate)
    exact ⟨1, c', by omega, Orbit.iter_one hstep, hswap hc'⟩
  | across =>
    cases hother : fate L rtable (!b) (target x y o) with
    | kept =>
      rw [hfate, hother] at hnext
      cases hnext
    | unroutable =>
      rw [hfate, hother] at hnext
      cases hnext
      obtain ⟨c1, hstep, h1⟩ := Carries.across h (by omega) hfate
      obtain ⟨c', hstep', hc'⟩ := h1.answered (by rw [hother]; simp) (Or.inr hother)
      rw [Bool.not_not] at hc'
      exact ⟨2, c', by omega, (Orbit.iter_succ_of_some hstep).trans (Orbit.iter_succ_of_some hstep'),
        hswap hc'⟩
    | across =>
      rw [hfate, hother] at hnext
      cases hnext
      have hboth : ∀ a, fate L rtable a (target x y o) = .across := by
        intro a
        by_cases ha : a = b
        · rwa [ha]
        · rwa [Bool.eq_not.mpr ha]
      obtain ⟨c', hiter, hc'⟩ := Carries.bounced (t := 63) hboth h
      exact ⟨64, c', by omega, hiter, hswap hc'⟩

/-- An exchange is over when no frame is on the link. -/
lemma step_eq_none (h : c.flight = []) : step L c = none := by
  unfold step
  rw [h]

/-- **An answer leads to finitely many frames exactly when the rule ends.** -/
theorem Answering.quiesces_iff_ends {n : Bool × Bool} (h : Answering rtable x y c n) :
    Quiesces L c ↔ ∃ k, Orbit.iter (Tema1.next L rtable x y) k n = none := by
  refine Orbit.reaches_iff_of_sim (R := Answering rtable x y) ?_ ?_ ?_ h
  · intro c hc
    exact step_eq_none hc
  · rintro c ⟨b, o⟩ h hnext
    exact h.quiesces hnext
  · intro c n n' h hnext
    exact h.next hnext

/-! ### Any packet -/

/-- **A packet leads to finitely many frames, or to an answer**: it is forwarded as long as it has
TTL left. -/
theorem Carries.quiesces_or (h : Carries rtable b
      (fun p => Datagram p (target x y !o) (target x y o) t) c) :
    Quiesces L c ∨ ∃ k c' n, Orbit.iter (step L) k c = some c' ∧ Answering rtable x y c' n := by
  induction t using Nat.strong_induction_on generalizing b c with
  | _ t ih =>
    obtain ⟨data, hflight, hd⟩ := h.flight
    obtain ⟨m, out, hstep, hcase⟩ := Router.step_datagram (L.env b) (L.port b) (h.resolved b) hd
    rcases hcase with rfl | ⟨sent, rfl, hi, hanswer⟩ | ⟨sent, r, rfl, rfl, hnext⟩
    · exact Or.inl (quiesces_of_step hflight hstep rfl)
    · obtain ⟨c', hc, hc'⟩ := h.crossed (Q := fun p => Message p _ _ 64) hflight hstep hi hanswer
      refine Or.inr ⟨1, c', (!b, !o), Orbit.iter_one hc, ?_⟩
      unfold Answering
      rw [Bool.not_not]
      exact hc'
    · by_cases hi : sent.interface = L.interface b
      · obtain ⟨c1, hc, h1⟩ := h.crossed (Q := fun p => Datagram p _ _ r) hflight hstep hi hnext
        rcases ih r (Nat.lt_succ_self r) h1 with hq | ⟨k, c', n, hk, hc'⟩
        · exact Or.inl (hq.of_iter (Orbit.iter_one hc))
        · exact Or.inr ⟨k + 1, c', n, (Orbit.iter_succ_of_some hc).trans hk, hc'⟩
      · refine Or.inl (quiesces_of_step hflight hstep ?_)
        simp [Link.crossing, hi]

/-- A frame between two addresses, with nothing else in it that matters. -/
def answerFrame (src dst : UInt32) : List UInt8 :=
  (sendIcmpError dst src (List.replicate 6 0) (List.replicate 6 0) ICMP_DEST_UNREACH 0 0).data

lemma message_answerFrame (src dst : UInt32) : Message (linkPacket (answerFrame src dst)) src dst 64 :=
  message_generated rfl rfl rfl (by decide)

/-- **No storm between two addresses, exactly when the rule ends at each of the four answers.** -/
theorem quiesces_iff {routers : Bool → Router} (hres : ∀ b, (routers b).Resolved) (x y : UInt32) :
    (∀ b data t, Datagram (linkPacket data) x y t ∨ Datagram (linkPacket data) y x t →
      Quiesces L ⟨routers, [(b, data)]⟩) ↔
    ∀ b o, Orbit.iter (Tema1.next L (fun b => (routers b).rtable) x y) 4 (b, o) = none := by
  have hends (n : Bool × Bool) : Orbit.iter (Tema1.next L (fun b => (routers b).rtable) x y) 4 n =
      none ↔ ∃ k, Orbit.iter (Tema1.next L (fun b => (routers b).rtable) x y) k n = none :=
    Orbit.iter_card_eq_none_iff
  constructor
  · intro hall b o
    have hm := message_answerFrame (target x y !o) (target x y o)
    have hanswer : Answering (fun b => (routers b).rtable) x y
        ⟨routers, [(b, answerFrame (target x y !o) (target x y o))]⟩ (b, o) :=
      ⟨hres, fun _ => rfl, _, rfl, hm⟩
    rw [hends, ← hanswer.quiesces_iff_ends]
    apply hall b _ 64
    cases o with
    | false => exact Or.inr hm.toDatagram
    | true => exact Or.inl hm.toDatagram
  · intro hrule b data t hd
    obtain ⟨o, hd⟩ : ∃ o, Datagram (linkPacket data) (target x y !o) (target x y o) t := by
      rcases hd with hd | hd
      · exact ⟨true, hd⟩
      · exact ⟨false, hd⟩
    have hcarries : Carries (fun b => (routers b).rtable) b
        (fun p => Datagram p (target x y !o) (target x y o) t) ⟨routers, [(b, data)]⟩ :=
      ⟨hres, fun _ => rfl, data, rfl, hd⟩
    rcases hcarries.quiesces_or with hq | ⟨k, c', n, hk, hc'⟩
    · exact hq
    · have hend := hc'.quiesces_iff_ends.mpr ((hends n).mp (hrule n.1 n.2))
      exact Orbit.Reaches.of_iter hk hend

/-- The addresses of the two sides on the link. -/
def testIp (b : Bool) : UInt32 := le32 10 0 0 (if b then 1 else 2)

def testLink : Link where
  env b := { interfaceIp := fun _ => testIp b, interfaceMac := fun _ => Vector.replicate 6 0 }
  port _ := 0

/-- Each side has a route to the other one. -/
def testRouters (b : Bool) : Router :=
  { Router.init [⟨testIp !b, testIp !b, le32 255 255 255 255, 0⟩] ⟨0, fun _ => 0, 0⟩ with
    arpTable := [⟨testIp !b, Vector.replicate 6 1⟩] }

theorem quiesces_iff_testRouters : Quiesces testLink
    ⟨testRouters, [(true, answerFrame (testIp true) (testIp false))]⟩ := by
  have hres : ∀ b, (testRouters b).Resolved := by
    intro b route hroute
    rw [List.mem_singleton.mp hroute]
    cases b <;> exact ⟨_, rfl⟩
  have hrule : ∀ b o, Orbit.iter (Tema1.next testLink (fun b => (testRouters b).rtable)
      (testIp true) (testIp false)) 4 (b, o) = none := by decide +kernel
  exact (quiesces_iff hres (testIp true) (testIp false)).mpr hrule true _ 64
    (Or.inl (message_answerFrame _ _).toDatagram)

/-- Two routers without any route answer each other's errors for ever. -/
theorem not_quiesces : ¬ ∀ (L : Link) (routers : Bool → Router), (∀ b, (routers b).Resolved) →
    ∀ b data, 34 ≤ (linkPacket data).len → (linkPacket data).etherType = ETHERTYPE_IP →
      Quiesces L ⟨routers, [(b, data)]⟩ := by
  intro h
  have hm := message_answerFrame (le32 10 0 1 7) (le32 10 0 2 7)
  have hanswer : Answering (fun _ => []) (le32 10 0 1 7) (le32 10 0 2 7)
      ⟨fun _ => Router.init [] ⟨0, fun _ => 0, 0⟩,
        [(true, answerFrame (le32 10 0 1 7) (le32 10 0 2 7))]⟩ (true, true) :=
    ⟨fun _ route hroute => (List.not_mem_nil hroute).elim, fun _ => rfl, _, rfl, hm⟩
  have hq := h testLink _ hanswer.resolved true _ hm.len hm.etherType
  rw [hanswer.quiesces_iff_ends, ← Orbit.iter_card_eq_none_iff] at hq
  have hrule : Orbit.iter (Tema1.next testLink (fun _ => []) (le32 10 0 1 7) (le32 10 0 2 7)) 4
      (true, true) ≠ none := by decide +kernel
  exact hrule hq

end Exchange

end Protocoale.Tema1

import Protocoale.Tema1.ArpTable
import Protocoale.Tema1.Exchange

/-!
What one router does to a packet that is on its way through it, and to the ARP frames that are
exchanged for it. A packet whose next hop is in the ARP table is forwarded (`step_routed`); any other
one waits, and is forwarded when the next hop has answered, with one more taken from its TTL
(`step_park`, `step_request`, `step_drain`). A packet whose TTL ends or that has no route is answered
(`step_answered`).
-/

namespace Protocoale.Tema1

open Lib Lib.Bytes

namespace Packet

variable {p p' q : Packet} {src dst spa tpa : UInt32} {t op : ℕ} {data : List UInt8} {dhost shost sha : Mac}
  {j : Fin ROUTER_NUM_INTERFACES} {m : Packet} {f : Frame}

/-! ### Packets on their way -/

/-- A datagram whose header verifies. -/
structure Valid (p : Packet) (src dst : UInt32) (t : ℕ) : Prop extends Datagram p src dst t where
  verifies : ipChecksum ipHdrAddr p.ipHdr = 0

lemma Message.valid (h : Message p src dst t) : Valid p src dst t := ⟨h.toDatagram, h.verifies⟩

lemma Valid.of_same (h : Valid p src dst t) (hs : Same p.len p p') : Valid p' src dst t where
  toDatagram := h.toDatagram.of_same hs
  verifies := by
    rw [hs.ipHdr h.len]
    exact h.verifies

lemma Valid.withInterface (h : Valid p src dst t) (i : ℤ) : Valid { p with interface := i } src dst t :=
  ⟨h.toDatagram.withInterface i, h.verifies⟩

lemma Valid.received (h : Valid (linkPacket data) src dst t) :
    Valid (getPacket m ⟨j, data⟩) src dst t :=
  (h.withInterface (j : ℕ)).of_same (Router.getPacket_same _ m ⟨j, data⟩)

lemma Valid.sent (h : Valid p src dst t) (hlen : p.len ≤ MAX_LEN) :
    Valid (linkPacket (read p.payload 0 p.len)) src dst t :=
  (h.withInterface 0).of_same (Router.getPacket_read _ p hlen 0)

/-- The packet is the same but for the Ethernet addresses, the TTL and the checksum. -/
structure Keeps (p p' : Packet) : Prop where
  len : p'.len = p.len
  interface : p'.interface = p.interface
  payload : ∀ i, 12 ≤ i → i ≠ 22 → i ≠ 24 → i ≠ 25 → p'.payload i = p.payload i

lemma Keeps.trans (h : Keeps p p') (h' : Keeps p' q) : Keeps p q := by
  refine ⟨h'.len.trans h.len, h'.interface.trans h.interface, ?_⟩
  intro i h12 h22 h24 h25
  exact (h'.payload i h12 h22 h24 h25).trans (h.payload i h12 h22 h24 h25)

lemma keeps_updateHdr : Keeps p (Router.updateHdr p) := by
  refine ⟨rfl, rfl, ?_⟩
  intro i _ h22 h24 h25
  exact Router.updateHdr_of_ne h22 (by omega)

lemma keeps_setEther : Keeps p (Router.setEther p dhost shost) :=
  ⟨rfl, rfl, fun _ h12 _ _ _ => Router.setEther_of_ge h12⟩

/-- What does not touch the rest of the header keeps the addresses. -/
lemma Datagram.keeps {t' : ℕ} (h : Datagram p src dst t) (hk : Keeps p p') (ht : p'.ttl.toNat = t') :
    Datagram p' src dst t' where
  len := by
    rw [hk.len]
    exact h.len
  etherType := by
    rw [← h.etherType]
    unfold Packet.etherType
    rw [hk.payload 12 le_rfl (by omega) (by omega) (by omega),
      hk.payload 13 (by omega) (by omega) (by omega) (by omega)]
  saddr := by
    rw [← h.saddr]
    apply load32_congr
    intro i h1 h2
    exact hk.payload i (by omega) (by omega) (by omega) (by omega)
  daddr := by
    rw [← h.daddr]
    apply load32_congr
    intro i h1 h2
    exact hk.payload i (by omega) (by omega) (by omega) (by omega)
  ttl := ht

lemma Valid.updateHdr (h : Valid p src dst (t + 1)) : Valid (Router.updateHdr p) src dst t where
  toDatagram := by
    refine h.toDatagram.keeps keeps_updateHdr ?_
    have httl := h.ttl
    rw [Router.ttl_updateHdr, UInt8.toNat_sub_of_le]
    · rw [httl]
      rfl
    · rw [UInt8.le_iff_toNat_le, httl]
      exact Nat.le_add_left 1 t
  verifies := Router.updateHdr_verifies ipHdrAddr

lemma Valid.setEther (h : Valid p src dst t) : Valid (Router.setEther p dhost shost) src dst t where
  toDatagram := h.toDatagram.keeps keeps_setEther (by
    rw [Packet.ttl, Router.setEther_of_ge (by omega)]
    exact h.ttl)
  verifies := by
    have hhdr : (Router.setEther p dhost shost).ipHdr = p.ipHdr := Router.read_setEther_of_ge (by omega)
    rw [hhdr]
    exact h.verifies

/-- The TTL allows the packet to be forwarded. -/
lemma Datagram.not_ttl_le (h : Datagram p src dst t) (ht : 2 ≤ t) : ¬ p.ttl ≤ 1 := by
  rw [UInt8.le_iff_toNat_le, h.ttl]
  exact not_le.mpr ht

lemma Datagram.ttl_le (h : Datagram p src dst t) (ht : t ≤ 1) : p.ttl ≤ 1 := by
  rw [UInt8.le_iff_toNat_le, h.ttl]
  exact ht

/-! ### ARP frames -/

/-- An ARP packet, read back. -/
structure IsArp (p : Packet) (op : ℕ) (spa tpa : UInt32) (sha : Mac) : Prop where
  len : 42 ≤ p.len
  etherType : p.etherType = ETHERTYPE_ARP
  arpOp : p.arpOp = op
  arpSpa : p.arpSpa = spa
  arpTpa : p.arpTpa = tpa
  arpSha : p.arpSha = sha
  etherShost : p.etherShost = sha.toList

lemma IsArp.received (h : IsArp (linkPacket data) op spa tpa sha) :
    IsArp (getPacket m ⟨j, data⟩) op spa tpa sha := by
  have hs : Same (linkPacket data).len { linkPacket data with interface := ((j : ℕ) : ℤ) }
      (getPacket m ⟨j, data⟩) := Router.getPacket_same _ m ⟨j, data⟩
  have hlen := h.len
  constructor
  case len => rw [hs.len]; exact hlen
  case etherType => exact (hs.etherType (by omega)).trans h.etherType
  case arpOp => exact (hs.arpOp (by omega)).trans h.arpOp
  case arpSpa => exact (hs.arpSpa (by omega)).trans h.arpSpa
  case arpTpa => exact (hs.arpTpa (by omega)).trans h.arpTpa
  case arpSha => exact (hs.arpSha (by omega)).trans h.arpSha
  case etherShost => exact (hs.etherShost (by omega)).trans h.etherShost

/-- The bytes of the ARP frames of the router. -/
lemma sendArp_data {d₀ d₁ d₂ d₃ d₄ d₅ s₀ s₁ s₂ s₃ s₄ s₅ o : UInt8} {interface : ℤ}
    (hop : bytes16 (htons op) = [0, o]) :
    (sendArp tpa spa [s₀, s₁, s₂, s₃, s₄, s₅] [d₀, d₁, d₂, d₃, d₄, d₅] interface (htons op)).data =
      [d₀, d₁, d₂, d₃, d₄, d₅, s₀, s₁, s₂, s₃, s₄, s₅, 8, 6, 0, 1, 8, 0, 6, 4, 0, o,
        s₀, s₁, s₂, s₃, s₄, s₅] ++ bytes32 spa ++ [d₀, d₁, d₂, d₃, d₄, d₅] ++ bytes32 tpa := by
  have harp : bytes16 (htons ETHERTYPE_ARP) = [8, 6] := by decide
  have hfix : bytes16 (htons 1) ++ bytes16 (htons 2048) = [0, 1, 8, 0] := by decide
  unfold sendArp buildEthhdr
  rw [harp, hop]
  rw [List.append_assoc _ (bytes16 (htons 1)), hfix]
  simp only [List.append_assoc, List.cons_append, List.nil_append]

lemma exists_six {l : List UInt8} (h : l.length = 6) : ∃ a b c d e f, l = [a, b, c, d, e, f] := by
  match l, h with
  | [a, b, c, d, e, f], _ => exact ⟨a, b, c, d, e, f, rfl⟩

/-- **The ARP frames of the router, read back.** -/
theorem isArp_sendArp {dha : List UInt8} {interface : ℤ} {o : UInt8} (hdha : dha.length = 6)
    (hop : bytes16 (htons op) = [0, o]) (ho : o.toNat = op) :
    IsArp (getPacket m ⟨j, (sendArp tpa spa sha.toList dha interface (htons op)).data⟩) op spa tpa sha := by
  obtain ⟨d₀, d₁, d₂, d₃, d₄, d₅, rfl⟩ := exists_six hdha
  obtain ⟨s₀, s₁, s₂, s₃, s₄, s₅, hsha⟩ := exists_six (Vector.length_toList : sha.toList.length = 6)
  rw [hsha, sendArp_data hop]
  generalize hdata : [d₀, d₁, d₂, d₃, d₄, d₅, s₀, s₁, s₂, s₃, s₄, s₅, 8, 6, 0, 1, 8, 0, 6, 4, 0, o,
    s₀, s₁, s₂, s₃, s₄, s₅] ++ bytes32 spa ++ [d₀, d₁, d₂, d₃, d₄, d₅] ++ bytes32 tpa = data
  have hlen : (getPacket m ⟨j, data⟩).len = 42 := by
    rw [← hdata]
    rfl
  have hbyte : ∀ i < 42, (getPacket m ⟨j, data⟩).payload i = data.getD i 0 := by
    intro i hi
    exact getPacket_payload (hlen ▸ hi)
  constructor
  case len => exact hlen.ge
  case etherType =>
    rw [Packet.etherType, hbyte 12 (by omega), hbyte 13 (by omega), ← hdata]
    show be16 8 6 = ETHERTYPE_ARP
    decide
  case arpOp =>
    rw [Packet.arpOp, hbyte 20 (by omega), hbyte 21 (by omega), ← hdata]
    show be16 0 o = op
    rw [← ho]
    simp [be16]
  case arpSpa =>
    rw [Packet.arpSpa, load32, hbyte 28 (by omega), hbyte 29 (by omega), hbyte 30 (by omega),
      hbyte 31 (by omega), ← hdata]
    exact le32_bytes spa
  case arpTpa =>
    rw [Packet.arpTpa, load32, hbyte 38 (by omega), hbyte 39 (by omega), hbyte 40 (by omega),
      hbyte 41 (by omega), ← hdata]
    exact le32_bytes tpa
  case arpSha =>
    rw [← Vector.toList_inj, hsha, Packet.arpSha, Vector.toList_ofFn]
    have hpart : ∀ i : Fin 6, (getPacket m ⟨j, data⟩).payload (22 + i) = [s₀, s₁, s₂, s₃, s₄, s₅].get i := by
      intro i
      rw [hbyte (22 + i) (by omega), ← hdata]
      fin_cases i <;> rfl
    simp only [hpart]
    rfl
  case etherShost =>
    rw [hsha]
    refine read_eq_of_getD ?_ rfl
    intro i hi
    rw [hbyte (6 + i) (by omega), ← hdata]
    interval_cases i <;> rfl

end Packet

/-- The frame is the same but for the Ethernet addresses, the TTL and the checksum. -/
structure CarriedAs (data data' : List UInt8) : Prop where
  length : data'.length = data.length
  bytes : ∀ i, 12 ≤ i → i ≠ 22 → i ≠ 24 → i ≠ 25 → data'[i]? = data[i]?

lemma CarriedAs.trans {data data' data'' : List UInt8} (h : CarriedAs data data')
    (h' : CarriedAs data' data'') : CarriedAs data data'' := by
  refine ⟨h'.length.trans h.length, ?_⟩
  intro i h12 h22 h24 h25
  exact (h'.bytes i h12 h22 h24 h25).trans (h.bytes i h12 h22 h24 h25)

lemma CarriedAs.refl (data : List UInt8) : CarriedAs data data := ⟨rfl, fun _ _ _ _ _ => rfl⟩

/-! ### What one router does -/

namespace Router

open Packet

variable {env : Env} {s : Router} {src dst a : UInt32} {t : ℕ} {data : List UInt8} {m p q : Packet}
  {j : Fin ROUTER_NUM_INTERFACES} {route : RouteTableEntry} {entry : ArpTableEntry} {dhost shost : Mac}

/-- A packet kept from a frame is sent with the bytes of the frame. -/
lemma carriedAs_read (hlen : data.length ≤ MAX_LEN) (hk : Keeps (getPacket m ⟨j, data⟩) q) :
    CarriedAs data (read q.payload 0 q.len) := by
  have hp : (getPacket m ⟨j, data⟩).len = data.length := by
    show (data.take MAX_LEN).length = data.length
    rw [List.take_of_length_le hlen]
  refine ⟨by rw [read_length, hk.len, hp], ?_⟩
  intro i h12 h22 h24 h25
  rcases Nat.lt_or_ge i data.length with hi | hi
  · rw [read_getElem? (by rw [hk.len, hp]; exact hi), Nat.zero_add, hk.payload i h12 h22 h24 h25,
      getPacket_payload (by rw [hp]; exact hi), List.getElem?_eq_getElem hi, List.getD_eq_getElem _ _ hi]
  · rw [List.getElem?_eq_none hi, List.getElem?_eq_none (by rw [read_length, hk.len, hp]; exact hi)]

/-- A packet that is not for the router goes through `forward_packet`. -/
lemma step_valid (h : Valid (linkPacket data) src dst t) (hforeign : dst ≠ env.interfaceIp (j : ℕ)) :
    step env s ⟨j, data⟩ = (forwardPacket env { s with m := getPacket s.m ⟨j, data⟩ }
      (getPacket s.m ⟨j, data⟩)).map fun r => ({ r.1 with m := r.2.1 }, r.2.2) := by
  have hp : Valid (getPacket s.m ⟨j, data⟩) src dst t := h.received
  have hme : ¬ icmpForMe env (getPacket s.m ⟨j, data⟩) = true := by
    intro hme
    exact hforeign (hp.daddr.symm.trans (of_decide_eq_true hme).2)
  unfold step
  dsimp only
  rw [if_pos hp.etherType, handleIp, if_neg hme]

/-- The frame that a packet with a known next hop is sent as. -/
structure SentAs (route : RouteTableEntry) (mac : Mac) (src dst : UInt32) (t : ℕ) (data : List UInt8)
    (x : Sent) : Prop where
  interface : x.interface = route.interface
  valid : Valid (linkPacket x.data) src dst t
  carried : CarriedAs data x.data
  dhost : x.data.take 6 = mac.toList

lemma sentAs_sendPacket (hlen : data.length ≤ MAX_LEN) (hk : Keeps (getPacket m ⟨j, data⟩) q)
    (h : Valid q src dst (t + 1)) :
    SentAs route dhost src dst t data (sendPacket route.interface (setEther (updateHdr q) dhost shost)) where
  interface := rfl
  valid := by
    refine h.updateHdr.setEther.sent ?_
    show q.len ≤ MAX_LEN
    rw [hk.len]
    exact getPacket_len_le
  carried := carriedAs_read hlen ((hk.trans keeps_updateHdr).trans keeps_setEther)
  dhost := by
    have hlen' : 34 ≤ (setEther (updateHdr q) dhost shost).len := h.len
    rw [sendPacket, take_read (by omega)]
    exact etherDhost_setEther

/-- **A packet with a known next hop is forwarded.** -/
theorem step_routed (hlen : data.length ≤ MAX_LEN) (h : Valid (linkPacket data) src dst (t + 1))
    (ht : 1 ≤ t) (hforeign : dst ≠ env.interfaceIp (j : ℕ))
    (hroute : getBestRoute s.rtable dst 0 (s.rtable.length - 1) = some route)
    (hentry : s.getArpEntry route.nextHop = some (some entry)) :
    ∃ m x, step env s ⟨j, data⟩ = some ({ s with m }, [x]) ∧ SentAs route entry.mac src dst t data x := by
  have hp : Valid (getPacket s.m ⟨j, data⟩) src dst (t + 1) := h.received
  have hbest : bestRoute { s with m := getPacket s.m ⟨j, data⟩ } (getPacket s.m ⟨j, data⟩) =
      some route := by
    rw [bestRoute, hp.daddr]
    exact hroute
  have hentry' : getArpEntry { s with m := getPacket s.m ⟨j, data⟩ } route.nextHop =
      some (some entry) := hentry
  rw [step_valid h hforeign, forwardPacket, if_neg (not_not.mpr hp.verifies),
    if_neg (hp.not_ttl_le (by omega)), hbest]
  dsimp only
  rw [hentry']
  exact ⟨_, _, rfl, sentAs_sendPacket hlen ⟨rfl, rfl, fun _ _ _ _ _ => rfl⟩ hp⟩

/-- The packet of a frame that waits in the queue. -/
structure ParkedAs (src dst : UInt32) (t : ℕ) (j : Fin ROUTER_NUM_INTERFACES) (data : List UInt8)
    (q : Packet) : Prop where
  valid : Valid q src dst t
  keeps : ∃ m, Keeps (getPacket m ⟨j, data⟩) q

/-- **A packet without one waits**, and a request is sent. -/
theorem step_park (h : Valid (linkPacket data) src dst (t + 1)) (ht : 1 ≤ t)
    (hforeign : dst ≠ env.interfaceIp (j : ℕ))
    (hroute : getBestRoute s.rtable dst 0 (s.rtable.length - 1) = some route)
    (hentry : s.getArpEntry route.nextHop = some none) :
    ∃ m q, step env s ⟨j, data⟩ = some ({ s with m, packets := s.packets ++ [q] },
      [arpRequest env route]) ∧ ParkedAs src dst t j data q := by
  have hp : Valid (getPacket s.m ⟨j, data⟩) src dst (t + 1) := h.received
  have hbest : bestRoute { s with m := getPacket s.m ⟨j, data⟩ } (getPacket s.m ⟨j, data⟩) =
      some route := by
    rw [bestRoute, hp.daddr]
    exact hroute
  have hentry' : getArpEntry { s with m := getPacket s.m ⟨j, data⟩ } route.nextHop = some none := hentry
  rw [step_valid h hforeign, forwardPacket, if_neg (not_not.mpr hp.verifies),
    if_neg (hp.not_ttl_le (by omega)), hbest]
  dsimp only
  rw [hentry']
  exact ⟨_, _, rfl, hp.updateHdr, _, keeps_updateHdr⟩

/-- **A request for the address of the interface is answered.** -/
theorem step_request {spa tpa : UInt32} {sha : Mac}
    (h : IsArp (linkPacket data) ARPOP_REQUEST spa tpa sha) (hown : tpa = env.interfaceIp (j : ℕ)) :
    ∃ m x, step env s ⟨j, data⟩ = some ({ s with m }, [x]) ∧ x.interface = (j : ℕ) ∧
      IsArp (linkPacket x.data) ARPOP_REPLY tpa spa (env.interfaceMac (j : ℕ)) := by
  have hp : IsArp (getPacket s.m ⟨j, data⟩) ARPOP_REQUEST spa tpa sha := h.received
  have hnot : ¬ (getPacket s.m ⟨j, data⟩).etherType = ETHERTYPE_IP := by
    rw [hp.etherType]
    decide
  have hmine : (getPacket s.m ⟨j, data⟩).arpTpa =
      env.interfaceIp (getPacket s.m ⟨j, data⟩).interface := hp.arpTpa.trans hown
  unfold step
  dsimp only
  rw [if_neg hnot, if_pos hp.etherType, if_pos hp.arpOp, handleArpRequest]
  dsimp only
  rw [if_pos hmine, hp.arpSpa, hp.arpTpa, hp.etherShost]
  exact ⟨_, _, rfl, rfl, isArp_sendArp Vector.length_toList (by decide) (o := 2) rfl⟩

/-- What an ARP reply does when one packet waits. -/
lemma step_reply {tpa : UInt32} {mac : Mac} (env : Env) (j : Fin ROUTER_NUM_INTERFACES)
    (hpackets : s.packets = [q]) (hs : Small s)
    (hroom : s.arpTable.length + 1 < ARP_MAXSIZE) (h : IsArp (linkPacket data) ARPOP_REPLY a tpa mac) :
    ∃ m, step env s ⟨j, data⟩ = (forwardPacket env
      { s with m, packets := [], arpTable := s.arpTable ++ [⟨a, mac⟩] } q).map fun r => (r.1, r.2.2) := by
  have hp : IsArp (getPacket s.m ⟨j, data⟩) ARPOP_REPLY a tpa mac := h.received
  have hnot : ¬ (getPacket s.m ⟨j, data⟩).etherType = ETHERTYPE_IP := by
    rw [hp.etherType]
    decide
  have hop : ¬ (getPacket s.m ⟨j, data⟩).arpOp = ARPOP_REQUEST := by
    rw [hp.arpOp]
    decide
  have hs' : Small { s with m := getPacket s.m ⟨j, data⟩ } := ⟨hs.length, hs.arpMaxSize, hs.arpBlock⟩
  unfold step
  dsimp only
  rw [if_neg hnot, if_pos hp.etherType, if_neg hop, handleArpReply, hs'.addArpEntry hroom,
    Option.bind_some]
  dsimp only
  rw [hpackets, hp.arpSpa, hp.arpSha]
  exact ⟨_, rfl⟩

/-- An address without an entry has one after the reply. -/
lemma getArpEntry_snoc {mac : Mac} (hs : Small s) (hroom : s.arpTable.length + 1 < ARP_MAXSIZE)
    (hnone : s.getArpEntry a = some none) (packets : List Packet) :
    getArpEntry { s with m, packets, arpTable := s.arpTable ++ [⟨a, mac⟩] } a = some (some ⟨a, mac⟩) := by
  rw [getArpEntry_of_le]
  · have hne : s.arpTable.find? (fun e => a = e.ip) = none := by
      rw [getArpEntry_of_le hs.entries_le] at hnone
      exact Option.some.inj hnone
    show some ((s.arpTable ++ [(⟨a, mac⟩ : ArpTableEntry)]).find? fun e => a = e.ip) = _
    rw [List.find?_append, hne]
    simp
  · show arpEntrySize * (s.arpTable ++ [(⟨a, mac⟩ : ArpTableEntry)]).length ≤ s.arpBlock
    rw [List.length_append, List.length_singleton, hs.arpBlock]
    exact Nat.mul_le_mul_left _ hroom.le

/-- **The packet that waited is forwarded**, unless its TTL ends with the one that is taken from it a
second time. -/
theorem step_drain {tpa : UInt32} {mac : Mac} {data' : List UInt8} {j' : Fin ROUTER_NUM_INTERFACES}
    (env : Env) (j : Fin ROUTER_NUM_INTERFACES) (hpackets : s.packets = [q]) (hs : Small s)
    (hroom : s.arpTable.length + 1 < ARP_MAXSIZE) (h : IsArp (linkPacket data) ARPOP_REPLY a tpa mac)
    (hlen : data'.length ≤ MAX_LEN) (hq : ParkedAs src dst t j' data' q)
    (hroute : getBestRoute s.rtable dst 0 (s.rtable.length - 1) = some route)
    (ha : route.nextHop = a) (hnone : s.getArpEntry a = some none) :
    ∃ m x, step env s ⟨j, data⟩ =
      some ({ s with m, packets := [], arpTable := s.arpTable ++ [⟨a, mac⟩] }, [x]) ∧
      if 2 ≤ t then SentAs route mac src dst (t - 1) data' x
      else x.interface = (j' : ℕ) ∧ Message (linkPacket x.data) dst src 64 := by
  obtain ⟨m, hstep⟩ := step_reply env j hpackets hs hroom h
  obtain ⟨m', hk⟩ := hq.keeps
  have hbest : bestRoute { s with m, packets := [], arpTable := s.arpTable ++ [⟨a, mac⟩] } q =
      some route := by
    rw [bestRoute, hq.valid.daddr]
    exact hroute
  rw [hstep, forwardPacket, if_neg (not_not.mpr hq.valid.verifies)]
  by_cases ht : 2 ≤ t
  · rw [if_neg (hq.valid.not_ttl_le ht), hbest]
    dsimp only
    rw [ha, getArpEntry_snoc hs hroom hnone []]
    obtain ⟨t, rfl⟩ := Nat.exists_eq_add_of_le' (show 1 ≤ t by omega)
    refine ⟨m, _, rfl, ?_⟩
    rw [if_pos ht]
    exact sentAs_sendPacket hlen hk hq.valid
  · rw [if_pos (hq.valid.ttl_le (by omega))]
    refine ⟨m, _, rfl, ?_⟩
    rw [if_neg ht]
    exact ⟨hk.interface, icmpError_message hq.valid.toDatagram (by decide)⟩

/-- The type of an ICMP error. -/
lemma icmpError_type (p : Packet) (type : UInt8) : (icmpError p type).data[34]? = some type := by
  have hether : (buildEthhdr p.etherDhost p.etherShost (htons ETHERTYPE_IP) ++
      icmpIpHdr p.saddr p.daddr).length = 34 := by
    rw [List.length_append, icmpIpHdr_length, buildEthhdr]
    simp [Packet.etherDhost, Packet.etherShost]
  rw [icmpError, sendIcmpError, List.getElem?_append_right hether.le, hether]
  rfl

/-- **A packet whose TTL ends or that has no route is answered** on the interface it came in on. -/
theorem step_answered (h : Valid (linkPacket data) src dst t) (hforeign : dst ≠ env.interfaceIp (j : ℕ))
    (hend : t ≤ 1 ∨ getBestRoute s.rtable dst 0 (s.rtable.length - 1) = none) :
    ∃ m x, step env s ⟨j, data⟩ = some ({ s with m }, [x]) ∧ x.interface = (j : ℕ) ∧
      Message (linkPacket x.data) dst src 64 ∧ x.data.length ≤ MAX_LEN ∧
      x.data[34]? = some (if t ≤ 1 then ICMP_TIME_EXCEEDED else ICMP_DEST_UNREACH) := by
  have hp : Valid (getPacket s.m ⟨j, data⟩) src dst t := h.received
  have hshort : ∀ type, (icmpError (getPacket s.m ⟨j, data⟩) type).data.length ≤ MAX_LEN := by
    intro type
    have hlen : (icmpError (getPacket s.m ⟨j, data⟩) type).data.length = 42 := by
      simp [icmpError, sendIcmpError, buildEthhdr, icmpIpHdr_length, icmpHdr, Packet.etherDhost,
        Packet.etherShost]
    rw [hlen]
    decide
  rw [step_valid h hforeign, forwardPacket, if_neg (not_not.mpr hp.verifies)]
  by_cases ht : t ≤ 1
  · rw [if_pos (hp.ttl_le ht), if_pos ht]
    exact ⟨_, _, rfl, rfl, icmpError_message hp.toDatagram (by decide), hshort _, icmpError_type _ _⟩
  · have hnone : bestRoute { s with m := getPacket s.m ⟨j, data⟩ } (getPacket s.m ⟨j, data⟩) = none := by
      rw [bestRoute, hp.daddr]
      exact hend.resolve_left ht
    rw [if_neg (hp.not_ttl_le (by omega)), hnone, if_neg ht]
    exact ⟨_, _, rfl, rfl, icmpError_message hp.toDatagram (by decide), hshort _, icmpError_type _ _⟩

end Router

end Protocoale.Tema1

import Protocoale.Tema1.Router

/-!
`forward_packet` on one packet. Its outcomes are listed once (`forwardPacket_cases`), and what it
does to the bytes is split in two: `updateHdr` changes three bytes of the IP header, which verifies
afterwards (`updateHdr_verifies`), and `setEther` the twelve bytes of the Ethernet addresses.
-/

namespace Protocoale.Tema1

open Lib.Bytes Lib.Ones

namespace Router

variable {env : Env} {s s' : Router} {m m' : Packet} {out : List Sent} {x : Sent}

/-! ### Outcomes -/

/-- **The outcomes of `forward_packet`**: nothing is done, the packet is answered, it is put in the
queue, or it is transmitted. -/
theorem forwardPacket_cases (h : forwardPacket env s m = some (s', m', out)) :
    (ipChecksum ipHdrAddr m.ipHdr ≠ 0 ∧ s' = s ∧ m' = m ∧ out = []) ∨
    (ipChecksum ipHdrAddr m.ipHdr = 0 ∧ m.ttl ≤ 1 ∧ s' = s ∧ m' = m ∧
      out = [icmpError m ICMP_TIME_EXCEEDED]) ∨
    (ipChecksum ipHdrAddr m.ipHdr = 0 ∧ ¬ m.ttl ≤ 1 ∧ s.bestRoute m = none ∧ s' = s ∧ m' = m ∧
      out = [icmpError m ICMP_DEST_UNREACH]) ∨
    (ipChecksum ipHdrAddr m.ipHdr = 0 ∧ ¬ m.ttl ≤ 1 ∧ ∃ route, s.bestRoute m = some route ∧
      s.getArpEntry route.nextHop = some none ∧
      s' = { s with packets := s.packets ++ [updateHdr m] } ∧ m' = updateHdr m ∧
      out = [arpRequest env route]) ∨
    (ipChecksum ipHdrAddr m.ipHdr = 0 ∧ ¬ m.ttl ≤ 1 ∧ ∃ route entry, s.bestRoute m = some route ∧
      s.getArpEntry route.nextHop = some (some entry) ∧ s' = s ∧
      m' = setEther (updateHdr m) entry.mac (env.interfaceMac route.interface) ∧
      out = [sendPacket route.interface m']) := by
  unfold forwardPacket at h
  split at h
  · next hck =>
    cases h
    exact Or.inl ⟨hck, rfl, rfl, rfl⟩
  · next hck =>
    rw [not_not] at hck
    refine Or.inr ?_
    split at h
    · next httl =>
      cases h
      exact Or.inl ⟨hck, httl, rfl, rfl, rfl⟩
    · next httl =>
      refine Or.inr ?_
      cases hroute : s.bestRoute m with
      | none =>
        rw [hroute] at h
        cases h
        exact Or.inl ⟨hck, httl, rfl, rfl, rfl, rfl⟩
      | some route =>
        rw [hroute] at h
        obtain ⟨entry, hentry, he⟩ := Option.map_eq_some_iff.mp h
        cases entry with
        | none =>
          cases he
          exact Or.inr (Or.inl ⟨hck, httl, route, rfl, hentry, rfl, rfl, rfl⟩)
        | some entry =>
          cases he
          exact Or.inr (Or.inr ⟨hck, httl, route, entry, rfl, hentry, rfl, rfl, rfl⟩)

/-- A frame sent by `forward_packet` itself. -/
lemma forwardPacket_sent (h : forwardPacket env s m = some (s', m', out)) (hx : x ∈ out)
    (hvia : x.via = .forwardPacket) :
    ¬ m.ttl ≤ 1 ∧ ∃ route entry, s.bestRoute m = some route ∧
      s.getArpEntry route.nextHop = some (some entry) ∧
      x = sendPacket route.interface
        (setEther (updateHdr m) entry.mac (env.interfaceMac route.interface)) := by
  rcases forwardPacket_cases h with ⟨-, -, -, rfl⟩ | ⟨-, -, -, -, rfl⟩ | ⟨-, -, -, -, -, rfl⟩ |
    ⟨-, -, route, -, -, -, -, rfl⟩ | ⟨-, httl, route, entry, hroute, hentry, -, rfl, rfl⟩
  · simp at hx
  · rw [List.mem_singleton.mp hx] at hvia
    cases hvia
  · rw [List.mem_singleton.mp hx] at hvia
    cases hvia
  · rw [List.mem_singleton.mp hx] at hvia
    cases hvia
  · exact ⟨httl, route, entry, hroute, hentry, List.mem_singleton.mp hx⟩

/-! ### The IP header -/

@[simp] lemma bytes16_length (x : ℕ) : (bytes16 x).length = 2 := rfl

@[simp] lemma updateHdr_len : (updateHdr m).len = m.len := rfl

/-- The header with the TTL lowered and a zero in the checksum field. -/
def clearedHdr (m : Packet) : Buf := write (write m.payload 22 [m.ttl - 1]) 24 (bytes16 0)

lemma updateHdr_payload : (updateHdr m).payload =
    write (clearedHdr m) 24 (bytes16 (ipChecksum ipHdrAddr (read (clearedHdr m) 14 20))) := rfl

/-- The bytes outside the TTL and the checksum stay as they were. -/
lemma updateHdr_of_ne {i : ℕ} (h22 : i ≠ 22) (h24 : i < 24 ∨ 26 ≤ i) :
    (updateHdr m).payload i = m.payload i := by
  have hcleared : clearedHdr m i = m.payload i := by
    have h1 : write m.payload 22 [m.ttl - 1] i = m.payload i := by
      rcases Nat.lt_or_gt_of_ne h22 with h | h
      · exact write_of_lt h
      · exact write_of_ge h
    rw [clearedHdr, ← h1]
    rcases h24 with h | h
    · exact write_of_lt h
    · exact write_of_ge h
  rw [updateHdr_payload, ← hcleared]
  rcases h24 with h | h
  · exact write_of_lt h
  · exact write_of_ge h

lemma updateHdr_22 : (updateHdr m).payload 22 = m.ttl - 1 := by
  rw [updateHdr_payload, write_of_lt (by omega), clearedHdr, write_of_lt (by omega)]
  exact write_apply (show 0 < [m.ttl - 1].length by simp)

@[simp] lemma ttl_updateHdr : (updateHdr m).ttl = m.ttl - 1 := by
  rw [Packet.ttl, updateHdr_22]

@[simp] lemma daddr_updateHdr : (updateHdr m).daddr = m.daddr := by
  apply load32_congr
  intro i h1 _
  exact updateHdr_of_ne (by omega) (by omega)

/-- The 20 bytes of a header, taken apart at the checksum field. -/
lemma read_hdr (b : Buf) : read b 14 20 = read b 14 10 ++ (read b 24 2 ++ read b 26 8) := by
  have hafter : read b 24 10 = read b 24 2 ++ read b 26 8 := read_add (n := 2) (m := 8)
  rw [← hafter]
  exact read_add (n := 10) (m := 10)

/-- **The header that is sent verifies, at every alignment.** -/
theorem updateHdr_verifies (addr : ℕ) : ipChecksum addr (updateHdr m).ipHdr = 0 := by
  have hck : read (updateHdr m).payload 24 2 =
      bytes16 (ipChecksum ipHdrAddr (read (clearedHdr m) 14 20)) := read_write_self
  have hbefore : read (updateHdr m).payload 14 10 = read (clearedHdr m) 14 10 :=
    read_write_disjoint (by omega)
  have hafter : read (updateHdr m).payload 26 8 = read (clearedHdr m) 26 8 :=
    read_write_disjoint (by simp)
  have hzero : read (clearedHdr m) 24 2 = bytes16 0 := read_write_self
  rw [Packet.ipHdr, read_hdr, hck, hbefore, hafter, read_hdr (clearedHdr m), hzero]
  exact ipChecksum_verifies _ _ (by simp) addr ipHdrAddr

/-! ### The Ethernet addresses -/

variable {dhost shost : Mac}

lemma setEther_payload : (setEther m dhost shost).payload =
    write (write m.payload 0 dhost.toList) 6 shost.toList := rfl

lemma setEther_of_ge {i : ℕ} (h : 12 ≤ i) : (setEther m dhost shost).payload i = m.payload i := by
  rw [setEther_payload, write_of_ge (by simpa using h), write_of_ge (by simp; omega)]

lemma read_setEther_of_ge {off n : ℕ} (h : 12 ≤ off) :
    read (setEther m dhost shost).payload off n = read m.payload off n := by
  apply read_congr
  intro i h1 _
  exact setEther_of_ge (h.trans h1)

lemma etherDhost_setEther : (setEther m dhost shost).etherDhost = dhost.toList := by
  have h : read (write m.payload 0 dhost.toList) 0 dhost.toList.length = dhost.toList :=
    read_write_self
  rw [Vector.length_toList] at h
  rw [Packet.etherDhost, setEther_payload, read_write_disjoint (by omega), h]

lemma etherShost_setEther : (setEther m dhost shost).etherShost = shost.toList := by
  have h : read (write (write m.payload 0 dhost.toList) 6 shost.toList) 6 shost.toList.length =
      shost.toList := read_write_self
  rwa [Vector.length_toList] at h

/-! ### Integrity of what is transmitted -/

/-- The frame `x` is the packet `m`, forwarded. -/
structure Integrity (env : Env) (s : Router) (m : Packet) (x : Sent) : Prop where
  /-- It has the same length and the same bytes after the IP header. -/
  length : x.data.length = m.len
  body : x.data.drop 34 = read m.payload 34 (m.len - 34)
  /-- Its IP header differs in the TTL and the checksum only. -/
  hdr : ∀ i, 14 ≤ i → i < 34 → i ≠ 22 → i ≠ 24 → i ≠ 25 → x.data[i]? = some (m.payload i)
  etherType : ∀ i, 12 ≤ i → i < 14 → x.data[i]? = some (m.payload i)
  ttl : 2 ≤ m.ttl.toNat ∧ x.data[22]? = some (m.ttl - 1)
  /-- The header verifies wherever it is stored. -/
  verifies : ∀ addr, ipChecksum addr ((x.data.drop 14).take 20) = 0
  /-- It leaves on the route of its destination, for the next hop. -/
  route : ∃ route entry, s.bestRoute m = some route ∧
    s.getArpEntry route.nextHop = some (some entry) ∧ x.interface = route.interface ∧
    x.data.take 6 = entry.mac.toList ∧
    (x.data.drop 6).take 6 = (env.interfaceMac route.interface).toList

/-- The IP header verifies in the frame that is sent. -/
lemma sendPacket_verifies (interface : ℤ) (hlen : 34 ≤ m.len) (addr : ℕ) :
    ipChecksum addr (((sendPacket interface (setEther (updateHdr m) dhost shost)).data.drop 14).take
      20) = 0 := by
  have hplen : (setEther (updateHdr m) dhost shost).len = m.len := rfl
  rw [sendPacket, drop_read, take_read (by omega), read_setEther_of_ge (by omega)]
  exact updateHdr_verifies addr

/-- **Integrity of a forwarded frame.** -/
theorem forwardPacket_integrity (h : forwardPacket env s m = some (s', m', out))
    (hlen : 34 ≤ m.len) (hx : x ∈ out) (hvia : x.via = .forwardPacket) : Integrity env s m x := by
  obtain ⟨httl, route, entry, hroute, hentry, rfl⟩ := forwardPacket_sent h hx hvia
  have hdata : (sendPacket route.interface
      (setEther (updateHdr m) entry.mac (env.interfaceMac route.interface))).data =
      read (setEther (updateHdr m) entry.mac (env.interfaceMac route.interface)).payload 0 m.len :=
    rfl
  have hbyte : ∀ i, 12 ≤ i → i < 34 →
      (read (setEther (updateHdr m) entry.mac (env.interfaceMac route.interface)).payload 0
        m.len)[i]? = some ((updateHdr m).payload i) := by
    intro i h1 h2
    rw [read_getElem? (by omega), Nat.zero_add, setEther_of_ge h1]
  constructor
  case length => rw [hdata, read_length]
  case body =>
    rw [hdata, drop_read, read_setEther_of_ge (by omega)]
    apply read_congr
    intro i h1 _
    exact updateHdr_of_ne (by omega) (by omega)
  case hdr =>
    intro i h1 h2 h22 h24 h25
    rw [hdata, hbyte i (by omega) h2, updateHdr_of_ne h22 (by omega)]
  case etherType =>
    intro i h1 h2
    rw [hdata, hbyte i h1 (by omega), updateHdr_of_ne (by omega) (by omega)]
  case ttl =>
    refine ⟨?_, by rw [hdata, hbyte 22 (by omega) (by omega), updateHdr_22]⟩
    rw [UInt8.le_iff_toNat_le] at httl
    simp at httl
    omega
  case verifies =>
    exact sendPacket_verifies _ hlen
  case route =>
    refine ⟨route, entry, hroute, hentry, rfl, ?_, ?_⟩
    · rw [hdata, take_read (by omega)]
      exact etherDhost_setEther
    · rw [hdata, drop_read, take_read (by omega)]
      exact etherShost_setEther

/-- A packet of 34 bytes from `10.0.0.1` to `10.0.1.host`. -/
def packetTo (ttl host : UInt8) : Packet := updateHdr
  { len := 34
    payload := fun i => ([2, 0, 0, 0, 0, 1, 2, 0, 0, 0, 0, 2, 8, 0, 0x45, 0, 0, 20, 0, 0, 0, 0,
      ttl + 1, 17, 0, 0, 10, 0, 0, 1, 10, 0, 1, host] : List UInt8).getD i 0
    interface := 0 }

/-- A packet from `10.0.0.1` to `10.0.1.host`, received on the interface `0`. -/
def ipFrame (ttl host : UInt8) : Frame where
  interface := 0
  data := read (packetTo ttl host).payload 0 34

/-- An ARP packet of the host `10.0.1.host`. -/
def arpFrame (op host mac : UInt8) : Frame where
  interface := 1
  data := [1, 1, 1, 1, 1, 1, mac, mac, mac, mac, mac, mac, 8, 6, 0, 1, 8, 0, 6, 4, 0, op,
    mac, mac, mac, mac, mac, mac, 10, 0, 1, host, 1, 1, 1, 1, 1, 1, 10, 0, 1, 254]

/-- The interfaces of a router in the networks `10.0.i.0/24`. -/
def testEnv : Env where
  interfaceIp i := le32 10 0 (UInt8.ofNat i.toNat) 254
  interfaceMac i := Vector.replicate 6 (UInt8.ofNat i.toNat)

/-- The router with routes to the hosts `10.0.1.7` and `10.0.1.8`, before any ARP reply. -/
def testRouter : Router := init [⟨le32 10 0 1 8, le32 10 0 1 8, le32 255 255 255 255, 1⟩,
  ⟨le32 10 0 1 7, le32 10 0 1 7, le32 255 255 255 255, 1⟩] ⟨0, fun _ => 0, 0⟩

/-- The router after an ARP reply of `10.0.1.7`. -/
def testRouter7 : Router :=
  { testRouter with arpTable := [⟨le32 10 0 1 7, Vector.replicate 6 7⟩] }

theorem forwardPacket_integrity_packetTo : ∃ s' m' out x,
    forwardPacket testEnv testRouter7 (packetTo 64 7) = some (s', m', out) ∧ x ∈ out ∧
      Integrity testEnv testRouter7 (packetTo 64 7) x := by
  have hvia : (forwardPacket testEnv testRouter7 (packetTo 64 7)).map
      (fun r => r.2.2.map (·.via)) = some [.forwardPacket] := by decide +kernel
  obtain ⟨⟨s', m', out⟩, h, hout⟩ := Option.map_eq_some_iff.mp hvia
  obtain ⟨x, rfl, hx⟩ := List.map_eq_singleton_iff.mp hout
  exact ⟨s', m', [x], x, h, List.mem_singleton_self x,
    forwardPacket_integrity h (by decide) (List.mem_singleton_self x) hx⟩

end Router

end Protocoale.Tema1

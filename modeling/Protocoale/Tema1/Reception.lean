import Protocoale.Tema1.Steps

/-!
What a received frame can influence. The buffer of the main loop is not cleared between two frames
and no handler looks at `m.len` before it reads a header, so a short frame is completed by bytes of
the frame before it. `Whole` says that a frame contains every header byte the handlers read in it;
then the rest of the buffer has no influence, on this frame or later ones (`exec_alike`). The
checksum of the IP header is verified by `forward_packet`, so a corrupted header has no effect
unless the packet is answered before it gets there (`inert_iff`).
-/

namespace Protocoale.Tema1

open Lib Lib.Bytes

/-! ### Packets with the same first bytes -/

namespace Packet

/-- Two packets of one length and interface that agree on their first `n` bytes. -/
structure Same (n : ℕ) (p p' : Packet) : Prop where
  len : p'.len = p.len
  interface : p'.interface = p.interface
  payload : ∀ i < n, p'.payload i = p.payload i

/-- The two packets agree on what belongs to them and on their headers. -/
def Alike (p p' : Packet) : Prop := Same (max p.len 34) p p'

variable {n k : ℕ} {p p' : Packet}

lemma Same.mono (h : Same n p p') (hk : k ≤ n) : Same k p p' :=
  ⟨h.len, h.interface, fun i hi => h.payload i (by omega)⟩

lemma Same.read (h : Same n p p') {off k : ℕ} (hk : off + k ≤ n) :
    read p'.payload off k = read p.payload off k := by
  apply read_congr
  intro i _ hi
  exact h.payload i (by omega)

lemma Same.load32 (h : Same n p p') {off : ℕ} (hk : off + 4 ≤ n) :
    load32 p'.payload off = load32 p.payload off := by
  apply load32_congr
  intro i _ hi
  exact h.payload i (by omega)

lemma Same.etherType (h : Same n p p') (hn : 14 ≤ n) : p'.etherType = p.etherType := by
  unfold Packet.etherType
  rw [h.payload 12 (by omega), h.payload 13 (by omega)]

lemma Same.etherDhost (h : Same n p p') (hn : 14 ≤ n) : p'.etherDhost = p.etherDhost :=
  h.read (by omega)

lemma Same.etherShost (h : Same n p p') (hn : 14 ≤ n) : p'.etherShost = p.etherShost :=
  h.read (by omega)

lemma Same.ipHdr (h : Same n p p') (hn : 34 ≤ n) : p'.ipHdr = p.ipHdr := h.read (by omega)

lemma Same.ttl (h : Same n p p') (hn : 34 ≤ n) : p'.ttl = p.ttl := h.payload 22 (by omega)

lemma Same.protocol (h : Same n p p') (hn : 34 ≤ n) : p'.protocol = p.protocol :=
  h.payload 23 (by omega)

lemma Same.saddr (h : Same n p p') (hn : 34 ≤ n) : p'.saddr = p.saddr := h.load32 (by omega)

lemma Same.daddr (h : Same n p p') (hn : 34 ≤ n) : p'.daddr = p.daddr := h.load32 (by omega)

lemma Same.icmpType (h : Same n p p') (hn : 35 ≤ n) : p'.icmpType = p.icmpType :=
  h.payload 34 (by omega)

lemma Same.icmpEcho (h : Same n p p') (hn : 42 ≤ n) : p'.icmpEcho = p.icmpEcho := h.read (by omega)

lemma Same.arpOp (h : Same n p p') (hn : 22 ≤ n) : p'.arpOp = p.arpOp := by
  unfold Packet.arpOp
  rw [h.payload 20 (by omega), h.payload 21 (by omega)]

lemma Same.arpSha (h : Same n p p') (hn : 28 ≤ n) : p'.arpSha = p.arpSha := by
  apply Vector.ext
  intro i hi
  simp only [Packet.arpSha, Vector.getElem_ofFn]
  exact h.payload (22 + i) (by omega)

lemma Same.arpSpa (h : Same n p p') (hn : 32 ≤ n) : p'.arpSpa = p.arpSpa := h.load32 (by omega)

lemma Same.arpTpa (h : Same n p p') (hn : 42 ≤ n) : p'.arpTpa = p.arpTpa := h.load32 (by omega)

/-- The same bytes written to both packets. -/
lemma Same.write (h : Same n p p') (off : ℕ) (bs : List UInt8) :
    Same n { p with payload := write p.payload off bs } { p' with payload := write p'.payload off bs } := by
  refine ⟨h.len, h.interface, ?_⟩
  intro i hi
  show Bytes.write p'.payload off bs i = Bytes.write p.payload off bs i
  unfold Bytes.write
  split
  · rfl
  · exact h.payload i hi

end Packet

namespace Router

open Packet

/-! ### Routers that differ in bytes nobody reads -/

/-- Two routers with the same tables and, in the queue, packets that agree on what belongs to them.
The buffer of the main loop may hold anything. -/
structure Alike (s s' : Router) : Prop where
  rtable : s'.rtable = s.rtable
  arpTable : s'.arpTable = s.arpTable
  arpMaxSize : s'.arpMaxSize = s.arpMaxSize
  arpBlock : s'.arpBlock = s.arpBlock
  packets : List.Forall₂ Packet.Alike s.packets s'.packets

variable {env : Env} {s s' : Router} {p p' : Packet} {n : ℕ} {f : Frame} {fs : List Frame}
  {out : List Sent}

lemma updateHdr_same (h : Same n p p') (hn : 34 ≤ n) : Same n (updateHdr p) (updateHdr p') := by
  have h1 := h.write 22 [p.ttl - 1]
  have h2 := h1.write 24 (bytes16 0)
  have h3 := h2.write 24 (bytes16 (ipChecksum ipHdrAddr (read (clearedHdr p) 14 20)))
  have hhdr : read (clearedHdr p') 14 20 = read (clearedHdr p) 14 20 := by
    unfold clearedHdr
    rw [h.ttl hn]
    exact h2.read (by omega)
  refine ⟨h.len, h.interface, ?_⟩
  rw [updateHdr_payload, updateHdr_payload, hhdr]
  unfold clearedHdr
  rw [h.ttl hn]
  exact h3.payload

lemma setEther_same (h : Same n p p') (dhost shost : Mac) :
    Same n (setEther p dhost shost) (setEther p' dhost shost) :=
  (h.write 0 dhost.toList).write 6 shost.toList

lemma icmpError_same (h : Same n p p') (hn : 34 ≤ n) (type : UInt8) :
    icmpError p' type = icmpError p type := by
  unfold icmpError
  rw [h.saddr hn, h.daddr hn, h.etherDhost (by omega), h.etherShost (by omega), h.interface]

lemma sendPacket_same (h : Same n p p') (hn : p.len ≤ n) (interface : ℤ) :
    sendPacket interface p' = sendPacket interface p := by
  unfold sendPacket
  rw [h.len, h.read (by omega)]

lemma updateHdr_alike (h : Packet.Alike p p') : Packet.Alike (updateHdr p) (updateHdr p') :=
  updateHdr_same h (le_max_right _ _)

/-- **`forward_packet` reads no more of a packet than belongs to it and its headers.** -/
theorem forwardPacket_alike (env : Env) (h : Alike s s') (hp : Packet.Alike p p') :
    Option.Rel (fun r r' => (Alike r.1 r'.1 ∧ Packet.Alike r.2.1 r'.2.1) ∧ r.2.2 = r'.2.2)
      (forwardPacket env s p) (forwardPacket env s' p') := by
  have hn : 34 ≤ max p.len 34 := le_max_right _ _
  have hroute : s'.bestRoute p' = s.bestRoute p := by
    unfold bestRoute
    rw [h.rtable, hp.daddr hn]
  have harp (ip : UInt32) : s'.getArpEntry ip = s.getArpEntry ip := by
    unfold getArpEntry
    rw [h.arpTable, h.arpBlock]
  unfold forwardPacket
  rw [hp.ipHdr hn, hp.ttl hn, hroute]
  split
  · exact Option.Rel.some ⟨⟨h, hp⟩, rfl⟩
  · split
    · exact Option.Rel.some ⟨⟨h, hp⟩, by rw [icmpError_same hp hn]⟩
    · cases s.bestRoute p with
      | none => exact Option.Rel.some ⟨⟨h, hp⟩, by rw [icmpError_same hp hn]⟩
      | some route =>
        have hu := updateHdr_alike hp
        dsimp only
        rw [harp]
        cases s.getArpEntry route.nextHop with
        | none => exact Option.Rel.none
        | some entry =>
          cases entry with
          | none =>
            refine Option.Rel.some ⟨⟨?_, hu⟩, rfl⟩
            exact { h with packets := List.rel_append h.packets (List.Forall₂.cons hu List.Forall₂.nil) }
          | some entry =>
            have he := setEther_same hu entry.mac (env.interfaceMac route.interface)
            refine Option.Rel.some ⟨⟨h, he⟩, ?_⟩
            dsimp only
            rw [sendPacket_same he (le_max_left _ _)]

/-- The new entry is the same, and so is the room for it. -/
lemma addArpEntry_alike (h : Alike s s') (e : ArpTableEntry) :
    Option.Rel Alike (s.addArpEntry e) (s'.addArpEntry e) := by
  unfold addArpEntry
  rw [h.arpTable, h.arpBlock, h.arpMaxSize]
  split
  · exact Option.Rel.none
  · dsimp only
    split
    · exact Option.Rel.some ⟨h.rtable, rfl, rfl, rfl, h.packets⟩
    · exact Option.Rel.some ⟨h.rtable, rfl, rfl, rfl, h.packets⟩

/-! ### Whole frames -/

/-- The packet of a frame contains what the handlers read in it: its Ethernet header; the IP header
and, of a packet that is answered here, the ICMP type and the two fields an echo reply repeats; the
operation of an ARP packet, the addresses of a request, the sender of any other. -/
structure Whole (env : Env) (p : Packet) : Prop where
  ether : 14 ≤ p.len
  ip : p.etherType = ETHERTYPE_IP → 34 ≤ p.len
  icmp : p.etherType = ETHERTYPE_IP → icmpForMe env p = true → 35 ≤ p.len
  echo : p.etherType = ETHERTYPE_IP → icmpForMe env p = true → p.icmpType = ICMP_ECHO → 42 ≤ p.len
  arp : p.etherType = ETHERTYPE_ARP → 22 ≤ p.len
  request : p.etherType = ETHERTYPE_ARP → p.arpOp = ARPOP_REQUEST → 42 ≤ p.len
  reply : p.etherType = ETHERTYPE_ARP → p.arpOp ≠ ARPOP_REQUEST → 32 ≤ p.len

lemma icmpForMe_same (h : Same n p p') (hn : 34 ≤ n) : icmpForMe env p' = icmpForMe env p := by
  unfold icmpForMe
  rw [h.protocol hn, h.daddr hn, h.interface]

/-- The buffer after a frame was received is determined as far as the frame goes. -/
lemma getPacket_same (m m' : Packet) (f : Frame) :
    Same (getPacket m f).len (getPacket m f) (getPacket m' f) := by
  refine ⟨rfl, rfl, ?_⟩
  intro i hi
  show write m'.payload 0 _ i = write m.payload 0 _ i
  unfold write
  rw [if_pos ⟨Nat.zero_le i, by rw [Nat.zero_add]; exact hi⟩,
    if_pos ⟨Nat.zero_le i, by rw [Nat.zero_add]; exact hi⟩]

/-- A packet is received as it was sent. -/
lemma getPacket_read (m p : Packet) {n : ℕ} (hn : n ≤ MAX_LEN) (j : Fin ROUTER_NUM_INTERFACES) :
    Packet.Same n { len := n, payload := p.payload, interface := j }
      (getPacket m ⟨j, read p.payload 0 n⟩) := by
  have hlen : (getPacket m ⟨j, read p.payload 0 n⟩).len = n := by
    show ((read p.payload 0 n).take MAX_LEN).length = n
    rw [List.length_take, read_length, Nat.min_eq_right hn]
  refine ⟨hlen, rfl, ?_⟩
  intro i hi
  rw [getPacket_payload (by rwa [hlen]), List.getD_eq_getElem?_getD, read_getElem? hi, Nat.zero_add]
  rfl

/-- Being whole does not depend on what the buffer held before. -/
lemma Whole.of_same (h : Same p.len p p') (hw : Whole env p) : Whole env p' := by
  have hlen := h.len
  have hether := h.etherType hw.ether
  constructor
  case ether =>
    rw [hlen]
    exact hw.ether
  case ip =>
    rw [hlen, hether]
    exact hw.ip
  case icmp =>
    rw [hlen, hether]
    intro hip
    rw [icmpForMe_same h (hw.ip hip)]
    exact hw.icmp hip
  case echo =>
    rw [hlen, hether]
    intro hip
    rw [icmpForMe_same h (hw.ip hip)]
    intro hme
    rw [h.icmpType (hw.icmp hip hme)]
    exact hw.echo hip hme
  case arp =>
    rw [hlen, hether]
    exact hw.arp
  case request =>
    rw [hlen, hether]
    intro harp
    rw [h.arpOp (hw.arp harp)]
    exact hw.request harp
  case reply =>
    rw [hlen, hether]
    intro harp
    rw [h.arpOp (hw.arp harp)]
    exact hw.reply harp

lemma Alike.withM (h : Alike s s') (m m' : Packet) : Alike { s with m } { s' with m := m' } :=
  ⟨h.rtable, h.arpTable, h.arpMaxSize, h.arpBlock, h.packets⟩

lemma handleIp_alike (h : Alike s s') (hm : Same s.m.len s.m s'.m) (hw : Whole env s.m)
    (hip : s.m.etherType = ETHERTYPE_IP) :
    Option.Rel (fun r r' => Alike r.1 r'.1 ∧ r.2 = r'.2) (handleIp env s) (handleIp env s') := by
  have hlen := hw.ip hip
  unfold handleIp
  rw [icmpForMe_same hm hlen]
  split
  · next hme =>
    rw [hm.icmpType (hw.icmp hip hme)]
    split
    · next hecho =>
      refine Option.Rel.some ⟨h, ?_⟩
      dsimp only
      rw [hm.saddr hlen, hm.daddr hlen, hm.etherDhost (by omega), hm.etherShost (by omega),
        hm.interface, hm.icmpEcho (hw.echo hip hme hecho)]
    · exact Option.Rel.some ⟨h, rfl⟩
  · have hp : Packet.Alike s.m s'.m := hm.mono (max_le le_rfl hlen)
    refine Run.rel_map (forwardPacket_alike env h hp) ?_
    rintro r r' ⟨⟨hstate, -⟩, hout⟩
    exact ⟨hstate.withM _ _, hout⟩

lemma handleArpRequest_alike (h : Alike s s') (hm : Same s.m.len s.m s'.m) (hlen : 42 ≤ s.m.len) :
    Alike (handleArpRequest env s).1 (handleArpRequest env s').1 ∧
      (handleArpRequest env s).2 = (handleArpRequest env s').2 := by
  unfold handleArpRequest
  rw [hm.arpTpa hlen, hm.interface]
  split
  · refine ⟨h.withM _ _, ?_⟩
    dsimp only
    rw [hm.arpSpa (by omega), hm.etherShost (by omega)]
  · exact ⟨h, rfl⟩

lemma handleArpReply_alike (h : Alike s s') (hm : Same s.m.len s.m s'.m) (hlen : 32 ≤ s.m.len) :
    Option.Rel (fun r r' => Alike r.1 r'.1 ∧ r.2 = r'.2) (handleArpReply env s)
      (handleArpReply env s') := by
  unfold handleArpReply
  rw [hm.arpSpa hlen, hm.arpSha (by omega)]
  refine Run.rel_bind (addArpEntry_alike h _) ?_
  intro r r' hr
  have hpackets := hr.packets
  revert hpackets
  generalize r.packets = q
  generalize r'.packets = q'
  rintro (_ | ⟨hsend, hrest⟩)
  · exact Option.Rel.some ⟨hr, rfl⟩
  · next toSend toSend' packets packets' =>
    have hqueue : Alike { r with packets := packets } { r' with packets := packets' } :=
      ⟨hr.rtable, hr.arpTable, hr.arpMaxSize, hr.arpBlock, hrest⟩
    refine Run.rel_map (forwardPacket_alike env hqueue hsend) ?_
    rintro t t' ⟨⟨hstate, -⟩, hout⟩
    exact ⟨hstate, hout⟩

/-- **A whole frame has one effect**, whatever the buffer held before. -/
theorem step_alike (h : Alike s s') (hw : Whole env (getPacket s.m f)) :
    Option.Rel (fun r r' => Alike r.1 r'.1 ∧ r.2 = r'.2) (step env s f) (step env s' f) := by
  have hm := getPacket_same s.m s'.m f
  have hs := h.withM (getPacket s.m f) (getPacket s'.m f)
  unfold step
  dsimp only
  rw [hm.etherType hw.ether]
  split
  · next hip => exact handleIp_alike hs hm hw hip
  · split
    · next harp =>
      rw [hm.arpOp (hw.arp harp)]
      split
      · next hop => exact Option.Rel.some (handleArpRequest_alike hs hm (hw.request harp hop))
      · next hop => exact handleArpReply_alike hs hm (hw.reply harp hop)
    · exact Option.Rel.some ⟨hs, rfl⟩

/-- The frame, read into a cleared buffer. -/
def framePacket (f : Frame) : Packet := getPacket ⟨0, fun _ => 0, 0⟩ f

/-- **Stale bytes have no influence on whole frames**: from routers with the same tables and the
same packets parked, whatever their buffers hold, frames that are whole make both runs fail, or both
go on with the same frames sent, to the same tables and the same packets parked. -/
theorem exec_alike (h : Alike s s') (hw : ∀ f ∈ fs, Whole env (framePacket f)) :
    Option.Rel (fun r r' => Alike r.1 r'.1 ∧ r.2 = r'.2) (Run.exec (step env) s fs)
      (Run.exec (step env) s' fs) := by
  refine Run.exec_rel (P := fun f => Whole env (framePacket f)) ?_ h hw
  intro s s' f hs hf
  exact step_alike hs (hf.of_same (getPacket_same _ s.m f))

theorem exec_alike_ipFrame : Option.Rel (fun r r' => Alike r.1 r'.1 ∧ r.2 = r'.2)
    (Run.exec (step testEnv) testRouter [ipFrame 64 7])
    (Run.exec (step testEnv) { testRouter with m := packetTo 1 7 } [ipFrame 64 7]) := by
  refine exec_alike ⟨rfl, rfl, rfl, rfl, List.Forall₂.nil⟩ ?_
  intro f hf
  rw [List.mem_singleton.mp hf]
  constructor <;> decide +kernel

/-- A run that leaves the tables of `testRouter` as they were. -/
lemma exists_stale (fs : List Frame) (h : (Run.exec (step testEnv) testRouter fs).map
    (fun r => (r.1.rtable, r.1.arpTable, r.1.arpMaxSize, r.1.arpBlock, r.1.packets.length)) =
      some (testRouter.rtable, [], ARP_MAXSIZE, arpEntrySize * ARP_MAXSIZE, 0)) :
    ∃ s' out', Run.exec (step testEnv) testRouter fs = some (s', out') ∧
      { testRouter with m := s'.m } = s' := by
  obtain ⟨⟨s', out'⟩, hs', he⟩ := Option.map_eq_some_iff.mp h
  refine ⟨s', out', hs', ?_⟩
  obtain ⟨_, _, _, _, packets, _⟩ := s'
  simp only [Prod.mk.injEq, List.length_eq_zero_iff] at he
  obtain ⟨rfl, rfl, rfl, rfl, rfl⟩ := he
  rfl

/-- An empty frame is answered like the frame before it, and the copy of a packet that is parked
goes on with bytes of the frame before it. -/
theorem not_exec_alike :
    (¬ ∀ env rtable m m' fs fs' s s' out out' f,
      Run.exec (step env) (init rtable m) fs = some (s, out) →
      Run.exec (step env) (init rtable m') fs' = some (s', out') → { s with m := s'.m } = s' →
        (step env s f).map (·.2) = (step env s' f).map (·.2)) ∧
    (¬ ∀ env rtable m m' fs fs' s s' out out' f,
      Run.exec (step env) (init rtable m) fs = some (s, out) →
      Run.exec (step env) (init rtable m') fs' = some (s', out') → { s with m := s'.m } = s' →
      Whole env (framePacket f) →
        (step env s f).map (·.1.packets) = (step env s' f).map (·.1.packets)) := by
  constructor
  · intro h
    obtain ⟨s', out', hs', he⟩ := exists_stale [ipFrame 1 7] (by decide +kernel)
    have hout := h testEnv testRouter.rtable testRouter.m testRouter.m [] [ipFrame 1 7] _ s' [] out'
      ⟨0, []⟩ rfl hs' he
    have hone : ((Run.exec (step testEnv) testRouter [ipFrame 1 7]).bind
        fun r => ((step testEnv r.1 ⟨0, []⟩).map (·.2)).map List.length) = some 1 := by
      decide +kernel
    rw [hs', Option.bind_some, ← hout] at hone
    exact absurd hone (by decide +kernel)
  · intro h
    obtain ⟨s', out', hs', he⟩ := exists_stale [arpFrame 1 7 7] (by decide +kernel)
    have hwhole : Whole testEnv (framePacket (ipFrame 64 7)) := by
      constructor <;> decide +kernel
    have hpackets := h testEnv testRouter.rtable testRouter.m testRouter.m [] [arpFrame 1 7 7] _ s'
      [] out' (ipFrame 64 7) rfl hs' he hwhole
    have hone : ((Run.exec (step testEnv) testRouter [arpFrame 1 7 7]).bind
        fun r => ((step testEnv r.1 (ipFrame 64 7)).map (·.1.packets)).map
          fun ps => ps.map fun p => p.payload 34) = some [1] := by
      decide +kernel
    rw [hs', Option.bind_some, ← hpackets] at hone
    exact absurd hone (by decide +kernel)

/-! ### Corrupted headers -/

/-- **A packet with a corrupted IP header has no effect exactly when it is not an echo request that
is answered here**: the checksum is verified where packets are forwarded, after those for the
router itself have branched off. -/
theorem inert_iff (hip : (getPacket s.m f).etherType = ETHERTYPE_IP)
    (hck : ipChecksum ipHdrAddr (getPacket s.m f).ipHdr ≠ 0) :
    (∃ m, step env s f = some ({ s with m }, [])) ↔
      ¬ (icmpForMe env (getPacket s.m f) = true ∧ (getPacket s.m f).icmpType = ICMP_ECHO) := by
  unfold step
  dsimp only
  rw [if_pos hip, handleIp]
  dsimp only
  split
  · next hme =>
    split
    · next hecho =>
      refine iff_of_false ?_ fun h => h ⟨hme, hecho⟩
      rintro ⟨m, h⟩
      cases h
    · next hecho => exact iff_of_true ⟨_, rfl⟩ fun h => hecho h.2
  · next hme =>
    refine iff_of_true ?_ fun h => hme h.1
    rw [forwardPacket, if_pos hck]
    exact ⟨_, rfl⟩

/-- An echo request to `10.0.0.254`, with a checksum of zero. -/
def corruptEcho : Frame where
  interface := 0
  data := [2, 0, 0, 0, 0, 1, 2, 0, 0, 0, 0, 2, 8, 0, 0x45, 0, 0, 28, 0, 0, 0, 0, 64, 1, 0, 0,
    10, 0, 0, 1, 10, 0, 0, 254, 8, 0, 0, 0, 0, 0, 0, 0]

theorem inert_iff_ipFrame :
    ∃ m, step testEnv testRouter ⟨0, (ipFrame 64 7).data.set 24 0⟩ = some ({ testRouter with m }, []) := by
  refine (inert_iff ?_ ?_).mpr ?_
  · decide +kernel
  · decide +kernel
  · decide +kernel

/-- The corrupted echo request is answered. -/
theorem not_inert : ¬ ∀ env s f, (getPacket s.m f).etherType = ETHERTYPE_IP →
    ipChecksum ipHdrAddr (getPacket s.m f).ipHdr ≠ 0 →
      ∃ m, step env s f = some ({ s with m }, []) := by
  intro h
  obtain ⟨m, hm⟩ := h testEnv testRouter corruptEcho (by decide +kernel) (by decide +kernel)
  have hone : (step testEnv testRouter corruptEcho).map (fun r => r.2.length) = some 1 := by
    decide +kernel
  rw [hm] at hone
  cases hone

end Router

end Protocoale.Tema1

import Protocoale.Tema1.Storage

/-!
The packets that wait for an ARP reply. Every reply takes the first pointer out of the queue and passes
the packet it leads to to `forward_packet` again, whoever the reply is from and whatever the packet waits
for.

`drains_iff` says when a reply sends what waits for its sender and leaves the rest: only if that is
one packet, which is the first, and the packets are still where they were put. `slow_eq_fast_iff` says
that a packet that waited is not sent as it would have been at once: its TTL is lowered each time it is
passed to `forward_packet`, and only another packet in its storage can make up for that.
-/

namespace Protocoale.Tema1

open Lib Lib.Bytes

/-! ### A queue of packets -/

namespace Router

variable {env : Env} {s s' : Router} {f : Frame} {out : List Sent} {m p q : Packet} {a : UInt32}
  {x : Sent}

lemma bestRoute_congr (h : s'.rtable = s.rtable) : s'.bestRoute p = s.bestRoute p := by
  rw [bestRoute, h, ← bestRoute]

@[simp] lemma bestRoute_updateHdr : s.bestRoute (updateHdr p) = s.bestRoute p := by
  rw [bestRoute, daddr_updateHdr, ← bestRoute]

/-- The packet has a valid header and a route. -/
def Routable (s : Router) (p : Packet) : Prop :=
  ipChecksum ipHdrAddr p.ipHdr = 0 ∧ ∃ route, s.bestRoute p = some route

/-- The packet waits for `a`: that is the next hop of its route. -/
def WaitsFor (s : Router) (a : UInt32) (p : Packet) : Prop :=
  (s.bestRoute p).map (·.nextHop) = some a

instance : Decidable (WaitsFor s a p) := inferInstanceAs (Decidable (_ = _))

/-- The frame is the packet, sent by `forward_packet` on its route: the TTL is one less and the other
bytes are those of the packet but for the Ethernet addresses and the checksum. -/
structure TransmittedAs (s : Router) (p : Packet) (x : Sent) : Prop where
  via : x.via = .forwardPacket
  interface : (s.bestRoute p).map (·.interface) = some x.interface
  length : x.data.length = p.len
  ttl : 22 < p.len → x.data[22]? = some (p.ttl - 1)
  bytes : ∀ i, 12 ≤ i → i < p.len → i ≠ 22 → i ≠ 24 → i ≠ 25 → x.data[i]? = some (p.payload i)

/-- **What waits is drained**: of the packets before, those that wait for `a` are sent, each once and in
order, and the others are there afterwards as they were, nothing being sent for them. -/
structure Drained (s : Router) (a : UInt32) (before after : List Packet) (out : List Sent) : Prop where
  queue : after = before.filter fun p => ¬ s.WaitsFor a p
  sent : List.Forall₂ (TransmittedAs s) (before.filter fun p => s.WaitsFor a p) out

/-- No packet waits, or the first one is the only one that waits for `a`, and its TTL allows it to
be forwarded again. -/
def AloneAtHead (s : Router) (a : UInt32) : List Packet → Prop
  | [] => True
  | p :: rest => s.WaitsFor a p ∧ ¬ p.ttl ≤ 1 ∧ ∀ q ∈ rest, ¬ s.WaitsFor a q

instance {ps : List Packet} : Decidable (AloneAtHead s a ps) := by
  cases ps
  all_goals
    unfold AloneAtHead
    infer_instance

/-- The bytes of a frame sent by `forward_packet`. -/
lemma sendPacket_data {interface : ℤ} {dhost shost : Mac} :
    (sendPacket interface (setEther (updateHdr p) dhost shost)).data =
      read (setEther (updateHdr p) dhost shost).payload 0 p.len := rfl

lemma sendPacket_getElem? {interface : ℤ} {dhost shost : Mac} {i : ℕ} (h12 : 12 ≤ i) (hlen : i < p.len) :
    (sendPacket interface (setEther (updateHdr p) dhost shost)).data[i]? =
      some ((updateHdr p).payload i) := by
  rw [sendPacket_data, read_getElem? hlen, Nat.zero_add, setEther_of_ge h12]

lemma transmittedAs_sendPacket {route : RouteTableEntry} {dhost shost : Mac}
    (h : s.bestRoute p = some route) : TransmittedAs s p
      (sendPacket route.interface (setEther (updateHdr p) dhost shost)) := by
  refine ⟨rfl, by rw [h]; rfl, read_length, ?_, ?_⟩
  · intro hlen
    rw [sendPacket_getElem? (by omega) hlen, updateHdr_22]
  · intro i h12 hlen h22 h24 h25
    rw [sendPacket_getElem? h12 hlen, updateHdr_of_ne h22 (by omega)]

/-- A lookup that finds nothing was for an address that is not in the table. -/
lemma ne_of_findArp {block i : ℕ} {ip : UInt32} {es : List ArpTableEntry}
    (h : findArp block ip i es = some none) : ∀ e ∈ es, ip ≠ e.ip := by
  induction es generalizing i with
  | nil => simp
  | cons e es ih =>
    rw [findArp] at h
    split at h
    · cases h
    · split at h
      · cases h
      · next hne => exact List.forall_mem_cons.mpr ⟨hne, ih h⟩

/-- A list is not what is left of it with one element more in front. -/
lemma ne_cons_filter {α : Type*} {P : α → Bool} {x : α} {l : List α} (hx : P x = true) :
    x :: l.filter P ≠ l := by
  intro h
  have hall : ∀ y ∈ l, P y = true := by
    intro y hy
    rw [← h] at hy
    rcases List.mem_cons.mp hy with rfl | hy
    · exact hx
    · exact List.of_mem_filter hy
  rw [List.filter_eq_self.mpr hall] at h
  exact absurd (congrArg List.length h) (by simp)

lemma not_forall₂_of_via {x : Sent} {ps : List Packet} (h : x.via ≠ .forwardPacket) :
    ¬ List.Forall₂ (TransmittedAs s) ps [x] := by
  intro hall
  obtain ⟨p, _, hx, -⟩ := List.forall₂_cons_right_iff.mp hall
  exact h hx.via

/-- A packet taken out of the queue has a valid header and a route: it is answered, put back or
sent. -/
lemma forwardPacket_queued {m' : Packet} {route : RouteTableEntry}
    (hck : ipChecksum ipHdrAddr m.ipHdr = 0) (hroute : s.bestRoute m = some route)
    (h : forwardPacket env s m = some (s', m', out)) :
    (m.ttl ≤ 1 ∧ out = [icmpError m ICMP_TIME_EXCEEDED]) ∨
    (s.getArpEntry route.nextHop = some none ∧ out = [arpRequest env route]) ∨
    (¬ m.ttl ≤ 1 ∧ s' = s ∧ ∃ entry : ArpTableEntry, out = [sendPacket route.interface
      (setEther (updateHdr m) entry.mac (env.interfaceMac route.interface))]) := by
  rcases forwardPacket_cases h with ⟨hck', -⟩ | ⟨-, httl, -, -, hout⟩ | ⟨-, -, hnone, -⟩ |
    ⟨-, -, route', hroute', hmiss, -, -, hout⟩ |
    ⟨-, httl, route', entry, hroute', -, hs, hm', hout⟩
  · exact absurd hck hck'
  · exact Or.inl ⟨httl, hout⟩
  · rw [hroute] at hnone
    cases hnone
  · rw [hroute] at hroute'
    cases hroute'
    exact Or.inr (Or.inl ⟨hmiss, hout⟩)
  · rw [hroute] at hroute'
    cases hroute'
    rw [hm'] at hout
    exact Or.inr (Or.inr ⟨httl, hs, entry, hout⟩)

/-- What an ARP reply does when packets wait: `r` is the router after the entry was made and the
first packet taken out of the queue. -/
lemma drained_cons_iff {r : Router} {toSend m' : Packet} (hq : s.Routable toSend)
    (hrtable : r.rtable = s.rtable) (hmem : ∃ e ∈ r.arpTable, a = e.ip)
    (hf : forwardPacket env r toSend = some (s', m', out)) :
    s.Drained a (toSend :: r.packets) s'.packets out ↔ s.AloneAtHead a (toSend :: r.packets) := by
  obtain ⟨hck, route, hroute⟩ := hq
  have hroute' : r.bestRoute toSend = some route := by
    rw [bestRoute_congr (s := s) hrtable, hroute]
  constructor
  · rintro ⟨hqueue, hsent⟩
    rcases forwardPacket_queued hck hroute' hf with ⟨-, rfl⟩ | ⟨-, rfl⟩ | ⟨httl, rfl, entry, rfl⟩
    · exact absurd hsent (not_forall₂_of_via (by simp [icmpError, sendIcmpError]))
    · exact absurd hsent (not_forall₂_of_via (by simp [arpRequest, sendArp]))
    · have hwait : s.WaitsFor a toSend := by
        by_contra hnot
        rw [List.filter_cons_of_pos (by simpa using hnot)] at hqueue
        exact ne_cons_filter (by simpa using hnot) hqueue.symm
      rw [List.filter_cons_of_pos (by simpa using hwait)] at hsent
      have hnil := List.length_eq_zero_iff.mp (Nat.succ.inj hsent.length_eq)
      refine ⟨hwait, httl, ?_⟩
      intro q hqm
      simpa using List.filter_eq_nil_iff.mp hnil q hqm
  · rintro ⟨hwait, httl, hrest⟩
    have hnext : route.nextHop = a := by
      rw [WaitsFor, hroute] at hwait
      exact Option.some.inj hwait
    rcases forwardPacket_queued hck hroute' hf with ⟨httl', -⟩ | ⟨hmiss, -⟩ | ⟨-, rfl, entry, rfl⟩
    · exact absurd httl' httl
    · -- the entry has just been made
      obtain ⟨e, he, hip⟩ := hmem
      exact absurd (hnext.trans hip) (ne_of_findArp hmiss e he)
    · constructor
      · rw [List.filter_cons_of_neg (by simpa using hwait), eq_comm]
        apply List.filter_eq_self.mpr
        intro q hqm
        simpa using hrest q hqm
      · have hnil : (s'.packets.filter fun q => s.WaitsFor a q) = [] := by
          apply List.filter_eq_nil_iff.mpr
          intro q hqm
          simpa using hrest q hqm
        rw [List.filter_cons_of_pos (by simpa using hwait), hnil]
        exact List.Forall₂.cons (transmittedAs_sendPacket hroute) List.Forall₂.nil

/-- **An ARP reply drains a queue of packets exactly when what waits for its sender is alone at the
head.** -/
theorem drained_iff (hq : ∀ p ∈ s.packets, s.Routable p) (hr : (getPacket s.m f).IsReply)
    (h : step env s f = some (s', out)) : s.Drained (getPacket s.m f).arpSpa s.packets s'.packets out ↔
      s.AloneAtHead (getPacket s.m f).arpSpa s.packets := by
  rcases step_cases h with ⟨hnot, -⟩ | ⟨hip, -⟩ | ⟨-, rfl, hnil, ha⟩ |
    ⟨-, r, toSend, packets, m', hpackets, ha, hf⟩
  · exact absurd hr hnot
  · exact absurd hr (Packet.not_isReply hip)
  · obtain ⟨-, -, -, hsame, -, -⟩ := addArpEntry_spec ha
    rw [hnil, hsame.symm.trans hnil]
    exact iff_of_true ⟨rfl, List.Forall₂.nil⟩ trivial
  · obtain ⟨-, htable, hrtable, hsame, -, -⟩ := addArpEntry_spec ha
    have hcons : s.packets = toSend :: packets := hsame.symm.trans hpackets
    have hmem : ∃ e ∈ r.arpTable, (getPacket s.m f).arpSpa = e.ip := by
      refine ⟨(getPacket s.m f).arpEntry, ?_, rfl⟩
      rw [htable]
      exact List.mem_append_right _ (List.mem_singleton_self _)
    rw [hcons] at hq ⊢
    exact drained_cons_iff (r := { r with packets }) (hq toSend List.mem_cons_self) hrtable hmem hf

/-- What an iteration does to the queue. -/
lemma step_packets (h : step env s f = some (s', out)) :
    (¬ (getPacket s.m f).IsReply ∧ ∃ l, s'.packets = s.packets ++ l) ∨
    ((getPacket s.m f).IsReply ∧ s.packets = []) ∨
    ((getPacket s.m f).IsReply ∧ ∃ r toSend m', s.packets = toSend :: r.packets ∧
      forwardPacket env r toSend = some (s', m', out)) := by
  rcases step_cases h with ⟨hr, m, rfl⟩ | ⟨hip, r, m', rfl, hf⟩ | ⟨hr, -, hnil, ha⟩ |
    ⟨hr, r, toSend, packets, m', hpackets, ha, hf⟩
  · exact Or.inl ⟨hr, [], (List.append_nil _).symm⟩
  · refine Or.inl ⟨Packet.not_isReply hip, ?_⟩
    rcases (forwardPacket_tables hf).2 with he | ⟨he, -⟩
    · exact ⟨[], he.trans (List.append_nil _).symm⟩
    · exact ⟨_, he⟩
  · obtain ⟨-, -, -, hsame, -, -⟩ := addArpEntry_spec ha
    exact Or.inr (Or.inl ⟨hr, hsame.symm.trans hnil⟩)
  · obtain ⟨-, -, -, hsame, -, -⟩ := addArpEntry_spec ha
    exact Or.inr (Or.inr ⟨hr, { r with packets }, toSend, m', hsame.symm.trans hpackets, hf⟩)

lemma toNat_sub_one {x : UInt8} (h : ¬ x ≤ 1) : (x - 1).toNat = x.toNat - 1 ∧ 1 < x.toNat := by
  rw [UInt8.le_iff_toNat_le] at h
  have h1 : 1 < x.toNat := by simpa using h
  refine ⟨?_, h1⟩
  rw [UInt8.toNat_sub_of_le _ _ (by rw [UInt8.le_iff_toNat_le]; simpa using h1.le)]
  rfl

/-- Where a packet goes to: the interface of its route and the hardware address of the next hop. -/
def hop (s : Router) (p : Packet) : Option (ℤ × Mac) :=
  (s.bestRoute p).bind fun route =>
    ((s.getArpEntry route.nextHop).bind id).map fun entry => (route.interface, entry.mac)

/-- **When `forward_packet` transmits a frame.** -/
lemma forwardPacket_sends_iff {m' : Packet} (h : forwardPacket env s m = some (s', m', out))
    (hvia : x.via = .forwardPacket) : out = [x] ↔
      ipChecksum ipHdrAddr m.ipHdr = 0 ∧ ¬ m.ttl ≤ 1 ∧ ∃ dst ∈ s.hop m,
        x = sendPacket dst.1 (setEther (updateHdr m) dst.2 (env.interfaceMac dst.1)) := by
  have hne {z : Sent} (hz : z.via ≠ .forwardPacket) : [z] ≠ [x] := by
    intro he
    rw [List.singleton_inj.mp he] at hz
    exact hz hvia
  rcases forwardPacket_cases h with ⟨hck, -, -, rfl⟩ | ⟨-, httl, -, -, rfl⟩ |
    ⟨-, -, hroute, -, -, rfl⟩ | ⟨-, -, route, hroute, hmiss, -, -, rfl⟩ |
    ⟨hck, httl, route, entry, hroute, hentry, -, rfl, rfl⟩
  · exact iff_of_false (by simp) fun hs => hck hs.1
  · exact iff_of_false (hne (by simp [icmpError, sendIcmpError])) fun hs => hs.2.1 httl
  · refine iff_of_false (hne (by simp [icmpError, sendIcmpError])) ?_
    rintro ⟨-, -, dst, hdst, -⟩
    simp [hop, hroute] at hdst
  · refine iff_of_false (hne (by simp [arpRequest, sendArp])) ?_
    rintro ⟨-, -, dst, hdst, -⟩
    simp [hop, hroute, hmiss] at hdst
  · have hhop : s.hop m = some (route.interface, entry.mac) := by simp [hop, hroute, hentry]
    simp [hck, httl, hhop, eq_comm]

/-- The checksum that is computed does not depend on the one that was there. -/
lemma updateHdr_congr (hlen : 34 ≤ p.len)
    (h : ∀ i, 12 ≤ i → i < p.len → i ≠ 24 → i ≠ 25 → q.payload i = p.payload i) :
    ∀ i, 12 ≤ i → i < p.len → (updateHdr q).payload i = (updateHdr p).payload i := by
  have httl : q.ttl = p.ttl := h 22 (by omega) (by omega) (by omega) (by omega)
  have hcleared : ∀ i, 12 ≤ i → i < p.len → clearedHdr q i = clearedHdr p i := by
    intro i h12 hi
    unfold clearedHdr write
    rw [httl]
    by_cases hck : 24 ≤ i ∧ i < 24 + (bytes16 0).length
    · rw [if_pos hck, if_pos hck]
    · rw [if_neg hck, if_neg hck]
      rw [bytes16_length] at hck
      rw [h i h12 hi (by omega) (by omega)]
  have hhdr : read (clearedHdr q) 14 20 = read (clearedHdr p) 14 20 := by
    apply read_congr
    intro i h14 h34
    exact hcleared i (by omega) (by omega)
  intro i h12 hi
  rw [updateHdr_payload, updateHdr_payload, hhdr]
  unfold write
  rw [hcleared i h12 hi]

/-- **When two packets are transmitted as the same frame.** -/
lemma sendPacket_eq_iff {dst dst' : ℤ × Mac} (hlen : 34 ≤ p.len) :
    sendPacket dst.1 (setEther (updateHdr q) dst.2 (env.interfaceMac dst.1)) =
      sendPacket dst'.1 (setEther (updateHdr p) dst'.2 (env.interfaceMac dst'.1)) ↔
    q.len = p.len ∧ (∀ i, 12 ≤ i → i < p.len → i ≠ 24 → i ≠ 25 → q.payload i = p.payload i) ∧
      dst = dst' := by
  constructor
  · intro heq
    have hinterface : dst.1 = dst'.1 := congrArg Sent.interface heq
    have hdata := congrArg Sent.data heq
    have hqlen : q.len = p.len := by
      have hsize := congrArg List.length hdata
      rwa [sendPacket_data, sendPacket_data, read_length, read_length] at hsize
    have hbyte : ∀ i, 12 ≤ i → i < p.len → (updateHdr q).payload i = (updateHdr p).payload i := by
      intro i h12 hi
      have hget : (sendPacket dst.1 (setEther (updateHdr q) dst.2 (env.interfaceMac dst.1))).data[i]? =
          some ((updateHdr q).payload i) := sendPacket_getElem? h12 (hqlen ▸ hi)
      rw [hdata, sendPacket_getElem? h12 hi] at hget
      exact (Option.some.inj hget).symm
    refine ⟨hqlen, ?_, Prod.ext hinterface ?_⟩
    · intro i h12 hi h24 h25
      have hb := hbyte i h12 hi
      by_cases h22 : i = 22
      · subst h22
        rw [updateHdr_22, updateHdr_22] at hb
        exact (UInt8.sub_left_inj 1).mp hb
      · rwa [updateHdr_of_ne h22 (by omega), updateHdr_of_ne h22 (by omega)] at hb
    · have htake := congrArg (List.take 6) hdata
      rw [sendPacket_data, sendPacket_data, hqlen, take_read (by omega), take_read (by omega)] at htake
      have hmac : dst.2.toList = dst'.2.toList :=
        etherDhost_setEther.symm.trans (htake.trans etherDhost_setEther)
      exact Vector.toList_inj.mp hmac
  · rintro ⟨hqlen, h, rfl⟩
    have hdata : (sendPacket dst.1 (setEther (updateHdr q) dst.2 (env.interfaceMac dst.1))).data =
        (sendPacket dst.1 (setEther (updateHdr p) dst.2 (env.interfaceMac dst.1))).data := by
      rw [sendPacket_data, sendPacket_data, hqlen]
      apply read_congr
      intro i _ hi
      rw [setEther_payload, setEther_payload]
      unfold write
      split
      · rfl
      · split
        · rfl
        · next h6 h0 =>
          rw [Vector.length_toList] at h6 h0
          exact updateHdr_congr hlen h i (by omega) (by omega)
    exact congrArg (Sent.mk .forwardPacket dst.1) hdata

end Router

/-! ### Draining -/

namespace PtrRouter

open Router (getArpEntry updateHdr setEther sendPacket)

variable {env : Env} {s s' t t' : PtrRouter} {m m' p q : Packet} {c a : ℕ} {x y : Frame × ℕ}
  {xs : List (Frame × ℕ)} {acc out : List Effect} {rtable : List RouteTableEntry}
  {cells : ℕ → Packet} {router : Router} {l : List ℕ}

/-- The packets that wait, as they were when they went into the queue: those that have not been taken
out. -/
def waiting (out : List Effect) : List Packet := (enqueued out).drop (dequeued out).length

/-- At every ARP reply of a run that is processed to the end, `P` holds of the state it is received in,
of what was done before it, of its sender, of the state after it and of what was done for it. -/
def AtReplies (env : Env) (s₀ : PtrRouter) (xs : List (Frame × ℕ))
    (P : PtrRouter → List Effect → UInt32 → PtrRouter → List Effect → Prop) : Prop :=
  ∀ pre x s acc s' out, pre ++ [x] <+: xs → Run.exec (step env) s₀ pre = some (s, acc) →
    step env s x = some (s', out) → (getPacket s.router.m x.1).etherType = ETHERTYPE_ARP →
    (getPacket s.router.m x.1).arpOp = ARPOP_REPLY →
      P s acc (getPacket s.router.m x.1).arpSpa s' out

/-- **The reply of `a` drains the queue** of the packets that wait for `a`. -/
def Drains (s : PtrRouter) (acc : List Effect) (a : UInt32) (s' : PtrRouter) (out : List Effect) :
    Prop := s.view.Drained a (waiting acc) s'.parked (sents out)

/-- The packets that wait are in the storage the queue points to, and what waits for `a` is alone at the
head of the queue. -/
def Ready (s : PtrRouter) (acc : List Effect) (a : UInt32) : Prop :=
  s.parked = waiting acc ∧ s.view.AloneAtHead a s.parked

/-! ### What is in the queue -/

lemma Kept.waiting_eq (h : Kept s acc) : waiting acc = s.parked := by
  rw [waiting, ← h.fifo, List.drop_left]

/-- In a run that parks nothing in storage that is in use the packets keep their bytes. -/
lemma kept_of_fresh (h : Run.exec (step env) (init rtable m cells) xs = some (s, acc))
    (hfresh : Run.Along (step env) (Fresh env) (init rtable m cells) xs) : Kept s acc := by
  refine Run.exec_trace (P := fun _ s acc => Kept s acc) ?_ hfresh (kept_init rtable m cells) h
  intro _ acc s x s' out hkept hx hs
  exact (kept_step hkept hs).mpr hx

/-- The tables of a call of `forward_packet`. -/
lemma call_tables (h : call env s x.1 = some (router, m, l)) :
    router.rtable = s.router.rtable ∧ (router.arpTable = s.router.arpTable ∨
      (getPacket s.router.m x.1).IsReply ∧
        router.arpTable = s.router.arpTable ++ [(getPacket s.router.m x.1).arpEntry]) := by
  unfold call at h
  dsimp only at h
  split at h
  · split at h
    · cases h
    · cases h
      exact ⟨rfl, Or.inl rfl⟩
  · split at h
    · next hr =>
      obtain ⟨r, ha, h⟩ := Option.bind_eq_some_iff.mp h
      obtain ⟨-, htable, hrtable, -⟩ := Router.addArpEntry_spec ha
      cases hq : s.queue with
      | nil =>
        rw [hq] at h
        cases h
      | cons b q =>
        rw [hq] at h
        cases h
        exact ⟨hrtable, Or.inr ⟨hr, htable⟩⟩
    · cases h

/-- A step, and one of the router whose queue holds the packets that the pointers lead to. -/
lemma exists_router_step (h : step env s x = some (s', out)) : ∃ r,
    Router.step env s.view x.1 = some (r, sents out) ∧ SameButQueue s' r := by
  have hrel := step_rel env s x
  rw [h] at hrel
  obtain ⟨⟨r, o⟩, hr, hrouter, rfl, -⟩ := Run.exists_of_rel_some hrel
  exact ⟨r, hr, hrouter⟩

lemma SameButQueue.rtable_eq {r : Router} (h : SameButQueue s r) : r.rtable = s.router.rtable := by
  rw [← h]

lemma SameButQueue.arpTable_eq {r : Router} (h : SameButQueue s r) :
    r.arpTable = s.router.arpTable := by
  rw [← h]

lemma step_rtable (h : step env s x = some (s', out)) : s'.router.rtable = s.router.rtable := by
  obtain ⟨r, hr, hsame⟩ := exists_router_step h
  rw [← hsame.rtable_eq]
  exact (Router.step_tables hr).1

/-- What `forward_packet` puts in the queue has a valid header and a route. -/
lemma forwardPacket_enqueued {r : PtrRouter} (hrtable : r.router.rtable = s.router.rtable)
    (h : forwardPacket env r m c = some (s', m', out)) : ∀ p ∈ enqueued out, s.view.Routable p := by
  rcases forwardPacket_parks h with ⟨-, -, henq, -⟩ | ⟨⟨-, -, route, hroute, -⟩, -, henq, -⟩
  · simp [henq]
  · rw [henq]
    intro p hp
    rw [List.mem_singleton.mp hp]
    refine ⟨Router.updateHdr_verifies _, route, ?_⟩
    rw [Router.bestRoute_updateHdr]
    have hsame : s.view.bestRoute m = r.router.bestRoute m := Router.bestRoute_congr hrtable.symm
    exact hsame.trans hroute

lemma step_enqueued (h : step env s x = some (s', out)) : ∀ p ∈ enqueued out, s.view.Routable p := by
  rcases step_cases h with ⟨-, -, -, -, henq, -⟩ | ⟨router, m, r, m', -, hcall, hf, -⟩ |
    ⟨router, a, q, r, m', o, -, -, hcall, hf, -, rfl⟩
  · simp [henq]
  · exact forwardPacket_enqueued (call_tables hcall).1 hf
  · show ∀ p ∈ enqueued o, s.view.Routable p
    exact forwardPacket_enqueued (call_tables hcall).1 hf

lemma exec_enqueued (h : Run.exec (step env) (init rtable m cells) xs = some (s, acc)) :
    ∀ p ∈ enqueued acc, s.view.Routable p := by
  have hok : Run.Along (step env) (fun _ _ => True) (init rtable m cells) xs := fun _ _ => trivial
  refine Run.exec_trace (P := fun _ s acc => ∀ p ∈ enqueued acc, s.view.Routable p) ?_ hok
    (by simp [enqueued]) h
  intro _ acc s x s' out hacc _ hs p hp
  have hroute : s'.view.bestRoute p = s.view.bestRoute p := Router.bestRoute_congr (step_rtable hs)
  unfold Router.Routable
  rw [hroute]
  rw [enqueued_append, List.mem_append] at hp
  exact hp.elim (hacc p) (step_enqueued hs p)

lemma exec_waiting (h : Run.exec (step env) (init rtable m cells) xs = some (s, acc)) :
    ∀ p ∈ waiting acc, s.view.Routable p :=
  fun p hp => exec_enqueued h p (List.mem_of_mem_drop hp)

/-! ### One reply -/

/-- Where the queue leads to the packets that wait, the reply is one to a queue of packets. -/
lemma drains_iff_aloneAtHead (hs : step env s x = some (s', out))
    (hr : (getPacket s.router.m x.1).IsReply) (hwaiting : s.parked = waiting acc)
    (hroutable : ∀ p ∈ waiting acc, s.view.Routable p) (hhead : HeadOnce s) (hfresh : Fresh env s x) :
    Drains s acc (getPacket s.router.m x.1).arpSpa s' out ↔
      s.view.AloneAtHead (getPacket s.router.m x.1).arpSpa s.parked := by
  have hview := step_view hhead hfresh
  rw [hs, Option.map_some] at hview
  unfold Drains
  rw [← hwaiting] at hroutable ⊢
  exact Router.drained_iff (s := s.view) hroutable hr hview.symm

/-- What waits for `a` alone has storage of its own. -/
lemma headOnce_of_aloneAtHead {a : UInt32} (h : s.view.AloneAtHead a s.parked) : HeadOnce s := by
  intro b q hq hb
  unfold parked at h
  rw [hq, List.map_cons] at h
  exact h.2.2 (s.cells b) (List.mem_map_of_mem hb) h.1

/-- What waits for the sender of a reply is not parked again. -/
lemma fresh_of_aloneAtHead (hr : (getPacket s.router.m x.1).IsReply)
    (h : s.view.AloneAtHead (getPacket s.router.m x.1).arpSpa s.parked) : Fresh env s x := by
  intro k hk hparks
  exfalso
  have htables := call_tables (show call env s x.1 = some (k.1, k.2.1, k.2.2) from hk)
  unfold call at hk
  dsimp only at hk
  have hip : (getPacket s.router.m x.1).etherType ≠ ETHERTYPE_IP := fun hip => Packet.not_isReply hip hr
  rw [if_neg hip, if_pos hr] at hk
  obtain ⟨router, ha, hk⟩ := Option.bind_eq_some_iff.mp hk
  obtain ⟨-, htable, hrtable, -⟩ := Router.addArpEntry_spec ha
  unfold parked at h
  cases hq : s.queue with
  | nil =>
    rw [hq] at hk
    cases hk
  | cons b q =>
    rw [hq] at hk h
    cases hk
    obtain ⟨-, -, route, hroute, hmiss⟩ := hparks
    -- the next hop is the sender, for whom an entry has just been made
    have hwait : (s.view.bestRoute (s.cells b)).map (·.nextHop) =
        some (getPacket s.router.m x.1).arpSpa := h.1
    have hsame : router.bestRoute (s.cells b) = s.view.bestRoute (s.cells b) :=
      Router.bestRoute_congr hrtable
    rw [← hsame, Option.mem_def.mp hroute] at hwait
    refine Router.ne_of_findArp hmiss (getPacket s.router.m x.1).arpEntry ?_ (Option.some.inj hwait)
    rw [htable]
    exact List.mem_append_right _ (List.mem_singleton_self _)

lemma isReply_of_arpOp (harp : (getPacket s.router.m x.1).etherType = ETHERTYPE_ARP)
    (hop : (getPacket s.router.m x.1).arpOp = ARPOP_REPLY) : (getPacket s.router.m x.1).IsReply :=
  ⟨harp, by rw [hop]; decide⟩

/-- **The replies of a run drain the queue when each of them finds the packets where they were put, and
what waits for its sender alone at the head of the queue.** In a run that parks nothing in storage that
is in use they drain it only then. -/
theorem drains_iff (env : Env) (rtable : List RouteTableEntry) (m : Packet) (cells : ℕ → Packet)
    (xs : List (Frame × ℕ)) :
    (AtReplies env (init rtable m cells) xs (fun s acc a _ _ => Ready s acc a) →
      AtReplies env (init rtable m cells) xs Drains) ∧
    (Run.Along (step env) (Fresh env) (init rtable m cells) xs →
      (AtReplies env (init rtable m cells) xs Drains ↔
        AtReplies env (init rtable m cells) xs fun s acc a _ _ => Ready s acc a)) := by
  have hready : AtReplies env (init rtable m cells) xs (fun s acc a _ _ => Ready s acc a) →
      AtReplies env (init rtable m cells) xs Drains := by
    intro hready pre x s acc s' out hpre hexec hs harp hop
    obtain ⟨hwaiting, halone⟩ := hready pre x s acc s' out hpre hexec hs harp hop
    have hr := isReply_of_arpOp harp hop
    exact (drains_iff_aloneAtHead hs hr hwaiting (exec_waiting hexec) (headOnce_of_aloneAtHead halone)
      (fresh_of_aloneAtHead hr halone)).mpr halone
  refine ⟨hready, fun hfresh => ⟨?_, hready⟩⟩
  intro hdrains pre x s acc s' out hpre hexec hs harp hop
  have hpre' : pre <+: xs := (List.prefix_append pre [x]).trans hpre
  have hkept : Kept s acc := kept_of_fresh hexec (hfresh.of_prefix hpre' hexec)
  have hwaiting := hkept.waiting_eq.symm
  refine ⟨hwaiting, ?_⟩
  exact (drains_iff_aloneAtHead hs (isReply_of_arpOp harp hop) hwaiting (exec_waiting hexec)
    (headOnce_of_nodup hkept.nodup) (hfresh.at_input hpre hexec)).mp
      (hdrains pre x s acc s' out hpre hexec hs harp hop)

/-- The router with routes to `10.0.1.7` and `10.0.1.8`, before the first frame. -/
def testStart : PtrRouter :=
  init Router.testRouter.rtable ⟨0, fun _ => 0, 0⟩ fun _ => ⟨0, fun _ => 0, 0⟩

/-- The packet for `10.0.1.7` is the first one when this host replies; the one for `10.0.1.8` stays. -/
theorem drains_first : ∃ t out,
    Run.exec (step Router.testEnv) testStart [(Router.ipFrame 64 7, 0), (Router.ipFrame 64 8, 1),
      (Router.arpFrame 2 7 7, 2)] = some (t, out) ∧
    AtReplies Router.testEnv testStart [(Router.ipFrame 64 7, 0), (Router.ipFrame 64 8, 1),
      (Router.arpFrame 2 7 7, 2)] Drains := by
  have hrun : (Run.exec (step Router.testEnv) testStart [(Router.ipFrame 64 7, 0),
      (Router.ipFrame 64 8, 1), (Router.arpFrame 2 7 7, 2)]).isSome := by decide +kernel
  obtain ⟨⟨t, sent⟩, hrun⟩ := Option.isSome_iff_exists.mp hrun
  refine ⟨t, sent, hrun, (drains_iff _ _ _ _ _).1 ?_⟩
  intro pre x s acc s' out hpre hexec _ harp hop
  have hfresh : Run.Along (step Router.testEnv) (Fresh Router.testEnv) testStart
      [(Router.ipFrame 64 7, 0), (Router.ipFrame 64 8, 1), (Router.arpFrame 2 7 7, 2)] := by
    decide +kernel
  have halone : Run.Along (step Router.testEnv) (fun s x => (getPacket s.router.m x.1).IsReply →
      s.view.AloneAtHead (getPacket s.router.m x.1).arpSpa s.parked) testStart
      [(Router.ipFrame 64 7, 0), (Router.ipFrame 64 8, 1), (Router.arpFrame 2 7 7, 2)] := by
    decide +kernel
  have hpre' := (List.prefix_append pre [x]).trans hpre
  have hkept := kept_of_fresh hexec (hfresh.of_prefix hpre' hexec)
  exact ⟨hkept.waiting_eq.symm, halone.at_input hpre hexec (isReply_of_arpOp harp hop)⟩

/-- The packet that waits for `10.0.1.7` is touched by the reply of `10.0.1.8`. -/
theorem not_drains : ¬ ∀ env rtable m cells xs, AtReplies env (init rtable m cells) xs Drains := by
  intro h
  have hrun : (Run.exec (step Router.testEnv) testStart [(Router.ipFrame 64 7, 0)]).map (fun r =>
      (decide ((getPacket r.1.router.m (Router.arpFrame 2 8 8)).etherType = ETHERTYPE_ARP ∧
          (getPacket r.1.router.m (Router.arpFrame 2 8 8)).arpOp = ARPOP_REPLY),
        (step Router.testEnv r.1 (Router.arpFrame 2 8 8, 1)).map fun q => (sents q.2).map (·.via))) =
      some (true, some [.sendArp]) := by decide +kernel
  obtain ⟨⟨s, acc⟩, hexec, hreply⟩ := Option.map_eq_some_iff.mp hrun
  obtain ⟨hreply, hsents⟩ := Prod.mk.inj hreply
  obtain ⟨harp, hop⟩ := of_decide_eq_true hreply
  obtain ⟨⟨s', out⟩, hs, hvia⟩ := Option.map_eq_some_iff.mp hsents
  have hdrains := h _ _ _ _ [(Router.ipFrame 64 7, 0), (Router.arpFrame 2 8 8, 1)]
    [(Router.ipFrame 64 7, 0)] (Router.arpFrame 2 8 8, 1) s acc s' out List.prefix_rfl hexec hs harp hop
  obtain ⟨sent, hout, hsent⟩ := List.map_eq_singleton_iff.mp hvia
  have hall := hdrains.sent
  rw [hout] at hall
  refine Router.not_forall₂_of_via ?_ hall
  rw [hsent]
  decide

/-! ### The packet that waited -/

/-- Where the pointer at index `k` of the queue is after an iteration, if it was not taken out for
good. -/
def moved (s s' : PtrRouter) (f : Frame) (k : ℕ) : Option ℕ :=
  if (getPacket s.router.m f).IsReply then
    match k with
    | k + 1 => some k
    | 0 =>
      -- the packet is parked again, at the end of the queue, or it is not
      if s'.queue.length = s.queue.length then some (s.queue.length - 1) else none
  else some k

/-- The iteration in which the pointer at index `k` of the queue is taken out for good: the state it
starts from and its input. -/
def leaves (env : Env) : PtrRouter → ℕ → List (Frame × ℕ) → Option (PtrRouter × (Frame × ℕ))
  | _, _, [] => none
  | s, k, x :: xs => (step env s x).bind fun r =>
    match moved s r.1 x.1 k with
    | some k => leaves env r.1 k xs
    | none => some (s, x)

/-- **Invariants of the packet that is followed.** What every iteration keeps that does not take it out
for good holds where it leaves. -/
lemma leaves_inv {P : PtrRouter → ℕ → Prop} {ok : PtrRouter → Frame × ℕ → Prop} {k : ℕ}
    (hstep : ∀ s k x s' out k', P s k → ok s x → step env s x = some (s', out) →
      moved s s' x.1 k = some k' → P s' k')
    (hok : Run.Along (step env) ok s xs) (h₀ : P s k) (h : leaves env s k xs = some (t, y)) :
    ∃ k' t' out', P t k' ∧ ok t y ∧ step env t y = some (t', out') ∧ moved t t' y.1 k' = none := by
  induction xs generalizing s k with
  | nil => cases h
  | cons x xs ih =>
    obtain ⟨⟨s', out⟩, hs, h⟩ := Option.bind_eq_some_iff.mp h
    obtain ⟨hx, hxs⟩ := (Run.along_cons hs).mp hok
    dsimp only at h
    cases hm : moved s s' x.1 k with
    | none =>
      rw [hm] at h
      cases h
      exact ⟨k, s', out, h₀, hx, hs, hm⟩
    | some k' =>
      rw [hm] at h
      exact ih hxs (hstep s k x s' out k' h₀ hx hs hm) h

/-- What an iteration does to the queue. -/
lemma step_queue (h : step env s x = some (s', out)) :
    (¬ (getPacket s.router.m x.1).IsReply ∧ ∃ l, s'.queue = s.queue ++ l) ∨
    ((getPacket s.router.m x.1).IsReply ∧ s.queue = []) ∨
    ((getPacket s.router.m x.1).IsReply ∧ ∃ a q l, s.queue = a :: q ∧ s'.queue = q ++ l) := by
  rcases step_cases h with ⟨-, hnil, hqueue, -⟩ | ⟨router, m, r, m', hnot, -, hf, rfl⟩ |
    ⟨router, a, q, r, m', o, hr, hq, -, hf, rfl, -⟩
  · by_cases hr : (getPacket s.router.m x.1).IsReply
    · exact Or.inr (Or.inl ⟨hr, hnil hr⟩)
    · exact Or.inl ⟨hr, [], by rw [hqueue, List.append_nil]⟩
  · refine Or.inl ⟨hnot, ?_⟩
    rcases forwardPacket_parks hf with ⟨-, rfl, -⟩ | ⟨-, -, -, -, rfl⟩
    · exact ⟨[], (List.append_nil _).symm⟩
    · exact ⟨[x.2], rfl⟩
  · refine Or.inr (Or.inr ⟨hr, a, q, ?_⟩)
    rcases forwardPacket_parks hf with ⟨-, rfl, -⟩ | ⟨-, -, -, -, rfl⟩
    · exact ⟨[], hq, (List.append_nil _).symm⟩
    · exact ⟨[x.2], hq, rfl⟩

/-- The index that is followed is one of the queue. -/
lemma lt_of_moved {k k' : ℕ} (hk : k < s.queue.length) (h : step env s x = some (s', out))
    (hm : moved s s' x.1 k = some k') : k' < s'.queue.length := by
  unfold moved at hm
  rcases step_queue h with ⟨hnot, l, hl⟩ | ⟨-, hnil⟩ | ⟨hr, a, q, l, hq, hl⟩
  · rw [if_neg hnot] at hm
    cases hm
    rw [hl, List.length_append]
    omega
  · rw [hnil] at hk
    cases hk
  · rw [if_pos hr] at hm
    rw [hq, List.length_cons] at hk
    cases k with
    | succ k =>
      cases hm
      rw [hl, List.length_append]
      omega
    | zero =>
      dsimp only at hm
      split at hm
      · next hsize =>
        cases hm
        rw [hsize, hq, List.length_cons]
        omega
      · cases hm

/-- A pointer that is taken out for good is the first one, at a reply. -/
lemma eq_zero_of_moved {k : ℕ} (hm : moved s s' x.1 k = none) :
    (getPacket s.router.m x.1).IsReply ∧ k = 0 := by
  unfold moved at hm
  split at hm
  · next hr =>
    cases k with
    | succ k => cases hm
    | zero => exact ⟨hr, rfl⟩
  · cases hm

/-- A call, and one of the router whose queue holds the packets that the pointers lead to. -/
lemma exists_router_call (h : forwardPacket env s m c = some (s', m', out)) :
    ∃ r, Router.forwardPacket env s.view m = some (r, m', sents out) := by
  have hrel := forwardPacket_rel env s m c
  rw [h] at hrel
  obtain ⟨⟨r, m'', o⟩, hr, -, rfl, rfl, -⟩ := Run.exists_of_rel_some hrel
  exact ⟨r, hr⟩

/-- The call of `forward_packet` in the iteration in which the packet leaves, and what it sends. -/
lemma leaves_call {k : ℕ} (hk : k < s.queue.length) (h : leaves env s k xs = some (t, y))
    (hstep : step env t y = some (t', out)) : ∃ router a q r m',
      call env t y.1 = some (router, t.cells a, q) ∧ t.queue = a :: q ∧
      Router.forwardPacket env { router with packets := q.map t.cells } (t.cells a) =
        some (r, m', sents out) := by
  have hok : Run.Along (step env) (fun _ _ => True) s xs := fun _ _ => trivial
  obtain ⟨k', t₁, out₁, hk', -, hs, hm⟩ := leaves_inv (P := fun s k => k < s.queue.length)
    (fun s k x s' out k' hk _ hs hm => lt_of_moved hk hs hm) hok hk h
  obtain ⟨hr, rfl⟩ := eq_zero_of_moved hm
  rcases step_cases hstep with ⟨-, hnil, -⟩ | ⟨-, -, -, -, hnot, -⟩ |
    ⟨router, a, q, r, m', o, -, hq, hcall, hf, -, rfl⟩
  · rw [hnil hr] at hk'
    cases hk'
  · exact absurd hr hnot
  · obtain ⟨r', hr'⟩ := exists_router_call hf
    exact ⟨router, a, q, r', m', hcall, hq, hr'⟩

/-! ### The TTL of a packet that keeps its storage -/

/-- The pointer that is followed leads to a packet with a TTL below `n`, and the queue has no pointer
twice. -/
structure Below (n : ℕ) (s : PtrRouter) (k : ℕ) : Prop where
  nodup : s.queue.Nodup
  ttl : ∃ q, s.parked[k]? = some q ∧ q.ttl.toNat < n

lemma nodup_step (hnodup : s.queue.Nodup) (hfresh : Fresh env s x)
    (h : step env s x = some (s', out)) : s'.queue.Nodup := by
  have hkept : Kept s (s.parked.map .enq) := by
    refine ⟨?_, hnodup⟩
    simp [dequeued, enqueued, List.filterMap_map]
  exact ((kept_step hkept h).mpr hfresh).nodup

/-- **The TTL of a packet that waits is lowered each time it is parked again.** -/
lemma below_moved {n k k' : ℕ} (hb : Below n s k) (hfresh : Fresh env s x)
    (h : step env s x = some (s', out)) (hm : moved s s' x.1 k = some k') : Below n s' k' := by
  obtain ⟨hnodup, q, hk, hlt⟩ := hb
  refine ⟨nodup_step hnodup hfresh h, ?_⟩
  have hview := step_view (headOnce_of_nodup hnodup) hfresh
  rw [h, Option.map_some] at hview
  have hlen (s : PtrRouter) : s.parked.length = s.queue.length := List.length_map _
  unfold moved at hm
  rw [← hlen s, ← hlen s'] at hm
  rcases Router.step_packets hview.symm with ⟨hnot, l, hl⟩ | ⟨-, hnil⟩ | ⟨hr, r, toSend, m', hcons, hf⟩
  · rw [if_neg (show ¬ (getPacket s.router.m x.1).IsReply from hnot)] at hm
    cases hm
    have hl' : s'.parked = s.parked ++ l := hl
    exact ⟨q, by rw [hl', List.getElem?_append_left (List.getElem?_eq_some_iff.mp hk).1, hk], hlt⟩
  · rw [show s.parked = [] from hnil] at hk
    cases hk
  · rw [if_pos (show (getPacket s.router.m x.1).IsReply from hr)] at hm
    have hcons' : s.parked = toSend :: r.packets := hcons
    have hpackets : s'.parked = r.packets ∨
        s'.parked = r.packets ++ [updateHdr toSend] ∧ ¬ toSend.ttl ≤ 1 ∧ _ :=
      (Router.forwardPacket_tables hf).2
    rw [hcons'] at hk hm
    cases k with
    | succ k =>
      cases hm
      rw [List.getElem?_cons_succ] at hk
      have hlast := (List.getElem?_eq_some_iff.mp hk).1
      rcases hpackets with he | ⟨he, -⟩
      · exact ⟨q, by rw [he, hk], hlt⟩
      · exact ⟨q, by rw [he, List.getElem?_append_left hlast, hk], hlt⟩
    | zero =>
      cases hk
      dsimp only at hm
      split at hm
      · next hsize =>
        cases hm
        rcases hpackets with he | ⟨he, httl, -⟩
        · rw [he, List.length_cons] at hsize
          omega
        · obtain ⟨hsub, hone⟩ := Router.toNat_sub_one httl
          refine ⟨updateHdr q, ?_, ?_⟩
          · rw [he, List.length_cons, Nat.add_sub_cancel, List.getElem?_append_right le_rfl,
              Nat.sub_self]
            rfl
          · rw [Router.ttl_updateHdr, hsub]
            omega
      · cases hm

/-! ### Slow and fast -/

/-- The packet `q` is `p` as it was received but for the Ethernet addresses and the number in its
checksum field: it verifies, has the TTL and the other bytes, and goes to the same hardware address on the
same interface. -/
structure AsReceived (s₀ : Router) (p : Packet) (s : Router) (q : Packet) : Prop where
  verifies : ipChecksum ipHdrAddr q.ipHdr = 0
  length : q.len = p.len
  bytes : ∀ i, 12 ≤ i → i < p.len → i ≠ 24 → i ≠ 25 → q.payload i = p.payload i
  hop : s.hop q = s₀.hop p

/-- **When a packet that waited is sent as it would have been with the ARP reply there already**: when
what `forward_packet` is called with in the iteration that takes it out for good is the packet as it was
received. It never is as long as no packet is parked in storage that is in use. `s₀` is any router that
forwards the packet at once. -/
theorem slow_eq_fast_iff {s₀ s₁ s₂ : PtrRouter} {p₁ p₂ : Packet} {c₀ : ℕ} {out₁ : List Effect}
    {sent : Sent} (hlen : 34 ≤ p.len) (hpark : forwardPacket env s p c = some (s₁, p₁, out₁))
    (hqueue : s₁.queue.length = s.queue.length + 1)
    (hfast : forwardPacket env s₀ p c₀ = some (s₂, p₂, [.sent sent]))
    (hvia : sent.via = .forwardPacket)
    (hleaves : leaves env { s₁ with router := { s₁.router with m := p₁ } } s.queue.length xs =
      some (t, y)) (hstep : step env t y = some (t', out)) :
    (sents out = [sent] ↔ ∃ k ∈ call env t y.1, AsReceived s₀.router p k.1 k.2.1) ∧
      (s.queue.Nodup → c ∉ s.queue → Run.Along (step env) (Fresh env)
        { s₁ with router := { s₁.router with m := p₁ } } xs → sents out ≠ [sent]) := by
  obtain ⟨rfl, rfl⟩ : p₁ = updateHdr p ∧
      s₁ = { s with cells := Function.update s.cells c (updateHdr p), queue := s.queue ++ [c] } := by
    rcases forwardPacket_parks hpark with ⟨-, rfl, -⟩ | ⟨-, rfl, -, -, rfl⟩
    · omega
    · exact ⟨rfl, rfl⟩
  obtain ⟨r₂, hfast'⟩ := exists_router_call hfast
  obtain ⟨-, httl, dst, hdst, hsent⟩ := (Router.forwardPacket_sends_iff hfast' hvia).mp rfl
  obtain ⟨router, b, q, r, m', hcall, hq, hslow⟩ := leaves_call (by simp) hleaves hstep
  have hiff : sents out = [sent] ↔ ∃ k ∈ call env t y.1, AsReceived s₀.router p k.1 k.2.1 := by
    rw [Router.forwardPacket_sends_iff hslow hvia, hcall]
    simp only [Option.mem_def, Option.some.injEq, exists_eq_left']
    constructor
    · rintro ⟨hck, -, dst', hdst', hsent'⟩
      obtain ⟨hlen', hbytes, rfl⟩ := (Router.sendPacket_eq_iff hlen).mp (hsent'.symm.trans hsent)
      exact ⟨hck, hlen', hbytes, hdst'.trans hdst.symm⟩
    · rintro ⟨hck, hlen', hbytes, hhop⟩
      have httl' : (t.cells b).ttl = p.ttl := hbytes 22 (by omega) (by omega) (by omega) (by omega)
      refine ⟨hck, httl' ▸ httl, dst, hhop.trans hdst, ?_⟩
      rw [hsent]
      exact ((Router.sendPacket_eq_iff hlen).mpr ⟨hlen', hbytes, rfl⟩).symm
  refine ⟨hiff, ?_⟩
  intro hnodup hc hfresh hsame
  obtain ⟨k, hk, -, -, hbytes, -⟩ := hiff.mp hsame
  obtain ⟨hsub, hone⟩ := Router.toNat_sub_one httl
  have hbelow : Below p.ttl.toNat { s with
      router := { s.router with m := updateHdr p }
      cells := Function.update s.cells c (updateHdr p)
      queue := s.queue ++ [c] } s.queue.length := by
    refine ⟨by simpa using hnodup.concat hc, updateHdr p, ?_, ?_⟩
    · simp [parked]
    · rw [Router.ttl_updateHdr, hsub]
      omega
  obtain ⟨k', t₁, out₁, ⟨-, q', hq', hlt⟩, -, -, hm⟩ := leaves_inv
    (P := fun s k => Below p.ttl.toNat s k)
    (fun s k x s' out k' hb hx hs hm => below_moved hb hx hs hm) hfresh hbelow hleaves
  obtain ⟨-, rfl⟩ := eq_zero_of_moved hm
  rw [hcall] at hk
  cases hk
  rw [parked, hq] at hq'
  cases hq'
  have httl' : (t.cells b).ttl = p.ttl := hbytes 22 (by omega) (by omega) (by omega) (by omega)
  rw [httl'] at hlt
  exact lt_irrefl _ hlt

/-- A call that does nothing but send a frame. -/
lemma eq_sent_of_length (hout : out.length = 1) {z : Sent} (h : sents out = [z]) : out = [.sent z] := by
  obtain ⟨e, rfl⟩ := List.length_eq_one_iff.mp hout
  cases e with
  | sent x => rw [List.singleton_inj.mp h]
  | enq p => cases h
  | deq p => cases h

/-- A packet with a TTL of 65 for the same host is parked in the storage of one with a TTL of 64, and is
then sent as that one should have been. -/
theorem slow_eq_fast_reused : ∃ s₁ p₁ out₁ s₂ p₂ sent t y t' out,
    forwardPacket Router.testEnv testStart (Router.packetTo 64 7) 0 = some (s₁, p₁, out₁) ∧
    forwardPacket Router.testEnv { testStart with router := Router.testRouter7 } (Router.packetTo 64 7)
      0 = some (s₂, p₂, [.sent sent]) ∧
    leaves Router.testEnv { s₁ with router := { s₁.router with m := p₁ } } 0
      [(Router.ipFrame 65 7, 0), (Router.arpFrame 2 7 7, 1)] = some (t, y) ∧
    step Router.testEnv t y = some (t', out) ∧ sents out = [sent] ∧
    ∃ k ∈ call Router.testEnv t y.1,
      AsReceived Router.testRouter7 (Router.packetTo 64 7) k.1 k.2.1 := by
  have hfast : (forwardPacket Router.testEnv { testStart with router := Router.testRouter7 }
      (Router.packetTo 64 7) 0).map (fun r => (r.2.2.length, (sents r.2.2).map (·.via))) =
      some (1, [.forwardPacket]) := by decide +kernel
  have hsame : ((forwardPacket Router.testEnv testStart (Router.packetTo 64 7) 0).bind fun r =>
      (leaves Router.testEnv { r.1 with router := { r.1.router with m := r.2.1 } } 0
        [(Router.ipFrame 65 7, 0), (Router.arpFrame 2 7 7, 1)]).bind fun q =>
          (step Router.testEnv q.1 q.2).map fun z => (r.1.queue.length, sents z.2)) =
      (forwardPacket Router.testEnv { testStart with router := Router.testRouter7 }
        (Router.packetTo 64 7) 0).map fun r => (1, sents r.2.2) := by decide +kernel
  obtain ⟨⟨s₂, p₂, out₂⟩, hfast, hout₂⟩ := Option.map_eq_some_iff.mp hfast
  obtain ⟨hlen, hvias⟩ := Prod.mk.inj hout₂
  obtain ⟨sent, hsent, hvia⟩ := List.map_eq_singleton_iff.mp hvias
  rw [hfast, Option.map_some, hsent] at hsame
  obtain ⟨⟨s₁, p₁, out₁⟩, hpark, hsame⟩ := Option.bind_eq_some_iff.mp hsame
  obtain ⟨⟨t, y⟩, hleaves, hsame⟩ := Option.bind_eq_some_iff.mp hsame
  obtain ⟨⟨t', out⟩, hstep, hsame⟩ := Option.map_eq_some_iff.mp hsame
  obtain ⟨hqueue, hslow⟩ := Prod.mk.inj hsame
  obtain rfl : out₂ = [.sent sent] := eq_sent_of_length hlen hsent
  refine ⟨s₁, p₁, out₁, s₂, p₂, sent, t, y, t', out, hpark, hfast, hleaves, hstep, hslow, ?_⟩
  exact (slow_eq_fast_iff (by decide) hpark hqueue hfast hvia hleaves hstep).1.mp hslow

/-- A packet with a TTL of 2 that waited is answered with Time Exceeded. -/
theorem not_slow_eq_fast : ¬ ∀ env s p c s₁ p₁ out₁ s₀ c₀ s₂ p₂ sent xs t y t' out, 34 ≤ p.len →
    forwardPacket env s p c = some (s₁, p₁, out₁) →
    s₁.queue.length = s.queue.length + 1 →
    forwardPacket env s₀ p c₀ = some (s₂, p₂, [.sent sent]) → sent.via = .forwardPacket →
    leaves env { s₁ with router := { s₁.router with m := p₁ } } s.queue.length xs = some (t, y) →
    step env t y = some (t', out) → sents out = [sent] := by
  intro h
  have hfast : (forwardPacket Router.testEnv { testStart with router := Router.testRouter7 }
      (Router.packetTo 2 7) 0).map (fun r => (r.2.2.length, (sents r.2.2).map (·.via))) =
      some (1, [.forwardPacket]) := by decide +kernel
  have hslow : ((forwardPacket Router.testEnv testStart (Router.packetTo 2 7) 0).bind fun r =>
      (leaves Router.testEnv { r.1 with router := { r.1.router with m := r.2.1 } } 0
        [(Router.arpFrame 2 7 7, 1)]).bind fun q =>
          (step Router.testEnv q.1 q.2).map fun z =>
            (r.1.queue.length, (sents z.2).map (·.via))) = some (1, [.sendIcmpError]) := by
    decide +kernel
  obtain ⟨⟨s₂, p₂, out₂⟩, hfast, hout₂⟩ := Option.map_eq_some_iff.mp hfast
  obtain ⟨hlen, hvias⟩ := Prod.mk.inj hout₂
  obtain ⟨sent, hsent, hvia⟩ := List.map_eq_singleton_iff.mp hvias
  obtain ⟨⟨s₁, p₁, out₁⟩, hpark, hslow⟩ := Option.bind_eq_some_iff.mp hslow
  obtain ⟨⟨t, y⟩, hleaves, hslow⟩ := Option.bind_eq_some_iff.mp hslow
  obtain ⟨⟨t', out⟩, hstep, hslow⟩ := Option.map_eq_some_iff.mp hslow
  obtain ⟨hqueue, hsents⟩ := Prod.mk.inj hslow
  obtain rfl : out₂ = [.sent sent] := eq_sent_of_length hlen hsent
  have heq := h _ testStart _ _ _ _ _ _ _ _ _ _ _ _ _ _ _ (by decide) hpark hqueue hfast hvia hleaves
    hstep
  rw [heq, List.map_singleton, hvia] at hsents
  cases hsents

end PtrRouter

end Protocoale.Tema1

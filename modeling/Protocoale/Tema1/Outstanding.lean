import Protocoale.Tema1.Pending

/-!
The ARP requests of a run. Every packet that is passed to `forward_packet` and has a next hop without
an entry in the table makes a request, whether there has been one for this hop before or not. So at most
one request for a hop is outstanding exactly when packets for it come one by one
(`oneOutstanding_iff`), whatever storage the packets are parked in.
-/

namespace Protocoale.Tema1

open Lib Lib.Bytes

/-- The bytes of an ARP request for an address. -/
def Sent.RequestFor (x : Sent) (a : UInt32) : Prop :=
  (x.data.drop 12).take 2 = [8, 6] ∧ (x.data.drop 20).take 2 = [0, 1] ∧
    (x.data.drop 38).take 4 = bytes32 a

instance {x : Sent} {a : UInt32} : Decidable (x.RequestFor a) := by
  unfold Sent.RequestFor
  infer_instance

/-! ### What an iteration sends -/

namespace Router

variable {env : Env} {s s' r : Router} {f : Frame} {out : List Sent} {m' p : Packet} {a : UInt32}
  {route : RouteTableEntry}

/-- The packet that an iteration passes to `forward_packet`: the one received, or the first one in the
queue. -/
def examined (env : Env) (s : Router) (f : Frame) : Option Packet :=
  let s := { s with m := getPacket s.m f }
  if s.m.etherType = ETHERTYPE_IP then if icmpForMe env s.m then none else some s.m
  else if s.m.IsReply then s.packets.head? else none

/-- The packet is forwarded to a next hop: it verifies, has enough TTL left and a route over it. -/
def Routed (s : Router) (p : Packet) (a : UInt32) : Prop :=
  ipChecksum ipHdrAddr p.ipHdr = 0 ∧ ¬ p.ttl ≤ 1 ∧ s.WaitsFor a p

/-- An iteration forwards a packet to a next hop. -/
def ForwardsTo (env : Env) (s : Router) (f : Frame) (a : UInt32) : Prop :=
  ∃ p, examined env s f = some p ∧ s.Routed p a

lemma requestFor_sendArp {daddr saddr : UInt32} {sha dha : List UInt8} {interface : ℤ} {op : ℕ}
    (hsha : sha.length = 6) (hdha : dha.length = 6) :
    (sendArp daddr saddr sha dha interface op).RequestFor a ↔ bytes16 op = [0, 1] ∧ daddr = a := by
  have htype : ((sendArp daddr saddr sha dha interface op).data.drop 12).take 2 = [8, 6] := by
    have hdata : (sendArp daddr saddr sha dha interface op).data = (dha ++ sha) ++
        ([8, 6] ++ (bytes16 (htons 1) ++ bytes16 (htons 2048) ++ [6, 4] ++ bytes16 op ++ sha ++
          bytes32 saddr ++ dha ++ bytes32 daddr)) := by
      have harp : bytes16 (htons ETHERTYPE_ARP) = [8, 6] := by decide
      simp only [sendArp, buildEthhdr, harp, List.append_assoc]
    have hlen : 12 = (dha ++ sha).length := by simp [hsha, hdha]
    rw [hdata, hlen, List.drop_left]
    rfl
  have hop : ((sendArp daddr saddr sha dha interface op).data.drop 20).take 2 = bytes16 op := by
    have hdata : (sendArp daddr saddr sha dha interface op).data =
        (buildEthhdr sha dha (htons ETHERTYPE_ARP) ++ bytes16 (htons 1) ++ bytes16 (htons 2048) ++
          [6, 4]) ++ (bytes16 op ++ (sha ++ bytes32 saddr ++ dha ++ bytes32 daddr)) := by
      simp only [sendArp, List.append_assoc]
    have hlen : 20 = (buildEthhdr sha dha (htons ETHERTYPE_ARP) ++ bytes16 (htons 1) ++
        bytes16 (htons 2048) ++ [6, 4]).length := by simp [buildEthhdr, hsha, hdha]
    rw [hdata, hlen, List.drop_left]
    rfl
  have htpa : ((sendArp daddr saddr sha dha interface op).data.drop 38).take 4 = bytes32 daddr := by
    have hdata : (sendArp daddr saddr sha dha interface op).data =
        (buildEthhdr sha dha (htons ETHERTYPE_ARP) ++ bytes16 (htons 1) ++ bytes16 (htons 2048) ++
          [6, 4] ++ bytes16 op ++ sha ++ bytes32 saddr ++ dha) ++ bytes32 daddr := by
      simp only [sendArp, List.append_assoc]
    have hlen : 38 = (buildEthhdr sha dha (htons ETHERTYPE_ARP) ++ bytes16 (htons 1) ++
        bytes16 (htons 2048) ++ [6, 4] ++ bytes16 op ++ sha ++ bytes32 saddr ++ dha).length := by
      simp [buildEthhdr, bytes32, hsha, hdha]
    rw [hdata, hlen, List.drop_left]
    rfl
  rw [Sent.RequestFor, htype, hop, htpa, bytes32_injective.eq_iff]
  simp

lemma requestFor_arpRequest : (arpRequest env route).RequestFor a ↔ route.nextHop = a := by
  have hop : bytes16 (htons ARPOP_REQUEST) = [0, 1] := by decide
  rw [arpRequest, requestFor_sendArp (by simp) (by simp)]
  exact and_iff_right hop

/-- A frame whose type is that of an IP packet is none. -/
lemma not_requestFor_ip {q : Sent} {rest : List UInt8} (sha dha : List UInt8) (hsha : sha.length = 6)
    (hdha : dha.length = 6) (hdata : q.data = buildEthhdr sha dha (htons ETHERTYPE_IP) ++ rest) :
    ¬ q.RequestFor a := by
  rintro ⟨htype, -⟩
  have hip : q.data = (dha ++ sha) ++ ([8, 0] ++ rest) := by
    have hbytes : bytes16 (htons ETHERTYPE_IP) = [8, 0] := by decide
    rw [hdata, buildEthhdr, hbytes]
    simp only [List.append_assoc]
  have hlen : 12 = (dha ++ sha).length := by simp [hsha, hdha]
  rw [hip, hlen, List.drop_left] at htype
  cases htype

lemma not_requestFor_icmpError {type : UInt8} : ¬ (icmpError p type).RequestFor a :=
  not_requestFor_ip p.etherDhost p.etherShost read_length read_length
    (List.append_assoc _ _ _)

/-- Neither is an IP packet that is forwarded. -/
lemma not_requestFor_sendPacket {interface : ℤ} (hip : p.etherType = ETHERTYPE_IP) :
    ¬ (sendPacket interface p).RequestFor a := by
  rintro ⟨htype, -⟩
  have hdata : ((sendPacket interface p).data.drop 12).take 2 =
      (read p.payload 12 (p.len - 12)).take 2 := by
    rw [sendPacket, drop_read, Nat.zero_add]
  rw [hdata] at htype
  have hlen := congrArg List.length htype
  rw [List.length_take, read_length, List.length_cons, List.length_singleton] at hlen
  rw [take_read (by omega)] at htype
  have h13 : p.payload 13 = 6 := (List.cons.inj (List.cons.inj htype).2).1
  unfold Packet.etherType be16 at hip
  rw [h13] at hip
  simp at hip
  omega

lemma etherType_updateHdr : (updateHdr p).etherType = p.etherType := by
  rw [Packet.etherType, updateHdr_of_ne (by omega) (by omega), updateHdr_of_ne (by omega) (by omega)]
  rfl

lemma etherType_setEther {dhost shost : Mac} :
    (setEther (updateHdr p) dhost shost).etherType = p.etherType := by
  rw [Packet.etherType, setEther_of_ge (by omega), setEther_of_ge (by omega)]
  exact etherType_updateHdr

/-- An address with an entry is found. -/
lemma mem_of_findArp {block i : ℕ} {ip : UInt32} {es : List ArpTableEntry} {e : ArpTableEntry}
    (h : findArp block ip i es = some (some e)) : e ∈ es ∧ ip = e.ip := by
  induction es generalizing i with
  | nil => cases h
  | cons e' es ih =>
    rw [findArp] at h
    split at h
    · cases h
    · split at h
      · next he =>
        cases h
        exact ⟨List.mem_cons_self, he⟩
      · obtain ⟨hmem, he⟩ := ih h
        exact ⟨List.mem_cons_of_mem _ hmem, he⟩

/-- **When `forward_packet` sends a request**: for a packet that is forwarded to a hop without an
entry. -/
lemma forwardPacket_requests (hip : p.etherType = ETHERTYPE_IP)
    (h : forwardPacket env s p = some (s', m', out)) :
    out.length ≤ 1 ∧ ((∃ q ∈ out, q.RequestFor a) ↔ s.Routed p a ∧ ∀ e ∈ s.arpTable, a ≠ e.ip) := by
  unfold Routed
  rcases forwardPacket_cases h with ⟨hck, -, -, rfl⟩ | ⟨-, httl, -, -, rfl⟩ |
    ⟨-, -, hroute, -, -, rfl⟩ | ⟨hck, httl, route, hroute, hmiss, -, -, rfl⟩ |
    ⟨-, -, route, entry, hroute, hhit, -, rfl, rfl⟩
  · refine ⟨by simp, iff_of_false (by simp) ?_⟩
    rintro ⟨⟨hck', -⟩, -⟩
    exact hck hck'
  · refine ⟨by simp, iff_of_false (by simp [not_requestFor_icmpError]) ?_⟩
    rintro ⟨⟨-, httl', -⟩, -⟩
    exact httl' httl
  · refine ⟨by simp, iff_of_false (by simp [not_requestFor_icmpError]) ?_⟩
    rintro ⟨⟨-, -, hwait⟩, -⟩
    rw [WaitsFor, hroute] at hwait
    cases hwait
  · refine ⟨by simp, ?_⟩
    simp only [List.mem_singleton, exists_eq_left, requestFor_arpRequest]
    constructor
    · rintro rfl
      refine ⟨⟨hck, httl, ?_⟩, ne_of_findArp hmiss⟩
      rw [WaitsFor, hroute]
      rfl
    · rintro ⟨⟨-, -, hwait⟩, -⟩
      rw [WaitsFor, hroute] at hwait
      exact Option.some.inj hwait
  · have hip' : (setEther (updateHdr p) entry.mac (env.interfaceMac route.interface)).etherType =
        ETHERTYPE_IP := etherType_setEther.trans hip
    refine ⟨by simp, iff_of_false (by simp [not_requestFor_sendPacket hip']) ?_⟩
    rintro ⟨⟨-, -, hwait⟩, hne⟩
    rw [WaitsFor, hroute] at hwait
    obtain ⟨hmem, he⟩ := mem_of_findArp hhit
    exact hne entry hmem ((Option.some.inj hwait).symm.trans he)

/-- Nor is an echo reply. -/
lemma not_requestFor_echoReply :
    ¬ (sendIcmp p.saddr p.daddr p.etherDhost p.etherShost ICMP_ECHOREPLY 0 p.interface
      p.icmpEcho).RequestFor a :=
  not_requestFor_ip p.etherDhost p.etherShost read_length read_length (List.append_assoc _ _ _)

/-- An ARP request that came in is answered with a reply at most. -/
lemma handleArpRequest_sends (env : Env) (s : Router) : (handleArpRequest env s).2.length ≤ 1 ∧
    ∀ q ∈ (handleArpRequest env s).2, ∀ a, ¬ q.RequestFor a := by
  unfold handleArpRequest
  split
  · have hop : bytes16 (htons ARPOP_REPLY) ≠ [0, 1] := by decide
    have hnot : ∀ a, ¬ (sendArp s.m.arpSpa s.m.arpTpa (env.interfaceMac s.m.interface).toList
        s.m.etherShost s.m.interface (htons ARPOP_REPLY)).RequestFor a := by
      intro a hq
      exact hop ((requestFor_sendArp (by simp) read_length).mp hq).1
    simpa using hnot
  · simp

/-- An IP packet for the router is answered with an echo reply at most; any other is forwarded. -/
lemma handleIp_sends (h : handleIp env s = some (s', out)) :
    (icmpForMe env s.m ∧ out.length ≤ 1 ∧ ∀ q ∈ out, ∀ a, ¬ q.RequestFor a) ∨
    ¬ icmpForMe env s.m ∧ ∃ t m', forwardPacket env s s.m = some (t, m', out) ∧
      t.arpTable = s'.arpTable := by
  unfold handleIp at h
  split at h
  · next hforme =>
    refine Or.inl ⟨hforme, ?_⟩
    split at h
    · cases h
      simp [not_requestFor_echoReply]
    · cases h
      simp
  · next hforme =>
    obtain ⟨⟨t, m', out'⟩, ht, he⟩ := Option.map_eq_some_iff.mp h
    cases he
    exact Or.inr ⟨hforme, t, m', ht, rfl⟩

/-- An ARP reply makes an entry, and the first packet of the queue is forwarded. -/
lemma handleArpReply_sends (h : handleArpReply env s = some (s', out)) :
    (s.packets = [] ∧ out = []) ∨
    ∃ p packets r m', s.packets = p :: packets ∧ r.rtable = s.rtable ∧
      r.arpTable = s'.arpTable ∧ forwardPacket env r p = some (s', m', out) := by
  obtain ⟨r, hr, hq⟩ := Option.bind_eq_some_iff.mp h
  obtain ⟨-, -, hrtable, hpackets, -⟩ := addArpEntry_spec hr
  cases hp : r.packets with
  | nil =>
    rw [hp] at hq
    cases hq
    exact Or.inl ⟨hpackets ▸ hp, rfl⟩
  | cons p packets =>
    rw [hp] at hq
    obtain ⟨⟨t, m', out'⟩, ht, he⟩ := Option.map_eq_some_iff.mp hq
    cases he
    refine Or.inr ⟨p, packets, { r with packets }, m', hpackets ▸ hp, hrtable, ?_, ht⟩
    exact (forwardPacket_tables ht).1.arpTable.symm

/-- An iteration that forwards nothing sends no request; the others send what `forward_packet` does,
with the table as it is after the iteration. -/
lemma step_examined (h : step env s f = some (s', out)) :
    (examined env s f = none ∧ out.length ≤ 1 ∧ ∀ q ∈ out, ∀ a, ¬ q.RequestFor a) ∨
    ∃ p r t m', examined env s f = some p ∧ r.rtable = s.rtable ∧ r.arpTable = s'.arpTable ∧
      (p.etherType = ETHERTYPE_IP ∨ p ∈ s.packets) ∧ forwardPacket env r p = some (t, m', out) := by
  unfold step at h
  unfold examined
  dsimp only at h ⊢
  split at h
  · next hip =>
    rw [if_pos hip]
    rcases handleIp_sends h with ⟨hforme, hout⟩ | ⟨hforme, t, m', ht, htable⟩
    · exact Or.inl ⟨if_pos hforme, hout⟩
    · have hsame := (forwardPacket_tables ht).1.arpTable.symm
      exact Or.inr ⟨_, { s with m := getPacket s.m f }, t, m', if_neg hforme, rfl, hsame.trans htable,
        Or.inl hip, ht⟩
  · next hip =>
    rw [if_neg hip]
    split at h
    · next harp =>
      split at h
      · next hop =>
        have hout := handleArpRequest_sends env { s with m := getPacket s.m f }
        rw [Option.some.inj h] at hout
        exact Or.inl ⟨if_neg fun hr => hr.2 hop, hout⟩
      · next hop =>
        have hreply : (getPacket s.m f).IsReply := ⟨harp, hop⟩
        rw [if_pos hreply]
        rcases handleArpReply_sends h with ⟨hnil, rfl⟩ | ⟨p, packets, r, m', hp, hr, ha, ht⟩
        · have hnone : s.packets.head? = none := by rw [hnil, List.head?_nil]
          exact Or.inl ⟨hnone, by simp⟩
        · have hhead : s.packets.head? = some p := by rw [hp, List.head?_cons]
          have hmem : p ∈ s.packets := List.mem_of_head? hhead
          exact Or.inr ⟨p, r, s', m', hhead, hr, ha, Or.inr hmem, ht⟩
    · next harp =>
      cases h
      exact Or.inl ⟨if_neg fun hr => harp hr.1, by simp⟩

/-- **When an iteration sends a request**: it forwards a packet to a hop without an entry. -/
lemma step_requests (hq : ∀ p ∈ s.packets, p.etherType = ETHERTYPE_IP)
    (h : step env s f = some (s', out)) (a : UInt32) : (out.countP fun q => q.RequestFor a) ≤ 1 ∧
      ((0 < out.countP fun q => q.RequestFor a) ↔
        ForwardsTo env s f a ∧ ∀ e ∈ s'.arpTable, a ≠ e.ip) := by
  have hpos : (0 < out.countP fun q => q.RequestFor a) ↔ ∃ q ∈ out, q.RequestFor a := by
    rw [List.countP_pos_iff]
    simp only [decide_eq_true_eq]
  have hle : (out.countP fun q => q.RequestFor a) ≤ out.length := List.countP_le_length
  unfold ForwardsTo
  rcases step_examined h with ⟨hnone, hlen, hno⟩ | ⟨p, r, t, m', hsome, hrtable, htable, hip, hf⟩
  · refine ⟨hle.trans hlen, ?_⟩
    rw [hpos]
    refine iff_of_false ?_ ?_
    · rintro ⟨q, hmem, hreq⟩
      exact hno q hmem a hreq
    · rintro ⟨⟨p, hp, -⟩, -⟩
      rw [hnone] at hp
      cases hp
  · have hip' : p.etherType = ETHERTYPE_IP := hip.elim id (hq p)
    have hrouted : r.Routed p a ↔ s.Routed p a := by
      unfold Routed WaitsFor
      rw [bestRoute_congr (s := s) hrtable]
    obtain ⟨hlen, hreq⟩ := forwardPacket_requests hip' hf
    refine ⟨hle.trans hlen, ?_⟩
    rw [hpos, hreq, hrouted, htable]
    simp only [hsome, Option.some.injEq, exists_eq_left']

end Router

namespace PtrRouter

variable {env : Env} {s s' t : PtrRouter} {f : Frame × ℕ} {fs : List (Frame × ℕ)}
  {out sent : List Effect} {rtable : List RouteTableEntry} {m m' p : Packet} {cells : ℕ → Packet}
  {c : ℕ} {a : UInt32} {x y : PtrRouter × (Frame × ℕ)} {xs pre post : List (PtrRouter × (Frame × ℕ))}

/-! ### One outstanding request -/

/-- How many requests for an address an iteration sends. -/
def requests (env : Env) (x : PtrRouter × (Frame × ℕ)) (a : UInt32) : ℕ :=
  (((step env x.1 x.2).map fun r => sents r.2).getD []).countP fun q => q.RequestFor a

/-- The packet an iteration receives, as it is found in the buffer. -/
def input (x : PtrRouter × (Frame × ℕ)) : Packet := getPacket x.1.router.m x.2.1

/-- The frame received is an ARP reply of an address. -/
def Answers (x : PtrRouter × (Frame × ℕ)) (a : UInt32) : Prop :=
  (input x).etherType = ETHERTYPE_ARP ∧ (input x).arpOp = ARPOP_REPLY ∧ (input x).arpSpa = a

/-- **At most one request for an address is outstanding**: an iteration sends no two, and between two
iterations that send one, or with the second one, a reply comes in. -/
structure OneOutstanding (env : Env) (xs : List (PtrRouter × (Frame × ℕ))) : Prop where
  once : ∀ x ∈ xs, ∀ a, requests env x a ≤ 1
  answered : ∀ pre x mid y post a, xs = pre ++ x :: (mid ++ y :: post) → 0 < requests env x a →
    0 < requests env y a → ∃ z ∈ mid ++ [y], Answers z a

/-- An iteration forwards a packet to a next hop: the one received, or the one that the first pointer of
the queue leads to. -/
def ForwardsTo (env : Env) (x : PtrRouter × (Frame × ℕ)) (a : UInt32) : Prop :=
  Router.ForwardsTo env x.1.view x.2.1 a

/-- The frame received makes an entry for an address. -/
def Enters (x : PtrRouter × (Frame × ℕ)) (a : UInt32) : Prop :=
  (input x).IsReply ∧ (input x).arpSpa = a

/-- **The packets for a next hop come one by one**: when a packet is forwarded to a hop to which one
was forwarded before, its entry has been made. -/
def Spaced (env : Env) (xs : List (PtrRouter × (Frame × ℕ))) : Prop :=
  ∀ pre x mid y post a, xs = pre ++ x :: (mid ++ y :: post) → ForwardsTo env x a →
    ForwardsTo env y a → ∃ z ∈ pre ++ x :: (mid ++ [y]), Enters z a

/-! ### What the queue points to -/

/-- The queue points to IP packets. -/
def QueueIp (s : PtrRouter) : Prop := ∀ b ∈ s.queue, (s.cells b).etherType = ETHERTYPE_IP

/-- `forward_packet` leaves the type of a packet as it is. -/
lemma forwardPacket_etherType (h : forwardPacket env s m c = some (s', m', out)) :
    m'.etherType = m.etherType := by
  obtain ⟨r, hr⟩ := exists_router_call h
  rcases Router.forwardPacket_cases hr with ⟨-, -, rfl, -⟩ | ⟨-, -, -, rfl, -⟩ | ⟨-, -, -, -, rfl, -⟩ |
    ⟨-, -, -, -, -, -, rfl, -⟩ | ⟨-, -, -, -, -, -, -, rfl, -⟩
  · rfl
  · rfl
  · rfl
  · exact Router.etherType_updateHdr
  · exact Router.etherType_setEther

/-- An IP packet is written in some storage. -/
lemma etherType_update {b : ℕ} (hp : p.etherType = ETHERTYPE_IP)
    (hb : b ≠ c → (cells b).etherType = ETHERTYPE_IP) :
    (Function.update cells c p b).etherType = ETHERTYPE_IP := by
  rw [Function.update_apply]
  split
  · exact hp
  · next hne => exact hb hne

lemma queueIp_forwardPacket (hq : QueueIp s) (hip : m.etherType = ETHERTYPE_IP)
    (h : forwardPacket env s m c = some (s', m', out)) : QueueIp s' := by
  rcases forwardPacket_parks h with ⟨-, rfl, -⟩ | ⟨-, -, -, -, rfl⟩
  · exact hq
  · intro b hb
    refine etherType_update (Router.etherType_updateHdr.trans hip) ?_
    intro hne
    rcases List.mem_append.mp hb with hb | hb
    · exact hq b hb
    · exact absurd (List.mem_singleton.mp hb) hne

/-- The packet an iteration passes on, when it is the one received. -/
lemma call_etherType {router : Router} {q : List ℕ} (hnot : ¬ (getPacket s.router.m f.1).IsReply)
    (h : call env s f.1 = some (router, m, q)) : m.etherType = ETHERTYPE_IP := by
  unfold call at h
  dsimp only at h
  rw [if_neg hnot] at h
  split at h
  · next hip =>
    split at h
    · cases h
    · cases h
      exact hip
  · cases h

/-- **Only IP packets are put in the queue**, in whatever storage. -/
lemma queueIp_step (hq : QueueIp s) (h : step env s f = some (s', out)) : QueueIp s' := by
  rcases step_cases h with ⟨-, -, hqueue, hcells, -⟩ | ⟨router, m, r, m', hnot, hcall, hf, rfl⟩ |
    ⟨router, b, q, r, m', o, -, hcons, -, hf, rfl, -⟩
  · intro b hb
    rw [hcells]
    exact hq b (hqueue ▸ hb)
  · have hr : QueueIp r := queueIp_forwardPacket (s := { s with router }) hq (call_etherType hnot hcall) hf
    exact hr
  · have hip : (s.cells b).etherType = ETHERTYPE_IP := hq b (hcons ▸ List.mem_cons_self)
    have hrest : QueueIp { s with router, queue := q } :=
      fun b' hb' => hq b' (hcons ▸ List.mem_cons_of_mem _ hb')
    have hr : QueueIp r := queueIp_forwardPacket hrest hip hf
    intro b' hb'
    exact etherType_update ((forwardPacket_etherType hf).trans hip) fun _ => hr b' hb'

lemma QueueIp.view (hq : QueueIp s) : ∀ p ∈ s.view.packets, p.etherType = ETHERTYPE_IP := by
  intro p hp
  obtain ⟨b, hb, rfl⟩ := List.mem_map.mp hp
  exact hq b hb

/-! ### What a run sends -/

/-- **When a step sends a request**: it forwards a packet to a hop without an entry. -/
lemma step_requests (hq : QueueIp s) (h : step env s f = some (s', out)) (a : UInt32) :
    requests env (s, f) a ≤ 1 ∧ (0 < requests env (s, f) a ↔
      ForwardsTo env (s, f) a ∧ ∀ e ∈ s'.router.arpTable, a ≠ e.ip) := by
  obtain ⟨r, hr, hsame⟩ := exists_router_step h
  have hsend := Router.step_requests hq.view hr a
  unfold requests ForwardsTo
  dsimp only
  rwa [h, Option.map_some, Option.getD_some, ← hsame.arpTable_eq]

lemma hasEntry_step (h : step env s f = some (s', out)) (a : UInt32) :
    (∃ e ∈ s'.router.arpTable, a = e.ip) ↔
      (∃ e ∈ s.router.arpTable, a = e.ip) ∨ Enters (s, f) a := by
  obtain ⟨r, hr, hsame⟩ := exists_router_step h
  have htab := (Router.step_tables hr).2
  rw [hsame.arpTable_eq] at htab
  unfold Enters input
  dsimp only
  split at htab
  · next hreply =>
    have hreply' : (getPacket s.router.m f.1).IsReply := hreply
    rw [htab.1]
    simp only [List.mem_append, List.mem_singleton, or_and_right, exists_or, exists_eq_left, hreply',
      true_and]
    exact or_congr_right eq_comm
  · next hreply =>
    rw [htab.1]
    exact (or_iff_left fun he => hreply he.1).symm

/-- The queue holds IP packets, and the table an entry for each sender of a reply. -/
lemma exec_table (h : Run.exec (step env) (init rtable m cells) fs = some (s, out)) : QueueIp s ∧
    ∀ a, (∃ e ∈ s.router.arpTable, a = e.ip) ↔
      ∃ z ∈ Run.visited (step env) (init rtable m cells) fs, Enters z a := by
  have hok : Run.Along (step env) (fun _ _ => True) (init rtable m cells) fs := fun _ _ => trivial
  refine Run.exec_history (P := fun xs s => QueueIp s ∧
    ∀ a, (∃ e ∈ s.router.arpTable, a = e.ip) ↔ ∃ z ∈ xs, Enters z a) ?_ hok ?_ h
  · rintro xs s f s' out ⟨hq, htable⟩ - hs
    refine ⟨queueIp_step hq hs, ?_⟩
    intro a
    rw [hasEntry_step hs, htable]
    simp only [List.mem_append, List.mem_singleton, or_and_right, exists_or, exists_eq_left]
  · exact ⟨by simp [QueueIp, init], by simp [init, Router.init]⟩

/-- **When an iteration of a run sends a request**: it forwards a packet to a hop of which no reply
has come in. -/
lemma run_requests {t : PtrRouter} {sent : List Effect} {pre post : List (PtrRouter × (Frame × ℕ))}
    (h : Run.exec (step env) (init rtable m cells) fs = some (t, sent))
    (hv : Run.visited (step env) (init rtable m cells) fs = pre ++ y :: post) (a : UInt32) :
    requests env y a ≤ 1 ∧
      (0 < requests env y a ↔ ForwardsTo env y a ∧ ∀ z ∈ pre ++ [y], ¬ Enters z a) := by
  obtain ⟨js, o, s', o', hexec, hvis, hstep⟩ := Run.exec_of_visited_eq h hv
  obtain ⟨hq, htable⟩ := exec_table hexec
  obtain ⟨hle, hpos⟩ := step_requests hq hstep a
  have hentry : (∀ e ∈ s'.router.arpTable, a ≠ e.ip) ↔ ∀ z ∈ pre ++ [y], ¬ Enters z a := by
    have hexists := hasEntry_step hstep a
    rw [htable, hvis] at hexists
    constructor
    · intro hne z hz hz'
      obtain ⟨e, he, hip⟩ : ∃ e ∈ s'.router.arpTable, a = e.ip := by
        rw [hexists]
        rcases List.mem_append.mp hz with hz | hz
        · exact Or.inl ⟨z, hz, hz'⟩
        · exact Or.inr (List.mem_singleton.mp hz ▸ hz')
      exact hne e he hip
    · intro hno e he hip
      rcases hexists.mp ⟨e, he, hip⟩ with ⟨z, hz, hz'⟩ | hz'
      · exact hno z (List.mem_append_left _ hz) hz'
      · exact hno y (List.mem_append_right _ (List.mem_singleton_self y)) hz'
  exact ⟨hle, hpos.trans (and_congr_right fun _ => hentry)⟩

lemma Answers.enters (h : Answers x a) : Enters x a := by
  obtain ⟨harp, hop, hspa⟩ := h
  exact ⟨⟨harp, by rw [hop]; decide⟩, hspa⟩

/-- **At most one request for a hop is outstanding exactly when the packets for it come one by one.** -/
theorem oneOutstanding_iff {t : PtrRouter} {sent : List Effect}
    (h : Run.exec (step env) (init rtable m cells) fs = some (t, sent)) :
    OneOutstanding env (Run.visited (step env) (init rtable m cells) fs) ↔
      Spaced env (Run.visited (step env) (init rtable m cells) fs) := by
  constructor
  · intro hone pre x mid y post a hv hx hy
    by_contra hno
    push Not at hno
    have hv' : Run.visited (step env) (init rtable m cells) fs = (pre ++ x :: mid) ++ y :: post := by
      rw [hv]
      simp
    -- without an entry both packets make a request, and no reply comes in between
    have hx' : 0 < requests env x a := by
      refine (run_requests h hv a).2.mpr ⟨hx, ?_⟩
      intro z hz
      refine hno z ?_
      rcases List.mem_append.mp hz with hz | hz
      · exact List.mem_append_left _ hz
      · exact List.mem_append_right _ (List.mem_singleton.mp hz ▸ List.mem_cons_self)
    have hy' : 0 < requests env y a := by
      refine (run_requests h hv' a).2.mpr ⟨hy, ?_⟩
      intro z hz
      refine hno z ?_
      simpa using hz
    obtain ⟨z, hz, hanswer⟩ := hone.answered pre x mid y post a hv hx' hy'
    refine hno z ?_ hanswer.enters
    exact List.mem_append_right _ (List.mem_cons_of_mem _ hz)
  · intro hspaced
    refine ⟨?_, ?_⟩
    · intro x hx a
      obtain ⟨pre, post, hv⟩ := List.append_of_mem hx
      exact (run_requests h hv a).1
    · intro pre x mid y post a hv hx hy
      have hv' : Run.visited (step env) (init rtable m cells) fs = (pre ++ x :: mid) ++ y :: post := by
        rw [hv]
        simp
      obtain ⟨hx', -⟩ := (run_requests h hv a).2.mp hx
      obtain ⟨hy', hno⟩ := (run_requests h hv' a).2.mp hy
      obtain ⟨z, hz, henters⟩ := hspaced pre x mid y post a hv hx' hy'
      exact absurd henters (hno z (by simpa using hz))

/-- One packet for `10.0.1.7` and the reply of this host, which takes it out of the queue again. -/
theorem oneOutstanding_iff_one : ∃ t sent, Run.exec (step Router.testEnv) testStart
    [(Router.ipFrame 64 7, 0), (Router.arpFrame 2 7 7, 1)] = some (t, sent) ∧
      OneOutstanding Router.testEnv (Run.visited (step Router.testEnv) testStart
        [(Router.ipFrame 64 7, 0), (Router.arpFrame 2 7 7, 1)]) := by
  have hrun : (Run.exec (step Router.testEnv) testStart
      [(Router.ipFrame 64 7, 0), (Router.arpFrame 2 7 7, 1)]).isSome := by decide +kernel
  obtain ⟨⟨t, sent⟩, hrun⟩ := Option.isSome_iff_exists.mp hrun
  obtain ⟨s, o, o', hs, hrest, -⟩ := Run.exec_cons_eq_some hrun
  obtain ⟨t', o₁, o₂, hs', -, -⟩ := Run.exec_cons_eq_some hrest
  have hhop : (step Router.testEnv testStart (Router.ipFrame 64 7, 0)).map (fun r =>
      (Router.examined Router.testEnv r.1.view (Router.arpFrame 2 7 7)).map fun p =>
        (r.1.view.bestRoute p).map (·.nextHop)) = some (some (some (le32 10 0 1 7))) := by
    decide +kernel
  have hreply : (step Router.testEnv testStart (Router.ipFrame 64 7, 0)).map (fun r =>
      decide ((getPacket r.1.router.m (Router.arpFrame 2 7 7)).IsReply ∧
        (getPacket r.1.router.m (Router.arpFrame 2 7 7)).arpSpa = le32 10 0 1 7)) = some true := by
    decide +kernel
  rw [hs] at hhop hreply
  have hvisited : Run.visited (step Router.testEnv) testStart
      [(Router.ipFrame 64 7, 0), (Router.arpFrame 2 7 7, 1)] =
      [(testStart, Router.ipFrame 64 7, 0), (s, Router.arpFrame 2 7 7, 1)] := by
    rw [Run.visited_cons hs, Run.visited_cons hs', Run.visited_nil]
  refine ⟨t, sent, hrun, (oneOutstanding_iff hrun).mpr ?_⟩
  change Spaced Router.testEnv (Run.visited (step Router.testEnv) testStart _)
  rw [hvisited]
  intro pre x mid y post a hv _ hy
  have hlen := congrArg List.length hv
  simp only [List.length_append, List.length_cons, List.length_nil] at hlen
  obtain rfl := List.length_eq_zero_iff.mp (show pre.length = 0 by omega)
  obtain rfl := List.length_eq_zero_iff.mp (show mid.length = 0 by omega)
  cases hv
  obtain ⟨p, hp, -, -, hwait⟩ := hy
  refine ⟨(s, Router.arpFrame 2 7 7, 1), by simp, ?_⟩
  dsimp only at hp hwait
  rw [Option.map_some, hp, Option.map_some] at hhop
  have ha : a = le32 10 0 1 7 := by
    rw [Router.WaitsFor, Option.some.inj (Option.some.inj hhop)] at hwait
    exact (Option.some.inj hwait).symm
  have henters : Enters (s, Router.arpFrame 2 7 7, 1) (le32 10 0 1 7) := by
    rw [Option.map_some, Option.some.injEq, decide_eq_true_eq] at hreply
    exact hreply
  rwa [ha]

/-- Two packets for the same host make two requests. -/
theorem not_oneOutstanding : ¬ ∀ env rtable m cells fs t sent,
    Run.exec (step env) (init rtable m cells) fs = some (t, sent) →
      OneOutstanding env (Run.visited (step env) (init rtable m cells) fs) := by
  intro hclaim
  have hrun : (Run.exec (step Router.testEnv) testStart
      [(Router.ipFrame 64 7, 0), (Router.ipFrame 64 7, 1)]).isSome := by decide +kernel
  obtain ⟨⟨t, sent⟩, hrun⟩ := Option.isSome_iff_exists.mp hrun
  have hone := hclaim Router.testEnv _ _ _ _ t sent hrun
  obtain ⟨s, o, o', hs, hrest, -⟩ := Run.exec_cons_eq_some hrun
  obtain ⟨t', o₁, o₂, hs', -, -⟩ := Run.exec_cons_eq_some hrest
  have hfirst : requests Router.testEnv (testStart, Router.ipFrame 64 7, 0) (le32 10 0 1 7) = 1 := by
    decide +kernel
  have hsecond : (step Router.testEnv testStart (Router.ipFrame 64 7, 0)).map (fun r =>
      (requests Router.testEnv (r.1, Router.ipFrame 64 7, 1) (le32 10 0 1 7),
        decide ((getPacket r.1.router.m (Router.ipFrame 64 7)).etherType = ETHERTYPE_ARP))) =
      some (1, false) := by
    decide +kernel
  rw [hs, Option.map_some, Option.some.injEq, Prod.mk.injEq] at hsecond
  have hv : Run.visited (step Router.testEnv) testStart
      [(Router.ipFrame 64 7, 0), (Router.ipFrame 64 7, 1)] =
      [] ++ (testStart, Router.ipFrame 64 7, 0) :: ([] ++ (s, Router.ipFrame 64 7, 1) :: []) := by
    rw [Run.visited_cons hs, Run.visited_cons hs', Run.visited_nil]
    rfl
  have hx : 0 < requests Router.testEnv (testStart, Router.ipFrame 64 7, 0) (le32 10 0 1 7) := by
    rw [hfirst]
    exact Nat.one_pos
  have hy : 0 < requests Router.testEnv (s, Router.ipFrame 64 7, 1) (le32 10 0 1 7) := by
    rw [hsecond.1]
    exact Nat.one_pos
  obtain ⟨z, hz, harp, -⟩ := hone.answered _ _ _ _ _ _ hv hx hy
  rw [List.mem_singleton.mp hz] at harp
  exact of_decide_eq_false hsecond.2 harp

end PtrRouter

end Protocoale.Tema1

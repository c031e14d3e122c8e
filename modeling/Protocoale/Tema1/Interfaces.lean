import Protocoale.Tema1.Parser
import Protocoale.Tema1.Reception

/-!
The indices of `interfaces[]`. `indices` lists what an iteration of the main loop passes to
`get_interface_ip`, `get_interface_mac` and `send_packet`, following its control flow. Such an index
is the interface of a packet, which `get_packet` sets, or that of a route, which `read_rtable` takes
from the file as it is: all of them are in range exactly when those of the routes that
`get_best_route` can find are (`interfaces_inRange_iff`).
-/

namespace Protocoale.Tema1

open Lib Lib.Bytes

/-- An index of `interfaces[]`. -/
def InRange (i : ℤ) : Prop := 0 ≤ i ∧ i < ROUTER_NUM_INTERFACES

instance (i : ℤ) : Decidable (InRange i) := inferInstanceAs (Decidable (_ ∧ _))

/-- The route that is found for an address is on one of the interfaces. -/
def RoutesInRange (rtable : List RouteTableEntry) : Prop :=
  ∀ d e, getBestRoute rtable d 0 (rtable.length - 1) = some e → InRange e.interface

namespace Router

/-! ### The indices -/

/-- The indices `forward_packet` passes on: the interface of the packet to `send_icmp_error`; that
of the route three times for an ARP request, for its address, its hardware address and to send; and
twice for a packet that is transmitted. -/
def forwardIndices (s : Router) (m : Packet) : List ℤ :=
  if ipChecksum ipHdrAddr m.ipHdr ≠ 0 then []
  else if m.ttl ≤ 1 then [m.interface]
  else
    match s.bestRoute m with
    | none => [m.interface]
    | some route =>
      match s.getArpEntry route.nextHop with
      | none => []
      | some none => [route.interface, route.interface, route.interface]
      | some (some _) => [route.interface, route.interface]

/-- The indices of an ARP packet that is not a request. -/
def replyIndices (s : Router) : List ℤ :=
  match s.addArpEntry { ip := s.m.arpSpa, mac := s.m.arpSha } with
  | none => []
  | some s =>
    match s.packets with
    | [] => []
    | toSend :: packets => forwardIndices { s with packets } toSend

/-- The indices that handling the packet received passes on. -/
def receivedIndices (env : Env) (s : Router) : List ℤ :=
  if s.m.etherType = ETHERTYPE_IP then
    if s.m.protocol = IPPROTO_ICMP then
      -- the address of the interface is asked for before it is known whose packet it is
      s.m.interface :: (if s.m.daddr = env.interfaceIp s.m.interface then
        if s.m.icmpType = ICMP_ECHO then [s.m.interface] else []
      else forwardIndices s s.m)
    else forwardIndices s s.m
  else if s.m.etherType = ETHERTYPE_ARP then
    if s.m.arpOp = ARPOP_REQUEST then
      s.m.interface :: (if s.m.arpTpa = env.interfaceIp s.m.interface then
        [s.m.interface, s.m.interface] else [])
    else replyIndices s
  else []

/-- The indices one iteration of the main loop passes on. -/
def indices (env : Env) (s : Router) (f : Frame) : List ℤ :=
  receivedIndices env { s with m := getPacket s.m f }

variable {env : Env} {s s' : Router} {m m' : Packet} {f : Frame} {fs : List Frame}
  {out : List Sent} {x : Sent} {i : ℤ} {d : UInt32} {rtable : List RouteTableEntry}
  {e : RouteTableEntry}

/-- What `forward_packet` sends leaves on an interface of its list. -/
lemma interface_mem_forwardIndices (h : forwardPacket env s m = some (s', m', out)) (hx : x ∈ out) :
    x.interface ∈ forwardIndices s m := by
  unfold forwardIndices
  rcases forwardPacket_cases h with ⟨-, -, -, rfl⟩ | ⟨hck, httl, -, -, rfl⟩ |
    ⟨hck, httl, hroute, -, -, rfl⟩ | ⟨hck, httl, route, hroute, hentry, -, -, rfl⟩ |
    ⟨hck, httl, route, entry, hroute, hentry, -, -, rfl⟩
  · cases hx
  · rw [if_neg (not_not.mpr hck), if_pos httl, List.mem_singleton.mp hx]
    exact List.mem_cons_self
  · rw [if_neg (not_not.mpr hck), if_neg httl, hroute, List.mem_singleton.mp hx]
    exact List.mem_cons_self
  · rw [if_neg (not_not.mpr hck), if_neg httl, hroute, List.mem_singleton.mp hx]
    simp only [hentry]
    exact List.mem_cons_self
  · rw [if_neg (not_not.mpr hck), if_neg httl, hroute, List.mem_singleton.mp hx]
    simp only [hentry]
    exact List.mem_cons_self

lemma interface_mem_replyIndices (h : handleArpReply env s = some (s', out)) (hx : x ∈ out) :
    x.interface ∈ replyIndices s := by
  unfold handleArpReply at h
  unfold replyIndices
  obtain ⟨r, hr, h⟩ := Option.bind_eq_some_iff.mp h
  rw [hr]
  dsimp only
  cases hp : r.packets with
  | nil =>
    rw [hp] at h
    cases h
    cases hx
  | cons toSend packets =>
    rw [hp] at h
    obtain ⟨⟨t, m', out'⟩, ht, he⟩ := Option.map_eq_some_iff.mp h
    cases he
    exact interface_mem_forwardIndices ht hx

lemma interface_mem_ip (h : handleIp env s = some (s', out)) (hx : x ∈ out)
    (hip : s.m.etherType = ETHERTYPE_IP) : x.interface ∈ receivedIndices env s := by
  unfold receivedIndices
  rw [if_pos hip]
  unfold handleIp at h
  split at h
  · next hme =>
    obtain ⟨hproto, hdst⟩ := of_decide_eq_true hme
    rw [if_pos hproto, if_pos hdst]
    split at h
    · next hecho =>
      cases h
      rw [List.mem_singleton.mp hx]
      exact List.mem_cons_self
    · cases h
      cases hx
  · next hme =>
    obtain ⟨⟨r, m', out'⟩, hr, he⟩ := Option.map_eq_some_iff.mp h
    cases he
    have hmem := interface_mem_forwardIndices hr hx
    split
    · next hproto =>
      rw [if_neg fun hdst => hme (decide_eq_true ⟨hproto, hdst⟩)]
      exact List.mem_cons_of_mem _ hmem
    · exact hmem

/-- **What the router sends leaves on an interface of the list.** -/
theorem interface_mem_indices (h : step env s f = some (s', out)) (hx : x ∈ out) :
    x.interface ∈ indices env s f := by
  unfold step at h
  dsimp only at h
  split at h
  · next hip => exact interface_mem_ip h hx hip
  · next hip =>
    unfold indices receivedIndices
    rw [if_neg hip]
    split at h
    · next harp =>
      rw [if_pos harp]
      split at h
      · next hop =>
        rw [if_pos hop]
        unfold handleArpRequest at h
        split at h
        · cases h
          rw [List.mem_singleton.mp hx]
          exact List.mem_cons_self
        · cases h
          cases hx
      · next hop =>
        rw [if_neg hop]
        exact interface_mem_replyIndices h hx
    · cases h
      cases hx

/-! ### Routes in range -/

/-- The packets parked came in on an interface. -/
def ParkedInRange (s : Router) : Prop := ∀ p ∈ s.packets, InRange p.interface

lemma getPacket_inRange : InRange (getPacket m f).interface := by
  refine ⟨Int.natCast_nonneg _, ?_⟩
  have hlt := f.interface.isLt
  show ((f.interface : ℕ) : ℤ) < _
  omega

lemma forwardIndices_inRange (hroutes : RoutesInRange s.rtable) (hm : InRange m.interface)
    (hi : i ∈ forwardIndices s m) : InRange i := by
  unfold forwardIndices at hi
  split at hi
  · cases hi
  · split at hi
    · rwa [List.mem_singleton.mp hi]
    · split at hi
      · rwa [List.mem_singleton.mp hi]
      · next route hroute =>
        have hr := hroutes m.daddr route hroute
        split at hi
        · cases hi
        · have he : i = route.interface := by simpa using hi
          rwa [he]
        · have he : i = route.interface := by simpa using hi
          rwa [he]

lemma replyIndices_inRange (hroutes : RoutesInRange s.rtable) (hparked : ParkedInRange s)
    (hi : i ∈ replyIndices s) : InRange i := by
  unfold replyIndices at hi
  split at hi
  · cases hi
  · next r hr =>
    obtain ⟨-, -, hrtable, hpackets, -⟩ := addArpEntry_spec hr
    split at hi
    · cases hi
    · next toSend packets hp =>
      refine forwardIndices_inRange ?_ ?_ hi
      · show RoutesInRange r.rtable
        rwa [hrtable]
      · apply hparked
        rw [← hpackets, hp]
        exact List.mem_cons_self

/-- With the routes in range, one iteration stays in range. -/
theorem indices_inRange (hroutes : RoutesInRange s.rtable) (hparked : ParkedInRange s)
    (hi : i ∈ indices env s f) : InRange i := by
  have hm : InRange (getPacket s.m f).interface := getPacket_inRange
  have hforward : ∀ j ∈ forwardIndices { s with m := getPacket s.m f } (getPacket s.m f), InRange j :=
    fun j hj => forwardIndices_inRange hroutes hm hj
  unfold indices receivedIndices at hi
  dsimp only at hi
  split at hi
  · split at hi
    · rcases List.mem_cons.mp hi with rfl | hi
      · exact hm
      · split at hi
        · split at hi
          · rwa [List.mem_singleton.mp hi]
          · cases hi
        · exact hforward i hi
    · exact hforward i hi
  · split at hi
    · split at hi
      · rcases List.mem_cons.mp hi with rfl | hi
        · exact hm
        · split at hi
          · have he : i = (getPacket s.m f).interface := by simpa using hi
            rwa [he]
          · cases hi
      · exact replyIndices_inRange (s := { s with m := getPacket s.m f }) hroutes hparked hi
    · cases hi

/-- A packet is parked with the interface it came in on. -/
lemma parkedInRange_forward (h : forwardPacket env s m = some (s', m', out))
    (hparked : ParkedInRange s) (hm : InRange m.interface) : ParkedInRange s' := by
  intro p hp
  rcases (forwardPacket_tables h).2 with he | ⟨he, -⟩
  · rw [he] at hp
    exact hparked p hp
  · rw [he] at hp
    rcases List.mem_append.mp hp with hp | hp
    · exact hparked p hp
    · rwa [List.mem_singleton.mp hp]

theorem parkedInRange_step (h : step env s f = some (s', out)) (hparked : ParkedInRange s) :
    ParkedInRange s' := by
  rcases step_cases h with ⟨-, m, rfl⟩ | ⟨-, r, m', rfl, hf⟩ | ⟨-, -, hnil, -⟩ |
    ⟨-, r, toSend, packets, m', hp, ha, hf⟩
  · exact hparked
  · have hr : ParkedInRange r := parkedInRange_forward hf hparked getPacket_inRange
    exact hr
  · intro p hp
    rw [hnil] at hp
    cases hp
  · obtain ⟨-, -, -, hpackets, -⟩ := addArpEntry_spec ha
    have hr : ∀ p ∈ toSend :: packets, InRange p.interface := by
      rw [← hp, hpackets]
      exact hparked
    refine parkedInRange_forward hf ?_ (hr toSend List.mem_cons_self)
    intro p hp
    exact hr p (List.mem_cons_of_mem _ hp)

/-- **With the routes in range, every index along a run is.** -/
theorem visited_inRange {s : Router} (hroutes : RoutesInRange s.rtable) (hparked : ParkedInRange s)
    {x : Router × Frame} (hx : x ∈ Run.visited (step env) s fs) (hi : i ∈ indices env x.1 x.2) :
    InRange i := by
  obtain ⟨pre, out, -, hexec⟩ := Run.exists_prefix_of_mem_visited hx
  have hinv : RoutesInRange x.1.rtable ∧ ParkedInRange x.1 := by
    have hok : Run.Along (step env) (fun _ _ => True) s pre := fun _ _ => trivial
    refine Run.exec_inv (P := fun s => RoutesInRange s.rtable ∧ ParkedInRange s) ?_ hok
      ⟨hroutes, hparked⟩ hexec
    rintro s f s' out ⟨hr, hp⟩ - h
    refine ⟨?_, parkedInRange_step h hp⟩
    rw [(step_tables h).1]
    exact hr
  exact indices_inRange hinv.1 hinv.2 hi

/-! ### A packet for every route -/

/-- A UDP packet of 34 bytes to the address `d`. -/
def packetTowards (d : UInt32) : Packet := updateHdr
  { len := 34
    payload := fun i => ([2, 0, 0, 0, 0, 1, 2, 0, 0, 0, 0, 2, 8, 0, 0x45, 0, 0, 20, 0, 0, 0, 0,
      65, 17, 0, 0, 10, 0, 0, 1] ++ bytes32 d).getD i 0
    interface := 0 }

/-- It comes in on the interface `0`. -/
def frameTowards (d : UInt32) : Frame := ⟨0, read (packetTowards d).payload 0 34⟩

lemma daddr_packetTowards : (packetTowards d).daddr = d := by
  rw [packetTowards, daddr_updateHdr]
  exact le32_bytes d

lemma etherType_packetTowards : (packetTowards d).etherType = ETHERTYPE_IP := by
  have h12 : (packetTowards d).payload 12 = 8 := updateHdr_of_ne (by omega) (by omega)
  have h13 : (packetTowards d).payload 13 = 0 := updateHdr_of_ne (by omega) (by omega)
  rw [Packet.etherType, h12, h13]
  decide

lemma protocol_packetTowards : (packetTowards d).protocol = 17 := by
  unfold Packet.protocol packetTowards
  rw [updateHdr_of_ne (by omega) (by omega)]
  rfl

lemma ttl_packetTowards : (packetTowards d).ttl = 64 := by
  have h22 : (packetTowards d).payload 22 = 65 - 1 := updateHdr_22
  rw [Packet.ttl, h22]
  decide

/-- The route of a packet to `d` is asked for its address. -/
lemma mem_indices_frameTowards (he : getBestRoute s.rtable d 0 (s.rtable.length - 1) = some e)
    (hempty : s.arpTable = []) : e.interface ∈ indices env s (frameTowards d) := by
  have hsame := getPacket_read s.m (packetTowards d) (n := 34) (by simp) 0
  have hip : (getPacket s.m (frameTowards d)).etherType = ETHERTYPE_IP :=
    (hsame.etherType (by omega)).trans etherType_packetTowards
  have hproto : (getPacket s.m (frameTowards d)).protocol = 17 :=
    (hsame.protocol le_rfl).trans protocol_packetTowards
  have httl : (getPacket s.m (frameTowards d)).ttl = 64 :=
    (hsame.ttl le_rfl).trans ttl_packetTowards
  have hdaddr : (getPacket s.m (frameTowards d)).daddr = d :=
    (hsame.daddr le_rfl).trans daddr_packetTowards
  have hck : ipChecksum ipHdrAddr (getPacket s.m (frameTowards d)).ipHdr = 0 := by
    rw [frameTowards, hsame.ipHdr le_rfl]
    exact updateHdr_verifies ipHdrAddr
  have hroute : bestRoute { s with m := getPacket s.m (frameTowards d) }
      (getPacket s.m (frameTowards d)) = some e := by
    rw [bestRoute, hdaddr]
    exact he
  have harp : getArpEntry { s with m := getPacket s.m (frameTowards d) } e.nextHop = some none := by
    rw [getArpEntry, hempty]
    rfl
  unfold indices receivedIndices
  rw [if_pos hip, if_neg, forwardIndices, if_neg (not_not.mpr hck), httl, if_neg (by decide), hroute]
  · simp only [harp]
    exact List.mem_cons_self
  · rw [hproto]
    decide

/-- It is enough that the interfaces of all routes exist. -/
lemma routesInRange_of_forall (q : Qsort RouteTableEntry)
    (h : ∀ e ∈ rtable, InRange e.interface) : RoutesInRange (sortRtable q rtable) := by
  intro d e he
  obtain ⟨j, -, -, hj, -⟩ := exists_of_getBestRoute he
  exact h e ((q.perm compar rtable).subset (List.mem_of_getElem? hj))

/-- **Every index is in range along every run exactly when every route that can be found is.** -/
theorem interfaces_inRange_iff (q : Qsort RouteTableEntry) {file : List UInt8}
    (h : readRtable file = some rtable) :
    (∀ env m fs, ∀ x ∈ Run.visited (step env) (init (sortRtable q rtable) m) fs,
      ∀ i ∈ indices env x.1 x.2, 0 ≤ i ∧ i < ROUTER_NUM_INTERFACES) ↔
      ∀ n ∈ countRtableEntries file, ∀ d e,
        getBestRoute (sortRtable q rtable) d 0 (n - 1) = some e →
          0 ≤ e.interface ∧ e.interface < ROUTER_NUM_INTERFACES := by
  simp only [countRtableEntries_of_readRtable h, Option.mem_def, Option.some.injEq, forall_eq']
  rw [← (q.perm compar rtable).length_eq]
  constructor
  · intro hall d e he
    have hmem : (init (sortRtable q rtable) ⟨0, fun _ => 0, 0⟩, frameTowards d) ∈
        Run.visited (step testEnv) (init (sortRtable q rtable) ⟨0, fun _ => 0, 0⟩) [frameTowards d] := by
      unfold Run.visited
      exact List.mem_cons_self
    exact hall testEnv _ _ _ hmem _ (mem_indices_frameTowards he rfl)
  · intro hroutes env m fs x hx i hi
    have hparked : ParkedInRange (init (sortRtable q rtable) m) := fun p hp => by cases hp
    exact visited_inRange (s := init (sortRtable q rtable) m) hroutes hparked hx hi

/-- A line of a routing table file: the network `192.1.20.0/24` is on the interface with this digit. -/
def routeLine (digit : UInt8) : List UInt8 :=
  [49, 57, 50, 46, 49, 46, 50, 48, 46, 48, 32, 49, 57, 50, 46, 49, 46, 50, 48, 46, 50, 32,
    50, 53, 53, 46, 50, 53, 53, 46, 50, 53, 53, 46, 48, 32] ++
    [digit, 10]

/-- The route of the line. -/
def routeOn (i : ℤ) : RouteTableEntry :=
  ⟨le32 192 1 20 0, le32 192 1 20 2, le32 255 255 255 0, i⟩

theorem interfaces_inRange_routeLine : ∃ rtable, readRtable (routeLine 50) = some rtable ∧
    ∀ env m fs, ∀ x ∈ Run.visited (step env) (init (sortRtable (insertionQsort _) rtable) m) fs,
      ∀ i ∈ indices env x.1 x.2, 0 ≤ i ∧ i < ROUTER_NUM_INTERFACES := by
  have hread : readRtable (routeLine 50) = some [routeOn 2] := by decide +kernel
  refine ⟨_, hread, (interfaces_inRange_iff (insertionQsort _) hread).mpr ?_⟩
  have hroutes : RoutesInRange (sortRtable (insertionQsort _) [routeOn 2]) := by
    apply routesInRange_of_forall
    intro e he
    rw [List.mem_singleton.mp he]
    decide
  intro n hn d e he
  rw [countRtableEntries_of_readRtable hread] at hn
  cases hn
  exact hroutes d e he

/-- A route on the interface `3`, as there are some in the table the router is run with. -/
theorem not_interfaces_inRange : ¬ ∀ (q : Qsort RouteTableEntry) (file : List UInt8)
    (rtable : List RouteTableEntry), readRtable file = some rtable →
    ∀ env m fs, ∀ x ∈ Run.visited (step env) (init (sortRtable q rtable) m) fs,
      ∀ i ∈ indices env x.1 x.2, 0 ≤ i ∧ i < ROUTER_NUM_INTERFACES := by
  intro h
  have hread : readRtable (routeLine 51) = some [routeOn 3] := by decide +kernel
  have hfound : getBestRoute (sortRtable (insertionQsort _) [routeOn 3]) (le32 192 1 20 2) 0 0 =
      some (routeOn 3) := by decide +kernel
  have hmem : (init (sortRtable (insertionQsort _) [routeOn 3]) ⟨0, fun _ => 0, 0⟩,
        frameTowards (le32 192 1 20 2)) ∈ Run.visited (step testEnv)
      (init (sortRtable (insertionQsort _) [routeOn 3]) ⟨0, fun _ => 0, 0⟩)
        [frameTowards (le32 192 1 20 2)] := by
    unfold Run.visited
    exact List.mem_cons_self
  have hrange := h (insertionQsort _) _ _ hread testEnv _ _ _ hmem _
    (mem_indices_frameTowards hfound rfl)
  exact absurd hrange.2 (by decide)

end Router

end Protocoale.Tema1

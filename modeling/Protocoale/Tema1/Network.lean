import Protocoale.Tema1.Hops

/-!
A network of routers that all run this program, as the topology of the assignment connects them: each
interface is on a link with another router or in a network of hosts. A packet goes from router to router
by their routing tables, and where a router does not know the hardware address of the next hop, the
packet waits there until the ARP request is answered, by the next router or by a host. No second packet
is parked in a router while one waits, so that this one keeps its storage, and the routers may be those
with packets in their queues (`PtrRouter.exec_view`).

A packet that is alone in the network and whose TTL is large enough gets to the hosts it is for with
its bytes and a valid header (`network_delivers`). A router takes one from the TTL, and one more when
the packet waits in it. When the TTL is used up on the way, or a router has no route, the hosts the
packet came from get an ICMP message (`network_returns`).
-/

namespace Protocoale.Tema1

open Lib Lib.Bytes Lib.Orbit

/-! ### The network -/

/-- The interfaces of the routers, the router and the interface on the other end of each link, and what
the hosts at an interface that is on no link answer to a frame. -/
structure Topology (ι : Type*) where
  env : ι → Env
  peer : ι → Fin ROUTER_NUM_INTERFACES → Option (ι × Fin ROUTER_NUM_INTERFACES)
  hosts : ι → Fin ROUTER_NUM_INTERFACES → List UInt8 → List (List UInt8)

/-- The routers, the frames on their way to one of them, and the frames that hosts have received, each
with the router and the interface it came from. -/
structure Network (ι : Type*) where
  routers : ι → Router
  flight : List (ι × Frame)
  delivered : List (ι × Fin ROUTER_NUM_INTERFACES × List UInt8)

/-- The interface with an index, if there is one. -/
def port (i : ℤ) : Option (Fin ROUTER_NUM_INTERFACES) :=
  (List.finRange ROUTER_NUM_INTERFACES).find? fun j => ((j : ℕ) : ℤ) = i

lemma port_val (i : Fin ROUTER_NUM_INTERFACES) : port (i : ℕ) = some i := by
  fin_cases i <;> rfl

variable {ι : Type*} [DecidableEq ι] {T : Topology ι} {r r' r₁ : ι} {j j' i j₁ : Fin ROUTER_NUM_INTERFACES}
  {src dst a : UInt32} {t : ℕ} {mac : Mac} {data : List UInt8} {hops : List (ι × UInt32)}

namespace Network

/-- A frame that a router sends. -/
def send (T : Topology ι) (r : ι) (c : Network ι) (x : Sent) : Option (Network ι) :=
  (port x.interface).map fun i =>
    match T.peer r i with
    | some (r', j) => { c with flight := c.flight ++ [(r', ⟨j, x.data⟩)] }
    | none =>
      { c with
        flight := c.flight ++ (T.hosts r i x.data).map fun data => (r, ⟨i, data⟩)
        delivered := c.delivered ++ [(r, i, x.data)] }

/-- The first frame is received. There is no step when none is on its way. -/
def step (T : Topology ι) (c : Network ι) : Option (Network ι) :=
  match c.flight with
  | [] => none
  | (r, f) :: rest => ((c.routers r).step (T.env r) f).bind fun q =>
      q.2.foldlM (send T r) { c with routers := Function.update c.routers r q.1, flight := rest }

variable {c c' c₁ c₂ : Network ι} {s : Router} {f : Frame} {x : Sent}

/-- A frame is answered with one that goes over a link. -/
lemma step_link (hflight : c.flight = [(r, f)])
    (hstep : (c.routers r).step (T.env r) f = some (s, [x])) (hx : x.interface = (i : ℕ))
    (hpeer : T.peer r i = some (r₁, j₁)) : ∃ c', step T c = some c' ∧
      c'.routers = Function.update c.routers r s ∧ c'.flight = [(r₁, ⟨j₁, x.data⟩)] ∧
      c'.delivered = c.delivered := by
  unfold step
  rw [hflight]
  dsimp only
  rw [hstep, Option.bind_some, List.foldlM_cons, send, hx, port_val, Option.map_some, hpeer]
  exact ⟨_, rfl, rfl, rfl, rfl⟩

/-- A frame is answered with one for the hosts. -/
lemma step_hosts (hflight : c.flight = [(r, f)])
    (hstep : (c.routers r).step (T.env r) f = some (s, [x])) (hx : x.interface = (i : ℕ))
    (hpeer : T.peer r i = none) : ∃ c', step T c = some c' ∧
      c'.routers = Function.update c.routers r s ∧
      c'.flight = (T.hosts r i x.data).map (fun data => (r, ⟨i, data⟩)) ∧
      c'.delivered = c.delivered ++ [(r, i, x.data)] := by
  unfold step
  rw [hflight]
  dsimp only
  rw [hstep, Option.bind_some, List.foldlM_cons, send, hx, port_val, Option.map_some, hpeer]
  exact ⟨_, rfl, rfl, rfl, rfl⟩

end Network

/-! ### The way of a packet -/

/-- Nothing waits, and the table has room for `n` more entries. -/
structure Router.Ready (n : ℕ) (s : Router) : Prop where
  packets : s.packets = []
  small : Router.Small s
  room : s.arpTable.length + n < ARP_MAXSIZE

lemma Router.Ready.withM {n : ℕ} {s : Router} (h : s.Ready n) (m : Packet) :
    Router.Ready n { s with m } :=
  ⟨h.packets, ⟨h.small.length, h.small.arpMaxSize, h.small.arpBlock⟩, h.room⟩

lemma Router.Ready.of_succ {n : ℕ} {s : Router} (h : s.Ready (n + 1)) : s.Ready n :=
  ⟨h.packets, h.small, (Nat.lt_succ_self _).trans h.room⟩

/-- A router that has learned an address has room for one less. -/
lemma Router.Ready.learned {n : ℕ} {s : Router} (h : s.Ready (n + 1)) (m : Packet) (e : ArpTableEntry) :
    Router.Ready n { s with m, packets := [], arpTable := s.arpTable ++ [e] } := by
  have hlen : (s.arpTable ++ [e]).length + n < ARP_MAXSIZE := by
    rw [List.length_append, List.length_singleton, Nat.add_assoc, Nat.add_comm 1]
    exact h.room
  exact ⟨rfl, ⟨(Nat.le_add_right _ n).trans_lt hlen, h.small.arpMaxSize, h.small.arpBlock⟩, hlen⟩

/-- What the TTL loses in a router: one more when its ARP table does not have the next hop. -/
def Router.cost (s : Router) (a : UInt32) : ℕ :=
  if (s.arpTable.find? fun e => a = e.ip).isSome then 1 else 2

/-- The hardware address of the next hop, if it is not in the table the one in the answer. -/
def Router.hopMac (s : Router) (a : UInt32) (mac : Mac) : Mac :=
  ((s.arpTable.find? fun e => a = e.ip).map ArpTableEntry.mac).getD mac

/-- Packets to `dst` that the router `r` receives on its interface `j` go out on `i`, for `a`. -/
structure Forwards (T : Topology ι) (rtable : ι → List RouteTableEntry) (dst : UInt32) (r : ι)
    (j i : Fin ROUTER_NUM_INTERFACES) (a : UInt32) : Prop where
  foreign : dst ≠ (T.env r).interfaceIp (j : ℕ)
  route : ∃ route, getBestRoute (rtable r) dst 0 ((rtable r).length - 1) = some route ∧
    route.interface = (i : ℕ) ∧ route.nextHop = a

/-- The way of packets to `dst` to the interface `j'` of the router `r'`, by the routing tables: the
routers that forward them, each once, with the address of the next one. -/
inductive Way (T : Topology ι) (rtable : ι → List RouteTableEntry) (dst : UInt32) (r' : ι)
    (j' : Fin ROUTER_NUM_INTERFACES) : ι → Fin ROUTER_NUM_INTERFACES → List (ι × UInt32) → Prop
  | here : Way T rtable dst r' j' r' j' []
  | hop {r r₁ : ι} {j i j₁ : Fin ROUTER_NUM_INTERFACES} {a : UInt32} {hops : List (ι × UInt32)}
    (forwards : Forwards T rtable dst r j i a)
    (link : T.peer r i = some (r₁, j₁)) (back : T.peer r₁ j₁ = some (r, i))
    (next : a = (T.env r₁).interfaceIp (j₁ : ℕ)) (ne : r ≠ r') (fresh : r ∉ hops.map Prod.fst)
    (rest : Way T rtable dst r' j' r₁ j₁ hops) : Way T rtable dst r' j' r j ((r, a) :: hops)

/-- What the TTL loses on the way. -/
def costs (routers : ι → Router) (hops : List (ι × UInt32)) : ℕ :=
  (hops.map fun x => (routers x.1).cost x.2).sum

/-- The ARP request of a router for the address of a next hop. -/
def Topology.request (T : Topology ι) (r : ι) (i : Fin ROUTER_NUM_INTERFACES) (a : UInt32) : List UInt8 :=
  (sendArp a ((T.env r).interfaceIp (i : ℕ)) ((T.env r).interfaceMac (i : ℕ)).toList
    Router.broadcastMac.toList (i : ℕ) (htons ARPOP_REQUEST)).data

/-- A host answers the request for its address. -/
def Topology.Answers (T : Topology ι) (r : ι) (i : Fin ROUTER_NUM_INTERFACES) (a : UInt32) (mac : Mac) :
    Prop :=
  ∃ reply tpa, T.hosts r i (T.request r i a) = [reply] ∧
    Packet.IsArp (linkPacket reply) ARPOP_REPLY a tpa mac

namespace Network

variable {c c' c₁ c₂ : Network ι} {rs : List ι} {n : ℕ}

def tables (c : Network ι) (r : ι) : List RouteTableEntry := (c.routers r).rtable

/-- What a packet leaves of the routers: only those in `rs` may have learned an address. -/
structure Passed (rs : List ι) (c c' : Network ι) : Prop where
  rtable : ∀ q, (c'.routers q).rtable = (c.routers q).rtable
  other : ∀ q ∉ rs, c'.routers q = { c.routers q with m := (c'.routers q).m }
  ready : ∀ q ∈ rs, ∀ n, (c.routers q).Ready (n + 1) → (c'.routers q).Ready n

omit [DecidableEq ι] in
lemma Passed.ready_of_notMem (h : Passed rs c c') {q : ι} (hq : q ∉ rs) (hn : (c.routers q).Ready n) :
    (c'.routers q).Ready n := by
  rw [h.other q hq]
  exact hn.withM _

omit [DecidableEq ι] in
lemma Passed.trans (h : Passed [r] c c₁) (h' : Passed rs c₁ c₂) (hr : r ∉ rs) :
    Passed (r :: rs) c c₂ := by
  constructor
  · intro q
    exact (h'.rtable q).trans (h.rtable q)
  · intro q hq
    rw [List.mem_cons, not_or] at hq
    rw [h'.other q hq.2, h.other q (by simpa using hq.1)]
  · intro q hq n hn
    rcases List.mem_cons.mp hq with rfl | hq
    · exact h'.ready_of_notMem hr (h.ready q (List.mem_singleton_self q) n hn)
    · have hne : q ∉ [r] := by
        rw [List.mem_singleton]
        exact fun he => hr (he ▸ hq)
      exact h'.ready q hq n (h.ready_of_notMem hne hn)

omit [DecidableEq ι] in
lemma Passed.tables (h : Passed rs c c') : c'.tables = c.tables := funext h.rtable

/-- Routers that have only received something. -/
lemma update_withM (r : ι) (m : Packet) (q : ι) :
    Function.update c.routers r { c.routers r with m } q =
      { c.routers q with m := (Function.update c.routers r { c.routers r with m } q).m } := by
  by_cases hq : q = r
  · subst hq
    rw [Function.update_self]
  · rw [Function.update_of_ne hq]

/-- After some steps the router `r` sends the packet of a frame on its interface `i`; meanwhile the hosts
have been asked for an address or not. -/
structure Leaves (T : Topology ι) (c : Network ι) (r : ι) (i : Fin ROUTER_NUM_INTERFACES)
    (src dst : UInt32) (t : ℕ) (mac : Mac) (data : List UInt8)
    (asked : List (ι × Fin ROUTER_NUM_INTERFACES × List UInt8)) (n : ℕ) (c' : Network ι) (f : Frame)
    (s : Router) (x : Sent) : Prop where
  iter : Orbit.iter (step T) n c = some c'
  flight : c'.flight = [(r, f)]
  delivered : c'.delivered = c.delivered ++ asked
  step : (c'.routers r).step (T.env r) f = some (s, [x])
  interface : x.interface = (i : ℕ)
  valid : Packet.Valid (linkPacket x.data) src dst t
  carried : CarriedAs data x.data
  dhost : x.data.take 6 = mac.toList
  passed : ∀ c'' : Network ι, c''.routers = Function.update c'.routers r s → Passed [r] c c''

variable {route : RouteTableEntry} {entry : ArpTableEntry} {q : Packet} {rep : List UInt8} {tpa : UInt32}
  {asked : List (ι × Fin ROUTER_NUM_INTERFACES × List UInt8)}

/-- The next hop is known. -/
lemma leaves_known (hflight : c.flight = [(r, ⟨j, data⟩)]) (hlen : data.length ≤ MAX_LEN)
    (hv : Packet.Valid (linkPacket data) src dst (t + 1)) (ht : 1 ≤ t)
    (hf : Forwards T c.tables dst r j i a) (hentry : (c.routers r).getArpEntry a = some (some entry)) :
    ∃ s x, Leaves T c r i src dst t entry.mac data [] 0 c ⟨j, data⟩ s x := by
  obtain ⟨route, hroute, hi, rfl⟩ := hf.route
  obtain ⟨m, x, hstep, hsent⟩ := Router.step_routed hlen hv ht hf.foreign hroute hentry
  refine ⟨_, x, rfl, hflight, (List.append_nil _).symm, hstep, hsent.interface.trans hi, hsent.valid,
    hsent.carried, hsent.dhost, fun c'' hc => ⟨fun q => ?_, fun q _ => ?_, ?_⟩⟩
  · rw [hc, update_withM r m q]
  · rw [hc]
    exact update_withM r m q
  · rintro q - n hn
    rw [hc, update_withM r m q]
    exact hn.of_succ.withM _

/-- The router `r` has parked a packet and gets an answer for its next hop. -/
structure Asked (T : Topology ι) (c : Network ι) (r : ι) (i : Fin ROUTER_NUM_INTERFACES) (a : UInt32)
    (q : Packet) (mac : Mac) (asked : List (ι × Fin ROUTER_NUM_INTERFACES × List UInt8)) (n : ℕ)
    (c' : Network ι) (rep : List UInt8) (tpa : UInt32) : Prop where
  iter : Orbit.iter (step T) n c = some c'
  flight : c'.flight = [(r, ⟨i, rep⟩)]
  delivered : c'.delivered = c.delivered ++ asked
  isArp : Packet.IsArp (linkPacket rep) ARPOP_REPLY a tpa mac
  router : ∃ m, c'.routers r = { c.routers r with m, packets := [q] }
  other : ∀ p ≠ r, c'.routers p = { c.routers p with m := (c'.routers p).m }

/-- The next hop has been asked for. -/
lemma Asked.leaves (h : Asked T c r i a q mac asked n c' rep tpa) (hlen : data.length ≤ MAX_LEN)
    (hready : (c.routers r).Ready 1) (hq : Router.ParkedAs src dst (t + 1) j data q) (ht : 1 ≤ t)
    (hf : Forwards T c.tables dst r j i a) (hentry : (c.routers r).getArpEntry a = some none) :
    ∃ s x, Leaves T c r i src dst t mac data asked n c' ⟨i, rep⟩ s x := by
  obtain ⟨route, hroute, hi, ha⟩ := hf.route
  obtain ⟨m, hr⟩ := h.router
  have hpackets : (c'.routers r).packets = [q] := by rw [hr]
  have hsmall : Router.Small (c'.routers r) := by
    rw [hr]
    exact ⟨hready.small.length, hready.small.arpMaxSize, hready.small.arpBlock⟩
  have hroom : (c'.routers r).arpTable.length + 1 < ARP_MAXSIZE := by
    rw [hr]
    exact hready.room
  have hroute' : getBestRoute (c'.routers r).rtable dst 0 ((c'.routers r).rtable.length - 1) =
      some route := by
    rw [hr]
    exact hroute
  have hentry' : (c'.routers r).getArpEntry a = some none := by
    rw [hr]
    exact hentry
  obtain ⟨m', x, hstep, hsent⟩ := Router.step_drain (T.env r) i hpackets hsmall hroom h.isArp
    hlen hq hroute' ha hentry'
  rw [if_pos (show 2 ≤ t + 1 by omega)] at hsent
  refine ⟨_, x, h.iter, h.flight, h.delivered, hstep, hsent.interface.trans hi, hsent.valid,
    hsent.carried, hsent.dhost, fun c'' hc => ⟨fun p => ?_, fun p hp => ?_, ?_⟩⟩
  · rw [hc]
    by_cases hp : p = r
    · subst hp
      rw [Function.update_self, hr]
    · rw [Function.update_of_ne hp, h.other p hp]
  · have hp' : p ≠ r := by simpa using hp
    rw [hc, Function.update_of_ne hp', h.other p hp']
  · intro p hp n hn
    obtain rfl := List.mem_singleton.mp hp
    rw [hc, Function.update_self, hr]
    exact hn.learned _ _

omit [DecidableEq ι] in
/-- A router that does not know the next hop parks the packet and asks for it. -/
lemma exists_request (hv : Packet.Valid (linkPacket data) src dst (t + 1)) (ht : 1 ≤ t)
    (hready : (c.routers r).Ready n) (hf : Forwards T c.tables dst r j i a)
    (hentry : (c.routers r).getArpEntry a = some none) :
    ∃ m q x, (c.routers r).step (T.env r) ⟨j, data⟩ = some ({ c.routers r with m, packets := [q] }, [x]) ∧
      x.interface = (i : ℕ) ∧ x.data = T.request r i a ∧ Router.ParkedAs src dst t j data q := by
  obtain ⟨route, hroute, hi, rfl⟩ := hf.route
  obtain ⟨m, q, hstep, hq⟩ := Router.step_park hv ht hf.foreign hroute hentry
  rw [hready.packets, List.nil_append] at hstep
  refine ⟨m, q, _, hstep, hi, ?_, hq⟩
  rw [Router.arpRequest, hi]
  rfl

omit [DecidableEq ι] in
/-- The request, read back. -/
lemma isArp_request : Packet.IsArp (linkPacket (T.request r i a)) ARPOP_REQUEST
    ((T.env r).interfaceIp (i : ℕ)) a ((T.env r).interfaceMac (i : ℕ)) :=
  Packet.isArp_sendArp Vector.length_toList (by decide) (o := 1) rfl

/-- The next router answers. -/
lemma exists_asked_link (hflight : c.flight = [(r, ⟨j, data⟩)])
    (hv : Packet.Valid (linkPacket data) src dst (t + 1)) (ht : 1 ≤ t) (hready : (c.routers r).Ready n)
    (hf : Forwards T c.tables dst r j i a) (hentry : (c.routers r).getArpEntry a = some none)
    (hlink : T.peer r i = some (r₁, j₁)) (hback : T.peer r₁ j₁ = some (r, i))
    (hnext : a = (T.env r₁).interfaceIp (j₁ : ℕ)) (hne : r ≠ r₁) :
    ∃ q mac n c' rep tpa, Asked T c r i a q mac [] n c' rep tpa ∧ Router.ParkedAs src dst t j data q := by
  obtain ⟨m, q, x, hstep, hx, hdata, hq⟩ := exists_request hv ht hready hf hentry
  obtain ⟨c₁, hc₁, hr₁, hf₁, hd₁⟩ := step_link hflight hstep hx hlink
  rw [hdata] at hf₁
  obtain ⟨m', y, hstep', hy, hrep⟩ := Router.step_request (s := c₁.routers r₁) (isArp_request (T := T)) hnext
  obtain ⟨c₂, hc₂, hr₂, hf₂, hd₂⟩ := step_link hf₁ hstep' hy hback
  refine ⟨q, _, 2, c₂, y.data, _, ⟨(iter_succ_of_some hc₁).trans (iter_one hc₂), hf₂, ?_, hrep,
    ⟨m, ?_⟩, ?_⟩, hq⟩
  · rw [hd₂, hd₁, List.append_nil]
  · rw [hr₂, Function.update_of_ne hne, hr₁, Function.update_self]
  · intro p hp
    rw [hr₂]
    by_cases hp' : p = r₁
    · subst hp'
      rw [Function.update_self, hr₁, Function.update_of_ne hp]
    · rw [Function.update_of_ne hp', hr₁, Function.update_of_ne hp]

/-- A host answers. -/
lemma exists_asked_hosts (hflight : c.flight = [(r, ⟨j, data⟩)])
    (hv : Packet.Valid (linkPacket data) src dst (t + 1)) (ht : 1 ≤ t) (hready : (c.routers r).Ready n)
    (hf : Forwards T c.tables dst r j i a) (hentry : (c.routers r).getArpEntry a = some none)
    (hhosts : T.peer r i = none) (hanswer : T.Answers r i a mac) :
    ∃ q n c' rep tpa, Asked T c r i a q mac [(r, i, T.request r i a)] n c' rep tpa ∧
      Router.ParkedAs src dst t j data q := by
  obtain ⟨m, q, x, hstep, hx, hdata, hq⟩ := exists_request hv ht hready hf hentry
  obtain ⟨c₁, hc₁, hr₁, hf₁, hd₁⟩ := step_hosts hflight hstep hx hhosts
  obtain ⟨rep, tpa, hrep, harp⟩ := hanswer
  rw [hdata, hrep] at hf₁
  rw [hdata] at hd₁
  refine ⟨q, 1, c₁, rep, tpa, ⟨iter_one hc₁, hf₁, hd₁, harp, ⟨m, ?_⟩, ?_⟩, hq⟩
  · rw [hr₁, Function.update_self]
  · intro p hp
    rw [hr₁, Function.update_of_ne hp]

/-- The next hop is known, or it is not. -/
lemma cost_cases {s : Router} (h : s.Ready n) (a : UInt32) :
    (∃ entry, s.getArpEntry a = some (some entry) ∧ s.cost a = 1 ∧ ∀ mac, s.hopMac a mac = entry.mac) ∨
      (s.getArpEntry a = some none ∧ s.cost a = 2 ∧ ∀ mac, s.hopMac a mac = mac) := by
  rw [Router.getArpEntry_of_le h.small.entries_le]
  unfold Router.cost Router.hopMac
  cases s.arpTable.find? fun e => a = e.ip with
  | none => exact .inr ⟨rfl, rfl, fun _ => rfl⟩
  | some entry => exact .inl ⟨entry, rfl, rfl, fun _ => rfl⟩

/-- **One hop.** The packet gets to the next router. -/
theorem pass_hop (hflight : c.flight = [(r, ⟨j, data⟩)]) (hlen : data.length ≤ MAX_LEN)
    (hready : (c.routers r).Ready 1) (hf : Forwards T c.tables dst r j i a)
    (hlink : T.peer r i = some (r₁, j₁)) (hback : T.peer r₁ j₁ = some (r, i))
    (hnext : a = (T.env r₁).interfaceIp (j₁ : ℕ)) (hne : r ≠ r₁) (ht : 1 ≤ t)
    (hv : Packet.Valid (linkPacket data) src dst (t + (c.routers r).cost a)) :
    ∃ n c' data', Orbit.iter (step T) n c = some c' ∧ c'.flight = [(r₁, ⟨j₁, data'⟩)] ∧
      c'.delivered = c.delivered ∧ Passed [r] c c' ∧ Packet.Valid (linkPacket data') src dst t ∧
      CarriedAs data data' := by
  obtain ⟨mac, n, c₂, f, s, x, hleaves⟩ : ∃ mac n c₂ f s x, Leaves T c r i src dst t mac data [] n c₂ f s x := by
    rcases cost_cases hready a with ⟨entry, hentry, hcost, -⟩ | ⟨hentry, hcost, -⟩
    · rw [hcost] at hv
      obtain ⟨s, x, h⟩ := leaves_known hflight hlen hv ht hf hentry
      exact ⟨_, _, _, _, _, _, h⟩
    · rw [hcost] at hv
      obtain ⟨q, mac, n, c', rep, tpa, hasked, hq⟩ :=
        exists_asked_link (t := t + 1) hflight hv (by omega) hready hf hentry hlink hback hnext hne
      obtain ⟨s, x, h⟩ := hasked.leaves hlen hready hq ht hf hentry
      exact ⟨_, _, _, _, _, _, h⟩
  obtain ⟨c', hc', hr', hf', hd'⟩ := step_link hleaves.flight hleaves.step hleaves.interface hlink
  refine ⟨n + 1, c', x.data, ?_, hf', ?_, hleaves.passed c' hr', hleaves.valid, hleaves.carried⟩
  · rw [iter_add, hleaves.iter, Option.bind_some, iter_one hc']
  · rw [hd', hleaves.delivered, List.append_nil]

omit [DecidableEq ι] in
lemma Passed.costs (h : Passed rs c c') (hrs : ∀ x ∈ hops, x.1 ∉ rs) :
    costs c'.routers hops = costs c.routers hops := by
  unfold Tema1.costs
  refine congrArg List.sum (List.map_congr_left fun x hx => ?_)
  rw [h.other x.1 (hrs x hx)]
  rfl

/-- **The whole way.** The packet gets to the router at its end. -/
theorem travel (hway : Way T c.tables dst r' j' r j hops) (hflight : c.flight = [(r, ⟨j, data⟩)])
    (hlen : data.length ≤ MAX_LEN) (hready : ∀ x ∈ hops, (c.routers x.1).Ready 1) (ht : 1 ≤ t)
    (hv : Packet.Valid (linkPacket data) src dst (t + costs c.routers hops)) :
    ∃ n c' data', Orbit.iter (step T) n c = some c' ∧ c'.flight = [(r', ⟨j', data'⟩)] ∧
      c'.delivered = c.delivered ∧ Passed (hops.map Prod.fst) c c' ∧
      Packet.Valid (linkPacket data') src dst t ∧ CarriedAs data data' := by
  generalize htables : c.tables = rtable at hway
  induction hway generalizing c data t with
  | here =>
    refine ⟨0, c, data, rfl, hflight, rfl, ⟨fun _ => rfl, fun _ _ => rfl, by simp⟩, hv, CarriedAs.refl data⟩
  | @hop r r₁ j i j₁ a hops hf hlink hback hnext hne hfresh hrest ih =>
    subst htables
    have hne₁ : r ≠ r₁ := by
      cases hrest with
      | here => exact hne
      | hop => exact fun he => hfresh (he ▸ List.mem_cons_self)
    have hsum : costs c.routers ((r, a) :: hops) = (c.routers r).cost a + costs c.routers hops := rfl
    rw [hsum, ← Nat.add_assoc, Nat.add_right_comm] at hv
    obtain ⟨n₁, c₁, data₁, hiter₁, hf₁, hd₁, hp₁, hv₁, hcar₁⟩ := pass_hop hflight hlen
      (hready _ List.mem_cons_self) hf hlink hback hnext hne₁ (by omega) hv
    have hnot : ∀ x ∈ hops, x.1 ∉ [r] := by
      intro x hx hmem
      rw [List.mem_singleton] at hmem
      exact hfresh (hmem ▸ List.mem_map_of_mem hx)
    rw [← hp₁.costs hnot] at hv₁
    obtain ⟨n₂, c₂, data₂, hiter₂, hf₂, hd₂, hp₂, hv₂, hcar₂⟩ := ih hf₁ (by rw [hcar₁.length]; exact hlen)
      (fun x hx => hp₁.ready_of_notMem (hnot x hx) (hready x (List.mem_cons_of_mem _ hx))) ht hv₁ hp₁.tables
    refine ⟨n₁ + n₂, c₂, data₂, ?_, hf₂, hd₂.trans hd₁, hp₁.trans hp₂ hfresh, hv₂, hcar₁.trans hcar₂⟩
    rw [iter_add, hiter₁, Option.bind_some, hiter₂]

/-- The hosts at an interface have received a packet, after they have been asked for the hardware
address of its next hop or not. -/
structure Arrives (T : Topology ι) (c c' : Network ι) (r : ι) (i : Fin ROUTER_NUM_INTERFACES) (a : UInt32)
    (mac : Mac) (src dst : UInt32) (t : ℕ) (data x : List UInt8) : Prop where
  delivered : c'.delivered = c.delivered ++ [(r, i, x)] ∨
    c'.delivered = c.delivered ++ [(r, i, T.request r i a), (r, i, x)]
  flight : c'.flight = (T.hosts r i x).map fun data => (r, ⟨i, data⟩)
  valid : Packet.Valid (linkPacket x) src dst t
  carried : CarriedAs data x
  dhost : x.take 6 = mac.toList

/-- The last router sends the packet to the hosts. -/
lemma exists_arrives (hflight : c.flight = [(r, ⟨j, data⟩)]) (hlen : data.length ≤ MAX_LEN)
    (hready : (c.routers r).Ready 1) (hf : Forwards T c.tables dst r j i a)
    (hhosts : T.peer r i = none) (hanswer : T.Answers r i a mac) (ht : 1 ≤ t)
    (hv : Packet.Valid (linkPacket data) src dst (t + (c.routers r).cost a)) :
    ∃ n c' x, Orbit.iter (step T) n c = some c' ∧
      Arrives T c c' r i a ((c.routers r).hopMac a mac) src dst t data x := by
  obtain ⟨asked, n, c₂, f, s, x, hasked, hleaves⟩ : ∃ asked n c₂ f s x,
      (asked = [] ∨ asked = [(r, i, T.request r i a)]) ∧
        Leaves T c r i src dst t ((c.routers r).hopMac a mac) data asked n c₂ f s x := by
    rcases cost_cases hready a with ⟨entry, hentry, hcost, hmac⟩ | ⟨hentry, hcost, hmac⟩
    · rw [hcost] at hv
      obtain ⟨s, x, h⟩ := leaves_known hflight hlen hv ht hf hentry
      rw [hmac]
      exact ⟨_, _, _, _, _, _, .inl rfl, h⟩
    · rw [hcost] at hv
      obtain ⟨q, n, c', rep, tpa, hasked, hq⟩ :=
        exists_asked_hosts (t := t + 1) hflight hv (by omega) hready hf hentry hhosts hanswer
      obtain ⟨s, x, h⟩ := hasked.leaves hlen hready hq ht hf hentry
      rw [hmac]
      exact ⟨_, _, _, _, _, _, .inr rfl, h⟩
  obtain ⟨c', hc', -, hf', hd'⟩ := step_hosts hleaves.flight hleaves.step hleaves.interface hhosts
  refine ⟨n + 1, c', x.data, ?_, ⟨?_, hf', hleaves.valid, hleaves.carried, hleaves.dhost⟩⟩
  · rw [iter_add, hleaves.iter, Option.bind_some, iter_one hc']
  · rw [hd', hleaves.delivered]
    rcases hasked with rfl | rfl
    · exact .inl (by rw [List.append_nil])
    · exact .inr (by rw [List.append_assoc]; rfl)

omit [DecidableEq ι] in
/-- The router at the end of a way is not on it. -/
lemma notMem_of_way {rtable : ι → List RouteTableEntry} (h : Way T rtable dst r' j' r j hops) :
    ∀ x ∈ hops, x.1 ≠ r' := by
  induction h with
  | here => simp
  | hop _ _ _ _ hne _ _ ih => exact List.forall_mem_cons.mpr ⟨hne, ih⟩

/-- Hosts that answer every ARP request. -/
def answer (data : List UInt8) : List (List UInt8) :=
  let p := linkPacket data
  if p.etherType = ETHERTYPE_ARP ∧ p.arpOp = ARPOP_REQUEST then
    [(sendArp p.arpSpa p.arpTpa (Vector.replicate 6 7 : Mac).toList p.arpSha.toList 0 (htons ARPOP_REPLY)).data]
  else []

/-- Two routers that are linked by their interfaces `2`. -/
def twoRouters : Topology Bool where
  env b := ⟨fun i => le32 10 b.toUInt8 (UInt8.ofNat i.toNat) 254, fun i => Vector.replicate 6 (UInt8.ofNat i.toNat)⟩
  peer b i := if i = 2 then some (!b, 2) else none
  hosts _ _ := answer

lemma answer_of_isArp {spa tpa : UInt32} {sha : Mac}
    (h : Packet.IsArp (linkPacket data) ARPOP_REQUEST spa tpa sha) : answer data =
      [(sendArp spa tpa (Vector.replicate 6 7 : Mac).toList sha.toList 0 (htons ARPOP_REPLY)).data] := by
  unfold answer
  dsimp only
  rw [if_pos ⟨h.etherType, h.arpOp⟩, h.arpSpa, h.arpTpa, h.arpSha]

/-- Such a host has the address that it is asked for. -/
lemma answers_of_answer {T : Topology Bool} {b : Bool} (hhosts : T.hosts b i = answer) (a : UInt32) :
    T.Answers b i a (Vector.replicate 6 7) := by
  have hreply := answer_of_isArp (isArp_request (T := T) (r := b) (i := i) (a := a))
  rw [← hhosts] at hreply
  exact ⟨_, _, hreply, Packet.isArp_sendArp Vector.length_toList (by decide) (o := 2) rfl⟩

/-- A packet from `10.0.0.1` to `10.0.1.7` comes to the first of the two, which has a route to the second
one and one back; the ARP tables are empty. -/
def twoNetwork (ttl : UInt8) : Network Bool where
  routers b := Router.init (if b then [⟨le32 10 0 1 7, le32 10 0 1 7, le32 255 255 255 255, 1⟩] else
    [⟨le32 10 0 1 7, le32 10 1 2 254, le32 255 255 255 255, 2⟩,
      ⟨le32 10 0 0 1, le32 10 0 0 1, le32 255 255 255 255, 0⟩]) ⟨0, fun _ => 0, 0⟩
  flight := [(false, ⟨0, read (Router.packetTo ttl 7).payload 0 34⟩)]
  delivered := []

lemma valid_packetTo {ttl : UInt8} (h : Packet.Datagram (Router.packetTo ttl 7) (le32 10 0 0 1) (le32 10 0 1 7) t) :
    Packet.Valid (linkPacket (read (Router.packetTo ttl 7).payload 0 34)) (le32 10 0 0 1) (le32 10 0 1 7) t :=
  Packet.Valid.sent ⟨h, Router.updateHdr_verifies _⟩ (show 34 ≤ MAX_LEN by decide)

lemma way_twoNetwork (ttl : UInt8) : Way twoRouters (twoNetwork ttl).tables (le32 10 0 1 7) true 2 false 0
    [(false, le32 10 1 2 254)] := by
  have hroute : getBestRoute [⟨le32 10 0 1 7, le32 10 1 2 254, le32 255 255 255 255, 2⟩,
      ⟨le32 10 0 0 1, le32 10 0 0 1, le32 255 255 255 255, 0⟩] (le32 10 0 1 7) 0 1 =
        some ⟨le32 10 0 1 7, le32 10 1 2 254, le32 255 255 255 255, 2⟩ := by decide +kernel
  exact .hop ⟨by decide, _, hroute, rfl, rfl⟩ rfl rfl (by decide) (by decide) (by simp) .here

lemma ready_twoNetwork (ttl : UInt8) (b : Bool) : ((twoNetwork ttl).routers b).Ready 2 :=
  ⟨rfl, Router.small_init, by simp [twoNetwork, Router.init]⟩

omit [DecidableEq ι] in
lemma Passed.ready_of_succ (h : Passed rs c c') {q : ι} (hq : (c.routers q).Ready (n + 1)) :
    (c'.routers q).Ready n := by
  by_cases hmem : q ∈ rs
  · exact h.ready q hmem n hq
  · exact h.ready_of_notMem hmem hq.of_succ

/-- A router that answers a packet only writes it to its buffer. -/
lemma passed_of_update {m : Packet} (hr : c'.routers = Function.update c.routers r { c.routers r with m }) :
    Passed [] c c' := by
  refine ⟨fun q => ?_, fun q _ => ?_, by simp⟩
  · rw [hr, update_withM r m q]
  · rw [hr]
    exact update_withM r m q

omit [DecidableEq ι] in
/-- A router takes one or two from the TTL. -/
lemma costs_le (routers : ι → Router) (hops : List (ι × UInt32)) : costs routers hops ≤ 2 * hops.length := by
  induction hops with
  | nil => rfl
  | cons x hops ih =>
    have hsum : costs routers (x :: hops) = (routers x.1).cost x.2 + costs routers hops := rfl
    have hle : (routers x.1).cost x.2 ≤ 2 := by
      unfold Router.cost
      split <;> omega
    rw [hsum, List.length_cons]
    omega

/-- **A packet that cannot be delivered is answered.** Where its TTL is used up on the way, or a router
has no route, an ICMP message of the type for that goes back, and the hosts at the end of the way back
receive it. -/
theorem network_returns {rb r₀ : ι} {jb j₀ ib : Fin ROUTER_NUM_INTERFACES} {ab : UInt32}
    {back : List (ι × UInt32)} (hflight : c.flight = [(r, ⟨j, data⟩)]) (hlen : data.length ≤ MAX_LEN)
    (hv : Packet.Valid (linkPacket data) src dst t) (hway : Way T c.tables dst r' j' r j hops)
    (hforeign : dst ≠ (T.env r').interfaceIp (j' : ℕ)) (ht : costs c.routers hops < t)
    (hend : t = costs c.routers hops + 1 ∨
      getBestRoute (c.tables r') dst 0 ((c.tables r').length - 1) = none)
    (hpeer : T.peer r' j' = some (r₀, j₀)) (hback : Way T c.tables src rb jb r₀ j₀ back)
    (hlast : Forwards T c.tables src rb jb ib ab) (hhosts : T.peer rb ib = none)
    (hanswer : T.Answers rb ib ab mac) (hready : ∀ q, (c.routers q).Ready 2) (hshort : back.length ≤ 30) :
    ∃ n c' x t', Orbit.iter (step T) n c = some c' ∧ (rb, ib, x) ∈ c'.delivered ∧
      Packet.Valid (linkPacket x) dst src t' ∧ x[34]? = some (if t = costs c.routers hops + 1 then
        ICMP_TIME_EXCEEDED else ICMP_DEST_UNREACH) := by
  obtain ⟨u, rfl⟩ := Nat.exists_eq_add_of_le' ht.le
  have hu : u + costs c.routers hops = costs c.routers hops + 1 ↔ u ≤ 1 := by omega
  rw [hu] at hend
  -- out
  obtain ⟨n₁, c₁, data₁, hiter₁, hf₁, hd₁, hp₁, hv₁, hcar₁⟩ := travel hway hflight hlen
    (fun x _ => (hready x.1).of_succ) (by omega) hv
  rw [← hp₁.tables] at hend
  obtain ⟨m, y, hstep, hy, hmsg, hyl, htype⟩ := Router.step_answered (s := c₁.routers r') hv₁ hforeign hend
  obtain ⟨c₂, hc₂, hr₂, hf₂, hd₂⟩ := step_link hf₁ hstep hy hpeer
  have hp₂ : Passed [] c₁ c₂ := passed_of_update hr₂
  have htables : c₂.tables = c.tables := hp₂.tables.trans hp₁.tables
  have hready₂ : ∀ q, (c₂.routers q).Ready 1 := fun q =>
    hp₂.ready_of_notMem (by simp) (hp₁.ready_of_succ (hready q))
  -- back
  rw [← htables] at hback hlast
  have hcost : costs c₂.routers back + (c₂.routers rb).cost ab ≤ 62 := by
    have hle := costs_le c₂.routers (back ++ [(rb, ab)])
    have hsum : costs c₂.routers (back ++ [(rb, ab)]) =
        costs c₂.routers back + (c₂.routers rb).cost ab := by simp [costs]
    rw [hsum, List.length_append, List.length_singleton] at hle
    omega
  obtain ⟨v, hv64⟩ := Nat.exists_eq_add_of_le' (hcost.trans (show 62 ≤ 64 by omega))
  have hv₂ : Packet.Valid (linkPacket y.data) dst src (v + (c₂.routers rb).cost ab + costs c₂.routers back) := by
    have h64 : v + (c₂.routers rb).cost ab + costs c₂.routers back = 64 := by omega
    rw [h64]
    exact hmsg.valid
  obtain ⟨n₃, c₃, data₃, hiter₃, hf₃, hd₃, hp₃, hv₃, hcar₃⟩ := travel hback hf₂ hyl
    (fun x _ => hready₂ x.1) (by omega) hv₂
  have hnot : rb ∉ back.map Prod.fst := by
    rw [List.mem_map]
    rintro ⟨x, hx, he⟩
    exact notMem_of_way hback x hx he
  have hcost₃ : (c₃.routers rb).cost ab = (c₂.routers rb).cost ab := by
    rw [hp₃.other rb hnot]
    rfl
  rw [← hp₃.tables] at hlast
  rw [← hcost₃] at hv₃
  obtain ⟨n₄, c₄, x, hiter₄, harr⟩ := exists_arrives hf₃ (by rw [hcar₃.length]; exact hyl)
    (hp₃.ready_of_notMem hnot (hready₂ rb)) hlast hhosts hanswer (by omega) hv₃
  refine ⟨n₁ + (1 + (n₃ + n₄)), c₄, x, v, ?_, ?_, harr.valid, ?_⟩
  · rw [iter_add, hiter₁, Option.bind_some, iter_add, iter_one hc₂, Option.bind_some, iter_add, hiter₃,
      Option.bind_some, hiter₄]
  · rcases harr.delivered with h | h <;> rw [h] <;> simp
  · have hbyte := (hcar₃.trans harr.carried).bytes 34 (by omega) (by omega) (by omega) (by omega)
    rw [hbyte, htype]
    simp only [hu]

/-- A TTL of three is used up in the second router. -/
theorem network_returns_two : ∃ n c' x t', Orbit.iter (step twoRouters) n (twoNetwork 3) = some c' ∧
    (false, 0, x) ∈ c'.delivered ∧ Packet.Valid (linkPacket x) (le32 10 0 1 7) (le32 10 0 0 1) t' ∧
      x[34]? = some ICMP_TIME_EXCEEDED := by
  have hroute : getBestRoute ((twoNetwork 3).tables false) (le32 10 0 0 1) 0 1 =
      some ⟨le32 10 0 0 1, le32 10 0 0 1, le32 255 255 255 255, 0⟩ := by decide +kernel
  have hv : Packet.Datagram (Router.packetTo 3 7) (le32 10 0 0 1) (le32 10 0 1 7) 3 := by
    constructor <;> decide +kernel
  exact network_returns rfl (by decide) (valid_packetTo hv) (way_twoNetwork 3) (by decide) (by decide)
    (.inl rfl) rfl .here ⟨by decide, _, hroute, rfl, rfl⟩ rfl (answers_of_answer rfl _)
    (ready_twoNetwork 3) (by simp)

end Network

end Protocoale.Tema1

import Protocoale.Tema1.Steps

/-!
The storage of the packets in the queue. `forward_packet` enqueues the address of a local variable,
whose storage is released when the function returns and may be handed out again by the next call.
Here the queue holds addresses, and every iteration is given the address its local variable gets.
The packets in the queue keep their bytes as long as no packet is parked in storage that the queue
still points to (`kept_iff`), and only then is a run one of the router with a queue of packets
(`exec_view`). What a single iteration sends is always what that router sends with the packets that the
pointers lead to at the time (`step_rel`).
-/

namespace Protocoale.Tema1

open Lib Lib.Bytes

/-- The router with the queue as it is: addresses of packets. The tables and the buffer of the main
loop are those of `router`, whose own queue has no part in it. -/
structure PtrRouter where
  router : Router
  cells : ℕ → Packet
  queue : List ℕ

/-- What an iteration does: frames sent, packets as they are when they go into the queue and when
they are taken out. -/
inductive Effect where
  | sent (x : Sent)
  | enq (p : Packet)
  | deq (p : Packet)

namespace PtrRouter

open Router (bestRoute getArpEntry updateHdr setEther icmpError arpRequest sendPacket icmpForMe)

/-! ### The router -/

/-- The router when it enters the main loop. -/
def init (rtable : List RouteTableEntry) (m : Packet) (cells : ℕ → Packet) : PtrRouter :=
  ⟨Router.init rtable m, cells, []⟩

/-- `forward_packet`, with its local variable at the address `mCopy`: the packet as it is left is
written back by the caller. -/
def forwardPacket (env : Env) (s : PtrRouter) (m : Packet) (mCopy : ℕ) :
    Option (PtrRouter × Packet × List Effect) :=
  if ipChecksum ipHdrAddr m.ipHdr ≠ 0 then some (s, m, [])
  else if m.ttl ≤ 1 then some (s, m, [.sent (icmpError m ICMP_TIME_EXCEEDED)])
  else
    match s.router.bestRoute m with
    | none => some (s, m, [.sent (icmpError m ICMP_DEST_UNREACH)])
    | some route =>
      let m := updateHdr m
      (s.router.getArpEntry route.nextHop).map fun entry =>
        match entry with
        | none => ({ s with cells := Function.update s.cells mCopy m, queue := s.queue ++ [mCopy] }, m,
            [.enq m, .sent (arpRequest env route)])
        | some entry =>
          let m := setEther m entry.mac (env.interfaceMac route.interface)
          (s, m, [.sent (sendPacket route.interface m)])

/-- An IP packet. -/
def handleIp (env : Env) (s : PtrRouter) (mCopy : ℕ) : Option (PtrRouter × List Effect) :=
  let m := s.router.m
  if icmpForMe env m then
    if m.icmpType = ICMP_ECHO then
      some (s, [.sent (sendIcmp m.saddr m.daddr m.etherDhost m.etherShost ICMP_ECHOREPLY 0
        m.interface m.icmpEcho)])
    else some (s, [])
  else (forwardPacket env s m mCopy).map fun r =>
    ({ r.1 with router := { r.1.router with m := r.2.1 } }, r.2.2)

/-- An ARP packet that is not a request: the packet taken out of the queue is changed where it is. -/
def handleArpReply (env : Env) (s : PtrRouter) (mCopy : ℕ) : Option (PtrRouter × List Effect) :=
  (s.router.addArpEntry { ip := s.router.m.arpSpa, mac := s.router.m.arpSha }).bind fun router =>
    match s.queue with
    | [] => some ({ s with router }, [])
    | a :: queue =>
      (forwardPacket env { s with router, queue } (s.cells a) mCopy).map fun r =>
        ({ r.1 with cells := Function.update r.1.cells a r.2.1 }, .deq (s.cells a) :: r.2.2)

/-- One iteration of the main loop, with the address that the local variable of `forward_packet`
gets in it. -/
def step (env : Env) (s : PtrRouter) (x : Frame × ℕ) : Option (PtrRouter × List Effect) :=
  let s := { s with router := { s.router with m := getPacket s.router.m x.1 } }
  if s.router.m.etherType = ETHERTYPE_IP then handleIp env s x.2
  else if s.router.m.etherType = ETHERTYPE_ARP then
    if s.router.m.arpOp = ARPOP_REQUEST then
      let r := Router.handleArpRequest env s.router
      some ({ s with router := r.1 }, r.2.map .sent)
    else handleArpReply env s x.2
  else some (s, [])

/-! ### What should hold -/

/-- The packets that went into the queue, as they were then. -/
def enqueued (out : List Effect) : List Packet := out.filterMap fun
  | .enq p => some p
  | _ => none

/-- The packets that were taken out of the queue, as they were then. -/
def dequeued (out : List Effect) : List Packet := out.filterMap fun
  | .deq p => some p
  | _ => none

/-- The frames sent. -/
def sents (out : List Effect) : List Sent := out.filterMap fun
  | .sent x => some x
  | _ => none

/-- The packets in the queue. -/
def parked (s : PtrRouter) : List Packet := s.queue.map s.cells

/-- **Parked packets keep their bytes**: what was taken out, followed by what the queue points to,
is what went in, and every pointer in the queue has storage of its own. -/
structure Kept (s : PtrRouter) (out : List Effect) : Prop where
  fifo : dequeued out ++ s.parked = enqueued out
  nodup : s.queue.Nodup

/-- `forward_packet` puts the packet in the queue: it verifies, has a TTL and a route, and the next
hop is not in the ARP table. -/
def Parks (s : Router) (m : Packet) : Prop :=
  ipChecksum ipHdrAddr m.ipHdr = 0 ∧ ¬ m.ttl ≤ 1 ∧
    ∃ route ∈ s.bestRoute m, s.getArpEntry route.nextHop = some none

instance {s : Router} {m : Packet} : Decidable (Parks s m) := inferInstanceAs (Decidable (_ ∧ _ ∧ _))

/-- The call of `forward_packet` an iteration makes: the tables and the packet of the call, and the
addresses that are in the queue at that moment. -/
def call (env : Env) (s : PtrRouter) (f : Frame) : Option (Router × Packet × List ℕ) :=
  let m := getPacket s.router.m f
  let router := { s.router with m }
  if m.etherType = ETHERTYPE_IP then
    if icmpForMe env m then none else some (router, m, s.queue)
  else if m.IsReply then
    (router.addArpEntry m.arpEntry).bind fun router =>
      match s.queue with
      | [] => none
      | a :: queue => some (router, s.cells a, queue)
  else none

/-- A packet that is parked gets storage that the queue does not point to. -/
def Fresh (env : Env) (s : PtrRouter) (x : Frame × ℕ) : Prop :=
  ∀ c ∈ call env s x.1, Parks c.1 c.2.1 → x.2 ∉ c.2.2

instance {env : Env} {s : PtrRouter} {x : Frame × ℕ} : Decidable (Fresh env s x) := by
  unfold Fresh
  infer_instance

variable {env : Env} {s s' : PtrRouter} {m m' : Packet} {c : ℕ} {x : Frame × ℕ}
  {xs : List (Frame × ℕ)} {out o : List Effect}

@[simp] lemma enqueued_append : enqueued (out ++ o) = enqueued out ++ enqueued o := by
  simp [enqueued]

@[simp] lemma dequeued_append : dequeued (out ++ o) = dequeued out ++ dequeued o := by
  simp [dequeued]

/-! ### One call, one step -/

/-- **The outcomes of `forward_packet`** for the queue: nothing happens to it, or the packet with
its new header is parked at the address of the local variable. -/
theorem forwardPacket_parks (h : forwardPacket env s m c = some (s', m', out)) :
    (¬ Parks s.router m ∧ s' = s ∧ enqueued out = [] ∧ dequeued out = []) ∨
    (Parks s.router m ∧ m' = updateHdr m ∧ enqueued out = [updateHdr m] ∧ dequeued out = [] ∧
      s' = { s with cells := Function.update s.cells c (updateHdr m), queue := s.queue ++ [c] }) := by
  unfold forwardPacket at h
  split at h
  · next hck =>
    cases h
    exact Or.inl ⟨fun hp => hck hp.1, rfl, rfl, rfl⟩
  · next hck =>
    rw [not_not] at hck
    split at h
    · next httl =>
      cases h
      exact Or.inl ⟨fun hp => hp.2.1 httl, rfl, rfl, rfl⟩
    · next httl =>
      cases hroute : s.router.bestRoute m with
      | none =>
        rw [hroute] at h
        cases h
        refine Or.inl ⟨?_, rfl, rfl, rfl⟩
        rintro ⟨-, -, route, hr, -⟩
        rw [hroute] at hr
        cases hr
      | some route =>
        rw [hroute] at h
        obtain ⟨entry, hentry, he⟩ := Option.map_eq_some_iff.mp h
        cases entry with
        | none =>
          cases he
          exact Or.inr ⟨⟨hck, httl, route, hroute, hentry⟩, rfl, rfl, rfl, rfl⟩
        | some entry =>
          cases he
          refine Or.inl ⟨?_, rfl, rfl, rfl⟩
          rintro ⟨-, -, route', hr, hnone⟩
          rw [hroute] at hr
          cases hr
          rw [hentry] at hnone
          cases hnone

/-- A call that parks the packet is defined. -/
lemma Parks.isSome (h : Parks s.router m) (env : Env) (c : ℕ) :
    ∃ r, forwardPacket env s m c = some r := by
  obtain ⟨hck, httl, route, hroute, hentry⟩ := h
  unfold forwardPacket
  rw [if_neg (not_not.mpr hck), if_neg httl, Option.mem_def.mp hroute]
  simp only [hentry]
  exact ⟨_, rfl⟩

lemma map_update_of_notMem {cells : ℕ → Packet} {q : List ℕ} (p : Packet) (h : c ∉ q) :
    q.map (Function.update cells c p) = q.map cells := by
  apply List.map_congr_left
  intro a ha
  rw [Function.update_of_ne]
  rintro rfl
  exact h ha

/-- A packet parked in fresh storage is the last one, after those that were parked. -/
lemma parked_park (p : Packet) (h : c ∉ s.queue) :
    parked { s with cells := Function.update s.cells c p, queue := s.queue ++ [c] } =
      s.parked ++ [p] := by
  show (s.queue ++ [c]).map (Function.update s.cells c p) = _
  rw [List.map_append, List.map_singleton, Function.update_self, map_update_of_notMem p h, parked]

/-- Parking a packet keeps the others exactly when its storage is fresh. -/
lemma kept_park {acc : List Effect} (hkept : Kept s acc)
    (hout : enqueued out = [m] ∧ dequeued out = []) :
    Kept { s with cells := Function.update s.cells c m, queue := s.queue ++ [c] } (acc ++ out) ↔
      c ∉ s.queue := by
  constructor
  · intro h
    have hnodup : (s.queue ++ [c]).Nodup := h.nodup
    exact fun hc => (List.nodup_append.mp hnodup).2.2 c hc c (by simp) rfl
  · intro hc
    constructor
    case fifo =>
      rw [parked_park m hc, dequeued_append, enqueued_append, hout.1, hout.2, List.append_nil,
        ← List.append_assoc, hkept.fifo]
    case nodup => simpa using hkept.nodup.concat hc

/-- Only the queue and what it points to count. -/
lemma Kept.congr (h : Kept s out) (hqueue : s'.queue = s.queue) (hparked : s'.parked = s.parked) :
    Kept s' out := by
  refine ⟨?_, ?_⟩
  · rw [hparked]
    exact h.fifo
  · rw [hqueue]
    exact h.nodup

lemma Kept.withRouter (h : Kept s out) (router : Router) : Kept { s with router } out :=
  ⟨h.fifo, h.nodup⟩

/-- Outputs that tell nothing of the queue. -/
lemma kept_append {acc : List Effect} (hkept : Kept s acc) (henq : enqueued out = [])
    (hdeq : dequeued out = []) : Kept s (acc ++ out) := by
  refine ⟨?_, hkept.nodup⟩
  rw [dequeued_append, enqueued_append, henq, hdeq, List.append_nil, List.append_nil]
  exact hkept.fifo

/-- The first packet is taken out. -/
lemma kept_deq {acc : List Effect} {a : ℕ} {q : List ℕ} (hkept : Kept s acc)
    (hq : s.queue = a :: q) : Kept { s with queue := q } (acc ++ [.deq (s.cells a)]) := by
  have hparked : s.parked = s.cells a :: q.map s.cells := by rw [parked, hq, List.map_cons]
  have hfifo := hkept.fifo
  have hnodup := hkept.nodup
  rw [hparked] at hfifo
  rw [hq, List.nodup_cons] at hnodup
  refine ⟨?_, hnodup.2⟩
  show dequeued (acc ++ [.deq (s.cells a)]) ++ q.map s.cells = _
  rw [dequeued_append, enqueued_append]
  simpa [dequeued, enqueued] using hfifo

/-- A packet that was taken out is written where it is, which is seen by no packet in the queue: it
may only have been parked there again. -/
lemma parked_writeBack {a : ℕ} {r : PtrRouter} (ha : a ∉ s.queue)
    (h : forwardPacket env s m c = some (r, m', out)) :
    parked { r with cells := Function.update r.cells a m' } = r.parked := by
  rcases forwardPacket_parks h with ⟨-, rfl, -, -⟩ | ⟨-, rfl, -, -, rfl⟩
  · exact map_update_of_notMem m' ha
  · apply List.map_congr_left
    intro b hb
    dsimp only at hb ⊢
    rw [Function.update_apply]
    split
    · next hba =>
      rcases List.mem_append.mp hb with hb | hb
      · exact absurd (hba ▸ hb) ha
      · rw [List.mem_singleton.mp hb, Function.update_self]
    · rfl

lemma head_notMem {a : ℕ} {q : List ℕ} (hnodup : s.queue.Nodup) (hq : s.queue = a :: q) :
    a ∉ q := by
  rw [hq, List.nodup_cons] at hnodup
  exact hnodup.1

/-- The first packet is taken out and forwarded, and may be parked again, in any storage that the
rest of the queue does not point to. -/
lemma kept_reply {acc : List Effect} {a : ℕ} {q : List ℕ} {r : PtrRouter} (hkept : Kept s acc)
    (hq : s.queue = a :: q)
    (h : forwardPacket env { s with queue := q } (s.cells a) c = some (r, m', out)) :
    Kept { r with cells := Function.update r.cells a m' } (acc ++ .deq (s.cells a) :: out) ↔
      (Parks s.router (s.cells a) → c ∉ q) := by
  have hdeq := kept_deq hkept hq
  have ha : a ∉ q := head_notMem hkept.nodup hq
  have hwrite := parked_writeBack (s := { s with queue := q }) ha h
  have hacc : acc ++ .deq (s.cells a) :: out = (acc ++ [.deq (s.cells a)]) ++ out := by simp
  rw [hacc]
  rcases forwardPacket_parks h with ⟨hnot, rfl, henq, hdeq'⟩ | ⟨hparks, rfl, henq, hdeq', rfl⟩
  · refine iff_of_true ?_ fun hp => absurd hp hnot
    exact (kept_append hdeq henq hdeq').congr rfl hwrite
  · have hpark := kept_park (c := c) hdeq ⟨henq, hdeq'⟩
    rw [forall_prop_of_true hparks, ← hpark]
    exact ⟨fun h => h.congr rfl hwrite.symm, fun h => h.congr rfl hwrite⟩

/-- **The outcomes of a step** for the queue: `forward_packet` is not called, it is called with the
packet that came in, or with the first packet of the queue. -/
theorem step_cases (h : step env s x = some (s', out)) :
    (call env s x.1 = none ∧ ((getPacket s.router.m x.1).IsReply → s.queue = []) ∧
      s'.queue = s.queue ∧ s'.cells = s.cells ∧ enqueued out = [] ∧ dequeued out = []) ∨
    (∃ router m r m', ¬ (getPacket s.router.m x.1).IsReply ∧
      call env s x.1 = some (router, m, s.queue) ∧
      forwardPacket env { s with router } m x.2 = some (r, m', out) ∧
      s' = { r with router := { r.router with m := m' } }) ∨
    ∃ router a q r m' o, (getPacket s.router.m x.1).IsReply ∧ s.queue = a :: q ∧
      call env s x.1 = some (router, s.cells a, q) ∧
      forwardPacket env { s with router, queue := q } (s.cells a) x.2 = some (r, m', o) ∧
      s' = { r with cells := Function.update r.cells a m' } ∧ out = .deq (s.cells a) :: o := by
  unfold step at h
  unfold call
  dsimp only at h ⊢
  split at h
  · next hip =>
    rw [if_pos hip]
    have hnot := Packet.not_isReply hip
    unfold handleIp at h
    dsimp only at h
    split at h
    · next hme =>
      rw [if_pos hme]
      refine Or.inl ⟨rfl, fun hr => absurd hr hnot, ?_⟩
      split at h
      · cases h
        exact ⟨rfl, rfl, rfl, rfl⟩
      · cases h
        exact ⟨rfl, rfl, rfl, rfl⟩
    · next hme =>
      rw [if_neg hme]
      obtain ⟨⟨r, m', o⟩, hr, he⟩ := Option.map_eq_some_iff.mp h
      cases he
      exact Or.inr (Or.inl ⟨_, _, r, m', hnot, rfl, hr, rfl⟩)
  · next hip =>
    rw [if_neg hip]
    split at h
    · next harp =>
      split at h
      · next hop =>
        have hnot : ¬ (getPacket s.router.m x.1).IsReply := fun hr => hr.2 hop
        rw [if_neg hnot]
        cases h
        exact Or.inl ⟨rfl, fun hr => absurd hr hnot, rfl, rfl, by simp [enqueued], by simp [dequeued]⟩
      · next hop =>
        have hreply : (getPacket s.router.m x.1).IsReply := ⟨harp, hop⟩
        rw [if_pos hreply]
        unfold handleArpReply at h
        obtain ⟨router, hrouter, h⟩ := Option.bind_eq_some_iff.mp h
        dsimp only at h hrouter
        unfold Packet.arpEntry
        rw [hrouter, Option.bind_some]
        cases hq : s.queue with
        | nil =>
          rw [hq] at h
          cases h
          exact Or.inl ⟨rfl, fun _ => rfl, rfl, rfl, rfl, rfl⟩
        | cons a q =>
          rw [hq] at h
          obtain ⟨⟨r, m', o⟩, hr, he⟩ := Option.map_eq_some_iff.mp h
          cases he
          exact Or.inr (Or.inr ⟨router, a, q, r, m', o, hreply, rfl, rfl, hr, rfl, rfl⟩)
    · next harp =>
      have hnot : ¬ (getPacket s.router.m x.1).IsReply := fun hr => harp hr.1
      rw [if_neg hnot]
      cases h
      exact Or.inl ⟨rfl, fun hr => absurd hr hnot, rfl, rfl, rfl, rfl⟩

lemma fresh_of_call_none (hcall : call env s x.1 = none) : Fresh env s x := by
  simp [Fresh, hcall]

lemma fresh_iff {router : Router} {q : List ℕ} (hcall : call env s x.1 = some (router, m, q)) :
    Fresh env s x ↔ (Parks router m → x.2 ∉ q) := by
  simp [Fresh, hcall]

/-- **A step keeps the parked packets exactly when what it parks gets fresh storage.** -/
theorem kept_step {acc : List Effect} (hkept : Kept s acc) (h : step env s x = some (s', out)) :
    Kept s' (acc ++ out) ↔ Fresh env s x := by
  rcases step_cases h with ⟨hcall, -, hqueue, hcells, henq, hdeq⟩ |
    ⟨router, m, r, m', -, hcall, hr, rfl⟩ | ⟨router, a, q, r, m', o, -, hq, hcall, hr, rfl, rfl⟩
  · refine iff_of_true ?_ (fresh_of_call_none hcall)
    apply (kept_append hkept henq hdeq).congr hqueue
    rw [parked, hqueue, hcells, parked]
  · rw [fresh_iff hcall]
    have hrouter := hkept.withRouter router
    rcases forwardPacket_parks hr with ⟨hnot, rfl, henq, hdeq⟩ | ⟨hparks, -, henq, hdeq, rfl⟩
    · refine iff_of_true ?_ fun hp => absurd hp hnot
      exact (kept_append hrouter henq hdeq).withRouter _
    · have hpark := kept_park (c := x.2) hrouter ⟨henq, hdeq⟩
      rw [forall_prop_of_true hparks, ← hpark]
      exact ⟨fun h => h.withRouter _, fun h => h.withRouter _⟩
  · rw [fresh_iff hcall]
    exact kept_reply (hkept.withRouter router) hq hr

/-- Where a step is not defined, nothing is parked. -/
lemma fresh_of_none (h : step env s x = none) : Fresh env s x := by
  intro k hk hparks
  exfalso
  unfold step at h
  unfold call at hk
  dsimp only at h hk
  split at hk
  · next hip =>
    split at hk
    · cases hk
    · next hme =>
      cases hk
      obtain ⟨r, hr⟩ := Parks.isSome (s := { s with
        router := { s.router with m := getPacket s.router.m x.1 } }) hparks env x.2
      rw [if_pos hip, handleIp] at h
      dsimp only at h
      rw [if_neg hme, hr] at h
      cases h
  · next hip =>
    split at hk
    · next hreply =>
      obtain ⟨router, hrouter, hk⟩ := Option.bind_eq_some_iff.mp hk
      cases hq : s.queue with
      | nil =>
        rw [hq] at hk
        cases hk
      | cons a q =>
        rw [hq] at hk
        cases hk
        obtain ⟨r, hr⟩ := Parks.isSome (s := { s with router, queue := q }) hparks env x.2
        unfold Packet.arpEntry at hrouter
        rw [if_neg hip, if_pos hreply.1, if_neg hreply.2, handleArpReply] at h
        dsimp only at h
        rw [hrouter, Option.bind_some, hq] at h
        dsimp only at h
        rw [hr] at h
        cases h
    · cases hk

/-! ### Whole runs -/

lemma kept_init (rtable : List RouteTableEntry) (m : Packet) (cells : ℕ → Packet) :
    Kept (init rtable m cells) [] := ⟨rfl, List.nodup_nil⟩

/-- **The parked packets keep their bytes all along a run if and only if every packet that is parked
gets storage that the queue does not point to.** -/
theorem kept_iff (env : Env) (rtable : List RouteTableEntry) (m : Packet) (cells : ℕ → Packet)
    (xs : List (Frame × ℕ)) :
    (∀ pre s out, pre <+: xs → Run.exec (step env) (init rtable m cells) pre = some (s, out) →
      Kept s out) ↔ Run.Along (step env) (Fresh env) (init rtable m cells) xs := by
  have hlegal : Run.Along (step env) (fun _ _ => True) (init rtable m cells) xs :=
    fun _ _ => trivial
  refine Run.forall_prefix_iff_along (Q := fun _ => True) (P := fun _ s out => Kept s out) ?_ ?_ ?_
    hlegal trivial (kept_init rtable m cells)
  · intros
    trivial
  · intro _ acc s x s' out _ _ hkept hs
    exact kept_step hkept hs
  · intro s x _ _ hs
    exact fresh_of_none hs

/-- Two packets are parked in the same storage, and the second one is taken out first. -/
theorem not_kept : ¬ ∀ env rtable m cells xs s out,
    Run.exec (step env) (init rtable m cells) xs = some (s, out) →
      dequeued out <+: enqueued out := by
  intro h
  have hrun : (Run.exec (step Router.testEnv) (init Router.testRouter.rtable ⟨0, fun _ => 0, 0⟩
      fun _ => ⟨0, fun _ => 0, 0⟩) [(Router.ipFrame 64 7, 0), (Router.ipFrame 64 8, 0),
        (Router.arpFrame 2 7 7, 0)]).map (fun r => ((dequeued r.2).map (fun p => p.payload 33),
          (enqueued r.2).map (fun p => p.payload 33))) = some ([8], [7, 8, 8]) := by
    decide +kernel
  obtain ⟨⟨s, out⟩, hexec, hbytes⟩ := Option.map_eq_some_iff.mp hrun
  obtain ⟨hdeq, henq⟩ := Prod.mk.inj hbytes
  have hprefix := (h _ _ _ _ _ s out hexec).map fun p => p.payload 33
  rw [hdeq, henq] at hprefix
  exact absurd hprefix (by decide)

/-! ### The router with a queue of packets -/

/-- The router, with the packets its queue points to. -/
def view (s : PtrRouter) : Router := { s.router with packets := s.parked }

/-- The two routers are the same but for their queues. -/
def SameButQueue (s : PtrRouter) (r : Router) : Prop := { r with packets := s.router.packets } = s.router

lemma SameButQueue.view_eq {r : Router} (h : SameButQueue s r) (hparked : s.parked = r.packets) :
    s.view = r := by
  rw [view, hparked, ← h]

/-- Two calls of `forward_packet`: the packet is left alike, the frames sent are the same, and the
queues agree when the packet is not parked in storage that is in use. -/
structure SameCall (fresh : Prop) (r : PtrRouter × Packet × List Effect)
    (r' : Router × Packet × List Sent) : Prop where
  router : SameButQueue r.1 r'.1
  packet : r.2.1 = r'.2.1
  sents : sents r.2.2 = r'.2.2
  parked : fresh → r.1.parked = r'.1.packets

lemma forwardPacket_rel (env : Env) (s : PtrRouter) (m : Packet) (c : ℕ) :
    Option.Rel (SameCall (Parks s.router m → c ∉ s.queue)) (forwardPacket env s m c)
      (Router.forwardPacket env s.view m) := by
  have hroute : s.view.bestRoute m = s.router.bestRoute m := rfl
  have harp (ip : UInt32) : s.view.getArpEntry ip = s.router.getArpEntry ip := rfl
  unfold forwardPacket Router.forwardPacket
  split
  · exact Option.Rel.some ⟨rfl, rfl, rfl, fun _ => rfl⟩
  · next hck =>
    split
    · exact Option.Rel.some ⟨rfl, rfl, rfl, fun _ => rfl⟩
    · next httl =>
      rw [hroute]
      cases hr : s.router.bestRoute m with
      | none => exact Option.Rel.some ⟨rfl, rfl, rfl, fun _ => rfl⟩
      | some route =>
        dsimp only
        rw [harp]
        cases hentry : s.router.getArpEntry route.nextHop with
        | none => exact Option.Rel.none
        | some entry =>
          cases entry with
          | some entry => exact Option.Rel.some ⟨rfl, rfl, rfl, fun _ => rfl⟩
          | none =>
            refine Option.Rel.some ⟨rfl, rfl, rfl, ?_⟩
            intro hfresh
            exact parked_park _ (hfresh ⟨not_not.mp hck, httl, route, hr, hentry⟩)

/-- The ARP table has nothing to do with the queue. -/
lemma addArpEntry_view (s : PtrRouter) (e : ArpTableEntry) : s.view.addArpEntry e =
    (s.router.addArpEntry e).map fun router => view { s with router } := by
  unfold Router.addArpEntry
  by_cases hroom : s.router.arpBlock < arpEntrySize * (s.router.arpTable.length + 1)
  · rw [if_pos hroom]
    exact if_pos hroom
  · rw [if_neg hroom]
    refine (if_neg hroom).trans ?_
    dsimp only
    by_cases hfull : (s.router.arpTable ++ [e]).length = s.router.arpMaxSize
    · rw [if_pos hfull]
      exact if_pos hfull
    · rw [if_neg hfull]
      exact if_neg hfull

/-- Two steps, likewise. -/
structure SameStep (fresh : Prop) (r : PtrRouter × List Effect) (r' : Router × List Sent) : Prop where
  router : SameButQueue r.1 r'.1
  sents : sents r.2 = r'.2
  parked : fresh → r.1.parked = r'.1.packets

lemma sameStep_mono {fresh fresh' : Prop} {r : Option (PtrRouter × List Effect)}
    {r' : Option (Router × List Sent)} (himp : fresh' → fresh)
    (h : Option.Rel (SameStep fresh) r r') : Option.Rel (SameStep fresh') r r' := by
  cases h with
  | none => exact Option.Rel.none
  | some h => exact Option.Rel.some ⟨h.router, h.sents, fun hf => h.parked (himp hf)⟩

lemma handleIp_rel (env : Env) (s : PtrRouter) (c : ℕ) :
    Option.Rel (SameStep (¬ icmpForMe env s.router.m = true → Parks s.router s.router.m → c ∉ s.queue))
      (handleIp env s c) (Router.handleIp env s.view) := by
  have hm : s.view.m = s.router.m := rfl
  unfold handleIp Router.handleIp
  rw [hm]
  dsimp only
  split
  · split
    · exact Option.Rel.some ⟨rfl, rfl, fun _ => rfl⟩
    · exact Option.Rel.some ⟨rfl, rfl, fun _ => rfl⟩
  · next hme =>
    refine Run.rel_map (forwardPacket_rel env s s.router.m c) ?_
    rintro ⟨r, m', o⟩ ⟨r', m'', o'⟩ ⟨hrouter, hpacket, hsents, hparked⟩
    dsimp only at hrouter hpacket
    refine ⟨?_, hsents, fun hfresh => hparked (hfresh hme)⟩
    unfold SameButQueue at hrouter ⊢
    rw [hpacket, ← hrouter]

lemma handleArpReply_rel (env : Env) (s : PtrRouter) (c : ℕ) :
    Option.Rel (SameStep ((∀ a q, s.queue = a :: q → a ∉ q) ∧
        ∀ router a q, s.router.addArpEntry s.router.m.arpEntry = some router → s.queue = a :: q →
          Parks router (s.cells a) → c ∉ q))
      (handleArpReply env s c) (Router.handleArpReply env s.view) := by
  have hm : s.view.m = s.router.m := rfl
  unfold handleArpReply Router.handleArpReply Packet.arpEntry
  rw [addArpEntry_view, hm]
  cases hr : s.router.addArpEntry ⟨s.router.m.arpSpa, s.router.m.arpSha⟩ with
  | none => exact Option.Rel.none
  | some router =>
    simp only [Option.bind_some, Option.map_some, view, parked]
    cases hq : s.queue with
    | nil =>
      simp only [List.map_nil]
      refine Option.Rel.some ⟨rfl, rfl, fun _ => ?_⟩
      simp only [parked, List.map_nil]
    | cons a q =>
      have hrel := forwardPacket_rel env { s with router, queue := q } (s.cells a) c
      simp only [List.map_cons]
      cases hf : forwardPacket env { s with router, queue := q } (s.cells a) c with
      | none =>
        rw [hf] at hrel
        unfold view parked at hrel
        rw [Run.eq_none_of_rel hrel]
        exact Option.Rel.none
      | some r =>
        obtain ⟨r, m', o⟩ := r
        rw [hf] at hrel
        obtain ⟨⟨r', m'', o'⟩, hf', hrouter, -, hsents, hparked⟩ := Run.exists_of_rel_some hrel
        unfold view parked at hf'
        rw [hf']
        refine Option.Rel.some ⟨hrouter, hsents, ?_⟩
        rintro ⟨hhead, hfresh⟩
        exact (parked_writeBack (s := { s with router, queue := q }) (hhead a q rfl) hf).trans
          (hparked (hfresh router a q rfl rfl))

/-- The first pointer of the queue is not in it again. -/
def HeadOnce (s : PtrRouter) : Prop := ∀ a q, s.queue = a :: q → a ∉ q

lemma headOnce_of_nodup (h : s.queue.Nodup) : HeadOnce s := fun _ _ hq => head_notMem h hq

/-- **A step, and one of the router whose queue holds the packets that the pointers lead to**: they send
the same frames and make the same tables. The queues agree afterwards when nothing was parked in storage
that is in use. -/
theorem step_rel (env : Env) (s : PtrRouter) (x : Frame × ℕ) :
    Option.Rel (SameStep (HeadOnce s ∧ Fresh env s x)) (step env s x) (Router.step env s.view x.1) := by
  unfold step Router.step
  have hm : s.view.m = s.router.m := rfl
  dsimp only
  rw [hm]
  split
  · next hip =>
    refine sameStep_mono ?_ (handleIp_rel env
      { s with router := { s.router with m := getPacket s.router.m x.1 } } x.2)
    rintro ⟨-, hfresh⟩ hme hparks
    unfold Fresh call at hfresh
    dsimp only at hfresh
    rw [if_pos hip, if_neg hme] at hfresh
    exact hfresh _ rfl hparks
  · next hip =>
    split
    · next harp =>
      split
      · next hop =>
        have hsents (l : List Sent) : sents (l.map .sent) = l := by simp [sents]
        unfold Router.handleArpRequest
        dsimp only
        split
        · exact Option.Rel.some ⟨rfl, hsents _, fun _ => rfl⟩
        · exact Option.Rel.some ⟨rfl, rfl, fun _ => rfl⟩
      · next hop =>
        refine sameStep_mono ?_ (handleArpReply_rel env
          { s with router := { s.router with m := getPacket s.router.m x.1 } } x.2)
        rintro ⟨hhead, hfresh⟩
        refine ⟨hhead, ?_⟩
        intro router a q hrouter hq hparks
        unfold Fresh call at hfresh
        dsimp only at hfresh
        rw [if_neg hip, if_pos (show Packet.IsReply _ from ⟨harp, hop⟩)] at hfresh
        refine hfresh (router, s.cells a, q) ?_ hparks
        dsimp only at hrouter hq
        rw [hrouter, hq]
        rfl
    · exact Option.Rel.some ⟨rfl, rfl, fun _ => rfl⟩

/-- **A step that parks nothing in storage that is in use is a step of the router with a queue of
packets.** -/
theorem step_view (hhead : HeadOnce s) (hfresh : Fresh env s x) :
    (step env s x).map (fun r => (r.1.view, sents r.2)) = Router.step env s.view x.1 := by
  have hrel := step_rel env s x
  cases hs : step env s x with
  | none =>
    rw [hs] at hrel
    exact (Run.eq_none_of_rel hrel).symm
  | some r =>
    rw [hs] at hrel
    obtain ⟨⟨s', out⟩, hs', hrouter, hsents, hparked⟩ := Run.exists_of_rel_some hrel
    rw [hs', Option.map_some, hrouter.view_eq (hparked ⟨hhead, hfresh⟩), hsents]

/-- **A run that parks nothing in storage that is in use is a run of the router with a queue of
packets.** -/
theorem exec_view (env : Env) (rtable : List RouteTableEntry) (m : Packet) (cells : ℕ → Packet)
    (xs : List (Frame × ℕ))
    (hfresh : Run.Along (step env) (Fresh env) (init rtable m cells) xs) :
    (Run.exec (step env) (init rtable m cells) xs).map (fun r => (r.1.view, sents r.2)) =
      Run.exec (Router.step env) (Router.init rtable m) (xs.map Prod.fst) := by
  refine Run.exec_view (P := fun s => ∃ acc, Kept s acc) view Prod.fst _ ?_ ?_
    ⟨[], kept_init rtable m cells⟩ hfresh
  · rintro s x s' out ⟨acc, hkept⟩ hx hs
    exact ⟨acc ++ out, (kept_step hkept hs).mpr hx⟩
  · rintro s x ⟨acc, hkept⟩ hx
    exact step_view (headOnce_of_nodup hkept.nodup) hx

end PtrRouter

end Protocoale.Tema1

import Protocoale.Tema1.Steps

/-!
The ARP table along a run. As long as fewer than `ARP_MAXSIZE` packets are handled as ARP replies
the table holds one entry for each of them, in a block with room for one more; the next one makes
the block too small for what is in it (`small_or_full`). From this, what a run needs for the table
to have room (`hasRoom_iff`) and to mean what a cache of ARP replies should (`cacheMeans_iff`).
-/

namespace Protocoale.Tema1

open Lib Lib.Bytes

namespace Router

variable {env : Env} {s s' : Router} {f : Frame} {fs : List Frame} {out : List Sent}
  {rtable : List RouteTableEntry} {m : Packet}

/-! ### Lookups -/

/-- A lookup in a table that lies in its block finds the first entry. -/
lemma findArp_of_le {block : ℕ} {ip : UInt32} {i : ℕ} {es : List ArpTableEntry}
    (h : arpEntrySize * (i + es.length) ≤ block) :
    findArp block ip i es = some (es.find? fun e => ip = e.ip) := by
  induction es generalizing i with
  | nil => rfl
  | cons e es ih =>
    simp only [arpEntrySize, List.length_cons] at h ih
    rw [findArp, if_neg (by simp only [arpEntrySize]; omega), List.find?_cons]
    split
    · next hip => simp [hip]
    · next hip =>
      rw [ih (by omega)]
      simp [hip]

/-- A lookup of an address that is not in a table longer than its block leaves the block. -/
lemma findArp_of_lt {block : ℕ} {ip : UInt32} {i : ℕ} {es : List ArpTableEntry}
    (h : block < arpEntrySize * (i + es.length)) (hi : arpEntrySize * i ≤ block)
    (hip : ∀ e ∈ es, ip ≠ e.ip) : findArp block ip i es = none := by
  induction es generalizing i with
  | nil => exact absurd hi (Nat.not_le_of_lt h)
  | cons e es ih =>
    rw [findArp]
    split
    · rfl
    · next hroom =>
      rw [if_neg (hip e List.mem_cons_self)]
      apply ih
      · rwa [List.length_cons, Nat.add_comm es.length, ← Nat.add_assoc] at h
      · exact not_lt.mp hroom
      · intro e' he'
        exact hip e' (List.mem_cons_of_mem _ he')

lemma getArpEntry_of_le {ip : UInt32} (h : arpEntrySize * s.arpTable.length ≤ s.arpBlock) :
    s.getArpEntry ip = some (s.arpTable.find? fun e => ip = e.ip) :=
  findArp_of_le (by simpa using h)

/-! ### Growing -/

/-- The table has not been moved yet and has room for one more entry. -/
structure Small (s : Router) : Prop where
  length : s.arpTable.length < ARP_MAXSIZE
  arpMaxSize : s.arpMaxSize = ARP_MAXSIZE
  arpBlock : s.arpBlock = arpEntrySize * ARP_MAXSIZE

/-- The table after it was moved to a block of `arp_max_size` bytes. -/
structure Full (s : Router) : Prop where
  length : s.arpTable.length = ARP_MAXSIZE
  arpBlock : s.arpBlock = 2 * ARP_MAXSIZE

lemma small_init : Small (init rtable m) := ⟨by simp [init], rfl, rfl⟩

lemma forwardPacket_isSome {p : Packet} (h : arpEntrySize * s.arpTable.length ≤ s.arpBlock) :
    (forwardPacket env s p).isSome := by
  unfold forwardPacket
  split
  · rfl
  · split
    · rfl
    · split
      · rfl
      · rw [getArpEntry_of_le h]
        rfl

lemma Small.entries_le (hs : Small s) : arpEntrySize * s.arpTable.length ≤ s.arpBlock := by
  rw [hs.arpBlock]
  exact Nat.mul_le_mul_left _ hs.length.le

lemma Small.addArpEntry (hs : Small s) (hlt : s.arpTable.length + 1 < ARP_MAXSIZE)
    (e : ArpTableEntry) : s.addArpEntry e = some { s with arpTable := s.arpTable ++ [e] } := by
  have hroom : ¬ s.arpBlock < arpEntrySize * (s.arpTable.length + 1) := by
    rw [hs.arpBlock]
    exact not_lt.mpr (Nat.mul_le_mul_left _ hlt.le)
  have hnot : ¬ s.arpTable.length + 1 = s.arpMaxSize := by
    rw [hs.arpMaxSize]
    exact hlt.ne
  unfold Router.addArpEntry
  dsimp only
  rw [if_neg hroom, List.length_append, List.length_singleton, if_neg hnot]

/-- An iteration is defined unless it fills the table. -/
lemma step_isSome (env : Env) (hs : Small s)
    (h : (getPacket s.m f).IsReply → s.arpTable.length + 1 < ARP_MAXSIZE) :
    (step env s f).isSome := by
  have hs' : Small { s with m := getPacket s.m f } := ⟨hs.length, hs.arpMaxSize, hs.arpBlock⟩
  unfold step
  dsimp only
  split
  · unfold handleIp
    split
    · split <;> rfl
    · rw [Option.isSome_map]
      exact forwardPacket_isSome hs'.entries_le
  · split
    · next harp =>
      split
      · rfl
      · next hop =>
        have hlt := h ⟨harp, hop⟩
        unfold handleArpReply
        rw [hs'.addArpEntry hlt, Option.bind_some]
        dsimp only
        split
        · rfl
        · rw [Option.isSome_map]
          refine forwardPacket_isSome ?_
          dsimp only
          rw [List.length_append, List.length_singleton, hs.arpBlock]
          exact Nat.mul_le_mul_left _ hlt.le
    · rfl

lemma small_step (hs : Small s) (h : step env s f = some (s', out))
    (hlt : (getPacket s.m f).IsReply → s.arpTable.length + 1 < ARP_MAXSIZE) : Small s' := by
  have htab := (step_tables h).2
  obtain ⟨hlen, hmax, hblock⟩ := hs
  split at htab
  · next hr =>
    have hne : s.arpTable.length + 1 ≠ s.arpMaxSize := by
      have := hlt hr
      omega
    rw [if_neg hne, if_neg hne] at htab
    refine ⟨?_, htab.2.1.trans hmax, htab.2.2.trans hblock⟩
    rw [htab.1, List.length_append, List.length_singleton]
    exact hlt hr
  · exact ⟨htab.1 ▸ hlen, htab.2.1.trans hmax, htab.2.2.trans hblock⟩

lemma full_step (hs : Small s) (h : step env s f = some (s', out))
    (hr : (getPacket s.m f).IsReply) (hlast : s.arpTable.length + 1 = ARP_MAXSIZE) : Full s' := by
  have htab := (step_tables h).2
  rw [if_pos hr, hs.arpMaxSize, if_pos hlast, if_pos hlast] at htab
  refine ⟨?_, htab.2.2.trans (Nat.mul_comm _ _)⟩
  rw [htab.1, List.length_append, List.length_singleton, hlast]

/-- The entries made so far and those the rest of the run makes stay the same along the run. -/
lemma arpTable_append_replies (h : step env s f = some (s', out)) (gs : List Frame) :
    s'.arpTable ++ (replies env s' gs).map Packet.arpEntry =
      s.arpTable ++ (replies env s (f :: gs)).map Packet.arpEntry := by
  have htab := (step_tables h).2
  rw [replies_cons h]
  split at htab
  · next hr => rw [if_pos hr, htab.1, List.map_cons, List.append_assoc, List.singleton_append]
  · next hr => rw [if_neg hr, htab.1]

/-- A reply in the first frame is one of the replies of the run. -/
lemma replies_pos (hr : (getPacket s.m f).IsReply) : 0 < (replies env s (f :: fs)).length := by
  apply List.length_pos_of_mem (a := getPacket s.m f)
  refine List.mem_filter.mpr ⟨?_, by simpa⟩
  rw [received, Run.visited, List.map_cons]
  exact List.mem_cons_self

/-- **The table along a run.** It takes the entries of all the replies, or it is filled at some
point of the run. -/
theorem small_or_full (env : Env) (fs : List Frame) (hs : Small s) :
    (s.arpTable.length + (replies env s fs).length < ARP_MAXSIZE ∧
      ∀ pre, pre <+: fs → ∃ s' out, Run.exec (step env) s pre = some (s', out) ∧ Small s' ∧
        s'.arpTable = s.arpTable ++ (replies env s pre).map Packet.arpEntry) ∨
    (ARP_MAXSIZE ≤ s.arpTable.length + (replies env s fs).length ∧
      ∃ pre, pre <+: fs ∧ ∀ s' out, Run.exec (step env) s pre = some (s', out) → Full s') := by
  induction fs generalizing s with
  | nil =>
    refine Or.inl ⟨hs.length, ?_⟩
    intro pre hpre
    rw [List.prefix_nil.mp hpre]
    exact ⟨s, [], rfl, hs, (List.append_nil _).symm⟩
  | cons f fs ih =>
    have hlen := hs.length
    by_cases hlast : (getPacket s.m f).IsReply ∧ s.arpTable.length + 1 = ARP_MAXSIZE
    · -- the table is filled in this iteration
      obtain ⟨hr, hlast⟩ := hlast
      refine Or.inr ⟨?_, [f], by simp, ?_⟩
      · have hpos : 0 < (replies env s (f :: fs)).length := replies_pos hr
        omega
      · intro s' out hexec
        obtain ⟨t, o, o', hstep, hnil, -⟩ := Run.exec_cons_eq_some hexec
        cases hnil
        exact full_step hs hstep hr hlast
    · have hlt : (getPacket s.m f).IsReply → s.arpTable.length + 1 < ARP_MAXSIZE := by
        intro hr
        have : s.arpTable.length + 1 ≠ ARP_MAXSIZE := fun h => hlast ⟨hr, h⟩
        omega
      obtain ⟨⟨t, o⟩, hstep⟩ := Option.isSome_iff_exists.mp (step_isSome env hs hlt)
      have hlen' : t.arpTable.length + (replies env t fs).length =
          s.arpTable.length + (replies env s (f :: fs)).length := by
        simpa using congrArg List.length (arpTable_append_replies hstep fs)
      rw [← hlen']
      rcases ih (small_step hs hstep hlt) with ⟨h1, h2⟩ | ⟨h1, pre, hpre, h2⟩
      · refine Or.inl ⟨h1, ?_⟩
        intro pre hpre
        rcases List.prefix_cons_iff.mp hpre with rfl | ⟨pre', rfl, hpre'⟩
        · exact ⟨s, [], rfl, hs, (List.append_nil _).symm⟩
        · obtain ⟨s', out, hexec, hsmall, htable⟩ := h2 pre' hpre'
          refine ⟨s', o ++ out, ?_, hsmall, htable.trans (arpTable_append_replies hstep pre')⟩
          rw [Run.exec_cons hstep, hexec]
          rfl
      · refine Or.inr ⟨h1, f :: pre, List.cons_prefix_cons.mpr ⟨rfl, hpre⟩, ?_⟩
        intro s' out hexec
        obtain ⟨t', o₁, o₂, hstep', hexec', -⟩ := Run.exec_cons_eq_some hexec
        rw [hstep] at hstep'
        cases hstep'
        exact h2 s' o₂ hexec'

/-! ### Room -/

/-- **Room for every reply**: at each iteration the run is defined, the table has the entries of
all the replies, and its block has room for one more. -/
def HasRoom (env : Env) (s : Router) (fs : List Frame) : Prop :=
  ∀ pre, pre <+: fs → ∃ s' out, Run.exec (step env) s pre = some (s', out) ∧
    s'.arpTable = s.arpTable ++ (replies env s pre).map Packet.arpEntry ∧
    arpEntrySize * (s'.arpTable.length + 1) ≤ s'.arpBlock

/-- **The table has room along a run exactly when fewer than `ARP_MAXSIZE` packets are handled as
ARP replies.** -/
theorem hasRoom_iff (env : Env) (rtable : List RouteTableEntry) (m : Packet) (fs : List Frame) :
    HasRoom env (init rtable m) fs ↔ (replies env (init rtable m) fs).length < ARP_MAXSIZE := by
  have hs : Small (init rtable m) := small_init
  rcases small_or_full env fs hs with ⟨hlt, hrun⟩ | ⟨hge, pre, hpre, hfull⟩
  · refine iff_of_true ?_ (by simpa [init] using hlt)
    intro pre hpre
    obtain ⟨s', out, hexec, hsmall, htable⟩ := hrun pre hpre
    refine ⟨s', out, hexec, htable, ?_⟩
    rw [hsmall.arpBlock]
    exact Nat.mul_le_mul_left _ hsmall.length
  · refine iff_of_false ?_ (not_lt.mpr (by simpa [init] using hge))
    intro hroom
    obtain ⟨s', out, hexec, -, hle⟩ := hroom pre hpre
    obtain ⟨hlen, hblock⟩ := hfull s' out hexec
    rw [hlen, hblock] at hle
    exact absurd hle (by decide)

/-- A hundred replies are too many. -/
theorem not_hasRoom : ¬ ∀ env rtable m fs, HasRoom env (init rtable m) fs := by
  intro h
  have hcount : (replies testEnv testRouter (List.replicate 100 (arpFrame 2 7 7))).length = 100 := by
    decide +kernel
  have hs : Small testRouter := small_init
  rcases small_or_full testEnv (List.replicate 100 (arpFrame 2 7 7)) hs with
    ⟨hlt, -⟩ | ⟨-, pre, hpre, hfull⟩
  · rw [hcount] at hlt
    exact absurd hlt (by decide)
  · obtain ⟨s', out, hexec, -, hle⟩ := h testEnv _ _ _ pre hpre
    obtain ⟨hlen, hblock⟩ := hfull s' out hexec
    rw [hlen, hblock] at hle
    exact absurd hle (by decide)

/-! ### The table as a cache -/

/-- The hardware address in the last ARP reply of an address. -/
def latest (ps : List Packet) (ip : UInt32) : Option Mac :=
  (ps.filter fun p => p.etherType = ETHERTYPE_ARP ∧ p.arpOp = ARPOP_REPLY ∧
    p.arpSpa = ip).getLast?.map (·.arpSha)

/-- **The table is a cache of the ARP replies** along a run. -/
structure CacheMeans (env : Env) (s : Router) (fs : List Frame) : Prop where
  /-- Each address has at most one entry, and a lookup gives what its last reply said. -/
  lookup : ∀ pre, pre <+: fs → ∃ s' out, Run.exec (step env) s pre = some (s', out) ∧
    (s'.arpTable.map (·.ip)).Nodup ∧
    ∀ ip, (s'.getArpEntry ip).map (·.map (·.mac)) = some (latest (received env s pre) ip)
  /-- Other ARP packets change neither the table nor the queue. -/
  inert : ∀ x ∈ Run.visited (step env) s fs, (getPacket x.1.m x.2).etherType = ETHERTYPE_ARP →
    (getPacket x.1.m x.2).arpOp ≠ ARPOP_REPLY → ∃ s' out, step env x.1 x.2 = some (s', out) ∧
      s'.arpTable = x.1.arpTable ∧ s'.packets = x.1.packets

/-- An ARP request changes neither the table nor the queue. -/
lemma step_inert (h : step env s f = some (s', out))
    (harp : (getPacket s.m f).etherType = ETHERTYPE_ARP) (hr : ¬ (getPacket s.m f).IsReply) :
    s'.arpTable = s.arpTable ∧ s'.packets = s.packets := by
  rcases step_cases h with ⟨-, m, rfl⟩ | ⟨hip, -⟩ | ⟨hr', -⟩ | ⟨hr', -⟩
  · exact ⟨rfl, rfl⟩
  · rw [harp] at hip
    cases hip
  · exact absurd hr' hr
  · exact absurd hr' hr

/-- There are more addresses than entries in a full table. -/
lemma exists_ip_not_mem {es : List ArpTableEntry} (h : es.length ≤ ARP_MAXSIZE) :
    ∃ ip, ∀ e ∈ es, ip ≠ e.ip := by
  by_contra hall
  push Not at hall
  have hsub : (List.range 101).map UInt32.ofNat ⊆ es.map (·.ip) := by
    intro ip _
    obtain ⟨e, he, hip⟩ := hall ip
    exact hip ▸ List.mem_map_of_mem he
  have hnodup : ((List.range 101).map UInt32.ofNat).Nodup := by
    apply List.Nodup.map_on _ List.nodup_range
    intro i hi j hj he
    rw [List.mem_range] at hi hj
    have hnat := congrArg UInt32.toNat he
    rw [UInt32.toNat_ofNat', UInt32.toNat_ofNat'] at hnat
    omega
  have hlen := (List.subperm_of_subset hnodup hsub).length_le
  simp only [List.length_map, List.length_range] at hlen
  exact absurd (hlen.trans h) (by decide)

/-- In a full table some lookup leaves the block. -/
lemma Full.exists_getArpEntry_eq_none (hs : Full s) : ∃ ip, s.getArpEntry ip = none := by
  obtain ⟨ip, hip⟩ := exists_ip_not_mem hs.length.le
  refine ⟨ip, ?_⟩
  apply findArp_of_lt
  · rw [hs.arpBlock, hs.length]
    decide
  · exact Nat.zero_le _
  · exact hip

/-- With different senders, the last reply of an address is the first one. -/
lemma getLast?_filter_eq {ps : List Packet} (hnodup : (ps.map (·.arpSpa)).Nodup) (ip : UInt32) :
    (ps.filter fun p => p.arpSpa = ip).getLast? = ps.find? fun p => ip = p.arpSpa := by
  induction ps with
  | nil => rfl
  | cons p ps ih =>
    rw [List.map_cons, List.nodup_cons] at hnodup
    by_cases hp : p.arpSpa = ip
    · have hnone : (ps.filter fun p => p.arpSpa = ip) = [] := by
        apply List.filter_eq_nil_iff.mpr
        intro q hq hip
        rw [decide_eq_true_eq, ← hp] at hip
        exact hnodup.1 (hip ▸ List.mem_map_of_mem hq)
      rw [List.filter_cons_of_pos (by simpa using hp), hnone, List.find?_cons_of_pos (by simp [hp])]
      rfl
    · have hp' : ¬ ip = p.arpSpa := fun h => hp h.symm
      rw [List.filter_cons_of_neg (by simpa using hp), ih hnodup.2,
        List.find?_cons_of_neg (by simpa using hp')]

lemma replies_prefix {pre : List Frame} (h : Run.exec (step env) s pre = some (s', out))
    (hpre : pre <+: fs) : replies env s pre <+: replies env s fs :=
  ((Run.prefix_visited h hpre).map _).filter _

/-- What the entries of the replies answer, when all of them are replies of different senders. -/
lemma find?_arpEntry {ps : List Packet} (ip : UInt32)
    (hops : ∀ p ∈ ps, p.IsReply → p.arpOp = ARPOP_REPLY)
    (hnodup : ((ps.filter fun p => p.IsReply).map (·.arpSpa)).Nodup) :
    ((((ps.filter fun p => p.IsReply).map Packet.arpEntry).find? fun e => ip = e.ip).map (·.mac)) =
      latest ps ip := by
  have hfilter : (ps.filter fun p => p.etherType = ETHERTYPE_ARP ∧ p.arpOp = ARPOP_REPLY ∧
      p.arpSpa = ip) = (ps.filter fun p => p.IsReply).filter fun p => p.arpSpa = ip := by
    rw [List.filter_filter]
    apply List.filter_congr
    intro p hp
    rw [← Bool.decide_and, decide_eq_decide]
    constructor
    · rintro ⟨h1, h2, h3⟩
      exact ⟨h3, h1, by rw [h2]; decide⟩
    · rintro ⟨h3, hr⟩
      exact ⟨hr.1, hops p hp hr, h3⟩
  rw [latest, hfilter, getLast?_filter_eq hnodup, List.find?_map, Option.map_map]
  rfl

/-- With the entries of replies of different senders, the table is a cache. -/
lemma lookup_of_nodup {pre : List Frame} (hsmall : Small s')
    (htable : s'.arpTable = (replies env s pre).map Packet.arpEntry)
    (hops : ∀ p ∈ replies env s pre, p.arpOp = ARPOP_REPLY)
    (hnodup : ((replies env s pre).map (·.arpSpa)).Nodup) : (s'.arpTable.map (·.ip)).Nodup ∧
      ∀ ip, (s'.getArpEntry ip).map (·.map (·.mac)) = some (latest (received env s pre) ip) := by
  have hreply : ∀ p ∈ received env s pre, p.IsReply → p.arpOp = ARPOP_REPLY := by
    intro p hp hr
    exact hops p (List.mem_filter.mpr ⟨hp, by simpa⟩)
  constructor
  · rwa [htable, List.map_map]
  · intro ip
    rw [getArpEntry_of_le hsmall.entries_le, htable, Option.map_some,
      ← find?_arpEntry ip hreply hnodup]
    rfl

/-- What is handled as a reply is one, when other ARP packets are inert. -/
lemma CacheMeans.arpOp_eq (hc : CacheMeans env s fs) : ∀ p ∈ replies env s fs,
    p.arpOp = ARPOP_REPLY := by
  intro p hp
  obtain ⟨hmem, hr⟩ := List.mem_filter.mp hp
  obtain ⟨x, hx, rfl⟩ := List.mem_map.mp hmem
  rw [decide_eq_true_eq] at hr
  by_contra hop
  obtain ⟨s', out, hstep, htab, -⟩ := hc.inert x hx hr.1 hop
  have htab' := (step_tables hstep).2
  rw [if_pos hr, htab] at htab'
  simpa using congrArg List.length htab'.1

/-- **The table is a cache of the ARP replies along a run exactly when what is handled as replies
are replies, of different senders, and fewer than `ARP_MAXSIZE`.** -/
theorem cacheMeans_iff (env : Env) (rtable : List RouteTableEntry) (m : Packet)
    (fs : List Frame) : CacheMeans env (init rtable m) fs ↔
      (∀ p ∈ replies env (init rtable m) fs, p.arpOp = ARPOP_REPLY) ∧
      ((replies env (init rtable m) fs).map (·.arpSpa)).Nodup ∧
      (replies env (init rtable m) fs).length < ARP_MAXSIZE := by
  have hempty : (init rtable m).arpTable = [] := rfl
  have hs : Small (init rtable m) := small_init
  rcases small_or_full env fs hs with ⟨hlt, hrun⟩ | ⟨hge, pre, hpre, hfull⟩
  · rw [hempty, List.length_nil, Nat.zero_add] at hlt
    simp only [hempty, List.nil_append] at hrun
    constructor
    · intro hc
      refine ⟨hc.arpOp_eq, ?_, hlt⟩
      obtain ⟨s', out, hexec, hnodup, -⟩ := hc.lookup fs (List.prefix_refl _)
      obtain ⟨t, o, hexec', -, htable⟩ := hrun fs (List.prefix_refl _)
      rw [hexec] at hexec'
      cases hexec'
      rwa [htable, List.map_map] at hnodup
    · rintro ⟨hops, hnodup, -⟩
      constructor
      case lookup =>
        intro pre hpre
        obtain ⟨s', out, hexec, hsmall, htable⟩ := hrun pre hpre
        have hsub := replies_prefix hexec hpre
        have hnodup' := (hsub.map (·.arpSpa)).sublist.nodup hnodup
        refine ⟨s', out, hexec, lookup_of_nodup hsmall htable ?_ hnodup'⟩
        intro p hp
        exact hops p (hsub.subset hp)
      case inert =>
        intro x hx harp hop
        obtain ⟨pre, out, hpre, hexec⟩ := Run.exists_prefix_of_mem_visited hx
        obtain ⟨t, o, hexec', -⟩ := hrun _ hpre
        obtain ⟨s₁, o₁, o₂, h₁, hstep, -⟩ := Run.exec_snoc_eq_some hexec'
        rw [hexec] at h₁
        cases h₁
        refine ⟨t, o₂, hstep, step_inert hstep harp fun hr => hop (hops _ ?_)⟩
        exact List.mem_filter.mpr ⟨List.mem_map_of_mem hx, by simpa⟩
  · rw [hempty, List.length_nil, Nat.zero_add] at hge
    refine iff_of_false ?_ fun h => absurd h.2.2 (not_lt.mpr hge)
    intro hc
    obtain ⟨s', out, hexec, -, hlook⟩ := hc.lookup pre hpre
    obtain ⟨ip, hnone⟩ := (hfull s' out hexec).exists_getArpEntry_eq_none
    have := hlook ip
    rw [hnone] at this
    cases this

/-- A second reply of an address is entered, and not looked at. -/
theorem not_cacheMeans : ¬ ∀ env rtable m fs, CacheMeans env (init rtable m) fs := by
  intro h
  obtain ⟨s', out, hexec, hnodup, -⟩ := (h testEnv testRouter.rtable testRouter.m
    [arpFrame 2 7 7, arpFrame 2 7 8]).lookup _ (List.prefix_refl _)
  have hips : (Run.exec (step testEnv) testRouter [arpFrame 2 7 7, arpFrame 2 7 8]).map
      (fun r => r.1.arpTable.map (·.ip)) = some [le32 10 0 1 7, le32 10 0 1 7] := by decide +kernel
  have hexec' : Run.exec (step testEnv) testRouter [arpFrame 2 7 7, arpFrame 2 7 8] =
    some (s', out) := hexec
  rw [hexec', Option.map_some, Option.some.injEq] at hips
  rw [hips] at hnodup
  exact absurd hnodup (by decide)

end Router

end Protocoale.Tema1

import Protocoale.Tema1.Forward

/-!
One iteration of the main loop, taken apart: an iteration leaves the tables and the queue alone,
forwards the packet received, or enters the sender of an ARP packet in the table and forwards the
first packet of the queue (`step_cases`).
-/

namespace Protocoale.Tema1

open Lib Lib.Bytes

/-- The packet is handled as an ARP reply. -/
def Packet.IsReply (p : Packet) : Prop := p.etherType = ETHERTYPE_ARP ∧ p.arpOp ≠ ARPOP_REQUEST

instance (p : Packet) : Decidable p.IsReply := inferInstanceAs (Decidable (_ ∧ _))

lemma Packet.not_isReply {p : Packet} (h : p.etherType = ETHERTYPE_IP) : ¬ p.IsReply := by
  intro hr
  rw [hr.1] at h
  cases h

/-- The entry an ARP reply makes. -/
def Packet.arpEntry (p : Packet) : ArpTableEntry := { ip := p.arpSpa, mac := p.arpSha }

namespace Router

variable {env : Env} {s s' : Router} {f : Frame} {fs : List Frame} {out : List Sent}

/-- **The outcomes of one iteration.** -/
theorem step_cases (h : step env s f = some (s', out)) :
    (¬ (getPacket s.m f).IsReply ∧ ∃ m, s' = { s with m }) ∨
    ((getPacket s.m f).etherType = ETHERTYPE_IP ∧ ∃ r m', s' = { r with m := m' } ∧
      forwardPacket env { s with m := getPacket s.m f } (getPacket s.m f) = some (r, m', out)) ∨
    ((getPacket s.m f).IsReply ∧ out = [] ∧ s'.packets = [] ∧
      addArpEntry { s with m := getPacket s.m f } (getPacket s.m f).arpEntry = some s') ∨
    ((getPacket s.m f).IsReply ∧ ∃ r toSend packets m', r.packets = toSend :: packets ∧
      addArpEntry { s with m := getPacket s.m f } (getPacket s.m f).arpEntry = some r ∧
      forwardPacket env { r with packets } toSend = some (s', m', out)) := by
  unfold step at h
  dsimp only at h
  split at h
  · next hip =>
    have hnot := Packet.not_isReply hip
    unfold handleIp at h
    split at h
    · split at h
      · cases h
        exact Or.inl ⟨hnot, _, rfl⟩
      · cases h
        exact Or.inl ⟨hnot, _, rfl⟩
    · obtain ⟨⟨r, m', out'⟩, hr, he⟩ := Option.map_eq_some_iff.mp h
      cases he
      exact Or.inr (Or.inl ⟨hip, r, m', rfl, hr⟩)
  · split at h
    · next harp =>
      split at h
      · next hop =>
        have hnot : ¬ (getPacket s.m f).IsReply := fun hr => hr.2 hop
        unfold handleArpRequest at h
        split at h
        · cases h
          exact Or.inl ⟨hnot, _, rfl⟩
        · cases h
          exact Or.inl ⟨hnot, _, rfl⟩
      · next hop =>
        refine Or.inr (Or.inr ?_)
        obtain ⟨r, hr, hq⟩ := Option.bind_eq_some_iff.mp h
        cases hp : r.packets with
        | nil =>
          rw [hp] at hq
          cases hq
          exact Or.inl ⟨⟨harp, hop⟩, rfl, hp, hr⟩
        | cons toSend packets =>
          rw [hp] at hq
          obtain ⟨⟨t, m', out'⟩, ht, he⟩ := Option.map_eq_some_iff.mp hq
          cases he
          exact Or.inr ⟨⟨harp, hop⟩, r, toSend, packets, m', hp, hr, ht⟩
    · next hip harp =>
      cases h
      exact Or.inl ⟨fun hr => harp hr.1, _, rfl⟩

/-! ### What does not change -/

/-- Two routers with the same tables. -/
structure SameTables (s s' : Router) : Prop where
  rtable : s'.rtable = s.rtable
  arpTable : s'.arpTable = s.arpTable
  arpMaxSize : s'.arpMaxSize = s.arpMaxSize
  arpBlock : s'.arpBlock = s.arpBlock

/-- Forwarding a packet adds at most that packet to the queue and changes no table. -/
lemma forwardPacket_tables {m m' : Packet} (h : forwardPacket env s m = some (s', m', out)) :
    SameTables s s' ∧ (s'.packets = s.packets ∨
      s'.packets = s.packets ++ [updateHdr m] ∧ ¬ m.ttl ≤ 1 ∧ ∃ route, s.bestRoute m = some route) := by
  rcases forwardPacket_cases h with ⟨-, rfl, -⟩ | ⟨-, -, rfl, -⟩ | ⟨-, -, -, rfl, -⟩ |
    ⟨-, httl, route, hroute, -, rfl, -⟩ | ⟨-, -, _, _, -, -, rfl, -⟩
  · exact ⟨⟨rfl, rfl, rfl, rfl⟩, Or.inl rfl⟩
  · exact ⟨⟨rfl, rfl, rfl, rfl⟩, Or.inl rfl⟩
  · exact ⟨⟨rfl, rfl, rfl, rfl⟩, Or.inl rfl⟩
  · exact ⟨⟨rfl, rfl, rfl, rfl⟩, Or.inr ⟨rfl, httl, route, hroute⟩⟩
  · exact ⟨⟨rfl, rfl, rfl, rfl⟩, Or.inl rfl⟩

/-- A new entry is written inside the block; the block changes when the table is full. -/
lemma addArpEntry_spec {e : ArpTableEntry} (h : addArpEntry s e = some s') :
    arpEntrySize * (s.arpTable.length + 1) ≤ s.arpBlock ∧ s'.arpTable = s.arpTable ++ [e] ∧
      s'.rtable = s.rtable ∧ s'.packets = s.packets ∧
      s'.arpMaxSize = (if s.arpTable.length + 1 = s.arpMaxSize then s.arpMaxSize * 2
        else s.arpMaxSize) ∧
      s'.arpBlock = if s.arpTable.length + 1 = s.arpMaxSize then s.arpMaxSize * 2
        else s.arpBlock := by
  unfold addArpEntry at h
  split at h
  · cases h
  · next hroom =>
    simp only [List.length_append, List.length_singleton] at h
    split at h
    · next hfull =>
      cases h
      exact ⟨not_lt.mp hroom, rfl, rfl, rfl, (if_pos hfull).symm, (if_pos hfull).symm⟩
    · next hfull =>
      cases h
      exact ⟨not_lt.mp hroom, rfl, rfl, rfl, (if_neg hfull).symm, (if_neg hfull).symm⟩

/-- **What an iteration does to the tables.** -/
theorem step_tables (h : step env s f = some (s', out)) : s'.rtable = s.rtable ∧
    if (getPacket s.m f).IsReply then
      s'.arpTable = s.arpTable ++ [(getPacket s.m f).arpEntry] ∧
      s'.arpMaxSize = (if s.arpTable.length + 1 = s.arpMaxSize then s.arpMaxSize * 2
        else s.arpMaxSize) ∧
      s'.arpBlock = if s.arpTable.length + 1 = s.arpMaxSize then s.arpMaxSize * 2
        else s.arpBlock
    else s'.arpTable = s.arpTable ∧ s'.arpMaxSize = s.arpMaxSize ∧ s'.arpBlock = s.arpBlock := by
  rcases step_cases h with ⟨hr, m, rfl⟩ | ⟨hip, r, m', rfl, hf⟩ | ⟨hr, -, -, ha⟩ |
    ⟨hr, r, toSend, packets, m', -, ha, hf⟩
  · rw [if_neg hr]
    exact ⟨rfl, rfl, rfl, rfl⟩
  · rw [if_neg (Packet.not_isReply hip)]
    obtain ⟨h1, h2, h3, h4⟩ := (forwardPacket_tables hf).1
    exact ⟨h1, h2, h3, h4⟩
  · rw [if_pos hr]
    obtain ⟨-, h1, h2, -, h3, h4⟩ := addArpEntry_spec ha
    exact ⟨h2, h1, h3, h4⟩
  · rw [if_pos hr]
    obtain ⟨-, h1, h2, -, h3, h4⟩ := addArpEntry_spec ha
    obtain ⟨g1, g2, g3, g4⟩ := (forwardPacket_tables hf).1
    exact ⟨g1.trans h2, g2.trans h1, g3.trans h3, g4.trans h4⟩

/-! ### What was received -/

/-- The packets received along a run, as the main loop finds them in its buffer. -/
def received (env : Env) (s : Router) (fs : List Frame) : List Packet :=
  (Run.visited (step env) s fs).map fun x => getPacket x.1.m x.2

/-- Those that are handled as ARP replies. -/
def replies (env : Env) (s : Router) (fs : List Frame) : List Packet :=
  (received env s fs).filter fun p => p.IsReply

lemma replies_cons (h : step env s f = some (s', out)) : replies env s (f :: fs) =
    if (getPacket s.m f).IsReply then getPacket s.m f :: replies env s' fs
    else replies env s' fs := by
  unfold replies received
  rw [Run.visited_cons h, List.map_cons, List.filter_cons]
  simp only [decide_eq_true_eq]

end Router

end Protocoale.Tema1

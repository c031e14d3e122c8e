import Protocoale.Tema1.Steps

/-!
Where the router takes the IP header to end. The source has `sizeof(struct iphdr)` wherever a header
length is needed and never looks at the header length field: the checksum that is verified, the one
that is stored, and the place of the ICMP header are those of a header of 20 bytes, also when options
follow (`headerLength_twenty`).
-/

namespace Protocoale.Tema1

open Lib.Bytes Lib.Ones

namespace Router

variable {env : Env} {s s' : Router} {f : Frame} {out : List Sent} {x : Sent}

/-- The sum of the words is zero, as ones' complement knows it: with the checksum in its field, the
header verifies. -/
def Verifies (hdr : List UInt8) : Prop := rep (wordSum hdr) = 65535

instance (hdr : List UInt8) : Decidable (Verifies hdr) := inferInstanceAs (Decidable (_ = _))

/-- An IP packet received in `f` is handled as one whose header has `n` bytes. -/
structure HeaderLength (env : Env) (s : Router) (f : Frame) (n : ℕ) : Prop where
  /-- What is to be forwarded is dropped when the header does not verify, and only then. -/
  drops : icmpForMe env (getPacket s.m f) = false →
    ((∃ m, step env s f = some ({ s with m }, [])) ↔
      ¬ Verifies (read (getPacket s.m f).payload 14 n))
  /-- The header verifies in the frame that is forwarded. -/
  forwards : ∀ s' out x, step env s f = some (s', out) → x ∈ out → x.via = .forwardPacket →
    Verifies ((x.data.drop 14).take n)
  /-- It verifies in the packet that is put in the queue. -/
  parks : ∀ s' out q, step env s f = some (s', out) → s'.packets = s.packets ++ [q] →
    Verifies (read q.payload 14 n)
  /-- The ICMP header of a packet for the router itself comes right after it. -/
  inspects : icmpForMe env (getPacket s.m f) = true →
    let m := getPacket s.m f
    step env s f = some ({ s with m },
      if m.payload (14 + n) = ICMP_ECHO then
        [sendIcmp m.saddr m.daddr m.etherDhost m.etherShost ICMP_ECHOREPLY 0 m.interface
          (read m.payload (14 + n + 4) 4)]
      else [])

lemma step_ip (hip : (getPacket s.m f).etherType = ETHERTYPE_IP) :
    step env s f = handleIp env { s with m := getPacket s.m f } := if_pos hip

/-- A packet for the router itself. -/
lemma step_icmpForMe (hip : (getPacket s.m f).etherType = ETHERTYPE_IP)
    (hme : icmpForMe env (getPacket s.m f) = true) :
    let m := getPacket s.m f
    step env s f = some ({ s with m },
      if m.icmpType = ICMP_ECHO then
        [sendIcmp m.saddr m.daddr m.etherDhost m.etherShost ICMP_ECHOREPLY 0 m.interface m.icmpEcho]
      else []) := by
  rw [step_ip hip, handleIp]
  dsimp only
  rw [if_pos hme]
  split <;> rfl

/-- Any other packet goes to `forward_packet`. -/
lemma step_forward (hip : (getPacket s.m f).etherType = ETHERTYPE_IP)
    (hme : icmpForMe env (getPacket s.m f) = false) : step env s f =
      (forwardPacket env { s with m := getPacket s.m f } (getPacket s.m f)).map
        fun r => ({ r.1 with m := r.2.1 }, r.2.2) := by
  rw [step_ip hip, handleIp]
  dsimp only
  rw [if_neg (by simp [hme])]

/-- It is dropped there when its header does not verify. -/
lemma step_drop (hip : (getPacket s.m f).etherType = ETHERTYPE_IP)
    (hme : icmpForMe env (getPacket s.m f) = false)
    (hck : ipChecksum ipHdrAddr (getPacket s.m f).ipHdr ≠ 0) :
    step env s f = some ({ s with m := getPacket s.m f }, []) := by
  rw [step_forward hip hme, forwardPacket, if_pos hck]
  rfl

lemma verifies_iff (addr : ℕ) {hdr : List UInt8} : Verifies hdr ↔ ipChecksum addr hdr = 0 :=
  ipChecksum_eq_zero_iff.symm

/-- `forward_packet` sends nothing only when the first 20 bytes of the header do not verify. -/
lemma not_verifies_of_nil {m m' : Packet} (h : forwardPacket env s m = some (s', m', [])) :
    ¬ Verifies m.ipHdr := by
  rw [verifies_iff ipHdrAddr]
  rcases forwardPacket_cases h with ⟨hck, -⟩ | ⟨-, -, -, -, hout⟩ | ⟨-, -, -, -, -, hout⟩ |
    ⟨-, -, _, -, -, -, -, hout⟩ | ⟨-, -, _, _, -, -, -, -, hout⟩
  · exact hck
  · cases hout
  · cases hout
  · cases hout
  · cases hout

/-- What an iteration forwards or parks of the packet it received. -/
lemma step_forward_some (hip : (getPacket s.m f).etherType = ETHERTYPE_IP)
    (h : step env s f = some (s', out)) :
    (icmpForMe env (getPacket s.m f) = true ∧ s'.packets = s.packets ∧
      ∀ x ∈ out, x.via = .sendIcmp) ∨
    ∃ r m', s' = { r with m := m' } ∧
      forwardPacket env { s with m := getPacket s.m f } (getPacket s.m f) = some (r, m', out) := by
  cases hme : icmpForMe env (getPacket s.m f) with
  | true =>
    rw [step_icmpForMe hip hme] at h
    cases h
    refine Or.inl ⟨rfl, rfl, ?_⟩
    intro x hx
    split at hx
    · rw [List.mem_singleton.mp hx]
      rfl
    · cases hx
  | false =>
    rw [step_forward hip hme] at h
    obtain ⟨⟨r, m', out'⟩, hr, he⟩ := Option.map_eq_some_iff.mp h
    cases he
    exact Or.inr ⟨r, m', rfl, hr⟩

/-- **Every IP packet is handled as one with a header of 20 bytes**, whatever its header length
field says. -/
theorem headerLength_twenty (hip : (getPacket s.m f).etherType = ETHERTYPE_IP)
    (hlen : 34 ≤ f.data.length) : HeaderLength env s f 20 := by
  have hplen : 34 ≤ (getPacket s.m f).len := by
    show 34 ≤ (f.data.take MAX_LEN).length
    rw [List.length_take]
    exact le_min (by decide) hlen
  constructor
  case drops =>
    intro hme
    constructor
    · rintro ⟨m, h⟩
      rw [step_forward hip hme] at h
      obtain ⟨⟨r, m', out'⟩, hr, he⟩ := Option.map_eq_some_iff.mp h
      obtain rfl : out' = [] := congrArg Prod.snd he
      exact not_verifies_of_nil hr
    · intro hck
      exact ⟨_, step_drop hip hme fun h0 => hck ((verifies_iff ipHdrAddr).mpr h0)⟩
  case forwards =>
    intro s' out x h hx hvia
    rcases step_forward_some hip h with ⟨-, -, hout⟩ | ⟨r, m', -, hf⟩
    · rw [hout x hx] at hvia
      cases hvia
    · obtain ⟨-, route, entry, -, -, rfl⟩ := forwardPacket_sent hf hx hvia
      exact (verifies_iff 0).mpr (sendPacket_verifies _ hplen 0)
  case parks =>
    intro s' out q h hq
    rcases step_forward_some hip h with ⟨-, hsame, -⟩ | ⟨r, m', rfl, hf⟩
    · rw [hsame] at hq
      simp at hq
    · rcases (forwardPacket_tables hf).2 with hsame | ⟨happ, -⟩
      · rw [show r.packets = s.packets from hsame] at hq
        simp at hq
      · have hqu : s.packets ++ [updateHdr (getPacket s.m f)] = s.packets ++ [q] := happ.symm.trans hq
        obtain rfl : updateHdr (getPacket s.m f) = q := by simpa using hqu
        exact (verifies_iff 0).mpr (updateHdr_verifies 0)
  case inspects =>
    intro hme
    exact step_icmpForMe hip hme

theorem headerLength_ipFrame : HeaderLength testEnv testRouter (ipFrame 64 7) 20 :=
  headerLength_twenty (by decide +kernel) (by decide)

/-- A packet to `10.0.1.7` whose header has 24 bytes, the last four of them an option. -/
def optionFrame : Frame where
  interface := 0
  data := [2, 0, 0, 0, 0, 1, 2, 0, 0, 0, 0, 2, 8, 0, 0x46, 0, 0, 24, 0, 0, 0, 0, 64, 17, 208, 201,
    10, 0, 0, 1, 10, 0, 1, 7, 148, 4, 0, 0]

/-- The header verifies over its 24 bytes, and the packet is dropped. -/
theorem not_headerLength : Verifies ((optionFrame.data.drop 14).take (4 * 6)) ∧
    ∃ m, step testEnv testRouter optionFrame = some ({ testRouter with m }, []) := by
  refine ⟨rfl, _, step_drop ?_ ?_ ?_⟩
  · decide +kernel
  · decide +kernel
  · decide +kernel

end Router

end Protocoale.Tema1

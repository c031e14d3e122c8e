import Protocoale.Lab05.Icmp

/-!
What ping and traceroute send and print, whatever arrives. The requests are echo requests with two
checksums that verify (`echoFrame_isRequest`). The replies are the relevant frames in their order,
whatever was on the stack and whatever request they answer, if any: `ping` prints one line for each as
far as its count goes (`ping_lines`), `traceroute` up to the first echo reply, and 64 at most
(`traceroute_hops`).
-/

namespace Protocoale.Lab05

open Lib Lib.Bytes Lib.Session
open Tema1 (Mac bytes16 htons ipChecksum load32 ETHERTYPE_IP IPPROTO_ICMP ICMP_ECHO ICMP_ECHOREPLY
  ipChecksum_verifies)

variable {env : Env} {ipAddr : UInt32} {request : Request} {pkt reply : Packet} {frame : List UInt8}
  {frames : List (List UInt8)} {rs : List (Request × Packet)} {stack : ℕ → Packet}

/-! ### The frames that are sent -/

def ethHdr (env : Env) : List UInt8 :=
  env.gatewayMac.toList ++ env.mac.toList ++ bytes16 (htons ETHERTYPE_IP)

/-- The IP header of a request with a checksum. -/
def ipHdr (env : Env) (ipAddr : UInt32) (ttl : UInt8) (check : ℕ) : List UInt8 :=
  [0x45, 0] ++ bytes16 (htons 28) ++ [0, 0, 0, 0, ttl, IPPROTO_ICMP] ++ bytes16 check ++
    bytes32 env.ip ++ bytes32 ipAddr

def icmpHdr (id sequence check : ℕ) : List UInt8 :=
  [ICMP_ECHO, 0] ++ bytes16 check ++ bytes16 id ++ bytes16 (htons sequence)

lemma ipHdr_eq (ttl : UInt8) (check : ℕ) : ipHdr env ipAddr ttl check =
    ([0x45, 0] ++ bytes16 (htons 28) ++ [0, 0, 0, 0, ttl, IPPROTO_ICMP]) ++
      (bytes16 check ++ (bytes32 env.ip ++ bytes32 ipAddr)) := by
  simp only [ipHdr, List.append_assoc]

lemma icmpHdr_eq (id sequence check : ℕ) : icmpHdr id sequence check =
    [ICMP_ECHO, 0] ++ (bytes16 check ++ (bytes16 id ++ bytes16 (htons sequence))) := by
  simp only [icmpHdr, List.append_assoc]

/-- The frame of a request. -/
def echoFrame (env : Env) (ipAddr : UInt32) (request : Request) : List UInt8 :=
  ethHdr env ++ ipHdr env ipAddr request.ttl (ipChecksum 14 (ipHdr env ipAddr request.ttl 0)) ++
    icmpHdr request.id request.sequence (ipChecksum 34 (icmpHdr request.id request.sequence 0))

/-- A packet with the Ethernet header of the requests and nothing in the fields that stay zero. -/
structure Prepared (env : Env) (pkt : Packet) : Prop where
  ether : read pkt.payload 0 14 = ethHdr env
  zeros : read pkt.payload 18 4 = [0, 0, 0, 0]

lemma prepared_first : Prepared env (firstPacket env) := by
  have hmac (mac : Mac) : mac.toList.length = 6 := Vector.length_toList
  have hether : initEthHdr env initPacket.payload = write initPacket.payload 0 (ethHdr env) := by
    rw [ethHdr, ← write_append, ← write_append, List.length_append, hmac, hmac]
    rfl
  have hlen : (ethHdr env).length = 14 := by simp [ethHdr, bytes16]
  constructor
  · rw [firstPacket, hether, ← hlen, read_write_self]
  · rw [firstPacket, hether, read_write_disjoint (.inr (by omega))]
    rfl

/-- The IP header of a request is written over the one before. -/
lemma read_ipFields {b : Buf} (h : read b 18 4 = [0, 0, 0, 0]) (ttl : UInt8) :
    read (ipFields env ipAddr ttl b) 14 20 = ipHdr env ipAddr ttl 0 := by
  simp only [Bytes.read, List.range_succ, List.range_zero, List.nil_append, List.map_cons, List.map_nil,
    List.cons_append, List.cons.injEq, and_true] at h
  obtain ⟨h0, h1, h2, h3⟩ := h
  simp [ipFields, Bytes.read, List.range_succ, Bytes.write, bytes16, bytes32, ipHdr, h0, h1, h2, h3]

lemma read_icmpFields (b : Buf) (id sequence : ℕ) :
    read (icmpFields id sequence b) 34 8 = icmpHdr id sequence 0 := by
  simp [icmpFields, Bytes.read, List.range_succ, Bytes.write, bytes16, icmpHdr]

lemma read_write_ipFields {b : Buf} (h : read b 18 4 = [0, 0, 0, 0]) (ttl : UInt8) (check : ℕ) :
    read (write (ipFields env ipAddr ttl b) 24 (bytes16 check)) 14 20 = ipHdr env ipAddr ttl check := by
  rw [ipHdr_eq ttl check]
  exact read_write_field ((read_ipFields h ttl).trans (ipHdr_eq ttl 0)) rfl

lemma read_write_icmpFields (b : Buf) (id sequence check : ℕ) :
    read (write (icmpFields id sequence b) 36 (bytes16 check)) 34 8 = icmpHdr id sequence check := by
  rw [icmpHdr_eq id sequence check]
  exact read_write_field ((read_icmpFields b id sequence).trans (icmpHdr_eq id sequence 0)) rfl

lemma read_setIpHdr {b : Buf} (h : read b 18 4 = [0, 0, 0, 0]) (ttl : UInt8) :
    read (setIpHdr env ipAddr ttl b) 14 20 =
      ipHdr env ipAddr ttl (ipChecksum 14 (ipHdr env ipAddr ttl 0)) := by
  rw [setIpHdr, read_ipFields h, read_write_ipFields h]

lemma read_setIcmpHdr (b : Buf) (id sequence : ℕ) : read (setIcmpHdr id sequence b) 34 8 =
    icmpHdr id sequence (ipChecksum 34 (icmpHdr id sequence 0)) := by
  rw [setIcmpHdr, read_icmpFields, read_write_icmpFields]

/-- The headers leave alone what is before them. -/
lemma setHdrs_payload {i : ℕ} (h : i < 14 ∨ 18 ≤ i ∧ i < 22) :
    (setHdrs env ipAddr request pkt).payload i = pkt.payload i := by
  simp only [setHdrs, setIcmpHdr, icmpFields, setIpHdr, ipFields, Bytes.write, bytes16, bytes32, List.length_cons, List.length_nil]
  repeat rw [if_neg (by omega)]

lemma Prepared.setHdrs (h : Prepared env pkt) : Prepared env (setHdrs env ipAddr request pkt) := by
  constructor
  · rw [← h.ether]
    exact read_congr fun i _ hi => setHdrs_payload (by omega)
  · rw [← h.zeros]
    exact read_congr fun i hi hi' => setHdrs_payload (by omega)

/-- The frame sent. -/
lemma Prepared.sent (h : Prepared env pkt) :
    read (Lab05.setHdrs env ipAddr request pkt).payload 0 (Lab05.setHdrs env ipAddr request pkt).size =
      echoFrame env ipAddr request := by
  have hsplit (b : Buf) : read b 0 42 = read b 0 14 ++ read b 14 20 ++ read b 34 8 := by
    rw [← read_add, ← read_add]
  have hip : read (Lab05.setHdrs env ipAddr request pkt).payload 14 20 =
      read (setIpHdr env ipAddr request.ttl pkt.payload) 14 20 := by
    apply read_congr
    intro i hi hi'
    simp only [Lab05.setHdrs, setIcmpHdr, icmpFields, Bytes.write, bytes16, List.length_cons, List.length_nil]
    repeat rw [if_neg (by omega)]
  refine (hsplit _).trans ?_
  rw [h.setHdrs.ether, hip, read_setIpHdr h.zeros, echoFrame, ← read_setIcmpHdr]
  rfl

/-- An echo request: what a receiver checks and reads. -/
structure IsRequest (env : Env) (ipAddr : UInt32) (request : Request) (data : List UInt8) : Prop where
  length : data.length = 42
  ether : data.take 14 = ethHdr env
  ip_verifies : ∀ addr, ipChecksum addr ((data.drop 14).take 20) = 0
  icmp_verifies : ∀ addr, ipChecksum addr (data.drop 34) = 0
  version_ihl : data[14]? = some 0x45
  tot_len : (data.drop 16).take 2 = bytes16 (htons 28)
  ttl : data[22]? = some request.ttl
  protocol : data[23]? = some IPPROTO_ICMP
  saddr : (data.drop 26).take 4 = bytes32 env.ip
  daddr : (data.drop 30).take 4 = bytes32 ipAddr
  type : data[34]? = some ICMP_ECHO
  code : data[35]? = some 0
  id : (data.drop 38).take 2 = bytes16 request.id
  sequence : data.drop 40 = bytes16 (htons request.sequence)

theorem echoFrame_isRequest : IsRequest env ipAddr request (echoFrame env ipAddr request) := by
  have hlen : (ethHdr env).length = 14 := by simp [ethHdr, bytes16]
  have hip : (echoFrame env ipAddr request).drop 14 =
      ipHdr env ipAddr request.ttl (ipChecksum 14 (ipHdr env ipAddr request.ttl 0)) ++
        icmpHdr request.id request.sequence (ipChecksum 34 (icmpHdr request.id request.sequence 0)) := by
    rw [echoFrame, List.append_assoc, List.drop_left' hlen]
  have hiplen (check : ℕ) : (ipHdr env ipAddr request.ttl check).length = 20 := rfl
  have hicmp : (echoFrame env ipAddr request).drop 34 =
      icmpHdr request.id request.sequence (ipChecksum 34 (icmpHdr request.id request.sequence 0)) := by
    refine (List.drop_drop (i := 20) (j := 14)).symm.trans ?_
    rw [hip, List.drop_left' (hiplen _)]
  have hat (k i : ℕ) : (echoFrame env ipAddr request)[k + i]? = ((echoFrame env ipAddr request).drop k)[i]? :=
    List.getElem?_drop.symm
  constructor
  · rw [echoFrame, List.append_assoc, List.length_append, hlen]
    rfl
  · rw [echoFrame, List.append_assoc, List.take_left' hlen]
  · intro addr
    rw [hip, List.take_left' (hiplen _), ipHdr_eq, ipHdr_eq]
    exact ipChecksum_verifies _ _ (by simp [bytes16]) addr 14
  · intro addr
    rw [hicmp, icmpHdr_eq, icmpHdr_eq]
    exact ipChecksum_verifies _ _ rfl addr 34
  · exact (hat 14 0).trans (by rw [hip]; rfl)
  · rw [show 16 = 14 + 2 from rfl, ← List.drop_drop, hip]
    rfl
  · exact (hat 14 8).trans (by rw [hip]; rfl)
  · exact (hat 14 9).trans (by rw [hip]; rfl)
  · rw [show 26 = 14 + 12 from rfl, ← List.drop_drop, hip]
    rfl
  · rw [show 30 = 14 + 16 from rfl, ← List.drop_drop, hip]
    rfl
  · exact (hat 34 0).trans (by rw [hicmp]; rfl)
  · exact (hat 34 1).trans (by rw [hicmp]; rfl)
  · rw [show 38 = 34 + 4 from rfl, ← List.drop_drop, hicmp]
    rfl
  · rw [show 40 = 34 + 6 from rfl, ← List.drop_drop, hicmp]
    rfl

/-! ### The frames that are received -/

/-- A frame that `time_packet` takes for a reply. -/
def relevantFrame (env : Env) (frame : List UInt8) : Bool := relevantPacket env (recv initPacket frame)

/-- What is received is the frame, whatever the reply held. -/
lemma recv_payload {i : ℕ} (hlen : 42 ≤ frame.length) (hi : i < 42) :
    (recv reply frame).payload i = frame.getD i 0 := by
  have htake : i < (frame.take PACKET_LEN).length := by
    rw [List.length_take]
    exact lt_min (hi.trans (by decide)) (by omega)
  have happ : (recv reply frame).payload (0 + i) = (frame.take PACKET_LEN).getD i 0 := write_apply htake
  rw [Nat.zero_add, List.getD_eq_getElem _ _ htake, List.getElem_take] at happ
  rw [List.getD_eq_getElem _ _ (by omega), happ]

lemma relevantPacket_recv (hlen : 42 ≤ frame.length) :
    relevantPacket env (recv reply frame) = relevantFrame env frame := by
  have hread : read (recv reply frame).payload 0 6 = read (recv initPacket frame).payload 0 6 := by
    apply read_congr
    intro i _ hi
    rw [recv_payload hlen (by omega), recv_payload hlen (by omega)]
  unfold relevantFrame relevantPacket
  rw [hread]
  simp only [recv_payload hlen (show 12 < 42 by omega), recv_payload hlen (show 13 < 42 by omega),
    recv_payload hlen (show 23 < 42 by omega)]

/-- `time_packet` waits for the first relevant frame. -/
lemma timePacket_eq (reply : Packet) (hlen : ∀ f ∈ frames, 42 ≤ f.length) :
    (await (relevantFrame env) frames = none → timePacket env reply frames = none) ∧
    ∀ f rest, await (relevantFrame env) frames = some (f, rest) →
      ∃ r, timePacket env reply frames = some (recv r f, rest) := by
  induction frames generalizing reply with
  | nil => simp [await, timePacket]
  | cons f frames ih =>
    rw [List.forall_mem_cons] at hlen
    rw [await, timePacket, relevantPacket_recv hlen.1]
    by_cases hf : relevantFrame env f
    · simp only [hf, if_true]
      refine ⟨by simp, ?_⟩
      rintro _ _ ⟨⟩
      exact ⟨reply, rfl⟩
    · simp only [hf, Bool.false_eq_true, if_false]
      exact ih _ hlen.2

/-- The loops are sessions of requests and relevant frames. -/
lemma requests_eq (ipAddr : UInt32) (rs : List (Request × Packet)) {stop : Packet → Bool} {stopFrame : List UInt8 → Bool}
    (hstop : ∀ r f, 42 ≤ f.length → stop (recv r f) = stopFrame f)
    (hlen : ∀ f ∈ frames, 42 ≤ f.length) (hpkt : Prepared env pkt) :
    (requests env ipAddr stop rs pkt frames).1 =
      (session (relevantFrame env) stopFrame (rs.map Prod.fst) frames).1.map (echoFrame env ipAddr) ∧
    List.Forall₂ (fun reply frame => 42 ≤ frame.length ∧ ∃ r, reply = recv r frame)
      (requests env ipAddr stop rs pkt frames).2
      (session (relevantFrame env) stopFrame (rs.map Prod.fst) frames).2 := by
  induction rs generalizing pkt frames with
  | nil => exact ⟨rfl, .nil⟩
  | cons x rs ih =>
    obtain ⟨request, reply⟩ := x
    rw [requests, List.map_cons, session, hpkt.sent]
    cases h : await (relevantFrame env) frames with
    | none =>
      rw [(timePacket_eq reply hlen).1 h]
      exact ⟨rfl, .nil⟩
    | some y =>
      obtain ⟨f, rest⟩ := y
      obtain ⟨r, hr⟩ := (timePacket_eq reply hlen).2 f rest h
      obtain ⟨hf, hrest⟩ := mem_of_await h
      have hf42 := hlen f hf
      rw [hr]
      dsimp only
      rw [hstop r f hf42]
      by_cases hs : stopFrame f
      · simp only [hs, if_true]
        exact ⟨rfl, .cons ⟨hf42, r, rfl⟩ .nil⟩
      · simp only [hs, Bool.false_eq_true, if_false]
        obtain ⟨hsent, hreplies⟩ := ih (fun g hg => hlen g (hrest g hg)) hpkt.setHdrs
        exact ⟨congrArg _ hsent, .cons ⟨hf42, r, rfl⟩ hreplies⟩

/-! ### What is printed -/

/-- The address a frame comes from. -/
def source (frame : List UInt8) : UInt32 :=
  le32 (frame.getD 26 0) (frame.getD 27 0) (frame.getD 28 0) (frame.getD 29 0)

def isEchoReply (frame : List UInt8) : Bool := frame.getD 34 0 = ICMP_ECHOREPLY

/-- The frames `ping` prints: the relevant ones, as far as the count goes. -/
def pingFrames (env : Env) (count : ℤ) (frames : List (List UInt8)) : List (List UInt8) :=
  (frames.filter (relevantFrame env)).take (pingCount count)

/-- The frames `traceroute` prints: the relevant ones up to the first echo reply, 64 at most. -/
def hopFrames (env : Env) (frames : List (List UInt8)) : List (List UInt8) :=
  upTo isEchoReply ((frames.filter (relevantFrame env)).take 64)

/-- The line of a frame. -/
def frameLine (frame : List UInt8) : PingLine where
  bytes := Bytes.be16 (frame.getD 16 0) (frame.getD 17 0)
  icmpSeq := Bytes.be16 (frame.getD 40 0) (frame.getD 41 0)
  ttl := frame.getD 22 0

/-- What is read of the replies, when it is read of frames. -/
lemma map_replies {α : Type*} {v : Packet → α} {v' : List UInt8 → α} {replies : List Packet}
    {answers : List (List UInt8)} (hv : ∀ r f, 42 ≤ f.length → v (recv r f) = v' f)
    (h : List.Forall₂ (fun reply frame => 42 ≤ frame.length ∧ ∃ r, reply = recv r frame) replies answers) :
    replies.map v = answers.map v' := by
  induction h with
  | nil => rfl
  | cons hr _ ih =>
    obtain ⟨hlen, r, rfl⟩ := hr
    rw [List.map_cons, List.map_cons, hv r _ hlen, ih]

section Loops

variable {n : ℕ} {make : ℕ → Request}

/-- The requests of a loop are sent in their order. -/
lemma isRequest_numbered {k : ℕ} {sent : List (List UInt8)}
    (h : sent = (((List.range n).map make).take k).map (echoFrame env ipAddr)) :
    sent.length = min k n ∧ ∀ (i : ℕ) data, sent[i]? = some data → IsRequest env ipAddr (make i) data := by
  subst h
  refine ⟨by simp, fun i data hi => ?_⟩
  rw [List.getElem?_map, List.getElem?_take] at hi
  split at hi
  · rw [List.getElem?_map, Option.map_map, Option.map_eq_some_iff] at hi
    obtain ⟨j, hj, rfl⟩ := hi
    obtain ⟨hin, rfl⟩ := List.getElem?_eq_some_iff.mp hj
    rw [List.getElem_range]
    exact echoFrame_isRequest
  · cases hi

/-- A loop of `n` requests, as a session. -/
lemma requests_numbered (env : Env) (ipAddr : UInt32) (make : ℕ → Request) (stack : ℕ → Packet)
    (stop : Packet → Bool) {stopFrame : List UInt8 → Bool} {answers : List (List UInt8)}
    (hstop : ∀ r f, 42 ≤ f.length → stop (recv r f) = stopFrame f)
    (hlen : ∀ f ∈ frames, 42 ≤ f.length)
    (hanswers : answers = upTo stopFrame ((frames.filter (relevantFrame env)).take n)) :
    let q := requests env ipAddr stop (numbered make stack n) (firstPacket env) frames
    (q.1.length = min (answers.length + if answers.any stopFrame then 0 else 1) n ∧
      ∀ (i : ℕ) data, q.1[i]? = some data → IsRequest env ipAddr (make i) data) ∧
    List.Forall₂ (fun reply frame => 42 ≤ frame.length ∧ ∃ r, reply = recv r frame) q.2 answers := by
  have hmap : (numbered make stack n).map Prod.fst = (List.range n).map make := by
    rw [numbered, List.map_map]
    rfl
  have hprep : Prepared env (firstPacket env) := prepared_first
  obtain ⟨hsent, hreplies⟩ :=
    requests_eq ipAddr (numbered make stack n) hstop hlen hprep
  rw [hmap] at hsent hreplies
  have hsecond : (session (relevantFrame env) stopFrame ((List.range n).map make) frames).2 = answers := by
    rw [session_answers, hanswers, List.length_map, List.length_range]
  rw [session_requests, hsecond] at hsent
  rw [hsecond] at hreplies
  exact ⟨isRequest_numbered hsent, hreplies⟩

end Loops

/-- **What `ping` prints**: a line for each relevant frame, as many as its count says. Each request has
the next sequence number, from 1 on. -/
theorem ping_lines (hlen : ∀ f ∈ frames, 42 ≤ f.length) (count : ℤ) :
    (ping env ipAddr count stack frames).2 = (pingFrames env count frames).map frameLine ∧
    (ping env ipAddr count stack frames).1.length =
      min ((pingFrames env count frames).length + 1) (pingCount count) ∧
    ∀ (i : ℕ) data, (ping env ipAddr count stack frames).1[i]? = some data →
      IsRequest env ipAddr (pingRequest i) data := by
  have hnone (l : List (List UInt8)) : upTo (fun _ => false) l = l := by
    induction l with
    | nil => rfl
    | cons x l ih => simp [upTo, ih]
  obtain ⟨⟨hlength, hreq⟩, hreplies⟩ := requests_numbered env ipAddr pingRequest stack (fun _ => false)
    (fun _ _ _ => rfl) hlen (hnone _).symm
  refine ⟨map_replies ?_ hreplies, ?_, hreq⟩
  · intro r f hf
    simp only [pingLine, frameLine, recv_payload hf (show 16 < 42 by omega),
      recv_payload hf (show 17 < 42 by omega), recv_payload hf (show 40 < 42 by omega),
      recv_payload hf (show 41 < 42 by omega), recv_payload hf (show 22 < 42 by omega)]
  · refine hlength.trans ?_
    simp [pingFrames]

/-- **What `traceroute` prints**: a line for each relevant frame, with the counter and the address the
frame comes from, up to the first echo reply, and 64 lines at most. The requests have the TTLs and the
sequence numbers from 1 on. -/
theorem traceroute_hops (hlen : ∀ f ∈ frames, 42 ≤ f.length) :
    (traceroute env ipAddr stack frames).2 =
      (hopFrames env frames).zipIdx.map (fun x => ⟨x.2 + 1, source x.1⟩) ∧
    (traceroute env ipAddr stack frames).1.length =
      min ((hopFrames env frames).length + if (hopFrames env frames).any isEchoReply then 0 else 1) 64 ∧
    ∀ (i : ℕ) data, (traceroute env ipAddr stack frames).1[i]? = some data →
      IsRequest env ipAddr (hopRequest i) data := by
  have hstop : ∀ r f, 42 ≤ f.length →
      decide ((recv r f).payload 34 = ICMP_ECHOREPLY) = isEchoReply f := by
    intro r f hf
    rw [recv_payload hf (by omega), isEchoReply]
  obtain ⟨⟨hlength, hreq⟩, hreplies⟩ := requests_numbered env ipAddr hopRequest stack
    (fun reply => reply.payload 34 = ICMP_ECHOREPLY) hstop hlen rfl
  refine ⟨?_, hlength, hreq⟩
  have haddr : ∀ r f, 42 ≤ f.length → load32 (recv r f).payload 26 = source f := by
    intro r f hf
    simp only [load32, source, recv_payload hf (show 26 < 42 by omega),
      recv_payload hf (show 26 + 1 < 42 by omega), recv_payload hf (show 26 + 2 < 42 by omega),
      recv_payload hf (show 26 + 3 < 42 by omega)]
  have hmap := map_replies (v := fun reply => load32 reply.payload 26) haddr hreplies
  have hzip := congrArg (fun l : List UInt32 => l.zipIdx.map fun x => HopLine.mk (x.2 + 1) x.1) hmap
  simp only [List.zipIdx_map, List.map_map] at hzip
  exact hzip

/-! ### A route of two hops -/

/-- A frame for `mac` with ICMP of a type, from an address. -/
def icmpFrame (mac : Mac) (saddr : UInt32) (type : UInt8) : List UInt8 :=
  mac.toList ++ [0, 0, 0, 0, 0, 0, 8, 0, 0x45, 0, 0, 28, 0, 1, 0, 0, 64, 1, 0, 0] ++ bytes32 saddr ++
    [0, 0, 0, 0, type, 0, 0, 0, 0, 0, 0, 0]

def exampleEnv : Env := ⟨Vector.replicate 6 1, Vector.replicate 6 2, 3⟩

/-- What arrives: a message that a router sends, a frame for another machine, and an echo reply. -/
def exampleFrames : List (List UInt8) :=
  [icmpFrame exampleEnv.mac 7 11, icmpFrame exampleEnv.gatewayMac 8 0, icmpFrame exampleEnv.mac 9 0]

lemma length_exampleFrames : ∀ f ∈ exampleFrames, 42 ≤ f.length := by decide +kernel

theorem traceroute_hops_two :
    (traceroute exampleEnv 9 (fun _ => initPacket) exampleFrames).2 = [⟨1, 7⟩, ⟨2, 9⟩] := by
  rw [(traceroute_hops length_exampleFrames).1]
  decide +kernel

theorem ping_lines_one :
    (ping exampleEnv 9 1 (fun _ => initPacket) exampleFrames).2 = [⟨28, 0, 64⟩] := by
  rw [(ping_lines length_exampleFrames 1).1]
  decide +kernel

end Protocoale.Lab05

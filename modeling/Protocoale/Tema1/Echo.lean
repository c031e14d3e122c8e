import Protocoale.Tema1.Checksums
import Protocoale.Tema1.Options

/-!
Echo requests for the router. The reply is built from scratch: it takes over the addresses, exchanged,
and the identifier and sequence number, and it verifies. `send_icmp` has no argument for the data of
an echo message, so that the reply is the one to a request without data (`echo_reply`).
-/

namespace Protocoale.Tema1

open Lib.Bytes Lib.Ones

namespace Router

variable {env : Env} {s : Router} {f : Frame}

/-- An ICMP message of the type `type` with the code 0 and the identifier and sequence number `echo`,
in an IP packet without options: the lengths match and both checksums verify. -/
structure EchoMessage (type : UInt8) (dhost shost : Mac) (saddr daddr : UInt32)
    (echo data frame : List UInt8) : Prop where
  length : frame.length = 42 + data.length
  dhost : frame.take 6 = dhost.toList
  shost : (frame.drop 6).take 6 = shost.toList
  etherType : (frame.drop 12).take 2 = bytes16 (htons ETHERTYPE_IP)
  version : (frame.drop 14).take 1 = [0x45]
  totLen : (frame.drop 16).take 2 = bytes16 (htons (28 + data.length))
  protocol : (frame.drop 23).take 1 = [IPPROTO_ICMP]
  saddr : (frame.drop 26).take 4 = bytes32 saddr
  daddr : (frame.drop 30).take 4 = bytes32 daddr
  ipVerifies : Verifies ((frame.drop 14).take 20)
  type : (frame.drop 34).take 2 = [type, 0]
  echo : (frame.drop 38).take 4 = echo
  data : frame.drop 42 = data
  icmpVerifies : Verifies (frame.drop 34)

section Messages

variable {type : UInt8} {dhost shost : Mac} {saddr daddr : UInt32}
  {echo data frame padding : List UInt8}

lemma EchoMessage.echo_length (h : EchoMessage type dhost shost saddr daddr echo data frame) :
    echo.length = 4 := by
  rw [← h.echo, List.length_take, List.length_drop, h.length]
  omega

/-! ### The request as it is received -/

/-- The bytes of a field are where the router reads them. -/
lemma read_received (hf : f.data = frame ++ padding)
    (hmax : f.data.length ≤ MAX_LEN) {off n : ℕ} {v : List UInt8} (h : (frame.drop off).take n = v)
    (hv : v.length = n) (hn : 0 < n) : read (getPacket s.m f).payload off n = v := by
  have hlen : off + n ≤ frame.length := by
    rw [← h, List.length_take, List.length_drop] at hv
    omega
  have htotal : frame.length ≤ f.data.length := by simp [hf]
  refine read_eq_of_getD ?_ hv
  intro i hi
  have hreceived : off + i < (getPacket s.m f).len := by
    show off + i < (f.data.take MAX_LEN).length
    rw [List.length_take]
    omega
  rw [getPacket_payload hreceived, hf, List.getD_append _ _ _ _ (by omega), ← h,
    List.getD_eq_getElem?_getD, List.getD_eq_getElem?_getD, List.getElem?_take_of_lt hi,
    List.getElem?_drop]

lemma load32_eq {b : Buf} {off : ℕ} {x : UInt32} (h : read b off 4 = bytes32 x) :
    load32 b off = x := by
  apply bytes32_injective
  rw [load32, bytes32_le32, ← h]
  rfl

/-- What the router finds in an echo request. -/
lemma received_request (h : EchoMessage ICMP_ECHO dhost shost saddr daddr echo data frame)
    (hf : f.data = frame ++ padding) (hmax : f.data.length ≤ MAX_LEN) :
    let m := getPacket s.m f
    m.etherType = ETHERTYPE_IP ∧ m.protocol = IPPROTO_ICMP ∧ m.saddr = saddr ∧ m.daddr = daddr ∧
      m.etherDhost = dhost.toList ∧ m.etherShost = shost.toList ∧ m.icmpType = ICMP_ECHO ∧
      m.icmpEcho = echo := by
  have hether := read_received (s := s) hf hmax h.etherType rfl (by omega)
  have hproto := read_received (s := s) hf hmax h.protocol rfl (by omega)
  have htype := read_received (s := s) hf hmax h.type rfl (by omega)
  refine ⟨?_, ?_, ?_, ?_, ?_, ?_, ?_, ?_⟩
  · have h12 : (getPacket s.m f).payload 12 = 8 := (List.cons.inj hether).1
    have h13 : (getPacket s.m f).payload 13 = 0 := (List.cons.inj (List.cons.inj hether).2).1
    rw [Packet.etherType, h12, h13]
    rfl
  · exact (List.cons.inj hproto).1
  · exact load32_eq (read_received hf hmax h.saddr rfl (by omega))
  · exact load32_eq (read_received hf hmax h.daddr rfl (by omega))
  · have hdhost : (frame.drop 0).take 6 = dhost.toList := h.dhost
    exact read_received hf hmax hdhost (by simp) (by omega)
  · exact read_received hf hmax h.shost (by simp) (by omega)
  · exact (List.cons.inj htype).1
  · exact read_received hf hmax h.echo h.echo_length (by omega)

/-! ### The reply -/

/-- **What `send_icmp` builds is an echo message without data.** -/
theorem sendIcmp_message (interface : ℤ) (hecho : echo.length = 4) :
    EchoMessage type dhost shost saddr daddr echo []
      (sendIcmp daddr saddr shost.toList dhost.toList type 0 interface echo).data := by
  have hicmp : (icmpHdr type 0 echo).length = 8 := by simp [icmpHdr, hecho]
  generalize hframe : (sendIcmp daddr saddr shost.toList dhost.toList type 0 interface echo).data =
    frame
  have hsplit : frame = dhost.toList ++ (shost.toList ++ (bytes16 (htons ETHERTYPE_IP) ++
      (icmpIpHdr daddr saddr ++ icmpHdr type 0 echo))) := by
    rw [← hframe, sendIcmp, buildEthhdr]
    simp only [List.append_assoc]
  have h6 : frame.drop 6 = shost.toList ++ (bytes16 (htons ETHERTYPE_IP) ++
      (icmpIpHdr daddr saddr ++ icmpHdr type 0 echo)) := by
    rw [hsplit, List.drop_left' (by simp)]
  have h12 : frame.drop 12 = bytes16 (htons ETHERTYPE_IP) ++
      (icmpIpHdr daddr saddr ++ icmpHdr type 0 echo) := by
    rw [show 12 = 6 + 6 from rfl, ← List.drop_drop, h6, List.drop_left' (by simp)]
  have h14 : frame.drop 14 = icmpIpHdr daddr saddr ++ icmpHdr type 0 echo := by
    rw [show 14 = 12 + 2 from rfl, ← List.drop_drop, h12]
    rfl
  have hip : ∀ n, frame.drop (14 + n) = (icmpIpHdr daddr saddr ++ icmpHdr type 0 echo).drop n := by
    intro n
    rw [← h14, List.drop_drop]
  have h34 : frame.drop 34 = icmpHdr type 0 echo := (hip 20).trans (List.drop_left' rfl)
  constructor
  case length => simp [hsplit, hicmp, icmpIpHdr_length, bytes16]
  case dhost => rw [hsplit, List.take_left' (by simp)]
  case shost => rw [h6, List.take_left' (by simp)]
  case etherType => rw [h12]; rfl
  case version => rw [hip 0]; rfl
  case totLen => rw [hip 2]; rfl
  case protocol => rw [hip 9]; rfl
  case saddr => rw [hip 12]; rfl
  case daddr => rw [hip 16]; rfl
  case ipVerifies =>
    rw [h14, List.take_left' (icmpIpHdr_length daddr saddr)]
    exact (verifies_iff 0).mpr (icmpIpHdr_verifies daddr saddr 0)
  case type => rw [h34]; rfl
  case echo =>
    have htail : (icmpHdr type 0 echo).drop 4 = echo := rfl
    rw [show 38 = 34 + 4 from rfl, ← List.drop_drop, h34, htail]
    exact List.take_of_length_le hecho.le
  case data =>
    rw [show 42 = 34 + 8 from rfl, ← List.drop_drop, h34]
    exact List.drop_of_length_le hicmp.le
  case icmpVerifies =>
    rw [h34]
    exact (verifies_iff 0).mpr (icmpHdr_verifies type 0 hecho 0)

/-- What an echo request to the address of its interface does. -/
lemma step_echo (h : EchoMessage ICMP_ECHO dhost shost saddr (env.interfaceIp f.interface) echo
    data frame) (hf : f.data = frame ++ padding) (hmax : f.data.length ≤ MAX_LEN) :
    step env s f = some ({ s with m := getPacket s.m f }, [sendIcmp saddr
      (env.interfaceIp f.interface) dhost.toList shost.toList ICMP_ECHOREPLY 0 f.interface echo]) := by
  obtain ⟨hip, hproto, hsaddr, hdaddr, hdhost, hshost, htype, hecho⟩ :=
    received_request (s := s) h hf hmax
  have hme : icmpForMe env (getPacket s.m f) = true := decide_eq_true ⟨hproto, hdaddr⟩
  rw [step_icmpForMe hip hme, if_pos htype, hsaddr, hdaddr, hdhost, hshost, hecho]
  rfl

/-- **An echo request to the address of its interface is answered** with one message, on that
interface and with the addresses exchanged, that repeats the identifier and the sequence number and
has no data. Nothing else changes. -/
theorem echo_reply (h : EchoMessage ICMP_ECHO dhost shost saddr (env.interfaceIp f.interface) echo
    data frame) (hf : f.data = frame ++ padding) (hmax : f.data.length ≤ MAX_LEN) :
    ∃ m x, step env s f = some ({ s with m }, [x]) ∧ x.interface = f.interface ∧
      EchoMessage ICMP_ECHOREPLY shost dhost (env.interfaceIp f.interface) saddr echo [] x.data :=
  ⟨_, _, step_echo h hf hmax, rfl, sendIcmp_message f.interface h.echo_length⟩

end Messages

/-- An echo request of `10.0.0.1` to `10.0.0.254`. -/
def pingFrame (total : UInt8) (ipCheck icmpCheck : ℕ) (data : List UInt8) : List UInt8 :=
  [2, 0, 0, 0, 0, 1, 2, 0, 0, 0, 0, 2, 8, 0, 0x45, 0, 0, total, 0, 0, 0, 0, 64, 1] ++
    bytes16 ipCheck ++ [10, 0, 0, 1, 10, 0, 0, 254, 8, 0] ++ bytes16 icmpCheck ++ [0, 7, 0, 1] ++ data

/-- The answer to a request without data, received in a frame of 60 bytes. -/
theorem echo_reply_ping : ∃ m x,
    step testEnv testRouter ⟨0, pingFrame 28 58213 63479 [] ++ List.replicate 18 0⟩ =
      some ({ testRouter with m }, [x]) ∧ x.interface = 0 ∧
      EchoMessage ICMP_ECHOREPLY #v[2, 0, 0, 0, 0, 2] #v[2, 0, 0, 0, 0, 1] (le32 10 0 0 254)
        (le32 10 0 0 1) [0, 7, 0, 1] [] x.data := by
  have hreq : EchoMessage ICMP_ECHO #v[2, 0, 0, 0, 0, 1] #v[2, 0, 0, 0, 0, 2] (le32 10 0 0 1)
      (testEnv.interfaceIp 0) [0, 7, 0, 1] [] (pingFrame 28 58213 63479 []) := by
    constructor <;> decide +kernel
  exact echo_reply hreq rfl (by decide)

/-- A request with one byte of data. -/
theorem not_echo_reply : EchoMessage ICMP_ECHO #v[2, 0, 0, 0, 0, 1] #v[2, 0, 0, 0, 0, 2]
      (le32 10 0 0 1) (testEnv.interfaceIp 0) [0, 7, 0, 1] [1] (pingFrame 29 57957 63478 [1]) ∧
    ¬ ∃ m x, step testEnv testRouter ⟨0, pingFrame 29 57957 63478 [1]⟩ =
        some ({ testRouter with m }, [x]) ∧ x.interface = 0 ∧
      EchoMessage ICMP_ECHOREPLY #v[2, 0, 0, 0, 0, 2] #v[2, 0, 0, 0, 0, 1] (testEnv.interfaceIp 0)
        (le32 10 0 0 1) [0, 7, 0, 1] [1] x.data := by
  have hreq : EchoMessage ICMP_ECHO #v[2, 0, 0, 0, 0, 1] #v[2, 0, 0, 0, 0, 2] (le32 10 0 0 1)
      (testEnv.interfaceIp 0) [0, 7, 0, 1] [1] (pingFrame 29 57957 63478 [1]) := by
    constructor <;> decide +kernel
  refine ⟨hreq, ?_⟩
  rintro ⟨m, x, hstep, -, hreply⟩
  have hsent : step testEnv testRouter ⟨0, pingFrame 29 57957 63478 [1]⟩ = _ :=
    step_echo hreq (List.append_nil _).symm (by decide)
  rw [hsent] at hstep
  obtain rfl := List.singleton_inj.mp (congrArg Prod.snd (Option.some.inj hstep))
  have hnone := (sendIcmp_message 0 hreq.echo_length).data.symm.trans hreply.data
  cases hnone

end Router

end Protocoale.Tema1

import Mathlib.Data.List.DropRight
import Protocoale.Tema2.ExactlyOnce

/-!
The contents of `store_and_forward`. Nothing in the state says when a client left: what is kept for
it is compared with the history of the run, the events since its last disconnection
(`sinceLeft`) and among them the publications it had asked to be kept (`wanted`).
-/

namespace Protocoale.Tema2

open Lib Lib.Bytes

namespace Server

variable {s s' : Server} {c : ClientId} {data : List UInt8} {out : List Output} {e : Event}
  {es : List Event} {xs : List (Server × Event)}

/-- The event is the end of the connection of `c`. -/
def leaves (c : ClientId) : Server × Event → Bool
  | (s, .tcp i []) => (s.activeClients.find i).map (·.id) = some c
  | _ => false

/-- The part of a history after the last disconnection of `c`. -/
def sinceLeft (c : ClientId) (xs : List (Server × Event)) : List (Server × Event) :=
  xs.rtakeWhile fun x => !leaves c x

/-- The message an event publishes, when `c` has a subscription on its topic at that moment and has
asked for what is published in its absence. -/
def wanted (c : ClientId) : Server × Event → Option SubMessage
  | (s, .udp fromStation data) =>
    if ∃ sub ∈ s.subsOf (udpMessage data).topicStr, sub.client.id = c ∧ sub.sf = SF_ON then
      some (published fromStation data)
    else none
  | _ => none

/-- A client that leaves is connected, and is not any more. -/
lemma leaves_step (hinv : Inv s) (h : step s e = some (s', out)) (hl : leaves c (s, e) = true) :
    s.connected c = true ∧ s'.connected c = false := by
  cases e with
  | connection fd cliAddr data => cases hl
  | udp fromStation data => cases hl
  | tcp i data =>
    cases data with
    | cons x data => cases hl
    | nil =>
      obtain ⟨client, hc, rfl⟩ := Option.map_eq_some_iff.mp (of_decide_eq_true hl)
      rcases handleTcpMessage_cases h with ⟨-, client', hc', -, rfl⟩ | ⟨hne, -, -⟩
      · rw [hc] at hc'
        cases hc'
        have hfd := (hinv.ids client.id i).mpr ⟨client, hc, rfl⟩
        simp [connected, hfd]
      · exact absurd rfl hne

/-- A connected client stays connected until it leaves. -/
lemma connected_step (hinv : Inv s) (hlegal : Legal s e) (h : step s e = some (s', out))
    (hon : s.connected c = true) (hl : leaves c (s, e) = false) : s'.connected c = true := by
  cases e with
  | connection fd cliAddr data =>
    obtain ⟨hfd, hlen, h0⟩ := hlegal
    rcases connection_cases hinv hfd hlen h0 h with ⟨-, rfl, -⟩ | ⟨-, client, -, hconn, -⟩
    · exact hon
    · unfold connected
      rw [hconn.ids]
      split
      · rfl
      · exact hon
  | udp fromStation data =>
    rw [(step_udp h).1, handleUdpMessage_eq]
    exact hon
  | tcp i data =>
    rcases handleTcpMessage_cases h with ⟨rfl, client, hc, -, rfl⟩ | ⟨-, -, rfl | ⟨_, _, _, _, -, -, -, rfl⟩⟩
    · have hne : c ≠ client.id := by
        rintro rfl
        simp [leaves, hc] at hl
      show ((s.activeIdsSockets.erase client.id).find c).isSome = true
      rw [UMap.find_erase_ne hne]
      exact hon
    · exact hon
    · exact hon

/-- What must reach a client that is away is what it wants. -/
lemma due_of_offline (hoff : s.connected c = false) : s.due c e = (wanted c (s, e)).toList := by
  cases e with
  | connection fd cliAddr data => rfl
  | tcp i data => rfl
  | udp fromStation data =>
    simp only [due, wanted, hoff, Bool.false_eq_true, false_or]
    split <;> rfl

lemma sinceLeft_snoc (x : Server × Event) : sinceLeft c (xs ++ [x]) =
    if leaves c x then [] else sinceLeft c xs ++ [x] := by
  unfold sinceLeft
  rw [List.rtakeWhile_concat]
  cases leaves c x <;> rfl

/-- **What is kept for a client** in the state a run ends in: for one that is connected there is no
list; for one that is not, the list is the messages it wanted, in the order they were published in
since it left, each of them once. -/
theorem store_contents {sockTcp sockUdp : ℕ}
    (hlegal : Run.Along step Legal (init sockTcp sockUdp) es)
    (h : Run.exec step (init sockTcp sockUdp) es = some (s, out)) (c : ClientId) :
    (s.connected c = true → s.storeAndForward.find c = none) ∧
    (s.connected c = false → s.stored c =
      (sinceLeft c (Run.visited step (init sockTcp sockUdp) es)).filterMap (wanted c)) := by
  have hhist : Inv s ∧ (s.connected c = false → s.stored c =
      (sinceLeft c (Run.visited step (init sockTcp sockUdp) es)).filterMap (wanted c)) := by
    apply Run.exec_history (P := fun xs s => Inv s ∧ (s.connected c = false →
      s.stored c = (sinceLeft c xs).filterMap (wanted c))) _ hlegal _ h
    · rintro xs s e s' out ⟨hinv, ih⟩ hlegal h
      refine ⟨inv_step hinv hlegal h, ?_⟩
      intro hoff'
      rw [stored_step hinv hlegal h, hoff', sinceLeft_snoc]
      cases hl : leaves c (s, e) with
      | true =>
        -- `c` was connected until now: nothing is kept for it, and it is owed nothing
        have hnil : s.stored c = [] := hinv.mailbox_ok (leaves_step hinv h hl).1
        have hdue : s.due c e = [] := by
          cases e with
          | udp fromStation data => cases hl
          | connection fd cliAddr data => rfl
          | tcp i data => rfl
        simp [hnil, hdue]
      | false =>
        have hoff : s.connected c = false := by
          by_contra hon
          rw [connected_step hinv hlegal h (by simpa using hon) hl] at hoff'
          cases hoff'
        rw [ih hoff, due_of_offline hoff]
        cases hw : wanted c (s, e) <;> simp [hw]
    · exact ⟨inv_init sockTcp sockUdp, fun _ => by simp [init, stored, sinceLeft]⟩
  refine ⟨?_, hhist.2⟩
  intro hon
  by_contra hne
  simp [connected, hhist.1.stored_offline c hne] at hon

theorem store_contents_away : ∃ r, Run.exec step (init 3 4)
      (takenOver ++ [.udp (pad _ []) datagramA]) = some r ∧
    (r.1.stored ⟨[67, 49], by decide, by decide⟩).length = 1 := by
  have hlegal : Run.Along step Legal (init 3 4) (takenOver ++ [.udp (pad _ []) datagramA]) := by
    decide +kernel
  obtain ⟨r, hr, hoff⟩ : ∃ r, Run.exec step (init 3 4)
      (takenOver ++ [.udp (pad _ []) datagramA]) = some r ∧
      r.1.connected ⟨[67, 49], by decide, by decide⟩ = false := by
    refine ⟨_, (Option.some_get (by decide +kernel)).symm, ?_⟩
    decide +kernel
  refine ⟨r, hr, ?_⟩
  rw [(store_contents hlegal hr _).2 hoff]
  decide +kernel

end Server

end Protocoale.Tema2

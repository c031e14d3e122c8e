import Mathlib.Tactic

/-!
A store-and-forward mailbox: the abstract component between a publisher and one client that is
online or offline. A message published while the client is online is delivered at once; while it
is offline the message is kept or dropped, as the publication says; the messages kept are
delivered together when the client connects.

`accepts` lists the messages that must reach the client. Nothing accepted is lost, repeated or
reordered: what was pending, followed by what is accepted, is what is delivered, followed by what
is pending afterwards (`step_conserves`).
-/

namespace Protocoale.Lib

/-- A mailbox: whether the client is online, and the messages kept for it, oldest first. -/
structure Mailbox (μ : Type*) where
  online : Bool
  pending : List μ

namespace Mailbox

variable {μ : Type*}

/-- What happens to a mailbox. `keep` says whether an offline client gets the message later. -/
inductive Event (μ : Type*) where
  | publish (m : μ) (keep : Bool)
  | connect
  | disconnect

/-- One event: the mailbox afterwards and the messages delivered. -/
def step (b : Mailbox μ) : Event μ → Mailbox μ × List μ
  | .publish m keep =>
    if b.online then (b, [m])
    else if keep then ({ b with pending := b.pending ++ [m] }, [])
    else (b, [])
  | .connect => (⟨true, []⟩, b.pending)
  | .disconnect => ({ b with online := false }, [])

/-- The messages of an event that must reach the client, now or at its next connection. -/
def accepts (b : Mailbox μ) : Event μ → List μ
  | .publish m keep => if b.online || keep then [m] else []
  | .connect => []
  | .disconnect => []

/-- A sequence of events: the mailbox afterwards and all the messages delivered. -/
def run (b : Mailbox μ) : List (Event μ) → Mailbox μ × List μ
  | [] => (b, [])
  | e :: es => (((b.step e).1.run es).1, (b.step e).2 ++ ((b.step e).1.run es).2)

/-- The messages of a sequence of events that must reach the client. -/
def accepted (b : Mailbox μ) : List (Event μ) → List μ
  | [] => []
  | e :: es => b.accepts e ++ (b.step e).1.accepted es

/-- Nothing is pending for a client that is online. -/
def Ok (b : Mailbox μ) : Prop := b.online = true → b.pending = []

variable {b : Mailbox μ} {e : Event μ}

theorem step_ok (h : b.Ok) : (b.step e).1.Ok := by
  cases e with
  | publish m keep =>
    cases hon : b.online with
    | true => simpa [step, hon] using h
    | false => cases keep <;> simp [step, Ok, hon]
  | connect => exact fun _ => rfl
  | disconnect => exact fun hon => by cases hon

/-- Nothing leaves the mailbox of a client that stays offline, and everything does at once. -/
theorem step_pending (h : b.Ok) : (b.step e).1.pending =
    if (b.step e).1.online then [] else b.pending ++ b.accepts e := by
  cases e with
  | publish m keep =>
    unfold step accepts
    cases hon : b.online with
    | true => simp [hon, h hon]
    | false => cases keep <;> simp [hon]
  | connect => rfl
  | disconnect => simp [step, accepts]

/-- **Exactly once, in order.** -/
theorem step_conserves (h : b.Ok) :
    b.pending ++ b.accepts e = (b.step e).2 ++ (b.step e).1.pending := by
  cases e with
  | publish m keep =>
    unfold step accepts
    cases hon : b.online with
    | true => simp [h hon]
    | false => cases keep <;> simp
  | connect => simp [step, accepts]
  | disconnect => simp [step, accepts]

/-- The same for a sequence of events. -/
theorem run_conserves (h : b.Ok) (es : List (Event μ)) :
    b.pending ++ b.accepted es = (b.run es).2 ++ (b.run es).1.pending := by
  induction es generalizing b with
  | nil => simp [run, accepted]
  | cons e es ih =>
    simp only [run, accepted]
    rw [← List.append_assoc, step_conserves h, List.append_assoc, ih (step_ok h), List.append_assoc]

theorem run_pending (h : b.Ok) {es : List (Event μ)} (hlen : es.length ≤ 1) :
    (b.run es).1.pending = if (b.run es).1.online then [] else b.pending ++ b.accepted es := by
  match es with
  | [] =>
    simp only [run, accepted, List.append_nil]
    split
    · next hon => exact h hon
    · rfl
  | [e] => simpa [run, accepted] using step_pending h

end Mailbox

end Protocoale.Lib

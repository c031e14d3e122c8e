import Protocoale.Lib.Run
import Protocoale.Lib.Times

/-!
The link emulator of the laboratories (`link_emulator/link.c`). One thread receives the messages of the
first peer, drops or damages some of them and puts the others into a buffer; another one takes them
from the buffer at the speed of the link, keeps them in flight for its delay and sends them to the
second peer; the third one forwards what the second peer sends. An event is what a thread does between
two of its calls that another thread can notice: `recvfrom`, `sendto`, a section under `buffer_lock`, the
wait for `buffer_cond`. The random numbers and the readings of the clock are part of the events, and the
events come in any order.
-/

namespace Protocoale.Emulator

open Lib Lib.Run Lib.Times

@[simp] abbrev BUFFER_SIZE : ℕ := 1000

/-- The arguments of the program, and the message that the link makes of one with two random numbers,
nothing where that is not defined. -/
structure Settings (μ : Type*) where
  serializationDelay : ℤ
  delay : ℤ
  loss : ℤ
  corrupt : ℤ
  damage : μ → ℕ → ℕ → Option μ

/-- `msg_in_flight` -/
structure MsgInFlight (μ : Type*) where
  m : μ
  finishTime : ℤ

/-- The places of `run_forwarding`. -/
inductive Forwarding (μ : Type*)
  /-- in `receive_message1` -/
  | receive
  /-- with a message, before it looks at the size of the buffer -/
  | check (m : μ)
  /-- with a message, before it is put into the buffer -/
  | put (m : μ)

/-- The places of `link_scheduler`. -/
inductive Scheduler
  /-- before `now` -/
  | top
  /-- before it looks at the size of the buffer -/
  | look (crtTime : ℤ)
  /-- before it takes a message from the buffer -/
  | take (crtTime : ℤ)
  /-- before the assertion on the buffer -/
  | park
  /-- in `pthread_cond_wait`, which has been signalled or not -/
  | wait (signalled : Bool)
  deriving DecidableEq

structure Link (μ : Type*) where
  linkUp1 : Bool
  linkUp2 : Bool
  buffer : List μ
  inFlight : List (MsgInFlight μ)
  idleTime : ℤ
  forwarding : Forwarding μ
  /-- the message that `run_reverse_forwarding` has received -/
  reverse : Option μ
  scheduler : Scheduler
  /-- the program has ended -/
  ended : Bool

/-- What a thread does, with what the system calls return; `none` for an error. -/
inductive Event (μ : Type*)
  | receive1 (m : Option μ)
  | check (roll roll' r r' : ℕ)
  | put
  | receive2 (m : Option μ)
  | forward1
  | now (crtTime : ℤ)
  | look
  | take
  | park
  | wake

inductive Effect (μ : Type*)
  | sendMessage2 (linkUp2 : Bool) (mif : MsgInFlight μ) (crtTime : ℤ)
  | sendMessage1 (linkUp1 : Bool) (m : μ)
  | dropped
  /-- `exit` after an error of `recvfrom` -/
  | exit
  /-- an assertion fails -/
  | abort
  /-- not defined -/
  | fault

namespace Link

variable {μ : Type*}

/-- `main`, up to the threads. -/
def start : Link μ where
  linkUp1 := false
  linkUp2 := false
  buffer := []
  inFlight := []
  idleTime := 0
  forwarding := .receive
  reverse := none
  scheduler := .top
  ended := false

/-- A `recvfrom` in `receive_message1`: the first datagram only shows that the link is up. -/
def receiveMessage1 (s : Link μ) : Option μ → Link μ × List (Effect μ)
  | none => ({ s with ended := true }, [.exit])
  | some m =>
    if s.linkUp1 then ({ s with forwarding := .check m }, []) else ({ s with linkUp1 := true }, [])

def receiveMessage2 (s : Link μ) : Option μ → Link μ × List (Effect μ)
  | none => ({ s with ended := true }, [.exit])
  | some m => if s.linkUp2 then ({ s with reverse := some m }, []) else ({ s with linkUp2 := true }, [])

/-- `run_forwarding`, from the message on to the second lock. -/
def checkSpace (cfg : Settings μ) (s : Link μ) (m : μ) (roll roll' r r' : ℕ) :
    Link μ × List (Effect μ) :=
  if BUFFER_SIZE ≤ s.buffer.length ∨ ((roll % 100 : ℕ) : ℤ) < cfg.loss then
    ({ s with forwarding := .receive }, [.dropped])
  else if ((roll' % 100 : ℕ) : ℤ) < cfg.corrupt then
    match cfg.damage m r r' with
    | some m' => ({ s with forwarding := .put m' }, [])
    | none => ({ s with ended := true }, [.fault])
  else ({ s with forwarding := .put m }, [])

/-- `pthread_cond_signal` -/
def signal : Scheduler → Scheduler
  | .wait _ => .wait true
  | p => p

/-- `run_forwarding`, under the second lock. -/
def put (s : Link μ) (m : μ) : Link μ :=
  { s with buffer := s.buffer ++ [m], forwarding := .receive, scheduler := signal s.scheduler }

/-- `link_scheduler`, from `now` on to the first lock: what has arrived is sent. -/
def sendArrived (s : Link μ) (crtTime : ℤ) : Link μ × List (Effect μ) :=
  ({ s with
      inFlight := s.inFlight.dropWhile fun mif => mif.finishTime ≤ crtTime,
      scheduler := .look crtTime },
    (s.inFlight.takeWhile fun mif => mif.finishTime ≤ crtTime).map fun mif =>
      .sendMessage2 s.linkUp2 mif crtTime)

/-- `link_scheduler`, from the waiting times on: it sleeps and starts again, or goes to wait. -/
def rest (s : Link μ) (crtTime : ℤ) : Link μ :=
  let waitTimeIdle := s.idleTime - crtTime
  let waitTimeSend : ℤ := match s.inFlight with
    | [] => 0
    | last :: _ => last.finishTime - crtTime
  { s with scheduler := if 0 < waitTimeIdle ∨ 0 < waitTimeSend then .top else .park }

/-- `link_scheduler`, from the first lock on. -/
def look (cfg : Settings μ) (s : Link μ) (crtTime : ℤ) : Link μ :=
  if s.buffer ≠ [] ∧ s.idleTime ≤ crtTime then
    { s with idleTime := crtTime + cfg.serializationDelay, scheduler := .take crtTime }
  else s.rest crtTime

/-- `link_scheduler`, from the second lock on; the assertion is that there is a message. -/
def take (cfg : Settings μ) (s : Link μ) (crtTime : ℤ) : Link μ × List (Effect μ) :=
  match s.buffer with
  | [] => ({ s with ended := true }, [.abort])
  | m :: buffer =>
    let mif := ⟨m, crtTime + cfg.serializationDelay + cfg.delay⟩
    (rest { s with buffer, inFlight := s.inFlight ++ [mif] } crtTime, [])

/-- `link_scheduler`, under the last lock up to `pthread_cond_wait`. -/
def park (s : Link μ) : Link μ × List (Effect μ) :=
  if s.buffer.isEmpty then ({ s with scheduler := .wait false }, [])
  else ({ s with ended := true }, [.abort])

/-- An event, where its thread is before it. -/
def act (cfg : Settings μ) (s : Link μ) : Event μ → Option (Link μ × List (Effect μ))
  | .receive1 m =>
    match s.forwarding with
    | .receive => some (s.receiveMessage1 m)
    | _ => none
  | .check roll roll' r r' =>
    match s.forwarding with
    | .check m => some (s.checkSpace cfg m roll roll' r r')
    | _ => none
  | .put =>
    match s.forwarding with
    | .put m => some (s.put m, [])
    | _ => none
  | .receive2 m =>
    match s.reverse with
    | none => some (s.receiveMessage2 m)
    | some _ => none
  | .forward1 => s.reverse.map fun m => ({ s with reverse := none }, [.sendMessage1 s.linkUp1 m])
  | .now crtTime =>
    match s.scheduler with
    | .top => some (s.sendArrived crtTime)
    | _ => none
  | .look =>
    match s.scheduler with
    | .look crtTime => some (s.look cfg crtTime, [])
    | _ => none
  | .take =>
    match s.scheduler with
    | .take crtTime => some (s.take cfg crtTime)
    | _ => none
  | .park =>
    match s.scheduler with
    | .park => some s.park
    | _ => none
  | .wake =>
    -- `pthread_cond_wait` may also return when nobody has signalled
    match s.scheduler with
    | .wait _ => some ({ s with scheduler := .top }, [])
    | _ => none

def step (cfg : Settings μ) (s : Link μ) (e : Event μ) : Option (Link μ × List (Effect μ)) :=
  if s.ended then none else act cfg s e

end Link

end Protocoale.Emulator

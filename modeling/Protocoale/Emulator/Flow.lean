import Protocoale.Emulator.Link

/-!
What the link does to the messages, in whatever order its threads act. A message is received, looked
at, and dropped or put into the line of messages that the link carries, at whose other end messages
are sent (`step_flow`). So what is sent, and what is still carried, are the messages that were not dropped,
in their order, each once, as they came or damaged (`link_fifo`).
-/

namespace Protocoale.Emulator

open Lib Lib.Run

variable {μ : Type*} {cfg : Settings μ} {s s' : Link μ} {e : Event μ} {is : List (Event μ)}
  {out acc : List (Effect μ)} {m m' : μ} {t : ℤ}

/-! ### Where the messages are -/

/-- The message that has been received and not looked at. -/
def Forwarding.unchecked : Forwarding μ → List μ
  | .check m => [m]
  | _ => []

/-- The message that is about to go into the buffer. -/
def Forwarding.held : Forwarding μ → List μ
  | .put m => [m]
  | _ => []

/-- The messages that the link carries, the oldest first. -/
def Link.carried (s : Link μ) : List μ :=
  s.inFlight.map MsgInFlight.m ++ s.buffer ++ s.forwarding.held

def Effect.forwarded : Effect μ → Option μ
  | .sendMessage2 _ mif _ => some mif.m
  | _ => none

/-- The messages that are sent to the second peer. -/
def forwarded (out : List (Effect μ)) : List μ := out.filterMap Effect.forwarded

def Effect.isDropped : Effect μ → Bool
  | .dropped => true
  | _ => false

def Event.datagram1 : Event μ → Option μ
  | .receive1 m => m
  | _ => none

/-- The datagrams from the first peer. -/
def datagrams1 (es : List (Event μ)) : List μ := es.filterMap Event.datagram1

/-- A message that is not dropped, and what it is put into the buffer as. -/
def Settings.Passes (cfg : Settings μ) (m m' : μ) : Prop :=
  m' = m ∨ 0 < cfg.corrupt ∧ ∃ r r', cfg.damage m r r' = some m'

@[simp] lemma forwarded_append : forwarded (acc ++ out) = forwarded acc ++ forwarded out :=
  List.filterMap_append

/-- The threads that receive, up to the buffer. -/
def Event.outside : Event μ → Bool
  | .receive1 _ | .check .. | .receive2 _ | .forward1 => true
  | _ => false

/-! ### What an event does -/

/-- What an event does to the messages. -/
inductive Flow (cfg : Settings μ) (s : Link μ) (e : Event μ) (s' : Link μ) (out : List (Effect μ)) : Prop
  /-- The first datagram is not looked at. -/
  | linkUp (m : μ) (event : e = .receive1 (some m)) (up : s.linkUp1 = false) (up' : s'.linkUp1 = true)
    (unchecked : s'.forwarding.unchecked = s.forwarding.unchecked) (carried : s'.carried = s.carried)
    (out : out = [])
  | received (m : μ) (event : e = .receive1 (some m)) (up : s.linkUp1 = true) (up' : s'.linkUp1 = true)
    (unchecked : s.forwarding.unchecked = []) (unchecked' : s'.forwarding.unchecked = [m])
    (carried : s'.carried = s.carried) (out : out = [])
  | kept (m m' : μ) (event : e.datagram1 = none) (up : s'.linkUp1 = s.linkUp1)
    (unchecked : s.forwarding.unchecked = [m]) (unchecked' : s'.forwarding.unchecked = [])
    (carried : s'.carried = s.carried ++ [m']) (passes : cfg.Passes m m') (out : out = [])
  | dropped (m : μ) (event : e.datagram1 = none) (up : s'.linkUp1 = s.linkUp1)
    (unchecked : s.forwarding.unchecked = [m]) (unchecked' : s'.forwarding.unchecked = [])
    (carried : s'.carried = s.carried) (out : out = [.dropped])
    (why : BUFFER_SIZE ≤ s.buffer.length ∨ 0 < cfg.loss)
  /-- The line moves on. -/
  | moved (event : e.datagram1 = none) (up : s'.linkUp1 = s.linkUp1)
    (unchecked : s'.forwarding.unchecked = s.forwarding.unchecked)
    (carried : forwarded out ++ s'.carried = s.carried)
    (dropped : out.countP Effect.isDropped = 0)

namespace Link

/-- Where the thread of an event is before it, and what the event does. -/
def Does (cfg : Settings μ) (s : Link μ) : Event μ → Link μ → List (Effect μ) → Prop
  | .receive1 o, s', out => s.forwarding = .receive ∧ s.receiveMessage1 o = (s', out)
  | .check roll roll' r r', s', out =>
    ∃ m, s.forwarding = .check m ∧ s.checkSpace cfg m roll roll' r r' = (s', out)
  | .put, s', out => ∃ m, s.forwarding = .put m ∧ s' = s.put m ∧ out = []
  | .receive2 o, s', out => s.reverse = none ∧ s.receiveMessage2 o = (s', out)
  | .forward1, s', out =>
    ∃ m, s.reverse = some m ∧ s' = { s with reverse := none } ∧ out = [.sendMessage1 s.linkUp1 m]
  | .now crtTime, s', out => s.scheduler = .top ∧ s.sendArrived crtTime = (s', out)
  | .look, s', out => ∃ crtTime, s.scheduler = .look crtTime ∧ s' = s.look cfg crtTime ∧ out = []
  | .take, s', out => ∃ crtTime, s.scheduler = .take crtTime ∧ s.take cfg crtTime = (s', out)
  | .park, s', out => s.scheduler = .park ∧ s.park = (s', out)
  | .wake, s', out =>
    ∃ signalled, s.scheduler = .wait signalled ∧ s' = { s with scheduler := .top } ∧ out = []

theorem step_does (h : step cfg s e = some (s', out)) : s.ended = false ∧ Does cfg s e s' out := by
  unfold step at h
  split at h
  · cases h
  · next hended =>
    refine ⟨by simpa using hended, ?_⟩
    cases e with
    | receive2 o =>
      simp only [act] at h
      split at h
      · next hnone => exact ⟨hnone, Option.some.inj h⟩
      · cases h
    | forward1 =>
      obtain ⟨m, hm, hr⟩ := Option.map_eq_some_iff.mp h
      cases hr
      exact ⟨m, hm, rfl, rfl⟩
    | put | look | wake =>
      simp only [act] at h
      split at h
      · next x hx =>
        cases h
        exact ⟨x, hx, rfl, rfl⟩
      · cases h
    | check | take =>
      simp only [act] at h
      split at h
      · next x hx => exact ⟨x, hx, Option.some.inj h⟩
      · cases h
    | receive1 | now | park =>
      simp only [act] at h
      split at h
      · next hx => exact ⟨hx, Option.some.inj h⟩
      · cases h

/-- What the threads that receive do leaves the buffer and the scheduler as they are. -/
structure Same (s s' : Link μ) (out : List (Effect μ)) : Prop where
  buffer : s'.buffer = s.buffer
  inFlight : s'.inFlight = s.inFlight
  idleTime : s'.idleTime = s.idleTime
  scheduler : s'.scheduler = s.scheduler
  effects : ∀ x ∈ out, x = .exit ∨ x = .dropped ∨ x = .fault ∨ ∃ up m, x = .sendMessage1 up m

lemma same_of_outside (he : e.outside = true) (h : Does cfg s e s' out) : Same s s' out := by
  cases e with
  | receive1 o =>
    obtain ⟨-, h⟩ := h
    cases o with
    | none =>
      cases h
      exact ⟨rfl, rfl, rfl, rfl, by simp⟩
    | some m =>
      simp only [receiveMessage1] at h
      split at h <;> cases h <;> exact ⟨rfl, rfl, rfl, rfl, by simp⟩
  | check roll roll' r r' =>
    obtain ⟨m, -, h⟩ := h
    unfold checkSpace at h
    split at h
    · cases h
      exact ⟨rfl, rfl, rfl, rfl, by simp⟩
    · split at h
      · split at h <;> cases h <;> exact ⟨rfl, rfl, rfl, rfl, by simp⟩
      · cases h
        exact ⟨rfl, rfl, rfl, rfl, by simp⟩
  | receive2 o =>
    obtain ⟨-, h⟩ := h
    cases o with
    | none =>
      cases h
      exact ⟨rfl, rfl, rfl, rfl, by simp⟩
    | some m =>
      simp only [receiveMessage2] at h
      split at h <;> cases h <;> exact ⟨rfl, rfl, rfl, rfl, by simp⟩
  | forward1 =>
    obtain ⟨m, -, rfl, rfl⟩ := h
    exact ⟨rfl, rfl, rfl, rfl, by simp⟩
  | _ => cases he

@[simp] lemma rest_forwarding : (s.rest t).forwarding = s.forwarding := rfl

@[simp] lemma look_carried : (s.look cfg t).carried = s.carried := by
  unfold look
  split <;> rfl

@[simp] lemma look_forwarding : (s.look cfg t).forwarding = s.forwarding := by
  unfold look
  split <;> rfl

@[simp] lemma look_linkUp1 : (s.look cfg t).linkUp1 = s.linkUp1 := by
  unfold look
  split <;> rfl

lemma put_carried (h : s.forwarding = .put m) : (s.put m).carried = s.carried := by
  simp [put, carried, h, Forwarding.held]

/-- What the loop over the messages in flight sends is taken off the front. -/
lemma sendArrived_carried :
    forwarded (s.sendArrived t).2 ++ (s.sendArrived t).1.carried = s.carried := by
  have hsent : forwarded (s.sendArrived t).2 =
      (s.inFlight.takeWhile fun mif => mif.finishTime ≤ t).map MsgInFlight.m := by
    unfold forwarded sendArrived
    rw [List.filterMap_map]
    exact congrFun (List.filterMap_eq_map (f := MsgInFlight.m)) _
  rw [hsent]
  unfold sendArrived carried
  simp only [← List.append_assoc, ← List.map_append, List.takeWhile_append_dropWhile]

lemma checkSpace_flow {roll roll' r r' : ℕ} (hf : s.forwarding = .check m) (he : e.datagram1 = none)
    (h : s.checkSpace cfg m roll roll' r r' = (s', out)) : Flow cfg s e s' out := by
  have hun : s.forwarding.unchecked = [m] := by rw [hf]; rfl
  have hcar : s.carried = s.inFlight.map MsgInFlight.m ++ s.buffer := by
    simp [carried, hf, Forwarding.held]
  unfold checkSpace at h
  split at h
  · next hdrop =>
    cases h
    refine .dropped m he rfl hun rfl (by simp [carried, hf, Forwarding.held]) rfl ?_
    exact hdrop.imp_right fun hroll => (Int.natCast_nonneg _).trans_lt hroll
  · split at h
    · next hroll =>
      split at h
      · next m' hm' =>
        cases h
        have hpass : cfg.Passes m m' := .inr ⟨(Int.natCast_nonneg _).trans_lt hroll, r, r', hm'⟩
        exact .kept m m' he rfl hun rfl (by rw [hcar]; rfl) hpass rfl
      · cases h
        exact .moved he rfl rfl rfl rfl
    · cases h
      exact .kept m m he rfl hun rfl (by rw [hcar]; rfl) (.inl rfl) rfl

/-- **What an event does to the messages.** -/
theorem step_flow (h : step cfg s e = some (s', out)) : Flow cfg s e s' out := by
  obtain ⟨-, h⟩ := step_does h
  cases e with
  | receive1 o =>
    obtain ⟨hf, h⟩ := h
    cases o with
    | none =>
      cases h
      exact .moved rfl rfl rfl rfl rfl
    | some m =>
      simp only [receiveMessage1] at h
      split at h
      · next hup =>
        cases h
        exact .received m rfl hup hup (by rw [hf]; rfl) rfl (by simp [carried, hf, Forwarding.held]) rfl
      · next hup =>
        cases h
        exact .linkUp m rfl (by simpa using hup) rfl rfl rfl rfl
  | check roll roll' r r' =>
    obtain ⟨m, hm, h⟩ := h
    exact checkSpace_flow hm rfl h
  | put =>
    obtain ⟨m, hm, rfl, rfl⟩ := h
    exact .moved rfl rfl (by rw [hm]; rfl) (put_carried hm) rfl
  | receive2 o =>
    obtain ⟨-, h⟩ := h
    cases o with
    | none =>
      cases h
      exact .moved rfl rfl rfl rfl rfl
    | some m =>
      simp only [receiveMessage2] at h
      split at h <;> cases h <;> exact .moved rfl rfl rfl rfl rfl
  | forward1 =>
    obtain ⟨m, -, rfl, rfl⟩ := h
    exact .moved rfl rfl rfl rfl rfl
  | now t =>
    obtain ⟨-, h⟩ := h
    cases h
    refine .moved rfl rfl rfl sendArrived_carried ?_
    simp [List.countP_map, Function.comp_def, Effect.isDropped]
  | look =>
    obtain ⟨t, -, rfl, rfl⟩ := h
    exact .moved rfl look_linkUp1 (by rw [look_forwarding]) look_carried rfl
  | take =>
    obtain ⟨t, -, h⟩ := h
    unfold take at h
    split at h
    · cases h
      exact .moved rfl rfl rfl rfl rfl
    · next m buffer hbuffer =>
      cases h
      exact .moved rfl rfl rfl (by simp [rest, carried, hbuffer, forwarded]) rfl
  | park =>
    obtain ⟨-, h⟩ := h
    unfold park at h
    split at h <;> cases h <;> exact .moved rfl rfl rfl rfl rfl
  | wake =>
    obtain ⟨signalled, -, rfl, rfl⟩ := h
    exact .moved rfl rfl rfl rfl rfl

/-! ### First in, first out -/

/-- What the link has made of the datagrams from the first peer: `kept` lists the messages that were
not dropped, as they came and as they were put into the buffer. -/
structure Conserves (cfg : Settings μ) (is : List (Event μ)) (s : Link μ) (out : List (Effect μ))
    (kept : List (μ × μ)) (checked : List μ) : Prop where
  line : kept.map Prod.snd = forwarded out ++ s.carried
  passes : ∀ x ∈ kept, cfg.Passes x.1 x.2
  sublist : (kept.map Prod.fst).Sublist checked
  length : checked.length = kept.length + out.countP Effect.isDropped
  received : checked ++ s.forwarding.unchecked = (datagrams1 is).tail
  up : s.linkUp1 = true ↔ datagrams1 is ≠ []

lemma datagrams1_snoc : datagrams1 (is ++ [e]) = datagrams1 is ++ e.datagram1.toList := by
  unfold datagrams1
  rw [List.filterMap_append]
  cases h : e.datagram1 <;> simp [h]

variable {kept : List (μ × μ)} {checked : List μ}

/-- An event keeps the account. -/
lemma Conserves.step (hc : Conserves cfg is s acc kept checked) (h : Flow cfg s e s' out) :
    ∃ kept checked, Conserves cfg (is ++ [e]) s' (acc ++ out) kept checked := by
  obtain ⟨hline, hpass, hsub, hlen, hrec, hup⟩ := hc
  cases h with
  | linkUp m he hdown hup' hun hcar hout =>
    subst hout
    have hnone : datagrams1 is = [] := by
      by_contra hne
      rw [hup.mpr hne] at hdown
      cases hdown
    refine ⟨kept, checked, ?_, hpass, hsub, by rw [List.append_nil, hlen], ?_, ?_⟩
    · rw [List.append_nil, hline, hcar]
    · rw [hun, hrec, datagrams1_snoc, hnone, he]
      rfl
    · rw [datagrams1_snoc, he]
      simp [hup', Event.datagram1]
  | received m he hup₁ hup' hun hun' hcar hout =>
    subst hout
    refine ⟨kept, checked, ?_, hpass, hsub, by rw [List.append_nil, hlen], ?_, ?_⟩
    · rw [List.append_nil, hline, hcar]
    · rw [hun, List.append_nil] at hrec
      rw [hun', hrec, datagrams1_snoc, he]
      exact (List.tail_append_of_ne_nil (hup.mp hup₁)).symm
    · rw [datagrams1_snoc, he]
      simp [hup', Event.datagram1]
  | kept m m' he hup' hun hun' hcar hp hout =>
    subst hout
    refine ⟨kept ++ [(m, m')], checked ++ [m], ?_, ?_, ?_, ?_, ?_, ?_⟩
    · rw [List.map_append, hline, hcar, List.append_nil, List.append_assoc]
      rfl
    · intro x hx
      rcases List.mem_append.mp hx with hx | hx
      · exact hpass x hx
      · rw [List.mem_singleton.mp hx]
        exact hp
    · rw [List.map_append]
      exact hsub.append (List.Sublist.refl _)
    · rw [List.append_nil, List.length_append, List.length_append, hlen]
      simp only [List.length_singleton]
      omega
    · rw [hun', List.append_nil, ← hun, hrec, datagrams1_snoc, he]
      simp
    · rw [hup', hup, datagrams1_snoc, he]
      simp
  | dropped m he hup' hun hun' hcar hout hwhy =>
    subst hout
    refine ⟨kept, checked ++ [m], ?_, hpass, ?_, ?_, ?_, ?_⟩
    · rw [hline, hcar, forwarded_append]
      simp [forwarded, Effect.forwarded]
    · exact hsub.trans (List.sublist_append_left _ _)
    · rw [List.length_append, hlen, List.countP_append]
      simp only [List.length_singleton, List.countP_singleton, Effect.isDropped, if_true]
      omega
    · rw [hun', List.append_nil, ← hun, hrec, datagrams1_snoc, he]
      simp
    · rw [hup', hup, datagrams1_snoc, he]
      simp
  | moved he hup' hun hcar hdrop =>
    refine ⟨kept, checked, ?_, hpass, hsub, ?_, ?_, ?_⟩
    · rw [hline, forwarded_append, List.append_assoc, hcar]
    · rw [hlen, List.countP_append, hdrop, Nat.add_zero]
    · rw [hun, hrec, datagrams1_snoc, he]
      simp
    · rw [hup', hup, datagrams1_snoc, he]
      simp

lemma conserves_start : Conserves cfg [] (start : Link μ) [] [] [] := by
  constructor <;> simp [start, carried, forwarded, Forwarding.held, Forwarding.unchecked, datagrams1]

/-- **First in, first out.** In every run the messages that are not dropped are sent in their order, each
once, and those that are not sent yet are carried. -/
theorem link_fifo (h : exec (step cfg) start is = some (s, out)) :
    ∃ kept checked, Conserves cfg is s out kept checked := by
  refine exec_inputs (P := fun is s acc => ∃ kept checked, Conserves cfg is s acc kept checked) ?_
    ⟨[], [], conserves_start⟩ h
  rintro is acc s i s' out ⟨kept, checked, hc⟩ hs
  exact hc.step (step_flow hs)

/-- A message on its way to the second peer. -/
theorem link_fifo_sent : ∃ s out, exec (step (⟨1, 1, 0, 0, fun m _ _ => some m⟩ : Settings ℕ)) start
    [.receive1 (some 0), .receive1 (some 7), .check 0 0 0 0, .put, .now 0, .look, .take, .now 2] =
      some (s, out) ∧ forwarded out = [7] ∧ ∃ kept checked, Conserves ⟨1, 1, 0, 0, fun m _ _ => some m⟩
    [.receive1 (some 0), .receive1 (some 7), .check 0 0 0 0, .put, .now 0, .look, .take, .now 2]
      s out kept checked :=
  ⟨_, _, rfl, rfl, link_fifo rfl⟩

end Link

end Protocoale.Emulator

import Mathlib.Data.List.Flatten
import Mathlib.Tactic

/-!
A server and its clients on stream sockets. A connection is two byte streams: what one end has read of
a stream is always a prefix of what the other end has written (`Wires.Ok`), in whatever pieces it reads
it. The server is a partial machine; the system calls of one of its steps are the ones that feed it,
read off its input, and the ones it makes, read off its outputs.

A call fails on a descriptor that is not open. For the calls a server cannot go on without there is no
step then; a `send` it does not check writes nowhere. What is written to a client that has left stays
unread.

`calls_sends` says what the sends of a server do to the connections, `ok_step` that nothing is invented
or reordered on the way.
-/

namespace Protocoale.Lib.Sockets

/-- The system calls of a server. -/
inductive Call (β : Type*)
  | accept (fd : ℕ)
  | recv (fd : ℕ) (data : List β)
  | send (fd : ℕ) (data : List β)
  /-- a `send` whose result is not looked at -/
  | trySend (fd : ℕ) (data : List β)
  | close (fd : ℕ)

/-- The connections, numbered in the order in which the clients make them. -/
structure Wires (β : Type*) where
  made : ℕ
  /-- the connections that wait for `accept` -/
  backlog : List ℕ
  /-- the connection of a descriptor of the server -/
  owner : ℕ → Option ℕ
  /-- the writes of the client, and what the reads of the server have returned -/
  put : ℕ → List (List β)
  taken : ℕ → List (List β)
  /-- what the server has written, and what the reads of the client have returned -/
  sent : ℕ → List β
  got : ℕ → List (List β)
  /-- the client, or the server, has closed its end -/
  left : ℕ → Bool
  closed : ℕ → Bool

namespace Call

variable {β : Type*}

def IsSend : Call β → Prop
  | .send _ _ | .trySend _ _ => True
  | _ => False

/-- What a call writes on a connection. -/
def sentTo (owner : ℕ → Option ℕ) (k : ℕ) : Call β → List β
  | .send fd data | .trySend fd data => if owner fd = some k then data else []
  | _ => []

end Call

/-- What happens: a client connects and writes its first bytes, writes more, leaves, reads, or the
server takes a step. -/
inductive Move (ι β : Type*)
  | connect (data : List β)
  | put (k : ℕ) (data : List β)
  | leave (k : ℕ)
  | take (k : ℕ) (data : List β)
  | serve (x : ι)

variable {σ ι ο β : Type*}

/-- A read gives the next bytes of a stream, and nothing only at its end. -/
def Reads (written : List β) (read : List (List β)) (ended : Bool) (data : List β) : Prop :=
  read.flatten ++ data <+: written ∧ (data = [] → read.flatten = written ∧ ended = true)

instance [DecidableEq β] (written : List β) (read : List (List β)) (ended : Bool) (data : List β) :
    Decidable (Reads written read ended data) := inferInstanceAs (Decidable (_ ∧ _))

namespace Wires

def start : Wires β where
  made := 0
  backlog := []
  owner := fun _ => none
  put := fun _ => []
  taken := fun _ => []
  sent := fun _ => []
  got := fun _ => []
  left := fun _ => false
  closed := fun _ => false

/-- The connection is made and its client has not left. -/
def Open (w : Wires β) (k : ℕ) : Prop := k < w.made ∧ w.left k = false

instance (w : Wires β) (k : ℕ) : Decidable (w.Open k) := inferInstanceAs (Decidable (_ ∧ _))

variable [DecidableEq β]

def call (w : Wires β) : Call β → Option (Wires β)
  | .accept fd =>
    match w.backlog with
    | [] => none
    | k :: ks =>
      if w.owner fd = none then
        some { w with backlog := ks, owner := Function.update w.owner fd (some k) }
      else none
  | .recv fd data => (w.owner fd).bind fun k =>
    if Reads (w.put k).flatten (w.taken k) (w.left k) data then
      some { w with taken := Function.update w.taken k (w.taken k ++ [data]) }
    else none
  | .send fd data => (w.owner fd).map fun k =>
    { w with sent := Function.update w.sent k (w.sent k ++ data) }
  | .trySend fd data =>
    match w.owner fd with
    | none => some w
    | some k => some { w with sent := Function.update w.sent k (w.sent k ++ data) }
  | .close fd =>
    match w.owner fd with
    | none => some w
    | some k => some { w with
        owner := Function.update w.owner fd none
        closed := Function.update w.closed k true }

def calls (w : Wires β) (cs : List (Call β)) : Option (Wires β) := cs.foldlM call w

/-- A client that reads the end of its stream closes its own end. -/
def take (w : Wires β) (k : ℕ) (data : List β) : Option (Wires β) :=
  if w.Open k ∧ Reads (w.sent k) (w.got k) (w.closed k) data then
    some { w with
      got := Function.update w.got k (w.got k ++ [data])
      left := if data = [] then Function.update w.left k true else w.left }
  else none

end Wires

section Step

variable [DecidableEq β] (next : σ → ι → Option (σ × List ο)) (feeds : ι → List (Call β))
  (makes : ο → Option (Call β))

/-- One move of the server and its clients. -/
def step (y : σ × Wires β) : Move ι β → Option ((σ × Wires β) × List ο)
  | .connect data => some ((y.1, { y.2 with
      made := y.2.made + 1
      backlog := y.2.backlog ++ [y.2.made]
      put := Function.update y.2.put y.2.made [data] }), [])
  | .put k data =>
    if y.2.Open k then
      some ((y.1, { y.2 with put := Function.update y.2.put k (y.2.put k ++ [data]) }), [])
    else none
  | .leave k =>
    if y.2.Open k then some ((y.1, { y.2 with left := Function.update y.2.left k true }), []) else none
  | .take k data => (y.2.take k data).map fun w => ((y.1, w), [])
  | .serve x => (y.2.calls (feeds x)).bind fun w => (next y.1 x).bind fun r =>
    (w.calls (r.2.filterMap makes)).map fun w' => ((r.1, w'), r.2)

end Step

namespace Wires

variable [DecidableEq β] {w w' : Wires β} {c : Call β} {cs : List (Call β)} {k fd : ℕ} {data : List β}

/-! ### The calls -/

lemma calls_cons : w.calls (c :: cs) = (w.call c).bind fun w' => w'.calls cs := rfl

lemma call_accept (h : w.call (.accept fd) = some w') : ∃ k ks, w.backlog = k :: ks ∧
    w.owner fd = none ∧
    w' = { w with backlog := ks, owner := Function.update w.owner fd (some k) } := by
  simp only [call] at h
  split at h
  · cases h
  · next k ks hb =>
    split at h
    · next ho =>
      cases h
      exact ⟨k, ks, hb, ho, rfl⟩
    · cases h

lemma call_recv (h : w.call (.recv fd data) = some w') : ∃ k, w.owner fd = some k ∧
    Reads (w.put k).flatten (w.taken k) (w.left k) data ∧
    w' = { w with taken := Function.update w.taken k (w.taken k ++ [data]) } := by
  obtain ⟨k, hk, h⟩ := Option.bind_eq_some_iff.mp h
  split at h
  · next hr =>
    cases h
    exact ⟨k, hk, hr, rfl⟩
  · cases h

@[simp] lemma calls_singleton : w.calls [c] = w.call c := by simp [calls]

/-- A connection is accepted and its first bytes are read. -/
lemma calls_accept (h : w.calls [.accept fd, .recv fd data] = some w') : ∃ k ks,
    w.backlog = k :: ks ∧ w.owner fd = none ∧ Reads (w.put k).flatten (w.taken k) (w.left k) data ∧
      w' = { w with
        backlog := ks
        owner := Function.update w.owner fd (some k)
        taken := Function.update w.taken k (w.taken k ++ [data]) } := by
  rw [calls_cons] at h
  obtain ⟨w₁, h₁, h⟩ := Option.bind_eq_some_iff.mp h
  obtain ⟨k, ks, hb, hno, rfl⟩ := call_accept h₁
  rw [calls_singleton] at h
  obtain ⟨j, hj, hreads, rfl⟩ := call_recv h
  obtain rfl : k = j := by simpa using hj
  exact ⟨k, ks, hb, hno, hreads, rfl⟩

lemma call_close (h : w.call (.close fd) = some w') :
    (w.owner fd = none ∧ w' = w) ∨ ∃ k, w.owner fd = some k ∧ w' = { w with
      owner := Function.update w.owner fd none
      closed := Function.update w.closed k true } := by
  simp only [call] at h
  split at h
  · next hno =>
    cases h
    exact .inl ⟨hno, rfl⟩
  · next k hk =>
    cases h
    exact .inr ⟨k, hk, rfl⟩

/-- A handler that prints a line and closes a descriptor. -/
lemma calls_close {makes : ο → Option (Call β)} {o o' : ο}
    (h : w.calls ([o, o'].filterMap makes) = some w') (ho : makes o = none)
    (ho' : makes o' = some (.close fd)) (hk : w.owner fd = some k) : w' = { w with
      owner := Function.update w.owner fd none
      closed := Function.update w.closed k true } := by
  rw [List.filterMap_cons_none ho, List.filterMap_cons_some ho', List.filterMap_nil, calls_singleton] at h
  rcases call_close h with ⟨hno, -⟩ | ⟨j, hj, hw'⟩
  · rw [hk] at hno
    cases hno
  · rw [hk, Option.some.injEq] at hj
    rw [hw', hj]

/-- A send is written on the connection its descriptor has. -/
lemma call_send (hsend : c.IsSend) (h : w.call c = some w') :
    w' = { w with sent := fun k => w.sent k ++ c.sentTo w.owner k } := by
  have hwrite : ∀ {fd j : ℕ} {data : List β}, w.owner fd = some j →
      Function.update w.sent j (w.sent j ++ data) =
        fun k => w.sent k ++ if w.owner fd = some k then data else [] := by
    intro fd j data hj
    funext k
    by_cases hk : k = j
    · subst hk
      simp [hj]
    · have hne : ¬ j = k := fun he => hk he.symm
      simp [hj, hk, hne]
  cases c with
  | send fd data =>
    obtain ⟨j, hj, rfl⟩ := Option.map_eq_some_iff.mp h
    rw [hwrite hj]
    rfl
  | trySend fd data =>
    simp only [call] at h
    split at h
    · next hno =>
      cases h
      simp [Call.sentTo, hno]
    · next j hj =>
      cases h
      rw [hwrite hj]
      rfl
  | _ => exact hsend.elim

/-- **The sends of a step.** Each goes to the connection its descriptor has when the step begins. -/
theorem calls_sends (hsend : ∀ c ∈ cs, c.IsSend) (h : w.calls cs = some w') :
    w' = { w with sent := fun k => w.sent k ++ cs.flatMap (Call.sentTo w.owner k) } := by
  induction cs generalizing w with
  | nil =>
    cases h
    simp
  | cons c cs ih =>
    rw [calls_cons] at h
    obtain ⟨w₁, h₁, h⟩ := Option.bind_eq_some_iff.mp h
    have hfirst := call_send (hsend c List.mem_cons_self) h₁
    subst hfirst
    rw [ih (fun c hc => hsend c (List.mem_cons_of_mem _ hc)) h]
    simp [List.flatMap_cons, List.append_assoc]

/-- Sends on descriptors that are open do not fail. -/
lemma exists_calls_of_sends (hsend : ∀ c ∈ cs, c.IsSend)
    (hopen : ∀ fd data, .send fd data ∈ cs → w.owner fd ≠ none) : ∃ w', w.calls cs = some w' := by
  induction cs generalizing w with
  | nil => exact ⟨w, rfl⟩
  | cons c cs ih =>
    obtain ⟨w₁, h₁⟩ : ∃ w₁, w.call c = some w₁ := by
      cases c with
      | send fd data =>
        obtain ⟨k, hk⟩ := Option.ne_none_iff_exists'.mp (hopen fd data List.mem_cons_self)
        exact Option.isSome_iff_exists.mp (by simp [call, hk])
      | trySend fd data =>
        refine Option.isSome_iff_exists.mp ?_
        cases hk : w.owner fd <;> simp [call, hk]
      | _ => exact (hsend _ List.mem_cons_self).elim
    have howner : w₁.owner = w.owner := by rw [call_send (hsend c List.mem_cons_self) h₁]
    have hrest : ∀ fd data, .send fd data ∈ cs → w₁.owner fd ≠ none := by
      intro fd data hin
      rw [howner]
      exact hopen fd data (List.mem_cons_of_mem c hin)
    obtain ⟨w', hw'⟩ := ih (fun c hc => hsend c (List.mem_cons_of_mem _ hc)) hrest
    exact ⟨w', by rw [calls_cons, h₁, Option.bind_some, hw']⟩

lemma exists_call_close : ∃ w', w.call (.close fd) = some w' := by
  refine Option.isSome_iff_exists.mp ?_
  cases hk : w.owner fd <;> simp [call, hk]

/-! ### What both ends have of a stream -/

/-- The connections are made in order, a descriptor has one, and what was read is a prefix of what was
written. -/
structure Ok (w : Wires β) : Prop where
  nodup : w.backlog.Nodup
  lt : ∀ k ∈ w.backlog, k < w.made
  owned : ∀ fd k, w.owner fd = some k → k < w.made ∧ k ∉ w.backlog
  inj : ∀ fd fd' k, w.owner fd = some k → w.owner fd' = some k → fd = fd'
  taken : ∀ k, (w.taken k).flatten <+: (w.put k).flatten
  got : ∀ k, (w.got k).flatten <+: w.sent k
  /-- nothing happens on a connection before it is accepted -/
  early : ∀ k, w.made ≤ k ∨ k ∈ w.backlog → w.taken k = [] ∧ w.sent k = []

omit [DecidableEq β] in
lemma ok_start : (start : Wires β).Ok where
  nodup := List.nodup_nil
  lt := by simp [start]
  owned := by simp [start]
  inj := by simp [start]
  taken := by simp [start]
  got := by simp [start]
  early := by simp [start]

omit [DecidableEq β] in
/-- A connection that has a descriptor is neither waiting nor still to be made. -/
lemma Ok.not_early (hok : w.Ok) (h : w.owner fd = some k) : ¬ (w.made ≤ k ∨ k ∈ w.backlog) := by
  obtain ⟨hlt, hnot⟩ := hok.owned fd k h
  rintro (hle | hin)
  · omega
  · exact hnot hin

lemma Ok.send (hok : w.Ok) (hsend : c.IsSend) (h : w.call c = some w') : w'.Ok := by
  rw [call_send hsend h]
  refine { hok with got := ?_, early := ?_ }
  · intro k
    exact (hok.got k).trans (List.prefix_append _ _)
  · intro k hk
    have hno : c.sentTo w.owner k = [] := by
      cases c with
      | send fd data => exact if_neg fun ho => hok.not_early ho hk
      | trySend fd data => exact if_neg fun ho => hok.not_early ho hk
      | _ => rfl
    obtain ⟨htaken, hsent⟩ := hok.early k hk
    exact ⟨htaken, by simp [hsent, hno]⟩

lemma Ok.call (hok : w.Ok) (h : w.call c = some w') : w'.Ok := by
  cases c with
  | accept fd =>
    obtain ⟨k, ks, hb, hno, rfl⟩ := call_accept h
    have hnodup := hok.nodup
    rw [hb, List.nodup_cons] at hnodup
    have hmem : k ∈ w.backlog := by
      rw [hb]
      exact List.mem_cons_self
    have hcases : ∀ fd' j, Function.update w.owner fd (some k) fd' = some j →
        fd' = fd ∧ j = k ∨ fd' ≠ fd ∧ w.owner fd' = some j := by
      intro fd' j hj
      by_cases hfd : fd' = fd
      · subst hfd
        rw [Function.update_self] at hj
        exact .inl ⟨rfl, (Option.some.inj hj).symm⟩
      · rw [Function.update_of_ne hfd] at hj
        exact .inr ⟨hfd, hj⟩
    refine { hok with nodup := hnodup.2, lt := ?_, owned := ?_, inj := ?_, early := ?_ }
    · intro j hj
      exact hok.lt j (hb ▸ List.mem_cons_of_mem k hj)
    · intro fd' j hj
      rcases hcases fd' j hj with ⟨rfl, rfl⟩ | ⟨-, hj⟩
      · exact ⟨hok.lt _ hmem, hnodup.1⟩
      · obtain ⟨hlt, hnot⟩ := hok.owned fd' j hj
        exact ⟨hlt, fun hin => hnot (hb ▸ List.mem_cons_of_mem k hin)⟩
    · intro fd' fd'' j hj hj'
      rcases hcases fd' j hj with ⟨he, rfl⟩ | ⟨-, hold⟩
      · rcases hcases fd'' j hj' with ⟨he', -⟩ | ⟨-, hold'⟩
        · rw [he, he']
        · exact absurd hmem (hok.owned fd'' j hold').2
      · rcases hcases fd'' j hj' with ⟨-, rfl⟩ | ⟨-, hold'⟩
        · exact absurd hmem (hok.owned fd' j hold).2
        · exact hok.inj fd' fd'' j hold hold'
    · intro j hj
      exact hok.early j (hj.imp_right fun hin => hb ▸ List.mem_cons_of_mem k hin)
  | recv fd data =>
    obtain ⟨k, hk, hreads, rfl⟩ := call_recv h
    refine { hok with taken := ?_, early := ?_ }
    · intro j
      by_cases hj : j = k
      · subst hj
        simpa using hreads.1
      · simpa [hj] using hok.taken j
    · intro j hj
      have hne : j ≠ k := by
        rintro rfl
        exact hok.not_early hk hj
      simpa [hne] using hok.early j hj
  | close fd =>
    rcases call_close h with ⟨-, rfl⟩ | ⟨k, hk, rfl⟩
    · exact hok
    · have hopen : ∀ fd' j, Function.update w.owner fd none fd' = some j → w.owner fd' = some j := by
        intro fd' j hj
        by_cases hfd : fd' = fd
        · subst hfd
          simp at hj
        · rwa [Function.update_of_ne hfd] at hj
      refine { hok with owned := ?_, inj := ?_ }
      · intro fd' j hj
        exact hok.owned fd' j (hopen fd' j hj)
      · intro fd' fd'' j hj hj'
        exact hok.inj _ _ _ (hopen _ _ hj) (hopen _ _ hj')
  | send fd data => exact hok.send (c := .send fd data) trivial h
  | trySend fd data => exact hok.send (c := .trySend fd data) trivial h

lemma Ok.calls (hok : w.Ok) (h : w.calls cs = some w') : w'.Ok := by
  induction cs generalizing w with
  | nil =>
    cases h
    exact hok
  | cons c cs ih =>
    rw [calls_cons] at h
    obtain ⟨w₁, h₁, h⟩ := Option.bind_eq_some_iff.mp h
    exact ih (hok.call h₁) h

lemma Ok.take (hok : w.Ok) (h : w.take k data = some w') : w'.Ok := by
  unfold Wires.take at h
  split at h
  · next hif =>
    cases h
    refine { hok with got := ?_ }
    intro j
    by_cases hj : j = k
    · subst hj
      simpa using hif.2.1
    · simpa [hj] using hok.got j
  · cases h

end Wires

/-! ### Moves -/

section Moves

variable [DecidableEq β] {next : σ → ι → Option (σ × List ο)} {feeds : ι → List (Call β)}
  {makes : ο → Option (Call β)} {y y' : σ × Wires β} {m : Move ι β}
  {out : List ο} {x : ι}

/-- A step of the server, taken apart. -/
lemma step_serve (h : step next feeds makes y (.serve x) = some (y', out)) : ∃ w,
    y.2.calls (feeds x) = some w ∧ next y.1 x = some (y'.1, out) ∧
      w.calls (out.filterMap makes) = some y'.2 := by
  obtain ⟨w, hw, h⟩ := Option.bind_eq_some_iff.mp h
  obtain ⟨r, hr, h⟩ := Option.bind_eq_some_iff.mp h
  obtain ⟨w', hw', he⟩ := Option.map_eq_some_iff.mp h
  cases he
  exact ⟨w, hw, hr, hw'⟩

/-- A move of a client leaves the server and its side of the connections as they are. -/
structure Aside (y y' : σ × Wires β) : Prop where
  server : y'.1 = y.1
  owner : y'.2.owner = y.2.owner
  taken : y'.2.taken = y.2.taken
  sent : y'.2.sent = y.2.sent
  made : y.2.made ≤ y'.2.made
  backlog : ∀ k ∈ y'.2.backlog, k ∈ y.2.backlog ∨ y.2.made ≤ k

lemma step_client (hm : ∀ x, m ≠ .serve x) (h : step next feeds makes y m = some (y', out)) :
    Aside y y' ∧ out = [] := by
  cases m with
  | connect data =>
    cases h
    refine ⟨⟨rfl, rfl, rfl, rfl, Nat.le_succ _, ?_⟩, rfl⟩
    intro k hk
    exact (List.mem_append.mp hk).imp_right fun hk => (List.mem_singleton.mp hk).ge
  | put k data =>
    simp only [step] at h
    split at h
    · cases h
      exact ⟨⟨rfl, rfl, rfl, rfl, le_rfl, fun _ => .inl⟩, rfl⟩
    · cases h
  | leave k =>
    simp only [step] at h
    split at h
    · cases h
      exact ⟨⟨rfl, rfl, rfl, rfl, le_rfl, fun _ => .inl⟩, rfl⟩
    · cases h
  | take k data =>
    obtain ⟨w, hw, he⟩ := Option.map_eq_some_iff.mp h
    cases he
    unfold Wires.take at hw
    split at hw
    · cases hw
      exact ⟨⟨rfl, rfl, rfl, rfl, le_rfl, fun _ => .inl⟩, rfl⟩
    · cases hw
  | serve x => exact absurd rfl (hm x)

theorem ok_step (hok : y.2.Ok) (h : step next feeds makes y m = some (y', out)) : y'.2.Ok := by
  cases m with
  | connect data =>
    cases h
    have hne : ∀ k ∈ y.2.backlog, k ≠ y.2.made := fun k hk => (hok.lt k hk).ne
    constructor
    case nodup =>
      show (y.2.backlog ++ [y.2.made]).Nodup
      simpa using hok.nodup.concat fun hin => hne _ hin rfl
    case lt =>
      intro k hk
      rcases List.mem_append.mp hk with hk | hk
      · exact (hok.lt k hk).trans (Nat.lt_succ_self _)
      · rw [List.mem_singleton.mp hk]
        exact Nat.lt_succ_self _
    case owned =>
      intro fd k hk
      obtain ⟨hlt, hnot⟩ := hok.owned fd k hk
      refine ⟨hlt.trans (Nat.lt_succ_self _), ?_⟩
      simp [hnot, hlt.ne]
    case inj => exact hok.inj
    case taken =>
      intro k
      by_cases hk : k = y.2.made
      · subst hk
        simp [(hok.early _ (.inl le_rfl)).1]
      · simpa [hk] using hok.taken k
    case got => exact hok.got
    case early =>
      intro k hk
      refine hok.early k ?_
      rcases hk with hk | hk
      · exact .inl (Nat.le_of_succ_le hk)
      · rcases List.mem_append.mp hk with hk | hk
        · exact .inr hk
        · exact .inl (List.mem_singleton.mp hk).ge
  | put k data =>
    simp only [step] at h
    split at h
    · cases h
      refine { hok with taken := ?_ }
      intro j
      by_cases hj : j = k
      · subst hj
        simpa using (hok.taken j).trans (List.prefix_append _ _)
      · simpa [hj] using hok.taken j
    · cases h
  | leave k =>
    simp only [step] at h
    split at h
    · cases h
      exact { hok with }
    · cases h
  | take k data =>
    obtain ⟨w, hw, he⟩ := Option.map_eq_some_iff.mp h
    cases he
    exact hok.take hw
  | serve x =>
    obtain ⟨w, hw, -, hw'⟩ := step_serve h
    exact (hok.calls hw).calls hw'

end Moves

end Protocoale.Lib.Sockets

import Protocoale.Practic.Invariant

/-!
Which descriptors the chat server waits on. The branch for a nickname that comes back returns before
the descriptor is added to `read_fds`, so the server listens to all its active clients exactly in the
runs in which nobody comes back (`listened_iff`).
-/

namespace Protocoale.Practic

open Lib Lib.Bytes Lib.CText

namespace Server

variable {s s' : Server} {fd : ℕ} {out : List Output} {e : Event} {es : List Event}

/-- The descriptors of the active clients are those `select` waits on, besides standard input and the
listening socket, and it is given a bound that covers them. -/
structure Listened (s : Server) : Prop where
  keys : ∀ fd, (∃ c, s.activeSocketClient.find fd = some c) ↔
    fd ∈ s.readFds ∧ fd ≠ 0 ∧ fd ≠ s.sockTcp
  le_fdMax : ∀ fd c, s.activeSocketClient.find fd = some c → fd ≤ s.fdMax

/-- A client connects under a nickname that is known and not in use. -/
def Reconnects (s : Server) : Event → Prop
  | .connection _ data => ∃ nickname ∈ newClientNickname data,
      s.activeClients.find nickname = none ∧ s.allClients.find nickname ≠ none
  | .tcp _ _ _ => False

instance (s : Server) : (e : Event) → Decidable (Reconnects s e)
  | .connection _ _ => inferInstanceAs (Decidable (∃ nickname ∈ _, _))
  | .tcp _ _ _ => inferInstanceAs (Decidable False)

lemma listened_init (sockTcp : ℕ) : Listened (init sockTcp) := by
  constructor <;> simp [init]

/-- A client that comes back on a descriptor nobody listens to. -/
lemma not_listened_of_reconnects (hinv : Inv s) (hlegal : Legal s e) (hrec : Reconnects s e)
    (h : step s e = some (s', out)) : ¬ Listened s' := by
  cases e with
  | tcp i data order => cases hrec
  | connection fd data =>
    obtain ⟨nickname, hnick, hoff, hknown⟩ := hrec
    obtain ⟨hreads, hfd, -⟩ := hlegal
    obtain ⟨client, hall⟩ := Option.ne_none_iff_exists'.mp hknown
    rw [step_connection] at h
    rw [Option.mem_def.mp hnick, Option.bind_some] at h
    obtain rfl := hinv.numbered.nickname _ _ hall
    obtain ⟨hj, hreads', -⟩ := acceptClient_known hoff hall (hinv.nrs_of_inactive hall hoff) hfd h
    intro hlisten
    have hmem : fd ∈ s'.readFds := ((hlisten.keys fd).mp ⟨client, by rw [hj.sockets, if_pos rfl]⟩).1
    rw [hreads'] at hmem
    exact hreads hmem

/-- A new client's descriptor is added to `read_fds`. -/
lemma Listened.new {client : TcpClient} (hs : Listened s) (hinv : Inv s) (hreads : fd ∉ s.readFds)
    (hj : Joined s s' fd client) (hreads' : s'.readFds = insert fd s.readFds)
    (hmax : s'.fdMax = max s.fdMax fd) : Listened s' := by
  constructor
  · intro fd'
    rw [hj.sockets, hreads', hj.sockTcp, Finset.mem_insert]
    have h0 : fd ≠ 0 := fun h => hreads (h ▸ hinv.listening.1)
    have hsock : fd ≠ s.sockTcp := fun h => hreads (h ▸ hinv.listening.2)
    have := hs.keys fd'
    split
    · next heq => subst heq; simp [h0, hsock]
    · next hne => simpa [hne] using this
  · intro fd' c hc
    rw [hj.sockets] at hc
    rw [hmax]
    split at hc
    · next heq => rw [heq]; exact le_max_right _ _
    · exact le_trans (hs.le_fdMax fd' c hc) (le_max_left _ _)

/-- A client that left is taken out of both. -/
lemma Listened.close {i : ℕ} {client : TcpClient} (hs : Listened s) : Listened { s with
    readFds := s.readFds.erase i
    activeNrsSockets := s.activeNrsSockets.erase client.number
    activeClients := s.activeClients.erase client.nickname
    activeSocketClient := s.activeSocketClient.erase i } := by
  constructor
  · intro fd'
    dsimp only
    rw [UMap.find_erase, Finset.mem_erase]
    have := hs.keys fd'
    split
    · next heq => simp [heq]
    · next hne => simpa [hne] using this
  · intro fd' c hc
    dsimp only at hc ⊢
    rw [UMap.find_erase] at hc
    split at hc
    · cases hc
    · exact hs.le_fdMax fd' c hc

/-- All steps but that of a client that comes back keep the descriptors and the active clients
together. -/
lemma listened_step (hinv : Inv s) (hlegal : Legal s e) (hs : Listened s) (hrec : ¬ Reconnects s e)
    (h : step s e = some (s', out)) : Listened s' := by
  cases e with
  | connection fd data =>
    obtain ⟨hreads, hfd, -⟩ := hlegal
    rw [step_connection] at h
    obtain ⟨nickname, hnick, hacc⟩ := Option.bind_eq_some_iff.mp h
    cases hoff : s.activeClients.find nickname with
    | some client => rw [acceptClient_active hoff hacc]; exact hs
    | none =>
      have hnew : s.allClients.find nickname = none := by
        by_contra hknown
        exact hrec ⟨nickname, hnick, hoff, hknown⟩
      obtain ⟨hj, hreads', hmax, -⟩ := acceptClient_new hoff hnew hinv.nrs_currId hfd hacc
      exact hs.new hinv hreads hj hreads' hmax
  | tcp i data order =>
    rcases handleTcpMessage_cases h with ⟨-, client, -, rfl⟩ | ⟨-, rfl⟩
    · exact hs.close
    · exact hs

/-- **The server listens to all active clients** after every prefix of a run if and only if nobody
comes back in it under a nickname that is known and not in use. -/
theorem listened_iff {sockTcp : ℕ} (hlegal : Run.Along step Legal (init sockTcp) es) :
    (∀ pre s' out, pre <+: es → Run.exec step (init sockTcp) pre = some (s', out) → Listened s') ↔
      Run.Along step (fun s e => ¬ Reconnects s e) (init sockTcp) es := by
  refine Run.forall_prefix_iff_along (P := fun _ s _ => Listened s) (Q := Inv)
    ?hQ ?hstep ?hnone hlegal (inv_init sockTcp) ?h₀
  case hQ =>
    intro s e s' out hinv hlegal h
    exact inv_step hinv hlegal h
  case hstep =>
    intro xs acc s e s' out hinv hlegal hs h
    constructor
    · intro hs' hrec
      exact not_listened_of_reconnects hinv hlegal hrec h hs'
    · intro hrec
      exact listened_step hinv hlegal hs hrec h
  case hnone =>
    -- the branch of a client that comes back is always defined
    intro s e hinv hlegal hnone hrec
    cases e with
    | tcp i data order => cases hrec
    | connection fd data =>
      obtain ⟨nickname, hnick, hoff, hknown⟩ := hrec
      obtain ⟨client, hall⟩ := Option.ne_none_iff_exists'.mp hknown
      rw [step_connection, Option.mem_def.mp hnick, Option.bind_some] at hnone
      simp [acceptClient, hoff, hall] at hnone
  case h₀ => exact listened_init sockTcp

/-- Nobody comes back before the last of these events. -/
theorem listened_comesBack : ∃ r, Run.exec step (init 3) (comesBack.take 3) = some r ∧
    Listened r.1 := by
  have hsome : (Run.exec step (init 3) (comesBack.take 3)).isSome = true := by decide +kernel
  obtain ⟨r, hr⟩ := Option.isSome_iff_exists.mp hsome
  have hlegal : Run.Along step Legal (init 3) (comesBack.take 3) := by decide +kernel
  exact ⟨r, hr, (listened_iff hlegal).mpr (by decide +kernel) _ _ _ List.prefix_rfl hr⟩

/-- The descriptor of a client that comes back is not in `read_fds`. -/
theorem not_listened : ¬ ∀ sockTcp es, Run.Along step Legal (init sockTcp) es →
    ∀ pre s' out, pre <+: es → Run.exec step (init sockTcp) pre = some (s', out) → Listened s' := by
  intro h
  have hrun : ∃ r, Run.exec step (init 3) comesBack = some r ∧
      (r.1.activeSocketClient.find 6).isSome ∧ 6 ∉ r.1.readFds := by
    refine ⟨_, (Option.some_get (by decide +kernel)).symm, ?_⟩
    decide +kernel
  obtain ⟨r, hr, hkey, hread⟩ := hrun
  have hl : Listened r.1 := h 3 comesBack legal_comesBack comesBack r.1 r.2 List.prefix_rfl hr
  exact hread ((hl.keys 6).mp (Option.isSome_iff_exists.mp hkey)).1

end Server

end Protocoale.Practic

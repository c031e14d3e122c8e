import Protocoale.Lib.Sockets

/-!
The clients of a server with sockets. A client may come many times, each time with another connection; the
server knows the descriptor of the connection it has now (`ids`), and the history of the server which
connections were taken in as which client (`adm`). `Routes` says that the two fit, `Routes.step` that they
go on to fit, and `Routes.flatMap_sentOn` what this means for what is sent.
-/

namespace Protocoale.Lib.Sockets

variable {κ β μ : Type*}

/-- The descriptor of a client belongs to the last connection taken in as that client, the earlier ones
have none any more, and every descriptor is that of a client. -/
structure Routes (ids : κ → Option ℕ) (w : Wires β) (adm : κ → List ℕ) : Prop where
  accepted : ∀ c, ∀ k ∈ adm c, k < w.made ∧ k ∉ w.backlog
  nodup : ∀ c, (adm c).Nodup
  owner : ∀ c, ∀ k ∈ adm c, ∀ fd, w.owner fd = some k → ids c = some fd
  current : ∀ c fd, ids c = some fd → ∃ pre k, adm c = pre ++ [k] ∧ w.owner fd = some k
  served : ∀ fd k, w.owner fd = some k → ∃ c, ids c = some fd

/-- What a step changes in who has which connection: nothing, or a client gets the connection that was
waiting first, or it loses the one it had. -/
inductive Changes (ids ids' : κ → Option ℕ) (w w' : Wires β) (joined : κ → Option ℕ) : Prop
  | none (hids : ids' = ids) (howner : w'.owner = w.owner) (hbacklog : w'.backlog <:+ w.backlog)
      (hjoined : ∀ c, joined c = none)
  | joins (c : κ) (fd k : ℕ) (hoff : ids c = none) (hself : ids' c = some fd)
      (hother : ∀ c', c' ≠ c → ids' c' = ids c') (hno : w.owner fd = none)
      (howner : w'.owner = Function.update w.owner fd (some k)) (hbacklog : w.backlog = k :: w'.backlog)
      (hjoined : joined c = some k) (hnone : ∀ c', c' ≠ c → joined c' = none)
  | leaves (c : κ) (fd : ℕ) (hon : ids c = some fd) (hself : ids' c = none)
      (hother : ∀ c', c' ≠ c → ids' c' = ids c')
      (howner : w'.owner = Function.update w.owner fd none) (hbacklog : w'.backlog = w.backlog)
      (hjoined : ∀ c, joined c = none)

variable {ids ids' : κ → Option ℕ} {w w' : Wires β} {adm : κ → List ℕ} {joined : κ → Option ℕ} {c : κ}
  {k : ℕ} {sends : List (ℕ × μ)}

lemma routes_start : Routes (fun _ : κ => none) (Wires.start : Wires β) fun _ => [] where
  accepted := by simp
  nodup := by simp
  owner := by simp
  current := by simp
  served := by simp [Wires.start]

/-- A connection that a client gets was waiting. -/
lemma Changes.mem_backlog (h : Changes ids ids' w w' joined) (hk : joined c = some k) : k ∈ w.backlog := by
  cases h with
  | none _ _ _ hno => simp [hno] at hk
  | leaves _ _ _ _ _ _ _ hno => simp [hno] at hk
  | joins c' fd j _ _ _ _ _ hbacklog hjoined hnone =>
    by_cases hc : c = c'
    · subst hc
      rw [hjoined, Option.some.injEq] at hk
      rw [hbacklog, hk]
      exact List.mem_cons_self
    · rw [hnone c hc] at hk
      cases hk

lemma Changes.backlog_subset (h : Changes ids ids' w w' joined) : w'.backlog ⊆ w.backlog := by
  cases h with
  | none _ _ hbacklog _ => exact hbacklog.subset
  | joins c fd k _ _ _ _ _ hbacklog _ _ =>
    rw [hbacklog]
    exact List.subset_cons_self ..
  | leaves _ _ _ _ _ _ hbacklog _ => exact hbacklog ▸ List.Subset.refl _

/-- What does not touch who has which connection. -/
lemma Routes.same (h : Routes ids w adm) (howner : w'.owner = w.owner)
    (haccepted : ∀ k, k < w.made ∧ k ∉ w.backlog → k < w'.made ∧ k ∉ w'.backlog) : Routes ids w' adm where
  accepted c k hk := haccepted k (h.accepted c k hk)
  nodup := h.nodup
  owner c k hk fd ho := h.owner c k hk fd (howner ▸ ho)
  current c fd hc := by
    rw [howner]
    exact h.current c fd hc
  served fd k ho := h.served fd k (howner ▸ ho)

/-- A client gets the connection that was waiting first. -/
lemma Routes.join {adm' : κ → List ℕ} {fd : ℕ} (h : Routes ids w adm) (hok : w.Ok) (hoff : ids c = none)
    (hself : ids' c = some fd) (hother : ∀ c', c' ≠ c → ids' c' = ids c') (hno : w.owner fd = none)
    (hmade : w'.made = w.made) (howner : w'.owner = Function.update w.owner fd (some k))
    (hbacklog : w.backlog = k :: w'.backlog) (hlast : adm' c = adm c ++ [k])
    (hold : ∀ c', c' ≠ c → adm' c' = adm c') : Routes ids' w' adm' := by
  have hmem : k ∈ w.backlog := by
    rw [hbacklog]
    exact List.mem_cons_self
  have hfresh : ∀ c', k ∉ adm c' := fun c' hin => (h.accepted c' k hin).2 hmem
  have hcases : ∀ c' j, j ∈ adm' c' → c' = c ∧ j = k ∨ j ∈ adm c' := by
    intro c' j hj
    by_cases hc : c' = c
    · subst hc
      rw [hlast] at hj
      rcases List.mem_append.mp hj with hj | hj
      · exact .inr hj
      · exact .inl ⟨rfl, List.mem_singleton.mp hj⟩
    · exact .inr (hold c' hc ▸ hj)
  have hids : ∀ {c' fd'}, ids c' = some fd' → ids' c' = some fd' := by
    intro c' fd' hc
    rw [hother, hc]
    rintro rfl
    rw [hoff] at hc
    cases hc
  have hnodup := hok.nodup
  rw [hbacklog, List.nodup_cons] at hnodup
  constructor
  case accepted =>
    intro c' j hj
    rw [hmade]
    rcases hcases c' j hj with ⟨-, rfl⟩ | hj
    · exact ⟨hok.lt j hmem, hnodup.1⟩
    · obtain ⟨hlt, hnot⟩ := h.accepted c' j hj
      refine ⟨hlt, fun hin => hnot ?_⟩
      rw [hbacklog]
      exact List.mem_cons_of_mem k hin
  case nodup =>
    intro c'
    by_cases hc : c' = c
    · subst hc
      rw [hlast]
      simpa using (h.nodup c').concat (hfresh c')
    · rw [hold c' hc]
      exact h.nodup c'
  case owner =>
    intro c' j hj fd' ho
    rw [howner] at ho
    by_cases hfd : fd' = fd
    · subst hfd
      rw [Function.update_self, Option.some.injEq] at ho
      subst ho
      rcases hcases c' k hj with ⟨rfl, -⟩ | hj
      · exact hself
      · exact absurd hj (hfresh c')
    · rw [Function.update_of_ne hfd] at ho
      rcases hcases c' j hj with ⟨-, rfl⟩ | hj
      · exact absurd hmem (hok.owned fd' j ho).2
      · exact hids (h.owner c' j hj fd' ho)
  case current =>
    intro c' fd' hc
    by_cases he : c' = c
    · subst he
      rw [hself, Option.some.injEq] at hc
      subst hc
      refine ⟨_, k, hlast, ?_⟩
      rw [howner]
      exact Function.update_self ..
    · rw [hother c' he] at hc
      obtain ⟨pre, j, hadm, hj⟩ := h.current c' fd' hc
      refine ⟨pre, j, (hold c' he).trans hadm, ?_⟩
      rw [howner, Function.update_of_ne, hj]
      rintro rfl
      rw [hno] at hj
      cases hj
  case served =>
    intro fd' j ho
    rw [howner] at ho
    by_cases hfd : fd' = fd
    · subst hfd
      exact ⟨c, hself⟩
    · rw [Function.update_of_ne hfd] at ho
      obtain ⟨c', hc⟩ := h.served fd' j ho
      exact ⟨c', hids hc⟩

/-- A client loses the connection it had. -/
lemma Routes.leave {fd : ℕ} (h : Routes ids w adm)
    (hinj : ∀ c c' fd, ids c = some fd → ids c' = some fd → c = c') (hon : ids c = some fd)
    (hself : ids' c = none) (hother : ∀ c', c' ≠ c → ids' c' = ids c') (hmade : w'.made = w.made)
    (howner : w'.owner = Function.update w.owner fd none) (hbacklog : w'.backlog = w.backlog) :
    Routes ids' w' adm := by
  have hopen : ∀ {fd' j}, w'.owner fd' = some j → w.owner fd' = some j ∧ fd' ≠ fd := by
    intro fd' j ho
    rw [howner] at ho
    have hfd : fd' ≠ fd := by
      rintro rfl
      simp at ho
    rw [Function.update_of_ne hfd] at ho
    exact ⟨ho, hfd⟩
  have hids : ∀ {c' fd'}, ids c' = some fd' → fd' ≠ fd → ids' c' = some fd' := by
    intro c' fd' hc hfd
    rw [hother, hc]
    rintro rfl
    rw [hon, Option.some.injEq] at hc
    exact hfd hc.symm
  constructor
  case accepted =>
    intro c' k hk
    rw [hmade, hbacklog]
    exact h.accepted c' k hk
  case nodup => exact h.nodup
  case owner =>
    intro c' k hk fd' ho
    obtain ⟨ho, hfd⟩ := hopen ho
    exact hids (h.owner c' k hk fd' ho) hfd
  case current =>
    intro c' fd' hc
    have he : c' ≠ c := by
      rintro rfl
      rw [hself] at hc
      cases hc
    rw [hother c' he] at hc
    obtain ⟨pre, j, hadm, hj⟩ := h.current c' fd' hc
    refine ⟨pre, j, hadm, ?_⟩
    rw [howner, Function.update_of_ne, hj]
    rintro rfl
    exact he (hinj c' c fd' hc hon)
  case served =>
    intro fd' j ho
    obtain ⟨ho, hfd⟩ := hopen ho
    obtain ⟨c', hc⟩ := h.served fd' j ho
    exact ⟨c', hids hc hfd⟩

/-- **A step keeps the connections with the clients they are of.** -/
theorem Routes.step (h : Routes ids w adm) (hok : w.Ok)
    (hinj : ∀ c c' fd, ids c = some fd → ids c' = some fd → c = c') (hmade : w'.made = w.made)
    (hch : Changes ids ids' w w' joined) : Routes ids' w' fun c => adm c ++ (joined c).toList := by
  have hsame : (∀ c, joined c = Option.none) → (fun c => adm c ++ (joined c).toList) = adm := by
    intro hjoined
    funext c
    rw [hjoined]
    exact List.append_nil _
  cases hch with
  | none hids howner hbacklog hjoined =>
    subst hids
    rw [hsame hjoined]
    refine h.same howner ?_
    rintro k ⟨hlt, hnot⟩
    exact ⟨hmade ▸ hlt, fun hin => hnot (hbacklog.subset hin)⟩
  | joins c fd k hoff hself hother hno howner hbacklog hjoined hnone =>
    refine h.join hok hoff hself hother hno hmade howner hbacklog ?_ ?_
    · rw [hjoined]
      rfl
    · intro c' hc
      rw [hnone c' hc]
      exact List.append_nil _
  | leaves c fd hon hself hother howner hbacklog hjoined =>
    rw [hsame hjoined]
    exact h.leave hinj hon hself hother hmade howner hbacklog

/-! ### What is sent -/

/-- The messages among the sends that go to a descriptor. -/
def sentAt (fd : Option ℕ) (sends : List (ℕ × μ)) : List μ :=
  sends.filterMap fun x => if fd = some x.1 then some x.2 else none

/-- The messages among the sends that go to the connection `k`. -/
def sentOn (owner : ℕ → Option ℕ) (k : ℕ) (sends : List (ℕ × μ)) : List μ :=
  sends.filterMap fun x => if owner x.1 = some k then some x.2 else none

/-- Messages are written on the connections one after the other. -/
lemma calls_map [DecidableEq β] {call : ℕ × μ → Call β} {enc : μ → List β} (hsend : ∀ x, (call x).IsSend)
    (hto : ∀ owner k x, (call x).sentTo owner k = if owner x.1 = some k then enc x.2 else [])
    (h : w.calls (sends.map call) = some w') :
    w' = { w with sent := fun k => w.sent k ++ (sentOn w.owner k sends).flatMap enc } := by
  have hall : ∀ c ∈ sends.map call, c.IsSend := by
    intro c hc
    obtain ⟨x, -, rfl⟩ := List.mem_map.mp hc
    exact hsend x
  rw [Wires.calls_sends hall h]
  congr 1
  funext k
  congr 1
  unfold sentOn
  clear hall h
  induction sends with
  | nil => rfl
  | cons x xs ih =>
    rw [List.map_cons, List.flatMap_cons, ih, hto]
    by_cases hx : w.owner x.1 = some k <;> simp [hx]

/-- **What is sent to a client** goes to the last one of its connections. -/
theorem Routes.flatMap_sentOn (h : Routes ids w adm) (sub : ℕ → List μ) :
    (adm c).flatMap (fun k => sub k ++ sentOn w.owner k sends) =
      (adm c).flatMap sub ++ sentAt (ids c) sends := by
  have hnone : ∀ k, (∀ fd, w.owner fd ≠ some k) → sentOn w.owner k sends = [] := by
    intro k hk
    simp [sentOn, hk]
  cases hc : ids c with
  | none =>
    have hout : sentAt none sends = [] := by simp [sentAt]
    rw [hout, List.append_nil]
    apply List.flatMap_congr
    intro k hk
    rw [hnone, List.append_nil]
    intro fd ho
    cases hc.symm.trans (h.owner c k hk fd ho)
  | some fd =>
    obtain ⟨pre, k, hadm, hk⟩ := h.current c fd hc
    have hnodup := h.nodup c
    rw [hadm] at hnodup ⊢
    have hpre : pre.flatMap (fun k => sub k ++ sentOn w.owner k sends) = pre.flatMap sub := by
      apply List.flatMap_congr
      intro j hj
      rw [hnone, List.append_nil]
      intro fd' ho
      have hfd := h.owner c j (hadm ▸ List.mem_append_left _ hj) fd' ho
      rw [hc, Option.some.injEq] at hfd
      subst hfd
      rw [hk, Option.some.injEq] at ho
      subst ho
      exact (List.nodup_append.mp hnodup).2.2 k hj k List.mem_cons_self rfl
    have hlast : sentOn w.owner k sends = sentAt (some fd) sends := by
      apply List.filterMap_congr
      intro x _
      have hiff : w.owner x.1 = some k ↔ some fd = some x.1 := by
        constructor
        · intro hx
          rw [← hc]
          exact h.owner c k (hadm ▸ List.mem_append_right _ List.mem_cons_self) x.1 hx
        · intro hx
          rw [Option.some.injEq] at hx
          rw [← hx, hk]
      simp only [hiff]
    rw [List.flatMap_append, List.flatMap_append, hpre, List.append_assoc]
    simp [hlast]

/-- A connection that is just taken in has been sent nothing. -/
lemma Changes.flatMap_joined (h : Changes ids ids' w w' joined) {sub : ℕ → List μ}
    (hsub : ∀ k ∈ w.backlog, sub k = []) (ks : List ℕ) :
    (ks ++ (joined c).toList).flatMap sub = ks.flatMap sub := by
  rw [List.flatMap_append]
  cases hj : joined c with
  | none => simp
  | some k => simp [hsub k (h.mem_backlog hj)]

end Protocoale.Lib.Sockets

import Mathlib.Data.List.Basic
import Mathlib.Tactic

/-!
Sessions of requests and answers: each request waits for the first frame that is relevant, and an
answer may end the session. Whatever else arrives, the answers are the relevant frames in their order
(`session_answers`), and the requests are the first ones (`session_requests`).
-/

namespace Protocoale.Lib

variable {ρ φ : Type*}

/-- A list up to the first element with a property, and with it. -/
def upTo (p : φ → Bool) : List φ → List φ
  | [] => []
  | x :: xs => if p x then [x] else x :: upTo p xs

namespace Session

/-- The first relevant frame, and the frames after it. -/
def await (relevant : φ → Bool) : List φ → Option (φ × List φ)
  | [] => none
  | f :: fs => if relevant f then some (f, fs) else await relevant fs

/-- The requests made and their answers. The last request may have none. -/
def session (relevant stop : φ → Bool) : List ρ → List φ → List ρ × List φ
  | [], _ => ([], [])
  | r :: rs, fs =>
    match await relevant fs with
    | none => ([r], [])
    | some (f, fs) =>
      if stop f then ([r], [f])
      else
        let q := session relevant stop rs fs
        (r :: q.1, f :: q.2)

variable {relevant stop : φ → Bool} {rs : List ρ} {fs fs' : List φ} {f : φ}

lemma await_eq_none : await relevant fs = none ↔ fs.filter relevant = [] := by
  induction fs with
  | nil => simp [await]
  | cons x fs ih =>
    by_cases hx : relevant x
    · simp [await, hx]
    · simp [await, hx, ih]

lemma await_eq_some (h : await relevant fs = some (f, fs')) :
    fs.filter relevant = f :: fs'.filter relevant := by
  induction fs with
  | nil => cases h
  | cons x fs ih =>
    by_cases hx : relevant x
    · rw [await, if_pos hx] at h
      cases h
      exact List.filter_cons_of_pos hx
    · rw [await, if_neg hx] at h
      rw [List.filter_cons_of_neg hx, ih h]

/-- The frame waited for, and those after it, are among the frames. -/
lemma mem_of_await (h : await relevant fs = some (f, fs')) : f ∈ fs ∧ ∀ g ∈ fs', g ∈ fs := by
  induction fs with
  | nil => cases h
  | cons x fs ih =>
    rw [await] at h
    split at h
    · cases h
      exact ⟨List.mem_cons_self, fun g hg => List.mem_cons_of_mem _ hg⟩
    · obtain ⟨hf, hfs⟩ := ih h
      exact ⟨List.mem_cons_of_mem _ hf, fun g hg => List.mem_cons_of_mem _ (hfs g hg)⟩

theorem session_answers : (session relevant stop rs fs).2 =
    upTo stop ((fs.filter relevant).take rs.length) := by
  induction rs generalizing fs with
  | nil => rfl
  | cons r rs ih =>
    rw [session]
    cases h : await relevant fs with
    | none => rw [await_eq_none.mp h, List.take_nil, upTo]
    | some x =>
      obtain ⟨f, fs'⟩ := x
      rw [await_eq_some h, List.length_cons, List.take_succ_cons, upTo]
      by_cases hf : stop f
      · simp [hf]
      · simp [hf, ih]

theorem session_requests : (session relevant stop rs fs).1 =
    rs.take ((session relevant stop rs fs).2.length +
      if (session relevant stop rs fs).2.any stop then 0 else 1) := by
  induction rs generalizing fs with
  | nil => rfl
  | cons r rs ih =>
    rw [session]
    cases h : await relevant fs with
    | none => simp
    | some x =>
      obtain ⟨f, fs'⟩ := x
      by_cases hf : stop f
      · simp [hf]
      · have hrest := @ih fs'
        simp only [hf, Bool.false_eq_true, if_false, List.length_cons, List.any_cons, Bool.false_or]
        rw [Nat.add_right_comm, List.take_succ_cons, ← hrest]

end Session

end Protocoale.Lib

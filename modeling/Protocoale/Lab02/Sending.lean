import Protocoale.Lab02.Processes

/-!
The sender of the second laboratory alone, with files that need not be there and that reading may fail on.
The loop over the content goes on until `read` returns 0. An error is -1, which the loop takes for a part
of the content: it is sent as a message of length -1, and on a file that cannot be opened there is no end
to it (`returns_iff`).
-/

namespace Protocoale.Lab02

open Lib Lib.Bytes Lib.CText Lib.Duet

/-- A message with a part of a content has 1 to `MAX_LEN` bytes. -/
def DataLength : Sender → Msg → Prop
  | .content _ source _ k, m => source.read k ≠ some [] → 1 ≤ m.len ∧ m.len ≤ MAX_LEN
  | _, _ => True

/-- The successive calls of `read` come to the end of the file without an error. -/
def Source.ReadsToEnd (source : Source) : Prop :=
  ∃ k, source.read k = some [] ∧ ∀ j < k, source.read j ≠ none

/-- What the system calls give when the file cannot be opened. -/
def Source.missing (name : List UInt8) (h : 0 ∉ name) : Source where
  name := name
  size := -1
  read _ := none
  name_ok := h
  read_le _ _ h := by cases h

section

variable {t t' : Msg} {source : Source} {sources : List Source} {k n : ℕ} {s : Sender} {R : Prop}
  {b : UInt8} {bs : List UInt8}

instance : Nonempty Msg := ⟨⟨0, fun _ => 0⟩⟩

/-- The message with a part of a content. -/
def Msg.part (t : Msg) (bytes : List UInt8) : Msg := { len := bytes.length, payload := write t.payload 0 bytes }

lemma next_content_cons (h : source.read k = some (b :: bs)) :
    (Sender.content t source sources k).next =
      .send (t.part (b :: bs)) (.contentReply (t.part (b :: bs)) source sources (k + 1)) := by
  simp only [Sender.next, h]
  rfl

lemma next_content_none (h : source.read k = none) : (Sender.content t source sources k).next =
    .send { t with len := -1 } (.contentReply { t with len := -1 } source sources (k + 1)) := by
  simp only [Sender.next, h]

lemma next_content_nil (h : source.read k = some []) :
    (Sender.content t source sources k).next = Sender.sendName t sources := by
  simp only [Sender.next, h]

/-- A part of the content is not longer than `MAX_LEN`. -/
lemma dataLength_part (h : source.read k = some (b :: bs)) :
    DataLength (.content t source sources k) (t.part (b :: bs)) := by
  intro _
  have hle := source.read_le _ _ h
  simp only [Msg.part, List.length_cons] at hle ⊢
  omega

lemma not_dataLength_none (h : source.read k = none) :
    ¬ DataLength (.content t source sources k) { t with len := -1 } := by
  intro hd
  obtain ⟨hpos, -⟩ := hd (by rw [h]; exact Option.some_ne_none _ |>.symm)
  norm_num at hpos

/-- From the `k`-th call of `read` on the content ends, and then it goes on with the other files. -/
lemma returnsIn_content (hend : ∀ n t k, source.read k = some [] →
      ReturnsIn Sender.next DataLength n (.content t source sources k) → R)
    (h : ReturnsIn Sender.next DataLength n (.content t source sources k)) :
    (∃ j, k ≤ j ∧ source.read j = some [] ∧ ∀ i, k ≤ i → i < j → source.read i ≠ none) ∧ R := by
  induction n using Nat.strong_induction_on generalizing t k with
  | _ n ih =>
  match n with
  | 0 => exact absurd h not_returnsIn_zero
  | n + 1 =>
    match hread : source.read k with
    | none =>
      exact absurd ((returnsIn_send (next_content_none hread)).mp h).1 (not_dataLength_none hread)
    | some [] => exact ⟨⟨k, le_rfl, hread, fun i hle hlt => by omega⟩, hend _ t k hread h⟩
    | some (b :: bs) =>
      obtain ⟨-, hreply⟩ := (returnsIn_send (next_content_cons hread)).mp h
      match n with
      | 0 => exact absurd hreply not_returnsIn_zero
      | n + 1 =>
        obtain ⟨⟨j, hle, hj, hbefore⟩, hR⟩ := ih n (by omega) ((returnsIn_recv rfl).mp hreply)
        refine ⟨⟨j, by omega, hj, ?_⟩, hR⟩
        intro i hi hlt
        by_cases hik : i = k
        · rw [hik, hread]
          exact Option.some_ne_none _
        · exact hbefore i (by omega) hlt

lemma returns_content (hend : ∀ t k, source.read k = some [] →
      Returns Sender.next DataLength (.content t source sources k))
    (j : ℕ) (hj : source.read (k + j) = some []) (hbefore : ∀ i < j, source.read (k + i) ≠ none) :
    Returns Sender.next DataLength (.content t source sources k) := by
  induction j generalizing t k with
  | zero => exact hend t k hj
  | succ j ih =>
    match hread : source.read k with
    | none => exact absurd hread (hbefore 0 (by omega))
    | some [] => exact hend t k hread
    | some (b :: bs) =>
      refine (returns_send (next_content_cons hread)).mpr ⟨dataLength_part hread, ?_⟩
      refine (returns_recv rfl).mpr (ih ?_ ?_)
      · rwa [Nat.add_right_comm, Nat.add_assoc]
      · intro i hi
        rw [Nat.add_right_comm, Nat.add_assoc]
        exact hbefore (i + 1) (by omega)

/-- The loop over the files, from any place with it ahead. -/
lemma returns_files (hs : s.next = Sender.sendName t sources) (hdata : ∀ m, DataLength s m) :
    Returns Sender.next DataLength s ↔
      ∀ source ∈ sources, source.name.length < MAX_LEN ∧ source.ReadsToEnd := by
  induction sources generalizing t s with
  | nil => simp [returns_done (P := DataLength) hs]
  | cons source sources ih =>
    rw [List.forall_mem_cons]
    have hafter : ∀ t k, source.read k = some [] →
        (Returns Sender.next DataLength (.content t source sources k) ↔
          ∀ source ∈ sources, source.name.length < MAX_LEN ∧ source.ReadsToEnd) :=
      fun t k hread => ih (next_content_nil hread) fun m hne => absurd hread hne
    by_cases hname : source.name.length < MAX_LEN
    · -- the name, the reply to it, the size and the reply to it
      let t₁ := t.put (source.name.length + 1) source.name
      let t₂ := t₁.put source.size (text "file size")
      have hsend : s.next = .send t₁ (.nameReply t₁ source sources) := hs.trans (if_pos hname)
      have hsize : (Sender.size t₁ source sources).next = .send t₂ (.sizeReply t₂ source sources) := rfl
      have hcontent : Returns Sender.next DataLength s ↔
          Returns Sender.next DataLength (.content t₂ source sources 0) := by
        rw [returns_send hsend, returns_recv rfl, returns_send hsize, returns_recv rfl]
        exact ⟨fun h => h.2.2, fun h => ⟨hdata _, trivial, h⟩⟩
      rw [hcontent]
      refine ⟨?_, ?_⟩
      · rintro ⟨n, hn⟩
        obtain ⟨⟨j, -, hj, hbefore⟩, hrest⟩ := returnsIn_content
          (fun n t k hread h => (hafter t k hread).mp ⟨n, h⟩) hn
        exact ⟨⟨hname, j, hj, fun i hi => hbefore i (Nat.zero_le i) hi⟩, hrest⟩
      · rintro ⟨⟨-, j, hj, hbefore⟩, hrest⟩
        refine returns_content (fun t k hread => (hafter t k hread).mpr hrest) j ?_ ?_
        · rwa [Nat.zero_add]
        · intro i hi
          rw [Nat.zero_add]
          exact hbefore i hi
    · refine ⟨?_, fun h => absurd h.1.1 hname⟩
      rintro ⟨n, hn⟩
      exact absurd hn (not_returnsIn_fault (hs.trans (if_neg hname)))

/-- **The sender alone.** Whatever the replies are, it comes to the end of its loop over the files after a
bounded number of actions, with 1 to `MAX_LEN` bytes in each part of a content, exactly when each name
fits a message and each file can be read to its end. -/
theorem returns_iff (t : Msg) (sources : List Source) :
    Returns Sender.next DataLength (.number t sources) ↔
      ∀ source ∈ sources, source.name.length < MAX_LEN ∧ source.ReadsToEnd := by
  let t' := t.put sources.length (text "number of files")
  have hsend : (Sender.number t sources).next = .send t' (.name t' sources) := rfl
  have hfiles := returns_files (s := .name t' sources) rfl fun _ => trivial
  rw [returns_send hsend, hfiles]
  exact and_iff_right trivial

/-- The name of a file that is not there. -/
theorem not_returns : ¬ ∀ t sources, Returns Sender.next DataLength (.number t sources) := by
  intro h
  let t : Msg := ⟨0, fun _ => 0⟩
  let sources : List Source := [.missing (text "a") (by decide)]
  let t' := t.put 1 (text "number of files")
  have hsend : (Sender.number t sources).next = .send t' (.name t' sources) := rfl
  have hloop : (Sender.name t' sources).next = Sender.sendName t' sources := rfl
  have hfiles := returns_files hloop fun _ => trivial
  obtain ⟨-, hname⟩ := (returns_send hsend).mp (h t sources)
  obtain ⟨-, k, hread, -⟩ := hfiles.mp hname _ List.mem_cons_self
  cases hread

end

end Protocoale.Lab02

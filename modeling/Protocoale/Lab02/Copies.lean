import Protocoale.Lab02.Transfer

/-!
The directory of the receiver of the second laboratory. `recv.c` opens a copy with
`O_WRONLY | O_APPEND | O_CREAT`: a copy that is there already keeps what it holds, and the content is
written behind it. So a transfer gives the files that were sent only where there were no copies of them,
and a second transfer doubles every file that is not empty (`copies_iff`).
-/

namespace Protocoale.Lab02

open Lib Lib.Bytes Lib.CText Lib.Duet

/-- What is in the files of a directory, by their names. -/
abbrev Dir := List UInt8 → Option (List UInt8)

/-- `open(name, O_WRONLY | O_APPEND | O_CREAT, 0644)` -/
def Dir.openAppend (d : Dir) (name : List UInt8) : Dir := Function.update d name (some ((d name).getD []))

/-- `write` to a file that is open so. -/
def Dir.write (d : Dir) (name bytes : List UInt8) : Dir :=
  Function.update d name (some ((d name).getD [] ++ bytes))

/-- What the receiver calls on its directory where it sends an acknowledgement. -/
def Receiver.calls : Receiver → Dir → Dir
  | .sizeAck _ filename, d =>
    match strcat 38 (text "copy_") filename with
    | none => d
    | some copyFilename => d.openAppend copyFilename
  | .contentAck c copyFilename _ _, d => d.write copyFilename (read c.r.payload 0 c.r.len.toNat)
  | _, d => d

/-- `main` of the receiver, with its directory. -/
def Receiver.nextOn (s : Receiver × Dir) : Act (Receiver × Dir) Msg :=
  s.1.next.map fun r => (r, s.1.calls s.2)

/-- Both started, with the directory of the receiver. -/
def startOn (t r : Msg) (dir : Dir) (sources : List Source) : Sys Sender (Receiver × Dir) Msg :=
  ⟨.number t sources, (.number r, dir), [], []⟩

/-- Every run of the transfer goes on to an end where both have returned and the directory has become
`after`. -/
def Leaves (files : List File) (dir after : Dir) : Prop :=
  ∀ t r, ∃ f, Final Sender.next Receiver.nextOn f ∧ f.right.2 = after ∧
    ∀ sides s, run Sender.next Receiver.nextOn (startOn t r dir (files.map File.source)) sides = some s →
      ∃ rest, run Sender.next Receiver.nextOn s rest = some f

/-- Nothing is in the copies before the transfer, and a file that is sent more than once is empty. -/
def Fresh (files : List File) (dir : Dir) : Prop :=
  ∀ file ∈ files, (dir (text "copy_" ++ file.name)).getD [] = [] ∧
    (files.countP (·.name = file.name) = 1 ∨ file.content = [])

variable {files files' : List File} {file : File} {d dir after : Dir} {m t r : Msg} {s : Receiver × Dir}
  {name n a b : List UInt8} {ps qs : List (List UInt8 × List UInt8)}

/-! ### Writing at the end -/

/-- The copies of a list written one after the other. -/
def writes (ps : List (List UInt8 × List UInt8)) (d : Dir) : Dir := ps.foldl (fun d p => d.write p.1 p.2) d

lemma openAppend_eq (d : Dir) (name : List UInt8) : d.openAppend name = d.write name [] := by
  unfold Dir.openAppend Dir.write
  rw [List.append_nil]

lemma write_self : d.write n a n = some ((d n).getD [] ++ a) := Function.update_self _ _ _

lemma write_of_ne (h : n ≠ name) : d.write name a n = d n := Function.update_of_ne h _ _

/-- Two parts are written as one. -/
lemma write_write (d : Dir) (name a b : List UInt8) :
    (d.write name a).write name b = d.write name (a ++ b) := by
  funext n
  by_cases h : n = name
  · subst h
    rw [write_self, write_self, write_self, Option.getD_some, List.append_assoc]
  · rw [write_of_ne h, write_of_ne h, write_of_ne h]

lemma writes_concat (ps : List (List UInt8 × List UInt8)) (name a : List UInt8) (d : Dir) :
    writes (ps ++ [(name, a)]) d = (writes ps d).write name a := by
  unfold writes
  rw [List.foldl_append]
  rfl

/-- A file holds what it held, and then all that was written under its name. -/
lemma writes_apply (ps : List (List UInt8 × List UInt8)) (d : Dir) (n : List UInt8) :
    writes ps d n = if n ∈ ps.map Prod.fst
      then some ((d n).getD [] ++ (ps.filter (·.1 = n)).flatMap Prod.snd) else d n := by
  induction ps generalizing d with
  | nil => rfl
  | cons p ps ih =>
    obtain ⟨name, a⟩ := p
    have hcons : writes ((name, a) :: ps) d = writes ps (d.write name a) := rfl
    rw [hcons, ih]
    by_cases h : name = n
    · subst h
      rw [write_self, List.map_cons, if_pos List.mem_cons_self, List.filter_cons_of_pos (by simp),
        List.flatMap_cons, ← List.append_assoc]
      by_cases hmem : name ∈ ps.map Prod.fst
      · rw [if_pos hmem, Option.getD_some]
      · have hnone : ps.filter (·.1 = name) = [] := by
          rw [List.filter_eq_nil_iff]
          intro q hq heq
          exact hmem (List.mem_map.mpr ⟨q, hq, of_decide_eq_true heq⟩)
        rw [if_neg hmem, hnone, List.flatMap_nil, List.append_nil]
    · have hmem : n ∈ ((name, a) :: ps).map Prod.fst ↔ n ∈ ps.map Prod.fst := by
        rw [List.map_cons, List.mem_cons, or_iff_right (Ne.symm h)]
      rw [write_of_ne (Ne.symm h), List.filter_cons_of_neg (by simpa using h)]
      simp only [hmem]

/-! ### The runs -/

/-- What the receiver has done to its directory is to write the copies. -/
lemma copies_send {r r' : Receiver} (h : r.next = .send m r') (d : Dir) :
    writes r'.copies d = r.calls (writes r.copies d) := by
  cases r with
  | number _ => cases h
  | name c =>
    simp only [Receiver.next, Receiver.recvName] at h
    split at h <;> cases h
  | nameAck c =>
    simp only [Receiver.next] at h
    split at h <;> cases h
    rfl
  | size c filename => cases h
  | sizeAck c filename =>
    simp only [Receiver.next] at h
    unfold Receiver.calls
    split at h
    · cases h
    · next heq =>
      cases h
      simp only [heq, openAppend_eq]
      exact writes_concat _ _ _ _
  | content c copyFilename copied count =>
    simp only [Receiver.next, Receiver.recvName] at h
    split at h
    · cases h
    · split at h <;> cases h
  | contentAck c copyFilename copied count =>
    simp only [Receiver.next] at h
    split at h
    · cases h
      simp only [Receiver.calls, Receiver.copies, writes_concat, write_write]
    · cases h

lemma copies_recv {r : Receiver} {k : Msg → Receiver} (h : r.next = .recv k) (m : Msg) :
    (k m).copies = r.copies ∧ ∀ d, r.calls d = d := by
  cases r with
  | number _ => cases h; exact ⟨rfl, fun d => rfl⟩
  | name c =>
    simp only [Receiver.next, Receiver.recvName] at h
    split at h <;> cases h
    exact ⟨rfl, fun d => rfl⟩
  | nameAck c =>
    simp only [Receiver.next] at h
    split at h <;> cases h
  | size c filename => cases h; exact ⟨rfl, fun d => rfl⟩
  | sizeAck c filename =>
    simp only [Receiver.next] at h
    split at h <;> cases h
  | content c copyFilename copied count =>
    simp only [Receiver.next, Receiver.recvName] at h
    split at h
    · cases h; exact ⟨rfl, fun d => rfl⟩
    · split at h <;> cases h
      exact ⟨rfl, fun d => rfl⟩
  | contentAck c copyFilename copied count =>
    simp only [Receiver.next] at h
    split at h <;> cases h

/-- In every state of a run the directory is what the copies so far have made of it. -/
lemma run_dir {sources : List Source} {sides : List Side} {S : Sys Sender (Receiver × Dir) Msg}
    (h : run Sender.next Receiver.nextOn (startOn t r dir sources) sides = some S) :
    S.right.2 = writes S.right.1.copies dir := by
  refine run_right_inv (P := fun s : Receiver × Dir => s.2 = writes s.1.copies dir) ?_ ?_ rfl h
  · intro s m s' hs hnext
    unfold Receiver.nextOn at hnext
    cases ha : s.1.next with
    | send m' r' =>
      rw [ha] at hnext
      cases hnext
      rw [copies_send ha, hs]
    | recv k => rw [ha] at hnext; cases hnext
    | done => rw [ha] at hnext; cases hnext
    | fault => rw [ha] at hnext; cases hnext
  · intro s k m hs hnext
    unfold Receiver.nextOn at hnext
    cases ha : s.1.next with
    | recv k' =>
      rw [ha] at hnext
      cases hnext
      obtain ⟨hcopies, hcalls⟩ := copies_recv ha m
      rw [hcopies, hcalls, hs]
    | send m' r' => rw [ha] at hnext; cases hnext
    | done => rw [ha] at hnext; cases hnext
    | fault => rw [ha] at hnext; cases hnext

lemma nextOn_map (s : Receiver × Dir) : s.1.next = (Receiver.nextOn s).map Prod.fst := by
  unfold Receiver.nextOn
  cases s.1.next <;> rfl

/-- The transfer leaves the directory with the copies written to it. -/
lemma leaves_writes (files : List File) (dir : Dir) :
    Leaves files dir (writes (files.map File.copy) dir) := by
  intro t r
  obtain ⟨sides, s', r', hrun, hfinal, hcopies⟩ := run_transfer files t r
  -- the run of the processes without the directory is one of those with it
  have hmap : run Sender.next Receiver.next (start t r (files.map File.source)) sides =
      (run Sender.next Receiver.nextOn (startOn t r dir (files.map File.source)) sides).map
        (Sys.mapRight Prod.fst) :=
    run_mapRight (S := startOn t r dir (files.map File.source)) nextOn_map
  obtain ⟨f, hf, hquiet⟩ := Option.map_eq_some_iff.mp (hmap.symm.trans hrun)
  have hend : Final Sender.next Receiver.nextOn f := (final_mapRight nextOn_map).mp (hquiet ▸ hfinal)
  refine ⟨f, hend, ?_, ?_⟩
  · have hright : f.right.1 = r' := congrArg Sys.right hquiet
    rw [run_dir hf, hright, hcopies]
  · intro sides' s hs
    obtain ⟨rest, hrest, -⟩ := run_final hend hf hs
    exact ⟨rest, hrest⟩

lemma leaves_iff (files : List File) (dir after : Dir) :
    Leaves files dir after ↔ after = writes (files.map File.copy) dir := by
  refine ⟨?_, ?_⟩
  · intro h
    let t : Msg := ⟨0, fun _ => 0⟩
    obtain ⟨f, hf, rfl, hruns⟩ := h t t
    obtain ⟨f', hf', hafter, hruns'⟩ := leaves_writes files dir t t
    obtain ⟨sides, hsides⟩ := hruns [] _ rfl
    obtain ⟨sides', hsides'⟩ := hruns' [] _ rfl
    rw [← hafter, eq_of_final hf hf' hsides hsides']
  · rintro rfl
    exact leaves_writes files dir

/-! ### What is in the copies -/

/-- The contents sent under one name. -/
def sentAs (files : List File) (name : List UInt8) : List (List UInt8) :=
  (files.filter (·.name = name)).map File.content

/-- A copy after the transfer. -/
lemma writes_copy (dir : Dir) (h : file ∈ files) :
    writes (files.map File.copy) dir (text "copy_" ++ file.name) =
      some ((dir (text "copy_" ++ file.name)).getD [] ++ (sentAs files file.name).flatten) := by
  have hmem : text "copy_" ++ file.name ∈ (files.map File.copy).map Prod.fst := by
    rw [List.map_map]
    exact List.mem_map_of_mem h
  rw [writes_apply, if_pos hmem, List.filter_map, List.flatMap_map]
  have hsame : ((fun p : List UInt8 × List UInt8 => decide (p.1 = text "copy_" ++ file.name)) ∘ File.copy) =
      fun f => decide (f.name = file.name) := by
    funext f
    simp [File.copy]
  rw [hsame]
  rfl

/-- Each of some parts is all of them put together, behind something else, only if there is nothing else
and one part, or nothing at all. -/
lemma append_flatten_eq_iff {x : List UInt8} {cs : List (List UInt8)} (hne : cs ≠ []) :
    (∀ c ∈ cs, x ++ cs.flatten = c) ↔ x = [] ∧ (cs.length = 1 ∨ ∀ c ∈ cs, c = []) := by
  refine ⟨?_, ?_⟩
  · intro h
    match cs with
    | [] => exact absurd rfl hne
    | [c] =>
      refine ⟨?_, Or.inl rfl⟩
      have hc := h c List.mem_cons_self
      rwa [List.flatten_singleton, List.append_left_eq_self] at hc
    | c :: c' :: cs =>
      have hc := congrArg List.length (h c List.mem_cons_self)
      have hc' := congrArg List.length (h c' (List.mem_cons_of_mem c List.mem_cons_self))
      simp only [List.flatten_cons, List.length_append] at hc hc'
      have hx : x = [] := List.eq_nil_of_length_eq_zero (by omega)
      refine ⟨hx, Or.inr ?_⟩
      have hflat : (c :: c' :: cs).flatten = [] := by
        apply List.eq_nil_of_length_eq_zero
        simp only [List.flatten_cons, List.length_append]
        omega
      exact List.flatten_eq_nil_iff.mp hflat
  · rintro ⟨rfl, hone | hall⟩
    · obtain ⟨c, rfl⟩ := List.length_eq_one_iff.mp hone
      simp
    · intro c hc
      rw [List.flatten_eq_nil_iff.mpr hall, hall c hc, List.append_nil]

lemma content_mem_sentAs (h : file ∈ files) : file.content ∈ sentAs files file.name :=
  List.mem_map_of_mem (List.mem_filter.mpr ⟨h, by simp⟩)

lemma mem_sentAs {c : List UInt8} : c ∈ sentAs files name ↔
    ∃ file ∈ files, file.name = name ∧ file.content = c := by
  unfold sentAs
  rw [List.mem_map]
  refine exists_congr fun file => ?_
  rw [List.mem_filter, decide_eq_true_eq, and_assoc]

lemma length_sentAs : (sentAs files name).length = files.countP (·.name = name) := by
  unfold sentAs
  rw [List.length_map, List.countP_eq_length_filter]

lemma exact_iff_fresh : (∀ file ∈ files, (dir (text "copy_" ++ file.name)).getD [] ++
    (sentAs files file.name).flatten = file.content) ↔ Fresh files dir := by
  refine ⟨?_, ?_⟩
  · intro h file hfile
    have hmem := content_mem_sentAs hfile
    have hall : ∀ c ∈ sentAs files file.name, (dir (text "copy_" ++ file.name)).getD [] ++
        (sentAs files file.name).flatten = c := by
      intro c hc
      obtain ⟨f, hf, hsame, rfl⟩ := mem_sentAs.mp hc
      rw [← hsame]
      exact h f hf
    obtain ⟨hold, hsent⟩ := (append_flatten_eq_iff (List.ne_nil_of_mem hmem)).mp hall
    rw [length_sentAs] at hsent
    exact ⟨hold, hsent.imp_right fun hempty => hempty _ hmem⟩
  · intro h file hfile
    have hmem := content_mem_sentAs hfile
    refine (append_flatten_eq_iff (List.ne_nil_of_mem hmem)).mpr ⟨(h file hfile).1, ?_⟩ _ hmem
    rw [length_sentAs]
    by_cases hone : files.countP (·.name = file.name) = 1
    · exact Or.inl hone
    · refine Or.inr fun c hc => ?_
      obtain ⟨f, hf, hsame, rfl⟩ := mem_sentAs.mp hc
      have hf' := (h f hf).2
      rw [hsame] at hf'
      exact hf'.resolve_left hone

/-- **The receiver's files.** Every run of a transfer goes on to one end, with one directory there. Each
copy in it is the file that was sent exactly when it was absent or empty before, and its file was sent
once or is empty; and the same transfer again leaves the same files exactly when all of them are empty. -/
theorem copies_iff (files : List File) (dir : Dir) : ∃ after, Leaves files dir after ∧
    ((∀ file ∈ files, after (text "copy_" ++ file.name) = some file.content) ↔ Fresh files dir) ∧
    (Leaves files after after ↔ ∀ file ∈ files, file.content = []) := by
  refine ⟨_, leaves_writes files dir, ?_, ?_⟩
  · rw [← exact_iff_fresh]
    refine forall₂_congr fun file hfile => ?_
    rw [writes_copy dir hfile, Option.some_inj]
  · rw [leaves_iff]
    refine ⟨?_, ?_⟩
    · intro h file hfile
      have hcopy := congrFun h (text "copy_" ++ file.name)
      rw [writes_copy (writes _ dir) hfile, writes_copy dir hfile, Option.getD_some, Option.some_inj,
        List.self_eq_append_right] at hcopy
      exact List.flatten_eq_nil_iff.mp hcopy _ (content_mem_sentAs hfile)
    · intro h
      funext n
      rw [writes_apply _ (writes _ dir), writes_apply _ dir]
      by_cases hn : n ∈ (files.map File.copy).map Prod.fst
      · have hnil : ((files.map File.copy).filter (·.1 = n)).flatMap Prod.snd = [] := by
          refine List.flatMap_eq_nil_iff.mpr fun p hp => ?_
          obtain ⟨file, hfile, rfl⟩ := List.mem_map.mp (List.mem_of_mem_filter hp)
          exact h file hfile
        rw [if_pos hn, if_pos hn, hnil, Option.getD_some, List.append_nil, List.append_nil]
      · rw [if_neg hn, if_neg hn]

/-- A file of one byte, and a copy of it from an earlier transfer. -/
theorem not_idempotent : ¬ ∀ files dir, ∃ after, Leaves files dir after ∧
    ∀ file ∈ files, after (text "copy_" ++ file.name) = some file.content := by
  intro h
  let file : File := ⟨text "a", text "x", by decide, by decide, by decide, by decide⟩
  obtain ⟨after, hleaves, hexact⟩ := h [file] fun _ => some (text "x")
  have hcopy := hexact file List.mem_cons_self
  rw [(leaves_iff _ _ _).mp hleaves, writes_copy _ List.mem_cons_self] at hcopy
  revert hcopy
  decide

end Protocoale.Lab02

import Mathlib.Data.List.ReduceOption
import Protocoale.Lib.CText
import Protocoale.Tema2.Server
import Protocoale.Tema2.Subscriber

/-!
The commands of the subscriber (`handle_stdin_message`): the tokens `strtok` gives, with the delimiters
each call has, and the request that is sent. The code asks for no more than the tokens it needs: it looks
at the first byte of the flag, leaves what comes behind it, and copies a topic of any length. A line sends
what the grammar says exactly when it is proper (`typed_iff`).
-/

namespace Protocoale.Tema2

open Lib Lib.Bytes Lib.CText Lib.Cuts

@[simp] abbrev BUFLEN : ℕ := 1568

namespace Subscriber

/-! ### What the code sends -/

/-- `subscribe(sockfd, topic, sf)`. A topic of 51 to 53 bytes goes over the fields that are filled in after
it, and what a longer one does is not defined. -/
def sendSubscribe (topic : List UInt8) (sf : UInt8) : Option ClientRequest :=
  if topic.length ≤ clientRequestCodec.size then some (subscribe topic sf) else none

/-- `unsubscribe(sockfd, topic)` -/
def sendUnsubscribe (topic : List UInt8) : Option ClientRequest :=
  if topic.length ≤ clientRequestCodec.size then some (unsubscribe topic) else none

/-- `handle_stdin_message`, from the first `strtok` on: the request it sends, if any. It is not defined when
there is no token for `strncmp`, which compares the whole of `subscribe` and `unsubscribe`. -/
def handleCommand (buffer : List UInt8) : Option (Option ClientRequest) :=
  match token [32] buffer with
  | none => none
  | some (command, rest) =>
    if command = text "subscribe" then
      match token [32] rest with
      | none => some none
      | some (topic, rest) =>
        match token [32, 10] rest with
        | none => some none
        | some (sf, _) => (sendSubscribe topic (sf.headD 0)).map some
    else if command = text "unsubscribe" then
      match token [32, 10] rest with
      | none => some none
      | some (topic, _) => (sendUnsubscribe topic).map some
    else some none

/-- What `fgets` makes of a line, call after call, up to the call that exits. -/
def buffers (line : List UInt8) : List (List UInt8) :=
  (fgetsLines (BUFLEN - 1) line).takeWhile fun buffer => !(text "exit").isPrefixOf buffer

/-- The requests sent for a line. -/
def typed (line : List UInt8) : Option (List ClientRequest) :=
  ((buffers line).mapM handleCommand).map List.reduceOption

/-! ### The grammar -/

inductive Command where
  | subscribe (topic : List UInt8) (sf : UInt8)
  | unsubscribe (topic : List UInt8)
  deriving DecidableEq

/-- The words of a line, which may end in a newline. -/
def words (line : List UInt8) : List (List UInt8) := strtok 32 (line.takeWhile (· ≠ 10))

/-- The command a line is, if it is one. -/
def command (line : List UInt8) : Option Command :=
  match words line with
  | [c, topic, sf] =>
    if c = text "subscribe" ∧ topic.length ≤ TOPIC_LEN ∧ (sf = [SF_OFF] ∨ sf = [SF_ON]) then
      some (.subscribe topic (sf.headD 0))
    else none
  | [c, topic] =>
    if c = text "unsubscribe" ∧ topic.length ≤ TOPIC_LEN then some (.unsubscribe topic) else none
  | _ => none

def Command.request : Command → ClientRequest
  | .subscribe topic sf => Subscriber.subscribe topic sf
  | .unsubscribe topic => Subscriber.unsubscribe topic

def Command.topic : Command → List UInt8
  | .subscribe topic _ | .unsubscribe topic => topic

/-- What the server reads in the bytes of a request. -/
def readBack (data : List UInt8) : Option Command :=
  let req := ClientRequest.dec data
  if req.reqType = SUBSCRIBE then some (.subscribe (Server.topicStr req) req.sf)
  else if req.reqType = UNSUBSCRIBE then some (.unsubscribe (Server.topicStr req))
  else none

/-- A text without NUL that has a newline at its end only, if at all. -/
structure Line (line : List UInt8) : Prop where
  zero : 0 ∉ line
  newline : 10 ∉ line.dropLast

/-- What `fgets` reads is a command, or no request is sent for it: there is a word, or at least a newline,
a subscription of three words or more has three, with a topic that fits and a flag, and an
unsubscription of two words or more has two, with a topic that fits. -/
def Proper (buffer : List UInt8) : Prop :=
  match words buffer with
  | [] => 10 ∈ buffer
  | [_] => True
  | c :: topic :: rest =>
    (c = text "subscribe" → rest ≠ [] →
      topic.length ≤ TOPIC_LEN ∧ (rest = [[SF_OFF]] ∨ rest = [[SF_ON]])) ∧
    (c = text "unsubscribe" → topic.length ≤ TOPIC_LEN ∧ rest = [])

variable {line buffer q s t tail topic : List UInt8} {ts us : List (List UInt8)} {sf : UInt8} {c : Command}
  {r : ClientRequest}

/-! ### The tokens -/

/-- The end of what `fgets` read. -/
def IsEnd (tail : List UInt8) : Prop := tail = [] ∨ tail = [10]

lemma words_append (hq : 10 ∉ q) (htail : IsEnd tail) : words (q ++ tail) = strtok 32 q := by
  unfold words
  rcases htail with rfl | rfl
  · rw [List.append_nil, takeWhile_ne_self hq]
  · rw [takeWhile_ne_delimited hq]

/-- The next token, up to a space or a newline. -/
lemma token_flag (hs : 10 ∉ s) (htail : IsEnd tail) :
    (strtok 32 s = [] ∧ token [32, 10] (s ++ tail) = none) ∨
      ∃ t rest, strtok 32 s = t :: strtok 32 rest ∧ ∃ r, token [32, 10] (s ++ tail) = some (t, r) := by
  rcases strtok_cases 32 s with ⟨hnil, hblank⟩ | ⟨sp, t, r, rfl, hsp, ht, hne, hr, htok⟩
  · refine Or.inl ⟨hnil, token_eq_none ?_⟩
    intro c hc
    rcases List.mem_append.mp hc with hc | hc
    · rw [hblank c hc]
      decide
    · rcases htail with rfl | rfl
      · cases hc
      · rw [List.mem_singleton.mp hc]
        decide
  · simp only [List.mem_append, not_or] at hs
    refine Or.inr ⟨t, r.tail, htok, (r ++ tail).tail, ?_⟩
    rw [List.append_assoc, List.append_assoc]
    refine token_eq ?_ ?_ hne ?_
    · intro c hc
      rw [hsp c hc]
      decide
    · intro c hc hmem
      rcases List.mem_cons.mp hmem with rfl | hmem
      · exact ht hc
      · rw [List.mem_singleton.mp hmem] at hc
        exact hs.2.1 hc
    · intro c hc
      cases r with
      | nil =>
        rcases htail with rfl | rfl
        · cases hc
        · cases hc
          decide
      | cons d r =>
        rw [hr c hc]
        decide

/-- The next token, up to a space: a newline at the end is part of it. -/
lemma token_word (hs : 10 ∉ s) (htail : IsEnd tail) :
    (strtok 32 s = [] ∧ token [32] (s ++ tail) = if tail = [] then none else some (tail, [])) ∨
    (∃ t, strtok 32 s = [t] ∧ token [32] (s ++ tail) = some (t ++ tail, [])) ∨
    ∃ t rest, strtok 32 s = t :: strtok 32 rest ∧ 10 ∉ rest ∧
      token [32] (s ++ tail) = some (t, rest ++ tail) := by
  have hdelim : ∀ c ∈ tail, c ∉ ([32] : List UInt8) := by
    intro c hc
    rcases htail with rfl | rfl
    · cases hc
    · rw [List.mem_singleton.mp hc]
      decide
  rcases strtok_cases 32 s with ⟨hnil, hblank⟩ | ⟨sp, t, r, rfl, hsp, ht, hne, hr, htok⟩
  · refine Or.inl ⟨hnil, ?_⟩
    have hsp : ∀ c ∈ s, c ∈ ([32] : List UInt8) := fun c hc => List.mem_singleton.mpr (hblank c hc)
    by_cases hempty : tail = []
    · subst hempty
      rw [List.append_nil, if_pos rfl]
      exact token_eq_none hsp
    · have htok := token_eq hsp hdelim hempty (r := []) (by simp)
      rw [List.append_nil] at htok
      rw [if_neg hempty]
      exact htok
  · simp only [List.mem_append, not_or] at hs
    have hsp' : ∀ c ∈ sp, c ∈ ([32] : List UInt8) := fun c hc => List.mem_singleton.mpr (hsp c hc)
    have ht' : ∀ c ∈ t, c ∉ ([32] : List UInt8) := by
      intro c hc hmem
      rw [List.mem_singleton.mp hmem] at hc
      exact ht hc
    cases r with
    | nil =>
      refine Or.inr (Or.inl ⟨t, htok, ?_⟩)
      have htoken := token_eq hsp' (t := t ++ tail) (r := []) ?_ (List.append_ne_nil_of_left_ne_nil hne _) (by simp)
      · rw [List.append_nil] at htoken ⊢
        rw [List.append_assoc]
        exact htoken
      · intro c hc
        rcases List.mem_append.mp hc with hc | hc
        · exact ht' c hc
        · exact hdelim c hc
    | cons d r =>
      obtain rfl : d = 32 := hr d rfl
      rw [List.mem_cons, not_or] at hs
      refine Or.inr (Or.inr ⟨t, r, htok, hs.2.2.2, ?_⟩)
      have htoken := token_eq hsp' ht' hne (r := 32 :: r ++ tail) (by intro c hc; cases hc; decide)
      rw [List.append_assoc, List.append_assoc]
      exact htoken

/-- The request for the words behind a topic. -/
def afterTopic (topic : List UInt8) : List (List UInt8) → Option (Option ClientRequest)
  | [] => some none
  | sf :: _ => (sendSubscribe topic (sf.headD 0)).map some

/-- The request for the words of a buffer. -/
def handled (hasNewline : Bool) : List (List UInt8) → Option (Option ClientRequest)
  | [] => if hasNewline then some none else none
  | [_] => some none
  | c :: topic :: rest =>
    if c = text "subscribe" then afterTopic topic rest
    else if c = text "unsubscribe" then (sendUnsubscribe topic).map some
    else some none

/-- Behind a command that is the last word there is nothing to send. -/
lemma handleCommand_single {c rest : List UInt8} (htoken : token [32] buffer = some (c, rest ++ tail))
    (hrest : strtok 32 rest = []) (h10 : 10 ∉ rest) (htail : IsEnd tail) : handleCommand buffer = some none := by
  have hflag : token [32, 10] (rest ++ tail) = none := by
    rcases token_flag h10 htail with ⟨-, h⟩ | ⟨t, rest', h, -⟩
    · exact h
    · rw [hrest] at h
      cases h
  have hword : token [32] (rest ++ tail) = if tail = [] then none else some (tail, []) := by
    rcases token_word h10 htail with ⟨-, h⟩ | ⟨t, h, -⟩ | ⟨t, rest', h, -⟩
    · exact h
    · rw [hrest] at h
      cases h
    · rw [hrest] at h
      cases h
  rw [handleCommand, htoken]
  dsimp only
  rw [hflag, hword]
  by_cases hempty : tail = []
  · rw [if_pos hempty]
    split
    · rfl
    · split <;> rfl
  · rw [if_neg hempty]
    split
    · rfl
    · split <;> rfl

/-- A topic behind `subscribe`, and the flag behind it. -/
lemma subscribe_words {rest : List UInt8} (h10 : 10 ∉ rest) (htail : IsEnd tail)
    (hrest : strtok 32 rest = topic :: us) :
    (match token [32] (rest ++ tail) with
      | none => some none
      | some (topic, rest) =>
        match token [32, 10] rest with
        | none => some none
        | some (sf, _) => (sendSubscribe topic (sf.headD 0)).map some) = afterTopic topic us := by
  rcases token_word h10 htail with ⟨h, -⟩ | ⟨t, h, htoken⟩ | ⟨t, rest', h, h10', htoken⟩
  · rw [hrest] at h
    cases h
  · rw [hrest] at h
    obtain ⟨rfl, rfl⟩ := List.cons.inj h
    rw [htoken]
    rfl
  · rw [hrest] at h
    obtain ⟨rfl, rfl⟩ := List.cons.inj h
    rw [htoken]
    dsimp only
    rcases token_flag h10' htail with ⟨hnil, hflag⟩ | ⟨sf, rest'', hsf, r, hflag⟩
    · rw [hnil, hflag]
      rfl
    · rw [hsf, hflag]
      rfl

/-- What is sent depends on the words only, and on whether there is a newline when there are none. -/
lemma handleCommand_eq (hq : 10 ∉ q) (htail : IsEnd tail) :
    handleCommand (q ++ tail) = handled (tail ≠ []) (strtok 32 q) := by
  rcases token_word hq htail with ⟨hnil, htoken⟩ | ⟨c, hc, htoken⟩ | ⟨c, rest, hc, h10, htoken⟩
  · rw [hnil, handleCommand, htoken]
    rcases htail with rfl | rfl
    · rfl
    · rfl
  · rw [hc]
    have hnil : token [32] (q ++ tail) = some (c ++ tail, [] ++ []) := htoken
    exact handleCommand_single hnil rfl List.not_mem_nil (Or.inl rfl)
  · cases hrest : strtok 32 rest with
    | nil =>
      rw [hc, hrest]
      exact handleCommand_single htoken hrest h10 htail
    | cons topic us =>
      rw [hc, hrest, handleCommand, htoken]
      dsimp only [handled]
      by_cases hsub : c = text "subscribe"
      · rw [if_pos hsub, if_pos hsub]
        exact subscribe_words h10 htail hrest
      · rw [if_neg hsub, if_neg hsub]
        rcases token_flag h10 htail with ⟨h, -⟩ | ⟨t, rest', h, r, hflag⟩
        · rw [hrest] at h
          cases h
        · rw [hrest] at h
          rw [hflag, (List.cons.inj h).1]

/-! ### Requests and what the server reads in them -/

/-- A command that fits its request. -/
structure Command.Fits (c : Command) : Prop where
  zero : 0 ∉ c.topic
  length : c.topic.length ≤ TOPIC_LEN
  flag : ∀ topic sf, c = .subscribe topic sf → sf = SF_OFF ∨ sf = SF_ON

lemma topicStr_request (topic : List UInt8) (a b : UInt8) (h0 : 0 ∉ topic) :
    (topic.length ≤ TOPIC_LEN → cstr ((pad (TOPIC_LEN + 1) topic).toList ++ [a, b]) = topic) ∧
      (TOPIC_LEN < topic.length → TOPIC_LEN < (cstr ((pad (TOPIC_LEN + 1) topic).toList ++ [a, b])).length) := by
  refine ⟨?_, ?_⟩
  · intro hlen
    have hpad : (pad (TOPIC_LEN + 1) topic).toList = topic ++ 0 :: List.replicate (TOPIC_LEN - topic.length) 0 := by
      rw [pad_toList (by omega), ← List.replicate_succ]
      congr 2
      omega
    rw [hpad, List.append_assoc, List.cons_append]
    exact cstr_append_zero h0
  · intro hlen
    have hpad : (pad (TOPIC_LEN + 1) topic).toList = topic.take (TOPIC_LEN + 1) := by
      apply List.ext_getElem
      · simp at hlen ⊢
        omega
      · intro i hi hi'
        simp at hi
        simp [List.getD_eq_getElem?_getD, List.getElem?_eq_getElem (show i < topic.length by simp at hlen; omega)]
    rw [hpad, cstr_append (fun c hc hzero => h0 (hzero ▸ List.mem_of_mem_take hc))]
    simp at hlen ⊢
    omega

lemma readBack_subscribe (topic : List UInt8) (sf : UInt8) : readBack (subscribe topic sf).enc =
    some (.subscribe (cstr ((pad (TOPIC_LEN + 1) topic).toList ++ [sf, SUBSCRIBE])) sf) := by
  have hdec : ClientRequest.dec (subscribe topic sf).enc = subscribe topic sf := clientRequestCodec.dec_enc _
  unfold readBack
  rw [hdec]
  exact if_pos rfl

lemma readBack_unsubscribe (topic : List UInt8) : readBack (unsubscribe topic).enc =
    some (.unsubscribe (cstr ((pad (TOPIC_LEN + 1) topic).toList ++ [0, UNSUBSCRIBE]))) := by
  have hdec : ClientRequest.dec (unsubscribe topic).enc = unsubscribe topic := clientRequestCodec.dec_enc _
  have hne : ¬ (unsubscribe topic).reqType = SUBSCRIBE := (by decide : UNSUBSCRIBE ≠ SUBSCRIBE)
  unfold readBack
  rw [hdec]
  dsimp only
  rw [if_neg hne]
  exact if_pos rfl

/-- **The server reads back the command**, with its topic terminated in the array. -/
theorem readBack_request (h : c.Fits) : readBack c.request.enc = some c ∧ 0 ∈ c.request.topic.toList := by
  have htopic : ∀ topic, topic.length ≤ TOPIC_LEN → 0 ∈ (pad (TOPIC_LEN + 1) topic).toList := by
    intro topic hlen
    rw [pad_toList (by omega)]
    refine List.mem_append_right _ (List.mem_replicate.mpr ⟨?_, rfl⟩)
    omega
  cases c with
  | subscribe topic sf =>
    refine ⟨?_, htopic topic h.length⟩
    have hread := (topicStr_request topic sf SUBSCRIBE h.zero).1 h.length
    exact (readBack_subscribe topic sf).trans (congrArg (fun t => some (Command.subscribe t sf)) hread)
  | unsubscribe topic =>
    refine ⟨?_, htopic topic h.length⟩
    have hread := (topicStr_request topic 0 UNSUBSCRIBE h.zero).1 h.length
    exact (readBack_unsubscribe topic).trans (congrArg (fun t => some (Command.unsubscribe t)) hread)

/-- What is read as a topic that fits is the topic that was copied. -/
lemma topic_of_read {t : List UInt8} {a b : UInt8} (h0 : 0 ∉ topic)
    (hread : cstr ((pad (TOPIC_LEN + 1) topic).toList ++ [a, b]) = t) (hfit : t.length ≤ TOPIC_LEN) :
    t = topic ∧ topic.length ≤ TOPIC_LEN := by
  obtain ⟨hshort, hlong⟩ := topicStr_request topic a b h0
  rw [hread] at hshort hlong
  by_cases hlen : topic.length ≤ TOPIC_LEN
  · exact ⟨hshort hlen, hlen⟩
  · exact absurd hfit (Nat.not_le.mpr (hlong (Nat.lt_of_not_le hlen)))

/-- A command with the request of a subscription has its topic and its flag. -/
lemma eq_subscribe (h0 : 0 ∉ topic) (hfits : c.Fits) (h : c.request = subscribe topic sf) :
    c = .subscribe topic sf ∧ topic.length ≤ TOPIC_LEN ∧ (sf = SF_OFF ∨ sf = SF_ON) := by
  have hread := (readBack_request hfits).1
  rw [h, readBack_subscribe] at hread
  generalize hcstr : cstr _ = t at hread
  obtain rfl := (Option.some.inj hread).symm
  obtain ⟨rfl, hlen⟩ := topic_of_read h0 hcstr hfits.length
  exact ⟨rfl, hlen, hfits.flag _ _ rfl⟩

lemma eq_unsubscribe (h0 : 0 ∉ topic) (hfits : c.Fits) (h : c.request = unsubscribe topic) :
    c = .unsubscribe topic ∧ topic.length ≤ TOPIC_LEN := by
  have hread := (readBack_request hfits).1
  rw [h, readBack_unsubscribe] at hread
  generalize hcstr : cstr _ = t at hread
  obtain rfl := (Option.some.inj hread).symm
  obtain ⟨rfl, hlen⟩ := topic_of_read h0 hcstr hfits.length
  exact ⟨rfl, hlen⟩

/-! ### Words and commands -/

lemma subscribe_ne_unsubscribe : text "subscribe" ≠ text "unsubscribe" := by decide

/-- How many characters a command has that are no spaces. -/
def Command.weight : Command → ℕ
  | .subscribe topic _ => topic.length + 10
  | .unsubscribe topic => topic.length + 11

lemma ne_nil_of_mem_words {w : List UInt8} (h : w ∈ words line) : w ≠ [] := by
  simpa using (List.mem_filter.mp h).2

lemma mem_of_mem_words {w : List UInt8} {x : UInt8} (hw : w ∈ words line) (hx : x ∈ w) : x ∈ line := by
  have hflat : x ∈ (words line).flatten := List.mem_flatten.mpr ⟨w, hw, hx⟩
  rw [words, flatten_strtok] at hflat
  exact (List.takeWhile_prefix _).subset (List.mem_of_mem_filter hflat)

/-- A command fits, and its words are as long as it says. -/
lemma command_eq_some (h0 : 0 ∉ line) (h : command line = some c) :
    c.Fits ∧ (words line).flatten.length = c.weight := by
  have hzero : ∀ w ∈ words line, 0 ∉ w := fun w hw hmem => h0 (mem_of_mem_words hw hmem)
  unfold command at h
  split at h
  · next c' topic sf hw =>
    rw [hw] at hzero ⊢
    split at h
    · next hc =>
      obtain ⟨rfl, hlen, hsf⟩ := hc
      cases h
      have hflag : sf.headD 0 = SF_OFF ∨ sf.headD 0 = SF_ON := by
        rcases hsf with rfl | rfl
        · exact Or.inl rfl
        · exact Or.inr rfl
      have hone : sf.length = 1 := by
        rcases hsf with rfl | rfl
        · rfl
        · rfl
      have hsubscribe : (text "subscribe").length = 9 := rfl
      refine ⟨⟨hzero topic (by simp), hlen, ?_⟩, ?_⟩
      · intro t f heq
        cases heq
        exact hflag
      · simp only [Command.weight, List.flatten_cons, List.flatten_nil, List.length_append, List.length_nil]
        omega
    · cases h
  · next c' topic hw =>
    rw [hw] at hzero ⊢
    split at h
    · next hc =>
      obtain ⟨rfl, hlen⟩ := hc
      cases h
      have hunsubscribe : (text "unsubscribe").length = 11 := rfl
      refine ⟨⟨hzero topic (by simp), hlen, fun t f heq => by cases heq⟩, ?_⟩
      simp only [Command.weight, List.flatten_cons, List.flatten_nil, List.length_append, List.length_nil]
      omega
    · cases h
  · cases h

/-- A proper buffer sends the command it is, and none when it is none. -/
lemma handled_of_proper (hq : 10 ∉ q) (htail : IsEnd tail) (h : Proper (q ++ tail)) :
    handleCommand (q ++ tail) = some ((command (q ++ tail)).map Command.request) := by
  rw [handleCommand_eq hq htail]
  unfold Proper at h
  unfold command
  rw [words_append hq htail] at h ⊢
  split at h
  · next hw =>
    have hne : tail ≠ [] := by
      rintro rfl
      rw [List.append_nil] at h
      exact hq h
    rw [hw, handled, if_pos (by simpa using hne)]
    rfl
  · next hw =>
    rw [hw]
    rfl
  · next c topic rest hw =>
    obtain ⟨hsubscribe, hunsubscribe⟩ := h
    rw [hw]
    dsimp only [handled]
    by_cases hsub : c = text "subscribe"
    · subst hsub
      rw [if_pos rfl]
      by_cases hrest : rest = []
      · subst hrest
        dsimp only
        rw [if_neg fun hc => subscribe_ne_unsubscribe hc.1]
        rfl
      · obtain ⟨hlen, hflag⟩ := hsubscribe rfl hrest
        have hsend : ∀ sf, sendSubscribe topic sf = some (subscribe topic sf) :=
          fun sf => if_pos (le_trans hlen (by decide))
        rcases hflag with rfl | rfl
        · rw [afterTopic, hsend]
          dsimp only
          rw [if_pos ⟨rfl, hlen, Or.inl rfl⟩]
          rfl
        · rw [afterTopic, hsend]
          dsimp only
          rw [if_pos ⟨rfl, hlen, Or.inr rfl⟩]
          rfl
    · rw [if_neg hsub]
      by_cases hunsub : c = text "unsubscribe"
      · obtain ⟨hlen, rfl⟩ := hunsubscribe hunsub
        dsimp only
        rw [if_pos hunsub, if_pos ⟨hunsub, hlen⟩, sendUnsubscribe, if_pos (le_trans hlen (by decide))]
        rfl
      · rw [if_neg hunsub]
        match rest with
        | [] =>
          dsimp only
          rw [if_neg fun hc => hunsub hc.1]
          rfl
        | [sf] =>
          dsimp only
          rw [if_neg fun hc => hsub hc.1]
          rfl
        | sf :: x :: us => rfl

/-- Words of one character together are one word. -/
lemma eq_singleton_of_length_le {w : List UInt8} {ws : List (List UInt8)} (hne : ∀ v ∈ w :: ws, v ≠ [])
    (hle : w.length + ws.flatten.length ≤ 1) : ∃ f, w = [f] ∧ ws = [] := by
  obtain ⟨hw, hws⟩ := List.forall_mem_cons.mp hne
  have hpos := List.length_pos_of_ne_nil hw
  obtain ⟨f, hf⟩ := List.length_eq_one_iff.mp (show w.length = 1 by omega)
  cases ws with
  | nil => exact ⟨f, hf, rfl⟩
  | cons v vs =>
    have hv := List.length_pos_of_ne_nil (hws v List.mem_cons_self)
    rw [List.flatten_cons, List.length_append] at hle
    omega

/-- The request of a subscription whose flag is no command's has more words or characters behind its
topic than a command. -/
lemma weight_lt_subscribe {w : List UInt8} {ws : List (List UInt8)} (h0 : 0 ∉ topic)
    (hne : ∀ v ∈ w :: ws, v ≠ []) (hfits : c.Fits) (hc : c.request = subscribe topic (w.headD 0))
    (h : ¬ (topic.length ≤ TOPIC_LEN ∧ (w :: ws = [[SF_OFF]] ∨ w :: ws = [[SF_ON]]))) :
    c.weight < (text "subscribe" :: topic :: w :: ws).flatten.length := by
  obtain ⟨rfl, hlen, hflag⟩ := eq_subscribe h0 hfits hc
  have hmore : 1 < w.length + ws.flatten.length := by
    by_contra hle
    obtain ⟨f, rfl, rfl⟩ := eq_singleton_of_length_le hne (Nat.le_of_not_lt hle)
    refine h ⟨hlen, ?_⟩
    rcases hflag with hf | hf
    · exact Or.inl (congrArg (fun f => [[f]]) hf)
    · exact Or.inr (congrArg (fun f => [[f]]) hf)
  have hnine : (text "subscribe").length = 9 := rfl
  simp only [Command.weight, List.flatten_cons, List.length_append]
  omega

/-- The same for `unsubscribe`, with words behind the topic. -/
lemma weight_lt_unsubscribe {ws : List (List UInt8)} (h0 : 0 ∉ topic) (hne : ∀ v ∈ ws, v ≠ [])
    (hfits : c.Fits) (hc : c.request = unsubscribe topic)
    (h : ¬ (topic.length ≤ TOPIC_LEN ∧ ws = [])) :
    c.weight < (text "unsubscribe" :: topic :: ws).flatten.length := by
  obtain ⟨rfl, hlen⟩ := eq_unsubscribe h0 hfits hc
  have heleven : (text "unsubscribe").length = 11 := rfl
  cases ws with
  | nil => exact absurd ⟨hlen, rfl⟩ h
  | cons u us =>
    have hpos := List.length_pos_of_ne_nil (hne u List.mem_cons_self)
    simp only [Command.weight, List.flatten_cons, List.length_append]
    omega

/-- Any other buffer is not handled, or sends a request that is not that of a command with as many
characters. -/
lemma handled_of_not_proper (hq : 10 ∉ q) (htail : IsEnd tail) (h0 : 0 ∉ q ++ tail) (h : ¬ Proper (q ++ tail)) :
    handleCommand (q ++ tail) = none ∨ ∃ r, handleCommand (q ++ tail) = some (some r) ∧
      ∀ c : Command, c.Fits → c.request = r → c.weight < (words (q ++ tail)).flatten.length := by
  have hzero : ∀ w ∈ words (q ++ tail), 0 ∉ w := fun w hw hmem => h0 (mem_of_mem_words hw hmem)
  have hne : ∀ w ∈ words (q ++ tail), w ≠ [] := fun w hw => ne_nil_of_mem_words hw
  rw [handleCommand_eq hq htail]
  unfold Proper at h
  rw [words_append hq htail] at h hzero hne ⊢
  split at h
  · next hw =>
    have hend : tail = [] := by
      rcases htail with rfl | rfl
      · rfl
      · exact absurd (List.mem_append_right _ List.mem_cons_self) h
    rw [hw, handled, if_neg (by simpa using hend)]
    exact Or.inl rfl
  · exact absurd trivial h
  · next c topic rest hw =>
    rw [hw] at hzero hne ⊢
    have htopic := hzero topic (by simp)
    have hrest : ∀ w ∈ rest, w ≠ [] :=
      fun w hw => hne w (List.mem_cons_of_mem _ (List.mem_cons_of_mem _ hw))
    dsimp only [handled]
    by_cases hsub : c = text "subscribe"
    · subst hsub
      rw [if_pos rfl]
      match rest with
      | [] => exact absurd ⟨fun _ h => absurd rfl h, fun h => absurd h subscribe_ne_unsubscribe⟩ h
      | sf :: us =>
        rw [afterTopic, sendSubscribe]
        by_cases hlen : topic.length ≤ clientRequestCodec.size
        · rw [if_pos hlen]
          refine Or.inr ⟨_, rfl, fun c hfits hc => weight_lt_subscribe htopic hrest hfits hc ?_⟩
          intro hflag
          exact h ⟨fun _ _ => hflag, fun heq => absurd heq subscribe_ne_unsubscribe⟩
        · rw [if_neg hlen]
          exact Or.inl rfl
    · rw [if_neg hsub]
      by_cases hunsub : c = text "unsubscribe"
      · subst hunsub
        rw [if_pos rfl, sendUnsubscribe]
        by_cases hlen : topic.length ≤ clientRequestCodec.size
        · rw [if_pos hlen]
          refine Or.inr ⟨_, rfl, fun c hfits hc => weight_lt_unsubscribe htopic hrest hfits hc ?_⟩
          intro hlast
          exact h ⟨fun heq => absurd heq hsub, fun _ => hlast⟩
        · rw [if_neg hlen]
          exact Or.inl rfl
      · exact absurd ⟨fun heq => absurd heq hsub, fun heq => absurd heq hunsub⟩ h

/-! ### Whole lines -/

lemma Line.eq_append (h : Line line) : ∃ q tail, line = q ++ tail ∧ 10 ∉ q ∧ IsEnd tail := by
  rcases List.eq_nil_or_concat line with rfl | ⟨q, x, rfl⟩
  · exact ⟨[], [], rfl, List.not_mem_nil, Or.inl rfl⟩
  · rw [List.concat_eq_append] at h ⊢
    have hq : 10 ∉ q := by simpa using h.newline
    by_cases hx : x = 10
    · exact ⟨q, [x], rfl, hq, Or.inr (by rw [hx])⟩
    · refine ⟨q ++ [x], [], (List.append_nil _).symm, ?_, Or.inl rfl⟩
      intro hmem
      rcases List.mem_append.mp hmem with h | h
      · exact hq h
      · exact hx (List.mem_singleton.mp h).symm

lemma flatten_words (hq : 10 ∉ q) (htail : IsEnd tail) :
    (words (q ++ tail)).flatten = (q ++ tail).filter fun c => c ≠ 32 ∧ c ≠ 10 := by
  have htail' : tail.filter (fun c => c ≠ 32 ∧ c ≠ 10) = [] := by
    rcases htail with rfl | rfl
    · rfl
    · rfl
  rw [words_append hq htail, flatten_strtok, List.filter_append, htail', List.append_nil]
  refine List.filter_congr fun c hc => ?_
  have hne : c ≠ 10 := by
    rintro rfl
    exact hq hc
  simp [hne]

/-- What `fgets` reads ends as a line does, and has no more characters than the line. -/
lemma buffer_of_mem (hline : Line line) (h : buffer ∈ buffers line) : ∃ q tail, buffer = q ++ tail ∧
    10 ∉ q ∧ IsEnd tail ∧ 0 ∉ buffer ∧ (words buffer).flatten.length ≤ (words line).flatten.length := by
  have hmem : buffer ∈ fgetsLines (BUFLEN - 1) line := (List.takeWhile_prefix _).subset h
  have hsub : buffer.Sublist line := by
    have hflat := List.sublist_flatten_of_mem hmem
    rwa [fgetsLines, flatten_fgetsFrom, List.nil_append] at hflat
  have hwords : ∀ q tail, buffer = q ++ tail → 10 ∉ q → IsEnd tail →
      (words buffer).flatten.length ≤ (words line).flatten.length := by
    intro q tail hb hq htail
    obtain ⟨q', tail', rfl, hq', htail'⟩ := hline.eq_append
    subst hb
    rw [flatten_words hq htail, flatten_words hq' htail']
    exact (hsub.filter _).length_le
  obtain ⟨q, hq, hend⟩ := newline_of_mem_fgetsFrom (List.not_mem_nil) hmem
  have h0 : 0 ∉ buffer := fun h => hline.zero (hsub.subset h)
  rcases hend with hb | hb
  · have hb' : buffer = q ++ [] := hb.trans (List.append_nil q).symm
    exact ⟨q, [], hb', hq, Or.inl rfl, h0, hwords q [] hb' hq (Or.inl rfl)⟩
  · exact ⟨q, [10], hb, hq, Or.inr rfl, h0, hwords q [10] hb hq (Or.inr rfl)⟩

/-- The requests of a line are the commands in its buffers, if each is proper. -/
lemma typed_of_proper (hline : Line line) (h : ∀ b ∈ buffers line, Proper b) :
    typed line = some (((buffers line).filterMap command).map Command.request) := by
  have hmap : (buffers line).mapM handleCommand =
      some ((buffers line).map fun b => (command b).map Command.request) := by
    refine Run.mapM_eq_some_map ?_
    intro b hb
    obtain ⟨q, tail, rfl, hq, htail, -, -⟩ := buffer_of_mem hline hb
    exact handled_of_proper hq htail (h _ hb)
  rw [typed, hmap, Option.map_some, Option.some_inj, List.reduceOption, List.filterMap_map, List.map_filterMap]
  rfl

/-- **The lines that follow the grammar.** The requests sent for a line are those of the command it is, or
none when it is none, exactly when each buffer it is read into is proper and their commands are those of
the line. And the server reads each command back as it was typed. -/
theorem typed_iff (hline : Line line) :
    (typed line = some ((command line).toList.map Command.request) ↔
      (∀ b ∈ buffers line, Proper b) ∧ (buffers line).filterMap command = (command line).toList) ∧
    ∀ c, command line = some c → readBack c.request.enc = some c ∧ 0 ∈ c.request.topic.toList := by
  refine ⟨⟨?_, ?_⟩, fun c hc => readBack_request (command_eq_some hline.zero hc).1⟩
  · intro h
    have hproper : ∀ b ∈ buffers line, Proper b := by
      intro b hb
      by_contra hnot
      obtain ⟨q, tail, rfl, hq, htail, h0, hle⟩ := buffer_of_mem hline hb
      obtain ⟨rs, hrs, hreduce⟩ := Option.map_eq_some_iff.mp h
      obtain ⟨x, hx, hhandled⟩ := Run.mem_of_mapM hrs _ hb
      rcases handled_of_not_proper hq htail h0 hnot with hnone | ⟨r, hr, hweight⟩
      · rw [hnone] at hhandled
        cases hhandled
      · -- the request is that of the line, which has fewer characters
        rw [hr] at hhandled
        obtain rfl := Option.some.inj hhandled
        have hmem : r ∈ rs.reduceOption := List.reduceOption_mem_iff.mpr hx
        rw [hreduce] at hmem
        obtain ⟨c, hc, rfl⟩ := List.mem_map.mp hmem
        obtain ⟨hfits, hlen⟩ := command_eq_some hline.zero (Option.mem_toList.mp hc)
        have hlt := hweight c hfits rfl
        omega
    refine ⟨hproper, ?_⟩
    rw [typed_of_proper hline hproper, Option.some_inj] at h
    -- the server reads the same commands on both sides
    have hread : ∀ cs : List Command, (∀ c ∈ cs, c.Fits) →
        (cs.map Command.request).map (fun r => readBack r.enc) = cs.map some := by
      intro cs hcs
      rw [List.map_map]
      exact List.map_congr_left fun c hc => (readBack_request (hcs c hc)).1
    have hmap := congrArg (List.map fun r => readBack r.enc) h
    rw [hread _ ?_, hread _ ?_] at hmap
    · exact List.map_injective_iff.mpr (Option.some_injective _) hmap
    · intro c hc
      exact (command_eq_some hline.zero (Option.mem_toList.mp hc)).1
    · intro c hc
      obtain ⟨b, hb, hcb⟩ := List.mem_filterMap.mp hc
      obtain ⟨q, tail, rfl, -, -, h0, -⟩ := buffer_of_mem hline hb
      exact (command_eq_some h0 hcb).1
  · rintro ⟨hproper, hcommands⟩
    rw [typed_of_proper hline hproper, hcommands]

/-- A subscription, as it is meant to be typed. -/
theorem typed_iff_subscribe : let line := text "subscribe a 1" ++ [10]
    (typed line = some ((command line).toList.map Command.request) ↔
      (∀ b ∈ buffers line, Proper b) ∧ (buffers line).filterMap command = (command line).toList) ∧
    ∀ c, command line = some c → readBack c.request.enc = some c ∧ 0 ∈ c.request.topic.toList :=
  typed_iff ⟨by decide, by decide⟩

/-- A flag that is neither 0 nor 1 is sent. -/
theorem not_typed : ¬ ∀ line, Line line → typed line = some ((command line).toList.map Command.request) := by
  intro h
  have hline : Line (text "subscribe a 7") := ⟨by decide, by decide⟩
  have hcommand : command (text "subscribe a 7") = none := by decide
  have htyped : typed (text "subscribe a 7") = some [subscribe [97] 55] := rfl
  have hnone := h _ hline
  rw [hcommand, htyped] at hnone
  cases hnone

end Subscriber

end Protocoale.Tema2

import Protocoale.Lib.CText
import Protocoale.Lib.Run
import Protocoale.Tema1.RTable

/-!
The routing table file (`parser.c`). A line has four tokens, three addresses and the number of an
interface. Nothing is checked: a malformed address is read as the broadcast address, and the number
of the interface is whatever `atoi` makes of the token.
-/

namespace Protocoale.Tema1

open Lib Lib.Bytes Lib.CText

@[simp] abbrev MAX_LINE_LEN : ℕ := 100

/-! ### Addresses -/

/-- The numbers of an address in dotted notation, with at most `dots` dots: those before a dot are
bytes, and the last one may be followed by white space. -/
def inetParts : ℕ → List UInt8 → Option (List ℕ)
  | dots, s =>
    if s.head?.any isDigit then
      let r := strtoul s
      if 0xffffffff < r.1 then none
      else
        match r.2, dots with
        | [], _ => some [r.1]
        | 46 :: s', dots + 1 => if 0xff < r.1 then none else (inetParts dots s').map (r.1 :: ·)
        | 46 :: _, 0 => none
        | c :: _, _ => if isSpace c then some [r.1] else none
    else none

/-- The word of an address: each number before the last is a byte, and the last one is what is left
of the word. -/
def inetWord : ℕ → List ℕ → Option ℕ
  | _, [] => none
  | room, [last] => if last < room then some last else none
  | room, n :: ns => (inetWord (room / 256) ns).map (n * (room / 256) + ·)

/-- `inet_addr`: the host's value of a word in network byte order. -/
def inetAddr (s : List UInt8) : UInt32 :=
  match (inetParts 3 s).bind (inetWord (2 ^ 32)) with
  | none => 0xffffffff
  | some n => le32 (UInt8.ofNat (n / 16777216)) (UInt8.ofNat (n / 65536)) (UInt8.ofNat (n / 256))
      (UInt8.ofNat n)

/-! ### Routes -/

/-- A line of the file. There is no route when a token is missing: the string functions are then
called with a null pointer. -/
def parseRoute (line : List UInt8) : Option RouteTableEntry :=
  match strtok 32 (cstr line) with
  | a :: b :: c :: d :: _ => some
      { routePrefix := inetAddr a
        nextHop := inetAddr b
        mask := inetAddr c
        interface := atoi d }
  | _ => none

/-- `read_rtable`, from a file that holds these bytes. Nothing comes of more lines than the `int` that
is the index and the result counts. -/
def readRtable (file : List UInt8) : Option (List RouteTableEntry) :=
  let lines := fgetsLines MAX_LINE_LEN file
  if lines.length < INT_LIMIT then lines.mapM parseRoute else none

/-- `count_rtable_entries`, in an `int` as well. -/
def countRtableEntries (file : List UInt8) : Option ℕ :=
  let count := (fgetsLines MAX_LINE_LEN file).length
  if count < INT_LIMIT then some count else none

lemma readRtable_eq_some_iff {file : List UInt8} {rtable : List RouteTableEntry} :
    readRtable file = some rtable ↔ (fgetsLines MAX_LINE_LEN file).length < INT_LIMIT ∧
      (fgetsLines MAX_LINE_LEN file).mapM parseRoute = some rtable := by
  unfold readRtable
  dsimp only
  split
  · next hlt => exact (and_iff_right hlt).symm
  · next hge => exact iff_of_false (by simp) fun h => hge h.1

/-- The table is as long as the block allocated for it. -/
lemma countRtableEntries_of_readRtable {file : List UInt8} {rtable : List RouteTableEntry}
    (h : readRtable file = some rtable) : countRtableEntries file = some rtable.length := by
  obtain ⟨hlt, hparse⟩ := readRtable_eq_some_iff.mp h
  unfold countRtableEntries
  dsimp only
  rw [if_pos hlt, (Run.mapM_eq_some_iff.mp hparse).length_eq]

end Protocoale.Tema1

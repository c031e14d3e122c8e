import Protocoale.Lib.Exchange
import Protocoale.Tema1.RTable

/-!
The routing table of the fourth laboratory (`router.c`). The routes are sorted by their masks, the
longest first, and searched from the front, so that the first match is a longest one
(`firstMatch_longest`).
-/

namespace Protocoale.Lab04

open Lib Lib.Bytes Lib.Exchange Tema1

/-- `ntohl` -/
def ntohl (x : UInt32) : ℕ :=
  be32 (UInt8.ofNat x.toNat) (UInt8.ofNat (x.toNat / 256)) (UInt8.ofNat (x.toNat / 65536))
    (UInt8.ofNat (x.toNat / 16777216))

/-- The route is one of the destination. -/
def isMatch (destIp : UInt32) (e : RouteTableEntry) : Bool :=
  destIp &&& e.mask = e.mask &&& e.routePrefix

/-- `get_best_route` -/
def getBestRoute (rtable : List RouteTableEntry) (destIp : UInt32) : Option RouteTableEntry :=
  rtable.find? (isMatch destIp)

/-- `sort_rtable` -/
def sortRtable {n : ℕ} (rtable : Vector RouteTableEntry n) : Vector RouteTableEntry n :=
  exchangeSort (fun rj ri => ntohl ri.mask < ntohl rj.mask) rtable

/-- **Sorted by mask, the first match is a longest one.** The table is put in order; in it the search
finds a route exactly when there is one, and then one with the greatest mask. -/
theorem firstMatch_longest {n : ℕ} (rtable : Vector RouteTableEntry n) :
    (sortRtable rtable).Perm rtable ∧
    (sortRtable rtable).toList.Pairwise (fun a b => ntohl b.mask ≤ ntohl a.mask) ∧
    ∀ d, (getBestRoute (sortRtable rtable).toList d = none ↔ ∀ e ∈ rtable, ¬ isMatch d e) ∧
      ∀ e, getBestRoute (sortRtable rtable).toList d = some e →
        e ∈ rtable ∧ isMatch d e ∧ ∀ e' ∈ rtable, isMatch d e' → ntohl e'.mask ≤ ntohl e.mask := by
  have hperm : (sortRtable rtable).Perm rtable := exchangeSort_perm rtable
  have hsorted := exchangeSort_descending (fun e : RouteTableEntry => ntohl e.mask) rtable
  have hmem (e : RouteTableEntry) : e ∈ (sortRtable rtable).toList ↔ e ∈ rtable := by
    rw [Vector.mem_toList_iff]
    exact hperm.mem_iff
  refine ⟨hperm, hsorted, fun d => ⟨?_, fun e he => ?_⟩⟩
  · rw [getBestRoute, List.find?_eq_none]
    exact ⟨fun h e he => h e ((hmem e).mpr he), fun h e he => h e ((hmem e).mp he)⟩
  · obtain ⟨hin, hmatch, hgreatest⟩ := find?_greatest hsorted he
    exact ⟨(hmem e).mp hin, hmatch, fun e' he' => hgreatest e' ((hmem e').mpr he')⟩

end Protocoale.Lab04

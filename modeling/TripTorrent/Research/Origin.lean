import TripTorrent.Research.Simulation

/-!
# The origin of a lookup

A lookup starts from the table of its origin, where the origin does not stand; but the nodes that
answer have tables of their own, and the origin becomes a candidate like any other node. It is
queried in the round in which it is due: it is known, it has not been queried, and fewer than three
candidates come before it (`Lookup.OriginDue`). A requester that looks up a key near its own
identifier queries itself as soon as one of its contacts has named it
(`Lookup.start_mem_queried_of_nearest`).

A direct policy takes the nodes that were queried for those that learn who asks. The origin is
removed from the observers of a lookup, but not from the nodes that were queried.
-/

namespace TripTorrent.Research

open Codec Selection

variable {n : ℕ}

namespace Lookup

variable {lookup : Lookup n} {state : LookupState n} {round : ℕ}

/-- The origin is among the next nodes to query: it is a candidate, and those before it leave a
place for it. With prefix diversity its group is a new one, and a place is taken by a group. -/
def OriginDue (lookup : Lookup n) (state : LookupState n) : Prop :=
  ∃ nearer farther, lookup.candidates state = nearer ++ lookup.start :: farther ∧
    if lookup.diverse then
      (lookup.nodes lookup.start).group ∉ state.queriedGroups ∧
        (lookup.nodes lookup.start).group ∉ nearer.map (fun i ↦ (lookup.nodes i).group) ∧
        ((nearer.map fun i ↦ (lookup.nodes i).group).toFinset \ state.queriedGroups).card < 3
    else nearer.length < 3

theorem start_mem_selected_iff : lookup.start ∈ lookup.selected state ↔ lookup.OriginDue state := by
  rw [selected, admitted, OriginDue]
  split_ifs
  · exact mem_take_firstPerGroup_iff
  · exact mem_take_iff

/-- **When a lookup does not query its origin**: there is no round in which the origin is due. -/
theorem start_notMem_queried_iff (lookup : Lookup n) :
    lookup.start ∉ (routeLookup lookup.sort lookup.nodes lookup.start lookup.target
        lookup.replicas lookup.diverse).queried ↔
      ∀ round state, lookup.Reached round state → ¬lookup.OriginDue state := by
  have hqueried : lookup.start ∈ lookup.trace.queried ↔ _ := mem_queried_iff
  rw [trace] at hqueried
  simp only [hqueried, start_mem_selected_iff, not_exists, not_and]

end Lookup

/-! ## Requesters -/

/-- With a direct policy the requester is an origin like any other, and is removed from the
observers only. -/
theorem Run.combinedLookup_of_direct {run : Run n} (horigin : run.policy.origin = .direct)
    (hpaths : run.policy.lookupPaths = 1) (requester : Fin n) (target : UInt64)
    (replicas : Finset (Fin n)) (content repetition : ℕ) :
    let trace := routeLookup run.sort run.nodes requester target replicas
      (run.policy.routing = .prefixDiverse)
    run.combinedLookup requester target replicas content repetition =
      some { trace with observers := trace.observers.erase requester } := by
  have hstart : run.pathStart requester content repetition 0 = some requester := by
    rw [pathStart, horigin]
    rfl
  rw [combinedLookup, hpaths, List.range_one, List.foldlM_cons, addPath, hstart, horigin]
  simp

end TripTorrent.Research

import Mathlib

/-!
# How much is queued

A family of queues is kept in a map from their owners. An owner without an entry has an empty queue,
and so may one with an entry. The number of queued entries is computed over the list of the map; it
is a sum over any set of owners that contains those of the map, which is how two states of the map
are compared.
-/

namespace Queueing

open Std

variable {κ α : Type} [Ord κ] [TransOrd κ]

/-- How many entries the queues hold together. -/
def total (queues : ExtTreeMap κ (List α)) : ℕ :=
  (queues.toList.map fun entry ↦ entry.2.length).sum

theorem total_empty : total (∅ : ExtTreeMap κ (List α)) = 0 := by
  rw [total, ExtTreeMap.toList_eq_nil_iff.mpr rfl, List.map_nil, List.sum_nil]

/-- The queue of an owner. -/
def queueOf (queues : ExtTreeMap κ (List α)) (owner : κ) : List α := queues[owner]?.getD []

variable {queues queues' : ExtTreeMap κ (List α)} {owner : κ}

theorem queueOf_eq_nil (h : owner ∉ queues) : queueOf queues owner = [] := by
  rw [queueOf, ExtTreeMap.getElem?_eq_none h, Option.getD_none]

theorem queueOf_insert_self (queue : List α) :
    queueOf (queues.insert owner queue) owner = queue := by
  rw [queueOf, ExtTreeMap.getElem?_insert_self, Option.getD_some]

variable [LawfulEqOrd κ]

theorem queueOf_insert_of_ne {other : κ} (queue : List α) (h : owner ≠ other) :
    queueOf (queues.insert owner queue) other = queueOf queues other := by
  rw [queueOf, ExtTreeMap.getElem?_insert, if_neg (mt Std.compare_eq_iff_eq.mp h), queueOf]

variable [DecidableEq κ]

theorem total_eq_sum (owners : Finset κ) (h : ∀ owner ∈ queues, owner ∈ owners) :
    total queues = ∑ owner ∈ owners, (queueOf queues owner).length := by
  have hentries : queues.toList.map (fun entry ↦ entry.2.length) =
      queues.keys.map fun owner ↦ (queueOf queues owner).length := by
    rw [← ExtTreeMap.map_fst_toList_eq_keys, List.map_map]
    refine List.map_congr_left fun entry hentry ↦ ?_
    obtain ⟨owner, queue⟩ := entry
    rw [ExtTreeMap.mem_toList_iff_getElem?_eq_some] at hentry
    rw [Function.comp_apply, queueOf, hentry, Option.getD_some]
  have hkeys : queues.keys.toFinset ⊆ owners := by
    intro owner howner
    exact h owner (ExtTreeMap.mem_keys.mp (List.mem_toFinset.mp howner))
  rw [total, hentries, ← List.sum_toFinset _ ExtTreeMap.nodup_keys]
  refine Finset.sum_subset hkeys fun owner _ howner ↦ ?_
  rw [queueOf_eq_nil, List.length_nil]
  exact fun hmem ↦ howner (List.mem_toFinset.mpr (ExtTreeMap.mem_keys.mpr hmem))

/-- The owners of two states of the map. -/
def owners (queues queues' : ExtTreeMap κ (List α)) : Finset κ :=
  queues.keys.toFinset ∪ queues'.keys.toFinset

theorem mem_owners_left (h : owner ∈ queues) : owner ∈ owners queues queues' :=
  Finset.mem_union_left _ (List.mem_toFinset.mpr (ExtTreeMap.mem_keys.mpr h))

theorem mem_owners_right (h : owner ∈ queues') : owner ∈ owners queues queues' :=
  Finset.mem_union_right _ (List.mem_toFinset.mpr (ExtTreeMap.mem_keys.mpr h))

/-- Queues that only get shorter hold less together. -/
theorem total_le_total
    (h : ∀ owner, (queueOf queues' owner).length ≤ (queueOf queues owner).length) :
    total queues' ≤ total queues := by
  rw [total_eq_sum (owners queues queues') fun _ ↦ mem_owners_left,
    total_eq_sum (owners queues queues') fun _ ↦ mem_owners_right]
  exact Finset.sum_le_sum fun owner _ ↦ h owner

/-- They hold as much as before only if none has got shorter. -/
theorem total_eq_total_iff
    (h : ∀ owner, (queueOf queues' owner).length ≤ (queueOf queues owner).length) :
    total queues' = total queues ↔
      ∀ owner, (queueOf queues' owner).length = (queueOf queues owner).length := by
  rw [total_eq_sum (owners queues queues') fun _ ↦ mem_owners_left,
    total_eq_sum (owners queues queues') fun _ ↦ mem_owners_right,
    Finset.sum_eq_sum_iff_of_le fun owner _ ↦ h owner]
  refine ⟨fun hall owner ↦ ?_, fun hall owner _ ↦ hall owner⟩
  by_cases hmem : owner ∈ owners queues queues'
  · exact hall owner hmem
  · rw [queueOf_eq_nil fun howner ↦ hmem (mem_owners_left howner),
      queueOf_eq_nil fun howner ↦ hmem (mem_owners_right howner)]

/-- One queue is replaced. -/
theorem total_insert (queues : ExtTreeMap κ (List α)) (owner : κ) (queue : List α) :
    total (queues.insert owner queue) + (queueOf queues owner).length =
      total queues + queue.length := by
  have hmem : ∀ other ∈ queues.insert owner queue, other ∈ insert owner queues.keys.toFinset := by
    intro other hother
    rcases ExtTreeMap.mem_insert.mp hother with hself | hold
    · rw [Std.compare_eq_iff_eq.mp hself]
      exact Finset.mem_insert_self ..
    · exact Finset.mem_insert_of_mem (List.mem_toFinset.mpr (ExtTreeMap.mem_keys.mpr hold))
  have hmem' : ∀ other ∈ queues, other ∈ insert owner queues.keys.toFinset := fun other hother ↦
    Finset.mem_insert_of_mem (List.mem_toFinset.mpr (ExtTreeMap.mem_keys.mpr hother))
  rw [total_eq_sum _ hmem, total_eq_sum _ hmem',
    ← Finset.add_sum_erase _ _ (Finset.mem_insert_self owner queues.keys.toFinset),
    ← Finset.add_sum_erase _ (fun other ↦ (queueOf queues other).length)
      (Finset.mem_insert_self owner queues.keys.toFinset), queueOf_insert_self]
  have hrest : ∑ other ∈ (insert owner queues.keys.toFinset).erase owner,
      (queueOf (queues.insert owner queue) other).length =
        ∑ other ∈ (insert owner queues.keys.toFinset).erase owner,
          (queueOf queues other).length := by
    refine Finset.sum_congr rfl fun other hother ↦ ?_
    rw [queueOf_insert_of_ne queue (Finset.ne_of_mem_erase hother).symm]
  rw [hrest]
  omega

end Queueing

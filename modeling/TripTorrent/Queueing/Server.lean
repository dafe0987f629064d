import Mathlib.Algebra.BigOperators.Intervals
import Mathlib.Algebra.Order.Monoid.Unbundled.MinMax
import Mathlib.Data.Finset.Lattice.Fold
import Mathlib.Order.Interval.Finset.Nat

/-!
# A server with one queue

Jobs are served one at a time, in the order in which they are numbered. A job starts once it has
arrived and the one before it is done. Arrivals need not be in order: a job that arrived before its
predecessor still waits for it.

Unfolding the recursion, a start is the latest of the times the jobs up to it would force: job `i`
and those after it cannot be done before its arrival and their work have passed.
-/

namespace Queueing

variable {α : Type*} [AddCommMonoid α] {arrival service : ℕ → α} {i j : ℕ}

/-- When job `j` can start at the earliest because of job `i`. -/
def forced (arrival service : ℕ → α) (i j : ℕ) : α :=
  arrival i + ∑ k ∈ Finset.Ico i j, service k

@[simp] theorem forced_self (arrival service : ℕ → α) (j : ℕ) :
    forced arrival service j j = arrival j := by
  rw [forced, Finset.Ico_self, Finset.sum_empty, add_zero]

theorem forced_succ (h : i ≤ j) :
    forced arrival service i (j + 1) = forced arrival service i j + service j := by
  rw [forced, forced, Finset.sum_Ico_succ_top h, add_assoc]

variable [LinearOrder α]

/-- When job `j` starts, given when each job arrives and how long it is served. -/
def start (arrival service : ℕ → α) : ℕ → α
  | 0 => arrival 0
  | j + 1 => max (start arrival service j + service j) (arrival (j + 1))

theorem arrival_le_start (arrival service : ℕ → α) (j : ℕ) :
    arrival j ≤ start arrival service j := by
  cases j with
  | zero => exact le_rfl
  | succ j => exact le_max_right _ _

/-- No job starts later than some job up to it forces. -/
theorem exists_start_eq_forced (arrival service : ℕ → α) (j : ℕ) :
    ∃ i ≤ j, start arrival service j = forced arrival service i j := by
  induction j with
  | zero => exact ⟨0, le_rfl, (forced_self arrival service 0).symm⟩
  | succ j ih =>
    rcases max_choice (start arrival service j + service j) (arrival (j + 1)) with hbusy | hidle
    · obtain ⟨i, hi, hstart⟩ := ih
      exact ⟨i, hi.trans j.le_succ, by rw [start, hbusy, hstart, forced_succ hi]⟩
    · exact ⟨j + 1, le_rfl, by rw [start, hidle, forced_self]⟩

variable [IsOrderedAddMonoid α]

/-- The work between two starts has passed between them. -/
theorem start_add_sum_le_start (h : i ≤ j) :
    start arrival service i + ∑ k ∈ Finset.Ico i j, service k ≤ start arrival service j := by
  induction j, h using Nat.le_induction with
  | base => rw [Finset.Ico_self, Finset.sum_empty, add_zero]
  | succ j h ih =>
    calc start arrival service i + ∑ k ∈ Finset.Ico i (j + 1), service k
        = start arrival service i + ∑ k ∈ Finset.Ico i j, service k + service j := by
          rw [Finset.sum_Ico_succ_top h, add_assoc]
      _ ≤ start arrival service j + service j := by gcongr
      _ ≤ start arrival service (j + 1) := le_max_left _ _

theorem forced_le_start (h : i ≤ j) :
    forced arrival service i j ≤ start arrival service j :=
  (add_le_add_left (arrival_le_start arrival service i) _).trans (start_add_sum_le_start h)

/-- **The start of a job.** It is the latest time that a job up to it forces. -/
theorem start_eq_sup' (arrival service : ℕ → α) (j : ℕ) :
    start arrival service j =
      (Finset.range (j + 1)).sup' Finset.nonempty_range_add_one
        fun i ↦ forced arrival service i j := by
  apply le_antisymm
  · obtain ⟨i, hi, hstart⟩ := exists_start_eq_forced arrival service j
    rw [hstart]
    exact Finset.le_sup' (fun i ↦ forced arrival service i j)
      (Finset.mem_range.mpr (Nat.lt_succ_of_le hi))
  · refine Finset.sup'_le _ _ fun i hi ↦ ?_
    exact forced_le_start (Nat.lt_succ_iff.mp (Finset.mem_range.mp hi))

end Queueing

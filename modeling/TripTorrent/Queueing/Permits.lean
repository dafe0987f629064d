import TripTorrent.Transition.Inevitable

/-!
# Permits

A counter is raised when a thread is admitted and lowered when it is done. What makes this a limit is
that the counter tells how many threads hold a permit at each moment (`Counted`), between any two
steps of any threads. It does if a thread that takes a permit is admitted by `tryAcquire`, and one
that gives it back held it; the counter is then positive, so that lowering it cannot wrap around.
-/

namespace Queueing

variable {α : Type} {holds : α → Bool} {limit counter next i : ℕ} {threads : List α} {a b : α}

/-- The next value of a counter that is below its limit. -/
def tryAcquire (counter limit : ℕ) : Option ℕ :=
  if counter < limit then some (counter + 1) else none

theorem tryAcquire_eq_some_iff :
    tryAcquire counter limit = some next ↔ counter < limit ∧ next = counter + 1 := by
  rw [tryAcquire]
  split_ifs with h
  · simp [h, eq_comm]
  · simp [h]

/-- The counter is the number of threads that hold a permit, and within the limit. -/
structure Counted (holds : α → Bool) (limit : ℕ) (threads : List α) (counter : ℕ) : Prop where
  count_eq : threads.countP holds = counter
  le_limit : counter ≤ limit

namespace Counted

theorem nil (holds : α → Bool) (limit : ℕ) : Counted holds limit [] 0 := ⟨rfl, Nat.zero_le _⟩

/-- A thread that holds a permit as before. -/
theorem set_of_eq (h : Counted holds limit threads counter) (hi : threads[i]? = some a)
    (hsame : holds b = holds a) : Counted holds limit (threads.set i b) counter := by
  have hcount := Transition.countP_set (b := b) holds hi
  rw [hsame, Nat.add_right_cancel_iff] at hcount
  exact ⟨hcount.trans h.count_eq, h.le_limit⟩

/-- A thread that is admitted. -/
theorem acquire (h : Counted holds limit threads counter) (hi : threads[i]? = some a)
    (ha : holds a = false) (hb : holds b = true) (hnext : tryAcquire counter limit = some next) :
    Counted holds limit (threads.set i b) next := by
  obtain ⟨hlt, rfl⟩ := tryAcquire_eq_some_iff.mp hnext
  have hcount := Transition.countP_set (b := b) holds hi
  rw [ha, hb, h.count_eq] at hcount
  exact ⟨hcount, hlt⟩

/-- A thread that gives its permit back. -/
theorem release (h : Counted holds limit threads counter) (hi : threads[i]? = some a)
    (ha : holds a = true) (hb : holds b = false) :
    0 < counter ∧ Counted holds limit (threads.set i b) (counter - 1) := by
  have hcount := Transition.countP_set (b := b) holds hi
  rw [ha, hb, h.count_eq, if_pos rfl, if_neg Bool.false_ne_true] at hcount
  have hle := h.le_limit
  exact ⟨by omega, by omega, by omega⟩

/-- A thread that is started with a permit. -/
theorem spawn (h : Counted holds limit threads counter) (hb : holds b = true)
    (hnext : tryAcquire counter limit = some next) :
    Counted holds limit (threads ++ [b]) next := by
  obtain ⟨hlt, rfl⟩ := tryAcquire_eq_some_iff.mp hnext
  refine ⟨?_, hlt⟩
  rw [List.countP_append, h.count_eq, List.countP_singleton, if_pos hb]

/-- A thread that is started without one. -/
theorem spawn_idle (h : Counted holds limit threads counter) (hb : holds b = false) :
    Counted holds limit (threads ++ [b]) counter := by
  refine ⟨?_, h.le_limit⟩
  rw [List.countP_append, h.count_eq, List.countP_singleton, hb]
  rfl

/-- When no thread holds a permit, all of them are there again. -/
theorem eq_zero (h : Counted holds limit threads counter) (hidle : ∀ a ∈ threads, holds a = false) :
    counter = 0 := by
  rw [← h.count_eq, List.countP_eq_zero]
  intro a ha
  rw [hidle a ha]
  exact Bool.false_ne_true

end Counted

end Queueing

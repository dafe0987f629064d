import Mathlib.Data.List.Basic
import TripTorrent.Transition.Inevitable

/-!
# Pools of threads

A pool is a list of threads; a step takes one of them to its next state and may start another, which
is put at the end. So a thread keeps its number, and a pool after a step is `l.set i b ++ new`.

Threads hold claims, on whatever the program hands out to one thread at a time. `Exclusive` says
that no claim is held twice. It is kept by steps after which the thread and the one it has started
hold, separately, claims that the thread held before or that nobody did.
-/

namespace Transition

variable {α κ : Type} {claims : α → List κ} {l : List α} {i : ℕ} {a b : α} {new : Option α}

/-- After a step a thread is the one that moved, one that did not, or the one that was started. -/
theorem thread_cases {j : ℕ} {c : α} (h : (l.set i b ++ new.toList)[j]? = some c) :
    i = j ∧ c = b ∨ i ≠ j ∧ l[j]? = some c ∨ j = l.length ∧ new = some c := by
  rw [List.getElem?_append] at h
  split_ifs at h with hj
  · rcases replaced_or_unchanged h with h | h
    · exact .inl h
    · exact .inr (.inl h)
  · rw [List.length_set] at hj h
    rcases new with _ | d
    · cases h
    · rw [Option.toList_some, List.getElem?_singleton] at h
      split_ifs at h with hzero
      exact .inr (.inr ⟨by omega, h⟩)

theorem mem_threads_cases {c : α} (h : c ∈ l.set i b ++ new.toList) :
    c = b ∨ c ∈ l ∨ new = some c := by
  obtain ⟨j, hj⟩ := List.mem_iff_getElem?.mp h
  rcases thread_cases hj with ⟨-, hc⟩ | ⟨-, hc⟩ | ⟨-, hc⟩
  · exact .inl hc
  · exact .inr (.inl (List.mem_iff_getElem?.mpr ⟨j, hc⟩))
  · exact .inr (.inr hc)

theorem getElem?_advance_self (h : l[i]? = some a) :
    (l.set i b ++ new.toList)[i]? = some b := by
  have hi := (List.getElem?_eq_some_iff.mp h).1
  rw [List.getElem?_append_left (by rwa [List.length_set]), List.getElem?_set_self hi]

theorem getElem?_advance_of_ne {j : ℕ} {c : α} (hne : i ≠ j) (h : l[j]? = some c) :
    (l.set i b ++ new.toList)[j]? = some c := by
  have hj := (List.getElem?_eq_some_iff.mp h).1
  rw [List.getElem?_append_left (by rwa [List.length_set]), List.getElem?_set_ne hne, h]

/-- A thread with a property is the one that is about to move or another one. -/
theorem exists_thread_iff {P : α → Prop} (hi : l[i]? = some a) :
    (∃ c ∈ l, P c) ↔ P a ∨ ∃ (j : ℕ) (c : α), i ≠ j ∧ l[j]? = some c ∧ P c := by
  constructor
  · rintro ⟨c, hc, hP⟩
    obtain ⟨j, hj⟩ := List.mem_iff_getElem?.mp hc
    by_cases hij : i = j
    · subst hij
      obtain rfl := Option.some.inj (hi.symm.trans hj)
      exact .inl hP
    · exact .inr ⟨j, c, hij, hj, hP⟩
  · rintro (hP | ⟨j, c, -, hj, hP⟩)
    · exact ⟨a, List.mem_iff_getElem?.mpr ⟨i, hi⟩, hP⟩
    · exact ⟨c, List.mem_iff_getElem?.mpr ⟨j, hj⟩, hP⟩

theorem exists_advance_iff {P : α → Prop} (hi : l[i]? = some a) :
    (∃ c ∈ l.set i b ++ new.toList, P c) ↔
      P b ∨ (∃ (j : ℕ) (c : α), i ≠ j ∧ l[j]? = some c ∧ P c) ∨ ∃ c, new = some c ∧ P c := by
  constructor
  · rintro ⟨c, hc, hP⟩
    obtain ⟨j, hj⟩ := List.mem_iff_getElem?.mp hc
    rcases thread_cases hj with ⟨-, rfl⟩ | ⟨hij, hj⟩ | ⟨-, hnew⟩
    · exact .inl hP
    · exact .inr (.inl ⟨j, c, hij, hj, hP⟩)
    · exact .inr (.inr ⟨c, hnew, hP⟩)
  · rintro (hP | ⟨j, c, hij, hj, hP⟩ | ⟨c, rfl, hP⟩)
    · exact ⟨b, List.mem_iff_getElem?.mpr ⟨i, getElem?_advance_self hi⟩, hP⟩
    · exact ⟨c, List.mem_iff_getElem?.mpr ⟨j, getElem?_advance_of_ne hij hj⟩, hP⟩
    · exact ⟨c, List.mem_append_right _ List.mem_cons_self, hP⟩

/-- No two threads hold the same claim. -/
def Exclusive (claims : α → List κ) (l : List α) : Prop :=
  ∀ (i j : ℕ) (a b : α) (k : κ), l[i]? = some a → l[j]? = some b → k ∈ claims a → k ∈ claims b →
    i = j

/-- No thread holds the claim. -/
def Unclaimed (claims : α → List κ) (l : List α) (k : κ) : Prop := ∀ a ∈ l, k ∉ claims a

theorem Unclaimed.not_mem {j : ℕ} {k : κ} (h : Unclaimed claims l k) (hj : l[j]? = some a) :
    k ∉ claims a :=
  h a (List.mem_iff_getElem?.mpr ⟨j, hj⟩)

namespace Exclusive

theorem nil : Exclusive claims [] := fun i j a b k hi ↦ by cases hi

/-- What the thread that moves may hold afterwards is held by no other. -/
theorem eq_of_mem {j : ℕ} {c : α} {k : κ} (h : Exclusive claims l) (hi : l[i]? = some a)
    (hk : k ∈ claims a ∨ Unclaimed claims l k) (hj : l[j]? = some c) (hc : k ∈ claims c) : i = j :=
  hk.elim (fun ha ↦ h i j a c k hi hj ha hc) fun hfree ↦ absurd hc (hfree.not_mem hj)

theorem advance (h : Exclusive claims l) (hi : l[i]? = some a)
    (hb : ∀ k ∈ claims b, k ∈ claims a ∨ Unclaimed claims l k)
    (hnew : ∀ c, new = some c → ∀ k ∈ claims c,
      (k ∈ claims a ∨ Unclaimed claims l k) ∧ k ∉ claims b) :
    Exclusive claims (l.set i b ++ new.toList) := by
  intro j j' c c' k hj hj' hc hc'
  rcases thread_cases hj with ⟨rfl, rfl⟩ | ⟨hne, hold⟩ | ⟨rfl, hc_new⟩ <;>
    rcases thread_cases hj' with ⟨rfl, rfl⟩ | ⟨hne', hold'⟩ | ⟨rfl, hc_new'⟩
  · rfl
  · exact h.eq_of_mem hi (hb k hc) hold' hc'
  · exact absurd hc (hnew c' hc_new' k hc').2
  · exact (h.eq_of_mem hi (hb k hc') hold hc).symm
  · exact h j j' c c' k hold hold' hc hc'
  · exact absurd (h.eq_of_mem hi (hnew c' hc_new' k hc').1 hold hc) hne
  · exact absurd hc' (hnew c hc_new k hc).2
  · exact absurd (h.eq_of_mem hi (hnew c hc_new k hc).1 hold' hc') hne'
  · rfl

/-- A new thread without claims. -/
theorem concat (h : Exclusive claims l) (hb : claims b = []) : Exclusive claims (l ++ [b]) := by
  have hold {j : ℕ} {c : α} {k : κ} (hj : (l ++ [b])[j]? = some c) (hk : k ∈ claims c) :
      l[j]? = some c := by
    rw [List.getElem?_append] at hj
    split_ifs at hj
    · exact hj
    · rw [List.getElem?_singleton] at hj
      split_ifs at hj
      obtain rfl := Option.some.inj hj
      rw [hb] at hk
      cases hk
  exact fun i j c c' k hi hj hc hc' ↦ h i j c c' k (hold hi hc) (hold hj hc') hc hc'

end Exclusive

end Transition

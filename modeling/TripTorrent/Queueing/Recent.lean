import Mathlib.Data.List.DropRight
import Mathlib.Data.List.Nodup

/-!
# The most recent entries of a history

A queue that is cut back to its last `n` entries after each new one holds the last `n` entries of
its whole history, `List.rtake`. If moreover an entry is never made while it is still in the queue,
then `n` pairwise different other entries lie between any two occurrences of one entry.
-/

namespace Queueing

variable {α : Type*} {n : ℕ} {l m p s : List α} {a : α}

/-- Remove entries from the front until at most `n` are left. -/
def trim (n : ℕ) : List α → List α
  | [] => []
  | a :: l => if n < (a :: l).length then trim n l else a :: l

theorem rtake_eq_self (h : l.length ≤ n) : l.rtake n = l := by
  rw [List.rtake, Nat.sub_eq_zero_of_le h, List.drop_zero]

theorem rtake_append_of_le (h : n ≤ m.length) : (l ++ m).rtake n = m.rtake n := by
  rw [List.rtake, List.rtake, List.length_append, Nat.add_sub_assoc h, List.drop_append]
  simp

theorem rtake_suffix : l.rtake n <:+ l := List.drop_suffix _ _

theorem length_rtake (h : n ≤ l.length) : (l.rtake n).length = n := by
  rw [List.rtake, List.length_drop]
  omega

theorem trim_eq_rtake : trim n l = l.rtake n := by
  induction l with
  | nil => rw [trim, List.rtake_nil]
  | cons a l ih =>
    rw [trim]
    split_ifs with h
    · rw [ih, ← List.singleton_append, rtake_append_of_le (Nat.lt_succ_iff.mp h)]
    · rw [rtake_eq_self (not_lt.mp h)]

/-- Cutting back before a new entry makes no difference to cutting back after it. -/
theorem rtake_rtake_append (l m : List α) : (l.rtake n ++ m).rtake n = (l ++ m).rtake n := by
  rcases le_total l.length n with h | h
  · rw [rtake_eq_self h]
  · obtain ⟨p, hp⟩ : l.rtake n <:+ l := rtake_suffix
    conv_rhs => rw [← hp, List.append_assoc]
    refine (rtake_append_of_le ?_).symm
    rw [List.length_append, length_rtake h]
    exact Nat.le_add_right n _

/-- No entry was made while it was among the last `n` of the history before it. -/
def Spaced (n : ℕ) (l : List α) : Prop := ∀ p a s, l = p ++ a :: s → a ∉ p.rtake n

theorem spaced_nil : Spaced n ([] : List α) := by
  intro p a s h
  simp at h

theorem Spaced.left (h : Spaced n (p ++ s)) : Spaced n p := by
  intro p' a s' hp
  refine h p' a (s' ++ s) ?_
  rw [hp, List.append_assoc, List.cons_append]

theorem Spaced.concat (h : Spaced n l) (ha : a ∉ l.rtake n) : Spaced n (l ++ [a]) := by
  intro p b s hsplit
  rcases List.eq_nil_or_concat s with rfl | ⟨s, c, rfl⟩
  · obtain ⟨rfl, hb⟩ := List.append_inj' hsplit rfl
    obtain rfl : a = b := by simpa using hb
    exact ha
  · rw [List.concat_eq_append, ← List.cons_append, ← List.append_assoc] at hsplit
    exact h p b s (List.append_inj' hsplit rfl).1

/-- The last `n` entries are pairwise different. -/
theorem Spaced.nodup_rtake (h : Spaced n l) : (l.rtake n).Nodup := by
  induction l using List.reverseRecOn with
  | nil => rw [List.rtake_nil]; exact List.nodup_nil
  | append_singleton l a ih =>
    rcases n with _ | n
    · rw [List.rtake_zero]
      exact List.nodup_nil
    · have ha : a ∉ l.rtake (n + 1) := h l a [] rfl
      have hshorter : l.rtake n <:+ l.rtake (n + 1) :=
        List.drop_suffix_drop_left _ (by omega)
      rw [List.rtake_concat_succ]
      refine List.Nodup.append ((ih h.left).sublist hshorter.sublist) (List.nodup_singleton a) ?_
      exact List.disjoint_singleton.mpr fun hmem ↦ ha (hshorter.subset hmem)

/-- Between two occurrences of one entry there are `n` others, pairwise different. -/
theorem Spaced.exists_between (h : Spaced n (p ++ a :: m ++ a :: s)) :
    ∃ w, w <:+ m ∧ w.length = n ∧ w.Nodup ∧ a ∉ w := by
  have ha : a ∉ (p ++ a :: m).rtake n := h (p ++ a :: m) a s rfl
  have hm : n ≤ m.length := by
    by_contra hlt
    -- otherwise the first occurrence is among the last `n` when the second one is made
    have hsuffix : a :: m <:+ (p ++ a :: m).rtake n := by
      refine List.suffix_of_suffix_length_le (List.suffix_append p _) rtake_suffix ?_
      rw [List.rtake, List.length_drop, List.length_append, List.length_cons]
      omega
    exact ha (hsuffix.subset List.mem_cons_self)
  have hw : (p ++ a :: m).rtake n = m.rtake n := by
    rw [List.append_cons, rtake_append_of_le hm]
  refine ⟨m.rtake n, rtake_suffix, length_rtake hm, ?_, hw ▸ ha⟩
  exact hw ▸ h.left.nodup_rtake

end Queueing

import Mathlib.Algebra.Divisibility.Basic
import Mathlib.Algebra.Ring.Nat
import Mathlib.Data.List.Basic

/-!
# Roots of perfect binary trees

The leaves of a perfect binary tree are a list whose length is a power of two. Its root can be
computed from above, by cutting the leaves into halves, or from below, by combining neighbours until
one element is left. The first is the definition (`root`), which says nothing about lists of other
lengths; the second (`reduce`) is how it is computed.

The two cut the leaves differently, so that they meet only at the end: one step from below is the
same as one level less from above (`root_pairUp`).
-/

namespace Merkle

variable {α : Type*} (combine : α → α → α)

/-- One layer up: neighbours are combined, and an element left over is dropped. -/
def pairUp : List α → List α
  | left :: right :: layer => combine left right :: pairUp layer
  | [_] => []
  | [] => []

theorem length_pairUp (layer : List α) : (pairUp combine layer).length = layer.length / 2 := by
  induction layer using pairUp.induct with
  | case1 left right layer ih =>
    rw [pairUp, List.length_cons, ih, List.length_cons, List.length_cons]
    omega
  | case2 left => simp [pairUp]
  | case3 => simp [pairUp]

/-- Layer after layer, as long as there are neighbours. -/
def reduce (layer : List α) : List α :=
  if 1 < layer.length then reduce (pairUp combine layer) else layer
termination_by layer.length
decreasing_by
  rw [length_pairUp]
  omega

/-- The root of the tree with the given height and leaves, if there are as many as it has. -/
def root : ℕ → List α → Option α
  | 0, [leaf] => some leaf
  | 0, _ => none
  | height + 1, leaves => do
    let left ← root height (leaves.take (2 ^ height))
    let right ← root height (leaves.drop (2 ^ height))
    some (combine left right)

variable {combine} {height : ℕ} {leaves : List α}

theorem pairUp_append {left : List α} (h : 2 ∣ left.length) (right : List α) :
    pairUp combine (left ++ right) = pairUp combine left ++ pairUp combine right := by
  induction left using pairUp.induct with
  | case1 a b left ih =>
    rw [List.length_cons, List.length_cons, Nat.dvd_add_left (dvd_refl 2)] at h
    rw [List.cons_append, List.cons_append, pairUp, pairUp, ih h, List.cons_append]
  | case2 a => exact absurd h (by simp)
  | case3 => simp [pairUp]

/-- Combining neighbours takes one level off the tree. -/
theorem root_pairUp (h : leaves.length = 2 ^ (height + 1)) :
    root combine height (pairUp combine leaves) = root combine (height + 1) leaves := by
  induction height generalizing leaves with
  | zero =>
    obtain ⟨left, right, rfl⟩ := List.length_eq_two.mp h
    rfl
  | succ height ih =>
    have hleft : (leaves.take (2 ^ (height + 1))).length = 2 ^ (height + 1) := by
      rw [List.length_take, h, pow_succ 2 (height + 1)]
      omega
    have hright : (leaves.drop (2 ^ (height + 1))).length = 2 ^ (height + 1) := by
      rw [List.length_drop, h, pow_succ 2 (height + 1)]
      omega
    -- The middle lies between two pairs, so halving and pairing can be exchanged.
    have heven : 2 ∣ (leaves.take (2 ^ (height + 1))).length := by
      rw [hleft]
      exact dvd_pow_self 2 height.succ_ne_zero
    have hhalves : pairUp combine leaves = pairUp combine (leaves.take (2 ^ (height + 1))) ++
        pairUp combine (leaves.drop (2 ^ (height + 1))) := by
      rw [← pairUp_append heven, List.take_append_drop]
    have hlength : (pairUp combine (leaves.take (2 ^ (height + 1)))).length = 2 ^ height := by
      rw [length_pairUp, hleft, pow_succ, Nat.mul_div_cancel _ Nat.two_pos]
    rw [root, hhalves, ← hlength, List.take_left, List.drop_left, ih hleft, ih hright]
    rfl

/-- From below the root is reached as the only element left. -/
theorem reduce_eq (h : leaves.length = 2 ^ height) :
    ∃ hash, root combine height leaves = some hash ∧ reduce combine leaves = [hash] := by
  induction height generalizing leaves with
  | zero =>
    obtain ⟨leaf, rfl⟩ := List.length_eq_one_iff.mp h
    refine ⟨leaf, rfl, ?_⟩
    rw [reduce, if_neg (by simp)]
  | succ height ih =>
    have hlength : (pairUp combine leaves).length = 2 ^ height := by
      rw [length_pairUp, h, pow_succ, Nat.mul_div_cancel _ Nat.two_pos]
    obtain ⟨hash, hroot, hreduce⟩ := ih hlength
    refine ⟨hash, (root_pairUp h).symm.trans hroot, ?_⟩
    rw [reduce, if_pos (h ▸ Nat.one_lt_two_pow height.succ_ne_zero), hreduce]

end Merkle

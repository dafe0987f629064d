import Mathlib.Data.Nat.Bitwise

/-!
# Distance by exclusive or

Seen from a point, another one is of the order `k` if their distance is between `2 ^ k` and
`2 ^ (k + 1)`. Two points of one order are nearer to each other than either is to the point they are
seen from (`xor_lt_two_pow_of_order`). Seen from the point nearest to a target, a smaller order means
nearer to the target (`xor_lt_xor_of_order`), though a target need not be one of the points.
-/

namespace Selection

variable {a b c t target k : ℕ}

/-- Nearer than `2 ^ k` means the same from the bit `k` on. -/
theorem xor_lt_two_pow_iff : a ^^^ b < 2 ^ k ↔ a >>> k = b >>> k := by
  rw [← Nat.xor_eq_zero_iff, ← Nat.shiftRight_xor_distrib, Nat.shiftRight_eq_div_pow,
    Nat.div_eq_zero_iff]
  simp

/-- Two points of the same order, seen from `c`. -/
theorem xor_lt_two_pow_of_order (ha : 2 ^ k ≤ a ^^^ c) (ha' : a ^^^ c < 2 ^ (k + 1))
    (hb : 2 ^ k ≤ b ^^^ c) (hb' : b ^^^ c < 2 ^ (k + 1)) : a ^^^ b < 2 ^ k := by
  have htop {x : ℕ} (hx : 2 ^ k ≤ x ^^^ c) (hx' : x ^^^ c < 2 ^ (k + 1)) :
      x >>> k ^^^ c >>> k = 1 := by
    rw [← Nat.shiftRight_xor_distrib, Nat.shiftRight_eq_div_pow]
    rw [Nat.pow_succ] at hx'
    exact Nat.div_eq_of_lt_le (by omega) (by omega)
  rw [xor_lt_two_pow_iff]
  exact Nat.xor_left_injective ((htop ha ha').trans (htop hb hb').symm)

/-- A point of a smaller order, seen from the one nearest to the target, is nearer to it. -/
theorem xor_lt_xor_of_order (hnearest : t ^^^ target ≤ c ^^^ target) (hc : 2 ^ k ≤ c ^^^ t)
    (ha : a ^^^ t < 2 ^ k) : a ^^^ target < c ^^^ target := by
  have hne : (c ^^^ target) >>> k ≠ (t ^^^ target) >>> k := by
    rw [Nat.shiftRight_xor_distrib, Nat.shiftRight_xor_distrib]
    intro heq
    exact absurd (xor_lt_two_pow_iff.mpr (Nat.xor_left_injective heq)) (not_lt.mpr hc)
  have hle : (t ^^^ target) >>> k ≤ (c ^^^ target) >>> k := by
    rw [Nat.shiftRight_eq_div_pow, Nat.shiftRight_eq_div_pow]
    exact Nat.div_le_div_right hnearest
  have hsame : (a ^^^ target) >>> k = (t ^^^ target) >>> k := by
    rw [Nat.shiftRight_xor_distrib, Nat.shiftRight_xor_distrib, xor_lt_two_pow_iff.mp ha]
  have hlt : (a ^^^ target) >>> k < (c ^^^ target) >>> k := by
    rw [hsame]
    exact lt_of_le_of_ne hle hne.symm
  rw [Nat.shiftRight_eq_div_pow, Nat.shiftRight_eq_div_pow] at hlt
  exact Nat.lt_of_div_lt_div hlt

end Selection

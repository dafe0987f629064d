import Mathlib.Algebra.Group.Nat.Even
import Mathlib.Data.List.Basic
import Mathlib.Data.Nat.Notation

/-!
# Variable-length numbers

Seven bits to a byte, least significant first, with the high bit set on all bytes but the last. The
number of bytes is bounded in advance, so both directions are by recursion on the bound.
-/

namespace Codec

/-- A number below `128 ^ k` in at most `k` bytes. -/
def varint : ℕ → ℕ → List UInt8
  | 0, _ => []
  | k + 1, n => if n < 128 then [.ofNat n] else .ofNat (n % 128 + 128) :: varint k (n / 128)

/-- Read a number of at most `k` bytes, and what follows it. -/
def unvarint : ℕ → List UInt8 → Option (ℕ × List UInt8)
  | 0, _ => none
  | _ + 1, [] => none
  | k + 1, byte :: bytes =>
    if byte.toNat < 128 then some (byte.toNat, bytes)
    else
      match unvarint k bytes with
      | none => none
      | some (high, rest) => some (byte.toNat - 128 + 128 * high, rest)

theorem unvarint_varint {k n : ℕ} (h : n < 128 ^ (k + 1)) (rest : List UInt8) :
    unvarint (k + 1) (varint (k + 1) n ++ rest) = some (n, rest) := by
  induction k generalizing n with
  | zero =>
    have hn : n < 128 := by rwa [Nat.pow_one] at h
    have hbyte : (UInt8.ofNat n).toNat = n := UInt8.toNat_ofNat_of_lt (show n < 256 by omega)
    rw [varint, if_pos hn, List.singleton_append, unvarint, hbyte, if_pos hn]
  | succ k ih =>
    rw [varint]
    split_ifs with hn
    · have hbyte : (UInt8.ofNat n).toNat = n := UInt8.toNat_ofNat_of_lt (show n < 256 by omega)
      rw [List.singleton_append, unvarint, hbyte, if_pos hn]
    · have hbyte : (UInt8.ofNat (n % 128 + 128)).toNat = n % 128 + 128 :=
        UInt8.toNat_ofNat_of_lt (show n % 128 + 128 < 256 by omega)
      have hhigh : n / 128 < 128 ^ (k + 1) := by
        rw [Nat.div_lt_iff_lt_mul (by decide), ← Nat.pow_succ]
        exact h
      rw [List.cons_append, unvarint, hbyte, if_neg (by omega), ih hhigh]
      simp only [Option.some.injEq, Prod.mk.injEq, and_true]
      omega

end Codec

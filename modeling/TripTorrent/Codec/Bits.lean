import Mathlib.Algebra.Order.Floor.Div
import Mathlib.Data.List.GetD
import Mathlib.Data.Nat.Bits

/-!
# Packed bits

A byte string read as a sequence of bits, the least significant bit of each byte first. Machine
code tests and sets a bit by masks within one byte; `bit` gives it a position in the whole string,
and a string is determined by its length and its bits.
-/

namespace Codec

/-! ## One byte -/

section Byte

variable {b k : UInt8}

theorem getLsbD_one_shiftLeft (hk : k.toNat < 8) (i : ℕ) :
    ((1 : UInt8) <<< k).toBitVec.getLsbD i = decide (i = k.toNat) := by
  rw [UInt8.toBitVec_shiftLeft, BitVec.shiftLeft_eq', BitVec.getLsbD_shiftLeft]
  have hmod : (k.toBitVec % 8).toNat = k.toNat := by
    rw [BitVec.toNat_umod]
    exact Nat.mod_eq_of_lt hk
  rw [hmod, UInt8.toBitVec_one, BitVec.getLsbD_one]
  rw [Bool.eq_iff_iff]
  simp only [Bool.and_eq_true, Bool.not_eq_true', decide_eq_true_eq, decide_eq_false_iff_not]
  omega

theorem toNat_one_shiftLeft (hk : k.toNat < 8) : ((1 : UInt8) <<< k).toNat = 2 ^ k.toNat := by
  refine Nat.eq_of_testBit_eq fun i ↦ ?_
  rw [Nat.testBit_two_pow]
  simp only [eq_comm (a := k.toNat)]
  exact getLsbD_one_shiftLeft hk i

/-- The mask of the low bits of a byte. -/
theorem getLsbD_mask (hk : k.toNat < 8) (i : ℕ) :
    (((1 : UInt8) <<< k) - 1).toBitVec.getLsbD i = decide (i < k.toNat) := by
  have hpos : (1 : UInt8) ≤ 1 <<< k := by
    rw [UInt8.le_iff_toNat_le, toNat_one_shiftLeft hk]
    exact Nat.one_le_two_pow
  have hmask : (((1 : UInt8) <<< k) - 1).toNat = 2 ^ k.toNat - 1 := by
    rw [UInt8.toNat_sub_of_le _ _ hpos, toNat_one_shiftLeft hk]
    rfl
  rw [← Nat.testBit_two_pow_sub_one, ← hmask]
  rfl

/-- Testing a bit by a mask. -/
theorem and_shiftLeft_bne_zero (hk : k.toNat < 8) :
    (b &&& 1 <<< k != 0) = b.toBitVec.getLsbD k.toNat := by
  rw [Bool.eq_iff_iff, bne_iff_ne]
  constructor
  · intro hne
    by_contra hbit
    refine hne (UInt8.toBitVec_inj.mp (BitVec.eq_of_getLsbD_eq fun i _ ↦ ?_))
    rw [UInt8.toBitVec_and, BitVec.getLsbD_and, getLsbD_one_shiftLeft hk]
    by_cases hi : i = k.toNat
    · rw [hi, Bool.eq_false_iff.mpr hbit, Bool.false_and]
      simp
    · simp [hi]
  · intro hbit hzero
    have hkept := congrArg (fun x : UInt8 ↦ x.toBitVec.getLsbD k.toNat) hzero
    simp only [UInt8.toBitVec_and, BitVec.getLsbD_and, getLsbD_one_shiftLeft hk, hbit] at hkept
    simp at hkept

/-- A byte has no bit above `k` just when the mask of those bits leaves nothing of it. -/
theorem and_not_mask_eq_zero_iff (hk : k.toNat < 8) :
    b &&& ~~~(1 <<< k - 1) = 0 ↔ ∀ i, k.toNat ≤ i → b.toBitVec.getLsbD i = false := by
  constructor
  · intro hzero i hi
    by_cases hwide : 8 ≤ i
    · exact BitVec.getLsbD_of_ge _ _ hwide
    · have hkept := congrArg (fun x : UInt8 ↦ x.toBitVec.getLsbD i) hzero
      simp only [UInt8.toBitVec_and, UInt8.toBitVec_not, BitVec.getLsbD_and, BitVec.getLsbD_not,
        getLsbD_mask hk, not_le.mp hwide, not_lt.mpr hi] at hkept
      simpa using hkept
  · intro hclear
    refine UInt8.toBitVec_inj.mp (BitVec.eq_of_getLsbD_eq fun i hi ↦ ?_)
    rw [UInt8.toBitVec_and, UInt8.toBitVec_not, BitVec.getLsbD_and, BitVec.getLsbD_not,
      getLsbD_mask hk]
    by_cases hlow : i < k.toNat
    · simp [hlow]
    · simp [hclear i (not_lt.mp hlow)]

end Byte

/-! ## Byte strings -/

/-- Bit `i` of a byte string; past its end no bit is set. -/
def bit (l : List UInt8) (i : ℕ) : Bool := (l.getD (i / 8) 0).toBitVec.getLsbD (i % 8)

variable {l l' : List UInt8} {n i j : ℕ}

theorem bit_of_length_le (h : 8 * l.length ≤ i) : bit l i = false := by
  rw [bit, List.getD_eq_default _ _ (by omega)]
  simp

theorem bit_replicate_zero (n i : ℕ) : bit (List.replicate n 0) i = false := by
  rw [bit, List.getD_eq_getElem?_getD, List.getElem?_getD_replicate_default_eq]
  simp

theorem bit_replicate_ones : bit (List.replicate n 0xff) i = decide (i < 8 * n) := by
  by_cases hi : i < 8 * n
  · rw [bit, List.getD_replicate _ (by omega)]
    have hbit : ∀ k < 8, (0xff : UInt8).toBitVec.getLsbD k = true := by decide
    rw [hbit _ (Nat.mod_lt _ (by decide)), decide_eq_true hi]
  · rw [bit_of_length_le (by rw [List.length_replicate]; omega), decide_eq_false hi]

/-- **Extensionality.** A byte string is its length and its bits. -/
theorem eq_of_bit_eq (hlength : l.length = l'.length) (h : ∀ i, bit l i = bit l' i) : l = l' := by
  refine List.ext_getElem hlength fun k hk hk' ↦ ?_
  refine UInt8.toBitVec_inj.mp (BitVec.eq_of_getLsbD_eq fun i hi ↦ ?_)
  have hbit := h (8 * k + i)
  rw [bit, bit, show (8 * k + i) / 8 = k by omega, show (8 * k + i) % 8 = i by omega,
    List.getD_eq_getElem _ _ hk, List.getD_eq_getElem _ _ hk'] at hbit
  exact hbit

/-- Replacing byte `j` affects its own eight bits only. -/
theorem bit_set (hj : j < l.length) (b : UInt8) :
    bit (l.set j b) i = if i / 8 = j then b.toBitVec.getLsbD (i % 8) else bit l i := by
  rw [bit, bit, List.getD_eq_getElem?_getD, List.getD_eq_getElem?_getD, List.getElem?_set]
  by_cases hi : j = i / 8
  · rw [if_pos hi, if_pos hj, if_pos hi.symm, Option.getD_some]
  · rw [if_neg hi, if_neg (Ne.symm hi)]

/-- Setting one bit by a mask. -/
theorem bit_set_or {k : UInt8} (hk : k.toNat < 8) (hj : j < l.length) :
    bit (l.set j (l.getD j 0 ||| 1 <<< k)) i = (decide (i = 8 * j + k.toNat) || bit l i) := by
  rw [bit_set hj]
  by_cases hi : i / 8 = j
  · rw [if_pos hi, UInt8.toBitVec_or, BitVec.getLsbD_or, getLsbD_one_shiftLeft hk, Bool.or_comm,
      bit, hi, decide_eq_decide.mpr (show i % 8 = k.toNat ↔ i = 8 * j + k.toNat by omega)]
  · rw [if_neg hi, decide_eq_false (by omega), Bool.false_or]

/-- No bit from `n` on is set, said of the bytes that hold `n` bits: when `n` ends inside the last
byte, that byte has no bit above. -/
theorem forall_bit_eq_false_iff (hlength : l.length = n ⌈/⌉ 8) (hn : n % 8 ≠ 0) {last : UInt8}
    (hlast : l.getLast? = some last) :
    (∀ i, n ≤ i → bit l i = false) ↔
      ∀ i, n % 8 ≤ i → last.toBitVec.getLsbD i = false := by
  rw [Nat.ceilDiv_eq_add_pred_div] at hlength
  have hbyte : l.getD (n / 8) 0 = last := by
    rw [List.getLast?_eq_getElem?, show l.length - 1 = n / 8 by omega] at hlast
    rw [List.getD_eq_getElem?_getD, hlast, Option.getD_some]
  constructor
  · intro h i hi
    by_cases hwide : 8 ≤ i
    · exact BitVec.getLsbD_of_ge _ _ hwide
    · have hbit := h (8 * (n / 8) + i) (by omega)
      rwa [bit, show (8 * (n / 8) + i) / 8 = n / 8 by omega,
        show (8 * (n / 8) + i) % 8 = i by omega, hbyte] at hbit
  · intro h i hi
    by_cases hend : 8 * l.length ≤ i
    · exact bit_of_length_le hend
    · rw [bit, show i / 8 = n / 8 by omega, hbyte]
      exact h _ (by omega)

end Codec

import TripTorrent.Codec.Bits
import TripTorrent.Protocol.Message

/-!
# Availability bitfields as sets

A `PieceAvailability` stands for a set of chunk indices. Validity is what makes the encoding
canonical: it fixes the number of bytes and clears every bit past the last chunk, so that the bits
left to choose are those `contains` can see.
-/

namespace TripTorrent

open Codec (bit)

namespace PieceAvailability

/-- One round of the loop of `from_indices`. -/
def setIndex (chunkCount : UInt32) (bits : List UInt8) (index : UInt32) : List UInt8 :=
  if index < chunkCount then
    bits.set (index / 8).toNat (bits.getD (index / 8).toNat 0 ||| 1 <<< (index % 8).toUInt8)
  else bits

/-- The chunks with the given indices are available; an index outside the manifest is skipped. -/
def fromIndices (chunkCount : UInt32) (indices : List UInt32) : PieceAvailability where
  chunkCount := chunkCount
  bits := indices.foldl (setIndex chunkCount) (List.replicate (chunkCount.toNat ⌈/⌉ 8) 0)

variable {a b : PieceAvailability} {n index : UInt32}

/-! ## Validity in bits -/

theorem toNat_mod_eight (n : UInt32) : (n % 8).toUInt8.toNat = n.toNat % 8 := by
  rw [UInt32.toNat_toUInt8, UInt32.toNat_mod]
  exact Nat.mod_eq_of_lt ((Nat.mod_lt _ (by decide)).trans (by decide))

theorem toNat_mod_eight_lt (n : UInt32) : (n % 8).toUInt8.toNat < 8 := by
  rw [toNat_mod_eight]
  exact Nat.mod_lt _ (by decide)

theorem mod_eight_eq_zero_iff : n % 8 = 0 ↔ n.toNat % 8 = 0 := by
  rw [← UInt32.toNat_inj, UInt32.toNat_mod]
  rfl

/-- A bitfield is valid when it has the bytes its chunks need and no bit past the last chunk. -/
theorem isValid_iff : a.isValid = true ↔
    a.bits.length = a.chunkCount.toNat ⌈/⌉ 8 ∧
      ∀ i, a.chunkCount.toNat ≤ i → bit a.bits i = false := by
  rw [isValid]
  by_cases hlength : a.bits.length = a.chunkCount.toNat ⌈/⌉ 8
  swap
  · simp [hlength]
  rw [if_neg (not_not.mpr hlength), and_iff_right hlength]
  have hbytes := hlength
  rw [Nat.ceilDiv_eq_add_pred_div] at hbytes
  by_cases hzero : a.chunkCount.toNat % 8 = 0
  -- The last chunk ends a byte, and there are no bits past it.
  · simp only [mod_eight_eq_zero_iff.mpr hzero, beq_self_eq_true, Bool.true_or, true_iff]
    intro i hi
    exact Codec.bit_of_length_le (by omega)
  · obtain ⟨last, hlast⟩ : ∃ last, a.bits.getLast? = some last := by
      rw [← Option.ne_none_iff_exists', Ne, List.getLast?_eq_none_iff, ← List.length_eq_zero_iff]
      omega
    rw [Codec.forall_bit_eq_false_iff hlength hzero hlast, ← toNat_mod_eight,
      ← Codec.and_not_mask_eq_zero_iff (toNat_mod_eight_lt _)]
    simp [hlast, mt mod_eight_eq_zero_iff.mp hzero]

theorem contains_eq (h : a.isValid = true) :
    a.contains index = (decide (index < a.chunkCount) && bit a.bits index.toNat) := by
  rw [contains, h, Bool.true_and, Codec.and_shiftLeft_bne_zero (toNat_mod_eight_lt _),
    toNat_mod_eight, bit, UInt32.toNat_div]
  rfl

/-! ## Building a bitfield -/

theorem length_setIndex (n index : UInt32) (bits : List UInt8) :
    (setIndex n bits index).length = bits.length := by
  unfold setIndex
  split
  · exact List.length_set
  · rfl

theorem bit_setIndex {bits : List UInt8} (hlength : bits.length = n.toNat ⌈/⌉ 8) (i : ℕ) :
    bit (setIndex n bits index) i =
      (decide (index < n ∧ i = index.toNat) || bit bits i) := by
  unfold setIndex
  split
  · rename_i hindex
    have hlt := UInt32.lt_iff_toNat_lt.mp hindex
    have hbyte : (index / 8).toNat = index.toNat / 8 := UInt32.toNat_div _ _
    have hinside : (index / 8).toNat < bits.length := by
      rw [hlength, hbyte, Nat.ceilDiv_eq_add_pred_div]
      omega
    rw [Codec.bit_set_or (toNat_mod_eight_lt _) hinside, hbyte, toNat_mod_eight, Nat.div_add_mod,
      decide_eq_decide.mpr (and_iff_right hindex).symm]
  · rename_i hindex
    rw [decide_eq_false fun h ↦ hindex h.1, Bool.false_or]

/-- What the loop over the indices has set. -/
theorem foldl_setIndex (indices : List UInt32) {bits : List UInt8}
    (hlength : bits.length = n.toNat ⌈/⌉ 8) :
    (indices.foldl (setIndex n) bits).length = n.toNat ⌈/⌉ 8 ∧
      ∀ i, bit (indices.foldl (setIndex n) bits) i = true ↔
        (∃ index ∈ indices, index < n ∧ i = index.toNat) ∨ bit bits i = true := by
  induction indices generalizing bits with
  | nil => exact ⟨hlength, fun i ↦ by simp⟩
  | cons index indices ih =>
    have hset : (setIndex n bits index).length = n.toNat ⌈/⌉ 8 :=
      (length_setIndex _ _ _).trans hlength
    refine ⟨(ih hset).1, fun i ↦ ?_⟩
    rw [List.foldl_cons, (ih hset).2, bit_setIndex hlength, Bool.or_eq_true, decide_eq_true_eq,
      List.exists_mem_cons_iff, or_left_comm, or_assoc]

theorem bit_fromIndices {indices : List UInt32} {i : ℕ} :
    bit (fromIndices n indices).bits i = true ↔
      ∃ index ∈ indices, index < n ∧ i = index.toNat := by
  rw [fromIndices, (foldl_setIndex indices List.length_replicate).2, Codec.bit_replicate_zero]
  simp

theorem isValid_fromIndices (n : UInt32) (indices : List UInt32) :
    (fromIndices n indices).isValid = true := by
  refine isValid_iff.mpr ⟨(foldl_setIndex indices List.length_replicate).1, fun i hi ↦ ?_⟩
  rw [Bool.eq_false_iff, Ne, bit_fromIndices]
  rintro ⟨index, -, hindex, rfl⟩
  exact absurd (UInt32.lt_iff_toNat_lt.mp hindex) (not_lt.mpr hi)

theorem contains_fromIndices {indices : List UInt32} :
    (fromIndices n indices).contains index = true ↔ index < n ∧ index ∈ indices := by
  rw [contains_eq (isValid_fromIndices n indices), Bool.and_eq_true, decide_eq_true_eq,
    bit_fromIndices]
  refine and_congr_right fun hindex ↦ ⟨?_, fun hmem ↦ ⟨index, hmem, hindex, rfl⟩⟩
  rintro ⟨other, hmem, -, hother⟩
  rwa [UInt32.toNat_inj.mp hother]

/-- Clearing the padding bits leaves the bits of the chunks. -/
theorem bit_clearUnusedBits (hlength : a.bits.length = a.chunkCount.toNat ⌈/⌉ 8) {i : ℕ}
    (hi : i < a.chunkCount.toNat) : bit a.clearUnusedBits.bits i = bit a.bits i := by
  unfold clearUnusedBits
  dsimp only
  split_ifs with hzero
  · rfl
  · split
    · rfl
    · rename_i last hlast
      have hset : a.bits.dropLast ++ [last &&& (1 <<< (a.chunkCount % 8).toUInt8 - 1)] =
          a.bits.set (a.bits.length - 1) (last &&& (1 <<< (a.chunkCount % 8).toUInt8 - 1)) := by
        rw [← List.dropLast_append_getLast? last hlast]
        simp
      rw [Nat.ceilDiv_eq_add_pred_div] at hlength
      rw [mod_eight_eq_zero_iff] at hzero
      rw [hset, Codec.bit_set (by omega)]
      split_ifs with hbyte
      · rw [UInt8.toBitVec_and, BitVec.getLsbD_and, Codec.getLsbD_mask (toNat_mod_eight_lt _),
          toNat_mod_eight, decide_eq_true (by omega), Bool.and_true, bit, hbyte,
          List.getD_eq_getElem?_getD, ← List.getLast?_eq_getElem?, hlast, Option.getD_some]
      · rfl

theorem contains_all : (all n).contains index = true ↔ index < n := by
  rw [contains_eq (isValid_all n), chunkCount_all, Bool.and_eq_true, decide_eq_true_eq]
  refine and_iff_left_of_imp fun hindex ↦ ?_
  have hlt := UInt32.lt_iff_toNat_lt.mp hindex
  rw [all, bit_clearUnusedBits List.length_replicate hlt, Codec.bit_replicate_ones,
    decide_eq_true_eq, Nat.ceilDiv_eq_add_pred_div]
  omega

/-! ## Canonicity -/

/-- The bits of a valid bitfield are those `contains` reports. -/
theorem bit_eq_contains (h : a.isValid = true) (i : ℕ) :
    bit a.bits i = (decide (i < a.chunkCount.toNat) && a.contains (.ofNat i)) := by
  by_cases hi : i < a.chunkCount.toNat
  · have hindex : (UInt32.ofNat i).toNat = i :=
      UInt32.toNat_ofNat_of_lt' (hi.trans a.chunkCount.toNat_lt)
    rw [contains_eq h, hindex, decide_eq_true hi, Bool.true_and,
      decide_eq_true (UInt32.lt_iff_toNat_lt.mpr (hindex.trans_lt hi)), Bool.true_and]
  · rw [(isValid_iff.mp h).2 i (not_lt.mp hi), decide_eq_false hi, Bool.false_and]

theorem eq_of_contains_eq (ha : a.isValid = true) (hb : b.isValid = true)
    (hcount : a.chunkCount = b.chunkCount) (h : ∀ index, a.contains index = b.contains index) :
    a = b := by
  have hbits : a.bits = b.bits := by
    refine Codec.eq_of_bit_eq ?_ fun i ↦ ?_
    · rw [length_bits_of_isValid ha, length_bits_of_isValid hb, hcount]
    · rw [bit_eq_contains ha, bit_eq_contains hb, hcount, h]
  cases a
  cases b
  rw [mk.injEq]
  exact ⟨hcount, hbits⟩

/-- **Availability bitfields are sets of chunk indices.** Both constructors give valid bitfields
with the members they are asked for, and a valid bitfield is determined by its members. -/
theorem availability_represents_sets :
    (∀ (n : UInt32) (indices : List UInt32), (fromIndices n indices).isValid = true ∧
      ∀ index, (fromIndices n indices).contains index = true ↔ index < n ∧ index ∈ indices) ∧
    (∀ n : UInt32, (all n).isValid = true ∧
      ∀ index, (all n).contains index = true ↔ index < n) ∧
    ∀ a b : PieceAvailability, a.isValid = true → b.isValid = true →
      a.chunkCount = b.chunkCount →
      (a = b ↔ ∀ index, a.contains index = b.contains index) := by
  refine ⟨fun n indices ↦ ⟨isValid_fromIndices n indices, fun index ↦ contains_fromIndices⟩,
    fun n ↦ ⟨isValid_all n, fun index ↦ contains_all⟩, fun a b ha hb hcount ↦ ⟨?_, ?_⟩⟩
  · rintro rfl index
    rfl
  · exact eq_of_contains_eq ha hb hcount

/-- The two constructors agree on three chunks. -/
theorem availability_all_three :
    all 3 = fromIndices 3 [2, 0, 7, 1, 2] :=
  (availability_represents_sets.2.2 _ _ (by decide) (by decide) rfl).mpr fun index ↦ by
    have hall := (availability_represents_sets.2.1 3).2 index
    have hsome := (availability_represents_sets.1 3 [2, 0, 7, 1, 2]).2 index
    refine Bool.eq_iff_iff.mpr (hall.trans (Iff.trans ?_ hsome.symm))
    refine iff_self_and.mpr fun hindex ↦ ?_
    have hlt : index.toNat < 3 := UInt32.lt_iff_toNat_lt.mp hindex
    have hcases : index.toNat = 0 ∨ index.toNat = 1 ∨ index.toNat = 2 := by omega
    simp only [← UInt32.toNat_inj, List.mem_cons]
    simpa using by tauto

end PieceAvailability

end TripTorrent

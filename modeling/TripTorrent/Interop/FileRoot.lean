import Mathlib.Data.Nat.Log
import TripTorrent.Core.Content
import TripTorrent.Hashing.Merkle

/-!
# Merkle roots of v2 files

A v2 torrent names each of its files by the root of a tree of SHA-256 digests. Its leaves are the
digests of the blocks of the file, the last of which may be short, followed by digests of zeros up
to the next power of two.
-/

namespace TripTorrent.Interop

open Codec

/-- `V2_BLOCK_SIZE` -/
def v2BlockSize : ℕ := 16 * 1024

inductive MerkleError
  /-- Empty v2 files omit the pieces root. -/
  | emptyFile
deriving DecidableEq

def MerkleError.message : MerkleError → String
  | .emptyFile => "empty v2 files do not have a pieces root"

/-- `usize::next_power_of_two` -/
def nextPowerOfTwo (n : ℕ) : ℕ := 2 ^ Nat.clog 2 n

/-- `[0_u8; 32]` -/
def zeroHash : Digest := List.Vector.replicate 32 0

section Root

variable (sha256 : List UInt8 → Digest)

/-- The digest of two digests, one after the other. -/
def hashPair (left right : Digest) : Digest := sha256 (left.toList ++ right.toList)

/-- The leaves of the tree, up to the next power of two. -/
def v2Leaves (payload : List UInt8) : List Digest :=
  let layer := (slices v2BlockSize payload).map sha256
  layer ++ List.replicate (nextPowerOfTwo layer.length - layer.length) zeroHash

/-- There is no result if the loop leaves nothing behind, whose first hash could be returned. -/
def v2FileRoot (payload : List UInt8) : Option (Except MerkleError Digest) :=
  if payload.isEmpty then some (.error .emptyFile)
  else (Merkle.reduce (hashPair sha256) (v2Leaves sha256 payload))[0]?.map .ok

end Root

variable {sha256 : List UInt8 → Digest} {payload : List UInt8}

theorem length_v2Leaves (sha256 : List UInt8 → Digest) (payload : List UInt8) :
    (v2Leaves sha256 payload).length = 2 ^ Nat.clog 2 (payload.length ⌈/⌉ v2BlockSize) := by
  have hle := Nat.le_pow_clog one_lt_two (payload.length ⌈/⌉ v2BlockSize)
  simp only [v2Leaves, slices, nextPowerOfTwo, List.length_append, List.length_map,
    List.length_range, List.length_replicate]
  omega

/-- The leaves by position: the digest of a block, or zeros. -/
theorem v2Leaves_eq_map (sha256 : List UInt8 → Digest) (payload : List UInt8) :
    v2Leaves sha256 payload =
      (List.range (2 ^ Nat.clog 2 (payload.length ⌈/⌉ v2BlockSize))).map fun i ↦
        if i < payload.length ⌈/⌉ v2BlockSize then sha256 (slice v2BlockSize payload i)
        else zeroHash := by
  have hle := Nat.le_pow_clog one_lt_two (payload.length ⌈/⌉ v2BlockSize)
  rw [v2Leaves]
  simp only [slices, nextPowerOfTwo, List.length_map, List.length_range]
  generalize payload.length ⌈/⌉ v2BlockSize = count at hle
  rw [← Nat.add_sub_cancel' hle, List.range_add, List.map_append, List.map_map, List.map_map,
    Nat.add_sub_cancel' hle]
  congr 1
  · refine List.map_congr_left fun i hi ↦ ?_
    rw [if_pos (List.mem_range.mp hi), Function.comp_apply]
  · symm
    refine List.eq_replicate_iff.mpr ⟨by rw [List.length_map, List.length_range], ?_⟩
    intro hash hhash
    obtain ⟨i, -, rfl⟩ := List.mem_map.mp hhash
    exact if_neg (Nat.not_lt.mpr (Nat.le_add_right _ _))

/-- **Merkle roots of files.** The loop ends with one hash, which is the root, computed from above,
of the tree over the leaves of the file: the digests of its blocks and then zeros, up to the least
power of two. -/
theorem v2FileRoot_eq_root (sha256 : List UInt8 → Digest) (hne : payload ≠ []) :
    ∃ height hash,
      (∀ k, height ≤ k ↔ payload.length ⌈/⌉ v2BlockSize ≤ 2 ^ k) ∧
      v2Leaves sha256 payload = (List.range (2 ^ height)).map (fun i ↦
        if i < payload.length ⌈/⌉ v2BlockSize then sha256 (slice v2BlockSize payload i)
        else zeroHash) ∧
      Merkle.root (hashPair sha256) height (v2Leaves sha256 payload) = some hash ∧
      Merkle.reduce (hashPair sha256) (v2Leaves sha256 payload) = [hash] ∧
      v2FileRoot sha256 payload = some (.ok hash) := by
  obtain ⟨hash, hroot, hreduce⟩ : ∃ hash,
      Merkle.root (hashPair sha256) _ (v2Leaves sha256 payload) = some hash ∧
        Merkle.reduce (hashPair sha256) (v2Leaves sha256 payload) = [hash] :=
    Merkle.reduce_eq (length_v2Leaves sha256 payload)
  refine ⟨_, hash, fun k ↦ Nat.clog_le_iff_le_pow one_lt_two, v2Leaves_eq_map sha256 payload,
    hroot, hreduce, ?_⟩
  rw [v2FileRoot, if_neg (by simpa using hne), hreduce]
  rfl

/-- A single block is its own root. -/
theorem v2FileRoot_singleBlock :
    ∃ height, v2FileRoot (fun block ↦ .replicate 32 (.ofNat block.length)) [0x5a, 0x5a] =
      (Merkle.root (hashPair fun block ↦ .replicate 32 (.ofNat block.length)) height
        [.replicate 32 2]).map .ok := by
  obtain ⟨height, hash, -, -, hroot, -, heq⟩ := v2FileRoot_eq_root
    (fun block ↦ .replicate 32 (.ofNat block.length)) (List.cons_ne_nil (0x5a : UInt8) [0x5a])
  have hblocks : v2Leaves (fun block ↦ .replicate 32 (.ofNat block.length)) [0x5a, 0x5a] =
      [.replicate 32 2] := by decide +kernel
  rw [hblocks] at hroot
  exact ⟨height, by rw [heq, hroot, Option.map_some]⟩

end TripTorrent.Interop

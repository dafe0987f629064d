import TripTorrent.Codec.Varint
import TripTorrent.Core.Chunking

/-!
# Serialised manifests

A stored manifest is written by a third-party serialiser. What is assumed of it, and of the hash
function, is in `Backend`: a manifest of valid shape is read back from what is written for it. On
bytes that were not written so, nothing is assumed.

The format itself is given as well: identifiers as they are, numbers and counts as variable-length
numbers, in the order of the fields. It satisfies the assumption, and with it backends can be
evaluated.
-/

namespace TripTorrent

open Codec (varint unvarint)

/-- Code that stored content rests on. -/
structure Backend where
  blake3 : List UInt8 → Digest
  /-- `postcard::to_allocvec` -/
  toAllocvec : Manifest → List UInt8
  /-- `postcard::from_bytes` -/
  fromBytes : List UInt8 → Option Manifest
  fromBytes_toAllocvec : ∀ {m : Manifest}, m.validateShape = .ok () →
    fromBytes (toAllocvec m) = some m

namespace Postcard

def digest? (bytes : List UInt8) : Option (Digest × List UInt8) :=
  if h : (bytes.take 32).length = 32 then some (⟨bytes.take 32, h⟩, bytes.drop 32) else none

def chunkIds? : ℕ → List UInt8 → Option (List ChunkId)
  | 0, _ => some []
  | n + 1, bytes => do
    let (id, bytes) ← digest? bytes
    let ids ← chunkIds? n bytes
    some (⟨id⟩ :: ids)

def toAllocvec (m : Manifest) : List UInt8 :=
  m.contentId.bytes.toList ++ (varint 10 m.length.toNat ++ (varint 5 m.chunkSize.toNat ++
    (varint 10 m.chunks.length ++ (m.chunks.map fun id ↦ id.bytes.toList).flatten)))

/-- What follows the manifest is ignored. -/
def fromBytes (bytes : List UInt8) : Option Manifest := do
  let (contentId, bytes) ← digest? bytes
  let (length, bytes) ← unvarint 10 bytes
  let (chunkSize, bytes) ← unvarint 5 bytes
  let (count, bytes) ← unvarint 10 bytes
  let chunks ← chunkIds? count bytes
  if length < 2 ^ 64 ∧ chunkSize < 2 ^ 32 then
    some ⟨⟨contentId⟩, .ofNat length, .ofNat chunkSize, chunks⟩
  else none

theorem digest?_append (digest : Digest) (rest : List UInt8) :
    digest? (digest.toList ++ rest) = some (digest, rest) := by
  obtain ⟨bytes, hbytes⟩ := digest
  have htake : (bytes ++ rest).take 32 = bytes := by rw [← hbytes, List.take_left]
  have hdrop : (bytes ++ rest).drop 32 = rest := by rw [← hbytes, List.drop_left]
  change digest? (bytes ++ rest) = _
  rw [digest?, dif_pos (by rw [htake, hbytes])]
  simp only [htake, hdrop]

theorem chunkIds?_flatten (ids : List ChunkId) :
    chunkIds? ids.length (ids.map fun id ↦ id.bytes.toList).flatten = some ids := by
  induction ids with
  | nil => rfl
  | cons id ids ih =>
    rw [List.length_cons, List.map_cons, List.flatten_cons, chunkIds?, digest?_append]
    simp only [bind, Option.bind, ih]

theorem fromBytes_toAllocvec {m : Manifest} (h : m.chunks.length < 2 ^ 64) :
    fromBytes (toAllocvec m) = some m := by
  have hlength := m.length.toNat_lt
  have hsize := m.chunkSize.toNat_lt
  rw [fromBytes, toAllocvec, digest?_append]
  simp only [bind, Option.bind]
  rw [Codec.unvarint_varint (by omega)]
  dsimp only
  rw [Codec.unvarint_varint (by omega)]
  dsimp only
  rw [Codec.unvarint_varint (by omega)]
  dsimp only
  rw [chunkIds?_flatten]
  dsimp only
  rw [if_pos ⟨hlength, hsize⟩, UInt64.ofNat_toNat, UInt32.ofNat_toNat]

end Postcard

theorem Postcard.fromBytes_of_validateShape {m : Manifest} (h : m.validateShape = .ok ()) :
    Postcard.fromBytes (Postcard.toAllocvec m) = some m := by
  obtain ⟨-, hlength, hcount⟩ := Manifest.validateShape_eq_ok_iff.mp h
  refine Postcard.fromBytes_toAllocvec ?_
  rw [← hcount, Nat.ceilDiv_eq_add_pred_div, chunkSize]
  have := m.length.toNat_lt
  omega

/-- The format with a hash function. -/
def Backend.postcard (blake3 : List UInt8 → Digest) : Backend where
  blake3 := blake3
  toAllocvec := Postcard.toAllocvec
  fromBytes := Postcard.fromBytes
  fromBytes_toAllocvec := Postcard.fromBytes_of_validateShape

end TripTorrent

import TripTorrent.Codec.Slices
import Mathlib.Data.Vector.Basic

/-!
# Content identifiers, manifests and chunks

The protocol-independent content types. Complete files and single chunks are both named by a
32-byte BLAKE3 digest; a manifest lists the digests of the fixed-size chunks of a file in order.

The hash function itself is third-party code. It is a parameter `blake3` throughout: nothing is
assumed about it here, and the results that need collision freedom say on which strings.
-/

namespace TripTorrent

/-- A 32-byte digest or key. -/
abbrev Digest := List.Vector UInt8 32

/-- `PROTOCOL_VERSION` -/
def protocolVersion : UInt16 := 1

/-- `NETWORK_ID` -/
def networkId : String := "triptorrent-testnet-1"

/-- `CHUNK_SIZE` -/
def chunkSize : ℕ := 32 * 1024

/-- `MAX_MANIFEST_CHUNKS` -/
def maxManifestChunks : ℕ := 1048576

/-- `MAX_CONTENT_LENGTH` -/
def maxContentLength : ℕ := 32 * 1024 * 1048576

/-- Identifier of complete file bytes. -/
structure ContentId where
  bytes : Digest
deriving DecidableEq

/-- Identifier of a peer, derived from its advertised public key. -/
structure PeerId where
  bytes : Digest
deriving DecidableEq

/-- Identifier of one chunk. -/
structure ChunkId where
  bytes : Digest
deriving DecidableEq

/-- Metadata needed to verify and reconstruct one file. -/
structure Manifest where
  contentId : ContentId
  length : UInt64
  chunkSize : UInt32
  chunks : List ChunkId
deriving DecidableEq

/-- A numbered file chunk and its claimed identifier. -/
structure Chunk where
  index : UInt32
  id : ChunkId
  data : List UInt8
deriving DecidableEq

/-- Content parsing or integrity failure. -/
inductive ContentError where
  | invalidIndex (index : UInt32)
  | invalidChunk (index : UInt32)
  | tooManyChunks
  | invalidChunkSize
  | invalidManifestShape
  | contentTooLarge
deriving DecidableEq

def ContentError.message : ContentError → String
  | .invalidIndex index => "chunk index " ++ toString index ++ " is outside the manifest"
  | .invalidChunk index => "chunk " ++ toString index ++ " failed integrity verification"
  | .tooManyChunks => "content has more than u32::MAX chunks"
  | .invalidChunkSize => "manifest uses an unsupported chunk size"
  | .invalidManifestShape => "manifest length and chunk count are inconsistent"
  | .contentTooLarge => "content exceeds the experimental size limit"

/-- Why `Manifest.reconstruct` fails; the variants of `ContentError` that no other function uses are
its own. -/
inductive ReconstructError where
  | content (error : ContentError)
  | wrongChunkCount (expected actual : ℕ)
  | invalidContent
deriving DecidableEq

def ReconstructError.message : ReconstructError → String
  | .content error => error.message
  | .wrongChunkCount expected actual =>
    "expected " ++ toString expected ++ " chunks, received " ++ toString actual
  | .invalidContent => "reconstructed content failed integrity verification"

section Hashing

variable (blake3 : List UInt8 → Digest)

def ContentId.digest (bytes : List UInt8) : ContentId := ⟨blake3 bytes⟩

def ChunkId.digest (bytes : List UInt8) : ChunkId := ⟨blake3 bytes⟩

def PeerId.fromPublicKey (publicKey : Digest) : PeerId := ⟨blake3 publicKey.toList⟩

namespace Manifest

/-- Builds a manifest and its chunks from complete file bytes. -/
def fromBytes (bytes : List UInt8) : Except ContentError (Manifest × List Chunk) :=
  if maxContentLength < bytes.length then .error .contentTooLarge
  else do
    let chunks ← (Codec.slices TripTorrent.chunkSize bytes).zipIdx.mapM fun (data, index) ↦
      if index < 2 ^ 32 then
        .ok { index := .ofNat index, id := ChunkId.digest blake3 data, data := data }
      else .error .tooManyChunks
    .ok ({ contentId := ContentId.digest blake3 bytes
           length := .ofNat bytes.length
           chunkSize := 32 * 1024
           chunks := chunks.map Chunk.id }, chunks)

/-- Verifies the index and digest of one chunk. The length of the data is not looked at. -/
def verifyChunk (m : Manifest) (chunk : Chunk) : Except ContentError Unit :=
  match m.chunks[chunk.index.toNat]? with
  | none => .error (.invalidIndex chunk.index)
  | some expected =>
    if chunk.id ≠ expected ∨ ChunkId.digest blake3 chunk.data ≠ expected then
      .error (.invalidChunk chunk.index)
    else .ok ()

/-- The loop of `reconstruct`: the chunks from position `index` on are verified and appended. -/
def appendChunks (m : Manifest) (bytes : List UInt8) (index : ℕ) :
    List Chunk → Except ReconstructError (List UInt8)
  | [] => .ok bytes
  | chunk :: chunks =>
    if chunk.index.toNat ≠ index then .error (.content (.invalidIndex chunk.index))
    else
      match m.verifyChunk blake3 chunk with
      | .error error => .error (.content error)
      | .ok () => appendChunks m (bytes ++ chunk.data) (index + 1) chunks

/-- Verifies ordered chunks and reconstructs the original bytes. -/
def reconstruct (m : Manifest) (chunks : List Chunk) : Except ReconstructError (List UInt8) :=
  if chunks.length ≠ m.chunks.length then
    .error (.wrongChunkCount m.chunks.length chunks.length)
  else
    match m.appendChunks blake3 [] 0 chunks with
    | .error error => .error error
    | .ok bytes =>
      if bytes.length ≠ m.length.toNat ∨ ContentId.digest blake3 bytes ≠ m.contentId then
        .error .invalidContent
      else .ok bytes

end Manifest

end Hashing

namespace Manifest

/-- Checks the structural invariants required before allocating transfer state. -/
def validateShape (m : Manifest) : Except ContentError Unit :=
  if m.chunkSize.toNat ≠ TripTorrent.chunkSize then .error .invalidChunkSize
  else if maxContentLength < m.length.toNat ∨ maxManifestChunks < m.chunks.length then
    .error .contentTooLarge
  else if m.length.toNat ⌈/⌉ m.chunkSize.toNat ≠ m.chunks.length then .error .invalidManifestShape
  else .ok ()

theorem validateShape_eq_ok_iff {m : Manifest} :
    m.validateShape = .ok () ↔
      m.chunkSize.toNat = TripTorrent.chunkSize ∧ m.length.toNat ≤ maxContentLength ∧
        m.length.toNat ⌈/⌉ TripTorrent.chunkSize = m.chunks.length := by
  rw [validateShape]
  constructor
  · intro h
    split_ifs at h with hsize hlarge hcount
    rw [not_not] at hsize hcount
    rw [not_or, not_lt, not_lt] at hlarge
    exact ⟨hsize, hlarge.1, hsize ▸ hcount⟩
  · rintro ⟨hsize, hlarge, hcount⟩
    have hchunks : m.chunks.length ≤ maxManifestChunks := by
      rw [← hcount, Nat.ceilDiv_eq_add_pred_div]
      rw [maxContentLength] at hlarge
      rw [TripTorrent.chunkSize, maxManifestChunks]
      omega
    rw [if_neg (not_not.mpr hsize), if_neg (by omega),
      if_neg (by rw [hsize]; exact not_not.mpr hcount)]

theorem verifyChunk_eq_ok_iff {blake3 : List UInt8 → Digest} {m : Manifest} {chunk : Chunk} :
    m.verifyChunk blake3 chunk = .ok () ↔
      m.chunks[chunk.index.toNat]? = some chunk.id ∧
        ChunkId.digest blake3 chunk.data = chunk.id := by
  rw [verifyChunk]
  cases m.chunks[chunk.index.toNat]? with
  | none => simp
  | some expected =>
    by_cases hid : chunk.id = expected
    · subst hid
      by_cases hdigest : ChunkId.digest blake3 chunk.data = chunk.id
      · simp [hdigest]
      · simp [hdigest]
    · simp [hid, Ne.symm hid]

end Manifest

end TripTorrent

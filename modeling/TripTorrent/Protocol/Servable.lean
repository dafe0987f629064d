import TripTorrent.Core.Chunking
import TripTorrent.Protocol.Sizes

/-!
# What can be shared and what can be served

A provider adds content by cutting it into chunks, and is from then on advertised. It serves the
content by sending its manifest in one record, with a bitfield in which every chunk is available,
and then the chunks that it is asked for. Content is cut up to the limit of the core library, 2^20
chunks; a record holds the manifest of 2036 chunks. Content in between is advertised, but every
session that asks for it ends at the manifest.
-/

namespace TripTorrent

variable {blake3 : List UInt8 → Digest} {bytes : List UInt8} {m : Manifest} {chunks : List Chunk}

/-- The record with which a provider of the whole content answers a request. -/
def offer (m : Manifest) (chunks : List Chunk) : Message :=
  .swarmManifest m (.all (.ofNat chunks.length))

section Built

variable (h : Manifest.fromBytes blake3 bytes = .ok (m, chunks))

include h

theorem length_chunks_eq : chunks.length = m.chunks.length := by
  obtain ⟨-, -, rfl⟩ := Manifest.fromBytes_eq_ok_iff.mp h
  exact (List.length_map _).symm

theorem exists_encode_chunk_of_mem {chunk : Chunk} (hchunk : chunk ∈ chunks) :
    ∃ record, encode (.chunk chunk) = .ok record := by
  obtain ⟨i, -, rfl⟩ := Manifest.exists_ofSlice_of_mem h hchunk
  refine exists_encode_iff.mpr (if_neg (not_lt.mpr ?_))
  rw [Chunk.ofSlice, Codec.length_slice]
  exact min_le_left ..

theorem validateMessage_offer_eq_ok_iff :
    validateMessage (offer m chunks) = .ok () ↔ bytes.length ≤ 2036 * chunkSize := by
  have hcount := Manifest.length_chunks_of_fromBytes h
  have hfit : chunks.length < 2 ^ 32 := by
    rw [length_chunks_eq h, hcount]
    exact (chunkCount_le (Manifest.fromBytes_eq_ok_iff.mp h).1).trans_lt (by decide)
  have hnumber : (UInt32.ofNat chunks.length).toNat = m.chunks.length := by
    rw [UInt32.toNat_ofNat_of_lt' hfit, length_chunks_eq h]
  rw [offer, validateMessage_swarmManifest_eq_ok_iff, PieceAvailability.chunkCount_all,
    and_iff_right (Manifest.validateShape_of_fromBytes h),
    and_iff_left ⟨hnumber, PieceAvailability.isValid_all _⟩, hcount, Nat.ceilDiv_eq_add_pred_div,
    maxTestnetManifestChunks, chunkSize]
  omega

/-- **What is shared is served up to 2036 chunks.** For content that has been cut into chunks, the
manifest and all chunks can be sent exactly if the content has at most 2036 times 32 KiB. -/
theorem shared_content_servable_iff :
    ((∃ record, encode (offer m chunks) = .ok record) ∧
        ∀ chunk ∈ chunks, ∃ record, encode (.chunk chunk) = .ok record) ↔
      bytes.length ≤ 2036 * chunkSize := by
  rw [exists_encode_iff, validateMessage_offer_eq_ok_iff h, and_iff_left_iff_imp]
  exact fun _ chunk hchunk ↦ exists_encode_chunk_of_mem h hchunk

end Built

/-- The published payload can be shared and served. -/
theorem payload_servable :
    Manifest.fromBytes Vectors.payloadHash Vectors.payload =
        .ok (Vectors.payloadManifest, [Vectors.payloadChunk]) ∧
      (∃ record, encode (offer Vectors.payloadManifest [Vectors.payloadChunk]) = .ok record) ∧
        ∀ chunk ∈ [Vectors.payloadChunk], ∃ record, encode (.chunk chunk) = .ok record := by
  have hbuilt : Manifest.fromBytes Vectors.payloadHash Vectors.payload =
      .ok (Vectors.payloadManifest, [Vectors.payloadChunk]) := by decide +kernel
  exact ⟨hbuilt, (shared_content_servable_iff hbuilt).mpr (by decide)⟩

namespace Vectors

/-- One byte more than 2036 chunks hold. -/
def largeContent : List UInt8 := List.replicate (2036 * 32768 + 1) 0

end Vectors

/-- A file of 66715649 zero bytes is cut into 2037 chunks, whatever the hash function, and the
record with its manifest is refused. -/
theorem large_content_not_servable :
    Vectors.largeContent.length = 66715649 ∧ ∀ blake3 : List UInt8 → Digest, ∃ m chunks,
      Manifest.fromBytes blake3 Vectors.largeContent = .ok (m, chunks) ∧
        m.chunks.length = 2037 ∧
        encode (offer m chunks) =
          .error (.invalidMessage "manifest exceeds Testnet v1 record bound") := by
  have hlength : Vectors.largeContent.length = 66715649 := by
    rw [Vectors.largeContent, List.length_replicate]
  refine ⟨hlength, fun blake3 ↦ ?_⟩
  have hbuilt : ∃ m chunks, Manifest.fromBytes blake3 Vectors.largeContent = .ok (m, chunks) :=
    ⟨_, _, Manifest.fromBytes_eq_ok_iff.mpr ⟨by rw [hlength]; decide, rfl, rfl⟩⟩
  obtain ⟨m, chunks, h⟩ := hbuilt
  have hcount : m.chunks.length = 2037 := by
    rw [Manifest.length_chunks_of_fromBytes h, hlength, Nat.ceilDiv_eq_add_pred_div]
    decide
  have hrefused : validateManifest m =
      .error (.invalidMessage "manifest exceeds Testnet v1 record bound") := by
    rw [validateManifest, Manifest.validateShape_of_fromBytes h]
    exact if_pos (by rw [hcount]; decide)
  refine ⟨m, chunks, h, hcount, ?_⟩
  rw [encode, encodeRecord, offer, validateMessage, hrefused]
  rfl

end TripTorrent

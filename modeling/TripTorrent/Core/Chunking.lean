import TripTorrent.Codec.Outcome
import TripTorrent.Core.Content

/-!
# Manifests built from content

What `Manifest.fromBytes` returns, said by position: chunk `i` is the `i`-th slice of the content
with its index and digest. Its manifest has a valid shape and verifies each of its own chunks, and
the manifests from which the content is reconstructed are those that agree with it.
-/

namespace TripTorrent

variable {blake3 : List UInt8 → Digest} {bytes : List UInt8} {m : Manifest} {chunks : List Chunk}

/-- The `i`-th slice of the content as a numbered chunk. -/
def Chunk.ofSlice (blake3 : List UInt8 → Digest) (bytes : List UInt8) (i : ℕ) : Chunk where
  index := .ofNat i
  id := ChunkId.digest blake3 (Codec.slice chunkSize bytes i)
  data := Codec.slice chunkSize bytes i

/-- The chunk count of admissible content fits the manifest limit. -/
theorem chunkCount_le (h : bytes.length ≤ maxContentLength) :
    bytes.length ⌈/⌉ chunkSize ≤ maxManifestChunks := by
  rw [Nat.ceilDiv_eq_add_pred_div, chunkSize, maxManifestChunks]
  rw [maxContentLength] at h
  omega

theorem zipIdx_slices (n : ℕ) (l : List UInt8) :
    (Codec.slices n l).zipIdx =
      (List.range (l.length ⌈/⌉ n)).map fun i ↦ (Codec.slice n l i, i) := by
  refine List.ext_getElem? fun i ↦ ?_
  rw [List.getElem?_zipIdx, Codec.slices, List.getElem?_map, List.getElem?_map]
  by_cases hi : i < l.length ⌈/⌉ n
  · simp [List.getElem?_range hi]
  · have hnone : (List.range (l.length ⌈/⌉ n))[i]? = none :=
      List.getElem?_eq_none (by rw [List.length_range]; exact not_lt.mp hi)
    simp [hnone]

namespace Manifest

/-- **Chunking by position.** Content is accepted exactly up to the length limit, and is cut into
its slices in order. -/
theorem fromBytes_eq_ok_iff : Manifest.fromBytes blake3 bytes = .ok (m, chunks) ↔
    bytes.length ≤ maxContentLength ∧
      chunks = (List.range (bytes.length ⌈/⌉ TripTorrent.chunkSize)).map
        (Chunk.ofSlice blake3 bytes) ∧
      m = { contentId := ContentId.digest blake3 bytes
            length := .ofNat bytes.length
            chunkSize := 32 * 1024
            chunks := chunks.map Chunk.id } := by
  rw [fromBytes]
  by_cases hlarge : maxContentLength < bytes.length
  · simp [hlarge]
  · have hle : bytes.length ≤ maxContentLength := not_lt.mp hlarge
    have hcut : (Codec.slices TripTorrent.chunkSize bytes).zipIdx.mapM (fun x ↦
          if x.2 < 2 ^ 32 then
            (.ok { index := .ofNat x.2, id := ChunkId.digest blake3 x.1, data := x.1 } :
              Except ContentError Chunk)
          else .error .tooManyChunks) =
        .ok ((List.range (bytes.length ⌈/⌉ TripTorrent.chunkSize)).map
          (Chunk.ofSlice blake3 bytes)) := by
      rw [Outcome.mapM_eq_ok (g := fun x ↦ ⟨.ofNat x.2, ChunkId.digest blake3 x.1, x.1⟩),
        zipIdx_slices, List.map_map]
      · rfl
      · rintro ⟨data, i⟩ hx
        have hi : i < bytes.length ⌈/⌉ TripTorrent.chunkSize := by
          rw [zipIdx_slices, List.mem_map] at hx
          obtain ⟨j, hj, hx⟩ := hx
          rw [← (Prod.mk.inj hx).2]
          exact List.mem_range.mp hj
        have := chunkCount_le hle
        exact if_pos (by rw [maxManifestChunks] at this; omega)
    rw [if_neg hlarge, hcut]
    simp only [bind, Except.bind, Except.ok.injEq, Prod.mk.injEq, hle, true_and]
    constructor
    · rintro ⟨rfl, rfl⟩
      exact ⟨rfl, rfl⟩
    · rintro ⟨rfl, rfl⟩
      exact ⟨rfl, rfl⟩

section Built

variable (h : Manifest.fromBytes blake3 bytes = .ok (m, chunks))

include h

theorem eq_of_fromBytes :
    bytes.length ≤ maxContentLength ∧
      chunks = (List.range (bytes.length ⌈/⌉ TripTorrent.chunkSize)).map
        (Chunk.ofSlice blake3 bytes) ∧
      m = { contentId := ContentId.digest blake3 bytes
            length := .ofNat bytes.length
            chunkSize := 32 * 1024
            chunks := chunks.map Chunk.id } :=
  fromBytes_eq_ok_iff.mp h

theorem length_of_fromBytes : m.length.toNat = bytes.length := by
  obtain ⟨hle, -, rfl⟩ := eq_of_fromBytes h
  exact UInt64.toNat_ofNat_of_lt' (lt_of_le_of_lt hle (by decide))

theorem chunkSize_of_fromBytes : m.chunkSize.toNat = TripTorrent.chunkSize := by
  obtain ⟨-, -, rfl⟩ := eq_of_fromBytes h
  rfl

theorem length_chunks_of_fromBytes :
    m.chunks.length = bytes.length ⌈/⌉ TripTorrent.chunkSize := by
  obtain ⟨-, rfl, rfl⟩ := eq_of_fromBytes h
  simp

theorem validateShape_of_fromBytes : m.validateShape = .ok () := by
  refine validateShape_eq_ok_iff.mpr ⟨chunkSize_of_fromBytes h, ?_, ?_⟩
  · rw [length_of_fromBytes h]
    exact (eq_of_fromBytes h).1
  · rw [length_of_fromBytes h, length_chunks_of_fromBytes h]

theorem getElem?_of_fromBytes {i : ℕ} (hi : i < m.chunks.length) :
    chunks[i]? = some (Chunk.ofSlice blake3 bytes i) := by
  rw [length_chunks_of_fromBytes h] at hi
  rw [(eq_of_fromBytes h).2.1, List.getElem?_map, List.getElem?_range hi, Option.map_some]

theorem index_ofSlice {i : ℕ} (hi : i < m.chunks.length) :
    (Chunk.ofSlice blake3 bytes i).index.toNat = i := by
  have hle := chunkCount_le (eq_of_fromBytes h).1
  rw [← length_chunks_of_fromBytes h] at hle
  exact UInt32.toNat_ofNat_of_lt' (hi.trans_le (hle.trans (by decide)))

theorem exists_ofSlice_of_mem {chunk : Chunk} (hchunk : chunk ∈ chunks) :
    ∃ i < m.chunks.length, Chunk.ofSlice blake3 bytes i = chunk := by
  rw [(eq_of_fromBytes h).2.1, List.mem_map] at hchunk
  obtain ⟨i, hi, hchunk⟩ := hchunk
  rw [length_chunks_of_fromBytes h]
  exact ⟨i, List.mem_range.mp hi, hchunk⟩

/-- A built manifest verifies each of its own chunks. -/
theorem verifyChunk_ofSlice {i : ℕ} (hi : i < m.chunks.length) :
    m.verifyChunk blake3 (Chunk.ofSlice blake3 bytes i) = .ok () := by
  refine verifyChunk_eq_ok_iff.mpr ⟨?_, rfl⟩
  rw [index_ofSlice h hi]
  have hchunk := getElem?_of_fromBytes h hi
  obtain ⟨-, -, rfl⟩ := eq_of_fromBytes h
  rw [List.getElem?_map, hchunk, Option.map_some]

theorem flatten_data_of_fromBytes : (chunks.map Chunk.data).flatten = bytes := by
  rw [(eq_of_fromBytes h).2.1, List.map_map]
  exact Codec.flatten_slices (by decide) bytes

end Built

/-! ## Reconstruction -/

/-- The chunks are appended when they are in order and all verified. -/
theorem appendChunks_eq_ok_iff {out : List UInt8} {index : ℕ} :
    m.appendChunks blake3 bytes index chunks = .ok out ↔
      out = bytes ++ (chunks.map Chunk.data).flatten ∧
        ∀ (i : ℕ) (chunk : Chunk), chunks[i]? = some chunk →
          chunk.index.toNat = index + i ∧ m.verifyChunk blake3 chunk = .ok () := by
  induction chunks generalizing bytes index with
  | nil =>
    rw [appendChunks, Except.ok.injEq, List.map_nil, List.flatten_nil, List.append_nil]
    exact ⟨fun h ↦ ⟨h.symm, fun i chunk hi ↦ by cases hi⟩, fun h ↦ h.1.symm⟩
  | cons chunk chunks ih =>
    rw [appendChunks]
    constructor
    · intro h
      split_ifs at h with hindex
      split at h
      · cases h
      · rename_i hverify
        obtain ⟨rfl, hrest⟩ := ih.mp h
        refine ⟨by rw [List.append_assoc, List.map_cons, List.flatten_cons], fun i other hi ↦ ?_⟩
        rcases i with _ | i
        · obtain rfl := Option.some.inj hi
          exact ⟨not_not.mp hindex, hverify⟩
        · obtain ⟨hother, hverified⟩ := hrest i other hi
          exact ⟨by omega, hverified⟩
    · rintro ⟨rfl, hall⟩
      obtain ⟨hindex, hverify⟩ := hall 0 chunk rfl
      rw [add_zero] at hindex
      rw [if_neg (not_not.mpr hindex), hverify]
      refine ih.mpr ⟨by rw [List.append_assoc, List.map_cons, List.flatten_cons], ?_⟩
      intro i other hi
      obtain ⟨hother, hverified⟩ := hall (i + 1) other hi
      exact ⟨by omega, hverified⟩

/-- Reconstruction asks for the number of chunks, for each chunk in its place, and for the length
and digest of the whole. -/
theorem reconstruct_eq_ok_iff_forall {out : List UInt8} :
    m.reconstruct blake3 chunks = .ok out ↔
      chunks.length = m.chunks.length ∧ out = (chunks.map Chunk.data).flatten ∧
        out.length = m.length.toNat ∧ ContentId.digest blake3 out = m.contentId ∧
        ∀ (i : ℕ) (chunk : Chunk), chunks[i]? = some chunk →
          chunk.index.toNat = i ∧ m.verifyChunk blake3 chunk = .ok () := by
  have happend (bytes : List UInt8) : m.appendChunks blake3 [] 0 chunks = .ok bytes ↔
      bytes = (chunks.map Chunk.data).flatten ∧
        ∀ (i : ℕ) (chunk : Chunk), chunks[i]? = some chunk →
          chunk.index.toNat = i ∧ m.verifyChunk blake3 chunk = .ok () := by
    rw [appendChunks_eq_ok_iff]
    simp only [List.nil_append, zero_add]
  rw [reconstruct]
  constructor
  · intro h
    split_ifs at h with hcount
    split at h
    · cases h
    · rename_i bytes hbytes
      split_ifs at h with hbad
      obtain rfl := Except.ok.inj h
      rw [not_or, not_not, not_not] at hbad
      obtain ⟨hflatten, hall⟩ := (happend bytes).mp hbytes
      exact ⟨not_not.mp hcount, hflatten, hbad.1, hbad.2, hall⟩
  · rintro ⟨hcount, hflatten, hlength, hdigest, hall⟩
    rw [if_neg (not_not.mpr hcount), (happend out).mpr ⟨hflatten, hall⟩]
    exact if_neg (by rw [hlength, hdigest]; simp)

/-- Content is reconstructed from its chunks under just the manifests that agree with its own, the
chunk size apart. -/
theorem reconstruct_eq_ok_iff {built : Manifest} {out : List UInt8}
    (h : Manifest.fromBytes blake3 bytes = .ok (built, chunks)) :
    m.reconstruct blake3 chunks = .ok out ↔
      out = bytes ∧ m.contentId = built.contentId ∧ m.length = built.length ∧
        m.chunks = built.chunks := by
  have hlength := length_of_fromBytes h
  have hids : built.chunks = chunks.map Chunk.id := by rw [(eq_of_fromBytes h).2.2]
  have hdigest : built.contentId = ContentId.digest blake3 bytes := by
    rw [(eq_of_fromBytes h).2.2]
  have hcount : chunks.length = built.chunks.length := by rw [hids, List.length_map]
  rw [reconstruct_eq_ok_iff_forall, flatten_data_of_fromBytes h]
  constructor
  · rintro ⟨hlen, rfl, hout, hid, hall⟩
    refine ⟨rfl, hid.symm.trans hdigest.symm,
      UInt64.toNat_inj.mp (hout.symm.trans hlength.symm), ?_⟩
    refine List.ext_getElem? fun i ↦ ?_
    rw [hids, List.getElem?_map]
    rcases hi : chunks[i]? with _ | chunk
    · exact List.getElem?_eq_none (hlen ▸ List.getElem?_eq_none_iff.mp hi)
    · obtain ⟨hindex, hverify⟩ := hall i chunk hi
      rw [← hindex]
      exact (verifyChunk_eq_ok_iff.mp hverify).1
  · rintro ⟨rfl, hid, hlen, hchunks⟩
    refine ⟨by rw [hchunks, hcount], rfl, by rw [hlen, hlength], by rw [hid, hdigest], ?_⟩
    intro i chunk hi
    have hlt : i < built.chunks.length := hcount ▸ (List.getElem?_eq_some_iff.mp hi).1
    obtain rfl : Chunk.ofSlice blake3 out i = chunk :=
      Option.some.inj ((getElem?_of_fromBytes h hlt).symm.trans hi)
    refine ⟨index_ofSlice h hlt, ?_⟩
    have hverify := verifyChunk_eq_ok_iff.mp (verifyChunk_ofSlice h hlt)
    rw [← hchunks] at hverify
    exact verifyChunk_eq_ok_iff.mpr hverify

/-- Two lists of chunks accepted by one manifest are the same, unless they hold a collision. -/
theorem eq_of_reconstruct {others : List Chunk} {out out' : List UInt8}
    (h : m.reconstruct blake3 chunks = .ok out) (h' : m.reconstruct blake3 others = .ok out')
    (hinj : Set.InjOn blake3 {data | ∃ chunk ∈ chunks ++ others, chunk.data = data}) :
    others = chunks := by
  obtain ⟨hcount, -, -, -, hall⟩ := reconstruct_eq_ok_iff_forall.mp h
  obtain ⟨hcount', -, -, -, hall'⟩ := reconstruct_eq_ok_iff_forall.mp h'
  refine List.ext_getElem (hcount'.trans hcount.symm) fun i hi' hi ↦ ?_
  obtain ⟨hindex, hverify⟩ := hall i chunks[i] (List.getElem?_eq_getElem hi)
  obtain ⟨hindex', hverify'⟩ := hall' i others[i] (List.getElem?_eq_getElem hi')
  obtain ⟨hid, hdigest⟩ := verifyChunk_eq_ok_iff.mp hverify
  obtain ⟨hid', hdigest'⟩ := verifyChunk_eq_ok_iff.mp hverify'
  have hsame : others[i].id = chunks[i].id := by
    rw [hindex] at hid
    rw [hindex', hid] at hid'
    exact (Option.some.inj hid').symm
  have hdata : others[i].data = chunks[i].data := by
    refine hinj ⟨_, List.mem_append_right _ (List.getElem_mem hi'), rfl⟩
      ⟨_, List.mem_append_left _ (List.getElem_mem hi), rfl⟩ ?_
    have : ChunkId.digest blake3 others[i].data = ChunkId.digest blake3 chunks[i].data := by
      rw [hdigest, hdigest', hsame]
    exact ChunkId.mk.inj this
  rcases hother : others[i] with ⟨index', id', data'⟩
  rcases hchunk : chunks[i] with ⟨index, id, data⟩
  rw [hother] at hindex' hsame hdata
  rw [hchunk] at hindex hsame hdata
  rw [Chunk.mk.injEq]
  exact ⟨UInt32.toNat_inj.mp (hindex'.trans hindex.symm), hsame, hdata⟩

/-- **Reconstruction is sound and unique**, whoever made the manifest. What it returns is the data
of the chunks, which stand in order, with the length and the digest the manifest names. As long as
there are no collisions among the byte strings at hand, every other list of chunks is rejected, and
a manifest for the same content returns the same bytes. -/
theorem reconstruct_sound_and_unique {out : List UInt8}
    (h : m.reconstruct blake3 chunks = .ok out) :
    out = (chunks.map Chunk.data).flatten ∧ out.length = m.length.toNat ∧
    ContentId.digest blake3 out = m.contentId ∧
    (∀ (i : ℕ) (chunk : Chunk), chunks[i]? = some chunk → chunk.index.toNat = i) ∧
    (∀ others : List Chunk,
      Set.InjOn blake3 {data | ∃ chunk ∈ chunks ++ others, chunk.data = data} → others ≠ chunks →
      ∃ error, m.reconstruct blake3 others = .error error) ∧
    ∀ (m' : Manifest) (others : List Chunk) (out' : List UInt8),
      m'.contentId = m.contentId → m'.reconstruct blake3 others = .ok out' →
      Set.InjOn blake3 {out, out'} → out' = out := by
  obtain ⟨-, hflatten, hlength, hdigest, hall⟩ := reconstruct_eq_ok_iff_forall.mp h
  refine ⟨hflatten, hlength, hdigest, fun i chunk hi ↦ (hall i chunk hi).1, ?_, ?_⟩
  · intro others hinj hne
    cases hothers : m.reconstruct blake3 others with
    | error error => exact ⟨error, rfl⟩
    | ok out' => exact absurd (eq_of_reconstruct h hothers hinj) hne
  · intro m' others out' hid hothers hinj
    obtain ⟨-, -, -, hdigest', -⟩ := reconstruct_eq_ok_iff_forall.mp hothers
    refine hinj (by simp) (by simp) ?_
    exact ContentId.mk.inj (hdigest'.trans (hid.trans hdigest.symm))

end Manifest

/-! ## A published file

The payload of the interoperability vector with its published identifier; being a single chunk, it
has the same digest as a file and as a chunk. -/

namespace Vectors

def payload : List UInt8 :=
  [84, 114, 105, 112, 84, 111, 114, 114, 101, 110, 116, 32, 77, 54, 32, 118, 101, 99, 116, 111,
   114, 32, 112, 97, 121, 108, 111, 97, 100, 10]

def payloadDigest : Digest :=
  ⟨[219, 93, 145, 138, 84, 160, 41, 236, 100, 15, 12, 159, 207, 125, 35, 31, 57, 211, 202, 226,
     124, 118, 181, 142, 66, 113, 174, 2, 181, 250, 81, 45], rfl⟩

/-- BLAKE3 on the payload; what it does elsewhere is left open by the vector. -/
def payloadHash (bytes : List UInt8) : Digest :=
  if bytes = payload then payloadDigest else List.Vector.replicate 32 0

def payloadManifest : Manifest where
  contentId := ⟨payloadDigest⟩
  length := 30
  chunkSize := 32768
  chunks := [⟨payloadDigest⟩]

def payloadChunk : Chunk where
  index := 0
  id := ⟨payloadDigest⟩
  data := payload

example : Manifest.fromBytes payloadHash payload = .ok (payloadManifest, [payloadChunk]) := by
  decide +kernel

end Vectors

open Vectors in
theorem reconstruct_sound_and_unique_payload :
    payloadManifest.reconstruct payloadHash [payloadChunk] = .ok payload ∧
      ∃ error, payloadManifest.reconstruct payloadHash [payloadChunk, payloadChunk] =
        .error error := by
  have hpayload : payloadManifest.reconstruct payloadHash [payloadChunk] = .ok payload := by
    decide +kernel
  refine ⟨hpayload, (Manifest.reconstruct_sound_and_unique hpayload).2.2.2.2.1 _ ?_ (by decide)⟩
  rintro _ ⟨chunk, hchunk, rfl⟩ _ ⟨chunk', hchunk', rfl⟩ -
  simp only [List.cons_append, List.nil_append, List.mem_cons, List.not_mem_nil, or_false,
    or_self] at hchunk hchunk'
  rw [hchunk, hchunk']

end TripTorrent

import Mathlib.Algebra.Order.BigOperators.Group.Finset
import Mathlib.Order.Interval.Finset.Nat
import TripTorrent.Codec.Outcome
import TripTorrent.Core.Chunking

/-!
# The layout of a partial file

Where a chunk lies in the partial file and how long its slot is, and the progress report computed
from the completion flags.

Under a manifest of valid shape the slots are the ranges of bytes that the chunks were cut from:
none of them is empty, and they follow one another up to the end of the file. What the report sums
up are their sizes.
-/

namespace TripTorrent

inductive LayoutError where
  | outsideManifest (index : UInt32)
  | offsetOverflow
  | offsetExceedsLength
  | progressIndexOverflow
deriving DecidableEq

def LayoutError.message : LayoutError → String
  | .outsideManifest index => "chunk index " ++ toString index ++ " is outside the manifest"
  | .offsetOverflow => "chunk offset overflow"
  | .offsetExceedsLength => "chunk offset exceeds manifest length"
  | .progressIndexOverflow => "progress chunk index overflow"

/-- The number of bytes of the file that belong to a chunk. -/
def expectedChunkLength (m : Manifest) (index : UInt32) : Except LayoutError ℕ :=
  if m.chunks.length ≤ index.toNat then .error (.outsideManifest index)
  else
    let offset := index.toNat * m.chunkSize.toNat
    if 2 ^ 64 ≤ offset then .error .offsetOverflow
    else if m.length.toNat < offset then .error .offsetExceedsLength
    else .ok (min (m.length.toNat - offset) m.chunkSize.toNat)

/-- Progress handed to the monitor of a transfer. -/
structure VerifiedTransferProgress where
  bytesTotal : ℕ
  verifiedBytes : ℕ
  totalChunks : ℕ
  verifiedChunks : ℕ
  providerCount : ℕ
  retryCount : ℕ
  rejectedChunks : ℕ
deriving DecidableEq

/-- One round of the loop over the completion flags: the verified bytes and chunks so far. -/
def countVerified (m : Manifest) (verified : ℕ × ℕ) (flag : Bool × ℕ) :
    Except LayoutError (ℕ × ℕ) :=
  if flag.1 then
    if flag.2 < 2 ^ 32 then do
      let length ← expectedChunkLength m (.ofNat flag.2)
      .ok (min (verified.1 + length) (2 ^ 64 - 1), verified.2 + 1)
    else .error .progressIndexOverflow
  else .ok verified

/-- The report the monitor receives. -/
def reportVerifiedProgress (m : Manifest) (completed : List Bool)
    (providerCount retryCount rejectedChunks : ℕ) :
    Except LayoutError VerifiedTransferProgress := do
  let (verifiedBytes, verifiedChunks) ← completed.zipIdx.foldlM (countVerified m) (0, 0)
  .ok
    { bytesTotal := m.length.toNat
      verifiedBytes := verifiedBytes
      totalChunks := m.chunks.length
      verifiedChunks := verifiedChunks
      providerCount := providerCount
      retryCount := retryCount
      rejectedChunks := rejectedChunks }

/-- The bytes of the file that belong to a chunk. -/
def byteRange (m : Manifest) (i : ℕ) : Finset ℕ :=
  Finset.Ico (i * chunkSize) (min ((i + 1) * chunkSize) m.length.toNat)

/-! ## Flags -/

/-- The positions at which a flag is set. -/
def setFlags (completed : List Bool) : Finset ℕ :=
  (Finset.range completed.length).filter fun i ↦ completed[i]? = some true

section Flags

variable {completed : List Bool} {i : ℕ}

theorem mem_setFlags : i ∈ setFlags completed ↔ completed[i]? = some true := by
  rw [setFlags, Finset.mem_filter, Finset.mem_range]
  exact and_iff_right_of_imp fun hi ↦ (List.getElem?_eq_some_iff.mp hi).1

theorem setFlags_subset (completed : List Bool) :
    setFlags completed ⊆ Finset.range completed.length := Finset.filter_subset _ _

theorem length_notMem_setFlags (completed : List Bool) :
    completed.length ∉ setFlags completed := by
  rw [mem_setFlags, List.getElem?_eq_none le_rfl]
  exact Option.some_ne_none true ∘ Eq.symm

theorem notMem_setFlags (hi : completed[i]? = some false) : i ∉ setFlags completed := by
  simp [mem_setFlags, hi]

theorem setFlags_concat_false (completed : List Bool) :
    setFlags (completed ++ [false]) = setFlags completed := by
  ext i
  rw [mem_setFlags, mem_setFlags, List.getElem?_append]
  split_ifs with hi
  · rfl
  · rw [List.getElem?_eq_none (not_lt.mp hi)]
    simp [List.getElem?_singleton]

theorem setFlags_concat_true (completed : List Bool) :
    setFlags (completed ++ [true]) = insert completed.length (setFlags completed) := by
  ext i
  rw [Finset.mem_insert, mem_setFlags, mem_setFlags, List.getElem?_append]
  split_ifs with hi
  · simp [hi.ne]
  · rw [List.getElem?_eq_none (not_lt.mp hi), List.getElem?_singleton]
    simp
    omega

theorem setFlags_set (hi : completed[i]? = some false) :
    setFlags (completed.set i true) = insert i (setFlags completed) := by
  ext j
  rw [Finset.mem_insert, mem_setFlags, mem_setFlags, List.getElem?_set]
  split_ifs with hij hlt
  · simp [hij]
  · exact absurd (List.getElem?_eq_some_iff.mp hi).1 hlt
  · simp [Ne.symm hij]

theorem setFlags_eq_range_iff :
    setFlags completed = Finset.range completed.length ↔ ∀ done ∈ completed, done = true := by
  rw [setFlags, Finset.filter_eq_self, List.forall_mem_iff_getElem]
  refine forall_congr' fun i ↦ ?_
  rw [Finset.mem_range]
  refine forall_congr' fun hi ↦ ?_
  rw [List.getElem?_eq_getElem hi, Option.some_inj]

end Flags

/-! ## Manifests of valid shape -/

section Shape

variable {m : Manifest} (hshape : m.validateShape = .ok ())

include hshape

theorem length_chunks_le_maxManifestChunks : m.chunks.length ≤ maxManifestChunks := by
  obtain ⟨-, hlength, hcount⟩ := Manifest.validateShape_eq_ok_iff.mp hshape
  rw [Nat.ceilDiv_eq_add_pred_div, chunkSize] at hcount
  rw [maxContentLength] at hlength
  rw [maxManifestChunks]
  omega

theorem length_chunks_lt : m.chunks.length < 2 ^ 32 :=
  (length_chunks_le_maxManifestChunks hshape).trans_lt (by decide)

/-- Every slot starts inside the file. -/
theorem offset_lt_length {i : ℕ} (hi : i < m.chunks.length) :
    i * chunkSize < m.length.toNat := by
  obtain ⟨-, -, hcount⟩ := Manifest.validateShape_eq_ok_iff.mp hshape
  rw [Nat.ceilDiv_eq_add_pred_div, chunkSize] at hcount
  rw [chunkSize]
  omega

theorem expectedChunkLength_eq_ok {index : UInt32} (hi : index.toNat < m.chunks.length) :
    expectedChunkLength m index =
      .ok (min (m.length.toNat - index.toNat * chunkSize) chunkSize) := by
  obtain ⟨hsize, hlength, -⟩ := Manifest.validateShape_eq_ok_iff.mp hshape
  have hoffset := offset_lt_length hshape hi
  have hfit : maxContentLength < 2 ^ 64 := by decide
  rw [expectedChunkLength, if_neg (not_le.mpr hi), hsize]
  simp only
  rw [if_neg (by omega), if_neg (by omega)]

/-! ## The bytes of the file -/

omit hshape in
theorem card_byteRange (m : Manifest) (i : ℕ) :
    (byteRange m i).card = min (m.length.toNat - i * chunkSize) chunkSize := by
  rw [byteRange, Nat.card_Ico, Nat.succ_mul]
  omega

theorem card_byteRange_pos {i : ℕ} (hi : i < m.chunks.length) : 0 < (byteRange m i).card := by
  have hoffset := offset_lt_length hshape hi
  have hpos : 0 < chunkSize := by decide
  rw [card_byteRange]
  omega

omit hshape in
/-- The first ranges follow one another from the start of the file. -/
theorem sum_card_byteRange (m : Manifest) (k : ℕ) :
    ∑ i ∈ Finset.range k, (byteRange m i).card = min (k * chunkSize) m.length.toNat := by
  induction k with
  | zero => simp
  | succ k ih =>
    rw [Finset.sum_range_succ, ih, card_byteRange, Nat.succ_mul]
    omega

/-- The ranges of all chunks make up the file. -/
theorem sum_card_byteRange_chunks :
    ∑ i ∈ Finset.range m.chunks.length, (byteRange m i).card = m.length.toNat := by
  obtain ⟨-, -, hcount⟩ := Manifest.validateShape_eq_ok_iff.mp hshape
  rw [Nat.ceilDiv_eq_add_pred_div, chunkSize] at hcount
  rw [sum_card_byteRange, chunkSize]
  omega

theorem sum_card_byteRange_le {s : Finset ℕ} (hs : s ⊆ Finset.range m.chunks.length) :
    ∑ i ∈ s, (byteRange m i).card ≤ m.length.toNat := by
  rw [← sum_card_byteRange_chunks hshape]
  exact Finset.sum_le_sum_of_subset hs

/-- Some chunks have as many bytes as the file only if they are all of them. -/
theorem sum_card_byteRange_eq_iff {s : Finset ℕ} (hs : s ⊆ Finset.range m.chunks.length) :
    ∑ i ∈ s, (byteRange m i).card = m.length.toNat ↔ s = Finset.range m.chunks.length := by
  constructor
  · intro hsum
    by_contra hne
    obtain ⟨i, hi, hmissing⟩ := Finset.exists_of_ssubset (hs.ssubset_of_ne hne)
    have hlt : ∑ i ∈ s, (byteRange m i).card <
        ∑ i ∈ Finset.range m.chunks.length, (byteRange m i).card :=
      Finset.sum_lt_sum_of_subset hs hi hmissing
        (card_byteRange_pos hshape (Finset.mem_range.mp hi)) fun j _ _ ↦ Nat.zero_le _
    rw [sum_card_byteRange_chunks hshape] at hlt
    omega
  · rintro rfl
    exact sum_card_byteRange_chunks hshape

/-! ## Progress -/

/-- A set flag adds the range of its chunk. The sum is that of ranges of the file, so it does not
saturate. -/
theorem countVerified_true {verified : ℕ × ℕ} {i : ℕ} (hi : i < m.chunks.length)
    (hsum : verified.1 + (byteRange m i).card ≤ m.length.toNat) :
    countVerified m verified (true, i) =
      .ok (verified.1 + (byteRange m i).card, verified.2 + 1) := by
  have hi32 : i < 2 ^ 32 := hi.trans (length_chunks_lt hshape)
  have hindex : (UInt32.ofNat i).toNat = i := UInt32.toNat_ofNat_of_lt' hi32
  have hfit := m.length.toNat_lt
  rw [countVerified, if_pos rfl, if_pos hi32,
    expectedChunkLength_eq_ok hshape (by rw [hindex]; exact hi), hindex, ← card_byteRange]
  change Except.ok _ = _
  rw [min_eq_left (by omega)]

/-- The loop over the flags of the first chunks. -/
theorem foldlM_countVerified {completed : List Bool}
    (hlength : completed.length ≤ m.chunks.length) :
    completed.zipIdx.foldlM (countVerified m) (0, 0) =
      .ok (∑ i ∈ setFlags completed, (byteRange m i).card, completed.count true) := by
  induction completed using List.reverseRecOn with
  | nil => rfl
  | append_singleton completed done ih =>
    rw [List.length_append, List.length_singleton] at hlength
    rw [List.zipIdx_append, List.foldlM_append, ih (by omega), List.count_append, zero_add,
      List.zipIdx_singleton]
    change countVerified m _ (done, completed.length) >>= pure = _
    rw [bind_pure]
    cases done with
    | false => rw [setFlags_concat_false]; rfl
    | true =>
      have hsum := sum_card_byteRange_le hshape
        ((setFlags_subset (completed ++ [true])).trans
          (Finset.range_subset_range.mpr (by simpa using hlength)))
      rw [setFlags_concat_true, Finset.sum_insert (length_notMem_setFlags completed),
        add_comm] at hsum
      rw [countVerified_true hshape (by omega) hsum, setFlags_concat_true,
        Finset.sum_insert (length_notMem_setFlags completed), add_comm]
      rfl

theorem reportVerifiedProgress_eq_ok {completed : List Bool}
    (hlength : completed.length = m.chunks.length) (providerCount retryCount rejectedChunks : ℕ) :
    reportVerifiedProgress m completed providerCount retryCount rejectedChunks =
      .ok
        { bytesTotal := m.length.toNat
          verifiedBytes := ∑ i ∈ setFlags completed, (byteRange m i).card
          totalChunks := m.chunks.length
          verifiedChunks := completed.count true
          providerCount := providerCount
          retryCount := retryCount
          rejectedChunks := rejectedChunks } := by
  rw [reportVerifiedProgress, foldlM_countVerified hshape hlength.le]
  rfl

theorem exists_reportVerifiedProgress_eq_ok {completed : List Bool}
    (hlength : completed.length = m.chunks.length) (providerCount retryCount rejectedChunks : ℕ) :
    ∃ progress, reportVerifiedProgress m completed providerCount retryCount rejectedChunks =
      .ok progress :=
  ⟨_, reportVerifiedProgress_eq_ok hshape hlength _ _ _⟩

/-- **Verified progress is exact.** The report counts the flags that are set and the bytes in the
ranges of their chunks. These are at most the bytes of the file, and all of them exactly when every
flag is set; setting one more flag adds to them. -/
theorem verified_progress_exact {completed : List Bool}
    (hlength : completed.length = m.chunks.length) (providerCount retryCount rejectedChunks : ℕ) :
    ∃ progress,
      reportVerifiedProgress m completed providerCount retryCount rejectedChunks =
        .ok progress ∧
      progress.bytesTotal = m.length.toNat ∧
      progress.verifiedChunks = completed.count true ∧
      progress.verifiedBytes = ∑ i ∈ setFlags completed, (byteRange m i).card ∧
      progress.verifiedBytes ≤ progress.bytesTotal ∧
      (progress.verifiedBytes = progress.bytesTotal ↔ ∀ done ∈ completed, done = true) ∧
      ∀ i : ℕ, completed[i]? = some false →
        ∃ further,
          reportVerifiedProgress m (completed.set i true) providerCount retryCount rejectedChunks =
            .ok further ∧
          progress.verifiedBytes < further.verifiedBytes := by
  have hsubset : setFlags completed ⊆ Finset.range m.chunks.length :=
    hlength ▸ setFlags_subset completed
  refine ⟨_, reportVerifiedProgress_eq_ok hshape hlength _ _ _, rfl, rfl, rfl,
    sum_card_byteRange_le hshape hsubset, ?_, fun i hi ↦ ?_⟩
  · rw [← setFlags_eq_range_iff, hlength]
    exact sum_card_byteRange_eq_iff hshape hsubset
  · have hlt : i < m.chunks.length := hlength ▸ (List.getElem?_eq_some_iff.mp hi).1
    refine ⟨_, reportVerifiedProgress_eq_ok hshape (List.length_set.trans hlength) _ _ _, ?_⟩
    dsimp only
    rw [setFlags_set hi, Finset.sum_insert (notMem_setFlags hi)]
    have := card_byteRange_pos hshape hlt
    omega

end Shape

open Vectors in
theorem verified_progress_exact_payload :
    payloadManifest.validateShape = .ok () ∧
      ∃ progress further, reportVerifiedProgress payloadManifest [false] 2 0 0 = .ok progress ∧
        reportVerifiedProgress payloadManifest [true] 2 0 0 = .ok further ∧
        progress.verifiedBytes < further.verifiedBytes := by
  have hshape : payloadManifest.validateShape = .ok () := by decide +kernel
  have hlength : [false].length = payloadManifest.chunks.length := rfl
  obtain ⟨progress, hprogress, -, -, -, -, -, hset⟩ :=
    verified_progress_exact hshape hlength 2 0 0
  obtain ⟨further, hfurther, hlt⟩ := hset 0 rfl
  exact ⟨hshape, progress, further, hprogress, hfurther, hlt⟩

/-! ## Chunks and their slots -/

/-- A chunk cut from a file has the length of its slot. -/
theorem expectedChunkLength_ofSlice {blake3 : List UInt8 → Digest} {bytes : List UInt8}
    {m : Manifest} {chunks : List Chunk}
    (h : Manifest.fromBytes blake3 bytes = .ok (m, chunks)) {i : ℕ} (hi : i < m.chunks.length) :
    expectedChunkLength m (Chunk.ofSlice blake3 bytes i).index =
      .ok (Chunk.ofSlice blake3 bytes i).data.length := by
  have hindex := Manifest.index_ofSlice h hi
  rw [expectedChunkLength_eq_ok (Manifest.validateShape_of_fromBytes h) (by rw [hindex]; exact hi),
    hindex, Manifest.length_of_fromBytes h, Chunk.ofSlice, Codec.length_slice, min_comm]

/-- **The chunking round trip.** Content up to the length limit is cut into chunks that fill their
slots one after the other, are verified by the manifest and reconstruct the content; longer content
is refused. -/
theorem chunking_round_trip (blake3 : List UInt8 → Digest) (bytes : List UInt8) :
    (bytes.length ≤ maxContentLength →
      ∃ m chunks, Manifest.fromBytes blake3 bytes = .ok (m, chunks) ∧
        m.validateShape = .ok () ∧
        (∀ (i : ℕ) (chunk : Chunk), chunks[i]? = some chunk →
          chunk.index.toNat = i ∧
          expectedChunkLength m chunk.index = .ok chunk.data.length ∧
          m.verifyChunk blake3 chunk = .ok ()) ∧
        m.reconstruct blake3 chunks = .ok bytes) ∧
    (maxContentLength < bytes.length →
      Manifest.fromBytes blake3 bytes = .error .contentTooLarge) := by
  refine ⟨fun hle ↦ ?_, fun hlarge ↦ if_pos hlarge⟩
  obtain ⟨⟨m, chunks⟩, hbuilt⟩ : ∃ built, Manifest.fromBytes blake3 bytes = .ok built :=
    ⟨(_, _), Manifest.fromBytes_eq_ok_iff.mpr ⟨hle, rfl, rfl⟩⟩
  refine ⟨m, chunks, hbuilt, Manifest.validateShape_of_fromBytes hbuilt, fun i chunk hi ↦ ?_,
    (Manifest.reconstruct_eq_ok_iff hbuilt).mpr ⟨rfl, rfl, rfl, rfl⟩⟩
  have hcount : chunks.length = m.chunks.length := by
    rw [(Manifest.eq_of_fromBytes hbuilt).2.2, List.length_map]
  have hlt : i < m.chunks.length := hcount ▸ (List.getElem?_eq_some_iff.mp hi).1
  obtain rfl : Chunk.ofSlice blake3 bytes i = chunk :=
    Option.some.inj ((Manifest.getElem?_of_fromBytes hbuilt hlt).symm.trans hi)
  exact ⟨Manifest.index_ofSlice hbuilt hlt, expectedChunkLength_ofSlice hbuilt hlt,
    Manifest.verifyChunk_ofSlice hbuilt hlt⟩

end TripTorrent

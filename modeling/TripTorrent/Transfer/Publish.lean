import TripTorrent.Transfer.Crash
import TripTorrent.Transfer.Writes

/-!
# From the partial file to the output

`finish` hashes the partial file piece by piece and moves it to the output if length and digest are
those asked for. With a manifest built from known content the partial file of a completed download
is that content, in whatever order and in however many sessions its chunks were written.
-/

namespace TripTorrent

open Storage

/-- Hashing piece by piece is hashing the whole, and reading a file returns its bytes. -/
structure Runtime.Hashes (rt : Runtime) : Prop where
  finalize_foldl : ∀ pieces : List (List UInt8),
    rt.finalize (pieces.foldl rt.update rt.new) = rt.blake3 pieces.flatten
  flatten_reads : ∀ bytes, (rt.reads bytes).flatten = bytes

section Publishing

variable {rt : Runtime} {fails : Bool} {output : String} {m : Manifest} {completed : List Bool}
  {bytes content : List UInt8} {d : Disk String} {contentId : ContentId} {chunks : List Chunk}

/-- The loop of `finish`, from any hasher and count: the count stops at its largest value. -/
theorem foldl_update (pieces : List (List UInt8)) (hasher : rt.Hasher) (total : ℕ) :
    pieces.foldl
        (fun (hasher, total) piece ↦
          (rt.update hasher piece, min (total + piece.length) (2 ^ 64 - 1)))
        (hasher, min total (2 ^ 64 - 1)) =
      (pieces.foldl rt.update hasher, min (total + pieces.flatten.length) (2 ^ 64 - 1)) := by
  induction pieces generalizing hasher total with
  | nil => rfl
  | cons piece pieces ih =>
    have hcount : min (min total (2 ^ 64 - 1) + piece.length) (2 ^ 64 - 1) =
        min (total + piece.length) (2 ^ 64 - 1) := by omega
    rw [List.foldl_cons]
    simp only [hcount]
    rw [ih, List.foldl_cons, List.flatten_cons, List.length_append, Nat.add_assoc]

/-- What `finish` accepts, in terms of the whole file. -/
theorem accepted_iff (hhashes : rt.Hashes) (hshape : m.validateShape = .ok ()) :
    Accepted rt m contentId bytes ↔
      bytes.length = m.length.toNat ∧ rt.blake3 bytes = contentId.bytes := by
  obtain ⟨-, hmax, -⟩ := Manifest.validateShape_eq_ok_iff.mp hshape
  have hsmall : m.length.toNat < 2 ^ 64 - 1 := hmax.trans_lt (by decide)
  have hloop : ResumeDownload.hashReads rt (rt.reads bytes) =
      ((rt.reads bytes).foldl rt.update rt.new, min bytes.length (2 ^ 64 - 1)) := by
    have h := foldl_update (rt.reads bytes) rt.new 0
    rw [hhashes.flatten_reads, Nat.zero_add] at h
    exact h
  rw [Accepted, hloop, hhashes.finalize_foldl, hhashes.flatten_reads]
  refine and_congr_left fun _ ↦ ?_
  omega

/-- Under a manifest of known content only its own chunks verify. -/
theorem eq_slice_of_verifyChunk {S : Set (List UInt8)} {chunk : Chunk}
    (hm : Manifest.fromBytes rt.blake3 content = .ok (m, chunks)) (hinj : Set.InjOn rt.blake3 S)
    (hslices : ∀ i < m.chunks.length, Codec.slice chunkSize content i ∈ S) (hdata : chunk.data ∈ S)
    (hverify : m.verifyChunk rt.blake3 chunk = .ok ()) :
    chunk.data = Codec.slice chunkSize content chunk.index.toNat := by
  have hindex := lt_of_verifyChunk hverify
  obtain ⟨hid, hdigest⟩ := Manifest.verifyChunk_eq_ok_iff.mp hverify
  obtain ⟨hown, -⟩ := Manifest.verifyChunk_eq_ok_iff.mp (Manifest.verifyChunk_ofSlice hm hindex)
  rw [Manifest.index_ofSlice hm hindex, hid, ← hdigest] at hown
  exact hinj hdata (hslices _ hindex) (ChunkId.mk.inj (Option.some.inj hown))

/-- A completed partial file is the content. -/
theorem Matches.eq_content (hm : Manifest.fromBytes rt.blake3 content = .ok (m, chunks))
    (h : Matches m content completed bytes)
    (hall : ∀ i < m.chunks.length, completed[i]? = some true) : bytes = content := by
  have hlength : bytes.length = content.length := by
    rw [h.length_bytes, Manifest.length_of_fromBytes hm]
  -- every position of the file lies in some slot, and every slot is recorded
  refine eq_of_slices (n := chunkSize) (by decide) hlength fun i hi ↦ ?_
  refine h.holds i (hall i ?_)
  rw [Manifest.length_chunks_of_fromBytes hm, ← hlength]
  by_contra hge
  have hle := (ceilDiv_le_iff_le_mul (by decide : 0 < chunkSize)).mp (not_lt.mp hge)
  rw [mul_comm] at hle
  exact absurd hi (not_lt.mpr hle)

/-- The session of a completed run holds the content, and `finish` publishes it. -/
theorem publishes_content {S : Set (List UInt8)} {resume : ResumeDownload} (hhashes : rt.Hashes)
    (hm : Manifest.fromBytes rt.blake3 content = .ok (m, chunks)) (hcodes : rt.Codes m)
    (hinj : Set.InjOn rt.blake3 S)
    (hslices : ∀ i < m.chunks.length, Codec.slice chunkSize content i ∈ S)
    (hreach : Reach rt output m {chunk | chunk.data ∈ S} d (some resume))
    (hall : ∀ i < m.chunks.length, resume.record.completed[i]? = some true) :
    d (partPath output) = some content ∧
      (resume.finish rt false output m.contentId).result d = .ok () ∧
      (resume.finish rt false output m.contentId).final d output = some content := by
  have hshape := Manifest.validateShape_of_fromBytes hm
  have haccepts : ∀ chunk ∈ {chunk | chunk.data ∈ S}, m.verifyChunk rt.blake3 chunk = .ok () →
      Accepts (Matches m content) chunk := by
    intro chunk hdata hverify
    exact accepts_matches hm (lt_of_verifyChunk hverify)
      (eq_slice_of_verifyChunk hm hinj hslices hdata hverify)
  obtain ⟨completed, rfl, encoded, bytes, hstate, hpart, -, hmatches⟩ :=
    (hreach.intact hshape hcodes (meaning_matches hm) haccepts).current resume rfl
  obtain rfl := hmatches.eq_content hm hall
  have haccepted : Accepted rt m m.contentId bytes := by
    refine (accepted_iff hhashes hshape).mpr ⟨hmatches.length_bytes, ?_⟩
    obtain ⟨-, -, rfl⟩ := Manifest.fromBytes_eq_ok_iff.mp hm
    rfl
  have hfinish : ((ResumeDownload.of output m completed).finish rt false output m.contentId).Meets d
      (fun _ ↦ True) fun outcome d' ↦ outcome = .ok () ∧ d' output = some bytes := by
    apply meets_finish hpart haccepted trivial (fun _ ↦ trivial) trivial trivial
    · intro _
      rw [Function.update_of_ne (statePath_ne_output output).symm]
      exact ⟨rfl, Function.update_self ..⟩
    · intro hnone
      rw [hstate] at hnone
      cases hnone
    · rintro ⟨⟩
  exact ⟨hpart, hfinish.2⟩

/-- Whatever the manifest and the partial file, the output is replaced only by bytes of the digest
asked for. -/
theorem publishes_or_keeps (hhashes : rt.Hashes) (hshape : m.validateShape = .ok ()) :
    (∃ bytes,
        ((ResumeDownload.of output m completed).finish rt fails output contentId).final d output =
          some bytes ∧
        rt.blake3 bytes = contentId.bytes ∧ bytes.length = m.length.toNat) ∨
      ((ResumeDownload.of output m completed).finish rt fails output contentId).final d output =
          d output ∧
        ((ResumeDownload.of output m completed).finish rt fails output contentId).result d ≠
          .ok () := by
  have hmeets : ((ResumeDownload.of output m completed).finish rt fails output contentId).Meets d
      (fun _ ↦ True) fun outcome d' ↦
        (∃ bytes, d' output = some bytes ∧ rt.blake3 bytes = contentId.bytes ∧
          bytes.length = m.length.toNat) ∨ d' output = d output ∧ outcome ≠ .ok () := by
    rcases hpart : d (partPath output) with _ | bytes
    · have hmissing : (ResumeDownload.of output m completed).finish rt fails output contentId d =
          ([], .error .io) := by
        rw [ResumeDownload.finish, Script.look_bind, ResumeDownload.partPath_of, hpart]
        rfl
      exact Script.meets_of_eq hmissing trivial (.inr ⟨rfl, by simp⟩)
    · by_cases haccepted : Accepted rt m contentId bytes
      · obtain ⟨hlength, hdigest⟩ := (accepted_iff hhashes hshape).mp haccepted
        apply meets_finish hpart haccepted trivial (fun _ ↦ trivial) trivial trivial
        · intro _
          rw [Function.update_of_ne (statePath_ne_output output).symm]
          exact .inl ⟨bytes, Function.update_self .., hdigest, hlength⟩
        · intro _
          exact .inl ⟨bytes, Function.update_self .., hdigest, hlength⟩
        · intro _ _
          exact .inr ⟨rfl, by simp⟩
      · exact Script.meets_of_eq (finish_of_not_accepted hpart haccepted) trivial
          (.inr ⟨rfl, by simp⟩)
  exact hmeets.2

/-- **Content correctness.** A download of known content in any number of sessions ends with just
that content at the output, and no download whatsoever puts anything there but bytes of the digest
and length asked for. -/
theorem download_content_correct (hhashes : rt.Hashes) :
    (∀ {content m chunks output d resume} {S : Set (List UInt8)},
        Manifest.fromBytes rt.blake3 content = .ok (m, chunks) → rt.Codes m →
        Set.InjOn rt.blake3 S → (∀ i < m.chunks.length, Codec.slice chunkSize content i ∈ S) →
        Reach rt output m {chunk | chunk.data ∈ S} d (some resume) →
        (∀ i < m.chunks.length, resume.record.completed[i]? = some true) →
        d (partPath output) = some content ∧
          (resume.finish rt false output m.contentId).result d = .ok () ∧
          (resume.finish rt false output m.contentId).final d output = some content) ∧
      ∀ {m output d completed contentId fails}, m.validateShape = .ok () →
        (∃ bytes,
            ((ResumeDownload.of output m completed).finish rt fails output contentId).final d
              output = some bytes ∧
            rt.blake3 bytes = contentId.bytes ∧ bytes.length = m.length.toNat) ∨
          ((ResumeDownload.of output m completed).finish rt fails output contentId).final d output =
              d output ∧
            ((ResumeDownload.of output m completed).finish rt fails output contentId).result d ≠
              .ok () :=
  ⟨fun hm hcodes hinj hslices hreach hall ↦
      publishes_content hhashes hm hcodes hinj hslices hreach hall,
    fun hshape ↦ publishes_or_keeps hhashes hshape⟩

end Publishing

namespace Vectors

theorem hashes_runtimeOf (blake3 : List UInt8 → Digest) (m : Manifest) :
    (runtimeOf blake3 m).Hashes := by
  have hjoin : ∀ (pieces : List (List UInt8)) (seen : List UInt8),
      pieces.foldl List.append seen = seen ++ pieces.flatten := by
    intro pieces
    induction pieces with
    | nil => simp
    | cons piece pieces ih =>
      intro seen
      rw [List.foldl_cons, ih, List.flatten_cons]
      exact List.append_assoc ..
  exact ⟨fun pieces ↦ congrArg blake3 (hjoin pieces []), Codec.flatten_slices (by decide)⟩

theorem openAt_emptyDisk :
    (ResumeDownload.openAt payloadRuntime false payloadPath payloadManifest).result emptyDisk =
      .ok (payloadSession, 0) := by
  decide +kernel

theorem writeVerifiedChunk_payloadChunk :
    (payloadSession.writeVerifiedChunk payloadRuntime false payloadManifest payloadChunk).result
        ((ResumeDownload.openAt payloadRuntime false payloadPath payloadManifest).final emptyDisk) =
      .ok (.of payloadPath payloadManifest [true]) := by
  decide +kernel

theorem reach_payloadDisk {S : Set (List UInt8)} (hS : payload ∈ S) :
    Reach payloadRuntime payloadPath payloadManifest {chunk | chunk.data ∈ S} payloadDisk
      (some (.of payloadPath payloadManifest [true])) :=
  .wrote (.opened (.start rfl rfl) openAt_emptyDisk) hS writeVerifiedChunk_payloadChunk

end Vectors

open Vectors in
theorem download_content_correct_payload :
    payloadDisk (partPath payloadPath) = some payload ∧
      ((ResumeDownload.of payloadPath payloadManifest [true]).finish payloadRuntime false
        payloadPath payloadManifest.contentId).result payloadDisk = .ok () ∧
      ((ResumeDownload.of payloadPath payloadManifest [true]).finish payloadRuntime false
        payloadPath payloadManifest.contentId).final payloadDisk payloadPath = some payload := by
  have hm : Manifest.fromBytes payloadRuntime.blake3 payload =
      .ok (payloadManifest, [payloadChunk]) := by decide +kernel
  refine (download_content_correct (hashes_runtimeOf payloadHash payloadManifest)).1 hm
    codes_payloadRuntime (Set.injOn_singleton _ payload) ?_ (reach_payloadDisk rfl) ?_
  · intro i hi
    obtain rfl : i = 0 := Nat.lt_one_iff.mp hi
    exact (by decide +kernel : Codec.slice chunkSize payload 0 = payload)
  · intro i hi
    obtain rfl : i = 0 := Nat.lt_one_iff.mp hi
    rfl

end TripTorrent

import TripTorrent.Transfer.Recovery

/-!
# Verified writes under a manifest nobody vouches for

A manifest of valid shape fixes the length of the file and the digest of each slot, but the digest
need not be that of data of the slot's length. `write_verified_chunk` compares digests only: data
that is too short or too long for its slot is written and recorded all the same. The next `open`
reads whole slots, so it accepts what was written exactly when every chunk filled its slot.
-/

namespace TripTorrent

open Storage

/-- Successful calls of `write_verified_chunk`, one after another. -/
inductive Writes (rt : Runtime) (m : Manifest) :
    Disk String → ResumeDownload → List Chunk → Disk String → ResumeDownload → Prop
  | nil (d : Disk String) (resume : ResumeDownload) : Writes rt m d resume [] d resume
  | cons {d d' : Disk String} {resume next resume' : ResumeDownload} {fails : Bool} {chunk : Chunk}
    {chunks : List Chunk}
    (hok : (resume.writeVerifiedChunk rt fails m chunk).result d = .ok next)
    (hrest : Writes rt m ((resume.writeVerifiedChunk rt fails m chunk).final d) next chunks d'
      resume') :
    Writes rt m d resume (chunk :: chunks) d' resume'

section Sound

variable {rt : Runtime} {fails : Bool} {output : String} {m : Manifest} {completed : List Bool}
  {d d' : Disk String} {resume resume' : ResumeDownload} {chunk : Chunk} {chunks : List Chunk}

theorem meaning_sound (blake3 : List UInt8 → Digest) (m : Manifest) :
    Meaning blake3 m (Sound blake3 m) :=
  ⟨fun _ _ h ↦ h, recorded_fresh m _⟩

theorem lt_of_verifyChunk {blake3 : List UInt8 → Digest} (h : m.verifyChunk blake3 chunk = .ok ()) :
    chunk.index.toNat < m.chunks.length :=
  (List.getElem?_eq_some_iff.mp (Manifest.verifyChunk_eq_ok_iff.mp h).1).1

/-- A verified chunk that fills its slot may be written. -/
theorem accepts_sound {blake3 : List UInt8 → Digest} (hshape : m.validateShape = .ok ())
    (hlength : expectedChunkLength m chunk.index = .ok chunk.data.length)
    (hverify : m.verifyChunk blake3 chunk = .ok ()) : Accepts (Sound blake3 m) chunk := by
  refine accepts_recorded hshape (lt_of_verifyChunk hverify) hlength ?_
  obtain ⟨hid, hdigest⟩ := Manifest.verifyChunk_eq_ok_iff.mp hverify
  rw [hid, hdigest]

theorem verifyChunk_of_write (h : (resume.writeVerifiedChunk rt fails m chunk).result d =
    .ok resume') : m.verifyChunk rt.blake3 chunk = .ok () := by
  rw [ResumeDownload.writeVerifiedChunk] at h
  cases hverify : m.verifyChunk rt.blake3 chunk with
  | ok _ => rfl
  | error error =>
    rw [hverify] at h
    cases h

theorem Writes.verified (h : Writes rt m d resume chunks d' resume') :
    ∀ chunk ∈ chunks, m.verifyChunk rt.blake3 chunk = .ok () := by
  induction h with
  | nil d resume => simp
  | cons hok hrest ih =>
    intro chunk hchunk
    rcases List.mem_cons.mp hchunk with rfl | hchunk
    · exact verifyChunk_of_write hok
    · exact ih chunk hchunk

variable (hshape : m.validateShape = .ok ())

include hshape

/-- A disk that is opened was resumable, whoever wrote it. -/
theorem resumable_of_openAt {opened : ResumeDownload × ℕ}
    (h : (ResumeDownload.openAt rt fails output m).result d = .ok opened) :
    Resumable rt output m (Sound rt.blake3 m) d := by
  intro encoded bytes hstate hpart
  rw [Script.result, openAt_of_both hshape hstate hpart] at h
  cases hresumed : ResumeDownload.resumed rt m encoded bytes with
  | ok flags => exact ⟨flags, (ResumeDownload.resumed_eq_ok_iff hshape).mp hresumed⟩
  | error error =>
    rw [hresumed] at h
    cases h

/-- The flags an existing partial file is opened with are sound for it. -/
theorem sound_of_openAt {bytes : List UInt8} {count : ℕ} (hpart : d (partPath output) = some bytes)
    (h : (ResumeDownload.openAt rt fails output m).result d = .ok (.of output m completed, count)) :
    Sound rt.blake3 m completed bytes := by
  rw [Script.result] at h
  cases hstate : d (statePath output) with
  | none =>
    rw [openAt_of_one hshape (by simp [hpart, hstate])] at h
    cases h
  | some encoded =>
    rw [openAt_of_both hshape hstate hpart] at h
    cases hresumed : ResumeDownload.resumed rt m encoded bytes with
    | error error =>
      rw [hresumed] at h
      cases h
    | ok flags =>
      rw [hresumed] at h
      obtain ⟨hresume, -⟩ := Prod.mk.inj (Except.ok.inj h)
      obtain rfl : flags = completed := congrArg (fun resume ↦ resume.record.completed) hresume
      exact ((ResumeDownload.resumed_eq_ok_iff hshape).mp hresumed).2

/-- Writes that fill their slots keep a session sound and set their own flags. -/
theorem Writes.current (hcodes : rt.Codes m)
    (h : Writes rt m d (.of output m completed) chunks d' resume')
    (hfits : ∀ chunk ∈ chunks, expectedChunkLength m chunk.index = .ok chunk.data.length)
    (hd : Current rt output m (Sound rt.blake3 m) completed d) :
    ∃ flags, Current rt output m (Sound rt.blake3 m) flags d' ∧
      ∀ i, flags[i]? = some true ↔
        completed[i]? = some true ∨ ∃ chunk ∈ chunks, chunk.index.toNat = i := by
  generalize hresume : ResumeDownload.of output m completed = resume at h
  induction h generalizing completed with
  | nil d resume => exact ⟨completed, hd, fun i ↦ by simp⟩
  | @cons d d' resume next resume' fails chunk chunks hok hrest ih =>
    subst hresume
    have hverify := verifyChunk_of_write hok
    have hindex : chunk.index.toNat < completed.length := by
      obtain ⟨encoded, bytes, -, -, -, hsound⟩ := hd
      rw [hsound.length_completed]
      exact lt_of_verifyChunk hverify
    obtain ⟨rfl, hnext⟩ := (meets_writeVerifiedChunk_resumable hshape hcodes
      (meaning_sound rt.blake3 m).sound (accepts_sound hshape (hfits chunk List.mem_cons_self))
      hd).2 _ hok
    obtain ⟨flags, hcurrent, hflags⟩ :=
      ih (fun chunk hchunk ↦ hfits chunk (List.mem_cons_of_mem _ hchunk)) hnext rfl
    refine ⟨flags, hcurrent, fun i ↦ ?_⟩
    simp only [hflags, getElem?_set_true hindex, or_assoc, List.mem_cons, exists_eq_or_imp]

/-- **Resuming verified writes.** After an `open` and any successful writes, the partial file has
its length and is reopened with just the recorded chunks exactly when every chunk filled its
slot. -/
theorem reopen_after_writes_iff (hcodes : rt.Codes m) {d₀ : Disk String} {count : ℕ}
    (hopen : (ResumeDownload.openAt rt fails output m).result d₀ = .ok (resume, count))
    (hwrites : Writes rt m ((ResumeDownload.openAt rt fails output m).final d₀) resume chunks d
      resume')
    (hinj : Set.InjOn rt.blake3 ({data | ∃ chunk ∈ chunks, chunk.data = data} ∪
      {data | ∃ bytes, d (partPath output) = some bytes ∧
        ∃ i < m.chunks.length, Codec.slice chunkSize bytes i = data})) :
    ((∃ bytes, d (partPath output) = some bytes ∧ bytes.length = m.length.toNat) ∧
      ∃ flags, (ResumeDownload.openAt rt false output m).result d =
          .ok (.of output m flags, flags.count true) ∧
        ∀ i, flags[i]? = some true ↔
          resume.record.completed[i]? = some true ∨ ∃ chunk ∈ chunks, chunk.index.toNat = i) ↔
      ∀ chunk ∈ chunks, expectedChunkLength m chunk.index = .ok chunk.data.length := by
  constructor
  · rintro ⟨⟨bytes, hpart, hlength⟩, flags, hreopen, hflags⟩ chunk hchunk
    have hverify := hwrites.verified chunk hchunk
    have hindex := lt_of_verifyChunk hverify
    obtain ⟨hid, hdigest⟩ := Manifest.verifyChunk_eq_ok_iff.mp hverify
    have hsound := sound_of_openAt hshape hpart hreopen
    have hslot := hsound.holds _ ((hflags chunk.index.toNat).mpr (.inr ⟨chunk, hchunk, rfl⟩))
    -- the slot on disk has the digest of the data written to it, so it is that data
    have hsame : rt.blake3 (Codec.slice chunkSize bytes chunk.index.toNat) =
        rt.blake3 chunk.data := by
      rw [hid, ← hdigest] at hslot
      exact (ChunkId.mk.inj (Option.some.inj hslot)).symm
    have hdata := hinj (.inr ⟨bytes, hpart, _, hindex, rfl⟩) (.inl ⟨chunk, hchunk, rfl⟩) hsame
    rw [expectedChunkLength_eq_ok hshape hindex, ← hdata, Codec.length_slice, hlength, min_comm]
  · intro hfits
    obtain ⟨completed, rfl, hcurrent⟩ := (meets_openAt hshape hcodes (meaning_sound rt.blake3 m)
      (resumable_of_openAt hshape hopen)).2 _ _ hopen
    obtain ⟨flags, hfinal, hflags⟩ := hwrites.current hshape hcodes hfits hcurrent
    have hreopen : ResumeDownload.openAt rt false output m d =
        ([], .ok (.of output m flags, flags.count true)) :=
      hfinal.openAt hshape (meaning_sound rt.blake3 m).sound
    obtain ⟨encoded, bytes, -, hpart, -, hsound⟩ := hfinal
    refine ⟨⟨bytes, hpart, hsound.length_bytes⟩, flags, ?_, hflags⟩
    rw [Script.result, hreopen]

end Sound

/-! A manifest that gives its only slot, of 30 bytes, the digest of no bytes at all; and the
published file. -/

namespace Vectors

/-- BLAKE3 of the empty string. -/
def emptyDigest : Digest :=
  ⟨[175, 19, 73, 185, 245, 249, 161, 166, 160, 64, 77, 234, 54, 220, 201, 73, 155, 203, 37, 201,
     173, 193, 18, 183, 204, 154, 147, 202, 228, 31, 50, 98], rfl⟩

/-- BLAKE3 of 30 zero bytes. -/
def zerosDigest : Digest :=
  ⟨[57, 45, 137, 44, 112, 77, 129, 111, 49, 211, 235, 99, 233, 145, 6, 29, 76, 164, 70, 74, 233,
     193, 43, 117, 112, 193, 15, 17, 69, 174, 77, 140], rfl⟩

def hollowHash (bytes : List UInt8) : Digest :=
  if bytes = [] then emptyDigest
  else if bytes = List.replicate 30 0 then zerosDigest
  else List.Vector.replicate 32 0

def hollowManifest : Manifest := { payloadManifest with chunks := [⟨emptyDigest⟩] }

def hollowChunk : Chunk where
  index := 0
  id := ⟨emptyDigest⟩
  data := []

def hollowRuntime : Runtime := runtimeOf hollowHash hollowManifest

/-- The session of a first `open`. -/
def hollowSession : ResumeDownload := .of payloadPath hollowManifest [false]

/-- The disk after the empty chunk has been written. -/
def hollowDisk : Disk String :=
  (hollowSession.writeVerifiedChunk hollowRuntime false hollowManifest hollowChunk).final
    ((ResumeDownload.openAt hollowRuntime false payloadPath hollowManifest).final emptyDisk)

/-- The disk after the published file has been written. -/
def payloadDisk : Disk String :=
  (payloadSession.writeVerifiedChunk payloadRuntime false payloadManifest payloadChunk).final
    ((ResumeDownload.openAt payloadRuntime false payloadPath payloadManifest).final emptyDisk)

theorem payloadDisk_partPath : payloadDisk (partPath payloadPath) = some payload := by
  decide +kernel

end Vectors

open Vectors in
theorem reopen_refused_after_write :
    hollowManifest.validateShape = .ok () ∧ hollowChunk.data.length ≤ chunkSize ∧
      (ResumeDownload.openAt hollowRuntime false payloadPath hollowManifest).result emptyDisk =
        .ok (hollowSession, 0) ∧
      Writes hollowRuntime hollowManifest
        ((ResumeDownload.openAt hollowRuntime false payloadPath hollowManifest).final emptyDisk)
        hollowSession [hollowChunk] hollowDisk (.of payloadPath hollowManifest [true]) ∧
      (ResumeDownload.openAt hollowRuntime false payloadPath hollowManifest).result hollowDisk =
        .error (.corruptChunk 0) :=
  ⟨by decide +kernel, by decide, by decide +kernel, .cons (by decide +kernel) (.nil _ _),
    by decide +kernel⟩

open Vectors in
theorem reopen_after_writes_payload :
    (∃ bytes, payloadDisk (partPath payloadPath) = some bytes ∧
        bytes.length = payloadManifest.length.toNat) ∧
      ∃ flags, (ResumeDownload.openAt payloadRuntime false payloadPath payloadManifest).result
            payloadDisk = .ok (.of payloadPath payloadManifest flags, flags.count true) ∧
          ∀ i, flags[i]? = some true ↔ payloadSession.record.completed[i]? = some true ∨
            ∃ chunk ∈ [payloadChunk], chunk.index.toNat = i := by
  have hopen : (ResumeDownload.openAt payloadRuntime false payloadPath payloadManifest).result
      emptyDisk = .ok (payloadSession, 0) := by decide +kernel
  have hwrites : Writes payloadRuntime payloadManifest
      ((ResumeDownload.openAt payloadRuntime false payloadPath payloadManifest).final emptyDisk)
      payloadSession [payloadChunk] payloadDisk (.of payloadPath payloadManifest [true]) :=
    .cons (by decide +kernel) (.nil _ _)
  refine (reopen_after_writes_iff (by decide +kernel) codes_payloadRuntime hopen hwrites ?_).mpr
    (by decide +kernel)
  -- all data in question is the payload
  have hpayload : ∀ data, data ∈ ({data | ∃ chunk ∈ [payloadChunk], chunk.data = data} ∪
      {data | ∃ bytes, payloadDisk (partPath payloadPath) = some bytes ∧
        ∃ i < payloadManifest.chunks.length, Codec.slice chunkSize bytes i = data}) →
      data = payload := by
    rintro data (⟨chunk, hchunk, rfl⟩ | ⟨bytes, hpart, i, hi, rfl⟩)
    · rw [List.mem_singleton.mp hchunk]
      rfl
    · obtain rfl := Option.some.inj (payloadDisk_partPath.symm.trans hpart)
      obtain rfl : i = 0 := Nat.lt_one_iff.mp hi
      decide +kernel
  intro data hdata data' hdata' _
  rw [hpayload data hdata, hpayload data' hdata']

end TripTorrent

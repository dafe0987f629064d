import TripTorrent.Core.Chunking
import TripTorrent.Storage.Slots
import TripTorrent.Transfer.Layout

/-!
# Resumable downloads

A download writes into a partial file next to its output and records in a state file which chunks it
holds. The functions are scripts on a disk whose paths are strings; the opened partial file is
addressed by its path, as nothing else moves it while it is open.

What is third-party is collected in `Runtime`: the hash function, its incremental form, the
serializer of the state file, and the pieces in which the operating system returns a file's bytes.
A first rename may fail for reasons of its own; that it does is a parameter of each call.
-/

namespace TripTorrent

open Storage

structure ResumeRecord where
  version : UInt16
  manifest : Manifest
  completed : List Bool
deriving DecidableEq

structure ResumeDownload where
  partPath : String
  statePath : String
  record : ResumeRecord
deriving DecidableEq

inductive ResumeError where
  | malformedManifest (error : ContentError)
  | incompleteData
  | stateTooLarge
  | malformedState
  | differentManifest
  | invalidChunkCount
  | partialLength
  | indexOverflow
  | corruptChunk (index : ℕ)
  | contentVerification
  | content (error : ContentError)
  | layout (error : LayoutError)
  /-- A failed file operation. -/
  | io
deriving DecidableEq

/-- The text of an error; those of callees are passed on. -/
def ResumeError.message : ResumeError → Option String
  | .malformedManifest _ => some "refusing malformed transfer manifest"
  | .incompleteData =>
    some "resume data is incomplete; both partial file and state are required"
  | .stateTooLarge => some "resume state exceeds 40 MiB limit"
  | .malformedState => some "resume state is malformed or incompatible"
  | .differentManifest => some "resume state does not match the requested content manifest"
  | .invalidChunkCount => some "resume state has an invalid chunk count"
  | .partialLength => some "partial file length does not match the resume manifest"
  | .indexOverflow => some "resume chunk index overflow"
  | .corruptChunk index =>
    some ("resume chunk " ++ toString index ++ " failed integrity verification")
  | .contentVerification => some "completed partial file failed content-ID verification"
  | .content _ => none
  | .layout error => some error.message
  | .io => none

/-- `RESUME_VERSION` -/
def resumeVersion : UInt16 := 0

/-- `MAX_RESUME_STATE_BYTES` -/
def maxResumeStateBytes : ℕ := 40 * 1024 * 1024

/-- Code the downloads rest on. -/
structure Runtime where
  blake3 : List UInt8 → Digest
  /-- `postcard::to_allocvec` -/
  toAllocvec : ResumeRecord → List UInt8
  /-- `postcard::from_bytes` -/
  fromBytes : List UInt8 → Option ResumeRecord
  /-- `blake3::Hasher` -/
  Hasher : Type
  new : Hasher
  update : Hasher → List UInt8 → Hasher
  finalize : Hasher → Digest
  /-- What successive reads of a file return. -/
  reads : List UInt8 → List (List UInt8)

/-! ## Paths -/

def appendSuffix (path suffix : String) : String := path ++ suffix

def partPath (output : String) : String := appendSuffix output ".triptorrent-part"

def statePath (output : String) : String := appendSuffix output ".triptorrent-state"

/-- Where the state file is written before it is moved into place. -/
def temporaryPath (output : String) : String := appendSuffix (statePath output) ".tmp"

/-! ## The scripts -/

/-- `replace_file`, told whether its first rename fails. -/
def replaceFile (fails : Bool) (source destination : String) : Script String ResumeError Unit :=
  if fails then do
    let there ← Script.look fun d ↦ (d destination).isSome
    if there then do
      Script.perform (.remove destination)
      Script.perform (.rename source destination)
    else Script.fail .io
  else Script.perform (.rename source destination)

/-- `fs::remove_file` -/
def removeFile (path : String) : Script String ResumeError Unit := do
  let there ← Script.look fun d ↦ (d path).isSome
  if there then Script.perform (.remove path) else Script.fail .io

/-- The recorded chunk at a position is read back and verified. -/
def validateResumedChunk (blake3 : List UInt8 → Digest) (m : Manifest) (bytes : List UInt8)
    (flag : Bool × ℕ) : Except ResumeError Unit :=
  if !flag.1 then .ok ()
  else if 2 ^ 32 ≤ flag.2 then .error .indexOverflow
  else
    match expectedChunkLength m (.ofNat flag.2), m.chunks[flag.2]? with
    | .ok length, some id =>
      let offset := min (flag.2 * m.chunkSize.toNat) (2 ^ 64 - 1)
      let data := (bytes.drop offset).take length
      if data.length < length then .error .io
      else
        match m.verifyChunk blake3 { index := .ofNat flag.2, id, data } with
        | .ok () => .ok ()
        | .error _ => .error (.corruptChunk flag.2)
    | .error error, _ => .error (.layout error)
    | .ok _, none => .error .io

def validateResumedChunks (blake3 : List UInt8 → Digest) (m : Manifest) (bytes : List UInt8)
    (completed : List Bool) : Except ResumeError Unit :=
  completed.zipIdx.forM (validateResumedChunk blake3 m bytes)

namespace ResumeDownload

variable (rt : Runtime) (fails : Bool)

def saveState (resume : ResumeDownload) : Script String ResumeError Unit := do
  let temporary := appendSuffix resume.statePath ".tmp"
  Script.perform (.create temporary)
  Script.perform (.writeAt temporary 0 (rt.toAllocvec resume.record))
  replaceFile fails temporary resume.statePath

/-- The state and the partial file are read back and checked. -/
def resumed (m : Manifest) (encoded bytes : List UInt8) : Except ResumeError (List Bool) :=
  if maxResumeStateBytes < encoded.length then .error .stateTooLarge
  else
    match rt.fromBytes encoded with
    | none => .error .malformedState
    | some record =>
      if record.version ≠ resumeVersion ∨ record.manifest ≠ m then .error .differentManifest
      else if record.completed.length ≠ m.chunks.length then .error .invalidChunkCount
      else if bytes.length ≠ m.length.toNat then .error .partialLength
      else
        match validateResumedChunks rt.blake3 m bytes record.completed with
        | .ok () => .ok record.completed
        | .error error => .error error

/-- The download with given completion flags. -/
def of (output : String) (m : Manifest) (completed : List Bool) : ResumeDownload where
  partPath := TripTorrent.partPath output
  statePath := TripTorrent.statePath output
  record := { version := resumeVersion, manifest := m, completed }

@[simp] theorem partPath_of (output : String) (m : Manifest) (completed : List Bool) :
    (of output m completed).partPath = TripTorrent.partPath output := rfl

/-- `ResumeDownload::open`. It returns the download and the number of chunks resumed. -/
def openAt (output : String) (m : Manifest) :
    Script String ResumeError (ResumeDownload × ℕ) := do
  match m.validateShape with
  | .error error => Script.fail (.malformedManifest error)
  | .ok () =>
    let state ← Script.look fun d ↦ d (TripTorrent.statePath output)
    let part ← Script.look fun d ↦ d (TripTorrent.partPath output)
    match state, part with
    | some encoded, some bytes =>
      match resumed rt m encoded bytes with
      | .error error => Script.fail error
      | .ok completed => return (.of output m completed, completed.count true)
    | none, none =>
      Script.perform (.create (TripTorrent.partPath output))
      Script.perform (.setLen (TripTorrent.partPath output) m.length.toNat)
      let resume := of output m (List.replicate m.chunks.length false)
      resume.saveState rt fails
      return (resume, 0)
    | _, _ => Script.fail .incompleteData

def writeVerifiedChunk (resume : ResumeDownload) (m : Manifest) (chunk : Chunk) :
    Script String ResumeError ResumeDownload := do
  match m.verifyChunk rt.blake3 chunk with
  | .error error => Script.fail (.content error)
  | .ok () =>
    let offset := min (chunk.index.toNat * m.chunkSize.toNat) (2 ^ 64 - 1)
    Script.perform (.writeAt resume.partPath offset chunk.data)
    let resume := { resume with
      record := { resume.record with
        completed := resume.record.completed.set chunk.index.toNat true } }
    resume.saveState rt fails
    return resume

/-- The loop of `finish`: hash and count what is read. -/
def hashReads (pieces : List (List UInt8)) : rt.Hasher × ℕ :=
  pieces.foldl
    (fun (hasher, total) piece ↦
      (rt.update hasher piece, min (total + piece.length) (2 ^ 64 - 1)))
    (rt.new, 0)

def finish (resume : ResumeDownload) (output : String) (contentId : ContentId) :
    Script String ResumeError Unit := do
  let part ← Script.look fun d ↦ d resume.partPath
  match part with
  | none => Script.fail .io
  | some bytes =>
    let (hasher, total) := hashReads rt (rt.reads bytes)
    if total ≠ resume.record.manifest.length.toNat ∨ rt.finalize hasher ≠ contentId.bytes then
      Script.fail .contentVerification
    else do
      replaceFile fails resume.partPath output
      removeFile resume.statePath

end ResumeDownload

/-! ## The four paths -/

section Paths

variable (output : String)

theorem length_partPath : (partPath output).length = output.length + 17 :=
  String.length_append _ _

theorem length_statePath : (statePath output).length = output.length + 18 :=
  String.length_append _ _

theorem length_temporaryPath : (temporaryPath output).length = output.length + 22 := by
  rw [temporaryPath, appendSuffix, String.length_append, length_statePath]
  rfl

/-- Paths of different lengths are different. -/
theorem ne_of_length_ne {a b : String} (h : a.length ≠ b.length) : a ≠ b :=
  fun hab ↦ h (congrArg String.length hab)

theorem partPath_ne_statePath : partPath output ≠ statePath output :=
  ne_of_length_ne (by rw [length_partPath, length_statePath]; omega)

theorem partPath_ne_temporaryPath : partPath output ≠ temporaryPath output :=
  ne_of_length_ne (by rw [length_partPath, length_temporaryPath]; omega)

theorem statePath_ne_temporaryPath : statePath output ≠ temporaryPath output :=
  ne_of_length_ne (by rw [length_statePath, length_temporaryPath]; omega)

theorem partPath_ne_output : partPath output ≠ output :=
  ne_of_length_ne (by rw [length_partPath]; omega)

theorem statePath_ne_output : statePath output ≠ output :=
  ne_of_length_ne (by rw [length_statePath]; omega)

end Paths

/-! ## Reading the state back -/

/-- What the state file holds for given completion flags. -/
def recordOf (m : Manifest) (completed : List Bool) : ResumeRecord where
  version := resumeVersion
  manifest := m
  completed := completed

/-- The serializer on the records of one manifest: it is undone by the parser, and takes a byte for
a flag, 32 for an identifier and a bounded number for the rest. -/
structure Runtime.Codes (rt : Runtime) (m : Manifest) : Prop where
  fromBytes_toAllocvec : ∀ completed, completed.length = m.chunks.length →
    rt.fromBytes (rt.toAllocvec (recordOf m completed)) = some (recordOf m completed)
  length_toAllocvec_le : ∀ completed, completed.length = m.chunks.length →
    (rt.toAllocvec (recordOf m completed)).length ≤ 70 + 32 * m.chunks.length + completed.length

/-- The state file holds the given flags. -/
def Encodes (rt : Runtime) (m : Manifest) (completed : List Bool) (encoded : List UInt8) : Prop :=
  encoded.length ≤ maxResumeStateBytes ∧ rt.fromBytes encoded = some (recordOf m completed)

/-- The partial file has its full length, and something holds of every recorded slot of it. -/
structure Recorded (m : Manifest) (P : ℕ → List UInt8 → Prop) (completed : List Bool)
    (bytes : List UInt8) : Prop where
  length_completed : completed.length = m.chunks.length
  length_bytes : bytes.length = m.length.toNat
  holds : ∀ i : ℕ, completed[i]? = some true → P i (Codec.slice chunkSize bytes i)

/-- The recorded slots have the digests of the manifest. -/
def Sound (blake3 : List UInt8 → Digest) (m : Manifest) : List Bool → List UInt8 → Prop :=
  Recorded m fun i data ↦ m.chunks[i]? = some (ChunkId.digest blake3 data)

section Reading

variable {rt : Runtime} {blake3 : List UInt8 → Digest} {m : Manifest} {bytes encoded : List UInt8}
  {completed : List Bool} {i : ℕ}

theorem validateResumedChunk_eq_ok_iff (hshape : m.validateShape = .ok ())
    (hbytes : bytes.length = m.length.toNat) (hi : i < m.chunks.length) :
    validateResumedChunk blake3 m bytes (true, i) = .ok () ↔
      m.chunks[i]? = some (ChunkId.digest blake3 (Codec.slice chunkSize bytes i)) := by
  have hfit : i < 2 ^ 32 := hi.trans (length_chunks_lt hshape)
  have hindex : (UInt32.ofNat i).toNat = i := UInt32.toNat_ofNat_of_lt' hfit
  have hoffset := offset_lt_length hshape hi
  obtain ⟨hsize, hmax, -⟩ := Manifest.validateShape_eq_ok_iff.mp hshape
  have hsmall : m.length.toNat < 2 ^ 64 := hmax.trans_lt (by decide)
  have hlength : expectedChunkLength m (.ofNat i) =
      .ok (min (m.length.toNat - i * chunkSize) chunkSize) := by
    rw [expectedChunkLength_eq_ok hshape (by rw [hindex]; exact hi), hindex]
  have hdata : (bytes.drop (min (i * m.chunkSize.toNat) (2 ^ 64 - 1))).take
      (min (m.length.toNat - i * chunkSize) chunkSize) = Codec.slice chunkSize bytes i := by
    have hexact : min (i * chunkSize) (2 ^ 64 - 1) = i * chunkSize := min_eq_left (by omega)
    rw [hsize, hexact, Codec.slice, ← hbytes, List.take_eq_take_iff, List.length_drop]
    omega
  have hid := List.getElem?_eq_getElem hi
  rw [validateResumedChunk, if_neg (by simp), if_neg (not_le.mpr hfit)]
  simp only [hlength, hid, hdata]
  rw [if_neg (by rw [Codec.length_slice, hbytes]; omega)]
  cases hverify : m.verifyChunk blake3
      ⟨.ofNat i, m.chunks[i], Codec.slice chunkSize bytes i⟩ with
  | ok _ =>
    obtain ⟨-, hdigest⟩ := Manifest.verifyChunk_eq_ok_iff.mp hverify
    simp [hdigest]
  | error error =>
    have hnot : ¬ChunkId.digest blake3 (Codec.slice chunkSize bytes i) = m.chunks[i] := by
      intro hdigest
      rw [Manifest.verifyChunk_eq_ok_iff.mpr ⟨by rw [hindex]; exact hid, hdigest⟩] at hverify
      cases hverify
    simp [Ne.symm hnot]

/-- The flags of a state file are accepted exactly when they are sound. -/
theorem validateResumedChunks_eq_ok_iff (hshape : m.validateShape = .ok ())
    (hcompleted : completed.length = m.chunks.length) (hbytes : bytes.length = m.length.toNat) :
    validateResumedChunks blake3 m bytes completed = .ok () ↔
      Sound blake3 m completed bytes := by
  rw [validateResumedChunks, Outcome.forM_eq_ok_iff]
  constructor
  · intro h
    refine ⟨hcompleted, hbytes, fun i hi ↦ ?_⟩
    have hlt : i < m.chunks.length := hcompleted ▸ (List.getElem?_eq_some_iff.mp hi).1
    rw [← validateResumedChunk_eq_ok_iff hshape hbytes hlt]
    exact h (true, i) (List.mk_mem_zipIdx_iff_getElem?.mpr hi)
  · rintro h ⟨done, i⟩ hflag
    rw [List.mk_mem_zipIdx_iff_getElem?] at hflag
    cases done with
    | false => rfl
    | true =>
      have hlt : i < m.chunks.length := hcompleted ▸ (List.getElem?_eq_some_iff.mp hflag).1
      rw [validateResumedChunk_eq_ok_iff hshape hbytes hlt]
      exact h.holds i hflag

namespace ResumeDownload

/-- **What a state file is accepted for.** -/
theorem resumed_eq_ok_iff (hshape : m.validateShape = .ok ()) :
    resumed rt m encoded bytes = .ok completed ↔
      Encodes rt m completed encoded ∧ Sound rt.blake3 m completed bytes := by
  rw [resumed, Encodes, and_assoc]
  by_cases hlarge : maxResumeStateBytes < encoded.length
  · simp [hlarge]
  · rw [if_neg hlarge]
    cases hrecord : rt.fromBytes encoded with
    | none => simp
    | some record =>
      simp only [not_lt.mp hlarge, true_and, Option.some.injEq]
      obtain ⟨version, manifest, flags⟩ := record
      constructor
      · intro h
        simp only at h
        split_ifs at h with hrecord hcount hbytes
        push Not at hrecord hcount hbytes
        obtain ⟨rfl, rfl⟩ := hrecord
        cases hvalid : validateResumedChunks rt.blake3 manifest bytes flags with
        | error error => simp [hvalid] at h
        | ok _ =>
          obtain rfl : flags = completed := by simpa [hvalid] using h
          exact ⟨rfl, (validateResumedChunks_eq_ok_iff hshape hcount hbytes).mp hvalid⟩
      · rintro ⟨hrecord, hsound⟩
        obtain ⟨rfl, rfl, rfl⟩ := ResumeRecord.mk.inj hrecord
        have hvalid := (validateResumedChunks_eq_ok_iff hshape hsound.length_completed
          hsound.length_bytes).mpr hsound
        simp [hsound.length_completed, hsound.length_bytes, hvalid]

end ResumeDownload

/-- What `save_state` writes can be read back. -/
theorem encodes_toAllocvec (hshape : m.validateShape = .ok ()) (hcodes : rt.Codes m)
    (hlength : completed.length = m.chunks.length) :
    Encodes rt m completed (rt.toAllocvec (recordOf m completed)) := by
  refine ⟨?_, hcodes.fromBytes_toAllocvec completed hlength⟩
  have hle := hcodes.length_toAllocvec_le completed hlength
  have hcount := length_chunks_le_maxManifestChunks hshape
  rw [maxManifestChunks] at hcount
  rw [maxResumeStateBytes]
  omega

end Reading

/-! ## The runtime on the published file -/

namespace Vectors

/-- A variable-length integer of at most the given number of bytes. -/
def varint : ℕ → ℕ → List UInt8
  | 0, _ => []
  | bytes + 1, n =>
    if n < 128 then [.ofNat n] else .ofNat (n % 128 + 128) :: varint bytes (n / 128)

/-- The serialized record: integers of variable length, identifiers as they are, lists after their
length. -/
def recordBytes (record : ResumeRecord) : List UInt8 :=
  varint 3 record.version.toNat ++ record.manifest.contentId.bytes.toList ++
    varint 10 record.manifest.length.toNat ++ varint 5 record.manifest.chunkSize.toNat ++
    varint 10 record.manifest.chunks.length ++
    record.manifest.chunks.flatMap (fun id ↦ id.bytes.toList) ++
    varint 10 record.completed.length ++ record.completed.map fun done ↦ if done then 1 else 0

/-- The runtime of a download of one chunk, with the two records it can save. -/
def runtimeOf (blake3 : List UInt8 → Digest) (m : Manifest) : Runtime where
  blake3
  toAllocvec := recordBytes
  fromBytes := fun encoded ↦
    [recordOf m [false], recordOf m [true]].find? fun record ↦ recordBytes record = encoded
  Hasher := List UInt8
  new := []
  update := List.append
  finalize := blake3
  reads := Codec.slices chunkSize

def payloadRuntime : Runtime := runtimeOf payloadHash payloadManifest

def payloadPath : String := "payload.bin"

/-- The session of a first `open`. -/
def payloadSession : ResumeDownload := .of payloadPath payloadManifest [false]

def emptyDisk : Disk String := fun _ ↦ none

theorem codes_payloadRuntime : payloadRuntime.Codes payloadManifest := by
  have hflags : ∀ completed : List Bool, completed.length = payloadManifest.chunks.length →
      completed = [false] ∨ completed = [true] := by
    intro completed hlength
    obtain ⟨done, rfl⟩ := List.length_eq_one_iff.mp hlength
    cases done with
    | false => exact .inl rfl
    | true => exact .inr rfl
  constructor
  · intro completed hlength
    rcases hflags completed hlength with rfl | rfl
    · decide +kernel
    · decide +kernel
  · intro completed hlength
    rcases hflags completed hlength with rfl | rfl
    · decide +kernel
    · decide +kernel

end Vectors

end TripTorrent

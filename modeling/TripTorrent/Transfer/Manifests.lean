import TripTorrent.Protocol.Sizes
import TripTorrent.Swarm.Invariant
import TripTorrent.Transfer.Layout

/-!
# Manifests received from a provider

A manifest is checked when its record is decoded, again when the session is set up, again when the
scheduler is created, and its slots are computed from its fields for every request. These checks are
written separately, in four crates. The first of them implies the others, so a transfer that has
received its manifest does not fail on it later.
-/

namespace TripTorrent

inductive ManifestError where
  | differentContent
  | unsupportedChunkSize
  | inconsistentCount
  | malformedAvailability
deriving DecidableEq

def ManifestError.message : ManifestError → String
  | .differentContent => "provider returned a manifest for a different content ID"
  | .unsupportedChunkSize => "manifest uses an unsupported experimental chunk size"
  | .inconsistentCount => "manifest length and chunk count are inconsistent"
  | .malformedAvailability => "provider returned malformed piece availability"

/-- The receiver's check of the manifest that opens a session. -/
def validateSwarmManifest (m : Manifest) (availability : PieceAvailability)
    (contentId : ContentId) : Except ManifestError Unit :=
  if m.contentId ≠ contentId then .error .differentContent
  else if m.chunkSize.toNat ≠ chunkSize then .error .unsupportedChunkSize
  else if m.length.toNat ⌈/⌉ m.chunkSize.toNat ≠ m.chunks.length then .error .inconsistentCount
  -- `u32::try_from(len).unwrap_or(u32::MAX)`
  else if availability.chunkCount.toNat ≠ min m.chunks.length (2 ^ 32 - 1) ∨
      ¬availability.isValid then
    .error .malformedAvailability
  else .ok ()

section Decoded

variable {m : Manifest} {a : PieceAvailability} {record : List UInt8}

/-- What decoding has checked. -/
theorem checked_of_decode (h : decode record = .ok (.swarmManifest m a)) :
    m.validateShape = .ok () ∧ a.chunkCount.toNat = m.chunks.length ∧ a.isValid = true := by
  have hvalid := exists_encode_iff.mp ⟨record, decode_eq_ok_iff.mp h⟩
  obtain ⟨hshape, -, hcount, hbits⟩ := validateMessage_swarmManifest_eq_ok_iff.mp hvalid
  exact ⟨hshape, hcount, hbits⟩

theorem validateSwarmManifest_eq_ok (hshape : m.validateShape = .ok ())
    (hcount : a.chunkCount.toNat = m.chunks.length) (hbits : a.isValid = true) :
    validateSwarmManifest m a m.contentId = .ok () := by
  have hfit := length_chunks_lt hshape
  obtain ⟨hsize, -, hchunks⟩ := Manifest.validateShape_eq_ok_iff.mp hshape
  rw [validateSwarmManifest, if_neg (not_not.mpr rfl), if_neg (not_not.mpr hsize), hsize,
    if_neg (not_not.mpr hchunks), if_neg]
  rw [not_or, not_not, not_not]
  exact ⟨by omega, hbits⟩

/-- The slots of a manifest of valid shape are not empty. -/
theorem exists_expectedChunkLength_eq_ok (hshape : m.validateShape = .ok ()) {index : UInt32}
    (hindex : index.toNat < m.chunks.length) :
    ∃ n, expectedChunkLength m index = .ok n ∧ 1 ≤ n ∧ n ≤ chunkSize := by
  have hoffset := offset_lt_length hshape hindex
  refine ⟨_, expectedChunkLength_eq_ok hshape hindex, ?_, min_le_right ..⟩
  rw [chunkSize] at hoffset ⊢
  omega

theorem exists_new_eq_ok {availability : List PieceAvailability} {completed : List Bool}
    (hshape : m.validateShape = .ok ())
    (havailability : ∀ pieces ∈ availability,
      ∃ record, decode record = .ok (.swarmManifest m pieces))
    (hcompleted : completed.length = m.chunks.length) :
    ∃ s, Scheduler.new m.chunks.length availability completed = .ok s := by
  refine ⟨_, Scheduler.new_eq_ok_iff.mpr ⟨hcompleted, length_chunks_lt hshape, ?_, rfl⟩⟩
  intro pieces hpieces
  obtain ⟨record, hrecord⟩ := havailability pieces hpieces
  exact (checked_of_decode hrecord).2

/-- **A decoded manifest passes every later check.** For the manifest of a decoded record, the check
of the session and the check of its shape succeed; a scheduler can be created for any providers
whose records have that manifest and any flags of the right number; and every slot has between 1
byte and 32 KiB. Whatever the scheduler then hands out is such a slot. -/
theorem decoded_manifest_passes (h : decode record = .ok (.swarmManifest m a))
    (contentId : ContentId) (hid : m.contentId = contentId) :
    validateSwarmManifest m a contentId = .ok () ∧ m.validateShape = .ok () ∧
    (∀ (availability : List PieceAvailability) (completed : List Bool),
      (∀ pieces ∈ availability, ∃ record, decode record = .ok (.swarmManifest m pieces)) →
        completed.length = m.chunks.length →
        ∃ s, Scheduler.new m.chunks.length availability completed = .ok s ∧
          ∀ calls p index, ((s.run calls).assign p).1 = some index →
            ∃ n, expectedChunkLength m index = .ok n) ∧
    ∀ index : UInt32, index.toNat < m.chunks.length →
      ∃ n, expectedChunkLength m index = .ok n ∧ 1 ≤ n ∧ n ≤ chunkSize := by
  obtain ⟨hshape, hcount, hbits⟩ := checked_of_decode h
  refine ⟨hid ▸ validateSwarmManifest_eq_ok hshape hcount hbits, hshape, ?_,
    fun index hindex ↦ exists_expectedChunkLength_eq_ok hshape hindex⟩
  intro availability completed havailability hcompleted
  obtain ⟨s, hs⟩ := exists_new_eq_ok hshape havailability hcompleted
  refine ⟨s, hs, fun calls p index hassign ↦ ?_⟩
  obtain ⟨-, hlength, -⟩ := (Scheduler.consistent_new hs).run calls
  rw [(Scheduler.length_chunks_new hs).1] at hlength
  have hfit := length_chunks_lt hshape
  obtain ⟨hnone, -⟩ | ⟨state, index', -, -, -, hmissing, -, heq⟩ :=
    Scheduler.assign_cases_index (hlength.trans_le hfit.le) p
  · rw [hnone] at hassign
    cases hassign
  · rw [heq] at hassign
    obtain rfl := Option.some.inj hassign
    have hindex := (List.getElem?_eq_some_iff.mp hmissing).1
    rw [hlength] at hindex
    obtain ⟨n, hn, -⟩ := exists_expectedChunkLength_eq_ok hshape hindex
    exact ⟨n, hn⟩

end Decoded

open Vectors in
/-- The published manifest, from two providers. -/
theorem decoded_manifest_passes_vector :
    decode swarmManifestBytes = .ok swarmManifest ∧ ∃ m a, swarmManifest = .swarmManifest m a ∧
      validateSwarmManifest m a ⟨contentDigest⟩ = .ok () ∧
      (∃ s, Scheduler.new 1 [a, a] [false] = .ok s) ∧
      ∃ n, expectedChunkLength m 0 = .ok n ∧ 1 ≤ n ∧ n ≤ chunkSize := by
  have hdecode : decode swarmManifestBytes = .ok swarmManifest := by decide +kernel
  obtain ⟨hvalidate, -, hnew, hslot⟩ := decoded_manifest_passes hdecode ⟨contentDigest⟩ rfl
  refine ⟨hdecode, _, _, rfl, hvalidate, ?_, hslot 0 (by decide)⟩
  obtain ⟨s, hs, -⟩ := hnew [⟨1, [1]⟩, ⟨1, [1]⟩] [false] (by simpa using ⟨_, hdecode⟩) rfl
  exact ⟨s, hs⟩

end TripTorrent

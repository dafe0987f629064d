import Mathlib.Algebra.Order.BigOperators.Group.List
import TripTorrent.Protocol.RoundTrip

/-!
# Sizes of records

The codec checks the size of a record after it has been written, and the validators check counts and
lengths before. The two are independent in the source. Here the size of every record is computed
from the grammar, and it turns out that the validators leave nothing for the size check: a value is
encoded exactly when it is valid.

The tight case is a manifest with its bitfield. At 2036 chunks the record has 65493 bytes, 26 less
than the limit; the next chunk takes 32 more.
-/

namespace TripTorrent

open Codec (Emits beBytes length_beBytes utf8)
open Outcome (bind_eq_ok_iff)

/-! ## The parts of a record -/

@[simp] theorem length_headerImage (domain : UInt8) : (headerImage domain).length = 29 := by
  have hversion : beBytes 2 protocolVersion.toNat = [0, 1] := by decide
  have hnetwork : (utf8 networkId).length = 21 := by decide
  rw [headerImage, hversion]
  simp [wireMagic, hnetwork]

@[simp] theorem length_beBytes_u16 (n : UInt16) : (beBytes 2 n.toNat).length = 2 :=
  length_beBytes (Codec.UInt16.toNat_lt_pow n)

@[simp] theorem length_beBytes_u32 (n : UInt32) : (beBytes 4 n.toNat).length = 4 :=
  length_beBytes (Codec.UInt32.toNat_lt_pow n)

@[simp] theorem length_beBytes_u64 (n : UInt64) : (beBytes 8 n.toNat).length = 8 :=
  length_beBytes (Codec.UInt64.toNat_lt_pow n)

theorem length_stringImage {s : String} (h : (utf8 s).length < 2 ^ 16) :
    (stringImage s).length = 2 + (utf8 s).length := by
  rw [stringImage, List.length_append, length_beBytes (by omega)]

theorem length_bytesImage {value : List UInt8} (h : value.length < 2 ^ 32) :
    (bytesImage value).length = 4 + value.length := by
  rw [bytesImage, List.length_append, length_beBytes (by omega)]

/-- A list of parts of bounded size. -/
theorem length_flatMap_le {α : Type} {image : α → List UInt8} {size : ℕ} (l : List α)
    (h : ∀ a ∈ l, (image a).length ≤ size) : (l.flatMap image).length ≤ l.length * size := by
  rw [List.length_flatMap, ← List.length_map (fun a ↦ (image a).length)]
  refine List.sum_le_card_nsmul _ size ?_
  simpa using h

theorem Manifest.length_image {m : Manifest} (h : m.chunks.length < 2 ^ 32) :
    m.image.length = 48 + 32 * m.chunks.length := by
  have hchunks : (m.chunks.flatMap fun id ↦ id.bytes.toList).length = m.chunks.length * 32 := by
    simp [List.length_flatMap]
  rw [Manifest.image]
  simp only [List.length_append, hchunks, length_beBytes_u64, length_beBytes_u32,
    List.Vector.toList_length, length_beBytes (show m.chunks.length < 256 ^ 4 by omega)]
  omega

theorem Chunk.length_image {c : Chunk} (h : c.data.length < 2 ^ 32) :
    c.image.length = 40 + c.data.length := by
  rw [Chunk.image]
  simp only [List.length_append, length_bytesImage h, length_beBytes_u32,
    List.Vector.toList_length]
  omega

theorem RouteAssignment.length_image_le {a : RouteAssignment} (h : a.Readable) :
    a.image.length ≤ 390 := by
  obtain ⟨hrelay, haddress, hroute⟩ := h
  rw [RouteAssignment.image]
  simp only [List.length_append, List.Vector.toList_length,
    length_stringImage (show (utf8 a.relayId).length < 2 ^ 16 by omega),
    length_stringImage (show (utf8 a.relayAddress).length < 2 ^ 16 by omega),
    length_stringImage (show (utf8 a.route).length < 2 ^ 16 by omega)]
  omega

theorem length_optionalImage_le {value : Option RouteAssignment} (h : ∀ a ∈ value, a.Readable) :
    (optionalImage value).length ≤ 391 := by
  cases value with
  | none => decide
  | some a =>
    have ha := RouteAssignment.length_image_le (h a rfl)
    rw [optionalImage, List.length_append, List.length_singleton]
    omega

theorem PeerAdvertisement.length_image_le {p : PeerAdvertisement}
    (hcapabilities : p.capabilities.length ≤ maxCapabilities)
    (hcontent : p.contentIds.length ≤ maxAdvertisedContentIds) : p.image.length ≤ 8275 := by
  have hcodes : (p.capabilities.flatMap PeerCapability.image).length ≤
      p.capabilities.length * 2 :=
    length_flatMap_le _ fun c _ ↦ (length_beBytes_u16 c.code).le
  have hids : (p.contentIds.flatMap fun id ↦ id.bytes.toList).length ≤
      p.contentIds.length * 32 := length_flatMap_le _ fun id _ ↦ by simp
  rw [maxCapabilities] at hcapabilities
  rw [maxAdvertisedContentIds] at hcontent
  rw [PeerAdvertisement.image]
  simp only [List.length_append, List.Vector.toList_length, List.length_singleton,
    length_beBytes (show p.contentIds.length < 256 ^ 2 by omega)]
  omega

/-! ## The fields of valid values -/

/-- What the validator says of a manifest with a bitfield. -/
theorem validateMessage_swarmManifest_eq_ok_iff {m : Manifest} {a : PieceAvailability} :
    validateMessage (.swarmManifest m a) = .ok () ↔
      m.validateShape = .ok () ∧ m.chunks.length ≤ maxTestnetManifestChunks ∧
        a.chunkCount.toNat = m.chunks.length ∧ a.isValid = true := by
  rw [validateMessage, bind_eq_ok_iff]
  constructor
  · rintro ⟨⟨⟩, hm, ha⟩
    have hchunks := length_chunks_of_validateManifest hm
    rw [validateManifest] at hm
    split at hm
    · cases hm
    · rename_i hshape
      split_ifs at ha with hmatch
      rw [not_or, not_not, not_not] at hmatch
      refine ⟨hshape, hchunks, ?_, hmatch.2⟩
      rw [hmatch.1]
      rw [maxTestnetManifestChunks] at hchunks
      omega
  · rintro ⟨hshape, hchunks, hcount, hvalid⟩
    refine ⟨(), ?_, ?_⟩
    · rw [validateManifest, hshape]
      exact if_neg (not_lt.mpr hchunks)
    · rw [if_neg]
      rw [not_or, not_not, not_not]
      refine ⟨?_, hvalid⟩
      rw [maxTestnetManifestChunks] at hchunks
      omega

/-- The size of a manifest with a bitfield that matches it. -/
theorem Message.length_fields_swarmManifest {m : Manifest} {a : PieceAvailability}
    (hcount : a.chunkCount.toNat = m.chunks.length) (hvalid : a.isValid = true) :
    (Message.swarmManifest m a).fields.length =
      56 + 32 * m.chunks.length + m.chunks.length ⌈/⌉ 8 := by
  have hlt := a.chunkCount.toNat_lt
  have hbits := PieceAvailability.length_bits_of_isValid hvalid
  rw [hcount] at hlt hbits
  have hshort : a.bits.length < 2 ^ 32 := by
    rw [hbits, Nat.ceilDiv_eq_add_pred_div]
    omega
  rw [Message.fields]
  simp only [List.length_append, length_bytesImage hshort, length_beBytes_u32,
    Manifest.length_image hlt, hbits]
  omega

theorem Message.length_fields_le {m : Message} (h : validateMessage m = .ok ()) :
    30 + m.fields.length ≤ maxApplicationMessageBytes := by
  have hreadable := Message.readable_of_validate h
  cases m with
  | request id | swarmRequest id => simp [fields, maxApplicationMessageBytes]
  | manifest m =>
    have hchunks : m.chunks.length ≤ 2036 := hreadable
    rw [fields, Manifest.length_image (by omega), maxApplicationMessageBytes]
    omega
  | chunk c =>
    have hdata : c.data.length ≤ 32 * 1024 := hreadable
    rw [fields, Chunk.length_image (by omega), maxApplicationMessageBytes]
    omega
  | complete | swarmComplete => simp [fields, maxApplicationMessageBytes]
  | error text =>
    have htext : (utf8 text).length ≤ 1024 := hreadable
    rw [fields, length_stringImage (by omega), maxApplicationMessageBytes]
    omega
  | swarmManifest m a =>
    obtain ⟨-, hchunks, hcount, hvalid⟩ := validateMessage_swarmManifest_eq_ok_iff.mp h
    rw [length_fields_swarmManifest hcount hvalid, Nat.ceilDiv_eq_add_pred_div,
      maxApplicationMessageBytes]
    rw [maxTestnetManifestChunks] at hchunks
    omega
  | chunkRequest index | chunkUnavailable index => simp [fields, maxApplicationMessageBytes]

theorem OverlayRequest.length_fields_le {q : OverlayRequest} (h : q.Readable) :
    30 + q.fields.length ≤ maxOverlayMessageBytes := by
  rw [maxOverlayMessageBytes]
  cases q with
  | registerPeer p =>
    have := PeerAdvertisement.length_image_le h.1 h.2
    rw [fields]
    omega
  | heartbeatPeer id | pollPeer id => simp [fields]
  | registerRelay r =>
    obtain ⟨hrelay, haddress⟩ := h
    rw [fields, List.length_append, length_stringImage (by omega), length_stringImage (by omega)]
    omega
  | heartbeatRelay relayId | reportRelayFailure relayId =>
    have hrelay : (utf8 relayId).length ≤ 64 := h
    rw [fields, length_stringImage (by omega)]
    omega
  | discover id => simp [fields]
  | discoverProviders id limit => simp [fields]
  | health => simp [fields]

theorem OverlayResponse.length_fields_le {p : OverlayResponse} (h : p.Readable) :
    30 + p.fields.length ≤ maxOverlayMessageBytes := by
  rw [maxOverlayMessageBytes]
  cases p with
  | registered leaseMs => simp [fields]
  | assignment value | route value =>
    have := length_optionalImage_le h
    rw [fields]
    omega
  | routes values =>
    obtain ⟨hlength, hvalues⟩ := h
    rw [maxDiscoveryRoutes] at hlength
    have himages : (values.flatMap RouteAssignment.image).length ≤ values.length * 390 :=
      length_flatMap_le _ fun a ha ↦ RouteAssignment.length_image_le (hvalues a ha)
    rw [fields, List.length_append, length_beBytes (by omega)]
    omega
  | acknowledged => simp [fields]
  | error text =>
    have htext : (utf8 text).length ≤ 1024 := h
    rw [fields, length_stringImage (by omega)]
    omega

/-! ## What is encoded -/

/-- A record is encoded exactly if it is valid, provided that validity bounds its counts and its
size. -/
theorem exists_encodeRecord_iff {α : Type} {tag : α → UInt8} {image : α → List UInt8} {limit : ℕ}
    {domain : UInt8} {validate : α → Except ProtocolError Unit} {fields : α → Writer.Step}
    {writable : α → Prop} {a : α} (h : ∀ a, Emits (fields a) (writable a) ([tag a] ++ image a))
    (hwritable : validate a = .ok () → writable a)
    (hsize : validate a = .ok () → 30 + (image a).length ≤ limit) :
    (∃ bytes, encodeRecord limit domain validate fields a = .ok bytes) ↔ validate a = .ok () := by
  simp only [encodeRecord_eq_ok_iff h]
  constructor
  · rintro ⟨bytes, hvalid, -⟩
    exact hvalid
  · intro hvalid
    refine ⟨_, hvalid, hwritable hvalid, rfl, ?_⟩
    have := hsize hvalid
    rw [List.length_append, List.length_append, length_headerImage, List.length_singleton]
    omega

theorem exists_encode_iff {m : Message} :
    (∃ bytes, encode m = .ok bytes) ↔ validateMessage m = .ok () :=
  exists_encodeRecord_iff Writer.emits_message
    (fun h ↦ Message.writable_of_readable (Message.readable_of_validate h))
    Message.length_fields_le

section External

variable {blake3 : List UInt8 → Digest} {isSocketAddr : String → Bool}

theorem exists_encodeOverlayRequest_iff {q : OverlayRequest} :
    (∃ bytes, encodeOverlayRequest blake3 isSocketAddr q = .ok bytes) ↔
      validateOverlayRequest blake3 isSocketAddr q = .ok () :=
  exists_encodeRecord_iff Writer.emits_overlayRequest
    (fun h ↦ OverlayRequest.writable_of_readable (OverlayRequest.readable_of_validate h))
    fun h ↦ OverlayRequest.length_fields_le (OverlayRequest.readable_of_validate h)

theorem exists_encodeOverlayResponse_iff {p : OverlayResponse} :
    (∃ bytes, encodeOverlayResponse isSocketAddr p = .ok bytes) ↔
      validateOverlayResponse isSocketAddr p = .ok () :=
  exists_encodeRecord_iff Writer.emits_overlayResponse
    (fun h ↦ OverlayResponse.writable_of_readable (OverlayResponse.readable_of_validate h))
    fun h ↦ OverlayResponse.length_fields_le (OverlayResponse.readable_of_validate h)

end External

/-! ## The largest manifest -/

/-- The record can be written and is within the size limit, whether or not the message is valid. -/
def Message.Fits (m : Message) : Prop :=
  ∃ bytes, encodeRecord maxApplicationMessageBytes domainApplication (fun _ ↦ .ok ())
    Writer.message m = .ok bytes

theorem Message.fits_iff {m : Message} :
    m.Fits ↔ m.Writable ∧ 30 + m.fields.length ≤ maxApplicationMessageBytes := by
  simp only [Fits, encodeRecord_eq_ok_iff Writer.emits_message, true_and]
  constructor
  · rintro ⟨bytes, hwritable, rfl, hle⟩
    rw [List.length_append, List.length_append, length_headerImage, List.length_singleton] at hle
    exact ⟨hwritable, by omega⟩
  · rintro ⟨hwritable, hle⟩
    refine ⟨_, hwritable, rfl, ?_⟩
    rw [List.length_append, List.length_append, length_headerImage, List.length_singleton]
    omega

/-- A manifest fits together with a bitfield exactly up to 2036 chunks. -/
theorem Message.fits_swarmManifest_iff {m : Manifest} {a : PieceAvailability}
    (hcount : a.chunkCount.toNat = m.chunks.length) (hvalid : a.isValid = true) :
    (Message.swarmManifest m a).Fits ↔ m.chunks.length ≤ maxTestnetManifestChunks := by
  have hlt := a.chunkCount.toNat_lt
  have hbits := PieceAvailability.length_bits_of_isValid hvalid
  rw [Nat.ceilDiv_eq_add_pred_div] at hbits
  rw [fits_iff, length_fields_swarmManifest hcount hvalid, Writable, Nat.ceilDiv_eq_add_pred_div,
    maxApplicationMessageBytes, maxTestnetManifestChunks]
  omega

/-- **Validity is encodability.** The three encoders accept exactly what the validators accept. An
encoded application record leaves room for the tag of its ciphertext in a 65535-byte frame. And 2036
is the largest number of chunks for which every manifest fits in a record with its bitfield. -/
theorem encodable_iff_valid (blake3 : List UInt8 → Digest) (isSocketAddr : String → Bool) :
    (∀ m, (∃ bytes, encode m = .ok bytes) ↔ validateMessage m = .ok ()) ∧
    (∀ q, (∃ bytes, encodeOverlayRequest blake3 isSocketAddr q = .ok bytes) ↔
      validateOverlayRequest blake3 isSocketAddr q = .ok ()) ∧
    (∀ p, (∃ bytes, encodeOverlayResponse isSocketAddr p = .ok bytes) ↔
      validateOverlayResponse isSocketAddr p = .ok ()) ∧
    (∀ m bytes, encode m = .ok bytes → bytes.length + 16 ≤ 65535) ∧
    ∀ n : UInt32, (∀ (m : Manifest) (a : PieceAvailability), m.chunks.length = n.toNat →
        a.chunkCount = n → a.isValid = true → (Message.swarmManifest m a).Fits) ↔
      n.toNat ≤ 2036 := by
  refine ⟨fun m ↦ exists_encode_iff, fun q ↦ exists_encodeOverlayRequest_iff,
    fun p ↦ exists_encodeOverlayResponse_iff, ?_, fun n ↦ ⟨fun h ↦ ?_, ?_⟩⟩
  · intro m bytes h
    obtain ⟨-, -, -, hle⟩ := (encodeRecord_eq_ok_iff Writer.emits_message).mp h
    rw [maxApplicationMessageBytes] at hle
    omega
  · -- some manifest has that many chunks, and some bitfield belongs to it
    have hfits := h ⟨⟨Vectors.contentDigest⟩, 0, 0, List.replicate n.toNat ⟨Vectors.contentDigest⟩⟩
      (.all n) List.length_replicate (PieceAvailability.chunkCount_all n)
      (PieceAvailability.isValid_all n)
    rw [Message.fits_swarmManifest_iff (by simp) (PieceAvailability.isValid_all n)] at hfits
    simpa [maxTestnetManifestChunks] using hfits
  · rintro hn m a hchunks rfl hvalid
    exact (Message.fits_swarmManifest_iff hchunks.symm hvalid).mpr (hchunks.trans_le hn)

/-- The published manifest is valid, so it is encoded, in far less than a frame. -/
theorem encodable_iff_valid_vector :
    validateMessage Vectors.swarmManifest = .ok () ∧
      ∃ bytes, encode Vectors.swarmManifest = .ok bytes ∧ bytes.length + 16 ≤ 65535 := by
  obtain ⟨hmessage, -, -, hsize, -⟩ := encodable_iff_valid Vectors.blake3 Vectors.isSocketAddr
  have hvalid : validateMessage Vectors.swarmManifest = .ok () := by decide +kernel
  obtain ⟨bytes, hbytes⟩ := (hmessage Vectors.swarmManifest).mpr hvalid
  exact ⟨hvalid, bytes, hbytes, hsize _ bytes hbytes⟩

end TripTorrent

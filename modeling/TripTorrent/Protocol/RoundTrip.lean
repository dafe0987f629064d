import TripTorrent.Codec.Outcome
import TripTorrent.Protocol.Grammar

/-!
# The codec is a bijection between valid values and accepted byte strings

Both directions of the codec are characterized by the same equation: a byte string encodes a value,
or decodes to it, exactly when the value is valid and the byte string is its image and within the
size limit. Decoding therefore undoes encoding, and encoding undoes decoding.

The characterizations differ only in the limits they inherit from the grammar, `Writable` on one
side and `Readable` on the other. Both follow from validity, message by message.
-/

namespace TripTorrent

open Codec (Emits Accepts utf8)
open Outcome (bind_eq_ok_iff forM_eq_ok_iff)

/-! ## One record -/

section Record

variable {α : Type} {tag : α → UInt8} {image : α → List UInt8} {limit : ℕ} {domain : UInt8}
  {validate : α → Except ProtocolError Unit} {a : α} {bytes : List UInt8}

theorem ensureSize_eq_ok_iff : ensureSize bytes limit = .ok () ↔ bytes.length ≤ limit := by
  rw [ensureSize]
  split_ifs with h
  · simpa using h
  · simpa using h

theorem encodeRecord_eq_ok_iff {fields : α → Writer.Step} {writable : α → Prop}
    (h : ∀ a, Emits (fields a) (writable a) ([tag a] ++ image a)) :
    encodeRecord limit domain validate fields a = .ok bytes ↔
      validate a = .ok () ∧ writable a ∧ bytes = headerImage domain ++ ([tag a] ++ image a) ∧
        bytes.length ≤ limit := by
  have hrun := (Writer.emits_new domain).seq (h a) []
  rw [encodeRecord, bind_eq_ok_iff]
  constructor
  · rintro ⟨⟨⟩, hvalid, hrest⟩
    obtain ⟨⟨⟨⟩, out⟩, hwrite, hfinish⟩ := bind_eq_ok_iff.mp hrest
    obtain ⟨⟨-, hwritable⟩, rfl⟩ := (hrun out).mp hwrite
    obtain ⟨⟨⟩, hsize, hbytes⟩ := bind_eq_ok_iff.mp hfinish
    obtain rfl := Except.ok.inj hbytes
    exact ⟨hvalid, hwritable, rfl, ensureSize_eq_ok_iff.mp hsize⟩
  · rintro ⟨hvalid, hwritable, rfl, hsize⟩
    refine ⟨(), hvalid, bind_eq_ok_iff.mpr ⟨_, (hrun _).mpr ⟨⟨trivial, hwritable⟩, rfl⟩, ?_⟩⟩
    exact bind_eq_ok_iff.mpr ⟨(), ensureSize_eq_ok_iff.mpr hsize, rfl⟩

theorem decodeRecord_eq_ok_iff {fields : UInt8 → Reader.Field α} {readable : α → Prop}
    (hlimit : limit < 2 ^ 64)
    (h : ∀ kind, Accepts (fields kind) (fun a ↦ tag a = kind ∧ readable a) image) :
    decodeRecord limit domain validate fields bytes = .ok a ↔
      validate a = .ok () ∧ readable a ∧ bytes = headerImage domain ++ ([tag a] ++ image a) ∧
        bytes.length ≤ limit := by
  have hread := Reader.accepts_taggedRecord domain h
  rw [decodeRecord, bind_eq_ok_iff]
  constructor
  · rintro ⟨⟨⟩, hsize, hrest⟩
    have hle := ensureSize_eq_ok_iff.mp hsize
    obtain ⟨⟨value, r⟩, hrun, hrest⟩ := bind_eq_ok_iff.mp hrest
    obtain ⟨⟨⟩, hfinish, hrest⟩ := bind_eq_ok_iff.mp hrest
    obtain ⟨⟨⟩, hvalid, hvalue⟩ := bind_eq_ok_iff.mp hrest
    obtain rfl := Except.ok.inj hvalue
    have hend : r.offset = r.bytes.length := by
      rw [Reader.finish] at hfinish
      split_ifs at hfinish with hend
      exact hend
    obtain ⟨hreadable, himage⟩ :=
      (hread.complete (hle.trans_lt hlimit)).mp ⟨r, hrun, hend⟩
    exact ⟨hvalid, hreadable, himage, hle⟩
  · rintro ⟨hvalid, hreadable, himage, hle⟩
    obtain ⟨r, hrun, hend⟩ :=
      (hread.complete (hle.trans_lt hlimit)).mpr ⟨hreadable, himage⟩
    refine ⟨(), ensureSize_eq_ok_iff.mpr hle, bind_eq_ok_iff.mpr ⟨_, hrun, ?_⟩⟩
    have hfinish : Reader.finish r = .ok () := by rw [Reader.finish, if_pos hend]
    exact bind_eq_ok_iff.mpr
      ⟨(), hfinish, bind_eq_ok_iff.mpr ⟨(), hvalid, rfl⟩⟩

end Record

/-! ## Validity bounds every count -/

theorem length_chunks_of_validateManifest {m : Manifest} (h : validateManifest m = .ok ()) :
    m.chunks.length ≤ maxTestnetManifestChunks := by
  rw [validateManifest] at h
  split at h
  · cases h
  · split_ifs at h with hlen
    exact not_lt.mp hlen

theorem length_utf8_of_validIdentifier {s : String} {maximum : ℕ}
    (h : validIdentifier s maximum = true) : (utf8 s).length ≤ maximum := by
  rw [validIdentifier, Bool.and_eq_true, Bool.and_eq_true] at h
  exact of_decide_eq_true h.1.2

theorem Message.readable_of_validate {m : Message} (h : validateMessage m = .ok ()) :
    m.Readable := by
  cases m with
  | manifest m => exact length_chunks_of_validateManifest h
  | chunk c =>
    rw [validateMessage] at h
    split_ifs at h with hlen
    exact not_lt.mp hlen
  | error text =>
    rw [validateMessage] at h
    split_ifs at h with hlen
    exact not_lt.mp hlen
  | swarmManifest m a =>
    rw [validateMessage] at h
    obtain ⟨⟨⟩, hm, ha⟩ := bind_eq_ok_iff.mp h
    split_ifs at ha with hmatch
    rw [not_or, not_not, not_not] at hmatch
    have hchunks := length_chunks_of_validateManifest hm
    have hbits := PieceAvailability.length_bits_of_isValid hmatch.2
    refine ⟨hchunks, ?_⟩
    rw [hbits, hmatch.1, Nat.ceilDiv_eq_add_pred_div]
    rw [maxTestnetManifestChunks] at hchunks
    rw [maxApplicationMessageBytes]
    omega
  | _ => trivial

theorem Message.writable_of_readable {m : Message} (h : m.Readable) : m.Writable := by
  cases m with
  | manifest m => exact h.trans_lt (by decide)
  | chunk c => exact h.trans_lt (by decide)
  | error text => exact h.trans_lt (by decide)
  | swarmManifest m a => exact ⟨h.1.trans_lt (by decide), h.2.trans_lt (by decide)⟩
  | _ => trivial

section External

variable {blake3 : List UInt8 → Digest} {isSocketAddr : String → Bool}

theorem OverlayRequest.readable_of_validate {q : OverlayRequest}
    (h : validateOverlayRequest blake3 isSocketAddr q = .ok ()) : q.Readable := by
  cases q with
  | registerPeer p =>
    rw [validateOverlayRequest] at h
    split_ifs at h with hid hbounds
    simp only [not_or, not_lt] at hbounds
    exact ⟨hbounds.2.2.2, hbounds.2.1⟩
  | registerRelay r =>
    rw [validateOverlayRequest] at h
    split_ifs at h with hbounds
    simp only [not_or, not_not, not_lt] at hbounds
    exact ⟨length_utf8_of_validIdentifier hbounds.1, hbounds.2.1⟩
  | heartbeatRelay relayId =>
    rw [validateOverlayRequest] at h
    split_ifs at h with hid
    exact length_utf8_of_validIdentifier hid
  | reportRelayFailure relayId =>
    rw [validateOverlayRequest] at h
    split_ifs at h with hid
    exact length_utf8_of_validIdentifier hid
  | _ => trivial

theorem OverlayRequest.writable_of_readable {q : OverlayRequest} (h : q.Readable) :
    q.Writable := by
  cases q with
  | registerPeer p => exact ⟨h.1.trans_lt (by decide), h.2.trans_lt (by decide)⟩
  | registerRelay r => exact ⟨h.1.trans_lt (by decide), h.2.trans_lt (by decide)⟩
  | heartbeatRelay relayId => exact h.trans_lt (by decide)
  | reportRelayFailure relayId => exact h.trans_lt (by decide)
  | _ => trivial

theorem RouteAssignment.readable_of_validate {a : RouteAssignment}
    (h : validateAssignment isSocketAddr a = .ok ()) : a.Readable := by
  rw [validateAssignment] at h
  split_ifs at h with hbounds
  simp only [not_or, not_not, not_lt] at hbounds
  exact ⟨length_utf8_of_validIdentifier hbounds.1, hbounds.2.1,
    length_utf8_of_validIdentifier hbounds.2.2.2⟩

theorem RouteAssignment.writable_of_readable {a : RouteAssignment} (h : a.Readable) :
    a.Writable :=
  ⟨h.1.trans_lt (by decide), h.2.1.trans_lt (by decide), h.2.2.trans_lt (by decide)⟩

theorem OverlayResponse.readable_of_validate {p : OverlayResponse}
    (h : validateOverlayResponse isSocketAddr p = .ok ()) : p.Readable := by
  cases p with
  | assignment value =>
    rintro a rfl
    exact RouteAssignment.readable_of_validate h
  | route value =>
    rintro a rfl
    exact RouteAssignment.readable_of_validate h
  | routes values =>
    rw [validateOverlayResponse] at h
    split_ifs at h with hlen
    refine ⟨not_lt.mp hlen, fun a ha ↦ ?_⟩
    exact RouteAssignment.readable_of_validate (forM_eq_ok_iff.mp h a ha)
  | error text =>
    rw [validateOverlayResponse] at h
    split_ifs at h with hlen
    exact not_lt.mp hlen
  | _ => trivial

theorem OverlayResponse.writable_of_readable {p : OverlayResponse} (h : p.Readable) :
    p.Writable := by
  cases p with
  | assignment value => exact fun a ha ↦ RouteAssignment.writable_of_readable (h a ha)
  | route value => exact fun a ha ↦ RouteAssignment.writable_of_readable (h a ha)
  | routes values =>
    exact ⟨h.1.trans_lt (by decide), fun a ha ↦ RouteAssignment.writable_of_readable (h.2 a ha)⟩
  | error text => exact h.trans_lt (by decide)
  | _ => trivial

end External

/-! ## The three domains -/

/-- **Application records.** The two directions of the codec are one relation. -/
theorem decode_eq_ok_iff {m : Message} {b : List UInt8} : decode b = .ok m ↔ encode m = .ok b := by
  rw [decode, encode, decodeRecord_eq_ok_iff (by decide) Reader.accepts_messageFields,
    encodeRecord_eq_ok_iff Writer.emits_message]
  refine and_congr_right fun hvalid ↦ and_congr_left fun _ ↦ ?_
  have hreadable := Message.readable_of_validate hvalid
  exact iff_of_true hreadable (Message.writable_of_readable hreadable)

section External

variable {blake3 : List UInt8 → Digest} {isSocketAddr : String → Bool}

/-- **Discovery requests.** -/
theorem decodeOverlayRequest_eq_ok_iff {q : OverlayRequest} {b : List UInt8} :
    decodeOverlayRequest blake3 isSocketAddr b = .ok q ↔
      encodeOverlayRequest blake3 isSocketAddr q = .ok b := by
  rw [decodeOverlayRequest, encodeOverlayRequest,
    decodeRecord_eq_ok_iff (by decide) Reader.accepts_overlayRequestFields,
    encodeRecord_eq_ok_iff Writer.emits_overlayRequest]
  refine and_congr_right fun hvalid ↦ and_congr_left fun _ ↦ ?_
  have hreadable := OverlayRequest.readable_of_validate hvalid
  exact iff_of_true hreadable (OverlayRequest.writable_of_readable hreadable)

/-- **Discovery responses.** -/
theorem decodeOverlayResponse_eq_ok_iff {p : OverlayResponse} {b : List UInt8} :
    decodeOverlayResponse isSocketAddr b = .ok p ↔
      encodeOverlayResponse isSocketAddr p = .ok b := by
  rw [decodeOverlayResponse, encodeOverlayResponse,
    decodeRecord_eq_ok_iff (by decide) Reader.accepts_overlayResponseFields,
    encodeRecord_eq_ok_iff Writer.emits_overlayResponse]
  refine and_congr_right fun hvalid ↦ and_congr_left fun _ ↦ ?_
  have hreadable := OverlayResponse.readable_of_validate hvalid
  exact iff_of_true hreadable (OverlayResponse.writable_of_readable hreadable)

end External

/-! ## Conformance vectors

The values of three records of the published Testnet v1 vectors, one from each domain. On the one
key they use, the hash function returns the published peer identifier. -/

namespace Vectors

def contentDigest : Digest :=
  ⟨[253, 215, 214, 147, 199, 202, 155, 184, 63, 247, 79, 91, 144, 15, 3, 235, 127, 63, 189, 163,
     171, 70, 4, 63, 121, 56, 196, 71, 61, 114, 225, 153], rfl⟩

def peerDigest : Digest :=
  ⟨[235, 175, 133, 180, 101, 160, 157, 226, 27, 57, 143, 177, 18, 193, 80, 15, 44, 190, 101, 140,
     66, 243, 121, 224, 192, 241, 141, 36, 184, 25, 246, 55], rfl⟩

/-- The public key consisting of sevens. -/
def publicKey : Digest := List.Vector.replicate 32 7

/-- The published identifier of the only key hashed. -/
def blake3 : List UInt8 → Digest := fun _ ↦ peerDigest

def isSocketAddr (value : String) : Bool := value == "127.0.0.1:7001"

/-- `swarm-manifest` -/
def swarmManifest : Message :=
  .swarmManifest
    { contentId := ⟨contentDigest⟩, length := 185, chunkSize := 32768, chunks := [⟨contentDigest⟩] }
    { chunkCount := 1, bits := [1] }

/-- `peer-registration` -/
def peerRegistration : OverlayRequest :=
  .registerPeer
    { peerId := ⟨peerDigest⟩, publicKey := publicKey, capabilities := [.swarmTransferV1],
      contentIds := [⟨contentDigest⟩] }

/-- `route-assignment` -/
def routeAssignment : OverlayResponse :=
  .routes
    [{ providerId := ⟨peerDigest⟩, providerPublicKey := publicKey, relayId := "relay-a",
       relayAddress := "127.0.0.1:7001", route := "m9-route" }]

/-- `swarm-manifest`, as published. -/
def swarmManifestBytes : List UInt8 :=
  [84, 84, 80, 49, 0, 1, 21, 116, 114, 105, 112, 116, 111, 114, 114, 101, 110, 116, 45, 116, 101,
   115, 116, 110, 101, 116, 45, 49, 1, 17, 253, 215, 214, 147, 199, 202, 155, 184, 63, 247, 79,
   91, 144, 15, 3, 235, 127, 63, 189, 163, 171, 70, 4, 63, 121, 56, 196, 71, 61, 114, 225, 153, 0,
   0, 0, 0, 0, 0, 0, 185, 0, 0, 128, 0, 0, 0, 0, 1, 253, 215, 214, 147, 199, 202, 155, 184, 63,
   247, 79, 91, 144, 15, 3, 235, 127, 63, 189, 163, 171, 70, 4, 63, 121, 56, 196, 71, 61, 114,
   225, 153, 0, 0, 0, 1, 0, 0, 0, 1, 1]

/-- `peer-registration`, as published. -/
def peerRegistrationBytes : List UInt8 :=
  [84, 84, 80, 49, 0, 1, 21, 116, 114, 105, 112, 116, 111, 114, 114, 101, 110, 116, 45, 116, 101,
   115, 116, 110, 101, 116, 45, 49, 2, 1, 235, 175, 133, 180, 101, 160, 157, 226, 27, 57, 143,
   177, 18, 193, 80, 15, 44, 190, 101, 140, 66, 243, 121, 224, 192, 241, 141, 36, 184, 25, 246,
   55, 7, 7, 7, 7, 7, 7, 7, 7, 7, 7, 7, 7, 7, 7, 7, 7, 7, 7, 7, 7, 7, 7, 7, 7, 7, 7, 7, 7, 7, 7,
   7, 7, 1, 0, 2, 0, 1, 253, 215, 214, 147, 199, 202, 155, 184, 63, 247, 79, 91, 144, 15, 3, 235,
   127, 63, 189, 163, 171, 70, 4, 63, 121, 56, 196, 71, 61, 114, 225, 153]

/-- `route-assignment`, as published. -/
def routeAssignmentBytes : List UInt8 :=
  [84, 84, 80, 49, 0, 1, 21, 116, 114, 105, 112, 116, 111, 114, 114, 101, 110, 116, 45, 116, 101,
   115, 116, 110, 101, 116, 45, 49, 3, 4, 0, 1, 235, 175, 133, 180, 101, 160, 157, 226, 27, 57,
   143, 177, 18, 193, 80, 15, 44, 190, 101, 140, 66, 243, 121, 224, 192, 241, 141, 36, 184, 25,
   246, 55, 7, 7, 7, 7, 7, 7, 7, 7, 7, 7, 7, 7, 7, 7, 7, 7, 7, 7, 7, 7, 7, 7, 7, 7, 7, 7, 7, 7, 7,
   7, 7, 7, 0, 7, 114, 101, 108, 97, 121, 45, 97, 0, 14, 49, 50, 55, 46, 48, 46, 48, 46, 49, 58,
   55, 48, 48, 49, 0, 8, 109, 57, 45, 114, 111, 117, 116, 101]

end Vectors

/-! ## Round trips -/

/-- **Decode undoes encode** in all three domains, for every value the encoder accepts. -/
theorem decode_of_encode (blake3 : List UInt8 → Digest) (isSocketAddr : String → Bool) :
    (∀ m b, encode m = .ok b → decode b = .ok m) ∧
    (∀ q b, encodeOverlayRequest blake3 isSocketAddr q = .ok b →
      decodeOverlayRequest blake3 isSocketAddr b = .ok q) ∧
    (∀ p b, encodeOverlayResponse isSocketAddr p = .ok b →
      decodeOverlayResponse isSocketAddr b = .ok p) :=
  ⟨fun _ _ h ↦ decode_eq_ok_iff.mpr h, fun _ _ h ↦ decodeOverlayRequest_eq_ok_iff.mpr h,
    fun _ _ h ↦ decodeOverlayResponse_eq_ok_iff.mpr h⟩

/-- The published vectors decode to the values they were made from. -/
theorem decode_of_encode_vectors :
    decode Vectors.swarmManifestBytes = .ok Vectors.swarmManifest ∧
    decodeOverlayRequest Vectors.blake3 Vectors.isSocketAddr Vectors.peerRegistrationBytes
      = .ok Vectors.peerRegistration ∧
    decodeOverlayResponse Vectors.isSocketAddr Vectors.routeAssignmentBytes
      = .ok Vectors.routeAssignment := by
  obtain ⟨hmessage, hrequest, hresponse⟩ := decode_of_encode Vectors.blake3 Vectors.isSocketAddr
  exact ⟨hmessage _ _ (by decide +kernel), hrequest _ _ (by decide +kernel),
    hresponse _ _ (by decide +kernel)⟩

/-- **The wire format is canonical.** An accepted byte string is the encoding of what it decodes
to, so a message has at most one encoding in its domain. -/
theorem encode_of_decode (blake3 : List UInt8 → Digest) (isSocketAddr : String → Bool) :
    (∀ b m, decode b = .ok m → encode m = .ok b) ∧
    (∀ b q, decodeOverlayRequest blake3 isSocketAddr b = .ok q →
      encodeOverlayRequest blake3 isSocketAddr q = .ok b) ∧
    (∀ b p, decodeOverlayResponse isSocketAddr b = .ok p →
      encodeOverlayResponse isSocketAddr p = .ok b) ∧
    (∀ b b' m, decode b = .ok m → decode b' = .ok m → b = b') ∧
    (∀ b b' q, decodeOverlayRequest blake3 isSocketAddr b = .ok q →
      decodeOverlayRequest blake3 isSocketAddr b' = .ok q → b = b') ∧
    (∀ b b' p, decodeOverlayResponse isSocketAddr b = .ok p →
      decodeOverlayResponse isSocketAddr b' = .ok p → b = b') := by
  refine ⟨fun _ _ h ↦ decode_eq_ok_iff.mp h, fun _ _ h ↦ decodeOverlayRequest_eq_ok_iff.mp h,
    fun _ _ h ↦ decodeOverlayResponse_eq_ok_iff.mp h, ?_, ?_, ?_⟩
  · intro b b' m h h'
    rw [decode_eq_ok_iff] at h h'
    exact Except.ok.inj (h.symm.trans h')
  · intro b b' q h h'
    rw [decodeOverlayRequest_eq_ok_iff] at h h'
    exact Except.ok.inj (h.symm.trans h')
  · intro b b' p h h'
    rw [decodeOverlayResponse_eq_ok_iff] at h h'
    exact Except.ok.inj (h.symm.trans h')

/-- The published vectors are the encodings of what they decode to. -/
theorem encode_of_decode_vectors :
    encode Vectors.swarmManifest = .ok Vectors.swarmManifestBytes ∧
    encodeOverlayRequest Vectors.blake3 Vectors.isSocketAddr Vectors.peerRegistration
      = .ok Vectors.peerRegistrationBytes ∧
    encodeOverlayResponse Vectors.isSocketAddr Vectors.routeAssignment
      = .ok Vectors.routeAssignmentBytes := by
  obtain ⟨hmessage, hrequest, hresponse, -⟩ := encode_of_decode Vectors.blake3 Vectors.isSocketAddr
  exact ⟨hmessage _ _ (by decide +kernel), hrequest _ _ (by decide +kernel),
    hresponse _ _ (by decide +kernel)⟩

end TripTorrent

import TripTorrent.Codec.Text
import TripTorrent.Core.Content

/-!
# Testnet v1 messages and their validators

The three message domains of the wire protocol: application records exchanged between peers,
discovery requests, and discovery responses. Each has a validator that runs before encoding and
again after decoding.

Two things the validators call are not part of the protocol. Whether a string parses as a socket
address is a predicate `isSocketAddr`, and the derivation of a peer identifier from a public key
goes through the hash function `blake3`.
-/

namespace TripTorrent

open Codec (utf8)

/-! ## Piece availability -/

/-- A bitfield over the chunks of a manifest, least significant bit first. -/
structure PieceAvailability where
  chunkCount : UInt32
  bits : List UInt8
deriving DecidableEq

namespace PieceAvailability

/-- The bitfield has one bit for each chunk and no padding bit is set. -/
def isValid (a : PieceAvailability) : Bool :=
  if a.bits.length ≠ a.chunkCount.toNat ⌈/⌉ 8 then false
  else
    let remainder := a.chunkCount % 8
    remainder == 0 ||
      match a.bits.getLast? with
      | none => true
      | some last => last &&& ~~~((1 <<< remainder.toUInt8) - 1) == 0

/-- The padding bits of the last byte are set to zero. -/
def clearUnusedBits (a : PieceAvailability) : PieceAvailability :=
  let remainder := a.chunkCount % 8
  if remainder = 0 then a
  else
    match a.bits.getLast? with
    | none => a
    | some last =>
      { a with bits := a.bits.dropLast ++ [last &&& ((1 <<< remainder.toUInt8) - 1)] }

/-- Every chunk is available. -/
def all (chunkCount : UInt32) : PieceAvailability :=
  clearUnusedBits { chunkCount, bits := List.replicate (chunkCount.toNat ⌈/⌉ 8) 0xff }

/-- Whether the chunk is available. The bit is only looked up in a valid bitfield, so the index is
in range. -/
def contains (a : PieceAvailability) (index : UInt32) : Bool :=
  a.isValid && decide (index < a.chunkCount) &&
    (a.bits.getD (index / 8).toNat 0 &&& 1 <<< (index % 8).toUInt8) != 0

theorem length_bits_of_isValid {a : PieceAvailability} (h : a.isValid = true) :
    a.bits.length = a.chunkCount.toNat ⌈/⌉ 8 := by
  rw [isValid] at h
  split_ifs at h with hlen
  exact not_not.mp hlen

@[simp] theorem chunkCount_all (n : UInt32) : (all n).chunkCount = n := by
  unfold all clearUnusedBits
  dsimp only
  split_ifs
  · rfl
  · split
    · rfl
    · rfl

theorem isValid_clearUnusedBits {a : PieceAvailability}
    (h : a.bits.length = a.chunkCount.toNat ⌈/⌉ 8) : a.clearUnusedBits.isValid = true := by
  unfold clearUnusedBits
  dsimp only
  split_ifs with hremainder
  · simp [isValid, h, hremainder]
  · split
    · rename_i hlast
      simp [isValid, h, hlast]
    · rename_i last hlast
      have hne : a.bits ≠ [] := by
        rintro hnil
        simp [hnil] at hlast
      have hpos := List.length_pos_iff.mpr hne
      have hlength : (a.bits.dropLast ++
          [last &&& ((1 <<< (a.chunkCount % 8).toUInt8) - 1)]).length =
            a.chunkCount.toNat ⌈/⌉ 8 := by
        rw [List.length_append, List.length_dropLast, List.length_singleton]
        omega
      rw [isValid, if_neg (not_not.mpr hlength), List.getLast?_concat]
      simp [UInt8.and_assoc]

theorem isValid_all (n : UInt32) : (all n).isValid = true :=
  isValid_clearUnusedBits List.length_replicate

end PieceAvailability

/-! ## Messages -/

/-- Application records. -/
inductive Message where
  | request (contentId : ContentId)
  | manifest (manifest : Manifest)
  | chunk (chunk : Chunk)
  | complete
  | error (text : String)
  | swarmRequest (contentId : ContentId)
  | swarmManifest (manifest : Manifest) (availability : PieceAvailability)
  | chunkRequest (index : UInt32)
  | chunkUnavailable (index : UInt32)
  | swarmComplete
deriving DecidableEq

inductive PeerCapability where
  | relayedTransferV1
  | swarmTransferV1
deriving DecidableEq

structure PeerAdvertisement where
  peerId : PeerId
  publicKey : Digest
  capabilities : List PeerCapability
  contentIds : List ContentId
deriving DecidableEq

structure RelayAdvertisement where
  relayId : String
  address : String
deriving DecidableEq

structure RouteAssignment where
  providerId : PeerId
  providerPublicKey : Digest
  relayId : String
  relayAddress : String
  route : String
deriving DecidableEq

/-- Discovery requests. -/
inductive OverlayRequest where
  | registerPeer (peer : PeerAdvertisement)
  | heartbeatPeer (peerId : PeerId)
  | pollPeer (peerId : PeerId)
  | registerRelay (relay : RelayAdvertisement)
  | heartbeatRelay (relayId : String)
  | discover (contentId : ContentId)
  | discoverProviders (contentId : ContentId) (limit : UInt16)
  | reportRelayFailure (relayId : String)
  | health
deriving DecidableEq

/-- Discovery responses. -/
inductive OverlayResponse where
  | registered (leaseMs : UInt64)
  | assignment (value : Option RouteAssignment)
  | route (value : Option RouteAssignment)
  | routes (values : List RouteAssignment)
  | acknowledged
  | error (text : String)
deriving DecidableEq

inductive ProtocolError where
  | malformed (reason : String)
  | unsupportedVersion (version : UInt16)
  | wrongNetwork (network : String)
  | unsupportedCapability (code : UInt16)
  | unknownMessage (kind : UInt8)
  | invalidMessage (reason : String)
  | messageTooLarge (limit : ℕ)
deriving DecidableEq

/-! ## Bounds -/

/-- `MAX_APPLICATION_MESSAGE_BYTES` -/
def maxApplicationMessageBytes : ℕ := 65519

/-- `MAX_OVERLAY_MESSAGE_BYTES` -/
def maxOverlayMessageBytes : ℕ := 256 * 1024

/-- `MAX_ADVERTISED_CONTENT_IDS` -/
def maxAdvertisedContentIds : ℕ := 256

/-- `MAX_ERROR_TEXT_BYTES` -/
def maxErrorTextBytes : ℕ := 1024

/-- `MAX_CAPABILITIES` -/
def maxCapabilities : ℕ := 8

/-- `MAX_DISCOVERY_ROUTES` -/
def maxDiscoveryRoutes : ℕ := 16

/-- `MAX_TESTNET_MANIFEST_CHUNKS` -/
def maxTestnetManifestChunks : ℕ := 2036

/-! ## Validators -/

/-- `u8::is_ascii_alphanumeric` -/
def isAsciiAlphanumeric (byte : UInt8) : Bool :=
  (48 ≤ byte && byte ≤ 57) || (65 ≤ byte && byte ≤ 90) || (97 ≤ byte && byte ≤ 122)

def validIdentifier (value : String) (maximum : ℕ) : Bool :=
  !(utf8 value).isEmpty && (utf8 value).length ≤ maximum &&
    (utf8 value).all fun byte ↦ isAsciiAlphanumeric byte || byte == 45 || byte == 95

def validateManifest (value : Manifest) : Except ProtocolError Unit :=
  match value.validateShape with
  | .error _ => .error (.invalidMessage "malformed manifest shape")
  | .ok () =>
    if maxTestnetManifestChunks < value.chunks.length then
      .error (.invalidMessage "manifest exceeds Testnet v1 record bound")
    else .ok ()

def validateMessage : Message → Except ProtocolError Unit
  | .manifest value => validateManifest value
  | .chunk value =>
    if chunkSize < value.data.length then
      .error (.invalidMessage "chunk payload exceeds fixed chunk size")
    else .ok ()
  | .error text =>
    if maxErrorTextBytes < (utf8 text).length then
      .error (.invalidMessage "error text exceeds bound")
    else .ok ()
  | .swarmManifest manifest availability => do
    validateManifest manifest
    -- `u32::try_from(len).unwrap_or(u32::MAX)`
    if availability.chunkCount.toNat ≠ min manifest.chunks.length (2 ^ 32 - 1) ∨
        ¬availability.isValid then
      .error (.invalidMessage "piece availability does not match manifest")
    else .ok ()
  | _ => .ok ()

section External

variable (blake3 : List UInt8 → Digest) (isSocketAddr : String → Bool)

def validateAssignment (value : RouteAssignment) : Except ProtocolError Unit :=
  if ¬validIdentifier value.relayId 64 ∨ 128 < (utf8 value.relayAddress).length ∨
      ¬isSocketAddr value.relayAddress ∨ ¬validIdentifier value.route 128 then
    .error (.invalidMessage "invalid route assignment fields")
  else .ok ()

def validateOverlayRequest : OverlayRequest → Except ProtocolError Unit
  | .registerPeer peer =>
    if peer.peerId ≠ PeerId.fromPublicKey blake3 peer.publicKey then
      .error (.invalidMessage "peer identity does not match key")
    else if peer.contentIds.isEmpty ∨ maxAdvertisedContentIds < peer.contentIds.length ∨
        peer.capabilities.isEmpty ∨ maxCapabilities < peer.capabilities.length then
      .error (.invalidMessage "peer advertisement exceeds bounds")
    else .ok ()
  | .registerRelay value =>
    if ¬validIdentifier value.relayId 64 ∨ 128 < (utf8 value.address).length ∨
        ¬isSocketAddr value.address then
      .error (.invalidMessage "invalid relay advertisement")
    else .ok ()
  | .heartbeatRelay relayId | .reportRelayFailure relayId =>
    if validIdentifier relayId 64 then .ok ()
    else .error (.invalidMessage "invalid relay identifier")
  | .discoverProviders _ limit =>
    if limit = 0 ∨ maxDiscoveryRoutes < limit.toNat then
      .error (.invalidMessage "invalid provider discovery limit")
    else .ok ()
  | _ => .ok ()

def validateOverlayResponse : OverlayResponse → Except ProtocolError Unit
  | .assignment (some value) | .route (some value) => validateAssignment isSocketAddr value
  | .routes values =>
    if maxDiscoveryRoutes < values.length then
      .error (.invalidMessage "too many route assignments")
    else values.forM (validateAssignment isSocketAddr)
  | .error text =>
    if maxErrorTextBytes < (utf8 text).length then
      .error (.invalidMessage "error text exceeds bound")
    else .ok ()
  | _ => .ok ()

end External

end TripTorrent

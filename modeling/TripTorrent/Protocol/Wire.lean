import TripTorrent.Codec.BigEndian
import TripTorrent.Codec.Cursor
import TripTorrent.Protocol.Message

/-!
# The binary codec

The writer and the reader of Testnet v1 records, as the source has them: two separate programs,
with their own limits, that never refer to each other. A record is the fixed header (magic,
version, network identifier, domain), a type byte, and the fields of that type.

What the two have to do with each other is the subject of `Protocol.Grammar`.
-/

namespace TripTorrent

open Codec (Put Get Cursor utf8 ofUtf8? beBytes ofBeBytes)

/-- `WIRE_MAGIC` -/
def wireMagic : List UInt8 := [84, 84, 80, 49]

/-- `DOMAIN_APPLICATION` -/
def domainApplication : UInt8 := 1

/-- `DOMAIN_OVERLAY_REQUEST` -/
def domainOverlayRequest : UInt8 := 2

/-- `DOMAIN_OVERLAY_RESPONSE` -/
def domainOverlayResponse : UInt8 := 3

def ensureSize (bytes : List UInt8) (limit : ℕ) : Except ProtocolError Unit :=
  if limit < bytes.length then .error (.messageTooLarge limit) else .ok ()

/-! ## Writer -/

namespace Writer

/-- A step of the writer. -/
abbrev Step := Put ProtocolError Unit

def raw (value : List UInt8) : Step := Put.raw value

def u8 (value : UInt8) : Step := raw [value]

def u16 (value : UInt16) : Step := raw (beBytes 2 value.toNat)

def u32 (value : UInt32) : Step := raw (beBytes 4 value.toNat)

def u64 (value : UInt64) : Step := raw (beBytes 8 value.toNat)

/-- Writes the header. -/
def new (domain : UInt8) : Step := do
  raw wireMagic
  u16 protocolVersion
  u8 (.ofNat (utf8 networkId).length)
  raw (utf8 networkId)
  u8 domain

def finish (bytes : List UInt8) (limit : ℕ) : Except ProtocolError (List UInt8) := do
  ensureSize bytes limit
  .ok bytes

def bytes (value : List UInt8) : Step :=
  if value.length < 2 ^ 32 then do
    u32 (.ofNat value.length)
    raw value
  else Put.fail (.malformed "byte string too long")

def string (value : String) : Step :=
  if (utf8 value).length < 2 ^ 16 then do
    u16 (.ofNat (utf8 value).length)
    raw (utf8 value)
  else Put.fail (.malformed "string too long")

def contentId (value : ContentId) : Step := raw value.bytes.toList

def peerId (value : PeerId) : Step := raw value.bytes.toList

def manifest (value : Manifest) : Step := do
  contentId value.contentId
  u64 value.length
  u32 value.chunkSize
  if value.chunks.length < 2 ^ 32 then do
    u32 (.ofNat value.chunks.length)
    value.chunks.forM fun id ↦ raw id.bytes.toList
  else Put.fail (.invalidMessage "too many manifest chunks")

def chunk (value : Chunk) : Step := do
  u32 value.index
  raw value.id.bytes.toList
  bytes value.data

def assignment (value : RouteAssignment) : Step := do
  peerId value.providerId
  raw value.providerPublicKey.toList
  string value.relayId
  string value.relayAddress
  string value.route

def optionalAssignment : Option RouteAssignment → Step
  | some value => do
    u8 1
    assignment value
  | none => u8 0

/-- The code of a capability on the wire. -/
def capability (value : PeerCapability) : Step :=
  u16 (match value with
    | .relayedTransferV1 => 1
    | .swarmTransferV1 => 2)

def message : Message → Step
  | .request id => do u8 1; contentId id
  | .manifest value => do u8 2; manifest value
  | .chunk value => do u8 3; chunk value
  | .complete => u8 4
  | .error value => do u8 5; string value
  | .swarmRequest id => do u8 16; contentId id
  | .swarmManifest value availability => do
    u8 17
    manifest value
    u32 availability.chunkCount
    bytes availability.bits
  | .chunkRequest index => do u8 18; u32 index
  | .chunkUnavailable index => do u8 19; u32 index
  | .swarmComplete => u8 20

def overlayRequest : OverlayRequest → Step
  | .registerPeer peer => do
    u8 1
    peerId peer.peerId
    raw peer.publicKey.toList
    if peer.capabilities.length < 2 ^ 8 then do
      u8 (.ofNat peer.capabilities.length)
      peer.capabilities.forM capability
      if peer.contentIds.length < 2 ^ 16 then do
        u16 (.ofNat peer.contentIds.length)
        peer.contentIds.forM contentId
      else Put.fail (.invalidMessage "too many content identifiers")
    else Put.fail (.invalidMessage "too many capabilities")
  | .heartbeatPeer id => do u8 2; peerId id
  | .pollPeer id => do u8 3; peerId id
  | .registerRelay value => do
    u8 4
    string value.relayId
    string value.address
  | .heartbeatRelay relayId => do u8 5; string relayId
  | .discover id => do u8 6; contentId id
  | .discoverProviders id limit => do
    u8 7
    contentId id
    u16 limit
  | .reportRelayFailure relayId => do u8 8; string relayId
  | .health => u8 9

def overlayResponse : OverlayResponse → Step
  | .registered leaseMs => do u8 1; u64 leaseMs
  | .assignment value => do u8 2; optionalAssignment value
  | .route value => do u8 3; optionalAssignment value
  | .routes values => do
    u8 4
    if values.length < 2 ^ 16 then do
      u16 (.ofNat values.length)
      values.forM assignment
    else Put.fail (.invalidMessage "too many routes")
  | .acknowledged => u8 5
  | .error value => do u8 255; string value

end Writer

/-! ## Reader -/

namespace Reader

/-- A reader of one field. -/
abbrev Field (α : Type) := Get ProtocolError α

variable {α : Type}

def fail (e : ProtocolError) : Field α := Get.fail e

def take (length : ℕ) : Field (List UInt8) :=
  Get.take (.malformed "length overflow") (.malformed "truncated input") length

def array (n : ℕ) : Field (List.Vector UInt8 n) := do
  let value ← take n
  if h : value.length = n then pure ⟨value, h⟩
  else fail (.malformed "truncated fixed field")

def u8 : Field UInt8 := (fun value ↦ value.headD 0) <$> take 1

def u16 : Field UInt16 := (fun value ↦ .ofNat (ofBeBytes value.toList)) <$> array 2

def u32 : Field UInt32 := (fun value ↦ .ofNat (ofBeBytes value.toList)) <$> array 4

def u64 : Field UInt64 := (fun value ↦ .ofNat (ofBeBytes value.toList)) <$> array 8

/-- Reads the header. -/
def new (domain : UInt8) : Field Unit := do
  let magic ← take 4
  if magic ≠ wireMagic then fail (.malformed "invalid magic") else do
  let version ← u16
  if version ≠ protocolVersion then fail (.unsupportedVersion version) else do
  let length ← u8
  let network ← take length.toNat
  match ofUtf8? network with
  | none => fail (.malformed "network identifier is not UTF-8")
  | some network =>
    if network ≠ networkId then fail (.wrongNetwork network) else do
    let tag ← u8
    if tag ≠ domain then fail (.malformed "wrong message domain") else pure ()

def bytes (maximum : ℕ) : Field (List UInt8) := do
  let length ← u32
  if maximum < length.toNat then fail (.invalidMessage "byte string exceeds bound")
  else take length.toNat

def string (maximum : ℕ) : Field String := do
  let length ← u16
  if maximum < length.toNat then fail (.invalidMessage "string exceeds bound") else do
  let value ← take length.toNat
  match ofUtf8? value with
  | none => fail (.malformed "string is not UTF-8")
  | some value => pure value

def contentId : Field ContentId := ContentId.mk <$> array 32

def peerId : Field PeerId := PeerId.mk <$> array 32

def chunkId : Field ChunkId := ChunkId.mk <$> array 32

def manifest : Field Manifest := do
  let contentId ← contentId
  let length ← u64
  let chunkSize ← u32
  let count ← u32
  if maxTestnetManifestChunks < count.toNat then
    fail (.invalidMessage "too many manifest chunks")
  else do
  let chunks ← chunkId.times count.toNat
  pure { contentId, length, chunkSize, chunks }

def chunk : Field Chunk := do
  let index ← u32
  let id ← chunkId
  let data ← bytes chunkSize
  pure { index, id, data }

def assignment : Field RouteAssignment := do
  let providerId ← peerId
  let providerPublicKey ← array 32
  let relayId ← string 64
  let relayAddress ← string 128
  let route ← string 128
  pure { providerId, providerPublicKey, relayId, relayAddress, route }

def optionalAssignment : Field (Option RouteAssignment) := do
  match ← u8 with
  | 0 => pure none
  | 1 => some <$> assignment
  | _ => fail (.malformed "invalid optional tag")

def capability : Field PeerCapability := do
  match ← u16 with
  | 1 => pure .relayedTransferV1
  | 2 => pure .swarmTransferV1
  | code => fail (.unsupportedCapability code)

def swarmManifest : Field (Manifest × PieceAvailability) := do
  let value ← manifest
  let chunkCount ← u32
  let bits ← bytes maxApplicationMessageBytes
  pure (value, { chunkCount, bits })

/-- The fields that follow the type byte of an application record. -/
def messageFields : UInt8 → Field Message
  | 1 => .request <$> contentId
  | 2 => .manifest <$> manifest
  | 3 => .chunk <$> chunk
  | 4 => pure .complete
  | 5 => .error <$> string maxErrorTextBytes
  | 16 => .swarmRequest <$> contentId
  | 17 => (fun (value, availability) ↦ .swarmManifest value availability) <$> swarmManifest
  | 18 => .chunkRequest <$> u32
  | 19 => .chunkUnavailable <$> u32
  | 20 => pure .swarmComplete
  | kind => fail (.unknownMessage kind)

def peerAdvertisement : Field PeerAdvertisement := do
  let peerId ← peerId
  let publicKey ← array 32
  let count ← u8
  if maxCapabilities < count.toNat then fail (.invalidMessage "too many capabilities") else do
  let capabilities ← capability.times count.toNat
  let count ← u16
  if maxAdvertisedContentIds < count.toNat then
    fail (.invalidMessage "too many content identifiers")
  else do
  let contentIds ← contentId.times count.toNat
  pure { peerId, publicKey, capabilities, contentIds }

def relayAdvertisement : Field RelayAdvertisement := do
  let relayId ← string 64
  let address ← string 128
  pure { relayId, address }

def discoverProviders : Field (ContentId × UInt16) := do
  let contentId ← contentId
  let limit ← u16
  pure (contentId, limit)

/-- The fields that follow the type byte of a discovery request. -/
def overlayRequestFields : UInt8 → Field OverlayRequest
  | 1 => .registerPeer <$> peerAdvertisement
  | 2 => .heartbeatPeer <$> peerId
  | 3 => .pollPeer <$> peerId
  | 4 => .registerRelay <$> relayAdvertisement
  | 5 => .heartbeatRelay <$> string 64
  | 6 => .discover <$> contentId
  | 7 => (fun (contentId, limit) ↦ .discoverProviders contentId limit) <$> discoverProviders
  | 8 => .reportRelayFailure <$> string 64
  | 9 => pure .health
  | kind => fail (.unknownMessage kind)

def routes : Field (List RouteAssignment) := do
  let count ← u16
  if maxDiscoveryRoutes < count.toNat then fail (.invalidMessage "too many route assignments")
  else assignment.times count.toNat

/-- The fields that follow the type byte of a discovery response. -/
def overlayResponseFields : UInt8 → Field OverlayResponse
  | 1 => .registered <$> u64
  | 2 => .assignment <$> optionalAssignment
  | 3 => .route <$> optionalAssignment
  | 4 => .routes <$> routes
  | 5 => pure .acknowledged
  | 255 => .error <$> string maxErrorTextBytes
  | kind => fail (.unknownMessage kind)

/-- The header, the type byte, and the fields that the type calls for. -/
def record (domain : UInt8) (fields : UInt8 → Field α) : Field α := do
  new domain
  let kind ← u8
  fields kind

/-- `Reader::end` -/
def finish (r : Cursor) : Except ProtocolError Unit :=
  if r.offset = r.bytes.length then .ok () else .error (.malformed "trailing bytes")

end Reader

/-! ## The public functions

The three domains differ in their size limit, their domain byte, their validator and their fields;
the order of the steps is the same. -/

section Domain

variable {α : Type}

/-- Validate, write, and check the size of what was written. -/
def encodeRecord (limit : ℕ) (domain : UInt8) (validate : α → Except ProtocolError Unit)
    (fields : α → Writer.Step) (value : α) : Except ProtocolError (List UInt8) := do
  validate value
  let (_, bytes) ← (do Writer.new domain; fields value : Writer.Step) []
  Writer.finish bytes limit

/-- Check the size, read, check that nothing is left, and validate what was read. -/
def decodeRecord (limit : ℕ) (domain : UInt8) (validate : α → Except ProtocolError Unit)
    (fields : UInt8 → Reader.Field α) (bytes : List UInt8) : Except ProtocolError α := do
  ensureSize bytes limit
  let (value, r) ← Reader.record domain fields ⟨bytes, 0⟩
  Reader.finish r
  validate value
  .ok value

end Domain

def encode : Message → Except ProtocolError (List UInt8) :=
  encodeRecord maxApplicationMessageBytes domainApplication validateMessage Writer.message

def decode : List UInt8 → Except ProtocolError Message :=
  decodeRecord maxApplicationMessageBytes domainApplication validateMessage Reader.messageFields

section External

variable (blake3 : List UInt8 → Digest) (isSocketAddr : String → Bool)

def encodeOverlayRequest : OverlayRequest → Except ProtocolError (List UInt8) :=
  encodeRecord maxOverlayMessageBytes domainOverlayRequest
    (validateOverlayRequest blake3 isSocketAddr) Writer.overlayRequest

def decodeOverlayRequest : List UInt8 → Except ProtocolError OverlayRequest :=
  decodeRecord maxOverlayMessageBytes domainOverlayRequest
    (validateOverlayRequest blake3 isSocketAddr) Reader.overlayRequestFields

def encodeOverlayResponse : OverlayResponse → Except ProtocolError (List UInt8) :=
  encodeRecord maxOverlayMessageBytes domainOverlayResponse (validateOverlayResponse isSocketAddr)
    Writer.overlayResponse

def decodeOverlayResponse : List UInt8 → Except ProtocolError OverlayResponse :=
  decodeRecord maxOverlayMessageBytes domainOverlayResponse (validateOverlayResponse isSocketAddr)
    Reader.overlayResponseFields

end External

end TripTorrent

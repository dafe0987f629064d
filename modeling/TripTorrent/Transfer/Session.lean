import TripTorrent.Core.Chunking
import TripTorrent.Protocol.Message

/-!
# The two ends of a swarm session

The provider's side of a session, as a state machine over the messages it receives, and how the
receiver's worker reads the answer to a chunk request. The encrypted session in between is
third-party transport: receiving can fail, for whatever reason, and a failure is all that either end
sees.
-/

namespace TripTorrent

/-- A failed send or receive on an encrypted session. -/
inductive SessionFailure where
  | transport
deriving DecidableEq

/-! ## The provider -/

/-- What a provider serves on one route. -/
structure ProviderContent where
  manifest : Manifest
  chunks : List Chunk
  availability : PieceAvailability
  /-- Test hook: the chunks that are sent with a flipped first byte. -/
  corruptChunks : List Bool

inductive ServeError where
  | requestFailed
  | session
  | differentContent
  | notSwarmRequest
  | sharingStopped
  | outsideManifest
  | unexpectedMessage
deriving DecidableEq

/-- The text of an error; a failure inside the loop is passed on with the transport's own text. -/
def ServeError.message : ServeError → Option String
  | .requestFailed => some "failed to receive swarm request"
  | .session => none
  | .differentContent => some "receiver requested a different content ID"
  | .notSwarmRequest => some "receiver did not begin with an M4 swarm request"
  | .sharingStopped => some "sharing stopped"
  | .outsideManifest => some "requested chunk is outside the manifest"
  | .unexpectedMessage => some "unexpected message during M4 provider session"

/-- Where a provider session stands. -/
inductive ProviderSession where
  | awaitingRequest
  | serving
  | ended (result : Except ServeError Unit)

namespace ProviderContent

variable (content : ProviderContent)

/-- A chunk as it goes out. -/
def outgoing (chunk : Chunk) (index : ℕ) : Chunk :=
  if content.corruptChunks.getD index false && !chunk.data.isEmpty then
    { chunk with data := chunk.data.modifyHead (· ^^^ 0xff) }
  else chunk

/-- The first receive: the session opens with a request for the content. -/
def openSession : Except SessionFailure Message → ProviderSession × Option Message
  | .ok (.swarmRequest contentId) =>
    if contentId = content.manifest.contentId then
      (.serving, some (.swarmManifest content.manifest content.availability))
    else
      (.ended (.error .differentContent), some (.error "content ID is not shared on this route"))
  | .ok _ => (.ended (.error .notSwarmRequest), none)
  | .error _ => (.ended (.error .requestFailed), none)

/-- One receive of the serving loop. -/
def serveRequest : Except SessionFailure Message → ProviderSession × Option Message
  | .ok (.chunkRequest index) =>
    if content.availability.contains index then
      match content.chunks[index.toNat]? with
      | some chunk => (.serving, some (.chunk (content.outgoing chunk index.toNat)))
      | none => (.ended (.error .outsideManifest), none)
    else (.serving, some (.chunkUnavailable index))
  | .ok .swarmComplete => (.ended (.ok ()), none)
  | .ok _ => (.ended (.error .unexpectedMessage), none)
  | .error _ => (.ended (.error .session), none)

/-- One receive of `serve_swarm_session`, with the answer sent if there is one. The flag is what
`keep_running` holds when the loop comes round. -/
def serveSwarmSession (keepRunning : Bool) (received : Except SessionFailure Message) :
    ProviderSession → ProviderSession × Option Message
  | .awaitingRequest => content.openSession received
  | .serving =>
    if !keepRunning then (.ended (.error .sharingStopped), none)
    else content.serveRequest received
  | .ended result => (.ended result, none)

theorem serveRequest_chunkRequest {index : UInt32} {chunk : Chunk}
    (hpiece : content.availability.contains index = true)
    (hchunk : content.chunks[index.toNat]? = some chunk) :
    content.serveRequest (.ok (.chunkRequest index)) =
      (.serving, some (.chunk (content.outgoing chunk index.toNat))) := by
  dsimp only [serveRequest]
  rw [if_pos hpiece, hchunk]

/-- What the receiver gets back for a chunk request to a session in its serving loop: the answer,
or a failed receive if the session ended instead. -/
def reply (index : UInt32) : Except SessionFailure Message :=
  match (content.serveSwarmSession true (.ok (.chunkRequest index)) .serving).2 with
  | some message => .ok message
  | none => .error .transport

end ProviderContent

/-! ## The receiver's worker -/

inductive WorkerError where
  | session
  | notAvailable (index : UInt32)
  | unexpectedResponse (message : Message)
deriving DecidableEq

/-- How a provider worker reads the answer to its request for a chunk. -/
def workerResponse (index : UInt32) : Except SessionFailure Message → Except WorkerError Chunk
  | .ok (.chunk chunk) => .ok chunk
  | .ok (.chunkUnavailable unavailable) =>
    if unavailable = index then .error (.notAvailable index)
    else .error (.unexpectedResponse (.chunkUnavailable unavailable))
  | .ok message => .error (.unexpectedResponse message)
  | .error _ => .error .session

/-! ## Honest providers -/

/-- A provider of the content that `fromBytes` cut, with the corruption hook off. -/
structure ProviderContent.Honest (content : ProviderContent) (m : Manifest) (chunks : List Chunk)
    (pieces : PieceAvailability) : Prop where
  manifest : content.manifest = m
  chunks : content.chunks = chunks
  availability : content.availability = pieces
  corruptChunks : ∀ corrupt ∈ content.corruptChunks, corrupt = false

/-- An honest provider answers a request for a chunk it announced with that chunk. -/
theorem ProviderContent.Honest.workerResponse_reply {blake3 : List UInt8 → Digest}
    {bytes : List UInt8} {content : ProviderContent} {m : Manifest} {chunks : List Chunk}
    {pieces : PieceAvailability} (h : content.Honest m chunks pieces)
    (hm : Manifest.fromBytes blake3 bytes = .ok (m, chunks)) {index : UInt32}
    (hindex : index.toNat < m.chunks.length) (hpiece : pieces.contains index = true) :
    workerResponse index (content.reply index) =
      .ok (Chunk.ofSlice blake3 bytes index.toNat) := by
  have hclean (i : ℕ) : content.corruptChunks[i]?.getD false = false := by
    cases hi : content.corruptChunks[i]? with
    | none => rfl
    | some corrupt => exact h.corruptChunks corrupt (List.mem_of_getElem? hi)
  have hout (chunk : Chunk) (i : ℕ) : content.outgoing chunk i = chunk := by
    rw [outgoing, List.getD_eq_getElem?_getD, hclean]
    rfl
  have hchunk := Manifest.getElem?_of_fromBytes hm hindex
  have hserve : content.serveSwarmSession true (.ok (.chunkRequest index)) .serving =
      (.serving, some (.chunk (Chunk.ofSlice blake3 bytes index.toNat))) := by
    refine (serveRequest_chunkRequest content ?_ (h.chunks ▸ hchunk)).trans (by rw [hout])
    rw [h.availability, hpiece]
  rw [reply, hserve]
  rfl

end TripTorrent

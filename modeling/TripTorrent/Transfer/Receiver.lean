import TripTorrent.Transfer.Session

/-!
# A transfer from one source

The two ends of a transfer outside a swarm: the sender answers a request with the manifest, all
chunks in order and a closing message; the receiver keeps the chunks it gets and puts them together
at the end. As in a swarm session, a failed receive is all that an end sees of the transport. The
receiver is done when it has the bytes of the file, which it then writes out.

The receiver verifies each chunk against the manifest when it arrives, but looks at the order and
the number of the chunks only once the sender says that it is done. Until then it keeps whatever
matches the manifest, as often as it is sent.
-/

namespace TripTorrent

/-! ## The sender -/

inductive SendError where
  | requestFailed
  | differentContent
  | noRequest
deriving DecidableEq

def SendError.message : SendError → String
  | .requestFailed => "failed to receive content request"
  | .differentContent => "receiver requested a different content ID"
  | .noRequest => "receiver did not begin with a content request"

/-- What the sender answers to the first message it receives, and why it gives up. -/
def sendContent (m : Manifest) (chunks : List Chunk) :
    Except SessionFailure Message → List Message × Except SendError Unit
  | .ok (.request requested) =>
    if requested = m.contentId then
      (.manifest m :: chunks.map .chunk ++ [.complete], .ok ())
    else ([.error "content ID is not shared on this route"], .error .differentContent)
  | .ok _ => ([], .error .noRequest)
  | .error _ => ([], .error .requestFailed)

/-! ## The receiver -/

inductive ReceiveError where
  | session
  | differentContent
  | rejected (text : String)
  | noManifest
  | unsupportedChunkSize
  | invalidChunk (error : ContentError)
  | aborted (text : String)
  | unexpectedMessage
  | invalidContent (error : ReconstructError)
deriving DecidableEq

/-- The text of an error; a failed receive is passed on with the transport's own text. -/
def ReceiveError.message : ReceiveError → Option String
  | .session => none
  | .differentContent => some "sender returned a different content ID"
  | .rejected text => some ("sender rejected request: " ++ text)
  | .noManifest => some "sender did not return a manifest"
  | .unsupportedChunkSize => some "manifest uses an unsupported experimental chunk size"
  | .invalidChunk error => some error.message
  | .aborted text => some ("sender aborted transfer: " ++ text)
  | .unexpectedMessage => some "unexpected message during chunk transfer"
  | .invalidContent error => some error.message

/-- Where a receiver stands. -/
inductive Receiver where
  | awaitingManifest
  | receiving (manifest : Manifest) (chunks : List Chunk)
  | ended (result : Except ReceiveError (List UInt8))
deriving DecidableEq

/-- The first receive: the sender answers the request with a manifest. -/
def receiveManifest (contentId : ContentId) : Except SessionFailure Message → Receiver
  | .ok (.manifest m) =>
    if m.contentId ≠ contentId then .ended (.error .differentContent)
    else if m.chunkSize.toNat ≠ chunkSize then .ended (.error .unsupportedChunkSize)
    else .receiving m []
  | .ok (.error text) => .ended (.error (.rejected text))
  | .ok _ => .ended (.error .noManifest)
  | .error _ => .ended (.error .session)

section Hashing

variable (blake3 : List UInt8 → Digest)

/-- One receive of the loop. -/
def receiveChunk (m : Manifest) (chunks : List Chunk) : Except SessionFailure Message → Receiver
  | .ok (.chunk chunk) =>
    match m.verifyChunk blake3 chunk with
    | .error error => .ended (.error (.invalidChunk error))
    | .ok () => .receiving m (chunks ++ [chunk])
  | .ok .complete =>
    match m.reconstruct blake3 chunks with
    | .error error => .ended (.error (.invalidContent error))
    | .ok bytes => .ended (.ok bytes)
  | .ok (.error text) => .ended (.error (.aborted text))
  | .ok _ => .ended (.error .unexpectedMessage)
  | .error _ => .ended (.error .session)

/-- One receive of `receive_content`. -/
def receiveContent (contentId : ContentId) (receiver : Receiver)
    (received : Except SessionFailure Message) : Receiver :=
  match receiver with
  | .awaitingManifest => receiveManifest contentId received
  | .receiving m chunks => receiveChunk blake3 m chunks received
  | .ended result => .ended result

/-- Where a receiver stands after several receives. -/
def Receiver.run (contentId : ContentId) (receiver : Receiver)
    (received : List (Except SessionFailure Message)) : Receiver :=
  received.foldl (receiveContent blake3 contentId) receiver

/-- The chunks kept so far fit the manifest and stand in the order of the file. -/
def InOrder (m : Manifest) (chunks : List Chunk) : Prop :=
  chunks.length ≤ m.chunks.length ∧
    ∀ (i : ℕ) (chunk : Chunk), chunks[i]? = some chunk → chunk.index.toNat = i

/-- From the `k`-th chunk on, a chunk that matches the manifest is sent only when it is its turn.
What is sent after something other than such a chunk does not matter. -/
def InTurn (m : Manifest) : ℕ → List (Except SessionFailure Message) → Prop
  | k, .ok (.chunk chunk) :: received =>
    m.verifyChunk blake3 chunk = .ok () → chunk.index.toNat = k ∧ InTurn m (k + 1) received
  | _, _ => True

end Hashing

variable {blake3 : List UInt8 → Digest} {contentId : ContentId} {m : Manifest} {chunks : List Chunk}
  {received : List (Except SessionFailure Message)}

namespace Receiver

@[simp] theorem run_nil (receiver : Receiver) : receiver.run blake3 contentId [] = receiver := rfl

@[simp] theorem run_cons (receiver : Receiver) (next : Except SessionFailure Message) :
    receiver.run blake3 contentId (next :: received) =
      (receiveContent blake3 contentId receiver next).run blake3 contentId received := rfl

@[simp] theorem run_ended (result : Except ReceiveError (List UInt8)) :
    (ended result).run blake3 contentId received = ended result := by
  induction received with
  | nil => rfl
  | cons next received ih => rw [run_cons, receiveContent, ih]

end Receiver

/-- What a receive in the loop can do: keep another chunk of the manifest, or end. -/
theorem receiveChunk_cases (blake3 : List UInt8 → Digest) (m : Manifest) (chunks : List Chunk)
    (next : Except SessionFailure Message) :
    (∃ chunk, next = .ok (.chunk chunk) ∧ m.verifyChunk blake3 chunk = .ok () ∧
      receiveChunk blake3 m chunks next = .receiving m (chunks ++ [chunk])) ∨
    ∃ result, receiveChunk blake3 m chunks next = .ended result ∧
      ∀ chunk, next = .ok (.chunk chunk) →
        m.verifyChunk blake3 chunk ≠ .ok () ∧ ∃ error, result = .error error := by
  rcases next with _ | message
  · exact .inr ⟨_, rfl, by simp⟩
  · cases message with
    | chunk chunk =>
      rw [receiveChunk]
      cases hverify : m.verifyChunk blake3 chunk with
      | error error =>
        refine .inr ⟨_, rfl, fun chunk' heq ↦ ?_⟩
        obtain rfl : chunk = chunk' := by simpa using heq
        exact ⟨by simp [hverify], _, rfl⟩
      | ok _ => exact .inl ⟨chunk, rfl, hverify, rfl⟩
    | complete =>
      rw [receiveChunk]
      cases m.reconstruct blake3 chunks with
      | error error => exact .inr ⟨_, rfl, by simp⟩
      | ok bytes => exact .inr ⟨_, rfl, by simp⟩
    | _ => exact .inr ⟨_, rfl, by simp⟩

theorem inTurn_cons_iff {k : ℕ} {next : Except SessionFailure Message} :
    InTurn blake3 m k (next :: received) ↔
      ∀ chunk, next = .ok (.chunk chunk) → m.verifyChunk blake3 chunk = .ok () →
        chunk.index.toNat = k ∧ InTurn blake3 m (k + 1) received := by
  rcases next with _ | message
  · simp [InTurn]
  · cases message with
    | chunk chunk => simp [InTurn]
    | _ => simp [InTurn]

/-! ## An honest sender -/

/-- The receiver keeps the chunks of an honest sender one after the other. -/
theorem run_chunks {later : List Chunk}
    (h : ∀ chunk ∈ later, m.verifyChunk blake3 chunk = .ok ()) :
    (Receiver.receiving m chunks).run blake3 contentId (later.map fun chunk ↦ .ok (.chunk chunk)) =
      .receiving m (chunks ++ later) := by
  induction later generalizing chunks with
  | nil => rw [List.append_nil, List.map_nil, Receiver.run_nil]
  | cons chunk later ih =>
    rw [List.forall_mem_cons] at h
    rw [List.map_cons, Receiver.run_cons, receiveContent, receiveChunk, h.1]
    dsimp only
    rw [ih h.2, List.append_assoc, List.singleton_append]

/-- The receiver of a file gets its bytes from a sender that has it. -/
theorem run_sendContent {bytes : List UInt8}
    (h : Manifest.fromBytes blake3 bytes = .ok (m, chunks)) :
    Receiver.awaitingManifest.run blake3 m.contentId
        ((sendContent m chunks (.ok (.request m.contentId))).1.map .ok) =
      .ended (.ok bytes) := by
  have hverify : ∀ chunk ∈ chunks, m.verifyChunk blake3 chunk = .ok () := by
    intro chunk hchunk
    obtain ⟨i, hi, rfl⟩ := Manifest.exists_ofSlice_of_mem h hchunk
    exact Manifest.verifyChunk_ofSlice h hi
  have hreconstruct : m.reconstruct blake3 chunks = .ok bytes :=
    (Manifest.reconstruct_eq_ok_iff h).mpr ⟨rfl, rfl, rfl, rfl⟩
  have hsize := Manifest.chunkSize_of_fromBytes h
  rw [sendContent, if_pos rfl, List.cons_append, List.map_cons, List.map_append, List.map_map,
    Receiver.run_cons, receiveContent, receiveManifest, if_neg (not_not.mpr rfl),
    if_neg (not_not.mpr hsize), Receiver.run, List.foldl_append]
  change receiveContent blake3 m.contentId ((Receiver.receiving m []).run blake3 m.contentId
    (chunks.map fun chunk ↦ .ok (.chunk chunk))) (.ok .complete) = _
  rw [run_chunks hverify, List.nil_append, receiveContent, receiveChunk, hreconstruct]

/-! ## Any sender -/

theorem InOrder.nil (m : Manifest) : InOrder m [] := ⟨Nat.zero_le _, by simp⟩

/-- A chunk that matches the manifest and comes in its turn keeps the order. -/
theorem InOrder.concat {chunk : Chunk} (h : InOrder m chunks)
    (hverify : m.verifyChunk blake3 chunk = .ok ()) (hturn : chunk.index.toNat = chunks.length) :
    InOrder m (chunks ++ [chunk]) := by
  have hlt : chunk.index.toNat < m.chunks.length :=
    (List.getElem?_eq_some_iff.mp (Manifest.verifyChunk_eq_ok_iff.mp hverify).1).1
  refine ⟨?_, fun i other hi ↦ ?_⟩
  · rw [List.length_append, List.length_singleton]
    omega
  · rcases Nat.lt_trichotomy i chunks.length with hlow | rfl | hhigh
    · rw [List.getElem?_append_left hlow] at hi
      exact h.2 i other hi
    · rw [List.getElem?_concat_length] at hi
      rwa [← Option.some.inj hi]
    · rw [List.getElem?_eq_none (by rw [List.length_append, List.length_singleton]; omega)] at hi
      cases hi

/-- What is asked of a receiver that has kept some chunks: at every point of what it receives then,
the chunks it keeps are in order, and a chunk out of its turn ends the transfer with an error when
it is received. -/
def KeepsOrder (blake3 : List UInt8 → Digest) (contentId : ContentId) (m : Manifest)
    (chunks : List Chunk) (received : List (Except SessionFailure Message)) : Prop :=
  (∀ before kept, before <+: received →
    (Receiver.receiving m chunks).run blake3 contentId before = .receiving m kept →
    InOrder m kept) ∧
  ∀ before kept chunk, before ++ [.ok (.chunk chunk)] <+: received →
    (Receiver.receiving m chunks).run blake3 contentId before = .receiving m kept →
    chunk.index.toNat ≠ kept.length →
    ∃ error, (Receiver.receiving m chunks).run blake3 contentId
      (before ++ [.ok (.chunk chunk)]) = .ended (.error error)

section Steps

variable {chunk : Chunk} {next : Except SessionFailure Message}

/-- A receive that ends the transfer breaks nothing. -/
theorem keepsOrder_of_ended {result : Except ReceiveError (List UInt8)} (h : InOrder m chunks)
    (hended : receiveChunk blake3 m chunks next = .ended result)
    (herror : ∀ chunk, next = .ok (.chunk chunk) → ∃ error, result = .error error) :
    KeepsOrder blake3 contentId m chunks (next :: received) := by
  have hrun (before : List (Except SessionFailure Message)) :
      (Receiver.receiving m chunks).run blake3 contentId (next :: before) = .ended result := by
    rw [Receiver.run_cons, receiveContent, hended, Receiver.run_ended]
  refine ⟨fun before kept hbefore hkept ↦ ?_, fun before kept chunk hbefore hkept _ ↦ ?_⟩
  · rcases before with _ | ⟨first, before⟩
    · rw [Receiver.run_nil, Receiver.receiving.injEq] at hkept
      exact hkept.2 ▸ h
    · obtain rfl := (List.cons_prefix_cons.mp hbefore).1
      rw [hrun] at hkept
      cases hkept
  · rcases before with _ | ⟨first, before⟩
    · rw [List.nil_append, List.cons_prefix_cons] at hbefore
      obtain ⟨error, rfl⟩ := herror chunk hbefore.1.symm
      exact ⟨error, by rw [List.nil_append, hbefore.1, hrun]⟩
    · rw [List.cons_append, List.cons_prefix_cons] at hbefore
      obtain rfl := hbefore.1
      rw [hrun] at hkept
      cases hkept

/-- A receive that keeps a chunk has to keep it in its turn. -/
theorem keepsOrder_cons_iff (h : InOrder m chunks)
    (hkeep : receiveChunk blake3 m chunks (.ok (.chunk chunk)) =
      .receiving m (chunks ++ [chunk])) :
    KeepsOrder blake3 contentId m chunks (.ok (.chunk chunk) :: received) ↔
      chunk.index.toNat = chunks.length ∧
        KeepsOrder blake3 contentId m (chunks ++ [chunk]) received := by
  have hrun (before : List (Except SessionFailure Message)) :
      (Receiver.receiving m chunks).run blake3 contentId (.ok (.chunk chunk) :: before) =
        (Receiver.receiving m (chunks ++ [chunk])).run blake3 contentId before := by
    rw [Receiver.run_cons, receiveContent, hkeep]
  constructor
  · rintro ⟨hpoints, hturns⟩
    refine ⟨?_, fun before kept hbefore hkept ↦ ?_, fun before kept other hbefore hkept hother ↦ ?_⟩
    · by_contra hturn
      obtain ⟨error, hended⟩ := hturns [] chunks chunk
        (List.cons_prefix_cons.mpr ⟨rfl, List.nil_prefix⟩) rfl hturn
      rw [List.nil_append, hrun, Receiver.run_nil] at hended
      cases hended
    · exact hpoints (.ok (.chunk chunk) :: before) kept
        (List.cons_prefix_cons.mpr ⟨rfl, hbefore⟩) ((hrun before).trans hkept)
    · have hended := hturns (.ok (.chunk chunk) :: before) kept other
        (List.cons_prefix_cons.mpr ⟨rfl, hbefore⟩) ((hrun before).trans hkept) hother
      rwa [List.cons_append, hrun] at hended
  · rintro ⟨hturn, hpoints, hturns⟩
    refine ⟨fun before kept hbefore hkept ↦ ?_, fun before kept other hbefore hkept hother ↦ ?_⟩
    · rcases before with _ | ⟨first, before⟩
      · rw [Receiver.run_nil, Receiver.receiving.injEq] at hkept
        exact hkept.2 ▸ h
      · obtain ⟨rfl, hrest⟩ := List.cons_prefix_cons.mp hbefore
        exact hpoints before kept hrest ((hrun before).symm.trans hkept)
    · rcases before with _ | ⟨first, before⟩
      · rw [List.nil_append, List.cons_prefix_cons] at hbefore
        rw [Receiver.run_nil, Receiver.receiving.injEq] at hkept
        obtain rfl : other = chunk := by simpa using hbefore.1
        exact absurd (hturn.trans (congrArg List.length hkept.2)) hother
      · rw [List.cons_append, List.cons_prefix_cons] at hbefore
        obtain ⟨rfl, hrest⟩ := hbefore
        rw [List.cons_append, hrun]
        exact hturns before kept other hrest ((hrun before).symm.trans hkept) hother

end Steps

theorem keepsOrder_iff (h : InOrder m chunks) :
    KeepsOrder blake3 contentId m chunks received ↔ InTurn blake3 m chunks.length received := by
  induction received generalizing chunks with
  | nil =>
    refine iff_of_true ⟨fun before kept hbefore hkept ↦ ?_, fun before kept chunk hbefore ↦ ?_⟩
      trivial
    · obtain rfl := List.prefix_nil.mp hbefore
      rw [Receiver.run_nil, Receiver.receiving.injEq] at hkept
      exact hkept.2 ▸ h
    · exact absurd (List.prefix_nil.mp hbefore) (by simp)
  | cons next received ih =>
    obtain ⟨chunk, rfl, hverify, hkeep⟩ | ⟨result, hended, hchunk⟩ :=
      receiveChunk_cases blake3 m chunks next
    · rw [keepsOrder_cons_iff h hkeep, InTurn]
      simp only [hverify, forall_true_left]
      refine and_congr_right fun hturn ↦ ?_
      rw [ih (h.concat hverify hturn), List.length_append, List.length_singleton]
    · refine iff_of_true (keepsOrder_of_ended h hended fun chunk heq ↦ (hchunk chunk heq).2) ?_
      exact inTurn_cons_iff.mpr fun chunk heq hverify ↦ absurd hverify (hchunk chunk heq).1

/-- **Order is up to the sender.** The receiver stays within the manifest, keeps the order and
refuses what is out of turn exactly when the sender sends the chunks of the manifest in order, each
of them once. -/
theorem receiver_keeps_order_iff (blake3 : List UInt8 → Digest) (contentId : ContentId)
    (m : Manifest) (received : List (Except SessionFailure Message)) :
    KeepsOrder blake3 contentId m [] received ↔ InTurn blake3 m 0 received :=
  keepsOrder_iff (.nil m)

open Vectors in
theorem receiver_keeps_order_payload :
    InTurn payloadHash payloadManifest 0 [.ok (.chunk payloadChunk), .ok .complete] ∧
      KeepsOrder payloadHash ⟨payloadDigest⟩ payloadManifest []
        [.ok (.chunk payloadChunk), .ok .complete] := by
  have hturn : InTurn payloadHash payloadManifest 0
      [.ok (.chunk payloadChunk), .ok .complete] := fun _ ↦ ⟨rfl, trivial⟩
  exact ⟨hturn, (receiver_keeps_order_iff _ _ _ _).mpr hturn⟩

open Vectors in
/-- A chunk sent again is kept again, although the file has only the one. -/
theorem replayed_chunk_kept :
    Receiver.awaitingManifest.run payloadHash ⟨payloadDigest⟩
        [.ok (.manifest payloadManifest), .ok (.chunk payloadChunk), .ok (.chunk payloadChunk)] =
      .receiving payloadManifest [payloadChunk, payloadChunk] ∧
    payloadManifest.chunks.length < [payloadChunk, payloadChunk].length := by
  decide +kernel

end TripTorrent

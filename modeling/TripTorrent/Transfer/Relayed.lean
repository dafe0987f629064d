import TripTorrent.Relay.Encrypted
import TripTorrent.Transfer.Receiver

/-!
# A transfer through a relay

The sender and the receiver of a file, each with an encrypted session over a connection to a relay.
Whatever the relay does and whenever it is asked, the receiver is never given anything but the first
of the sender's messages. So it can fail only by a failure of the session, before the last message;
and with the last message it has the file.
-/

namespace TripTorrent

open Net Net.TransportState Relay Relay.RelayService

variable {blake3 : List UInt8 → Digest} {m : Manifest} {chunks : List Chunk} {bytes : List UInt8}

/-- What the receives of a session return: messages, and then a failure. -/
def receives (messages : List Message) : List (Except SessionFailure Message) :=
  messages.map .ok ++ [.error .transport]

/-- Where the receiver ends when the session fails after these messages. -/
def outcomeAfter (blake3 : List UInt8 → Digest) (contentId : ContentId) (messages : List Message) :
    Receiver :=
  Receiver.awaitingManifest.run blake3 contentId (receives messages)

theorem outcomeAfter_eq (contentId : ContentId) (messages : List Message) :
    outcomeAfter blake3 contentId messages =
      receiveContent blake3 contentId
        (Receiver.awaitingManifest.run blake3 contentId (messages.map .ok)) (.error .transport) := by
  rw [outcomeAfter, receives, Receiver.run, List.foldl_append]
  rfl

/-- Before the last message the receiver has the manifest and some chunks, at most. -/
theorem outcomeAfter_of_isPrefix (h : Manifest.fromBytes blake3 bytes = .ok (m, chunks))
    {messages : List Message} (hfirst : messages <+: .manifest m :: chunks.map .chunk) :
    outcomeAfter blake3 m.contentId messages = .ended (.error .session) := by
  rw [outcomeAfter_eq]
  rcases messages with _ | ⟨first, messages⟩
  · rfl
  · obtain ⟨rfl, hrest⟩ := List.cons_prefix_cons.mp hfirst
    have htake : messages = (chunks.take messages.length).map .chunk := by
      rw [List.map_take]
      exact List.prefix_iff_eq_take.mp hrest
    have hverify : ∀ chunk ∈ chunks.take messages.length, m.verifyChunk blake3 chunk = .ok () := by
      intro chunk hchunk
      obtain ⟨i, hi, rfl⟩ := Manifest.exists_ofSlice_of_mem h (List.mem_of_mem_take hchunk)
      exact Manifest.verifyChunk_ofSlice h hi
    have hsize := Manifest.chunkSize_of_fromBytes h
    rw [htake, List.map_cons, List.map_map, Receiver.run_cons, receiveContent, receiveManifest,
      if_neg (not_not.mpr rfl), if_neg (not_not.mpr hsize)]
    change receiveContent blake3 m.contentId ((Receiver.receiving m []).run blake3 m.contentId
      ((chunks.take messages.length).map fun chunk ↦ .ok (.chunk chunk))) (.error .transport) = _
    rw [run_chunks hverify]
    rfl

/-- **A file through a relay.** A sender that has a file registers at a relay, makes a session and
answers the request for the file. At every moment of the relay, the receiver on the other connection
of the pair ends with exactly this file or with a failure of the session, and with nothing else; and
it ends with the file once the relay has passed on everything. -/
theorem file_through_relay {limits : ServiceLimits} {s : RelayService} (h : Reachable limits s)
    {k a b : ℕ} {ca cb : Connection} (hpair : s.run.2.Pairs k a b ∨ s.run.2.Pairs k b a)
    (ha : s.connections[a]? = some ca) (hb : s.connections[b]? = some cb) {route : String}
    {role : RelayRole} {registered hello greeted written : List UInt8} {t t' : TransportState}
    (hregister : register route role = .ok registered)
    (hhello : Net.writeFrame registered hello = .ok greeted)
    (hcontent : Manifest.fromBytes blake3 bytes = .ok (m, chunks))
    (hsend : (sendContent m chunks (.ok (.request m.contentId))).1.foldlM send (greeted, t) =
      .ok (written, t')) (hsent : ca.sent <+: written) :
    (outcomeAfter blake3 m.contentId (t.receiveSession cb.received).1 = .ended (.ok bytes) ∨
      outcomeAfter blake3 m.contentId (t.receiveSession cb.received).1 =
        .ended (.error .session)) ∧
    (cb.shutdown = true → ca.sent = written →
      outcomeAfter blake3 m.contentId (t.receiveSession cb.received).1 = .ended (.ok bytes)) := by
  obtain ⟨hfirst, hall⟩ := received_over_relay h hpair ha hb hregister hhello hsend hsent
  have hmessages : (sendContent m chunks (.ok (.request m.contentId))).1 =
      (.manifest m :: chunks.map .chunk) ++ [.complete] := by
    rw [sendContent, if_pos rfl]
  have hfile : outcomeAfter blake3 m.contentId
      (sendContent m chunks (.ok (.request m.contentId))).1 = .ended (.ok bytes) := by
    rw [outcomeAfter_eq, run_sendContent hcontent]
    rfl
  constructor
  · rw [hmessages] at hfirst
    rcases List.prefix_concat_iff.mp hfirst with hwhole | hpart
    · left
      rw [hwhole, ← hmessages]
      exact hfile
    · right
      exact outcomeAfter_of_isPrefix hcontent hpart
  · intro hshutdown hsame
    rw [hall hshutdown hsame]
    exact hfile

section Example

open Vectors

/-- The frame of a message, with its number. -/
def stampedFrame (n : ℕ) (message : Message) : List UInt8 :=
  stamp.encrypt n ((encode message).toOption.getD [])

def payloadMessages : List Message :=
  (sendContent payloadManifest [payloadChunk] (.ok (.request payloadManifest.contentId))).1

def payloadFrames : List (List UInt8) :=
  [stampedFrame 0 (.manifest payloadManifest), stampedFrame 1 (.chunk payloadChunk),
    stampedFrame 2 .complete]

theorem sealed_payload : Sealed stamp 0 payloadMessages payloadFrames :=
  .cons (by decide +kernel) (.cons (by decide +kernel) (.cons (by decide +kernel) (.nil 3)))

theorem file_through_relay_payload :
    ∃ s, Reachable .default s ∧ s.connections[1]? = some (listener ([1] :: payloadFrames)) ∧
      outcomeAfter payloadHash payloadManifest.contentId
        (receiveSession ⟨stamp, 0⟩ (listener ([1] :: payloadFrames)).received).1 =
          .ended (.ok payload) := by
  have hheard : Heard ([1] :: payloadFrames) := by decide +kernel
  obtain ⟨s, hreach, ha, hb, hpair⟩ := exists_conversation hheard
  have hhello : Net.writeFrame (Codec.frame 4 (registrationBytes (Codec.utf8 "r") .sender)) [1] =
      .ok (Codec.frame 4 (registrationBytes (Codec.utf8 "r") .sender) ++ Codec.frame 4 [1]) :=
    Framing.writeFrame_eq_ok_iff.mpr ⟨by decide, rfl⟩
  have hsent : (speaker ([1] :: payloadFrames)).sent =
      Codec.frame 4 (registrationBytes (Codec.utf8 "r") .sender) ++ Codec.frame 4 [1] ++
        payloadFrames.flatMap (Codec.frame 4) := by
    rw [speaker, List.flatMap_cons, List.append_assoc]
  have hcontent : Manifest.fromBytes payloadHash payload = .ok (payloadManifest, [payloadChunk]) := by
    decide +kernel
  exact ⟨s, hreach, hb, (file_through_relay hreach (.inl hpair) ha hb register_route hhello hcontent
    (send_of_sealed sealed_payload _) (hsent ▸ List.prefix_rfl)).2 rfl hsent⟩

end Example

end TripTorrent

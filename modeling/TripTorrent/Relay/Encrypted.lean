import TripTorrent.Protocol.RoundTrip
import TripTorrent.Relay.Channels

/-!
# Encrypted sessions

A session encrypts each message under the number it has in its direction, and sends it as a frame.
Key agreement and encryption are those of the Noise library, and enter as a `Cipher` for each
direction on which the two ends have agreed. The first frame in each direction is a handshake.

An end that receives is given some stream of bytes. Whatever the stream, the messages that it takes
from it are the first of those that were sent, provided that no frame in it decrypts to what was not
encrypted (`receiveAll_isPrefix`). Over a relay that is certain, since the frames are the first of
those that were sent; and over a network that forges frames it is what authentication is for.
-/

namespace TripTorrent.Net

open Codec (frame)

/-! ## Ciphers -/

/-- Encryption in one direction of a session, by the number of the message. -/
structure Cipher where
  encrypt : ℕ → List UInt8 → List UInt8
  decrypt : ℕ → List UInt8 → Option (List UInt8)
  length_encrypt : ∀ n plaintext, (encrypt n plaintext).length = plaintext.length + 16
  decrypt_encrypt : ∀ n plaintext, decrypt n (encrypt n plaintext) = some plaintext

/-- The largest message of the Noise library. -/
def maxNoiseMessage : ℕ := 65535

inductive SessionError where
  | io (error : IoError)
  | noise
  | protocol (error : ProtocolError)
deriving DecidableEq

/-- One direction of a session: the cipher, and how many messages there were. -/
structure TransportState where
  cipher : Cipher
  count : ℕ

namespace TransportState

/-- `write_message` -/
def writeMessage (t : TransportState) (plaintext : List UInt8) :
    Except SessionError (List UInt8 × TransportState) :=
  if maxNoiseMessage < plaintext.length + 16 then .error .noise
  else .ok (t.cipher.encrypt t.count plaintext, { t with count := t.count + 1 })

/-- `read_message` -/
def readMessage (t : TransportState) (ciphertext : List UInt8) :
    Except SessionError (List UInt8 × TransportState) :=
  if maxNoiseMessage < ciphertext.length then .error .noise
  else
    match t.cipher.decrypt t.count ciphertext with
    | none => .error .noise
    | some plaintext => .ok (plaintext, { t with count := t.count + 1 })

/-! ## Sessions -/

/-- `EncryptedSession::send`, to a transport that has taken the bytes so far. -/
def send (session : List UInt8 × TransportState) (message : Message) :
    Except SessionError (List UInt8 × TransportState) := do
  let plaintext ← (encode message).mapError .protocol
  let (ciphertext, t) ← session.2.writeMessage plaintext
  let writer ← (writeFrame session.1 ciphertext).mapError .io
  .ok (writer, t)

/-- `receive_frame` -/
def receiveFrame (reader : List UInt8) : Except SessionError (List UInt8 × List UInt8) :=
  match readFrame reader with
  | .error error => .error (.io error)
  | .ok none => .error (.io ⟨.unexpectedEof, "relay closed"⟩)
  | .ok (some result) => .ok result

/-- `EncryptedSession::receive`, from a transport with these bytes left. -/
def receive (t : TransportState) (reader : List UInt8) :
    Except SessionError (Message × List UInt8 × TransportState) := do
  let (ciphertext, reader) ← receiveFrame reader
  let (plaintext, t) ← t.readMessage ciphertext
  let message ← (decode plaintext).mapError .protocol
  .ok (message, reader, t)

theorem receiveFrame_eq_ok_iff {reader ciphertext rest : List UInt8} :
    receiveFrame reader = .ok (ciphertext, rest) ↔
      readFrame reader = .ok (some (ciphertext, rest)) := by
  rw [receiveFrame]
  rcases readFrame reader with error | _ | result
  · simp
  · simp
  · simp

theorem readMessage_eq_ok_iff {t t' : TransportState} {ciphertext plaintext : List UInt8} :
    t.readMessage ciphertext = .ok (plaintext, t') ↔
      ciphertext.length ≤ maxNoiseMessage ∧
        t.cipher.decrypt t.count ciphertext = some plaintext ∧ t' = ⟨t.cipher, t.count + 1⟩ := by
  rw [readMessage]
  split_ifs with hlarge
  · simp [hlarge]
  · rcases t.cipher.decrypt t.count ciphertext with _ | p
    · simp
    · simp [not_lt.mp hlarge, eq_comm]

/-- What is received is the decoded contents of the next frame. -/
theorem receive_eq_ok_iff {t t' : TransportState} {reader rest : List UInt8} {message : Message} :
    t.receive reader = .ok (message, rest, t') ↔
      ∃ ciphertext plaintext, readFrame reader = .ok (some (ciphertext, rest)) ∧
        ciphertext.length ≤ maxNoiseMessage ∧
        t.cipher.decrypt t.count ciphertext = some plaintext ∧
        encode message = .ok plaintext ∧ t' = ⟨t.cipher, t.count + 1⟩ := by
  rw [receive, Outcome.bind_eq_ok_iff]
  constructor
  · rintro ⟨⟨ciphertext, rest'⟩, hframe, h⟩
    obtain ⟨⟨plaintext, u⟩, hread, h⟩ := Outcome.bind_eq_ok_iff.mp h
    obtain ⟨message', hdecode, h⟩ := Outcome.bind_eq_ok_iff.mp h
    obtain ⟨rfl, rfl, rfl⟩ : message' = message ∧ rest' = rest ∧ u = t' := by simpa using h
    obtain ⟨hle, hdecrypt, ht⟩ := readMessage_eq_ok_iff.mp hread
    exact ⟨ciphertext, plaintext, receiveFrame_eq_ok_iff.mp hframe, hle, hdecrypt,
      decode_eq_ok_iff.mp (Outcome.mapError_eq_ok_iff.mp hdecode), ht⟩
  · rintro ⟨ciphertext, plaintext, hframe, hle, hdecrypt, hencode, rfl⟩
    refine ⟨_, receiveFrame_eq_ok_iff.mpr hframe, Outcome.bind_eq_ok_iff.mpr
      ⟨_, readMessage_eq_ok_iff.mpr ⟨hle, hdecrypt, rfl⟩, Outcome.bind_eq_ok_iff.mpr
        ⟨message, Outcome.mapError_eq_ok_iff.mpr (decode_eq_ok_iff.mpr hencode), rfl⟩⟩⟩

theorem length_rest_lt_of_receive {t t' : TransportState} {reader rest : List UInt8}
    {message : Message} (h : t.receive reader = .ok (message, rest, t')) :
    rest.length < reader.length := by
  obtain ⟨ciphertext, plaintext, hframe, -⟩ := receive_eq_ok_iff.mp h
  exact Framing.length_rest_lt hframe

/-- `receive` again and again, up to the first error. -/
def receiveAll (t : TransportState) (reader : List UInt8) : List Message × SessionError :=
  match h : t.receive reader with
  | .error error => ([], error)
  | .ok (message, rest, t') =>
    have := length_rest_lt_of_receive h
    ((receiveAll t' rest).map (message :: ·) id)
termination_by reader.length

/-- What one end receives in a session: the handshake of the other, and then messages. -/
def receiveSession (t : TransportState) (reader : List UInt8) : List Message × SessionError :=
  match receiveFrame reader with
  | .error error => ([], error)
  | .ok (_, rest) => t.receiveAll rest

/-! ## What is received -/

variable {t t' : TransportState} {messages : List Message} {stream : List UInt8}

theorem receiveAll_of_error {error : SessionError} (h : t.receive stream = .error error) :
    t.receiveAll stream = ([], error) := by
  rw [receiveAll]
  split
  · rename_i heq
    rw [h] at heq
    rw [Except.error.inj heq]
  · rename_i heq
    rw [h] at heq
    cases heq

theorem receiveAll_of_ok {message : Message} {rest : List UInt8}
    (h : t.receive stream = .ok (message, rest, t')) :
    t.receiveAll stream = (message :: (t'.receiveAll rest).1, (t'.receiveAll rest).2) := by
  rw [receiveAll]
  split
  · rename_i heq
    rw [h] at heq
    cases heq
  · rename_i heq
    rw [h] at heq
    obtain ⟨rfl, rfl, rfl⟩ : message = _ ∧ rest = _ ∧ t' = _ := by simpa using heq
    rfl

/-- The frames of a stream are genuine: what decrypts under a number is the encoding of the message
with this number. -/
def Genuine (t : TransportState) (messages : List Message) (frames : List (List UInt8)) : Prop :=
  ∀ (i : ℕ) (ciphertext plaintext : List UInt8), frames[i]? = some ciphertext →
    t.cipher.decrypt (t.count + i) ciphertext = some plaintext →
    ∃ message, messages[i]? = some message ∧ encode message = .ok plaintext

/-- From genuine frames the first of the messages are received. -/
theorem receiveAll_isPrefix (h : t.Genuine messages (framing.readAll stream).1) :
    (t.receiveAll stream).1 <+: messages := by
  induction hlength : stream.length using Nat.strong_induction_on generalizing t messages stream with
  | _ length ih =>
    rcases hreceive : t.receive stream with error | ⟨message, rest, t'⟩
    · rw [receiveAll_of_error hreceive]
      exact List.nil_prefix
    · rw [receiveAll_of_ok hreceive]
      obtain ⟨ciphertext, plaintext, hframe, -, hdecrypt, hencode, rfl⟩ :=
        receive_eq_ok_iff.mp hreceive
      rw [Framing.readAll_of_some hframe] at h
      -- the first frame is that of the first message
      obtain ⟨first, hfirst, hsame⟩ := h 0 ciphertext plaintext rfl hdecrypt
      obtain rfl : message = first := by
        rw [← decode_eq_ok_iff] at hencode hsame
        exact Except.ok.inj (hencode.symm.trans hsame)
      obtain ⟨others, rfl⟩ : ∃ others, messages = message :: others := by
        rcases messages with _ | ⟨m, others⟩
        · cases hfirst
        · exact ⟨others, by rw [Option.some.inj hfirst]⟩
      refine List.cons_prefix_cons.mpr ⟨rfl, ih rest.length ?_ ?_ rfl⟩
      · exact hlength ▸ length_rest_lt_of_receive hreceive
      · intro i x p hx hp
        have hcount : t.count + 1 + i = t.count + (i + 1) := by omega
        exact h (i + 1) x p hx (hcount ▸ hp)

/-! ## What is sent -/

/-- The frames of some messages, from a number on. -/
inductive Sealed (cipher : Cipher) : ℕ → List Message → List (List UInt8) → Prop
  | nil (n : ℕ) : Sealed cipher n [] []
  | cons {n : ℕ} {message : Message} {plaintext : List UInt8} {messages : List Message}
      {frames : List (List UInt8)} (hencode : encode message = .ok plaintext)
      (h : Sealed cipher (n + 1) messages frames) :
    Sealed cipher n (message :: messages) (cipher.encrypt n plaintext :: frames)

theorem length_le_of_encode {message : Message} {plaintext : List UInt8}
    (h : encode message = .ok plaintext) : plaintext.length + 16 ≤ maxNoiseMessage := by
  have hle := ((encodeRecord_eq_ok_iff Writer.emits_message).mp h).2.2.2
  rw [maxNoiseMessage]
  rw [maxApplicationMessageBytes] at hle
  omega

/-- A message is sent if it can be encoded: it is never too large for the Noise library or for a
frame. -/
theorem send_eq_ok_iff {writer writer' : List UInt8} {message : Message} :
    send (writer, t) message = .ok (writer', t') ↔
      ∃ plaintext, encode message = .ok plaintext ∧
        writer' = writer ++ frame 4 (t.cipher.encrypt t.count plaintext) ∧
        t' = ⟨t.cipher, t.count + 1⟩ := by
  have hwrite {plaintext : List UInt8} (hencode : encode message = .ok plaintext) :
      t.writeMessage plaintext =
        .ok (t.cipher.encrypt t.count plaintext, ⟨t.cipher, t.count + 1⟩) := by
    rw [writeMessage, if_neg (not_lt.mpr (length_le_of_encode hencode))]
  have hframe {plaintext : List UInt8} (hencode : encode message = .ok plaintext) :
      writeFrame writer (t.cipher.encrypt t.count plaintext) =
        .ok (writer ++ frame 4 (t.cipher.encrypt t.count plaintext)) := by
    refine Framing.writeFrame_eq_ok_iff.mpr ⟨?_, rfl⟩
    rw [t.cipher.length_encrypt]
    exact (length_le_of_encode hencode).trans (by decide)
  rw [send, Outcome.bind_eq_ok_iff]
  constructor
  · rintro ⟨plaintext, hencode, h⟩
    rw [Outcome.mapError_eq_ok_iff] at hencode
    obtain ⟨⟨ciphertext, u⟩, hcipher, h⟩ := Outcome.bind_eq_ok_iff.mp h
    obtain ⟨rfl, rfl⟩ := Prod.mk.inj (Except.ok.inj ((hwrite hencode).symm.trans hcipher))
    obtain ⟨written, hwritten, h⟩ := Outcome.bind_eq_ok_iff.mp h
    rw [Outcome.mapError_eq_ok_iff, hframe hencode] at hwritten
    obtain ⟨rfl, rfl⟩ := Prod.mk.inj (Except.ok.inj h)
    exact ⟨plaintext, hencode, (Except.ok.inj hwritten).symm, rfl⟩
  · rintro ⟨plaintext, hencode, rfl, rfl⟩
    refine ⟨plaintext, Outcome.mapError_eq_ok_iff.mpr hencode, ?_⟩
    refine Outcome.bind_eq_ok_iff.mpr ⟨_, hwrite hencode, ?_⟩
    exact Outcome.bind_eq_ok_iff.mpr ⟨_, Outcome.mapError_eq_ok_iff.mpr (hframe hencode), rfl⟩

/-- What a session writes for messages. -/
theorem sealed_of_send {writer written : List UInt8}
    (h : messages.foldlM send (writer, t) = .ok (written, t')) :
    ∃ frames, Sealed t.cipher t.count messages frames ∧
      written = writer ++ frames.flatMap (frame 4) := by
  induction messages generalizing writer t with
  | nil =>
    obtain ⟨rfl, rfl⟩ := Prod.mk.inj (Except.ok.inj h)
    exact ⟨[], .nil _, (List.append_nil _).symm⟩
  | cons message messages ih =>
    obtain ⟨⟨writer', u⟩, hsend, h⟩ := Outcome.bind_eq_ok_iff.mp h
    obtain ⟨plaintext, hencode, rfl, rfl⟩ := send_eq_ok_iff.mp hsend
    obtain ⟨frames, hsealed, rfl⟩ := ih h
    refine ⟨_, .cons hencode hsealed, ?_⟩
    rw [List.flatMap_cons, List.append_assoc]

theorem send_of_sealed {cipher : Cipher} {n : ℕ} {frames : List (List UInt8)}
    (h : Sealed cipher n messages frames) (writer : List UInt8) :
    messages.foldlM send (writer, ⟨cipher, n⟩) =
      .ok (writer ++ frames.flatMap (frame 4), ⟨cipher, n + messages.length⟩) := by
  induction h generalizing writer with
  | nil n => rw [List.flatMap_nil, List.append_nil]; rfl
  | @cons n message plaintext messages frames hencode h ih =>
    refine Outcome.bind_eq_ok_iff.mpr ⟨_, send_eq_ok_iff.mpr ⟨plaintext, hencode, rfl, rfl⟩, ?_⟩
    rw [ih, List.flatMap_cons, List.append_assoc, List.length_cons, Nat.add_right_comm, Nat.add_assoc]

namespace Sealed

variable {cipher : Cipher} {n : ℕ} {frames : List (List UInt8)}

theorem length_le (h : Sealed cipher n messages frames) :
    ∀ ciphertext ∈ frames, ciphertext.length ≤ maxNoiseMessage := by
  induction h with
  | nil n =>
    intro ciphertext hmem
    cases hmem
  | cons hencode h ih =>
    refine List.forall_mem_cons.mpr ⟨?_, ih⟩
    rw [cipher.length_encrypt]
    exact length_le_of_encode hencode

theorem getElem? {i : ℕ} {ciphertext : List UInt8} (h : Sealed cipher n messages frames)
    (hi : frames[i]? = some ciphertext) :
    ∃ message plaintext, messages[i]? = some message ∧ encode message = .ok plaintext ∧
      ciphertext = cipher.encrypt (n + i) plaintext := by
  induction h generalizing i with
  | nil n => cases hi
  | @cons n message plaintext messages frames hencode h ih =>
    rcases i with _ | i
    · exact ⟨message, plaintext, rfl, hencode, (Option.some.inj hi).symm⟩
    · obtain ⟨other, plaintext', hother, hencode', rfl⟩ := ih hi
      refine ⟨other, plaintext', hother, hencode', ?_⟩
      rw [Nat.add_assoc, Nat.add_comm 1 i]

/-- The first of the frames that were sent are genuine. -/
theorem genuine (h : Sealed t.cipher t.count messages frames) {received : List (List UInt8)}
    (hfirst : received <+: frames) : t.Genuine messages received := by
  intro i ciphertext plaintext hi hdecrypt
  have hi' : frames[i]? = some ciphertext := by
    obtain ⟨tail, rfl⟩ := hfirst
    rw [List.getElem?_append_left (List.getElem?_eq_some_iff.mp hi).1]
    exact hi
  obtain ⟨message, plaintext', hmessage, hencode, rfl⟩ := h.getElem? hi'
  rw [t.cipher.decrypt_encrypt] at hdecrypt
  obtain rfl := Option.some.inj hdecrypt
  exact ⟨message, hmessage, hencode⟩

/-- All messages are received from all of their frames, and then the end of the stream. -/
theorem receiveAll_eq (h : Sealed cipher n messages frames) :
    receiveAll ⟨cipher, n⟩ (frames.flatMap (frame 4)) =
      (messages, .io ⟨.unexpectedEof, "relay closed"⟩) := by
  induction h with
  | nil n =>
    refine receiveAll_of_error ?_
    have hnone : readFrame [] = .ok none := Framing.readFrame_eq_none_iff.mpr (by decide)
    rw [List.flatMap_nil, receive, receiveFrame, hnone]
    rfl
  | @cons n message plaintext messages frames hencode h ih =>
    have hlength : (cipher.encrypt n plaintext).length ≤ maxNoiseMessage := by
      rw [cipher.length_encrypt]
      exact length_le_of_encode hencode
    have hreceive : receive ⟨cipher, n⟩ ((cipher.encrypt n plaintext :: frames).flatMap (frame 4)) =
        .ok (message, frames.flatMap (frame 4), ⟨cipher, n + 1⟩) := by
      refine receive_eq_ok_iff.mpr ⟨cipher.encrypt n plaintext, plaintext, ?_, hlength,
        cipher.decrypt_encrypt n plaintext, hencode, rfl⟩
      refine Framing.readFrame_eq_some_iff.mpr ⟨hlength.trans (by decide), ?_⟩
      rw [List.flatMap_cons]
    rw [receiveAll_of_ok hreceive, ih]

end Sealed

/-! ## Sessions over a relay -/

open Relay Relay.RelayService

/-- **A session over a relay.** One end registers, sends a handshake and then messages. At every
moment the other end, which has agreed on the cipher, receives the first of these messages and no
others, whatever the relay has done so far and whatever other clients do; and when the relay has
passed on the end of everything, it receives exactly these messages, and then that the relay
closed. -/
theorem received_over_relay {limits : ServiceLimits} {s : RelayService} (h : Reachable limits s)
    {k a b : ℕ} {ca cb : Connection} (hpair : s.run.2.Pairs k a b ∨ s.run.2.Pairs k b a)
    (ha : s.connections[a]? = some ca) (hb : s.connections[b]? = some cb) {route : String}
    {role : RelayRole} {registered hello greeted written : List UInt8}
    (hregister : register route role = .ok registered)
    (hhello : writeFrame registered hello = .ok greeted)
    (hsend : messages.foldlM send (greeted, t) = .ok (written, t')) (hsent : ca.sent <+: written) :
    (t.receiveSession cb.received).1 <+: messages ∧
      (cb.shutdown = true → ca.sent = written →
        t.receiveSession cb.received = (messages, .io ⟨.unexpectedEof, "relay closed"⟩)) := by
  obtain ⟨frames, hsealed, rfl⟩ := sealed_of_send hsend
  obtain ⟨hle, rfl⟩ := Framing.writeFrame_eq_ok_iff.mp hhello
  have hlimit : ∀ ciphertext ∈ frames, ciphertext.length ≤ framing.limit :=
    fun ciphertext hmem ↦ (hsealed.length_le ciphertext hmem).trans (by decide)
  have hall : ∀ payload ∈ hello :: frames, payload.length ≤ framing.limit :=
    List.forall_mem_cons.mpr ⟨hle, hlimit⟩
  have hframes : registered ++ frame 4 hello ++ frames.flatMap (frame 4) =
      registered ++ (hello :: frames).flatMap (frame 4) := by
    rw [List.flatMap_cons, List.append_assoc]
  rw [hframes] at hsent ⊢
  obtain ⟨hpart, hwhole⟩ := h.received_of_sent hpair ha hb hregister hall hsent
  rw [List.flatMap_cons] at hpart hwhole
  constructor
  · rw [receiveSession]
    rcases hfirst : receiveFrame cb.received with error | ⟨first, rest⟩
    · exact List.nil_prefix
    · -- behind the handshake are the first of the frames
      obtain ⟨hle', hreceived⟩ := Framing.readFrame_eq_some_iff.mp (receiveFrame_eq_ok_iff.mp hfirst)
      obtain ⟨tail, htail⟩ := hpart
      rw [hreceived, List.append_assoc] at htail
      have hrest : rest <+: frames.flatMap (frame 4) :=
        ⟨tail, (Framing.frame_append_inj hle' hle htail).2⟩
      exact receiveAll_isPrefix (hsealed.genuine (Framing.readAll_isPrefix hlimit hrest))
  · intro hshutdown hsame
    have hfirst : receiveFrame cb.received = .ok (hello, frames.flatMap (frame 4)) := by
      rw [receiveFrame_eq_ok_iff, hwhole hshutdown hsame]
      exact Framing.readFrame_eq_some_iff.mpr ⟨hle, rfl⟩
    rw [receiveSession, hfirst]
    exact hsealed.receiveAll_eq

def stampTag (n : ℕ) : List UInt8 :=
  if n < 256 then List.replicate 15 0 ++ [.ofNat n] else List.replicate 16 255

theorem length_stampTag (n : ℕ) : (stampTag n).length = 16 := by
  rw [stampTag]
  split_ifs
  · rfl
  · rfl

/-- A cipher that appends the number of a message to it. -/
def stamp : Cipher where
  encrypt n plaintext := plaintext ++ stampTag n
  decrypt n ciphertext :=
    if ciphertext.drop (ciphertext.length - 16) = stampTag n then
      some (ciphertext.take (ciphertext.length - 16))
    else none
  length_encrypt n plaintext := by rw [List.length_append, length_stampTag]
  decrypt_encrypt n plaintext := by
    have hlength : (plaintext ++ stampTag n).length - 16 = plaintext.length := by
      rw [List.length_append, length_stampTag, Nat.add_sub_cancel]
    rw [hlength, List.drop_left, if_pos rfl, List.take_left]

/-- The encoding of `complete`. -/
def completeBytes : List UInt8 := [84, 84, 80, 49, 0, 1, 21] ++ Codec.utf8 networkId ++ [1, 4]

theorem encode_complete : encode .complete = .ok completeBytes := by decide +kernel

/-- The frame in which the first message is sent, if it is `complete`. -/
def completeFrame : List UInt8 := stamp.encrypt 0 completeBytes

theorem sealed_complete : Sealed stamp 0 [.complete] [completeFrame] :=
  .cons encode_complete (.nil 1)

/-- **A session over a network that nobody can trust.** Whatever stream of bytes an end is given,
with frames dropped, repeated, reordered or made up, it receives the first of the messages that were
sent, as long as no frame is forged: one that decrypts under a number is the frame that was sent
with this number. -/
theorem session_over_hostile_network {written stream : List UInt8}
    (hsend : messages.foldlM send ([], t) = .ok (written, t'))
    (hunforged : ∀ n ciphertext, ciphertext ∈ (framing.readAll stream).1 →
      (t.cipher.decrypt n ciphertext).isSome = true →
      ∃ i, n = t.count + i ∧ (framing.readAll written).1[i]? = some ciphertext) :
    (t.receiveAll stream).1 <+: messages := by
  obtain ⟨frames, hsealed, rfl⟩ := sealed_of_send hsend
  have hread : framing.readAll ([] ++ frames.flatMap (frame 4)) = (frames, .ok ()) := by
    refine Framing.readAll_of_writeAll (Framing.writeAll_eq_ok_iff.mpr ⟨?_, rfl⟩)
    exact fun ciphertext hmem ↦ (hsealed.length_le ciphertext hmem).trans (by decide)
  rw [hread] at hunforged
  refine receiveAll_isPrefix fun i ciphertext plaintext hi hdecrypt ↦ ?_
  obtain ⟨j, hj, hsent⟩ := hunforged _ ciphertext (List.mem_of_getElem? hi)
    (Option.isSome_iff_exists.mpr ⟨plaintext, hdecrypt⟩)
  obtain rfl : i = j := by omega
  exact hsealed.genuine List.prefix_rfl i ciphertext plaintext hsent hdecrypt

theorem decrypt_completeFrame {n : ℕ} (h : (stamp.decrypt n completeFrame).isSome = true) :
    n = 0 := by
  have htag : stampTag 0 = stampTag n := by
    have hdrop : completeFrame.drop (completeFrame.length - 16) = stampTag 0 := by decide +kernel
    by_contra hne
    have hnone : stamp.decrypt n completeFrame = none := if_neg (hdrop ▸ hne)
    rw [hnone] at h
    cases h
  rw [stampTag, stampTag, if_pos (by decide)] at htag
  split_ifs at htag with hn
  · have hlast : UInt8.ofNat 0 = UInt8.ofNat n := by simpa using htag
    have hnat := congrArg UInt8.toNat hlast
    rw [UInt8.toNat_ofNat_of_lt' hn] at hnat
    exact hnat.symm
  · exact absurd htag (by decide)

/-- A frame that was sent is repeated. -/
theorem session_over_hostile_network_replay :
    (receiveAll ⟨stamp, 0⟩ ([completeFrame, completeFrame].flatMap (frame 4))).1 <+:
      [.complete] := by
  have hread {frames : List (List UInt8)} (h : ∀ x ∈ frames, x = completeFrame) :
      framing.readAll (frames.flatMap (frame 4)) = (frames, .ok ()) := by
    refine Framing.readAll_of_writeAll (Framing.writeAll_eq_ok_iff.mpr ⟨fun x hx ↦ ?_, rfl⟩)
    rw [h x hx]
    decide +kernel
  refine session_over_hostile_network (send_of_sealed sealed_complete []) fun n x hx hdecrypt ↦ ?_
  rw [hread (by simp)] at hx
  obtain rfl : x = completeFrame := by simpa using hx
  have hwritten : framing.readAll ([] ++ [completeFrame].flatMap (frame 4)) =
      ([completeFrame], .ok ()) := hread (by simp)
  exact ⟨0, decrypt_completeFrame hdecrypt, by rw [hwritten]; rfl⟩

end TransportState

end TripTorrent.Net

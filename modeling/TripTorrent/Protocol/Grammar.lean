import TripTorrent.Protocol.Wire

/-!
# The wire grammar

What the codec is for: every value has one byte image, built from the images of its parts. The
images are plain functions, with no limits and no errors in them. The writer and the reader of
`Protocol.Wire` are then measured against them separately.

* A writer step *emits* the image, provided the counts fit the width of their length fields.
* A reader field *accepts* exactly the images of the values within its limits.

The limits of the two sides are different predicates, `Writable` and `Readable`, because the source
checks different things on the two sides. They are reconciled by the validators: a value that
passes its validator is both, and this is the only place where the constants meet.
-/

namespace TripTorrent

open Codec (Emits Accepts Cursor utf8 ofUtf8? ofUtf8?_eq_some_iff beBytes ofBeBytes)

/-! ## Images -/

def bytesImage (value : List UInt8) : List UInt8 := beBytes 4 value.length ++ value

def stringImage (value : String) : List UInt8 := beBytes 2 (utf8 value).length ++ utf8 value

/-- The header every record of a domain starts with. -/
def headerImage (domain : UInt8) : List UInt8 :=
  wireMagic ++ (beBytes 2 protocolVersion.toNat ++ ([.ofNat (utf8 networkId).length] ++
    (utf8 networkId ++ [domain])))

def Manifest.image (m : Manifest) : List UInt8 :=
  m.contentId.bytes.toList ++ (beBytes 8 m.length.toNat ++ (beBytes 4 m.chunkSize.toNat ++
    (beBytes 4 m.chunks.length ++ m.chunks.flatMap fun id ↦ id.bytes.toList)))

def Chunk.image (c : Chunk) : List UInt8 :=
  beBytes 4 c.index.toNat ++ (c.id.bytes.toList ++ bytesImage c.data)

def RouteAssignment.image (a : RouteAssignment) : List UInt8 :=
  a.providerId.bytes.toList ++ (a.providerPublicKey.toList ++ (stringImage a.relayId ++
    (stringImage a.relayAddress ++ stringImage a.route)))

def optionalImage : Option RouteAssignment → List UInt8
  | none => [0]
  | some a => [1] ++ a.image

def PeerCapability.code : PeerCapability → UInt16
  | .relayedTransferV1 => 1
  | .swarmTransferV1 => 2

def PeerCapability.image (c : PeerCapability) : List UInt8 := beBytes 2 c.code.toNat

def PeerAdvertisement.image (p : PeerAdvertisement) : List UInt8 :=
  p.peerId.bytes.toList ++ (p.publicKey.toList ++ ([.ofNat p.capabilities.length] ++
    (p.capabilities.flatMap PeerCapability.image ++ (beBytes 2 p.contentIds.length ++
      p.contentIds.flatMap fun id ↦ id.bytes.toList))))

namespace Message

/-- The type byte. -/
def tag : Message → UInt8
  | .request _ => 1
  | .manifest _ => 2
  | .chunk _ => 3
  | .complete => 4
  | .error _ => 5
  | .swarmRequest _ => 16
  | .swarmManifest _ _ => 17
  | .chunkRequest _ => 18
  | .chunkUnavailable _ => 19
  | .swarmComplete => 20

/-- What follows the type byte. -/
def fields : Message → List UInt8
  | .request id | .swarmRequest id => id.bytes.toList
  | .manifest m => m.image
  | .chunk c => c.image
  | .complete | .swarmComplete => []
  | .error text => stringImage text
  | .swarmManifest m a => m.image ++ (beBytes 4 a.chunkCount.toNat ++ bytesImage a.bits)
  | .chunkRequest index | .chunkUnavailable index => beBytes 4 index.toNat

/-- The counts fit their length fields. -/
def Writable : Message → Prop
  | .manifest m => m.chunks.length < 2 ^ 32
  | .chunk c => c.data.length < 2 ^ 32
  | .error text => (utf8 text).length < 2 ^ 16
  | .swarmManifest m a => m.chunks.length < 2 ^ 32 ∧ a.bits.length < 2 ^ 32
  | _ => True

/-- The counts are within what the reader allows. -/
def Readable : Message → Prop
  | .manifest m => m.chunks.length ≤ maxTestnetManifestChunks
  | .chunk c => c.data.length ≤ chunkSize
  | .error text => (utf8 text).length ≤ maxErrorTextBytes
  | .swarmManifest m a =>
    m.chunks.length ≤ maxTestnetManifestChunks ∧ a.bits.length ≤ maxApplicationMessageBytes
  | _ => True

end Message

namespace OverlayRequest

/-- The type byte. -/
def tag : OverlayRequest → UInt8
  | .registerPeer _ => 1
  | .heartbeatPeer _ => 2
  | .pollPeer _ => 3
  | .registerRelay _ => 4
  | .heartbeatRelay _ => 5
  | .discover _ => 6
  | .discoverProviders _ _ => 7
  | .reportRelayFailure _ => 8
  | .health => 9

/-- What follows the type byte. -/
def fields : OverlayRequest → List UInt8
  | .registerPeer p => p.image
  | .heartbeatPeer id | .pollPeer id => id.bytes.toList
  | .registerRelay r => stringImage r.relayId ++ stringImage r.address
  | .heartbeatRelay relayId | .reportRelayFailure relayId => stringImage relayId
  | .discover id => id.bytes.toList
  | .discoverProviders id limit => id.bytes.toList ++ beBytes 2 limit.toNat
  | .health => []

/-- The counts fit their length fields. -/
def Writable : OverlayRequest → Prop
  | .registerPeer p => p.capabilities.length < 2 ^ 8 ∧ p.contentIds.length < 2 ^ 16
  | .registerRelay r => (utf8 r.relayId).length < 2 ^ 16 ∧ (utf8 r.address).length < 2 ^ 16
  | .heartbeatRelay relayId | .reportRelayFailure relayId => (utf8 relayId).length < 2 ^ 16
  | _ => True

/-- The counts are within what the reader allows. -/
def Readable : OverlayRequest → Prop
  | .registerPeer p =>
    p.capabilities.length ≤ maxCapabilities ∧ p.contentIds.length ≤ maxAdvertisedContentIds
  | .registerRelay r => (utf8 r.relayId).length ≤ 64 ∧ (utf8 r.address).length ≤ 128
  | .heartbeatRelay relayId | .reportRelayFailure relayId => (utf8 relayId).length ≤ 64
  | _ => True

end OverlayRequest

namespace RouteAssignment

/-- The strings fit their length fields. -/
def Writable (a : RouteAssignment) : Prop :=
  (utf8 a.relayId).length < 2 ^ 16 ∧ (utf8 a.relayAddress).length < 2 ^ 16 ∧
    (utf8 a.route).length < 2 ^ 16

/-- The strings are within what the reader allows. -/
def Readable (a : RouteAssignment) : Prop :=
  (utf8 a.relayId).length ≤ 64 ∧ (utf8 a.relayAddress).length ≤ 128 ∧ (utf8 a.route).length ≤ 128

end RouteAssignment

namespace OverlayResponse

/-- The type byte. -/
def tag : OverlayResponse → UInt8
  | .registered _ => 1
  | .assignment _ => 2
  | .route _ => 3
  | .routes _ => 4
  | .acknowledged => 5
  | .error _ => 255

/-- What follows the type byte. -/
def fields : OverlayResponse → List UInt8
  | .registered leaseMs => beBytes 8 leaseMs.toNat
  | .assignment value | .route value => optionalImage value
  | .routes values => beBytes 2 values.length ++ values.flatMap RouteAssignment.image
  | .acknowledged => []
  | .error text => stringImage text

/-- The counts fit their length fields. -/
def Writable : OverlayResponse → Prop
  | .assignment value | .route value => ∀ a ∈ value, a.Writable
  | .routes values => values.length < 2 ^ 16 ∧ ∀ a ∈ values, a.Writable
  | .error text => (utf8 text).length < 2 ^ 16
  | _ => True

/-- The counts are within what the reader allows. -/
def Readable : OverlayResponse → Prop
  | .assignment value | .route value => ∀ a ∈ value, a.Readable
  | .routes values => values.length ≤ maxDiscoveryRoutes ∧ ∀ a ∈ values, a.Readable
  | .error text => (utf8 text).length ≤ maxErrorTextBytes
  | _ => True

end OverlayResponse

/-! ## The writer emits the images -/

namespace Writer

theorem emits_raw (value : List UInt8) : Emits (raw value) True value := Emits.raw value

theorem emits_u8 (value : UInt8) : Emits (u8 value) True [value] := Emits.raw _

theorem emits_u16 (value : UInt16) : Emits (u16 value) True (beBytes 2 value.toNat) :=
  Emits.raw _

theorem emits_u32 (value : UInt32) : Emits (u32 value) True (beBytes 4 value.toNat) :=
  Emits.raw _

theorem emits_u64 (value : UInt64) : Emits (u64 value) True (beBytes 8 value.toNat) :=
  Emits.raw _

theorem emits_bytes (value : List UInt8) :
    Emits (bytes value) (value.length < 2 ^ 32) (bytesImage value) := by
  refine ((emits_u32 (.ofNat value.length)).seq (emits_raw value)).guard.congr (by simp) ?_
  rintro ⟨hlen, -⟩
  rw [bytesImage, UInt32.toNat_ofNat_of_lt' hlen]

theorem emits_string (value : String) :
    Emits (string value) ((utf8 value).length < 2 ^ 16) (stringImage value) := by
  refine ((emits_u16 (.ofNat (utf8 value).length)).seq (emits_raw _)).guard.congr (by simp) ?_
  rintro ⟨hlen, -⟩
  rw [stringImage, UInt16.toNat_ofNat_of_lt' hlen]

theorem emits_new (domain : UInt8) : Emits (new domain) True (headerImage domain) :=
  ((emits_raw wireMagic).seq ((emits_u16 protocolVersion).seq ((emits_u8 _).seq
    ((emits_raw _).seq (emits_u8 domain))))).congr (by simp) fun _ ↦ rfl

theorem emits_contentId (value : ContentId) : Emits (contentId value) True value.bytes.toList :=
  Emits.raw _

theorem emits_peerId (value : PeerId) : Emits (peerId value) True value.bytes.toList :=
  Emits.raw _

theorem emits_manifest (value : Manifest) :
    Emits (manifest value) (value.chunks.length < 2 ^ 32) value.image := by
  have hchunks := Emits.forM (fun id : ChunkId ↦ emits_raw id.bytes.toList) value.chunks
  refine ((emits_contentId _).seq ((emits_u64 _).seq ((emits_u32 _).seq
    (((emits_u32 (.ofNat value.chunks.length)).seq hchunks).guard)))).congr (by simp) ?_
  rintro ⟨-, -, -, hlen, -⟩
  rw [Manifest.image, UInt32.toNat_ofNat_of_lt' hlen]

theorem emits_chunk (value : Chunk) :
    Emits (chunk value) (value.data.length < 2 ^ 32) value.image :=
  ((emits_u32 _).seq ((emits_raw _).seq (emits_bytes _))).congr (by simp) fun _ ↦ rfl

theorem emits_assignment (value : RouteAssignment) :
    Emits (assignment value) value.Writable value.image :=
  ((emits_peerId _).seq ((emits_raw _).seq ((emits_string _).seq
    ((emits_string _).seq (emits_string _))))).congr (by simp [RouteAssignment.Writable])
    fun _ ↦ rfl

theorem emits_optionalAssignment (value : Option RouteAssignment) :
    Emits (optionalAssignment value) (∀ a ∈ value, a.Writable) (optionalImage value) := by
  cases value with
  | none => exact (emits_u8 0).congr (by simp) fun _ ↦ rfl
  | some a => exact ((emits_u8 1).seq (emits_assignment a)).congr (by simp) fun _ ↦ rfl

theorem emits_capability (value : PeerCapability) :
    Emits (capability value) True value.image := by
  cases value <;> exact emits_u16 _

/-- A type byte in front of the fields. -/
theorem emits_tagged {w : Step} {p : Prop} {image : List UInt8} (tag : UInt8)
    (h : Emits w p image) : Emits (do u8 tag; w) p ([tag] ++ image) :=
  ((emits_u8 tag).seq h).congr (by simp) fun _ ↦ rfl

theorem emits_message (m : Message) : Emits (message m) m.Writable ([m.tag] ++ m.fields) := by
  cases m with
  | request id => exact emits_tagged 1 (emits_contentId id)
  | manifest m => exact emits_tagged 2 (emits_manifest m)
  | chunk c => exact emits_tagged 3 (emits_chunk c)
  | complete => exact emits_u8 4
  | error text => exact emits_tagged 5 (emits_string text)
  | swarmRequest id => exact emits_tagged 16 (emits_contentId id)
  | swarmManifest m a =>
    have havailability := (emits_u32 a.chunkCount).seq (emits_bytes a.bits)
    refine emits_tagged 17 (((emits_manifest m).seq havailability).congr ?_ fun _ ↦ rfl)
    simp [Message.Writable]
  | chunkRequest index => exact emits_tagged 18 (emits_u32 index)
  | chunkUnavailable index => exact emits_tagged 19 (emits_u32 index)
  | swarmComplete => exact emits_u8 20

theorem emits_overlayRequest (q : OverlayRequest) :
    Emits (overlayRequest q) q.Writable ([q.tag] ++ q.fields) := by
  cases q with
  | registerPeer p =>
    have hcaps := Emits.forM emits_capability p.capabilities
    have hids := Emits.forM emits_contentId p.contentIds
    refine emits_tagged 1 (((emits_peerId _).seq ((emits_raw _).seq
      ((emits_u8 (.ofNat p.capabilities.length)).seq (hcaps.seq
        ((emits_u16 (.ofNat p.contentIds.length)).seq hids).guard)).guard)).congr ?_ ?_)
    · simp [OverlayRequest.Writable]
    · rintro ⟨-, -, -, -, -, hlen, -⟩
      rw [OverlayRequest.fields, PeerAdvertisement.image, UInt16.toNat_ofNat_of_lt' hlen]
  | heartbeatPeer id => exact emits_tagged 2 (emits_peerId id)
  | pollPeer id => exact emits_tagged 3 (emits_peerId id)
  | registerRelay r =>
    exact emits_tagged 4 ((emits_string r.relayId).seq (emits_string r.address))
  | heartbeatRelay relayId => exact emits_tagged 5 (emits_string relayId)
  | discover id => exact emits_tagged 6 (emits_contentId id)
  | discoverProviders id limit =>
    refine emits_tagged 7 (((emits_contentId id).seq (emits_u16 limit)).congr ?_ fun _ ↦ rfl)
    simp [OverlayRequest.Writable]
  | reportRelayFailure relayId => exact emits_tagged 8 (emits_string relayId)
  | health => exact emits_u8 9

theorem emits_overlayResponse (p : OverlayResponse) :
    Emits (overlayResponse p) p.Writable ([p.tag] ++ p.fields) := by
  cases p with
  | registered leaseMs => exact emits_tagged 1 (emits_u64 leaseMs)
  | assignment value => exact emits_tagged 2 (emits_optionalAssignment value)
  | route value => exact emits_tagged 3 (emits_optionalAssignment value)
  | routes values =>
    have hvalues := Emits.forM emits_assignment values
    refine emits_tagged 4
      (((emits_u16 (.ofNat values.length)).seq hvalues).guard.congr ?_ ?_)
    · simp [OverlayResponse.Writable]
    · rintro ⟨hlen, -⟩
      rw [OverlayResponse.fields, UInt16.toNat_ofNat_of_lt' hlen]
  | acknowledged => exact emits_u8 5
  | error text => exact emits_tagged 255 (emits_string text)

end Writer

/-! ## The reader accepts the images -/

namespace Reader

theorem accepts_take (n : ℕ) : Accepts (take n) (fun l ↦ l.length = n) id :=
  Accepts.take _ _ n

theorem accepts_array (n : ℕ) : Accepts (array n) (fun _ ↦ True) List.Vector.toList := by
  refine (Accepts.bind List.Vector.toList (accepts_take n) (q := fun l v ↦ v.toList = l)
    (v := fun _ _ ↦ []) (fun l hl ↦ ?_) fun l v _ hv ↦ hv.symm).congr (by simp)
    fun v _ ↦ by rw [List.append_nil, id]
  rw [dif_pos hl]
  refine (Accepts.pure (⟨l, hl⟩ : List.Vector UInt8 n)).congr (fun v ↦ ?_) fun _ _ ↦ rfl
  exact ⟨fun h ↦ by rw [h]; rfl, fun h ↦ List.Vector.toList_injective h⟩

theorem accepts_u8 : Accepts u8 (fun _ ↦ True) (fun v ↦ [v]) := by
  refine (accepts_take 1).map (fun b ↦ ?_) (fun l hl ↦ ?_)
  · simp only [true_iff]
    exact ⟨[b], rfl, rfl⟩
  · obtain ⟨b, rfl⟩ := List.length_eq_one_iff.mp hl
    rfl

/-- A word of `k` bytes. The two conversions are inverse to each other below `256 ^ k`. -/
theorem accepts_word {α : Type} {k : ℕ} {ofNat : ℕ → α} {toNat : α → ℕ}
    (hlt : ∀ v, toNat v < 256 ^ k) (hofNat : ∀ v, ofNat (toNat v) = v)
    (htoNat : ∀ n < 256 ^ k, toNat (ofNat n) = n) :
    Accepts ((fun v : List.Vector UInt8 k ↦ ofNat (ofBeBytes v.toList)) <$> array k)
      (fun _ ↦ True) (fun v ↦ beBytes k (toNat v)) := by
  refine (accepts_array k).map (fun v ↦ ?_) (fun l _ ↦ ?_)
  · simp only [true_iff, true_and]
    refine ⟨⟨beBytes k (toNat v), Codec.length_beBytes (hlt v)⟩, ?_⟩
    rw [List.Vector.toList_mk, Codec.ofBeBytes_beBytes (hlt v), hofNat]
  · have hlen : l.toList.length = k := l.toList_length
    have hbytes := Codec.beBytes_ofBeBytes l.toList
    have hval := Codec.ofBeBytes_lt l.toList
    rw [hlen] at hbytes hval
    rw [htoNat _ hval, hbytes]

theorem accepts_u16 : Accepts u16 (fun _ ↦ True) (fun v ↦ beBytes 2 v.toNat) :=
  accepts_word Codec.UInt16.toNat_lt_pow (fun _ ↦ UInt16.ofNat_toNat)
    fun _ h ↦ UInt16.toNat_ofNat_of_lt' h

theorem accepts_u32 : Accepts u32 (fun _ ↦ True) (fun v ↦ beBytes 4 v.toNat) :=
  accepts_word Codec.UInt32.toNat_lt_pow (fun _ ↦ UInt32.ofNat_toNat)
    fun _ h ↦ UInt32.toNat_ofNat_of_lt' h

theorem accepts_u64 : Accepts u64 (fun _ ↦ True) (fun v ↦ beBytes 8 v.toNat) :=
  accepts_word Codec.UInt64.toNat_lt_pow (fun _ ↦ UInt64.ofNat_toNat)
    fun _ h ↦ UInt64.toNat_ofNat_of_lt' h

/-- A length field followed by that many bytes, the bytes being decoded in the second step. -/
theorem accepts_bytes (maximum : ℕ) (hmax : maximum < 2 ^ 32) :
    Accepts (bytes maximum) (fun l ↦ l.length ≤ maximum) bytesImage := by
  refine (Accepts.bind (fun l : List UInt8 ↦ UInt32.ofNat l.length) accepts_u32
    (fun n _ ↦ Accepts.guard fun _ ↦ accepts_take n.toNat) (fun n l _ h ↦ ?_)).congr
    (fun l ↦ ?_) (fun l h ↦ ?_)
  · rw [h.2, UInt32.ofNat_toNat]
  · constructor
    · rintro ⟨-, hle, hlen⟩
      omega
    · intro hle
      have hn : (UInt32.ofNat l.length).toNat = l.length :=
        UInt32.toNat_ofNat_of_lt' (hle.trans_lt hmax)
      rw [hn]
      exact ⟨trivial, by omega, rfl⟩
  · rw [bytesImage, ← h.2.2, id]

theorem accepts_string (maximum : ℕ) (hmax : maximum < 2 ^ 16) :
    Accepts (string maximum) (fun s ↦ (utf8 s).length ≤ maximum) stringImage := by
  refine (Accepts.bind (fun s : String ↦ UInt16.ofNat (utf8 s).length) accepts_u16
    (q := fun n s ↦ ¬maximum < n.toNat ∧ (utf8 s).length = n.toNat) (v := fun _ s ↦ utf8 s)
    (fun n _ ↦ Accepts.guard fun _ ↦ ?_) (fun n s _ h ↦ ?_)).congr (fun s ↦ ?_) (fun s h ↦ ?_)
  · refine (Accepts.bind utf8 (accepts_take n.toNat) (q := fun l s ↦ l = utf8 s)
      (v := fun _ _ ↦ []) (fun l _ ↦ ?_) fun l s _ h ↦ h).congr (by simp)
      fun s _ ↦ by rw [List.append_nil, id]
    cases hl : ofUtf8? l with
    | none =>
      refine Accepts.fail _ fun s hs ↦ ?_
      rw [ofUtf8?_eq_some_iff.mpr hs] at hl
      cases hl
    | some t =>
      obtain rfl := ofUtf8?_eq_some_iff.mp hl
      exact (Accepts.pure t).congr
        (fun s ↦ ⟨fun h ↦ by rw [h], fun h ↦ Codec.utf8_injective h.symm⟩) fun _ _ ↦ rfl
  · rw [h.2, UInt16.ofNat_toNat]
  · constructor
    · rintro ⟨-, hle, hlen⟩
      omega
    · intro hle
      have hn : (UInt16.ofNat (utf8 s).length).toNat = (utf8 s).length :=
        UInt16.toNat_ofNat_of_lt' (hle.trans_lt hmax)
      rw [hn]
      exact ⟨trivial, by omega, rfl⟩
  · rw [stringImage, ← h.2.2]

/-- A fixed-width field wrapped by a bijective constructor. -/
theorem accepts_wrapped {α : Type} {mk : Digest → α} (bytes : α → Digest)
    (hmk : ∀ a, mk (bytes a) = a) (hbytes : ∀ d, bytes (mk d) = d) :
    Accepts (mk <$> array 32) (fun _ ↦ True) (fun a ↦ (bytes a).toList) :=
  (accepts_array 32).map (fun a ↦ by simpa using ⟨_, hmk a⟩) fun d _ ↦ by rw [hbytes]

theorem accepts_contentId : Accepts contentId (fun _ ↦ True) (fun a ↦ a.bytes.toList) :=
  accepts_wrapped ContentId.bytes (fun _ ↦ rfl) fun _ ↦ rfl

theorem accepts_peerId : Accepts peerId (fun _ ↦ True) (fun a ↦ a.bytes.toList) :=
  accepts_wrapped PeerId.bytes (fun _ ↦ rfl) fun _ ↦ rfl

theorem accepts_chunkId : Accepts chunkId (fun _ ↦ True) (fun a ↦ a.bytes.toList) :=
  accepts_wrapped ChunkId.bytes (fun _ ↦ rfl) fun _ ↦ rfl

/-- The last step of a record: every field has been read, and the record is put together. -/
theorem accepts_record {α : Type} (x : α) :
    Accepts (pure x : Field α) (fun a ↦ a = x) (fun _ ↦ []) := Accepts.pure x

/-- Bytes that have to be a string are read as before, where they are one. -/
theorem accepts_match_ofUtf8 {β : Type} {l : List UInt8} {e : ProtocolError}
    {field : String → Field β} {D : β → Prop} {image : β → List UInt8}
    (hvalid : ∀ b, D b → ∃ text, l = utf8 text)
    (hfield : ∀ text, l = utf8 text → Accepts (field text) D image) :
    Accepts (match ofUtf8? l with
      | none => fail e
      | some text => field text) D image := by
  cases hl : ofUtf8? l with
  | none =>
    refine Accepts.fail _ fun b hb ↦ ?_
    obtain ⟨text, htext⟩ := hvalid b hb
    rw [ofUtf8?_eq_some_iff.mpr htext] at hl
    cases hl
  | some text => exact hfield text (ofUtf8?_eq_some_iff.mp hl)

theorem accepts_new (domain : UInt8) :
    Accepts (new domain) (fun _ ↦ True) (fun _ ↦ headerImage domain) := by
  have hnetwork : (utf8 networkId).length = 21 := by decide
  have htag : Accepts (do
      let tag ← u8
      if tag ≠ domain then fail (.malformed "wrong message domain") else pure () : Field Unit)
      (fun _ ↦ True) (fun _ ↦ [domain]) :=
    (Accepts.bind (fun _ ↦ domain) accepts_u8 (fun _ _ ↦ Accepts.guard fun _ ↦ Accepts.pure ())
      fun a _ _ h ↦ not_not.mp h.1).congr (by simp) fun _ _ ↦ by simp
  have hname {l : List UInt8} (network : String) (hl : l = utf8 network) : Accepts (do
      if network ≠ networkId then fail (.wrongNetwork network) else do
      let tag ← u8
      if tag ≠ domain then fail (.malformed "wrong message domain") else pure () : Field Unit)
      (fun _ ↦ l = utf8 networkId) (fun _ ↦ [domain]) := by
    refine (Accepts.guard fun _ ↦ htag).congr (fun _ ↦ ?_) fun _ _ ↦ rfl
    simp [hl, Codec.utf8_injective.eq_iff]
  refine (Accepts.bind (fun _ ↦ wireMagic) (accepts_take 4) (fun _ _ ↦ Accepts.guard fun _ ↦
    Accepts.bind (fun _ ↦ protocolVersion) accepts_u16 (fun _ _ ↦ Accepts.guard fun _ ↦
      Accepts.bind (fun _ ↦ .ofNat (utf8 networkId).length) accepts_u8 (fun n _ ↦
        Accepts.bind (fun _ ↦ utf8 networkId) (accepts_take n.toNat) (fun l _ ↦
          accepts_match_ofUtf8 (fun _ h ↦ ⟨networkId, h⟩) hname) fun _ _ _ h ↦ h)
        ?_) fun _ _ _ h ↦ not_not.mp h.1) fun _ _ _ h ↦ not_not.mp h.1).congr ?_ ?_
  · rintro n _ - ⟨hlen, -⟩
    rw [hlen, UInt8.ofNat_toNat]
  · intro _
    rw [hnetwork]
    simp [wireMagic]
  · intro _ _
    rfl

theorem accepts_manifest : Accepts manifest
    (fun m ↦ m.chunks.length ≤ maxTestnetManifestChunks) Manifest.image := by
  refine (Accepts.bind Manifest.contentId accepts_contentId (fun _ _ ↦
    Accepts.bind Manifest.length accepts_u64 (fun _ _ ↦
      Accepts.bind Manifest.chunkSize accepts_u32 (fun _ _ ↦
        Accepts.bind (fun m ↦ UInt32.ofNat m.chunks.length) accepts_u32 (fun n _ ↦
          Accepts.guard fun _ ↦ Accepts.bind Manifest.chunks (accepts_chunkId.times n.toNat)
            (fun _ _ ↦ accepts_record _) fun _ _ _ h ↦ (congrArg Manifest.chunks h).symm)
          fun n m _ h ↦ by rw [h.2.1.1, UInt32.ofNat_toNat])
        fun _ _ _ h ↦ (congrArg Manifest.chunkSize h.2.2.2).symm)
      fun _ _ _ h ↦ (congrArg Manifest.length h.2.2.2.2).symm)
    fun _ _ _ h ↦ (congrArg Manifest.contentId h.2.2.2.2.2).symm).congr (fun m ↦ ?_) fun m h ↦ ?_
  · constructor
    · rintro ⟨-, -, -, -, hle, ⟨hlen, -⟩, -⟩
      omega
    · intro hle
      have hn : (UInt32.ofNat m.chunks.length).toNat = m.chunks.length :=
        UInt32.toNat_ofNat_of_lt' (hle.trans_lt (by decide))
      rw [hn]
      exact ⟨trivial, trivial, trivial, trivial, by omega, ⟨rfl, fun _ _ ↦ trivial⟩, rfl⟩
  · obtain ⟨-, -, -, -, -, ⟨hlen, -⟩, -⟩ := h
    rw [Manifest.image, ← hlen, List.append_nil]

theorem accepts_chunk : Accepts chunk (fun c ↦ c.data.length ≤ chunkSize) Chunk.image := by
  refine (Accepts.bind Chunk.index accepts_u32 (fun _ _ ↦
    Accepts.bind Chunk.id accepts_chunkId (fun _ _ ↦
      Accepts.bind Chunk.data (accepts_bytes chunkSize (by decide)) (fun _ _ ↦ accepts_record _)
        fun _ _ _ h ↦ (congrArg Chunk.data h).symm)
      fun _ _ _ h ↦ (congrArg Chunk.id h.2).symm)
    fun _ _ _ h ↦ (congrArg Chunk.index h.2.2).symm).congr (fun c ↦ ?_) fun c _ ↦ ?_
  · simp
  · rw [Chunk.image, List.append_nil]

theorem accepts_assignment : Accepts assignment RouteAssignment.Readable RouteAssignment.image := by
  refine (Accepts.bind RouteAssignment.providerId accepts_peerId (fun _ _ ↦
    Accepts.bind RouteAssignment.providerPublicKey (accepts_array 32) (fun _ _ ↦
      Accepts.bind RouteAssignment.relayId (accepts_string 64 (by decide)) (fun _ _ ↦
        Accepts.bind RouteAssignment.relayAddress (accepts_string 128 (by decide)) (fun _ _ ↦
          Accepts.bind RouteAssignment.route (accepts_string 128 (by decide))
            (fun _ _ ↦ accepts_record _) fun _ _ _ h ↦ (congrArg RouteAssignment.route h).symm)
          fun _ _ _ h ↦ (congrArg RouteAssignment.relayAddress h.2).symm)
        fun _ _ _ h ↦ (congrArg RouteAssignment.relayId h.2.2).symm)
      fun _ _ _ h ↦ (congrArg RouteAssignment.providerPublicKey h.2.2.2).symm)
    fun _ _ _ h ↦ (congrArg RouteAssignment.providerId h.2.2.2.2).symm).congr
    (fun a ↦ ?_) fun a _ ↦ ?_
  · simp [RouteAssignment.Readable]
  · rw [RouteAssignment.image, List.append_nil]

theorem accepts_optionalAssignment : Accepts optionalAssignment
    (fun value ↦ ∀ a ∈ value, a.Readable) optionalImage := by
  refine (Accepts.bind (fun value : Option RouteAssignment ↦ if value.isSome then 1 else 0)
    accepts_u8
    (q := fun tag value ↦ (if value.isSome then 1 else 0) = tag ∧ ∀ a ∈ value, a.Readable)
    (v := fun _ value ↦ value.elim [] RouteAssignment.image) (fun tag _ ↦ ?_)
    fun _ _ _ h ↦ h.1.symm).congr (fun value ↦ ?_) fun value _ ↦ ?_
  · split
    · exact (Accepts.pure none).congr (fun value ↦ by cases value <;> simp)
        fun value h ↦ by rw [h]; rfl
    · exact accepts_assignment.map (fun value ↦ by cases value <;> simp) fun _ _ ↦ rfl
    · rename_i hzero hone
      refine Accepts.fail _ fun value h ↦ ?_
      cases value with
      | none => exact hzero h.1.symm
      | some a => exact hone h.1.symm
  · simp
  · cases value <;> rfl

theorem accepts_capability : Accepts capability (fun _ ↦ True) PeerCapability.image := by
  refine (Accepts.bind PeerCapability.code accepts_u16 (q := fun code c ↦ c.code = code)
    (v := fun _ _ ↦ []) (fun code _ ↦ ?_) fun _ _ _ h ↦ h.symm).congr (by simp)
    fun c _ ↦ by rw [PeerCapability.image, List.append_nil]
  split
  · exact (Accepts.pure PeerCapability.relayedTransferV1).congr
      (fun c ↦ by cases c <;> simp [PeerCapability.code]) fun _ _ ↦ rfl
  · exact (Accepts.pure PeerCapability.swarmTransferV1).congr
      (fun c ↦ by cases c <;> simp [PeerCapability.code]) fun _ _ ↦ rfl
  · rename_i hone htwo
    refine Accepts.fail _ fun c h ↦ ?_
    cases c with
    | relayedTransferV1 => exact hone h.symm
    | swarmTransferV1 => exact htwo h.symm

theorem accepts_swarmManifest : Accepts swarmManifest
    (fun x ↦ x.1.chunks.length ≤ maxTestnetManifestChunks ∧
      x.2.bits.length ≤ maxApplicationMessageBytes)
    (fun x ↦ x.1.image ++ (beBytes 4 x.2.chunkCount.toNat ++ bytesImage x.2.bits)) := by
  refine (Accepts.bind Prod.fst accepts_manifest (fun value _ ↦
    Accepts.bind (fun x ↦ x.2.chunkCount) accepts_u32 (fun chunkCount _ ↦
      Accepts.bind (fun x ↦ x.2.bits) (accepts_bytes maxApplicationMessageBytes (by decide))
        (fun bits _ ↦ accepts_record (value, ({ chunkCount, bits } : PieceAvailability)))
        fun _ _ _ h ↦ by rw [h])
      fun _ _ _ h ↦ by rw [h.2])
    fun _ _ _ h ↦ by rw [h.2.2]).congr (fun x ↦ ?_) fun x _ ↦ ?_
  · simp
  · rw [List.append_nil]

/-- The fields called for by a type byte are those of the messages of that type. -/
theorem accepts_messageFields (kind : UInt8) :
    Accepts (messageFields kind) (fun m ↦ m.tag = kind ∧ m.Readable) Message.fields := by
  unfold messageFields
  split
  · refine accepts_contentId.map (fun m ↦ ?_) fun _ _ ↦ rfl
    cases m <;> simp [Message.tag, Message.Readable]
  · refine accepts_manifest.map (fun m ↦ ?_) fun _ _ ↦ rfl
    cases m <;> simp [Message.tag, Message.Readable]
  · refine accepts_chunk.map (fun m ↦ ?_) fun _ _ ↦ rfl
    cases m <;> simp [Message.tag, Message.Readable]
  · refine (Accepts.pure Message.complete).congr (fun m ↦ ?_) fun _ h ↦ by rw [h]; rfl
    cases m <;> simp [Message.tag, Message.Readable]
  · refine (accepts_string _ (by decide)).map (fun m ↦ ?_) fun _ _ ↦ rfl
    cases m <;> simp [Message.tag, Message.Readable]
  · refine accepts_contentId.map (fun m ↦ ?_) fun _ _ ↦ rfl
    cases m <;> simp [Message.tag, Message.Readable]
  · refine accepts_swarmManifest.map (fun m ↦ ?_) fun _ _ ↦ rfl
    cases m <;> simp [Message.tag, Message.Readable]
  · refine accepts_u32.map (fun m ↦ ?_) fun _ _ ↦ rfl
    cases m <;> simp [Message.tag, Message.Readable]
  · refine accepts_u32.map (fun m ↦ ?_) fun _ _ ↦ rfl
    cases m <;> simp [Message.tag, Message.Readable]
  · refine (Accepts.pure Message.swarmComplete).congr (fun m ↦ ?_) fun _ h ↦ by rw [h]; rfl
    cases m <;> simp [Message.tag, Message.Readable]
  · refine Accepts.fail _ fun m h ↦ ?_
    obtain ⟨rfl, -⟩ := h
    cases m <;> simp_all [Message.tag]

theorem accepts_peerAdvertisement : Accepts peerAdvertisement
    (fun p ↦ p.capabilities.length ≤ maxCapabilities ∧
      p.contentIds.length ≤ maxAdvertisedContentIds) PeerAdvertisement.image := by
  refine (Accepts.bind PeerAdvertisement.peerId accepts_peerId (fun _ _ ↦
    Accepts.bind PeerAdvertisement.publicKey (accepts_array 32) (fun _ _ ↦
      Accepts.bind (fun p ↦ UInt8.ofNat p.capabilities.length) accepts_u8 (fun n _ ↦
        Accepts.guard fun _ ↦ Accepts.bind PeerAdvertisement.capabilities
          (accepts_capability.times n.toNat) (fun _ _ ↦
            Accepts.bind (fun p ↦ UInt16.ofNat p.contentIds.length) accepts_u16 (fun k _ ↦
              Accepts.guard fun _ ↦ Accepts.bind PeerAdvertisement.contentIds
                (accepts_contentId.times k.toNat) (fun _ _ ↦ accepts_record _)
                fun _ _ _ h ↦ (congrArg PeerAdvertisement.contentIds h).symm)
              fun k p _ h ↦ by rw [h.2.1.1, UInt16.ofNat_toNat])
          fun _ _ _ h ↦ (congrArg PeerAdvertisement.capabilities h.2.2.2).symm)
        fun n p _ h ↦ by rw [h.2.1.1, UInt8.ofNat_toNat])
      fun _ _ _ h ↦ (congrArg PeerAdvertisement.publicKey h.2.2.2.2.2.2).symm)
    fun _ _ _ h ↦ (congrArg PeerAdvertisement.peerId h.2.2.2.2.2.2.2).symm).congr
    (fun p ↦ ?_) fun p h ↦ ?_
  · constructor
    · rintro ⟨-, -, -, hcaps, ⟨hcapslen, -⟩, -, hids, ⟨hidslen, -⟩, -⟩
      omega
    · rintro ⟨hcaps, hids⟩
      have hn : (UInt8.ofNat p.capabilities.length).toNat = p.capabilities.length :=
        UInt8.toNat_ofNat_of_lt' (hcaps.trans_lt (by decide))
      have hk : (UInt16.ofNat p.contentIds.length).toNat = p.contentIds.length :=
        UInt16.toNat_ofNat_of_lt' (hids.trans_lt (by decide))
      rw [hn, hk]
      exact ⟨trivial, trivial, trivial, by omega, ⟨rfl, fun _ _ ↦ trivial⟩, trivial, by omega,
        ⟨rfl, fun _ _ ↦ trivial⟩, rfl⟩
  · obtain ⟨-, -, -, -, -, -, -, ⟨hidslen, -⟩, -⟩ := h
    rw [PeerAdvertisement.image, ← hidslen, List.append_nil]

theorem accepts_relayAdvertisement : Accepts relayAdvertisement
    (fun r ↦ (utf8 r.relayId).length ≤ 64 ∧ (utf8 r.address).length ≤ 128)
    (fun r ↦ stringImage r.relayId ++ stringImage r.address) := by
  refine (Accepts.bind RelayAdvertisement.relayId (accepts_string 64 (by decide)) (fun _ _ ↦
    Accepts.bind RelayAdvertisement.address (accepts_string 128 (by decide))
      (fun _ _ ↦ accepts_record _) fun _ _ _ h ↦ (congrArg RelayAdvertisement.address h).symm)
    fun _ _ _ h ↦ (congrArg RelayAdvertisement.relayId h.2).symm).congr (fun r ↦ ?_) fun r _ ↦ ?_
  · simp
  · rw [List.append_nil]

theorem accepts_discoverProviders : Accepts discoverProviders (fun _ ↦ True)
    (fun x ↦ x.1.bytes.toList ++ beBytes 2 x.2.toNat) := by
  refine (Accepts.bind Prod.fst accepts_contentId (fun _ _ ↦
    Accepts.bind Prod.snd accepts_u16 (fun _ _ ↦ accepts_record _)
      fun _ _ _ h ↦ (congrArg Prod.snd h).symm)
    fun _ _ _ h ↦ (congrArg Prod.fst h.2).symm).congr (fun x ↦ ?_) fun x _ ↦ ?_
  · simp
  · rw [List.append_nil]

theorem accepts_overlayRequestFields (kind : UInt8) :
    Accepts (overlayRequestFields kind) (fun q ↦ q.tag = kind ∧ q.Readable)
      OverlayRequest.fields := by
  unfold overlayRequestFields
  split
  · refine accepts_peerAdvertisement.map (fun m ↦ ?_) fun _ _ ↦ rfl
    cases m <;> simp [OverlayRequest.tag, OverlayRequest.Readable]
  · refine accepts_peerId.map (fun m ↦ ?_) fun _ _ ↦ rfl
    cases m <;> simp [OverlayRequest.tag, OverlayRequest.Readable]
  · refine accepts_peerId.map (fun m ↦ ?_) fun _ _ ↦ rfl
    cases m <;> simp [OverlayRequest.tag, OverlayRequest.Readable]
  · refine accepts_relayAdvertisement.map (fun m ↦ ?_) fun _ _ ↦ rfl
    cases m <;> simp [OverlayRequest.tag, OverlayRequest.Readable]
  · refine (accepts_string _ (by decide)).map (fun m ↦ ?_) fun _ _ ↦ rfl
    cases m <;> simp [OverlayRequest.tag, OverlayRequest.Readable]
  · refine accepts_contentId.map (fun m ↦ ?_) fun _ _ ↦ rfl
    cases m <;> simp [OverlayRequest.tag, OverlayRequest.Readable]
  · refine accepts_discoverProviders.map (fun m ↦ ?_) fun _ _ ↦ rfl
    cases m <;> simp [OverlayRequest.tag, OverlayRequest.Readable]
  · refine (accepts_string _ (by decide)).map (fun m ↦ ?_) fun _ _ ↦ rfl
    cases m <;> simp [OverlayRequest.tag, OverlayRequest.Readable]
  · refine (Accepts.pure OverlayRequest.health).congr (fun m ↦ ?_) fun _ h ↦ by rw [h]; rfl
    cases m <;> simp [OverlayRequest.tag, OverlayRequest.Readable]
  · refine Accepts.fail _ fun m h ↦ ?_
    obtain ⟨rfl, -⟩ := h
    cases m <;> simp_all [OverlayRequest.tag]

theorem accepts_routes : Accepts routes
    (fun values ↦ values.length ≤ maxDiscoveryRoutes ∧ ∀ a ∈ values, a.Readable)
    (fun values ↦ beBytes 2 values.length ++ values.flatMap RouteAssignment.image) := by
  refine (Accepts.bind (fun values : List RouteAssignment ↦ UInt16.ofNat values.length)
    accepts_u16 (fun n _ ↦ Accepts.guard fun _ ↦ accepts_assignment.times n.toNat)
    fun n values _ h ↦ by rw [h.2.1, UInt16.ofNat_toNat]).congr (fun values ↦ ?_)
    fun values h ↦ by rw [← h.2.2.1]
  constructor
  · rintro ⟨-, hle, hlen, hall⟩
    exact ⟨by omega, hall⟩
  · rintro ⟨hle, hall⟩
    have hn : (UInt16.ofNat values.length).toNat = values.length :=
      UInt16.toNat_ofNat_of_lt' (hle.trans_lt (by decide))
    rw [hn]
    exact ⟨trivial, by omega, rfl, hall⟩

theorem accepts_overlayResponseFields (kind : UInt8) :
    Accepts (overlayResponseFields kind) (fun p ↦ p.tag = kind ∧ p.Readable)
      OverlayResponse.fields := by
  unfold overlayResponseFields
  split
  · refine accepts_u64.map (fun m ↦ ?_) fun _ _ ↦ rfl
    cases m <;> simp [OverlayResponse.tag, OverlayResponse.Readable]
  · refine accepts_optionalAssignment.map (fun m ↦ ?_) fun _ _ ↦ rfl
    cases m <;> simp [OverlayResponse.tag, OverlayResponse.Readable]
  · refine accepts_optionalAssignment.map (fun m ↦ ?_) fun _ _ ↦ rfl
    cases m <;> simp [OverlayResponse.tag, OverlayResponse.Readable]
  · refine accepts_routes.map (fun m ↦ ?_) fun _ _ ↦ rfl
    cases m <;> simp [OverlayResponse.tag, OverlayResponse.Readable]
  · refine (Accepts.pure OverlayResponse.acknowledged).congr (fun m ↦ ?_) fun _ h ↦ by rw [h]; rfl
    cases m <;> simp [OverlayResponse.tag, OverlayResponse.Readable]
  · refine (accepts_string _ (by decide)).map (fun m ↦ ?_) fun _ _ ↦ rfl
    cases m <;> simp [OverlayResponse.tag, OverlayResponse.Readable]
  · refine Accepts.fail _ fun m h ↦ ?_
    obtain ⟨rfl, -⟩ := h
    cases m <;> simp_all [OverlayResponse.tag]

/-- A whole record: the header, a type byte, and the fields of that type. -/
theorem accepts_taggedRecord {α : Type} {tag : α → UInt8} {readable : α → Prop}
    {image : α → List UInt8} {fields : UInt8 → Field α} (domain : UInt8)
    (h : ∀ kind, Accepts (fields kind) (fun a ↦ tag a = kind ∧ readable a) image) :
    Accepts (record domain fields) readable
      (fun a ↦ headerImage domain ++ ([tag a] ++ image a)) :=
  (Accepts.bind (fun _ ↦ ()) (accepts_new domain) (fun _ _ ↦
    Accepts.bind tag accepts_u8 (fun kind _ ↦ h kind) fun _ _ _ h ↦ h.1.symm)
    fun _ _ _ _ ↦ rfl).congr (by simp) fun _ _ ↦ rfl

end Reader

end TripTorrent

import TripTorrent.Protocol.Availability
import TripTorrent.Protocol.Sizes

/-!
# What a relay observes of a transfer

A relay sees the direction, the size and the time of each frame. The model of a transfer encodes the
messages that would be sent, and keeps their lengths: a handshake with each provider, its manifest
with the chunks it has, the chunks one by one, and requests that are turned down.

The messages of two transfers of the same size differ: in the identifier of the content, in the
chunks that a provider has. Their lengths do not, since every field of a message has a fixed length
or a length that is determined by the number of chunks and their sizes. So what a relay sees, apart
from times, is a function of the size of the content, the number of providers and the number of
retries (`visibleFrames`), and its total grows with the size.

Times are exact: the program's clock has 64 bits, and a trace that long is not built.
-/

namespace TripTorrent.Traffic

open Codec (utf8)

/-! ## Traces -/

structure TrafficScenario where
  name : String
  contentBytes : ℕ
  providers : ℕ
  bytesPerSecond : ℕ
  stripedAvailability : Bool
  retries : ℕ
  pauses : ℕ

inductive FrameDirection
  | requesterToProvider
  | providerToRequester
  deriving DecidableEq

structure FrameObservation where
  logicalTimeMs : ℕ
  direction : FrameDirection
  framedBytes : ℕ

def noiseTagBytes : ℕ := 16

def framePrefixBytes : ℕ := 4

def discoveryToRelayMs : ℕ := 100

def pauseGapMs : ℕ := 5000

/-- The frames so far, and the time. -/
structure TraceState where
  events : List FrameObservation
  now : ℕ

namespace TraceState

variable (state : TraceState)

/-- A frame at some time from now. -/
def pushEvent (delay : ℕ) (direction : FrameDirection) (payloadBytes : ℕ) : TraceState :=
  { state with
    events := state.events ++ [⟨state.now + delay, direction, payloadBytes + framePrefixBytes⟩] }

/-- A message that cannot be encoded stops the program. -/
def pushMessage (delay : ℕ) (direction : FrameDirection) (message : Message) :
    Option TraceState :=
  match encode message with
  | .ok encoded => some (state.pushEvent delay direction (encoded.length + noiseTagBytes))
  | .error _ => none

/-- `now.saturating_add(delay)` -/
def wait (delay : ℕ) : TraceState := { state with now := min (state.now + delay) (2 ^ 64 - 1) }

end TraceState

def expectedLength (total index : ℕ) : ℕ := min (total - index * chunkSize) chunkSize

section

variable (blake3 : List UInt8 → Digest) (scenario : TrafficScenario)

def chunkCount : ℕ := scenario.contentBytes ⌈/⌉ chunkSize

def chunkIds : List ChunkId :=
  (List.range (chunkCount scenario)).map fun index ↦
    let length := if index + 1 = chunkCount scenario then scenario.contentBytes - index * chunkSize
      else chunkSize
    ChunkId.digest blake3 (List.replicate length 0)

def manifestOf : Manifest where
  contentId := ContentId.digest blake3 (utf8 scenario.name)
  length := .ofNat scenario.contentBytes
  chunkSize := 32 * 1024
  chunks := chunkIds blake3 scenario

/-- What a provider has. -/
def availabilityOf (provider : ℕ) : PieceAvailability :=
  let indices := ((List.range (chunkCount scenario)).filter fun index ↦
    !scenario.stripedAvailability || index % scenario.providers == provider).map UInt32.ofNat
  PieceAvailability.fromIndices (.ofNat (chunkCount scenario)) indices

/-- The handshake with a provider, and its manifest. -/
def connect (state : TraceState) (provider : ℕ) : Option TraceState := do
  let state := state.pushEvent 0 .requesterToProvider 48
  let state := state.pushEvent 1 .providerToRequester 48
  let state ← state.pushMessage 2 .requesterToProvider
    (.swarmRequest (manifestOf blake3 scenario).contentId)
  let state ← state.pushMessage 3 .providerToRequester
    (.swarmManifest (manifestOf blake3 scenario) (availabilityOf scenario provider))
  some { state with now := state.now + 4 }

def cadence : ℕ :=
  if scenario.bytesPerSecond = 0 then 1
  else max (min (chunkSize * 1000) (2 ^ 64 - 1) ⌈/⌉ scenario.bytesPerSecond) 1

/-- A chunk is requested and sent. -/
def transferChunk (state : TraceState) (entry : ChunkId × ℕ) : Option TraceState := do
  let (chunkId, index) := entry
  let state ← state.pushMessage 0 .requesterToProvider (.chunkRequest (.ofNat index))
  let length := expectedLength scenario.contentBytes index
  let state ← state.pushMessage (cadence scenario) .providerToRequester
    (.chunk ⟨.ofNat index, chunkId, List.replicate length 0⟩)
  let state := state.wait (cadence scenario + 1)
  some (if 0 < scenario.pauses ∧ index = chunkCount scenario / 2 then state.wait pauseGapMs
    else state)

/-- A chunk is requested from a provider that does not have it. -/
def retryChunk (state : TraceState) (retry : ℕ) : Option TraceState := do
  let index := UInt32.ofNat (retry % max (chunkCount scenario) 1)
  let state ← state.pushMessage 0 .requesterToProvider (.chunkRequest index)
  let state ← state.pushMessage (cadence scenario) .providerToRequester (.chunkUnavailable index)
  some (state.wait (cadence scenario + 1))

def simulateObserverTrace : Option (List FrameObservation) :=
  if scenario.providers = 0 then none
  else do
    let state ← (List.range scenario.providers).foldlM (connect blake3 scenario)
      ⟨[], discoveryToRelayMs⟩
    let state ← (chunkIds blake3 scenario).zipIdx.foldlM (transferChunk scenario) state
    let state ← (List.range scenario.retries).foldlM (retryChunk scenario) state
    some state.events

end

/-- The total of a trace. -/
def totalFramedBytes (events : List FrameObservation) : ℕ :=
  (events.map FrameObservation.framedBytes).sum

/-! ## What is visible -/

/-- What a frame shows apart from its time. -/
def FrameObservation.visible (event : FrameObservation) : FrameDirection × ℕ :=
  (event.direction, event.framedBytes)

def TraceState.visible (state : TraceState) : List (FrameDirection × ℕ) :=
  state.events.map FrameObservation.visible

/-- The frames of a handshake and of a manifest of a number of chunks. -/
def providerFrames (chunks : ℕ) : List (FrameDirection × ℕ) :=
  [(.requesterToProvider, 52), (.providerToRequester, 52), (.requesterToProvider, 82),
    (.providerToRequester, 106 + 32 * chunks + chunks ⌈/⌉ 8)]

/-- The frames of a request and of a chunk. -/
def chunkFrames (length : ℕ) : List (FrameDirection × ℕ) :=
  [(.requesterToProvider, 54), (.providerToRequester, 90 + length)]

/-- The frames of a request that is turned down. -/
def retryFrames : List (FrameDirection × ℕ) :=
  [(.requesterToProvider, 54), (.providerToRequester, 54)]

/-- What is visible of a transfer. -/
def visibleFrames (contentBytes providers retries : ℕ) : List (FrameDirection × ℕ) :=
  let chunks := contentBytes ⌈/⌉ chunkSize
  (List.range providers).flatMap (fun _ ↦ providerFrames chunks) ++
    (List.range chunks).flatMap (fun index ↦ chunkFrames (expectedLength contentBytes index)) ++
    (List.range retries).flatMap fun _ ↦ retryFrames

/-! ## Messages in frames -/

theorem length_of_encode {message : Message} {encoded : List UInt8}
    (h : encode message = .ok encoded) : encoded.length = 30 + message.fields.length := by
  obtain ⟨-, -, rfl, -⟩ := (encodeRecord_eq_ok_iff Writer.emits_message).mp h
  rw [List.length_append, List.length_append, length_headerImage, List.length_singleton]
  omega

section

variable {state : TraceState} {delay : ℕ} {direction : FrameDirection} {message : Message}

theorem visible_pushEvent {payloadBytes : ℕ} :
    (state.pushEvent delay direction payloadBytes).visible =
      state.visible ++ [(direction, payloadBytes + 4)] := by
  simp [TraceState.visible, TraceState.pushEvent, FrameObservation.visible, framePrefixBytes]

/-- A valid message is sent in a frame whose size is that of its fields and of what is around them.
-/
theorem pushMessage_eq (h : validateMessage message = .ok ()) :
    state.pushMessage delay direction message =
      some (state.pushEvent delay direction (46 + message.fields.length)) := by
  obtain ⟨encoded, hencoded⟩ := exists_encode_iff.mpr h
  have hsize : encoded.length + noiseTagBytes = 46 + message.fields.length := by
    rw [length_of_encode hencoded, noiseTagBytes]
    omega
  rw [TraceState.pushMessage, hencoded]
  dsimp only
  rw [hsize]

theorem visible_wait : (state.wait delay).visible = state.visible := rfl

theorem visible_now {now : ℕ} : ({ state with now := now } : TraceState).visible = state.visible :=
  rfl

end

/-! ## The parts of a transfer -/

section

variable {blake3 : List UInt8 → Digest} {scenario : TrafficScenario} {state : TraceState}

theorem length_chunkIds : (chunkIds blake3 scenario).length = chunkCount scenario := by
  simp [chunkIds]

theorem contentBytes_le (scenario : TrafficScenario) :
    scenario.contentBytes ≤ chunkCount scenario * chunkSize := by
  rw [chunkCount, Nat.ceilDiv_eq_add_pred_div, chunkSize]
  omega

theorem validateMessage_manifestOf (h : chunkCount scenario ≤ 2036) (provider : ℕ) :
    validateMessage (.swarmManifest (manifestOf blake3 scenario)
      (availabilityOf scenario provider)) = .ok () := by
  have hsmall : scenario.contentBytes ≤ 2036 * (32 * 1024) :=
    (contentBytes_le scenario).trans (Nat.mul_le_mul_right _ h)
  have hlength : (manifestOf blake3 scenario).length.toNat = scenario.contentBytes :=
    UInt64.toNat_ofNat_of_lt' (hsmall.trans_lt (by decide))
  refine validateMessage_swarmManifest_eq_ok_iff.mpr ⟨?_, ?_, ?_, ?_⟩
  · refine Manifest.validateShape_eq_ok_iff.mpr ⟨rfl, ?_, ?_⟩
    · rw [hlength, maxContentLength]
      omega
    · rw [hlength]
      exact length_chunkIds.symm
  · exact length_chunkIds.trans_le h
  · rw [manifestOf, length_chunkIds]
    exact UInt32.toNat_ofNat_of_lt' (h.trans_lt (by decide))
  · exact PieceAvailability.isValid_fromIndices _ _

theorem length_fields_manifestOf (h : chunkCount scenario ≤ 2036) (provider : ℕ) :
    (Message.swarmManifest (manifestOf blake3 scenario)
      (availabilityOf scenario provider)).fields.length =
      56 + 32 * chunkCount scenario + chunkCount scenario ⌈/⌉ 8 := by
  obtain ⟨-, -, hcount, hvalid⟩ :=
    validateMessage_swarmManifest_eq_ok_iff.mp (validateMessage_manifestOf h provider)
  rw [Message.length_fields_swarmManifest hcount hvalid, manifestOf, length_chunkIds]

theorem exists_connect (h : chunkCount scenario ≤ 2036) (state : TraceState) (provider : ℕ) :
    ∃ state', connect blake3 scenario state provider = some state' ∧
      state'.visible = state.visible ++ providerFrames (chunkCount scenario) := by
  have hvalid : validateMessage (.swarmRequest (manifestOf blake3 scenario).contentId) = .ok () :=
    rfl
  have hlength :
      (Message.swarmRequest (manifestOf blake3 scenario).contentId).fields.length = 32 :=
    List.Vector.toList_length _
  rw [connect, pushMessage_eq hvalid, hlength]
  dsimp only [bind, Option.bind]
  rw [pushMessage_eq (validateMessage_manifestOf h provider), length_fields_manifestOf h provider]
  refine ⟨_, rfl, ?_⟩
  have hmanifest : 46 + (56 + 32 * chunkCount scenario + chunkCount scenario ⌈/⌉ 8) + 4 =
      106 + 32 * chunkCount scenario + chunkCount scenario ⌈/⌉ 8 := by omega
  rw [visible_now, visible_pushEvent, visible_pushEvent, visible_pushEvent, visible_pushEvent,
    hmanifest, List.append_assoc, List.append_assoc, List.append_assoc]
  rfl

/-- A request has a frame of one size, whichever chunk it names. -/
theorem pushMessage_chunkRequest {delay : ℕ} {direction : FrameDirection} (index : UInt32) :
    state.pushMessage delay direction (.chunkRequest index) =
      some (state.pushEvent delay direction 50) := by
  have hlength : (Message.chunkRequest index).fields.length = 4 := length_beBytes_u32 index
  rw [pushMessage_eq rfl, hlength]

theorem pushMessage_chunkUnavailable {delay : ℕ} {direction : FrameDirection} (index : UInt32) :
    state.pushMessage delay direction (.chunkUnavailable index) =
      some (state.pushEvent delay direction 50) := by
  have hlength : (Message.chunkUnavailable index).fields.length = 4 := length_beBytes_u32 index
  rw [pushMessage_eq rfl, hlength]

theorem pushMessage_chunk {delay : ℕ} {direction : FrameDirection} {index : UInt32} {id : ChunkId}
    {length : ℕ} (h : length ≤ chunkSize) :
    state.pushMessage delay direction (.chunk ⟨index, id, List.replicate length 0⟩) =
      some (state.pushEvent delay direction (86 + length)) := by
  have hdata : (List.replicate length (0 : UInt8)).length = length := List.length_replicate
  have hvalid : validateMessage (.chunk ⟨index, id, List.replicate length 0⟩) = .ok () := by
    rw [validateMessage, hdata]
    exact if_neg (not_lt.mpr h)
  have hlength : (Message.chunk ⟨index, id, List.replicate length 0⟩).fields.length =
      40 + length := by
    rw [Message.fields, Chunk.length_image, hdata]
    rw [hdata]
    exact h.trans_lt (by decide)
  rw [pushMessage_eq hvalid, hlength, ← Nat.add_assoc]

theorem exists_transferChunk (scenario : TrafficScenario) (state : TraceState)
    (entry : ChunkId × ℕ) :
    ∃ state', transferChunk scenario state entry = some state' ∧
      state'.visible =
        state.visible ++ chunkFrames (expectedLength scenario.contentBytes entry.2) := by
  have hlength : expectedLength scenario.contentBytes entry.2 ≤ chunkSize := min_le_right _ _
  rw [transferChunk, pushMessage_chunkRequest]
  dsimp only [bind, Option.bind]
  rw [pushMessage_chunk hlength]
  refine ⟨_, rfl, ?_⟩
  have hsize : 86 + expectedLength scenario.contentBytes entry.2 + 4 =
      90 + expectedLength scenario.contentBytes entry.2 := by omega
  rw [apply_ite TraceState.visible, visible_wait, visible_wait, ite_self, visible_pushEvent,
    visible_pushEvent, hsize, List.append_assoc]
  rfl

theorem exists_retryChunk (scenario : TrafficScenario) (state : TraceState) (retry : ℕ) :
    ∃ state', retryChunk scenario state retry = some state' ∧
      state'.visible = state.visible ++ retryFrames := by
  rw [retryChunk, pushMessage_chunkRequest]
  dsimp only [bind, Option.bind]
  rw [pushMessage_chunkUnavailable]
  refine ⟨_, rfl, ?_⟩
  rw [visible_wait, visible_pushEvent, visible_pushEvent, List.append_assoc]
  rfl

/-! ## Whole transfers -/

theorem flatMap_zipIdx {α β : Type} (l : List α) (f : ℕ → List β) :
    l.zipIdx.flatMap (fun entry ↦ f entry.2) = (List.range l.length).flatMap f := by
  rw [← List.flatMap_map, List.zipIdx_map_snd, List.range_eq_range']

/-- **What is visible of a transfer** is determined by the size of the content and the numbers of
providers and retries. -/
theorem exists_simulateObserverTrace (blake3 : List UInt8 → Digest)
    (hproviders : 0 < scenario.providers) (h : chunkCount scenario ≤ 2036) :
    ∃ events, simulateObserverTrace blake3 scenario = some events ∧
      events.map FrameObservation.visible =
        visibleFrames scenario.contentBytes scenario.providers scenario.retries := by
  obtain ⟨connected, hconnected, hfirst⟩ := Outcome.exists_foldlM_append
    (l := List.range scenario.providers) (fun provider _ state ↦ exists_connect h state provider)
    ⟨[], discoveryToRelayMs⟩
  obtain ⟨transferred, htransferred, hchunks⟩ := Outcome.exists_foldlM_append
    (l := (chunkIds blake3 scenario).zipIdx)
    (fun entry _ state ↦ exists_transferChunk scenario state entry) connected
  obtain ⟨retried, hretried, hretries⟩ := Outcome.exists_foldlM_append
    (l := List.range scenario.retries)
    (fun retry _ state ↦ exists_retryChunk scenario state retry) transferred
  refine ⟨retried.events, ?_, ?_⟩
  · rw [simulateObserverTrace, if_neg hproviders.ne']
    simp only [bind, Option.bind_eq_some_iff, Option.some_inj]
    exact ⟨connected, hconnected, transferred, htransferred, retried, hretried, rfl⟩
  · have hempty : TraceState.visible ⟨[], discoveryToRelayMs⟩ = [] := rfl
    rw [hchunks, hfirst, hempty, List.nil_append,
      flatMap_zipIdx _ fun index ↦ chunkFrames (expectedLength scenario.contentBytes index),
      length_chunkIds] at hretries
    exact hretries

end

/-! ## The total -/

/-- The chunks together have the size of the content. -/
theorem sum_expectedLength (total chunks : ℕ) :
    ((List.range chunks).map (expectedLength total)).sum = min total (chunks * chunkSize) := by
  induction chunks with
  | zero => simp
  | succ chunks ih =>
    rw [List.range_succ, List.map_append, List.sum_append, ih, List.map_singleton,
      List.sum_singleton, expectedLength]
    rw [Nat.succ_mul]
    omega

/-- The total of what is visible. -/
def visibleTotal (contentBytes providers retries : ℕ) : ℕ :=
  let chunks := contentBytes ⌈/⌉ chunkSize
  providers * (292 + 32 * chunks + chunks ⌈/⌉ 8) + (144 * chunks + contentBytes) + 108 * retries

theorem sum_flatMap {α : Type} (l : List α) (f : α → List (FrameDirection × ℕ)) :
    ((l.flatMap f).map Prod.snd).sum = (l.map fun a ↦ ((f a).map Prod.snd).sum).sum := by
  induction l with
  | nil => rfl
  | cons a l ih => rw [List.flatMap_cons, List.map_append, List.sum_append, ih, List.map_cons,
      List.sum_cons]

theorem sum_visibleFrames (contentBytes providers retries : ℕ) :
    ((visibleFrames contentBytes providers retries).map Prod.snd).sum =
      visibleTotal contentBytes providers retries := by
  have hprovider (chunks : ℕ) : ((providerFrames chunks).map Prod.snd).sum =
      292 + 32 * chunks + chunks ⌈/⌉ 8 := by
    simp only [providerFrames, List.map_cons, List.map_nil, List.sum_cons, List.sum_nil]
    omega
  have hchunk (length : ℕ) : ((chunkFrames length).map Prod.snd).sum = 144 + length := by
    simp only [chunkFrames, List.map_cons, List.map_nil, List.sum_cons, List.sum_nil]
    omega
  have hcovered : contentBytes ≤ contentBytes ⌈/⌉ chunkSize * chunkSize := by
    rw [Nat.ceilDiv_eq_add_pred_div, chunkSize]
    omega
  rw [visibleFrames, visibleTotal, List.map_append, List.map_append, List.sum_append,
    List.sum_append, sum_flatMap, sum_flatMap, sum_flatMap]
  have hconst (count size : ℕ) : ((List.range count).map fun _ ↦ size).sum = count * size := by
    simp
  simp only [hprovider, hchunk, hconst]
  rw [List.sum_map_add, hconst, sum_expectedLength, min_eq_left hcovered, Nat.mul_comm _ 144,
    Nat.mul_comm retries]
  rfl

theorem ceilDiv_mono {a b : ℕ} (h : a ≤ b) (n : ℕ) : a ⌈/⌉ n ≤ b ⌈/⌉ n := by
  rw [Nat.ceilDiv_eq_add_pred_div, Nat.ceilDiv_eq_add_pred_div]
  exact Nat.div_le_div_right (by omega)

theorem visibleTotal_strictMono (providers retries : ℕ) :
    StrictMono fun contentBytes ↦ visibleTotal contentBytes providers retries := by
  intro a b hlt
  have hchunks : a ⌈/⌉ chunkSize ≤ b ⌈/⌉ chunkSize := ceilDiv_mono hlt.le chunkSize
  have hbits := ceilDiv_mono hchunks 8
  have hproviders : providers * (292 + 32 * (a ⌈/⌉ chunkSize) + a ⌈/⌉ chunkSize ⌈/⌉ 8) ≤
      providers * (292 + 32 * (b ⌈/⌉ chunkSize) + b ⌈/⌉ chunkSize ⌈/⌉ 8) :=
    Nat.mul_le_mul_left providers (by omega)
  simp only [visibleTotal]
  omega

theorem totalFramedBytes_eq {events : List FrameObservation} {contentBytes providers retries : ℕ}
    (h : events.map FrameObservation.visible = visibleFrames contentBytes providers retries) :
    totalFramedBytes events = visibleTotal contentBytes providers retries := by
  rw [← sum_visibleFrames, ← h, List.map_map]
  rfl

/-- **Size, and nothing but size.** Transfers of the same size with as many providers and retries
look the same, whatever the content is called, at what rate it is sent, how it is spread over the
providers and when the transfer pauses; and the total of the frames tells which of two contents is
larger. -/
theorem observer_trace_leaks_size_only (blake3 : List UInt8 → Digest) :
    (∀ a b : TrafficScenario, a.contentBytes = b.contentBytes → a.providers = b.providers →
      a.retries = b.retries → 0 < a.providers → chunkCount a ≤ 2036 →
      ∃ events events', simulateObserverTrace blake3 a = some events ∧
        simulateObserverTrace blake3 b = some events' ∧
        events.map (fun event ↦ (event.direction, event.framedBytes)) =
          events'.map fun event ↦ (event.direction, event.framedBytes)) ∧
    ∀ a b : TrafficScenario, a.contentBytes < b.contentBytes → a.providers = b.providers →
      a.retries = b.retries → 0 < a.providers → chunkCount b ≤ 2036 →
      ∃ events events', simulateObserverTrace blake3 a = some events ∧
        simulateObserverTrace blake3 b = some events' ∧
        totalFramedBytes events < totalFramedBytes events' := by
  refine ⟨fun a b hbytes hproviders hretries hpos hchunks ↦ ?_,
    fun a b hbytes hproviders hretries hpos hchunks ↦ ?_⟩
  · have hcount : chunkCount b ≤ 2036 := by rwa [chunkCount, ← hbytes]
    obtain ⟨events, hevents, hvisible⟩ := exists_simulateObserverTrace blake3 hpos hchunks
    obtain ⟨events', hevents', hvisible'⟩ :=
      exists_simulateObserverTrace blake3 (hproviders ▸ hpos) hcount
    refine ⟨events, events', hevents, hevents', ?_⟩
    rw [hbytes, hproviders, hretries] at hvisible
    exact hvisible.trans hvisible'.symm
  · have hcount : chunkCount a ≤ 2036 := (ceilDiv_mono hbytes.le chunkSize).trans hchunks
    obtain ⟨events, hevents, hvisible⟩ := exists_simulateObserverTrace blake3 hpos hcount
    obtain ⟨events', hevents', hvisible'⟩ :=
      exists_simulateObserverTrace blake3 (hproviders ▸ hpos) hchunks
    refine ⟨events, events', hevents, hevents', ?_⟩
    rw [totalFramedBytes_eq hvisible, totalFramedBytes_eq hvisible', hproviders, hretries]
    exact visibleTotal_strictMono b.providers b.retries hbytes

theorem observer_trace_leaks_size_only_twoChunks :
    ∃ events events' events'',
      simulateObserverTrace (fun _ ↦ List.Vector.replicate 32 0)
        ⟨"small-single", 65536, 2, 0, false, 1, 0⟩ = some events ∧
      simulateObserverTrace (fun _ ↦ List.Vector.replicate 32 0)
        ⟨"small-paused", 65536, 2, 32768, true, 1, 1⟩ = some events' ∧
      simulateObserverTrace (fun _ ↦ List.Vector.replicate 32 0)
        ⟨"small-paused", 65537, 2, 32768, true, 1, 1⟩ = some events'' ∧
      (events.map fun event ↦ (event.direction, event.framedBytes)) =
        (events'.map fun event ↦ (event.direction, event.framedBytes)) ∧
      totalFramedBytes events' < totalFramedBytes events'' := by
  obtain ⟨hsame, hlarger⟩ := observer_trace_leaks_size_only fun _ ↦ List.Vector.replicate 32 0
  obtain ⟨events, events', hevents, hevents', heq⟩ :=
    hsame ⟨"small-single", 65536, 2, 0, false, 1, 0⟩ ⟨"small-paused", 65536, 2, 32768, true, 1, 1⟩
      rfl rfl rfl (by decide) (by decide)
  obtain ⟨_, events'', hevents'', hlast, hlt⟩ :=
    hlarger ⟨"small-paused", 65536, 2, 32768, true, 1, 1⟩
      ⟨"small-paused", 65537, 2, 32768, true, 1, 1⟩ (by decide) rfl rfl (by decide) (by decide)
  obtain rfl := Option.some.inj (hevents'.symm.trans hevents'')
  exact ⟨events, events', events'', hevents, hevents', hlast, heq, hlt⟩

end TripTorrent.Traffic

import TripTorrent.Overlay.Client
import TripTorrent.Overlay.Leases
import TripTorrent.Overlay.Routes
import TripTorrent.Protocol.Sizes

/-!
# Every request is answered

A response is validated once more when it is encoded. If it failed there, the registry would have
changed and the client would see a closed connection. What a response carries about a relay came
into the registry with a request, possibly long before, and was checked by the validator of requests
and by the registry itself, whose checks are written differently; the name of a route is made up by
the registry.

So the invariant is that all registered relays and all queued assignments would pass the validator
of responses. It holds after any requests that have been decoded, at any times.
-/

namespace TripTorrent

open Codec (utf8)
open Leasing (Lease Table)
open Outcome (forM_eq_ok_iff)

/-! ## What is validated -/

/-- What the validator of assignments asks of a relay. -/
structure RelayAdvertisement.WellFormed (isSocketAddr : String → Bool)
    (relay : RelayAdvertisement) : Prop where
  relayId : validIdentifier relay.relayId 64 = true
  length_address_le : (utf8 relay.address).length ≤ 128
  address : isSocketAddr relay.address = true

section Validators

variable {blake3 : List UInt8 → Digest} {isSocketAddr : String → Bool}

/-- The validator of requests asks as much. -/
theorem wellFormed_of_validate {relay : RelayAdvertisement}
    (h : validateOverlayRequest blake3 isSocketAddr (.registerRelay relay) = .ok ()) :
    relay.WellFormed isSocketAddr := by
  rw [validateOverlayRequest] at h
  split_ifs at h with hfields
  push Not at hfields
  exact ⟨hfields.1, hfields.2.1, hfields.2.2⟩

theorem validateAssignment_of_joins {provider : PeerAdvertisement} {relay : RelayAdvertisement}
    {assignment : RouteAssignment} (hjoins : assignment.Joins provider relay)
    (hrelay : relay.WellFormed isSocketAddr)
    (hroute : validIdentifier assignment.route 128 = true) :
    validateAssignment isSocketAddr assignment = .ok () := by
  rw [validateAssignment, hjoins.relayId_eq, hjoins.relayAddress_eq]
  refine if_neg ?_
  push Not
  exact ⟨hrelay.relayId, hrelay.length_address_le, hrelay.address, hroute⟩

theorem validateOverlayResponse_routes {values : List RouteAssignment}
    (hlength : values.length ≤ maxDiscoveryRoutes)
    (h : ∀ assignment ∈ values, validateAssignment isSocketAddr assignment = .ok ()) :
    validateOverlayResponse isSocketAddr (.routes values) = .ok () := by
  rw [validateOverlayResponse, if_neg (not_lt.mpr hlength)]
  exact forM_eq_ok_iff.mpr h

/-- All texts of the registry are short. -/
theorem validateOverlayResponse_message (error : RegistryError) :
    validateOverlayResponse isSocketAddr (.error error.message) = .ok () := by
  have hlength : (utf8 error.message).length ≤ maxErrorTextBytes := by
    cases error with
    | _ => decide
  rw [validateOverlayResponse, if_neg (not_lt.mpr hlength)]

end Validators

/-! ## The invariant -/

namespace Registry

/-- What the registry may put into a response is valid there. -/
structure Answerable (isSocketAddr : String → Bool) (r : Registry) : Prop where
  relay : ∀ (relayId : String) (lease : Lease RelayAdvertisement),
    r.relays[relayId]? = some lease → lease.advertisement.WellFormed isSocketAddr
  queued : ∀ peerId, ∀ queued ∈ r.queue peerId,
    validateAssignment isSocketAddr queued.assignment = .ok ()

section Answerable

variable {blake3 : List UInt8 → Digest} {isSocketAddr : String → Bool} {limits : RegistryLimits}
  {r : Registry} {now : ℕ} {operation : Operation} {assignment : RouteAssignment}

theorem answerable_withLimits (isSocketAddr : String → Bool) (leaseMs : ℕ)
    (limits : RegistryLimits) : (withLimits leaseMs limits).Answerable isSocketAddr where
  relay := by simp [withLimits]
  queued := by simp [withLimits, queue]

namespace Answerable

/-- A call issues valid assignments. -/
theorem issued (h : r.Answerable isSocketAddr) (htime : operation.time? = some now)
    (hassignment : assignment ∈ (r.exec blake3 isSocketAddr operation).2.issued) :
    validateAssignment isSocketAddr assignment = .ok () := by
  obtain ⟨-, provider, -, relay, hrelay, hjoins⟩ := exists_joins_exec htime hassignment
  obtain ⟨relayId, lease, hlease, rfl⟩ := Table.mem_advertisements_iff.mp hrelay
  have hwell := h.relay relayId lease (Table.getElem?_purge_eq_some_iff.mp hlease).1
  have hnumbered := r.numbered_exec blake3 isSocketAddr operation
  exact validateAssignment_of_joins hjoins hwell (hnumbered.validIdentifier_route hassignment)

/-- A poll returns what was queued. -/
theorem polled {peerId : PeerId} (hvalid : r.Valid blake3 limits)
    (h : r.Answerable isSocketAddr) (hassignment : (r.pollPeer now peerId).2 = some assignment) :
    validateAssignment isSocketAddr assignment = .ok () := by
  obtain ⟨taken, hround, htaken⟩ :=
    @Valid.round_exec blake3 isSocketAddr limits r hvalid (.pollPeer now peerId) peerId
  rw [polledBy_pollPeer, if_pos rfl, hassignment, Option.toList_some] at htaken
  obtain ⟨queued, rfl, rfl⟩ := List.map_eq_singleton_iff.mp htaken
  exact h.queued peerId queued (hround.mem_of_mem_taken List.mem_cons_self)

/-- One call keeps the invariant, if the relay it registers is good for a response. -/
theorem exec (hvalid : r.Valid blake3 limits) (h : r.Answerable isSocketAddr)
    (operation : Operation)
    (hrelay : ∀ time relay, operation = .registerRelay time relay → relay.WellFormed isSocketAddr) :
    (r.exec blake3 isSocketAddr operation).1.Answerable isSocketAddr where
  relay relayId lease hlease := by
    have htime : ∀ time ∈ operation.time?, time = operation.time?.getD 0 := by
      intro time htime
      rw [Option.mem_def.mp htime, Option.getD_some]
    have hsteps := r.steps_exec blake3 isSocketAddr operation htime
    rcases hsteps.relays.advertisement_cases hlease with ⟨old, hold, heq⟩ | hgrant
    · exact heq ▸ h.relay relayId old hold
    · exact hrelay _ _ (eq_registerRelay_of_grant_mem hgrant)
  queued peerId queued hqueued := by
    obtain ⟨taken, hround, -⟩ :=
      @Valid.round_exec blake3 isSocketAddr limits r hvalid operation peerId
    rcases hround.mem_or_mem_of_mem_after hqueued with hold | hnew
    · exact h.queued peerId queued hold
    · obtain ⟨now, htime, hissued⟩ := exists_issued_of_mem_issuedTo hnew
      exact h.issued htime hissued

end Answerable

/-! ## One request -/

theorem length_queueAssignments_le (now : ℕ) (relays : List RelayAdvertisement) (r : Registry)
    (providers : List (PeerAdvertisement × ℕ)) :
    (queueAssignments now relays r providers).2.length ≤ providers.length := by
  induction providers generalizing r with
  | nil => exact le_rfl
  | cons entry providers ih =>
    obtain ⟨provider, index⟩ := entry
    rw [queueAssignments]
    rcases relays[index % relays.length]? with _ | relay
    · exact Nat.zero_le _
    · have hrest := ih (r.queueAssignment now provider relay "m4").1
      have hfirst := Option.length_toList_le (o := (r.queueAssignment now provider relay "m4").2)
      simp only [List.length_append, List.length_cons]
      omega

theorem length_discoverProviders_le (r : Registry) (now : ℕ) (contentId : ContentId) (limit : ℕ) :
    (r.discoverProviders now contentId limit).2.length ≤ limit := by
  rw [discoverProviders]
  split_ifs
  · exact Nat.zero_le limit
  · refine (length_queueAssignments_le ..).trans ?_
    rw [List.length_zipIdx]
    exact List.length_take_le _ _

/-- A request keeps the invariant, as it has been validated. -/
theorem Answerable.handleRequest {request : OverlayRequest} (hvalid : r.Valid blake3 limits)
    (h : r.Answerable isSocketAddr)
    (hrequest : validateOverlayRequest blake3 isSocketAddr request = .ok ()) :
    (handleRequest blake3 isSocketAddr r now request).1.Answerable isSocketAddr := by
  rcases request with peer | peerId | peerId | relay | relayId | contentId | ⟨contentId, limit⟩ |
    relayId | _
  · exact h.exec hvalid (.registerPeer now peer) (by simp)
  · exact h.exec hvalid (.heartbeatPeer now peerId) (by simp)
  · have hbeat := h.exec hvalid (.heartbeatPeer now peerId) (by simp)
    rw [TripTorrent.handleRequest]
    dsimp only
    split_ifs
    · exact hbeat.exec hvalid.heartbeatPeer (.pollPeer now peerId) (by simp)
    · exact hbeat
  · refine h.exec hvalid (.registerRelay now relay) ?_
    rintro _ _ ⟨⟩
    exact wellFormed_of_validate hrequest
  · exact h.exec hvalid (.heartbeatRelay now relayId) (by simp)
  · exact h.exec hvalid (.discover now contentId) (by simp)
  · exact h.exec hvalid (.discoverProviders now contentId (min limit.toNat 16)) (by simp)
  · exact h.exec hvalid (.reportRelayFailure relayId) (by simp)
  · exact h

/-- The response to a request is valid. -/
theorem Answerable.validateOverlayResponse (hvalid : r.Valid blake3 limits)
    (h : r.Answerable isSocketAddr) (now : ℕ) (request : OverlayRequest) :
    validateOverlayResponse isSocketAddr
      (TripTorrent.handleRequest blake3 isSocketAddr r now request).2 = .ok () := by
  rcases request with peer | peerId | peerId | relay | relayId | contentId | ⟨contentId, limit⟩ |
    relayId | _
  · rw [TripTorrent.handleRequest]
    dsimp only
    rcases (r.registerPeer blake3 now peer).2 with error | _
    · exact validateOverlayResponse_message error
    · rfl
  · rw [TripTorrent.handleRequest]
    dsimp only
    split_ifs
    · rfl
    · rfl
  · have hbeat := h.exec hvalid (.heartbeatPeer now peerId) (by simp)
    rw [TripTorrent.handleRequest]
    dsimp only
    split_ifs
    · rcases hroute : ((r.heartbeatPeer now peerId).1.pollPeer now peerId).2 with _ | assignment
      · simp only [Prod.map_snd, hroute]
        rfl
      · simp only [Prod.map_snd, hroute]
        exact hbeat.polled hvalid.heartbeatPeer hroute
    · rfl
  · rw [TripTorrent.handleRequest]
    dsimp only
    rcases (r.registerRelay isSocketAddr now relay).2 with error | _
    · exact validateOverlayResponse_message error
    · rfl
  · rw [TripTorrent.handleRequest]
    dsimp only
    split_ifs
    · rfl
    · rfl
  · rcases hroute : (r.discover now contentId).2 with _ | assignment
    · simp only [TripTorrent.handleRequest, Prod.map_snd, hroute]
      rfl
    · simp only [TripTorrent.handleRequest, Prod.map_snd, hroute]
      have hissued : assignment ∈
          (r.exec blake3 isSocketAddr (.discover now contentId)).2.issued :=
        Option.mem_toList.mpr hroute
      exact h.issued rfl hissued
  · refine validateOverlayResponse_routes ?_ fun assignment hassignment ↦ ?_
    · exact (r.length_discoverProviders_le now contentId _).trans (min_le_right _ _)
    · have hissued : assignment ∈ (r.exec blake3 isSocketAddr
          (.discoverProviders now contentId (min limit.toNat 16))).2.issued := hassignment
      exact h.issued rfl hissued
  · rfl
  · rfl

end Answerable

end Registry

/-! ## What the client makes of it -/

section Client

open BootstrapClient (interpret)

variable {blake3 : List UInt8 → Digest} {isSocketAddr : String → Bool}

/-- The response is an error, or of the kind that the method for the request expects. -/
theorem error_or_interpret (r : Registry) (now : ℕ) (request : OverlayRequest) :
    (∃ text, (handleRequest blake3 isSocketAddr r now request).2 = .error text) ∨
      ∃ result, interpret request (handleRequest blake3 isSocketAddr r now request).2 =
        .ok result := by
  rcases request with peer | peerId | peerId | relay | relayId | contentId | ⟨contentId, limit⟩ |
    relayId | _
  · rw [handleRequest]
    dsimp only
    rcases (r.registerPeer blake3 now peer).2 with error | _
    · exact .inl ⟨_, rfl⟩
    · exact .inr ⟨_, rfl⟩
  · rw [handleRequest]
    dsimp only
    split_ifs
    · exact .inr ⟨_, rfl⟩
    · exact .inl ⟨_, rfl⟩
  · rw [handleRequest]
    dsimp only
    split_ifs
    · exact .inr ⟨_, rfl⟩
    · exact .inl ⟨_, rfl⟩
  · rw [handleRequest]
    dsimp only
    rcases (r.registerRelay isSocketAddr now relay).2 with error | _
    · exact .inl ⟨_, rfl⟩
    · exact .inr ⟨_, rfl⟩
  · rw [handleRequest]
    dsimp only
    split_ifs
    · exact .inr ⟨_, rfl⟩
    · exact .inl ⟨_, rfl⟩
  · exact .inr ⟨_, rfl⟩
  · exact .inr ⟨_, rfl⟩
  · exact .inr ⟨_, rfl⟩
  · exact .inr ⟨_, rfl⟩

end Client

/-! ## Registries of a service -/

section Reached

open Registry

variable (blake3 : List UInt8 → Digest) (isSocketAddr : String → Bool)

/-- The registry after some requests that were decoded from frames, at any times, with snapshots in
between. -/
inductive Reached (leaseMs : ℕ) : Registry → Prop
  | new : Reached leaseMs (.new leaseMs)
  | request {r : Registry} (h : Reached leaseMs r) (now : ℕ) {frame : List UInt8}
    {request : OverlayRequest}
    (hframe : decodeOverlayRequest blake3 isSocketAddr frame = .ok request) :
    Reached leaseMs (handleRequest blake3 isSocketAddr r now request).1
  | snapshot {r : Registry} (h : Reached leaseMs r) (now : ℕ) : Reached leaseMs (r.snapshot now).1

variable {blake3 isSocketAddr} {leaseMs : ℕ} {r : Registry} {frame : List UInt8}
  {request : OverlayRequest}

theorem validate_of_decodeOverlayRequest
    (h : decodeOverlayRequest blake3 isSocketAddr frame = .ok request) :
    validateOverlayRequest blake3 isSocketAddr request = .ok () :=
  exists_encodeOverlayRequest_iff.mp ⟨frame, decodeOverlayRequest_eq_ok_iff.mp h⟩

theorem Reached.exists_run (h : Reached blake3 isSocketAddr leaseMs r) :
    ∃ events, Run blake3 isSocketAddr (withLimits leaseMs {}) events r := by
  induction h with
  | new => exact ⟨[], .nil⟩
  | request _ now _ ih =>
    obtain ⟨events, hrun⟩ := ih
    exact hrun.exists_handleRequest now _
  | snapshot _ now ih =>
    obtain ⟨events, hrun⟩ := ih
    exact ⟨_, hrun.snoc (.snapshot now)⟩

theorem Reached.valid (h : Reached blake3 isSocketAddr leaseMs r) : r.Valid blake3 {} :=
  h.exists_run.elim fun _ hrun ↦ hrun.valid

theorem Reached.answerable (h : Reached blake3 isSocketAddr leaseMs r) :
    r.Answerable isSocketAddr := by
  induction h with
  | new => exact answerable_withLimits isSocketAddr leaseMs {}
  | request h now hframe ih =>
    exact ih.handleRequest h.valid (validate_of_decodeOverlayRequest hframe)
  | snapshot h now ih => exact ih.exec h.valid (.snapshot now) (by simp)

/-- **Every request is answered.** For every registry that requests can lead to, and every further
request that is decoded from a frame, at any time: the response is encoded, the thread that serves
the connection sends it, it decodes to itself, and the client that sent the frame and reads the
response either gets what its method is for or passes the error on. -/
theorem bootstrap_answers (h : Reached blake3 isSocketAddr leaseMs r) (now : ℕ)
    (hframe : decodeOverlayRequest blake3 isSocketAddr frame = .ok request) :
    ∃ bytes,
      encodeOverlayResponse isSocketAddr (handleRequest blake3 isSocketAddr r now request).2 =
        .ok bytes ∧
      (handleConnection blake3 isSocketAddr r now (some frame)).2 = .ok bytes ∧
      decodeOverlayResponse isSocketAddr bytes =
        .ok (handleRequest blake3 isSocketAddr r now request).2 ∧
      ∀ exchange : List UInt8 → Option (List UInt8), exchange frame = some bytes →
        (∃ text, (handleRequest blake3 isSocketAddr r now request).2 = .error text ∧
          BootstrapClient.call blake3 isSocketAddr exchange request = .error (.remote text)) ∨
        ∃ result, BootstrapClient.call blake3 isSocketAddr exchange request = .ok result := by
  obtain ⟨bytes, hbytes⟩ := exists_encodeOverlayResponse_iff.mpr
    (h.answerable.validateOverlayResponse h.valid now request)
  have hdecoded := decodeOverlayResponse_eq_ok_iff.mpr hbytes
  refine ⟨bytes, hbytes, ?_, hdecoded, fun exchange hexchange ↦ ?_⟩
  · rw [handleConnection]
    dsimp only
    rw [hframe]
    dsimp only
    rw [hbytes]
    rfl
  · rw [BootstrapClient.call_eq (decodeOverlayRequest_eq_ok_iff.mp hframe) hexchange hdecoded]
    rcases error_or_interpret r now request with ⟨text, htext⟩ | hresult
    · refine .inl ⟨text, htext, ?_⟩
      rw [htext, BootstrapClient.interpret_error]
    · exact .inr hresult

end Reached

open Vectors in
/-- The published registration is made twice. -/
theorem bootstrap_answers_registration :
    ∃ bytes, encodeOverlayResponse isSocketAddr (.registered 30000) = .ok bytes ∧
      decodeOverlayResponse isSocketAddr bytes = .ok (.registered 30000) := by
  have hframe : decodeOverlayRequest blake3 isSocketAddr peerRegistrationBytes =
      .ok peerRegistration := by decide +kernel
  have hreached : Reached blake3 isSocketAddr 30000
      (handleRequest blake3 isSocketAddr (.new 30000) 0 peerRegistration).1 :=
    .request .new 0 hframe
  obtain ⟨bytes, hbytes, -, hdecoded, -⟩ := bootstrap_answers hreached 10 hframe
  have hresponse : (handleRequest blake3 isSocketAddr
      (handleRequest blake3 isSocketAddr (.new 30000) 0 peerRegistration).1 10
        peerRegistration).2 = .registered 30000 := by decide +kernel
  rw [hresponse] at hbytes hdecoded
  exact ⟨bytes, hbytes, hdecoded⟩

end TripTorrent

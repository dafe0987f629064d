import TripTorrent.Leasing.Renewal
import TripTorrent.Overlay.Service

/-!
# Renewals at the service

A request that renews a lease sets its expiry from the time at which its thread started, whatever
the expiry was. When another request for the same peer or relay started later and was handled
earlier, the lease becomes shorter. There is no other way: a lease is never shortened as long as no
renewal is overtaken by a later one.
-/

namespace TripTorrent

open Leasing (Dated NotShortened Update lastRenewal)

/-! ## What is renewed -/

section Renewals

variable (blake3 : List UInt8 → Digest) (isSocketAddr : String → Bool)

/-- The peer whose lease a request is to renew. -/
def OverlayRequest.renewedPeer? : OverlayRequest → Option PeerId
  | .registerPeer peer =>
    match validatePeer blake3 {} peer with
    | .ok () => some peer.peerId
    | .error _ => none
  | .heartbeatPeer peerId | .pollPeer peerId => some peerId
  | _ => none

/-- The relay whose lease a request is to renew. -/
def OverlayRequest.renewedRelay? : OverlayRequest → Option String
  | .registerRelay relay =>
    match Registry.validateRelay isSocketAddr relay with
    | .ok () => some relay.relayId
    | .error _ => none
  | .heartbeatRelay relayId => some relayId
  | _ => none

/-- The renewals of peers in a history of requests. -/
def peerRenewals (history : List (ℕ × OverlayRequest)) : List (ℕ × Option PeerId) :=
  history.map fun request ↦ (request.1, request.2.renewedPeer? blake3)

/-- The renewals of relays in a history of requests. -/
def relayRenewals (history : List (ℕ × OverlayRequest)) : List (ℕ × Option String) :=
  history.map fun request ↦ (request.1, request.2.renewedRelay? isSocketAddr)

end Renewals

/-! ## One request -/

namespace Registry

/-- What a request at `now` can make of the leases. -/
structure Updates (now : ℕ) (peerId? : Option PeerId) (relayId? : Option String)
    (r r' : Registry) : Prop where
  leaseMs_eq : r'.leaseMs = r.leaseMs
  peers : Update r.leaseMs now peerId? r.peers r'.peers
  relays : Update r.leaseMs now relayId? r.relays r'.relays

section Updates

variable {blake3 : List UInt8 → Digest} {isSocketAddr : String → Bool} {r r' r'' : Registry}
  {now : ℕ} {peerId? : Option PeerId} {relayId? : Option String}

theorem updates_refl (r : Registry) (now : ℕ) : r.Updates now none none r :=
  ⟨rfl, .refl .., .refl ..⟩

theorem updates_purge (r : Registry) (now : ℕ) : r.Updates now none none (r.purge now) :=
  ⟨rfl, .purge .., .purge ..⟩

theorem Updates.of_sameLeases (h : r.Updates now peerId? relayId? r') (hsame : r'.SameLeases r'') :
    r.Updates now peerId? relayId? r'' :=
  ⟨hsame.leaseMs_eq.trans h.leaseMs_eq, hsame.peers_eq ▸ h.peers, hsame.relays_eq ▸ h.relays⟩

theorem Updates.thenPurge (h : r.Updates now peerId? relayId? r') (hlease : 1 ≤ r.leaseMs) :
    r.Updates now peerId? relayId? (r'.purge now) :=
  ⟨h.leaseMs_eq, h.peers.thenPurge hlease, h.relays.thenPurge hlease⟩

theorem sameLeases_queueAssignments (now : ℕ) (relays : List RelayAdvertisement) (r : Registry)
    (providers : List (PeerAdvertisement × ℕ)) :
    r.SameLeases (queueAssignments now relays r providers).1 := by
  induction providers generalizing r with
  | nil => exact .refl r
  | cons entry providers ih =>
    obtain ⟨provider, index⟩ := entry
    rw [queueAssignments]
    rcases relays[index % relays.length]? with _ | relay
    · exact .refl r
    · exact (r.sameLeases_queueAssignment now provider relay "m4").trans (ih _)

theorem sameLeases_pollPeer (r : Registry) (now : ℕ) (peerId : PeerId) :
    (r.heartbeatPeer now peerId).1.SameLeases (r.pollPeer now peerId).1 := by
  rcases r.pollPeer_eq now peerId with heq | ⟨queue, -, heq⟩
  · rw [heq]
    exact .refl _
  · rw [heq]
    exact ⟨rfl, rfl, rfl⟩

theorem updates_registerPeer (hlimits : r.limits = {}) (peer : PeerAdvertisement) :
    r.Updates now (OverlayRequest.renewedPeer? blake3 (.registerPeer peer)) none
      (r.registerPeer blake3 now peer).1 := by
  have hcases := r.registerPeer_cases blake3 now peer
  rw [hlimits] at hcases
  rw [OverlayRequest.renewedPeer?]
  rcases hcases with ⟨error, hvalid, heq⟩ | ⟨hvalid, ⟨hadmits, heq⟩ | ⟨-, heq⟩⟩
  · rw [hvalid, heq]
    exact r.updates_refl now
  · rw [hvalid, heq]
    refine ⟨rfl, .purge_of_not_mem ?_, .purge ..⟩
    rintro _ ⟨⟩
    exact Leasing.Table.not_mem_of_not_admits hadmits
  · rw [hvalid, heq]
    exact ⟨rfl, .grant .., .purge ..⟩

theorem updates_heartbeatPeer (r : Registry) (now : ℕ) (peerId : PeerId) :
    r.Updates now (some peerId) none (r.heartbeatPeer now peerId).1 := by
  rcases r.heartbeatPeer_cases now peerId with ⟨hpeer, heq⟩ | ⟨-, heq⟩
  · rw [heq]
    refine ⟨rfl, .purge_of_not_mem ?_, .purge ..⟩
    rintro _ ⟨⟩
    exact hpeer
  · rw [heq]
    exact ⟨rfl, .renew .., .purge ..⟩

/-- The second heartbeat of a poll, at the same time as the first. -/
theorem Updates.thenHeartbeat {peerId : PeerId} (h : r.Updates now (some peerId) none r')
    (hlease : 1 ≤ r.leaseMs) :
    r.Updates now (some peerId) none (r'.heartbeatPeer now peerId).1 := by
  have hpurge := h.thenPurge hlease
  rcases r'.heartbeatPeer_cases now peerId with ⟨-, heq⟩ | ⟨-, heq⟩
  · rw [heq]
    exact hpurge
  · rw [heq]
    refine ⟨hpurge.leaseMs_eq, ?_, hpurge.relays⟩
    change Update r.leaseMs now _ r.peers ((r'.purge now).peers.renew r'.leaseMs now peerId)
    rw [h.leaseMs_eq]
    exact hpurge.peers.thenRenew

theorem updates_registerRelay (r : Registry) (now : ℕ) (relay : RelayAdvertisement) :
    r.Updates now none (OverlayRequest.renewedRelay? isSocketAddr (.registerRelay relay))
      (r.registerRelay isSocketAddr now relay).1 := by
  rw [OverlayRequest.renewedRelay?]
  rcases r.registerRelay_cases isSocketAddr now relay with
    ⟨error, hvalid, heq⟩ | ⟨hvalid, ⟨hadmits, heq⟩ | ⟨-, heq⟩⟩
  · rw [hvalid, heq]
    exact r.updates_refl now
  · rw [hvalid, heq]
    refine ⟨rfl, .purge .., .purge_of_not_mem ?_⟩
    rintro _ ⟨⟩
    exact Leasing.Table.not_mem_of_not_admits hadmits
  · rw [hvalid, heq]
    exact ⟨rfl, .purge .., .grant ..⟩

theorem updates_heartbeatRelay (r : Registry) (now : ℕ) (relayId : String) :
    r.Updates now none (some relayId) (r.heartbeatRelay now relayId).1 := by
  rcases r.heartbeatRelay_cases now relayId with ⟨hrelay, heq⟩ | ⟨-, heq⟩
  · rw [heq]
    refine ⟨rfl, .purge .., .purge_of_not_mem ?_⟩
    rintro _ ⟨⟩
    exact hrelay
  · rw [heq]
    exact ⟨rfl, .purge .., .renew ..⟩

theorem updates_discover (r : Registry) (now : ℕ) (contentId : ContentId) :
    r.Updates now none none (r.discover now contentId).1 := by
  rcases r.discover_cases now contentId with heq | ⟨provider, -, relay, -, heq⟩
  · rw [heq]
    exact r.updates_purge now
  · rw [heq]
    exact (r.updates_purge now).of_sameLeases (sameLeases_queueAssignment ..)

theorem updates_discoverProviders (r : Registry) (now : ℕ) (contentId : ContentId) (limit : ℕ) :
    r.Updates now none none (r.discoverProviders now contentId limit).1 := by
  rcases r.discoverProviders_cases now contentId limit with heq | ⟨providers, -, heq⟩
  · rw [heq]
    exact r.updates_purge now
  · rw [heq]
    exact (r.updates_purge now).of_sameLeases (sameLeases_queueAssignments ..)

theorem updates_reportRelayFailure (r : Registry) (now : ℕ) (relayId : String) :
    r.Updates now none none (r.reportRelayFailure relayId) :=
  ⟨rfl, .refl .., .erase ..⟩

theorem updates_handleRequest (hlimits : r.limits = {}) (hlease : 1 ≤ r.leaseMs)
    (request : OverlayRequest) :
    r.Updates now (request.renewedPeer? blake3) (request.renewedRelay? isSocketAddr)
      (handleRequest blake3 isSocketAddr r now request).1 := by
  rcases request with peer | peerId | peerId | relay | relayId | contentId | ⟨contentId, limit⟩ |
    relayId | _
  · exact updates_registerPeer hlimits peer
  · exact r.updates_heartbeatPeer now peerId
  · have hbeat := r.updates_heartbeatPeer now peerId
    rw [handleRequest]
    simp only
    split_ifs
    · exact (hbeat.thenHeartbeat hlease).of_sameLeases (sameLeases_pollPeer ..)
    · exact hbeat
  · exact r.updates_registerRelay now relay
  · exact r.updates_heartbeatRelay now relayId
  · exact r.updates_discover now contentId
  · exact r.updates_discoverProviders now contentId _
  · exact r.updates_reportRelayFailure now relayId
  · exact r.updates_refl now

end Updates

end Registry

/-! ## All requests -/

section Serves

variable {blake3 : List UInt8 → Digest} {isSocketAddr : String → Bool} {leaseMs now : ℕ}
  {history : List (ℕ × OverlayRequest)} {requests : List (ℕ × OverlayRequest)}
  {request : OverlayRequest} {s s' : Service}

/-- Every lease is dated by the request that renewed it last. -/
structure Service.Tracks (blake3 : List UInt8 → Digest) (isSocketAddr : String → Bool) (leaseMs : ℕ)
    (history : List (ℕ × OverlayRequest)) (s : Service) : Prop where
  leaseMs_eq : s.registry.leaseMs = max leaseMs 1
  peers : Dated (max leaseMs 1) (peerRenewals blake3 history) s.registry.peers
  relays : Dated (max leaseMs 1) (relayRenewals isSocketAddr history) s.registry.relays

/-- A step handles no request and leaves the registry alone, or handles one. -/
theorem Service.Step.cases (h : s.Step blake3 isSocketAddr requests s') :
    requests = [] ∧ s'.registry = s.registry ∨
      ∃ now request, requests = [(now, request)] ∧ s'.registry =
        (handleRequest blake3 isSocketAddr s.registry now request).1.purge now := by
  rcases h with _ | _ | _ | @⟨_, now, _, frame?⟩ | _
  case receive =>
    unfold handled Service.receive handleConnection
    rcases frame? with _ | frame
    · exact .inl ⟨rfl, rfl⟩
    · dsimp only
      rcases decodeOverlayRequest blake3 isSocketAddr frame with error | request
      · exact .inl ⟨rfl, rfl⟩
      · exact .inr ⟨now, request, rfl, rfl⟩
  all_goals exact .inl ⟨rfl, rfl⟩

theorem Service.Tracks.updates (h : s.Tracks blake3 isSocketAddr leaseMs history)
    (hlimits : s.registry.limits = {}) (now : ℕ) (request : OverlayRequest) :
    s.registry.Updates now (request.renewedPeer? blake3) (request.renewedRelay? isSocketAddr)
      ((handleRequest blake3 isSocketAddr s.registry now request).1.purge now) := by
  have hlease : 1 ≤ s.registry.leaseMs := h.leaseMs_eq ▸ le_max_right leaseMs 1
  exact (Registry.updates_handleRequest hlimits hlease request).thenPurge hlease

theorem Service.Tracks.step (h : s.Tracks blake3 isSocketAddr leaseMs history)
    (hlimits : s.registry.limits = {}) (hstep : s.Step blake3 isSocketAddr requests s') :
    s'.Tracks blake3 isSocketAddr leaseMs (history ++ requests) := by
  rcases hstep.cases with ⟨rfl, hregistry⟩ | ⟨now, request, rfl, hregistry⟩
  · rw [List.append_nil]
    exact ⟨hregistry ▸ h.leaseMs_eq, hregistry ▸ h.peers, hregistry ▸ h.relays⟩
  · have hupdates := h.updates hlimits now request
    rw [← hregistry] at hupdates
    refine ⟨hupdates.leaseMs_eq.trans h.leaseMs_eq, ?_, ?_⟩
    · rw [peerRenewals, List.map_append]
      exact h.peers.update (h.leaseMs_eq ▸ hupdates.peers)
    · rw [relayRenewals, List.map_append]
      exact h.relays.update (h.leaseMs_eq ▸ hupdates.relays)

theorem Serves.tracks (h : Serves blake3 isSocketAddr leaseMs history s) :
    s.Tracks blake3 isSocketAddr leaseMs history := by
  induction h with
  | start => exact ⟨rfl, Leasing.dated_empty _, Leasing.dated_empty _⟩
  | step h hstep ih => exact ih.step h.valid.limits_eq hstep

/-- **Renewals out of order.** In every run of the service, handling a request shortens no lease of
a peer or relay that stays registered, exactly when the thread of the request did not start earlier
than the thread of the request that renewed the same lease last. Once the clock has all but stopped,
the order no longer matters. -/
theorem Serves.shortens_no_lease_iff (h : Serves blake3 isSocketAddr leaseMs history s)
    (hstep : s.Step blake3 isSocketAddr [(now, request)] s') :
    (NotShortened s.registry.peers s'.registry.peers ∧
        NotShortened s.registry.relays s'.registry.relays) ↔
      (∀ peerId, request.renewedPeer? blake3 = some peerId → peerId ∈ s.registry.peers →
        ∀ latest, lastRenewal (peerRenewals blake3 history) peerId = some latest →
          latest ≤ now ∨ 2 ^ 64 - 1 ≤ now + max leaseMs 1) ∧
      ∀ relayId, request.renewedRelay? isSocketAddr = some relayId → relayId ∈ s.registry.relays →
        ∀ latest, lastRenewal (relayRenewals isSocketAddr history) relayId = some latest →
          latest ≤ now ∨ 2 ^ 64 - 1 ≤ now + max leaseMs 1 := by
  obtain ⟨hlease, hpeers, hrelays⟩ := h.tracks
  rcases hstep.cases with ⟨hnone, -⟩ | ⟨_, _, hsome, hregistry⟩
  · cases hnone
  · cases hsome
    have hupdates := h.tracks.updates h.valid.limits_eq now request
    rw [← hregistry] at hupdates
    exact and_congr (Leasing.notShortened_iff hpeers (hlease ▸ hupdates.peers))
      (Leasing.notShortened_iff hrelays (hlease ▸ hupdates.relays))

end Serves

/-! Two connections for one peer. The first starts at once, the second after a second; either may be
the first to be handled. -/

namespace Vectors

/-- Both threads wait for a frame. -/
def waiting : Service where
  registry := .new 30000
  clock := 1000
  handlers := [.reading 0, .reading 1000]

theorem serves_waiting : Serves blake3 isSocketAddr 30000 [] waiting := by
  have haccept : Serves blake3 isSocketAddr 30000 [] ⟨.new 30000, 0, [.spawned, .spawned]⟩ :=
    (Serves.start.step (.accept (by decide))).step (.accept (by decide))
  have hfirst : Serves blake3 isSocketAddr 30000 [] ⟨.new 30000, 0, [.reading 0, .spawned]⟩ :=
    haccept.step (.sample (i := 0) rfl)
  have hlater : Serves blake3 isSocketAddr 30000 [] ⟨.new 30000, 1000, [.reading 0, .spawned]⟩ :=
    hfirst.step (.elapse (by decide))
  exact hlater.step (.sample (i := 1) rfl)

def register : OverlayRequest := .registerPeer peerAdvertisement

def heartbeat : OverlayRequest := .heartbeatPeer ⟨peerDigest⟩

/-- The frame of a request. -/
def frameOf (request : OverlayRequest) : List UInt8 :=
  (encodeOverlayRequest blake3 isSocketAddr request).toOption.getD []

theorem decode_register :
    decodeOverlayRequest blake3 isSocketAddr (frameOf register) = .ok register := by
  decide +kernel

theorem decode_heartbeat :
    decodeOverlayRequest blake3 isSocketAddr (frameOf heartbeat) = .ok heartbeat := by
  decide +kernel

/-- The second connection is handled first and registers the peer. -/
def overtaken : Service := waiting.receive blake3 isSocketAddr 1 1000 (some (frameOf register))

theorem serves_overtaken : Serves blake3 isSocketAddr 30000 [(1000, register)] overtaken :=
  serves_waiting.step (Service.step_receive rfl decode_register)

/-- Then the heartbeat of the first is handled. -/
def shortened : Service := overtaken.receive blake3 isSocketAddr 0 0 (some (frameOf heartbeat))

/-- The first connection is handled first and registers the peer. -/
def registered : Service := waiting.receive blake3 isSocketAddr 0 0 (some (frameOf register))

theorem serves_registered : Serves blake3 isSocketAddr 30000 [(0, register)] registered :=
  serves_waiting.step (Service.step_receive rfl decode_register)

/-- Then the heartbeat of the second is handled. -/
def renewed : Service := registered.receive blake3 isSocketAddr 1 1000 (some (frameOf heartbeat))

end Vectors

open Vectors in
/-- The heartbeat that started a second earlier takes a second off the lease. -/
theorem heartbeat_shortens_lease :
    Serves blake3 isSocketAddr 30000 [(1000, register)] overtaken ∧
      overtaken.Step blake3 isSocketAddr [(0, heartbeat)] shortened ∧
      (overtaken.registry.peers[(⟨peerDigest⟩ : PeerId)]?).map (·.expiresAt) = some 31000 ∧
      (shortened.registry.peers[(⟨peerDigest⟩ : PeerId)]?).map (·.expiresAt) = some 30000 :=
  ⟨serves_overtaken, Service.step_receive (by decide +kernel) decode_heartbeat, by decide +kernel,
    by decide +kernel⟩

open Vectors in
theorem heartbeat_in_order_shortens_no_lease :
    registered.Step blake3 isSocketAddr [(1000, heartbeat)] renewed ∧
      (⟨peerDigest⟩ : PeerId) ∈ registered.registry.peers ∧
      NotShortened registered.registry.peers renewed.registry.peers ∧
      NotShortened registered.registry.relays renewed.registry.relays := by
  have hstep : registered.Step blake3 isSocketAddr [(1000, heartbeat)] renewed :=
    Service.step_receive (by decide +kernel) decode_heartbeat
  refine ⟨hstep, by decide +kernel, (serves_registered.shortens_no_lease_iff hstep).mpr ⟨?_, ?_⟩⟩
  · rintro _ ⟨⟩ - latest hlatest
    have hfirst : lastRenewal (peerRenewals blake3 [(0, register)]) ⟨peerDigest⟩ = some 0 := by
      decide +kernel
    obtain rfl := Option.some.inj (hlatest.symm.trans hfirst)
    exact .inl (Nat.zero_le _)
  · intro relayId hrelay
    cases hrelay

end TripTorrent

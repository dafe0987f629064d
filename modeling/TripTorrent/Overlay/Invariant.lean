import TripTorrent.Overlay.Registry
import TripTorrent.Protocol.RoundTrip

/-!
# The representation invariant of the registry

The three maps of the registry agree with each other and with the limits, whatever calls are made
and at whatever times. Purging is where they could come apart: it removes peers and relays, and with
them the assignments that name them.
-/

namespace TripTorrent

open Leasing (Lease Table)
open Std (ExtTreeMap)

namespace Registry

/-! ## The queues -/

section Queues

variable {r : Registry} {now : ℕ} {peerId other : PeerId}

theorem queue_of_getElem? {queue : List QueuedAssignment}
    (h : r.assignments[peerId]? = some queue) : r.queue peerId = queue := by
  rw [Registry.queue, h, Option.getD_some]

theorem getElem?_assignments_purge : (r.purge now).assignments[peerId]? =
    r.assignments[peerId]?.bind
      (retainQueue (r.purge now).peers (r.purge now).relays now peerId) :=
  ExtTreeMap.getElem?_filterMap'

/-- Purging keeps the good assignments of the peers that are left. -/
theorem queue_purge : (r.purge now).queue peerId =
    (r.queue peerId).filter fun queued ↦ (r.purge now).peers.contains peerId &&
      (now < queued.expiresAt && (r.purge now).relays.contains queued.assignment.relayId) := by
  rw [Registry.queue, Registry.queue, getElem?_assignments_purge]
  rcases r.assignments[peerId]? with _ | queue
  · rfl
  · rw [Option.bind_some, Option.getD_some, retainQueue]
    by_cases hpeer : (r.purge now).peers.contains peerId = true
    · rw [if_pos hpeer, hpeer]
      simp only [Bool.true_and]
      split_ifs with hempty
      · exact (List.isEmpty_iff.mp hempty).symm
      · rfl
    · rw [if_neg hpeer]
      simp [hpeer]

theorem mem_assignments_purge (h : peerId ∈ (r.purge now).assignments) :
    peerId ∈ (r.purge now).peers := by
  rw [ExtTreeMap.mem_iff_isSome_getElem?, getElem?_assignments_purge] at h
  by_contra hpeer
  rw [← ExtTreeMap.contains_iff_mem] at hpeer
  rcases hqueue : r.assignments[peerId]? with _ | queue
  · rw [hqueue] at h
    cases h
  · rw [hqueue, Option.bind_some, retainQueue, if_neg hpeer] at h
    cases h

theorem queue_setQueue_self (r : Registry) (peerId : PeerId) (queue : List QueuedAssignment) :
    (r.setQueue peerId queue).queue peerId = queue := by
  rw [Registry.queue, setQueue, ExtTreeMap.getElem?_insert_self, Option.getD_some]

theorem queue_setQueue_of_ne (r : Registry) (queue : List QueuedAssignment) (h : peerId ≠ other) :
    (r.setQueue peerId queue).queue other = r.queue other := by
  rw [Registry.queue, setQueue, ExtTreeMap.getElem?_insert, if_neg (mt Std.compare_eq_iff_eq.mp h)]
  rfl

theorem queue_reportRelayFailure {relayId : String} :
    (r.reportRelayFailure relayId).queue peerId =
      (r.queue peerId).filter fun queued ↦ queued.assignment.relayId ≠ relayId := by
  rw [Registry.queue, Registry.queue, reportRelayFailure, ExtTreeMap.getElem?_map]
  rcases r.assignments[peerId]? with _ | queue
  · rfl
  · rfl

/-- The leases and their term are the same: the two differ in queues and counters only. -/
structure SameLeases (r r' : Registry) : Prop where
  leaseMs_eq : r'.leaseMs = r.leaseMs
  peers_eq : r'.peers = r.peers
  relays_eq : r'.relays = r.relays

theorem SameLeases.refl (r : Registry) : r.SameLeases r := ⟨rfl, rfl, rfl⟩

theorem SameLeases.trans {r' r'' : Registry} (h : r.SameLeases r') (h' : r'.SameLeases r'') :
    r.SameLeases r'' :=
  ⟨h'.leaseMs_eq.trans h.leaseMs_eq, h'.peers_eq.trans h.peers_eq, h'.relays_eq.trans h.relays_eq⟩

theorem sameLeases_queueAssignment (r : Registry) (now : ℕ) (provider : PeerAdvertisement)
    (relay : RelayAdvertisement) (routePrefix : String) :
    r.SameLeases (r.queueAssignment now provider relay routePrefix).1 := by
  rw [queueAssignment]
  split_ifs
  · exact ⟨rfl, rfl, rfl⟩
  · exact ⟨rfl, rfl, rfl⟩

theorem popAssignment_suffix (relays : Table String RelayAdvertisement) (now : ℕ)
    (queue : List QueuedAssignment) : (popAssignment relays now queue).2 <:+ queue := by
  induction queue with
  | nil => exact List.suffix_rfl
  | cons queued queue ih =>
    rw [popAssignment]
    split_ifs
    · exact List.suffix_cons queued queue
    · exact ih.trans (List.suffix_cons queued queue)

end Queues

/-! ## The invariant -/

/-- What is checked of an advertisement before it is registered. -/
structure Admissible (blake3 : List UInt8 → Digest) (limits : RegistryLimits)
    (advertisement : PeerAdvertisement) : Prop where
  peerId_eq : advertisement.peerId = PeerId.fromPublicKey blake3 advertisement.publicKey
  one_le_length : 1 ≤ advertisement.contentIds.length
  length_le : advertisement.contentIds.length ≤ limits.maxContentIdsPerPeer
  nodup : advertisement.contentIds.Nodup

/-- The representation invariant. -/
structure Valid (blake3 : List UInt8 → Digest) (limits : RegistryLimits) (r : Registry) : Prop where
  limits_eq : r.limits = limits
  size_peers_le : r.peers.size ≤ limits.maxPeers
  size_relays_le : r.relays.size ≤ limits.maxRelays
  peer : ∀ (peerId : PeerId) (lease : Lease PeerAdvertisement), r.peers[peerId]? = some lease →
    lease.advertisement.peerId = peerId ∧ Admissible blake3 limits lease.advertisement
  relay : ∀ (relayId : String) (lease : Lease RelayAdvertisement),
    r.relays[relayId]? = some lease → lease.advertisement.relayId = relayId
  assigned : ∀ peerId ∈ r.assignments, peerId ∈ r.peers
  length_queue_le : ∀ peerId, (r.queue peerId).length ≤ limits.maxAssignmentsPerPeer
  queued : ∀ peerId, ∀ queued ∈ r.queue peerId,
    queued.assignment.providerId = peerId ∧ queued.assignment.relayId ∈ r.relays

section Preservation

variable {blake3 : List UInt8 → Digest} {isSocketAddr : String → Bool} {limits : RegistryLimits}
  {r : Registry} {now : ℕ} {peerId : PeerId} {relayId : String}

theorem admissible_of_validatePeer {advertisement : PeerAdvertisement}
    (h : validatePeer blake3 limits advertisement = .ok ()) :
    Admissible blake3 limits advertisement := by
  rw [validatePeer] at h
  split_ifs at h with hid hempty hlimit hdistinct hcapable
  rw [List.isEmpty_iff] at hempty
  refine ⟨not_not.mp hid, List.length_pos_iff.mpr hempty, not_lt.mp hlimit, ?_⟩
  rw [← List.dedup_eq_self]
  exact (List.dedup_sublist _).eq_of_length (not_not.mp hdistinct)

theorem valid_withLimits (blake3 : List UInt8 → Digest) (leaseMs : ℕ) (limits : RegistryLimits) :
    Valid blake3 limits (withLimits leaseMs limits) where
  limits_eq := rfl
  size_peers_le := by simp [withLimits]
  size_relays_le := by simp [withLimits]
  peer := by simp [withLimits]
  relay := by simp [withLimits]
  assigned := by simp [withLimits]
  length_queue_le := by simp [withLimits, Registry.queue]
  queued := by simp [withLimits, Registry.queue]

namespace Valid

theorem purge (h : r.Valid blake3 limits) (now : ℕ) : (r.purge now).Valid blake3 limits where
  limits_eq := h.limits_eq
  size_peers_le := Table.size_purge_le.trans h.size_peers_le
  size_relays_le := Table.size_purge_le.trans h.size_relays_le
  peer peerId lease hlease := h.peer peerId lease (Table.getElem?_purge_eq_some_iff.mp hlease).1
  relay relayId lease hlease := h.relay relayId lease (Table.getElem?_purge_eq_some_iff.mp hlease).1
  assigned _ := mem_assignments_purge
  length_queue_le peerId := by
    rw [queue_purge]
    exact (List.length_filter_le ..).trans (h.length_queue_le peerId)
  queued peerId queued hqueued := by
    rw [queue_purge, List.mem_filter, Bool.and_eq_true, Bool.and_eq_true] at hqueued
    obtain ⟨hmem, -, -, hrelay⟩ := hqueued
    exact ⟨(h.queued peerId queued hmem).1, ExtTreeMap.contains_iff_mem.mp hrelay⟩

theorem grantPeer {advertisement : PeerAdvertisement} (h : r.Valid blake3 limits)
    (hadmissible : Admissible blake3 limits advertisement)
    (hadmits : r.peers.admits r.limits.maxPeers advertisement.peerId = true) :
    (r.grantPeer now advertisement).Valid blake3 limits where
  limits_eq := h.limits_eq
  size_peers_le := Table.size_grant_le h.size_peers_le (h.limits_eq ▸ hadmits)
  size_relays_le := h.size_relays_le
  peer peerId lease hlease := by
    rcases Table.granted_or_unchanged hlease with ⟨rfl, rfl⟩ | ⟨-, hold⟩
    · exact ⟨rfl, hadmissible⟩
    · exact h.peer peerId lease hold
  relay := h.relay
  assigned peerId hpeer := Table.mem_grant_of_mem (h.assigned peerId hpeer)
  length_queue_le := h.length_queue_le
  queued := h.queued

theorem renewPeer (h : r.Valid blake3 limits) : (r.renewPeer now peerId).Valid blake3 limits where
  limits_eq := h.limits_eq
  size_peers_le := Table.size_renew.trans_le h.size_peers_le
  size_relays_le := h.size_relays_le
  peer other lease hlease := by
    rcases Table.renewed_or_unchanged hlease with ⟨rfl, old, hold, rfl⟩ | ⟨-, hold⟩
    · exact h.peer peerId old hold
    · exact h.peer other lease hold
  relay := h.relay
  assigned peerId hpeer := Table.mem_renew_iff.mpr (h.assigned peerId hpeer)
  length_queue_le := h.length_queue_le
  queued := h.queued

theorem grantRelay {advertisement : RelayAdvertisement} (h : r.Valid blake3 limits)
    (hadmits : r.relays.admits r.limits.maxRelays advertisement.relayId = true) :
    (r.grantRelay now advertisement).Valid blake3 limits where
  limits_eq := h.limits_eq
  size_peers_le := h.size_peers_le
  size_relays_le := Table.size_grant_le h.size_relays_le (h.limits_eq ▸ hadmits)
  peer := h.peer
  relay relayId lease hlease := by
    rcases Table.granted_or_unchanged hlease with ⟨rfl, rfl⟩ | ⟨-, hold⟩
    · rfl
    · exact h.relay relayId lease hold
  assigned := h.assigned
  length_queue_le := h.length_queue_le
  queued peerId queued hqueued := by
    obtain ⟨hprovider, hrelay⟩ := h.queued peerId queued hqueued
    exact ⟨hprovider, Table.mem_grant_of_mem hrelay⟩

theorem renewRelay (h : r.Valid blake3 limits) :
    (r.renewRelay now relayId).Valid blake3 limits where
  limits_eq := h.limits_eq
  size_peers_le := h.size_peers_le
  size_relays_le := Table.size_renew.trans_le h.size_relays_le
  peer := h.peer
  relay other lease hlease := by
    rcases Table.renewed_or_unchanged hlease with ⟨rfl, old, hold, rfl⟩ | ⟨-, hold⟩
    · exact h.relay relayId old hold
    · exact h.relay other lease hold
  assigned := h.assigned
  length_queue_le := h.length_queue_le
  queued peerId queued hqueued := by
    obtain ⟨hprovider, hrelay⟩ := h.queued peerId queued hqueued
    exact ⟨hprovider, Table.mem_renew_iff.mpr hrelay⟩

theorem setQueue {queue : List QueuedAssignment} (h : r.Valid blake3 limits)
    (hpeer : peerId ∈ r.peers) (hlength : queue.length ≤ limits.maxAssignmentsPerPeer)
    (hqueue : ∀ queued ∈ queue,
      queued.assignment.providerId = peerId ∧ queued.assignment.relayId ∈ r.relays) :
    (r.setQueue peerId queue).Valid blake3 limits where
  limits_eq := h.limits_eq
  size_peers_le := h.size_peers_le
  size_relays_le := h.size_relays_le
  peer := h.peer
  relay := h.relay
  assigned other hother := by
    rcases ExtTreeMap.mem_insert.mp hother with hself | hold
    · rw [← Std.compare_eq_iff_eq.mp hself]
      exact hpeer
    · exact h.assigned other hold
  length_queue_le other := by
    by_cases hself : peerId = other
    · rw [← hself, queue_setQueue_self]
      exact hlength
    · rw [queue_setQueue_of_ne r queue hself]
      exact h.length_queue_le other
  queued other queued hqueued := by
    by_cases hself : peerId = other
    · rw [← hself, queue_setQueue_self] at hqueued
      rw [← hself]
      exact hqueue queued hqueued
    · rw [queue_setQueue_of_ne r queue hself] at hqueued
      exact h.queued other queued hqueued

theorem reportRelayFailure (h : r.Valid blake3 limits) (relayId : String) :
    (r.reportRelayFailure relayId).Valid blake3 limits where
  limits_eq := h.limits_eq
  size_peers_le := h.size_peers_le
  size_relays_le := ExtTreeMap.size_erase_le.trans h.size_relays_le
  peer := h.peer
  relay other lease hlease := by
    rw [Registry.reportRelayFailure, ExtTreeMap.getElem?_erase] at hlease
    split_ifs at hlease
    exact h.relay other lease hlease
  assigned peerId hpeer := h.assigned peerId (ExtTreeMap.mem_map.mp hpeer)
  length_queue_le peerId := by
    rw [queue_reportRelayFailure]
    exact (List.length_filter_le ..).trans (h.length_queue_le peerId)
  queued peerId queued hqueued := by
    rw [queue_reportRelayFailure, List.mem_filter, decide_eq_true_eq] at hqueued
    obtain ⟨hmem, hother⟩ := hqueued
    obtain ⟨hprovider, hrelay⟩ := h.queued peerId queued hmem
    refine ⟨hprovider, ExtTreeMap.mem_erase.mpr ⟨?_, hrelay⟩⟩
    exact fun hself ↦ hother (Std.compare_eq_iff_eq.mp hself).symm

/-- A peer is registered under its identifier. -/
theorem exists_peer (h : r.Valid blake3 limits) {provider : PeerAdvertisement}
    (hprovider : provider ∈ r.peers.advertisements) :
    ∃ lease, r.peers[provider.peerId]? = some lease ∧ lease.advertisement = provider := by
  obtain ⟨peerId, lease, hlease, rfl⟩ := Table.mem_advertisements_iff.mp hprovider
  rw [(h.peer peerId lease hlease).1]
  exact ⟨lease, hlease, rfl⟩

/-- A relay is registered under its identifier. -/
theorem exists_relay (h : r.Valid blake3 limits) {relay : RelayAdvertisement}
    (hrelay : relay ∈ r.relays.advertisements) :
    ∃ lease, r.relays[relay.relayId]? = some lease ∧ lease.advertisement = relay := by
  obtain ⟨relayId, lease, hlease, rfl⟩ := Table.mem_advertisements_iff.mp hrelay
  rw [h.relay relayId lease hlease]
  exact ⟨lease, hlease, rfl⟩

theorem mem_peers (h : r.Valid blake3 limits) {provider : PeerAdvertisement}
    (hprovider : provider ∈ r.peers.advertisements) : provider.peerId ∈ r.peers := by
  obtain ⟨lease, hlease, -⟩ := h.exists_peer hprovider
  exact Table.mem_iff_exists.mpr ⟨lease, hlease⟩

theorem mem_relays (h : r.Valid blake3 limits) {relay : RelayAdvertisement}
    (hrelay : relay ∈ r.relays.advertisements) : relay.relayId ∈ r.relays := by
  obtain ⟨lease, hlease, -⟩ := h.exists_relay hrelay
  exact Table.mem_iff_exists.mpr ⟨lease, hlease⟩

theorem queueAssignment {provider : PeerAdvertisement} {relay : RelayAdvertisement}
    {routePrefix : String} (h : r.Valid blake3 limits)
    (hprovider : provider ∈ r.peers.advertisements) (hrelay : relay ∈ r.relays.advertisements) :
    (r.queueAssignment now provider relay routePrefix).1.Valid blake3 limits := by
  have hpeer := h.mem_peers hprovider
  have hold := h.queued provider.peerId
  rw [Registry.queueAssignment]
  split_ifs with hfull
  · exact h.setQueue hpeer (h.length_queue_le _) hold
  · rw [h.limits_eq, not_le] at hfull
    have hset : (r.setQueue provider.peerId (r.queue provider.peerId ++
        [⟨r.nextAssignment provider relay routePrefix, Leasing.expiry r.leaseMs now⟩])).Valid
          blake3 limits := by
      refine h.setQueue hpeer ?_ ?_
      · rw [List.length_append, List.length_singleton]
        exact hfull
      · intro queued hqueued
        rcases List.mem_append.mp hqueued with hqueued | hqueued
        · exact hold queued hqueued
        · obtain rfl := List.mem_singleton.mp hqueued
          exact ⟨rfl, h.mem_relays hrelay⟩
    -- the route counter is not part of the invariant
    exact { hset with }

theorem queueAssignments {relays : List RelayAdvertisement}
    {providers : List (PeerAdvertisement × ℕ)} (h : r.Valid blake3 limits)
    (hproviders : ∀ entry ∈ providers, entry.1 ∈ r.peers.advertisements)
    (hrelays : ∀ relay ∈ relays, relay ∈ r.relays.advertisements) :
    (queueAssignments now relays r providers).1.Valid blake3 limits := by
  induction providers generalizing r with
  | nil => exact h
  | cons entry providers ih =>
    obtain ⟨provider, index⟩ := entry
    rw [Registry.queueAssignments]
    rcases hrelay : relays[index % relays.length]? with _ | relay
    · exact h
    · have hnext : (r.queueAssignment now provider relay "m4").1.Valid blake3 limits :=
        h.queueAssignment (hproviders _ List.mem_cons_self)
          (hrelays relay (List.mem_of_getElem? hrelay))
      have hsame := r.sameLeases_queueAssignment now provider relay "m4"
      refine ih hnext ?_ ?_
      · rw [hsame.peers_eq]
        exact fun entry hentry ↦ hproviders entry (List.mem_cons_of_mem _ hentry)
      · rw [hsame.relays_eq]
        exact hrelays

theorem heartbeatPeer (h : r.Valid blake3 limits) :
    (r.heartbeatPeer now peerId).1.Valid blake3 limits := by
  rcases r.heartbeatPeer_cases now peerId with ⟨-, heq⟩ | ⟨-, heq⟩
  · rw [heq]
    exact h.purge now
  · rw [heq]
    exact (h.purge now).renewPeer

theorem pollPeer (h : r.Valid blake3 limits) : (r.pollPeer now peerId).1.Valid blake3 limits := by
  have hbeat : (r.heartbeatPeer now peerId).1.Valid blake3 limits := h.heartbeatPeer
  rcases r.pollPeer_eq now peerId with heq | ⟨queue, hqueue, heq⟩
  · rw [heq]
    exact hbeat
  · have hsuffix := popAssignment_suffix (r.heartbeatPeer now peerId).1.relays now queue
    have hlength := hbeat.length_queue_le peerId
    have hold := hbeat.queued peerId
    rw [queue_of_getElem? hqueue] at hlength hold
    rw [heq]
    refine hbeat.setQueue ?_ (hsuffix.length_le.trans hlength) fun queued hqueued ↦
      hold queued (hsuffix.subset hqueued)
    exact hbeat.assigned peerId (ExtTreeMap.mem_iff_isSome_getElem?.mpr (by rw [hqueue]; rfl))

/-- One call keeps the invariant. -/
theorem exec (h : r.Valid blake3 limits) (operation : Operation) :
    (r.exec blake3 isSocketAddr operation).1.Valid blake3 limits := by
  cases operation with
  | registerPeer now advertisement =>
    change (r.registerPeer blake3 now advertisement).1.Valid blake3 limits
    rcases r.registerPeer_cases blake3 now advertisement with
      ⟨error, -, heq⟩ | ⟨hvalid, ⟨-, heq⟩ | ⟨hadmits, heq⟩⟩
    · rw [heq]
      exact h
    · rw [heq]
      exact h.purge now
    · rw [heq]
      exact (h.purge now).grantPeer (admissible_of_validatePeer (h.limits_eq ▸ hvalid)) hadmits
  | heartbeatPeer now peerId => exact h.heartbeatPeer
  | registerRelay now advertisement =>
    change (r.registerRelay isSocketAddr now advertisement).1.Valid blake3 limits
    rcases r.registerRelay_cases isSocketAddr now advertisement with
      ⟨error, -, heq⟩ | ⟨-, ⟨-, heq⟩ | ⟨hadmits, heq⟩⟩
    · rw [heq]
      exact h
    · rw [heq]
      exact h.purge now
    · rw [heq]
      exact (h.purge now).grantRelay hadmits
  | heartbeatRelay now relayId =>
    change (r.heartbeatRelay now relayId).1.Valid blake3 limits
    rcases r.heartbeatRelay_cases now relayId with ⟨-, heq⟩ | ⟨-, heq⟩
    · rw [heq]
      exact h.purge now
    · rw [heq]
      exact (h.purge now).renewRelay
  | discover now contentId =>
    change (r.discover now contentId).1.Valid blake3 limits
    rcases r.discover_cases now contentId with heq | ⟨provider, hprovider, relay, hrelay, heq⟩
    · rw [heq]
      exact h.purge now
    · rw [heq]
      exact (h.purge now).queueAssignment hprovider hrelay
  | discoverProviders now contentId limit =>
    change (r.discoverProviders now contentId limit).1.Valid blake3 limits
    rcases r.discoverProviders_cases now contentId limit with heq | ⟨providers, hproviders, heq⟩
    · rw [heq]
      exact h.purge now
    · rw [heq]
      exact (h.purge now).queueAssignments hproviders fun relay hrelay ↦ hrelay
  | pollPeer now peerId => exact h.pollPeer
  | reportRelayFailure relayId => exact h.reportRelayFailure relayId
  | snapshot now => exact h.purge now

end Valid

end Preservation

end Registry

section Runs

open Registry

variable {blake3 : List UInt8 → Digest} {isSocketAddr : String → Bool} {limits : RegistryLimits}
  {leaseMs : ℕ} {events : List Event} {r : Registry}

/-- The invariant holds after any calls on a new registry. -/
theorem Run.valid (h : Run blake3 isSocketAddr (withLimits leaseMs limits) events r) :
    r.Valid blake3 limits := by
  induction h with
  | nil => exact valid_withLimits blake3 leaseMs limits
  | snoc h operation ih => exact ih.exec operation

/-- **Representation invariant.** After any calls on a new registry, at any times and with any
arguments, the tables are within their limits and refer to each other as they should. -/
theorem registry_invariant (h : Run blake3 isSocketAddr (withLimits leaseMs limits) events r) :
    r.peers.size ≤ limits.maxPeers ∧ r.relays.size ≤ limits.maxRelays ∧
      (∀ peerId, (r.queue peerId).length ≤ limits.maxAssignmentsPerPeer) ∧
      (∀ (peerId : PeerId) (lease : Lease PeerAdvertisement), r.peers[peerId]? = some lease →
        lease.advertisement.peerId = peerId ∧
          lease.advertisement.peerId =
            PeerId.fromPublicKey blake3 lease.advertisement.publicKey ∧
          1 ≤ lease.advertisement.contentIds.length ∧
          lease.advertisement.contentIds.length ≤ limits.maxContentIdsPerPeer ∧
          lease.advertisement.contentIds.Nodup) ∧
      (∀ peerId ∈ r.assignments, peerId ∈ r.peers) ∧
      ∀ peerId, ∀ queued ∈ r.queue peerId,
        queued.assignment.providerId = peerId ∧ queued.assignment.relayId ∈ r.relays := by
  have hvalid := h.valid
  refine ⟨hvalid.size_peers_le, hvalid.size_relays_le, hvalid.length_queue_le, ?_, hvalid.assigned,
    hvalid.queued⟩
  intro peerId lease hlease
  obtain ⟨hkey, hadmissible⟩ := hvalid.peer peerId lease hlease
  exact ⟨hkey, hadmissible.peerId_eq, hadmissible.one_le_length, hadmissible.length_le,
    hadmissible.nodup⟩

end Runs

/-! The published peer and a relay register, and a discoverer asks for the peer's content. -/

namespace Vectors

def peerAdvertisement : PeerAdvertisement where
  peerId := ⟨peerDigest⟩
  publicKey := publicKey
  capabilities := [.swarmTransferV1]
  contentIds := [⟨contentDigest⟩]

def relayAdvertisement : RelayAdvertisement where
  relayId := "relay-a"
  address := "127.0.0.1:7001"

def started : Registry := .withLimits 30000 {}

def withPeer : Registry :=
  (started.exec blake3 isSocketAddr (.registerPeer 0 peerAdvertisement)).1

def withRelay : Registry :=
  (withPeer.exec blake3 isSocketAddr (.registerRelay 5 relayAdvertisement)).1

def discovered : Registry :=
  (withRelay.exec blake3 isSocketAddr (.discover 10 ⟨contentDigest⟩)).1

def calls : List Event :=
  [⟨started, .registerPeer 0 peerAdvertisement⟩, ⟨withPeer, .registerRelay 5 relayAdvertisement⟩,
    ⟨withRelay, .discover 10 ⟨contentDigest⟩⟩]

theorem run_calls : Run blake3 isSocketAddr started calls discovered :=
  .snoc (.snoc (.snoc .nil _) _) _

end Vectors

open Vectors in
theorem registry_invariant_discovered :
    (discovered.queue ⟨peerDigest⟩).length = 1 ∧ ∀ queued ∈ discovered.queue ⟨peerDigest⟩,
      queued.assignment.providerId = ⟨peerDigest⟩ ∧
        queued.assignment.relayId ∈ discovered.relays :=
  ⟨by decide +kernel, (registry_invariant run_calls).2.2.2.2.2 ⟨peerDigest⟩⟩

end TripTorrent

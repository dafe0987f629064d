import TripTorrent.Overlay.Answers
import TripTorrent.Overlay.Discovery

/-!
# What swarm discovery returns and queues

A swarm discovery returns routes to several providers and queues each of them for its provider. The
providers are taken from the peer table, where each has one entry; so no two routes of an answer
lead to the same provider, and each is the last in its provider's queue, although they are queued
one after the other while the answer is put together.

A provider whose queue is full is skipped but keeps its turn: the relays go around over all the
providers that were chosen.
-/

namespace TripTorrent

open Leasing (Table)

namespace Registry

variable {blake3 : List UInt8 → Digest} {limits : RegistryLimits} {r : Registry} {now limit : ℕ}
  {contentId : ContentId} {assignment : RouteAssignment}

/-- The routes lead to some of the chosen providers, in their order. -/
theorem providerId_queueAssignments_sublist (now : ℕ) (relays : List RelayAdvertisement)
    (r : Registry) (providers : List (PeerAdvertisement × ℕ)) :
    ((queueAssignments now relays r providers).2.map RouteAssignment.providerId).Sublist
      ((providers.map Prod.fst).map PeerAdvertisement.peerId) := by
  induction providers generalizing r with
  | nil => exact .slnil
  | cons entry providers ih =>
    obtain ⟨provider, index⟩ := entry
    rw [queueAssignments]
    rcases relays[index % relays.length]? with _ | relay
    · exact List.nil_sublist _
    · simp only [List.map_append, List.map_cons]
      rcases hfirst : (r.queueAssignment now provider relay "m4").2 with _ | first
      · exact (ih _).cons _
      · rw [← (joins_queueAssignment hfirst).providerId_eq]
        exact (ih _).cons_cons _

theorem Valid.nodup_discoverProviders (h : Valid blake3 limits (r.purge now))
    (contentId : ContentId) (limit : ℕ) :
    ((r.discoverProviders now contentId limit).2.map RouteAssignment.providerId).Nodup := by
  rw [discoverProviders]
  split_ifs
  · exact List.nodup_nil
  · refine List.Nodup.sublist (providerId_queueAssignments_sublist ..) ?_
    rw [List.zipIdx_map_fst]
    exact h.nodup_providers (offersSwarm contentId) limit

/-- A route joins a peer that offers the content with a relay, both of the purged tables. -/
theorem exists_joins_discoverProviders
    (h : assignment ∈ (r.discoverProviders now contentId limit).2) :
    ∃ provider ∈ (r.purge now).peers.advertisements, offersSwarm contentId provider = true ∧
      ∃ relay ∈ (r.purge now).relays.advertisements, assignment.Joins provider relay := by
  rw [discoverProviders] at h
  split_ifs at h
  · cases h
  · obtain ⟨⟨provider, index⟩, hentry, relay, hrelay, hjoins⟩ := exists_joins_queueAssignments h
    have hprovider := List.mem_filter.mp
      (List.mem_of_mem_take (List.fst_mem_of_mem_zipIdx hentry))
    exact ⟨provider, hprovider.1, hprovider.2, relay, hrelay, hjoins⟩

theorem Valid.live_of_mem_discoverProviders (h : Valid blake3 limits (r.purge now))
    (hassignment : assignment ∈ (r.discoverProviders now contentId limit).2) :
    (∃ lease, r.peers[assignment.providerId]? = some lease ∧ now < lease.expiresAt ∧
      contentId ∈ lease.advertisement.contentIds ∧
      .swarmTransferV1 ∈ lease.advertisement.capabilities ∧
      assignment.providerPublicKey = lease.advertisement.publicKey) ∧
    ∃ lease, r.relays[assignment.relayId]? = some lease ∧ now < lease.expiresAt ∧
      assignment.relayAddress = lease.advertisement.address := by
  obtain ⟨provider, hprovider, hoffers, relay, hrelay, hjoins⟩ :=
    exists_joins_discoverProviders hassignment
  obtain ⟨lease, hlease, rfl⟩ := h.exists_peer hprovider
  obtain ⟨lease', hlease', rfl⟩ := h.exists_relay hrelay
  rw [← hjoins.providerId_eq] at hlease
  rw [← hjoins.relayId_eq] at hlease'
  obtain ⟨hentry, hlive⟩ := Table.getElem?_purge_eq_some_iff.mp hlease
  obtain ⟨hentry', hlive'⟩ := Table.getElem?_purge_eq_some_iff.mp hlease'
  rw [offersSwarm, Bool.and_eq_true, List.contains_iff_mem, List.contains_iff_mem] at hoffers
  exact ⟨⟨lease, hentry, hlive, hoffers.1, hoffers.2, hjoins.providerPublicKey_eq⟩,
    lease', hentry', hlive', hjoins.relayAddress_eq⟩

/-! ## The queues -/

theorem entries_of_forall_ne {expiresAt : ℕ} {peerId : PeerId} {assignments : List RouteAssignment}
    (h : ∀ assignment ∈ assignments, assignment.providerId ≠ peerId) :
    entries expiresAt peerId assignments = [] := by
  rw [entries, List.map_eq_nil_iff, List.filter_eq_nil_iff]
  simpa using h

/-- Among routes to different providers, one is queued for its own. -/
theorem entries_of_nodup {expiresAt : ℕ} {assignments : List RouteAssignment}
    (hdistinct : (assignments.map RouteAssignment.providerId).Nodup)
    (h : assignment ∈ assignments) :
    entries expiresAt assignment.providerId assignments = [⟨assignment, expiresAt⟩] := by
  induction assignments with
  | nil => cases h
  | cons first assignments ih =>
    rw [List.map_cons, List.nodup_cons] at hdistinct
    rcases List.mem_cons.mp h with rfl | hrest
    · have hothers : ∀ other ∈ assignments, other.providerId ≠ assignment.providerId := by
        intro other hother hsame
        exact hdistinct.1 (hsame ▸ List.mem_map_of_mem hother)
      rw [entries, List.filter_cons_of_pos (by simp), List.map_cons]
      exact congrArg _ (entries_of_forall_ne hothers)
    · have hne : first.providerId ≠ assignment.providerId := by
        intro hsame
        exact hdistinct.1 (hsame ▸ List.mem_map_of_mem hrest)
      rw [entries, List.filter_cons_of_neg (by simpa using hne)]
      exact ih hdistinct.2 hrest

end Registry

/-! ## Every reachable registry -/

section Runs

open Registry

variable {blake3 : List UInt8 → Digest} {isSocketAddr : String → Bool} {limits : RegistryLimits}
  {leaseMs : ℕ} {events : List Event} {r : Registry}

/-- **What a swarm discovery does.** In every reachable registry and at any time it returns at most
as many routes as asked for, to different providers, each of which is live and offers the content
for swarm transfers, through live relays. Afterwards each route is the last in its provider's queue,
where it stays until the lease duration has passed or the clock stops, and nothing else was added to
the purged queues. -/
theorem discoverProviders_result (h : Run blake3 isSocketAddr (withLimits leaseMs limits) events r)
    (now : ℕ) (contentId : ContentId) (limit : ℕ) :
    (r.discoverProviders now contentId limit).2.length ≤ limit ∧
    ((r.discoverProviders now contentId limit).2.map RouteAssignment.providerId).Nodup ∧
    (∀ assignment ∈ (r.discoverProviders now contentId limit).2,
      (∃ lease, r.peers[assignment.providerId]? = some lease ∧ now < lease.expiresAt ∧
        contentId ∈ lease.advertisement.contentIds ∧
        .swarmTransferV1 ∈ lease.advertisement.capabilities ∧
        assignment.providerPublicKey = lease.advertisement.publicKey) ∧
      (∃ lease, r.relays[assignment.relayId]? = some lease ∧ now < lease.expiresAt ∧
        assignment.relayAddress = lease.advertisement.address) ∧
      (r.discoverProviders now contentId limit).1.queue assignment.providerId =
        (r.purge now).queue assignment.providerId ++
          [⟨assignment, min (now + r.leaseMs) (2 ^ 64 - 1)⟩]) ∧
    ∀ peerId,
      (∀ assignment ∈ (r.discoverProviders now contentId limit).2,
        assignment.providerId ≠ peerId) →
      (r.discoverProviders now contentId limit).1.queue peerId = (r.purge now).queue peerId := by
  have hvalid := h.valid.purge now
  have hdistinct := hvalid.nodup_discoverProviders contentId limit
  refine ⟨length_discoverProviders_le r now contentId limit, hdistinct, ?_, ?_⟩
  · intro assignment hassignment
    obtain ⟨hpeer, hrelay⟩ := hvalid.live_of_mem_discoverProviders hassignment
    refine ⟨hpeer, hrelay, ?_⟩
    rw [queue_discoverProviders, entries_of_nodup hdistinct hassignment, Leasing.expiry]
  · intro peerId hothers
    rw [queue_discoverProviders, entries_of_forall_ne hothers, List.append_nil]

end Runs

open Vectors in
/-- The first provider is full, and the second gets its route. -/
theorem discoverProviders_result_narrowFull :
    ∃ assignment ∈ (narrowFull.discoverProviders 20 ⟨contentDigest⟩ 2).2,
      assignment.providerId = ⟨otherDigest⟩ ∧
      (narrowFull.discoverProviders 20 ⟨contentDigest⟩ 2).1.queue ⟨otherDigest⟩ =
        [⟨assignment, 30020⟩] := by
  have hfound : ∃ assignment ∈ (narrowFull.discoverProviders 20 ⟨contentDigest⟩ 2).2,
      assignment.providerId = ⟨otherDigest⟩ := by decide +kernel
  obtain ⟨assignment, hassignment, hprovider⟩ := hfound
  have hqueue := ((discoverProviders_result run_narrowCalls 20 ⟨contentDigest⟩ 2).2.2.1 assignment
    hassignment).2.2
  have hbefore : (narrowFull.purge 20).queue ⟨otherDigest⟩ = [] := by decide +kernel
  have hexpiry : min (20 + narrowFull.leaseMs) (2 ^ 64 - 1) = 30020 := by decide +kernel
  rw [hprovider, hbefore, hexpiry, List.nil_append] at hqueue
  exact ⟨assignment, hassignment, hprovider, hqueue⟩

/-! At the end of the 64-bit clock a route expires before the lease duration has passed. -/

namespace Vectors

def late : Registry := .withLimits 30000 {}

def latePeer : Registry :=
  (late.exec hashKeys isSocketAddr (.registerPeer (2 ^ 64 - 2) otherAdvertisement)).1

def lateRelay : Registry :=
  (latePeer.exec hashKeys isSocketAddr (.registerRelay (2 ^ 64 - 2) relayAdvertisement)).1

def lateCalls : List Event :=
  [⟨late, .registerPeer (2 ^ 64 - 2) otherAdvertisement⟩,
    ⟨latePeer, .registerRelay (2 ^ 64 - 2) relayAdvertisement⟩]

end Vectors

open Vectors in
theorem late_route_expires_early :
    Run hashKeys isSocketAddr late lateCalls lateRelay ∧
      ∃ assignment ∈ (lateRelay.discoverProviders (2 ^ 64 - 2) ⟨contentDigest⟩ 1).2,
        (lateRelay.discoverProviders (2 ^ 64 - 2) ⟨contentDigest⟩ 1).1.queue
            assignment.providerId = [⟨assignment, 2 ^ 64 - 1⟩] ∧
          2 ^ 64 - 1 ≠ 2 ^ 64 - 2 + lateRelay.leaseMs := by
  exact ⟨.snoc (.snoc .nil _) _, by decide +kernel⟩

end TripTorrent

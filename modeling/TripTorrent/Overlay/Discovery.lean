import TripTorrent.Overlay.Invariant

/-!
# Which provider discovery finds

Discovery takes the providers of a content in the order of their identifiers, and looks at their
queues only after it has chosen: `discover` takes the first one, `discover_providers` the first few.
A provider whose queue is full is not replaced by the next one, so a discoverer may leave with no
route although another provider of the same content has room.

Identifiers are the keys of the peer table, and the table is listed in their order
(`Leasing.Table.rank`).
-/

namespace TripTorrent

open Leasing (Lease Table)

namespace Registry

/-- The peer advertises the content. -/
def offers (contentId : ContentId) (peer : PeerAdvertisement) : Bool :=
  peer.contentIds.contains contentId

/-- The peer advertises the content for swarm transfers. -/
def offersSwarm (contentId : ContentId) (peer : PeerAdvertisement) : Bool :=
  peer.contentIds.contains contentId && peer.capabilities.contains .swarmTransferV1

/-- Another assignment may be queued for the peer. -/
def HasRoom (r : Registry) (peerId : PeerId) : Prop :=
  (r.queue peerId).length < r.limits.maxAssignmentsPerPeer

instance (r : Registry) (peerId : PeerId) : Decidable (r.HasRoom peerId) :=
  inferInstanceAs (Decidable (_ < _))

/-- One of the first `limit` peers with a property, in the order of their identifiers, has room. -/
def RoomAmongFirst (r : Registry) (p : PeerAdvertisement → Bool) (limit : ℕ) : Prop :=
  ∃ (peerId : PeerId) (lease : Lease PeerAdvertisement), r.peers[peerId]? = some lease ∧
    p lease.advertisement = true ∧ r.HasRoom peerId ∧ r.peers.rank p peerId < limit

variable {r : Registry} {now : ℕ} {provider : PeerAdvertisement} {relay : RelayAdvertisement}
  {routePrefix : String} {contentId : ContentId}

/-! ## Queueing -/

theorem isSome_queueAssignment_iff :
    (r.queueAssignment now provider relay routePrefix).2.isSome = true ↔
      r.HasRoom provider.peerId := by
  rw [queueAssignment, HasRoom, ← not_le]
  by_cases hfull : r.limits.maxAssignmentsPerPeer ≤ (r.queue provider.peerId).length
  · simp [hfull]
  · simp [hfull]

/-- Other peers keep their room. -/
theorem hasRoom_queueAssignment_iff {peerId : PeerId} (h : provider.peerId ≠ peerId) :
    (r.queueAssignment now provider relay routePrefix).1.HasRoom peerId ↔ r.HasRoom peerId := by
  rw [queueAssignment, HasRoom, HasRoom]
  split_ifs
  · rw [queue_setQueue_of_ne r _ h]
    rfl
  · change ((r.setQueue _ _).queue peerId).length < _ ↔ _
    rw [queue_setQueue_of_ne r _ h]
    rfl

theorem queueAssignments_ne_nil_iff {relays : List RelayAdvertisement} (hrelays : relays ≠ [])
    {providers : List (PeerAdvertisement × ℕ)}
    (hdistinct : ((providers.map Prod.fst).map PeerAdvertisement.peerId).Nodup) :
    (queueAssignments now relays r providers).2 ≠ [] ↔
      ∃ provider ∈ providers.map Prod.fst, r.HasRoom provider.peerId := by
  induction providers generalizing r with
  | nil => simp [queueAssignments]
  | cons entry providers ih =>
    obtain ⟨provider, index⟩ := entry
    rw [List.map_cons, List.map_cons, List.nodup_cons] at hdistinct
    have hindex : index % relays.length < relays.length :=
      Nat.mod_lt _ (List.length_pos_iff.mpr hrelays)
    rw [queueAssignments, List.getElem?_eq_getElem hindex, List.map_cons]
    dsimp only
    -- the later providers keep their room, as they are other peers
    have hlater : (∃ other ∈ providers.map Prod.fst, (r.queueAssignment now provider
          relays[index % relays.length] "m4").1.HasRoom other.peerId) ↔
        ∃ other ∈ providers.map Prod.fst, r.HasRoom other.peerId := by
      refine exists_congr fun other ↦ and_congr_right fun hother ↦ hasRoom_queueAssignment_iff ?_
      intro hsame
      exact hdistinct.1 (List.mem_map.mpr ⟨other, hother, hsame.symm⟩)
    rw [Ne, List.append_eq_nil_iff, not_and_or, ← Ne, ← Ne, ih hdistinct.2, hlater,
      Option.toList_eq_nil_iff.ne, ← Option.isSome_iff_ne_none, isSome_queueAssignment_iff,
      List.exists_mem_cons_iff]

/-! ## Choosing -/

variable {blake3 : List UInt8 → Digest} {limits : RegistryLimits} {p : PeerAdvertisement → Bool}
  {limit : ℕ}

theorem relays_ne_nil_iff : r.relays.advertisements ≠ [] ↔ ∃ relayId, relayId ∈ r.relays := by
  constructor
  · intro hrelays
    obtain ⟨_, hrelay⟩ := List.exists_mem_of_ne_nil _ hrelays
    obtain ⟨relayId, lease, hlease, -⟩ := Table.mem_advertisements_iff.mp hrelay
    exact ⟨relayId, Table.mem_iff_exists.mpr ⟨lease, hlease⟩⟩
  · rintro ⟨relayId, hrelay⟩
    obtain ⟨lease, hlease⟩ := Table.mem_iff_exists.mp hrelay
    exact List.ne_nil_of_mem (Table.mem_advertisements_iff.mpr ⟨relayId, lease, hlease, rfl⟩)

/-- The advertisements are listed under their own identifiers. -/
theorem Valid.map_peerId (h : Valid blake3 limits r) :
    r.peers.advertisements.map PeerAdvertisement.peerId = r.peers.keys := by
  rw [Table.advertisements, List.map_map, ← Std.ExtTreeMap.map_fst_toList_eq_keys]
  refine List.map_congr_left fun entry hentry ↦ ?_
  exact (h.peer _ _ (Std.ExtTreeMap.mem_toList_iff_getElem?_eq_some.mp hentry)).1

/-- Each peer is chosen once. -/
theorem Valid.nodup_providers (h : Valid blake3 limits r) (p : PeerAdvertisement → Bool)
    (limit : ℕ) :
    (((r.peers.advertisements.filter p).take limit).map PeerAdvertisement.peerId).Nodup := by
  have hkeys : (r.peers.advertisements.map PeerAdvertisement.peerId).Nodup :=
    h.map_peerId ▸ Std.ExtTreeMap.nodup_keys
  exact hkeys.sublist
    (((List.take_sublist limit _).trans List.filter_sublist).map PeerAdvertisement.peerId)

theorem Valid.exists_mem_take_filter_iff (h : Valid blake3 limits r) :
    (∃ provider ∈ (r.peers.advertisements.filter p).take limit, r.HasRoom provider.peerId) ↔
      r.RoomAmongFirst p limit := by
  simp only [Table.mem_take_filter_advertisements_iff, RoomAmongFirst]
  constructor
  · rintro ⟨_, ⟨peerId, lease, hlease, rfl, hp, hrank⟩, hroom⟩
    rw [(h.peer _ _ hlease).1] at hroom
    exact ⟨peerId, lease, hlease, hp, hroom, hrank⟩
  · rintro ⟨peerId, lease, hlease, hp, hroom, hrank⟩
    rw [← (h.peer _ _ hlease).1] at hroom
    exact ⟨_, ⟨peerId, lease, hlease, rfl, hp, hrank⟩, hroom⟩

theorem isSome_discover_iff :
    (r.discover now contentId).2.isSome = true ↔
      (r.purge now).relays.advertisements ≠ [] ∧
        ∃ provider ∈ ((r.purge now).peers.advertisements.filter (offers contentId)).take 1,
          (r.purge now).HasRoom provider.peerId := by
  have hfirst : (r.purge now).peers.advertisements.find?
        (fun peer ↦ peer.contentIds.contains contentId) =
      ((r.purge now).peers.advertisements.filter (offers contentId)).head? :=
    List.head?_filter.symm
  rw [discover, hfirst]
  cases (r.purge now).peers.advertisements.filter (offers contentId) with
  | nil => simp
  | cons provider _ =>
    cases (r.purge now).relays.advertisements with
    | nil => simp
    | cons relay _ => simp [isSome_queueAssignment_iff]

theorem Valid.discoverProviders_ne_nil_iff (h : Valid blake3 limits (r.purge now)) :
    (r.discoverProviders now contentId limit).2 ≠ [] ↔
      (r.purge now).relays.advertisements ≠ [] ∧
        ∃ provider ∈ ((r.purge now).peers.advertisements.filter (offersSwarm contentId)).take limit,
          (r.purge now).HasRoom provider.peerId := by
  rw [discoverProviders]
  by_cases hrelays : (r.purge now).relays.advertisements = []
  · simp [hrelays]
  · have hdistinct := h.nodup_providers (offersSwarm contentId) limit
    rw [← List.zipIdx_map_fst 0 (List.take limit _)] at hdistinct
    rw [if_neg (by simpa using hrelays), and_iff_right hrelays]
    refine (queueAssignments_ne_nil_iff hrelays hdistinct).trans ?_
    rw [List.zipIdx_map_fst]

end Registry

/-! ## Every reachable registry -/

section Runs

open Registry

variable {blake3 : List UInt8 → Digest} {isSocketAddr : String → Bool} {limits : RegistryLimits}
  {leaseMs : ℕ} {events : List Event} {r : Registry}

/-- **Discovery finds an available provider only among the first.** In every reachable registry, a
route is found exactly if a relay is registered and, among the registered peers that offer the
content, the first one has room, or one of the first `limit`. -/
theorem discovery_finds_iff (h : Run blake3 isSocketAddr (withLimits leaseMs limits) events r)
    (now : ℕ) (contentId : ContentId) :
    ((r.discover now contentId).2.isSome = true ↔
      (∃ relayId, relayId ∈ (r.purge now).relays) ∧
        (r.purge now).RoomAmongFirst (offers contentId) 1) ∧
    ∀ limit, (r.discoverProviders now contentId limit).2 ≠ [] ↔
      (∃ relayId, relayId ∈ (r.purge now).relays) ∧
        (r.purge now).RoomAmongFirst (offersSwarm contentId) limit := by
  have hvalid := h.valid.purge now
  refine ⟨?_, fun limit ↦ ?_⟩
  · rw [isSome_discover_iff, hvalid.exists_mem_take_filter_iff, relays_ne_nil_iff]
  · rw [hvalid.discoverProviders_ne_nil_iff, hvalid.exists_mem_take_filter_iff, relays_ne_nil_iff]

end Runs

/-! Two peers offer a content and each may have one assignment queued. The first one is discovered
once, and is then full. -/

namespace Vectors

/-- The public key consisting of eights. -/
def otherKey : Digest := List.Vector.replicate 32 8

def otherDigest : Digest := List.Vector.replicate 32 255

/-- Tells the two keys apart. -/
def hashKeys (key : List UInt8) : Digest :=
  if key = publicKey.toList then peerDigest else otherDigest

def otherAdvertisement : PeerAdvertisement where
  peerId := ⟨otherDigest⟩
  publicKey := otherKey
  capabilities := [.swarmTransferV1]
  contentIds := [⟨contentDigest⟩]

def narrow : Registry := .withLimits 30000 { maxAssignmentsPerPeer := 1 }

def narrowPeer : Registry :=
  (narrow.exec hashKeys isSocketAddr (.registerPeer 0 peerAdvertisement)).1

def narrowPeers : Registry :=
  (narrowPeer.exec hashKeys isSocketAddr (.registerPeer 0 otherAdvertisement)).1

def narrowRelay : Registry :=
  (narrowPeers.exec hashKeys isSocketAddr (.registerRelay 5 relayAdvertisement)).1

def narrowFull : Registry :=
  (narrowRelay.exec hashKeys isSocketAddr (.discover 10 ⟨contentDigest⟩)).1

def narrowCalls : List Event :=
  [⟨narrow, .registerPeer 0 peerAdvertisement⟩, ⟨narrowPeer, .registerPeer 0 otherAdvertisement⟩,
    ⟨narrowPeers, .registerRelay 5 relayAdvertisement⟩,
    ⟨narrowRelay, .discover 10 ⟨contentDigest⟩⟩]

theorem run_narrowCalls : Run hashKeys isSocketAddr narrow narrowCalls narrowFull :=
  .snoc (.snoc (.snoc (.snoc .nil _) _) _) _

end Vectors

open Vectors in
/-- The second peer has room, and neither call finds it. -/
theorem full_provider_hides_available :
    Run hashKeys isSocketAddr narrow narrowCalls narrowFull ∧
      (∃ lease, (narrowFull.purge 20).peers[(⟨otherDigest⟩ : PeerId)]? = some lease ∧
        Registry.offersSwarm ⟨contentDigest⟩ lease.advertisement = true) ∧
      (narrowFull.purge 20).HasRoom ⟨otherDigest⟩ ∧
      "relay-a" ∈ (narrowFull.purge 20).relays ∧
      (narrowFull.discover 20 ⟨contentDigest⟩).2 = none ∧
      (narrowFull.discoverProviders 20 ⟨contentDigest⟩ 1).2 = [] := by
  refine ⟨run_narrowCalls, ⟨⟨otherAdvertisement, 30000⟩, ?_⟩, ?_, ?_, ?_, ?_⟩
  · decide +kernel
  · decide +kernel
  · decide +kernel
  · decide +kernel
  · decide +kernel

open Vectors in
theorem discovery_finds_narrowFull :
    (narrowFull.discoverProviders 20 ⟨contentDigest⟩ 2).2 ≠ [] ∧
      (narrowFull.purge 20).RoomAmongFirst (Registry.offersSwarm ⟨contentDigest⟩) 2 := by
  have hfound : (narrowFull.discoverProviders 20 ⟨contentDigest⟩ 2).2 ≠ [] := by decide +kernel
  exact ⟨hfound, (((discovery_finds_iff run_narrowCalls 20 ⟨contentDigest⟩).2 2).mp hfound).2⟩

end TripTorrent

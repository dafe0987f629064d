import TripTorrent.Leasing.Table
import TripTorrent.Protocol.Message

/-!
# The bootstrap registry

The in-memory state of the bootstrap service: leased peers and relays, and for each provider a queue
of routes that discoverers have been given and that it has yet to pick up. Every operation with a
time purges first.

Operations return the new registry with their result. Times are numbers of milliseconds; the sums
with the lease stop at the largest 64-bit value, and the route counter wraps around. As in the wire
protocol, the hash function and the parser of socket addresses are parameters.
-/

namespace TripTorrent

open Codec (utf8)
open Leasing (Lease Table)

/-! ## Order of peer identifiers -/

/-- Identifiers are ordered by their bytes. -/
instance : Ord PeerId := ⟨fun a b ↦ compare a.bytes.toList b.bytes.toList⟩

instance : Std.TransOrd PeerId where
  eq_swap := Std.OrientedOrd.eq_swap (α := List UInt8)
  isLE_trans := Std.TransOrd.isLE_trans (α := List UInt8)

instance : Std.LawfulEqOrd PeerId where
  eq_of_compare {a b} h := by
    have hbytes : a.bytes.toList = b.bytes.toList := Std.LawfulEqOrd.eq_of_compare h
    obtain ⟨a⟩ := a
    obtain ⟨b⟩ := b
    exact congrArg PeerId.mk (List.Vector.toList_injective hbytes)

/-! ## State -/

structure RegistryLimits where
  maxPeers : ℕ := 4096
  maxRelays : ℕ := 256
  maxContentIdsPerPeer : ℕ := maxAdvertisedContentIds
  maxAssignmentsPerPeer : ℕ := 64

/-- A route given to a discoverer and not yet picked up by its provider. -/
structure QueuedAssignment where
  assignment : RouteAssignment
  expiresAt : ℕ
deriving DecidableEq

structure OverlaySnapshot where
  peers : ℕ
  relays : ℕ
  contentAdvertisements : ℕ
  expiredPeers : ℕ
  expiredRelays : ℕ
  expiredRoutes : ℕ
deriving DecidableEq

structure Registry where
  leaseMs : ℕ
  limits : RegistryLimits
  peers : Table PeerId PeerAdvertisement
  relays : Table String RelayAdvertisement
  assignments : Std.ExtTreeMap PeerId (List QueuedAssignment)
  nextRoute : UInt64
  expiredPeers : ℕ
  expiredRelays : ℕ
  expiredRoutes : ℕ

inductive RegistryError where
  | peerIdentityMismatch
  | noContent
  | unsupportedPeer
  | invalidRelayId
  | invalidRelayAddress
  | tooManyContentIds
  | duplicateContentId
  | peerLimitReached
  | relayLimitReached
deriving DecidableEq

def RegistryError.message : RegistryError → String
  | .peerIdentityMismatch => "peer ID does not match the advertised public key"
  | .noContent => "peer advertisement contains no content IDs"
  | .unsupportedPeer => "peer does not advertise the experimental relayed-transfer capability"
  | .invalidRelayId => "relay ID must be 1-64 ASCII letters, digits, '-' or '_'"
  | .invalidRelayAddress => "relay address must be a valid IP socket address"
  | .tooManyContentIds => "peer advertisement exceeds content-ID limit"
  | .duplicateContentId => "peer advertisement contains duplicate content IDs"
  | .peerLimitReached => "peer registry limit reached"
  | .relayLimitReached => "relay registry limit reached"

def validateRelayId (relayId : String) : Except RegistryError Unit :=
  if (utf8 relayId).isEmpty ∨ 64 < (utf8 relayId).length ∨
      ¬(utf8 relayId).all fun byte ↦ isAsciiAlphanumeric byte || byte == 45 || byte == 95 then
    .error .invalidRelayId
  else .ok ()

/-- The checks of `register_peer` that do not look at the registered peers. -/
def validatePeer (blake3 : List UInt8 → Digest) (limits : RegistryLimits)
    (advertisement : PeerAdvertisement) : Except RegistryError Unit :=
  if advertisement.peerId ≠ PeerId.fromPublicKey blake3 advertisement.publicKey then
    .error .peerIdentityMismatch
  else if advertisement.contentIds.isEmpty then .error .noContent
  else if limits.maxContentIdsPerPeer < advertisement.contentIds.length then
    .error .tooManyContentIds
  else if advertisement.contentIds.dedup.length ≠ advertisement.contentIds.length then
    .error .duplicateContentId
  else if ¬advertisement.capabilities.any fun capability ↦
      capability = .relayedTransferV1 || capability = .swarmTransferV1 then
    .error .unsupportedPeer
  else .ok ()

/-- `{:016x}` -/
def hex16 (n : UInt64) : String :=
  String.ofList ((List.range 16).reverse.map fun i ↦ Nat.digitChar (n.toNat / 16 ^ i % 16))

/-- How many assignments are queued. -/
def queuedCount (assignments : Std.ExtTreeMap PeerId (List QueuedAssignment)) : ℕ :=
  (assignments.toList.map fun entry ↦ entry.2.length).sum

/-- The assignments of a provider that are still good, unless it has none or is gone. -/
def retainQueue (peers : Table PeerId PeerAdvertisement) (relays : Table String RelayAdvertisement)
    (now : ℕ) (peerId : PeerId) (queue : List QueuedAssignment) : Option (List QueuedAssignment) :=
  if peers.contains peerId then
    let queue := queue.filter fun queued ↦
      now < queued.expiresAt && relays.contains queued.assignment.relayId
    if queue.isEmpty then none else some queue
  else none

/-- The loop of `poll_peer`: the first assignment that is still good, and what is left. -/
def popAssignment (relays : Table String RelayAdvertisement) (now : ℕ) :
    List QueuedAssignment → Option RouteAssignment × List QueuedAssignment
  | [] => (none, [])
  | queued :: queue =>
    if now < queued.expiresAt && relays.contains queued.assignment.relayId then
      (some queued.assignment, queue)
    else popAssignment relays now queue

/-! ## Operations -/

namespace Registry

def withLimits (leaseMs : ℕ) (limits : RegistryLimits) : Registry where
  leaseMs := max leaseMs 1
  limits
  peers := ∅
  relays := ∅
  assignments := ∅
  nextRoute := 0
  expiredPeers := 0
  expiredRelays := 0
  expiredRoutes := 0

def new (leaseMs : ℕ) : Registry := withLimits leaseMs {}

def purge (r : Registry) (now : ℕ) : Registry :=
  let peers := r.peers.purge now
  let relays := r.relays.purge now
  let assignments := r.assignments.filterMap (retainQueue peers relays now)
  { r with
    peers, relays, assignments
    expiredPeers := r.expiredPeers + (r.peers.size - peers.size)
    expiredRelays := r.expiredRelays + (r.relays.size - relays.size)
    expiredRoutes := r.expiredRoutes + (queuedCount r.assignments - queuedCount assignments) }

/-- `peers.insert` with a fresh lease. -/
def grantPeer (r : Registry) (now : ℕ) (advertisement : PeerAdvertisement) : Registry :=
  { r with peers := r.peers.grant r.leaseMs now advertisement.peerId advertisement }

/-- `expires_at` of a registered peer is set anew. -/
def renewPeer (r : Registry) (now : ℕ) (peerId : PeerId) : Registry :=
  { r with peers := r.peers.renew r.leaseMs now peerId }

/-- `relays.insert` with a fresh lease. -/
def grantRelay (r : Registry) (now : ℕ) (advertisement : RelayAdvertisement) : Registry :=
  { r with relays := r.relays.grant r.leaseMs now advertisement.relayId advertisement }

/-- `expires_at` of a registered relay is set anew. -/
def renewRelay (r : Registry) (now : ℕ) (relayId : String) : Registry :=
  { r with relays := r.relays.renew r.leaseMs now relayId }

/-- The assignments queued for a peer. -/
def queue (r : Registry) (peerId : PeerId) : List QueuedAssignment :=
  r.assignments[peerId]?.getD []

def setQueue (r : Registry) (peerId : PeerId) (queue : List QueuedAssignment) : Registry :=
  { r with assignments := r.assignments.insert peerId queue }

def registerPeer (blake3 : List UInt8 → Digest) (r : Registry) (now : ℕ)
    (advertisement : PeerAdvertisement) : Registry × Except RegistryError Unit :=
  match validatePeer blake3 r.limits advertisement with
  | .error error => (r, .error error)
  | .ok () =>
    let r := r.purge now
    if ¬r.peers.admits r.limits.maxPeers advertisement.peerId then (r, .error .peerLimitReached)
    else (r.grantPeer now advertisement, .ok ())

def heartbeatPeer (r : Registry) (now : ℕ) (peerId : PeerId) : Registry × Bool :=
  let r := r.purge now
  if r.peers.contains peerId then (r.renewPeer now peerId, true) else (r, false)

/-- The checks of `register_relay` that do not look at the registered relays. -/
def validateRelay (isSocketAddr : String → Bool) (advertisement : RelayAdvertisement) :
    Except RegistryError Unit :=
  match validateRelayId advertisement.relayId with
  | .error error => .error error
  | .ok () =>
    if ¬isSocketAddr advertisement.address then .error .invalidRelayAddress else .ok ()

def registerRelay (isSocketAddr : String → Bool) (r : Registry) (now : ℕ)
    (advertisement : RelayAdvertisement) : Registry × Except RegistryError Unit :=
  match validateRelay isSocketAddr advertisement with
  | .error error => (r, .error error)
  | .ok () =>
    let r := r.purge now
    if ¬r.relays.admits r.limits.maxRelays advertisement.relayId then
      (r, .error .relayLimitReached)
    else (r.grantRelay now advertisement, .ok ())

def heartbeatRelay (r : Registry) (now : ℕ) (relayId : String) : Registry × Bool :=
  let r := r.purge now
  if r.relays.contains relayId then (r.renewRelay now relayId, true) else (r, false)

/-- The assignment made for a provider and a relay with the next route. -/
def nextAssignment (r : Registry) (provider : PeerAdvertisement) (relay : RelayAdvertisement)
    (routePrefix : String) : RouteAssignment where
  providerId := provider.peerId
  providerPublicKey := provider.publicKey
  relayId := relay.relayId
  relayAddress := relay.address
  route := routePrefix ++ "-" ++ hex16 (r.nextRoute + 1)

/-- A queue is created for the provider even when the assignment does not fit. -/
def queueAssignment (r : Registry) (now : ℕ) (provider : PeerAdvertisement)
    (relay : RelayAdvertisement) (routePrefix : String) : Registry × Option RouteAssignment :=
  let queue := r.queue provider.peerId
  if r.limits.maxAssignmentsPerPeer ≤ queue.length then (r.setQueue provider.peerId queue, none)
  else
    let assignment := r.nextAssignment provider relay routePrefix
    let queued : QueuedAssignment := { assignment, expiresAt := Leasing.expiry r.leaseMs now }
    ({ r.setQueue provider.peerId (queue ++ [queued]) with nextRoute := r.nextRoute + 1 },
      some assignment)

def discover (r : Registry) (now : ℕ) (contentId : ContentId) :
    Registry × Option RouteAssignment :=
  let r := r.purge now
  match r.peers.advertisements.find? fun peer ↦ peer.contentIds.contains contentId with
  | none => (r, none)
  | some provider =>
    match r.relays.advertisements.head? with
    | none => (r, none)
    | some relay => r.queueAssignment now provider relay "m2"

/-- Routes for several providers, which take the relays in turn. -/
def queueAssignments (now : ℕ) (relays : List RelayAdvertisement) :
    Registry → List (PeerAdvertisement × ℕ) → Registry × List RouteAssignment
  | r, [] => (r, [])
  | r, (provider, index) :: providers =>
    match relays[index % relays.length]? with
    | none => (r, [])
    | some relay =>
      let (r, assignment) := r.queueAssignment now provider relay "m4"
      let (r, assignments) := queueAssignments now relays r providers
      (r, assignment.toList ++ assignments)

def discoverProviders (r : Registry) (now : ℕ) (contentId : ContentId) (limit : ℕ) :
    Registry × List RouteAssignment :=
  let r := r.purge now
  let providers := (r.peers.advertisements.filter fun peer ↦
    peer.contentIds.contains contentId && peer.capabilities.contains .swarmTransferV1).take limit
  let relays := r.relays.advertisements
  if relays.isEmpty then (r, [])
  else queueAssignments now relays r providers.zipIdx

def pollPeer (r : Registry) (now : ℕ) (peerId : PeerId) : Registry × Option RouteAssignment :=
  let (r, registered) := r.heartbeatPeer now peerId
  if ¬registered then (r, none)
  else
    match r.assignments[peerId]? with
    | none => (r, none)
    | some queue =>
      let (assignment, queue) := popAssignment r.relays now queue
      (r.setQueue peerId queue, assignment)

def reportRelayFailure (r : Registry) (relayId : String) : Registry :=
  { r with
    relays := r.relays.erase relayId
    assignments := r.assignments.map fun _ queue ↦
      queue.filter fun queued ↦ queued.assignment.relayId ≠ relayId }

def snapshot (r : Registry) (now : ℕ) : Registry × OverlaySnapshot :=
  let r := r.purge now
  (r,
    { peers := r.peers.size
      relays := r.relays.size
      contentAdvertisements := (r.peers.advertisements.map fun peer ↦ peer.contentIds.length).sum
      expiredPeers := r.expiredPeers
      expiredRelays := r.expiredRelays
      expiredRoutes := r.expiredRoutes })

/-! ## What the operations can do

Everything later is proved from these; the definitions are not unfolded again. -/

theorem registerPeer_cases (blake3 : List UInt8 → Digest) (r : Registry) (now : ℕ)
    (advertisement : PeerAdvertisement) :
    (∃ error, validatePeer blake3 r.limits advertisement = .error error ∧
        r.registerPeer blake3 now advertisement = (r, .error error)) ∨
      validatePeer blake3 r.limits advertisement = .ok () ∧
        ((r.purge now).peers.admits r.limits.maxPeers advertisement.peerId = false ∧
            r.registerPeer blake3 now advertisement = (r.purge now, .error .peerLimitReached) ∨
          (r.purge now).peers.admits r.limits.maxPeers advertisement.peerId = true ∧
            r.registerPeer blake3 now advertisement =
              ((r.purge now).grantPeer now advertisement, .ok ())) := by
  rw [registerPeer]
  rcases validatePeer blake3 r.limits advertisement with error | _
  · exact .inl ⟨error, rfl, rfl⟩
  · refine .inr ⟨rfl, ?_⟩
    rcases hadmits : (r.purge now).peers.admits r.limits.maxPeers advertisement.peerId with _ | _
    · exact .inl ⟨rfl, if_pos (Bool.eq_false_iff.mp hadmits)⟩
    · exact .inr ⟨rfl, if_neg (not_not.mpr hadmits)⟩

theorem heartbeatPeer_cases (r : Registry) (now : ℕ) (peerId : PeerId) :
    peerId ∉ (r.purge now).peers ∧ r.heartbeatPeer now peerId = (r.purge now, false) ∨
      peerId ∈ (r.purge now).peers ∧
        r.heartbeatPeer now peerId = ((r.purge now).renewPeer now peerId, true) := by
  by_cases hpeer : peerId ∈ (r.purge now).peers
  · exact .inr ⟨hpeer, if_pos (Std.ExtTreeMap.contains_iff_mem.mpr hpeer)⟩
  · exact .inl ⟨hpeer, if_neg (mt Std.ExtTreeMap.contains_iff_mem.mp hpeer)⟩

theorem registerRelay_cases (isSocketAddr : String → Bool) (r : Registry) (now : ℕ)
    (advertisement : RelayAdvertisement) :
    (∃ error, validateRelay isSocketAddr advertisement = .error error ∧
        r.registerRelay isSocketAddr now advertisement = (r, .error error)) ∨
      validateRelay isSocketAddr advertisement = .ok () ∧
        ((r.purge now).relays.admits r.limits.maxRelays advertisement.relayId = false ∧
            r.registerRelay isSocketAddr now advertisement =
              (r.purge now, .error .relayLimitReached) ∨
          (r.purge now).relays.admits r.limits.maxRelays advertisement.relayId = true ∧
            r.registerRelay isSocketAddr now advertisement =
              ((r.purge now).grantRelay now advertisement, .ok ())) := by
  rw [registerRelay]
  rcases validateRelay isSocketAddr advertisement with error | _
  · exact .inl ⟨error, rfl, rfl⟩
  · refine .inr ⟨rfl, ?_⟩
    rcases hadmits : (r.purge now).relays.admits r.limits.maxRelays advertisement.relayId with _ | _
    · exact .inl ⟨rfl, if_pos (Bool.eq_false_iff.mp hadmits)⟩
    · exact .inr ⟨rfl, if_neg (not_not.mpr hadmits)⟩

theorem heartbeatRelay_cases (r : Registry) (now : ℕ) (relayId : String) :
    relayId ∉ (r.purge now).relays ∧ r.heartbeatRelay now relayId = (r.purge now, false) ∨
      relayId ∈ (r.purge now).relays ∧
        r.heartbeatRelay now relayId = ((r.purge now).renewRelay now relayId, true) := by
  by_cases hrelay : relayId ∈ (r.purge now).relays
  · exact .inr ⟨hrelay, if_pos (Std.ExtTreeMap.contains_iff_mem.mpr hrelay)⟩
  · exact .inl ⟨hrelay, if_neg (mt Std.ExtTreeMap.contains_iff_mem.mp hrelay)⟩

/-- A provider and a relay are chosen from the purged tables, or there is no route. -/
theorem discover_cases (r : Registry) (now : ℕ) (contentId : ContentId) :
    r.discover now contentId = (r.purge now, none) ∨
      ∃ provider ∈ (r.purge now).peers.advertisements,
        ∃ relay ∈ (r.purge now).relays.advertisements,
          r.discover now contentId = (r.purge now).queueAssignment now provider relay "m2" := by
  rw [discover]
  rcases hprovider : (r.purge now).peers.advertisements.find? _ with _ | provider
  · exact .inl rfl
  · rcases hrelay : (r.purge now).relays.advertisements.head? with _ | relay
    · exact .inl rfl
    · exact .inr ⟨provider, List.mem_of_find?_eq_some hprovider, relay,
        List.mem_of_mem_head? hrelay, rfl⟩

theorem discoverProviders_cases (r : Registry) (now : ℕ) (contentId : ContentId) (limit : ℕ) :
    r.discoverProviders now contentId limit = (r.purge now, []) ∨
      ∃ providers : List (PeerAdvertisement × ℕ),
        (∀ entry ∈ providers, entry.1 ∈ (r.purge now).peers.advertisements) ∧
          r.discoverProviders now contentId limit =
            queueAssignments now (r.purge now).relays.advertisements (r.purge now) providers := by
  rw [discoverProviders]
  split_ifs
  · exact .inl rfl
  · refine .inr ⟨_, fun entry hentry ↦ ?_, rfl⟩
    exact List.mem_of_mem_filter (List.mem_of_mem_take (List.fst_mem_of_mem_zipIdx hentry))

/-- After the heartbeat a poll only changes the peer's queue. -/
theorem pollPeer_eq (r : Registry) (now : ℕ) (peerId : PeerId) :
    r.pollPeer now peerId = ((r.heartbeatPeer now peerId).1, none) ∨
      ∃ queue, (r.heartbeatPeer now peerId).1.assignments[peerId]? = some queue ∧
        r.pollPeer now peerId =
          ((r.heartbeatPeer now peerId).1.setQueue peerId
              (popAssignment (r.heartbeatPeer now peerId).1.relays now queue).2,
            (popAssignment (r.heartbeatPeer now peerId).1.relays now queue).1) := by
  rw [pollPeer]
  simp only
  split_ifs
  · rcases hqueue : (r.heartbeatPeer now peerId).1.assignments[peerId]? with _ | queue
    · exact .inl rfl
    · exact .inr ⟨queue, rfl, rfl⟩
  · exact .inl rfl

end Registry

/-! ## Runs -/

/-- A call of one of the operations. -/
inductive Operation where
  | registerPeer (now : ℕ) (advertisement : PeerAdvertisement)
  | heartbeatPeer (now : ℕ) (peerId : PeerId)
  | registerRelay (now : ℕ) (advertisement : RelayAdvertisement)
  | heartbeatRelay (now : ℕ) (relayId : String)
  | discover (now : ℕ) (contentId : ContentId)
  | discoverProviders (now : ℕ) (contentId : ContentId) (limit : ℕ)
  | pollPeer (now : ℕ) (peerId : PeerId)
  | reportRelayFailure (relayId : String)
  | snapshot (now : ℕ)
deriving DecidableEq

/-- What a call returns. -/
inductive Reply where
  | registration (outcome : Except RegistryError Unit)
  | renewal (registered : Bool)
  | route (value : Option RouteAssignment)
  | routes (values : List RouteAssignment)
  | assignment (value : Option RouteAssignment)
  | acknowledged
  | snapshot (value : OverlaySnapshot)

section Runs

variable (blake3 : List UInt8 → Digest) (isSocketAddr : String → Bool)

def Registry.exec (r : Registry) : Operation → Registry × Reply
  | .registerPeer now advertisement =>
    (r.registerPeer blake3 now advertisement).map id .registration
  | .heartbeatPeer now peerId => (r.heartbeatPeer now peerId).map id .renewal
  | .registerRelay now advertisement =>
    (r.registerRelay isSocketAddr now advertisement).map id .registration
  | .heartbeatRelay now relayId => (r.heartbeatRelay now relayId).map id .renewal
  | .discover now contentId => (r.discover now contentId).map id .route
  | .discoverProviders now contentId limit =>
    (r.discoverProviders now contentId limit).map id .routes
  | .pollPeer now peerId => (r.pollPeer now peerId).map id .assignment
  | .reportRelayFailure relayId => (r.reportRelayFailure relayId, .acknowledged)
  | .snapshot now => (r.snapshot now).map id .snapshot

/-- A call together with the registry it was made on. -/
structure Event where
  before : Registry
  operation : Operation

def Event.reply (event : Event) : Reply := (event.before.exec blake3 isSocketAddr event.operation).2

/-- The calls made on a registry since it was created, oldest first. -/
inductive Run (start : Registry) : List Event → Registry → Prop
  | nil : Run start [] start
  | snoc {events : List Event} {r : Registry} (h : Run start events r) (operation : Operation) :
    Run start (events ++ [⟨r, operation⟩]) (r.exec blake3 isSocketAddr operation).1

end Runs

end TripTorrent

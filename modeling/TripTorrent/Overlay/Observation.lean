import TripTorrent.Noninterference
import TripTorrent.Overlay.Service

/-!
# Observation

A snapshot of the registry purges it, and one is taken after every request that is handled. It
should not be seen in the responses: not in who is found, in what order or over which relay, not in
what is refused for lack of space, and not in the names of routes.

What an operation with a time reads, it reads after purging, and purging twice is purging once at
the later time. So two registries are as good as the same from some time on if purging them at any
later time leaves the same, but for the counters of what has expired. Failure reports do not purge;
but what they leave, once it is purged, is known from the purged registry before them.
-/

namespace TripTorrent

open Leasing (Table)
open Std (ExtTreeMap)

/-! ## Queues that are thinned out -/

/-- The assignments to keep, unless there are none. -/
def keepQueue (keep : QueuedAssignment → Bool) (queue : List QueuedAssignment) :
    Option (List QueuedAssignment) :=
  if (queue.filter keep).isEmpty then none else some (queue.filter keep)

section KeepQueue

variable {keep keep' : QueuedAssignment → Bool} {queue : List QueuedAssignment}

theorem keepQueue_filter :
    keepQueue keep' (queue.filter keep) =
      keepQueue (fun queued ↦ keep' queued && keep queued) queue := by
  rw [keepQueue, List.filter_filter, keepQueue]

theorem keepQueue_bind_keepQueue :
    (keepQueue keep queue).bind (keepQueue keep') =
      keepQueue (fun queued ↦ keep' queued && keep queued) queue := by
  rw [← keepQueue_filter]
  by_cases hempty : (queue.filter keep).isEmpty = true
  · rw [keepQueue, if_pos hempty, Option.bind_none, List.isEmpty_iff.mp hempty]
    rfl
  · rw [keepQueue, if_neg hempty, Option.bind_some]

theorem retainQueue_eq_keepQueue (peers : Table PeerId PeerAdvertisement)
    (relays : Table String RelayAdvertisement) (now : ℕ) (peerId : PeerId) :
    retainQueue peers relays now peerId = keepQueue fun queued ↦ peers.contains peerId &&
      (now < queued.expiresAt && relays.contains queued.assignment.relayId) := by
  funext queue
  rw [retainQueue, keepQueue]
  by_cases hpeer : peers.contains peerId = true
  · rw [if_pos hpeer, hpeer]
    simp only [Bool.true_and]
  · rw [if_neg hpeer]
    simp [hpeer]

end KeepQueue

namespace Registry

/-! ## Registries that differ in counters only -/

def uncounted (r : Registry) : Registry :=
  { r with expiredPeers := 0, expiredRelays := 0, expiredRoutes := 0 }

/-- The two differ at most in the counters of what has expired. -/
def Alike (a b : Registry) : Prop := a.uncounted = b.uncounted

section Alike

variable {a b : Registry} {now : ℕ}

namespace Alike

theorem leaseMs_eq (h : a.Alike b) : a.leaseMs = b.leaseMs := congrArg (fun r ↦ r.leaseMs) h

theorem limits_eq (h : a.Alike b) : a.limits = b.limits := congrArg (fun r ↦ r.limits) h

theorem peers_eq (h : a.Alike b) : a.peers = b.peers := congrArg (fun r ↦ r.peers) h

theorem relays_eq (h : a.Alike b) : a.relays = b.relays := congrArg (fun r ↦ r.relays) h

theorem assignments_eq (h : a.Alike b) : a.assignments = b.assignments :=
  congrArg (fun r ↦ r.assignments) h

theorem queue_eq (h : a.Alike b) (peerId : PeerId) : a.queue peerId = b.queue peerId :=
  congrArg (fun r ↦ r.queue peerId) h

-- no operation looks at the counters, and of these only purging changes them

theorem purge (h : a.Alike b) (now : ℕ) : (a.purge now).Alike (b.purge now) :=
  (congrArg (fun r ↦ (r.purge now).uncounted) h :)

theorem grantPeer (h : a.Alike b) (now : ℕ) (advertisement : PeerAdvertisement) :
    (a.grantPeer now advertisement).Alike (b.grantPeer now advertisement) :=
  (congrArg (fun r ↦ r.grantPeer now advertisement) h :)

theorem renewPeer (h : a.Alike b) (now : ℕ) (peerId : PeerId) :
    (a.renewPeer now peerId).Alike (b.renewPeer now peerId) :=
  (congrArg (fun r ↦ r.renewPeer now peerId) h :)

theorem grantRelay (h : a.Alike b) (now : ℕ) (advertisement : RelayAdvertisement) :
    (a.grantRelay now advertisement).Alike (b.grantRelay now advertisement) :=
  (congrArg (fun r ↦ r.grantRelay now advertisement) h :)

theorem renewRelay (h : a.Alike b) (now : ℕ) (relayId : String) :
    (a.renewRelay now relayId).Alike (b.renewRelay now relayId) :=
  (congrArg (fun r ↦ r.renewRelay now relayId) h :)

theorem setQueue (h : a.Alike b) (peerId : PeerId) (queue : List QueuedAssignment) :
    (a.setQueue peerId queue).Alike (b.setQueue peerId queue) :=
  (congrArg (fun r ↦ r.setQueue peerId queue) h :)

theorem nextAssignment_eq (h : a.Alike b) (provider : PeerAdvertisement)
    (relay : RelayAdvertisement) (routePrefix : String) :
    a.nextAssignment provider relay routePrefix = b.nextAssignment provider relay routePrefix :=
  (congrArg (fun r ↦ r.nextAssignment provider relay routePrefix) h :)

theorem nextRoute (h : a.Alike b) :
    Alike { a with nextRoute := a.nextRoute + 1 } { b with nextRoute := b.nextRoute + 1 } :=
  (congrArg (fun r : Registry ↦ { r with nextRoute := r.nextRoute + 1 }) h :)

end Alike

/-- The registries are alike and the results are the same. -/
def Agree {ω : Type} (x y : Registry × ω) : Prop := x.1.Alike y.1 ∧ x.2 = y.2

theorem Alike.queueAssignment (h : a.Alike b) (now : ℕ) (provider : PeerAdvertisement)
    (relay : RelayAdvertisement) (routePrefix : String) :
    Agree (a.queueAssignment now provider relay routePrefix)
      (b.queueAssignment now provider relay routePrefix) := by
  rw [Registry.queueAssignment, Registry.queueAssignment, h.queue_eq, h.limits_eq, h.leaseMs_eq,
    h.nextAssignment_eq]
  split_ifs
  · exact ⟨h.setQueue _ _, rfl⟩
  · exact ⟨(h.setQueue _ _).nextRoute, rfl⟩

theorem Alike.queueAssignments (h : a.Alike b) (now : ℕ) (relays : List RelayAdvertisement)
    (providers : List (PeerAdvertisement × ℕ)) :
    Agree (queueAssignments now relays a providers) (queueAssignments now relays b providers) := by
  induction providers generalizing a b with
  | nil => exact ⟨h, rfl⟩
  | cons entry providers ih =>
    obtain ⟨provider, index⟩ := entry
    rw [Registry.queueAssignments, Registry.queueAssignments]
    rcases relays[index % relays.length]? with _ | relay
    · exact ⟨h, rfl⟩
    · obtain ⟨hnext, hfirst⟩ := h.queueAssignment now provider relay "m4"
      obtain ⟨hlast, hrest⟩ := ih hnext
      refine ⟨hlast, ?_⟩
      dsimp only
      rw [hfirst, hrest]

/-! ## Operations on registries that are alike once purged -/

section Purged

variable (h : (a.purge now).Alike (b.purge now))

include h

theorem agree_heartbeatPeer (peerId : PeerId) :
    Agree (a.heartbeatPeer now peerId) (b.heartbeatPeer now peerId) := by
  rw [heartbeatPeer, heartbeatPeer, h.peers_eq]
  split_ifs
  · exact ⟨h.renewPeer now peerId, rfl⟩
  · exact ⟨h, rfl⟩

theorem agree_heartbeatRelay (relayId : String) :
    Agree (a.heartbeatRelay now relayId) (b.heartbeatRelay now relayId) := by
  rw [heartbeatRelay, heartbeatRelay, h.relays_eq]
  split_ifs
  · exact ⟨h.renewRelay now relayId, rfl⟩
  · exact ⟨h, rfl⟩

theorem agree_discover (contentId : ContentId) :
    Agree (a.discover now contentId) (b.discover now contentId) := by
  rw [discover, discover, h.peers_eq, h.relays_eq]
  rcases (b.purge now).peers.advertisements.find? _ with _ | provider
  · exact ⟨h, rfl⟩
  · rcases (b.purge now).relays.advertisements.head? with _ | relay
    · exact ⟨h, rfl⟩
    · exact h.queueAssignment now provider relay "m2"

theorem agree_discoverProviders (contentId : ContentId) (limit : ℕ) :
    Agree (a.discoverProviders now contentId limit) (b.discoverProviders now contentId limit) := by
  rw [discoverProviders, discoverProviders, h.peers_eq, h.relays_eq]
  split_ifs
  · exact ⟨h, rfl⟩
  · exact h.queueAssignments now _ _

theorem agree_pollPeer (peerId : PeerId) :
    Agree (a.pollPeer now peerId) (b.pollPeer now peerId) := by
  obtain ⟨hbeat, hflag⟩ := agree_heartbeatPeer h peerId
  rw [pollPeer, pollPeer]
  dsimp only
  rw [hflag, hbeat.assignments_eq, hbeat.relays_eq]
  split_ifs
  · rcases (b.heartbeatPeer now peerId).1.assignments[peerId]? with _ | queue
    · exact ⟨hbeat, rfl⟩
    · exact ⟨hbeat.setQueue _ _, rfl⟩
  · exact ⟨hbeat, rfl⟩

end Purged

end Alike

/-! ## Purging twice -/

section Twice

variable {r : Registry} {now later : ℕ}

/-- What a later purge keeps of a queue, an earlier one keeps. -/
theorem assignments_purge_purge (hle : now ≤ later) :
    ((r.purge now).purge later).assignments = (r.purge later).assignments := by
  have hpeers : ((r.purge now).purge later).peers = (r.purge later).peers := Table.purge_purge hle
  have hrelays : ((r.purge now).purge later).relays = (r.purge later).relays :=
    Table.purge_purge hle
  refine ExtTreeMap.ext_getElem? fun peerId ↦ ?_
  rw [getElem?_assignments_purge, getElem?_assignments_purge, getElem?_assignments_purge, hpeers,
    hrelays, Option.bind_assoc]
  congr 1
  funext queue
  rw [retainQueue_eq_keepQueue, retainQueue_eq_keepQueue, keepQueue_bind_keepQueue]
  congr 1
  funext queued
  rw [Bool.and_eq_left_iff_imp]
  simp only [Bool.and_eq_true, decide_eq_true_eq]
  rintro ⟨hpeer, hlive, hrelay⟩
  exact ⟨Table.contains_purge_of_le hle hpeer, hle.trans_lt hlive,
    Table.contains_purge_of_le hle hrelay⟩

theorem alike_purge_purge (hle : now ≤ later) :
    ((r.purge now).purge later).Alike (r.purge later) := by
  have hpeers : ((r.purge now).purge later).peers = (r.purge later).peers := Table.purge_purge hle
  have hrelays : ((r.purge now).purge later).relays = (r.purge later).relays :=
    Table.purge_purge hle
  rw [Alike, uncounted, uncounted, hpeers, hrelays, assignments_purge_purge hle]
  rfl

theorem relays_purge_reportRelayFailure (relayId : String) :
    ((r.reportRelayFailure relayId).purge now).relays = (r.purge now).relays.erase relayId :=
  Table.purge_erase

/-- What is left of the queues when a purge follows a failure report. -/
theorem assignments_purge_reportRelayFailure (relayId : String) :
    ((r.reportRelayFailure relayId).purge now).assignments =
      (r.purge now).assignments.filterMap fun _ ↦
        keepQueue fun queued ↦ queued.assignment.relayId ≠ relayId := by
  refine ExtTreeMap.ext_getElem? fun peerId ↦ ?_
  have hreport : (r.reportRelayFailure relayId).assignments[peerId]? =
      r.assignments[peerId]?.map (List.filter fun queued ↦ queued.assignment.relayId ≠ relayId) :=
    ExtTreeMap.getElem?_map
  rw [ExtTreeMap.getElem?_filterMap', getElem?_assignments_purge, getElem?_assignments_purge,
    relays_purge_reportRelayFailure, hreport, Option.bind_assoc, Option.bind_map]
  congr 1
  funext queue
  rw [Function.comp_apply, retainQueue_eq_keepQueue, retainQueue_eq_keepQueue, keepQueue_filter,
    keepQueue_bind_keepQueue]
  congr 1
  funext queued
  rw [Bool.eq_iff_iff]
  simp only [Bool.and_eq_true, decide_eq_true_eq, ExtTreeMap.contains_iff_mem,
    ExtTreeMap.mem_erase, ne_eq, Std.compare_eq_iff_eq]
  have hpeers : ((r.reportRelayFailure relayId).purge now).peers = (r.purge now).peers := rfl
  rw [hpeers]
  tauto

theorem Alike.purge_reportRelayFailure {a b : Registry} (h : (a.purge now).Alike (b.purge now))
    (relayId : String) :
    ((a.reportRelayFailure relayId).purge now).Alike
      ((b.reportRelayFailure relayId).purge now) := by
  rw [Alike, uncounted, uncounted, relays_purge_reportRelayFailure,
    relays_purge_reportRelayFailure, assignments_purge_reportRelayFailure,
    assignments_purge_reportRelayFailure, h.relays_eq, h.assignments_eq]
  exact congrArg (fun r : Registry ↦
    { r with
      relays := (b.purge now).relays.erase relayId
      assignments := (b.purge now).assignments.filterMap fun _ ↦
        keepQueue fun queued ↦ queued.assignment.relayId ≠ relayId }) h

end Twice

/-! ## Registries that are alike from some time on -/

/-- Whatever is purged from `now` on, the same is left. -/
def AlikeFrom (now : ℕ) (a b : Registry) : Prop :=
  ∀ later, now ≤ later → (a.purge later).Alike (b.purge later)

namespace AlikeFrom

variable {a b : Registry} {now later : ℕ}

theorem refl (now : ℕ) (r : Registry) : AlikeFrom now r r := fun _ _ ↦ rfl

theorem mono (h : AlikeFrom now a b) (hle : now ≤ later) : AlikeFrom later a b :=
  fun time htime ↦ h time (hle.trans htime)

theorem of_alike (h : a.Alike b) : AlikeFrom now a b := fun time _ ↦ h.purge time

theorem purge_left (h : AlikeFrom now a b) (hle : now ≤ later) :
    AlikeFrom later (a.purge later) b :=
  fun time htime ↦ (alike_purge_purge htime).trans (h time (hle.trans htime))

theorem reportRelayFailure (h : AlikeFrom now a b) (relayId : String) :
    AlikeFrom now (a.reportRelayFailure relayId) (b.reportRelayFailure relayId) :=
  fun time htime ↦ (h time htime).purge_reportRelayFailure relayId

/-- A registration that fails the checks that come first leaves both registries as they were. -/
theorem registerPeer (h : AlikeFrom now a b) (blake3 : List UInt8 → Digest) (hle : now ≤ later)
    (advertisement : PeerAdvertisement) :
    (a.registerPeer blake3 later advertisement).2 = (b.registerPeer blake3 later advertisement).2 ∧
      AlikeFrom later (a.registerPeer blake3 later advertisement).1
        (b.registerPeer blake3 later advertisement).1 := by
  have hpurged := h later hle
  have hlimits : a.limits = b.limits := hpurged.limits_eq
  rw [Registry.registerPeer, Registry.registerPeer, hlimits]
  rcases validatePeer blake3 b.limits advertisement with error | _
  · exact ⟨rfl, h.mono hle⟩
  · dsimp only
    rw [hpurged.peers_eq, hpurged.limits_eq]
    split_ifs
    · exact ⟨rfl, .of_alike (hpurged.grantPeer later advertisement)⟩
    · exact ⟨rfl, .of_alike hpurged⟩

theorem registerRelay (h : AlikeFrom now a b) (isSocketAddr : String → Bool) (hle : now ≤ later)
    (advertisement : RelayAdvertisement) :
    (a.registerRelay isSocketAddr later advertisement).2 =
        (b.registerRelay isSocketAddr later advertisement).2 ∧
      AlikeFrom later (a.registerRelay isSocketAddr later advertisement).1
        (b.registerRelay isSocketAddr later advertisement).1 := by
  have hpurged := h later hle
  rw [Registry.registerRelay, Registry.registerRelay]
  rcases validateRelay isSocketAddr advertisement with error | _
  · exact ⟨rfl, h.mono hle⟩
  · dsimp only
    rw [hpurged.relays_eq, hpurged.limits_eq]
    split_ifs
    · exact ⟨rfl, .of_alike (hpurged.grantRelay later advertisement)⟩
    · exact ⟨rfl, .of_alike hpurged⟩

theorem leaseMs_eq (h : AlikeFrom now a b) : a.leaseMs = b.leaseMs := (h now le_rfl).leaseMs_eq

/-- A request has the same response. -/
theorem handleRequest (h : AlikeFrom now a b) (blake3 : List UInt8 → Digest)
    (isSocketAddr : String → Bool) (hle : now ≤ later) (request : OverlayRequest) :
    (handleRequest blake3 isSocketAddr a later request).2 =
        (handleRequest blake3 isSocketAddr b later request).2 ∧
      AlikeFrom later (handleRequest blake3 isSocketAddr a later request).1
        (handleRequest blake3 isSocketAddr b later request).1 := by
  have hpurged := h later hle
  rcases request with peer | peerId | peerId | relay | relayId | contentId | ⟨contentId, limit⟩ |
    relayId | _
  · obtain ⟨houtcome, hnext⟩ := h.registerPeer blake3 hle peer
    refine ⟨?_, hnext⟩
    rw [TripTorrent.handleRequest, TripTorrent.handleRequest]
    dsimp only
    rw [houtcome, hnext.leaseMs_eq]
  · obtain ⟨hnext, hflag⟩ := agree_heartbeatPeer hpurged peerId
    refine ⟨?_, .of_alike hnext⟩
    rw [TripTorrent.handleRequest, TripTorrent.handleRequest]
    dsimp only
    rw [hflag, hnext.leaseMs_eq]
  · obtain ⟨hbeat, hflag⟩ := agree_heartbeatPeer hpurged peerId
    obtain ⟨hnext, hroute⟩ := agree_pollPeer (hbeat.purge later) peerId
    rw [TripTorrent.handleRequest, TripTorrent.handleRequest]
    dsimp only
    rw [hflag]
    split_ifs
    · exact ⟨congrArg OverlayResponse.assignment hroute, .of_alike hnext⟩
    · exact ⟨rfl, .of_alike hbeat⟩
  · obtain ⟨houtcome, hnext⟩ := h.registerRelay isSocketAddr hle relay
    refine ⟨?_, hnext⟩
    rw [TripTorrent.handleRequest, TripTorrent.handleRequest]
    dsimp only
    rw [houtcome, hnext.leaseMs_eq]
  · obtain ⟨hnext, hflag⟩ := agree_heartbeatRelay hpurged relayId
    refine ⟨?_, .of_alike hnext⟩
    rw [TripTorrent.handleRequest, TripTorrent.handleRequest]
    dsimp only
    rw [hflag, hnext.leaseMs_eq]
  · obtain ⟨hnext, hroute⟩ := agree_discover hpurged contentId
    exact ⟨congrArg OverlayResponse.route hroute, .of_alike hnext⟩
  · obtain ⟨hnext, hroutes⟩ := agree_discoverProviders hpurged contentId (min limit.toNat 16)
    exact ⟨congrArg OverlayResponse.routes hroutes, .of_alike hnext⟩
  · exact ⟨rfl, (h.mono hle).reportRelayFailure relayId⟩
  · exact ⟨rfl, h.mono hle⟩

end AlikeFrom

end Registry

/-! ## Requests and snapshots -/

/-- What is done to the registry of a service: a request is handled, or a snapshot is taken. -/
inductive Action where
  | request (now : ℕ) (request : OverlayRequest)
  | snapshot (now : ℕ)
deriving DecidableEq

inductive Answer where
  | response (response : OverlayResponse)
  | snapshot (snapshot : OverlaySnapshot)
deriving DecidableEq

def Action.time : Action → ℕ
  | .request now _ | .snapshot now => now

def Action.isSnapshot : Action → Bool
  | .request _ _ => false
  | .snapshot _ => true

section Actions

variable (blake3 : List UInt8 → Digest) (isSocketAddr : String → Bool)

def Registry.act (r : Registry) : Action → Registry × Answer
  | .request now request => (handleRequest blake3 isSocketAddr r now request).map id .response
  | .snapshot now => (r.snapshot now).map id .snapshot

/-- The responses to the requests among some actions. -/
def responses (r : Registry) (actions : List Action) : List Answer :=
  Noninterference.answers (Registry.act blake3 isSocketAddr) Action.isSnapshot r actions

theorem unwinding_snapshot :
    Noninterference.Unwinding (Registry.act blake3 isSocketAddr) Action.isSnapshot Action.time
      Registry.AlikeFrom where
  hide {_ _ _ action} h hle hhidden := by
    cases action with
    | request now request => cases hhidden
    | snapshot now => exact h.purge_left hle
  agree {_ _ _ action} h hle hhidden := by
    cases action with
    | request now request =>
      obtain ⟨hresponse, hnext⟩ := h.handleRequest blake3 isSocketAddr hle request
      exact ⟨congrArg Answer.response hresponse, hnext⟩
    | snapshot now => cases hhidden

end Actions

/-- **Observation is transparent.** In every sequence of requests and snapshots whose times do not
go back, on any registry, the responses to the requests are the same as without the snapshots. In
particular purging twice leaves the same peers, relays and queues as purging at the later time. -/
theorem observation_transparent (blake3 : List UInt8 → Digest) (isSocketAddr : String → Bool)
    (r : Registry) :
    (∀ actions : List Action, (actions.map Action.time).Pairwise (· ≤ ·) →
      responses blake3 isSocketAddr r actions =
        responses blake3 isSocketAddr r (actions.filter fun action ↦ !action.isSnapshot)) ∧
    ∀ now later : ℕ, now ≤ later →
      ((r.purge now).purge later).peers = (r.purge later).peers ∧
        ((r.purge now).purge later).relays = (r.purge later).relays ∧
        ((r.purge now).purge later).assignments = (r.purge later).assignments := by
  constructor
  · intro actions hsorted
    exact (unwinding_snapshot blake3 isSocketAddr).answers_eq (.refl 0 r)
      (fun action _ ↦ Nat.zero_le action.time) hsorted
  · intro now later hle
    have halike : ((r.purge now).purge later).Alike (r.purge later) :=
      Registry.alike_purge_purge hle
    exact ⟨halike.peers_eq, halike.relays_eq, halike.assignments_eq⟩

/-! The peer and the relay are found, and found no more after a snapshot has purged them. -/

namespace Vectors

def observed : List Action :=
  [.request 0 (.registerPeer peerAdvertisement), .snapshot 0,
    .request 5 (.registerRelay relayAdvertisement), .snapshot 10,
    .request 10 (.discover ⟨contentDigest⟩), .snapshot 30005,
    .request 30010 (.discover ⟨contentDigest⟩), .snapshot 30010]

end Vectors

open Vectors in
theorem observation_transparent_observed :
    responses blake3 isSocketAddr started observed =
        responses blake3 isSocketAddr started
          [.request 0 (.registerPeer peerAdvertisement),
            .request 5 (.registerRelay relayAdvertisement),
            .request 10 (.discover ⟨contentDigest⟩), .request 30010 (.discover ⟨contentDigest⟩)] ∧
      (responses blake3 isSocketAddr started observed).length = 4 ∧
      (responses blake3 isSocketAddr started observed).getLast? =
        some (.response (.route none)) :=
  ⟨(observation_transparent blake3 isSocketAddr started).1 observed (by decide), by decide +kernel,
    by decide +kernel⟩

end TripTorrent

import TripTorrent.Overlay.Invariant
import TripTorrent.Queueing.Ledger

/-!
# Rendezvous

A discoverer is given a route, and its provider picks the same route up by polling. Between the two
stands the provider's queue, which purging and failure reports may thin out. Over a whole run the
queue keeps a ledger in the sense of `Queueing.Ledger`: every route issued for a provider has been
picked up once, is still queued, or was lost for one of four reasons.

Nothing is assumed about the times of the calls.
-/

namespace TripTorrent

open Leasing (Lease Table)
open Queueing (Round Ledger)
open Std (ExtTreeMap)

/-! ## What is issued, polled and lost -/

/-- The time of a call; failure reports have none. -/
def Operation.time? : Operation → Option ℕ
  | .registerPeer now _ | .heartbeatPeer now _ | .registerRelay now _ | .heartbeatRelay now _
  | .discover now _ | .discoverProviders now _ _ | .pollPeer now _ | .snapshot now => some now
  | .reportRelayFailure _ => none

/-- Registrations, heartbeats and snapshots, which do nothing to the queues but purge them. -/
def Operation.isQuiet : Operation → Bool
  | .registerPeer _ _ | .heartbeatPeer _ _ | .registerRelay _ _ | .heartbeatRelay _ _
  | .snapshot _ => true
  | .discover _ _ | .discoverProviders _ _ _ | .pollPeer _ _ | .reportRelayFailure _ => false

/-- The routes a discoverer is given. -/
def Reply.issued : Reply → List RouteAssignment
  | .route value => value.toList
  | .routes values => values
  | _ => []

/-- What assignments add to the queue of a peer. -/
def entries (expiresAt : ℕ) (peerId : PeerId) (assignments : List RouteAssignment) :
    List QueuedAssignment :=
  (assignments.filter fun assignment ↦ assignment.providerId = peerId).map fun assignment ↦
    { assignment, expiresAt }

section Events

variable (blake3 : List UInt8 → Digest) (isSocketAddr : String → Bool) (peerId : PeerId)

/-- The routes for a peer that a call gives to a discoverer, with the expiry they are given. -/
def Event.issuedTo (event : Event) : List QueuedAssignment :=
  match event.operation.time? with
  | none => []
  | some now =>
    entries (Leasing.expiry event.before.leaseMs now) peerId
      (event.reply blake3 isSocketAddr).issued

/-- The route a call gives to the peer. -/
def Event.polledBy (event : Event) : List RouteAssignment :=
  match event.operation, event.reply blake3 isSocketAddr with
  | .pollPeer _ polled, .assignment value => if polled = peerId then value.toList else []
  | _, _ => []

def issuedTo (events : List Event) : List QueuedAssignment :=
  events.flatMap (Event.issuedTo blake3 isSocketAddr peerId)

def polledBy (events : List Event) : List RouteAssignment :=
  events.flatMap (Event.polledBy blake3 isSocketAddr peerId)

/-- Why a call may take an assignment out of the peer's queue: its relay is reported, or it, its
relay or the peer itself has expired. -/
def Event.Loses (event : Event) (queued : QueuedAssignment) : Prop :=
  event.operation = .reportRelayFailure queued.assignment.relayId ∨
    ∃ now, event.operation.time? = some now ∧
      (queued.expiresAt ≤ now ∨
        (∃ lease, event.before.relays[queued.assignment.relayId]? = some lease ∧
          lease.expiresAt ≤ now) ∨
        ∃ lease, event.before.peers[peerId]? = some lease ∧ lease.expiresAt ≤ now)

end Events

namespace Registry

/-! ## What each operation does to a queue -/

section Queues

variable {r : Registry} {now : ℕ} {peerId polled : PeerId}

theorem queue_queueAssignment (r : Registry) (now : ℕ) (provider : PeerAdvertisement)
    (relay : RelayAdvertisement) (routePrefix : String) (peerId : PeerId) :
    (r.queueAssignment now provider relay routePrefix).1.queue peerId =
      r.queue peerId ++ entries (Leasing.expiry r.leaseMs now) peerId
        (r.queueAssignment now provider relay routePrefix).2.toList := by
  rw [queueAssignment]
  simp only
  by_cases hself : provider.peerId = peerId
  · subst hself
    split_ifs
    · rw [queue_setQueue_self]
      exact (List.append_nil _).symm
    · refine (queue_setQueue_self r provider.peerId _).trans ?_
      simp [entries, nextAssignment]
  · split_ifs
    · rw [queue_setQueue_of_ne r _ hself]
      exact (List.append_nil _).symm
    · refine (queue_setQueue_of_ne r _ hself).trans ?_
      simp [entries, nextAssignment, hself]

theorem queue_queueAssignments (now : ℕ) (relays : List RelayAdvertisement) (r : Registry)
    (providers : List (PeerAdvertisement × ℕ)) (peerId : PeerId) :
    (queueAssignments now relays r providers).1.queue peerId =
      r.queue peerId ++ entries (Leasing.expiry r.leaseMs now) peerId
        (queueAssignments now relays r providers).2 := by
  induction providers generalizing r with
  | nil => exact (List.append_nil _).symm
  | cons entry providers ih =>
    obtain ⟨provider, index⟩ := entry
    rw [queueAssignments]
    rcases relays[index % relays.length]? with _ | relay
    · exact (List.append_nil _).symm
    · simp only
      rw [ih, queue_queueAssignment, (r.sameLeases_queueAssignment now provider relay _).leaseMs_eq,
        List.append_assoc]
      simp [entries]

theorem queue_discover (r : Registry) (now : ℕ) (contentId : ContentId) (peerId : PeerId) :
    (r.discover now contentId).1.queue peerId = (r.purge now).queue peerId ++
      entries (Leasing.expiry r.leaseMs now) peerId (r.discover now contentId).2.toList := by
  rcases r.discover_cases now contentId with heq | ⟨provider, -, relay, -, heq⟩
  · rw [heq]
    exact (List.append_nil _).symm
  · rw [heq]
    exact queue_queueAssignment (r.purge now) now provider relay "m2" peerId

theorem queue_discoverProviders (r : Registry) (now : ℕ) (contentId : ContentId) (limit : ℕ)
    (peerId : PeerId) :
    (r.discoverProviders now contentId limit).1.queue peerId = (r.purge now).queue peerId ++
      entries (Leasing.expiry r.leaseMs now) peerId
        (r.discoverProviders now contentId limit).2 := by
  rcases r.discoverProviders_cases now contentId limit with heq | ⟨providers, -, heq⟩
  · rw [heq]
    exact (List.append_nil _).symm
  · rw [heq]
    exact queue_queueAssignments now _ (r.purge now) providers peerId

theorem heartbeatPeer_fst (r : Registry) (now : ℕ) (polled : PeerId) :
    (∀ peerId, (r.heartbeatPeer now polled).1.queue peerId = (r.purge now).queue peerId) ∧
      (r.heartbeatPeer now polled).1.relays = (r.purge now).relays := by
  rcases r.heartbeatPeer_cases now polled with ⟨-, heq⟩ | ⟨-, heq⟩
  · rw [heq]
    exact ⟨fun _ ↦ rfl, rfl⟩
  · rw [heq]
    exact ⟨fun _ ↦ rfl, rfl⟩

/-- What is left after purging is good. -/
theorem good_of_mem_queue_purge {queued : QueuedAssignment}
    (h : queued ∈ (r.purge now).queue peerId) :
    queued ∈ r.queue peerId ∧ now < queued.expiresAt ∧
      (r.purge now).relays.contains queued.assignment.relayId = true := by
  rw [queue_purge, List.mem_filter, Bool.and_eq_true, Bool.and_eq_true, decide_eq_true_eq] at h
  exact ⟨h.1, h.2.2⟩

/-- `poll_peer` takes the first assignment left after purging. -/
theorem pollPeer_cases (r : Registry) (now : ℕ) (polled : PeerId) :
    (r.pollPeer now polled).1.relays = (r.purge now).relays ∧
      ((r.pollPeer now polled).2 = none ∧
          (∀ peerId, (r.pollPeer now polled).1.queue peerId = (r.purge now).queue peerId) ∨
        ∃ queued, (r.purge now).queue polled = queued :: (r.pollPeer now polled).1.queue polled ∧
          (r.pollPeer now polled).2 = some queued.assignment ∧
          ∀ peerId, polled ≠ peerId →
            (r.pollPeer now polled).1.queue peerId = (r.purge now).queue peerId) := by
  obtain ⟨hqueue, hrelays⟩ := heartbeatPeer_fst r now polled
  have hgood : ∀ queued ∈ (r.heartbeatPeer now polled).1.queue polled, now < queued.expiresAt ∧
      (r.heartbeatPeer now polled).1.relays.contains queued.assignment.relayId = true := by
    intro queued hqueued
    rw [hqueue] at hqueued
    rw [hrelays]
    exact (good_of_mem_queue_purge hqueued).2
  rcases r.pollPeer_eq now polled with heq | ⟨queue, hfound, heq⟩
  · rw [heq]
    exact ⟨hrelays, .inl ⟨rfl, hqueue⟩⟩
  · rw [queue_of_getElem? hfound] at hgood
    have hpurged := hqueue polled
    rw [queue_of_getElem? hfound] at hpurged
    have hother : ∀ rest peerId, polled ≠ peerId →
        ((r.heartbeatPeer now polled).1.setQueue polled rest).queue peerId =
          (r.purge now).queue peerId := by
      intro rest peerId hne
      rw [queue_setQueue_of_ne _ _ hne, hqueue]
    rw [heq]
    refine ⟨hrelays, ?_⟩
    rcases queue with _ | ⟨queued, rest⟩
    · refine .inl ⟨rfl, fun peerId ↦ ?_⟩
      by_cases hself : polled = peerId
      · rw [← hself, ← hpurged]
        exact queue_setQueue_self _ _ _
      · exact hother _ peerId hself
    · -- the heartbeat has purged the queue, so its first assignment is still good
      obtain ⟨hlive, hrelay⟩ := hgood queued List.mem_cons_self
      have hpop : popAssignment (r.heartbeatPeer now polled).1.relays now (queued :: rest) =
          (some queued.assignment, rest) := by
        rw [popAssignment, if_pos (by simp [hlive, hrelay])]
      simp only [hpop]
      refine .inr ⟨queued, ?_, rfl, hother rest⟩
      rw [queue_setQueue_self, ← hpurged]

/-! ## Operations that leave the queues to purging -/

/-- The queues are the same, and so is what is counted of them: the two differ in leases only. -/
structure SameQueues (r r' : Registry) : Prop where
  assignments_eq : r'.assignments = r.assignments
  nextRoute_eq : r'.nextRoute = r.nextRoute
  expiredRoutes_eq : r'.expiredRoutes = r.expiredRoutes

theorem SameQueues.refl (r : Registry) : r.SameQueues r := ⟨rfl, rfl, rfl⟩

theorem SameQueues.queue_eq {r' : Registry} (h : r.SameQueues r') (peerId : PeerId) :
    r'.queue peerId = r.queue peerId := by
  rw [queue, h.assignments_eq]
  rfl

theorem sameQueues_registerPeer (blake3 : List UInt8 → Digest) (r : Registry) (now : ℕ)
    (advertisement : PeerAdvertisement) :
    r.SameQueues (r.registerPeer blake3 now advertisement).1 ∨
      (r.purge now).SameQueues (r.registerPeer blake3 now advertisement).1 := by
  rcases r.registerPeer_cases blake3 now advertisement with
    ⟨error, -, heq⟩ | ⟨-, ⟨-, heq⟩ | ⟨-, heq⟩⟩
  · rw [heq]
    exact .inl (.refl r)
  · rw [heq]
    exact .inr (.refl _)
  · rw [heq]
    exact .inr ⟨rfl, rfl, rfl⟩

theorem sameQueues_heartbeatPeer (r : Registry) (now : ℕ) (peerId : PeerId) :
    (r.purge now).SameQueues (r.heartbeatPeer now peerId).1 := by
  rcases r.heartbeatPeer_cases now peerId with ⟨-, heq⟩ | ⟨-, heq⟩
  · rw [heq]
    exact .refl _
  · rw [heq]
    exact ⟨rfl, rfl, rfl⟩

theorem sameQueues_registerRelay (isSocketAddr : String → Bool) (r : Registry) (now : ℕ)
    (advertisement : RelayAdvertisement) :
    r.SameQueues (r.registerRelay isSocketAddr now advertisement).1 ∨
      (r.purge now).SameQueues (r.registerRelay isSocketAddr now advertisement).1 := by
  rcases r.registerRelay_cases isSocketAddr now advertisement with
    ⟨error, -, heq⟩ | ⟨-, ⟨-, heq⟩ | ⟨-, heq⟩⟩
  · rw [heq]
    exact .inl (.refl r)
  · rw [heq]
    exact .inr (.refl _)
  · rw [heq]
    exact .inr ⟨rfl, rfl, rfl⟩

theorem sameQueues_heartbeatRelay (r : Registry) (now : ℕ) (relayId : String) :
    (r.purge now).SameQueues (r.heartbeatRelay now relayId).1 := by
  rcases r.heartbeatRelay_cases now relayId with ⟨-, heq⟩ | ⟨-, heq⟩
  · rw [heq]
    exact .refl _
  · rw [heq]
    exact ⟨rfl, rfl, rfl⟩

/-- A quiet operation purges the queues, or leaves them if it is refused. -/
theorem sameQueues_exec (blake3 : List UInt8 → Digest) (isSocketAddr : String → Bool) (r : Registry)
    {operation : Operation} (hquiet : operation.isQuiet = true) :
    r.SameQueues (r.exec blake3 isSocketAddr operation).1 ∨
      ∃ now, operation.time? = some now ∧
        (r.purge now).SameQueues (r.exec blake3 isSocketAddr operation).1 := by
  cases operation with
  | registerPeer now advertisement =>
    exact (sameQueues_registerPeer blake3 r now advertisement).imp_right fun h ↦ ⟨now, rfl, h⟩
  | heartbeatPeer now peerId => exact .inr ⟨now, rfl, r.sameQueues_heartbeatPeer now peerId⟩
  | registerRelay now advertisement =>
    exact (sameQueues_registerRelay isSocketAddr r now advertisement).imp_right
      fun h ↦ ⟨now, rfl, h⟩
  | heartbeatRelay now relayId => exact .inr ⟨now, rfl, r.sameQueues_heartbeatRelay now relayId⟩
  | snapshot now => exact .inr ⟨now, rfl, .refl _⟩
  | _ => cases hquiet

end Queues

/-! ## The ledger -/

section Ledger

variable {blake3 : List UInt8 → Digest} {isSocketAddr : String → Bool} {limits : RegistryLimits}
  {r : Registry} {now : ℕ} {peerId : PeerId} {operation : Operation}

theorem mem_assignments_of_mem_queue {queued : QueuedAssignment} (h : queued ∈ r.queue peerId) :
    peerId ∈ r.assignments := by
  rw [ExtTreeMap.mem_iff_isSome_getElem?]
  rw [queue] at h
  rcases hqueue : r.assignments[peerId]? with _ | queue
  · rw [hqueue] at h
    cases h
  · rfl

/-- Purging loses what has expired. As peers and relays of queued assignments are registered, they
are missing afterwards only if they expired just now. -/
theorem Valid.round_purge (h : r.Valid blake3 limits) (htime : operation.time? = some now)
    (peerId : PeerId) : Round (Event.Loses peerId ⟨r, operation⟩) (r.queue peerId)
      ((r.purge now).queue peerId) [] [] := by
  rw [queue_purge]
  refine .filter _ fun queued hqueued hkeep ↦ .inr ⟨now, htime, ?_⟩
  obtain ⟨lease, hlease⟩ :=
    Table.mem_iff_exists.mp (h.assigned peerId (mem_assignments_of_mem_queue hqueued))
  obtain ⟨relay, hrelay⟩ := Table.mem_iff_exists.mp (h.queued peerId queued hqueued).2
  -- if nothing had expired, purging would have kept the assignment
  by_contra hgood
  push Not at hgood
  obtain ⟨hlive, hrelays, hpeers⟩ := hgood
  have hpeer : peerId ∈ (r.purge now).peers :=
    Table.mem_purge_iff.mpr ⟨lease, hlease, hpeers lease hlease⟩
  have hrelayed : queued.assignment.relayId ∈ (r.purge now).relays :=
    Table.mem_purge_iff.mpr ⟨relay, hrelay, hrelays relay hrelay⟩
  rw [← ExtTreeMap.contains_iff_mem] at hpeer hrelayed
  rw [hpeer, hrelayed, decide_eq_true hlive] at hkeep
  cases hkeep

theorem Valid.round_of_isQuiet (h : r.Valid blake3 limits) (hquiet : operation.isQuiet = true)
    (peerId : PeerId) : Round (Event.Loses peerId ⟨r, operation⟩) (r.queue peerId)
      ((r.exec blake3 isSocketAddr operation).1.queue peerId) [] [] := by
  rcases r.sameQueues_exec blake3 isSocketAddr hquiet with hsame | ⟨now, htime, hsame⟩
  · exact hsame.queue_eq peerId ▸ .refl _ _
  · exact hsame.queue_eq peerId ▸ h.round_purge htime peerId

theorem polledBy_pollPeer {polled : PeerId} :
    Event.polledBy blake3 isSocketAddr peerId ⟨r, .pollPeer now polled⟩ =
      if polled = peerId then (r.pollPeer now polled).2.toList else [] := rfl

theorem exists_issued_of_mem_issuedTo {event : Event} {queued : QueuedAssignment}
    (h : queued ∈ event.issuedTo blake3 isSocketAddr peerId) :
    ∃ now, event.operation.time? = some now ∧
      queued.assignment ∈ (event.reply blake3 isSocketAddr).issued := by
  rw [Event.issuedTo] at h
  rcases htime : event.operation.time? with _ | now
  · rw [htime] at h
    cases h
  · rw [htime] at h
    obtain ⟨assignment, hassignment, rfl⟩ := List.mem_map.mp h
    exact ⟨now, rfl, List.mem_of_mem_filter hassignment⟩

/-- One call is one round of every queue. -/
theorem Valid.round_exec (h : r.Valid blake3 limits) (operation : Operation) (peerId : PeerId) :
    ∃ taken, Round (Event.Loses peerId ⟨r, operation⟩) (r.queue peerId)
        ((r.exec blake3 isSocketAddr operation).1.queue peerId) taken
        (Event.issuedTo blake3 isSocketAddr peerId ⟨r, operation⟩) ∧
      taken.map QueuedAssignment.assignment =
        Event.polledBy blake3 isSocketAddr peerId ⟨r, operation⟩ := by
  cases operation with
  | discover now contentId =>
    exact ⟨[], queue_discover r now contentId peerId ▸ (h.round_purge rfl peerId).add _, rfl⟩
  | discoverProviders now contentId limit =>
    exact ⟨[], queue_discoverProviders r now contentId limit peerId ▸
      (h.round_purge rfl peerId).add _, rfl⟩
  | pollPeer now polled =>
    have hround : Round (Event.Loses peerId ⟨r, .pollPeer now polled⟩) (r.queue peerId)
        ((r.purge now).queue peerId) [] [] := h.round_purge rfl peerId
    obtain ⟨-, ⟨hnone, hqueue⟩ | ⟨queued, hqueue, hsome, hother⟩⟩ := pollPeer_cases r now polled
    · refine ⟨[], hqueue peerId ▸ hround, ?_⟩
      rw [polledBy_pollPeer, hnone]
      split_ifs
      · rfl
      · rfl
    · by_cases hself : polled = peerId
      · subst hself
        rw [hqueue] at hround
        refine ⟨[queued], hround.take, ?_⟩
        rw [polledBy_pollPeer, if_pos rfl, hsome]
        rfl
      · refine ⟨[], hother peerId hself ▸ hround, ?_⟩
        rw [polledBy_pollPeer, if_neg hself]
        rfl
  | reportRelayFailure relayId =>
    refine ⟨[], queue_reportRelayFailure ▸ .filter _ fun queued _ hkeep ↦ .inl ?_, rfl⟩
    have hrelay : queued.assignment.relayId = relayId := by simpa using hkeep
    rw [hrelay]
  | _ => exact ⟨[], h.round_of_isQuiet rfl peerId, rfl⟩

/-- The ledger of a queue over a run. -/
theorem ledger_of_run {leaseMs : ℕ} {events : List Event}
    (h : Run blake3 isSocketAddr (withLimits leaseMs limits) events r) (peerId : PeerId) :
    ∃ polled, polled.map QueuedAssignment.assignment = polledBy blake3 isSocketAddr peerId events ∧
      Ledger (fun queued ↦ ∃ event ∈ events,
          queued ∈ event.before.queue peerId ∧ event.Loses peerId queued)
        (issuedTo blake3 isSocketAddr peerId events) polled (r.queue peerId) := by
  induction h with
  | nil =>
    refine ⟨[], rfl, ?_⟩
    have hempty : (withLimits leaseMs limits).queue peerId = [] := by simp [queue, withLimits]
    rw [hempty]
    exact .nil _
  | @snoc events r h operation ih =>
    obtain ⟨polled, hpolled, hledger⟩ := ih
    obtain ⟨taken, hround, htaken⟩ := h.valid.round_exec operation peerId
    refine ⟨polled ++ taken, ?_, ?_⟩
    · rw [List.map_append, hpolled, htaken, polledBy, polledBy, List.flatMap_append,
        List.flatMap_singleton]
    · have hissued : issuedTo blake3 isSocketAddr peerId (events ++ [⟨r, operation⟩]) =
          issuedTo blake3 isSocketAddr peerId events ++
            Event.issuedTo blake3 isSocketAddr peerId ⟨r, operation⟩ := by
        rw [issuedTo, issuedTo, List.flatMap_append, List.flatMap_singleton]
      rw [hissued]
      refine (hledger.mono ?_).round (hround.mono ?_)
      · rintro queued ⟨event, hevent, hlost⟩
        exact ⟨event, List.mem_append_left _ hevent, hlost⟩
      · intro queued hqueued hlost
        exact ⟨⟨r, operation⟩, List.mem_append_right _ (List.mem_singleton_self _), hqueued, hlost⟩

/-- **Rendezvous.** In every run, what a provider polls is what discoverers were given for it, in
the same order and at most once, live and with a live relay; and what it has neither polled nor
still queued was lost because it, its relay or the provider expired, or its relay was reported. -/
theorem rendezvous {leaseMs : ℕ} {events : List Event}
    (h : Run blake3 isSocketAddr (withLimits leaseMs limits) events r) (peerId : PeerId) :
    (∃ polled lost, polled.map QueuedAssignment.assignment =
          polledBy blake3 isSocketAddr peerId events ∧
        (issuedTo blake3 isSocketAddr peerId events).Perm (polled ++ r.queue peerId ++ lost) ∧
        (polled ++ r.queue peerId).Sublist (issuedTo blake3 isSocketAddr peerId events) ∧
        ∀ queued ∈ lost, ∃ event ∈ events,
          queued ∈ event.before.queue peerId ∧ event.Loses peerId queued) ∧
      ∀ now assignment, (r.pollPeer now peerId).2 = some assignment →
        ∃ queued ∈ issuedTo blake3 isSocketAddr peerId events, queued.assignment = assignment ∧
          assignment.providerId = peerId ∧ now < queued.expiresAt ∧
          ∃ lease, (r.pollPeer now peerId).1.relays[assignment.relayId]? = some lease ∧
            now < lease.expiresAt := by
  obtain ⟨polled, hpolled, hledger⟩ := ledger_of_run h peerId
  obtain ⟨lost, hperm, hlost⟩ := hledger.perm
  refine ⟨⟨polled, lost, hpolled, hperm, hledger.sublist, hlost⟩, fun now assignment hsome ↦ ?_⟩
  obtain ⟨hrelays, ⟨hnone, -⟩ | ⟨queued, hqueue, hfirst, -⟩⟩ := pollPeer_cases r now peerId
  · rw [hnone] at hsome
    cases hsome
  · obtain rfl : queued.assignment = assignment := Option.some.inj (hfirst.symm.trans hsome)
    have hmem : queued ∈ (r.purge now).queue peerId := hqueue ▸ List.mem_cons_self
    obtain ⟨hqueued, hlive, hrelay⟩ := good_of_mem_queue_purge hmem
    obtain ⟨lease, hlease, hleased⟩ :=
      Table.mem_purge_iff.mp (ExtTreeMap.contains_iff_mem.mp hrelay)
    refine ⟨queued, hledger.mem_of_mem_queue hqueued, rfl, (h.valid.queued peerId queued hqueued).1,
      hlive, lease, ?_, hleased⟩
    rw [hrelays]
    exact Table.getElem?_purge_eq_some_iff.mpr ⟨hlease, hleased⟩

end Ledger

end Registry

/-! The provider picks its first route up. -/

namespace Vectors

def firstAssignment : RouteAssignment where
  providerId := ⟨peerDigest⟩
  providerPublicKey := publicKey
  relayId := "relay-a"
  relayAddress := "127.0.0.1:7001"
  route := "m2-0000000000000001"

end Vectors

open Vectors in
theorem rendezvous_discovered :
    (discovered.pollPeer 20 ⟨peerDigest⟩).2 = some firstAssignment ∧
      ∃ queued ∈ issuedTo blake3 isSocketAddr ⟨peerDigest⟩ calls,
        queued.assignment = firstAssignment ∧ firstAssignment.providerId = ⟨peerDigest⟩ ∧
        20 < queued.expiresAt ∧
        ∃ lease, (discovered.pollPeer 20 ⟨peerDigest⟩).1.relays[firstAssignment.relayId]? =
          some lease ∧ 20 < lease.expiresAt := by
  have hpoll : (discovered.pollPeer 20 ⟨peerDigest⟩).2 = some firstAssignment := by decide +kernel
  exact ⟨hpoll, (Registry.rendezvous run_calls ⟨peerDigest⟩).2 20 firstAssignment hpoll⟩

end TripTorrent

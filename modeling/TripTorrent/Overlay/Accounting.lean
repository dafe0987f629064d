import TripTorrent.Overlay.Routes
import TripTorrent.Queueing.Total

/-!
# Accounting for assignments

The registry publishes how many queued assignments have expired or been invalidated. Purging counts
what it removes, and a poll takes what it returns; so what was issued has been polled, is queued or
is counted. A failure report removes the assignments of the relay from the queues as well and counts
nothing. Over a run the count therefore falls short by what the reports removed, and by nothing
else.
-/

namespace TripTorrent

open Queueing (queueOf total total_eq_total_iff total_insert total_le_total)

/-! ## What is polled, and what is dropped -/

/-- The route a provider is given. -/
def Reply.polled : Reply → List RouteAssignment
  | .assignment value => value.toList
  | _ => []

/-- All assignments that the calls have returned to their providers. -/
def polled (blake3 : List UInt8 → Digest) (isSocketAddr : String → Bool) (events : List Event) :
    List RouteAssignment :=
  events.flatMap fun event ↦ (event.reply blake3 isSocketAddr).polled

/-- How many assignments a failure report takes out of the queues. -/
def Event.dropped (event : Event) : ℕ :=
  match event.operation with
  | .reportRelayFailure relayId =>
    queuedCount event.before.assignments -
      queuedCount (event.before.reportRelayFailure relayId).assignments
  | _ => 0

/-- If the call is a failure report, nothing is queued for the relay. -/
def Event.DropsNothing (event : Event) : Prop :=
  ∀ relayId, event.operation = .reportRelayFailure relayId → ∀ peerId,
    ∀ queued ∈ event.before.queue peerId, queued.assignment.relayId ≠ relayId

namespace Registry

/-- What is queued or has been counted as expired. -/
def recorded (r : Registry) : ℕ := queuedCount r.assignments + r.expiredRoutes

/-! ## One call -/

section Calls

variable {r : Registry} {now : ℕ}

theorem recorded_purge (r : Registry) (now : ℕ) : (r.purge now).recorded = r.recorded := by
  have hle : queuedCount (r.purge now).assignments ≤ queuedCount r.assignments := by
    refine total_le_total fun peerId ↦ ?_
    change ((r.purge now).queue peerId).length ≤ (r.queue peerId).length
    rw [queue_purge]
    exact List.length_filter_le ..
  change queuedCount (r.purge now).assignments + (r.expiredRoutes +
    (queuedCount r.assignments - queuedCount (r.purge now).assignments)) = r.recorded
  rw [recorded]
  omega

theorem recorded_setQueue (r : Registry) (peerId : PeerId) (queue : List QueuedAssignment) :
    (r.setQueue peerId queue).recorded + (r.queue peerId).length = r.recorded + queue.length := by
  have hinsert : queuedCount (r.setQueue peerId queue).assignments + (r.queue peerId).length =
      queuedCount r.assignments + queue.length := total_insert r.assignments peerId queue
  change queuedCount (r.setQueue peerId queue).assignments + r.expiredRoutes + _ = _
  rw [recorded]
  omega

theorem recorded_queueAssignment (r : Registry) (now : ℕ) (provider : PeerAdvertisement)
    (relay : RelayAdvertisement) (routePrefix : String) :
    (r.queueAssignment now provider relay routePrefix).1.recorded =
      r.recorded + (r.queueAssignment now provider relay routePrefix).2.toList.length := by
  rw [queueAssignment]
  dsimp only
  split_ifs
  · have hset := r.recorded_setQueue provider.peerId (r.queue provider.peerId)
    simpa using hset
  · have hset := r.recorded_setQueue provider.peerId (r.queue provider.peerId ++
      [⟨r.nextAssignment provider relay routePrefix, Leasing.expiry r.leaseMs now⟩])
    rw [List.length_append, List.length_singleton] at hset
    -- the route counter is not part of what is recorded
    change (r.setQueue provider.peerId _).recorded = r.recorded + 1
    omega

theorem recorded_queueAssignments (now : ℕ) (relays : List RelayAdvertisement) (r : Registry)
    (providers : List (PeerAdvertisement × ℕ)) :
    (queueAssignments now relays r providers).1.recorded =
      r.recorded + (queueAssignments now relays r providers).2.length := by
  induction providers generalizing r with
  | nil => rfl
  | cons entry providers ih =>
    obtain ⟨provider, index⟩ := entry
    rw [queueAssignments]
    rcases relays[index % relays.length]? with _ | relay
    · rfl
    · dsimp only
      rw [ih, recorded_queueAssignment, List.length_append, add_assoc]

theorem SameQueues.recorded_eq {r' : Registry} (h : r.SameQueues r') :
    r'.recorded = r.recorded := by
  rw [recorded, recorded, h.assignments_eq, h.expiredRoutes_eq]

/-- A quiet call changes what is recorded only by purging, and returns no assignments. -/
theorem recorded_of_isQuiet {blake3 : List UInt8 → Digest} {isSocketAddr : String → Bool}
    {operation : Operation} (hquiet : operation.isQuiet = true) :
    (r.exec blake3 isSocketAddr operation).1.recorded +
        (r.exec blake3 isSocketAddr operation).2.polled.length + Event.dropped ⟨r, operation⟩ =
      r.recorded + (r.exec blake3 isSocketAddr operation).2.issued.length := by
  have hrecorded : (r.exec blake3 isSocketAddr operation).1.recorded = r.recorded := by
    rcases r.sameQueues_exec blake3 isSocketAddr hquiet with hsame | ⟨now, -, hsame⟩
    · exact hsame.recorded_eq
    · exact hsame.recorded_eq.trans (r.recorded_purge now)
  have hnothing : (r.exec blake3 isSocketAddr operation).2.issued = [] ∧
      (r.exec blake3 isSocketAddr operation).2.polled = [] ∧ Event.dropped ⟨r, operation⟩ = 0 := by
    cases operation with
    | discover => cases hquiet
    | discoverProviders => cases hquiet
    | pollPeer => cases hquiet
    | reportRelayFailure => cases hquiet
    | _ => exact ⟨rfl, rfl, rfl⟩
  rw [hrecorded, hnothing.1, hnothing.2.1, hnothing.2.2]
  rfl

/-- A poll takes what it returns out of the queue. The heartbeat has purged the queue, so nothing is
skipped in front of it. -/
theorem recorded_pollPeer (r : Registry) (now : ℕ) (peerId : PeerId) :
    (r.pollPeer now peerId).1.recorded + (r.pollPeer now peerId).2.toList.length =
      r.recorded := by
  have hbeat : (r.heartbeatPeer now peerId).1.recorded = r.recorded :=
    (r.sameQueues_heartbeatPeer now peerId).recorded_eq.trans (r.recorded_purge now)
  obtain ⟨hqueue, -⟩ := heartbeatPeer_fst r now peerId
  rcases r.pollPeer_eq now peerId with heq | ⟨queue, hfound, heq⟩
  · rw [heq]
    exact hbeat
  · have hset := (r.heartbeatPeer now peerId).1.recorded_setQueue peerId
      (popAssignment (r.heartbeatPeer now peerId).1.relays now queue).2
    obtain ⟨-, ⟨hnone, hsame⟩ | ⟨queued, hfirst, hsome, -⟩⟩ := pollPeer_cases r now peerId
    · have hlength := congrArg List.length ((hsame peerId).trans (hqueue peerId).symm)
      rw [heq, queue_setQueue_self] at hlength
      rw [hnone, heq]
      simp only [Option.toList_none, List.length_nil]
      omega
    · have hlength := congrArg List.length ((hqueue peerId).trans hfirst)
      rw [heq, queue_setQueue_self, List.length_cons] at hlength
      rw [hsome, heq]
      simp only [Option.toList_some, List.length_singleton]
      omega

theorem length_queue_reportRelayFailure_le (r : Registry) (relayId : String) (peerId : PeerId) :
    ((r.reportRelayFailure relayId).queue peerId).length ≤ (r.queue peerId).length := by
  rw [queue_reportRelayFailure]
  exact List.length_filter_le ..

theorem queuedCount_reportRelayFailure_le (r : Registry) (relayId : String) :
    queuedCount (r.reportRelayFailure relayId).assignments ≤ queuedCount r.assignments :=
  total_le_total (r.length_queue_reportRelayFailure_le relayId)

theorem dropped_eq_zero_iff {event : Event} : event.dropped = 0 ↔ event.DropsNothing := by
  obtain ⟨r, operation⟩ := event
  cases operation with
  | reportRelayFailure relayId =>
    have hle := r.queuedCount_reportRelayFailure_le relayId
    have hshorter := r.length_queue_reportRelayFailure_le relayId
    change queuedCount r.assignments -
      queuedCount (r.reportRelayFailure relayId).assignments = 0 ↔ _
    rw [Nat.sub_eq_zero_iff_le, hle.ge_iff_eq]
    refine (total_eq_total_iff hshorter).trans ⟨fun h relayId' heq peerId queued hqueued ↦ ?_,
      fun h peerId ↦ ?_⟩
    · obtain rfl : relayId = relayId' := by simpa using heq
      have hlength : ((r.reportRelayFailure relayId).queue peerId).length =
          (r.queue peerId).length := h peerId
      rw [queue_reportRelayFailure, List.length_filter_eq_length_iff] at hlength
      simpa using hlength queued hqueued
    · change ((r.reportRelayFailure relayId).queue peerId).length = (r.queue peerId).length
      rw [queue_reportRelayFailure, List.length_filter_eq_length_iff]
      exact fun queued hqueued ↦ by simpa using h relayId rfl peerId queued hqueued
  | _ => exact iff_of_true rfl fun relayId heq ↦ by cases heq

/-- One call balances what it records, returns and drops against what it issues. -/
theorem recorded_exec (blake3 : List UInt8 → Digest) (isSocketAddr : String → Bool) (r : Registry)
    (operation : Operation) :
    (r.exec blake3 isSocketAddr operation).1.recorded +
        (r.exec blake3 isSocketAddr operation).2.polled.length + Event.dropped ⟨r, operation⟩ =
      r.recorded + (r.exec blake3 isSocketAddr operation).2.issued.length := by
  cases operation with
  | discover now contentId =>
    change (r.discover now contentId).1.recorded =
      r.recorded + (r.discover now contentId).2.toList.length
    rcases r.discover_cases now contentId with heq | ⟨provider, -, relay, -, heq⟩
    · rw [heq]
      exact r.recorded_purge now
    · rw [heq, recorded_queueAssignment, recorded_purge]
  | discoverProviders now contentId limit =>
    change (r.discoverProviders now contentId limit).1.recorded =
      r.recorded + (r.discoverProviders now contentId limit).2.length
    rcases r.discoverProviders_cases now contentId limit with heq | ⟨providers, -, heq⟩
    · rw [heq]
      exact r.recorded_purge now
    · rw [heq, recorded_queueAssignments, recorded_purge]
  | pollPeer now peerId => exact r.recorded_pollPeer now peerId
  | reportRelayFailure relayId =>
    have hle := r.queuedCount_reportRelayFailure_le relayId
    change queuedCount (r.reportRelayFailure relayId).assignments + r.expiredRoutes +
      (queuedCount r.assignments - queuedCount (r.reportRelayFailure relayId).assignments) =
        r.recorded
    rw [recorded]
    omega
  | _ => exact recorded_of_isQuiet rfl

end Calls

end Registry

/-! ## Runs -/

section Runs

open Registry

variable {blake3 : List UInt8 → Digest} {isSocketAddr : String → Bool} {limits : RegistryLimits}
  {leaseMs : ℕ} {events : List Event} {r : Registry}

/-- What was issued has been polled, is queued, is counted as expired, or was dropped. -/
theorem Run.balance (h : Run blake3 isSocketAddr (withLimits leaseMs limits) events r) :
    r.recorded + (polled blake3 isSocketAddr events).length + (events.map Event.dropped).sum =
      (issued blake3 isSocketAddr events).length := by
  induction h with
  | nil =>
    change queuedCount ∅ + 0 + 0 + 0 = 0
    rw [show queuedCount ∅ = 0 from Queueing.total_empty]
  | @snoc events r _ operation ih =>
    have hexec := r.recorded_exec blake3 isSocketAddr operation
    have hpolled : polled blake3 isSocketAddr (events ++ [⟨r, operation⟩]) =
        polled blake3 isSocketAddr events ++
          (r.exec blake3 isSocketAddr operation).2.polled := by
      rw [polled, polled, List.flatMap_append, List.flatMap_singleton]
      rfl
    rw [issued_concat, hpolled, List.length_append, List.length_append, List.map_append,
      List.sum_append]
    change _ = _ + (r.exec blake3 isSocketAddr operation).2.issued.length
    simp only [List.map_singleton, List.sum_singleton]
    omega

/-- **Assignment accounting.** In every run, the assignments issued are as many as those returned to
their providers, those still queued and those counted as expired together, exactly if no failure
report was made for a relay that was named in a queued assignment. -/
theorem assignments_accounted_iff
    (h : Run blake3 isSocketAddr (withLimits leaseMs limits) events r) :
    (issued blake3 isSocketAddr events).length =
        (polled blake3 isSocketAddr events).length + queuedCount r.assignments +
          r.expiredRoutes ↔
      ∀ event ∈ events, event.DropsNothing := by
  have hbalance := h.balance
  rw [recorded] at hbalance
  have hdropped : (events.map Event.dropped).sum = 0 ↔ ∀ event ∈ events, event.DropsNothing := by
    simp only [List.sum_eq_zero_iff, List.mem_map, forall_exists_index, and_imp,
      forall_apply_eq_imp_iff₂, dropped_eq_zero_iff]
  rw [← hdropped]
  omega

end Runs

/-! The route of the published peer is polled in one run; in another one its relay is reported
first. -/

namespace Vectors

def polledCalls : List Event := calls ++ [⟨discovered, .pollPeer 20 ⟨peerDigest⟩⟩]

def afterPoll : Registry :=
  (discovered.exec blake3 isSocketAddr (.pollPeer 20 ⟨peerDigest⟩)).1

def reportedCalls : List Event := calls ++ [⟨discovered, .reportRelayFailure "relay-a"⟩]

def afterReport : Registry :=
  (discovered.exec blake3 isSocketAddr (.reportRelayFailure "relay-a")).1

end Vectors

open Vectors in
theorem assignments_accounted_polled :
    (polled blake3 isSocketAddr polledCalls).length = 1 ∧
      (issued blake3 isSocketAddr polledCalls).length =
        (polled blake3 isSocketAddr polledCalls).length + queuedCount afterPoll.assignments +
          afterPoll.expiredRoutes := by
  refine ⟨by decide +kernel, (assignments_accounted_iff (run_calls.snoc _)).mpr ?_⟩
  intro event hevent relayId hreport
  have hnone : ∀ event ∈ polledCalls, event.operation ≠ .reportRelayFailure relayId := by
    simp [polledCalls, calls]
  exact absurd hreport (hnone event hevent)

open Vectors in
/-- One assignment was issued. It has not been polled, is not queued, and is not counted. -/
theorem reported_assignment_not_accounted :
    Run blake3 isSocketAddr started reportedCalls afterReport ∧
      (issued blake3 isSocketAddr reportedCalls).length = 1 ∧
      (polled blake3 isSocketAddr reportedCalls).length = 0 ∧
      queuedCount afterReport.assignments = 0 ∧ afterReport.expiredRoutes = 0 :=
  ⟨run_calls.snoc _, by decide +kernel, by decide +kernel, by decide +kernel, by decide +kernel⟩

end TripTorrent

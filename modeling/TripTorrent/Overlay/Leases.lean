import TripTorrent.Leasing.Log
import TripTorrent.Overlay.Rendezvous
import TripTorrent.Overlay.Renewal

/-!
# Leases and the log of calls

What the registry says about a peer or a relay should be a function of the calls that were made:
there is a lease as long as the term of its most recent renewal runs, and it carries the
advertisement registered last. The tables keep less than the log, and they are brought up to date by
whatever call comes next, as long as times do not go back.

A registration that fails its own checks is refused before the tables are purged, so what has
expired can stay in the maps after it. No call with a time sees the difference, as each of them
purges before it reads.
-/

namespace TripTorrent

open Leasing (Entry Lease Purged Refines Table expiry leaseAt)

/-! ## The log -/

section Log

variable (blake3 : List UInt8 → Digest) (isSocketAddr : String → Bool)

/-- What a call is to the leases of peers. A poll renews as a heartbeat does. -/
def Event.peerEntries (event : Event) : List (Entry PeerId PeerAdvertisement) :=
  match event.operation, event.reply blake3 isSocketAddr with
  | .registerPeer now advertisement, .registration (.ok ()) =>
    [.grant now advertisement.peerId advertisement]
  | .heartbeatPeer now peerId, _ | .pollPeer now peerId, _ => [.renew now peerId]
  | _, _ => []

/-- What a call is to the leases of relays. -/
def Event.relayEntries (event : Event) : List (Entry String RelayAdvertisement) :=
  match event.operation, event.reply blake3 isSocketAddr with
  | .registerRelay now advertisement, .registration (.ok ()) =>
    [.grant now advertisement.relayId advertisement]
  | .heartbeatRelay now relayId, _ => [.renew now relayId]
  | .reportRelayFailure relayId, _ => [.revoke relayId]
  | _, _ => []

def peerLog (events : List Event) : List (Entry PeerId PeerAdvertisement) :=
  events.flatMap (Event.peerEntries blake3 isSocketAddr)

def relayLog (events : List Event) : List (Entry String RelayAdvertisement) :=
  events.flatMap (Event.relayEntries blake3 isSocketAddr)

/-- The times of the calls that have one. -/
def times (events : List Event) : List ℕ := events.filterMap fun event ↦ event.operation.time?

/-- The call purges: it has a time, and if it is a registration it passes the checks that come
first. -/
def Event.Purges (event : Event) : Prop :=
  match event.operation with
  | .registerPeer _ advertisement => validatePeer blake3 event.before.limits advertisement = .ok ()
  | .registerRelay _ advertisement => Registry.validateRelay isSocketAddr advertisement = .ok ()
  | .reportRelayFailure _ => False
  | _ => True

end Log

section Concat

variable {blake3 : List UInt8 → Digest} {isSocketAddr : String → Bool}

theorem peerLog_concat (events : List Event) (event : Event) :
    peerLog blake3 isSocketAddr (events ++ [event]) =
      peerLog blake3 isSocketAddr events ++ event.peerEntries blake3 isSocketAddr := by
  rw [peerLog, peerLog, List.flatMap_append, List.flatMap_singleton]

theorem relayLog_concat (events : List Event) (event : Event) :
    relayLog blake3 isSocketAddr (events ++ [event]) =
      relayLog blake3 isSocketAddr events ++ event.relayEntries blake3 isSocketAddr := by
  rw [relayLog, relayLog, List.flatMap_append, List.flatMap_singleton]

theorem times_concat (events : List Event) (event : Event) :
    times (events ++ [event]) = times events ++ event.operation.time?.toList := by
  rw [times, times, List.filterMap_append]
  rcases htime : event.operation.time? with _ | now
  · simp [htime]
  · simp [htime]

/-- The last call is made at the latest time. -/
theorem le_of_mem_times_concat {events : List Event} {event : Event} {now : ℕ}
    (htime : event.operation.time? = some now)
    (hsorted : (times (events ++ [event])).Pairwise (· ≤ ·)) :
    ∀ time ∈ times (events ++ [event]), time ≤ now := by
  rw [times_concat, htime] at hsorted ⊢
  intro time hmem
  rcases List.mem_append.mp hmem with hmem | hmem
  · exact (List.pairwise_append.mp hsorted).2.2 time hmem now List.mem_cons_self
  · exact (List.mem_singleton.mp hmem).le

/-- Only a registration grants a lease to a relay. -/
theorem eq_registerRelay_of_grant_mem {event : Event} {now : ℕ} {relayId : String}
    {advertisement : RelayAdvertisement}
    (h : .grant now relayId advertisement ∈ event.relayEntries blake3 isSocketAddr) :
    event.operation = .registerRelay now advertisement := by
  rw [Event.relayEntries] at h
  split at h
  · next time registered hoperation _ =>
    obtain ⟨rfl, -, rfl⟩ := Entry.grant.inj (List.mem_singleton.mp h)
    exact hoperation
  all_goals simp at h

end Concat

/-! ## One call -/

namespace Registry

/-- What a call can make of the leases, with what it adds to the logs. If it purges, nothing is left
that has expired, unless the clock has stopped. -/
structure Steps (now : ℕ) (purges : Prop) (peerEntries : List (Entry PeerId PeerAdvertisement))
    (relayEntries : List (Entry String RelayAdvertisement)) (r r' : Registry) : Prop where
  leaseMs_eq : r'.leaseMs = r.leaseMs
  peers : Leasing.Step r.leaseMs now r.peers peerEntries r'.peers
  relays : Leasing.Step r.leaseMs now r.relays relayEntries r'.relays
  purged : purges → now < expiry r.leaseMs now → Purged now r'.peers ∧ Purged now r'.relays

section Steps

variable {blake3 : List UInt8 → Digest} {isSocketAddr : String → Bool} {r r' r'' : Registry}
  {now : ℕ} {purges : Prop} {peerEntries : List (Entry PeerId PeerAdvertisement)}
  {relayEntries : List (Entry String RelayAdvertisement)}

theorem steps_refl (r : Registry) (now : ℕ) (h : ¬purges) : r.Steps now purges [] [] r :=
  ⟨rfl, .keep, .keep, fun hpurges ↦ absurd hpurges h⟩

theorem steps_purge (r : Registry) (now : ℕ) : r.Steps now purges [] [] (r.purge now) :=
  ⟨rfl, .purge, .purge, fun _ _ ↦ ⟨.of_purge _ _, .of_purge _ _⟩⟩

theorem Steps.of_sameLeases (h : r.Steps now purges peerEntries relayEntries r')
    (hsame : r'.SameLeases r'') : r.Steps now purges peerEntries relayEntries r'' :=
  ⟨hsame.leaseMs_eq.trans h.leaseMs_eq, hsame.peers_eq ▸ h.peers, hsame.relays_eq ▸ h.relays,
    hsame.peers_eq ▸ hsame.relays_eq ▸ h.purged⟩

theorem steps_registerPeer (r : Registry) (now : ℕ) (advertisement : PeerAdvertisement) :
    r.Steps now (validatePeer blake3 r.limits advertisement = .ok ())
      (Event.peerEntries blake3 isSocketAddr ⟨r, .registerPeer now advertisement⟩) []
      (r.registerPeer blake3 now advertisement).1 := by
  rcases r.registerPeer_cases blake3 now advertisement with
    ⟨error, hvalid, heq⟩ | ⟨-, ⟨-, heq⟩ | ⟨-, heq⟩⟩
  · simp only [Event.peerEntries, Event.reply, exec, heq, Prod.map_snd]
    exact r.steps_refl now (by rw [hvalid]; simp)
  · simp only [Event.peerEntries, Event.reply, exec, heq, Prod.map_snd]
    exact r.steps_purge now
  · simp only [Event.peerEntries, Event.reply, exec, heq, Prod.map_snd]
    exact ⟨rfl, .grant .., .purge,
      fun _ hclock ↦ ⟨.grant (.of_purge _ _) hclock _ _, .of_purge _ _⟩⟩

theorem steps_heartbeatPeer (r : Registry) (now : ℕ) (peerId : PeerId) :
    r.Steps now purges [.renew now peerId] [] (r.heartbeatPeer now peerId).1 := by
  rcases r.heartbeatPeer_cases now peerId with ⟨hpeer, heq⟩ | ⟨hpeer, heq⟩
  · rw [heq]
    exact ⟨rfl, .miss hpeer, .purge, fun _ _ ↦ ⟨.of_purge _ _, .of_purge _ _⟩⟩
  · rw [heq]
    exact ⟨rfl, .renew hpeer, .purge,
      fun _ hclock ↦ ⟨.renew (.of_purge _ _) hclock _, .of_purge _ _⟩⟩

theorem steps_registerRelay (r : Registry) (now : ℕ) (advertisement : RelayAdvertisement) :
    r.Steps now (validateRelay isSocketAddr advertisement = .ok ()) []
      (Event.relayEntries blake3 isSocketAddr ⟨r, .registerRelay now advertisement⟩)
      (r.registerRelay isSocketAddr now advertisement).1 := by
  rcases r.registerRelay_cases isSocketAddr now advertisement with
    ⟨error, hvalid, heq⟩ | ⟨-, ⟨-, heq⟩ | ⟨-, heq⟩⟩
  · simp only [Event.relayEntries, Event.reply, exec, heq, Prod.map_snd]
    exact r.steps_refl now (by rw [hvalid]; simp)
  · simp only [Event.relayEntries, Event.reply, exec, heq, Prod.map_snd]
    exact r.steps_purge now
  · simp only [Event.relayEntries, Event.reply, exec, heq, Prod.map_snd]
    exact ⟨rfl, .purge, .grant ..,
      fun _ hclock ↦ ⟨.of_purge _ _, .grant (.of_purge _ _) hclock _ _⟩⟩

theorem steps_heartbeatRelay (r : Registry) (now : ℕ) (relayId : String) :
    r.Steps now purges [] [.renew now relayId] (r.heartbeatRelay now relayId).1 := by
  rcases r.heartbeatRelay_cases now relayId with ⟨hrelay, heq⟩ | ⟨hrelay, heq⟩
  · rw [heq]
    exact ⟨rfl, .purge, .miss hrelay, fun _ _ ↦ ⟨.of_purge _ _, .of_purge _ _⟩⟩
  · rw [heq]
    exact ⟨rfl, .purge, .renew hrelay,
      fun _ hclock ↦ ⟨.of_purge _ _, .renew (.of_purge _ _) hclock _⟩⟩

/-- The tables after a discovery are the purged ones. -/
theorem sameLeases_discover (r : Registry) (now : ℕ) (contentId : ContentId) :
    (r.purge now).SameLeases (r.discover now contentId).1 := by
  rcases r.discover_cases now contentId with heq | ⟨provider, -, relay, -, heq⟩
  · rw [heq]
    exact .refl _
  · rw [heq]
    exact sameLeases_queueAssignment ..

theorem sameLeases_discoverProviders (r : Registry) (now : ℕ) (contentId : ContentId) (limit : ℕ) :
    (r.purge now).SameLeases (r.discoverProviders now contentId limit).1 := by
  rcases r.discoverProviders_cases now contentId limit with heq | ⟨providers, -, heq⟩
  · rw [heq]
    exact .refl _
  · rw [heq]
    exact sameLeases_queueAssignments ..

theorem steps_exec (blake3 : List UInt8 → Digest) (isSocketAddr : String → Bool) (r : Registry)
    (operation : Operation) (htime : ∀ time ∈ operation.time?, time = now) :
    r.Steps now (Event.Purges blake3 isSocketAddr ⟨r, operation⟩)
      (Event.peerEntries blake3 isSocketAddr ⟨r, operation⟩)
      (Event.relayEntries blake3 isSocketAddr ⟨r, operation⟩)
      (r.exec blake3 isSocketAddr operation).1 := by
  cases operation with
  | registerPeer time advertisement =>
    obtain rfl := htime time rfl
    exact r.steps_registerPeer time advertisement
  | heartbeatPeer time peerId =>
    obtain rfl := htime time rfl
    exact r.steps_heartbeatPeer time peerId
  | registerRelay time advertisement =>
    obtain rfl := htime time rfl
    exact r.steps_registerRelay time advertisement
  | heartbeatRelay time relayId =>
    obtain rfl := htime time rfl
    exact r.steps_heartbeatRelay time relayId
  | discover time contentId =>
    obtain rfl := htime time rfl
    exact (r.steps_purge time).of_sameLeases (r.sameLeases_discover time contentId)
  | discoverProviders time contentId limit =>
    obtain rfl := htime time rfl
    exact (r.steps_purge time).of_sameLeases (r.sameLeases_discoverProviders time contentId limit)
  | pollPeer time peerId =>
    obtain rfl := htime time rfl
    exact (r.steps_heartbeatPeer time peerId).of_sameLeases (r.sameLeases_pollPeer time peerId)
  | reportRelayFailure relayId => exact ⟨rfl, .keep, .revoke relayId, False.elim⟩
  | snapshot time =>
    obtain rfl := htime time rfl
    exact r.steps_purge time

end Steps

end Registry

/-! ## What an assignment joins -/

/-- The assignment names the provider and the relay by what they advertise. -/
structure RouteAssignment.Joins (provider : PeerAdvertisement) (relay : RelayAdvertisement)
    (assignment : RouteAssignment) : Prop where
  providerId_eq : assignment.providerId = provider.peerId
  providerPublicKey_eq : assignment.providerPublicKey = provider.publicKey
  relayId_eq : assignment.relayId = relay.relayId
  relayAddress_eq : assignment.relayAddress = relay.address

namespace Registry

theorem joins_queueAssignment {r : Registry} {now : ℕ} {provider : PeerAdvertisement}
    {relay : RelayAdvertisement} {routePrefix : String} {assignment : RouteAssignment}
    (h : (r.queueAssignment now provider relay routePrefix).2 = some assignment) :
    assignment.Joins provider relay := by
  rw [queueAssignment] at h
  dsimp only at h
  split_ifs at h
  obtain rfl := Option.some.inj h
  exact ⟨rfl, rfl, rfl, rfl⟩

theorem exists_joins_queueAssignments {now : ℕ} {relays : List RelayAdvertisement} {r : Registry}
    {providers : List (PeerAdvertisement × ℕ)} {assignment : RouteAssignment}
    (h : assignment ∈ (queueAssignments now relays r providers).2) :
    ∃ entry ∈ providers, ∃ relay ∈ relays, assignment.Joins entry.1 relay := by
  induction providers generalizing r with
  | nil => cases h
  | cons entry providers ih =>
    obtain ⟨provider, index⟩ := entry
    rw [queueAssignments] at h
    rcases hrelay : relays[index % relays.length]? with _ | relay
    · rw [hrelay] at h
      cases h
    · rw [hrelay] at h
      rcases List.mem_append.mp h with hfirst | hrest
      · exact ⟨_, List.mem_cons_self, relay, List.mem_of_getElem? hrelay,
          joins_queueAssignment (Option.mem_toList.mp hfirst)⟩
      · obtain ⟨entry, hentry, hjoins⟩ := ih hrest
        exact ⟨entry, List.mem_cons_of_mem _ hentry, hjoins⟩

/-- Only discoveries issue assignments, and they join a provider and a relay of the purged
tables. -/
theorem exists_joins_exec {blake3 : List UInt8 → Digest} {isSocketAddr : String → Bool}
    {r : Registry} {operation : Operation} {now : ℕ} {assignment : RouteAssignment}
    (htime : operation.time? = some now)
    (h : assignment ∈ (r.exec blake3 isSocketAddr operation).2.issued) :
    (r.purge now).SameLeases (r.exec blake3 isSocketAddr operation).1 ∧
      ∃ provider ∈ (r.purge now).peers.advertisements,
        ∃ relay ∈ (r.purge now).relays.advertisements, assignment.Joins provider relay := by
  cases operation with
  | discover time contentId =>
    obtain rfl := Option.some.inj htime
    refine ⟨r.sameLeases_discover time contentId, ?_⟩
    rcases r.discover_cases time contentId with heq | ⟨provider, hprovider, relay, hrelay, heq⟩
    · change assignment ∈ (r.discover time contentId).2.toList at h
      rw [heq] at h
      cases h
    · change assignment ∈ (r.discover time contentId).2.toList at h
      rw [heq, Option.mem_toList] at h
      exact ⟨provider, hprovider, relay, hrelay, joins_queueAssignment h⟩
  | discoverProviders time contentId limit =>
    obtain rfl := Option.some.inj htime
    refine ⟨r.sameLeases_discoverProviders time contentId limit, ?_⟩
    change assignment ∈ (r.discoverProviders time contentId limit).2 at h
    rcases r.discoverProviders_cases time contentId limit with heq | ⟨providers, hproviders, heq⟩
    · rw [heq] at h
      cases h
    · rw [heq] at h
      obtain ⟨entry, hentry, relay, hrelay, hjoins⟩ := exists_joins_queueAssignments h
      exact ⟨entry.1, hproviders entry hentry, relay, hrelay, hjoins⟩
  | _ => cases h

namespace Valid

variable {blake3 : List UInt8 → Digest} {limits : RegistryLimits} {r : Registry}

/-- Purging leaves the provider and the relay of every assignment that is issued. -/
theorem leases_of_issued {isSocketAddr : String → Bool} {operation : Operation} {now : ℕ}
    {assignment : RouteAssignment} (h : r.Valid blake3 limits)
    (htime : operation.time? = some now)
    (hassignment : assignment ∈ (r.exec blake3 isSocketAddr operation).2.issued) :
    (∃ lease, ((r.exec blake3 isSocketAddr operation).1.purge now).peers[assignment.providerId]? =
        some lease ∧ lease.advertisement.publicKey = assignment.providerPublicKey) ∧
      ∃ lease, ((r.exec blake3 isSocketAddr operation).1.purge now).relays[assignment.relayId]? =
        some lease ∧ lease.advertisement.address = assignment.relayAddress := by
  obtain ⟨hsame, provider, hprovider, relay, hrelay, hjoins⟩ := exists_joins_exec htime hassignment
  obtain ⟨lease, hlease, rfl⟩ := (h.purge now).exists_peer hprovider
  obtain ⟨lease', hlease', rfl⟩ := (h.purge now).exists_relay hrelay
  -- a discovery leaves the purged tables, and purging them again changes nothing
  have hpeers : ((r.exec blake3 isSocketAddr operation).1.purge now).peers =
      (r.purge now).peers := by
    change Table.purge now (r.exec blake3 isSocketAddr operation).1.peers = _
    rw [hsame.peers_eq]
    exact (Purged.of_purge now r.peers).purge_eq
  have hrelays : ((r.exec blake3 isSocketAddr operation).1.purge now).relays =
      (r.purge now).relays := by
    change Table.purge now (r.exec blake3 isSocketAddr operation).1.relays = _
    rw [hsame.relays_eq]
    exact (Purged.of_purge now r.relays).purge_eq
  rw [hpeers, hrelays, hjoins.providerId_eq, hjoins.relayId_eq]
  exact ⟨⟨lease, hlease, hjoins.providerPublicKey_eq.symm⟩,
    ⟨lease', hlease', hjoins.relayAddress_eq.symm⟩⟩

end Valid

end Registry

/-! ## Runs -/

section Runs

open Registry

variable {blake3 : List UInt8 → Digest} {isSocketAddr : String → Bool} {limits : RegistryLimits}
  {leaseMs now : ℕ} {start r : Registry} {events : List Event} {event : Event}

/-- The last call of a run. -/
theorem Run.of_concat (h : Run blake3 isSocketAddr start (events ++ [event]) r) :
    Run blake3 isSocketAddr start events event.before ∧
      r = (event.before.exec blake3 isSocketAddr event.operation).1 := by
  generalize hall : events ++ [event] = all at h
  cases h with
  | nil => simp at hall
  | snoc h operation =>
    obtain ⟨rfl, hlast⟩ := List.append_inj' hall rfl
    obtain rfl := (List.cons.inj hlast).1
    exact ⟨h, rfl⟩

/-- The tables refine the logs at the time of the last call and later. -/
theorem Run.refines (h : Run blake3 isSocketAddr (withLimits leaseMs limits) events r)
    (hsorted : (times events).Pairwise (· ≤ ·)) (hnow : ∀ time ∈ times events, time ≤ now) :
    r.leaseMs = max leaseMs 1 ∧
      Refines (max leaseMs 1) now (peerLog blake3 isSocketAddr events) r.peers ∧
      Refines (max leaseMs 1) now (relayLog blake3 isSocketAddr events) r.relays := by
  induction h generalizing now with
  | nil => exact ⟨rfl, Leasing.refines_empty _ _, Leasing.refines_empty _ _⟩
  | @snoc events r _ operation ih =>
    rw [times_concat, List.pairwise_append] at hsorted
    rw [times_concat] at hnow
    -- a call without a time counts as made at the present
    obtain ⟨time, htime, hbefore, hle⟩ : ∃ time, (∀ t ∈ operation.time?, t = time) ∧
        (∀ t ∈ times events, t ≤ time) ∧ time ≤ now := by
      rcases htime : operation.time? with _ | time
      · exact ⟨now, by simp, fun t ht ↦ hnow t (List.mem_append_left _ ht), le_rfl⟩
      · refine ⟨time, by simp, fun t ht ↦ hsorted.2.2 t ht time ?_, hnow time ?_⟩
        · simp [htime]
        · simp [htime]
    obtain ⟨hlease, hpeers, hrelays⟩ := ih hsorted.1 hbefore
    have hsteps := r.steps_exec blake3 isSocketAddr operation htime
    rw [peerLog_concat, relayLog_concat]
    exact ⟨hsteps.leaseMs_eq.trans hlease, (hpeers.step le_rfl (hlease ▸ hsteps.peers)).mono hle,
      (hrelays.step le_rfl (hlease ▸ hsteps.relays)).mono hle⟩

/-- **Leases.** In a run whose times do not go back, consider the registry after a call at `now`.
What purging at `now` leaves of its tables is what the logs say: a peer has a lease as long as the
term of its most recent renewal runs, with the advertisement registered last, and so has a relay
unless it was reported since. If the call was not refused before purging, and the clock has not
stopped, these are the tables as they are. Every assignment that the call issues joins a provider
and a relay that have a lease in this sense. -/
theorem leases_refine_log
    (h : Run blake3 isSocketAddr (withLimits leaseMs limits) (events ++ [event]) r)
    (htime : event.operation.time? = some now)
    (hsorted : (times (events ++ [event])).Pairwise (· ≤ ·)) :
    (∀ peerId, (r.purge now).peers[peerId]? =
        leaseAt (max leaseMs 1) (peerLog blake3 isSocketAddr (events ++ [event])) peerId now) ∧
      (∀ relayId, (r.purge now).relays[relayId]? =
        leaseAt (max leaseMs 1) (relayLog blake3 isSocketAddr (events ++ [event])) relayId now) ∧
      (event.Purges blake3 isSocketAddr → now < 2 ^ 64 - 1 →
        (r.purge now).peers = r.peers ∧ (r.purge now).relays = r.relays) ∧
      ∀ assignment ∈ (event.reply blake3 isSocketAddr).issued,
        (∃ lease, leaseAt (max leaseMs 1) (peerLog blake3 isSocketAddr (events ++ [event]))
            assignment.providerId now = some lease ∧
          lease.advertisement.publicKey = assignment.providerPublicKey) ∧
        ∃ lease, leaseAt (max leaseMs 1) (relayLog blake3 isSocketAddr (events ++ [event]))
            assignment.relayId now = some lease ∧
          lease.advertisement.address = assignment.relayAddress := by
  obtain ⟨hbefore, rfl⟩ := h.of_concat
  obtain ⟨hlease, hpeers, hrelays⟩ := h.refines hsorted (le_of_mem_times_concat htime hsorted)
  refine ⟨hpeers now le_rfl, hrelays now le_rfl, fun hpurges hclock ↦ ?_, fun assignment hmem ↦ ?_⟩
  · have hlast : ∀ time ∈ event.operation.time?, time = now := by simp [htime]
    have hsteps := event.before.steps_exec blake3 isSocketAddr event.operation hlast
    rw [hsteps.leaseMs_eq] at hlease
    have hexpiry : now < expiry event.before.leaseMs now := by
      rw [hlease, expiry]
      omega
    obtain ⟨hpurged, hpurged'⟩ := hsteps.purged hpurges hexpiry
    exact ⟨hpurged.purge_eq, hpurged'.purge_eq⟩
  · rw [← hpeers now le_rfl, ← hrelays now le_rfl]
    exact hbefore.valid.leases_of_issued htime hmem

end Runs

open Vectors in
theorem leases_refine_log_discovered :
    (Event.reply blake3 isSocketAddr ⟨withRelay, .discover 10 ⟨contentDigest⟩⟩).issued.length = 1 ∧
      ∀ assignment ∈ (Event.reply blake3 isSocketAddr
          ⟨withRelay, .discover 10 ⟨contentDigest⟩⟩).issued,
        ∃ lease, leaseAt 30000 (peerLog blake3 isSocketAddr calls) assignment.providerId 10 =
            some lease ∧
          lease.advertisement.publicKey = assignment.providerPublicKey := by
  have hrun : Run blake3 isSocketAddr started
      (calls.take 2 ++ [⟨withRelay, .discover 10 ⟨contentDigest⟩⟩]) discovered := run_calls
  have hlog := leases_refine_log hrun rfl (by decide)
  exact ⟨by decide +kernel, fun assignment hmem ↦ (hlog.2.2.2 assignment hmem).1⟩

/-! A registration without content is refused when the lease of the published peer has run out. -/

namespace Vectors

def refusedCalls : List Event :=
  [⟨started, .registerPeer 0 peerAdvertisement⟩,
    ⟨withPeer, .registerPeer 30000 { peerAdvertisement with contentIds := [] }⟩]

def afterRefusal : Registry :=
  (withPeer.exec blake3 isSocketAddr
    (.registerPeer 30000 { peerAdvertisement with contentIds := [] })).1

end Vectors

open Vectors in
/-- The peer is in the map after the call at 30000, and the term of its only renewal, at 0, has run
out. -/
theorem expired_peer_kept_by_refusal :
    Run blake3 isSocketAddr started refusedCalls afterRefusal ∧
      (times refusedCalls).Pairwise (· ≤ ·) ∧
      afterRefusal.peers.contains ⟨peerDigest⟩ = true ∧
      leaseAt 30000 (peerLog blake3 isSocketAddr refusedCalls) ⟨peerDigest⟩ 30000 = none :=
  ⟨.snoc (.snoc .nil _) _, by decide, by decide +kernel, by decide +kernel⟩

end TripTorrent

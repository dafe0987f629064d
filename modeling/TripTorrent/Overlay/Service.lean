import TripTorrent.Overlay.Invariant

/-!
# The bootstrap service

Every accepted connection is served by a thread of its own, up to a bound. The thread reads the
clock when it starts, then waits for one request frame, handles the request while it holds the
registry and sends the response. So requests are handled in an order that has nothing to do with the
times they are handled at.

A connection is modelled as far as the registry is concerned: what `read_frame` returned is given,
and a thread can end at any point after it has started, as reads and writes can fail or time out. No
thread panics while it holds the registry, so its lock is never poisoned. What is left of a run of
the service is a run of the registry, whose invariant holds here as well (`Serves.exists_run`).
-/

namespace TripTorrent

/-- `OverlayError`, as far as the service meets it. -/
inductive OverlayError where
  | protocol (error : ProtocolError)
  | connectionClosed
deriving DecidableEq

/-- `MAX_CONTROL_CONNECTIONS` -/
def maxControlConnections : ℕ := 256

section External

variable (blake3 : List UInt8 → Digest) (isSocketAddr : String → Bool)

/-! ## One connection -/

def handleRequest (r : Registry) (now : ℕ) : OverlayRequest → Registry × OverlayResponse
  | .registerPeer peer =>
    let (r, outcome) := r.registerPeer blake3 now peer
    (r, match outcome with
      | .ok () => .registered (.ofNat r.leaseMs)
      | .error error => .error error.message)
  | .heartbeatPeer peerId =>
    let (r, registered) := r.heartbeatPeer now peerId
    (r, if registered then .registered (.ofNat r.leaseMs)
      else .error "peer lease is not registered")
  | .pollPeer peerId =>
    -- the lease is renewed here, and once more by `poll_peer`
    let (r, registered) := r.heartbeatPeer now peerId
    if registered then (r.pollPeer now peerId).map id .assignment
    else (r, .error "peer lease is not registered")
  | .registerRelay relay =>
    let (r, outcome) := r.registerRelay isSocketAddr now relay
    (r, match outcome with
      | .ok () => .registered (.ofNat r.leaseMs)
      | .error error => .error error.message)
  | .heartbeatRelay relayId =>
    let (r, registered) := r.heartbeatRelay now relayId
    (r, if registered then .registered (.ofNat r.leaseMs)
      else .error "relay lease is not registered")
  | .discover contentId => (r.discover now contentId).map id .route
  | .discoverProviders contentId limit =>
    (r.discoverProviders now contentId (min limit.toNat 16)).map id .routes
  | .reportRelayFailure relayId => (r.reportRelayFailure relayId, .acknowledged)
  | .health => (r, .acknowledged)

/-- What a connection makes of the registry, and the response frame, from the time its thread
started and the frame it read. -/
def handleConnection (r : Registry) (now : ℕ) (frame? : Option (List UInt8)) :
    Registry × Except OverlayError (List UInt8) :=
  match frame? with
  | none => (r, .error .connectionClosed)
  | some frame =>
    match decodeOverlayRequest blake3 isSocketAddr frame with
    | .error error => (r, .error (.protocol error))
    | .ok request =>
      let (r, response) := handleRequest blake3 isSocketAddr r now request
      -- the snapshot is taken for the log, and purges
      let (r, _) := r.snapshot now
      (r, (encodeOverlayResponse isSocketAddr response).mapError .protocol)

/-- The request in a frame, with the time it is handled at. -/
def handled (now : ℕ) (frame? : Option (List UInt8)) : List (ℕ × OverlayRequest) :=
  match frame? with
  | none => []
  | some frame =>
    match decodeOverlayRequest blake3 isSocketAddr frame with
    | .error _ => []
    | .ok request => [(now, request)]

/-! ## All connections -/

/-- The thread of a connection. -/
inductive Handler where
  | spawned
  | reading (now : ℕ)
  | replying (outcome : Except OverlayError (List UInt8))
deriving DecidableEq

structure Service where
  registry : Registry
  /-- The milliseconds since the epoch of the service. -/
  clock : ℕ
  /-- The threads that count as active. -/
  handlers : List Handler

namespace Service

def start (leaseMs : ℕ) : Service where
  registry := .new leaseMs
  clock := 0
  handlers := []

def elapsedMs (s : Service) : ℕ := min s.clock (2 ^ 64 - 1)

/-- The thread has read what it got, and the registry is updated in one step. -/
def receive (s : Service) (i now : ℕ) (frame? : Option (List UInt8)) : Service :=
  let (registry, outcome) := handleConnection blake3 isSocketAddr s.registry now frame?
  { s with registry, handlers := s.handlers.set i (.replying outcome) }

/-- One step of the service, with the request it handles, if any. -/
inductive Step : Service → List (ℕ × OverlayRequest) → Service → Prop
  | elapse {s : Service} {clock : ℕ} (h : s.clock ≤ clock) : Step s [] { s with clock }
  | accept {s : Service} (h : s.handlers.length < maxControlConnections) :
    Step s [] { s with handlers := s.handlers ++ [.spawned] }
  | sample {s : Service} {i : ℕ} (h : s.handlers[i]? = some .spawned) :
    Step s [] { s with handlers := s.handlers.set i (.reading s.elapsedMs) }
  | receive {s : Service} {i now : ℕ} (h : s.handlers[i]? = some (.reading now))
    (frame? : Option (List UInt8)) :
    Step s (handled blake3 isSocketAddr now frame?) (s.receive blake3 isSocketAddr i now frame?)
  | finish {s : Service} {i : ℕ} {handler : Handler} (h : s.handlers[i]? = some handler)
    (hstarted : handler ≠ .spawned) : Step s [] { s with handlers := s.handlers.eraseIdx i }

end Service

/-- The service has handled these requests, in this order, since it was started. -/
inductive Serves (leaseMs : ℕ) : List (ℕ × OverlayRequest) → Service → Prop
  | start : Serves leaseMs [] (.start leaseMs)
  | step {history requests : List (ℕ × OverlayRequest)} {s s' : Service}
    (h : Serves leaseMs history s) (hstep : s.Step blake3 isSocketAddr requests s') :
    Serves leaseMs (history ++ requests) s'

end External

/-- A thread that has read a good frame handles its request. -/
theorem Service.step_receive {blake3 : List UInt8 → Digest} {isSocketAddr : String → Bool}
    {s : Service} {i now : ℕ} {frame : List UInt8} {request : OverlayRequest}
    (h : s.handlers[i]? = some (.reading now))
    (hframe : decodeOverlayRequest blake3 isSocketAddr frame = .ok request) :
    s.Step blake3 isSocketAddr [(now, request)]
      (s.receive blake3 isSocketAddr i now (some frame)) := by
  have hhandled : handled blake3 isSocketAddr now (some frame) = [(now, request)] := by
    unfold handled
    dsimp only
    rw [hframe]
  exact hhandled ▸ .receive h (some frame)

/-! ## Runs of the registry -/

section Runs

variable {blake3 : List UInt8 → Digest} {isSocketAddr : String → Bool} {start r : Registry}
  {events : List Event} {leaseMs : ℕ} {history : List (ℕ × OverlayRequest)} {s : Service}

theorem Run.exists_handleRequest (h : Run blake3 isSocketAddr start events r) (now : ℕ)
    (request : OverlayRequest) :
    ∃ events, Run blake3 isSocketAddr start events
      (handleRequest blake3 isSocketAddr r now request).1 := by
  rcases request with peer | peerId | peerId | relay | relayId | contentId | ⟨contentId, limit⟩ |
    relayId | _
  · exact ⟨_, h.snoc (.registerPeer now peer)⟩
  · exact ⟨_, h.snoc (.heartbeatPeer now peerId)⟩
  · have hbeat := h.snoc (.heartbeatPeer now peerId)
    rw [handleRequest]
    simp only
    split_ifs
    · exact ⟨_, hbeat.snoc (.pollPeer now peerId)⟩
    · exact ⟨_, hbeat⟩
  · exact ⟨_, h.snoc (.registerRelay now relay)⟩
  · exact ⟨_, h.snoc (.heartbeatRelay now relayId)⟩
  · exact ⟨_, h.snoc (.discover now contentId)⟩
  · exact ⟨_, h.snoc (.discoverProviders now contentId (min limit.toNat 16))⟩
  · exact ⟨_, h.snoc (.reportRelayFailure relayId)⟩
  · exact ⟨_, h⟩

theorem Run.exists_handleConnection (h : Run blake3 isSocketAddr start events r) (now : ℕ)
    (frame? : Option (List UInt8)) :
    ∃ events, Run blake3 isSocketAddr start events
      (handleConnection blake3 isSocketAddr r now frame?).1 := by
  unfold handleConnection
  rcases frame? with _ | frame
  · exact ⟨_, h⟩
  · dsimp only
    rcases decodeOverlayRequest blake3 isSocketAddr frame with error | request
    · exact ⟨_, h⟩
    · obtain ⟨events, hrequest⟩ := h.exists_handleRequest now request
      exact ⟨_, hrequest.snoc (.snapshot now)⟩

/-- Whatever the threads do, the registry of the service has gone through a run of its own. -/
theorem Serves.exists_run (h : Serves blake3 isSocketAddr leaseMs history s) :
    ∃ events, Run blake3 isSocketAddr (.withLimits leaseMs {}) events s.registry := by
  induction h with
  | start => exact ⟨[], .nil⟩
  | step _ hstep ih =>
    obtain ⟨events, hrun⟩ := ih
    cases hstep with
    | receive _ frame? => exact hrun.exists_handleConnection _ frame?
    | _ => exact ⟨events, hrun⟩

theorem Serves.valid (h : Serves blake3 isSocketAddr leaseMs history s) :
    s.registry.Valid blake3 {} :=
  h.exists_run.elim fun _ hrun ↦ hrun.valid

end Runs

end TripTorrent

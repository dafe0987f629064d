import TripTorrent.Protocol.RoundTrip

/-!
# The client of the bootstrap service

Every method of the client sends one request and interprets the response: one kind of response is
what the method is for, an error is passed on, and anything else is unexpected.

The connection is a function from the frame that is sent to the frame that comes back, if one does;
errors of the transport itself are not modelled. The methods are collected in `call`, which takes
the request and returns what the method for it returns.
-/

namespace TripTorrent

/-- `OverlayError`, as far as the client meets it. -/
inductive ClientError where
  | protocol (error : ProtocolError)
  | remote (text : String)
  | connectionClosed
  | unexpectedResponse
deriving DecidableEq

namespace BootstrapClient

/-! ## Responses -/

/-- The response has to be of one kind. -/
def expect {α : Type} (kind : OverlayResponse → Option α) (response : OverlayResponse) :
    Except ClientError α :=
  match kind response with
  | some value => .ok value
  | none =>
    match response with
    | .error text => .error (.remote text)
    | _ => .error .unexpectedResponse

def expectRegistered : OverlayResponse → Except ClientError UInt64 :=
  expect fun | .registered leaseMs => some leaseMs | _ => none

/-- The `match` of `poll_peer`. -/
def expectAssignment : OverlayResponse → Except ClientError (Option RouteAssignment) :=
  expect fun | .assignment assignment => some assignment | _ => none

/-- The `match` of `discover`. -/
def expectRoute : OverlayResponse → Except ClientError (Option RouteAssignment) :=
  expect fun | .route route => some route | _ => none

/-- The `match` of `discover_providers`. -/
def expectRoutes : OverlayResponse → Except ClientError (List RouteAssignment) :=
  expect fun | .routes routes => some routes | _ => none

/-- The `match` of `report_relay_failure` and `health`. -/
def expectAcknowledged : OverlayResponse → Except ClientError Unit :=
  expect fun | .acknowledged => some () | _ => none

/-! ## Methods -/

section Methods

variable (blake3 : List UInt8 → Digest) (isSocketAddr : String → Bool)
  (exchange : List UInt8 → Option (List UInt8))

def request (request : OverlayRequest) : Except ClientError OverlayResponse :=
  match encodeOverlayRequest blake3 isSocketAddr request with
  | .error error => .error (.protocol error)
  | .ok encoded =>
    match exchange encoded with
    | none => .error .connectionClosed
    | some response => (decodeOverlayResponse isSocketAddr response).mapError .protocol

def registerPeer (peer : PeerAdvertisement) : Except ClientError UInt64 := do
  expectRegistered (← request blake3 isSocketAddr exchange (.registerPeer peer))

def registerRelay (relay : RelayAdvertisement) : Except ClientError UInt64 := do
  expectRegistered (← request blake3 isSocketAddr exchange (.registerRelay relay))

def heartbeatPeer (peerId : PeerId) : Except ClientError UInt64 := do
  expectRegistered (← request blake3 isSocketAddr exchange (.heartbeatPeer peerId))

def heartbeatRelay (relayId : String) : Except ClientError UInt64 := do
  expectRegistered (← request blake3 isSocketAddr exchange (.heartbeatRelay relayId))

def pollPeer (peerId : PeerId) : Except ClientError (Option RouteAssignment) := do
  expectAssignment (← request blake3 isSocketAddr exchange (.pollPeer peerId))

def discover (contentId : ContentId) : Except ClientError (Option RouteAssignment) := do
  expectRoute (← request blake3 isSocketAddr exchange (.discover contentId))

def discoverProviders (contentId : ContentId) (limit : UInt16) :
    Except ClientError (List RouteAssignment) := do
  expectRoutes (← request blake3 isSocketAddr exchange (.discoverProviders contentId limit))

def reportRelayFailure (relayId : String) : Except ClientError Unit := do
  expectAcknowledged (← request blake3 isSocketAddr exchange (.reportRelayFailure relayId))

def health : Except ClientError Unit := do
  expectAcknowledged (← request blake3 isSocketAddr exchange .health)

/-- What a method returns. -/
inductive Result where
  | lease (leaseMs : UInt64)
  | assignment (value : Option RouteAssignment)
  | route (value : Option RouteAssignment)
  | routes (values : List RouteAssignment)
  | done
deriving DecidableEq

/-- The method for a request. -/
def call : OverlayRequest → Except ClientError Result
  | .registerPeer peer => (registerPeer blake3 isSocketAddr exchange peer).map .lease
  | .heartbeatPeer peerId => (heartbeatPeer blake3 isSocketAddr exchange peerId).map .lease
  | .pollPeer peerId => (pollPeer blake3 isSocketAddr exchange peerId).map .assignment
  | .registerRelay relay => (registerRelay blake3 isSocketAddr exchange relay).map .lease
  | .heartbeatRelay relayId => (heartbeatRelay blake3 isSocketAddr exchange relayId).map .lease
  | .discover contentId => (discover blake3 isSocketAddr exchange contentId).map .route
  | .discoverProviders contentId limit =>
    (discoverProviders blake3 isSocketAddr exchange contentId limit).map .routes
  | .reportRelayFailure relayId =>
    (reportRelayFailure blake3 isSocketAddr exchange relayId).map fun _ ↦ .done
  | .health => (health blake3 isSocketAddr exchange).map fun _ ↦ .done

end Methods

/-- What the method for a request makes of the response. -/
def interpret : OverlayRequest → OverlayResponse → Except ClientError Result
  | .registerPeer _, response | .heartbeatPeer _, response | .registerRelay _, response
  | .heartbeatRelay _, response => (expectRegistered response).map .lease
  | .pollPeer _, response => (expectAssignment response).map .assignment
  | .discover _, response => (expectRoute response).map .route
  | .discoverProviders _ _, response => (expectRoutes response).map .routes
  | .reportRelayFailure _, response | .health, response =>
    (expectAcknowledged response).map fun _ ↦ .done

section Calls

variable {blake3 : List UInt8 → Digest} {isSocketAddr : String → Bool}
  {exchange : List UInt8 → Option (List UInt8)} {q : OverlayRequest} {response : OverlayResponse}
  {frame bytes : List UInt8}

/-- A method whose request is answered by a good frame interprets the response in it. -/
theorem call_eq (hframe : encodeOverlayRequest blake3 isSocketAddr q = .ok frame)
    (hexchange : exchange frame = some bytes)
    (hbytes : decodeOverlayResponse isSocketAddr bytes = .ok response) :
    call blake3 isSocketAddr exchange q = interpret q response := by
  have hrequest : request blake3 isSocketAddr exchange q = .ok response := by
    rw [request, hframe]
    dsimp only
    rw [hexchange]
    dsimp only
    rw [hbytes]
    rfl
  rcases q with peer | peerId | peerId | relay | relayId | contentId | ⟨contentId, limit⟩ |
    relayId | _
  · rw [call, registerPeer, hrequest]
    rfl
  · rw [call, heartbeatPeer, hrequest]
    rfl
  · rw [call, pollPeer, hrequest]
    rfl
  · rw [call, registerRelay, hrequest]
    rfl
  · rw [call, heartbeatRelay, hrequest]
    rfl
  · rw [call, discover, hrequest]
    rfl
  · rw [call, discoverProviders, hrequest]
    rfl
  · rw [call, reportRelayFailure, hrequest]
    rfl
  · rw [call, health, hrequest]
    rfl

/-- Every method passes an error on. -/
theorem interpret_error (q : OverlayRequest) (text : String) :
    interpret q (.error text) = .error (.remote text) := by
  cases q with
  | _ => rfl

end Calls

end BootstrapClient

end TripTorrent

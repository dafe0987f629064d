import TripTorrent.Codec.Outcome
import TripTorrent.Protocol.Message
import TripTorrent.Relay.Framing

/-!
# Relay registration

The first frame on a connection to a relay registers it for a route. The client transport builds the
record and the relay parses it, each with its own magic, limits and alphabet of routes, and the
parser with offsets computed by hand.

The two agree on everything but the empty route: the client refuses to send it and the relay accepts
it. What the parser accepts is therefore stated first as a layout (`registrationBytes`), and both
sides are compared with that.
-/

namespace TripTorrent

open Codec (beBytes ofBeBytes range? utf8 ofUtf8?)

/-- `Role` of the relay, `RelayRole` of the client. -/
inductive RelayRole where
  | sender
  | receiver
deriving DecidableEq

def RelayRole.wireByte : RelayRole → UInt8
  | .sender => 0
  | .receiver => 1

/-! ## The client -/

namespace Net

inductive NetError where
  | io (error : IoError)
  | invalidRoute
  | invalidNetwork
deriving DecidableEq

/-- `REGISTRATION_MAGIC` -/
def registrationMagic : List UInt8 := [84, 84, 82, 49]

def validateRoute (route : String) : Except NetError Unit :=
  if (utf8 route).isEmpty ∨ 128 < (utf8 route).length ∨
      ¬(utf8 route).all fun byte ↦ isAsciiAlphanumeric byte || byte == 45 || byte == 95 then
    .error .invalidRoute
  else .ok ()

/-- `try_from` of a length to a word of `bits` bits. -/
def tryFrom (bits length : ℕ) (error : NetError) : Except NetError ℕ :=
  if length < 2 ^ bits then .ok length else .error error

/-- The record that `register` builds. -/
def registration (route : String) (role : RelayRole) : Except NetError (List UInt8) := do
  validateRoute route
  let networkLength ← tryFrom 8 (utf8 networkId).length .invalidNetwork
  let routeLength ← tryFrom 16 (utf8 route).length .invalidRoute
  .ok (registrationMagic ++ beBytes 2 protocolVersion.toNat ++ [.ofNat networkLength] ++
    utf8 networkId ++ [role.wireByte] ++ beBytes 2 routeLength ++ utf8 route)

/-- What `TcpRelayTransport::register` writes to a new connection. -/
def register (route : String) (role : RelayRole) : Except NetError (List UInt8) := do
  let registration ← registration route role
  (writeFrame [] registration).mapError .io

end Net

/-! ## The relay -/

namespace Relay

/-- `REGISTRATION_MAGIC` -/
def registrationMagic : List UInt8 := [84, 84, 82, 49]

/-- `MAX_ROUTE_LENGTH` -/
def maxRouteLength : ℕ := 128

abbrev invalidData {α : Type} (message : String) : Except IoError α :=
  .error ⟨.invalidData, message⟩

/-- `usize::checked_add` -/
def checkedAdd (a b : ℕ) (message : String) : Except IoError ℕ :=
  if a + b < 2 ^ 64 then .ok (a + b) else invalidData message

/-- `Option::ok_or_else` -/
def okOr {α : Type} (value? : Option α) (message : String) : Except IoError α :=
  match value? with
  | some value => .ok value
  | none => invalidData message

def parseRole : Option UInt8 → Except IoError RelayRole
  | some 0 => .ok .sender
  | some 1 => .ok .receiver
  | _ => invalidData "invalid role"

/-- The alphabet and the length of routes. There is no lower bound. -/
def routeAllowed (route : List UInt8) : Bool :=
  route.length ≤ maxRouteLength &&
    route.all fun byte ↦ isAsciiAlphanumeric byte || byte == 45 || byte == 95

def parseRegistration (frame : List UInt8) : Except IoError (String × RelayRole) :=
  if frame.length < 10 ∨ frame.take 4 ≠ registrationMagic then
    invalidData "invalid relay registration"
  else if ofBeBytes [frame.getD 4 0, frame.getD 5 0] ≠ protocolVersion.toNat then
    invalidData "unsupported relay protocol version"
  else do
    let networkEnd ← checkedAdd 7 (frame.getD 6 0).toNat "invalid network length"
    if range? frame 7 networkEnd ≠ some (utf8 networkId) then invalidData "wrong relay network"
    else
      let role ← parseRole frame[networkEnd]?
      let lengthStart := networkEnd + 1
      let lengthBytes ← okOr (range? frame lengthStart (lengthStart + 2)) "missing route length"
      let routeStart := lengthStart + 2
      let routeEnd ← checkedAdd routeStart (ofBeBytes lengthBytes) "invalid route length"
      if routeEnd ≠ frame.length then invalidData "relay registration length mismatch"
      else
        let bytes := (frame.drop routeStart).take (routeEnd - routeStart)
        let route ← okOr (ofUtf8? bytes) "route is not UTF-8"
        if ¬routeAllowed (utf8 route) then invalidData "invalid relay route"
        else .ok (route, role)

/-- `read_registration`, on what has arrived on the connection. -/
def readRegistration (stream : List UInt8) : Except IoError (String × RelayRole) := do
  match ← readFrame stream with
  | none => .error ⟨.unexpectedEof, "missing relay registration"⟩
  | some (frame, _) => parseRegistration frame

end Relay

/-! ## The layout -/

/-- Everything in front of the role. -/
def registrationHeader : List UInt8 :=
  [84, 84, 82, 49, 0, 1, 21] ++ utf8 networkId

/-- The record for a route given by its bytes. -/
def registrationBytes (route : List UInt8) (role : RelayRole) : List UInt8 :=
  registrationHeader ++ role.wireByte :: (beBytes 2 route.length ++ route)

theorem utf8_networkId : utf8 networkId =
    [116, 114, 105, 112, 116, 111, 114, 114, 101, 110, 116, 45, 116, 101, 115, 116, 110, 101, 116,
      45, 49] := by
  decide

theorem length_registrationHeader : registrationHeader.length = 28 := by
  rw [registrationHeader, utf8_networkId]
  rfl

theorem validateRoute_eq_ok_iff {route : String} :
    Net.validateRoute route = .ok () ↔ utf8 route ≠ [] ∧ Relay.routeAllowed (utf8 route) := by
  rw [Net.validateRoute, Relay.routeAllowed, Relay.maxRouteLength, Bool.and_eq_true,
    decide_eq_true_eq]
  constructor
  · intro h
    split_ifs at h with hinvalid
    rw [List.isEmpty_iff, not_or, not_or, not_lt, not_not] at hinvalid
    exact hinvalid
  · rintro ⟨hne, hle, hall⟩
    rw [if_neg]
    rw [List.isEmpty_iff, not_or, not_or, not_lt, not_not]
    exact ⟨hne, hle, hall⟩

theorem length_lt_of_routeAllowed {route : List UInt8} (h : Relay.routeAllowed route = true) :
    route.length < 2 ^ 16 := by
  rw [Relay.routeAllowed, Bool.and_eq_true, decide_eq_true_eq, Relay.maxRouteLength] at h
  omega

/-- The client sends the layout, for the routes it accepts. -/
theorem registration_eq_ok_iff {route : String} {role : RelayRole} {frame : List UInt8} :
    Net.registration route role = .ok frame ↔
      (utf8 route ≠ [] ∧ Relay.routeAllowed (utf8 route)) ∧
        frame = registrationBytes (utf8 route) role := by
  have hnetwork : (utf8 networkId).length < 2 ^ 8 := by rw [utf8_networkId]; decide
  have hlayout : Net.registrationMagic ++ beBytes 2 protocolVersion.toNat ++
      [UInt8.ofNat (utf8 networkId).length] ++ utf8 networkId ++ [role.wireByte] ++
      beBytes 2 (utf8 route).length ++ utf8 route = registrationBytes (utf8 route) role := by
    have hversion : beBytes 2 protocolVersion.toNat = [0, 1] := by decide
    rw [registrationBytes, registrationHeader, hversion, utf8_networkId, Net.registrationMagic]
    simp
  have hframe : Relay.routeAllowed (utf8 route) = true → (do
      let networkLength ← Net.tryFrom 8 (utf8 networkId).length .invalidNetwork
      let routeLength ← Net.tryFrom 16 (utf8 route).length .invalidRoute
      .ok (Net.registrationMagic ++ beBytes 2 protocolVersion.toNat ++ [.ofNat networkLength] ++
        utf8 networkId ++ [role.wireByte] ++ beBytes 2 routeLength ++ utf8 route)) =
      Except.ok (registrationBytes (utf8 route) role) := by
    intro hroute
    rw [Net.tryFrom, if_pos hnetwork, Net.tryFrom, if_pos (length_lt_of_routeAllowed hroute)]
    exact congrArg Except.ok hlayout
  rw [Net.registration, Outcome.bind_eq_ok_iff]
  constructor
  · rintro ⟨⟨⟩, hvalid, h⟩
    have hroute := validateRoute_eq_ok_iff.mp hvalid
    exact ⟨hroute, Except.ok.inj (h.symm.trans (hframe hroute.2))⟩
  · rintro ⟨hroute, rfl⟩
    exact ⟨(), validateRoute_eq_ok_iff.mpr hroute, hframe hroute.2⟩

namespace Relay

theorem checkedAdd_eq_ok_iff {a b c : ℕ} {message : String} :
    checkedAdd a b message = .ok c ↔ a + b < 2 ^ 64 ∧ c = a + b := by
  rw [checkedAdd]
  constructor
  · intro h
    split_ifs at h with hlt
    exact ⟨hlt, (Except.ok.inj h).symm⟩
  · rintro ⟨hlt, rfl⟩
    rw [if_pos hlt]

theorem okOr_eq_ok_iff {α : Type} {value? : Option α} {value : α} {message : String} :
    okOr value? message = .ok value ↔ value? = some value := by
  rcases value? with _ | a
  · simp [okOr, invalidData]
  · simp [okOr]

theorem parseRole_eq_ok_iff {byte? : Option UInt8} {role : RelayRole} :
    parseRole byte? = .ok role ↔ byte? = some role.wireByte := by
  rw [parseRole.eq_def]
  split
  · cases role <;> simp [RelayRole.wireByte]
  · cases role <;> simp [RelayRole.wireByte]
  · rename_i h0 h1
    constructor
    · intro h
      cases h
    · rintro rfl
      cases role
      · exact absurd rfl h0
      · exact absurd rfl h1

/-- The checks in front of the role accept exactly the header. -/
theorem header_of_checks {frame : List UInt8} {networkEnd : ℕ}
    (hmagic : frame.take 4 = registrationMagic)
    (hversion : ofBeBytes [frame.getD 4 0, frame.getD 5 0] = protocolVersion.toNat)
    (hend : networkEnd = 7 + (frame.getD 6 0).toNat)
    (hnetwork : range? frame 7 networkEnd = some (utf8 networkId)) :
    networkEnd = 28 ∧ ∃ tail, frame = registrationHeader ++ tail := by
  obtain ⟨a, tail, rfl, hlen, hsum⟩ := Codec.range?_eq_some_iff.mp hnetwork
  -- the seven bytes in front of the network, one by one
  obtain ⟨a0, a1, a2, a3, a4, a5, a6, rfl⟩ :
      ∃ a0 a1 a2 a3 a4 a5 a6, a = [a0, a1, a2, a3, a4, a5, a6] := by
    match a, hlen with
    | [a0, a1, a2, a3, a4, a5, a6], _ => exact ⟨a0, a1, a2, a3, a4, a5, a6, rfl⟩
  rw [utf8_networkId, List.length_cons] at hsum
  have hword : [a4, a5] = [0, 1] := by
    have hbytes := Codec.beBytes_ofBeBytes [a4, a5]
    change ofBeBytes [a4, a5] = 1 at hversion
    rw [hversion] at hbytes
    exact hbytes.symm
  have hnet : a6 = 21 := by
    change networkEnd = 7 + a6.toNat at hend
    apply UInt8.toNat_inj.mp
    simp only [List.length_cons, List.length_nil] at hsum
    change a6.toNat = 21
    omega
  refine ⟨by simp only [List.length_cons, List.length_nil] at hsum; omega, tail, ?_⟩
  simp only [List.cons_append, List.take_succ_cons, List.take_zero, registrationMagic,
    List.cons.injEq] at hmagic hword
  obtain ⟨rfl, rfl, rfl, rfl, -⟩ := hmagic
  obtain ⟨rfl, rfl, -⟩ := hword
  rw [registrationHeader, hnet]

theorem checks_of_header (tail : List UInt8) :
    (registrationHeader ++ tail).take 4 = registrationMagic ∧
      ofBeBytes [(registrationHeader ++ tail).getD 4 0, (registrationHeader ++ tail).getD 5 0] =
        protocolVersion.toNat ∧
      ((registrationHeader ++ tail).getD 6 0).toNat = 21 ∧
      range? (registrationHeader ++ tail) 7 28 = some (utf8 networkId) := by
  refine ⟨rfl, ?_, rfl,
    Codec.range?_eq_some_iff.mpr ⟨[84, 84, 82, 49, 0, 1, 21], tail, rfl, rfl, ?_⟩⟩
  · change ofBeBytes [0, 1] = 1
    decide
  · rw [utf8_networkId]
    rfl

/-- The fields behind the header, taken at their offsets, make up the layout. -/
theorem layout_of_fields {tail word : List UInt8} {route : String} {role : RelayRole}
    (hrole : (registrationHeader ++ tail)[28]? = some role.wireByte)
    (hword : range? (registrationHeader ++ tail) 29 31 = some word)
    (hlength : 31 + ofBeBytes word = (registrationHeader ++ tail).length)
    (hutf8 : ofUtf8? (((registrationHeader ++ tail).drop 31).take
      (31 + ofBeBytes word - 31)) = some route) :
    registrationHeader ++ tail = registrationBytes (utf8 route) role := by
  have hheader := length_registrationHeader
  obtain ⟨a, rest, hframe, ha, hword2⟩ := Codec.range?_eq_some_iff.mp hword
  have hroute : rest = utf8 route := by
    rw [hframe, List.length_append, List.length_append] at hlength
    rw [hframe, List.drop_left' (by rw [List.length_append]; omega),
      List.take_of_length_le (by omega)] at hutf8
    exact Codec.ofUtf8?_eq_some_iff.mp hutf8
  have hbytes : beBytes 2 (utf8 route).length = word := by
    have hrest : (utf8 route).length = ofBeBytes word := by
      rw [hframe, List.length_append, List.length_append, hroute] at hlength
      omega
    rw [hrest, show 2 = word.length by omega, Codec.beBytes_ofBeBytes]
  rw [List.getElem?_append_right (by omega), hheader, Nat.sub_self] at hrole
  obtain ⟨tail, rfl⟩ : ∃ t, tail = role.wireByte :: t := by
    rcases tail with _ | ⟨byte, tail⟩
    · cases hrole
    · exact ⟨tail, by rw [← Option.some.inj hrole]⟩
  have hsplit : (registrationHeader ++ [role.wireByte]) ++ tail = a ++ (word ++ rest) := by
    rw [← List.append_assoc, ← hframe, List.append_assoc]
    rfl
  obtain ⟨-, htail⟩ := List.append_inj hsplit (by rw [List.length_append, hheader, ha]; rfl)
  rw [registrationBytes, hbytes, htail, hroute]

/-- The layout has its fields at the offsets the parser computes. -/
theorem fields_of_layout (route : String) (role : RelayRole) (hlt : (utf8 route).length < 2 ^ 16) :
    (registrationBytes (utf8 route) role)[28]? = some role.wireByte ∧
      range? (registrationBytes (utf8 route) role) 29 31 =
        some (beBytes 2 (utf8 route).length) ∧
      31 + (utf8 route).length = (registrationBytes (utf8 route) role).length ∧
      (registrationBytes (utf8 route) role).drop 31 = utf8 route := by
  have hheader := length_registrationHeader
  have hword : (beBytes 2 (utf8 route).length).length = 2 := Codec.length_beBytes (by omega)
  have hsplit : registrationBytes (utf8 route) role =
      registrationHeader ++ [role.wireByte] ++ beBytes 2 (utf8 route).length ++ utf8 route := by
    rw [registrationBytes, List.append_cons, List.append_assoc, List.append_assoc,
      List.append_assoc]
  refine ⟨?_, ?_, ?_, ?_⟩
  · rw [registrationBytes, List.getElem?_append_right (by omega), hheader]
    rfl
  · refine Codec.range?_eq_some_iff.mpr ⟨_, _, hsplit, ?_, ?_⟩
    · rw [List.length_append, hheader]
      rfl
    · omega
  · rw [hsplit, List.length_append, List.length_append, List.length_append, hheader, hword]
    rfl
  · rw [hsplit]
    apply List.drop_left'
    rw [List.length_append, List.length_append, hheader, hword]
    rfl

/-- **What the relay accepts.** A frame is parsed exactly when it is the layout of a route of at
most 128 allowed characters; the route may be empty. -/
theorem parseRegistration_eq_ok_iff {frame : List UInt8} {route : String} {role : RelayRole} :
    parseRegistration frame = .ok (route, role) ↔
      routeAllowed (utf8 route) ∧ frame = registrationBytes (utf8 route) role := by
  rw [parseRegistration]
  constructor
  · intro h
    split_ifs at h with hmagic hversion
    rw [not_or, not_lt, not_not] at hmagic
    rw [not_not] at hversion
    obtain ⟨networkEnd, hend, h⟩ := Outcome.bind_eq_ok_iff.mp h
    obtain ⟨-, hend⟩ := checkedAdd_eq_ok_iff.mp hend
    split_ifs at h with hnetwork
    obtain ⟨rfl, tail, rfl⟩ := header_of_checks hmagic.2 hversion hend (not_not.mp hnetwork)
    obtain ⟨role', hrole, h⟩ := Outcome.bind_eq_ok_iff.mp h
    obtain ⟨word, hword, h⟩ := Outcome.bind_eq_ok_iff.mp h
    obtain ⟨routeEnd, hroute, h⟩ := Outcome.bind_eq_ok_iff.mp h
    obtain ⟨-, rfl⟩ := checkedAdd_eq_ok_iff.mp hroute
    split_ifs at h with hlength
    obtain ⟨route', hutf8, h⟩ := Outcome.bind_eq_ok_iff.mp h
    split_ifs at h with hallowed
    obtain ⟨rfl, rfl⟩ := Prod.mk.inj (Except.ok.inj h)
    refine ⟨hallowed, ?_⟩
    exact layout_of_fields (parseRole_eq_ok_iff.mp hrole) (okOr_eq_ok_iff.mp hword)
      (not_not.mp hlength) (okOr_eq_ok_iff.mp hutf8)
  · rintro ⟨hallowed, rfl⟩
    have hlt := length_lt_of_routeAllowed hallowed
    obtain ⟨hrole, hword, hlength, hroute⟩ := fields_of_layout route role hlt
    obtain ⟨hmagic, hversion, hnet, hnetwork⟩ := checks_of_header
      (role.wireByte :: (beBytes 2 (utf8 route).length ++ utf8 route))
    rw [← registrationBytes] at hmagic hversion hnet hnetwork
    rw [if_neg (by rw [not_or, not_lt, not_not]; exact ⟨by omega, hmagic⟩),
      if_neg (not_not.mpr hversion), hnet]
    refine Outcome.bind_eq_ok_iff.mpr ⟨28, checkedAdd_eq_ok_iff.mpr ⟨by decide, rfl⟩, ?_⟩
    rw [if_neg (not_not.mpr hnetwork)]
    refine Outcome.bind_eq_ok_iff.mpr ⟨role, parseRole_eq_ok_iff.mpr hrole, ?_⟩
    refine Outcome.bind_eq_ok_iff.mpr ⟨_, okOr_eq_ok_iff.mpr hword, ?_⟩
    rw [Codec.ofBeBytes_beBytes (by omega)]
    refine Outcome.bind_eq_ok_iff.mpr ⟨_, checkedAdd_eq_ok_iff.mpr ⟨by omega, rfl⟩, ?_⟩
    rw [if_neg (not_not.mpr hlength), hroute, List.take_of_length_le (by omega)]
    refine Outcome.bind_eq_ok_iff.mpr
      ⟨route, okOr_eq_ok_iff.mpr (Codec.ofUtf8?_eq_some_iff.mpr rfl), ?_⟩
    rw [if_neg (not_not.mpr hallowed)]

end Relay

/-! ## Agreement -/

/-- **The relay accepts exactly what the client sends, except for the empty route.** A frame is
parsed to a route and a role if and only if it is the record the client builds for them, precisely
when it is not one of the two records whose route length is zero. -/
theorem parseRegistration_iff_registration_iff (frame : List UInt8) :
    (∀ route role, Relay.parseRegistration frame = .ok (route, role) ↔
      Net.registration route role = .ok frame) ↔
        ∀ role : RelayRole, frame ≠ registrationHeader ++ [role.wireByte, 0, 0] := by
  have hempty (role : RelayRole) :
      registrationHeader ++ [role.wireByte, 0, 0] = registrationBytes (utf8 "") role := rfl
  constructor
  · rintro h role rfl
    rw [hempty] at h
    have hallowed : Relay.routeAllowed (utf8 "") = true := by decide
    have hparse := (h "" role).mp (Relay.parseRegistration_eq_ok_iff.mpr ⟨hallowed, rfl⟩)
    exact (registration_eq_ok_iff.mp hparse).1.1 rfl
  · intro h route role
    rw [Relay.parseRegistration_eq_ok_iff, registration_eq_ok_iff, and_assoc]
    refine (and_iff_right_of_imp ?_).symm
    rintro ⟨-, hframe⟩ hnil
    rw [hnil] at hframe
    exact h role hframe

/-- The relay accepts a registration with an empty route, which no client sends. -/
theorem parseRegistration_empty_route :
    Relay.parseRegistration (registrationHeader ++ [0, 0, 0]) = .ok ("", .sender) ∧
      Net.registration "" .sender = .error .invalidRoute ∧
      ∀ route role, Net.registration route role ≠ .ok (registrationHeader ++ [0, 0, 0]) := by
  have hparse : Relay.parseRegistration (registrationHeader ++ [0, 0, 0]) = .ok ("", .sender) :=
    Relay.parseRegistration_eq_ok_iff.mpr ⟨by decide, rfl⟩
  refine ⟨hparse, rfl, fun route role h ↦ ?_⟩
  obtain ⟨⟨hne, hallowed⟩, hframe⟩ := registration_eq_ok_iff.mp h
  rw [Relay.parseRegistration_eq_ok_iff.mpr ⟨hallowed, hframe⟩] at hparse
  obtain ⟨rfl, -⟩ := Prod.mk.inj (Except.ok.inj hparse)
  exact hne rfl

end TripTorrent

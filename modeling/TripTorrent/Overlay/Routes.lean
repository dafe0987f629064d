import TripTorrent.Overlay.Rendezvous
import TripTorrent.Relay.Registration

/-!
# Route names

Two parties meet at a relay by the name of their route, so a name that is used twice would pair
strangers. Names are a prefix for the kind of discovery and a counter in sixteen hexadecimal digits.
The counter is advanced exactly when an assignment is issued, whatever the discovery, and wraps
around after 2^64 of them.

The numbering is stated as a relation between the counter before, the assignments issued in between
and the counter after, so that it composes along a run.
-/

namespace TripTorrent

open Codec (utf8 utf8_append utf8_ofList)

/-! ## Names -/

/-- The prefixes of the two kinds of discovery. -/
def routePrefixes : List String := ["m2", "m4"]

def routeName (routePrefix : String) (n : UInt64) : String := routePrefix ++ "-" ++ hex16 n

section Names

variable {routePrefix routePrefix' : String} {m n : UInt64}

/-- A number is known from its lowest digits if it has no others. -/
theorem eq_of_forall_hexDigit {k a b : ℕ} (ha : a < 16 ^ k) (hb : b < 16 ^ k)
    (h : ∀ i < k, a / 16 ^ i % 16 = b / 16 ^ i % 16) : a = b := by
  have hmod : a % 16 ^ k = b % 16 ^ k := by
    clear ha hb
    induction k with
    | zero => simp [Nat.mod_one]
    | succ k ih =>
      rw [Nat.mod_pow_succ, Nat.mod_pow_succ, ih fun i hi ↦ h i (by omega), h k (by omega)]
  rwa [Nat.mod_eq_of_lt ha, Nat.mod_eq_of_lt hb] at hmod

theorem digitChar_inj {a b : ℕ} (ha : a < 16) (hb : b < 16)
    (h : Nat.digitChar a = Nat.digitChar b) : a = b := by
  have hall : ∀ a ∈ List.range 16, ∀ b ∈ List.range 16,
      Nat.digitChar a = Nat.digitChar b → a = b := by decide
  exact hall a (List.mem_range.mpr ha) b (List.mem_range.mpr hb) h

theorem hex16_injective : Function.Injective hex16 := by
  intro m n h
  rw [hex16, hex16, String.ofList_inj, List.map_inj_left] at h
  refine UInt64.toNat_inj.mp (eq_of_forall_hexDigit (k := 16) m.toNat_lt n.toNat_lt fun i hi ↦ ?_)
  exact digitChar_inj (Nat.mod_lt _ (by decide)) (Nat.mod_lt _ (by decide))
    (h i (List.mem_reverse.mpr (List.mem_range.mpr hi)))

/-- The number can be read off a name, as all prefixes have the same length. -/
theorem eq_of_routeName_eq (hkind : routePrefix ∈ routePrefixes)
    (hkind' : routePrefix' ∈ routePrefixes)
    (h : routeName routePrefix m = routeName routePrefix' n) : m = n := by
  have hlength : ∀ s ∈ routePrefixes, s.toList.length = 2 := by decide
  rw [routeName, routeName, ← String.toList_inj, String.toList_append, String.toList_append,
    String.toList_append, String.toList_append] at h
  obtain ⟨-, hhex⟩ := List.append_inj h (by
    rw [List.length_append, List.length_append, hlength _ hkind, hlength _ hkind'])
  exact hex16_injective (String.toList_inj.mp hhex)

/-- A name has nineteen bytes, all of the alphabet of routes. -/
theorem routeAllowed_routeName (hkind : routePrefix ∈ routePrefixes) (n : UInt64) :
    utf8 (routeName routePrefix n) ≠ [] ∧
      Relay.routeAllowed (utf8 (routeName routePrefix n)) = true := by
  have hstart : ∀ s ∈ routePrefixes, (utf8 (s ++ "-")).length = 3 ∧
      (utf8 (s ++ "-")).all (fun byte ↦ isAsciiAlphanumeric byte || byte == 45 || byte == 95) =
        true := by decide
  have hdigit : ∀ d ∈ List.range 16, ∃ byte, String.utf8EncodeChar (Nat.digitChar d) = [byte] ∧
      isAsciiAlphanumeric byte = true := by
    intro d hd
    have hall : ∀ d ∈ List.range 16, (String.utf8EncodeChar (Nat.digitChar d)).length = 1 ∧
        (String.utf8EncodeChar (Nat.digitChar d)).all isAsciiAlphanumeric = true := by decide
    obtain ⟨hone, halnum⟩ := hall d hd
    obtain ⟨byte, hbyte⟩ := List.length_eq_one_iff.mp hone
    rw [hbyte] at halnum
    exact ⟨byte, hbyte, by simpa using halnum⟩
  -- each of the digits is one byte
  have hdigits (l : List ℕ) :
      (utf8 (String.ofList (l.map fun i ↦ Nat.digitChar (n.toNat / 16 ^ i % 16)))).length =
          l.length ∧
        (utf8 (String.ofList (l.map fun i ↦ Nat.digitChar (n.toNat / 16 ^ i % 16)))).all
          (fun byte ↦ isAsciiAlphanumeric byte || byte == 45 || byte == 95) = true := by
    rw [utf8_ofList]
    induction l with
    | nil => exact ⟨rfl, rfl⟩
    | cons i l ih =>
      obtain ⟨byte, hbyte, halnum⟩ :=
        hdigit (n.toNat / 16 ^ i % 16) (List.mem_range.mpr (Nat.mod_lt _ (by decide)))
      rw [List.map_cons, List.flatMap_cons, hbyte, List.singleton_append, List.length_cons,
        List.all_cons, ih.1, ih.2, halnum]
      exact ⟨rfl, rfl⟩
  obtain ⟨hlength, hall⟩ := hstart routePrefix hkind
  obtain ⟨hlength', hall'⟩ := hdigits (List.range 16).reverse
  rw [List.length_reverse, List.length_range] at hlength'
  have htotal : (utf8 (routeName routePrefix n)).length = 19 := by
    rw [routeName, utf8_append, List.length_append, hlength, hex16, hlength']
  constructor
  · rintro hnil
    rw [hnil] at htotal
    cases htotal
  · rw [Relay.routeAllowed, htotal, routeName, utf8_append, List.all_append, hall, hex16, hall']
    rfl

theorem validIdentifier_routeName (hkind : routePrefix ∈ routePrefixes) (n : UInt64) :
    validIdentifier (routeName routePrefix n) 128 = true := by
  obtain ⟨hne, hallowed⟩ := routeAllowed_routeName hkind n
  rw [Relay.routeAllowed, Relay.maxRouteLength, Bool.and_eq_true] at hallowed
  rw [validIdentifier, hallowed.1, hallowed.2, List.isEmpty_eq_false_iff.mpr hne]
  rfl

end Names

/-! ## Numbering -/

/-- The assignments are named by the numbers that follow `n`, up to `m`. -/
inductive Numbered : UInt64 → List RouteAssignment → UInt64 → Prop
  | nil (n : UInt64) : Numbered n [] n
  | cons {n m : UInt64} {assignment : RouteAssignment} {assignments : List RouteAssignment}
    {routePrefix : String} (hkind : routePrefix ∈ routePrefixes)
    (hroute : assignment.route = routeName routePrefix (n + 1))
    (h : Numbered (n + 1) assignments m) : Numbered n (assignment :: assignments) m

namespace Numbered

variable {l m n : UInt64} {assignments assignments' : List RouteAssignment}

theorem append (h : Numbered l assignments m) (h' : Numbered m assignments' n) :
    Numbered l (assignments ++ assignments') n := by
  induction h with
  | nil => exact h'
  | cons hkind hroute _ ih => exact .cons hkind hroute (ih h')

/-- The name of an assignment is given by its place. -/
theorem exists_route (h : Numbered n assignments m) {k : ℕ} {assignment : RouteAssignment}
    (hk : assignments[k]? = some assignment) : ∃ routePrefix ∈ routePrefixes,
      assignment.route = routeName routePrefix (n + .ofNat (k + 1)) := by
  induction h generalizing k with
  | nil => simp at hk
  | @cons n _ first rest routePrefix hkind hroute _ ih =>
    cases k with
    | zero =>
      obtain rfl : first = assignment := by simpa using hk
      exact ⟨routePrefix, hkind, hroute⟩
    | succ k =>
      obtain ⟨other, hother, hname⟩ := ih (by simpa using hk)
      refine ⟨other, hother, hname.trans ?_⟩
      rw [UInt64.ofNat_add (k + 1) 1, add_comm (UInt64.ofNat (k + 1)), ← add_assoc]
      rfl

theorem validIdentifier_route (h : Numbered n assignments m) {assignment : RouteAssignment}
    (hassignment : assignment ∈ assignments) : validIdentifier assignment.route 128 = true := by
  obtain ⟨k, hk⟩ := List.mem_iff_getElem?.mp hassignment
  obtain ⟨routePrefix, hkind, hroute⟩ := h.exists_route hk
  rw [hroute]
  exact validIdentifier_routeName hkind _

/-- Fewer than 2^64 assignments have different names. -/
theorem nodup (h : Numbered n assignments m) (hlength : assignments.length < 2 ^ 64) :
    (assignments.map RouteAssignment.route).Nodup := by
  rw [List.nodup_iff_getElem?_ne_getElem?]
  intro i j hij hj heq
  rw [List.length_map] at hj
  obtain ⟨a, ha⟩ : ∃ a, assignments[i]? = some a := ⟨_, List.getElem?_eq_getElem (hij.trans hj)⟩
  obtain ⟨b, hb⟩ : ∃ b, assignments[j]? = some b := ⟨_, List.getElem?_eq_getElem hj⟩
  obtain ⟨routePrefix, hkind, hroute⟩ := h.exists_route ha
  obtain ⟨routePrefix', hkind', hroute'⟩ := h.exists_route hb
  rw [List.getElem?_map, List.getElem?_map, ha, hb, Option.map_some, Option.map_some, hroute,
    hroute'] at heq
  have hnumber := add_left_cancel (eq_of_routeName_eq hkind hkind' (Option.some.inj heq))
  have hsame := congrArg UInt64.toNat hnumber
  rw [UInt64.toNat_ofNat_of_lt' (show i + 1 < 2 ^ 64 by omega),
    UInt64.toNat_ofNat_of_lt' (show j + 1 < 2 ^ 64 by omega)] at hsame
  omega

end Numbered

namespace Registry

theorem numbered_queueAssignment (r : Registry) (now : ℕ) (provider : PeerAdvertisement)
    (relay : RelayAdvertisement) {routePrefix : String} (hkind : routePrefix ∈ routePrefixes) :
    Numbered r.nextRoute (r.queueAssignment now provider relay routePrefix).2.toList
      (r.queueAssignment now provider relay routePrefix).1.nextRoute := by
  rw [queueAssignment]
  dsimp only
  split_ifs
  · exact .nil _
  · exact .cons hkind rfl (.nil _)

theorem numbered_queueAssignments (now : ℕ) (relays : List RelayAdvertisement) (r : Registry)
    (providers : List (PeerAdvertisement × ℕ)) :
    Numbered r.nextRoute (queueAssignments now relays r providers).2
      (queueAssignments now relays r providers).1.nextRoute := by
  induction providers generalizing r with
  | nil => exact .nil _
  | cons entry providers ih =>
    obtain ⟨provider, index⟩ := entry
    rw [queueAssignments]
    rcases relays[index % relays.length]? with _ | relay
    · exact .nil _
    · exact (r.numbered_queueAssignment now provider relay (by decide)).append (ih _)

/-- A call that issues nothing leaves the counter alone. -/
theorem numbered_of_nextRoute_eq {r r' : Registry} {reply : Reply} (hreply : reply.issued = [])
    (h : r'.nextRoute = r.nextRoute) : Numbered r.nextRoute reply.issued r'.nextRoute := by
  rw [hreply, h]
  exact .nil _

theorem nextRoute_of_isQuiet {blake3 : List UInt8 → Digest} {isSocketAddr : String → Bool}
    {r : Registry} {operation : Operation} (hquiet : operation.isQuiet = true) :
    (r.exec blake3 isSocketAddr operation).1.nextRoute = r.nextRoute := by
  rcases r.sameQueues_exec blake3 isSocketAddr hquiet with hsame | ⟨now, -, hsame⟩
  · exact hsame.nextRoute_eq
  · exact hsame.nextRoute_eq

theorem numbered_exec (blake3 : List UInt8 → Digest) (isSocketAddr : String → Bool) (r : Registry)
    (operation : Operation) :
    Numbered r.nextRoute (r.exec blake3 isSocketAddr operation).2.issued
      (r.exec blake3 isSocketAddr operation).1.nextRoute := by
  cases operation with
  | discover now contentId =>
    change Numbered r.nextRoute (r.discover now contentId).2.toList
      (r.discover now contentId).1.nextRoute
    rcases r.discover_cases now contentId with heq | ⟨provider, -, relay, -, heq⟩
    · rw [heq]
      exact .nil _
    · rw [heq]
      exact (r.purge now).numbered_queueAssignment now provider relay (by decide)
  | discoverProviders now contentId limit =>
    change Numbered r.nextRoute (r.discoverProviders now contentId limit).2
      (r.discoverProviders now contentId limit).1.nextRoute
    rcases r.discoverProviders_cases now contentId limit with heq | ⟨providers, -, heq⟩
    · rw [heq]
      exact .nil _
    · rw [heq]
      exact numbered_queueAssignments now _ (r.purge now) providers
  | pollPeer now peerId =>
    refine numbered_of_nextRoute_eq rfl ?_
    change (r.pollPeer now peerId).1.nextRoute = r.nextRoute
    have hbeat := (r.sameQueues_heartbeatPeer now peerId).nextRoute_eq
    rcases r.pollPeer_eq now peerId with heq | ⟨queue, -, heq⟩
    · rw [heq]
      exact hbeat
    · rw [heq]
      exact hbeat
  | reportRelayFailure relayId => exact .nil _
  | _ => exact numbered_of_nextRoute_eq rfl (nextRoute_of_isQuiet rfl)

end Registry

/-! ## Runs -/

section Runs

variable {blake3 : List UInt8 → Digest} {isSocketAddr : String → Bool} {limits : RegistryLimits}
  {leaseMs : ℕ} {events : List Event} {r : Registry}

/-- All assignments that the calls have issued, oldest first. -/
def issued (blake3 : List UInt8 → Digest) (isSocketAddr : String → Bool) (events : List Event) :
    List RouteAssignment :=
  events.flatMap fun event ↦ (event.reply blake3 isSocketAddr).issued

theorem issued_concat (events : List Event) (event : Event) :
    issued blake3 isSocketAddr (events ++ [event]) =
      issued blake3 isSocketAddr events ++ (event.reply blake3 isSocketAddr).issued := by
  rw [issued, issued, List.flatMap_append, List.flatMap_singleton]

theorem Run.numbered
    (h : Run blake3 isSocketAddr (Registry.withLimits leaseMs limits) events r) :
    Numbered 0 (issued blake3 isSocketAddr events) r.nextRoute := by
  induction h with
  | nil => exact .nil 0
  | @snoc events r _ operation ih =>
    rw [issued_concat]
    exact ih.append (r.numbered_exec blake3 isSocketAddr operation)

/-- **Route names.** In every run that issues fewer than 2^64 assignments their names are pairwise
different; and each of them is accepted as a route by the validator of assignments, by the client,
and by the relay in the registration that the client sends. -/
theorem route_names_unique
    (h : Run blake3 isSocketAddr (Registry.withLimits leaseMs limits) events r)
    (hcount : (issued blake3 isSocketAddr events).length < 2 ^ 64) :
    ((issued blake3 isSocketAddr events).map RouteAssignment.route).Nodup ∧
      ∀ assignment ∈ issued blake3 isSocketAddr events,
        validIdentifier assignment.route 128 = true ∧
        Net.validateRoute assignment.route = .ok () ∧
        ∀ role, ∃ frame, Net.registration assignment.route role = .ok frame ∧
          Relay.parseRegistration frame = .ok (assignment.route, role) := by
  refine ⟨h.numbered.nodup hcount, fun assignment hassignment ↦ ?_⟩
  obtain ⟨k, hk⟩ := List.mem_iff_getElem?.mp hassignment
  obtain ⟨routePrefix, hkind, hroute⟩ := h.numbered.exists_route hk
  have hallowed := routeAllowed_routeName hkind (0 + .ofNat (k + 1))
  rw [hroute]
  refine ⟨validIdentifier_routeName hkind _, validateRoute_eq_ok_iff.mpr hallowed, fun role ↦ ?_⟩
  exact ⟨_, registration_eq_ok_iff.mpr ⟨hallowed, rfl⟩,
    Relay.parseRegistration_eq_ok_iff.mpr ⟨hallowed.2, rfl⟩⟩

end Runs

open Vectors in
theorem route_names_unique_discovered :
    (issued blake3 isSocketAddr calls).map RouteAssignment.route = ["m2-0000000000000001"] ∧
      ∀ assignment ∈ issued blake3 isSocketAddr calls,
        validIdentifier assignment.route 128 = true := by
  have hroutes : (issued blake3 isSocketAddr calls).map RouteAssignment.route =
      ["m2-0000000000000001"] := by decide +kernel
  have hcount : (issued blake3 isSocketAddr calls).length < 2 ^ 64 := by
    rw [← List.length_map RouteAssignment.route, hroutes]
    decide
  exact ⟨hroutes, fun assignment hassignment ↦
    ((route_names_unique run_calls hcount).2 assignment hassignment).1⟩

end TripTorrent

import Mathlib
import TripTorrent.Queueing.Recent
import TripTorrent.Relay.Registration
import TripTorrent.Storage.Keyed

/-!
# Pairing of routes at a relay

A relay keeps the routes for which one endpoint has registered until the other one does, or until
they have waited too long, and remembers a bounded number of routes it has paired, so as not to pair
them again.

A run is a sequence of calls of `register` at arbitrary times. A call is given the stream of the
connection it is made for, and no two calls have the same one, so in a run a stream is the number of
the call it was handed over in; `register` itself works for streams of any kind. What a run has done
is in its log, and the state after it is determined by the log as far as safety is concerned
(`Tracks`).
-/

namespace TripTorrent.Relay

open Std (ExtTreeMap)

/-! ## Routes waiting for their other endpoint -/

structure PendingRoute (σ : Type) where
  sender : Option σ
  receiver : Option σ
  created : ℕ
deriving DecidableEq

namespace PendingRoute

variable {σ : Type}

def new (now : ℕ) : PendingRoute σ := ⟨none, none, now⟩

/-- The entry with the stream in the place of its role, if that is free. -/
def join (entry : PendingRoute σ) : RelayRole → σ → Option (PendingRoute σ)
  | .sender, stream =>
    if entry.sender.isNone then some { entry with sender := some stream } else none
  | .receiver, stream =>
    if entry.receiver.isNone then some { entry with receiver := some stream } else none

/-- An entry with one endpoint. -/
def single : RelayRole → σ → ℕ → PendingRoute σ
  | .sender, stream, created => ⟨some stream, none, created⟩
  | .receiver, stream, created => ⟨none, some stream, created⟩

def IsSingle (entry : PendingRoute σ) : Prop :=
  ∃ role stream, entry = single role stream entry.created

theorem single_inj {role other : RelayRole} {stream first : σ} {created now : ℕ}
    (h : single role stream created = single other first now) :
    role = other ∧ stream = first ∧ created = now := by
  rcases role <;> rcases other <;> simp_all [single]

theorem created_single (role : RelayRole) (stream : σ) (created : ℕ) :
    (single role stream created).created = created := by
  cases role <;> rfl

theorem join_new (role : RelayRole) (stream : σ) (now : ℕ) :
    (new now).join role stream = some (single role stream now) := by
  cases role <;> rfl

/-- The pair of a new stream and the one that was waiting. -/
def pair (role : RelayRole) (stream first : σ) : σ × σ :=
  match role with
  | .sender => (stream, first)
  | .receiver => (first, stream)

/-- The sender of a pair is the new stream if it was registered as one, and the stream that was
waiting otherwise. -/
theorem pair_eq_iff {role : RelayRole} {stream first a b : σ} :
    pair role stream first = (a, b) ↔
      role = .sender ∧ stream = a ∧ first = b ∨ role = .receiver ∧ first = a ∧ stream = b := by
  rcases role <;> simp [pair]

theorem join_single_self (role : RelayRole) (first stream : σ) (created : ℕ) :
    (single role first created).join role stream = none := by
  cases role <;> rfl

theorem join_single_of_ne {other role : RelayRole} (h : other ≠ role) (first stream : σ)
    (created : ℕ) :
    (single other first created).join role stream =
      some ⟨some (pair role stream first).1, some (pair role stream first).2, created⟩ := by
  cases other <;> cases role <;> first | rfl | exact absurd rfl h

end PendingRoute

/-- `RelayLimits`, as far as pairing goes. -/
structure RelayLimits where
  maxPendingRoutes : ℕ
  pendingTimeout : ℕ
deriving DecidableEq

structure RelayState (σ : Type) where
  pending : ExtTreeMap String (PendingRoute σ)
  completed : List String
  limits : RelayLimits
  expiredRoutes : ℕ

namespace RelayState

variable {σ : Type}

def new (limits : RelayLimits) : RelayState σ := ⟨∅, [], limits, 0⟩

/-- Drops the routes that have waited too long. -/
def prune (s : RelayState σ) (now : ℕ) : RelayState σ :=
  let pending := s.pending.filter fun _ route ↦ now - route.created < s.limits.pendingTimeout
  { s with pending, expiredRoutes := s.expiredRoutes + (s.pending.size - pending.size) }

/-- The last part of `register`: the entry of the route, with the new endpoint in its place, goes
back or is taken out. The errors for a route that has lost an endpoint are left out, as both are
there when it is taken out. -/
def place (s : RelayState σ) (route : String) :
    Option (PendingRoute σ) → RelayState σ × Except IoError (Option (σ × σ))
  | none => (s, .error ⟨.invalidData, "duplicate relay role"⟩)
  | some ⟨some sender, some receiver, _⟩ =>
    ({ s with
        pending := s.pending.erase route
        completed := Queueing.trim s.limits.maxPendingRoutes (s.completed ++ [route]) },
      .ok (some (sender, receiver)))
  | some entry => ({ s with pending := s.pending.insert route entry }, .ok none)

/-- Registers one endpoint, and returns both when the route is complete. -/
def register (s : RelayState σ) (now : ℕ) (route : String) (role : RelayRole) (stream : σ) :
    RelayState σ × Except IoError (Option (σ × σ)) :=
  let s := s.prune now
  if route ∈ s.completed then
    (s, .error ⟨.invalidData, "completed route cannot be reused"⟩)
  else if ¬s.pending.contains route ∧ s.limits.maxPendingRoutes ≤ s.pending.size then
    (s, .error ⟨.other, "relay pending-route limit reached"⟩)
  else
    let s := { s with pending := s.pending.insertIfNew route (.new now) }
    s.place route ((s.pending.getD route (.new now)).join role stream)

variable {s : RelayState σ} {now created : ℕ} {route r : String} {role other : RelayRole}
  {stream first : σ} {entry : PendingRoute σ}

theorem getElem?_prune_eq_some_iff :
    (s.prune now).pending[r]? = some entry ↔
      s.pending[r]? = some entry ∧ now - entry.created < s.limits.pendingTimeout := by
  rw [prune, ExtTreeMap.getElem?_filter', Option.filter_eq_some_iff, decide_eq_true_eq]

theorem place_single :
    s.place route (some (.single role stream created)) =
      ({ s with pending := s.pending.insert route (.single role stream created) }, .ok none) := by
  cases role <;> rfl

/-- **What a registration does**, when every waiting route has one endpoint: it fails and leaves
what pruning left, or the route starts to wait, or it is paired with the endpoint that was
waiting. -/
theorem register_cases (now : ℕ) (route : String) (role : RelayRole) (stream : σ)
    (hsingle : ∀ (r : String) (entry : PendingRoute σ), s.pending[r]? = some entry →
      entry.IsSingle) :
    (∃ e, s.register now route role stream = (s.prune now, .error e)) ∨
    (route ∉ s.completed ∧ (s.prune now).pending.size < s.limits.maxPendingRoutes ∧
      s.register now route role stream =
      ({ s.prune now with
          pending := (s.prune now).pending.insert route (.single role stream now) }, .ok none)) ∨
    ∃ other first created, (s.prune now).pending[route]? = some (.single other first created) ∧
      other ≠ role ∧ route ∉ s.completed ∧ s.register now route role stream =
        ({ s.prune now with
            pending := (s.prune now).pending.erase route
            completed := (s.completed ++ [route]).rtake s.limits.maxPendingRoutes },
          .ok (some (PendingRoute.pair role stream first))) := by
  rw [register]
  by_cases hcompleted : route ∈ (s.prune now).completed
  · exact .inl ⟨_, if_pos hcompleted⟩
  by_cases hlimit : ¬(s.prune now).pending.contains route ∧
      (s.prune now).limits.maxPendingRoutes ≤ (s.prune now).pending.size
  · exact .inl ⟨_, by rw [if_neg hcompleted, if_pos hlimit]⟩
  rw [if_neg hcompleted, if_neg hlimit]
  dsimp only
  rcases hentry : (s.prune now).pending[route]? with _ | entry
  · have hroom : (s.prune now).pending.size < s.limits.maxPendingRoutes := by
      refine not_le.mp fun hfull ↦ hlimit ⟨?_, hfull⟩
      rw [← ExtTreeMap.mem_iff_contains, ExtTreeMap.mem_iff_isSome_getElem?, hentry]
      simp
    refine .inr (.inl ⟨hcompleted, hroom, ?_⟩)
    rw [Storage.Keyed.insertIfNew_of_none hentry, ExtTreeMap.getD_insert_self,
      PendingRoute.join_new, place_single]
    dsimp only
    rw [Storage.Keyed.insert_insert]
  · obtain ⟨other, first, hother⟩ := hsingle _ _ (getElem?_prune_eq_some_iff.mp hentry).1
    rw [Storage.Keyed.insertIfNew_of_some hentry, ExtTreeMap.getD_eq_getD_getElem?, hentry,
      Option.getD_some, hother]
    by_cases hrole : other = role
    · subst hrole
      rw [PendingRoute.join_single_self]
      exact .inl ⟨_, rfl⟩
    · rw [PendingRoute.join_single_of_ne hrole]
      refine .inr (.inr ⟨other, first, entry.created, rfl, hrole, hcompleted, ?_⟩)
      rw [place, Queueing.trim_eq_rtake]
      rfl

end RelayState

/-! ## Runs -/

/-- One call of `register`. -/
structure Registration where
  route : String
  role : RelayRole
  now : ℕ
deriving DecidableEq

/-- The calls of a run and what each of them returned. -/
abbrev Log := List (Registration × Except IoError (Option (ℕ × ℕ)))

def serveCall (run : RelayState ℕ × Log) (call : Registration) : RelayState ℕ × Log :=
  let (s, outcome) := run.1.register call.now call.route call.role run.2.length
  (s, run.2 ++ [(call, outcome)])

def serve (limits : RelayLimits) (calls : List Registration) : RelayState ℕ × Log :=
  calls.foldl serveCall (.new limits, [])

namespace Log

variable {log : Log} {call : Registration} {outcome : Except IoError (Option (ℕ × ℕ))}
  {i k a b : ℕ} {limits : RelayLimits}

def call? (log : Log) (i : ℕ) : Option Registration := log[i]?.map Prod.fst

/-- The call with number `k` returned the streams of the calls `a` and `b`. -/
def Pairs (log : Log) (k a b : ℕ) : Prop := log[k]?.map Prod.snd = some (.ok (some (a, b)))

/-- The routes that were paired, in this order. -/
def pairedRoutes (log : Log) : List String :=
  log.filterMap fun entry ↦
    match entry.2 with
    | .ok (some _) => some entry.1.route
    | _ => none

/-- A pair is a sender and a receiver of one route. The later of the two calls returned it, and came
within the time limit. -/
def Matched (limits : RelayLimits) (log : Log) (k a b : ℕ) : Prop :=
  ∃ sender receiver, log.call? a = some sender ∧ log.call? b = some receiver ∧
    sender.role = .sender ∧ receiver.role = .receiver ∧ sender.route = receiver.route ∧
    (a < b ∧ k = b ∧ receiver.now < sender.now + limits.pendingTimeout ∨
      b < a ∧ k = a ∧ sender.now < receiver.now + limits.pendingTimeout)

theorem lt_length_of_call? (h : log.call? i = some call) : i < log.length := by
  obtain ⟨entry, hentry, -⟩ := Option.map_eq_some_iff.mp h
  exact (List.getElem?_eq_some_iff.mp hentry).1

theorem call?_append (h : log.call? i = some call) (rest : Log) :
    call? (log ++ rest) i = some call := by
  rw [call?, List.getElem?_append_left (lt_length_of_call? h)]
  exact h

theorem call?_concat_length : call? (log ++ [(call, outcome)]) log.length = some call := by
  rw [call?, List.getElem?_append_right le_rfl, Nat.sub_self]
  rfl

theorem pairs_concat_iff :
    Pairs (log ++ [(call, outcome)]) k a b ↔
      log.Pairs k a b ∨ k = log.length ∧ outcome = .ok (some (a, b)) := by
  rw [Pairs, Pairs]
  rcases lt_trichotomy k log.length with h | rfl | h
  · rw [List.getElem?_append_left h]
    simp [h.ne]
  · rw [List.getElem?_append_right le_rfl, Nat.sub_self]
    simp
  · rw [List.getElem?_eq_none (by rw [List.length_append, List.length_singleton]; omega),
      List.getElem?_eq_none h.le]
    simp [h.ne']

theorem Matched.append (h : log.Matched limits k a b) (rest : Log) :
    Matched limits (log ++ rest) k a b := by
  obtain ⟨sender, receiver, ha, hb, h⟩ := h
  exact ⟨sender, receiver, call?_append ha rest, call?_append hb rest, h⟩

/-- The calls of a pair are not after the one that returned it. -/
theorem Matched.le (h : log.Matched limits k a b) : a ≤ k ∧ b ≤ k ∧ k < log.length := by
  obtain ⟨sender, receiver, ha, hb, -, -, -, ⟨hab, rfl, -⟩ | ⟨hab, rfl, -⟩⟩ := h
  · exact ⟨hab.le, le_rfl, lt_length_of_call? hb⟩
  · exact ⟨le_rfl, hab.le, lt_length_of_call? ha⟩

/-- The stream of a new call makes a sound pair with that of an earlier call for the same route in
the other role. -/
theorem matched_pair {c : Registration} (hc : log.call? i = some c) (hroute : c.route = call.route)
    (hrole : c.role ≠ call.role) (hintime : call.now < c.now + limits.pendingTimeout)
    (hab : PendingRoute.pair call.role log.length i = (a, b)) :
    Matched limits (log ++ [(call, outcome)]) log.length a b := by
  have hi := lt_length_of_call? hc
  rcases PendingRoute.pair_eq_iff.mp hab with ⟨hsender, rfl, rfl⟩ | ⟨hreceiver, rfl, rfl⟩
  · refine ⟨call, c, call?_concat_length, call?_append hc _, hsender, ?_, hroute.symm, ?_⟩
    · rcases hcr : c.role
      · exact absurd (hcr.trans hsender.symm) hrole
      · rfl
    · exact .inr ⟨hi, rfl, hintime⟩
  · refine ⟨c, call, call?_append hc _, call?_concat_length, ?_, hreceiver, hroute, ?_⟩
    · rcases hcr : c.role
      · rfl
      · exact absurd (hcr.trans hreceiver.symm) hrole
    · exact .inl ⟨hi, rfl, hintime⟩

end Log

/-! ## What the state knows about the log -/

open Log

/-- The state after a run with this log. A waiting route holds the stream of one call, which has not
been given away; pairs are sound and disjoint; and the completed routes are the last ones paired. -/
structure Tracks (limits : RelayLimits) (s : RelayState ℕ) (log : Log) : Prop where
  limits_eq : s.limits = limits
  waiting : ∀ (route : String) (entry : PendingRoute ℕ), s.pending[route]? = some entry →
    ∃ i call, log.call? i = some call ∧ call.route = route ∧
      entry = .single call.role i call.now ∧ ∀ k a b, log.Pairs k a b → i ≠ a ∧ i ≠ b
  matched : ∀ k a b, log.Pairs k a b → log.Matched limits k a b
  disjoint : ∀ k a b l c d, log.Pairs k a b → log.Pairs l c d → k ≠ l →
    a ≠ c ∧ a ≠ d ∧ b ≠ c ∧ b ≠ d
  completed : s.completed = log.pairedRoutes.rtake limits.maxPendingRoutes
  spaced : Queueing.Spaced limits.maxPendingRoutes log.pairedRoutes

namespace Tracks

variable {limits : RelayLimits} {s : RelayState ℕ} {log : Log} {call : Registration}
  {outcome : Except IoError (Option (ℕ × ℕ))} {now : ℕ}

theorem new (limits : RelayLimits) : Tracks limits (.new limits) [] where
  limits_eq := rfl
  waiting := by
    intro route entry h
    rw [RelayState.new, ExtTreeMap.getElem?_empty] at h
    cases h
  matched := by
    intro k a b h
    cases h
  disjoint := by
    intro k a b l c d h
    cases h
  completed := (List.rtake_nil _).symm
  spaced := Queueing.spaced_nil

theorem isSingle (h : Tracks limits s log) (route : String) (entry : PendingRoute ℕ)
    (hentry : s.pending[route]? = some entry) : entry.IsSingle := by
  obtain ⟨i, call, -, -, rfl, -⟩ := h.waiting route entry hentry
  refine ⟨call.role, i, ?_⟩
  cases call.role <;> rfl

theorem prune (h : Tracks limits s log) (now : ℕ) : Tracks limits (s.prune now) log where
  limits_eq := h.limits_eq
  waiting := by
    intro route entry hentry
    exact h.waiting route entry (RelayState.getElem?_prune_eq_some_iff.mp hentry).1
  matched := h.matched
  disjoint := h.disjoint
  completed := h.completed
  spaced := h.spaced

/-- A call that returns no pair, as far as the state was before it. -/
theorem extend (h : Tracks limits s log) (call : Registration)
    (hnone : ∀ a b, outcome ≠ .ok (some (a, b))) :
    Tracks limits s (log ++ [(call, outcome)]) := by
  have hpairs : ∀ k a b, Pairs (log ++ [(call, outcome)]) k a b → log.Pairs k a b := by
    intro k a b hpair
    exact (pairs_concat_iff.mp hpair).resolve_right fun hnew ↦ hnone a b hnew.2
  have hroutes : pairedRoutes (log ++ [(call, outcome)]) = log.pairedRoutes := by
    rw [pairedRoutes, List.filterMap_append]
    rcases outcome with e | _ | ⟨a, b⟩
    · simp [pairedRoutes]
    · simp [pairedRoutes]
    · exact absurd rfl (hnone a b)
  refine ⟨h.limits_eq, ?_, ?_, ?_, by rw [hroutes]; exact h.completed,
    by rw [hroutes]; exact h.spaced⟩
  · intro route entry hentry
    obtain ⟨i, c, hc, hroute, hentry, hfree⟩ := h.waiting route entry hentry
    exact ⟨i, c, call?_append hc _, hroute, hentry,
      fun k a b hpair ↦ hfree k a b (hpairs k a b hpair)⟩
  · intro k a b hpair
    exact (h.matched k a b (hpairs k a b hpair)).append _
  · intro k a b l c d hab hcd
    exact h.disjoint k a b l c d (hpairs k a b hab) (hpairs l c d hcd)

/-- A call that returns the pair of its stream and the one of an earlier call `c`. -/
theorem paired {c : Registration} {i : ℕ} (h : Tracks limits s log) (hc : log.call? i = some c)
    (hroute : c.route = call.route) (hrole : c.role ≠ call.role)
    (hfree : ∀ k a b, log.Pairs k a b → i ≠ a ∧ i ≠ b)
    (hintime : call.now < c.now + limits.pendingTimeout) (hnew : call.route ∉ s.completed) :
    Tracks limits
      { s.prune call.now with
        pending := (s.prune call.now).pending.erase call.route
        completed := (s.completed ++ [call.route]).rtake s.limits.maxPendingRoutes }
      (log ++ [(call, Except.ok (some (PendingRoute.pair call.role log.length i)))]) := by
  have hi := lt_length_of_call? hc
  have hroutes : pairedRoutes
      (log ++ [(call, Except.ok (some (PendingRoute.pair call.role log.length i)))]) =
        log.pairedRoutes ++ [call.route] := by
    rw [pairedRoutes, List.filterMap_append]
    rfl
  have hnewest : ∀ k a b,
      Pairs (log ++ [(call, Except.ok (some (PendingRoute.pair call.role log.length i)))]) k a b →
        log.Pairs k a b ∨ k = log.length ∧ PendingRoute.pair call.role log.length i = (a, b) := by
    intro k a b hpair
    rw [pairs_concat_iff] at hpair
    simpa using hpair
  -- neither stream of the new pair is in an earlier one
  have hfresh : ∀ k a b x y, log.Pairs k a b →
      PendingRoute.pair call.role log.length i = (x, y) → a ≠ x ∧ a ≠ y ∧ b ≠ x ∧ b ≠ y := by
    intro k a b x y hpair hxy
    obtain ⟨ha, hb, hk⟩ := (h.matched k a b hpair).le
    have hia := hfree k a b hpair
    rw [PendingRoute.pair_eq_iff] at hxy
    omega
  refine ⟨h.limits_eq, ?_, ?_, ?_, ?_, ?_⟩
  · intro route entry hentry
    obtain ⟨hne, hold⟩ := Storage.Keyed.getElem?_of_erase hentry
    obtain ⟨j, d, hd, hdroute, hsingle, hjfree⟩ := (h.prune call.now).waiting route entry hold
    refine ⟨j, d, call?_append hd _, hdroute, hsingle, fun k a b hpair ↦ ?_⟩
    rcases hnewest k a b hpair with hpair | ⟨-, hab⟩
    · exact hjfree k a b hpair
    · -- the other waiting calls are for other routes
      have hj := lt_length_of_call? hd
      have hji : j ≠ i := by
        rintro rfl
        rw [hd] at hc
        exact hne (hroute.symm.trans ((Option.some.inj hc) ▸ hdroute))
      rw [PendingRoute.pair_eq_iff] at hab
      omega
  · intro k a b hpair
    rcases hnewest k a b hpair with hpair | ⟨rfl, hab⟩
    · exact (h.matched k a b hpair).append _
    · exact matched_pair hc hroute hrole hintime hab
  · intro k a b l x y hab hxy hkl
    rcases hnewest k a b hab with hold | ⟨rfl, hnew⟩ <;>
      rcases hnewest l x y hxy with hold' | ⟨rfl, hnew'⟩
    · exact h.disjoint k a b l x y hold hold' hkl
    · exact hfresh k a b x y hold hnew'
    · obtain ⟨h1, h2, h3, h4⟩ := hfresh l x y a b hold' hnew
      exact ⟨h1.symm, h3.symm, h2.symm, h4.symm⟩
    · exact absurd rfl hkl
  · rw [hroutes, h.limits_eq, h.completed, Queueing.rtake_rtake_append]
  · rw [hroutes]
    exact h.spaced.concat (h.completed ▸ hnew)

/-- **One call keeps the state in step with the log.** -/
theorem register (h : Tracks limits s log) (call : Registration) :
    Tracks limits (serveCall (s, log) call).1 (serveCall (s, log) call).2 := by
  have hbound : ∀ k a b, log.Pairs k a b → log.length ≠ a ∧ log.length ≠ b := by
    intro k a b hpair
    obtain ⟨ha, hb, hk⟩ := (h.matched k a b hpair).le
    omega
  rcases RelayState.register_cases call.now call.route call.role log.length h.isSingle with
    ⟨e, hreg⟩ | ⟨hnew, -, hreg⟩ | ⟨other, first, created, hentry, hrole, hnew, hreg⟩
  · rw [serveCall, hreg]
    exact (h.prune call.now).extend call (by simp)
  · rw [serveCall, hreg]
    have hextend : Tracks limits (s.prune call.now) (log ++ [(call, Except.ok none)]) :=
      (h.prune call.now).extend call (by simp)
    refine { hextend with waiting := ?_ }
    intro route entry hentry
    rcases Storage.Keyed.inserted_or_unchanged hentry with ⟨rfl, rfl⟩ | ⟨-, hold⟩
    · refine ⟨log.length, call, call?_concat_length, rfl, rfl, ?_⟩
      intro k a b hpair
      exact hbound k a b ((pairs_concat_iff.mp hpair).resolve_right (by simp))
    · exact hextend.waiting route entry hold
  · rw [serveCall, hreg]
    obtain ⟨hpending, hintime⟩ := RelayState.getElem?_prune_eq_some_iff.mp hentry
    obtain ⟨i, c, hc, hroute, hsingle, hfree⟩ := h.waiting _ _ hpending
    obtain ⟨rfl, rfl, rfl⟩ := PendingRoute.single_inj hsingle
    rw [PendingRoute.created_single, h.limits_eq] at hintime
    exact h.paired hc hroute hrole hfree (by omega) hnew

/-- **The state after any run is in step with the log.** -/
theorem serve (limits : RelayLimits) (calls : List Registration) :
    Tracks limits (serve limits calls).1 (serve limits calls).2 := by
  induction calls using List.reverseRecOn with
  | nil => exact .new limits
  | append_singleton calls call ih =>
    rw [Relay.serve, List.foldl_append]
    exact ih.register call

end Tracks

theorem map_fst_serve (limits : RelayLimits) (calls : List Registration) :
    (serve limits calls).2.map Prod.fst = calls := by
  induction calls using List.reverseRecOn with
  | nil => rfl
  | append_singleton calls call ih =>
    rw [serve, List.foldl_append]
    change ((serve limits calls).2 ++ [_]).map Prod.fst = _
    rw [List.map_append, ih]
    rfl

theorem call?_serve (limits : RelayLimits) (calls : List Registration) (i : ℕ) :
    (serve limits calls).2.call? i = calls[i]? := by
  rw [call?, ← List.getElem?_map, map_fst_serve]

namespace Log

variable {log : Log} {k l a b : ℕ}

theorem Pairs.exists_getElem? (h : log.Pairs k a b) :
    ∃ call, log[k]? = some (call, .ok (some (a, b))) := by
  obtain ⟨⟨call, outcome⟩, hentry, rfl⟩ := Option.map_eq_some_iff.mp h
  exact ⟨call, hentry⟩

theorem exists_split {entry : Registration × Except IoError (Option (ℕ × ℕ))}
    (h : log[k]? = some entry) : ∃ p s : Log, log = p ++ entry :: s ∧ p.length = k := by
  obtain ⟨hk, rfl⟩ := List.getElem?_eq_some_iff.mp h
  refine ⟨log.take k, log.drop (k + 1), ?_, List.length_take_of_le hk.le⟩
  rw [List.cons_getElem_drop_succ, List.take_append_drop]

/-- A route that was paired in a part of the log was paired by a call with a number in that part. -/
theorem exists_pairs_of_mem {p m s : Log} {route : String} (h : route ∈ m.pairedRoutes) :
    ∃ j a b call, p.length ≤ j ∧ j < p.length + m.length ∧ Pairs (p ++ m ++ s) j a b ∧
      call? (p ++ m ++ s) j = some call ∧ call.route = route := by
  obtain ⟨⟨call, outcome⟩, hmem, hroute⟩ := List.mem_filterMap.mp h
  obtain ⟨i, hi, hentry⟩ := List.getElem_of_mem hmem
  have hj : (p ++ m ++ s)[p.length + i]? = some (call, outcome) := by
    rw [List.append_assoc, List.getElem?_append_right (Nat.le_add_right _ _),
      Nat.add_sub_cancel_left, List.getElem?_append_left hi, List.getElem?_eq_getElem hi, hentry]
  rcases outcome with e | _ | ⟨a, b⟩
  · cases hroute
  · cases hroute
  · refine ⟨p.length + i, a, b, call, Nat.le_add_right _ _, Nat.add_lt_add_left hi _, ?_, ?_, ?_⟩
    · rw [Pairs, hj]
      rfl
    · rw [call?, hj]
      rfl
    · exact Option.some.inj hroute

/-- Between two pairings of one route there are pairings of as many pairwise different other routes
as the completed routes are spaced. -/
theorem exists_between {n : ℕ} {x y : Registration} {c d : ℕ}
    (hspaced : Queueing.Spaced n log.pairedRoutes) (hkl : k < l)
    (hk : log[k]? = some (x, .ok (some (a, b)))) (hl : log[l]? = some (y, .ok (some (c, d))))
    (hroute : x.route = y.route) :
    ∃ routes : List String, routes.length = n ∧ routes.Nodup ∧ x.route ∉ routes ∧
      ∀ route ∈ routes, ∃ j a b call, k < j ∧ j < l ∧ log.Pairs j a b ∧
        log.call? j = some call ∧ call.route = route := by
  -- the log in front of the first pairing, between the two, and after the second
  obtain ⟨p, t, rfl, rfl⟩ := exists_split hk
  rw [List.getElem?_append_right hkl.le, show l - p.length = l - p.length - 1 + 1 by omega,
    List.getElem?_cons_succ] at hl
  obtain ⟨m, s, rfl, hm⟩ := exists_split hl
  have hsplit : Queueing.Spaced n (pairedRoutes p ++ x.route :: pairedRoutes m ++
      x.route :: pairedRoutes s) := by
    rw [pairedRoutes, List.filterMap_append] at hspaced
    simp only [List.filterMap_cons, List.filterMap_append] at hspaced
    rw [List.append_assoc, List.cons_append]
    rw [← hroute] at hspaced
    exact hspaced
  obtain ⟨routes, hsuffix, hlength, hnodup, hmem⟩ := hsplit.exists_between
  refine ⟨routes, hlength, hnodup, hmem, fun route hr ↦ ?_⟩
  obtain ⟨j, a', b', call, hj, hj', hpairs, hcall, hr⟩ :=
    exists_pairs_of_mem (p := p ++ [(x, Except.ok (some (a, b)))])
      (s := (y, .ok (some (c, d))) :: s) (hsuffix.subset hr)
  rw [List.length_append, List.length_singleton] at hj hj'
  rw [List.append_assoc, List.append_assoc] at hpairs hcall
  exact ⟨j, a', b', call, by omega, by omega, hpairs, hcall, hr⟩

end Log

/-- **Relay pairing is safe.** In every run of `register`, with any limits and at any times, a pair
is the stream of a sender and that of a receiver of one route, brought by two different calls less
than the time limit apart of which the later one returned it; no stream is in two pairs; and between
two pairings of one route at least as many pairwise different other routes were paired as there may
be pending routes. -/
theorem serve_pairs_safely (limits : RelayLimits) (calls : List Registration) :
    (∀ k a b, (serve limits calls).2.Pairs k a b →
      ∃ sender receiver, calls[a]? = some sender ∧ calls[b]? = some receiver ∧
        sender.role = .sender ∧ receiver.role = .receiver ∧ sender.route = receiver.route ∧
        (a < b ∧ k = b ∧ receiver.now < sender.now + limits.pendingTimeout ∨
          b < a ∧ k = a ∧ sender.now < receiver.now + limits.pendingTimeout)) ∧
    (∀ k a b l c d, (serve limits calls).2.Pairs k a b → (serve limits calls).2.Pairs l c d →
      k ≠ l → a ≠ c ∧ a ≠ d ∧ b ≠ c ∧ b ≠ d) ∧
    ∀ k a b l c d x y, (serve limits calls).2.Pairs k a b → (serve limits calls).2.Pairs l c d →
      k < l → calls[k]? = some x → calls[l]? = some y → x.route = y.route →
      ∃ routes : List String, routes.length = limits.maxPendingRoutes ∧ routes.Nodup ∧
        x.route ∉ routes ∧ ∀ route ∈ routes, ∃ j a b call, k < j ∧ j < l ∧
          (serve limits calls).2.Pairs j a b ∧ calls[j]? = some call ∧ call.route = route := by
  have h := Tracks.serve limits calls
  refine ⟨fun k a b hpair ↦ ?_, h.disjoint, ?_⟩
  · simpa only [Matched, call?_serve] using h.matched k a b hpair
  · intro k a b l c d x y hk hl hkl hx hy hroute
    obtain ⟨x', hk'⟩ := hk.exists_getElem?
    obtain ⟨y', hl'⟩ := hl.exists_getElem?
    have hx' : x' = x := by
      rw [← call?_serve limits, call?, hk'] at hx
      exact Option.some.inj hx
    have hy' : y' = y := by
      rw [← call?_serve limits, call?, hl'] at hy
      exact Option.some.inj hy
    rw [hx'] at hk'
    rw [hy'] at hl'
    simpa only [call?_serve] using exists_between h.spaced hkl hk' hl' hroute

/-- With room for one pending route, a route is paired, another one, and the first one again. -/
def reuse : List Registration :=
  [⟨"a", .sender, 0⟩, ⟨"a", .receiver, 1⟩, ⟨"b", .receiver, 2⟩, ⟨"b", .sender, 3⟩,
    ⟨"a", .receiver, 4⟩, ⟨"a", .sender, 5⟩]

theorem serve_pairs_safely_reuse :
    (serve ⟨1, 30⟩ reuse).2.Pairs 1 0 1 ∧ (serve ⟨1, 30⟩ reuse).2.Pairs 5 5 4 ∧
      ∃ routes : List String, routes.length = 1 ∧ routes.Nodup ∧ "a" ∉ routes ∧
        ∀ route ∈ routes, ∃ j a b call, 1 < j ∧ j < 5 ∧ (serve ⟨1, 30⟩ reuse).2.Pairs j a b ∧
          reuse[j]? = some call ∧ call.route = route := by
  have hfirst : (serve ⟨1, 30⟩ reuse).2.Pairs 1 0 1 := by unfold Pairs; decide +kernel
  have hlast : (serve ⟨1, 30⟩ reuse).2.Pairs 5 5 4 := by unfold Pairs; decide +kernel
  exact ⟨hfirst, hlast, (serve_pairs_safely ⟨1, 30⟩ reuse).2.2 1 0 1 5 5 4 _ _ hfirst hlast
    (by decide) rfl rfl rfl⟩

end TripTorrent.Relay

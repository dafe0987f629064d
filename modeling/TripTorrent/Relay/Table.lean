import Mathlib
import TripTorrent.Relay.Pairing

/-!
# The table of a relay

What holds of the two collections of a relay whatever is registered, by whom and when: a pending
route waits for exactly one endpoint, both collections stay within the limit, and no route is in
both or twice in the second. The entry of a route is made before the role is checked, and an error
is returned in between; that such an error leaves nothing behind, in particular no entry without an
endpoint, depends on the entries that were there before.
-/

namespace TripTorrent.Relay

open Std (ExtTreeMap)

namespace PendingRoute

variable {σ : Type} {entry : PendingRoute σ}

theorem isSingle_single (role : RelayRole) (stream : σ) (created : ℕ) :
    (single role stream created).IsSingle :=
  ⟨role, stream, by rw [created_single]⟩

/-- Exactly one endpoint is there. -/
theorem isSingle_iff : entry.IsSingle ↔ entry.sender.isSome ≠ entry.receiver.isSome := by
  obtain ⟨sender, receiver, created⟩ := entry
  constructor
  · rintro ⟨role, stream, hentry⟩
    cases role <;> obtain ⟨rfl, rfl, -⟩ := PendingRoute.mk.inj hentry <;> simp
  · intro h
    rcases sender with _ | sender <;> rcases receiver with _ | receiver
    · exact absurd rfl h
    · exact ⟨.receiver, receiver, rfl⟩
    · exact ⟨.sender, sender, rfl⟩
    · exact absurd rfl h

end PendingRoute

namespace RelayState

variable {σ : Type} {s : RelayState σ} {limits : RelayLimits}

/-- What holds of the table at all times. -/
structure Valid (s : RelayState σ) : Prop where
  single : ∀ (r : String) (entry : PendingRoute σ), s.pending[r]? = some entry → entry.IsSingle
  size_le : s.pending.size ≤ s.limits.maxPendingRoutes
  length_le : s.completed.length ≤ s.limits.maxPendingRoutes
  nodup : s.completed.Nodup
  disjoint : ∀ r ∈ s.completed, s.pending[r]? = none

theorem valid_new (limits : RelayLimits) : (new limits : RelayState σ).Valid where
  single r entry h := by
    rw [new, ExtTreeMap.getElem?_empty] at h
    cases h
  size_le := by
    rw [new, ExtTreeMap.size_empty]
    exact Nat.zero_le _
  length_le := Nat.zero_le _
  nodup := List.nodup_nil
  disjoint r hr := by cases hr

theorem getElem?_prune_eq_none {now : ℕ} {r : String} (h : s.pending[r]? = none) :
    (s.prune now).pending[r]? = none := by
  rw [prune, ExtTreeMap.getElem?_filter', h]
  rfl

theorem Valid.prune (h : s.Valid) (now : ℕ) : (s.prune now).Valid where
  single r entry hentry := h.single r entry (getElem?_prune_eq_some_iff.mp hentry).1
  size_le := ExtTreeMap.size_filter_le_size.trans h.size_le
  length_le := h.length_le
  nodup := h.nodup
  disjoint r hr := getElem?_prune_eq_none (h.disjoint r hr)

/-- A route starts to wait. -/
theorem Valid.insert {route : String} {entry : PendingRoute σ} (h : s.Valid)
    (hentry : entry.IsSingle) (hroom : s.pending.size < s.limits.maxPendingRoutes)
    (hnew : route ∉ s.completed) : ({ s with pending := s.pending.insert route entry }).Valid where
  single r e he := by
    rcases Storage.Keyed.inserted_or_unchanged he with ⟨rfl, rfl⟩ | ⟨-, hold⟩
    · exact hentry
    · exact h.single r e hold
  size_le := ExtTreeMap.size_insert_le.trans hroom
  length_le := h.length_le
  nodup := h.nodup
  disjoint r hr := by
    have hne : route ≠ r := fun heq ↦ hnew (heq ▸ hr)
    rw [Storage.Keyed.getElem?_insert, if_neg hne]
    exact h.disjoint r hr

/-- A route is paired. -/
theorem Valid.complete {route : String} (h : s.Valid) (hnew : route ∉ s.completed) :
    ({ s with
      pending := s.pending.erase route
      completed := (s.completed ++ [route]).rtake s.limits.maxPendingRoutes }).Valid where
  single r e he := h.single r e (Storage.Keyed.getElem?_of_erase he).2
  size_le := ExtTreeMap.size_erase_le.trans h.size_le
  length_le := by
    rw [List.rtake, List.length_drop]
    dsimp only
    omega
  nodup := by
    refine List.Nodup.sublist Queueing.rtake_suffix.sublist ?_
    exact List.Nodup.append h.nodup (List.nodup_singleton _) (List.disjoint_singleton.mpr hnew)
  disjoint r hr := by
    rw [Storage.Keyed.getElem?_erase]
    split_ifs with hroute
    · rfl
    · have hmem := Queueing.rtake_suffix.subset hr
      rw [List.mem_append, List.mem_singleton] at hmem
      exact h.disjoint r (hmem.resolve_right (Ne.symm hroute))

theorem Valid.register (h : s.Valid) (now : ℕ) (route : String) (role : RelayRole) (stream : σ) :
    (s.register now route role stream).1.Valid ∧
      (s.register now route role stream).1.limits = s.limits := by
  obtain ⟨e, heq⟩ | ⟨hnew, hroom, heq⟩ | ⟨other, first, created, -, -, hnew, heq⟩ :=
    register_cases now route role stream h.single
  · rw [heq]
    exact ⟨h.prune now, rfl⟩
  · rw [heq]
    exact ⟨(h.prune now).insert (PendingRoute.isSingle_single role stream now) hroom hnew, rfl⟩
  · rw [heq]
    exact ⟨(h.prune now).complete hnew, rfl⟩

/-- A registration that fails has done nothing but prune. -/
theorem Valid.register_of_error (h : s.Valid) {now : ℕ} {route : String} {role : RelayRole}
    {stream : σ} {e : IoError} (herror : (s.register now route role stream).2 = .error e) :
    (s.register now route role stream).1 = s.prune now := by
  obtain ⟨e', heq⟩ | ⟨-, -, heq⟩ | ⟨other, first, created, -, -, -, heq⟩ :=
    register_cases now route role stream h.single
  · rw [heq]
  · rw [heq] at herror
    cases herror
  · rw [heq] at herror
    cases herror

/-- The states a relay with given limits can reach. -/
inductive Reachable (limits : RelayLimits) : RelayState σ → Prop
  | new : Reachable limits (.new limits)
  | register {s : RelayState σ} (h : Reachable limits s) (now : ℕ) (route : String)
    (role : RelayRole) (stream : σ) : Reachable limits (s.register now route role stream).1

theorem Reachable.valid (h : Reachable limits s) : s.Valid ∧ s.limits = limits := by
  induction h with
  | new => exact ⟨valid_new limits, rfl⟩
  | register h now route role stream ih =>
    obtain ⟨hvalid, hlimits⟩ := ih.1.register now route role stream
    exact ⟨hvalid, hlimits.trans ih.2⟩

/-- **The table of a relay.** After any registrations, with any limits and at any times, every
pending route has exactly one endpoint, neither collection exceeds the limit, no route has been
completed twice among those remembered or is both pending and completed; and a registration that
fails leaves exactly what pruning leaves. -/
theorem table_invariant (h : Reachable limits s) :
    (∀ (r : String) (entry : PendingRoute σ), s.pending[r]? = some entry →
      entry.sender.isSome ≠ entry.receiver.isSome) ∧
    s.pending.size ≤ limits.maxPendingRoutes ∧
    s.completed.length ≤ limits.maxPendingRoutes ∧
    s.completed.Nodup ∧
    (∀ r ∈ s.completed, r ∉ s.pending) ∧
    ∀ (now : ℕ) (route : String) (role : RelayRole) (stream : σ) (e : IoError),
      (s.register now route role stream).2 = .error e →
        (s.register now route role stream).1.pending = (s.prune now).pending ∧
          (s.register now route role stream).1.completed = (s.prune now).completed := by
  obtain ⟨hvalid, rfl⟩ := h.valid
  refine ⟨fun r entry hentry ↦ PendingRoute.isSingle_iff.mp (hvalid.single r entry hentry),
    hvalid.size_le, hvalid.length_le, hvalid.nodup, fun r hr hmem ↦ ?_, ?_⟩
  · rw [ExtTreeMap.mem_iff_isSome_getElem?, hvalid.disjoint r hr] at hmem
    cases hmem
  · intro now route role stream e herror
    rw [hvalid.register_of_error herror]
    exact ⟨rfl, rfl⟩

/-- One route is registered twice by a sender, then completed, and asked for once more. -/
theorem table_invariant_squat :
    ∃ s : RelayState ℕ, Reachable ⟨1, 1⟩ s ∧ s.completed = ["squat"] ∧
      (s.register 0 "squat" .sender 3).1.completed = (s.prune 0).completed := by
  have hreach : Reachable ⟨1, 1⟩ (((((new ⟨1, 1⟩ : RelayState ℕ).register 0 "squat" .sender
      0).1.register 0 "squat" .sender 1).1.register 0 "squat" .receiver 2).1) :=
    .register (.register (.register .new ..) ..) ..
  refine ⟨_, hreach, by decide +kernel, ?_⟩
  exact ((table_invariant hreach).2.2.2.2.2 0 "squat" .sender 3
    ⟨.invalidData, "completed route cannot be reused"⟩ (by decide +kernel)).2

end RelayState

end TripTorrent.Relay

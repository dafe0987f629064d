import TripTorrent.Swarm.Scheduler

/-!
# The scheduler under arbitrary calls

The callers of the scheduler are not trusted to make sense: a provider may deliver a chunk twice or
one it was not asked for, and may be rejected while it is idle, when it is already out, or without
existing. Whatever is called, in whatever order, the two records of a request agree: the mark on the
chunk and the busy flag of the provider.

What a slot is working on is the abstract state here (`Scheduler.Holds`), and every call changes it
for one slot at most.
-/

namespace TripTorrent

namespace Scheduler

/-- A call of one of the operations that change the scheduler. -/
inductive Call where
  | assign (provider : ℕ)
  | accept (provider : ℕ) (index : UInt32)
  | reject (provider : ℕ)
deriving DecidableEq

/-- The scheduler after a call. -/
def call (s : Scheduler) : Call → Scheduler
  | .assign provider => (s.assign provider).2
  | .accept provider index => (s.accept provider index).2
  | .reject provider => s.reject provider

/-- The scheduler after several calls. -/
def run (s : Scheduler) (calls : List Call) : Scheduler := calls.foldl call s

/-- The records of the outstanding requests agree. -/
structure Consistent (s : Scheduler) : Prop where
  /-- Every slot has been asked for one chunk or for none. -/
  holds : ∀ p, ∃ o, s.Holds p o
  /-- Nobody was asked for a chunk it had not announced. -/
  announced : ∀ (p i : ℕ) (pieces : PieceAvailability), s.chunks[i]? = some (.inFlight p) →
    s.pieces[p]? = some pieces → pieces.contains (saturateU32 i) = true

variable {s t : Scheduler} {p i : ℕ}

/-! ## One call -/

/-- An idle provider has not been asked for anything. -/
theorem Consistent.holds_none (h : s.Consistent) {state : ProviderState}
    (hstate : s.providers[p]? = some state) (hidle : state.busy = false) : s.Holds p none := by
  obtain ⟨o, ho⟩ := h.holds p
  have hnone : o.isSome = false := (ho.busy state hstate).symm.trans hidle
  rw [Option.isSome_eq_false_iff, Option.isNone_iff_eq_none] at hnone
  exact hnone ▸ ho

/-- A marked chunk is what its provider has been asked for. -/
theorem Consistent.holds_some (h : s.Consistent) (hi : s.chunks[i]? = some (.inFlight p)) :
    s.Holds p (some i) := by
  obtain ⟨o, ho⟩ := h.holds p
  exact (ho.marks i).mp hi ▸ ho

theorem announced_of_marks (h : s.Consistent) (hpieces : t.pieces = s.pieces)
    (hmarks : ∀ p i : ℕ, t.chunks[i]? = some (.inFlight p) → s.chunks[i]? = some (.inFlight p)) :
    ∀ (p i : ℕ) (pieces : PieceAvailability), t.chunks[i]? = some (.inFlight p) →
      t.pieces[p]? = some pieces → pieces.contains (saturateU32 i) = true := by
  intro p i pieces hi hp
  exact h.announced p i pieces (hmarks p i hi) (hpieces ▸ hp)

theorem Consistent.claim {state : ProviderState} (h : s.Consistent)
    (hp : s.providers[p]? = some state) (hactive : state.active = true)
    (hidle : state.busy = false) (hi : s.chunks[i]? = some .missing)
    (hpiece : state.availability.contains (saturateU32 i) = true) :
    (s.claim p i).Consistent where
  holds q := by
    by_cases hpq : p = q
    · subst hpq
      exact ⟨some i, holds_claim (h.holds_none hp hidle) hp hactive hi⟩
    · obtain ⟨o, ho⟩ := h.holds q
      exact ⟨o, holds_claim_of_ne hpq ho hi⟩
  announced q j pieces hj hq := by
    rw [pieces_claim] at hq
    by_cases hij : i = j
    · subst hij
      obtain rfl : p = q := by
        simpa [getElem?_chunks_claim_self hi] using hj
      have hpieces : s.pieces[p]? = some state.availability := by
        rw [Scheduler.pieces, List.getElem?_map, hp, Option.map_some]
      obtain rfl := Option.some.inj (hpieces.symm.trans hq)
      exact hpiece
    · rw [getElem?_chunks_claim_of_ne hij] at hj
      exact h.announced q j pieces hj hq

theorem Consistent.deliver (h : s.Consistent) (hi : s.chunks[i]? = some (.inFlight p)) :
    (s.deliver p i).Consistent where
  holds q := by
    by_cases hpq : p = q
    · subst hpq
      exact ⟨none, holds_deliver (h.holds_some hi)⟩
    · obtain ⟨o, ho⟩ := h.holds q
      exact ⟨o, holds_deliver_of_ne hpq ho hi⟩
  announced := by
    refine announced_of_marks h pieces_deliver fun q j hj ↦ ?_
    by_cases hij : i = j
    · subst hij
      simp [getElem?_chunks_deliver_self hi] at hj
    · rwa [getElem?_chunks_deliver_of_ne hij] at hj

theorem Consistent.reject (h : s.Consistent) (p : ℕ) : (s.reject p).Consistent where
  holds q := by
    by_cases hpq : p = q
    · subst hpq
      exact ⟨none, s.holds_reject p⟩
    · obtain ⟨o, ho⟩ := h.holds q
      exact ⟨o, holds_reject_of_ne hpq ho⟩
  announced := by
    refine announced_of_marks h pieces_reject fun q j hj ↦ ?_
    rcases getElem?_chunks_reject_eq_some_iff.mp hj with ⟨-, hmissing⟩ | ⟨hold, -⟩
    · cases hmissing
    · exact hold

/-- A response is accepted, or it changes nothing. The error for an unknown provider is not met: no
chunk is marked for one. -/
theorem Consistent.accept_cases (h : s.Consistent) (provider : ℕ) (index : UInt32) :
    (s.accept provider index).2 = s ∨
      s.chunks[index.toNat]? = some (.inFlight provider) ∧
        (s.accept provider index).2 = s.deliver provider index.toNat := by
  by_cases hmark : s.chunks[index.toNat]? = some (.inFlight provider)
  · have hknown : provider < s.providers.length := (h.holds_some hmark).known rfl
    exact .inr ⟨hmark, accept_snd (accept_eq_ok_iff.mpr ⟨hmark, hknown⟩)⟩
  · exact .inl (by rw [accept, if_pos hmark])

/-- One call keeps the records in agreement, and the lists as long as they are. -/
theorem Consistent.call (h : s.Consistent) (c : Call) :
    (s.call c).Consistent ∧ (s.call c).chunks.length = s.chunks.length ∧
      (s.call c).pieces = s.pieces := by
  cases c with
  | assign provider =>
    obtain ⟨hnone, -⟩ | ⟨state, i, hstate, hactive, hidle, hi, hpiece, -, hassign⟩ :=
      s.assign_cases provider
    · rw [Scheduler.call, hnone]
      exact ⟨h, rfl, rfl⟩
    · rw [Scheduler.call, hassign]
      exact ⟨h.claim hstate hactive hidle hi hpiece, length_chunks_claim i, pieces_claim⟩
  | accept provider index =>
    obtain heq | ⟨hmark, heq⟩ := h.accept_cases provider index
    · rw [Scheduler.call, heq]
      exact ⟨h, rfl, rfl⟩
    · rw [Scheduler.call, heq]
      exact ⟨h.deliver hmark, length_chunks_deliver _, pieces_deliver⟩
  | reject provider => exact ⟨h.reject provider, length_chunks_reject, pieces_reject⟩

/-! ## What is in flight -/

namespace Consistent

variable {p i : ℕ} {state : ProviderState} {index : UInt32}

theorem provider_of_inFlight (h : s.Consistent) (hcount : s.chunks.length < 2 ^ 32)
    (hi : s.chunks[i]? = some (.inFlight p)) :
    ∃ state, s.providers[p]? = some state ∧ state.active = true ∧ state.busy = true ∧
      state.availability.contains (.ofNat i) = true := by
  have hheld := h.holds_some hi
  obtain ⟨state, hstate⟩ : ∃ state, s.providers[p]? = some state :=
    ⟨_, List.getElem?_eq_getElem (hheld.known rfl)⟩
  have hpiece := h.announced p i state.availability hi (by
    rw [Scheduler.pieces, List.getElem?_map, hstate, Option.map_some])
  have hindex : i < s.chunks.length := (List.getElem?_eq_some_iff.mp hi).1
  rw [saturateU32, min_eq_left (by omega)] at hpiece
  exact ⟨state, hstate, hheld.active state hstate rfl, hheld.busy state hstate, hpiece⟩

theorem busy_iff (h : s.Consistent) (hstate : s.providers[p]? = some state) :
    state.busy = true ↔ ∃! i : ℕ, s.chunks[i]? = some (.inFlight p) := by
  obtain ⟨o, ho⟩ := h.holds p
  simp only [ho.busy state hstate, ho.marks]
  cases o with
  | none => simp
  | some i => exact iff_of_true rfl ⟨i, rfl, fun j hj ↦ (Option.some.inj hj).symm⟩

theorem not_busy_of_not_active (h : s.Consistent) (hstate : s.providers[p]? = some state)
    (hinactive : state.active = false) : state.busy = false := by
  obtain ⟨o, ho⟩ := h.holds p
  by_contra hbusy
  rw [ho.busy state hstate, Bool.not_eq_false] at hbusy
  rw [ho.active state hstate hbusy] at hinactive
  cases hinactive

/-- What is requested is in flight at nobody, and the provider has nothing else in flight. -/
theorem free_of_assign (h : s.Consistent) (hcount : s.chunks.length < 2 ^ 32)
    (hassign : (s.assign p).1 = some index) :
    s.chunks[index.toNat]? = some .missing ∧ ∀ i : ℕ, s.chunks[i]? ≠ some (.inFlight p) := by
  obtain ⟨hnone, -⟩ | ⟨state, index', hstate, -, hidle, hi, -, heq⟩ :=
    assign_cases_index hcount.le p
  · rw [hnone] at hassign
    cases hassign
  · rw [heq] at hassign
    obtain rfl := Option.some.inj hassign
    refine ⟨hi, fun j hj ↦ ?_⟩
    have hnone := ((h.holds_none hstate hidle).marks j).mp hj
    cases hnone

/-- As long as every missing chunk has a source, somebody can be asked. -/
theorem exists_assign (h : s.Consistent) (hcount : s.chunks.length < 2 ^ 32)
    (hcomplete : s.isComplete = false) (hidle : s.hasInFlight = false)
    (hfinish : s.canFinish = true) : ∃ p index, (s.assign p).1 = some index := by
  obtain ⟨p, state, hstate, hactive, hbusy, hsome⟩ :=
    exists_idle_of_canFinish h.holds hcomplete hidle hfinish
  obtain ⟨-, hnone⟩ | ⟨-, index, -, -, -, -, -, heq⟩ := assign_cases_index hcount.le p
  · exact absurd (hnone state hstate hactive hbusy) hsome
  · exact ⟨p, index, by rw [heq]⟩

end Consistent

/-! ## All calls -/

theorem Consistent.run (h : s.Consistent) (calls : List Call) :
    (s.run calls).Consistent ∧ (s.run calls).chunks.length = s.chunks.length ∧
      (s.run calls).pieces = s.pieces := by
  induction calls generalizing s with
  | nil => exact ⟨h, rfl, rfl⟩
  | cons c calls ih =>
    obtain ⟨hnext, hchunks, hpieces⟩ := h.call c
    obtain ⟨hrun, hchunks', hpieces'⟩ := ih hnext
    exact ⟨hrun, hchunks'.trans hchunks, hpieces'.trans hpieces⟩

section New

variable {chunkCount : ℕ} {availability : List PieceAvailability} {completed : List Bool}

theorem consistent_new (h : Scheduler.new chunkCount availability completed = .ok s) :
    s.Consistent where
  holds p := ⟨none, holds_new h p⟩
  announced p i _ hi := by
    have hnone := ((holds_new h p).marks i).mp hi
    cases hnone

theorem pieces_new (h : Scheduler.new chunkCount availability completed = .ok s) :
    s.pieces = availability := by
  obtain ⟨-, -, -, rfl⟩ := new_eq_ok_iff.mp h
  rw [Scheduler.pieces, List.map_map]
  exact List.map_id _

theorem length_chunks_new (h : Scheduler.new chunkCount availability completed = .ok s) :
    s.chunks.length = chunkCount ∧ chunkCount < 2 ^ 32 := by
  obtain ⟨hlength, hfit, -, rfl⟩ := new_eq_ok_iff.mp h
  exact ⟨by rw [List.length_map, hlength], hfit⟩

/-- **Structural invariant.** After any calls on a new scheduler, a chunk in flight is in flight at
a known, active and busy provider that announced it; a provider is busy exactly if one chunk is in
flight at it, and never after it has been rejected; and nothing is added to or removed from the
lists. So a chunk is requested only while it is in flight at nobody, and from a provider at which
nothing is in flight. -/
theorem structural_invariant (h : Scheduler.new chunkCount availability completed = .ok s)
    (calls : List Call) :
    (∀ i p : ℕ, (s.run calls).chunks[i]? = some (.inFlight p) →
      ∃ state, (s.run calls).providers[p]? = some state ∧ state.active = true ∧
        state.busy = true ∧ state.availability.contains (.ofNat i) = true) ∧
    (∀ (p : ℕ) (state : ProviderState), (s.run calls).providers[p]? = some state →
      (state.busy = true ↔ ∃! i : ℕ, (s.run calls).chunks[i]? = some (.inFlight p)) ∧
        (state.active = false → state.busy = false)) ∧
    ((s.run calls).chunks.length = chunkCount ∧
      (s.run calls).providers.length = availability.length) ∧
    ∀ (p : ℕ) (index : UInt32), ((s.run calls).assign p).1 = some index →
      (s.run calls).chunks[index.toNat]? = some .missing ∧
        ∀ i : ℕ, (s.run calls).chunks[i]? ≠ some (.inFlight p) := by
  obtain ⟨hlength, hfit⟩ := length_chunks_new h
  obtain ⟨hrun, hchunks, hpieces⟩ := (consistent_new h).run calls
  rw [hlength] at hchunks
  rw [pieces_new h] at hpieces
  have hcount : (s.run calls).chunks.length < 2 ^ 32 := hchunks.trans_lt hfit
  refine ⟨fun i p hi ↦ hrun.provider_of_inFlight hcount hi,
    fun p state hstate ↦ ⟨hrun.busy_iff hstate, hrun.not_busy_of_not_active hstate⟩, ⟨hchunks, ?_⟩,
    fun p index hassign ↦ hrun.free_of_assign hcount hassign⟩
  rw [← hpieces, Scheduler.pieces, List.length_map]

end New

end Scheduler

/-! Two providers of two chunks: the first is asked for one of them, delivers it twice and is then
rejected; the other is asked for the second chunk. -/

namespace Vectors

def swarmCalls : List Scheduler.Call :=
  [.assign 0, .accept 0 0, .accept 0 0, .reject 0, .reject 7, .assign 1]

def swarmScheduler : Scheduler :=
  ⟨[.missing, .missing], [⟨.all 2, true, false, 0, 0⟩, ⟨.all 2, true, false, 0, 0⟩], 0⟩

end Vectors

open Vectors in
theorem structural_invariant_swarmCalls :
    Scheduler.new 2 [.all 2, .all 2] [false, false] = .ok swarmScheduler ∧
      (swarmScheduler.run swarmCalls).chunks[1]? = some (.inFlight 1) ∧
      ∃ state, (swarmScheduler.run swarmCalls).providers[1]? = some state ∧
        state.active = true ∧ state.busy = true ∧ state.availability.contains 1 = true := by
  have hnew : Scheduler.new 2 [.all 2, .all 2] [false, false] = .ok swarmScheduler := by
    decide +kernel
  have hflight : (swarmScheduler.run swarmCalls).chunks[1]? = some (.inFlight 1) := by
    decide +kernel
  exact ⟨hnew, hflight, (Scheduler.structural_invariant hnew swarmCalls).1 1 1 hflight⟩

end TripTorrent

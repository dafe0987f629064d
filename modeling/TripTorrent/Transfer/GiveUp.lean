import TripTorrent.Swarm.Invariant
import TripTorrent.Transfer.Agreement

/-!
# When a download gives up

After a pass over the workers in which nothing was assigned and with nothing in flight, the download
ends with "no healthy provider can supply the remaining chunks". Sending a command fails when its
worker is gone, and then the chunk just claimed is missing again, after earlier slots have already
been passed. What makes the message true all the same is that such a chunk was missing before, when
those slots were looked at: a slot that is asked has nothing else in flight, so what its rejection
releases is no more than the pass has claimed for it.
-/

namespace TripTorrent

namespace Scheduler

variable {s : Scheduler} {p i : ℕ}

/-- A chunk claimed for a slot and released again leaves the missing chunks as they were. -/
theorem missing_reject_claim_iff (h : s.Holds p none) (hi : s.chunks[i]? = some .missing) {j : ℕ} :
    ((s.claim p i).reject p).chunks[j]? = some .missing ↔ s.chunks[j]? = some .missing := by
  rw [getElem?_chunks_reject_eq_some_iff]
  by_cases hij : i = j
  · subst hij
    simp [getElem?_chunks_claim_self hi, hi]
  · rw [getElem?_chunks_claim_of_ne hij, h.marks]
    simp

theorem candidates_reject_claim (h : s.Holds p none) (hi : s.chunks[i]? = some .missing)
    (pieces : PieceAvailability) :
    ((s.claim p i).reject p).candidates pieces = [] ↔ s.candidates pieces = [] := by
  simp only [candidates_eq_nil_iff, missing_reject_claim_iff h hi]

end Scheduler

namespace System

variable {blake3 : List UInt8 → Digest} {m : Manifest} {s t : System} {action : Action}

/-- Until something is assigned in a pass, the slots passed had nothing to be asked for. -/
def Scanned (s : System) : Prop :=
  ∀ slot, s.phase = .assigning slot false → ∀ p < slot, ∀ state,
    s.scheduler.providers[p]? = some state → state.active = true → state.busy = false →
      s.scheduler.candidates state.availability = []

/-! ## One pass -/

theorem scanned_of_phase (h : ∀ slot, t.phase ≠ .assigning slot false) : t.Scanned :=
  fun slot hphase ↦ absurd hphase (h slot)

/-- A slot that is out has nothing to be asked for, and the others see the same missing chunks. -/
theorem Scanned.unsent {slot i : ℕ} (h : s.Scanned) (hphase : s.phase = .assigning slot false)
    (hholds : s.scheduler.Holds slot none) (hi : s.scheduler.chunks[i]? = some .missing) :
    Scanned { s with
      scheduler := (s.scheduler.claim slot i).reject slot
      phase := .assigning (slot + 1) false } := by
  intro next hnext p hp state hstate hactive hbusy
  obtain ⟨rfl, -⟩ := Phase.assigning.inj hnext
  rw [Scheduler.candidates_reject_claim hholds hi]
  obtain ⟨claimed, hclaimed, rfl⟩ := Scheduler.getElem?_modify_eq_some_iff.mp hstate
  obtain ⟨old, hold, rfl⟩ := Scheduler.getElem?_modify_eq_some_iff.mp hclaimed
  by_cases hslot : slot = p
  · simp [hslot] at hactive
  · simp only [if_neg hslot] at hactive hbusy ⊢
    exact h slot hphase p (by omega) old hold hactive hbusy

theorem Scanned.moves (h : s.Scanned) (hagrees : s.Agrees m)
    (hmoves : Moves blake3 m s action t) : t.Scanned := by
  cases hmoves with
  | receive | respond | leave | panic => exact h
  | misplaced _ _ _ ht | refused _ _ _ _ ht | abandon _ _ _ _ ht | misreported _ _ _ ht =>
    exact scanned_of_phase fun slot ↦ by simp [ht]
  | enter =>
    intro slot hslot p hp
    rw [← (Phase.assigning.inj hslot).1] at hp
    cases hp
  | @skip _ slot assigned hphase hslot hidle =>
    intro next hnext p hp
    obtain ⟨rfl, rfl⟩ := Phase.assigning.inj hnext
    rcases Nat.lt_succ_iff_lt_or_eq.mp hp with hp | rfl
    · exact h slot hphase p hp
    · exact hidle
  | @unsent _ slot assigned worker state index hphase hworker hstate hactive hbusy hindex =>
    cases assigned with
    | true => exact scanned_of_phase fun slot ↦ by simp
    | false => exact h.unsent hphase (hagrees.holds_none hstate hbusy).2 hindex
  | _ => exact scanned_of_phase fun slot ↦ by simp

/-- A pass that has looked at every worker in vain and leaves nothing in flight: some missing chunk
has no source. -/
theorem Scanned.canFinish_eq_false {slot : ℕ} (h : s.Scanned) (hagrees : s.Agrees m)
    (hphase : s.phase = .assigning slot false) (hslot : s.workers.length ≤ slot)
    (hcomplete : s.scheduler.isComplete = false) (hidle : s.scheduler.hasInFlight = false) :
    s.scheduler.canFinish = false := by
  by_contra hfinish
  rw [Bool.not_eq_false] at hfinish
  have hholds (p : ℕ) : ∃ o, s.scheduler.Holds p o := by
    obtain ⟨o, -, ho⟩ := hagrees.slots p
    exact ⟨_, ho⟩
  obtain ⟨p, state, hstate, hactive, hbusy, hsome⟩ :=
    Scheduler.exists_idle_of_canFinish hholds hcomplete hidle hfinish
  have hp : p < s.workers.length := by
    rw [← hagrees.length_providers]
    exact (List.getElem?_eq_some_iff.mp hstate).1
  exact hsome (h slot hphase p (hp.trans_le hslot) state hstate hactive hbusy)

/-! ## All runs -/

/-- What holds along every run, whoever dies. -/
structure Searching (m : Manifest) (s : System) : Prop where
  live : s.Failed ∨ s.Consistent m
  scanned : s.Scanned
  /-- The download has given up only if it had to. -/
  gaveUp : s.phase = .returned (.error .noHealthyProvider) → s.scheduler.canFinish = false

theorem Searching.moves (h : s.Searching m) (hmoves : Moves blake3 m s action t) :
    t.Searching m := by
  rcases h.live with hfailed | hconsistent
  · -- only the workers still move, and the state that was returned stays
    have hlater := hfailed.moves hmoves
    refine ⟨.inl hlater, scanned_of_phase fun slot hphase ↦ ?_, ?_⟩
    · obtain ⟨error, herror⟩ := hlater
      simp [hphase] at herror
    · obtain ⟨error, herror⟩ := hfailed
      cases hmoves with
      | finish hphase => exact absurd herror (hphase _)
      | receive | respond | leave | panic => exact h.gaveUp
      | _ => simp_all
  · refine ⟨hconsistent.moves hmoves, h.scanned.moves hconsistent.agrees hmoves, ?_⟩
    cases hmoves with
    | giveUp hphase hslot hcomplete hidle =>
      intro _
      exact h.scanned.canFinish_eq_false hconsistent.agrees hphase hslot hcomplete hidle
    | receive | respond | leave | panic => exact h.gaveUp
    | misplaced _ _ _ ht | refused _ _ _ _ ht | abandon _ _ _ _ ht | misreported _ _ _ ht =>
      simp [ht]
    | _ => simp

theorem searching_start {availability : List PieceAvailability} {completed : List Bool}
    {scheduler : Scheduler}
    (hnew : Scheduler.new m.chunks.length availability completed = .ok scheduler) :
    (System.start scheduler completed availability.length).Searching m :=
  ⟨.inr (consistent_start hnew), scanned_of_phase (by simp [start]), by simp [start]⟩

/-- **No premature give-up.** After any calls on a new scheduler, if it is not complete, has nothing
in flight and no missing chunk is without an active source, then somebody can be asked. And however
the threads of a download interleave, whatever the providers answer and whichever workers die, the
download gives up for want of a healthy provider only if some missing chunk has no active source. -/
theorem no_premature_giveUp {availability : List PieceAvailability} {completed : List Bool}
    {scheduler : Scheduler}
    (hnew : Scheduler.new m.chunks.length availability completed = .ok scheduler) :
    (∀ calls : List Scheduler.Call, (scheduler.run calls).isComplete = false →
      (scheduler.run calls).hasInFlight = false → (scheduler.run calls).canFinish = true →
        ∃ p index, ((scheduler.run calls).assign p).1 = some index) ∧
    ∀ s : System, Relation.ReflTransGen (Transition.Step (System.step blake3 m))
        (System.start scheduler completed availability.length) s →
      s.phase = .returned (.error .noHealthyProvider) →
        s.scheduler.canFinish = false ∧
          ∃ i : ℕ, s.scheduler.chunks[i]? = some .missing ∧ s.scheduler.sourceCount i = 0 := by
  obtain ⟨hlength, hfit⟩ := Scheduler.length_chunks_new hnew
  constructor
  · intro calls hcomplete hidle hfinish
    obtain ⟨hrun, hchunks, -⟩ := (Scheduler.consistent_new hnew).run calls
    exact hrun.exists_assign (by rwa [hchunks, hlength]) hcomplete hidle hfinish
  · intro s hrun hphase
    have hs : s.Searching m :=
      Transition.invariant (I := Searching m)
        (fun _ _ h ⟨_, hstep⟩ ↦ h.moves (moves_of_consistent hfit h.live hstep))
        (searching_start hnew) hrun
    have hfinish := hs.gaveUp hphase
    refine ⟨hfinish, ?_⟩
    by_contra hall
    push Not at hall
    rw [Scheduler.canFinish_iff.mpr fun i hi ↦ Nat.pos_of_ne_zero (hall i hi)] at hfinish
    cases hfinish

/-! ### All workers gone

The workers of both providers die before they are sent anything, the first after its slot has been
asked for a chunk in vain. -/

namespace Deserted

open Vectors

def actions : List Action :=
  [.panic 0, .coordinate true, .coordinate true, .panic 1, .coordinate true, .coordinate true]

theorem isSome_run : (Transition.run (System.step payloadHash payloadManifest)
    (System.start Failover.scheduler [false] 2) actions).isSome = true := by
  decide +kernel

/-- The state after the run. -/
def final : System := (Transition.run (System.step payloadHash payloadManifest)
  (System.start Failover.scheduler [false] 2) actions).get isSome_run

end Deserted

theorem no_premature_giveUp_deserted :
    Deserted.final.phase = .returned (.error .noHealthyProvider) ∧
      Deserted.final.scheduler.canFinish = false := by
  have hphase : Deserted.final.phase = .returned (.error .noHealthyProvider) := rfl
  refine ⟨hphase, ?_⟩
  exact ((@no_premature_giveUp Vectors.payloadHash Vectors.payloadManifest
    [Failover.pieces, Failover.pieces] [false] Failover.scheduler (by decide +kernel)).2
    Deserted.final (Transition.reflTransGen_of_run (Option.some_get Deserted.isSome_run).symm)
    hphase).1

end System

end TripTorrent

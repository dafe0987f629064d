import TripTorrent.Protocol.Availability
import TripTorrent.Swarm.Invariant

/-!
# Rarest first

Which chunk an idle provider is asked for: among the missing chunks it has, the one with the fewest
active sources, and of those the one that comes first in the file. The scheduler searches its list
of chunks by position and saturates the positions to chunk indices; since the chunks of a scheduler
can be numbered, nothing is lost in the conversion.
-/

namespace TripTorrent

namespace Scheduler

/-- Slot `p` is active and idle, and has a chunk that is missing. -/
def Eligible (s : Scheduler) (p : ℕ) (index : UInt32) : Prop :=
  ∃ state, s.providers[p]? = some state ∧ state.active = true ∧ state.busy = false ∧
    state.availability.contains index = true ∧ s.chunks[index.toNat]? = some .missing

/-- How many active providers have a chunk, and then its place in the file. -/
def rarity (s : Scheduler) (index : UInt32) : ℕ ×ₗ ℕ :=
  toLex (s.providers.countP fun q ↦ q.active && q.availability.contains index, index.toNat)

variable {s : Scheduler} {p : ℕ} {index : UInt32}

theorem saturateU32_toNat (index : UInt32) : saturateU32 index.toNat = index := by
  have hlt := index.toNat_lt
  rw [saturateU32, min_eq_left (by omega), UInt32.ofNat_toNat]

theorem rarity_eq (s : Scheduler) (index : UInt32) :
    s.rarity index = toLex (s.sourceCount index.toNat, index.toNat) := by
  rw [rarity, sourceCount, saturateU32_toNat]

/-- The candidates at an idle provider are the chunks it may be asked for. -/
theorem mem_candidates_of_eligible {state : ProviderState}
    (hstate : s.providers[p]? = some state) (h : s.Eligible p index) :
    s.rarity index ∈ s.candidates state.availability := by
  obtain ⟨state', hstate', -, -, hpiece, hmissing⟩ := h
  obtain rfl := Option.some.inj (hstate.symm.trans hstate')
  exact mem_candidates.mpr
    ⟨index.toNat, hmissing, by rwa [saturateU32_toNat], rarity_eq s index⟩

/-- An assignment hands out a rarest chunk, unless there is none to hand out. -/
theorem assign_rarest (hcount : s.chunks.length < 2 ^ 32) (p : ℕ) :
    (s.assign p = (none, s) ∧ ∀ index, ¬ s.Eligible p index) ∨
    ∃ index, s.assign p = (some index, s.claim p index.toNat) ∧ s.Eligible p index ∧
      ∀ other, s.Eligible p other → s.rarity index ≤ s.rarity other := by
  obtain ⟨hassign, hnone⟩ | ⟨state, i, hstate, hactive, hidle, hi, hpiece, hleast, hassign⟩ :=
    s.assign_cases p
  · refine .inl ⟨hassign, fun index h ↦ ?_⟩
    obtain ⟨state, hstate, hactive, hidle, -, -⟩ := id h
    have hmem := mem_candidates_of_eligible hstate h
    rw [hnone state hstate hactive hidle] at hmem
    cases hmem
  · have hlt : i < 2 ^ 32 := (List.getElem?_eq_some_iff.mp hi).1.trans hcount
    obtain ⟨index, rfl⟩ : ∃ index : UInt32, index.toNat = i :=
      ⟨.ofNat i, UInt32.toNat_ofNat_of_lt' hlt⟩
    rw [saturateU32_toNat] at hpiece
    rw [if_pos hlt, UInt32.ofNat_toNat] at hassign
    refine .inr ⟨index, hassign, ⟨state, hstate, hactive, hidle, hpiece, hi⟩, fun other h ↦ ?_⟩
    rw [rarity_eq]
    exact hleast _ (mem_candidates_of_eligible hstate h)

section New

variable {chunkCount : ℕ} {availability : List PieceAvailability} {completed : List Bool}

/-- **Rarest-first assignment.** After any calls on a new scheduler, a provider is asked for a chunk
exactly when there is one it may be asked for. It is then asked for a rarest of them, which is
marked as in flight at the provider and the provider as busy; otherwise nothing changes. -/
theorem rarest_first (h : Scheduler.new chunkCount availability completed = .ok s)
    (calls : List Call) (p : ℕ) :
    ((∃ index, ((s.run calls).assign p).1 = some index) ↔
      ∃ index, (s.run calls).Eligible p index) ∧
    (∀ index, ((s.run calls).assign p).1 = some index →
      (s.run calls).Eligible p index ∧
      (∀ other, (s.run calls).Eligible p other →
        (s.run calls).rarity index ≤ (s.run calls).rarity other) ∧
      ((s.run calls).assign p).2 =
        { s.run calls with
          chunks := (s.run calls).chunks.set index.toNat (.inFlight p)
          providers := (s.run calls).providers.modify p fun q ↦ { q with busy := true } }) ∧
    (((s.run calls).assign p).1 = none → ((s.run calls).assign p).2 = s.run calls) := by
  obtain ⟨hlength, hfit⟩ := length_chunks_new h
  have hchunks := ((consistent_new h).run calls).2.1
  have hcount : (s.run calls).chunks.length < 2 ^ 32 := by
    rw [hchunks, hlength]
    exact hfit
  obtain ⟨hassign, hnone⟩ | ⟨index, hassign, heligible, hleast⟩ := assign_rarest hcount p
  · rw [hassign]
    refine ⟨⟨?_, ?_⟩, ?_, fun _ ↦ rfl⟩
    · rintro ⟨index, hindex⟩
      cases hindex
    · rintro ⟨index, hindex⟩
      exact absurd hindex (hnone index)
    · intro index hindex
      cases hindex
  · rw [hassign]
    refine ⟨⟨fun _ ↦ ⟨index, heligible⟩, fun _ ↦ ⟨index, rfl⟩⟩, ?_, ?_⟩
    · intro index' hindex
      obtain rfl := Option.some.inj hindex
      exact ⟨heligible, hleast, rfl⟩
    · intro hindex
      cases hindex

end New

end Scheduler

/-! Two providers of two chunks, of which the second has only the first chunk. The other chunk is
the rarer one. -/

namespace Vectors

def unevenAvailability : List PieceAvailability := [.all 2, .fromIndices 2 [0]]

def unevenScheduler : Scheduler :=
  ⟨[.missing, .missing], [⟨.all 2, true, false, 0, 0⟩, ⟨.fromIndices 2 [0], true, false, 0, 0⟩], 0⟩

end Vectors

open Vectors in
theorem rarest_first_unevenScheduler :
    Scheduler.new 2 unevenAvailability [false, false] = .ok unevenScheduler ∧
      (unevenScheduler.assign 0).1 = some 1 ∧ unevenScheduler.Eligible 0 0 ∧
      unevenScheduler.rarity 1 ≤ unevenScheduler.rarity 0 := by
  have hnew : Scheduler.new 2 unevenAvailability [false, false] = .ok unevenScheduler := by
    decide +kernel
  have hassign : (unevenScheduler.assign 0).1 = some 1 := by decide +kernel
  have heligible : unevenScheduler.Eligible 0 0 :=
    ⟨⟨.all 2, true, false, 0, 0⟩, rfl, rfl, rfl, by decide +kernel, rfl⟩
  have hrarest := (Scheduler.rarest_first hnew [] 0).2.1 1 hassign
  exact ⟨hnew, hassign, heligible, hrarest.2.1 0 heligible⟩

end TripTorrent

import TripTorrent.Research.Simulation

/-!
# Consistency of the reported metrics

The counters are updated by different conditions: a lookup that is eclipsed has not succeeded, a
node that sees both sides is one of a colluding pair, and a requester is linked only where its key
is. `Consistent` relates them after a number of lookups and contents, and each step of the
simulation keeps it: a publication, a lookup, and the end of a content.

A policy with oblivious lookups under derived keys and indirect records leaves the counters of
linkage at zero (`Unlinked`).
-/

namespace TripTorrent.Research

open Codec Selection

variable {n : ℕ} {scenario : ResearchScenario} {policy : Policy}
  {replicaCount published lookups finished : ℕ} {metrics metrics' : ResearchMetrics}
  {state : ContentState n}

/-- A policy under which no node learns a raw key, or who asks or provides. -/
structure Policy.Hides (policy : Policy) : Prop where
  key : policy.key ≠ .raw
  origin : policy.origin = .oblivious
  provider : policy.provider = .indirect

/-- Nothing has been linked. -/
structure Unlinked (metrics : ResearchMetrics) : Prop where
  rawContentObservers : metrics.rawContentObservers = 0
  requesterKeyObservers : metrics.requesterKeyObservers = 0
  providerKeyObservers : metrics.providerKeyObservers = 0
  adversaryBothSides : metrics.adversaryBothSides = 0
  colludingAdversaryBothSides : metrics.colludingAdversaryBothSides = 0
  repeatedRequesterLinkability : metrics.repeatedRequesterLinkability = 0

/-- How the counters are related after contents have been published, lookups made, and contents
finished. -/
structure Consistent (scenario : ResearchScenario) (policy : Policy)
    (replicaCount published lookups finished : ℕ) (metrics : ResearchMetrics) : Prop where
  lookups_eq : metrics.lookups = scenario.contents * scenario.lookupsPerContent
  contents_eq : metrics.contents = scenario.contents
  outcomes_le : metrics.successes + metrics.eclipsedLookups ≤ lookups
  bothSides_le : metrics.adversaryBothSides ≤ metrics.colludingAdversaryBothSides
  colluding_le : metrics.colludingAdversaryBothSides ≤ lookups
  repeatedRequester_le :
    metrics.repeatedRequesterLinkability ≤ metrics.repeatedKeyLinkability
  repeatedKey_le : metrics.repeatedKeyLinkability ≤ finished
  sybil_le : metrics.sybilRecords ≤ metrics.storedRecords
  stored_le : metrics.storedRecords ≤ published * replicaCount
  unlinked : policy.Hides → Unlinked metrics

theorem consistent_emptyMetrics (scenario : ResearchScenario) (nodes routingEntries : ℕ) :
    Consistent scenario policy replicaCount 0 0 0 (emptyMetrics scenario nodes routingEntries) where
  lookups_eq := rfl
  contents_eq := rfl
  outcomes_le := le_rfl
  bothSides_le := le_rfl
  colluding_le := le_rfl
  repeatedRequester_le := le_rfl
  repeatedKey_le := le_rfl
  sybil_le := le_rfl
  stored_le := Nat.zero_le _
  unlinked _ := ⟨rfl, rfl, rfl, rfl, rfl, rfl⟩

/-- The counters during the lookups of a content: a node is linked with the requester no more often
than it learns the key. -/
structure ContentConsistent (scenario : ResearchScenario) (policy : Policy)
    (replicaCount published lookups finished : ℕ) (state : ContentState n) : Prop extends
    Consistent scenario policy replicaCount published lookups finished state.metrics where
  counts_le : ∀ index,
    state.maliciousRequesterRepeatCounts index ≤ state.maliciousRepeatCounts index
  counts_eq_zero : policy.Hides → ∀ index, state.maliciousRequesterRepeatCounts index = 0

theorem Run.consistent_publish {run : Run n} {content : ℕ} {providerObservers : Finset (Fin n)}
    (hhides : run.policy.Hides → providerObservers = ∅)
    (h : Consistent scenario run.policy run.replicaCount published lookups finished metrics) :
    Consistent scenario run.policy run.replicaCount (published + 1) lookups finished
      (run.publish content providerObservers metrics) := by
  have hstored := run.card_replicas_le content
  have hsybil := Finset.card_filter_le (run.replicas content) fun index ↦ (run.nodes index).sybil
  refine { h with sybil_le := ?_, stored_le := ?_, unlinked := fun hpolicy ↦ ?_ }
  · exact Nat.add_le_add h.sybil_le hsybil
  · rw [Nat.succ_mul]
    exact Nat.add_le_add h.stored_le hstored
  · refine { h.unlinked hpolicy with providerKeyObservers := ?_ }
    rw [publish, hhides hpolicy, Finset.card_empty, Nat.add_zero]
    exact (h.unlinked hpolicy).providerKeyObservers

/-- A condition that implies another is counted no more often. -/
theorem add_ite_le_add_ite {p q : Prop} [Decidable p] [Decidable q] {a b : ℕ} (hpq : p → q)
    (hab : a ≤ b) : (a + if p then 1 else 0) ≤ b + if q then 1 else 0 := by
  by_cases hp : p
  · rw [if_pos hp, if_pos (hpq hp)]
    omega
  · rw [if_neg hp]
    exact hab.trans (Nat.le_add_right _ _)

theorem ite_one_le_one {p : Prop} [Decidable p] : (if p then 1 else 0) ≤ 1 := by
  split_ifs <;> omega

/-- A lookup keeps the counters consistent. -/
theorem ContentConsistent.addLookup {nodes : Fin n → Node n} {providerObservers : Finset (Fin n)}
    {combined : LookupTrace n}
    (h : ContentConsistent scenario policy replicaCount published lookups finished state) :
    ContentConsistent scenario policy replicaCount published (lookups + 1) finished
      (state.addLookup nodes policy providerObservers combined) := by
  refine { h with
    outcomes_le := ?_
    bothSides_le := add_ite_le_add_ite ?_ h.bothSides_le
    colluding_le := Nat.add_le_add h.colluding_le ite_one_le_one
    unlinked := fun hhides ↦ ?_
    counts_le := fun index ↦ add_ite_le_add_ite And.left (h.counts_le index)
    counts_eq_zero := fun hhides index ↦ ?_ }
  · -- a lookup succeeds or is eclipsed
    have houtcomes := h.outcomes_le
    simp only [ContentState.addLookup]
    split_ifs with hsuccess heclipsed
    · exact absurd (hsuccess.symm.trans heclipsed.1) (by decide)
    all_goals omega
  · -- a node that sees both sides is malicious, and an observer of the provider
    rintro ⟨hdirect, index, hobserver, hprovider⟩
    exact ⟨hdirect, Finset.ne_empty_of_mem hobserver, index, hprovider,
      (Finset.mem_filter.mp hobserver).2⟩
  · have hunlinked := h.unlinked hhides
    refine { hunlinked with
      rawContentObservers := ?_
      requesterKeyObservers := ?_
      adversaryBothSides := ?_
      colludingAdversaryBothSides := ?_ }
    · simp [ContentState.addLookup, hhides.key, hunlinked.rawContentObservers]
    · simp [ContentState.addLookup, hhides.origin, hunlinked.requesterKeyObservers]
    · simp [ContentState.addLookup, hhides.provider, hunlinked.adversaryBothSides]
    · simp [ContentState.addLookup, hhides.provider, hunlinked.colludingAdversaryBothSides]
  · simp [ContentState.addLookup, hhides.origin, h.counts_eq_zero hhides]

theorem ContentConsistent.finish
    (h : ContentConsistent scenario policy replicaCount published lookups finished state) :
    Consistent scenario policy replicaCount published lookups (finished + 1) state.finish := by
  refine { h.toConsistent with
    repeatedRequester_le := add_ite_le_add_ite ?_ h.repeatedRequester_le
    repeatedKey_le := Nat.add_le_add h.repeatedKey_le ite_one_le_one
    unlinked := fun hhides ↦ { h.unlinked hhides with repeatedRequesterLinkability := ?_ } }
  · rintro ⟨index, hindex⟩
    exact ⟨index, hindex.trans_le (h.counts_le index)⟩
  · simp [ContentState.finish, h.counts_eq_zero hhides,
      (h.unlinked hhides).repeatedRequesterLinkability]

/-! ## Runs -/

section

variable {run : Run n} {content : ℕ}

theorem Run.consistent_simulateContent
    (h : Consistent scenario run.policy run.replicaCount finished lookups finished metrics)
    (hcontent : run.simulateContent metrics content = some metrics') :
    Consistent scenario run.policy run.replicaCount (finished + 1) (lookups + run.lookupsPerContent)
      (finished + 1) metrics' := by
  obtain ⟨provider, requester, state, -, -, hstate, rfl⟩ :=
    simulateContent_eq_some_iff.mp hcontent
  have hobservers (hhides : run.policy.Hides) :
      run.providerObservers provider (run.target content) (run.replicas content) = ∅ :=
    if_pos hhides.provider
  have hstart : ContentConsistent scenario run.policy run.replicaCount (finished + 1) lookups
      finished (⟨run.publish content
        (run.providerObservers provider (run.target content) (run.replicas content)) metrics,
        fun _ ↦ 0, fun _ ↦ 0⟩ : ContentState n) :=
    { run.consistent_publish hobservers h with
      counts_le := fun _ ↦ le_rfl
      counts_eq_zero := fun _ _ ↦ rfl }
  refine ContentConsistent.finish (Outcome.foldlM_range_keeps (P := fun made state ↦
    ContentConsistent scenario run.policy run.replicaCount (finished + 1) (lookups + made)
      finished state) ?_ hstart hstate)
  intro repetition state state' hkept hstep
  obtain ⟨combined, -, rfl⟩ := addRepetition_eq_some_iff.mp hstep
  exact hkept.addLookup

end

section

variable {stableHash : List UInt8 → UInt64 → UInt64} {sort : UnstableSort ℕ}
  {candidate : DiscoveryCandidate} {tuning : ResearchTuning} {result : ResearchResult}

theorem consistent_of_simulateWithTuning
    (h : simulateWithTuning stableHash sort scenario candidate tuning = some result) :
    Consistent scenario (policyOf candidate tuning) tuning.replicaCount scenario.contents
      (scenario.contents * scenario.lookupsPerContent) scenario.contents result.metrics := by
  obtain ⟨-, nodes, metrics, -, hmetrics, rfl⟩ := simulateWithTuning_eq_some_iff.mp h
  refine Outcome.foldlM_range_keeps (P := fun made metrics ↦
    Consistent scenario (policyOf candidate tuning) tuning.replicaCount made
      (made * scenario.lookupsPerContent) made metrics) ?_ ?_ hmetrics
  · intro content metrics metrics' hkept hstep
    rw [Nat.succ_mul]
    exact Run.consistent_simulateContent hkept hstep
  · rw [Nat.zero_mul]
    exact consistent_emptyMetrics scenario _ _

theorem hides_policyOf (horigin : candidate.policy.origin = .oblivious)
    (hprovider : candidate.policy.provider = .indirect) : (policyOf candidate tuning).Hides := by
  cases candidate with
  | vanillaKademlia => cases horigin
  | blindedKademlia => cases horigin
  | distributedRendezvous =>
    exact ⟨(by decide : LookupKey.capabilityDerived ≠ .raw), rfl, rfl⟩
  | separatedMultiStage =>
    exact ⟨(by decide : LookupKey.capabilityDerived ≠ .raw), rfl, rfl⟩

/-- **The reported metrics are consistent**, for any hash, sort, scenario, tuning and candidate with
which the simulation ends. -/
theorem reported_metrics_consistent
    (h : simulateWithTuning stableHash sort scenario candidate tuning = some result) :
    result.metrics.lookups = scenario.contents * scenario.lookupsPerContent ∧
    result.metrics.contents = scenario.contents ∧
    result.metrics.successes + result.metrics.eclipsedLookups ≤ result.metrics.lookups ∧
    result.metrics.adversaryBothSides ≤ result.metrics.colludingAdversaryBothSides ∧
    result.metrics.colludingAdversaryBothSides ≤ result.metrics.lookups ∧
    result.metrics.repeatedRequesterLinkability ≤ result.metrics.repeatedKeyLinkability ∧
    result.metrics.repeatedKeyLinkability ≤ result.metrics.contents ∧
    result.metrics.sybilRecords ≤ result.metrics.storedRecords ∧
    result.metrics.storedRecords ≤ result.metrics.contents * tuning.replicaCount ∧
    (candidate.policy.origin = .oblivious → candidate.policy.provider = .indirect →
      Unlinked result.metrics) := by
  have hconsistent := consistent_of_simulateWithTuning h
  rw [hconsistent.lookups_eq, hconsistent.contents_eq]
  exact ⟨rfl, rfl, hconsistent.outcomes_le, hconsistent.bothSides_le, hconsistent.colluding_le,
    hconsistent.repeatedRequester_le, hconsistent.repeatedKey_le, hconsistent.sybil_le,
    hconsistent.stored_le,
    fun horigin hprovider ↦ hconsistent.unlinked (hides_policyOf horigin hprovider)⟩

theorem reported_metrics_consistent_nineNodes :
    ∃ result, simulateWithTuning (fun _ value ↦ value) (.insertion ℕ) nineNodes
        .distributedRendezvous ⟨0, 1, 1, 0⟩ = some result ∧
      result.metrics.successes + result.metrics.eclipsedLookups ≤ 1 ∧
      result.metrics.requesterKeyObservers = 0 := by
  have hsome : (simulateWithTuning (fun _ value ↦ value) (.insertion ℕ) nineNodes
      .distributedRendezvous ⟨0, 1, 1, 0⟩).isSome := by decide +kernel
  obtain ⟨result, hresult⟩ := Option.isSome_iff_exists.mp hsome
  obtain ⟨hlookups, -, houtcomes, -, -, -, -, -, -, hunlinked⟩ :=
    reported_metrics_consistent hresult
  rw [hlookups] at houtcomes
  exact ⟨result, hresult, houtcomes, (hunlinked rfl rfl).requesterKeyObservers⟩

end

end TripTorrent.Research

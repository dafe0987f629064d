import TripTorrent.Research.Metrics

/-!
# Trials

A summary of seeded trials adds up the metrics of the runs and reports averages. The replicas that
it reports as honest are what is left of all replicas without those on Sybil identities; this is
computed from the totals, and the same as when it is computed for each run.
-/

namespace TripTorrent.Research

open Selection

/-! ## Averages -/

def permille (part total : ℕ) : ℕ := min (part * 1000) (2 ^ 64 - 1) / max total 1

def tenths (total count : ℕ) : ℕ := min (total * 10) (2 ^ 64 - 1) / max count 1

/-- The metrics before the first trial. -/
def noMetrics : ResearchMetrics := ⟨0, 0, 0, 0, 0, 0, 0, 0, 0, 0, 0, 0, 0, 0, 0, 0, 0, 0⟩

def accumulateMetrics (total value : ResearchMetrics) : ResearchMetrics where
  lookups := total.lookups + value.lookups
  successes := total.successes + value.successes
  routingRounds := total.routingRounds + value.routingRounds
  lookupKeyObservers := total.lookupKeyObservers + value.lookupKeyObservers
  rawContentObservers := total.rawContentObservers + value.rawContentObservers
  requesterKeyObservers := total.requesterKeyObservers + value.requesterKeyObservers
  providerKeyObservers := total.providerKeyObservers + value.providerKeyObservers
  adversaryBothSides := total.adversaryBothSides + value.adversaryBothSides
  colludingAdversaryBothSides :=
    total.colludingAdversaryBothSides + value.colludingAdversaryBothSides
  eclipsedLookups := total.eclipsedLookups + value.eclipsedLookups
  repeatedKeyLinkability := total.repeatedKeyLinkability + value.repeatedKeyLinkability
  repeatedRequesterLinkability :=
    total.repeatedRequesterLinkability + value.repeatedRequesterLinkability
  controlMessages := total.controlMessages + value.controlMessages
  storedRecords := total.storedRecords + value.storedRecords
  sybilRecords := total.sybilRecords + value.sybilRecords
  routingEntries := total.routingEntries + value.routingEntries
  nodes := total.nodes + value.nodes
  contents := total.contents + value.contents

/-! ## Trials -/

/-- `[first, second, third][index % 3]` -/
def oneOfThree {α : Type} (first second third : α) (index : ℕ) : α :=
  if index % 3 = 0 then first else if index % 3 = 1 then second else third

def trialScenario (trial : ℕ) : ResearchScenario where
  ordinaryNodes := oneOfThree 100 180 260 trial
  maliciousPercent := oneOfThree 5 15 30 trial
  sybilNodes := oneOfThree 0 24 64 trial
  sybilGroups := oneOfThree 1 4 16 trial
  failedPercent := oneOfThree 0 10 20 (trial / 2)
  contents := 4
  lookupsPerContent := if trial % 2 = 0 then 4 else 8

def trialSeeds : List UInt64 :=
  [0x10203040, 0x22334455, 0x31415926, 0x42424242, 0x55667788, 0x61728394, 0x70000001, 0x81234567,
    0x90abcdef, 0xa1b2c3d4, 0xbad0cafe, 0xc001d00d]

/-- There are twelve seeds, and the program stops at a thirteenth trial. -/
def trialTuning (trial : ℕ) : Option ResearchTuning :=
  trialSeeds[trial]?.map fun seed ↦
    { seed := seed
      replicaCount := oneOfThree 4 8 12 (trial / 2)
      separatedLookupPaths := oneOfThree 1 3 5 trial
      routingContaminationPercent := oneOfThree 0 20 50 (trial / 3) }

structure MonteCarloSummary where
  candidate : DiscoveryCandidate
  trials : ℕ
  successMinPermille : ℕ
  successMedianPermille : ℕ
  successMaxPermille : ℕ
  eclipseMedianPermille : ℕ
  averageRoundsTenths : ℕ
  averageMessagesTenths : ℕ
  honestReplicasTenths : ℕ
  maliciousReplicasTenths : ℕ
  requesterKeyObserversTenths : ℕ
  providerKeyObserversTenths : ℕ
  sameAdversaryPermille : ℕ
  colludingAdversaryPermille : ℕ
  repeatedKeyLinkabilityPermille : ℕ

/-- What has been gathered from the trials so far. -/
structure TrialState where
  successRates : List ℕ
  eclipseRates : List ℕ
  totals : ResearchMetrics

section

variable (stableHash : List UInt8 → UInt64 → UInt64) (sort : UnstableSort ℕ)
  (candidate : DiscoveryCandidate)

/-- The metrics of a trial. -/
def runTrial (trial : ℕ) : Option ResearchMetrics := do
  let tuning ← trialTuning trial
  let result ← simulateWithTuning stableHash sort (trialScenario trial) candidate tuning
  some result.metrics

def addTrial (state : TrialState) (trial : ℕ) : Option TrialState := do
  let metrics ← runTrial stableHash sort candidate trial
  some
    { successRates := state.successRates ++ [permille metrics.successes metrics.lookups]
      eclipseRates := state.eclipseRates ++ [permille metrics.eclipsedLookups metrics.lookups]
      totals := accumulateMetrics state.totals metrics }

def summarizeTrials (trialCount : ℕ) : Option MonteCarloSummary := do
  let state ← (List.range trialCount).foldlM (addTrial stableHash sort candidate)
    ⟨[], [], noMetrics⟩
  let successRates := state.successRates.insertionSort (· ≤ ·)
  let eclipseRates := state.eclipseRates.insertionSort (· ≤ ·)
  let successMin ← successRates[0]?
  let successMedian ← successRates[trialCount / 2]?
  let successMax ← successRates[trialCount - 1]?
  let eclipseMedian ← eclipseRates[trialCount / 2]?
  let totals := state.totals
  some
    { candidate := candidate
      trials := trialCount
      successMinPermille := successMin
      successMedianPermille := successMedian
      successMaxPermille := successMax
      eclipseMedianPermille := eclipseMedian
      averageRoundsTenths := tenths totals.routingRounds totals.lookups
      averageMessagesTenths := tenths totals.controlMessages totals.lookups
      honestReplicasTenths :=
        tenths (totals.storedRecords - totals.sybilRecords) totals.contents
      maliciousReplicasTenths := tenths totals.sybilRecords totals.contents
      requesterKeyObserversTenths := tenths totals.requesterKeyObservers totals.lookups
      providerKeyObserversTenths := tenths totals.providerKeyObservers totals.contents
      sameAdversaryPermille := permille totals.adversaryBothSides totals.lookups
      colludingAdversaryPermille :=
        permille totals.colludingAdversaryBothSides totals.lookups
      repeatedKeyLinkabilityPermille :=
        permille totals.repeatedKeyLinkability totals.contents }

end

/-! ## The report on replicas -/

/-- The replicas of a run that are reported as honest. -/
def ResearchMetrics.honestReplicas (metrics : ResearchMetrics) : ℕ :=
  metrics.storedRecords - metrics.sybilRecords

/-- The replicas of a run that are reported as malicious. -/
def ResearchMetrics.maliciousReplicas (metrics : ResearchMetrics) : ℕ := metrics.sybilRecords

variable {stableHash : List UInt8 → UInt64 → UInt64} {sort : UnstableSort ℕ}
  {candidate : DiscoveryCandidate} {trial : ℕ} {state state' : TrialState}
  {metrics : ResearchMetrics}

theorem sybilRecords_le_of_runTrial (h : runTrial stableHash sort candidate trial = some metrics) :
    metrics.sybilRecords ≤ metrics.storedRecords := by
  obtain ⟨tuning, -, hresult⟩ := Option.bind_eq_some_iff.mp h
  obtain ⟨result, hrun, hmetrics⟩ := Option.bind_eq_some_iff.mp hresult
  rw [← Option.some.inj hmetrics]
  exact (consistent_of_simulateWithTuning hrun).sybil_le

/-- The totals of the trials so far. -/
structure AddsUp (stableHash : List UInt8 → UInt64 → UInt64) (sort : UnstableSort ℕ)
    (candidate : DiscoveryCandidate) (runs : List ResearchMetrics) (state : TrialState) :
    Prop where
  runs_eq : ∀ trial < runs.length, runTrial stableHash sort candidate trial = runs[trial]?
  honest : state.totals.storedRecords =
    (runs.map ResearchMetrics.honestReplicas).sum + state.totals.sybilRecords
  malicious : state.totals.sybilRecords = (runs.map ResearchMetrics.maliciousReplicas).sum
  contents : state.totals.contents = (runs.map ResearchMetrics.contents).sum

theorem AddsUp.addTrial {runs : List ResearchMetrics}
    (h : AddsUp stableHash sort candidate runs state)
    (htrial : Research.addTrial stableHash sort candidate state runs.length = some state') :
    ∃ metrics, AddsUp stableHash sort candidate (runs ++ [metrics]) state' := by
  obtain ⟨metrics, hmetrics, hstate⟩ := Option.bind_eq_some_iff.mp htrial
  obtain rfl := Option.some.inj hstate
  have hsybil := sybilRecords_le_of_runTrial hmetrics
  refine ⟨metrics, fun trial htrial ↦ ?_, ?_, ?_, ?_⟩
  · rw [List.length_append, List.length_singleton] at htrial
    rcases Nat.lt_succ_iff_lt_or_eq.mp htrial with hlt | rfl
    · rw [List.getElem?_append_left hlt, h.runs_eq trial hlt]
    · rw [List.getElem?_concat_length, hmetrics]
  · have hhonest := h.honest
    rw [List.map_append, List.sum_append, List.map_singleton, List.sum_singleton,
      ResearchMetrics.honestReplicas]
    dsimp only [accumulateMetrics]
    omega
  · rw [List.map_append, List.sum_append, ← h.malicious, List.map_singleton, List.sum_singleton]
    rfl
  · rw [List.map_append, List.sum_append, ← h.contents, List.map_singleton, List.sum_singleton]
    rfl

/-- **The summary** reports as honest the replicas that are reported as honest for the runs. -/
theorem exists_runs_of_summarizeTrials {trialCount : ℕ} {summary : MonteCarloSummary}
    (h : summarizeTrials stableHash sort candidate trialCount = some summary) :
    ∃ runs : List ResearchMetrics, runs.length = trialCount ∧
      (∀ trial < trialCount, runTrial stableHash sort candidate trial = runs[trial]?) ∧
      summary.honestReplicasTenths = tenths (runs.map ResearchMetrics.honestReplicas).sum
        (runs.map ResearchMetrics.contents).sum ∧
      summary.maliciousReplicasTenths = tenths (runs.map ResearchMetrics.maliciousReplicas).sum
        (runs.map ResearchMetrics.contents).sum := by
  simp only [summarizeTrials, bind, Option.bind_eq_some_iff, Option.some_inj] at h
  obtain ⟨state, hstate, _, -, _, -, _, -, _, -, rfl⟩ := h
  have hkept : ∃ runs : List ResearchMetrics, runs.length = trialCount ∧
      AddsUp stableHash sort candidate runs state := by
    refine Outcome.foldlM_range_keeps (P := fun made state ↦ ∃ runs : List ResearchMetrics,
      runs.length = made ∧ AddsUp stableHash sort candidate runs state) ?_ ?_ hstate
    · rintro trial state state' ⟨runs, rfl, hadds⟩ htrial
      obtain ⟨metrics, hnext⟩ := hadds.addTrial htrial
      exact ⟨runs ++ [metrics], by rw [List.length_append, List.length_singleton], hnext⟩
    · refine ⟨[], rfl, fun trial htrial ↦ ?_, rfl, rfl, rfl⟩
      exact absurd htrial (Nat.not_lt_zero trial)
  obtain ⟨runs, rfl, hadds⟩ := hkept
  refine ⟨runs, rfl, hadds.runs_eq, ?_, ?_⟩
  · dsimp only
    rw [hadds.honest, Nat.add_sub_cancel, hadds.contents]
  · dsimp only
    rw [hadds.malicious, hadds.contents]

end TripTorrent.Research

import TripTorrent.Codec.Outcome
import TripTorrent.Research.Lookup

/-!
# Discovery research

The simulation places records on a topology, looks each of them up several times, and counts what
the nodes on the way learn under one of four discovery policies. It stops at a scenario that it
cannot use, so its result is optional.

The counters are those of the program, and each is updated where the program updates it: a lookup
changes the counters in one step (`ContentState.addLookup`), and so does the end of a content
(`ContentState.finish`).
-/

namespace TripTorrent.Research

open Codec Selection

/-! ## Policies -/

inductive DiscoveryCandidate
  | vanillaKademlia
  | blindedKademlia
  | distributedRendezvous
  | separatedMultiStage
  deriving DecidableEq

inductive LookupKey
  | raw
  | capabilityDerived
  deriving DecidableEq

inductive LookupOrigin
  | direct
  | oblivious
  deriving DecidableEq

inductive ProviderRecord
  | direct
  | indirect
  deriving DecidableEq

inductive RoutingPolicy
  | closest
  | prefixDiverse
  deriving DecidableEq

structure Policy where
  key : LookupKey
  origin : LookupOrigin
  provider : ProviderRecord
  routing : RoutingPolicy
  lookupPaths : ℕ

def DiscoveryCandidate.policy : DiscoveryCandidate → Policy
  | .vanillaKademlia => ⟨.raw, .direct, .direct, .closest, 1⟩
  | .blindedKademlia => ⟨.capabilityDerived, .direct, .direct, .closest, 1⟩
  | .distributedRendezvous => ⟨.capabilityDerived, .oblivious, .indirect, .prefixDiverse, 1⟩
  | .separatedMultiStage => ⟨.capabilityDerived, .oblivious, .indirect, .prefixDiverse, 3⟩

structure ResearchTuning where
  seed : UInt64
  replicaCount : ℕ
  separatedLookupPaths : ℕ
  routingContaminationPercent : UInt8

structure ResearchMetrics where
  lookups : ℕ
  successes : ℕ
  routingRounds : ℕ
  lookupKeyObservers : ℕ
  rawContentObservers : ℕ
  requesterKeyObservers : ℕ
  providerKeyObservers : ℕ
  adversaryBothSides : ℕ
  colludingAdversaryBothSides : ℕ
  eclipsedLookups : ℕ
  repeatedKeyLinkability : ℕ
  repeatedRequesterLinkability : ℕ
  controlMessages : ℕ
  storedRecords : ℕ
  sybilRecords : ℕ
  routingEntries : ℕ
  nodes : ℕ
  contents : ℕ
  deriving DecidableEq

structure ResearchResult where
  scenario : ResearchScenario
  candidate : DiscoveryCandidate
  metrics : ResearchMetrics

/-- The policy of a run. -/
def policyOf (candidate : DiscoveryCandidate) (tuning : ResearchTuning) : Policy :=
  if candidate = .separatedMultiStage then
    { candidate.policy with lookupPaths := tuning.separatedLookupPaths }
  else candidate.policy

def emptyMetrics (scenario : ResearchScenario) (nodes routingEntries : ℕ) : ResearchMetrics where
  lookups := scenario.contents * scenario.lookupsPerContent
  successes := 0
  routingRounds := 0
  lookupKeyObservers := 0
  rawContentObservers := 0
  requesterKeyObservers := 0
  providerKeyObservers := 0
  adversaryBothSides := 0
  colludingAdversaryBothSides := 0
  eclipsedLookups := 0
  repeatedKeyLinkability := 0
  repeatedRequesterLinkability := 0
  controlMessages := 0
  storedRecords := 0
  sybilRecords := 0
  routingEntries := routingEntries
  nodes := nodes
  contents := scenario.contents

/-! ## Lookups under a policy -/

variable {n : ℕ}

/-- What a run works on. -/
structure Run (n : ℕ) where
  stableHash : List UInt8 → UInt64 → UInt64
  sort : UnstableSort ℕ
  nodes : Fin n → Node n
  policy : Policy
  seed : UInt64
  replicaCount : ℕ
  lookupsPerContent : ℕ

def lookupKey (stableHash : List UInt8 → UInt64 → UInt64) (content : ℕ) (blinded : Bool)
    (seed : UInt64) : UInt64 :=
  let raw := stableHash (utf8 "content") (UInt64.ofNat content ^^^ seed)
  if blinded then stableHash (utf8 "capability-key") raw else raw

def combineSeed (content repetition path : ℕ) : UInt64 :=
  rotateLeft (UInt64.ofNat content) 17 ^^^ rotateLeft (UInt64.ofNat repetition) 33 ^^^
    rotateLeft (UInt64.ofNat path) 49

namespace Run

variable (run : Run n)

def providerObservers (provider : Fin n) (target : UInt64) (replicas : Finset (Fin n)) :
    Finset (Fin n) :=
  if run.policy.provider = .indirect then ∅
  else (routeLookup run.sort run.nodes provider target ∅ false).queried ∪ replicas

/-- Where a path of a lookup starts. -/
def pathStart (requester : Fin n) (content repetition path : ℕ) : Option (Fin n) :=
  if run.policy.origin = .oblivious then
    selectNode run.nodes
      (run.stableHash (utf8 "gateway") (combineSeed content repetition path ^^^ run.seed)) false
  else some requester

/-- The trace of another path. -/
def addPath (requester : Fin n) (target : UInt64) (replicas : Finset (Fin n))
    (content repetition : ℕ) (combined : LookupTrace n) (path : ℕ) : Option (LookupTrace n) := do
  let start ← run.pathStart requester content repetition path
  let trace := routeLookup run.sort run.nodes start target replicas
    (run.policy.routing = .prefixDiverse)
  some
    { success := combined.success || trace.success
      rounds := max combined.rounds trace.rounds
      observers := combined.observers ∪ trace.observers
      queried := combined.queried ∪ trace.queried }

def combinedLookup (requester : Fin n) (target : UInt64) (replicas : Finset (Fin n))
    (content repetition : ℕ) : Option (LookupTrace n) := do
  let combined ← (List.range run.policy.lookupPaths).foldlM
    (run.addPath requester target replicas content repetition) ⟨false, 0, ∅, ∅⟩
  some
    (if run.policy.origin = .direct then
      { combined with observers := combined.observers.erase requester }
    else combined)

end Run

/-! ## Counting -/

/-- The counters during the lookups of a content. -/
structure ContentState (n : ℕ) where
  metrics : ResearchMetrics
  maliciousRepeatCounts : Fin n → ℕ
  maliciousRequesterRepeatCounts : Fin n → ℕ

/-- The malicious nodes that learned the key. -/
def maliciousObservers (nodes : Fin n → Node n) (combined : LookupTrace n) : Finset (Fin n) :=
  combined.observers.filter fun index ↦ (nodes index).malicious

def ContentState.addLookup (nodes : Fin n → Node n) (policy : Policy)
    (providerObservers : Finset (Fin n)) (state : ContentState n) (combined : LookupTrace n) :
    ContentState n :=
  let observers := maliciousObservers nodes combined
  let metrics := state.metrics
  { metrics :=
      { metrics with
        successes := metrics.successes + if combined.success then 1 else 0
        routingRounds := metrics.routingRounds + combined.rounds
        lookupKeyObservers := metrics.lookupKeyObservers + combined.observers.card
        rawContentObservers :=
          metrics.rawContentObservers + if policy.key = .raw then combined.observers.card else 0
        requesterKeyObservers := metrics.requesterKeyObservers +
          if policy.origin = .direct then combined.queried.card else 0
        eclipsedLookups := metrics.eclipsedLookups +
          if combined.success = false ∧ observers ≠ ∅ then 1 else 0
        adversaryBothSides := metrics.adversaryBothSides +
          if policy.provider = .direct ∧ ∃ index ∈ observers, index ∈ providerObservers then 1
          else 0
        colludingAdversaryBothSides := metrics.colludingAdversaryBothSides +
          if policy.provider = .direct ∧ observers ≠ ∅ ∧
            ∃ index ∈ providerObservers, (nodes index).malicious = true then 1 else 0
        controlMessages := metrics.controlMessages + combined.queried.card * 2 +
          (if policy.origin = .oblivious then policy.lookupPaths * 4 else 0) +
          if policy.provider = .indirect then 2 else 0 }
    maliciousRepeatCounts := fun index ↦
      state.maliciousRepeatCounts index + if index ∈ observers then 1 else 0
    maliciousRequesterRepeatCounts := fun index ↦
      state.maliciousRequesterRepeatCounts index +
        if index ∈ observers ∧ policy.origin = .direct then 1 else 0 }

def ContentState.finish (state : ContentState n) : ResearchMetrics :=
  { state.metrics with
    repeatedKeyLinkability := state.metrics.repeatedKeyLinkability +
      if ∃ index, 1 < state.maliciousRepeatCounts index then 1 else 0
    repeatedRequesterLinkability := state.metrics.repeatedRequesterLinkability +
      if ∃ index, 1 < state.maliciousRequesterRepeatCounts index then 1 else 0 }

namespace Run

variable (run : Run n)

/-- The key under which a content is looked up. -/
def target (content : ℕ) : UInt64 :=
  lookupKey run.stableHash content (run.policy.key = .capabilityDerived) run.seed

def replicas (content : ℕ) : Finset (Fin n) :=
  selectReplicas run.sort run.nodes (run.target content) (run.policy.routing = .prefixDiverse)
    run.replicaCount

/-- A node whose part in a content is determined by the seed. -/
def selectPart (domain : List UInt8) (content : ℕ) : Option (Fin n) :=
  selectNode run.nodes (run.stableHash domain (UInt64.ofNat content ^^^ run.seed)) true

/-- One lookup of a content. -/
def addRepetition (requester : Fin n) (content : ℕ) (providerObservers : Finset (Fin n))
    (state : ContentState n) (repetition : ℕ) : Option (ContentState n) := do
  let combined ←
    run.combinedLookup requester (run.target content) (run.replicas content) content repetition
  some (state.addLookup run.nodes run.policy providerObservers combined)

/-- The counters after a content is published. -/
def publish (content : ℕ) (providerObservers : Finset (Fin n)) (metrics : ResearchMetrics) :
    ResearchMetrics :=
  { metrics with
    storedRecords := metrics.storedRecords + (run.replicas content).card
    sybilRecords := metrics.sybilRecords +
      ((run.replicas content).filter fun index ↦ (run.nodes index).sybil).card
    providerKeyObservers := metrics.providerKeyObservers + providerObservers.card }

/-- The publication of a content and its lookups. -/
def simulateContent (metrics : ResearchMetrics) (content : ℕ) : Option ResearchMetrics := do
  let provider ← run.selectPart (utf8 "provider") content
  let providerObservers :=
    run.providerObservers provider (run.target content) (run.replicas content)
  let requester ← run.selectPart (utf8 "requester") content
  let state ← (List.range run.lookupsPerContent).foldlM
    (run.addRepetition requester content providerObservers)
    ⟨run.publish content providerObservers metrics, fun _ ↦ 0, fun _ ↦ 0⟩
  some state.finish

end Run

/-- What the program asserts of a scenario and a tuning. -/
def Usable (scenario : ResearchScenario) (tuning : ResearchTuning) : Prop :=
  kBucketSize < scenario.ordinaryNodes ∧ 0 < scenario.contents ∧
    0 < scenario.lookupsPerContent ∧ (scenario.sybilNodes = 0 ∨ 0 < scenario.sybilGroups) ∧
    0 < tuning.replicaCount ∧ 0 < tuning.separatedLookupPaths ∧
    tuning.routingContaminationPercent ≤ 100

instance (scenario : ResearchScenario) (tuning : ResearchTuning) :
    Decidable (Usable scenario tuning) :=
  inferInstanceAs (Decidable (_ ∧ _))

section

variable (stableHash : List UInt8 → UInt64 → UInt64) (sort : UnstableSort ℕ)

/-- The topology on which a candidate is simulated. -/
def topologyOf (scenario : ResearchScenario) (candidate : DiscoveryCandidate)
    (tuning : ResearchTuning) : Option (Fin scenario.nodeCount → Node scenario.nodeCount) :=
  let firstKey :=
    lookupKey stableHash 0 ((policyOf candidate tuning).key = .capabilityDerived) tuning.seed
  buildTopology stableHash sort scenario firstKey tuning.seed tuning.routingContaminationPercent

/-- A run on a topology. -/
def runOf (scenario : ResearchScenario) (candidate : DiscoveryCandidate) (tuning : ResearchTuning)
    (nodes : Fin n → Node n) : Run n where
  stableHash := stableHash
  sort := sort
  nodes := nodes
  policy := policyOf candidate tuning
  seed := tuning.seed
  replicaCount := tuning.replicaCount
  lookupsPerContent := scenario.lookupsPerContent

def simulateWithTuning (scenario : ResearchScenario) (candidate : DiscoveryCandidate)
    (tuning : ResearchTuning) : Option ResearchResult :=
  if Usable scenario tuning then do
    let nodes ← topologyOf stableHash sort scenario candidate tuning
    let routingEntries := ((List.finRange _).map fun index ↦ (nodes index).routing.length).sum
    let metrics ← (List.range scenario.contents).foldlM
      (runOf stableHash sort scenario candidate tuning nodes).simulateContent
      (emptyMetrics scenario scenario.nodeCount routingEntries)
    some ⟨scenario, candidate, metrics⟩
  else none

/-- The tuning of the first experiments. -/
def defaultTuning : ResearchTuning := ⟨0, kBucketSize, 3, 0⟩

def simulate (scenario : ResearchScenario) (candidate : DiscoveryCandidate) :
    Option ResearchResult :=
  simulateWithTuning stableHash sort scenario candidate defaultTuning

end

/-- Nine nodes, one of them malicious, and one content. -/
def nineNodes : ResearchScenario where
  ordinaryNodes := 9
  maliciousPercent := 12
  sybilNodes := 0
  sybilGroups := 0
  failedPercent := 0
  contents := 1
  lookupsPerContent := 1

/-! ## Runs that end -/

variable {run : Run n} {metrics metrics' : ResearchMetrics} {content : ℕ}

theorem Run.simulateContent_eq_some_iff : run.simulateContent metrics content = some metrics' ↔
    ∃ provider requester state,
      run.selectPart (utf8 "provider") content = some provider ∧
      run.selectPart (utf8 "requester") content = some requester ∧
      (List.range run.lookupsPerContent).foldlM
        (run.addRepetition requester content
          (run.providerObservers provider (run.target content) (run.replicas content)))
        ⟨run.publish content
          (run.providerObservers provider (run.target content) (run.replicas content)) metrics,
          fun _ ↦ 0, fun _ ↦ 0⟩ = some state ∧ state.finish = metrics' := by
  simp only [simulateContent, bind, Option.bind_eq_some_iff, Option.some_inj]
  constructor
  · rintro ⟨provider, hprovider, requester, hrequester, state, hstate, rfl⟩
    exact ⟨provider, requester, state, hprovider, hrequester, hstate, rfl⟩
  · rintro ⟨provider, requester, state, hprovider, hrequester, hstate, rfl⟩
    exact ⟨provider, hprovider, requester, hrequester, state, hstate, rfl⟩

theorem Run.addRepetition_eq_some_iff {requester : Fin n} {providerObservers : Finset (Fin n)}
    {state state' : ContentState n} {repetition : ℕ} :
    run.addRepetition requester content providerObservers state repetition = some state' ↔
      ∃ combined, run.combinedLookup requester (run.target content) (run.replicas content) content
          repetition = some combined ∧
        state.addLookup run.nodes run.policy providerObservers combined = state' := by
  simp only [addRepetition, bind, Option.bind_eq_some_iff, Option.some_inj]

/-- Where a node answers, a lookup has its paths. -/
theorem Run.exists_combinedLookup {index : Fin n} (h : Lookup.Answers run.nodes index)
    (requester : Fin n) (target : UInt64) (replicas : Finset (Fin n)) (content repetition : ℕ) :
    ∃ combined, run.combinedLookup requester target replicas content repetition =
      some combined := by
  have hstart (path : ℕ) :
      ∃ start, run.pathStart requester content repetition path = some start := by
    rw [pathStart]
    split_ifs
    · exact exists_selectNode h
    · exact ⟨requester, rfl⟩
  have hpath (combined : LookupTrace n) (path : ℕ) : ∃ combined',
      run.addPath requester target replicas content repetition combined path = some combined' := by
    obtain ⟨start, hstart⟩ := hstart path
    rw [addPath, hstart]
    exact ⟨_, rfl⟩
  obtain ⟨combined, hcombined⟩ :=
    Outcome.exists_foldlM_range hpath ⟨false, 0, ∅, ∅⟩ run.policy.lookupPaths
  rw [combinedLookup, hcombined]
  exact ⟨_, rfl⟩

theorem Run.exists_simulateContent {index : Fin n} (h : Lookup.Answers run.nodes index)
    (metrics : ResearchMetrics) (content : ℕ) :
    ∃ metrics', run.simulateContent metrics content = some metrics' := by
  obtain ⟨provider, hprovider⟩ :
      ∃ provider, run.selectPart (utf8 "provider") content = some provider := exists_selectNode h
  obtain ⟨requester, hrequester⟩ :
      ∃ requester, run.selectPart (utf8 "requester") content = some requester :=
    exists_selectNode h
  have hstep (providerObservers : Finset (Fin n)) (state : ContentState n) (repetition : ℕ) :
      ∃ state', run.addRepetition requester content providerObservers state repetition =
        some state' := by
    obtain ⟨combined, hcombined⟩ := Run.exists_combinedLookup h requester (run.target content)
      (run.replicas content) content repetition
    exact ⟨_, addRepetition_eq_some_iff.mpr ⟨combined, hcombined, rfl⟩⟩
  obtain ⟨state, hstate⟩ := Outcome.exists_foldlM_range (hstep _) _ run.lookupsPerContent
  exact ⟨_, simulateContent_eq_some_iff.mpr
    ⟨provider, requester, state, hprovider, hrequester, hstate, rfl⟩⟩

/-- A record has no more replicas than the tuning asks for. -/
theorem Run.card_replicas_le (run : Run n) (content : ℕ) :
    (run.replicas content).card ≤ run.replicaCount :=
  (List.toFinset_card_le _).trans (List.length_take_le _ _)

section

variable {stableHash : List UInt8 → UInt64 → UInt64} {sort : UnstableSort ℕ}
  {scenario : ResearchScenario} {candidate : DiscoveryCandidate} {tuning : ResearchTuning}
  {result : ResearchResult}

theorem simulateWithTuning_eq_some_iff :
    simulateWithTuning stableHash sort scenario candidate tuning = some result ↔
      Usable scenario tuning ∧ ∃ nodes metrics,
        topologyOf stableHash sort scenario candidate tuning = some nodes ∧
        (List.range scenario.contents).foldlM
          (runOf stableHash sort scenario candidate tuning nodes).simulateContent
          (emptyMetrics scenario scenario.nodeCount
            ((List.finRange _).map fun index ↦ (nodes index).routing.length).sum) =
          some metrics ∧
        ⟨scenario, candidate, metrics⟩ = result := by
  rw [simulateWithTuning]
  split_ifs with husable
  · simp only [bind, Option.bind_eq_some_iff, Option.some_inj, husable, true_and]
    constructor
    · rintro ⟨nodes, hnodes, metrics, hmetrics, hresult⟩
      exact ⟨nodes, metrics, hnodes, hmetrics, hresult⟩
    · rintro ⟨nodes, metrics, hnodes, hmetrics, hresult⟩
      exact ⟨nodes, hnodes, metrics, hmetrics, hresult⟩
  · simp [husable]

/-- **When the simulation ends.** What is asserted holds, the operator's groups fit, and some node
answers. -/
theorem exists_simulateWithTuning_iff :
    (∃ result, simulateWithTuning stableHash sort scenario candidate tuning = some result) ↔
      Usable scenario tuning ∧ ∃ nodes,
        topologyOf stableHash sort scenario candidate tuning = some nodes ∧
        ∃ index, Lookup.Answers nodes index := by
  constructor
  · rintro ⟨result, hresult⟩
    obtain ⟨husable, nodes, metrics, hnodes, hmetrics, -⟩ :=
      simulateWithTuning_eq_some_iff.mp hresult
    refine ⟨husable, nodes, hnodes, ?_⟩
    -- the first content has a provider
    obtain ⟨contents, hcontents⟩ : ∃ contents, scenario.contents = contents + 1 :=
      ⟨scenario.contents - 1, by have := husable.2.1; omega⟩
    rw [hcontents, List.range_succ_eq_map, List.foldlM_cons] at hmetrics
    obtain ⟨_, hfirst, -⟩ := Option.bind_eq_some_iff.mp hmetrics
    obtain ⟨provider, -, -, hprovider, -⟩ := Run.simulateContent_eq_some_iff.mp hfirst
    exact ⟨provider, answers_of_selectNode hprovider⟩
  · rintro ⟨husable, nodes, hnodes, index, hindex⟩
    have hstep (metrics : ResearchMetrics) (content : ℕ) : ∃ metrics',
        (runOf stableHash sort scenario candidate tuning nodes).simulateContent metrics content =
          some metrics' := Run.exists_simulateContent hindex metrics content
    obtain ⟨metrics, hmetrics⟩ := Outcome.exists_foldlM_range hstep _ scenario.contents
    exact ⟨_, simulateWithTuning_eq_some_iff.mpr ⟨husable, nodes, metrics, hnodes, hmetrics, rfl⟩⟩

end

end TripTorrent.Research

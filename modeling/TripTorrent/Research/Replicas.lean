import Mathlib.Algebra.Order.BigOperators.Group.Finset
import TripTorrent.Research.Trials

/-!
# Honest replicas

The report of the trials takes the replicas on Sybil identities for the malicious ones, and the rest
for the honest ones. A node is malicious also when it is one of the ordinary nodes that drop
records, and a replica on such a node is reported as honest.

So the report is right about a run exactly when no replica is on an ordinary malicious node
(`reportsKinds_iff`), and about all runs of a scenario exactly when the percentage of malicious
nodes amounts to none.
-/

namespace TripTorrent.Research

open Codec Selection
open scoped BigOperators

variable {n : ℕ} {run : Run n} {metrics metrics' : ResearchMetrics} {content : ℕ}

/-! ## What a run counts -/

/-- The records of the contents so far. -/
structure CountsRecords (run : Run n) (contents : ℕ) (metrics : ResearchMetrics) : Prop where
  stored : metrics.storedRecords = ∑ content ∈ Finset.range contents, (run.replicas content).card
  sybil : metrics.sybilRecords = ∑ content ∈ Finset.range contents,
    ((run.replicas content).filter fun index ↦ (run.nodes index).sybil).card

theorem CountsRecords.simulateContent (h : CountsRecords run content metrics)
    (hcontent : run.simulateContent metrics content = some metrics') :
    CountsRecords run (content + 1) metrics' := by
  obtain ⟨provider, requester, state, -, -, hstate, rfl⟩ :=
    Run.simulateContent_eq_some_iff.mp hcontent
  -- the lookups leave the records as they are
  have hkept : state.metrics.storedRecords = metrics.storedRecords + (run.replicas content).card ∧
      state.metrics.sybilRecords = metrics.sybilRecords +
        ((run.replicas content).filter fun index ↦ (run.nodes index).sybil).card := by
    refine Outcome.foldlM_range_keeps (P := fun _ (state : ContentState n) ↦
      state.metrics.storedRecords = metrics.storedRecords + (run.replicas content).card ∧
      state.metrics.sybilRecords = metrics.sybilRecords +
        ((run.replicas content).filter fun index ↦ (run.nodes index).sybil).card) ?_
      ⟨rfl, rfl⟩ hstate
    intro repetition state state' hkept hstep
    obtain ⟨combined, -, rfl⟩ := Run.addRepetition_eq_some_iff.mp hstep
    exact hkept
  refine ⟨?_, ?_⟩
  · rw [Finset.sum_range_succ, ← h.stored]
    exact hkept.1
  · rw [Finset.sum_range_succ, ← h.sybil]
    exact hkept.2

/-- The report is right about the replicas of a run. -/
def ReportsKinds (run : Run n) (contents : ℕ) (metrics : ResearchMetrics) : Prop :=
  metrics.honestReplicas = ∑ content ∈ Finset.range contents,
      ((run.replicas content).filter fun index ↦ (run.nodes index).malicious = false).card ∧
    metrics.maliciousReplicas = ∑ content ∈ Finset.range contents,
      ((run.replicas content).filter fun index ↦ (run.nodes index).malicious = true).card

theorem card_honest_add_card_malicious (replicas : Finset (Fin n)) (nodes : Fin n → Node n) :
    (replicas.filter fun index ↦ (nodes index).malicious = false).card +
      (replicas.filter fun index ↦ (nodes index).malicious = true).card = replicas.card := by
  have hsplit := Finset.card_filter_add_card_filter_not (s := replicas)
    fun index ↦ (nodes index).malicious = true
  simp only [Bool.not_eq_true] at hsplit
  rw [Nat.add_comm, hsplit]

/-- Of the malicious nodes among the replicas all are Sybil identities. -/
theorem card_sybil_eq_iff {replicas : Finset (Fin n)} {nodes : Fin n → Node n}
    (hsybil : ∀ index, (nodes index).sybil = true → (nodes index).malicious = true) :
    (replicas.filter fun index ↦ (nodes index).sybil = true).card =
        (replicas.filter fun index ↦ (nodes index).malicious = true).card ↔
      ∀ index ∈ replicas, (nodes index).malicious = true → (nodes index).sybil = true := by
  have hsubset : (replicas.filter fun index ↦ (nodes index).sybil = true) ⊆
      replicas.filter fun index ↦ (nodes index).malicious = true :=
    Finset.monotone_filter_right _ fun index _ ↦ hsybil index
  constructor
  · intro hcard index hindex hmalicious
    have heq := Finset.eq_of_subset_of_card_le hsubset hcard.ge
    have hmem : index ∈ replicas.filter fun index ↦ (nodes index).malicious = true :=
      Finset.mem_filter.mpr ⟨hindex, hmalicious⟩
    rw [← heq] at hmem
    exact (Finset.mem_filter.mp hmem).2
  · intro h
    refine congrArg _ (hsubset.antisymm fun index hindex ↦ ?_)
    rw [Finset.mem_filter] at hindex ⊢
    exact ⟨hindex.1, h index hindex.1 hindex.2⟩

/-- The report is right exactly when no replica is on an ordinary malicious node. -/
theorem reportsKinds_iff {contents : ℕ} (h : CountsRecords run contents metrics)
    (hsybil : ∀ index, (run.nodes index).sybil = true → (run.nodes index).malicious = true) :
    ReportsKinds run contents metrics ↔ ∀ content < contents, ∀ index ∈ run.replicas content,
      (run.nodes index).malicious = true → (run.nodes index).sybil = true := by
  have hsum : metrics.storedRecords = (∑ content ∈ Finset.range contents,
        ((run.replicas content).filter fun index ↦ (run.nodes index).malicious = false).card) +
      ∑ content ∈ Finset.range contents,
        ((run.replicas content).filter fun index ↦ (run.nodes index).malicious = true).card := by
    rw [h.stored, ← Finset.sum_add_distrib]
    exact Finset.sum_congr rfl fun content _ ↦ (card_honest_add_card_malicious _ _).symm
  -- the honest replicas are what is left
  have hmalicious : ReportsKinds run contents metrics ↔
      metrics.sybilRecords = ∑ content ∈ Finset.range contents,
        ((run.replicas content).filter fun index ↦ (run.nodes index).malicious = true).card := by
    rw [ReportsKinds, ResearchMetrics.honestReplicas, ResearchMetrics.maliciousReplicas]
    omega
  have hle (content : ℕ) (_ : content ∈ Finset.range contents) :
      ((run.replicas content).filter fun index ↦ (run.nodes index).sybil = true).card ≤
        ((run.replicas content).filter fun index ↦ (run.nodes index).malicious = true).card :=
    Finset.card_le_card (Finset.monotone_filter_right _ fun index _ ↦ hsybil index)
  rw [hmalicious, h.sybil, Finset.sum_eq_sum_iff_of_le hle]
  simp only [card_sybil_eq_iff hsybil, Finset.mem_range]

/-! ## Scenarios -/

section

variable {stableHash : List UInt8 → UInt64 → UInt64} {sort : UnstableSort ℕ}
  {scenario : ResearchScenario} {candidate : DiscoveryCandidate} {tuning : ResearchTuning}
  {nodes : Fin scenario.nodeCount → Node scenario.nodeCount} {result : ResearchResult}

theorem kinds_of_topologyOf
    (h : topologyOf stableHash sort scenario candidate tuning = some nodes) :
    Kinds stableHash scenario tuning.seed nodes := by
  obtain ⟨built, hbuilt, hsame⟩ := exists_of_buildTopology h
  exact (kinds_of_buildNodes hbuilt).of_sameNodes hsame

theorem countsRecords_of_simulateWithTuning
    (hnodes : topologyOf stableHash sort scenario candidate tuning = some nodes)
    (h : simulateWithTuning stableHash sort scenario candidate tuning = some result) :
    CountsRecords (runOf stableHash sort scenario candidate tuning nodes) scenario.contents
      result.metrics := by
  obtain ⟨-, nodes', metrics, hnodes', hmetrics, rfl⟩ := simulateWithTuning_eq_some_iff.mp h
  obtain rfl := Option.some.inj (hnodes.symm.trans hnodes')
  exact Outcome.foldlM_range_keeps (fun _ _ _ ↦ CountsRecords.simulateContent) ⟨rfl, rfl⟩ hmetrics

/-- The report is right about a run, if there is one. -/
def ReportRight (stableHash : List UInt8 → UInt64 → UInt64) (sort : UnstableSort ℕ)
    (scenario : ResearchScenario) (candidate : DiscoveryCandidate) (tuning : ResearchTuning) :
    Prop :=
  ∀ nodes result, topologyOf stableHash sort scenario candidate tuning = some nodes →
    simulateWithTuning stableHash sort scenario candidate tuning = some result →
    ReportsKinds (runOf stableHash sort scenario candidate tuning nodes) scenario.contents
      result.metrics

/-- When there are as many replicas as nodes, all nodes are replicas. -/
theorem selectReplicas_eq_univ {n : ℕ} (sort : UnstableSort ℕ) (nodes : Fin n → Node n)
    (target : UInt64) : selectReplicas sort nodes target false n = Finset.univ := by
  have hlength : (sort.sortByKey (distance nodes target) (List.finRange n)).length = n := by
    rw [(sort.perm _ _).length_eq, List.length_finRange]
  ext index
  simp [selectReplicas, admitted, List.take_of_length_le hlength.le]

/-- A scenario that runs at all runs for any candidate, with any usable tuning of the same seed. -/
theorem exists_run_of_run {candidate' : DiscoveryCandidate} {tuning' : ResearchTuning}
    (h : simulateWithTuning stableHash sort scenario candidate tuning = some result)
    (hseed : tuning'.seed = tuning.seed) (husable : Usable scenario tuning') :
    ∃ nodes' result', topologyOf stableHash sort scenario candidate' tuning' = some nodes' ∧
      simulateWithTuning stableHash sort scenario candidate' tuning' = some result' := by
  obtain ⟨-, nodes, hnodes, index, hindex⟩ := exists_simulateWithTuning_iff.mp ⟨result, h⟩
  obtain ⟨built, hbuilt, -⟩ := exists_of_buildTopology hnodes
  obtain ⟨built', hbuilt'⟩ := exists_buildNodes hbuilt
    (lookupKey stableHash 0 ((policyOf candidate' tuning').key = .capabilityDerived) tuning'.seed)
    tuning'.seed
  obtain ⟨nodes', hnodes'⟩ :
      ∃ nodes', topologyOf stableHash sort scenario candidate' tuning' = some nodes' :=
    ⟨_, Option.map_eq_some_iff.mpr ⟨built', hbuilt', rfl⟩⟩
  have hkinds' := kinds_of_topologyOf hnodes'
  rw [hseed] at hkinds'
  rw [(kinds_of_topologyOf hnodes).answers_iff, ← hkinds'.answers_iff] at hindex
  obtain ⟨result', hresult'⟩ :=
    exists_simulateWithTuning_iff.mpr ⟨husable, nodes', hnodes', index, hindex⟩
  exact ⟨nodes', result', hnodes', hresult'⟩

theorem Kinds.malicious_of_sybil {seed : UInt64} (h : Kinds stableHash scenario seed nodes)
    (index : Fin scenario.nodeCount) (hsybil : (nodes index).sybil = true) :
    (nodes index).malicious = true := by
  rw [h.malicious_iff]
  exact .inl ((h.sybil_iff index).mp hsybil)

/-- A tuning with as many replicas as there are nodes. -/
def everywhere (scenario : ResearchScenario) (seed : UInt64) : ResearchTuning :=
  ⟨seed, scenario.nodeCount, 1, 0⟩

/-- When every node has a replica, the report is wrong about the ordinary malicious nodes. -/
theorem maliciousIndices_eq_empty_of_right
    (h : simulateWithTuning stableHash sort scenario candidate tuning = some result)
    (hright : ReportRight stableHash sort scenario .vanillaKademlia
      (everywhere scenario tuning.seed)) :
    maliciousIndices stableHash scenario tuning.seed = ∅ := by
  obtain ⟨⟨hordinary, hcontents, hlookups, hgroups, -, -, -⟩, -⟩ :=
    exists_simulateWithTuning_iff.mp ⟨result, h⟩
  have husable : Usable scenario (everywhere scenario tuning.seed) :=
    ⟨hordinary, hcontents, hlookups, hgroups, Nat.add_pos_left (Nat.zero_lt_of_lt hordinary) _,
      one_pos, (by decide : (0 : UInt8) ≤ 100)⟩
  have hseed : (everywhere scenario tuning.seed).seed = tuning.seed := rfl
  obtain ⟨nodes, result', hnodes, hresult⟩ :
      ∃ nodes result', topologyOf stableHash sort scenario .vanillaKademlia
          (everywhere scenario tuning.seed) = some nodes ∧
        simulateWithTuning stableHash sort scenario .vanillaKademlia
          (everywhere scenario tuning.seed) = some result' := exists_run_of_run h hseed husable
  have hkinds := kinds_of_topologyOf hnodes
  rw [hseed] at hkinds
  have hall := (reportsKinds_iff (countsRecords_of_simulateWithTuning hnodes hresult)
    hkinds.malicious_of_sybil).mp (hright nodes result' hnodes hresult)
  refine Finset.eq_empty_iff_forall_notMem.mpr fun index hindex ↦ ?_
  have hlt : index < scenario.ordinaryNodes := Finset.mem_range.mp (rankedIndices_subset hindex)
  let node : Fin scenario.nodeCount := ⟨index, Nat.lt_add_right _ hlt⟩
  have hreplicas : (runOf stableHash sort scenario .vanillaKademlia
      (everywhere scenario tuning.seed) nodes).replicas 0 = Finset.univ :=
    selectReplicas_eq_univ sort nodes _
  have hreplica := Finset.mem_univ node
  rw [← hreplicas] at hreplica
  have hsybil := hall 0 hcontents node hreplica ((hkinds.malicious_iff node).mpr (.inr hindex))
  exact absurd ((hkinds.sybil_iff node).mp hsybil) (not_le.mpr hlt)

/-- **When the report is right.** For a scenario that runs with a seed, the report is right for all
candidates and tunings of the seed exactly when no ordinary node is malicious. -/
theorem report_right_iff
    (h : simulateWithTuning stableHash sort scenario candidate tuning = some result) :
    (∀ candidate' tuning', tuning'.seed = tuning.seed →
      ReportRight stableHash sort scenario candidate' tuning') ↔
      scenario.ordinaryNodes * scenario.maliciousPercent.toNat < 100 := by
  obtain ⟨⟨hordinary, -⟩, -⟩ := exists_simulateWithTuning_iff.mp ⟨result, h⟩
  rw [← maliciousIndices_eq_empty_iff stableHash tuning.seed (Nat.zero_lt_of_lt hordinary)]
  constructor
  · intro hright
    exact maliciousIndices_eq_empty_of_right h (hright _ _ rfl)
  · intro hempty candidate' tuning' hseed nodes result' hnodes hresult
    have hkinds := kinds_of_topologyOf hnodes
    rw [hseed] at hkinds
    refine (reportsKinds_iff (countsRecords_of_simulateWithTuning hnodes hresult)
      hkinds.malicious_of_sybil).mpr fun content _ index _ hmalicious ↦ ?_
    have hkind := (hkinds.malicious_iff index).mp hmalicious
    rw [hempty] at hkind
    exact (hkinds.sybil_iff index).mpr (hkind.resolve_right (Finset.notMem_empty _))

theorem report_right_iff_nineNodes :
    ¬∀ candidate' tuning', tuning'.seed = defaultTuning.seed →
      ReportRight (fun _ value ↦ value) (.insertion ℕ) nineNodes candidate' tuning' := by
  have hsome : (simulate (fun _ value ↦ value) (.insertion ℕ) nineNodes
      .vanillaKademlia).isSome := by decide +kernel
  obtain ⟨result, hresult⟩ := Option.isSome_iff_exists.mp hsome
  rw [report_right_iff hresult]
  decide

/-- With the default tuning eight replicas are reported as honest, and one is malicious. -/
theorem malicious_replica_reported_as_honest :
    (simulate (fun _ value ↦ value) (.insertion ℕ) nineNodes .vanillaKademlia).map
        (fun result ↦ (result.metrics.honestReplicas, result.metrics.maliciousReplicas)) =
      some (8, 0) ∧
    (topologyOf (fun _ value ↦ value) (.insertion ℕ) nineNodes .vanillaKademlia
        defaultTuning).map (fun nodes ↦
          (((runOf (fun _ value ↦ value) (.insertion ℕ) nineNodes .vanillaKademlia defaultTuning
            nodes).replicas 0).filter fun index ↦ (nodes index).malicious = false).card) =
      some 7 := by
  refine ⟨?_, ?_⟩
  · decide +kernel
  · decide +kernel

end

end TripTorrent.Research

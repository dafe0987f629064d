import TripTorrent.Research.Lookup

/-!
# Prefix diversity

With prefix diversity a record is stored on one node of each group, the nearest to the key, and a
lookup queries a group once. The operator of the Sybil identities has a number of groups, so neither
the replicas of a record nor a lookup has more of its nodes than that, wherever the identities are
placed and whatever stands in the routing tables.

Which nodes are replicas depends on the sort only where nodes are at the same distance. For distinct
identifiers they are those that are the nearest of their groups, and have nodes of fewer groups
nearer to the key than there are replicas (`DiverseReplicas.mem_iff`).
-/

namespace TripTorrent.Research

open Selection

variable {n : ℕ} {sort : UnstableSort ℕ} {nodes : Fin n → Node n} {target : UInt64}
  {replicaCount : ℕ} {index : Fin n}

/-! ## Replicas -/

/-- The nearest of each group, for the nearest groups. -/
structure DiverseReplicas (nodes : Fin n → Node n) (target : UInt64) (replicaCount : ℕ)
    (replicas : Finset (Fin n)) : Prop where
  card_eq : replicas.card = min replicaCount (Finset.univ.image fun i ↦ (nodes i).group).card
  injOn : Set.InjOn (fun i ↦ (nodes i).group) replicas
  /-- A replica is the nearest of its group. -/
  distance_le_of_group_eq : ∀ i ∈ replicas, ∀ j, (nodes j).group = (nodes i).group →
    distance nodes target i ≤ distance nodes target j
  /-- No node of another group is nearer than a replica. -/
  distance_le_of_notMem : ∀ i ∈ replicas, ∀ j,
    (nodes j).group ∉ replicas.image (fun i ↦ (nodes i).group) →
      distance nodes target i ≤ distance nodes target j
  mem_iff : (Function.Injective fun i ↦ (nodes i).id) → ∀ i, i ∈ replicas ↔
    (∀ j, j ≠ i → (nodes j).group = (nodes i).group →
      distance nodes target i < distance nodes target j) ∧
    ((Finset.univ.filter fun j ↦ distance nodes target j < distance nodes target i).image
      fun j ↦ (nodes j).group).card < replicaCount

theorem distance_injective (h : Function.Injective fun i ↦ (nodes i).id) :
    Function.Injective (distance nodes target) := by
  intro i j heq
  refine h (UInt64.xor_left_inj target |>.mp ?_)
  exact UInt64.toNat_inj.mp heq

/-- All nodes, the nearest first. -/
def ordered (sort : UnstableSort ℕ) (nodes : Fin n → Node n) (target : UInt64) : List (Fin n) :=
  sort.sortByKey (distance nodes target) (List.finRange n)

theorem mem_ordered : index ∈ ordered sort nodes target := by
  simp [ordered]

theorem lt_ordered (h : Function.Injective fun i ↦ (nodes i).id) :
    (ordered sort nodes target).Pairwise
      fun a b ↦ distance nodes target a < distance nodes target b := by
  have hsorted := sort.sorted (distance nodes target) (List.finRange n)
  have hnodup : (ordered sort nodes target).Nodup :=
    (sort.perm _ _).nodup_iff.mpr (List.nodup_finRange n)
  exact (hsorted.and hnodup).imp fun hab ↦
    lt_of_le_of_ne hab.1 ((distance_injective h).ne hab.2)

theorem selectReplicas_eq : selectReplicas sort nodes target true replicaCount =
    ((firstPerGroup (fun i ↦ (nodes i).group) ∅ (ordered sort nodes target)).take
      replicaCount).toFinset :=
  rfl

theorem image_groups : (Finset.univ.image fun i ↦ (nodes i).group) =
    ((ordered sort nodes target).map fun i ↦ (nodes i).group).toFinset := by
  ext group
  simp [mem_ordered]

/-- For distinct identifiers, two nodes are not at the same distance. -/
theorem nearest_iff (h : Function.Injective fun i ↦ (nodes i).id) (i : Fin n) :
    (∀ j ∈ ordered sort nodes target, distance nodes target j < distance nodes target i →
        (nodes j).group ≠ (nodes i).group) ↔
      ∀ j, j ≠ i → (nodes j).group = (nodes i).group →
        distance nodes target i < distance nodes target j := by
  constructor
  · intro hnearest j hne hgroup
    refine lt_of_le_of_ne (not_lt.mp fun hlt ↦ ?_) ((distance_injective h).ne hne.symm)
    exact hnearest j mem_ordered hlt hgroup
  · intro hnearest j _ hlt hgroup
    have hne : j ≠ i := by
      rintro rfl
      exact lt_irrefl _ hlt
    exact (hnearest j hne hgroup).not_gt hlt

theorem mem_selectReplicas_iff (h : Function.Injective fun i ↦ (nodes i).id) (i : Fin n) :
    i ∈ selectReplicas sort nodes target true replicaCount ↔
      (∀ j, j ≠ i → (nodes j).group = (nodes i).group →
        distance nodes target i < distance nodes target j) ∧
      ((Finset.univ.filter fun j ↦ distance nodes target j < distance nodes target i).image
        fun j ↦ (nodes j).group).card < replicaCount := by
  have hnearer : (((ordered sort nodes target).filter fun j ↦
      distance nodes target j < distance nodes target i).map fun j ↦ (nodes j).group).toFinset =
      (Finset.univ.filter fun j ↦ distance nodes target j < distance nodes target i).image
        fun j ↦ (nodes j).group := by
    ext group
    simp [mem_ordered]
  rw [selectReplicas_eq, List.mem_toFinset, mem_take_firstPerGroup_iff_of_lt (lt_ordered h),
    nearest_iff h, hnearer, Finset.sdiff_empty]
  exact ⟨fun h ↦ h.2.2, fun h ↦ ⟨mem_ordered, Finset.notMem_empty _, h⟩⟩

theorem diverseReplicas_selectReplicas :
    DiverseReplicas nodes target replicaCount
      (selectReplicas sort nodes target true replicaCount) := by
  have hsorted : (ordered sort nodes target).Pairwise
      fun a b ↦ distance nodes target a ≤ distance nodes target b := sort.sorted _ _
  refine ⟨?_, ?_, fun i hi j hgroup ↦ ?_, fun i hi j hgroup ↦ ?_, mem_selectReplicas_iff⟩
  · have hnodup : ((firstPerGroup (fun i ↦ (nodes i).group) ∅
        (ordered sort nodes target)).take replicaCount).Nodup :=
      (pairwise_firstPerGroup.imp fun hne ↦ ne_of_apply_ne _ hne).sublist (List.take_sublist _ _)
    rw [selectReplicas_eq, List.toFinset_card_of_nodup hnodup, List.length_take,
      length_firstPerGroup, Finset.sdiff_empty, image_groups]
  · rw [selectReplicas_eq, List.coe_toFinset]
    exact injOn_take_firstPerGroup
  · rw [selectReplicas_eq, List.mem_toFinset] at hi
    exact key_le_of_mem_take hsorted hi mem_ordered (Finset.notMem_empty _) fun c _ _ ↦ hgroup
  · rw [selectReplicas_eq] at hi hgroup
    refine key_le_of_mem_take hsorted (List.mem_toFinset.mp hi) mem_ordered
      (Finset.notMem_empty _) fun c hc heq ↦ absurd ?_ hgroup
    exact Finset.mem_image.mpr ⟨c, List.mem_toFinset.mpr hc, heq⟩

/-! ## Lookups -/

/-- The bounds of a lookup, and when it succeeds. -/
structure BoundedLookup (lookup : Lookup n) : Prop where
  rounds_le : lookup.trace.rounds ≤ 64
  /-- What is queried in a round. -/
  length_le : ∀ round state, lookup.Reached round state → (lookup.selected state).length ≤ 3
  mem_queried : ∀ index, index ∈ lookup.trace.queried ↔
    ∃ round state, lookup.Reached round state ∧ index ∈ lookup.selected state
  card_queried_le : lookup.trace.queried.card ≤ 3 * lookup.trace.rounds
  success_iff : lookup.trace.success = true ↔ ∃ index ∈ lookup.trace.queried,
    (lookup.nodes index).failed = false ∧ (lookup.nodes index).malicious = false ∧
      index ∈ lookup.replicas

theorem boundedLookup (lookup : Lookup n) : BoundedLookup lookup := by
  obtain ⟨round, state, hround, hsound, htrace⟩ := lookup.exists_sound
  refine ⟨?_, fun _ _ _ ↦ Lookup.length_selected_le, fun _ ↦ Lookup.mem_queried_iff, ?_, ?_⟩
  · rw [htrace, hsound.rounds]
    exact hround
  · rw [htrace, hsound.rounds]
    exact hsound.card_queried
  · rw [htrace, hsound.success]
    simp only [Lookup.Answers, and_assoc]

theorem injOn_queried (lookup : Lookup n) (h : lookup.diverse = true) :
    Set.InjOn (fun i ↦ (lookup.nodes i).group) lookup.trace.queried := by
  obtain ⟨_, _, -, hsound, htrace⟩ := lookup.exists_sound
  rw [htrace]
  exact hsound.injOn h

/-! ## Sybil identities -/

theorem card_sybil_le_of_sameNodes {stableHash : List UInt8 → UInt64 → UInt64}
    {scenario : ResearchScenario} {sybilTarget seed : UInt64}
    {built nodes : Fin scenario.nodeCount → Node scenario.nodeCount}
    (hbuilt : buildNodes stableHash scenario sybilTarget seed = some built)
    (hsame : SameNodes built nodes) {chosen : Finset (Fin scenario.nodeCount)}
    (hinj : Set.InjOn (fun i ↦ (nodes i).group) chosen) :
    (chosen.filter fun i ↦ (nodes i).sybil).card ≤ scenario.sybilGroups := by
  simp only [hsame.group_eq, hsame.sybil_eq] at hinj ⊢
  exact card_sybil_le hbuilt hinj

/-- **Prefix diversity bounds the influence of Sybil identities.** The replicas of a record are the
nearest nodes of the nearest groups; a lookup queries a group once; so of the operator's identities
there are no more among either than it has groups. Any lookup is bounded, and succeeds exactly when
it has queried a live honest replica. -/
theorem diversity_bounds_sybils (sort : UnstableSort ℕ) :
    (∀ (n : ℕ) (nodes : Fin n → Node n) (target : UInt64) (replicaCount : ℕ),
      DiverseReplicas nodes target replicaCount
        (selectReplicas sort nodes target true replicaCount)) ∧
    (∀ (n : ℕ) (nodes : Fin n → Node n) (start : Fin n) (target : UInt64)
      (replicas : Finset (Fin n)),
      Set.InjOn (fun i ↦ (nodes i).group)
        (routeLookup sort nodes start target replicas true).queried) ∧
    (∀ (stableHash : List UInt8 → UInt64 → UInt64) (scenario : ResearchScenario)
      (sybilTarget seed : UInt64)
      (built nodes : Fin scenario.nodeCount → Node scenario.nodeCount),
      buildNodes stableHash scenario sybilTarget seed = some built → SameNodes built nodes →
      ∀ target : UInt64,
        (∀ replicaCount, ((selectReplicas sort nodes target true replicaCount).filter
          fun i ↦ (nodes i).sybil).card ≤ scenario.sybilGroups) ∧
        ∀ start replicas, ((routeLookup sort nodes start target replicas true).queried.filter
          fun i ↦ (nodes i).sybil).card ≤ scenario.sybilGroups) ∧
    ∀ (n : ℕ) (nodes : Fin n → Node n) (start : Fin n) (target : UInt64)
      (replicas : Finset (Fin n)) (diverse : Bool),
      BoundedLookup ⟨sort, nodes, start, target, replicas, diverse⟩ := by
  refine ⟨fun n nodes target replicaCount ↦ diverseReplicas_selectReplicas,
    fun n nodes start target replicas ↦ ?_,
    fun stableHash scenario sybilTarget seed built nodes hbuilt hsame target ↦ ⟨?_, ?_⟩,
    fun n nodes start target replicas diverse ↦ boundedLookup _⟩
  · exact injOn_queried ⟨sort, nodes, start, target, replicas, true⟩ rfl
  · intro replicaCount
    exact card_sybil_le_of_sameNodes hbuilt hsame diverseReplicas_selectReplicas.injOn
  · intro start replicas
    exact card_sybil_le_of_sameNodes hbuilt hsame
      (injOn_queried ⟨sort, nodes, start, target, replicas, true⟩ rfl)

/-- One ordinary node and two identities of an operator with one group. -/
def twoIdentities : ResearchScenario where
  ordinaryNodes := 1
  maliciousPercent := 0
  sybilNodes := 2
  sybilGroups := 1
  failedPercent := 0
  contents := 1
  lookupsPerContent := 1

theorem diversity_bounds_sybils_twoIdentities :
    ∃ nodes, buildNodes (fun _ value ↦ value) twoIdentities 0 0 = some nodes ∧
      (Function.Injective fun i ↦ (nodes i).id) ∧
      (selectReplicas (.insertion ℕ) nodes 0 true 3).card = 2 ∧
      ((selectReplicas (.insertion ℕ) nodes 0 true 3).filter fun i ↦ (nodes i).sybil).card ≤ 1 := by
  have hsome : (buildNodes (fun _ value ↦ value) twoIdentities 0 0).isSome := by decide +kernel
  obtain ⟨hreplicas, -, hsybil, -⟩ := diversity_bounds_sybils (.insertion ℕ)
  have hnodes := (Option.some_get hsome).symm
  refine ⟨_, hnodes, ?_, ?_, ?_⟩
  · clear hnodes
    decide +kernel +revert
  · rw [(hreplicas _ _ 0 3).card_eq]
    clear hnodes
    decide +kernel +revert
  · exact (hsybil _ _ 0 0 _ _ hnodes (fun _ ↦ rfl) 0).1 3

end TripTorrent.Research

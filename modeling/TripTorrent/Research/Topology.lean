import Mathlib.Algebra.Order.BigOperators.Group.List
import Mathlib.Algebra.Order.Ring.Nat
import Mathlib.Data.List.Destutter
import Mathlib.Data.List.FinRange
import Mathlib.Data.Fintype.Basic
import TripTorrent.Codec.Text
import TripTorrent.Selection.Diverse

/-!
# Simulated topologies

The discovery research runs on a list of nodes that is computed from a scenario: ordinary nodes,
some of which are malicious or fail, and the identities of a Sybil operator around one key. A node
is identified by its place in the list, so the nodes are a function of the places, and a routing
table cannot hold a place that does not exist.

The hash that spreads the nodes is a parameter, and so is the sort, which leaves nodes with equal
keys in any order.
-/

namespace TripTorrent.Research

open Codec Selection

/-! ## Nodes -/

/-- A node among `n`. -/
structure Node (n : ℕ) where
  id : UInt64
  group : UInt16
  malicious : Bool
  failed : Bool
  sybil : Bool
  routing : List (Fin n)

structure ResearchScenario where
  ordinaryNodes : ℕ
  maliciousPercent : UInt8
  sybilNodes : ℕ
  sybilGroups : ℕ
  failedPercent : UInt8
  contents : ℕ
  lookupsPerContent : ℕ

def ResearchScenario.nodeCount (scenario : ResearchScenario) : ℕ :=
  scenario.ordinaryNodes + scenario.sybilNodes

/-- A percentage of a count, with a product that saturates. -/
def percentOf (count : ℕ) (percent : UInt8) : ℕ := min (count * percent.toNat) (2 ^ 64 - 1) / 100

def kBucketSize : ℕ := 8

/-- The order of pairs, by which `ranked` is sorted. -/
def rankedLe (a b : UInt64 × ℕ) : Prop := a.1 < b.1 ∨ a.1 = b.1 ∧ a.2 ≤ b.2

instance : DecidableRel rankedLe := fun a b ↦
  inferInstanceAs (Decidable (a.1 < b.1 ∨ a.1 = b.1 ∧ a.2 ≤ b.2))

section

variable (stableHash : List UInt8 → UInt64 → UInt64)

/-- The `count` indices with the smallest hashes. -/
def rankedIndices (total count : ℕ) (domain : List UInt8) (seed : UInt64) : Finset ℕ :=
  let ranked := (List.range total).map fun index ↦
    (stableHash domain (UInt64.ofNat index ^^^ seed), index)
  (((ranked.insertionSort rankedLe).take count).map Prod.snd).toFinset

/-- The ordinary nodes that drop or censor records. -/
def maliciousIndices (scenario : ResearchScenario) (seed : UInt64) : Finset ℕ :=
  let maliciousCount := percentOf scenario.ordinaryNodes scenario.maliciousPercent
  rankedIndices stableHash scenario.ordinaryNodes maliciousCount (utf8 "malicious") seed

/-- The ordinary nodes that fail. -/
def failedIndices (scenario : ResearchScenario) (seed : UInt64) : Finset ℕ :=
  let failedCount := percentOf scenario.ordinaryNodes scenario.failedPercent
  rankedIndices stableHash scenario.ordinaryNodes failedCount (utf8 "failed") seed

/-- An operator without groups, or with more than fit, has no nodes: the program stops. -/
def buildNodes (scenario : ResearchScenario) (sybilTarget seed : UInt64) :
    Option (Fin scenario.nodeCount → Node scenario.nodeCount) :=
  let malicious := maliciousIndices stableHash scenario seed
  let failed := failedIndices stableHash scenario seed
  if ∀ index < scenario.sybilNodes, scenario.sybilGroups ≠ 0 ∧
      256 + index % scenario.sybilGroups < 2 ^ 16 then
    some fun index ↦
      if index < scenario.ordinaryNodes then
        { id := stableHash (utf8 "node") (UInt64.ofNat index ^^^ seed)
          group := UInt16.ofNat (index % 256)
          malicious := index.val ∈ malicious
          failed := index.val ∈ failed
          sybil := false
          routing := [] }
      else
        let index := index.val - scenario.ordinaryNodes
        { id := sybilTarget ^^^ (UInt64.ofNat index + 1)
          group := UInt16.ofNat (256 + index % scenario.sybilGroups)
          malicious := true
          failed := false
          sybil := true
          routing := [] }
  else none

/-! ## Routing tables -/

variable {n : ℕ}

/-- `u64::leading_zeros` -/
def leadingZeros (value : UInt64) : ℕ := if value = 0 then 64 else 63 - value.toNat.log2

/-- `u64::rotate_left` -/
def rotateLeft (value : UInt64) (count : ℕ) : UInt64 := ⟨value.toBitVec.rotateLeft count⟩

/-- The bucket for a distance. -/
def bucketOf (distance : UInt64) : ℕ := 63 - leadingZeros distance

/-- The table of a node: up to eight others at each order of distance. -/
def routingTable (sort : UnstableSort ℕ) (nodes : Fin n → Node n) (current : Fin n) :
    List (Fin n) :=
  (List.range 64).flatMap fun bucket ↦
    let members := (List.finRange n).filter fun candidate ↦
      current ≠ candidate ∧ bucketOf ((nodes current).id ^^^ (nodes candidate).id) = bucket
    (sort.sortByKey (fun index ↦ (nodes index).id.toNat) members).take kBucketSize

def buildRoutingTables (sort : UnstableSort ℕ) (nodes : Fin n → Node n) : Fin n → Node n :=
  fun current ↦ { nodes current with routing := routingTable sort nodes current }

/-- The attacker that takes a slot in the table of a node. -/
def attackerAt (malicious : List (Fin n)) (hne : malicious ≠ []) (nodeIndex : Fin n) (slot : ℕ)
    (seed : UInt64) : Fin n :=
  let choiceSeed := stableHash (utf8 "routing-contamination")
    (rotateLeft (UInt64.ofNat nodeIndex) 17 ^^^ UInt64.ofNat slot ^^^ seed)
  malicious.get ⟨choiceSeed.toNat % malicious.length,
    Nat.mod_lt _ (List.length_pos_iff.mpr hne)⟩

/-- The first slots of a table are taken by attackers, and the table is sorted without
repetitions. -/
def contaminatedTable (malicious : List (Fin n)) (hne : malicious ≠ []) (nodeIndex : Fin n)
    (percent : UInt8) (seed : UInt64) (routing : List (Fin n)) : List (Fin n) :=
  let replaced := (List.range (percentOf routing.length percent)).foldl
    (fun routing slot ↦
      let attacker := attackerAt stableHash malicious hne nodeIndex slot seed
      if attacker ≠ nodeIndex then routing.set slot attacker else routing)
    routing
  (replaced.insertionSort (· ≤ ·)).destutter (· ≠ ·)

def contaminateRoutingTables (nodes : Fin n → Node n) (percent : UInt8) (seed : UInt64) :
    Fin n → Node n :=
  let malicious := (List.finRange n).filter fun index ↦ (nodes index).malicious
  if percent = 0 then nodes
  else if hne : malicious = [] then nodes
  else fun index ↦
    { nodes index with
      routing := contaminatedTable stableHash malicious hne index percent seed
        (nodes index).routing }

/-- The nodes of a scenario with their tables. -/
def buildTopology (sort : UnstableSort ℕ) (scenario : ResearchScenario)
    (sybilTarget seed : UInt64) (percent : UInt8) :
    Option (Fin scenario.nodeCount → Node scenario.nodeCount) :=
  (buildNodes stableHash scenario sybilTarget seed).map fun nodes ↦
    contaminateRoutingTables stableHash (buildRoutingTables sort nodes) percent seed

end

variable {stableHash : List UInt8 → UInt64 → UInt64} {sort : UnstableSort ℕ} {n : ℕ}
  {nodes nodes' : Fin n → Node n} {scenario : ResearchScenario} {sybilTarget seed : UInt64}
  {percent : UInt8}

/-! ## What the tables leave unchanged -/

/-- Nodes that differ in their tables only. -/
def SameNodes (nodes nodes' : Fin n → Node n) : Prop :=
  ∀ index, nodes' index = { nodes index with routing := (nodes' index).routing }

theorem sameNodes_buildRoutingTables : SameNodes nodes (buildRoutingTables sort nodes) :=
  fun _ ↦ rfl

theorem sameNodes_contaminateRoutingTables :
    SameNodes nodes (contaminateRoutingTables stableHash nodes percent seed) := by
  intro index
  rw [contaminateRoutingTables]
  split_ifs
  all_goals rfl

theorem SameNodes.trans {nodes'' : Fin n → Node n} (h : SameNodes nodes nodes')
    (h' : SameNodes nodes' nodes'') : SameNodes nodes nodes'' := by
  intro index
  rw [h' index, h index]

theorem SameNodes.group_eq (h : SameNodes nodes nodes') (index : Fin n) :
    (nodes' index).group = (nodes index).group := by rw [h index]

theorem SameNodes.malicious_eq (h : SameNodes nodes nodes') (index : Fin n) :
    (nodes' index).malicious = (nodes index).malicious := by rw [h index]

theorem SameNodes.failed_eq (h : SameNodes nodes nodes') (index : Fin n) :
    (nodes' index).failed = (nodes index).failed := by rw [h index]

theorem SameNodes.sybil_eq (h : SameNodes nodes nodes') (index : Fin n) :
    (nodes' index).sybil = (nodes index).sybil := by rw [h index]

theorem exists_of_buildTopology {nodes : Fin scenario.nodeCount → Node scenario.nodeCount}
    (h : buildTopology stableHash sort scenario sybilTarget seed percent = some nodes) :
    ∃ built, buildNodes stableHash scenario sybilTarget seed = some built ∧
      SameNodes built nodes := by
  obtain ⟨built, hbuilt, rfl⟩ := Option.map_eq_some_iff.mp h
  exact ⟨built, hbuilt, sameNodes_buildRoutingTables.trans sameNodes_contaminateRoutingTables⟩

/-- The slots that attackers take are slots of the table. -/
theorem percentOf_le (count : ℕ) (h : percent ≤ 100) : percentOf count percent ≤ count := by
  have hpercent : percent.toNat ≤ 100 := UInt8.le_iff_toNat_le.mp h
  rw [percentOf]
  refine Nat.div_le_of_le_mul ((min_le_left _ _).trans ?_)
  rw [Nat.mul_comm]
  exact Nat.mul_le_mul_right count hpercent

/-! ## What stands in the tables -/

section

variable {current contact : Fin n}

/-- Some of the first slots are taken, and the others stay. -/
theorem getElem?_foldl_set {α : Type} (taken : ℕ → Prop) [DecidablePred taken] (f : ℕ → α)
    (l : List α) (k i : ℕ) :
    ((List.range k).foldl (fun l slot ↦ if taken slot then l.set slot (f slot) else l) l)[i]? =
      if i < k ∧ taken i then l[i]?.map fun _ ↦ f i else l[i]? := by
  induction k with
  | zero => simp
  | succ k ih =>
    rw [List.range_succ, List.foldl_append, List.foldl_cons, List.foldl_nil]
    by_cases hk : taken k
    · rw [if_pos hk, List.getElem?_set', ih]
      grind
    · rw [if_neg hk, ih]
      grind

variable {malicious : List (Fin n)} {hne : malicious ≠ []} {routing : List (Fin n)}

/-- What stands in a table has taken a slot or kept one. -/
theorem mem_contaminatedTable_iff :
    contact ∈ contaminatedTable stableHash malicious hne current percent seed routing ↔
      ∃ slot < routing.length,
        if slot < percentOf routing.length percent ∧
          attackerAt stableHash malicious hne current slot seed ≠ current then
          attackerAt stableHash malicious hne current slot seed = contact
        else routing[slot]? = some contact := by
  rw [contaminatedTable, (List.pairwise_insertionSort (· ≤ ·) _).destutter_eq_dedup,
    List.mem_dedup, List.mem_insertionSort, List.mem_iff_getElem?]
  refine exists_congr fun slot ↦ ?_
  rw [getElem?_foldl_set]
  split_ifs
  · rw [Option.map_eq_some_iff]
    simp [List.getElem?_eq_some_iff]
  · simp only [iff_and_self]
    intro hslot
    exact (List.getElem?_eq_some_iff.mp hslot).1

/-- **What contamination does to a table.** It stays as it is, or its first slots are taken by
attackers. -/
theorem contaminateRoutingTables_cases (stableHash : List UInt8 → UInt64 → UInt64)
    (nodes : Fin n → Node n) (percent : UInt8) (seed : UInt64) (current : Fin n) :
    let routing := (contaminateRoutingTables stableHash nodes percent seed current).routing
    let kept := (nodes current).routing
    (percent = 0 ∨ ∀ index, (nodes index).malicious = false) ∧ routing = kept ∨
      ∃ attacker : ℕ → Fin n, (∀ slot, (nodes (attacker slot)).malicious = true) ∧
        ∀ contact, contact ∈ routing ↔ ∃ slot < kept.length,
          if slot < percentOf kept.length percent ∧ attacker slot ≠ current then
            attacker slot = contact
          else kept[slot]? = some contact := by
  rw [contaminateRoutingTables]
  dsimp only
  split_ifs with hzero hnil
  · exact .inl ⟨.inl hzero, rfl⟩
  · refine .inl ⟨.inr fun index ↦ ?_, rfl⟩
    simpa using List.filter_eq_nil_iff.mp hnil index (List.mem_finRange index)
  · refine .inr ⟨fun slot ↦ attackerAt stableHash _ hnil current slot seed, fun slot ↦ ?_,
      fun contact ↦ mem_contaminatedTable_iff⟩
    have hattacker : attackerAt stableHash _ hnil current slot seed ∈
        (List.finRange n).filter fun index ↦ (nodes index).malicious := List.get_mem _ _
    exact (List.mem_filter.mp hattacker).2

end

/-! ## Ordinary nodes and Sybil identities -/

section

variable {nodes : Fin scenario.nodeCount → Node scenario.nodeCount} {index : Fin scenario.nodeCount}

/-- What kind of node each is: this depends on the scenario and the seed only. -/
structure Kinds (stableHash : List UInt8 → UInt64 → UInt64) (scenario : ResearchScenario)
    (seed : UInt64) (nodes : Fin scenario.nodeCount → Node scenario.nodeCount) : Prop where
  sybil_iff : ∀ index, (nodes index).sybil = true ↔ scenario.ordinaryNodes ≤ index
  malicious_iff : ∀ index, (nodes index).malicious = true ↔
    scenario.ordinaryNodes ≤ index ∨ index.val ∈ maliciousIndices stableHash scenario seed
  failed_iff : ∀ index, (nodes index).failed = true ↔
    index < scenario.ordinaryNodes ∧ index.val ∈ failedIndices stableHash scenario seed

theorem rankedIndices_subset {total count : ℕ} {domain : List UInt8} :
    rankedIndices stableHash total count domain seed ⊆ Finset.range total := by
  intro index hindex
  rw [rankedIndices, List.mem_toFinset, List.mem_map] at hindex
  obtain ⟨⟨hash, index⟩, hmem, rfl⟩ := hindex
  have hranked := (List.perm_insertionSort _ _).mem_iff.mp (List.mem_of_mem_take hmem)
  obtain ⟨_, hrange, heq⟩ := List.mem_map.mp hranked
  rw [← (Prod.ext_iff.mp heq).2]
  exact Finset.mem_range.mpr (List.mem_range.mp hrange)

theorem map_snd_ranked (hash : ℕ → UInt64) (total : ℕ) :
    ((List.range total).map fun index ↦ (hash index, index)).map Prod.snd = List.range total := by
  rw [List.map_map]
  exact List.map_id _

theorem card_rankedIndices {total count : ℕ} {domain : List UInt8} :
    (rankedIndices stableHash total count domain seed).card = min count total := by
  set ranked := (List.range total).map fun index ↦
    (stableHash domain (UInt64.ofNat index ^^^ seed), index) with hranked
  have hperm := (ranked.perm_insertionSort rankedLe).map Prod.snd
  rw [hranked, map_snd_ranked, ← hranked] at hperm
  have hnodup : (((ranked.insertionSort rankedLe).take count).map Prod.snd).Nodup := by
    rw [List.map_take]
    exact (hperm.nodup_iff.mpr List.nodup_range).sublist (List.take_sublist _ _)
  rw [rankedIndices, List.toFinset_card_of_nodup hnodup, List.map_take, List.length_take,
    hperm.length_eq, List.length_range]

/-- Some ordinary node is malicious, unless the percentage amounts to none. -/
theorem maliciousIndices_eq_empty_iff (stableHash : List UInt8 → UInt64 → UInt64) (seed : UInt64)
    (h : 0 < scenario.ordinaryNodes) :
    maliciousIndices stableHash scenario seed = ∅ ↔
      scenario.ordinaryNodes * scenario.maliciousPercent.toNat < 100 := by
  rw [← Finset.card_eq_zero, maliciousIndices, card_rankedIndices, percentOf]
  omega

theorem kinds_of_buildNodes (h : buildNodes stableHash scenario sybilTarget seed = some nodes) :
    Kinds stableHash scenario seed nodes := by
  rw [buildNodes] at h
  split_ifs at h
  obtain rfl := Option.some.inj h
  refine ⟨fun index ↦ ?_, fun index ↦ ?_, fun index ↦ ?_⟩
  all_goals
    dsimp only
    split_ifs with hordinary
  all_goals
    simp [hordinary, not_lt.mp]

theorem Kinds.of_sameNodes {nodes' : Fin scenario.nodeCount → Node scenario.nodeCount}
    (h : Kinds stableHash scenario seed nodes) (hsame : SameNodes nodes nodes') :
    Kinds stableHash scenario seed nodes' := by
  refine ⟨fun index ↦ ?_, fun index ↦ ?_, fun index ↦ ?_⟩
  · rw [hsame.sybil_eq, h.sybil_iff]
  · rw [hsame.malicious_eq, h.malicious_iff]
  · rw [hsame.failed_eq, h.failed_iff]

/-- Topologies are built when the operator's groups fit. -/
theorem exists_buildNodes_iff :
    (∃ nodes, buildNodes stableHash scenario sybilTarget seed = some nodes) ↔
      ∀ index < scenario.sybilNodes, scenario.sybilGroups ≠ 0 ∧
        256 + index % scenario.sybilGroups < 2 ^ 16 := by
  rw [buildNodes]
  split_ifs with hgroups
  · exact ⟨fun _ ↦ hgroups, fun _ ↦ ⟨_, rfl⟩⟩
  · refine ⟨?_, fun h ↦ absurd h hgroups⟩
    rintro ⟨nodes, h⟩
    cases h

/-- Whether the operator's groups fit does not depend on where its identities are placed. -/
theorem exists_buildNodes (h : buildNodes stableHash scenario sybilTarget seed = some nodes)
    (sybilTarget' seed' : UInt64) :
    ∃ nodes', buildNodes stableHash scenario sybilTarget' seed' = some nodes' :=
  exists_buildNodes_iff.mpr (exists_buildNodes_iff.mp ⟨nodes, h⟩)

theorem id_of_buildNodes (h : buildNodes stableHash scenario sybilTarget seed = some nodes)
    (index : Fin scenario.nodeCount) :
    (nodes index).id = if index < scenario.ordinaryNodes then
        stableHash (utf8 "node") (UInt64.ofNat index ^^^ seed)
      else sybilTarget ^^^ (UInt64.ofNat (index.val - scenario.ordinaryNodes) + 1) := by
  rw [buildNodes] at h
  split_ifs at h
  obtain rfl := Option.some.inj h
  dsimp only
  split_ifs
  all_goals rfl

/-- The groups of the operator. -/
theorem group_of_sybil (h : buildNodes stableHash scenario sybilTarget seed = some nodes)
    (hsybil : (nodes index).sybil = true) :
    ∃ k < scenario.sybilGroups, (nodes index).group = UInt16.ofNat (256 + k) := by
  rw [buildNodes] at h
  split_ifs at h with hgroups
  obtain rfl := Option.some.inj h
  dsimp only at hsybil ⊢
  split_ifs at hsybil ⊢ with hordinary
  have hindex : index.val - scenario.ordinaryNodes < scenario.sybilNodes := by
    have hlt : index.val < scenario.ordinaryNodes + scenario.sybilNodes := index.isLt
    omega
  exact ⟨_, Nat.mod_lt _ (Nat.pos_of_ne_zero (hgroups _ hindex).1), rfl⟩

/-- Identities of different groups are no more than the operator has groups. -/
theorem card_sybil_le (h : buildNodes stableHash scenario sybilTarget seed = some nodes)
    {chosen : Finset (Fin scenario.nodeCount)}
    (hinj : Set.InjOn (fun index ↦ (nodes index).group) chosen) :
    (chosen.filter fun index ↦ (nodes index).sybil).card ≤ scenario.sybilGroups := by
  have hmaps : ∀ index ∈ chosen.filter fun index ↦ (nodes index).sybil,
      (nodes index).group ∈ (Finset.range scenario.sybilGroups).image
        fun k ↦ UInt16.ofNat (256 + k) := by
    intro index hindex
    obtain ⟨k, hk, hgroup⟩ := group_of_sybil h (Finset.mem_filter.mp hindex).2
    rw [hgroup]
    exact Finset.mem_image_of_mem _ (Finset.mem_range.mpr hk)
  calc (chosen.filter fun index ↦ (nodes index).sybil).card
      ≤ ((Finset.range scenario.sybilGroups).image fun k ↦ UInt16.ofNat (256 + k)).card :=
        Finset.card_le_card_of_injOn _ hmaps
          (hinj.mono (Finset.coe_subset.mpr (Finset.filter_subset _ _)))
    _ ≤ (Finset.range scenario.sybilGroups).card := Finset.card_image_le
    _ = scenario.sybilGroups := Finset.card_range _

end

end TripTorrent.Research

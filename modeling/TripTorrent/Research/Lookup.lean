import TripTorrent.Research.Topology

/-!
# Iterative lookups

A lookup keeps the nodes that it knows and those that it has queried. In a round it queries the
known nodes nearest to the target, three at most, and a live honest node answers with its table.
With prefix diversity a group is queried once; whom to query is then a selection of the first of
each group (`admitted`).

A round is described by the nodes it selects (`Lookup.selected`), and a trace by an invariant that
each round keeps (`Lookup.exists_of_routeRounds`). What was queried is what was selected in one of
the rounds (`Lookup.mem_queried_iff`).
-/

namespace TripTorrent.Research

open Selection

variable {n : ℕ}

def alpha : ℕ := 3

def maxLookupRounds : ℕ := 64

/-! ## Nearest nodes -/

section

variable (sort : UnstableSort ℕ) (nodes : Fin n → Node n) (target : UInt64) (diverse : Bool)

/-- The key `nodes[index].id ^ target`. -/
def distance (index : Fin n) : ℕ := ((nodes index).id ^^^ target).toNat

/-- The elements of a `BTreeSet` in the order in which they are visited. -/
def ascending (indices : Finset (Fin n)) : List (Fin n) :=
  (List.finRange n).filter (· ∈ indices)

/-- `filter(|&index| !diverse || groups.insert(nodes[index].group))` -/
def admitted (groups : Finset UInt16) (indices : List (Fin n)) : List (Fin n) :=
  if diverse then firstPerGroup (fun index ↦ (nodes index).group) groups indices else indices

def selectReplicas (replicaCount : ℕ) : Finset (Fin n) :=
  let ordered := sort.sortByKey (distance nodes target) (List.finRange n)
  ((admitted nodes diverse ∅ ordered).take replicaCount).toFinset

def lookupConverged (known queried : Finset (Fin n)) : Bool :=
  let ordered := sort.sortByKey (distance nodes target) (ascending known)
  let closest := (admitted nodes diverse ∅ ordered).take kBucketSize
  closest.length = kBucketSize ∧ ∀ index ∈ closest, index ∈ queried

end

/-! ## Lookups -/

structure LookupTrace (n : ℕ) where
  success : Bool
  rounds : ℕ
  observers : Finset (Fin n)
  queried : Finset (Fin n)

/-- The arguments of a lookup. -/
structure Lookup (n : ℕ) where
  sort : UnstableSort ℕ
  nodes : Fin n → Node n
  start : Fin n
  target : UInt64
  replicas : Finset (Fin n)
  diverse : Bool

/-- The variables of the loop. -/
structure LookupState (n : ℕ) where
  known : Finset (Fin n)
  queriedGroups : Finset UInt16
  trace : LookupTrace n

namespace Lookup

variable (lookup : Lookup n)

/-- The known nodes that have not been queried, the nearest first. -/
def candidates (state : LookupState n) : List (Fin n) :=
  lookup.sort.sortByKey (distance lookup.nodes lookup.target)
    ((ascending state.known).filter (· ∉ state.trace.queried))

/-- The loop over the candidates, with `selected` and `queried_groups`. -/
def selectCandidates : List (Fin n) → Finset UInt16 → List (Fin n) → List (Fin n) × Finset UInt16
  | selected, groups, [] => (selected, groups)
  | selected, groups, index :: rest =>
    let group := (lookup.nodes index).group
    if lookup.diverse ∧ group ∈ groups then selectCandidates selected groups rest
    else
      let groups := if lookup.diverse then insert group groups else groups
      let selected := selected ++ [index]
      if selected.length = alpha then (selected, groups)
      else selectCandidates selected groups rest

/-- A query to one of the selected nodes. -/
def query (state : LookupState n) (index : Fin n) : LookupState n :=
  let node := lookup.nodes index
  let trace :=
    { state.trace with
      queried := insert index state.trace.queried
      observers := insert index state.trace.observers }
  if node.failed then { state with trace := trace }
  else if node.malicious then { state with trace := trace }
  else
    { state with
      known := state.known ∪ node.routing.toFinset
      trace := { trace with success := trace.success || decide (index ∈ lookup.replicas) } }

/-- A round, unless there is nobody left to query. -/
def runRound (round : ℕ) (state : LookupState n) : Option (LookupState n) :=
  let (selected, queriedGroups) :=
    lookup.selectCandidates [] state.queriedGroups (lookup.candidates state)
  if selected = [] then none
  else
    some (selected.foldl lookup.query
      { state with
        queriedGroups := queriedGroups
        trace := { state.trace with rounds := round + 1 } })

/-- The lookup does not go on after a round. -/
def stops (state : LookupState n) : Bool :=
  state.trace.success ||
    lookupConverged lookup.sort lookup.nodes lookup.target lookup.diverse state.known
      state.trace.queried

/-- The remaining rounds. -/
def routeRounds : ℕ → ℕ → LookupState n → LookupTrace n
  | 0, _, state => state.trace
  | remaining + 1, round, state =>
    match lookup.runRound round state with
    | none => state.trace
    | some state =>
      if lookup.stops state then state.trace else routeRounds remaining (round + 1) state

/-- The state before the first round. -/
def initial : LookupState n where
  known := (lookup.nodes lookup.start).routing.toFinset
  queriedGroups := ∅
  trace := ⟨false, 0, {lookup.start}, ∅⟩

end Lookup

def routeLookup (sort : UnstableSort ℕ) (nodes : Fin n → Node n) (start : Fin n) (target : UInt64)
    (replicas : Finset (Fin n)) (diverse : Bool) : LookupTrace n :=
  let lookup : Lookup n := ⟨sort, nodes, start, target, replicas, diverse⟩
  if (nodes start).failed || (nodes start).malicious then lookup.initial.trace
  else lookup.routeRounds maxLookupRounds 0 lookup.initial

/-- The first usable node from a place on that the seed determines. -/
def selectNode (nodes : Fin n → Node n) (seed : UInt64) (requireHonest : Bool) :
    Option (Fin n) :=
  ((List.finRange n).map fun offset ↦
      (⟨(seed.toNat % n + offset.val) % n, Nat.mod_lt _ offset.pos⟩ : Fin n)).find? fun index ↦
    !(nodes index).failed && (!requireHonest || !(nodes index).malicious)

/-! ## Selections -/

section

variable {sort : UnstableSort ℕ} {nodes : Fin n → Node n} {target : UInt64} {diverse : Bool}
  {groups : Finset UInt16} {indices : List (Fin n)} {index : Fin n}

@[simp] theorem mem_ascending {indices : Finset (Fin n)} :
    index ∈ ascending indices ↔ index ∈ indices := by
  simp [ascending]

@[simp] theorem admitted_nil : admitted nodes diverse groups [] = [] := by
  rw [admitted]
  split_ifs
  all_goals rfl

theorem admitted_cons : admitted nodes diverse groups (index :: indices) =
    if diverse ∧ (nodes index).group ∈ groups then admitted nodes diverse groups indices
    else index :: admitted nodes diverse
      (if diverse then insert (nodes index).group groups else groups) indices := by
  cases diverse with
  | false => simp [admitted]
  | true => simp [admitted, firstPerGroup]

end

namespace Lookup

variable {lookup : Lookup n} {state state' : LookupState n} {round remaining : ℕ} {index : Fin n}

/-- The nodes that are queried in the round after a state. -/
def selected (lookup : Lookup n) (state : LookupState n) : List (Fin n) :=
  (admitted lookup.nodes lookup.diverse state.queriedGroups (lookup.candidates state)).take alpha

/-- The groups that have been queried after nodes are selected. -/
def groupsAfter (lookup : Lookup n) (groups : Finset UInt16) (chosen : List (Fin n)) :
    Finset UInt16 :=
  if lookup.diverse then groups ∪ (chosen.map fun index ↦ (lookup.nodes index).group).toFinset
  else groups

@[simp] theorem groupsAfter_nil {groups : Finset UInt16} :
    lookup.groupsAfter groups [] = groups := by
  simp [groupsAfter]

theorem groupsAfter_cons {groups : Finset UInt16} {chosen : List (Fin n)} :
    lookup.groupsAfter groups (index :: chosen) =
      lookup.groupsAfter
        (if lookup.diverse then insert (lookup.nodes index).group groups else groups) chosen := by
  rw [groupsAfter, groupsAfter]
  split_ifs
  · rw [List.map_cons, List.toFinset_cons, Finset.union_insert, Finset.insert_union]
  · rfl

/-- The loop over the candidates takes the first that are admitted. -/
theorem selectCandidates_eq {groups : Finset UInt16} {chosen rest : List (Fin n)} {room : ℕ}
    (h : chosen.length + room + 1 = alpha) :
    lookup.selectCandidates chosen groups rest =
      let more := (admitted lookup.nodes lookup.diverse groups rest).take (room + 1)
      (chosen ++ more, lookup.groupsAfter groups more) := by
  induction rest generalizing chosen groups room with
  | nil => simp [selectCandidates]
  | cons index rest ih =>
    rw [selectCandidates, admitted_cons]
    by_cases hskip : lookup.diverse ∧ (lookup.nodes index).group ∈ groups
    · rw [if_pos hskip, if_pos hskip, ih h]
    · rw [if_neg hskip, if_neg hskip, List.take_succ_cons]
      dsimp only
      rw [groupsAfter_cons, List.length_append, List.length_singleton]
      cases room with
      | zero =>
        -- the last place is taken
        rw [if_pos h, List.take_zero, groupsAfter_nil]
      | succ room =>
        have hroom : (chosen ++ [index]).length + room + 1 = alpha := by
          rw [List.length_append, List.length_singleton]
          omega
        rw [if_neg (by omega), ih hroom]
        dsimp only
        rw [List.append_assoc, List.singleton_append]

/-! ## Rounds -/

/-- The state after the selected nodes have been queried. -/
def afterRound (lookup : Lookup n) (round : ℕ) (state : LookupState n) : LookupState n :=
  (lookup.selected state).foldl lookup.query
    { state with
      queriedGroups := lookup.groupsAfter state.queriedGroups (lookup.selected state)
      trace := { state.trace with rounds := round + 1 } }

theorem runRound_eq_some_iff : lookup.runRound round state = some state' ↔
    lookup.selected state ≠ [] ∧ state' = lookup.afterRound round state := by
  have hselect : lookup.selectCandidates [] state.queriedGroups (lookup.candidates state) =
      (lookup.selected state,
        lookup.groupsAfter state.queriedGroups (lookup.selected state)) :=
    selectCandidates_eq rfl
  rw [runRound, hselect]
  dsimp only
  split_ifs with hnil
  · simp [hnil]
  · rw [Option.some_inj, eq_comm]
    exact ⟨fun h ↦ ⟨hnil, h⟩, fun h ↦ h.2⟩

theorem mem_candidates : index ∈ lookup.candidates state ↔
    index ∈ state.known ∧ index ∉ state.trace.queried := by
  simp [candidates]

theorem length_selected_le : (lookup.selected state).length ≤ alpha := List.length_take_le _ _

/-- A node that answers. -/
def Answers (nodes : Fin n → Node n) (index : Fin n) : Prop :=
  (nodes index).failed = false ∧ (nodes index).malicious = false

/-- What a query changes. -/
structure Queried (lookup : Lookup n) (state : LookupState n) (chosen : List (Fin n))
    (state' : LookupState n) : Prop where
  queried : state'.trace.queried = state.trace.queried ∪ chosen.toFinset
  observers : state'.trace.observers = state.trace.observers ∪ chosen.toFinset
  rounds : state'.trace.rounds = state.trace.rounds
  queriedGroups : state'.queriedGroups = state.queriedGroups
  success : state'.trace.success = true ↔ state.trace.success = true ∨
    ∃ index ∈ chosen, Answers lookup.nodes index ∧ index ∈ lookup.replicas
  known : ∀ contact, contact ∈ state'.known ↔ contact ∈ state.known ∨
    ∃ index ∈ chosen, Answers lookup.nodes index ∧ contact ∈ (lookup.nodes index).routing

theorem queried_query : Queried lookup state [index] (lookup.query state index) := by
  rw [query]
  dsimp only
  split_ifs with hfailed hmalicious
  all_goals
    refine ⟨?_, ?_, rfl, rfl, ?_, fun contact ↦ ?_⟩
  all_goals
    simp [Answers, *]

theorem queried_foldl (chosen : List (Fin n)) :
    Queried lookup state chosen (chosen.foldl lookup.query state) := by
  induction chosen generalizing state with
  | nil => constructor <;> simp
  | cons index chosen ih =>
    have hfirst : Queried lookup state [index] (lookup.query state index) := queried_query
    have hrest : Queried lookup (lookup.query state index) chosen
      (chosen.foldl lookup.query (lookup.query state index)) := ih
    rw [List.foldl_cons]
    refine ⟨?_, ?_, ?_, ?_, ?_, fun contact ↦ ?_⟩
    · rw [hrest.queried, hfirst.queried]
      simp
    · rw [hrest.observers, hfirst.observers]
      simp
    · rw [hrest.rounds, hfirst.rounds]
    · rw [hrest.queriedGroups, hfirst.queriedGroups]
    · rw [hrest.success, hfirst.success]
      simp [or_assoc]
    · rw [hrest.known, hfirst.known]
      simp [or_assoc]

/-- What a round changes. -/
theorem queried_afterRound (lookup : Lookup n) (round : ℕ) (state : LookupState n) : Queried lookup
    { state with
      queriedGroups := lookup.groupsAfter state.queriedGroups (lookup.selected state)
      trace := { state.trace with rounds := round + 1 } }
    (lookup.selected state) (lookup.afterRound round state) :=
  queried_foldl (lookup.selected state)

/-! ## Whole lookups -/

/-- The trace of a lookup. -/
def trace (lookup : Lookup n) : LookupTrace n :=
  routeLookup lookup.sort lookup.nodes lookup.start lookup.target lookup.replicas lookup.diverse

/-- A lookup from a node that does not answer makes no query. -/
theorem trace_eq_initial (h : ¬Answers lookup.nodes lookup.start) :
    lookup.trace = lookup.initial.trace := by
  rw [trace, routeLookup, if_pos]
  rw [Answers, ← Bool.or_eq_false_iff] at h
  exact Bool.eq_true_of_not_eq_false h

theorem trace_eq_routeRounds (h : Answers lookup.nodes lookup.start) :
    lookup.trace = lookup.routeRounds maxLookupRounds 0 lookup.initial := by
  rw [trace, routeLookup, if_neg]
  rw [Answers, ← Bool.or_eq_false_iff] at h
  exact Bool.not_eq_true _ ▸ h

/-- An invariant of the rounds holds at the end of a lookup. -/
theorem exists_of_routeRounds {P : ℕ → LookupState n → Prop}
    (hround : ∀ round state, P round state → P (round + 1) (lookup.afterRound round state))
    (h : P round state) : ∃ round' state', round' ≤ round + remaining ∧ P round' state' ∧
      lookup.routeRounds remaining round state = state'.trace := by
  induction remaining generalizing round state with
  | zero => exact ⟨round, state, Nat.le_add_right _ _, h, rfl⟩
  | succ remaining ih =>
    rw [routeRounds]
    rcases hrun : lookup.runRound round state with _ | state'
    · exact ⟨round, state, Nat.le_add_right _ _, h, rfl⟩
    · obtain ⟨-, rfl⟩ := runRound_eq_some_iff.mp hrun
      have hnext := hround round state h
      dsimp only
      split_ifs
      · exact ⟨round + 1, _, by omega, hnext, rfl⟩
      · obtain ⟨round', state', hle, hP, heq⟩ := ih hnext
        exact ⟨round', state', by omega, hP, heq⟩

/-- What holds of the state after a number of rounds. -/
structure Sound (lookup : Lookup n) (round : ℕ) (state : LookupState n) : Prop where
  rounds : state.trace.rounds = round
  card_queried : state.trace.queried.card ≤ alpha * round
  observers : state.trace.observers = insert lookup.start state.trace.queried
  success : state.trace.success = true ↔
    ∃ index ∈ state.trace.queried, Answers lookup.nodes index ∧ index ∈ lookup.replicas
  groups : lookup.diverse = true → ∀ index ∈ state.trace.queried,
    (lookup.nodes index).group ∈ state.queriedGroups
  injOn : lookup.diverse = true →
    Set.InjOn (fun index ↦ (lookup.nodes index).group) state.trace.queried

theorem sound_initial : Sound lookup 0 lookup.initial where
  rounds := rfl
  card_queried := le_rfl
  observers := rfl
  success := by simp [initial]
  groups := by simp [initial]
  injOn := by simp [initial]

/-- The nodes of a round are of groups of their own. -/
theorem selected_new (hdiverse : lookup.diverse = true) (h : index ∈ lookup.selected state) :
    (lookup.nodes index).group ∉ state.queriedGroups := by
  rw [selected, admitted, if_pos hdiverse, mem_take_firstPerGroup_iff] at h
  obtain ⟨_, _, -, hnew, -⟩ := h
  exact hnew

theorem injOn_selected (hdiverse : lookup.diverse = true) :
    Set.InjOn (fun index ↦ (lookup.nodes index).group) {index | index ∈ lookup.selected state} := by
  rw [selected, admitted, if_pos hdiverse]
  exact injOn_take_firstPerGroup

theorem Sound.afterRound (h : Sound lookup round state) :
    Sound lookup (round + 1) (lookup.afterRound round state) := by
  have hafter := queried_afterRound lookup round state
  refine ⟨hafter.rounds, ?_, ?_, ?_, fun hdiverse ↦ ?_, fun hdiverse ↦ ?_⟩
  · rw [hafter.queried, Nat.mul_succ]
    refine (Finset.card_union_le _ _).trans (Nat.add_le_add h.card_queried ?_)
    exact (List.toFinset_card_le _).trans length_selected_le
  · rw [hafter.observers, hafter.queried, h.observers, Finset.insert_union]
  · rw [hafter.success, hafter.queried, h.success]
    simp [or_and_right, exists_or]
  · intro index hindex
    rw [hafter.queried, Finset.mem_union, List.mem_toFinset] at hindex
    rw [hafter.queriedGroups, groupsAfter, if_pos hdiverse, Finset.mem_union, List.mem_toFinset]
    exact hindex.imp (h.groups hdiverse index) fun hmem ↦ List.mem_map_of_mem hmem
  · -- the groups of this round are new, and each is queried once
    have hnew {a b : Fin n} (ha : a ∈ state.trace.queried) (hb : b ∈ lookup.selected state) :
        (lookup.nodes a).group ≠ (lookup.nodes b).group :=
      fun heq ↦ selected_new hdiverse hb (heq ▸ h.groups hdiverse a ha)
    intro a ha b hb heq
    rw [Finset.mem_coe, hafter.queried, Finset.mem_union, List.mem_toFinset] at ha hb
    rcases ha with ha | ha
    · rcases hb with hb | hb
      · exact h.injOn hdiverse ha hb heq
      · exact absurd heq (hnew ha hb)
    · rcases hb with hb | hb
      · exact absurd heq.symm (hnew hb ha)
      · exact injOn_selected hdiverse ha hb heq

/-- **The run invariant.** A lookup ends in a sound state after at most sixty-four rounds. -/
theorem exists_sound (lookup : Lookup n) :
    ∃ round state, round ≤ maxLookupRounds ∧ Sound lookup round state ∧
      lookup.trace = state.trace := by
  by_cases h : Answers lookup.nodes lookup.start
  · have hinitial : Sound lookup 0 lookup.initial := sound_initial
    obtain ⟨round, state, hround, hsound, htrace⟩ :=
      exists_of_routeRounds (fun _ _ ↦ Sound.afterRound) hinitial
    rw [Nat.zero_add] at hround
    exact ⟨round, state, hround, hsound, (trace_eq_routeRounds h).trans htrace⟩
  · exact ⟨0, lookup.initial, Nat.zero_le _, sound_initial, trace_eq_initial h⟩

/-! ## The states before the rounds -/

/-- The lookup comes to a state before the round of a number. -/
inductive Reached (lookup : Lookup n) : ℕ → LookupState n → Prop
  | initial (h : Answers lookup.nodes lookup.start) : Reached lookup 0 lookup.initial
  | next {round : ℕ} {state : LookupState n} (h : Reached lookup round state)
      (hselected : lookup.selected state ≠ [])
      (hgoes : lookup.stops (lookup.afterRound round state) = false)
      (hround : round + 1 < maxLookupRounds) :
      Reached lookup (round + 1) (lookup.afterRound round state)

theorem queried_subset_routeRounds :
    state.trace.queried ⊆ (lookup.routeRounds remaining round state).queried := by
  have hround (round' : ℕ) (state' : LookupState n)
      (h : state.trace.queried ⊆ state'.trace.queried) :
      state.trace.queried ⊆ (lookup.afterRound round' state').trace.queried := by
    rw [(queried_afterRound lookup round' state').queried]
    exact h.trans Finset.subset_union_left
  obtain ⟨_, state', -, hsubset, heq⟩ :=
    exists_of_routeRounds (P := fun _ state' ↦ state.trace.queried ⊆ state'.trace.queried) hround
      subset_rfl
  rw [heq]
  exact hsubset

/-- The rest of the lookup from a state that is reached. -/
theorem Reached.exists_routeRounds (h : Reached lookup round state) :
    ∃ remaining, round + (remaining + 1) = maxLookupRounds ∧
      lookup.trace = lookup.routeRounds (remaining + 1) round state := by
  induction h with
  | initial h => exact ⟨63, rfl, trace_eq_routeRounds h⟩
  | @next round state h hselected hgoes hround ih =>
    obtain ⟨remaining, hremaining, htrace⟩ := ih
    obtain ⟨remaining, rfl⟩ : ∃ fewer, remaining = fewer + 1 := ⟨remaining - 1, by omega⟩
    refine ⟨remaining, by omega, ?_⟩
    rw [htrace, routeRounds, runRound_eq_some_iff.mpr ⟨hselected, rfl⟩]
    dsimp only
    rw [hgoes]
    rfl

theorem exists_reached_of_mem_routeRounds (hreached : 0 < remaining → Reached lookup round state)
    (hremaining : round + remaining ≤ maxLookupRounds)
    (h : index ∈ (lookup.routeRounds remaining round state).queried) :
    index ∈ state.trace.queried ∨ ∃ round state, Reached lookup round state ∧
      index ∈ lookup.selected state := by
  induction remaining generalizing round state with
  | zero => exact .inl h
  | succ remaining ih =>
    have hstate := hreached remaining.succ_pos
    rw [routeRounds] at h
    rcases hrun : lookup.runRound round state with _ | state'
    · rw [hrun] at h
      exact .inl h
    · rw [hrun] at h
      obtain ⟨hselected, rfl⟩ := runRound_eq_some_iff.mp hrun
      have hafter (hmem : index ∈ (lookup.afterRound round state).trace.queried) :
          index ∈ state.trace.queried ∨ index ∈ lookup.selected state := by
        rwa [(queried_afterRound lookup round state).queried, Finset.mem_union,
          List.mem_toFinset] at hmem
      dsimp only at h
      split_ifs at h with hstops
      · exact (hafter h).imp_right fun hmem ↦ ⟨round, state, hstate, hmem⟩
      · have hnext (hpos : 0 < remaining) :
            Reached lookup (round + 1) (lookup.afterRound round state) :=
          hstate.next hselected (Bool.eq_false_of_not_eq_true hstops) (by omega)
        rcases ih hnext (by omega) h with hmem | hlater
        · exact (hafter hmem).imp_right fun hmem ↦ ⟨round, state, hstate, hmem⟩
        · exact .inr hlater

/-- **What was queried** is what was selected in one of the rounds. -/
theorem mem_queried_iff : index ∈ lookup.trace.queried ↔
    ∃ round state, Reached lookup round state ∧ index ∈ lookup.selected state := by
  constructor
  · intro h
    by_cases hanswers : Answers lookup.nodes lookup.start
    · rw [trace_eq_routeRounds hanswers] at h
      rcases exists_reached_of_mem_routeRounds (fun _ ↦ .initial hanswers) le_rfl h with hmem | h
      · exact absurd hmem (Finset.notMem_empty index)
      · exact h
    · rw [trace_eq_initial hanswers] at h
      exact absurd h (Finset.notMem_empty index)
  · rintro ⟨round, state, hreached, hmem⟩
    obtain ⟨remaining, -, htrace⟩ := hreached.exists_routeRounds
    have hafter : index ∈ (lookup.afterRound round state).trace.queried := by
      rw [(queried_afterRound lookup round state).queried, Finset.mem_union, List.mem_toFinset]
      exact .inr hmem
    rw [htrace, routeRounds, runRound_eq_some_iff.mpr ⟨List.ne_nil_of_mem hmem, rfl⟩]
    dsimp only
    split_ifs
    · exact hafter
    · exact queried_subset_routeRounds hafter

end Lookup

/-! ## Selected nodes -/

section

variable {nodes : Fin n → Node n} {seed : UInt64} {requireHonest : Bool} {index : Fin n}

/-- The search comes by every node. -/
theorem exists_offset (seed : UInt64) (index : Fin n) : ∃ offset : Fin n,
    (⟨(seed.toNat % n + offset.val) % n, Nat.mod_lt _ offset.pos⟩ : Fin n) = index := by
  have hpos := index.pos
  have hstart : seed.toNat % n < n := Nat.mod_lt _ hpos
  refine ⟨⟨(index.val + (n - seed.toNat % n)) % n, Nat.mod_lt _ hpos⟩, Fin.ext ?_⟩
  dsimp only
  rw [Nat.add_mod_mod]
  have hsum : seed.toNat % n + (index.val + (n - seed.toNat % n)) = index.val + n := by omega
  rw [hsum, Nat.add_mod_right, Nat.mod_eq_of_lt index.isLt]

theorem exists_selectNode (h : Lookup.Answers nodes index) :
    ∃ selected, selectNode nodes seed requireHonest = some selected := by
  rw [← Option.isSome_iff_exists, selectNode, List.find?_isSome]
  obtain ⟨offset, hoffset⟩ := exists_offset seed index
  refine ⟨index, List.mem_map.mpr ⟨offset, List.mem_finRange _, hoffset⟩, ?_⟩
  simp [h.1, h.2]

theorem answers_of_selectNode (h : selectNode nodes seed true = some index) :
    Lookup.Answers nodes index := by
  have husable := List.find?_some h
  simpa [Lookup.Answers] using husable

end

/-! ## Nodes that answer -/

section

variable {stableHash : List UInt8 → UInt64 → UInt64} {scenario : ResearchScenario} {seed : UInt64}
  {nodes : Fin scenario.nodeCount → Node scenario.nodeCount}

/-- A node answers if it is an ordinary one that is neither malicious nor fails. -/
theorem Kinds.answers_iff (h : Kinds stableHash scenario seed nodes)
    (index : Fin scenario.nodeCount) :
    Lookup.Answers nodes index ↔ index < scenario.ordinaryNodes ∧
      index.val ∉ maliciousIndices stableHash scenario seed ∧
      index.val ∉ failedIndices stableHash scenario seed := by
  simp only [Lookup.Answers, ← Bool.not_eq_true, h.failed_iff, h.malicious_iff]
  grind

end

end TripTorrent.Research

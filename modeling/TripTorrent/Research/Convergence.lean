import Mathlib.Data.Finset.Max
import TripTorrent.Research.Diversity
import TripTorrent.Research.Metrics
import TripTorrent.Research.Origin
import TripTorrent.Selection.Xor

/-!
# Lookups in a network where everyone answers

Tables keep eight contacts at each order of distance, and those with the smallest identifiers, not
the nearest ones, so the node nearest to a target need not stand in the table of a node that is
asked. What a table has is one contact for each order that is not empty, and this is enough: a node
that is not the nearest one names a node whose distance to the nearest one is of a smaller order
(`WellRouted.exists_contact`). A smaller order is nearer to the target, whatever the target is. So
the nearest node that is known has not been queried, the lookup does not converge before it comes to
the nearest node of all, and the order decreases in each round (`WellRouted.near_afterRound`). There
are sixty-four orders, and as many rounds.

An origin that is itself the nearest node does not stand in its own table. It is named by the first
node it queries.
-/

namespace TripTorrent.Research

open Codec Selection

variable {n : ℕ}

/-! ## Orders of distance -/

section

variable {distance : UInt64}

theorem bucketOf_of_ne_zero (h : distance ≠ 0) : bucketOf distance = distance.toNat.log2 := by
  have hpos : distance.toNat ≠ 0 := fun hzero ↦ h (UInt64.toNat_inj.mp hzero)
  have hlog : distance.toNat.log2 < 64 := (Nat.log2_lt hpos).mpr distance.toNat_lt
  rw [bucketOf, leadingZeros, if_neg h]
  omega

theorem bucketOf_lt (distance : UInt64) : bucketOf distance < 64 := by
  rw [bucketOf]
  omega

theorem two_pow_bucketOf_le (h : distance ≠ 0) : 2 ^ bucketOf distance ≤ distance.toNat := by
  rw [bucketOf_of_ne_zero h]
  exact Nat.log2_self_le fun hzero ↦ h (UInt64.toNat_inj.mp hzero)

theorem lt_two_pow_bucketOf (h : distance ≠ 0) : distance.toNat < 2 ^ (bucketOf distance + 1) := by
  rw [bucketOf_of_ne_zero h]
  exact Nat.lt_log2_self

end

/-- The distance between two nodes. -/
def apart (nodes : Fin n → Node n) (a b : Fin n) : ℕ := ((nodes a).id ^^^ (nodes b).id).toNat

section

variable {nodes : Fin n → Node n} {a b c : Fin n}

theorem apart_self (nodes : Fin n → Node n) (a : Fin n) : apart nodes a a = 0 := by
  rw [apart, UInt64.xor_self]
  rfl

theorem apart_comm (nodes : Fin n → Node n) (a b : Fin n) : apart nodes a b = apart nodes b a := by
  rw [apart, apart, UInt64.xor_comm]

theorem xor_id_ne_zero (hdistinct : Function.Injective fun index ↦ (nodes index).id) (hne : a ≠ b) :
    (nodes a).id ^^^ (nodes b).id ≠ 0 := by
  intro hzero
  exact hne (hdistinct (UInt64.xor_eq_zero_iff.mp hzero))

theorem eq_of_apart_lt_one (hdistinct : Function.Injective fun index ↦ (nodes index).id)
    (h : apart nodes a b < 1) : a = b := by
  by_contra hne
  refine xor_id_ne_zero hdistinct hne (UInt64.toNat_inj.mp ?_)
  exact Nat.lt_one_iff.mp h

/-- For each order that is not empty there is a contact in the table. -/
theorem exists_mem_routingTable (sort : UnstableSort ℕ) (nodes : Fin n → Node n) (hne : a ≠ b) :
    ∃ contact ∈ routingTable sort nodes a, contact ≠ a ∧
      bucketOf ((nodes a).id ^^^ (nodes contact).id) =
        bucketOf ((nodes a).id ^^^ (nodes b).id) := by
  set bucket := bucketOf ((nodes a).id ^^^ (nodes b).id) with hbucket
  set members := (List.finRange n).filter fun candidate ↦
    a ≠ candidate ∧ bucketOf ((nodes a).id ^^^ (nodes candidate).id) = bucket with hmembers
  have hmem : b ∈ sort.sortByKey (fun index ↦ (nodes index).id.toNat) members := by
    rw [sort.mem_sortByKey, hmembers, List.mem_filter, decide_eq_true_eq]
    exact ⟨List.mem_finRange b, hne, hbucket.symm⟩
  obtain ⟨contact, rest, hsorted⟩ := List.exists_cons_of_ne_nil (List.ne_nil_of_mem hmem)
  have hcontact : contact ∈ members := by
    refine (sort.perm (fun index ↦ (nodes index).id.toNat) members).mem_iff.mp ?_
    rw [hsorted]
    exact List.mem_cons_self
  rw [hmembers, List.mem_filter, decide_eq_true_eq] at hcontact
  refine ⟨contact, ?_, hcontact.2.1.symm, hcontact.2.2⟩
  rw [routingTable, List.mem_flatMap]
  refine ⟨bucket, List.mem_range.mpr (bucketOf_lt _), ?_⟩
  dsimp only
  rw [← hmembers, hsorted, kBucketSize]
  exact List.mem_cons_self

/-- Two nodes of the same order, seen from a third. -/
theorem apart_lt_of_bucketOf_eq (hdistinct : Function.Injective fun index ↦ (nodes index).id)
    (hac : a ≠ c) (hbc : b ≠ c)
    (h : bucketOf ((nodes c).id ^^^ (nodes a).id) = bucketOf ((nodes c).id ^^^ (nodes b).id)) :
    apart nodes a b < 2 ^ bucketOf ((nodes c).id ^^^ (nodes b).id) := by
  have hle {x : Fin n} (hx : x ≠ c) :
      2 ^ bucketOf ((nodes c).id ^^^ (nodes x).id) ≤ (nodes x).id.toNat ^^^ (nodes c).id.toNat := by
    rw [Nat.xor_comm, ← UInt64.toNat_xor]
    exact two_pow_bucketOf_le (xor_id_ne_zero hdistinct hx.symm)
  have hlt {x : Fin n} (hx : x ≠ c) : (nodes x).id.toNat ^^^ (nodes c).id.toNat <
      2 ^ (bucketOf ((nodes c).id ^^^ (nodes x).id) + 1) := by
    rw [Nat.xor_comm, ← UInt64.toNat_xor]
    exact lt_two_pow_bucketOf (xor_id_ne_zero hdistinct hx.symm)
  rw [apart, UInt64.toNat_xor]
  exact xor_lt_two_pow_of_order (h ▸ hle hac) (h ▸ hlt hac) (hle hbc) (hlt hbc)

end

/-! ## Networks where everyone answers -/

/-- Everyone answers, and the tables are those that were built. -/
structure Intact (sort : UnstableSort ℕ) (nodes : Fin n → Node n) : Prop where
  answers : ∀ index, Lookup.Answers nodes index
  distinct : Function.Injective fun index ↦ (nodes index).id
  routing : ∀ index, (nodes index).routing = routingTable sort nodes index

/-- A lookup by distance alone. One of the replicas is the node nearest to the target. -/
structure WellRouted (lookup : Lookup n) (nearest : Fin n) : Prop extends
    Intact lookup.sort lookup.nodes where
  closest : lookup.diverse = false
  nearest_le : ∀ index, distance lookup.nodes lookup.target nearest ≤
    distance lookup.nodes lookup.target index
  nearest_mem : nearest ∈ lookup.replicas

namespace WellRouted

variable {lookup : Lookup n} {nearest index known : Fin n} {state : LookupState n} {round k : ℕ}

/-- A node whose distance to the nearest one is of a smaller order is nearer to the target. -/
theorem distance_lt (h : WellRouted lookup nearest) (hindex : 2 ^ k ≤ apart lookup.nodes index nearest)
    (hknown : apart lookup.nodes known nearest < 2 ^ k) :
    distance lookup.nodes lookup.target known < distance lookup.nodes lookup.target index := by
  have hnearest := h.nearest_le index
  rw [apart, UInt64.toNat_xor] at hindex hknown
  rw [distance, distance, UInt64.toNat_xor, UInt64.toNat_xor] at hnearest ⊢
  exact xor_lt_xor_of_order hnearest hindex hknown

/-- A node names another one whose distance to the nearest node is of a smaller order. -/
theorem exists_contact (h : WellRouted lookup nearest) (hne : index ≠ nearest) :
    ∃ contact ∈ (lookup.nodes index).routing, apart lookup.nodes contact nearest <
      2 ^ bucketOf ((lookup.nodes index).id ^^^ (lookup.nodes nearest).id) := by
  obtain ⟨contact, hmem, hcontact, hbucket⟩ := exists_mem_routingTable lookup.sort lookup.nodes hne
  rw [← h.routing index] at hmem
  exact ⟨contact, hmem, apart_lt_of_bucketOf_eq h.distinct hcontact hne.symm hbucket⟩

/-! ## What is known in a round -/

/-- What the queried nodes have named is known. -/
structure Informed (lookup : Lookup n) (round : ℕ) (state : LookupState n) : Prop extends
    Lookup.Sound lookup round state where
  known_of_queried : ∀ index ∈ state.trace.queried, ∀ contact ∈ (lookup.nodes index).routing,
    contact ∈ state.known

theorem informed_initial : Informed lookup 0 lookup.initial where
  toSound := Lookup.sound_initial
  known_of_queried := by
    intro index hindex
    exact absurd hindex (Finset.notMem_empty index)

theorem informed_afterRound (h : WellRouted lookup nearest) (hinformed : Informed lookup round state) :
    Informed lookup (round + 1) (lookup.afterRound round state) where
  toSound := hinformed.toSound.afterRound
  known_of_queried := by
    intro index hindex contact hcontact
    have hafter := Lookup.queried_afterRound lookup round state
    rw [hafter.queried, Finset.mem_union, List.mem_toFinset] at hindex
    rw [hafter.known]
    rcases hindex with hearlier | hselected
    · exact .inl (hinformed.known_of_queried index hearlier contact hcontact)
    · exact .inr ⟨index, hselected, h.answers index, hcontact⟩

/-- The known node that is nearest to the target. -/
def Frontier (lookup : Lookup n) (state : LookupState n) (frontier : Fin n) : Prop :=
  frontier ∈ state.known ∧ ∀ index ∈ state.known, index ≠ frontier →
    distance lookup.nodes lookup.target frontier < distance lookup.nodes lookup.target index

/-- The nearest known node has not been queried: it would have named one that is nearer, or have
answered with the record. -/
theorem exists_frontier (h : WellRouted lookup nearest) (hinformed : Informed lookup round state)
    (hgoes : state.trace.success = false) (hknown : state.known.Nonempty) :
    ∃ frontier, Frontier lookup state frontier ∧ frontier ∉ state.trace.queried := by
  obtain ⟨frontier, hmem, hmin⟩ :=
    Finset.exists_min_image state.known (distance lookup.nodes lookup.target) hknown
  refine ⟨frontier, ⟨hmem, fun index hindex hne ↦ ?_⟩, fun hqueried ↦ ?_⟩
  · exact lt_of_le_of_ne (hmin index hindex) ((distance_injective h.distinct).ne hne.symm)
  · by_cases hfound : frontier = nearest
    · have hsuccess := hinformed.success.mpr
        ⟨frontier, hqueried, h.answers frontier, hfound ▸ h.nearest_mem⟩
      rw [hgoes] at hsuccess
      exact absurd hsuccess (by decide)
    · obtain ⟨contact, hcontact, hnearer⟩ := h.exists_contact hfound
      have hle := hmin contact (hinformed.known_of_queried frontier hqueried contact hcontact)
      have hlt := h.distance_lt (two_pow_bucketOf_le (xor_id_ne_zero h.distinct hfound)) hnearer
      exact absurd hle (not_le.mpr hlt)

variable {frontier : Fin n}

/-- It is queried in the next round. -/
theorem Frontier.mem_selected (hclosest : lookup.diverse = false)
    (h : Frontier lookup state frontier) (hnew : frontier ∉ state.trace.queried) :
    frontier ∈ lookup.selected state := by
  obtain ⟨farther, hordered⟩ : ∃ farther, lookup.candidates state = frontier :: farther := by
    refine exists_eq_cons_of_least (lookup.sort.sorted _ _) ?_ fun index hindex ↦ ?_
    · exact Lookup.mem_candidates.mpr ⟨h.1, hnew⟩
    · exact h.2 index (Lookup.mem_candidates.mp hindex).1
  rw [Lookup.selected, admitted, hclosest, hordered]
  exact List.mem_cons_self

/-- The lookup has not converged before it has been queried. -/
theorem Frontier.not_converged (hclosest : lookup.diverse = false)
    (h : Frontier lookup state frontier) (hnew : frontier ∉ state.trace.queried) :
    lookupConverged lookup.sort lookup.nodes lookup.target lookup.diverse state.known
      state.trace.queried = false := by
  obtain ⟨farther, hordered⟩ : ∃ farther, lookup.sort.sortByKey
      (distance lookup.nodes lookup.target) (ascending state.known) = frontier :: farther := by
    refine exists_eq_cons_of_least (lookup.sort.sorted _ _) ?_ fun index hindex ↦ ?_
    · exact lookup.sort.mem_sortByKey.mpr (mem_ascending.mpr h.1)
    · exact h.2 index (mem_ascending.mp (lookup.sort.mem_sortByKey.mp hindex))
  rw [lookupConverged, admitted, hclosest, hordered, decide_eq_false_iff_not]
  rintro ⟨-, hqueried⟩
  exact hnew (hqueried frontier List.mem_cons_self)

/-! ## Orders decrease -/

/-- A node at less than `2 ^ k` from the nearest one is known. -/
def Near (lookup : Lookup n) (nearest : Fin n) (k : ℕ) (state : LookupState n) : Prop :=
  ∃ known ∈ state.known, apart lookup.nodes known nearest < 2 ^ k

/-- The nearest known node is at least as near. -/
theorem Frontier.apart_lt (h : WellRouted lookup nearest) (hfrontier : Frontier lookup state frontier)
    (hnear : Near lookup nearest k state) : apart lookup.nodes frontier nearest < 2 ^ k := by
  obtain ⟨known, hknown, hlt⟩ := hnear
  by_contra hfar
  have hnearer := h.distance_lt (not_lt.mp hfar) hlt
  by_cases hsame : known = frontier
  · exact hfar (hsame ▸ hlt)
  · exact absurd hnearer (not_lt.mpr (hfrontier.2 known hknown hsame).le)

/-- **The step.** In a round that does not find the record, a node of a smaller order is named. -/
theorem near_afterRound (h : WellRouted lookup nearest) (hinformed : Informed lookup round state)
    (hgoes : state.trace.success = false)
    (hafter : (lookup.afterRound round state).trace.success = false)
    (hnear : Near lookup nearest (k + 1) state) :
    Near lookup nearest k (lookup.afterRound round state) := by
  have hqueried := Lookup.queried_afterRound lookup round state
  obtain ⟨known, hknown, -⟩ := id hnear
  obtain ⟨frontier, hfrontier, hnew⟩ := h.exists_frontier hinformed hgoes ⟨known, hknown⟩
  have hselected := hfrontier.mem_selected h.closest hnew
  have hne : frontier ≠ nearest := by
    rintro rfl
    have hsuccess := hqueried.success.mpr
      (.inr ⟨frontier, hselected, h.answers frontier, h.nearest_mem⟩)
    rw [hafter] at hsuccess
    exact absurd hsuccess (by decide)
  obtain ⟨contact, hcontact, hnearer⟩ := h.exists_contact hne
  have horder : bucketOf ((lookup.nodes frontier).id ^^^ (lookup.nodes nearest).id) < k + 1 := by
    have hle := two_pow_bucketOf_le (xor_id_ne_zero h.distinct hne)
    exact (Nat.pow_lt_pow_iff_right (by decide)).mp (hle.trans_lt (hfrontier.apart_lt h hnear))
  refine ⟨contact, ?_, hnearer.trans_le (Nat.pow_le_pow_right (by decide) (by omega))⟩
  exact (hqueried.known contact).mpr (.inr ⟨frontier, hselected, h.answers frontier, hcontact⟩)

/-- A lookup goes on until the record is found. -/
theorem routeRounds_succ (h : WellRouted lookup nearest) (hinformed : Informed lookup round state)
    (hgoes : state.trace.success = false) (hknown : state.known.Nonempty) (remaining : ℕ) :
    lookup.routeRounds (remaining + 1) round state =
      if (lookup.afterRound round state).trace.success then (lookup.afterRound round state).trace
      else lookup.routeRounds remaining (round + 1) (lookup.afterRound round state) := by
  obtain ⟨frontier, hfrontier, hnew⟩ := h.exists_frontier hinformed hgoes hknown
  have hselected := List.ne_nil_of_mem (hfrontier.mem_selected h.closest hnew)
  rw [Lookup.routeRounds, Lookup.runRound_eq_some_iff.mpr ⟨hselected, rfl⟩]
  dsimp only
  rcases hafter : (lookup.afterRound round state).trace.success with _ | _
  · obtain ⟨known, hknown⟩ := hknown
    have hlater : (lookup.afterRound round state).known.Nonempty :=
      ⟨known, ((Lookup.queried_afterRound lookup round state).known known).mpr (.inl hknown)⟩
    obtain ⟨next, hnext, hlast⟩ := h.exists_frontier (h.informed_afterRound hinformed) hafter hlater
    rw [Lookup.stops, hafter, hnext.not_converged h.closest hlast]
    rfl
  · rw [Lookup.stops, hafter]
    rfl

/-- **The run.** A lookup that knows a node at less than `2 ^ k` finds the record in `k + 1`
rounds. -/
theorem success_routeRounds (h : WellRouted lookup nearest) (hinformed : Informed lookup round state)
    (hgoes : state.trace.success = false) (hnear : Near lookup nearest k state) {remaining : ℕ}
    (hremaining : k < remaining) :
    (lookup.routeRounds remaining round state).success = true ∧
      (lookup.routeRounds remaining round state).rounds ≤ round + k + 1 := by
  induction k generalizing round state remaining with
  | zero =>
    -- the nearest node itself is known, and comes next
    obtain ⟨known, hknown, hlt⟩ := id hnear
    obtain ⟨frontier, hfrontier, hnew⟩ := h.exists_frontier hinformed hgoes ⟨known, hknown⟩
    have hfound : frontier = nearest := eq_of_apart_lt_one h.distinct (hfrontier.apart_lt h hnear)
    have hsuccess : (lookup.afterRound round state).trace.success = true :=
      (Lookup.queried_afterRound lookup round state).success.mpr
        (.inr ⟨frontier, hfrontier.mem_selected h.closest hnew, h.answers frontier,
          hfound ▸ h.nearest_mem⟩)
    obtain ⟨remaining, rfl⟩ : ∃ fewer, remaining = fewer + 1 := ⟨remaining - 1, by omega⟩
    rw [h.routeRounds_succ hinformed hgoes ⟨known, hknown⟩, if_pos hsuccess]
    exact ⟨hsuccess, (h.informed_afterRound hinformed).rounds.le⟩
  | succ k ih =>
    obtain ⟨known, hknown, -⟩ := id hnear
    obtain ⟨remaining, rfl⟩ : ∃ fewer, remaining = fewer + 1 := ⟨remaining - 1, by omega⟩
    have hlater := h.informed_afterRound hinformed
    rw [h.routeRounds_succ hinformed hgoes ⟨known, hknown⟩]
    split_ifs with hafter
    · refine ⟨hafter, ?_⟩
      rw [hlater.rounds]
      omega
    · rw [Bool.not_eq_true] at hafter
      have hfewer : k < remaining := by omega
      obtain ⟨hsuccess, hrounds⟩ := ih hlater hafter
        (h.near_afterRound hinformed hgoes hafter hnear) hfewer
      exact ⟨hsuccess, by omega⟩

/-! ## Whole lookups -/

/-- An origin that is not the nearest node knows one of a smaller order. -/
theorem near_initial (h : WellRouted lookup nearest) (hne : lookup.start ≠ nearest) :
    Near lookup nearest
      (bucketOf ((lookup.nodes lookup.start).id ^^^ (lookup.nodes nearest).id)) lookup.initial := by
  obtain ⟨contact, hcontact, hlt⟩ := h.exists_contact hne
  exact ⟨contact, List.mem_toFinset.mpr hcontact, hlt⟩

/-- An origin that is the nearest node is named by the first node it queries, as there is no other
node of a smaller order. -/
theorem near_of_start (h : WellRouted lookup nearest) (hstart : lookup.start = nearest)
    (hn : 2 ≤ n) : lookup.initial.known.Nonempty ∧
      ((lookup.afterRound 0 lookup.initial).trace.success = false →
        Near lookup nearest 0 (lookup.afterRound 0 lookup.initial)) := by
  have : Nontrivial (Fin n) := Fin.nontrivial_iff_two_le.mpr hn
  obtain ⟨other, hother⟩ := exists_ne nearest
  obtain ⟨second, hsecond, hmin⟩ := Finset.exists_min_image
    (Finset.univ.filter (· ≠ nearest)) (fun index ↦ apart lookup.nodes index nearest)
    ⟨other, by simp [hother]⟩
  have hne : second ≠ nearest := (Finset.mem_filter.mp hsecond).2
  have hleast (index : Fin n) (hindex : index ≠ nearest) :
      apart lookup.nodes second nearest ≤ apart lookup.nodes index nearest :=
    hmin index (by simp [hindex])
  set k := bucketOf ((lookup.nodes nearest).id ^^^ (lookup.nodes second).id) with hk
  -- the table of the origin has a node of the order of the second nearest one
  obtain ⟨contact, hcontact, hcontactne, hbucket⟩ :=
    exists_mem_routingTable lookup.sort lookup.nodes hne.symm
  rw [← hk] at hbucket
  have hknown : contact ∈ lookup.initial.known := by
    rw [Lookup.initial, List.mem_toFinset, hstart, h.routing]
    exact hcontact
  have hnear : Near lookup nearest (k + 1) lookup.initial := by
    refine ⟨contact, hknown, ?_⟩
    rw [apart_comm, ← hbucket]
    exact lt_two_pow_bucketOf (xor_id_ne_zero h.distinct hcontactne.symm)
  refine ⟨⟨contact, hknown⟩, fun hafter ↦ ?_⟩
  obtain ⟨named, hnamed, hlt⟩ := h.near_afterRound informed_initial rfl hafter hnear
  have hfound : named = nearest := by
    by_contra hfar
    have hle : 2 ^ k ≤ apart lookup.nodes second nearest := by
      rw [apart_comm]
      exact two_pow_bucketOf_le (xor_id_ne_zero h.distinct hne.symm)
    exact absurd (hle.trans (hleast named hfar)) (not_le.mpr hlt)
  refine ⟨nearest, hfound ▸ hnamed, ?_⟩
  rw [apart_self]
  exact Nat.one_pos

/-- A lookup finds the record, in one round more than the order of the origin at most, and in two
rounds if the origin is the nearest node. -/
theorem success_trace (h : WellRouted lookup nearest) (hn : 2 ≤ n) :
    lookup.trace.success = true ∧ lookup.trace.rounds ≤
      bucketOf ((lookup.nodes lookup.start).id ^^^ (lookup.nodes nearest).id) + 2 := by
  rw [Lookup.trace_eq_routeRounds (h.answers _)]
  have hinitial : Informed lookup 0 lookup.initial := informed_initial
  have hgoes : lookup.initial.trace.success = false := rfl
  by_cases hstart : lookup.start = nearest
  · obtain ⟨hknown, hnear⟩ := h.near_of_start hstart hn
    rw [maxLookupRounds, h.routeRounds_succ hinitial hgoes hknown]
    have hlater := h.informed_afterRound hinitial
    split_ifs with hafter
    · refine ⟨hafter, ?_⟩
      rw [hlater.rounds]
      omega
    · rw [Bool.not_eq_true] at hafter
      obtain ⟨hsuccess, hrounds⟩ :=
        h.success_routeRounds hlater hafter (hnear hafter) (by decide : 0 < 63)
      exact ⟨hsuccess, by omega⟩
  · obtain ⟨hsuccess, hrounds⟩ :=
      h.success_routeRounds hinitial hgoes (h.near_initial hstart) (bucketOf_lt _)
    exact ⟨hsuccess, by
      rw [maxLookupRounds]
      omega⟩

end WellRouted

/-! ## Topologies without attackers -/

section

variable {stableHash : List UInt8 → UInt64 → UInt64} {sort : UnstableSort ℕ}
  {nodes : Fin n → Node n} {target : UInt64} {percent : UInt8} {seed : UInt64}

/-- Without attackers, tables are not contaminated. -/
theorem routing_of_honest (hhonest : ∀ index, (nodes index).malicious = false) (current : Fin n) :
    (contaminateRoutingTables stableHash nodes percent seed current).routing =
      (nodes current).routing := by
  rcases contaminateRoutingTables_cases stableHash nodes percent seed current with
    ⟨-, heq⟩ | ⟨attacker, hattacker, -⟩
  · exact heq
  · have hboth := hattacker 0
    rw [hhonest] at hboth
    exact absurd hboth (by decide)

theorem intact_topology (hanswers : ∀ index, Lookup.Answers nodes index)
    (hdistinct : Function.Injective fun index ↦ (nodes index).id) :
    Intact sort (contaminateRoutingTables stableHash (buildRoutingTables sort nodes) percent
      seed) := by
  set topology := contaminateRoutingTables stableHash (buildRoutingTables sort nodes) percent seed
  have hsame : SameNodes nodes topology :=
    sameNodes_buildRoutingTables.trans sameNodes_contaminateRoutingTables
  have hid (index : Fin n) : (topology index).id = (nodes index).id := by rw [hsame index]
  refine ⟨fun index ↦ ?_, ?_, fun index ↦ ?_⟩
  · rw [Lookup.Answers, hsame.failed_eq, hsame.malicious_eq]
    exact hanswers index
  · simp only [hid]
    exact hdistinct
  · have hhonest (index : Fin n) : (buildRoutingTables sort nodes index).malicious = false :=
      (hanswers index).2
    have hkept : (topology index).routing = (buildRoutingTables sort nodes index).routing :=
      routing_of_honest hhonest index
    rw [hkept, buildRoutingTables]
    simp only [routingTable, hid]

/-- The first replica by distance is the node nearest to the target. -/
theorem exists_nearest_mem_selectReplicas (hn : 2 ≤ n)
    (hdistinct : Function.Injective fun index ↦ (nodes index).id) (sort : UnstableSort ℕ)
    (target : UInt64) {replicaCount : ℕ} (hcount : 0 < replicaCount) :
    ∃ nearest ∈ selectReplicas sort nodes target false replicaCount,
      ∀ index, distance nodes target nearest ≤ distance nodes target index := by
  obtain ⟨nearest, -, hmin⟩ := Finset.exists_min_image Finset.univ (distance nodes target)
    ⟨(⟨0, by omega⟩ : Fin n), Finset.mem_univ _⟩
  refine ⟨nearest, ?_, fun index ↦ hmin index (Finset.mem_univ index)⟩
  obtain ⟨farther, hordered⟩ : ∃ farther,
      sort.sortByKey (distance nodes target) (List.finRange n) = nearest :: farther := by
    refine exists_eq_cons_of_least (sort.sorted _ _) (by simp) fun index _ hne ↦ ?_
    exact lt_of_le_of_ne (hmin index (Finset.mem_univ index))
      ((distance_injective hdistinct).ne hne.symm)
  obtain ⟨more, rfl⟩ : ∃ more, replicaCount = more + 1 := ⟨replicaCount - 1, by omega⟩
  rw [selectReplicas, admitted, if_neg Bool.false_ne_true, hordered, List.take_succ_cons,
    List.mem_toFinset]
  exact List.mem_cons_self

/-- In an intact topology, a lookup by distance finds a record that is stored by distance. -/
theorem Intact.success_routeLookup (h : Intact sort nodes) (hn : 2 ≤ n) (start : Fin n)
    (target : UInt64) {replicaCount : ℕ} (hcount : 0 < replicaCount) :
    let trace := routeLookup sort nodes start target
      (selectReplicas sort nodes target false replicaCount) false
    trace.success = true ∧ ∃ nearest,
      (∀ index, distance nodes target nearest ≤ distance nodes target index) ∧
      trace.rounds ≤ bucketOf ((nodes start).id ^^^ (nodes nearest).id) + 2 := by
  obtain ⟨nearest, hmem, hnearest⟩ :=
    exists_nearest_mem_selectReplicas hn h.distinct sort target hcount
  have hrouted : WellRouted ⟨sort, nodes, start, target, _, false⟩ nearest :=
    ⟨h, rfl, hnearest, hmem⟩
  obtain ⟨hsuccess, hrounds⟩ := hrouted.success_trace hn
  exact ⟨hsuccess, nearest, hnearest, hrounds⟩

/-- **Lookups by distance succeed where everyone answers.** For any distinct identifiers and any
sort, from every origin and for every target a record is found, in two rounds more than the order of
the distance between the origin and the nearest node at most. -/
theorem lookup_succeeds_where_all_answer (hn : 2 ≤ n)
    (hanswers : ∀ index, Lookup.Answers nodes index)
    (hdistinct : Function.Injective fun index ↦ (nodes index).id)
    (stableHash : List UInt8 → UInt64 → UInt64) (sort : UnstableSort ℕ) (percent : UInt8)
    (seed : UInt64) (start : Fin n) (target : UInt64) {replicaCount : ℕ}
    (hcount : 0 < replicaCount) :
    let topology := contaminateRoutingTables stableHash (buildRoutingTables sort nodes) percent seed
    let trace := routeLookup sort topology start target
      (selectReplicas sort topology target false replicaCount) false
    trace.success = true ∧ ∃ nearest,
      (∀ index, distance topology target nearest ≤ distance topology target index) ∧
      trace.rounds ≤ bucketOf ((topology start).id ^^^ (topology nearest).id) + 2 :=
  (intact_topology hanswers hdistinct).success_routeLookup hn start target hcount

/-- Three nodes with the identifiers 0, 1 and 2. -/
def threeNodes : Fin 3 → Node 3 := fun index ↦
  ⟨UInt64.ofNat index, UInt16.ofNat index, false, false, false, []⟩

/-- The last of three nodes finds the record that it stores itself. -/
theorem lookup_succeeds_where_all_answer_three :
    let topology := contaminateRoutingTables (fun _ value ↦ value)
      (buildRoutingTables (.insertion ℕ) threeNodes) 100 0
    (routeLookup (.insertion ℕ) topology 2 2
      (selectReplicas (.insertion ℕ) topology 2 false 1) false).success = true :=
  (lookup_succeeds_where_all_answer (by decide) (fun _ ↦ ⟨rfl, rfl⟩) (by decide)
    (fun _ value ↦ value) (.insertion ℕ) 100 0 2 2 (by decide)).1

end

/-! ## Simulations without attackers -/

section

variable {run : Run n} {metrics metrics' : ResearchMetrics} {content : ℕ}

/-- A policy of lookups by distance from the requester. -/
structure Policy.Plain (policy : Policy) : Prop where
  origin : policy.origin = .direct
  routing : policy.routing = .closest
  paths : policy.lookupPaths = 1

/-- Every lookup of a content is counted as a success. -/
theorem Run.successes_simulateContent (hpolicy : run.policy.Plain)
    (hintact : Intact run.sort run.nodes) (hn : 2 ≤ n) (hcount : 0 < run.replicaCount)
    (h : run.simulateContent metrics content = some metrics') :
    metrics'.successes = metrics.successes + run.lookupsPerContent ∧
      metrics'.eclipsedLookups = metrics.eclipsedLookups := by
  obtain ⟨provider, requester, state, -, -, hstate, rfl⟩ := simulateContent_eq_some_iff.mp h
  refine Outcome.foldlM_range_keeps (P := fun made (state : ContentState n) ↦
    state.metrics.successes = metrics.successes + made ∧
      state.metrics.eclipsedLookups = metrics.eclipsedLookups) ?_ ⟨rfl, rfl⟩ hstate
  intro repetition state state' hkept hstep
  obtain ⟨combined, hcombined, rfl⟩ := addRepetition_eq_some_iff.mp hstep
  rw [combinedLookup_of_direct hpolicy.origin hpolicy.paths] at hcombined
  have hsuccess : combined.success = true := by
    obtain rfl := Option.some.inj hcombined
    have hdiverse : decide (run.policy.routing = .prefixDiverse) = false := by
      rw [hpolicy.routing]
      rfl
    rw [replicas, hdiverse]
    exact (hintact.success_routeLookup hn requester (run.target content) hcount).1
  rw [ContentState.addLookup]
  dsimp only
  rw [hsuccess, hkept.1, hkept.2]
  exact ⟨rfl, rfl⟩

end

section

variable {stableHash : List UInt8 → UInt64 → UInt64} {sort : UnstableSort ℕ}
  {scenario : ResearchScenario} {candidate : DiscoveryCandidate} {tuning : ResearchTuning}
  {nodes : Fin scenario.nodeCount → Node scenario.nodeCount}

/-- A scenario in which no node is malicious, and none fails. -/
structure ResearchScenario.Honest (scenario : ResearchScenario) : Prop where
  malicious : percentOf scenario.ordinaryNodes scenario.maliciousPercent = 0
  failed : percentOf scenario.ordinaryNodes scenario.failedPercent = 0
  sybils : scenario.sybilNodes = 0

theorem ResearchScenario.Honest.answers (h : scenario.Honest) {seed : UInt64}
    (hkinds : Kinds stableHash scenario seed nodes) (index : Fin scenario.nodeCount) :
    Lookup.Answers nodes index := by
  have hmalicious : maliciousIndices stableHash scenario seed = ∅ := by
    rw [← Finset.card_eq_zero, maliciousIndices, card_rankedIndices, h.malicious, Nat.zero_min]
  have hfailed : failedIndices stableHash scenario seed = ∅ := by
    rw [← Finset.card_eq_zero, failedIndices, card_rankedIndices, h.failed, Nat.zero_min]
  have hindex : index.val < scenario.ordinaryNodes + scenario.sybilNodes := index.isLt
  rw [h.sybils, Nat.add_zero] at hindex
  rw [hkinds.answers_iff, hmalicious, hfailed]
  exact ⟨hindex, Finset.notMem_empty _, Finset.notMem_empty _⟩

/-- Nodes of different hashes make an intact topology. -/
theorem ResearchScenario.Honest.exists_intact (h : scenario.Honest) (sort : UnstableSort ℕ)
    (candidate : DiscoveryCandidate)
    (hhash : Set.InjOn (fun index ↦ stableHash (utf8 "node") (UInt64.ofNat index ^^^ tuning.seed))
      (Set.Iio scenario.ordinaryNodes)) :
    ∃ nodes, topologyOf stableHash sort scenario candidate tuning = some nodes ∧
      Intact sort nodes := by
  set firstKey :=
    lookupKey stableHash 0 ((policyOf candidate tuning).key = .capabilityDerived) tuning.seed
  obtain ⟨built, hbuilt⟩ : ∃ built,
      buildNodes stableHash scenario firstKey tuning.seed = some built := by
    rw [exists_buildNodes_iff]
    intro index hindex
    rw [h.sybils] at hindex
    exact absurd hindex (Nat.not_lt_zero index)
  have hordinary (index : Fin scenario.nodeCount) : index.val < scenario.ordinaryNodes :=
    ((kinds_of_buildNodes hbuilt).answers_iff index).mp
      (h.answers (kinds_of_buildNodes hbuilt) index) |>.1
  have hdistinct : Function.Injective fun index ↦ (built index).id := by
    intro a b heq
    dsimp only at heq
    rw [id_of_buildNodes hbuilt, id_of_buildNodes hbuilt, if_pos (hordinary a),
      if_pos (hordinary b)] at heq
    exact Fin.ext (hhash (hordinary a) (hordinary b) heq)
  have htopology : topologyOf stableHash sort scenario candidate tuning =
      some (contaminateRoutingTables stableHash (buildRoutingTables sort built)
        tuning.routingContaminationPercent tuning.seed) := by
    rw [topologyOf, buildTopology, hbuilt]
    rfl
  exact ⟨_, htopology, intact_topology (h.answers (kinds_of_buildNodes hbuilt)) hdistinct⟩

theorem plain_policyOf (h : candidate = .vanillaKademlia ∨ candidate = .blindedKademlia) :
    (policyOf candidate tuning).Plain := by
  rcases h with rfl | rfl
  · exact ⟨rfl, rfl, rfl⟩
  · exact ⟨rfl, rfl, rfl⟩

/-- **Without attackers the reported success is complete.** The two candidates that look up by
distance find every record in every lookup, for any hash that gives the nodes different identifiers,
and no lookup is counted as eclipsed. -/
theorem honest_simulation_finds_all (h : scenario.Honest) (husable : Usable scenario tuning)
    (hcandidate : candidate = .vanillaKademlia ∨ candidate = .blindedKademlia)
    (sort : UnstableSort ℕ)
    (hhash : Set.InjOn (fun index ↦ stableHash (utf8 "node") (UInt64.ofNat index ^^^ tuning.seed))
      (Set.Iio scenario.ordinaryNodes)) :
    ∃ result, simulateWithTuning stableHash sort scenario candidate tuning = some result ∧
      result.metrics.lookups = scenario.contents * scenario.lookupsPerContent ∧
      result.metrics.successes = result.metrics.lookups ∧
      result.metrics.eclipsedLookups = 0 := by
  obtain ⟨nodes, hnodes, hintact⟩ := h.exists_intact sort candidate hhash
  have hsize : scenario.ordinaryNodes ≤ scenario.nodeCount := Nat.le_add_right _ _
  have hn : 2 ≤ scenario.nodeCount := by
    have hmany := husable.1
    rw [kBucketSize] at hmany
    omega
  obtain ⟨result, hresult⟩ := exists_simulateWithTuning_iff.mpr
    ⟨husable, nodes, hnodes, ⟨⟨0, by omega⟩, hintact.answers _⟩⟩
  refine ⟨result, hresult, ?_⟩
  obtain ⟨-, nodes', metrics, hnodes', hmetrics, rfl⟩ := simulateWithTuning_eq_some_iff.mp hresult
  obtain rfl := Option.some.inj (hnodes.symm.trans hnodes')
  have hcounts : metrics.successes = scenario.contents * scenario.lookupsPerContent ∧
      metrics.eclipsedLookups = 0 := by
    refine Outcome.foldlM_range_keeps (P := fun made (metrics : ResearchMetrics) ↦
      metrics.successes = made * scenario.lookupsPerContent ∧ metrics.eclipsedLookups = 0) ?_
      ⟨(Nat.zero_mul _).symm, rfl⟩ hmetrics
    intro content metrics metrics' hkept hstep
    obtain ⟨hsuccesses, heclipsed⟩ := Run.successes_simulateContent (plain_policyOf hcandidate)
      hintact hn husable.2.2.2.2.1 hstep
    rw [hsuccesses, heclipsed, hkept.1, Nat.succ_mul]
    exact ⟨rfl, hkept.2⟩
  have hlookups := (consistent_of_simulateWithTuning hresult).lookups_eq
  exact ⟨hlookups, hcounts.1.trans hlookups.symm, hcounts.2⟩

/-- Nine honest nodes, and three lookups for each of two contents. -/
theorem honest_simulation_finds_all_nine :
    ∃ result, simulateWithTuning (fun _ value ↦ value) (.insertion ℕ)
        ⟨9, 0, 0, 0, 0, 2, 3⟩ .blindedKademlia ⟨0, 1, 1, 50⟩ = some result ∧
      result.metrics.lookups = 6 ∧ result.metrics.successes = result.metrics.lookups ∧
      result.metrics.eclipsedLookups = 0 := by
  refine honest_simulation_finds_all ⟨by decide, by decide, rfl⟩ (by decide) (.inr rfl) _ ?_
  intro a ha b hb heq
  simp only [UInt64.xor_zero] at heq
  have hnat := congrArg UInt64.toNat heq
  rw [UInt64.toNat_ofNat_of_lt' (lt_trans (Set.mem_Iio.mp ha) (by decide)),
    UInt64.toNat_ofNat_of_lt' (lt_trans (Set.mem_Iio.mp hb) (by decide))] at hnat
  exact hnat

end

end TripTorrent.Research

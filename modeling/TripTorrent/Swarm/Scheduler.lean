import Mathlib.Data.List.MinMax
import Mathlib.Data.Prod.Lex
import TripTorrent.Protocol.Message
import TripTorrent.Transition.Inevitable

/-!
# The rarest-first scheduler

The per-transfer scheduler: which chunks are complete, which are in flight and at whom, and which
providers may still be asked. At most one request is outstanding per provider.

The four operations are translated as state-passing functions; what each of them can do to the
state is then said once, in `assign_cases`, `accept_eq_ok_iff` and the field lemmas of `reject`, and
later files use these and never the definitions.
-/

namespace TripTorrent

inductive ChunkState where
  | missing
  | inFlight (provider : ℕ)
  | complete
deriving DecidableEq

structure ProviderState where
  availability : PieceAvailability
  active : Bool
  busy : Bool
  accepted : ℕ
  rejected : ℕ
deriving DecidableEq

/-- Per-provider counters scoped to one transfer. -/
structure ProviderStats where
  accepted : ℕ
  rejected : ℕ
  active : Bool
deriving DecidableEq

structure Scheduler where
  chunks : List ChunkState
  providers : List ProviderState
  retries : ℕ
deriving DecidableEq

inductive ScheduleError where
  | invalidCompletedLength
  | invalidAvailability
  | tooManyChunks
  | unknownProvider
  | unexpectedChunk
deriving DecidableEq

/-- `u32::try_from(index).unwrap_or(u32::MAX)` -/
def saturateU32 (index : ℕ) : UInt32 := .ofNat (min index (2 ^ 32 - 1))

namespace Scheduler

/-- Creates a scheduler and marks resume-validated chunks complete. -/
def new (chunkCount : ℕ) (availability : List PieceAvailability) (completed : List Bool) :
    Except ScheduleError Scheduler :=
  if completed.length ≠ chunkCount then .error .invalidCompletedLength
  else if 2 ^ 32 ≤ chunkCount then .error .tooManyChunks
  else if availability.any fun pieces ↦
      pieces.chunkCount.toNat != chunkCount || !pieces.isValid then
    .error .invalidAvailability
  else .ok
    { chunks := completed.map fun done ↦ if done then .complete else .missing
      providers := availability.map fun pieces ↦
        { availability := pieces, active := true, busy := false, accepted := 0, rejected := 0 }
      retries := 0 }

/-- How many active providers have the chunk. -/
def sourceCount (s : Scheduler) (index : ℕ) : ℕ :=
  s.providers.countP fun p ↦ p.active && p.availability.contains (saturateU32 index)

/-- The missing chunks a provider could be asked for, each with its number of sources. -/
def candidates (s : Scheduler) (pieces : PieceAvailability) : List (ℕ ×ₗ ℕ) :=
  (s.chunks.zipIdx.filter fun (state, index) ↦
      state == .missing && pieces.contains (saturateU32 index)).map
    fun (_, index) ↦ toLex (s.sourceCount index, index)

/-- Assigns the rarest available unclaimed chunk to an idle provider. -/
def assign (s : Scheduler) (provider : ℕ) : Option UInt32 × Scheduler :=
  match s.providers[provider]? with
  | none => (none, s)
  | some state =>
    if !state.active || state.busy then (none, s)
    else
      match (s.candidates state.availability).min? with
      | none => (none, s)
      | some choice =>
        let index := (ofLex choice).2
        (if index < 2 ^ 32 then some (.ofNat index) else none,
          { s with
            chunks := s.chunks.set index (.inFlight provider)
            providers := s.providers.modify provider fun p ↦ { p with busy := true } })

/-- Records a verified chunk from its assigned provider. -/
def accept (s : Scheduler) (provider : ℕ) (index : UInt32) :
    Except ScheduleError Unit × Scheduler :=
  if s.chunks[index.toNat]? ≠ some (.inFlight provider) then (.error .unexpectedChunk, s)
  else
    let s := { s with chunks := s.chunks.set index.toNat .complete }
    if provider < s.providers.length then
      (.ok (), { s with
        providers := s.providers.modify provider fun p ↦
          { p with busy := false, accepted := p.accepted + 1 } })
    else (.error .unknownProvider, s)

/-- Penalizes a provider for a failed or invalid response and releases its chunk. -/
def reject (s : Scheduler) (provider : ℕ) : Scheduler where
  chunks := s.chunks.map fun chunk ↦ if chunk = .inFlight provider then .missing else chunk
  providers := s.providers.modify provider fun p ↦
    { p with busy := false, active := false, rejected := p.rejected + 1 }
  retries := s.retries + s.chunks.countP fun chunk ↦ chunk = .inFlight provider

def isComplete (s : Scheduler) : Bool := s.chunks.all fun chunk ↦ chunk == .complete

def hasInFlight (s : Scheduler) : Bool :=
  s.chunks.any fun chunk ↦
    match chunk with
    | .inFlight _ => true
    | _ => false

/-- Whether every missing chunk still has an active source. -/
def canFinish (s : Scheduler) : Bool :=
  s.chunks.zipIdx.all fun (state, index) ↦ state != .missing || 0 < s.sourceCount index

def providerStats (s : Scheduler) (provider : ℕ) : Option ProviderStats :=
  s.providers[provider]?.map fun p ↦
    { accepted := p.accepted, rejected := p.rejected, active := p.active }

variable {s t : Scheduler} {provider : ℕ}

/-! ## The tests -/

theorem isComplete_iff : s.isComplete = true ↔ ∀ c ∈ s.chunks, c = .complete := by
  simp [isComplete]

theorem hasInFlight_iff : s.hasInFlight = true ↔ ∃ p, ChunkState.inFlight p ∈ s.chunks := by
  rw [hasInFlight, List.any_eq_true]
  constructor
  · rintro ⟨c, hc, h⟩
    cases c with
    | inFlight p => exact ⟨p, hc⟩
    | missing => cases h
    | complete => cases h
  · rintro ⟨p, hp⟩
    exact ⟨_, hp, rfl⟩

theorem sourceCount_pos_iff {index : ℕ} : 0 < s.sourceCount index ↔
    ∃ p ∈ s.providers, p.active = true ∧ p.availability.contains (saturateU32 index) = true := by
  simp [sourceCount, List.countP_pos_iff]

theorem canFinish_iff : s.canFinish = true ↔
    ∀ i : ℕ, s.chunks[i]? = some .missing → 0 < s.sourceCount i := by
  rw [canFinish, List.all_eq_true]
  constructor
  · intro h i hi
    have := h (.missing, i) (List.mk_mem_zipIdx_iff_getElem?.mpr hi)
    simpa using this
  · rintro h ⟨c, i⟩ hc
    rw [List.mk_mem_zipIdx_iff_getElem?] at hc
    by_cases hm : c = .missing
    · subst hm
      simpa using h i hc
    · simp [hm]

/-! ## What the operations can do -/

theorem mem_candidates {pieces : PieceAvailability} {x : ℕ ×ₗ ℕ} : x ∈ s.candidates pieces ↔
    ∃ i, s.chunks[i]? = some .missing ∧ pieces.contains (saturateU32 i) = true ∧
      x = toLex (s.sourceCount i, i) := by
  simp only [candidates, List.mem_map, List.mem_filter, Prod.exists,
    List.mk_mem_zipIdx_iff_getElem?]
  constructor
  · rintro ⟨c, i, ⟨hc, h⟩, rfl⟩
    rw [Bool.and_eq_true, beq_iff_eq] at h
    obtain ⟨rfl, h⟩ := h
    exact ⟨i, hc, h, rfl⟩
  · rintro ⟨i, hc, h, rfl⟩
    exact ⟨.missing, i, ⟨hc, by simp [h]⟩, rfl⟩

theorem candidates_eq_nil_iff {pieces : PieceAvailability} : s.candidates pieces = [] ↔
    ∀ i : ℕ, s.chunks[i]? = some .missing → pieces.contains (saturateU32 i) = false := by
  rw [List.eq_nil_iff_forall_not_mem]
  constructor
  · intro h i hi
    by_contra hcontains
    rw [Bool.not_eq_false] at hcontains
    exact h _ (mem_candidates.mpr ⟨i, hi, hcontains, rfl⟩)
  · intro h x hx
    obtain ⟨i, hi, hcontains, -⟩ := mem_candidates.mp hx
    rw [h i hi] at hcontains
    cases hcontains

/-- The state after chunk `i` has been handed to a provider. -/
def claim (s : Scheduler) (provider i : ℕ) : Scheduler :=
  { s with
    chunks := s.chunks.set i (.inFlight provider)
    providers := s.providers.modify provider fun p ↦ { p with busy := true } }

/-- The state after a provider has delivered chunk `i`. -/
def deliver (s : Scheduler) (provider i : ℕ) : Scheduler :=
  { s with
    chunks := s.chunks.set i .complete
    providers := s.providers.modify provider fun p ↦
      { p with busy := false, accepted := p.accepted + 1 } }

/-- An assignment either finds nothing to hand out, for one of three reasons, or claims the least
candidate. -/
theorem assign_cases (s : Scheduler) (provider : ℕ) :
    (s.assign provider = (none, s) ∧
      ∀ state, s.providers[provider]? = some state → state.active = true → state.busy = false →
        s.candidates state.availability = []) ∨
    ∃ state i, s.providers[provider]? = some state ∧ state.active = true ∧ state.busy = false ∧
      s.chunks[i]? = some .missing ∧ state.availability.contains (saturateU32 i) = true ∧
      (∀ x ∈ s.candidates state.availability, toLex (s.sourceCount i, i) ≤ x) ∧
      s.assign provider = (if i < 2 ^ 32 then some (.ofNat i) else none, s.claim provider i) := by
  rw [assign]
  cases hp : s.providers[provider]? with
  | none => exact .inl ⟨rfl, by simp⟩
  | some state =>
    by_cases hidle : (!state.active || state.busy) = true
    · refine .inl ⟨if_pos hidle, ?_⟩
      intro st hst hactive hbusy
      obtain rfl := Option.some.inj hst
      simp [hactive, hbusy] at hidle
    · have hflags : state.active = true ∧ state.busy = false := by simpa using hidle
      cases hmin : (s.candidates state.availability).min? with
      | none =>
        refine .inl ⟨by simp only [if_neg hidle, hmin], ?_⟩
        intro st hst _ _
        obtain rfl := Option.some.inj hst
        exact List.min?_eq_none_iff.mp hmin
      | some choice =>
        obtain ⟨hmem, hle⟩ := List.min?_eq_some_iff.mp hmin
        obtain ⟨i, hi, hav, rfl⟩ := mem_candidates.mp hmem
        refine .inr ⟨state, i, rfl, hflags.1, hflags.2, hi, hav, hle, ?_⟩
        simp only [if_neg hidle, hmin]
        rfl

/-- The same with the index in the type it is handed out in, which loses nothing as long as the
chunks can be numbered. -/
theorem assign_cases_index (hfit : s.chunks.length ≤ 2 ^ 32) (provider : ℕ) :
    (s.assign provider = (none, s) ∧
      ∀ state, s.providers[provider]? = some state → state.active = true → state.busy = false →
        s.candidates state.availability = []) ∨
    ∃ (state : ProviderState) (index : UInt32), s.providers[provider]? = some state ∧
      state.active = true ∧ state.busy = false ∧ s.chunks[index.toNat]? = some .missing ∧
      state.availability.contains index = true ∧
      s.assign provider = (some index, s.claim provider index.toNat) := by
  obtain hnone | ⟨state, i, hstate, hactive, hbusy, hi, hpiece, -, hassign⟩ :=
    s.assign_cases provider
  · exact .inl hnone
  · have hlt : i < 2 ^ 32 := (List.getElem?_eq_some_iff.mp hi).1.trans_le hfit
    have hindex : (UInt32.ofNat i).toNat = i := UInt32.toNat_ofNat_of_lt' hlt
    rw [saturateU32, min_eq_left (by omega)] at hpiece
    refine .inr ⟨state, .ofNat i, hstate, hactive, hbusy, by rw [hindex]; exact hi, hpiece, ?_⟩
    rw [hassign, if_pos hlt, hindex]

/-- A response is accepted exactly when it answers the request in flight. -/
theorem accept_eq_ok_iff {index : UInt32} : (s.accept provider index).1 = .ok () ↔
    s.chunks[index.toNat]? = some (.inFlight provider) ∧ provider < s.providers.length := by
  rw [accept]
  by_cases hchunk : s.chunks[index.toNat]? = some (.inFlight provider)
  · by_cases hprovider : provider < s.providers.length <;> simp [hchunk, hprovider]
  · simp [hchunk]

theorem accept_snd {index : UInt32} (h : (s.accept provider index).1 = .ok ()) :
    (s.accept provider index).2 = s.deliver provider index.toNat := by
  obtain ⟨hchunk, hprovider⟩ := accept_eq_ok_iff.mp h
  rw [accept, if_neg (not_not.mpr hchunk), if_pos hprovider]
  rfl

/-! ## What one slot is working on

The busy flag of a provider and the in-flight marks of the chunks are two records of one thing:
the chunk, if any, that the provider has been asked for. -/

/-- Slot `p` has been asked for chunk `o`, or for none. -/
structure Holds (s : Scheduler) (p : ℕ) (o : Option ℕ) : Prop where
  marks : ∀ i, s.chunks[i]? = some (.inFlight p) ↔ o = some i
  busy : ∀ state, s.providers[p]? = some state → state.busy = o.isSome
  active : ∀ state, s.providers[p]? = some state → o.isSome = true → state.active = true
  known : o.isSome = true → p < s.providers.length

@[simp] theorem length_chunks_claim (i : ℕ) :
    (s.claim provider i).chunks.length = s.chunks.length := List.length_set

@[simp] theorem length_providers_claim (i : ℕ) :
    (s.claim provider i).providers.length = s.providers.length := List.length_modify ..

@[simp] theorem length_chunks_deliver (i : ℕ) :
    (s.deliver provider i).chunks.length = s.chunks.length := List.length_set

@[simp] theorem length_providers_deliver (i : ℕ) :
    (s.deliver provider i).providers.length = s.providers.length := List.length_modify ..

@[simp] theorem length_chunks_reject : (s.reject provider).chunks.length = s.chunks.length :=
  List.length_map _

@[simp] theorem length_providers_reject :
    (s.reject provider).providers.length = s.providers.length := List.length_modify ..

section Chunks

variable {i j : ℕ}

theorem getElem?_chunks_claim_self (h : s.chunks[i]? = some .missing) :
    (s.claim provider i).chunks[i]? = some (.inFlight provider) :=
  List.getElem?_set_self (List.getElem?_eq_some_iff.mp h).1

theorem getElem?_chunks_claim_of_ne (h : i ≠ j) :
    (s.claim provider i).chunks[j]? = s.chunks[j]? := List.getElem?_set_ne h

theorem getElem?_chunks_deliver_self (h : s.chunks[i]? = some (.inFlight provider)) :
    (s.deliver provider i).chunks[i]? = some .complete :=
  List.getElem?_set_self (List.getElem?_eq_some_iff.mp h).1

theorem getElem?_chunks_deliver_of_ne (h : i ≠ j) :
    (s.deliver provider i).chunks[j]? = s.chunks[j]? := List.getElem?_set_ne h

/-- A released chunk is missing again, and nothing else changes. -/
theorem getElem?_chunks_reject_eq_some_iff {c : ChunkState} :
    (s.reject provider).chunks[i]? = some c ↔
      (s.chunks[i]? = some (.inFlight provider) ∧ c = .missing) ∨
        (s.chunks[i]? = some c ∧ c ≠ .inFlight provider) := by
  rw [reject, List.getElem?_map, Option.map_eq_some_iff]
  constructor
  · rintro ⟨c', hc', rfl⟩
    by_cases hheld : c' = .inFlight provider
    · exact .inl ⟨hheld ▸ hc', if_pos hheld⟩
    · rw [if_neg hheld]
      exact .inr ⟨hc', hheld⟩
  · rintro (⟨hc, rfl⟩ | ⟨hc, hne⟩)
    · exact ⟨_, hc, if_pos rfl⟩
    · exact ⟨_, hc, if_neg hne⟩

/-- Only a delivery completes a chunk. -/
theorem complete_claim_iff (h : s.chunks[i]? = some .missing) :
    (s.claim provider i).chunks[j]? = some .complete ↔ s.chunks[j]? = some .complete := by
  by_cases hij : i = j
  · subst hij
    simp [getElem?_chunks_claim_self h, h]
  · rw [getElem?_chunks_claim_of_ne hij]

theorem complete_deliver_iff (h : s.chunks[i]? = some (.inFlight provider)) :
    (s.deliver provider i).chunks[j]? = some .complete ↔
      j = i ∨ s.chunks[j]? = some .complete := by
  by_cases hij : i = j
  · subst hij
    simp [getElem?_chunks_deliver_self h]
  · rw [getElem?_chunks_deliver_of_ne hij]
    simp [Ne.symm hij]

theorem complete_reject_iff :
    (s.reject provider).chunks[j]? = some .complete ↔ s.chunks[j]? = some .complete := by
  simp [getElem?_chunks_reject_eq_some_iff]

end Chunks

/-- The providers keep their places under an update of one of them. -/
theorem getElem?_modify_eq_some_iff {p q : ℕ} {f : ProviderState → ProviderState}
    {l : List ProviderState} {state : ProviderState} : (l.modify p f)[q]? = some state ↔
      ∃ old, l[q]? = some old ∧ state = if p = q then f old else old := by
  rw [List.getElem?_modify, Option.map_eq_map, Option.map_eq_some_iff]
  simp only [eq_comm]

/-- A slot is left alone by what touches neither its marks nor its provider. -/
theorem Holds.frame {q : ℕ} {o : Option ℕ} (h : s.Holds q o)
    (hmarks : ∀ j : ℕ, t.chunks[j]? = some (.inFlight q) ↔ s.chunks[j]? = some (.inFlight q))
    (hprovider : t.providers[q]? = s.providers[q]?) : t.Holds q o where
  marks j := (hmarks j).trans (h.marks j)
  busy state hstate := h.busy state (hprovider ▸ hstate)
  active state hstate := h.active state (hprovider ▸ hstate)
  known ho := by
    obtain ⟨state, hstate⟩ : ∃ state, s.providers[q]? = some state :=
      ⟨_, List.getElem?_eq_getElem (h.known ho)⟩
    exact (List.getElem?_eq_some_iff.mp (hprovider.trans hstate)).1

/-- A slot is idle when nothing is marked for it and its provider is not busy. -/
theorem Holds.idle {p : ℕ} (hmarks : ∀ j : ℕ, s.chunks[j]? ≠ some (.inFlight p))
    (hbusy : ∀ state, s.providers[p]? = some state → state.busy = false) : s.Holds p none where
  marks j := by simpa using hmarks j
  busy := hbusy
  active _ _ ho := by simp at ho
  known ho := by simp at ho

/-- A slot whose chunk is not in flight is idle. -/
theorem Holds.not_busy {p : ℕ} {o : Option ℕ} {state : ProviderState} (h : s.Holds p o)
    (hidle : s.hasInFlight = false) (hstate : s.providers[p]? = some state) :
    state.busy = false := by
  rw [h.busy state hstate, Option.isSome_eq_false_iff, Option.isNone_iff_eq_none]
  refine Option.eq_none_iff_forall_ne_some.mpr fun i hi ↦ ?_
  have hmark := List.mem_of_getElem? ((h.marks i).mpr hi)
  rw [hasInFlight_iff.mpr ⟨p, hmark⟩] at hidle
  cases hidle

/-- While every missing chunk has a source, an unfinished transfer with nothing in flight has an
idle provider that can be asked for something. -/
theorem exists_idle_of_canFinish (hholds : ∀ p, ∃ o, s.Holds p o)
    (hcomplete : s.isComplete = false) (hidle : s.hasInFlight = false)
    (hfinish : s.canFinish = true) :
    ∃ (p : ℕ) (state : ProviderState), s.providers[p]? = some state ∧ state.active = true ∧
      state.busy = false ∧ s.candidates state.availability ≠ [] := by
  obtain ⟨c, hc, hne⟩ : ∃ c ∈ s.chunks, c ≠ .complete := by
    by_contra hall
    push Not at hall
    rw [isComplete_iff.mpr hall] at hcomplete
    cases hcomplete
  obtain ⟨i, hi⟩ := List.getElem?_of_mem hc
  cases c with
  | complete => exact absurd rfl hne
  | inFlight p =>
    rw [hasInFlight_iff.mpr ⟨p, hc⟩] at hidle
    cases hidle
  | missing =>
    obtain ⟨state, hmem, hactive, hcontains⟩ :=
      sourceCount_pos_iff.mp (canFinish_iff.mp hfinish i hi)
    obtain ⟨p, hp⟩ := List.getElem?_of_mem hmem
    obtain ⟨o, ho⟩ := hholds p
    refine ⟨p, state, hp, hactive, ho.not_busy hidle hp, fun hnone ↦ ?_⟩
    rw [candidates_eq_nil_iff.mp hnone i hi] at hcontains
    cases hcontains

theorem holds_claim {p i : ℕ} {state : ProviderState} (h : s.Holds p none)
    (hp : s.providers[p]? = some state) (hactive : state.active = true)
    (hi : s.chunks[i]? = some .missing) : (s.claim p i).Holds p (some i) where
  marks j := by
    by_cases hij : i = j
    · subst hij
      simp [getElem?_chunks_claim_self hi]
    · rw [getElem?_chunks_claim_of_ne hij, h.marks]
      simp [hij]
  busy st hst := by
    obtain ⟨old, -, rfl⟩ := getElem?_modify_eq_some_iff.mp hst
    simp
  active st hst _ := by
    obtain ⟨old, hold, rfl⟩ := getElem?_modify_eq_some_iff.mp hst
    rw [hp] at hold
    simpa [← Option.some.inj hold] using hactive
  known _ := by
    rw [length_providers_claim]
    exact (List.getElem?_eq_some_iff.mp hp).1

theorem holds_claim_of_ne {p q i : ℕ} {o : Option ℕ} (hpq : p ≠ q) (h : s.Holds q o)
    (hi : s.chunks[i]? = some .missing) : (s.claim p i).Holds q o := by
  refine h.frame (fun j ↦ ?_) (List.getElem?_modify_ne _ _ hpq)
  by_cases hij : i = j
  · subst hij
    simp [getElem?_chunks_claim_self hi, hi, hpq]
  · rw [getElem?_chunks_claim_of_ne hij]

theorem holds_deliver {p i : ℕ} (h : s.Holds p (some i)) : (s.deliver p i).Holds p none := by
  refine .idle (fun j ↦ ?_) fun state hstate ↦ ?_
  · by_cases hij : i = j
    · subst hij
      simp [getElem?_chunks_deliver_self ((h.marks i).mpr rfl)]
    · rw [getElem?_chunks_deliver_of_ne hij, Ne, h.marks]
      simpa using hij
  · obtain ⟨old, -, rfl⟩ := getElem?_modify_eq_some_iff.mp hstate
    simp

theorem holds_deliver_of_ne {p q i : ℕ} {o : Option ℕ} (hpq : p ≠ q) (h : s.Holds q o)
    (hi : s.chunks[i]? = some (.inFlight p)) : (s.deliver p i).Holds q o := by
  refine h.frame (fun j ↦ ?_) (List.getElem?_modify_ne _ _ hpq)
  by_cases hij : i = j
  · subst hij
    simp [getElem?_chunks_deliver_self hi, hi, hpq]
  · rw [getElem?_chunks_deliver_of_ne hij]

theorem holds_reject (s : Scheduler) (p : ℕ) : (s.reject p).Holds p none := by
  refine .idle (fun j ↦ ?_) fun state hstate ↦ ?_
  · simp [getElem?_chunks_reject_eq_some_iff]
  · obtain ⟨old, -, rfl⟩ := getElem?_modify_eq_some_iff.mp hstate
    simp

theorem holds_reject_of_ne {p q : ℕ} {o : Option ℕ} (hpq : p ≠ q) (h : s.Holds q o) :
    (s.reject p).Holds q o := by
  refine h.frame (fun j ↦ ?_) (List.getElem?_modify_ne _ _ hpq)
  simp [getElem?_chunks_reject_eq_some_iff, Ne.symm hpq]

/-- What a new scheduler looks like. -/
theorem new_eq_ok_iff {chunkCount : ℕ} {availability : List PieceAvailability}
    {completed : List Bool} : Scheduler.new chunkCount availability completed = .ok s ↔
      completed.length = chunkCount ∧ chunkCount < 2 ^ 32 ∧
        (∀ pieces ∈ availability, pieces.chunkCount.toNat = chunkCount ∧ pieces.isValid = true) ∧
        s = { chunks := completed.map fun done ↦ if done then .complete else .missing
              providers := availability.map fun pieces ↦
                { availability := pieces, active := true, busy := false, accepted := 0,
                  rejected := 0 }
              retries := 0 } := by
  rw [new]
  constructor
  · intro h
    split_ifs at h with hlength hfit hvalid
    refine ⟨not_not.mp hlength, not_le.mp hfit, fun pieces hpieces ↦ ?_, (Except.ok.inj h).symm⟩
    rw [List.any_eq_true, not_exists] at hvalid
    simpa [hpieces] using hvalid pieces
  · rintro ⟨hlength, hfit, hvalid, rfl⟩
    rw [if_neg (not_not.mpr hlength), if_neg (not_le.mpr hfit), if_neg]
    rw [List.any_eq_true]
    rintro ⟨pieces, hpieces, hbad⟩
    simp [hvalid pieces hpieces] at hbad

/-- A new scheduler has asked nobody for anything. -/
theorem holds_new {chunkCount : ℕ} {availability : List PieceAvailability} {completed : List Bool}
    (h : Scheduler.new chunkCount availability completed = .ok s) (p : ℕ) : s.Holds p none := by
  obtain ⟨-, -, -, rfl⟩ := new_eq_ok_iff.mp h
  refine .idle (fun j ↦ ?_) fun state hstate ↦ ?_
  · rw [List.getElem?_map]
    cases completed[j]? with
    | none => simp
    | some done => cases done <;> simp
  · rw [List.getElem?_map, Option.map_eq_some_iff] at hstate
    obtain ⟨pieces, -, rfl⟩ := hstate
    rfl

/-! ## What the operations use up

A delivery finishes a chunk and a rejection retires a provider; nothing brings either back. -/

/-- The chunks that are not complete. -/
def unfinished (s : Scheduler) : ℕ := s.chunks.countP fun chunk ↦ chunk != .complete

/-- The providers that may still be asked. -/
def activeCount (s : Scheduler) : ℕ := s.providers.countP ProviderState.active

/-- What each provider announced. -/
def pieces (s : Scheduler) : List PieceAvailability := s.providers.map ProviderState.availability

section Accounting

variable {i p : ℕ} {state : ProviderState}

theorem modify_eq_set {l : List ProviderState} {f : ProviderState → ProviderState}
    (h : l[p]? = some state) : l.modify p f = l.set p (f state) := by
  rw [List.modify_eq_set_getElem?, h]
  rfl

theorem map_modify {β : Type} {l : List ProviderState} {f : ProviderState → ProviderState}
    {g : ProviderState → β} (h : ∀ state, g (f state) = g state) :
    (l.modify p f).map g = l.map g := by
  refine List.ext_getElem? fun q ↦ ?_
  rw [List.getElem?_map, List.getElem?_map, List.getElem?_modify]
  cases l[q]? with
  | none => rfl
  | some old =>
    by_cases hpq : p = q
    · simp [hpq, h]
    · simp [hpq]

@[simp] theorem pieces_claim : (s.claim p i).pieces = s.pieces := map_modify fun _ ↦ rfl

@[simp] theorem pieces_deliver : (s.deliver p i).pieces = s.pieces := map_modify fun _ ↦ rfl

@[simp] theorem pieces_reject : (s.reject p).pieces = s.pieces := map_modify fun _ ↦ rfl

theorem countP_modify {l : List ProviderState} {f : ProviderState → ProviderState}
    {g : ProviderState → Bool} (h : ∀ state, g (f state) = g state) :
    (l.modify p f).countP g = l.countP g := by
  have hmap (l : List ProviderState) : l.countP g = (l.map g).countP id := by
    rw [List.countP_map, Function.id_comp]
  rw [hmap, hmap, map_modify h]

@[simp] theorem activeCount_claim : (s.claim p i).activeCount = s.activeCount :=
  countP_modify fun _ ↦ rfl

@[simp] theorem activeCount_deliver : (s.deliver p i).activeCount = s.activeCount :=
  countP_modify fun _ ↦ rfl

theorem activeCount_reject (hstate : s.providers[p]? = some state) (hactive : state.active = true) :
    (s.reject p).activeCount + 1 = s.activeCount := by
  have hset := Transition.countP_set ProviderState.active hstate
    (b := { state with busy := false, active := false, rejected := state.rejected + 1 })
  rw [if_pos hactive] at hset
  rw [activeCount, reject, modify_eq_set hstate, activeCount]
  simpa using hset

theorem unfinished_claim (hi : s.chunks[i]? = some .missing) :
    (s.claim p i).unfinished = s.unfinished := by
  have hset := Transition.countP_set (fun chunk ↦ chunk != ChunkState.complete) hi
    (b := .inFlight p)
  simpa [unfinished, claim] using hset

theorem unfinished_deliver (hi : s.chunks[i]? = some (.inFlight p)) :
    (s.deliver p i).unfinished + 1 = s.unfinished := by
  have hset := Transition.countP_set (fun chunk ↦ chunk != ChunkState.complete) hi
    (b := .complete)
  simpa [unfinished, deliver] using hset

@[simp] theorem unfinished_reject : (s.reject p).unfinished = s.unfinished := by
  rw [unfinished, reject, List.countP_map, unfinished]
  refine List.countP_congr fun chunk _ ↦ ?_
  by_cases hheld : chunk = .inFlight p
  · simp [hheld]
  · simp [hheld]

end Accounting

end Scheduler

end TripTorrent

import TripTorrent.Swarm.Invariant

/-!
# The counters of the scheduler

The scheduler keeps three tallies beside its state: what each provider delivered, how often a
request had to be handed out again, and which providers are out. They are compared here with what
happened in a run: a delivery counts once, for a chunk that was not complete before, and a release
counts once, for a provider that was still in before.

The counters only mean this because a response that is refused leaves no trace. `accept` marks the
chunk before it looks for the provider, so that needs the invariant: a chunk is in flight at known
providers only.
-/

namespace TripTorrent

namespace Scheduler

/-- The chunks that are complete. -/
def completeCount (s : Scheduler) : ℕ := s.chunks.countP fun chunk ↦ chunk == .complete

/-- What all providers together have delivered. -/
def acceptedTotal (s : Scheduler) : ℕ := (s.providers.map ProviderState.accepted).sum

/-- The providers that are out. -/
def inactiveCount (s : Scheduler) : ℕ := s.providers.countP fun state ↦ !state.active

/-- Whether a call is a rejection that releases a chunk. -/
def releases (s : Scheduler) : Call → Bool
  | .reject provider => s.chunks.any fun chunk ↦ chunk == .inFlight provider
  | _ => false

/-- The number of calls in a run that release a chunk. -/
def releaseCount (s : Scheduler) : List Call → ℕ
  | [] => 0
  | c :: calls => (if s.releases c then 1 else 0) + (s.call c).releaseCount calls

variable {s t : Scheduler} {p i : ℕ}

/-! ## What the operations do to the counters -/

section Counters

variable {state : ProviderState}

@[simp] theorem acceptedTotal_claim : (s.claim p i).acceptedTotal = s.acceptedTotal :=
  congrArg List.sum (map_modify fun _ ↦ rfl)

@[simp] theorem acceptedTotal_reject : (s.reject p).acceptedTotal = s.acceptedTotal :=
  congrArg List.sum (map_modify fun _ ↦ rfl)

theorem acceptedTotal_deliver (hstate : s.providers[p]? = some state) :
    (s.deliver p i).acceptedTotal = s.acceptedTotal + 1 := by
  have hset := Transition.sum_map_set ProviderState.accepted hstate
    (b := { state with busy := false, accepted := state.accepted + 1 })
  rw [acceptedTotal, deliver, modify_eq_set hstate, acceptedTotal]
  dsimp only at hset ⊢
  omega

theorem completeCount_add_unfinished (s : Scheduler) :
    s.completeCount + s.unfinished = s.chunks.length := by
  rw [List.length_eq_countP_add_countP fun chunk ↦ chunk == ChunkState.complete, completeCount,
    unfinished]
  congr 2
  funext chunk
  rw [decide_not, Bool.decide_eq_true]
  rfl

@[simp] theorem inactiveCount_claim : (s.claim p i).inactiveCount = s.inactiveCount :=
  countP_modify fun _ ↦ rfl

@[simp] theorem inactiveCount_deliver : (s.deliver p i).inactiveCount = s.inactiveCount :=
  countP_modify fun _ ↦ rfl

theorem inactiveCount_reject (hstate : s.providers[p]? = some state) :
    (s.reject p).inactiveCount + (if state.active then 0 else 1) = s.inactiveCount + 1 := by
  have hset := Transition.countP_set (fun state ↦ !state.active) hstate
    (b := { state with busy := false, active := false, rejected := state.rejected + 1 })
  rw [inactiveCount, reject, modify_eq_set hstate, inactiveCount]
  cases hactive : state.active <;> simpa [hactive] using hset

theorem inactiveCount_le_reject (s : Scheduler) (p : ℕ) :
    s.inactiveCount ≤ (s.reject p).inactiveCount := by
  cases hstate : s.providers[p]? with
  | none =>
    rw [inactiveCount, inactiveCount, reject, List.modify_eq_set_getElem?, hstate]
    exact le_rfl
  | some state =>
    have := inactiveCount_reject hstate
    split_ifs at this <;> omega

end Counters

/-- A slot that holds a chunk has one mark. -/
theorem Holds.countP_marks (h : s.Holds p (some i)) :
    s.chunks.countP (fun chunk ↦ chunk = .inFlight p) = 1 := by
  have hmark : s.chunks[i]? = some (.inFlight p) := (h.marks i).mpr rfl
  have hset := Transition.countP_set (fun chunk ↦ decide (chunk = .inFlight p)) hmark
    (b := .missing)
  have hzero : (s.chunks.set i .missing).countP (fun chunk ↦ chunk = .inFlight p) = 0 := by
    rw [List.countP_eq_zero]
    intro chunk hchunk
    obtain ⟨j, hj⟩ := List.mem_iff_getElem?.mp hchunk
    rw [decide_eq_true_eq]
    rintro rfl
    obtain ⟨-, hmissing⟩ | ⟨hij, hj⟩ := Transition.replaced_or_unchanged hj
    · cases hmissing
    · exact hij (Option.some.inj ((h.marks j).mp hj))
  rw [hzero] at hset
  simpa using hset.symm

theorem releases_reject_iff : s.releases (.reject p) = true ↔
    ∃ i : ℕ, s.chunks[i]? = some (.inFlight p) := by
  rw [releases, List.any_eq_true]
  constructor
  · rintro ⟨chunk, hchunk, heq⟩
    rw [beq_iff_eq] at heq
    exact List.mem_iff_getElem?.mp (heq ▸ hchunk)
  · rintro ⟨i, hi⟩
    exact ⟨_, List.mem_of_getElem? hi, beq_self_eq_true _⟩

/-- A rejection counts as one retry if it releases a chunk, and as none otherwise. -/
theorem Consistent.retries_reject (h : s.Consistent) (p : ℕ) :
    (s.reject p).retries = s.retries + if s.releases (.reject p) then 1 else 0 := by
  obtain ⟨o, ho⟩ := h.holds p
  refine congrArg (s.retries + ·) ?_
  cases o with
  | none =>
    have hkept : ¬s.releases (.reject p) = true := by
      rw [releases_reject_iff]
      rintro ⟨i, hi⟩
      cases (ho.marks i).mp hi
    rw [if_neg hkept, List.countP_eq_zero]
    intro chunk hchunk
    obtain ⟨i, hi⟩ := List.mem_iff_getElem?.mp hchunk
    rw [decide_eq_true_eq]
    rintro rfl
    cases (ho.marks i).mp hi
  | some i =>
    rw [if_pos (releases_reject_iff.mpr ⟨i, (ho.marks i).mpr rfl⟩)]
    exact ho.countP_marks

/-! ## One call

What happens between two states of the scheduler is put in one relation, which adds up along a
run. -/

/-- Between the two states no complete chunk is lost, each delivery is for a chunk that becomes
complete, and `n` chunks are released, by as many providers that go out. -/
structure Accounts (s t : Scheduler) (n : ℕ) : Prop where
  kept : ∀ i : ℕ, s.chunks[i]? = some .complete → t.chunks[i]? = some .complete
  delivered : t.acceptedTotal + s.completeCount = s.acceptedTotal + t.completeCount
  retried : t.retries = s.retries + n
  retired : s.inactiveCount + n ≤ t.inactiveCount

theorem Accounts.refl (s : Scheduler) : s.Accounts s 0 := ⟨fun _ hi ↦ hi, rfl, rfl, le_rfl⟩

theorem Accounts.trans {u : Scheduler} {m n : ℕ} (h : s.Accounts t m) (h' : t.Accounts u n) :
    s.Accounts u (m + n) where
  kept i hi := h'.kept i (h.kept i hi)
  delivered := by
    have := h.delivered
    have := h'.delivered
    omega
  retried := by rw [h'.retried, h.retried, add_assoc]
  retired := by
    have := h.retired
    have := h'.retired
    omega

theorem completeCount_of_unfinished (hlength : t.chunks.length = s.chunks.length) {n : ℕ}
    (h : t.unfinished + n = s.unfinished) : t.completeCount = s.completeCount + n := by
  have := s.completeCount_add_unfinished
  have := t.completeCount_add_unfinished
  omega

theorem accounts_claim (hi : s.chunks[i]? = some .missing) : s.Accounts (s.claim p i) 0 where
  kept _ := (complete_claim_iff hi).mpr
  delivered := by
    rw [completeCount_of_unfinished (length_chunks_claim i) (n := 0) (unfinished_claim hi),
      acceptedTotal_claim, add_zero]
  retried := rfl
  retired := inactiveCount_claim.ge

theorem Consistent.accounts_deliver (h : s.Consistent) (hi : s.chunks[i]? = some (.inFlight p)) :
    s.Accounts (s.deliver p i) 0 where
  kept _ hj := (complete_deliver_iff hi).mpr (.inr hj)
  delivered := by
    have hknown : p < s.providers.length := (h.holds_some hi).known rfl
    rw [completeCount_of_unfinished (length_chunks_deliver i) (unfinished_deliver hi),
      acceptedTotal_deliver (List.getElem?_eq_getElem hknown)]
    omega
  retried := rfl
  retired := inactiveCount_deliver.ge

/-- A provider that releases a chunk was in before and is out afterwards. -/
theorem Consistent.accounts_reject (h : s.Consistent) (p : ℕ) :
    s.Accounts (s.reject p) (if s.releases (.reject p) then 1 else 0) where
  kept _ := complete_reject_iff.mpr
  delivered := by
    rw [completeCount_of_unfinished length_chunks_reject (n := 0) unfinished_reject,
      acceptedTotal_reject, add_zero]
  retried := h.retries_reject p
  retired := by
    split_ifs with hreleases
    · obtain ⟨i, hi⟩ := releases_reject_iff.mp hreleases
      have hheld := h.holds_some hi
      obtain ⟨state, hstate⟩ : ∃ state, s.providers[p]? = some state :=
        ⟨_, List.getElem?_eq_getElem (hheld.known rfl)⟩
      have hout := inactiveCount_reject hstate
      rw [if_pos (hheld.active state hstate rfl), add_zero] at hout
      exact hout.ge
    · exact s.inactiveCount_le_reject p

theorem Consistent.accounts_call (h : s.Consistent) (c : Call) :
    s.Accounts (s.call c) (if s.releases c then 1 else 0) := by
  cases c with
  | assign provider =>
    obtain ⟨hnone, -⟩ | ⟨state, i, -, -, -, hi, -, -, hassign⟩ := s.assign_cases provider
    · rw [Scheduler.call, hnone]
      exact .refl s
    · rw [Scheduler.call, hassign]
      exact accounts_claim hi
  | accept provider index =>
    obtain heq | ⟨hmark, heq⟩ := h.accept_cases provider index
    · rw [Scheduler.call, heq]
      exact .refl s
    · rw [Scheduler.call, heq]
      exact h.accounts_deliver hmark
  | reject provider => exact h.accounts_reject provider

/-- A response that is refused leaves no trace. -/
theorem Consistent.accept_of_error (h : s.Consistent) {provider : ℕ} {index : UInt32}
    {e : ScheduleError} (herror : (s.accept provider index).1 = .error e) :
    (s.accept provider index).2 = s := by
  obtain heq | ⟨hmark, -⟩ := h.accept_cases provider index
  · exact heq
  · have hok := accept_eq_ok_iff.mpr ⟨hmark, (h.holds_some hmark).known rfl⟩
    rw [hok] at herror
    cases herror

/-! ## All calls -/

theorem Consistent.accounts_run (h : s.Consistent) (calls : List Call) :
    s.Accounts (s.run calls) (s.releaseCount calls) := by
  induction calls generalizing s with
  | nil => exact .refl s
  | cons c calls ih => exact (h.accounts_call c).trans (ih (h.call c).1)

section New

variable {chunkCount : ℕ} {availability : List PieceAvailability} {completed : List Bool}

theorem completeCount_new (h : Scheduler.new chunkCount availability completed = .ok s) :
    s.completeCount = completed.count true := by
  obtain ⟨-, -, -, rfl⟩ := new_eq_ok_iff.mp h
  rw [completeCount, List.countP_map, List.count]
  refine List.countP_congr fun done _ ↦ ?_
  cases done <;> simp

theorem counters_new (h : Scheduler.new chunkCount availability completed = .ok s) :
    s.acceptedTotal = 0 ∧ s.retries = 0 := by
  obtain ⟨-, -, -, rfl⟩ := new_eq_ok_iff.mp h
  refine ⟨?_, rfl⟩
  rw [acceptedTotal, List.map_map]
  exact List.sum_eq_zero fun n hn ↦ by
    obtain ⟨-, -, rfl⟩ := List.mem_map.mp hn
    rfl

/-- **Accounting.** After any calls on a new scheduler, a complete chunk is complete for good; the
deliveries of all providers together are the chunks that have become complete; the retries are the
rejections that released a chunk, no more than the providers that are out; and a response that is
refused changes nothing at all. -/
theorem accounting (h : Scheduler.new chunkCount availability completed = .ok s)
    (calls : List Call) :
    (∀ (more : List Call) (i : ℕ), (s.run calls).chunks[i]? = some .complete →
      (s.run (calls ++ more)).chunks[i]? = some .complete) ∧
    ((s.run calls).providers.map ProviderState.accepted).sum + completed.count true =
      (s.run calls).chunks.countP (fun chunk ↦ chunk == .complete) ∧
    (s.run calls).retries = s.releaseCount calls ∧
    (s.run calls).retries ≤ (s.run calls).providers.countP (fun state ↦ !state.active) ∧
    (s.run calls).retries ≤ availability.length ∧
    ∀ (p : ℕ) (index : UInt32) (e : ScheduleError), ((s.run calls).accept p index).1 = .error e →
      ((s.run calls).accept p index).2 = s.run calls := by
  have hs := consistent_new h
  obtain ⟨hrun, -, hpieces⟩ := hs.run calls
  have haccounts := hs.accounts_run calls
  obtain ⟨haccepted, hretries⟩ := counters_new h
  have hdelivered := haccounts.delivered
  rw [haccepted, zero_add, completeCount_new h] at hdelivered
  have hretried := haccounts.retried
  rw [hretries, zero_add] at hretried
  have hretired : (s.run calls).retries ≤ (s.run calls).inactiveCount := by
    rw [hretried]
    exact (Nat.le_add_left _ _).trans haccounts.retired
  have hlength : (s.run calls).providers.length = availability.length := by
    rw [← pieces_new h, ← hpieces, Scheduler.pieces, List.length_map]
  refine ⟨fun more i hi ↦ ?_, hdelivered, hretried, hretired, ?_, ?_⟩
  · rw [run, List.foldl_append]
    exact (hrun.accounts_run more).kept i hi
  · exact hretired.trans (List.countP_le_length.trans hlength.le)
  · exact fun p index e ↦ hrun.accept_of_error

end New

end Scheduler

open Vectors in
/-- The first provider delivers one of two chunks, delivers it again and is rejected. -/
theorem accounting_swarmCalls :
    Scheduler.new 2 [.all 2, .all 2] [false, false] = .ok swarmScheduler ∧
      ((swarmScheduler.run swarmCalls).providers.map ProviderState.accepted).sum + 0 =
        (swarmScheduler.run swarmCalls).chunks.countP (fun chunk ↦ chunk == .complete) := by
  have hnew : Scheduler.new 2 [.all 2, .all 2] [false, false] = .ok swarmScheduler := by
    decide +kernel
  exact ⟨hnew, (Scheduler.accounting hnew swarmCalls).2.1⟩

end TripTorrent

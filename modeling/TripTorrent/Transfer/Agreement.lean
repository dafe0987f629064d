import TripTorrent.Transfer.Coordinator

/-!
# Agreement of the coordinator with its workers

The scheduler's marks and the commands in the hands of the workers are kept in step without any
acknowledgement: every command sent is answered by one result, and the coordinator takes a result
back into the scheduler before it hands out more work. `Ledger` states the correspondence, slot by
slot, and each move is shown to keep it.
-/

namespace TripTorrent

/-! ## Commands not yet answered -/

/-- The indices a worker was asked for and has not answered. -/
def Worker.owed (w : Worker) : List UInt32 :=
  (w.current.toList ++ w.commands).map FetchCommand.index

/-- The indices answered by a provider whose results are still in the channel. -/
def undelivered (results : List WorkerResult) (p : ℕ) : List UInt32 :=
  (results.filter fun result ↦ result.provider == p).map WorkerResult.requestedIndex

/-- The commands sent to worker `p` that no consumed result has answered. -/
def outstanding (workers : List Worker) (results : List WorkerResult) (p : ℕ) : List UInt32 :=
  (workers[p]?.elim [] Worker.owed) ++ undelivered results p

section Outstanding

variable {workers : List Worker} {results : List WorkerResult} {worker worker' : Worker}
  {result : WorkerResult} {slot p : ℕ}

theorem outstanding_eq (h : workers[p]? = some worker) :
    outstanding workers results p = worker.owed ++ undelivered results p := by
  rw [outstanding, h, Option.elim_some]

theorem outstanding_set_self (h : workers[slot]? = some worker) :
    outstanding (workers.set slot worker') results slot =
      worker'.owed ++ undelivered results slot :=
  outstanding_eq (List.getElem?_set_self (List.getElem?_eq_some_iff.mp h).1)

theorem outstanding_set_of_ne (h : slot ≠ p) :
    outstanding (workers.set slot worker') results p = outstanding workers results p := by
  rw [outstanding, List.getElem?_set_ne h, outstanding]

theorem undelivered_cons_self :
    undelivered (result :: results) result.provider =
      result.requestedIndex :: undelivered results result.provider := by
  rw [undelivered, List.filter_cons_of_pos (by simp), List.map_cons, undelivered]

theorem undelivered_cons_of_ne (h : result.provider ≠ p) :
    undelivered (result :: results) p = undelivered results p := by
  rw [undelivered, List.filter_cons_of_neg (by simpa using h), undelivered]

theorem undelivered_append (results' : List WorkerResult) :
    undelivered (results ++ results') p = undelivered results p ++ undelivered results' p := by
  rw [undelivered, List.filter_append, List.map_append, undelivered, undelivered]

end Outstanding

/-! ## The ledger -/

/-- The coordinator's two records of progress and the workers' commands say the same. -/
structure Ledger (m : Manifest) (scheduler : Scheduler) (completed : List Bool)
    (workers : List Worker) (results : List WorkerResult) : Prop where
  length_chunks : scheduler.chunks.length = m.chunks.length
  length_completed : completed.length = m.chunks.length
  length_providers : scheduler.providers.length = workers.length
  /-- A slot is marked for the one chunk its worker still owes, or for none. -/
  slots : ∀ p, ∃ o : Option UInt32, outstanding workers results p = o.toList ∧
    scheduler.Holds p (o.map UInt32.toNat)
  completed_iff : ∀ i : ℕ, completed[i]? = some true ↔ scheduler.chunks[i]? = some .complete

namespace Ledger

variable {m : Manifest} {scheduler : Scheduler} {completed : List Bool}
  {workers workers' : List Worker} {results results' : List WorkerResult} {worker : Worker}
  {result : WorkerResult}
  {state : ProviderState} {slot p : ℕ} {index : UInt32}

/-- An idle provider owes nothing. -/
theorem holds_none (h : Ledger m scheduler completed workers results)
    (hstate : scheduler.providers[p]? = some state) (hbusy : state.busy = false) :
    outstanding workers results p = [] ∧ scheduler.Holds p none := by
  obtain ⟨o, ho, hholds⟩ := h.slots p
  cases o with
  | none => exact ⟨ho, hholds⟩
  | some i => exact absurd (hholds.busy state hstate) (by simp [hbusy])

/-- What is outstanding somewhere is the one thing its slot holds. -/
theorem holds_of_mem (h : Ledger m scheduler completed workers results)
    (hindex : index ∈ outstanding workers results p) :
    outstanding workers results p = [index] ∧ scheduler.Holds p (some index.toNat) := by
  obtain ⟨o, ho, hholds⟩ := h.slots p
  cases o with
  | none => simp [ho] at hindex
  | some i =>
    obtain rfl : index = i := by simpa [ho] using hindex
    exact ⟨ho, hholds⟩

/-- A chunk is marked for a slot exactly when its worker owes it. -/
theorem inFlight_iff (h : Ledger m scheduler completed workers results) :
    scheduler.chunks[index.toNat]? = some (.inFlight p) ↔
      (outstanding workers results p).count index = 1 := by
  obtain ⟨o, ho, hholds⟩ := h.slots p
  rw [hholds.marks, ho]
  cases o with
  | none => simp
  | some i =>
    by_cases hi : i = index
    · subst hi
      simp
    · simp [UInt32.toNat_inj, hi]

theorem length_outstanding_le (h : Ledger m scheduler completed workers results) (p : ℕ) :
    (outstanding workers results p).length ≤ 1 := by
  obtain ⟨o, ho, -⟩ := h.slots p
  rw [ho]
  cases o <;> simp

theorem outstanding_ne_nil_of_hasInFlight (h : Ledger m scheduler completed workers results)
    (hinFlight : scheduler.hasInFlight = true) : ∃ p, outstanding workers results p ≠ [] := by
  obtain ⟨p, hp⟩ := Scheduler.hasInFlight_iff.mp hinFlight
  obtain ⟨i, hi⟩ := List.getElem?_of_mem hp
  obtain ⟨o, ho, hholds⟩ := h.slots p
  refine ⟨p, fun hnone ↦ ?_⟩
  have hmark := (hholds.marks i).mp hi
  cases o with
  | none => simp at hmark
  | some index => simp [ho] at hnone

/-- Only what is owed matters about the workers and the channel. -/
theorem congr (h : Ledger m scheduler completed workers results)
    (hlength : workers'.length = workers.length)
    (howed : ∀ p, outstanding workers' results' p = outstanding workers results p) :
    Ledger m scheduler completed workers' results' where
  length_chunks := h.length_chunks
  length_completed := h.length_completed
  length_providers := h.length_providers.trans hlength.symm
  slots p := by
    rw [howed]
    exact h.slots p
  completed_iff := h.completed_iff

theorem send (command : FetchCommand) (h : Ledger m scheduler completed workers results)
    (hworker : workers[slot]? = some worker)
    (hstate : scheduler.providers[slot]? = some state) (hactive : state.active = true)
    (hbusy : state.busy = false)
    (hmissing : scheduler.chunks[command.index.toNat]? = some .missing) :
    Ledger m (scheduler.claim slot command.index.toNat) completed
      (workers.set slot { worker with commands := worker.commands ++ [command] }) results where
  length_chunks := by rw [Scheduler.length_chunks_claim, h.length_chunks]
  length_completed := h.length_completed
  length_providers := by
    rw [Scheduler.length_providers_claim, h.length_providers, List.length_set]
  slots p := by
    by_cases hp : slot = p
    · subst hp
      obtain ⟨howed, hholds⟩ := h.holds_none hstate hbusy
      refine ⟨some command.index, ?_, Scheduler.holds_claim hholds hstate hactive hmissing⟩
      -- an idle slot owes nothing, so the new command is all there is
      rw [outstanding_eq hworker, List.append_eq_nil_iff] at howed
      rw [outstanding_set_self hworker, howed.2]
      have hnone := howed.1
      rw [Worker.owed, List.map_eq_nil_iff, List.append_eq_nil_iff] at hnone
      simp [Worker.owed, hnone]
    · obtain ⟨o, ho, hholds⟩ := h.slots p
      exact ⟨o, by rw [outstanding_set_of_ne hp, ho],
        Scheduler.holds_claim_of_ne hp hholds hmissing⟩
  completed_iff i := by rw [Scheduler.complete_claim_iff hmissing, h.completed_iff]

/-- A command that could not be sent leaves its chunk as it was. -/
theorem unsent (h : Ledger m scheduler completed workers results)
    (hstate : scheduler.providers[slot]? = some state) (hbusy : state.busy = false)
    (hmissing : scheduler.chunks[index.toNat]? = some .missing) :
    Ledger m ((scheduler.claim slot index.toNat).reject slot) completed workers results where
  length_chunks := by simpa using h.length_chunks
  length_completed := h.length_completed
  length_providers := by simpa using h.length_providers
  slots p := by
    by_cases hp : slot = p
    · subst hp
      exact ⟨none, (h.holds_none hstate hbusy).1, Scheduler.holds_reject _ _⟩
    · obtain ⟨o, ho, hholds⟩ := h.slots p
      exact ⟨o, ho,
        Scheduler.holds_reject_of_ne hp (Scheduler.holds_claim_of_ne hp hholds hmissing)⟩
  completed_iff i := by
    rw [Scheduler.complete_reject_iff, Scheduler.complete_claim_iff hmissing, h.completed_iff]

/-- The result at the head of the channel answers what its slot holds. -/
theorem holds_result (h : Ledger m scheduler completed workers (result :: results)) :
    scheduler.Holds result.provider (some result.requestedIndex.toNat) ∧
      outstanding workers results result.provider = [] := by
  have hmem : result.requestedIndex ∈ outstanding workers (result :: results) result.provider := by
    rw [outstanding, undelivered_cons_self]
    simp
  obtain ⟨howed, hholds⟩ := h.holds_of_mem hmem
  refine ⟨hholds, ?_⟩
  rw [outstanding, undelivered_cons_self] at howed
  have hlength := congrArg List.length howed
  rw [List.length_append, List.length_cons, List.length_singleton] at hlength
  rw [outstanding, List.append_eq_nil_iff, ← List.length_eq_zero_iff, ← List.length_eq_zero_iff]
  omega

/-- The scheduler accepts the chunk that the head of the channel answers. -/
theorem accept_eq_ok (h : Ledger m scheduler completed workers (result :: results)) :
    (scheduler.accept result.provider result.requestedIndex).1 = .ok () :=
  Scheduler.accept_eq_ok_iff.mpr ⟨(h.holds_result.1.marks _).mpr rfl, h.holds_result.1.known rfl⟩

theorem outstanding_tail (hp : result.provider ≠ p) :
    outstanding workers results p = outstanding workers (result :: results) p := by
  rw [outstanding, outstanding, undelivered_cons_of_ne hp]

theorem accept (h : Ledger m scheduler completed workers (result :: results)) :
    Ledger m (scheduler.deliver result.provider result.requestedIndex.toNat)
      (completed.set result.requestedIndex.toNat true) workers results := by
  obtain ⟨hholds, howed⟩ := h.holds_result
  have hmark := (hholds.marks _).mpr rfl
  refine ⟨by simpa using h.length_chunks, by simpa using h.length_completed,
    by simpa using h.length_providers, fun p ↦ ?_, fun i ↦ ?_⟩
  · by_cases hp : result.provider = p
    · subst hp
      exact ⟨none, howed, Scheduler.holds_deliver hholds⟩
    · obtain ⟨o, ho, hother⟩ := h.slots p
      exact ⟨o, by rw [outstanding_tail hp, ho], Scheduler.holds_deliver_of_ne hp hother hmark⟩
  · rw [Scheduler.complete_deliver_iff hmark, ← h.completed_iff]
    by_cases hi : result.requestedIndex.toNat = i
    · subst hi
      have hlt := (List.getElem?_eq_some_iff.mp hmark).1
      rw [h.length_chunks, ← h.length_completed] at hlt
      simp [List.getElem?_set_self hlt]
    · rw [List.getElem?_set_ne hi]
      simp [Ne.symm hi]

theorem reject (h : Ledger m scheduler completed workers (result :: results)) :
    Ledger m (scheduler.reject result.provider) completed workers results where
  length_chunks := by simpa using h.length_chunks
  length_completed := h.length_completed
  length_providers := by simpa using h.length_providers
  slots p := by
    by_cases hp : result.provider = p
    · subst hp
      exact ⟨none, h.holds_result.2, Scheduler.holds_reject _ _⟩
    · obtain ⟨o, ho, hholds⟩ := h.slots p
      exact ⟨o, by rw [outstanding_tail hp, ho], Scheduler.holds_reject_of_ne hp hholds⟩
  completed_iff i := by rw [Scheduler.complete_reject_iff, h.completed_iff]

/-- Answering moves the one outstanding command from the worker to the channel. -/
theorem outstanding_respond {commands : List FetchCommand} {command : FetchCommand}
    {status : WorkerStatus} {response : Except WorkerError Chunk}
    (h : Ledger m scheduler completed workers results)
    (hworker : workers[slot]? = some ⟨commands, some command, .running⟩) (p : ℕ) :
    outstanding (workers.set slot ⟨commands, none, status⟩)
        (results ++ [{ provider := slot, requestedIndex := command.index, response }]) p =
      outstanding workers results p := by
  by_cases hp : slot = p
  · subst hp
    have hmem : command.index ∈ outstanding workers results slot := by
      rw [outstanding_eq hworker]
      simp [Worker.owed]
    have howed := (h.holds_of_mem hmem).1
    have hrest := howed
    rw [outstanding_eq hworker] at hrest
    obtain ⟨hcommands, hresults⟩ : commands = [] ∧ undelivered results slot = [] := by
      simpa [Worker.owed] using hrest
    rw [outstanding_set_self hworker, undelivered_append, howed, hresults, hcommands]
    simp [Worker.owed, undelivered]
  · rw [outstanding_set_of_ne hp, outstanding, undelivered_append, outstanding]
    simp [undelivered, hp]

/-- Nothing is owed by anyone when a download starts. -/
theorem start {availability : List PieceAvailability}
    (hnew : Scheduler.new m.chunks.length availability completed = .ok scheduler) :
    Ledger m scheduler completed
      (System.start scheduler completed availability.length).workers [] := by
  have howed (p : ℕ) :
      outstanding (System.start scheduler completed availability.length).workers [] p = [] := by
    rw [outstanding, System.start, List.getElem?_replicate]
    split <;> rfl
  have hholds := Scheduler.holds_new hnew
  obtain ⟨hlength, -, -, rfl⟩ := Scheduler.new_eq_ok_iff.mp hnew
  refine ⟨by simpa using hlength, hlength, by simp [System.start],
    fun p ↦ ⟨none, howed p, hholds p⟩, fun i ↦ ?_⟩
  rw [List.getElem?_map, Option.map_eq_some_iff]
  constructor
  · exact fun h ↦ ⟨true, h, rfl⟩
  · rintro ⟨done, hdone, hcomplete⟩
    cases done with
    | true => exact hdone
    | false => cases hcomplete

end Ledger

/-! ## The invariant of a download -/

namespace System

/-- The ledger of a state. -/
def Agrees (m : Manifest) (s : System) : Prop :=
  Ledger m s.scheduler s.completed s.workers s.results

/-- Some command is still to be answered. -/
def Engaged (s : System) : Prop := ∃ p, outstanding s.workers s.results p ≠ []

/-- The download has returned an error. -/
def Failed (s : System) : Prop := ∃ error, s.phase = .returned (.error error)

/-- What holds at each point of the coordinator's loop. -/
structure Consistent (m : Manifest) (s : System) : Prop where
  agrees : s.Agrees m
  assigned : ∀ slot, s.phase = .assigning slot true → s.Engaged
  waiting : s.phase = .waiting → s.Engaged

variable {blake3 : List UInt8 → Digest} {m : Manifest} {s t : System}

/-- A step of a worker that does not change what is owed. -/
theorem Consistent.congr {workers : List Worker} {results : List WorkerResult}
    (h : s.Consistent m) (hlength : workers.length = s.workers.length)
    (howed : ∀ p, outstanding workers results p = outstanding s.workers s.results p) :
    Consistent m { s with workers, results } := by
  have hengaged : s.Engaged → Engaged { s with workers, results } := by
    rintro ⟨p, hp⟩
    exact ⟨p, by rwa [howed]⟩
  exact ⟨Ledger.congr h.agrees hlength howed, fun slot hphase ↦ hengaged (h.assigned slot hphase),
    fun hphase ↦ hengaged (h.waiting hphase)⟩

theorem outstanding_set_status {workers : List Worker} {results : List WorkerResult} {slot : ℕ}
    {worker : Worker} (hworker : workers[slot]? = some worker) (status : WorkerStatus) (p : ℕ) :
    outstanding (workers.set slot { worker with status }) results p =
      outstanding workers results p := by
  by_cases hp : slot = p
  · subst hp
    rw [outstanding_set_self hworker, outstanding_eq hworker]
    rfl
  · exact outstanding_set_of_ne hp

/-- Receiving moves a command from the queue to the worker's hands. -/
theorem outstanding_receive {workers : List Worker} {results : List WorkerResult} {slot : ℕ}
    {command : FetchCommand} {commands : List FetchCommand}
    (hworker : workers[slot]? = some ⟨command :: commands, none, .running⟩) (p : ℕ) :
    outstanding (workers.set slot ⟨commands, some command, .running⟩) results p =
      outstanding workers results p := by
  by_cases hp : slot = p
  · subst hp
    rw [outstanding_set_self hworker, outstanding_eq hworker]
    rfl
  · exact outstanding_set_of_ne hp

theorem Consistent.moves {action : Action} (h : s.Consistent m)
    (hmoves : Moves blake3 m s action t) : t.Failed ∨ t.Consistent m := by
  cases hmoves with
  | stop | giveUp | disconnected | timeout => exact .inl ⟨_, rfl⟩
  | misplaced _ _ _ ht | refused _ _ _ _ ht | abandon _ _ _ _ ht | misreported _ _ _ ht =>
    exact .inl ⟨_, ht⟩
  | finish => exact .inr ⟨h.agrees, by simp, by simp⟩
  | enter => exact .inr ⟨h.agrees, by simp, by simp⟩
  | @skip _ slot assigned hphase =>
    refine .inr ⟨h.agrees, fun next hnext ↦ h.assigned slot ?_, by simp⟩
    rw [hphase, (Phase.assigning.inj hnext).2]
  | @unsent _ slot assigned worker state index hphase hworker hstate hactive hbusy hindex =>
    refine .inr ⟨h.agrees.unsent hstate hbusy hindex, fun next hnext ↦ h.assigned slot ?_, by simp⟩
    rw [hphase, (Phase.assigning.inj hnext).2]
  | @send _ slot _ worker _ index expectedBytes hphase hworker hstate hactive hbusy hindex =>
    refine .inr ⟨h.agrees.send ⟨index, expectedBytes⟩ hworker hstate hactive hbusy hindex,
      fun _ _ ↦ ⟨slot, ?_⟩, by simp⟩
    rw [outstanding_set_self hworker]
    simp [Worker.owed]
  | @block _ slot assigned hphase hwork =>
    -- the coordinator blocks only after assigning something, or with a chunk in flight
    refine .inr ⟨h.agrees, by simp, fun _ ↦ ?_⟩
    rcases hwork with hinFlight | rfl
    · exact h.agrees.outstanding_ne_nil_of_hasInFlight hinFlight
    · exact h.assigned slot hphase
  | accept hphase hresults hverified =>
    have hagrees := h.agrees
    rw [Agrees, hresults] at hagrees
    refine .inr ⟨?_, by simp, by simp⟩
    rw [Agrees, hverified.2.1]
    exact hagrees.accept
  | reject hphase hresults =>
    have hagrees := h.agrees
    rw [Agrees, hresults] at hagrees
    exact .inr ⟨hagrees.reject, by simp, by simp⟩
  | receive hworker => exact .inr (h.congr List.length_set (outstanding_receive hworker))
  | respond hworker =>
    exact .inr (h.congr List.length_set (h.agrees.outstanding_respond hworker))
  | leave hworker => exact .inr (h.congr List.length_set (outstanding_set_status hworker _))
  | panic hworker => exact .inr (h.congr List.length_set (outstanding_set_status hworker _))

/-- A download that has failed stays so; only its workers still move. -/
theorem Failed.moves {action : Action} (h : s.Failed) (hmoves : Moves blake3 m s action t) :
    t.Failed := by
  obtain ⟨error, herror⟩ := h
  cases hmoves with
  | finish hphase => exact absurd herror (hphase _)
  | receive | respond | leave | panic => exact ⟨error, herror⟩
  | _ => simp_all

theorem moves_of_consistent {action : Action} (hfit : m.chunks.length < 2 ^ 32)
    (h : s.Failed ∨ s.Consistent m) (hstep : s.step blake3 m action = some t) :
    Moves blake3 m s action t := by
  refine moves_of_step (fun slot assigned hphase ↦ ?_) hstep
  rcases h with ⟨error, herror⟩ | hconsistent
  · simp [hphase] at herror
  · rw [hconsistent.agrees.length_chunks]
    exact hfit.le

theorem failed_or_consistent_of_step (hfit : m.chunks.length < 2 ^ 32)
    (h : s.Failed ∨ s.Consistent m) (hstep : Transition.Step (System.step blake3 m) s t) :
    t.Failed ∨ t.Consistent m := by
  obtain ⟨action, hstep⟩ := hstep
  have hmoves := moves_of_consistent hfit h hstep
  rcases h with hfailed | hconsistent
  · exact .inl (hfailed.moves hmoves)
  · exact hconsistent.moves hmoves

theorem consistent_start {availability : List PieceAvailability} {completed : List Bool}
    {scheduler : Scheduler}
    (hnew : Scheduler.new m.chunks.length availability completed = .ok scheduler) :
    (System.start scheduler completed availability.length).Consistent m :=
  ⟨Ledger.start hnew, by simp [start], by simp [start]⟩

/-- **Coordinator and workers agree.** Whatever the providers answer and however the threads
interleave: at the loop head and while the coordinator waits, a chunk is in flight at a slot exactly
when its worker has that one command to answer, and an idle slot has none; at the loop head the
resume flags are the scheduler's complete chunks; a verified result is always accepted; and the
coordinator only waits while a command is outstanding. -/
theorem coordinator_agrees {availability : List PieceAvailability} {completed : List Bool}
    {scheduler : Scheduler}
    (hnew : Scheduler.new m.chunks.length availability completed = .ok scheduler)
    (hrun : Relation.ReflTransGen (Transition.Step (System.step blake3 m))
      (System.start scheduler completed availability.length) s) :
    (s.phase = .head ∨ s.phase = .waiting →
      (∀ (p : ℕ) (index : UInt32), s.scheduler.chunks[index.toNat]? = some (.inFlight p) ↔
        (outstanding s.workers s.results p).count index = 1) ∧
      (∀ p, (outstanding s.workers s.results p).length ≤ 1) ∧
      ∀ p state, s.scheduler.providers[p]? = some state → state.busy = false →
        outstanding s.workers s.results p = []) ∧
    (s.phase = .head →
      ∀ i : ℕ, s.completed[i]? = some true ↔ s.scheduler.chunks[i]? = some .complete) ∧
    (∀ result results chunk, s.phase = .waiting → s.results = result :: results →
      Verified blake3 m result chunk →
        (s.scheduler.accept result.provider chunk.index).1 = .ok ()) ∧
    (s.phase = .waiting → ∃ p, outstanding s.workers s.results p ≠ []) := by
  have hfit := (Scheduler.new_eq_ok_iff.mp hnew).2.1
  have hs : s.Failed ∨ s.Consistent m :=
    Transition.invariant (I := fun s ↦ s.Failed ∨ s.Consistent m)
      (fun _ _ ↦ failed_or_consistent_of_step hfit) (.inr (consistent_start hnew)) hrun
  have hlive (hphase : s.phase = .head ∨ s.phase = .waiting) : s.Consistent m := by
    refine hs.resolve_left ?_
    rintro ⟨error, herror⟩
    rcases hphase with h | h <;> simp [h] at herror
  refine ⟨fun hphase ↦ ?_, fun hphase ↦ ?_, fun result results chunk hphase hresults hverified ↦ ?_,
    fun hphase ↦ ?_⟩
  · have hagrees := (hlive hphase).agrees
    exact ⟨fun _ _ ↦ hagrees.inFlight_iff, hagrees.length_outstanding_le,
      fun _ _ hstate hbusy ↦ (hagrees.holds_none hstate hbusy).1⟩
  · exact (hlive (.inl hphase)).agrees.completed_iff
  · have hagrees := (hlive (.inr hphase)).agrees
    rw [Agrees, hresults] at hagrees
    rw [hverified.2.1]
    exact hagrees.accept_eq_ok
  · exact (hlive (.inr hphase)).waiting hphase

/-! ### A failing provider

Two providers announce the one chunk of the published payload. The first has to be asked first and
does not deliver; the second is asked when it has been rejected. -/

namespace Failover

open Vectors

def pieces : PieceAvailability where
  chunkCount := 1
  bits := [1]

def scheduler : Scheduler where
  chunks := [.missing]
  providers := List.replicate 2
    { availability := pieces, active := true, busy := false, accepted := 0, rejected := 0 }
  retries := 0

def actions : List Action :=
  [.coordinate true, .coordinate true, .coordinate true, .coordinate true, .receive 0,
   .respond 0 (.ok (.chunkUnavailable 0)), .coordinate true, .leave 0, .coordinate true,
   .coordinate true, .coordinate true, .coordinate true]

theorem isSome_run : (Transition.run (System.step payloadHash payloadManifest)
    (System.start scheduler [false] 2) actions).isSome = true := by
  decide +kernel

/-- The state after the run. -/
def final : System := (Transition.run (System.step payloadHash payloadManifest)
  (System.start scheduler [false] 2) actions).get isSome_run

end Failover

theorem coordinator_agrees_failover :
    Failover.final.scheduler.chunks = [.inFlight 1] ∧
      (outstanding Failover.final.workers Failover.final.results 1).count 0 = 1 ∧
      ∃ p, outstanding Failover.final.workers Failover.final.results p ≠ [] := by
  have hphase : Failover.final.phase = .waiting := rfl
  have hchunks : Failover.final.scheduler.chunks = [.inFlight 1] := rfl
  obtain ⟨hledger, -, -, hengaged⟩ :=
    @coordinator_agrees Vectors.payloadHash Vectors.payloadManifest Failover.final
      [Failover.pieces, Failover.pieces] [false] Failover.scheduler (by decide +kernel)
      (Transition.reflTransGen_of_run (Option.some_get Failover.isSome_run).symm)
  exact ⟨hchunks, ((hledger (.inr hphase)).1 1 0).mp (by rw [hchunks]; rfl), hengaged hphase⟩

end System

end TripTorrent

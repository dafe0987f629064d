import TripTorrent.Swarm.Scheduler
import TripTorrent.Transfer.Layout
import TripTorrent.Transfer.Session
import TripTorrent.Transition.Inevitable

/-!
# The swarm download as a message-passing system

`download_chunks` runs in one thread and talks to one worker thread per provider: it sends each
worker commands on a queue of its own, and all workers send their results to one channel. The state
below holds the coordinator's position in its loop and variables, the workers and the channel; an
action is one step of one thread, so that a list of actions is an interleaving.

What a provider answers is part of the action, hence arbitrary. A worker leaves its loop after a
failed response; it may also panic at any point, in which case what it was sent stays unanswered.
File operations are assumed to succeed: of the resume record only the completion flags are kept.
-/

namespace TripTorrent

/-! ## State -/

/-- `WorkerCommand::Fetch`. The other command is sent only after the download has returned. -/
structure FetchCommand where
  index : UInt32
  expectedBytes : ℕ
deriving DecidableEq

inductive WorkerStatus where
  /-- In its receive loop. -/
  | running
  /-- Past the loop, with the command queue still open. -/
  | leaving
  /-- Gone: sending it a command fails. -/
  | exited
deriving DecidableEq

structure Worker where
  /-- Commands sent and not yet received. -/
  commands : List FetchCommand
  /-- The command received and not yet answered. -/
  current : Option FetchCommand
  status : WorkerStatus

structure WorkerResult where
  provider : ℕ
  requestedIndex : UInt32
  response : Except WorkerError Chunk

inductive DownloadError where
  | stopped
  | noHealthyProvider
  | timedOut
  | noHonestProvider
  | layout (error : LayoutError)
  | schedule (error : ScheduleError)
deriving DecidableEq

/-- The text of an error; those of callees are passed on. -/
def DownloadError.message : DownloadError → Option String
  | .stopped => some "fetch stopped by local control"
  | .noHealthyProvider => some "no healthy provider can supply the remaining chunks"
  | .timedOut => some "timed out waiting for a provider chunk"
  | .noHonestProvider => some "no honest provider remains for a required chunk"
  | .layout error => some error.message
  | .schedule _ => none

/-- Where the coordinator stands in its loop. -/
inductive Phase where
  | head
  /-- In the pass over the workers, about to serve a slot; the flag is the variable `assigned`. -/
  | assigning (slot : ℕ) (assigned : Bool)
  /-- In `recv_timeout`. -/
  | waiting
  | returned (outcome : Except DownloadError Unit)

structure System where
  phase : Phase
  scheduler : Scheduler
  /-- `resume.record.completed` -/
  completed : List Bool
  workers : List Worker
  /-- The result channel, oldest first. -/
  results : List WorkerResult
  /-- The reports the monitor has received. -/
  reports : List VerifiedTransferProgress
  /-- History variable: how many results have been taken from the channel. -/
  consumed : ℕ

namespace System

/-- The state in which `download_chunks` is called. -/
def start (scheduler : Scheduler) (completed : List Bool) (workerCount : ℕ) : System where
  phase := .head
  scheduler := scheduler
  completed := completed
  workers := List.replicate workerCount { commands := [], current := none, status := .running }
  results := []
  reports := []
  consumed := 0

/-! ## The coordinator -/

/-- `rejected_requests` -/
def rejectedRequests (scheduler : Scheduler) (providerCount : ℕ) : ℕ :=
  (((List.range providerCount).filterMap scheduler.providerStats).map ProviderStats.rejected).sum

section Steps

variable (blake3 : List UInt8 → Digest) (m : Manifest) (s : System)

/-- The progress report made from the current state. -/
def progress : Except LayoutError VerifiedTransferProgress :=
  reportVerifiedProgress m s.completed s.workers.length s.scheduler.retries
    (rejectedRequests s.scheduler s.workers.length)

/-- One round of the pass over the workers. -/
def assignSlot (slot : ℕ) (assigned : Bool) (worker : Worker) : System :=
  match s.scheduler.assign slot with
  | (none, scheduler) => { s with scheduler, phase := .assigning (slot + 1) assigned }
  | (some index, scheduler) =>
    match expectedChunkLength m index with
    | .error error => { s with scheduler, phase := .returned (.error (.layout error)) }
    | .ok expectedBytes =>
      if worker.status = .exited then
        { s with
          scheduler := scheduler.reject slot
          phase := .assigning (slot + 1) assigned }
      else
        { s with
          scheduler
          workers := s.workers.set slot
            { worker with commands := worker.commands ++ [{ index, expectedBytes }] }
          phase := .assigning (slot + 1) true }

/-- What follows the pass. -/
def endPass (assigned : Bool) : System :=
  if s.scheduler.isComplete then { s with phase := .returned (.ok ()) }
  else if !s.scheduler.hasInFlight && !assigned then
    { s with phase := .returned (.error .noHealthyProvider) }
  else { s with phase := .waiting }

/-- A verified chunk: it is written, then accepted, then reported. -/
def acceptChunk (provider : ℕ) (chunk : Chunk) : System :=
  let s := { s with completed := s.completed.set chunk.index.toNat true }
  match s.scheduler.accept provider chunk.index with
  | (.error error, scheduler) => { s with scheduler, phase := .returned (.error (.schedule error)) }
  | (.ok (), scheduler) =>
    let s := { s with scheduler }
    match s.progress m with
    | .error error => { s with phase := .returned (.error (.layout error)) }
    | .ok report => { s with reports := s.reports ++ [report], phase := .head }

/-- A failed or unverified response: its provider is rejected. -/
def rejectResult (provider : ℕ) : System :=
  let s := { s with scheduler := s.scheduler.reject provider }
  match s.progress m with
  | .error error => { s with phase := .returned (.error (.layout error)) }
  | .ok report =>
    let s := { s with reports := s.reports ++ [report] }
    if !s.scheduler.canFinish then { s with phase := .returned (.error .noHonestProvider) }
    else { s with phase := .head }

/-- The response is the requested chunk and verifies. -/
def Verified (result : WorkerResult) (chunk : Chunk) : Prop :=
  result.response = .ok chunk ∧ chunk.index = result.requestedIndex ∧
    m.verifyChunk blake3 chunk = .ok ()

/-- The match on a result taken from the channel. -/
def consume (result : WorkerResult) : System :=
  match result.response with
  | .ok chunk =>
    if chunk.index = result.requestedIndex ∧ m.verifyChunk blake3 chunk = .ok () then
      s.acceptChunk m result.provider chunk
    else s.rejectResult m result.provider
  | .error _ => s.rejectResult m result.provider

/-- One step of the coordinator. Receiving blocks on an empty channel while a worker holds its
other end, and fails once there is none. -/
def coordinate (shouldContinue : Bool) : Option System :=
  match s.phase with
  | .head =>
    some (if s.scheduler.isComplete then { s with phase := .returned (.ok ()) }
      else if !shouldContinue then { s with phase := .returned (.error .stopped) }
      else { s with phase := .assigning 0 false })
  | .assigning slot assigned =>
    match s.workers[slot]? with
    | some worker => some (s.assignSlot m slot assigned worker)
    | none => some (s.endPass assigned)
  | .waiting =>
    match s.results with
    | result :: results =>
      some ({ s with results, consumed := s.consumed + 1 }.consume blake3 m result)
    | [] =>
      if s.workers.all (·.status == .exited) then
        some { s with phase := .returned (.error .timedOut) }
      else none
  | .returned _ => none

end Steps

/-! ## The workers and the system -/

inductive Action where
  /-- The coordinator moves; the flag is what the monitor says if it is asked. -/
  | coordinate (shouldContinue : Bool)
  /-- The timeout of the coordinator's receive expires. -/
  | timeout
  /-- A worker takes its next command. -/
  | receive (slot : ℕ)
  /-- A worker's exchange with its provider ends, with whatever the provider sent. -/
  | respond (slot : ℕ) (reply : Except SessionFailure Message)
  /-- A worker that has left its loop drops its queue. -/
  | leave (slot : ℕ)
  /-- A worker thread panics. -/
  | panic (slot : ℕ)

/-- One step of the system. -/
def step (blake3 : List UInt8 → Digest) (m : Manifest) (s : System) : Action → Option System
  | .coordinate shouldContinue => s.coordinate blake3 m shouldContinue
  | .timeout =>
    match s.phase, s.results with
    | .waiting, [] => some { s with phase := .returned (.error .timedOut) }
    | _, _ => none
  | .receive slot =>
    match s.workers[slot]? with
    | some ⟨command :: commands, none, .running⟩ =>
      some { s with workers := s.workers.set slot ⟨commands, some command, .running⟩ }
    | _ => none
  | .respond slot reply =>
    match s.workers[slot]? with
    | some ⟨commands, some command, .running⟩ =>
      let response := workerResponse command.index reply
      some { s with
        workers := s.workers.set slot
          ⟨commands, none, if response.isOk then .running else .leaving⟩
        results := s.results ++ [{ provider := slot, requestedIndex := command.index, response }] }
    | _ => none
  | .leave slot =>
    match s.workers[slot]? with
    | some ⟨commands, current, .leaving⟩ =>
      some { s with workers := s.workers.set slot ⟨commands, current, .exited⟩ }
    | _ => none
  | .panic slot =>
    match s.workers[slot]? with
    | some worker => some { s with workers := s.workers.set slot { worker with status := .exited } }
    | none => none

/-! ## What a step can do -/

/-- What a step can do, with its guards. The error returns come with the state they leave; all
other results of the coordinator are written out. -/
inductive Moves (blake3 : List UInt8 → Digest) (m : Manifest) (s : System) :
    Action → System → Prop
  | finish {b : Bool} (hphase : ∀ outcome, s.phase ≠ .returned outcome)
      (hcomplete : s.scheduler.isComplete = true) :
      Moves blake3 m s (.coordinate b) { s with phase := .returned (.ok ()) }
  | stop (hphase : s.phase = .head) :
      Moves blake3 m s (.coordinate false) { s with phase := .returned (.error .stopped) }
  | enter {b : Bool} (hphase : s.phase = .head) (hcomplete : s.scheduler.isComplete = false) :
      Moves blake3 m s (.coordinate b) { s with phase := .assigning 0 false }
  | skip {b : Bool} {slot : ℕ} {assigned : Bool} (hphase : s.phase = .assigning slot assigned)
      (hslot : slot < s.workers.length)
      (hidle : ∀ state, s.scheduler.providers[slot]? = some state → state.active = true →
        state.busy = false → s.scheduler.candidates state.availability = []) :
      Moves blake3 m s (.coordinate b) { s with phase := .assigning (slot + 1) assigned }
  | misplaced {b : Bool} {t : System} {slot : ℕ} {assigned : Bool} {index : UInt32}
      {error : LayoutError}
      (hphase : s.phase = .assigning slot assigned)
      (hindex : s.scheduler.chunks[index.toNat]? = some .missing)
      (herror : expectedChunkLength m index = .error error)
      (ht : t.phase = .returned (.error (.layout error))) : Moves blake3 m s (.coordinate b) t
  | unsent {b : Bool} {slot : ℕ} {assigned : Bool} {worker : Worker} {state : ProviderState}
      {index : UInt32}
      (hphase : s.phase = .assigning slot assigned) (hworker : s.workers[slot]? = some worker)
      (hstate : s.scheduler.providers[slot]? = some state) (hactive : state.active = true)
      (hbusy : state.busy = false) (hindex : s.scheduler.chunks[index.toNat]? = some .missing)
      (hexited : worker.status = .exited) :
      Moves blake3 m s (.coordinate b) { s with
        scheduler := (s.scheduler.claim slot index.toNat).reject slot
        phase := .assigning (slot + 1) assigned }
  | send {b : Bool} {slot : ℕ} {assigned : Bool} {worker : Worker} {state : ProviderState}
      {index : UInt32} {expectedBytes : ℕ}
      (hphase : s.phase = .assigning slot assigned) (hworker : s.workers[slot]? = some worker)
      (hstate : s.scheduler.providers[slot]? = some state) (hactive : state.active = true)
      (hbusy : state.busy = false) (hindex : s.scheduler.chunks[index.toNat]? = some .missing)
      (havailable : state.availability.contains index = true) (hopen : worker.status ≠ .exited) :
      Moves blake3 m s (.coordinate b) { s with
        scheduler := s.scheduler.claim slot index.toNat
        workers := s.workers.set slot
          { worker with commands := worker.commands ++ [{ index, expectedBytes }] }
        phase := .assigning (slot + 1) true }
  | giveUp {b : Bool} {slot : ℕ} (hphase : s.phase = .assigning slot false)
      (hslot : s.workers.length ≤ slot)
      (hcomplete : s.scheduler.isComplete = false) (hinFlight : s.scheduler.hasInFlight = false) :
      Moves blake3 m s (.coordinate b) { s with phase := .returned (.error .noHealthyProvider) }
  | block {b : Bool} {slot : ℕ} {assigned : Bool} (hphase : s.phase = .assigning slot assigned)
      (hwork : s.scheduler.hasInFlight = true ∨ assigned = true) :
      Moves blake3 m s (.coordinate b) { s with phase := .waiting }
  | accept {b : Bool} {result : WorkerResult} {results : List WorkerResult} {chunk : Chunk}
      {report : VerifiedTransferProgress}
      (hphase : s.phase = .waiting) (hresults : s.results = result :: results)
      (hverified : Verified blake3 m result chunk)
      (haccept : (s.scheduler.accept result.provider chunk.index).1 = .ok ()) :
      Moves blake3 m s (.coordinate b) { s with
        completed := s.completed.set chunk.index.toNat true
        scheduler := s.scheduler.deliver result.provider chunk.index.toNat
        results
        reports := s.reports ++ [report]
        phase := .head
        consumed := s.consumed + 1 }
  | refused {b : Bool} {t : System} {result : WorkerResult} {results : List WorkerResult}
      {chunk : Chunk} {error : ScheduleError}
      (hphase : s.phase = .waiting) (hresults : s.results = result :: results)
      (hverified : Verified blake3 m result chunk)
      (haccept : (s.scheduler.accept result.provider chunk.index).1 = .error error)
      (ht : t.phase = .returned (.error (.schedule error))) : Moves blake3 m s (.coordinate b) t
  | reject {b : Bool} {result : WorkerResult} {results : List WorkerResult}
      {report : VerifiedTransferProgress}
      (hphase : s.phase = .waiting) (hresults : s.results = result :: results)
      (hverified : ∀ chunk, ¬Verified blake3 m result chunk) :
      Moves blake3 m s (.coordinate b) { s with
        scheduler := s.scheduler.reject result.provider
        results
        reports := s.reports ++ [report]
        phase := .head
        consumed := s.consumed + 1 }
  | abandon {b : Bool} {t : System} {result : WorkerResult} {results : List WorkerResult}
      (hphase : s.phase = .waiting) (hresults : s.results = result :: results)
      (hverified : ∀ chunk, ¬Verified blake3 m result chunk)
      (hfinish : (s.scheduler.reject result.provider).canFinish = false)
      (ht : t.phase = .returned (.error .noHonestProvider)) : Moves blake3 m s (.coordinate b) t
  | misreported {b : Bool} {t : System} {completed : List Bool} {error : LayoutError}
      {retries rejected : ℕ}
      (hphase : s.phase = .waiting) (hlength : completed.length = s.completed.length)
      (herror : reportVerifiedProgress m completed s.workers.length retries rejected =
        .error error)
      (ht : t.phase = .returned (.error (.layout error))) : Moves blake3 m s (.coordinate b) t
  | disconnected {b : Bool} (hphase : s.phase = .waiting) (hresults : s.results = [])
      (hexited : ∀ worker ∈ s.workers, worker.status = .exited) :
      Moves blake3 m s (.coordinate b) { s with phase := .returned (.error .timedOut) }
  | timeout (hphase : s.phase = .waiting) (hresults : s.results = []) :
      Moves blake3 m s .timeout { s with phase := .returned (.error .timedOut) }
  | receive {slot : ℕ} {command : FetchCommand} {commands : List FetchCommand}
      (hworker : s.workers[slot]? = some ⟨command :: commands, none, .running⟩) :
      Moves blake3 m s (.receive slot)
        { s with workers := s.workers.set slot ⟨commands, some command, .running⟩ }
  | respond {slot : ℕ} {reply : Except SessionFailure Message} {command : FetchCommand}
      {commands : List FetchCommand}
      (hworker : s.workers[slot]? = some ⟨commands, some command, .running⟩) :
      Moves blake3 m s (.respond slot reply) { s with
        workers := s.workers.set slot ⟨commands, none,
          if (workerResponse command.index reply).isOk then .running else .leaving⟩
        results := s.results ++ [{
          provider := slot
          requestedIndex := command.index
          response := workerResponse command.index reply }] }
  | leave {slot : ℕ} {worker : Worker} (hworker : s.workers[slot]? = some worker)
      (hstatus : worker.status = .leaving) :
      Moves blake3 m s (.leave slot)
        { s with workers := s.workers.set slot { worker with status := .exited } }
  | panic {slot : ℕ} {worker : Worker} (hworker : s.workers[slot]? = some worker) :
      Moves blake3 m s (.panic slot)
        { s with workers := s.workers.set slot { worker with status := .exited } }

section Inversion

variable {blake3 : List UInt8 → Digest} {m : Manifest} {s t : System} {b : Bool}

theorem moves_assignSlot {slot : ℕ} {assigned : Bool} {worker : Worker}
    (hfit : s.scheduler.chunks.length ≤ 2 ^ 32) (hphase : s.phase = .assigning slot assigned)
    (hworker : s.workers[slot]? = some worker) :
    Moves blake3 m s (.coordinate b) (s.assignSlot m slot assigned worker) := by
  have hslot : slot < s.workers.length := (List.getElem?_eq_some_iff.mp hworker).1
  obtain ⟨hassign, hidle⟩ | ⟨state, index, hstate, hactive, hbusy, hindex, hpiece, hassign⟩ :=
    Scheduler.assign_cases_index hfit slot
  · rw [assignSlot, hassign]
    exact .skip hphase hslot hidle
  · rw [assignSlot, hassign]
    cases hlength : expectedChunkLength m index with
    | error error => exact .misplaced hphase hindex hlength (by simp only [hlength])
    | ok expectedBytes =>
      by_cases hexited : worker.status = .exited
      · simpa only [hlength, if_pos hexited] using
          .unsent hphase hworker hstate hactive hbusy hindex hexited
      · simpa only [hlength, if_neg hexited] using
          .send hphase hworker hstate hactive hbusy hindex hpiece hexited

theorem moves_endPass {slot : ℕ} {assigned : Bool} (hphase : s.phase = .assigning slot assigned)
    (hslot : s.workers.length ≤ slot) :
    Moves blake3 m s (.coordinate b) (s.endPass assigned) := by
  rw [endPass]
  by_cases hcomplete : s.scheduler.isComplete = true
  · rw [if_pos hcomplete]
    exact .finish (by simp [hphase]) hcomplete
  · rw [if_neg hcomplete]
    rw [Bool.not_eq_true] at hcomplete
    by_cases hwork : (!s.scheduler.hasInFlight && !assigned) = true
    · rw [if_pos hwork]
      obtain ⟨hinFlight, rfl⟩ : s.scheduler.hasInFlight = false ∧ assigned = false := by
        simpa using hwork
      exact .giveUp hphase hslot hcomplete hinFlight
    · rw [if_neg hwork]
      refine .block hphase ?_
      rwa [← Bool.not_or, Bool.not_eq_true', Bool.not_eq_false, Bool.or_eq_true] at hwork

theorem moves_consume {result : WorkerResult} {results : List WorkerResult}
    (hphase : s.phase = .waiting) (hresults : s.results = result :: results) :
    Moves blake3 m s (.coordinate b)
      ({ s with results, consumed := s.consumed + 1 }.consume blake3 m result) := by
  -- the guard of the accepting arm is `Verified`; everything else falls through to the rejection
  by_cases hverified : ∃ chunk, Verified blake3 m result chunk
  · obtain ⟨chunk, hverified⟩ := hverified
    have hconsume := hverified
    obtain ⟨hresponse, hguard⟩ := hverified
    rw [consume, hresponse]
    simp only [if_pos hguard, acceptChunk]
    cases haccept : s.scheduler.accept result.provider chunk.index with
    | mk outcome scheduler =>
      have hfst : (s.scheduler.accept result.provider chunk.index).1 = outcome := by rw [haccept]
      cases outcome with
      | error error => exact .refused hphase hresults hconsume hfst rfl
      | ok _ =>
        have hscheduler : scheduler = s.scheduler.deliver result.provider chunk.index.toNat := by
          rw [← Scheduler.accept_snd hfst, haccept]
        simp only [progress]
        split
        · exact .misreported hphase List.length_set (by assumption) rfl
        · rw [hscheduler]
          exact .accept hphase hresults hconsume hfst
  · rw [not_exists] at hverified
    have hconsume : ({ s with results, consumed := s.consumed + 1 }.consume blake3 m result) =
        { s with results, consumed := s.consumed + 1 }.rejectResult m result.provider := by
      rw [consume]
      split
      · rw [if_neg fun hguard ↦ hverified _ ⟨by assumption, hguard⟩]
      · rfl
    rw [hconsume, rejectResult]
    simp only [progress]
    split
    · exact .misreported hphase rfl (by assumption) rfl
    · by_cases hfinish : (s.scheduler.reject result.provider).canFinish = true
      · simp only [hfinish]
        exact .reject hphase hresults hverified
      · simp only [hfinish]
        exact .abandon hphase hresults hverified (by simpa using hfinish) rfl

/-- **Inversion of a step.** -/
theorem moves_of_step {action : Action}
    (hfit : ∀ slot assigned, s.phase = .assigning slot assigned →
      s.scheduler.chunks.length ≤ 2 ^ 32)
    (h : s.step blake3 m action = some t) : Moves blake3 m s action t := by
  cases action with
  | coordinate b =>
    rw [step, coordinate] at h
    split at h
    · case _ hphase =>
      by_cases hcomplete : s.scheduler.isComplete = true
      · rw [if_pos hcomplete] at h
        obtain rfl := Option.some.inj h
        exact .finish (by simp [hphase]) hcomplete
      · rw [if_neg hcomplete] at h
        cases b with
        | false =>
          obtain rfl := Option.some.inj h
          exact .stop hphase
        | true =>
          obtain rfl := Option.some.inj h
          exact .enter hphase (by simpa using hcomplete)
    · case _ slot assigned hphase =>
      split at h
      · case _ worker hworker =>
        obtain rfl := Option.some.inj h
        exact moves_assignSlot (hfit slot assigned hphase) hphase hworker
      · case _ hslot =>
        obtain rfl := Option.some.inj h
        exact moves_endPass hphase (List.getElem?_eq_none_iff.mp hslot)
    · case _ hphase =>
      split at h
      · case _ result results hresults =>
        obtain rfl := Option.some.inj h
        exact moves_consume hphase hresults
      · case _ hresults =>
        split_ifs at h with hexited
        obtain rfl := Option.some.inj h
        refine .disconnected hphase hresults fun worker hworker ↦ ?_
        simpa using List.all_eq_true.mp hexited worker hworker
    · cases h
  | timeout =>
    rw [step] at h
    split at h
    · case _ hphase hresults =>
      obtain rfl := Option.some.inj h
      exact .timeout hphase hresults
    · cases h
  | receive slot =>
    rw [step] at h
    split at h
    · case _ hworker =>
      obtain rfl := Option.some.inj h
      exact .receive hworker
    · cases h
  | respond slot reply =>
    rw [step] at h
    split at h
    · case _ hworker =>
      obtain rfl := Option.some.inj h
      exact .respond hworker
    · cases h
  | leave slot =>
    rw [step] at h
    split at h
    · case _ hworker =>
      obtain rfl := Option.some.inj h
      exact .leave hworker rfl
    · cases h
  | panic slot =>
    rw [step] at h
    split at h
    · case _ hworker =>
      obtain rfl := Option.some.inj h
      exact .panic hworker
    · cases h

end Inversion

end System

end TripTorrent

import TripTorrent.Node.Ownership

/-!
# Control of running downloads

A worker inside `engine.fetch` stops when the control it polls says so. Pausing and shutting down
reach it through `downloads`, so they stop it just when the control entered there is its own. In
runs without disputes it is.

Two requests that resume the same transfer at the same time lead out of this: both find the row
paused, the first one starts a worker, and the second one puts its own control in the place of the
worker's before it notices.
-/

namespace TripTorrent

open Std (ExtTreeMap)
open Transition

namespace NodeRuntime

variable {s : NodeRuntime} {id control : ℕ}

theorem foldl_interrupt {entries : List (ℕ × ℕ)} {controls : ℕ → ControlState}
    (h : controls control = .interrupted ∨ ∃ entry ∈ entries, entry.2 = control) :
    entries.foldl (fun controls entry ↦ Function.update controls entry.2 .interrupted) controls
      control = .interrupted := by
  induction entries generalizing controls with
  | nil =>
    rcases h with h | ⟨entry, hentry, -⟩
    · exact h
    · cases hentry
  | cons entry entries ih =>
    rw [List.foldl_cons]
    refine ih ?_
    by_cases heq : entry.2 = control
    · rw [← heq, Function.update_self]
      exact .inl rfl
    · rcases h with h | ⟨other, hother, hcontrol⟩
      · rw [Function.update_of_ne (Ne.symm heq)]
        exact .inl h
      · rcases List.mem_cons.mp hother with rfl | hother
        · exact absurd hcontrol heq
        · exact .inr ⟨other, hother, hcontrol⟩

/-- Shutting down interrupts every control that is entered. -/
theorem controls_stopDownloads (fault : Option String) (h : s.downloads[id]? = some control) :
    (s.stepTask fault .stopDownloads).runtime.controls control = .interrupted :=
  foldl_interrupt
    (.inr ⟨(id, control), ExtTreeMap.mem_toList_iff_getElem?_eq_some.mpr h, rfl⟩)

/-- Pausing a transfer sets the control that is entered for it. -/
theorem controls_pauseControl (fault : Option String) (h : s.downloads[id]? = some control) :
    (s.stepTask fault (.pauseControl id)).runtime.controls control = .paused := by
  have hset : (s.setControl control .paused).controls control = .paused :=
    Function.update_self ..
  rw [stepTask, h]
  rcases fault with _ | text
  · exact hset
  · exact hset

end NodeRuntime

namespace Node

variable {b : Backend} {s : NodeRuntime}

/-- **Control reaches the worker.** In a run without disputes, the control entered for a transfer
whose worker is inside `engine.fetch` is the one the worker polls; so the section of
`pause_transfer` for it leaves that control paused, and the section of `shutdown` leaves it
interrupted. -/
theorem control_reaches_worker (hrun : Relation.ReflTransGen (StepIf b Undisputed) new (.up s))
    {i : ℕ} {worker : DownloadWorker} (hi : s.threads[i]? = some (.worker worker))
    (hphase : worker.phase = .fetching) :
    s.downloads[worker.transfer.id]? = some worker.control ∧
      (∀ fault, (s.stepTask fault (.pauseControl worker.transfer.id)).runtime.controls
        worker.control = .paused) ∧
      ∀ fault, (s.stepTask fault .stopDownloads).runtime.controls worker.control =
        .interrupted := by
  have howned : s.Owned := owned_of_run hrun
  have hentry : (Thread.worker worker).entry = some (worker.transfer.id, worker.control) := by
    rw [Thread.entry, DownloadWorker.entry, hphase]
  have hentered : s.downloads[worker.transfer.id]? = some worker.control :=
    (howned.entered _ _).mpr ⟨_, List.mem_iff_getElem?.mpr ⟨i, hi⟩, hentry⟩
  exact ⟨hentered, fun fault ↦ NodeRuntime.controls_pauseControl fault hentered,
    fun fault ↦ NodeRuntime.controls_stopDownloads fault hentered⟩

/-! ### A transfer that is paused and resumed -/

def runtime? : Node → Option NodeRuntime
  | .down .. => none
  | .up s => some s

theorem exists_runtime {node : Option Node} {f : NodeRuntime → Bool}
    (h : (node.bind runtime?).any f) : ∃ s, node = some (.up s) ∧ f s := by
  rcases node with _ | ⟨⟨library, transfers⟩ | s⟩
  · cases h
  · cases h
  · exact ⟨s, rfl, h⟩

/-- The transfer and the control of a worker inside `engine.fetch`. -/
def fetching? : Thread → Option (ℕ × ℕ)
  | .worker worker =>
    if worker.phase = .fetching then some (worker.transfer.id, worker.control) else none
  | _ => none

theorem fetching?_eq_some_iff {θ : Thread} {id control : ℕ} :
    fetching? θ = some (id, control) ↔
      ∃ worker, θ = .worker worker ∧ worker.phase = .fetching ∧ worker.transfer.id = id ∧
        worker.control = control := by
  constructor
  · intro h
    rcases θ with task | result | worker | _
    · cases h
    · cases h
    · rw [fetching?] at h
      split_ifs at h with hphase
      obtain ⟨hid, hcontrol⟩ := Prod.mk.inj (Option.some.inj h)
      exact ⟨worker, rfl, hphase, hid, hcontrol⟩
    · cases h
  · rintro ⟨worker, rfl, hphase, rfl, rfl⟩
    exact if_pos hphase

def sampleConfig : NodeConfig where
  apiLoopback := true
  apiToken := "0123456789abcdef0123456789abcdef"
  bootstrap := some "127.0.0.1:7000"
  maxConcurrentTransfers := 2
  logLevel := "info"

def sampleBackend : Backend := .postcard Vectors.payloadHash

/-- Thread `i` takes `n` steps. -/
def steps (i n : ℕ) : List NodeAction := List.replicate n (.advance i none)

/-- A node is started and a download, whose worker is thread 1. -/
def startActions : List NodeAction :=
  [.create sampleConfig, .call (.startFetch ⟨Vectors.payloadDigest⟩ true)] ++ steps 0 8

/-- The download is paused, and its worker comes to an end. -/
def pauseActions : List NodeAction :=
  [.call (.pauseTransfer 1)] ++ steps 2 2 ++ [.fetched 1 (.error "download paused")] ++ steps 1 4

/-- It is resumed by thread 3, whose worker is thread 4. -/
def resumeActions : List NodeAction := [.call (.resumeTransfer 1)] ++ steps 3 6

/-- It is resumed by threads 3 and 4, and both look at the status before either goes on; the worker
is thread 5. -/
def resumeTwiceActions : List NodeAction :=
  [.call (.resumeTransfer 1), .call (.resumeTransfer 1)] ++ steps 3 2 ++ steps 4 2 ++ steps 3 4 ++
    steps 4 3

/-- After the transfer has been resumed once its worker can be paused and interrupted again. -/
theorem control_reaches_resumed_worker :
    ∃ s worker, Relation.ReflTransGen (StepIf sampleBackend Undisputed) new (.up s) ∧
      s.threads[4]? = some (.worker worker) ∧ worker.phase = .fetching ∧
      worker.transfer.id = 1 ∧ s.downloads[1]? = some worker.control ∧
      (s.stepTask none (.pauseControl 1)).runtime.controls worker.control = .paused ∧
      (s.stepTask none .stopDownloads).runtime.controls worker.control = .interrupted := by
  have hrun : ((run (restrict Undisputed (next sampleBackend)) new
      (startActions ++ pauseActions ++ resumeActions)).bind runtime?).any
        fun s ↦ s.threads[4]?.bind fetching? = some (1, 1) := by
    decide +kernel
  obtain ⟨s, hs, hworker⟩ := exists_runtime hrun
  obtain ⟨θ, hθ, hfetching⟩ := Option.bind_eq_some_iff.mp (of_decide_eq_true hworker)
  obtain ⟨worker, rfl, hphase, hid, -⟩ := fetching?_eq_some_iff.mp hfetching
  have hrun := reflTransGen_of_run_restrict hs
  obtain ⟨hentered, hpause, hstop⟩ := control_reaches_worker hrun hθ hphase
  rw [hid] at hentered hpause
  exact ⟨s, worker, hrun, hθ, hphase, hid, hentered, hpause none, hstop none⟩

/-- The control the worker polls is not the one that is entered. -/
theorem second_resume_replaces_control :
    ((run (next sampleBackend) new (startActions ++ pauseActions ++ resumeTwiceActions)).bind
        runtime?).map (fun s ↦ (s.threads[5]?.bind fetching?, s.downloads[1]?, s.threads[4]?)) =
      some (some (1, 1), some 2, some (.finished (.error (.alreadyActive 1)))) := by
  decide +kernel

end Node

end TripTorrent

import TripTorrent.Node.Control

/-!
# The limit on concurrent downloads

The number of active downloads is compared with the limit in one step of a request and increased in
another, when the worker is started. A request in between has been admitted and is not counted yet.
The load of a node is the number of its workers together with the workers that admitted requests may
still start; the recovery is admitted for all transfers it goes through, as it does not look at the
limit.

Only passing the check adds to the load, so the limit holds for as long as no request passes the
check while the load is at the limit. The code compares the workers alone.
-/

namespace TripTorrent

open Transition

/-! ## Load -/

namespace Task

/-- How many workers a request may start without looking at the limit again. -/
def admitted : Task → ℕ
  | .createTransfer .. | .getTransfer _ | .resumeStatus _ => 1
  | .createDirAll caller _ => caller.rest.length + 1
  | .updateTransfer download | .insertControl download | .launch download _ =>
    download.caller.rest.length + 1
  | _ => 0

/-- The request is about to compare the number of active downloads with the limit. -/
def isCheck : Task → Bool
  | .checkLimit .. | .resumeLimit _ => true
  | _ => false

end Task

namespace Thread

def isWorker : Thread → Bool
  | .worker _ => true
  | _ => false

def load : Thread → ℕ
  | .request task => task.admitted
  | .worker _ => 1
  | .finished _ | .exited => 0

end Thread

namespace NodeRuntime

/-- The download workers that are alive. -/
def workers (s : NodeRuntime) : ℕ := s.threads.countP Thread.isWorker

def load (s : NodeRuntime) : ℕ := (s.threads.map Thread.load).sum

/-- Thread `i` is about to look at the limit. -/
def checks (s : NodeRuntime) (i : ℕ) : Bool :=
  match s.threads[i]? with
  | some (.request task) => task.isCheck
  | _ => false

theorem workers_le_load (s : NodeRuntime) : s.workers ≤ s.load := by
  rw [workers, load]
  induction s.threads with
  | nil => exact le_rfl
  | cons θ threads ih =>
    rw [List.countP_cons, List.map_cons, List.sum_cons, add_comm]
    refine Nat.add_le_add ?_ ih
    rcases θ with task | result | worker | _
    · exact Nat.zero_le _
    · exact le_rfl
    · exact le_rfl
    · exact le_rfl

end NodeRuntime

/-! ## Steps -/

/-- What a move does to the number of active downloads and to the load. -/
structure Move.Counted (move : Move) (s : NodeRuntime) (θ : Thread) : Prop where
  config : move.runtime.config = s.config
  active : move.runtime.activeDownloads + (if θ.isWorker then 1 else 0) =
    s.activeDownloads + (if move.thread.isWorker then 1 else 0) +
      move.started.toList.countP Thread.isWorker
  load : move.thread.load + (move.started.toList.map Thread.load).sum ≤ θ.load ∨
    (∃ task, θ = .request task ∧ task.isCheck) ∧
      s.activeDownloads < s.config.maxConcurrentTransfers ∧
      move.thread.load + (move.started.toList.map Thread.load).sum ≤ θ.load + 1

namespace NodeRuntime

variable {b : Backend} {s t : NodeRuntime} {fault : Option String} {task : Task}

theorem counted_refuse (error : NodeError) : (s.refuse error).Counted s (.request task) :=
  ⟨rfl, rfl, .inl (Nat.zero_le _)⟩

theorem counted_goOn {task' : Task} (hconfig : t.config = s.config)
    (hactive : t.activeDownloads = s.activeDownloads) (h : task'.admitted ≤ task.admitted) :
    (t.goOn task').Counted s (.request task) :=
  ⟨hconfig, hactive, .inl h⟩

theorem counted_attempt {move : Move} (h : move.Counted s (.request task)) :
    (s.attempt fault move).Counted s (.request task) := by
  rcases fault with _ | text
  · exact h
  · exact counted_refuse _

/-- A request that passes the check is admitted for one worker. -/
theorem counted_underLimit {task' : Task} (hcheck : task.isCheck) (h : task'.admitted ≤ 1) :
    (s.underLimit (s.goOn task')).Counted s (.request task) := by
  rw [underLimit]
  split_ifs with hlimit
  · exact counted_refuse _
  · exact ⟨rfl, rfl, .inr ⟨⟨task, rfl, hcheck⟩, not_le.mp hlimit,
      h.trans (Nat.le_add_left _ _)⟩⟩

theorem counted_launch (download : Download) (control : ℕ) :
    (s.stepTask fault (.launch download control)).Counted s
      (.request (.launch download control)) := by
  obtain ⟨caller, transfer, contentId⟩ := download
  rcases caller with _ | _ | ⟨_ | ⟨next, rest⟩⟩
  · exact ⟨rfl, rfl, .inl le_rfl⟩
  · exact ⟨rfl, rfl, .inl le_rfl⟩
  · exact ⟨rfl, rfl, .inl le_rfl⟩
  · exact ⟨rfl, rfl, .inl le_rfl⟩

theorem counted_stepTask (task : Task) :
    (s.stepTask fault task).Counted s (.request task) := by
  rcases task with ⟨contentId, share⟩ | ⟨contentId, share⟩ | ⟨contentId, share⟩ | id |
    ⟨caller, transfer⟩ | download | download | ⟨download, control⟩ | id | id | id | id | _ | _ | _
  · rw [stepTask]
    split_ifs
    · exact counted_refuse _
    refine counted_attempt ?_
    split
    · exact counted_refuse _
    · exact counted_refuse _
    · exact counted_goOn rfl rfl le_rfl
  · exact counted_underLimit rfl le_rfl
  · refine counted_attempt ?_
    split
    · exact counted_refuse _
    · exact counted_goOn rfl rfl le_rfl
  · refine counted_attempt ?_
    split
    · exact counted_refuse _
    · exact counted_goOn rfl rfl le_rfl
  · rw [stepTask]
    split_ifs
    · exact counted_refuse _
    split
    · exact counted_refuse _
    · exact counted_attempt (counted_goOn rfl rfl le_rfl)
  · exact counted_attempt (counted_goOn rfl rfl le_rfl)
  · rw [stepTask]
    dsimp only
    split_ifs
    · exact ⟨rfl, rfl, .inl (Nat.zero_le _)⟩
    · exact ⟨rfl, rfl, .inl le_rfl⟩
  · exact counted_launch download control
  · refine counted_attempt ?_
    split
    · exact counted_refuse _
    split_ifs
    · exact counted_refuse _
    · exact counted_goOn rfl rfl le_rfl
  · rw [stepTask]
    split
    · exact counted_refuse _
    rcases fault with _ | text
    · exact ⟨rfl, rfl, .inl (Nat.zero_le _)⟩
    · exact ⟨rfl, rfl, .inl (Nat.zero_le _)⟩
  · exact counted_underLimit rfl le_rfl
  · refine counted_attempt ?_
    split
    · exact counted_refuse _
    split_ifs
    · exact counted_refuse _
    · exact counted_goOn rfl rfl le_rfl
  · exact counted_goOn rfl rfl le_rfl
  · exact counted_goOn rfl rfl le_rfl
  · rcases fault with _ | text
    · exact ⟨rfl, rfl, .inl (Nat.zero_le _)⟩
    · exact ⟨rfl, rfl, .inl (Nat.zero_le _)⟩

theorem counted_turn {worker : DownloadWorker} {phase : DownloadPhase}
    (hconfig : t.config = s.config) (hactive : t.activeDownloads = s.activeDownloads) :
    (t.turn worker phase).Counted s (.worker worker) :=
  ⟨hconfig, congrArg (· + 1) hactive, .inl le_rfl⟩

/-- A worker is counted until it leaves. -/
theorem counted_stepWorker {worker : DownloadWorker} {move : Move} (hactive : 0 < s.activeDownloads)
    (h : s.stepWorker b fault worker = some move) : move.Counted s (.worker worker) := by
  obtain ⟨transfer, contentId, control, phase⟩ := worker
  rcases phase with _ | result | ⟨error | stats⟩ | ⟨content, stats⟩ | content | ⟨status, error⟩ | _
  · cases h
  · obtain rfl := Option.some.inj h
    exact counted_turn rfl rfl
  · obtain rfl := Option.some.inj h
    exact counted_turn rfl rfl
  · rw [stepWorker] at h
    dsimp only at h
    rcases fault with _ | text
    · dsimp only at h
      split at h
      · obtain rfl := Option.some.inj h
        exact counted_turn rfl rfl
      · obtain rfl := Option.some.inj h
        exact counted_turn rfl rfl
    · obtain rfl := Option.some.inj h
      exact counted_turn rfl rfl
  · obtain rfl := Option.some.inj h
    rcases fault with _ | text
    · exact counted_turn rfl rfl
    · exact counted_turn rfl rfl
  · obtain rfl := Option.some.inj h
    exact counted_turn rfl rfl
  · obtain rfl := Option.some.inj h
    rcases fault with _ | text
    · exact counted_turn rfl rfl
    · exact counted_turn rfl rfl
  · obtain rfl := Option.some.inj h
    exact ⟨rfl, Nat.sub_add_cancel hactive, .inl (Nat.zero_le _)⟩

/-! ## Runs -/

/-- The number of active downloads is right, and the load is within the limit. -/
structure Limited (s : NodeRuntime) : Prop where
  active : s.activeDownloads = s.workers
  load : s.load ≤ s.config.maxConcurrentTransfers

namespace Limited

variable {i : ℕ} {θ : Thread}

/-- No download ends that is not counted. -/
theorem active_pos (h : s.Limited) {worker : DownloadWorker}
    (hi : s.threads[i]? = some (.worker worker)) : 0 < s.activeDownloads := by
  rw [h.active, workers, List.countP_pos_iff]
  exact ⟨_, List.mem_iff_getElem?.mpr ⟨i, hi⟩, rfl⟩

theorem move {move : Move} (h : s.Limited) (hi : s.threads[i]? = some θ)
    (hmove : move.Counted s θ)
    (hcheck : s.checks i → s.activeDownloads < s.config.maxConcurrentTransfers →
      s.load < s.config.maxConcurrentTransfers) : (s.move i move).Limited := by
  have hworkers : (s.move i move).workers + (if θ.isWorker then 1 else 0) =
      s.workers + (if move.thread.isWorker then 1 else 0) +
        move.started.toList.countP Thread.isWorker := by
    have hset := countP_set (b := move.thread) Thread.isWorker hi
    rw [workers, workers, NodeRuntime.move, List.countP_append]
    omega
  have hload : (s.move i move).load + θ.load =
      s.load + (move.thread.load + (move.started.toList.map Thread.load).sum) := by
    have hset := sum_map_set (b := move.thread) Thread.load hi
    rw [NodeRuntime.load, NodeRuntime.load, NodeRuntime.move, List.map_append, List.sum_append]
    omega
  constructor
  · have hactive := hmove.active
    have hs := h.active
    change move.runtime.activeDownloads = _
    omega
  · have hs := h.load
    change _ ≤ move.runtime.config.maxConcurrentTransfers
    rw [hmove.config]
    rcases hmove.load with hle | ⟨⟨task, rfl, htask⟩, hbelow, hle⟩
    · omega
    · have hroom := hcheck (by rw [checks, hi]; exact htask) hbelow
      omega

/-- A request that has just been received is not admitted. -/
theorem enqueue (h : s.Limited) {task : Task} (hfirst : task.isFirst)
    (hconfig : t.config = s.config) (hactive : t.activeDownloads = s.activeDownloads)
    (hthreads : t.threads = s.threads ++ [.request task]) : t.Limited := by
  have hadmitted : task.admitted = 0 := by
    rcases task <;> first | rfl | cases hfirst
  constructor
  · rw [hactive, h.active, workers, workers, hthreads, List.countP_append]
    rfl
  · rw [hconfig, NodeRuntime.load, hthreads, List.map_append, List.sum_append]
    refine le_trans (le_of_eq ?_) h.load
    change s.load + (task.admitted + 0) = s.load
    rw [hadmitted]
    rfl

theorem congr (h : s.Limited) (hconfig : t.config = s.config)
    (hactive : t.activeDownloads = s.activeDownloads) (hthreads : t.threads = s.threads) :
    t.Limited := by
  constructor
  · rw [hactive, h.active, workers, workers, hthreads]
  · rw [hconfig, NodeRuntime.load, hthreads]
    exact h.load

end Limited

/-- The load of a node that has just been started is that of its recovery. -/
theorem limited_recover {config : NodeConfig} {sharing : Sharing} {transfers : Transfers}
    (h : config.bootstrap.isSome →
      transfers.recoverableTransfers.2.length ≤ config.maxConcurrentTransfers) :
    (recover config sharing transfers).Limited := by
  rw [recover]
  rcases hbootstrap : config.bootstrap with _ | bootstrap
  · exact ⟨rfl, Nat.zero_le _⟩
  rw [hbootstrap] at h
  rcases hlist : transfers.recoverableTransfers with ⟨marked, _ | ⟨transfer, rest⟩⟩
  · exact ⟨rfl, Nat.zero_le _⟩
  · rw [hlist] at h
    refine ⟨rfl, le_trans (le_of_eq ?_) (h rfl)⟩
    change (rest.map TransferRecord.id).length + 1 + 0 = rest.length + 1
    rw [List.length_map]

end NodeRuntime

namespace Node

open NodeRuntime

variable {b : Backend} {s t : NodeRuntime} {a : NodeAction}

/-- A request that finds fewer active downloads than the limit finds less load, and no more
transfers are recovered than the limit allows. -/
def Unburdened : Node → NodeAction → Prop
  | .up s, .advance i _ => s.checks i → s.activeDownloads < s.config.maxConcurrentTransfers →
    s.load < s.config.maxConcurrentTransfers
  | .down _ transfers, .create config => config.bootstrap.isSome →
    transfers.recoverableTransfers.2.length ≤ config.maxConcurrentTransfers
  | _, _ => True

instance decidableUnburdened : (node : Node) → (a : NodeAction) → Decidable (Unburdened node a)
  | .up s, .advance i _ => inferInstanceAs (Decidable (s.checks i → _ < _ → _ < _))
  | .down _ _, .create config => inferInstanceAs (Decidable (config.bootstrap.isSome → _ ≤ _))
  | .up _, .call _ | .up _, .fetched .. | .up _, .progress .. | .up _, .content _ | .up _, .stop
  | .up _, .exit | .up _, .create _ | .down .., .call _ | .down .., .advance ..
  | .down .., .fetched .. | .down .., .progress .. | .down .., .content _ | .down .., .stop
  | .down .., .exit => .isTrue trivial

theorem limited_of_next (hs : s.Limited) (ha : Unburdened (.up s) a)
    (h : next b (.up s) a = some (.up t)) : t.Limited := by
  cases next_cases h with
  | @task i fault task hi => exact hs.move hi (counted_stepTask task) ha
  | worker hi hmove => exact hs.move hi (counted_stepWorker (hs.active_pos hi) hmove) ha
  | fetched hi hphase =>
    refine hs.move hi (counted_turn rfl rfl) fun hcheck ↦ ?_
    rw [checks, hi] at hcheck
    cases hcheck
  | received hfirst hserving => exact hs.enqueue hfirst rfl rfl rfl
  | progressed => exact hs.congr rfl rfl rfl
  | elsewhere => exact hs.congr rfl rfl rfl

/-- **The limit holds** in every run in which no request passes its check while the load is at the
limit and no more transfers are recovered than the limit allows. -/
theorem workers_le_limit (hrun : Relation.ReflTransGen (StepIf b Unburdened) new (.up s)) :
    s.workers ≤ s.config.maxConcurrentTransfers := by
  have hlimited : s.Limited := holds_of_run (J := fun _ ↦ True) trivial (fun _ _ _ ↦ trivial)
    (fun _ _ _ _ _ hcreate _ ↦ limited_recover hcreate)
    (fun _ _ _ hs ha hnext ↦ limited_of_next hs ha hnext) hrun
  exact s.workers_le_load.trans hlimited.load

/-! ### Two downloads -/

/-- A request for another content. -/
def secondFetch : NodeAction := .call (.startFetch ⟨List.Vector.replicate 32 7⟩ false)

/-- The second download is started after the first one, and both are recovered after a restart; the
recovery is thread 0. -/
def recoveredActions (config : NodeConfig) : List NodeAction :=
  startActions ++ [secondFetch] ++ steps 2 8 ++ [.exit, .create config] ++ steps 0 8

/-- Two downloads are requested by threads 0 and 1, and both look at the limit before either goes
on. -/
def overlappingActions (config : NodeConfig) : List NodeAction :=
  [.create config, .call (.startFetch ⟨Vectors.payloadDigest⟩ true), secondFetch] ++ steps 0 2 ++
    steps 1 2 ++ steps 0 6 ++ steps 1 6

/-- A configuration that allows one download at a time. -/
def singleConfig : NodeConfig := { sampleConfig with maxConcurrentTransfers := 1 }

/-- Where two downloads are allowed, two are recovered. -/
theorem recovered_workers_le_limit :
    ∃ s, Relation.ReflTransGen (StepIf sampleBackend Unburdened) new (.up s) ∧ s.workers = 2 ∧
      s.workers ≤ s.config.maxConcurrentTransfers := by
  have hrun : ((run (restrict Unburdened (next sampleBackend)) new
      (recoveredActions sampleConfig)).bind runtime?).any fun s ↦ s.workers = 2 := by
    decide +kernel
  obtain ⟨s, hs, hworkers⟩ := exists_runtime hrun
  have hrun := reflTransGen_of_run_restrict hs
  exact ⟨s, hrun, of_decide_eq_true hworkers, workers_le_limit hrun⟩

/-- Two workers where one is allowed: by requests that overlap, and by a restart with a lower
limit. -/
theorem workers_exceed_limit :
    ((run (next sampleBackend) new (overlappingActions singleConfig)).bind runtime?).map
        (fun s ↦ (s.workers, s.config.maxConcurrentTransfers)) = some (2, 1) ∧
      ((run (next sampleBackend) new (recoveredActions singleConfig)).bind runtime?).map
        (fun s ↦ (s.workers, s.config.maxConcurrentTransfers)) = some (2, 1) := by
  decide +kernel

end Node

end TripTorrent

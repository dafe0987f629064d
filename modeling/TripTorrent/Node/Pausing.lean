import TripTorrent.Node.Control
import TripTorrent.Node.Orderly

/-!
# Accepted pauses

After `pause_transfer` has returned, no worker should be started for the transfer until it is
resumed. A worker is started by a request that has created or resumed the transfer, or by the
recovery. While a node is up, the pause alone is enough: a transfer with a control that is entered
is not being started any more, except by a request that has entered the control and not started its
worker yet, and there is no recovery once pauses are accepted.

A restart goes by the rows. The pause has written `pausing`, and it is the worker that writes
`paused` when it has come to its end; if the node exits before that, or the worker has been
interrupted by a shutdown in the meantime, the row is one that is recovered.
-/

namespace TripTorrent

open Std (ExtTreeMap)
open Transition

namespace Thread

variable {θ : Thread} {id : ℕ}

/-- The transfer whose control a `start_fetch` has entered and whose worker it has not started. -/
def launching : Thread → Option ℕ
  | .request (.launch ⟨.startFetch, transfer, _⟩ _) => some transfer.id
  | _ => none

/-- A transfer for which a worker may be started unasked is being started, or to be recovered. -/
theorem mem_unasked_cases (h : id ∈ θ.unasked) :
    θ.starting = some id ∨ θ.launching = some id ∨ θ.isRecovery := by
  rcases θ with task | result | worker | _
  · rcases task with _ | _ | _ | k | ⟨caller, transfer⟩ | ⟨caller, transfer, contentId⟩ |
      ⟨caller, transfer, contentId⟩ | ⟨⟨caller, transfer, contentId⟩, control⟩ | _ | _ | _ | _ | _ |
      _ | _
    · cases h
    · cases h
    · cases h
    · obtain rfl := List.mem_singleton.mp h
      exact .inl rfl
    · rcases caller with _ | _ | rest
      · obtain rfl := List.mem_singleton.mp h
        exact .inl rfl
      · cases h
      · exact .inr (.inr rfl)
    · rcases caller with _ | _ | rest
      · obtain rfl := List.mem_singleton.mp h
        exact .inl rfl
      · cases h
      · exact .inr (.inr rfl)
    · rcases caller with _ | _ | rest
      · obtain rfl := List.mem_singleton.mp h
        exact .inl rfl
      · cases h
      · exact .inr (.inr rfl)
    · rcases caller with _ | _ | rest
      · obtain rfl := List.mem_singleton.mp h
        exact .inr (.inl rfl)
      · cases h
      · exact .inr (.inr rfl)
    all_goals cases h
  · cases h
  · cases h
  · cases h

/-- Only a resume starts a worker that has been asked for. -/
theorem caller_of_notMem_unasked {download : Download} {control : ℕ}
    (h : download.transfer.id ∉ (Thread.request (.launch download control)).unasked) :
    download.caller = .resumeTransfer := by
  obtain ⟨caller, transfer, contentId⟩ := download
  rcases caller with _ | _ | rest
  · exact absurd List.mem_cons_self h
  · rfl
  · exact absurd List.mem_cons_self h

end Thread

namespace NodeRuntime

variable {s t : NodeRuntime} {id : ℕ}

/-- No thread starts a worker for the transfer unasked. -/
structure Resting (id : ℕ) (s : NodeRuntime) : Prop where
  orderly : s.Orderly
  le_lastId : id ≤ s.transfers.lastId
  unasked : ∀ θ ∈ s.threads, id ∉ θ.unasked

/-- No effect adds to what is started unasked but that of creating a transfer. -/
theorem unasked_of_effect {θ θ' : Thread} {new : Option Thread} (heffect : Effect s t θ θ' new)
    (hle : id ≤ s.transfers.lastId) (hid : id ∈ θ'.unasked ∨ ∃ c, new = some c ∧ id ∈ c.unasked) :
    id ∈ θ.unasked := by
  have hnone {P : Prop} (h : ∃ c, (none : Option Thread) = some c ∧ id ∈ c.unasked) : P := by
    obtain ⟨c, hc, -⟩ := h
    cases hc
  cases heffect with
  | quiet _ _ _ hfollows => exact hid.elim (fun h ↦ hfollows.unasked h) hnone
  | created hcreate =>
    refine hid.elim (fun h ↦ ?_) hnone
    obtain ⟨-, rfl, -⟩ := Transfers.createTransfer_eq_some_iff.mp hcreate
    obtain rfl := List.mem_singleton.mp h
    exact absurd hle (Nat.not_succ_le_self _)
  | resumed => exact hid.elim (fun h ↦ by cases h) hnone
  | @updated download =>
    obtain ⟨caller, transfer, contentId⟩ := download
    refine hid.elim (fun h ↦ ?_) hnone
    rcases caller <;> exact h
  | @inserted download =>
    obtain ⟨caller, transfer, contentId⟩ := download
    refine hid.elim (fun h ↦ ?_) hnone
    rcases caller <;> exact h
  | replaced => exact hid.elim (fun h ↦ by cases h) hnone
  | launched =>
    rcases hid with h | ⟨c, hc, h⟩
    · cases h
    · obtain rfl := Option.some.inj hc
      cases h
  | recovered =>
    rcases hid with h | ⟨c, hc, h⟩
    · exact List.mem_cons_of_mem _ h
    · obtain rfl := Option.some.inj hc
      cases h
  | paused => exact hid.elim (fun h ↦ by cases h) hnone
  | marked => exact hid.elim (fun h ↦ by cases h) hnone
  | removed => exact hid.elim (fun h ↦ by cases h) hnone
  | settled => exact hid.elim (fun h ↦ by cases h) hnone

namespace Resting

theorem change (h : s.Resting id) {a : NodeAction} (hchange : Change s a t) : t.Resting id := by
  refine ⟨h.orderly.change hchange, ?_, fun c hc hid ↦ ?_⟩
  · cases hchange with
    | stepped _ _ heffect _ => exact h.le_lastId.trans (h.orderly.keeps heffect).lastId_le
    | enqueued _ _ htransfers => exact htransfers ▸ h.le_lastId
    | progressed htransfers =>
      rw [htransfers, ← Transfers.evolves_updateProgress.1]
      exact h.le_lastId
    | elsewhere htransfers => exact htransfers ▸ h.le_lastId
  · cases hchange with
    | @stepped i θ θ' new _ hi heffect hthreads =>
      have hmine (hid : id ∈ θ'.unasked ∨ ∃ c, new = some c ∧ id ∈ c.unasked) : False :=
        h.unasked θ (List.mem_iff_getElem?.mpr ⟨i, hi⟩) (unasked_of_effect heffect h.le_lastId hid)
      rw [hthreads] at hc
      rcases mem_threads_cases hc with rfl | hc | hc
      · exact hmine (.inl hid)
      · exact h.unasked c hc hid
      · exact hmine (.inr ⟨c, hc, hid⟩)
    | enqueued hfirst _ _ _ hthreads =>
      rw [hthreads, List.mem_append, List.mem_singleton] at hc
      rcases hc with hc | rfl
      · exact h.unasked c hc hid
      · rw [(Thread.first hfirst).2.1] at hid
        cases hid
    | progressed _ _ _ hthreads => exact h.unasked c (hthreads ▸ hc) hid
    | elsewhere _ _ _ hthreads => exact h.unasked c (hthreads ▸ hc) hid

end Resting

/-- The row does not make the recovery start a worker. -/
def Unrecoverable (id : ℕ) (transfers : Transfers) : Prop :=
  ∀ row, transfers.rows[id]? = some row →
    row.status = .paused ∨ row.status = .completed ∨ row.status = .failed

theorem resting_recover {transfers : Transfers} (hnumbered : transfers.Numbered)
    (hle : id ≤ transfers.lastId) (h : Unrecoverable id transfers) (config : NodeConfig)
    (sharing : Sharing) : (recover config sharing transfers).Resting id := by
  obtain ⟨htransfers, -, hthreads⟩ := recover_cases config sharing transfers
  refine ⟨orderly_recover hnumbered config sharing, htransfers ▸ hle, fun c hc hid ↦ ?_⟩
  rcases hthreads with hnil | ⟨transfer, rest, hlist, -, hone⟩
  · rw [hnil] at hc
    cases hc
  rw [hone] at hc
  obtain rfl := List.mem_singleton.mp hc
  obtain ⟨row, hrow, hrowid⟩ :=
    List.mem_map.mp (show id ∈ (transfer :: rest).map TransferRecord.id from hid)
  rw [← hlist] at hrow
  obtain ⟨k, hk, hinterrupted⟩ := Transfers.mem_recoverableTransfers.mp hrow
  obtain rfl : id = k :=
    hrowid.symm.trans ((hnumbered.evolve Transfers.evolves_markRunningInterrupted).id_eq k row hk)
  rw [Transfers.getElem?_markRunningInterrupted] at hk
  obtain ⟨old, hold, rfl⟩ := Option.map_eq_some_iff.mp hk
  rw [TransferRecord.interrupt] at hinterrupted
  rcases h old hold with hstatus | hstatus | hstatus <;>
    · rw [hstatus] at hinterrupted
      cases hstatus.symm.trans hinterrupted

/-- A pause is accepted only where a control is entered. -/
theorem entered_of_pauseControl {fault : Option String} {reply : NodeReply}
    (h : (s.stepTask fault (.pauseControl id)).thread = .finished (.ok reply)) :
    ∃ control, s.downloads[id]? = some control := by
  rw [stepTask] at h
  rcases hentered : s.downloads[id]? with _ | control
  · rw [hentered] at h
    cases h
  · exact ⟨control, rfl⟩

/-- When a pause is accepted nobody starts a worker for the transfer, if no `start_fetch` is just
doing so. -/
theorem Orderly.notMem_unasked (h : s.Orderly) {i : ℕ} {control : ℕ}
    (hi : s.threads[i]? = some (.request (.pauseControl id)))
    (hentered : s.downloads[id]? = some control)
    (hlaunching : ∀ θ ∈ s.threads, θ.launching ≠ some id) :
    ∀ θ ∈ s.threads, id ∉ θ.unasked := by
  intro θ hθ hid
  rcases Thread.mem_unasked_cases hid with hstarting | hlaunch | hrecovery
  · cases (h.apart θ hθ id hstarting).symm.trans hentered
  · exact hlaunching θ hθ hlaunch
  · obtain ⟨j, hj⟩ := List.mem_iff_getElem?.mp hθ
    obtain rfl := h.alone j i θ _ hj hi hrecovery rfl
    obtain rfl := Option.some.inj (hi.symm.trans hj)
    cases hrecovery

end NodeRuntime

namespace Node

open NodeRuntime

variable {b : Backend} {s t u v : NodeRuntime} {id i : ℕ} {a : NodeAction}

/-- The transfer that an action starts a worker for, and who asked for it. -/
def starts : Node → NodeAction → Option (ℕ × Caller)
  | .down .., _ => none
  | .up s, a =>
    match a.moves.bind fun i ↦ s.threads[i]? with
    | some (.request (.launch download _)) => some (download.transfer.id, download.caller)
    | _ => none

/-- The node does not exit while the row of the transfer is one that will be recovered. -/
def SettledAtExit (id : ℕ) : Node → NodeAction → Prop
  | .up s, .exit => Unrecoverable id s.transfers
  | _, _ => True

instance decidableSettledAtExit (id : ℕ) :
    (node : Node) → (a : NodeAction) → Decidable (SettledAtExit id node a)
  | .up s, .exit =>
    match h : s.transfers.rows[id]? with
    | none => .isTrue fun row hrow ↦ by cases h.symm.trans hrow
    | some row => decidable_of_iff
        (row.status = .paused ∨ row.status = .completed ∨ row.status = .failed)
        ⟨fun hstatus row' hrow ↦ Option.some.inj (h.symm.trans hrow) ▸ hstatus,
          fun hall ↦ hall row h⟩
  | .up _, .call _ | .up _, .advance .. | .up _, .fetched .. | .up _, .progress ..
  | .up _, .content _ | .up _, .stop | .up _, .create _ | .down .., _ => .isTrue trivial

/-- A thread that a step adds and that is a worker is the one the step is said to start. -/
theorem starts_of_worker (hs : s.transfers.Numbered) (h : next b (.up s) a = some (.up t))
    {worker : DownloadWorker} (hworker : t.threads[s.threads.length]? = some (.worker worker)) :
    ∃ (i : ℕ) (download : Download) (control : ℕ),
      s.threads[i]? = some (.request (.launch download control)) ∧
      download.transfer.id = worker.transfer.id ∧
      (Node.up s).starts a = some (download.transfer.id, download.caller) := by
  have hlen : s.threads[s.threads.length]? = none := List.getElem?_eq_none le_rfl
  cases change_of_next hs h with
  | @stepped i θ θ' new ha hi heffect hthreads =>
    rw [hthreads] at hworker
    rcases thread_cases hworker with ⟨rfl, -⟩ | ⟨-, hold⟩ | ⟨-, hnew⟩
    · cases hlen.symm.trans hi
    · cases hlen.symm.trans hold
    · have hstarts (download : Download) (control : ℕ)
          (hθ : s.threads[i]? = some (.request (.launch download control))) :
          (Node.up s).starts a = some (download.transfer.id, download.caller) := by
        rw [starts, ha, Option.bind_some, hθ]
      cases heffect with
      | launched => cases hnew; exact ⟨i, _, _, hi, rfl, hstarts _ _ hi⟩
      | recovered => cases hnew; exact ⟨i, _, _, hi, rfl, hstarts _ _ hi⟩
      | _ => cases hnew
  | enqueued _ _ _ _ hthreads =>
    rw [hthreads, List.getElem?_append_right le_rfl, Nat.sub_self] at hworker
    cases hworker
  | progressed _ _ _ hthreads => cases hlen.symm.trans (hthreads ▸ hworker)
  | elsewhere _ _ _ hthreads => cases hlen.symm.trans (hthreads ▸ hworker)

/-- **An accepted pause is durable**, if no `start_fetch` is just starting the worker when it is
accepted and the node does not exit while the row still says running, pausing or interrupted: as
long as the transfer has not been resumed, the next worker started for it is started by a resume. -/
theorem pause_durable (hrun : Relation.ReflTransGen (Step (next b)) new (.up s))
    (hi : s.threads[i]? = some (.request (.pauseControl id))) {fault : Option String}
    (hpause : next b (.up s) (.advance i fault) = some (.up t))
    (haccepted : t.threads[i]? = some (.finished (.ok .done)))
    (hlaunching : ∀ θ ∈ s.threads, θ.launching ≠ some id)
    (hlater : Relation.ReflTransGen
      (StepIf b fun node a ↦ node.starts a ≠ some (id, .resumeTransfer) ∧ SettledAtExit id node a)
      (.up t) (.up u))
    (hnext : next b (.up u) a = some (.up v)) {worker : DownloadWorker}
    (hworker : v.threads[u.threads.length]? = some (.worker worker))
    (hid : worker.transfer.id = id) :
    (Node.up u).starts a = some (id, .resumeTransfer) := by
  have hs : s.Orderly := orderly_of_run hrun
  have hrest : t.Resting id := by
    have hmove : t = s.move i (s.stepTask fault (.pauseControl id)) := by
      obtain ⟨t', ht', hup⟩ := Option.map_eq_some_iff.mp hpause
      rw [NodeRuntime.advance, hi] at ht'
      rw [← Node.up.inj hup, ← Option.some.inj ht']
    have hthread : (s.stepTask fault (.pauseControl id)).thread = .finished (.ok .done) := by
      rw [hmove, NodeRuntime.move, getElem?_advance_self hi] at haccepted
      exact Option.some.inj haccepted
    obtain ⟨control, hentered⟩ := entered_of_pauseControl hthread
    exact Resting.change ⟨hs, hs.entered id control hentered,
      hs.notMem_unasked hi hentered hlaunching⟩ (change_of_next hs.numbered hpause)
  have hresting : u.Resting id := holds_of_steps
    (J := fun transfers ↦ transfers.Numbered ∧ id ≤ transfers.lastId ∧ Unrecoverable id transfers)
    (fun s hs hexit ↦ ⟨hs.orderly.numbered, hs.le_lastId, hexit.2⟩)
    (fun _ config sharing _ h _ _ ↦ resting_recover h.1 h.2.1 h.2.2 config sharing)
    (fun s a t hs _ h ↦ hs.change (change_of_next hs.orderly.numbered h))
    (show Node.Holds _ (Resting id) (.up t) from hrest) hlater
  obtain ⟨j, download, control, hj, hdownload, hstarts⟩ :=
    starts_of_worker hresting.orderly.numbered hnext hworker
  have hdownload := hdownload.trans hid
  have hcaller : download.caller = .resumeTransfer := Thread.caller_of_notMem_unasked
    (hdownload ▸ hresting.unasked _ (List.mem_iff_getElem?.mpr ⟨j, hj⟩))
  rw [hstarts, hdownload, hcaller]

/-! ### A pause and a restart -/

/-- A request to pause the download has reached the section under the lock; it is thread 2. -/
def pausingActions : List NodeAction := startActions ++ [.call (.pauseTransfer 1)] ++ steps 2 1

/-- The worker comes to its end, and the node is restarted. -/
def restartActions : List NodeAction :=
  [.fetched 1 (.error "download paused")] ++ steps 1 4 ++ [.exit, .create sampleConfig]

/-- The first request after the restart resumes the transfer, up to starting its worker. -/
def resumedActions : List NodeAction := [.call (.resumeTransfer 1)] ++ steps 0 5

/-- The condition under which a run goes on after the pause of transfer 1. -/
def Later (node : Node) (a : NodeAction) : Prop :=
  node.starts a ≠ some (1, .resumeTransfer) ∧ SettledAtExit 1 node a

instance decidableLater (node : Node) (a : NodeAction) : Decidable (Later node a) :=
  inferInstanceAs (Decidable (_ ∧ _))

/-- The transfer a thread works on. -/
def workerOn? : Thread → Option ℕ
  | .worker worker => some worker.transfer.id
  | _ => none

theorem workerOn?_eq_some_iff {θ : Thread} :
    workerOn? θ = some id ↔ ∃ worker, θ = .worker worker ∧ worker.transfer.id = id := by
  constructor
  · intro h
    rcases θ with task | result | worker | _
    · cases h
    · cases h
    · exact ⟨worker, rfl, Option.some.inj h⟩
    · cases h
  · rintro ⟨worker, rfl, rfl⟩
    rfl

/-- A download that has been paused and resumed after a restart: its second worker is started by
the resume. -/
theorem paused_then_resumed :
    ∃ s t u v worker, Relation.ReflTransGen (Step (next sampleBackend)) new (.up s) ∧
      next sampleBackend (.up s) (.advance 2 none) = some (.up t) ∧
      t.threads[2]? = some (.finished (.ok .done)) ∧
      Relation.ReflTransGen (StepIf sampleBackend Later) (.up t) (.up u) ∧
      next sampleBackend (.up u) (.advance 0 none) = some (.up v) ∧
      v.threads[u.threads.length]? = some (.worker worker) ∧ worker.transfer.id = 1 ∧
      (Node.up u).starts (.advance 0 none) = some (1, .resumeTransfer) := by
  have hall : ((run (next sampleBackend) new pausingActions).bind runtime?).any (fun s ↦
      s.threads[2]? = some (.request (.pauseControl 1)) ∧
      (∀ θ ∈ s.threads, θ.launching ≠ some 1) ∧
      ((next sampleBackend (.up s) (.advance 2 none)).bind runtime?).any fun t ↦
        t.threads[2]? = some (.finished (.ok .done)) ∧
        ((run (restrict Later (next sampleBackend)) (.up t)
            (restartActions ++ resumedActions)).bind runtime?).any fun u ↦
          ((next sampleBackend (.up u) (.advance 0 none)).bind runtime?).any fun v ↦
            v.threads[u.threads.length]?.bind workerOn? = some 1) := by
    decide +kernel
  obtain ⟨s, hs, hobserved⟩ := exists_runtime hall
  obtain ⟨hi, hlaunching, hstep⟩ := of_decide_eq_true hobserved
  obtain ⟨t, ht, hobserved⟩ := exists_runtime hstep
  obtain ⟨haccepted, hstep⟩ := of_decide_eq_true hobserved
  obtain ⟨u, hu, hstep⟩ := exists_runtime hstep
  obtain ⟨v, hv, hobserved⟩ := exists_runtime hstep
  obtain ⟨θ, hθ, hon⟩ := Option.bind_eq_some_iff.mp (of_decide_eq_true hobserved)
  obtain ⟨worker, rfl, hid⟩ := workerOn?_eq_some_iff.mp hon
  have hrun := reflTransGen_of_run hs
  have hlater := reflTransGen_of_run_restrict hu
  exact ⟨s, t, u, v, worker, hrun, ht, haccepted, hlater, hv, hθ, hid,
    pause_durable hrun hi ht haccepted hlaunching hlater hv hθ hid⟩

/-- The pause has been accepted. -/
def pausedActions : List NodeAction := pausingActions ++ steps 2 1

/-- The node exits and is started again; the recovery is thread 0. -/
def recoveryActions : List NodeAction := [.exit, .create sampleConfig] ++ steps 0 4

/-- The node is shut down by thread 3, and the worker comes to its end. -/
def shutdownActions : List NodeAction :=
  [.call .shutdown, .stop] ++ steps 3 3 ++ [.fetched 1 (.error "download interrupted")] ++ steps 1 4

/-- The pause is accepted, in thread 1, when the worker has not been started yet. -/
def earlyPauseActions : List NodeAction :=
  [.create sampleConfig, .call (.startFetch ⟨Vectors.payloadDigest⟩ true)] ++ steps 0 7 ++
    [.call (.pauseTransfer 1)] ++ steps 1 2

/-- Three runs in which a worker is started for transfer 1 after its pause has been accepted and
without a resume: the node exits before the worker has written `paused`; it is shut down, and the
worker writes `interrupted`; the pause is accepted just before the first worker is started. -/
theorem paused_then_started :
    ((run (next sampleBackend) new pausedActions).bind runtime?).bind (fun s ↦ s.threads[2]?) =
        some (.finished (.ok .done)) ∧
      ((run (next sampleBackend) new (pausedActions ++ recoveryActions)).bind runtime?).bind
        (fun s ↦ s.threads[1]?.bind fetching?) = some (1, 0) ∧
      ((run (next sampleBackend) new (pausedActions ++ shutdownActions ++ recoveryActions)).bind
        runtime?).bind (fun s ↦ s.threads[1]?.bind fetching?) = some (1, 0) ∧
      ((run (next sampleBackend) new earlyPauseActions).bind runtime?).map
        (fun s ↦ (s.threads[1]?, s.threads.length)) = some (some (.finished (.ok .done)), 2) ∧
      ((run (next sampleBackend) new (earlyPauseActions ++ steps 0 1)).bind runtime?).bind
        (fun s ↦ s.threads[2]?.bind fetching?) = some (1, 0) := by
  decide +kernel

end Node

end TripTorrent

import TripTorrent.Node.Runtime
import TripTorrent.Transition.Threads

/-!
# What the threads of a node can do

A thread has a claim to a transfer while it may still start a worker for it or write its row: a
request from the moment the row has been created or found paused, the recovery for all transfers it
still has to resume, a worker until it has recorded how the download ended. The entry of a thread is
the control in `downloads` that is its own.

`Effect` lists what a step can do to the transfer table, to `downloads` and to the claims. Most
steps do nothing to them but give up claims; the invariants of the node are proved from this list,
and the code is only looked at here.
-/

namespace TripTorrent

open Std (ExtTreeMap)
open scoped List

/-! ## Claims and entries -/

/-- The transfers still to be resumed after the present one. -/
def Caller.rest : Caller → List ℕ
  | .recovery rest => rest.map TransferRecord.id
  | .startFetch | .resumeTransfer => []

namespace Task

def claims : Task → List ℕ
  | .getTransfer id => [id]
  | .createDirAll caller transfer => transfer.id :: caller.rest
  | .updateTransfer download | .insertControl download | .launch download _ =>
    download.transfer.id :: download.caller.rest
  | _ => []

def entry : Task → Option (ℕ × ℕ)
  | .launch download control => some (download.transfer.id, control)
  | _ => none

/-- The transfer that is being resumed and whose row still says paused. -/
def resuming : Task → Option ℕ
  | .createDirAll .resumeTransfer transfer => some transfer.id
  | .updateTransfer ⟨.resumeTransfer, transfer, _⟩ => some transfer.id
  | _ => none

/-- The transfer that has been created by this request and is not entered yet. -/
def starting : Task → Option ℕ
  | .getTransfer id => some id
  | .createDirAll .startFetch transfer => some transfer.id
  | .updateTransfer ⟨.startFetch, transfer, _⟩ | .insertControl ⟨.startFetch, transfer, _⟩ =>
    some transfer.id
  | _ => none

/-- The transfers a worker may be started for without being resumed on request. -/
def unasked : Task → List ℕ
  | .getTransfer id => [id]
  | .createDirAll .resumeTransfer _ | .updateTransfer ⟨.resumeTransfer, _, _⟩
  | .insertControl ⟨.resumeTransfer, _, _⟩ | .launch ⟨.resumeTransfer, _, _⟩ _ => []
  | .createDirAll caller transfer => transfer.id :: caller.rest
  | .updateTransfer download | .insertControl download | .launch download _ =>
    download.transfer.id :: download.caller.rest
  | _ => []

/-- The task belongs to the recovery. -/
def isRecovery : Task → Bool
  | .createDirAll (.recovery _) _ | .updateTransfer ⟨.recovery _, _, _⟩
  | .insertControl ⟨.recovery _, _, _⟩ | .launch ⟨.recovery _, _, _⟩ _ => true
  | _ => false

end Task

namespace DownloadWorker

def claims (worker : DownloadWorker) : List ℕ :=
  match worker.phase with
  | .fetching | .returned _ | .removed _ | .completing .. | .settling .. => [worker.transfer.id]
  | .sharing _ | .leaving => []

def entry (worker : DownloadWorker) : Option (ℕ × ℕ) :=
  match worker.phase with
  | .fetching | .returned _ => some (worker.transfer.id, worker.control)
  | _ => none

end DownloadWorker

namespace Thread

def claims : Thread → List ℕ
  | .request task => task.claims
  | .worker w => w.claims
  | .finished _ | .exited => []

def entry : Thread → Option (ℕ × ℕ)
  | .request task => task.entry
  | .worker w => w.entry
  | .finished _ | .exited => none

def resuming : Thread → Option ℕ
  | .request task => task.resuming
  | _ => none

def starting : Thread → Option ℕ
  | .request task => task.starting
  | _ => none

def unasked : Thread → List ℕ
  | .request task => task.unasked
  | _ => []

def isRequest : Thread → Bool
  | .request _ => true
  | _ => false

def isRecovery : Thread → Bool
  | .request task => task.isRecovery
  | _ => false

/-- The thread has come to its end. -/
def isOver : Thread → Bool
  | .finished _ | .exited => true
  | .request _ | .worker _ => false

/-- The second thread is the first one later on, with no claims but those of the first. -/
structure Follows (θ θ' : Thread) : Prop where
  claims : θ'.claims <+ θ.claims
  entry : θ'.entry = θ.entry
  resuming : ∀ id ∈ θ'.claims, θ.resuming = some id → θ'.resuming = some id
  starting : ∀ id, θ'.starting = some id → θ.starting = some id
  unasked : θ'.unasked ⊆ θ.unasked
  isRecovery : θ'.isRecovery → θ.isRecovery
  isRequest : θ'.isRequest → θ.isRequest

theorem follows_over {θ θ' : Thread} (h : θ.entry = none) (hover : θ'.isOver) : Follows θ θ' := by
  rcases θ' with task | result | w | _
  · cases hover
  · exact ⟨List.nil_sublist _, h.symm, nofun, nofun, List.nil_subset _, nofun, nofun⟩
  · cases hover
  · exact ⟨List.nil_sublist _, h.symm, nofun, nofun, List.nil_subset _, nofun, nofun⟩

/-- A task that goes on to one with the same attributes. -/
theorem follows_request {task task' : Task} (hclaims : task'.claims = task.claims)
    (hentry : task'.entry = task.entry) (hresuming : task'.resuming = task.resuming)
    (hstarting : task'.starting = task.starting) (hunasked : task'.unasked = task.unasked)
    (hrecovery : task'.isRecovery = task.isRecovery) :
    Follows (.request task) (.request task') where
  claims := by rw [claims, claims, hclaims]
  entry := hentry
  resuming _ _ hr := hresuming.trans hr
  starting _ hs := hstarting.symm.trans hs
  unasked := by rw [unasked, unasked, hunasked]; exact List.Subset.refl _
  isRecovery hr := hrecovery.symm.trans hr
  isRequest _ := rfl

theorem follows_worker {worker : DownloadWorker} {phase : DownloadPhase}
    (hclaims : ({ worker with phase } : DownloadWorker).claims <+ worker.claims)
    (hentry : ({ worker with phase } : DownloadWorker).entry = worker.entry) :
    Follows (.worker worker) (.worker { worker with phase }) where
  claims := hclaims
  entry := hentry
  resuming id _ hr := by cases hr
  starting id hs := by cases hs
  unasked := List.Subset.refl _
  isRecovery hr := by cases hr
  isRequest hr := by cases hr

end Thread

/-! ## The effects of a step -/

/-- What a step of a thread can do to the table, to `downloads` and to the claims. -/
inductive Effect (s t : NodeRuntime) : Thread → Thread → Option Thread → Prop where
  /-- Nothing, except that claims are given up. -/
  | quiet {θ θ' : Thread} (htransfers : t.transfers = s.transfers)
      (hdownloads : t.downloads = s.downloads) (hserving : t.serving = s.serving)
      (hfollows : Thread.Follows θ θ') : Effect s t θ θ' none
  | created {contentId : ContentId} {share : Bool} {id : ℕ}
      (hcreate : s.transfers.createTransfer contentId.toString share = some (t.transfers, id))
      (hdownloads : t.downloads = s.downloads) (hserving : t.serving = s.serving) :
      Effect s t (.request (.createTransfer contentId share)) (.request (.getTransfer id)) none
  | resumed {id : ℕ} {transfer : TransferRecord} (hrow : s.transfers.rows[id]? = some transfer)
      (hid : transfer.id = id) (hpaused : transfer.status = .paused)
      (htransfers : t.transfers = s.transfers) (hdownloads : t.downloads = s.downloads)
      (hserving : t.serving = s.serving) :
      Effect s t (.request (.resumeStatus id))
        (.request (.createDirAll .resumeTransfer transfer)) none
  /-- A row is set to running by the request that has a claim to it. -/
  | updated {download : Download} {f : TransferRecord → TransferRecord}
      (hf : ∀ row, (f row).id = row.id ∧ (f row).contentId = row.contentId ∧
        (f row).status = .running)
      (htransfers : t.transfers = s.transfers.alter download.transfer.id f)
      (hdownloads : t.downloads = s.downloads) (hserving : t.serving = s.serving) :
      Effect s t (.request (.updateTransfer download)) (.request (.insertControl download)) none
  | inserted {download : Download} {control : ℕ}
      (hfree : s.downloads[download.transfer.id]? = none)
      (htransfers : t.transfers = s.transfers)
      (hdownloads : t.downloads = s.downloads.insert download.transfer.id control)
      (hserving : t.serving = s.serving) :
      Effect s t (.request (.insertControl download)) (.request (.launch download control)) none
  /-- A control is replaced that belongs to somebody else. -/
  | replaced {download : Download} {control old : ℕ} {error : NodeError}
      (hold : s.downloads[download.transfer.id]? = some old)
      (htransfers : t.transfers = s.transfers)
      (hdownloads : t.downloads = s.downloads.insert download.transfer.id control)
      (hserving : t.serving = s.serving) :
      Effect s t (.request (.insertControl download)) (.finished (.error error)) none
  /-- A worker is started, and the caller is done. -/
  | launched {download : Download} {control : ℕ} {reply : NodeReply}
      (htransfers : t.transfers = s.transfers) (hdownloads : t.downloads = s.downloads)
      (hlast : download.caller.rest = []) :
      Effect s t (.request (.launch download control)) (.finished (.ok reply))
        (some (.worker ⟨download.transfer, download.contentId, control, .fetching⟩))
  /-- A worker is started, and the recovery goes on. -/
  | recovered {transfer next : TransferRecord} {rest : List TransferRecord}
      {contentId : ContentId} {control : ℕ} (htransfers : t.transfers = s.transfers)
      (hdownloads : t.downloads = s.downloads) (hserving : t.serving = s.serving) :
      Effect s t (.request (.launch ⟨.recovery (next :: rest), transfer, contentId⟩ control))
        (.request (.createDirAll (.recovery rest) next))
        (some (.worker ⟨transfer, contentId, control, .fetching⟩))
  | paused {id control : ℕ} {reply : NodeReply} (hentered : s.downloads[id]? = some control)
      (htransfers : t.transfers = s.transfers.setTransferStatus id .pausing none)
      (hdownloads : t.downloads = s.downloads) (hserving : t.serving = s.serving) :
      Effect s t (.request (.pauseControl id)) (.finished (.ok reply)) none
  | marked {reply : NodeReply} (htransfers : t.transfers = s.transfers.markRunningInterrupted)
      (hdownloads : t.downloads = s.downloads) (hserving : t.serving = s.serving) :
      Effect s t (.request .markRunningInterrupted) (.finished (.ok reply)) none
  | removed {worker : DownloadWorker} {result : Except String PersistentFetchStats}
      (hphase : worker.phase = .returned result) (htransfers : t.transfers = s.transfers)
      (hdownloads : t.downloads = s.downloads.erase worker.transfer.id)
      (hserving : t.serving = s.serving) :
      Effect s t (.worker worker) (.worker { worker with phase := .removed result }) none
  /-- A worker records how its download ended, and gives up its claim. -/
  | settled {worker : DownloadWorker} {phase : DownloadPhase} {f : TransferRecord → TransferRecord}
      (hclaims : worker.claims = [worker.transfer.id]) (hentry : worker.entry = none)
      (hclaims' : ({ worker with phase } : DownloadWorker).claims = [])
      (hentry' : ({ worker with phase } : DownloadWorker).entry = none)
      (hf : ∀ row, (f row).id = row.id ∧ (f row).contentId = row.contentId)
      (htransfers : t.transfers = s.transfers.alter worker.transfer.id f)
      (hdownloads : t.downloads = s.downloads) (hserving : t.serving = s.serving) :
      Effect s t (.worker worker) (.worker { worker with phase }) none

/-- The threads do not matter. -/
theorem Effect.withThreads {s t : NodeRuntime} {θ θ' : Thread} {new : Option Thread}
    (h : Effect s t θ θ' new) (threads : List Thread) : Effect s { t with threads } θ θ' new := by
  rcases h with ⟨h₁, h₂, h₃, h₄⟩ | ⟨h₁, h₂, h₃⟩ | ⟨h₁, h₂, h₃, h₄, h₅, h₆⟩ | ⟨h₁, h₂, h₃, h₄⟩ |
    ⟨h₁, h₂, h₃, h₄⟩ | ⟨h₁, h₂, h₃, h₄⟩ | ⟨h₁, h₂, h₃⟩ | ⟨h₁, h₂, h₃⟩ | ⟨h₁, h₂, h₃, h₄⟩ |
    ⟨h₁, h₂, h₃⟩ | ⟨h₁, h₂, h₃, h₄⟩ | ⟨h₁, h₂, h₃, h₄, h₅, h₆, h₇, h₈⟩
  · exact .quiet h₁ h₂ h₃ h₄
  · exact .created h₁ h₂ h₃
  · exact .resumed h₁ h₂ h₃ h₄ h₅ h₆
  · exact .updated h₁ h₂ h₃ h₄
  · exact .inserted h₁ h₂ h₃ h₄
  · exact .replaced h₁ h₂ h₃ h₄
  · exact .launched h₁ h₂ h₃
  · exact .recovered h₁ h₂ h₃
  · exact .paused h₁ h₂ h₃ h₄
  · exact .marked h₁ h₂ h₃
  · exact .removed h₁ h₂ h₃ h₄
  · exact .settled h₁ h₂ h₃ h₄ h₅ h₆ h₇ h₈

/-- The effect of a move. -/
def Move.HasEffect (move : Move) (s : NodeRuntime) (θ : Thread) : Prop :=
  Effect s move.runtime θ move.thread move.started

namespace NodeRuntime

variable {b : Backend} {s : NodeRuntime} {fault : Option String}

theorem effect_refuse {task : Task} {t : NodeRuntime} (htransfers : t.transfers = s.transfers)
    (hdownloads : t.downloads = s.downloads) (hserving : t.serving = s.serving)
    (hentry : task.entry = none) (error : NodeError) :
    (t.refuse error).HasEffect s (.request task) :=
  .quiet htransfers hdownloads hserving (Thread.follows_over hentry rfl)

theorem effect_attempt {task : Task} {move : Move} (hentry : task.entry = none)
    (h : move.HasEffect s (.request task)) :
    (s.attempt fault move).HasEffect s (.request task) := by
  rcases fault with _ | text
  · exact h
  · exact effect_refuse rfl rfl rfl hentry _

theorem effect_underLimit {task : Task} {move : Move} (hentry : task.entry = none)
    (h : move.HasEffect s (.request task)) : (s.underLimit move).HasEffect s (.request task) := by
  rw [underLimit]
  split_ifs
  · exact effect_refuse rfl rfl rfl hentry _
  · exact h

theorem effect_goOn {task task' : Task} (h : Thread.Follows (.request task) (.request task')) :
    (s.goOn task').HasEffect s (.request task) :=
  .quiet rfl rfl rfl h

theorem effect_createDirAll (caller : Caller) (transfer : TransferRecord) :
    (s.stepTask fault (.createDirAll caller transfer)).HasEffect s
      (.request (.createDirAll caller transfer)) := by
  rw [stepTask]
  split_ifs
  · exact effect_refuse rfl rfl rfl rfl _
  split
  · exact effect_refuse rfl rfl rfl rfl _
  refine effect_attempt rfl (effect_goOn ?_)
  rcases caller with _ | _ | rest
  · exact Thread.follows_request rfl rfl rfl rfl rfl rfl
  · exact Thread.follows_request rfl rfl rfl rfl rfl rfl
  · exact Thread.follows_request rfl rfl rfl rfl rfl rfl

theorem effect_insertControl (download : Download) :
    (s.stepTask fault (.insertControl download)).HasEffect s
      (.request (.insertControl download)) := by
  rw [stepTask]
  rcases hold : s.downloads[download.transfer.id]? with _ | old
  · exact .inserted hold rfl rfl rfl
  · exact .replaced hold rfl rfl rfl

theorem effect_launch (download : Download) (control : ℕ) :
    (s.stepTask fault (.launch download control)).HasEffect s
      (.request (.launch download control)) := by
  obtain ⟨caller, transfer, contentId⟩ := download
  rcases caller with _ | _ | ⟨_ | ⟨next, rest⟩⟩
  · exact .launched rfl rfl rfl
  · exact .launched rfl rfl rfl
  · exact .launched rfl rfl rfl
  · exact .recovered rfl rfl rfl

theorem effect_pauseControl (id : ℕ) :
    (s.stepTask fault (.pauseControl id)).HasEffect s (.request (.pauseControl id)) := by
  rw [stepTask]
  rcases hentered : s.downloads[id]? with _ | control
  · exact effect_refuse rfl rfl rfl rfl _
  rcases fault with _ | text
  · exact .paused hentered rfl rfl rfl
  · exact .quiet rfl rfl rfl (Thread.follows_over rfl rfl)

/-- Every step of a request has one of the effects. -/
theorem effect_stepTask (h : s.transfers.Numbered) (task : Task) :
    (s.stepTask fault task).HasEffect s (.request task) := by
  rcases task with ⟨contentId, share⟩ | ⟨contentId, share⟩ | ⟨contentId, share⟩ | id |
    ⟨caller, transfer⟩ | download | download | ⟨download, control⟩ | id | id | id | id | _ | _ | _
  · rw [stepTask]
    split_ifs
    · exact effect_refuse rfl rfl rfl rfl _
    refine effect_attempt rfl ?_
    split
    · exact effect_refuse rfl rfl rfl rfl _
    · exact effect_refuse rfl rfl rfl rfl _
    · exact effect_goOn (Thread.follows_request rfl rfl rfl rfl rfl rfl)
  · exact effect_underLimit rfl (effect_goOn (Thread.follows_request rfl rfl rfl rfl rfl rfl))
  · refine effect_attempt rfl ?_
    split
    · exact effect_refuse rfl rfl rfl rfl _
    · rename_i hcreate
      exact .created hcreate rfl rfl
  · refine effect_attempt rfl ?_
    split
    · exact effect_refuse rfl rfl rfl rfl _
    · rename_i transfer hrow
      obtain rfl := h.id_eq id transfer hrow
      exact effect_goOn (Thread.follows_request rfl rfl rfl rfl rfl rfl)
  · exact effect_createDirAll caller transfer
  · refine effect_attempt rfl (.updated (f := fun row ↦ row.update .running
      download.transfer.bytesTotal download.transfer.bytesTransferred
      download.transfer.resumedChunks none) (fun row ↦ ?_) rfl rfl rfl)
    exact ⟨rfl, rfl, rfl⟩
  · exact effect_insertControl download
  · exact effect_launch download control
  · refine effect_attempt rfl ?_
    split
    · exact effect_refuse rfl rfl rfl rfl _
    split_ifs
    · exact effect_refuse rfl rfl rfl rfl _
    · exact effect_goOn (Thread.follows_request rfl rfl rfl rfl rfl rfl)
  · exact effect_pauseControl id
  · exact effect_underLimit rfl (effect_goOn (Thread.follows_request rfl rfl rfl rfl rfl rfl))
  · refine effect_attempt rfl ?_
    split
    · exact effect_refuse rfl rfl rfl rfl _
    rename_i transfer hrow
    split_ifs with hpaused
    · exact effect_refuse rfl rfl rfl rfl _
    · exact .resumed hrow (h.id_eq id transfer hrow) (not_not.mp hpaused) rfl rfl rfl
  · exact .quiet rfl rfl rfl (Thread.follows_request rfl rfl rfl rfl rfl rfl)
  · exact .quiet rfl rfl rfl (Thread.follows_request rfl rfl rfl rfl rfl rfl)
  · rcases fault with _ | text
    · exact .marked rfl rfl rfl
    · exact .quiet rfl rfl rfl (Thread.follows_over rfl rfl)

/-- A worker that changes its phase and nothing else that matters here. -/
theorem effect_turn {worker : DownloadWorker} {phase : DownloadPhase} {t : NodeRuntime}
    (htransfers : t.transfers = s.transfers) (hdownloads : t.downloads = s.downloads)
    (hserving : t.serving = s.serving)
    (hclaims : ({ worker with phase } : DownloadWorker).claims <+ worker.claims)
    (hentry : ({ worker with phase } : DownloadWorker).entry = worker.entry) :
    (t.turn worker phase).HasEffect s (.worker worker) :=
  .quiet htransfers hdownloads hserving (Thread.follows_worker hclaims hentry)

/-- Every step of a worker has one of the effects. -/
theorem effect_stepWorker {worker : DownloadWorker} {move : Move}
    (h : s.stepWorker b fault worker = some move) : move.HasEffect s (.worker worker) := by
  obtain ⟨transfer, contentId, control, phase⟩ := worker
  rcases phase with _ | result | ⟨error | stats⟩ | ⟨content, stats⟩ | content | ⟨status, error⟩ | _
  · cases h
  · obtain rfl := Option.some.inj h
    exact .removed rfl rfl rfl rfl
  · obtain rfl := Option.some.inj h
    refine effect_turn rfl rfl rfl ?_ ?_
    · rw [stopped]
      split <;> exact List.Sublist.refl _
    · rw [stopped]
      split <;> rfl
  · rw [stepWorker] at h
    dsimp only at h
    rcases fault with _ | text
    · dsimp only at h
      split at h
      · obtain rfl := Option.some.inj h
        exact effect_turn rfl rfl rfl (List.Sublist.refl _) rfl
      · obtain rfl := Option.some.inj h
        exact effect_turn rfl rfl rfl (List.Sublist.refl _) rfl
    · obtain rfl := Option.some.inj h
      exact effect_turn rfl rfl rfl (List.Sublist.refl _) rfl
  · obtain rfl := Option.some.inj h
    rcases fault with _ | text
    · have hcases := Transfers.completeTransfer_cases (s := s.transfers) transfer.id content.length
        content.chunkCount stats
      rcases hcases with heq | heq
      · exact .settled (f := fun row ↦ row.complete content.length content.chunkCount stats) rfl rfl
          rfl rfl (fun row ↦ ⟨rfl, rfl⟩) heq rfl rfl
      · exact effect_turn heq rfl rfl (List.nil_sublist _) rfl
    · exact effect_turn rfl rfl rfl (List.nil_sublist _) rfl
  · obtain rfl := Option.some.inj h
    exact effect_turn rfl rfl rfl (List.Sublist.refl _) rfl
  · obtain rfl := Option.some.inj h
    rcases fault with _ | text
    · exact .settled (f := fun row ↦ row.setStatus status error) rfl rfl rfl rfl
        (fun row ↦ ⟨rfl, rfl⟩) rfl rfl rfl
    · exact effect_turn rfl rfl rfl (List.nil_sublist _) rfl
  · obtain rfl := Option.some.inj h
    exact .quiet rfl rfl rfl (Thread.follows_over rfl rfl)

end NodeRuntime

/-! ## The changes of a node -/

/-- The thread that takes a step. -/
def NodeAction.moves : NodeAction → Option ℕ
  | .advance i _ | .fetched i _ => some i
  | _ => none

/-- A request that has just been received. -/
def Task.isFirst : Task → Bool
  | .contentExists .. | .pauseStatus _ | .resumeLimit _ | .stopProviders => true
  | _ => false

/-- How a running node goes on. -/
inductive NodeRuntime.Next (b : Backend) (s : NodeRuntime) : NodeAction → NodeRuntime → Prop where
  | task {i : ℕ} {fault : Option String} {task : Task} (hi : s.threads[i]? = some (.request task)) :
      Next b s (.advance i fault) (s.move i (s.stepTask fault task))
  | worker {i : ℕ} {fault : Option String} {worker : DownloadWorker} {move : Move}
      (hi : s.threads[i]? = some (.worker worker))
      (hmove : s.stepWorker b fault worker = some move) :
      Next b s (.advance i fault) (s.move i move)
  | fetched {i : ℕ} {result : Except String PersistentFetchStats} {worker : DownloadWorker}
      (hi : s.threads[i]? = some (.worker worker)) (hphase : worker.phase = .fetching) :
      Next b s (.fetched i result) (s.move i (s.turn worker (.returned result)))
  | received {a : NodeAction} {task : Task} {serving : Bool} (hfirst : task.isFirst)
      (hserving : s.serving) : Next b s a ({ s with serving }.enqueue (.request task))
  | progressed {a : NodeAction} {id : ℕ} {progress : VerifiedProgress} {rate : ℕ} :
      Next b s a { s with transfers := s.transfers.updateProgress id progress rate }
  | elsewhere {a : NodeAction} {sharing : Sharing} {shutdown : Bool} :
      Next b s a { s with sharing, shutdown }

/-- What an action can do to the table, to `downloads` and to the threads. -/
inductive Change (s : NodeRuntime) (a : NodeAction) (t : NodeRuntime) : Prop where
  | stepped {i : ℕ} {θ θ' : Thread} {new : Option Thread} (ha : a.moves = some i)
      (hi : s.threads[i]? = some θ) (heffect : Effect s t θ θ' new)
      (hthreads : t.threads = s.threads.set i θ' ++ new.toList)
  | enqueued {task : Task} (hfirst : task.isFirst) (hserving : s.serving)
      (htransfers : t.transfers = s.transfers) (hdownloads : t.downloads = s.downloads)
      (hthreads : t.threads = s.threads ++ [.request task])
  | progressed {id : ℕ} {progress : VerifiedProgress} {rate : ℕ}
      (htransfers : t.transfers = s.transfers.updateProgress id progress rate)
      (hdownloads : t.downloads = s.downloads) (hserving : t.serving = s.serving)
      (hthreads : t.threads = s.threads)
  /-- Only stored content, or the flag for shutdown. -/
  | elsewhere (htransfers : t.transfers = s.transfers) (hdownloads : t.downloads = s.downloads)
      (hserving : t.serving = s.serving) (hthreads : t.threads = s.threads)

namespace NodeRuntime

variable {b : Backend} {s t : NodeRuntime} {a : NodeAction}

theorem next_cases (h : Node.next b (.up s) a = some (.up t)) : s.Next b a t := by
  rcases a with request | ⟨i, fault⟩ | ⟨i, result⟩ | ⟨i, progress, rate⟩ | action | _ | _ | config
  · rw [Node.next] at h
    split_ifs at h with hserving
    obtain rfl := Node.up.inj (Option.some.inj h)
    rcases request with ⟨contentId, share⟩ | id | id | _
    · exact .received rfl hserving
    · exact .received rfl hserving
    · exact .received rfl hserving
    · exact .elsewhere
  · obtain ⟨t, ht, hup⟩ := Option.map_eq_some_iff.mp h
    obtain rfl := Node.up.inj hup
    rw [advance] at ht
    split at ht
    · rename_i task hi
      obtain rfl := Option.some.inj ht
      exact .task hi
    · rename_i worker hi
      obtain ⟨move, hmove, rfl⟩ := Option.map_eq_some_iff.mp ht
      exact .worker hi hmove
    · cases ht
  · obtain ⟨t, ht, hup⟩ := Option.map_eq_some_iff.mp h
    obtain rfl := Node.up.inj hup
    rw [fetched] at ht
    split at ht
    · rename_i worker hi
      split_ifs at ht with hphase
      obtain rfl := Option.some.inj ht
      exact .fetched hi hphase
    · cases ht
  · obtain ⟨t, ht, hup⟩ := Option.map_eq_some_iff.mp h
    obtain rfl := Node.up.inj hup
    rw [NodeRuntime.progress] at ht
    split at ht
    · obtain rfl := Option.some.inj ht
      exact .progressed
    · cases ht
  · obtain ⟨t, ht, hup⟩ := Option.map_eq_some_iff.mp h
    obtain rfl := Node.up.inj hup
    rw [content] at ht
    split_ifs at ht
    obtain ⟨sharing, -, rfl⟩ := Option.map_eq_some_iff.mp ht
    exact .elsewhere
  · obtain ⟨t, ht, hup⟩ := Option.map_eq_some_iff.mp h
    obtain rfl := Node.up.inj hup
    rw [stop] at ht
    split_ifs at ht with hstop
    obtain rfl := Option.some.inj ht
    exact .received rfl hstop.2
  · cases h
  · cases h

theorem change_of_next (hs : s.transfers.Numbered) (h : Node.next b (.up s) a = some (.up t)) :
    Change s a t := by
  cases next_cases h with
  | @task i fault task hi => exact .stepped rfl hi ((effect_stepTask hs task).withThreads _) rfl
  | worker hi hmove => exact .stepped rfl hi ((effect_stepWorker hmove).withThreads _) rfl
  | @fetched i result worker hi hphase =>
    have hclaims : worker.claims = [worker.transfer.id] := by rw [DownloadWorker.claims, hphase]
    have hentry : worker.entry = some (worker.transfer.id, worker.control) := by
      rw [DownloadWorker.entry, hphase]
    refine .stepped rfl hi ((effect_turn (s := s) rfl rfl rfl ?_ ?_).withThreads _) rfl
    · rw [hclaims]
      exact List.Sublist.refl _
    · rw [hentry]
      rfl
  | received hfirst hserving => exact .enqueued hfirst hserving rfl rfl rfl
  | progressed => exact .progressed rfl rfl rfl rfl
  | elsewhere => exact .elsewhere rfl rfl rfl rfl

/-- A node that has just been started: nothing is entered, and the only thread is the recovery. -/
theorem recover_cases (config : NodeConfig) (sharing : Sharing) (transfers : Transfers) :
    (recover config sharing transfers).transfers = transfers.markRunningInterrupted ∧
      (recover config sharing transfers).downloads = ∅ ∧
      ((recover config sharing transfers).threads = [] ∨
        ∃ transfer rest, transfers.recoverableTransfers.2 = transfer :: rest ∧
          (recover config sharing transfers).serving = false ∧
          (recover config sharing transfers).threads =
            [.request (.createDirAll (.recovery rest) transfer)]) := by
  rw [recover]
  rcases config.bootstrap with _ | bootstrap
  · exact ⟨rfl, rfl, .inl rfl⟩
  rcases hlist : transfers.recoverableTransfers with ⟨marked, _ | ⟨transfer, rest⟩⟩
  · exact ⟨congrArg Prod.fst hlist.symm, rfl, .inl rfl⟩
  · exact ⟨congrArg Prod.fst hlist.symm, rfl, .inr ⟨transfer, rest, rfl, rfl, rfl⟩⟩

end NodeRuntime

/-! ## Runs -/

namespace Node

variable {b : Backend}

/-- The transfer table, which survives the node. -/
def transfers : Node → Transfers
  | .down _ transfers => transfers
  | .up s => s.transfers

/-- One property of the table of a node that is down, another of one that is up. -/
def Holds (J : Transfers → Prop) (I : NodeRuntime → Prop) : Node → Prop
  | .down _ transfers => J transfers
  | .up s => I s

/-- A step that meets a condition. -/
def StepIf (b : Backend) (K : Node → NodeAction → Prop) (node node' : Node) : Prop :=
  ∃ a, K node a ∧ node.next b a = some node'

theorem next_down_cases {library : Library} {transfers : Transfers} {a : NodeAction} {node : Node}
    (h : next b (.down library transfers) a = some node) :
    (∃ library', node = .down library' transfers) ∨
      ∃ config sharing, a = .create config ∧ config.validate = .ok () ∧
        node = .up (.recover config sharing transfers) := by
  rcases a with request | ⟨i, fault⟩ | ⟨i, result⟩ | ⟨i, progress, rate⟩ | action | _ | _ | config
  · cases h
  · cases h
  · cases h
  · cases h
  · rcases action with _ | _ | _ | _ | _ | _ | files
    · cases h
    · cases h
    · cases h
    · cases h
    · cases h
    · cases h
    · obtain rfl := Option.some.inj h
      exact .inl ⟨_, rfl⟩
  · cases h
  · cases h
  · rw [next, create] at h
    split at h
    · cases h
    rename_i hvalid
    split at h
    · obtain rfl := Option.some.inj h
      exact .inl ⟨_, rfl⟩
    · rename_i sharing _
      obtain rfl := Option.some.inj h
      exact .inr ⟨config, sharing, rfl, hvalid, rfl⟩

theorem next_up_down {s : NodeRuntime} {a : NodeAction} {library : Library}
    {transfers : Transfers} (h : next b (.up s) a = some (.down library transfers)) :
    a = .exit ∧ transfers = s.transfers := by
  rcases a with request | ⟨i, fault⟩ | ⟨i, result⟩ | ⟨i, progress, rate⟩ | action | _ | _ | config
  · rw [next] at h
    split_ifs at h
    cases h
  · obtain ⟨t, -, hup⟩ := Option.map_eq_some_iff.mp h
    cases hup
  · obtain ⟨t, -, hup⟩ := Option.map_eq_some_iff.mp h
    cases hup
  · obtain ⟨t, -, hup⟩ := Option.map_eq_some_iff.mp h
    cases hup
  · obtain ⟨t, -, hup⟩ := Option.map_eq_some_iff.mp h
    cases hup
  · obtain ⟨t, -, hup⟩ := Option.map_eq_some_iff.mp h
    cases hup
  · cases h
    exact ⟨rfl, rfl⟩
  · cases h

/-- The induction over all runs whose steps meet a condition: through exits and restarts, and
through the actions of a running node. -/
theorem holds_of_steps {K : Node → NodeAction → Prop} {J : Transfers → Prop}
    {I : NodeRuntime → Prop} (hexit : ∀ s, I s → K (.up s) .exit → J s.transfers)
    (hrecover : ∀ library config sharing transfers, J transfers →
      K (.down library transfers) (.create config) → config.validate = .ok () →
      I (.recover config sharing transfers))
    (hup : ∀ s a t, I s → K (.up s) a → next b (.up s) a = some (.up t) → I t)
    {node node' : Node} (hnode : node.Holds J I)
    (hrun : Relation.ReflTransGen (StepIf b K) node node') : node'.Holds J I := by
  refine Transition.invariant (I := Node.Holds J I) (fun n n' hn hstep ↦ ?_) hnode hrun
  obtain ⟨a, ha, hnext⟩ := hstep
  rcases n with ⟨library, transfers⟩ | s
  · rcases next_down_cases hnext with ⟨library', rfl⟩ | ⟨config, sharing, rfl, hvalid, rfl⟩
    · exact hn
    · exact hrecover library config sharing transfers hn ha hvalid
  · rcases n' with ⟨library, transfers⟩ | t
    · obtain ⟨rfl, rfl⟩ := next_up_down hnext
      exact hexit s hn ha
    · exact hup s a t hn ha hnext

theorem holds_of_run {K : Node → NodeAction → Prop} {J : Transfers → Prop}
    {I : NodeRuntime → Prop} (hnew : J .empty)
    (hexit : ∀ s, I s → K (.up s) .exit → J s.transfers)
    (hrecover : ∀ library config sharing transfers, J transfers →
      K (.down library transfers) (.create config) → config.validate = .ok () →
      I (.recover config sharing transfers))
    (hup : ∀ s a t, I s → K (.up s) a → next b (.up s) a = some (.up t) → I t)
    {node : Node} (hrun : Relation.ReflTransGen (StepIf b K) new node) : node.Holds J I :=
  holds_of_steps hexit hrecover hup (show Node.Holds J I new from hnew) hrun

end Node

end TripTorrent

import TripTorrent.Node.Sharing
import TripTorrent.Node.Transfers

/-!
# A running node

A node serves requests of its local interface, each in a thread of its own, and runs one worker
thread for every download. They share the store, the map `downloads` with the controls by which the
workers can be stopped, and the number of active downloads. Every access to the store, every section
under the lock of `downloads` and every access to the number is one atomic step, and the threads
take their steps in any order.

A request is a `Task`, which is the point it has reached and what it remembers; `stepTask` performs
what the source does from there up to the next point. A worker is in a `DownloadPhase`, and
`stepWorker` does the same for it, except that a fetch returns when the engine lets it. A step that
calls the store or the file system may be given a fault, which is the text of the error the call
fails with.

Starting a node resumes the interrupted transfers one after another before any request is served.
A node may exit at any moment; what is left are the index, the files and the transfer table.
-/

namespace TripTorrent

open Std (ExtTreeMap)

/-! ## Configuration -/

structure NodeConfig where
  /-- `api_listen` is a loopback address. -/
  apiLoopback : Bool
  apiToken : String
  bootstrap : Option String
  /-- Maximum simultaneous daemon downloads. -/
  maxConcurrentTransfers : ℕ
  logLevel : String
deriving DecidableEq

inductive ConfigError where
  | notLoopback
  | tokenTooShort
  | noTransfers
  | tooManyTransfers
  | textTooLong
deriving DecidableEq

def ConfigError.message : ConfigError → String
  | .notLoopback => "local API address must be loopback"
  | .tokenTooShort => "api_token must contain at least 32 characters"
  | .noTransfers => "max_concurrent_transfers must be at least one"
  | .tooManyTransfers => "max_concurrent_transfers must not exceed 128"
  | .textTooLong => "configuration text field exceeds its limit"

def NodeConfig.validate (config : NodeConfig) : Except ConfigError Unit :=
  if ¬config.apiLoopback then .error .notLoopback
  else if config.apiToken.utf8ByteSize < 32 then .error .tokenTooShort
  else if config.maxConcurrentTransfers = 0 then .error .noTransfers
  else if 128 < config.maxConcurrentTransfers then .error .tooManyTransfers
  else if 512 < config.apiToken.utf8ByteSize ∨ 256 < config.logLevel.utf8ByteSize then
    .error .textTooLong
  else .ok ()

/-! ## Threads -/

inductive NodeError where
  | noBootstrap
  | alreadyStored
  | limitReached
  | resumableExists (contentId : String)
  | newTransferMissing
  | alreadyActive (id : ℕ)
  | unknownTransfer
  | notRunning
  | workerUnavailable
  | notPaused
  | library (error : LibraryError)
  | parseId (error : ParseIdError)
  /-- A call to the store or the file system that failed. -/
  | fault (text : String)
deriving DecidableEq

/-- The text of an error; those of third-party parsers are not known. -/
def NodeError.message : NodeError → Option String
  | .noBootstrap => some "node has no bootstrap configured"
  | .alreadyStored => some "content is already stored"
  | .limitReached => some "maximum concurrent transfers reached"
  | .resumableExists contentId =>
    some ("a resumable transfer already exists for " ++ contentId)
  | .newTransferMissing => some "new transfer missing"
  | .alreadyActive id => some ("transfer " ++ toString id ++ " already has an active worker")
  | .unknownTransfer => some "unknown transfer"
  | .notRunning => some "only a running download can be paused"
  | .workerUnavailable => some "transfer worker is unavailable"
  | .notPaused => some "only an explicitly paused download can be resumed"
  | .library error => error.message
  | .parseId _ => none
  | .fault text => some text

/-- The state of a `FetchControl`. -/
inductive ControlState where
  | running
  | paused
  | interrupted
deriving DecidableEq

inductive FetchStopReason where
  | paused
  | interrupted
deriving DecidableEq

def ControlState.stopReason : ControlState → Option FetchStopReason
  | .running => none
  | .paused => some .paused
  | .interrupted => some .interrupted

/-- Who has called `spawn_download`; the recovery has more transfers to go on with. -/
inductive Caller where
  | startFetch
  | resumeTransfer
  | recovery (rest : List TransferRecord)
deriving DecidableEq

/-- A call of `spawn_download` whose content identifier has been read. -/
structure Download where
  caller : Caller
  transfer : TransferRecord
  contentId : ContentId
deriving DecidableEq

/-- What a request is about to do. -/
inductive Task where
  /-- `start_fetch`: look whether the content is stored. -/
  | contentExists (contentId : ContentId) (share : Bool)
  /-- `start_fetch`: read the number of active downloads. -/
  | checkLimit (contentId : ContentId) (share : Bool)
  | createTransfer (contentId : ContentId) (share : Bool)
  | getTransfer (id : ℕ)
  /-- `prepare_download`: read the identifier and make the directory. -/
  | createDirAll (caller : Caller) (transfer : TransferRecord)
  | updateTransfer (download : Download)
  /-- `spawn_download`: enter a new control. -/
  | insertControl (download : Download)
  /-- `spawn_download`: count the download and start its thread. -/
  | launch (download : Download) (control : ℕ)
  /-- `pause_transfer`: look at the status. -/
  | pauseStatus (id : ℕ)
  /-- `pause_transfer`: the section under the lock. -/
  | pauseControl (id : ℕ)
  /-- `resume_transfer`: read the number of active downloads. -/
  | resumeLimit (id : ℕ)
  /-- `resume_transfer`: look at the status. -/
  | resumeStatus (id : ℕ)
  /-- `shutdown`: clear the flags of the providers. -/
  | stopProviders
  /-- `shutdown`: the section under the lock. -/
  | stopDownloads
  | markRunningInterrupted
deriving DecidableEq

/-- Where a worker is in `run_download`. -/
inductive DownloadPhase where
  /-- Inside `engine.fetch`. -/
  | fetching
  | returned (result : Except String PersistentFetchStats)
  /-- The control has been taken out of `downloads`. -/
  | removed (result : Except String PersistentFetchStats)
  /-- The content is stored, the row still to be completed. -/
  | completing (content : ContentRecord) (stats : PersistentFetchStats)
  /-- The row is completed, a provider still to be started. -/
  | sharing (content : ContentRecord)
  /-- The status has been decided and is still to be written. -/
  | settling (status : TransferStatus) (error : Option String)
  /-- All that is left is to count the download off. -/
  | leaving
deriving DecidableEq

structure DownloadWorker where
  transfer : TransferRecord
  contentId : ContentId
  /-- The number of the control it polls. -/
  control : ℕ
  phase : DownloadPhase
deriving DecidableEq

inductive NodeReply where
  | started (id : ℕ)
  | done
deriving DecidableEq

inductive Thread where
  | request (task : Task)
  | finished (result : Except NodeError NodeReply)
  | worker (worker : DownloadWorker)
  | exited
deriving DecidableEq

/-! ## Steps -/

structure NodeRuntime where
  config : NodeConfig
  sharing : Sharing
  transfers : Transfers
  /-- The number of the control entered for a transfer. -/
  downloads : ExtTreeMap ℕ ℕ
  controls : ℕ → ControlState
  /-- How many controls there have been. -/
  controlCount : ℕ
  activeDownloads : ℕ
  shutdown : Bool
  /-- Requests are accepted. -/
  serving : Bool
  threads : List Thread

/-- What a step of a thread makes of the rest of the node and of the thread, and the thread it
starts. -/
structure Move where
  runtime : NodeRuntime
  thread : Thread
  started : Option Thread

namespace NodeRuntime

variable (b : Backend) (s : NodeRuntime)

def goOn (task : Task) : Move := ⟨s, .request task, none⟩

def reply (reply : NodeReply) : Move := ⟨s, .finished (.ok reply), none⟩

def refuse (error : NodeError) : Move := ⟨s, .finished (.error error), none⟩

/-- A step with a call that fails if there is a fault. -/
def attempt (fault : Option String) (move : Move) : Move :=
  match fault with
  | some text => s.refuse (.fault text)
  | none => move

/-- The check of the limit. -/
def underLimit (move : Move) : Move :=
  if s.config.maxConcurrentTransfers ≤ s.activeDownloads then s.refuse .limitReached else move

def setControl (control : ℕ) (state : ControlState) : NodeRuntime :=
  { s with controls := Function.update s.controls control state }

/-- Every control that is entered is interrupted. -/
def interruptAll : NodeRuntime :=
  let interrupt (controls : ℕ → ControlState) (entry : ℕ × ℕ) :=
    Function.update controls entry.2 .interrupted
  { s with controls := s.downloads.toList.foldl interrupt s.controls }

/-- The call of `spawn_download` returns to its caller. -/
def spawned (download : Download) : Caller → Move
  | .startFetch => s.reply (.started download.transfer.id)
  | .resumeTransfer => s.reply .done
  | .recovery [] => ({ s with serving := true }).reply .done
  | .recovery (transfer :: rest) => s.goOn (.createDirAll (.recovery rest) transfer)

def stepTask (fault : Option String) : Task → Move
  | .contentExists contentId share =>
    if s.config.bootstrap.isNone then s.refuse .noBootstrap
    else
      s.attempt fault
        (match s.sharing.library.contentExists contentId.toString with
        | .error error => s.refuse (.library error)
        | .ok true => s.refuse .alreadyStored
        | .ok false => s.goOn (.checkLimit contentId share))
  | .checkLimit contentId share => s.underLimit (s.goOn (.createTransfer contentId share))
  | .createTransfer contentId share =>
    s.attempt fault
      (match s.transfers.createTransfer contentId.toString share with
      | none => s.refuse (.resumableExists contentId.toString)
      | some (transfers, id) => ({ s with transfers }).goOn (.getTransfer id))
  | .getTransfer id =>
    s.attempt fault
      (match s.transfers.getTransfer id with
      | none => s.refuse .newTransferMissing
      | some transfer => s.goOn (.createDirAll .startFetch transfer))
  | .createDirAll caller transfer =>
    if s.config.bootstrap.isNone then s.refuse .noBootstrap
    else
      match ContentId.fromStr transfer.contentId with
      | .error error => s.refuse (.parseId error)
      | .ok contentId => s.attempt fault (s.goOn (.updateTransfer ⟨caller, transfer, contentId⟩))
  | .updateTransfer download =>
    let transfer := download.transfer
    let transfers := s.transfers.updateTransfer transfer.id .running transfer.bytesTotal
      transfer.bytesTransferred transfer.resumedChunks none
    s.attempt fault (({ s with transfers }).goOn (.insertControl download))
  | .insertControl download =>
    let id := download.transfer.id
    let control := s.controlCount
    let t : NodeRuntime := { s.setControl control .running with
      controlCount := s.controlCount + 1
      downloads := s.downloads.insert id control }
    -- the control has been entered even where another one was there before
    if s.downloads[id]?.isSome then t.refuse (.alreadyActive id)
    else t.goOn (.launch download control)
  | .launch download control =>
    let worker : DownloadWorker := ⟨download.transfer, download.contentId, control, .fetching⟩
    let t := { s with activeDownloads := s.activeDownloads + 1 }
    { t.spawned download download.caller with started := some (.worker worker) }
  | .pauseStatus id =>
    s.attempt fault
      (match s.transfers.getTransfer id with
      | none => s.refuse .unknownTransfer
      | some transfer =>
        if transfer.status ≠ .running ∧ transfer.status ≠ .pausing then s.refuse .notRunning
        else s.goOn (.pauseControl id))
  | .pauseControl id =>
    match s.downloads[id]? with
    | none => s.refuse .workerUnavailable
    | some control =>
      let t := s.setControl control .paused
      t.attempt fault
        (({ t with transfers := t.transfers.setTransferStatus id .pausing none }).reply .done)
  | .resumeLimit id => s.underLimit (s.goOn (.resumeStatus id))
  | .resumeStatus id =>
    s.attempt fault
      (match s.transfers.getTransfer id with
      | none => s.refuse .unknownTransfer
      | some transfer =>
        if transfer.status ≠ .paused then s.refuse .notPaused
        else s.goOn (.createDirAll .resumeTransfer transfer))
  | .stopProviders =>
    ({ s with shutdown := true, sharing := s.sharing.shutdown }).goOn .stopDownloads
  | .stopDownloads => s.interruptAll.goOn .markRunningInterrupted
  | .markRunningInterrupted =>
    match fault with
    | some _ => s.reply .done
    | none => ({ s with transfers := s.transfers.markRunningInterrupted }).reply .done

/-- The worker goes over to another phase. -/
def turn (worker : DownloadWorker) (phase : DownloadPhase) : Move :=
  ⟨s, .worker { worker with phase }, none⟩

/-- What a stopped download is recorded as. -/
def stopped (worker : DownloadWorker) (error : String) : DownloadPhase :=
  match (s.controls worker.control).stopReason with
  | some .paused => .settling .paused none
  | some .interrupted => .settling .interrupted none
  | none => .settling .failed (some error)

/-- The text recorded for a download whose content could not be stored. -/
def storeFailure (error : LibraryError) : String :=
  error.message.getD "No such file or directory (os error 2)"

def stepWorker (fault : Option String) (worker : DownloadWorker) : Option Move :=
  match worker.phase with
  | .fetching => none
  | .returned result =>
    some (({ s with downloads := s.downloads.erase worker.transfer.id }).turn worker
      (.removed result))
  | .removed (.ok stats) =>
    match fault with
    | some text => some (s.turn worker (.settling .failed (some text)))
    | none =>
      match s.sharing.library.completeDownload b worker.contentId
          worker.transfer.shareOnComplete with
      | (library, .ok content) =>
        some (({ s with sharing.library := library }).turn worker (.completing content stats))
      | (library, .error error) =>
        some (({ s with sharing.library := library }).turn worker
          (.settling .failed (some (storeFailure error))))
  | .removed (.error error) => some (s.turn worker (s.stopped worker error))
  | .completing content stats =>
    let transfers := s.transfers.completeTransfer worker.transfer.id content.length
      content.chunkCount stats
    some ((if fault.isSome then s else { s with transfers }).turn worker (.sharing content))
  | .sharing content =>
    let sharing := if content.shared then s.sharing.startProvider content else s.sharing
    some (({ s with sharing }).turn worker .leaving)
  | .settling status error =>
    let transfers := s.transfers.setTransferStatus worker.transfer.id status error
    some ((if fault.isSome then s else { s with transfers }).turn worker .leaving)
  | .leaving => some ⟨{ s with activeDownloads := s.activeDownloads - 1 }, .exited, none⟩

/-- Thread `i` has made a move. -/
def move (i : ℕ) (move : Move) : NodeRuntime :=
  { move.runtime with threads := s.threads.set i move.thread ++ move.started.toList }

def enqueue (thread : Thread) : NodeRuntime := { s with threads := s.threads ++ [thread] }

/-- `create`, from the point where the store has been opened and providers have been started. -/
def recover (config : NodeConfig) (sharing : Sharing) (transfers : Transfers) : NodeRuntime :=
  let (transfers, recoverable) := transfers.recoverableTransfers
  let runtime (threads : List Thread) : NodeRuntime :=
    { config, sharing, transfers, downloads := ∅, controls := fun _ ↦ .running
      controlCount := 0, activeDownloads := 0, shutdown := false
      serving := threads.isEmpty, threads }
  match config.bootstrap, recoverable with
  | some _, transfer :: rest =>
    runtime [.request (.createDirAll (.recovery rest) transfer)]
  | _, _ => runtime []

end NodeRuntime

/-! ## Runs -/

/-- A node that is not running, or one that is. -/
inductive Node where
  | down (library : Library) (transfers : Transfers)
  | up (runtime : NodeRuntime)

inductive Request where
  | startFetch (contentId : ContentId) (share : Bool)
  | pauseTransfer (id : ℕ)
  | resumeTransfer (id : ℕ)
  | shutdown

/-- Downloads, shutdown and restarts have actions of their own. -/
def Sharing.Action.isRequest : Sharing.Action → Bool
  | .addContent .. | .removeContent .. | .listContent | .files _ => true
  | .finishDownload .. | .shutdown | .restart _ => false

inductive NodeAction where
  /-- A request is received. -/
  | call (request : Request)
  /-- A thread takes its next step. -/
  | advance (thread : ℕ) (fault : Option String)
  /-- `engine.fetch` returns. -/
  | fetched (thread : ℕ) (result : Except String PersistentFetchStats)
  /-- A control reports progress. -/
  | progress (thread : ℕ) (progress : VerifiedProgress) (rate : ℕ)
  /-- A request about stored content, or a change of the managed files. -/
  | content (action : Sharing.Action)
  /-- The main loop finds that shutdown has been requested. -/
  | stop
  | exit
  | create (config : NodeConfig)

namespace NodeRuntime

variable (b : Backend) (s : NodeRuntime)

/-- `POST /v1/shutdown` only sets the flag. -/
def call : Request → NodeRuntime
  | .startFetch contentId share => s.enqueue (.request (.contentExists contentId share))
  | .pauseTransfer id => s.enqueue (.request (.pauseStatus id))
  | .resumeTransfer id => s.enqueue (.request (.resumeLimit id))
  | .shutdown => { s with shutdown := true }

def advance (i : ℕ) (fault : Option String) : Option NodeRuntime :=
  match s.threads[i]? with
  | some (.request task) => some (s.move i (s.stepTask fault task))
  | some (.worker worker) => (s.stepWorker b fault worker).map (s.move i)
  | _ => none

def fetched (i : ℕ) (result : Except String PersistentFetchStats) : Option NodeRuntime :=
  match s.threads[i]? with
  | some (.worker worker) =>
    if worker.phase = .fetching then some (s.move i (s.turn worker (.returned result))) else none
  | _ => none

def progress (i : ℕ) (progress : VerifiedProgress) (rate : ℕ) : Option NodeRuntime :=
  match s.threads[i]? with
  | some (.worker worker) =>
    some { s with transfers := s.transfers.updateProgress worker.transfer.id progress rate }
  | _ => none

def content (action : Sharing.Action) : Option NodeRuntime :=
  if action.isRequest then (s.sharing.next b action).map fun sharing ↦ { s with sharing } else none

def stop : Option NodeRuntime :=
  if s.shutdown ∧ s.serving then
    some ({ s with serving := false }.enqueue (.request .stopProviders))
  else none

end NodeRuntime

namespace Node

/-- `run_daemon` up to the point where requests are accepted, or recovery is under way. -/
def create (b : Backend) (library : Library) (transfers : Transfers) (config : NodeConfig) :
    Option Node :=
  match config.validate with
  | .error _ => none
  | .ok () =>
    match Sharing.create b library config.bootstrap with
    | (library, .error _) => some (.down library transfers)
    | (_, .ok sharing) => some (.up (.recover config sharing transfers))

def next (b : Backend) : Node → NodeAction → Option Node
  | .down library transfers, .create config => create b library transfers config
  | .down library transfers, .content (.files files) =>
    some (.down { library with files } transfers)
  | .down .., _ => none
  | .up s, .call request => if s.serving then some (.up (s.call request)) else none
  | .up s, .advance i fault => (s.advance b i fault).map .up
  | .up s, .fetched i result => (s.fetched i result).map .up
  | .up s, .progress i progress rate => (s.progress i progress rate).map .up
  | .up s, .content action => (s.content b action).map .up
  | .up s, .stop => s.stop.map .up
  | .up s, .exit => some (.down s.sharing.library s.transfers)
  | .up _, .create _ => none

/-- A data directory that has never been used. -/
def new : Node := .down ⟨∅, fun _ ↦ none⟩ .empty

end Node

end TripTorrent

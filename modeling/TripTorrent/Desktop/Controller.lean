import Mathlib.Data.List.Basic
import TripTorrent.Transition.Inevitable

/-!
# The desktop controller

The desktop program is a window over a node that runs as a process of its own. A background thread,
the controller, takes commands from the window, asks the node for its state again and again, and
starts a node when there is none to answer.

The model is a state machine. Each step of the controller is a step up to the next answer from
outside, and the answer is a part of the action: what the node's API answers, whether a process
could be started, whether it has exited. Time passes between steps, and the window sends commands at
any time. The records that the node tells of are of no concern to the controller, and are of an
arbitrary type.

A process counts as running until the controller has seen that it exited, or has killed it. When a
handle to a process is dropped the process goes on.
-/

namespace TripTorrent.Desktop

variable {α : Type}

/-! ## What the window shows -/

/-- `DesktopOptions`, as far as the controller's loop reads them; times in milliseconds. -/
structure DesktopOptions where
  nodeBinary : String
  pollInterval : ℕ
  startupTimeout : ℕ
  reconnectBackoff : ℕ

/-- `system_default` -/
def DesktopOptions.systemDefault (nodeBinary : String) : DesktopOptions :=
  ⟨nodeBinary, 750, 8000, 2000⟩

inductive ConnectionState where
  | starting
  | connected
  | disconnected
  | unhealthy
  | stopped
deriving DecidableEq

/-- What a node has told of itself. -/
structure NodeView (α : Type) where
  status : Option α
  node : Option α
  content : List α
  transfers : List α
  diagnostics : Option α
  networkPrivacy : α
deriving DecidableEq

structure DesktopSnapshot (α : Type) where
  connection : ConnectionState
  view : NodeView α
  lastError : Option String
  notice : Option String
  daemonStartedByDesktop : Bool
  daemonLaunchCount : ℕ
deriving DecidableEq

namespace DesktopSnapshot

/-- The state before anything is known, with the privacy status of the prototype. -/
def initial (currentPrototype : α) : DesktopSnapshot α where
  connection := .starting
  view := ⟨none, none, [], [], none, currentPrototype⟩
  lastError := none
  notice := none
  daemonStartedByDesktop := false
  daemonLaunchCount := 0

def setConnection (s : DesktopSnapshot α) (connection : ConnectionState) : DesktopSnapshot α :=
  { s with connection }

def setError (s : DesktopSnapshot α) (connection : ConnectionState) (error : String) :
    DesktopSnapshot α :=
  { s with connection, lastError := some error }

def setOperationError (s : DesktopSnapshot α) (error : String) : DesktopSnapshot α :=
  { s with lastError := some error }

def setNotice (s : DesktopSnapshot α) (message : String) : DesktopSnapshot α :=
  { s with notice := some message, lastError := none }

/-- A daemon was started. -/
def launched (s : DesktopSnapshot α) : DesktopSnapshot α :=
  { s with
    daemonStartedByDesktop := true
    daemonLaunchCount := s.daemonLaunchCount + 1
    lastError := none }

/-- Nothing was learnt from the node, and none was started. -/
def Agrees (s t : DesktopSnapshot α) : Prop :=
  t.view = s.view ∧ t.daemonStartedByDesktop = s.daemonStartedByDesktop ∧
    t.daemonLaunchCount = s.daemonLaunchCount

end DesktopSnapshot

/-- The answers to the requests of a refresh. -/
structure Report (α : Type) where
  status : Except String α
  node : Except String α
  content : Except String (List α)
  transfers : Except String (List α)
  diagnostics : Except String α
  networkPrivacy : Except String α

namespace Report

/-- All requests succeeded. -/
def view (report : Report α) : Except String (NodeView α) := do
  let status ← report.status
  let node ← report.node
  let content ← report.content
  let transfers ← report.transfers
  let diagnostics ← report.diagnostics
  let networkPrivacy ← report.networkPrivacy
  .ok ⟨some status, some node, content, transfers, some diagnostics, networkPrivacy⟩

/-- `refresh_snapshot` -/
def refreshSnapshot (report : Report α) (s : DesktopSnapshot α) :
    Except String (DesktopSnapshot α) :=
  report.view.map fun view ↦ { s with connection := .connected, view, lastError := none }

end Report

/-! ## Commands -/

inductive ControllerCommand where
  | addContent (path : String) (shared : Bool)
  | removeContent (contentId : String) (deleteBytes : Bool)
  | startFetch (contentId : String) (shared : Bool)
  | pause (transferId : ℤ)
  | resume (transferId : ℤ)
  | stopNode
  | startNode
  | refresh
deriving DecidableEq

/-- The notice for an operation that succeeded; only a fetch looks at the number in the answer. -/
def ControllerCommand.notice (transfer : ℤ) : ControllerCommand → String
  | .addContent _ _ => "Content imported"
  | .removeContent _ true => "Content metadata and managed copy removed"
  | .removeContent _ false => "Content removed; managed copy preserved"
  | .startFetch _ _ => "Transfer " ++ toString transfer ++ " started"
  | .pause id => "Pausing transfer " ++ toString id
  | .resume id => "Transfer " ++ toString id ++ " resumed"
  | _ => ""

/-! ## The controller -/

/-- Where the controller is in its loop. -/
inductive Phase where
  | top
  | draining
  | waiting
  | polling
  | configuring
  | checking
  /-- Asks for the state of the node, after a launch or not. -/
  | refreshing (launched : Bool)
  | launching
  | starting (process deadline : ℕ)
  /-- After an attempt to launch a node. -/
  | backingOff
  | finishing
  | resting
  | ended
deriving DecidableEq

structure Controller (α : Type) where
  snapshot : DesktopSnapshot α
  queue : List ControllerCommand
  shutdown : Bool
  clock : ℕ
  client : Bool
  child : Option ℕ
  desiredRunning : Bool
  nextRefresh : ℕ
  nextLaunch : ℕ
  phase : Phase
  /-- How many processes were started. -/
  processes : ℕ
  running : List ℕ
  /-- When the attempts to launch a node began, the last one first. -/
  attempts : List ℕ
deriving DecidableEq

inductive DesktopAction (α : Type) where
  | tick (elapsed : ℕ)
  | send (command : ControllerCommand)
  /-- The window is closed. -/
  | close
  /-- The controller goes on by itself. -/
  | proceed
  | respond (answer : Except String ℤ)
  | reap (status : Option String)
  | configure (outcome : Except String Unit)
  | health (answer : Except String Bool)
  | report (report : Report α)
  | launch (healthy spawned : Bool)
  | probe (healthy : Bool) (wait : Except String (Option String))

namespace Controller

def start (currentPrototype : α) (clock : ℕ) : Controller α where
  snapshot := .initial currentPrototype
  queue := []
  shutdown := false
  clock := clock
  client := false
  child := none
  desiredRunning := true
  nextRefresh := clock
  nextLaunch := clock
  phase := .top
  processes := 0
  running := []
  attempts := []

/-- The node was told to stop. The process is not waited for. -/
def stopRequested (c : Controller α) : Except String ℤ → Controller α
  | .ok _ =>
    { c with
      desiredRunning := false
      snapshot := (c.snapshot.setNotice
        "Node stop requested; it will remain stopped until started again.").setConnection .stopped
      child := none }
  | .error error =>
    { c with
      desiredRunning := false
      snapshot := c.snapshot.setError .disconnected error
      child := none }

/-- An operation was tried. -/
def operationDone (c : Controller α) (operation : ControllerCommand) :
    Except String ℤ → Controller α
  | .ok transfer =>
    { c with
      snapshot := c.snapshot.setNotice (operation.notice transfer)
      nextRefresh := c.clock }
  | .error error => { c with snapshot := c.snapshot.setOperationError error }

/-- `handle_command`, with the answer of the API if there is a client to ask it. -/
def handleCommand (c : Controller α) (command : ControllerCommand) (answer : Except String ℤ) :
    Controller α :=
  let result := if c.client then answer else .error "node API is unavailable"
  match command with
  | .startNode =>
    { c with
      desiredRunning := true
      nextRefresh := c.clock
      snapshot := c.snapshot.setConnection .starting }
  | .stopNode => c.stopRequested result
  | .refresh => { c with nextRefresh := c.clock }
  | operation => c.operationDone operation result

/-- `start_daemon` has failed. -/
def launchFailed (c : Controller α) (error : String) : Controller α :=
  { c with
    snapshot := c.snapshot.setError .unhealthy ("could not start local node: " ++ error)
    phase := .backingOff }

/-- The process has ended. -/
def forget (c : Controller α) (process : ℕ) : Controller α :=
  { c with running := c.running.erase process }

variable (options : DesktopOptions) (c : Controller α)

/-- What the controller does without an answer from outside. -/
def proceed : Option (Controller α) :=
  match c.phase with
  | .top => some { c with phase := if c.shutdown then .ended else .draining }
  | .draining => if c.queue = [] then some { c with phase := .waiting } else none
  | .polling =>
    if c.desiredRunning ∧ c.nextRefresh ≤ c.clock then
      some { c with phase := if c.client then .checking else .configuring }
    else some { c with phase := .resting }
  | .backingOff =>
    some { c with nextLaunch := c.clock + options.reconnectBackoff, phase := .finishing }
  | .finishing =>
    some { c with nextRefresh := c.clock + options.pollInterval, phase := .resting }
  | .resting => some { c with phase := .top }
  | _ => none

/-- The answer to the request for the health of the node. -/
def checkHealth : Except String Bool → Controller α
  | .ok true => { c with phase := .refreshing false }
  | .ok false =>
    { c with
      snapshot := c.snapshot.setError .unhealthy "node health check is not ready"
      phase := .finishing }
  | .error error =>
    let snapshot := c.snapshot.setError .disconnected error
    if c.child = none ∧ c.nextLaunch ≤ c.clock then
      { c with
        snapshot := snapshot.setConnection .starting
        attempts := c.clock :: c.attempts
        phase := .launching }
    else { c with snapshot, phase := .finishing }

/-- `start_daemon`, up to its loop. -/
def launch (healthy spawned : Bool) : Controller α :=
  if healthy then c.launchFailed "a healthy node is already running"
  else if spawned then
    { c with
      processes := c.processes + 1
      running := c.running ++ [c.processes]
      phase := .starting c.processes (c.clock + options.startupTimeout) }
  else c.launchFailed ("cannot launch node sidecar " ++ options.nodeBinary)

/-- A round of the loop of `start_daemon`. -/
def probe (process deadline : ℕ) (healthy : Bool) (wait : Except String (Option String)) :
    Controller α :=
  if healthy then
    { c with child := some process, snapshot := c.snapshot.launched, phase := .refreshing true }
  else
    match wait with
    -- the handle is dropped here, and the process is neither waited for nor killed
    | .error error => c.launchFailed error
    | .ok (some status) =>
      (c.forget process).launchFailed ("node exited during startup with " ++ status)
    | .ok none =>
      if deadline ≤ c.clock then
        (c.forget process).launchFailed "node API was not ready before the startup timeout"
      else c

def next : DesktopAction α → Option (Controller α)
  | .tick elapsed => some { c with clock := c.clock + elapsed }
  | .send command => some { c with queue := c.queue ++ [command] }
  | .close => some { c with shutdown := true }
  | .proceed => c.proceed options
  | .respond answer =>
    match c.phase, c.queue with
    | .draining, command :: queue => some ({ c with queue }.handleCommand command answer)
    | _, _ => none
  | .reap status =>
    match c.phase with
    | .waiting =>
      match c.child, status with
      | some process, some status =>
        some { c.forget process with
          child := none
          snapshot := c.snapshot.setError .disconnected ("node process exited with " ++ status)
          phase := .polling }
      | _, _ => some { c with phase := .polling }
    | _ => none
  | .configure outcome =>
    match c.phase, outcome with
    | .configuring, .ok () => some { c with client := true, phase := .checking }
    | .configuring, .error error =>
      some { c with snapshot := c.snapshot.setError .unhealthy error, phase := .finishing }
    | _, _ => none
  | .health answer =>
    match c.phase with
    | .checking => some (c.checkHealth answer)
    | _ => none
  | .report report =>
    match c.phase with
    | .refreshing launched =>
      let phase := if launched then .backingOff else .finishing
      match report.refreshSnapshot c.snapshot with
      | .ok snapshot => some { c with snapshot, phase }
      | .error error =>
        let snapshot := if launched then c.snapshot else c.snapshot.setError .disconnected error
        some { c with snapshot, phase }
    | _ => none
  | .launch healthy spawned =>
    match c.phase with
    | .launching => some (c.launch options healthy spawned)
    | _ => none
  | .probe healthy wait =>
    match c.phase with
    | .starting process deadline => some (c.probe process deadline healthy wait)
    | _ => none

/-! ## What a step can do -/

variable {c}

/-- The parts of the controller that commands do not touch. -/
structure Undisturbed (c d : Controller α) : Prop where
  phase : d.phase = c.phase
  queue : d.queue = c.queue
  clock : d.clock = c.clock
  nextLaunch : d.nextLaunch = c.nextLaunch
  running : d.running = c.running
  attempts : d.attempts = c.attempts
  agrees : c.snapshot.Agrees d.snapshot

theorem undisturbed_operationDone (operation : ControllerCommand) (result : Except String ℤ) :
    c.Undisturbed (c.operationDone operation result) ∧
      (c.operationDone operation result).child = c.child ∧
      (c.operationDone operation result).desiredRunning = c.desiredRunning ∧
      (c.operationDone operation result).snapshot.connection = c.snapshot.connection := by
  rcases result with error | transfer
  · exact ⟨⟨rfl, rfl, rfl, rfl, rfl, rfl, rfl, rfl, rfl⟩, rfl, rfl, rfl⟩
  · exact ⟨⟨rfl, rfl, rfl, rfl, rfl, rfl, rfl, rfl, rfl⟩, rfl, rfl, rfl⟩

theorem undisturbed_stopRequested (result : Except String ℤ) :
    c.Undisturbed (c.stopRequested result) ∧ (c.stopRequested result).child = none ∧
      (c.stopRequested result).desiredRunning = false := by
  rcases result with error | transfer
  · exact ⟨⟨rfl, rfl, rfl, rfl, rfl, rfl, rfl, rfl, rfl⟩, rfl, rfl⟩
  · exact ⟨⟨rfl, rfl, rfl, rfl, rfl, rfl, rfl, rfl, rfl⟩, rfl, rfl⟩

/-- A command disturbs neither the processes nor what is known of the node. -/
theorem undisturbed_handleCommand (command : ControllerCommand) (answer : Except String ℤ) :
    c.Undisturbed (c.handleCommand command answer) := by
  have hoperation (operation : ControllerCommand) (result : Except String ℤ) :=
    (undisturbed_operationDone (c := c) operation result).1
  cases command with
  | stopNode => exact (undisturbed_stopRequested _).1
  | startNode => exact ⟨rfl, rfl, rfl, rfl, rfl, rfl, rfl, rfl, rfl⟩
  | refresh => exact ⟨rfl, rfl, rfl, rfl, rfl, rfl, rfl, rfl, rfl⟩
  | _ => exact hoperation _ _

/-- The handle is dropped when the node is stopped, and only then. -/
theorem child_handleCommand (command : ControllerCommand) (answer : Except String ℤ) :
    (c.handleCommand command answer).child = if command = .stopNode then none else c.child := by
  have hoperation (operation : ControllerCommand) (result : Except String ℤ) :=
    (undisturbed_operationDone (c := c) operation result).2.1
  cases command with
  | stopNode => exact (undisturbed_stopRequested _).2.1
  | startNode => rfl
  | refresh => rfl
  | _ => exact hoperation _ _

end Controller

namespace Phase

/-- An attempt to launch a node is under way. -/
def attempting : Phase → Bool
  | .launching => true
  | .starting _ _ => true
  | .refreshing launched => launched
  | .backingOff => true
  | _ => false

/-- Neither the node nor a process is dealt with. -/
def idle : Phase → Bool
  | .top => true
  | .draining => true
  | .waiting => true
  | .polling => true
  | .resting => true
  | .ended => true
  | _ => false

end Phase

namespace Controller

variable (options : DesktopOptions) (c : Controller α)

/-- The steps of the controller, by what they do to the processes, the attempts and the window. The
action is told where it matters. -/
inductive Step : DesktopAction α → Controller α → Prop
  | ticked {action : DesktopAction α} (elapsed : ℕ) :
    Step action { c with clock := c.clock + elapsed }
  | sent (command : ControllerCommand) :
    Step (.send command) { c with queue := c.queue ++ [command] }
  | closed {action : DesktopAction α} : Step action { c with shutdown := true }
  | handled {action : DesktopAction α} {command : ControllerCommand}
      {queue : List ControllerCommand} (hphase : c.phase = .draining)
      (hqueue : c.queue = command :: queue) (answer : Except String ℤ) :
    Step action ({ c with queue }.handleCommand command answer)
  | reaped {action : DesktopAction α} {process : ℕ} {snapshot : DesktopSnapshot α}
      (hphase : c.phase = .waiting) (hchild : c.child = some process)
      (hsnapshot : c.snapshot.Agrees snapshot) :
    Step action { c.forget process with child := none, snapshot, phase := .polling }
  | walked {action : DesktopAction α} {snapshot : DesktopSnapshot α} {nextRefresh : ℕ}
      {client : Bool} {phase : Phase} (hphase : c.phase.attempting = false)
      (hphase' : phase.attempting = false) (hsnapshot : c.snapshot.Agrees snapshot)
      (hidle : c.phase.idle = true → snapshot = c.snapshot ∧
        (phase.idle = true ∨ c.desiredRunning = true)) :
    Step action { c with snapshot, nextRefresh, client, phase }
  | attempted {action : DesktopAction α} {snapshot : DesktopSnapshot α}
      (hphase : c.phase = .checking) (hchild : c.child = none) (hlaunch : c.nextLaunch ≤ c.clock)
      (hsnapshot : c.snapshot.Agrees snapshot) :
    Step action { c with snapshot, attempts := c.clock :: c.attempts, phase := .launching }
  | refreshed {report : Report α} {launched : Bool} {view : NodeView α}
      (hphase : c.phase = .refreshing launched) (hview : report.view = .ok view) :
    Step (.report report) { c with
      snapshot := { c.snapshot with connection := .connected, view, lastError := none }
      phase := if launched then .backingOff else .finishing }
  | unrefreshed {action : DesktopAction α} {snapshot : DesktopSnapshot α}
      (hphase : c.phase = .refreshing true) (hsnapshot : c.snapshot.Agrees snapshot) :
    Step action { c with snapshot, phase := .backingOff }
  | refused {action : DesktopAction α} {snapshot : DesktopSnapshot α} (hphase : c.phase = .launching)
      (hsnapshot : c.snapshot.Agrees snapshot) : Step action { c with snapshot, phase := .backingOff }
  | spawned {action : DesktopAction α} (deadline : ℕ) (hphase : c.phase = .launching) :
    Step action { c with
      processes := c.processes + 1
      running := c.running ++ [c.processes]
      phase := .starting c.processes deadline }
  | started {process deadline : ℕ} (hphase : c.phase = .starting process deadline)
      (wait : Except String (Option String)) :
    Step (.probe true wait) { c with
      child := some process
      snapshot := c.snapshot.launched
      phase := .refreshing true }
  | abandoned {process deadline : ℕ} {snapshot : DesktopSnapshot α}
      (hphase : c.phase = .starting process deadline) (hsnapshot : c.snapshot.Agrees snapshot)
      (error : String) : Step (.probe false (.error error)) { c with snapshot, phase := .backingOff }
  | failed {action : DesktopAction α} {process deadline : ℕ} {snapshot : DesktopSnapshot α}
      (hphase : c.phase = .starting process deadline) (hsnapshot : c.snapshot.Agrees snapshot) :
    Step action { c.forget process with snapshot, phase := .backingOff }
  | starting {action : DesktopAction α} {process deadline : ℕ}
      (hphase : c.phase = .starting process deadline) : Step action c
  | backedOff {action : DesktopAction α} (hphase : c.phase = .backingOff) :
    Step action { c with nextLaunch := c.clock + options.reconnectBackoff, phase := .finishing }

variable {options c} {c' : Controller α} {action : DesktopAction α}

theorem agrees_rfl {s : DesktopSnapshot α} : s.Agrees s := ⟨rfl, rfl, rfl⟩

/-- A step that the controller takes by itself. -/
theorem step_of_proceed (h : c.proceed options = some c') : Step options c action c' := by
  have hwalk {nextRefresh : ℕ} {phase : Phase} (hphase : c.phase.attempting = false)
      (hphase' : phase.attempting = false)
      (hidle : c.phase.idle = true → phase.idle = true ∨ c.desiredRunning = true) :
      Step options c action { c with nextRefresh, phase } :=
    .walked hphase hphase' agrees_rfl fun h ↦ ⟨rfl, hidle h⟩
  rw [proceed] at h
  split at h
  · rename_i hphase
    obtain rfl := Option.some.inj h
    refine hwalk (by rw [hphase]; rfl) ?_ fun _ ↦ .inl ?_
    · split_ifs <;> rfl
    · split_ifs <;> rfl
  · rename_i hphase
    split_ifs at h with hqueue
    obtain rfl := Option.some.inj h
    exact hwalk (by rw [hphase]; rfl) rfl fun _ ↦ .inl rfl
  · rename_i hphase
    split_ifs at h with hdue hclient
    · obtain rfl := Option.some.inj h
      exact hwalk (by rw [hphase]; rfl) rfl fun _ ↦ .inr hdue.1
    · obtain rfl := Option.some.inj h
      exact hwalk (by rw [hphase]; rfl) rfl fun _ ↦ .inr hdue.1
    · obtain rfl := Option.some.inj h
      exact hwalk (by rw [hphase]; rfl) rfl fun _ ↦ .inl rfl
  · rename_i hphase
    obtain rfl := Option.some.inj h
    exact .backedOff hphase
  · rename_i hphase
    obtain rfl := Option.some.inj h
    exact hwalk (by rw [hphase]; rfl) rfl fun hidle ↦ absurd hidle (by rw [hphase]; decide)
  · rename_i hphase
    obtain rfl := Option.some.inj h
    exact hwalk (by rw [hphase]; rfl) rfl fun _ ↦ .inl rfl
  · cases h

/-- The answer to the health check. -/
theorem step_of_checkHealth (hphase : c.phase = .checking) (answer : Except String Bool) :
    Step options c action (c.checkHealth answer) := by
  have hwalk {snapshot : DesktopSnapshot α} {phase : Phase} (hphase' : phase.attempting = false)
      (hsnapshot : c.snapshot.Agrees snapshot) : Step options c action { c with snapshot, phase } :=
    .walked (by rw [hphase]; rfl) hphase' hsnapshot fun hidle ↦ absurd hidle (by rw [hphase]; decide)
  rcases answer with error | _ | _
  · rw [checkHealth]
    split_ifs with hlaunch
    · exact .attempted hphase hlaunch.1 hlaunch.2 agrees_rfl
    · exact hwalk rfl agrees_rfl
  · exact hwalk rfl agrees_rfl
  · exact hwalk rfl agrees_rfl

theorem step_of_launch (hphase : c.phase = .launching) (healthy spawned : Bool) :
    Step options c action (c.launch options healthy spawned) := by
  rw [launch]
  split_ifs
  · exact .refused hphase agrees_rfl
  · exact .spawned _ hphase
  · exact .refused hphase agrees_rfl

theorem step_of_probe {process deadline : ℕ} (hphase : c.phase = .starting process deadline)
    (healthy : Bool) (wait : Except String (Option String)) :
    Step options c (.probe healthy wait) (c.probe process deadline healthy wait) := by
  cases healthy with
  | true => exact .started hphase wait
  | false =>
    rcases wait with error | _ | status
    · have hagrees : c.snapshot.Agrees (c.launchFailed error).snapshot := ⟨rfl, rfl, rfl⟩
      exact .abandoned hphase hagrees error
    · by_cases hdeadline : deadline ≤ c.clock
      · have hprobe : c.probe process deadline false (.ok none) = (c.forget process).launchFailed
            "node API was not ready before the startup timeout" := if_pos hdeadline
        rw [hprobe]
        exact .failed hphase agrees_rfl
      · have hprobe : c.probe process deadline false (.ok none) = c := if_neg hdeadline
        rw [hprobe]
        exact .starting hphase
    · exact .failed hphase agrees_rfl

theorem step_of_report {launched : Bool} (hphase : c.phase = .refreshing launched)
    {report : Report α} (h : c.next options (.report report) = some c') :
    Step options c (.report report) c' := by
  simp only [next, hphase, Report.refreshSnapshot] at h
  rcases hview : report.view with error | view
  · rw [hview] at h
    cases launched with
    | true =>
      obtain rfl := Option.some.inj h
      exact .unrefreshed hphase agrees_rfl
    | false =>
      obtain rfl := Option.some.inj h
      exact .walked (by rw [hphase]; rfl) rfl agrees_rfl fun hidle ↦
        absurd hidle (by rw [hphase]; decide)
  · rw [hview] at h
    obtain rfl := Option.some.inj h
    exact .refreshed hphase hview

/-- **What a step can do.** -/
theorem step_of_next (h : c.next options action = some c') : Step options c action c' := by
  cases action with
  | tick elapsed =>
    obtain rfl := Option.some.inj h
    exact .ticked elapsed
  | send command =>
    obtain rfl := Option.some.inj h
    exact .sent command
  | close =>
    obtain rfl := Option.some.inj h
    exact .closed
  | proceed => exact step_of_proceed h
  | respond answer =>
    simp only [next] at h
    split at h
    · rename_i command queue hphase hqueue
      obtain rfl := Option.some.inj h
      exact .handled hphase hqueue answer
    · cases h
  | reap status =>
    simp only [next] at h
    split at h
    · rename_i hphase
      split at h
      · rename_i process status hchild
        obtain rfl := Option.some.inj h
        exact .reaped hphase hchild agrees_rfl
      · obtain rfl := Option.some.inj h
        exact .walked (by rw [hphase]; rfl) rfl agrees_rfl fun _ ↦ ⟨rfl, .inl rfl⟩
    · cases h
  | configure outcome =>
    simp only [next] at h
    split at h
    · rename_i hphase
      obtain rfl := Option.some.inj h
      exact .walked (by rw [hphase]; rfl) rfl agrees_rfl fun hidle ↦
        absurd hidle (by rw [hphase]; decide)
    · rename_i error hphase
      obtain rfl := Option.some.inj h
      exact .walked (by rw [hphase]; rfl) rfl agrees_rfl fun hidle ↦
        absurd hidle (by rw [hphase]; decide)
    · cases h
  | health answer =>
    simp only [next] at h
    split at h
    · rename_i hphase
      obtain rfl := Option.some.inj h
      exact step_of_checkHealth hphase answer
    · cases h
  | report report =>
    rcases hphase : c.phase with _ | _ | _ | _ | _ | _ | launched
    case refreshing => exact step_of_report hphase h
    all_goals
      simp only [next, hphase] at h
      cases h
  | launch healthy spawned =>
    simp only [next] at h
    split at h
    · rename_i hphase
      obtain rfl := Option.some.inj h
      exact step_of_launch hphase healthy spawned
    · cases h
  | probe healthy wait =>
    simp only [next] at h
    split at h
    · rename_i process deadline hphase
      obtain rfl := Option.some.inj h
      exact step_of_probe hphase healthy wait
    · cases h

end Controller

end TripTorrent.Desktop

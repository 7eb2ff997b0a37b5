import PmTiny.Windows.Control

namespace PmTiny.Windows
set_option autoImplicit true

/-- A completion handler that the pipe server runs. One read of a session can carry several
requests. -/
inductive Callback where
  | requests (session : Nat) (messages : List (Nat × Request))
  | processExit (name : String) (generation exitCode : Nat)
  | processLog (name : String) (generation stream : Nat) (data : List UInt8)
  | processLogEof (name : String) (generation stream : Nat)
  | closed (session : Nat)

/-- What moves the daemon: a callback, the body of the main loop, the end of its wait, the stop
request of the console or the service manager, and the end of a save. -/
inductive Input where
  | callback (callback : Callback)
  | tick
  | wake
  | stopSignal
  | saveDone (result : Int)

def planProcessLifecycle (c : Core) (nowMs : Int) (persistenceBusy : Bool) : LifecycleTickPlan :=
  planLifecycleTick nowMs (c.processes.zipIdx.map fun (p, index) => p.observation index)
    persistenceBusy

namespace Daemon

def dueNames (c : Core) (plan : LifecycleTickPlan) : List String :=
  plan.dueRestarts.filterMap fun index => (c.processes[index]?).map ProcessHandle.name

def timeoutNames (c : Core) (plan : LifecycleTickPlan) : List (String × LifecycleTimeoutEvent) :=
  plan.timeouts.filterMap fun event =>
    (c.processes[event.processIndex]?).map fun p => (p.name, event)

def restartDue (ω : System) (s : Daemon) (nowMs : Int) (name : String) : Daemon :=
  match (s.pollProgramLog ω name).attemptLaunch ω name (.due nowMs) with
  | (.error _, s) => s
  | (.ok (), s) =>
    if (s.find name).any fun p => p.config.startTimeout = 0 then
      (((s.setProcess name fun p => { p with ready := true }).startOperation
        (.markReady name)).scheduleDependencyLaunch ω).1
    else s

def handleTimeout (ω : System) (s : Daemon) (nowMs : Int) (name : String)
    (event : LifecycleTimeoutEvent) : Daemon :=
  match event.action with
  | .acceptReady =>
    (((s.setProcess name fun p =>
      { p with ready := true, lastTickMs := nowMs, heartbeatActionDueMs := 0 }).startOperation
      (.markReady name)).scheduleDependencyLaunch ω).1
  | .ignore => s.setProcess name fun p =>
      { p with heartbeatActionDueMs := nowMs + max 1 p.config.heartbeatTimeout.toInt * 1000 }
  | .restart => (s.requestProgramTermination ω name .failureRestart 1).2
  | .reboot => s

def automaticRestart (p : ProcessHandle) : Bool :=
  p.completionAction = .automatic && p.config.daemon && !p.disableRestart

def shouldRestart (c : Core) (p : ProcessHandle) : Bool :=
  !c.shutdownScheduled && !c.reloadPending &&
    (p.completionAction = .restart || p.completionAction = .failureRestart || automaticRestart p)

def restartDecision (p : ProcessHandle) (nowMs : Int) : RestartDecision × RestartPolicyState :=
  planAutomaticRestart (restartPolicyConfig p.config) p.restartState nowMs
    (if p.launchTimeMs > 0 then nowMs - p.launchTimeMs else 0)

/-- The completed process is restarted as its client asked, or as the restart policy allows. -/
def planRestart (s : Daemon) (nowMs : Int) (p : ProcessHandle) : Daemon :=
  if p.completionAction = .restart then
    s.setProcess p.name fun p =>
      { p.reset with restartState := {}, restartPending := true, restartDueMs := nowMs }
  else
    let (decision, state) := restartDecision p nowMs
    if decision.restart then
      ((s.record (.granted p.name)).setProcess p.name fun p =>
        { p.reset with
          restartState := state
          restartPending := true
          restartDueMs := nowMs + decision.delayMs }).markPending p.name
    else
      let s := s.setProcess p.name fun p =>
        { p.reset with restartState := state, restartPending := false, restartDueMs := 0 }
      if p.completionAction = .failureRestart then s.markFailed p.name else s

def retire (s : Daemon) (p : ProcessHandle) : Daemon :=
  let s := s.setProcess p.name (·.reset)
  match p.completionAction with
  | .remove => s.markIdle p.name
  | .deleteConfig => { s with configMap := eraseConfig p.name s.configMap }.removeProcess p.name
  | .automatic | .restart | .failureRestart => if p.ready then s else s.markFailed p.name

def complete (ω : System) (s : Daemon) (nowMs : Int) (name : String) : Daemon :=
  let s := s.pollProgramLog ω name
  match s.find name with
  | none => s
  | some p =>
    let s := s.record (.complete name nowMs)
    if shouldRestart s.toCore p then s.planRestart nowMs p else s.retire p

def drain (ω : System) (s : Daemon) (nowMs : Int) (name : String) (rootActive treeEmpty : Bool) :
    Daemon :=
  match s.find name with
  | none => s
  | some p =>
    if !rootActive ∧ !treeEmpty ∧ p.termination.phase = .none then
      (s.requestProgramTermination ω name .automatic 1).2
    else if !treeEmpty ∨ !p.logsEof then s
    else s.complete ω nowMs name

def tickProcess (ω : System) (nowMs : Int) (dueRestarts : List String) (s : Daemon)
    (name : String) : Daemon :=
  let s := (s.pollProgramLog ω name).tick
  match s.find name with
  | none => s
  | some p =>
    if !p.hasProcess then
      if name ∈ dueRestarts ∧ p.restartPending ∧ !s.shutdownScheduled ∧ !s.reloadPending ∧
          p.restartDueMs ≤ nowMs then s.restartDue ω nowMs name
      else s
    else
      let s := match s.timeouts.lookup name with
        | some event => if !p.rootExitObserved ∧ event.generation = p.generation then
            s.handleTimeout ω nowMs name event
          else s
        | none => s
      match s.pollProgramTermination ω name nowMs with
      | (.error _, s) => s
      | (.ok treeEmpty, s) => s.drain ω nowMs name (!p.rootExitObserved) treeEmpty

def allProcessesStopped (c : Core) : Bool :=
  c.processes.all fun p => !p.hasProcess && p.termination.phase = .none

def swapReload (ω : System) (s : Daemon) : Daemon :=
  let s := { s.record .swapReload with
    configMap := configMapOf s.reloadPrograms
    processes := [] }
  let s := match buildDependencies s.reloadPrograms with
    | .error _ => s
    | .ok graph => ((((s.replaceDependencies graph).ensureProcessRecords
        s.reloadPrograms).startOperation .requestAll).scheduleDependencyLaunch ω).1
  { s with reloadPrograms := [], reloadPending := false }

def beginShutdown (ω : System) (s : Daemon) : Daemon :=
  { s with shutdownScheduled := true, reloadPending := false, reloadPrograms := [] }.stopAll ω

/-- The first part of the main loop's body: every process by the plan of the tick. -/
def tickProcesses (ω : System) (s : Daemon) : Daemon :=
  let nowMs := ω.clock s.ticks
  let plan := planProcessLifecycle s.toCore nowMs s.persistence.busy
  let dueRestarts := dueNames s.toCore plan
  let s : Daemon := { s.tick with timeouts := timeoutNames s.toCore plan }
  let s := if s.shouldStop ∧ !s.shutdownScheduled then s.beginShutdown ω else s
  let s := (s.processes.map ProcessHandle.name).foldl (tickProcess ω nowMs dueRestarts) s
  { s with timeouts := [] }

def runTick (ω : System) (s : Daemon) : Daemon :=
  let s := s.tickProcesses ω
  let stopped := allProcessesStopped s.toCore
  let s := if s.reloadPending ∧ stopped ∧ !s.shutdownScheduled then s.swapReload ω else s
  if s.shutdownScheduled ∧ stopped ∧ !s.persistence.busy then { s with phase := .stopped }
  else { s.pollPendingResponses ω with phase := .waiting }

def runCallback (ω : System) (s : Daemon) : Callback → Daemon
  | .requests session messages =>
    if !s.isOpen session then s
    else messages.foldl (fun s (id, request) => s.serve ω ⟨session, id, request⟩) s
  | .processExit name generation exitCode =>
    if (name, generation) ∈ s.processWatches then
      { s with processWatches := s.processWatches.erase (name, generation) }.handleProcessExit ω
        name generation exitCode
    else s
  | .processLog name generation stream data =>
    if (name, generation, stream) ∈ s.logWatches then
      s.handleProcessLog name generation stream data false
    else s
  | .processLogEof name generation stream =>
    if (name, generation, stream) ∈ s.logWatches then
      { s with logWatches := s.logWatches.erase (name, generation, stream) }.handleProcessLog
        name generation stream [] true
    else s
  | .closed session => { s with closed := session :: s.closed }

/-- How `poll` and `run_for` end. -/
def serveWatches (ω : System) (s : Daemon) : Daemon :=
  (s.refreshProcessExitWatches ω).pollLogStreams ω

def step (ω : System) (s : Daemon) (input : Input) : Daemon :=
  match input, s.phase with
  | _, .stopped => s
  | .stopSignal, _ => { s with shouldStop := true }
  | .saveDone result, _ =>
    if s.persistence = .running then { s with persistence := .completed result } else s
  | .callback callback, .polling => s.runCallback ω callback
  | .callback callback, .waiting => { s.runCallback ω callback with phase := .woken }
  | .tick, .polling => (s.serveWatches ω).runTick ω
  | .wake, .waiting | .wake, .woken =>
    { (s.serveWatches ω).pollPendingResponses ω with phase := .polling }
  | _, _ => s

/-- The daemon once it has started the definitions it found. -/
def start (ω : System) (programs : List ProgramConfig) : Option Daemon :=
  match buildDependencies programs with
  | .error _ => none
  | .ok graph =>
    let s := (({ configMap := configMapOf programs, ticks := 1 } : Daemon).replaceDependencies
      graph).ensureProcessRecords programs
    if programs.isEmpty then some s
    else some ((s.startOperation .requestAll).scheduleDependencyLaunch ω).1

def boot (ω : System) : Option Daemon :=
  match loadProgramConfigs ω 0 with
  | .error _ => none
  | .ok programs => start ω programs

def run (ω : System) (s : Daemon) (inputs : List Input) : Daemon := inputs.foldl (step ω) s

/-- The states of the daemon between two inputs. -/
inductive Reachable (ω : System) : Daemon → Prop
  | boot : boot ω = some s → Reachable ω s
  | step (input : Input) : Reachable ω s → Reachable ω (s.step ω input)

theorem Reachable.run (h : Reachable ω s) (inputs : List Input) : Reachable ω (s.run ω inputs) := by
  induction inputs generalizing s with
  | nil => exact h
  | cons input inputs ih => exact ih (h.step input)

/-- The events that were recorded between two states of a run. -/
def since (s s' : Daemon) : List Event := s'.history.take (s'.history.length - s.history.length)

theorem run_any (inputs : List Input) (test : Daemon → Bool)
    (h : ((boot ω).any fun s => test (s.run ω inputs)) = true) :
    ∃ s, Reachable ω s ∧ test s = true := by
  obtain ⟨s, hs, htest⟩ := (Option.any_eq_true _ _).1 h
  exact ⟨_, (Reachable.boot hs).run inputs, htest⟩

end Daemon

/-- A system on which every call succeeds; `emptyFrom` says from when on a generation's process tree
is empty. -/
def simpleSystem (programs : List ProgramConfig) (emptyFrom : Nat → Option Nat) : System where
  clock n := n * 10
  unixTime n := n
  launch n _ := .ok (100 + n)
  ctrlBreak _ _ := .ok ()
  activeProcesses n _ generation := .ok (if (emptyFrom generation).any (· ≤ n) then 0 else 1)
  terminateJob _ _ _ := .ok ()
  readPipe _ _ _ := ([], false)
  watchProcess _ := true
  watchProcessLog _ := true
  queueFull _ _ := false
  readProgramFile _ := .ok programs
  loadEnvironmentSidecar _ _ := .ok []
  processId := 1

end PmTiny.Windows

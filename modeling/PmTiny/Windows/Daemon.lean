import PmTiny.Core.LifecycleOrchestrator
import PmTiny.Windows.Process

namespace PmTiny.Windows
set_option autoImplicit true

structure StartRequest where
  mode : StartMode
  name : String
  config : ProgramConfig
  inheritedEnv : List String := []
  showLog : Bool := false

/-- A decoded control request; `malformed` is one whose payload cannot be decoded. -/
inductive Request where
  | list | info | version | save | reload | quit
  | stop (name : String)
  | start (request : StartRequest)
  | remove (name : String)
  | restart (name : String) (showLog : Bool)
  | log (name : String) (mode : LogRequestMode)
  | appReady (name : String)
  | appTick (name : String)
  | inspect (name : String)
  | malformed (error : String)

def Request.name? : Request → Option String
  | .stop name | .remove name | .restart name _ | .log name _ | .appReady name | .appTick name
  | .inspect name => some name
  | .start request => some request.name
  | .list | .info | .version | .save | .reload | .quit | .malformed _ => none

structure ProgramLogResponse where
  mode : LogRequestMode
  generation : Nat
  lastPid : Nat
  lastExitTimeUnixMs : Int := 0
  exitCode : Option Nat := none
  deriving DecidableEq, Repr

/-- The part of a response after its status and message. -/
inductive ReplyBody where
  | none
  | snapshot
  | start (response : StartResponse)
  | pid (pid : Nat)
  | log (response : ProgramLogResponse)
  deriving DecidableEq, Repr

structure Reply where
  status : Int
  message : String
  body : ReplyBody := .none
  deriving DecidableEq, Repr

/-- Who calls `launch_program`: `schedule_dependency_launch`, or the main loop at a due time. -/
inductive LaunchSite where
  | dependency
  | due (nowMs : Int)
  deriving DecidableEq, Repr

/-- What `schedule_dependency_launch` forgets about a program before it launches it. -/
def ProcessHandle.prepared (p : ProcessHandle) : LaunchSite → ProcessHandle
  | .dependency => { p.clearRestart with disableRestart := false }
  | .due _ => p

/-- The calls and state writes that a run is judged by. -/
inductive Call where
  | request (request : Request)
  | startOperation (operation : StartOperation)
  | launchProgram (name : String) (site : LaunchSite) (outcome : Except String Nat)
  | terminate (name : String) (action : CompletionAction)
  | complete (name : String) (nowMs : Int)
  | granted (name : String)
  | define (config : ProgramConfig)
  | ensure (config : ProgramConfig)
  | created (config : ProgramConfig)
  | deleted (name : String)
  | swapReload
  | processExit (name : String) (generation exitCode : Nat)
  | appended (name : String) (generation : Nat) (data : List UInt8)
  | reply (session requestId : Nat) (reply : Reply)
  | pollStream (stream offset : Nat)
  | chunk (stream : Nat) (content : List UInt8)
  | final (stream : Nat) (exitEvent : String)

/-- The programs with their definitions, the dependency graph with its runtime, and the flags.
Three variables of running calls are kept here as well: `launchQueue` is the part of its worklist
that `schedule_dependency_launch` has not visited, `request` the client request that is being
handled, and `timeouts` the timeout events that the main loop has planned. -/
structure Core where
  processes : List ProcessHandle := []
  configMap : List ProgramConfig := []
  graph : DependencyGraph := .empty
  dependencies : DependencyRuntime := .reset
  reloadPending : Bool := false
  reloadPrograms : List ProgramConfig := []
  shouldStop : Bool := false
  shutdownScheduled : Bool := false
  nextGeneration : Nat := 1
  launchQueue : List String := []
  request : Option Request := none
  timeouts : List (String × LifecycleTimeoutEvent) := []

/-- A recorded call with the state it saw. -/
structure Event where
  call : Call
  core : Core

structure PendingResponse where
  session : Nat
  requestId : Nat
  request : Request
  name : String := ""
  generation : Nat := 0
  showLog : Bool := false

/-- A log stream; `key` only tells the streams of a run apart. -/
structure LogStream where
  key : Nat
  session : Nat
  requestId : Nat
  request : Request
  name : String
  generation : Nat
  offset : Nat
  followProcess : Bool
  waitingForGeneration : Bool
  mode : LogRequestMode

/-- Where the main loop is: in `poll`, in `run_for`, in `run_for` after its one callback, or
left. -/
inductive Phase where
  | polling | waiting | woken | stopped
  deriving DecidableEq, Repr

structure Daemon extends Core where
  closed : List Nat := []
  pendingResponses : List PendingResponse := []
  logStreams : List LogStream := []
  nextStream : Nat := 0
  persistence : Persistence := .idle
  processWatches : List (String × Nat) := []
  logWatches : List (String × Nat × Nat) := []
  phase : Phase := .polling
  ticks : Nat := 0
  history : List Event := []

/-- Insertion into the map, which is ordered by name and has one entry a name. -/
def insertConfig (cfg : ProgramConfig) : List ProgramConfig → List ProgramConfig
  | [] => [cfg]
  | entry :: entries =>
    if cfg.name = entry.name then cfg :: entries
    else if cfg.name < entry.name then cfg :: entry :: entries
    else entry :: insertConfig cfg entries

def configMapOf (configs : List ProgramConfig) : List ProgramConfig :=
  configs.foldl (fun entries cfg => insertConfig cfg entries) []

def findConfig (name : String) (configMap : List ProgramConfig) : Option ProgramConfig :=
  Keyed.find Persist.ProgCfg.name name configMap

def eraseConfig (name : String) (configMap : List ProgramConfig) : List ProgramConfig :=
  Keyed.remove Persist.ProgCfg.name name configMap

def buildDependencies (configs : List ProgramConfig) : Except String DependencyGraph :=
  (DependencyGraph.build (configs.map Persist.ProgCfg.dependencyNode)).mapError
    DependencyError.message

/-- Every running program that counts as ready is marked so; what that unlocks is dropped. -/
def refreshReady (graph : DependencyGraph) (processes : List ProcessHandle)
    (rt : DependencyRuntime) : DependencyRuntime :=
  processes.foldl (fun rt p => if p.up then (rt.markReady graph p.name).1 else rt) rt

def lookup (processes : List ProcessHandle) (name : String) : Option ProcessHandle :=
  Keyed.find ProcessHandle.name name processes

namespace Core

def find (c : Core) (name : String) : Option ProcessHandle := lookup c.processes name

def dependencyState (c : Core) (name : String) : DependencyRuntimeState :=
  c.dependencies.state c.graph name

/-- What a start operation hands to `schedule_dependency_launch`. -/
def handedOut (c : Core) (operation : StartOperation) : List String :=
  (operation.apply c.graph c.dependencies).2

/-- The request that is being handled names the program. -/
def Names (c : Core) (name : String) : Prop := ∃ request, c.request = some request ∧
  request.name? = some name

end Core

namespace Daemon

def record (s : Daemon) (call : Call) : Daemon :=
  { s with history := ⟨call, s.toCore⟩ :: s.history }

def tick (s : Daemon) : Daemon := { s with ticks := s.ticks + 1 }

def setProcess (s : Daemon) (name : String) (f : ProcessHandle → ProcessHandle) : Daemon :=
  { s with processes := Keyed.update ProcessHandle.name name f s.processes }

def setDependencies (s : Daemon) (rt : DependencyRuntime) : Daemon := { s with dependencies := rt }

def markFailed (s : Daemon) (name : String) : Daemon :=
  s.setDependencies (s.dependencies.markFailed s.graph name).1

def markIdle (s : Daemon) (name : String) : Daemon :=
  s.setDependencies (s.dependencies.markIdle s.graph name)

def markStarting (s : Daemon) (name : String) : Daemon :=
  s.setDependencies (s.dependencies.markStarting s.graph name)

def markPending (s : Daemon) (name : String) : Daemon :=
  s.setDependencies (s.dependencies.markPending s.graph name)

def startOperation (s : Daemon) (operation : StartOperation) : Daemon :=
  { s.record (.startOperation operation) with
    dependencies := (operation.apply s.graph s.dependencies).1
    launchQueue := s.launchQueue ++ s.handedOut operation }

def isOpen (s : Daemon) (session : Nat) : Bool := session ∉ s.closed

/-- A closed session drops the message; a full queue closes the session. -/
def send (ω : System) (s : Daemon) (session : Nat) (call : Call) : Daemon :=
  if !s.isOpen session then s
  else if ω.queueFull s.ticks session then { s.tick with closed := session :: s.closed }
  else s.tick.record call

def pollProgramLog (ω : System) (s : Daemon) (name : String) : Daemon :=
  match s.find name with
  | none => s
  | some p =>
    let read := ω.readPipe s.ticks name
    let data := p.polledChunks 0 (read 0) ++ p.polledChunks 1 (read 1)
    let s := if data.isEmpty then s else s.record (.appended name p.generation data.flatten)
    s.setProcess name fun p => (p.pollStream 0 (read 0)).pollStream 1 (read 1)

/-- `launch_program` once what is left in the old pipes has been read. -/
def launchProgram (ω : System) (s : Daemon) (name : String) : Except String Unit × Daemon :=
  match s.find name with
  | none => (.ok (), s)
  | some p =>
    let reset := (s.setProcess name (·.reset)).tick
    match ω.launch s.ticks p.config with
    | .error error => (.error error, reset)
    | .ok pid =>
      (.ok (), { reset.setProcess name (·.launched pid s.nextGeneration (ω.clock s.ticks)) with
        nextGeneration := s.nextGeneration + 1 })

/-- A launch on behalf of a site: the call is recorded, and the runtime learns its outcome. -/
def attemptLaunch (ω : System) (s : Daemon) (name : String) (site : LaunchSite) :
    Except String Unit × Daemon :=
  match s.find name with
  | none => (.ok (), s)
  | some p =>
    let recorded := s.record (.launchProgram name site (ω.launch s.ticks p.config))
    match (recorded.setProcess name (·.prepared site)).launchProgram ω name with
    | (.error error, s) => (.error error, s.markFailed name)
    | (.ok (), s) => (.ok (), s.markStarting name)

/-- One round of `schedule_dependency_launch`: the next name, those after it, and the failures so
far. -/
def launchNext (ω : System) (s : Daemon) (name : String) (rest failures : List String) :
    Daemon × List String :=
  match s.find name with
  | none => ({ s with launchQueue := rest }, failures)
  | some p =>
    if p.hasProcess then ({ s with launchQueue := rest }, failures)
    else
      let s : Daemon := { s.pollProgramLog ω name with launchQueue := rest }
      match s.attemptLaunch ω name .dependency with
      | (.error error, s) => (s, failures ++ [name ++ ": " ++ error])
      | (.ok (), s) =>
        if p.config.startTimeout = 0 then
          ((s.setProcess name fun p => { p with ready := true }).startOperation (.markReady name),
            failures)
        else (s, failures)

def launchAll (ω : System) : Nat → Daemon → List String → Daemon × List String
  | 0, s, failures => (s, failures)
  | fuel + 1, s, failures =>
    match s.launchQueue with
    | [] => (s, failures)
    | name :: rest =>
      let (s, failures) := s.launchNext ω name rest failures
      launchAll ω fuel s failures

/-- Each started program can unlock every node once, so this many rounds empty the worklist. -/
def launchRounds (s : Daemon) : Nat := s.launchQueue.length + s.processes.length * s.graph.size

def scheduleDependencyLaunch (ω : System) (s : Daemon) : Daemon × List String :=
  let (s, failures) := s.launchAll ω s.launchRounds []
  ({ s with launchQueue := [] }, failures)

def forceTerminateProgram (ω : System) (s : Daemon) (p : ProcessHandle) : Except String Unit :=
  match ω.activeProcesses s.ticks p.name p.generation with
  | .error code => .error ("QueryInformationJobObject failed with error code " ++ code.repr)
  | .ok 0 => .ok ()
  | .ok _ =>
    match ω.terminateJob s.ticks p.name p.generation with
    | .error code => .error ("Failed to terminate process tree with error code " ++ code.repr)
    | .ok () => .ok ()

/-- The result is the error, or the warning that goes with a success. -/
def requestProgramTermination (ω : System) (s : Daemon) (name : String) (action : CompletionAction)
    (exitCode : Nat) : Except String String × Daemon :=
  match s.find name with
  | none => (.ok "", s)
  | some p =>
    if !p.hasProcess then (.ok "", s)
    else
      let (toSend, job) :=
        p.termination.request p.generation (ω.clock s.ticks) p.config.killTimeoutS.toInt
      let requested := (s.record (.terminate name action)).setProcess name fun p =>
        { p with completionAction := action, terminationExitCode := exitCode, termination := job }
      if toSend = .none then (.ok "", requested.tick)
      else match ω.ctrlBreak s.ticks p.processId with
        | .ok () => (.ok "", requested.tick)
        | .error code =>
          let forced := (requested.setProcess name fun p =>
            { p with termination := (p.termination.force p.generation).2 }).tick
          match forced.forceTerminateProgram ω p with
          | .error error => (.error ("GenerateConsoleCtrlEvent failed with error code " ++
              code.repr ++ "; " ++ error), forced.tick)
          | .ok () => (.ok ("graceful termination unavailable (error code " ++ code.repr ++
              "); forced process tree termination"), forced.tick)

def pollProgramTermination (ω : System) (s : Daemon) (name : String) (nowMs : Int) :
    Except String Bool × Daemon :=
  match s.find name with
  | none => (.ok true, s)
  | some p =>
    match ω.activeProcesses s.ticks name p.generation with
    | .error code =>
      (.error ("QueryInformationJobObject failed with error code " ++ code.repr), s.tick)
    | .ok active =>
      let (toSend, job) := p.termination.poll p.generation nowMs (active = 0)
      let s := (s.setProcess name fun p => { p with termination := job }).tick
      if toSend ≠ .sendKill then (.ok (decide (active = 0)), s)
      else match s.forceTerminateProgram ω p with
        | .error error => (.error error, s.tick)
        | .ok () => (.ok (decide (active = 0)), s.tick)

/-- The record of a program is added, or its definition replaced. -/
def ensureProcessRecord (s : Daemon) (cfg : ProgramConfig) : Daemon :=
  match s.find cfg.name with
  | none => { s.record (.ensure cfg) with processes := s.processes ++ [{ config := cfg }] }
  | some _ => (s.record (.ensure cfg)).setProcess cfg.name fun p => { p with config := cfg }

def ensureProcessRecords (s : Daemon) (configs : List ProgramConfig) : Daemon :=
  configs.foldl ensureProcessRecord s

def replaceDependencies (s : Daemon) (graph : DependencyGraph) : Daemon :=
  { s with
    graph := graph
    dependencies := .migrate graph (s.dependencies.snapshot s.graph) }

def refresh (s : Daemon) : Daemon :=
  s.setDependencies (refreshReady s.graph s.processes s.dependencies)

end Daemon
end PmTiny.Windows
